import LittleComputer.Condition
import LittleComputer.Memory
import LittleComputer.Registers

/-! The state of a machine apart from its console. -/
namespace LittleComputer

structure State where
  registers : Registers := .cleared
  pc : Word := 0x3000
  cond : Word := Condition.zero
  /-- Registers that exist only because they were written by number from outside. -/
  spare : List (Int × Word) := []
  memory : Memory := .blank
  /-- The number of instructions begun. -/
  count : Nat := 0
  running : Bool := true
  /-- Whether loading warns about words that do not fit into memory. -/
  warn : Bool := true

namespace State

def initial : State := {}

def halted (s : State) : Bool := !s.running

def reg (s : State) (r : Reg) : Word := s.registers.get r

def setReg (s : State) (r : Reg) (w : Word) : State :=
  { s with registers := s.registers.set r w }

/-- Writes a result: the register takes the word and the condition code describes it. -/
def assign (s : State) (r : Reg) (w : Word) : State :=
  { s with registers := s.registers.set r w, cond := Condition.ofWord w }

def jump (s : State) (a : Word) : State := { s with pc := a }

def store (s : State) (a w : Word) : State := { s with memory := s.memory.set a w }

/-- The part of a step between fetching and executing: the instruction is counted and the
program counter moves past it. -/
def advance (s : State) : State := { s with count := s.count + 1, pc := s.pc + 1 }

/-- The condition code is one that a result can have. -/
def WellFormed (s : State) : Prop :=
  s.cond = Condition.positive ∨ s.cond = Condition.zero ∨ s.cond = Condition.negative

@[simp] theorem reg_setReg (s : State) (r t : Reg) (w : Word) :
    (s.setReg r w).reg t = if r = t then w else s.reg t := Registers.get_set ..

@[simp] theorem reg_assign (s : State) (r t : Reg) (w : Word) :
    (s.assign r w).reg t = if r = t then w else s.reg t := Registers.get_set ..

@[simp] theorem reg_store (s : State) (a w : Word) (r : Reg) : (s.store a w).reg r = s.reg r := rfl

@[simp] theorem reg_advance (s : State) (r : Reg) : s.advance.reg r = s.reg r := rfl

@[simp] theorem reg_initial (r : Reg) : initial.reg r = 0 := Registers.get_cleared r

theorem wellFormed_initial : initial.WellFormed := .inr (.inl rfl)

theorem wellFormed_assign (s : State) (r : Reg) (w : Word) : (s.assign r w).WellFormed :=
  Condition.ofWord_cases w

end State

end LittleComputer
