import LittleComputer.Machine

/-! The front panel: registers and memory cells examined and set from outside, by number. Any
integer is accepted as a value and truncated to a word. Cells may also be counted from the end
of memory by negative numbers; only the number `0xFE00` itself reaches the keyboard. -/
namespace LittleComputer

inductive PanelError where
  | noRegister (number : Int)
  | noCellToExamine
  | noCellToSet
  | notAnIndex
  deriving DecidableEq, Repr

def PanelError.message : PanelError → String
  | .noRegister number => toString number
  | .noCellToExamine => "array index out of range"
  | .noCellToSet => "array assignment index out of range"
  | .notAnIndex => "cannot fit 'int' into an index-sized integer"

namespace State

/-- The number of the program counter, after those of the general registers. -/
def pcNumber : Int := 8

def condNumber : Int := 9

def register? (s : State) (number : Int) : Option Word :=
  if 0 ≤ number ∧ number < 8 then some (s.reg (BitVec.ofInt 3 number))
  else if number = pcNumber then some s.pc
  else if number = condNumber then some s.cond
  else s.spare.lookup number

def examineRegister (s : State) (number : Int) : Except PanelError Word :=
  match s.register? number with
  | some w => .ok w
  | none => .error (.noRegister number)

/-- Sets a register, which comes into being if there was none of that number. -/
def setRegister (s : State) (number value : Int) : State :=
  let w := Word.ofInt value
  if 0 ≤ number ∧ number < 8 then s.setReg (BitVec.ofInt 3 number) w
  else if number = pcNumber then { s with pc := w }
  else if number = condNumber then { s with cond := w }
  else { s with spare := (number, w) :: s.spare.filter (·.1 != number) }

def setRegisters (s : State) (values : List Int) : State :=
  (values.zipIdx.foldl fun s (value, number) => s.setRegister number value) s

/-- Makes the condition code describe a register. -/
def describe (s : State) (number : Int) : Except PanelError State :=
  (s.examineRegister number).map fun w => { s with cond := Condition.ofWord w }

def setPc (s : State) (value : Int) : State := { s with pc := Word.ofInt value }

def movePc (s : State) (distance : Int) : State := s.setPc (s.pc.toNat + distance)

end State

namespace Memory

def address? (number : Int) : Option Word :=
  if -65536 ≤ number ∧ number < 65536 then some (Word.ofInt number) else none

/-- Why there is no cell of a number: it has more than 64 bits, or else as given. -/
def absence (number : Int) (otherwise : PanelError) : PanelError :=
  if -9223372036854775808 ≤ number ∧ number < 9223372036854775808 then otherwise else .notAnIndex

/-- A cell number as one end of a range, which memory cuts off on both sides. -/
def bound (number : Int) : Nat :=
  if number < 0 then (number + 65536).toNat else min number.toNat 65536

/-- The words from one cell number up to another, the latter excluded. -/
def slice (mem : Memory) (first last : Int) : List Word :=
  (List.range' (bound first) (bound last - bound first)).map fun a => mem.get (BitVec.ofNat 16 a)

end Memory

namespace State

/-- Sets one cell. The state comes back unchanged with an error. -/
def deposit (s : State) (number value : Int) : Option PanelError × State :=
  match Memory.address? number with
  | some a => (none, s.store a (Word.ofInt value))
  | none => (some (Memory.absence number .noCellToSet), s)

/-- Sets the cells from a number on; the first that does not exist ends it. -/
def depositEach (s : State) (number : Int) : List Int → Option PanelError × State
  | [] => (none, s)
  | value :: rest =>
    match s.deposit number value with
    | (none, s) => s.depositEach (number + 1) rest
    | stopped => stopped

/-- Sets `count` cells from a number on to one value. -/
def fill (s : State) (number value : Int) : (count : Nat) → Option PanelError × State
  | 0 => (none, s)
  | count + 1 =>
    match s.deposit number value with
    | (none, s) => s.fill (number + 1) value count
    | stopped => stopped

end State

namespace Machine

/-- Examines one cell; examining the keyboard status polls the keyboard first. -/
def examine [Console κ] (m : Machine κ) (number : Int) : Except PanelError Word × Machine κ :=
  let m := if number = keyboardStatus.toNat then m.pollKeyboard else m
  match Memory.address? number with
  | some a => (.ok (m.state.memory.get a), m)
  | none => (.error (Memory.absence number .noCellToExamine), m)

end Machine

end LittleComputer
