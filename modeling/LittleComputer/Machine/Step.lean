import LittleComputer.Instruction
import LittleComputer.Machine
import LittleComputer.Machine.Outcome
import LittleComputer.Service
import LittleComputer.Text.Latin

/-! Executing instructions. A step fetches the word at the program counter, counts it, moves the
counter past it and executes it; a fault, an interruption or an endless wait leaves everything
as it stood when it arose. A run makes steps until the machine halts or one of them does not
complete, and is interrupted when its limit of steps is used up. -/
namespace LittleComputer.Machine

def haltMessage : String := "HALT\n"
def inputPrompt : String := "Enter a character: "

variable {κ : Type} [Console κ]

def operand (m : Machine κ) : Operand → Word
  | .register r => m.state.reg r
  | .immediate bits => bits.signExtend 16

def awaitKey (m : Machine κ) (next : Key → Machine κ → Machine κ) : Outcome × Machine κ :=
  match Console.read m.console with
  | (.key key, console) => (.done, next key { m with console })
  | (.interrupted, console) => (.interrupted, { m with console })
  | (.never, console) => (.unending, { m with console })

/-- Writes the text at the address in register 0, as bytes that `bytesOf` makes of each word. -/
def putText (m : Machine κ) (bytesOf : Word → List UInt8) : Outcome × Machine κ :=
  match m.state.memory.textFrom? (m.state.reg 0) with
  | some words => (.done, (m.write (words.flatMap bytesOf)).flush)
  | none => (.unending, m)

/-- The bytes of a packed word, low byte first; a high byte of zero is not one of them. -/
def unpack (w : Word) : List UInt8 := if w.high = 0 then [w.low] else [w.low, w.high]

def serve (m : Machine κ) : Service → Outcome × Machine κ
  | .getc => m.awaitKey fun key m => m.map (·.assign 0 key.word)
  | .out => (.done, (m.write [(m.state.reg 0).low]).flush)
  | .puts => m.putText fun w => [w.low]
  | .prompt =>
    let m := (m.write (Latin.lowBytes inputPrompt)).flush
    m.awaitKey fun key m => ((m.write [key.echo]).flush).map (·.assign 0 key.word)
  | .putsp => m.putText unpack
  | .halt =>
    (.done, ((m.write (Latin.lowBytes haltMessage)).flush).map ({ · with running := false }))

/-- Calls the service with a vector; the return address is in register 7 even if there is none. -/
def trap (m : Machine κ) (vector : BitVec 8) : Outcome × Machine κ :=
  let m := m.map fun s => s.setReg 7 s.pc
  match Service.ofVector? vector with
  | some service => m.serve service
  | none => (.fault (.badVector vector), m)

/-- Executes an instruction that has been fetched already. -/
def perform (m : Machine κ) : Instruction → Outcome × Machine κ
  | .br mask offset =>
    (.done, m.map fun s =>
      if mask.setWidth 16 &&& s.cond = 0 then s else s.jump (reach s.pc offset))
  | .add target source operand =>
    (.done, m.map (·.assign target (m.state.reg source + m.operand operand)))
  | .ld target offset =>
    let (w, m) := m.load (reach m.state.pc offset)
    (.done, m.map (·.assign target w))
  | .st source offset =>
    (.done, m.map fun s => s.store (reach s.pc offset) (s.reg source))
  | .jsr offset =>
    (.done, m.map fun s => (s.setReg 7 s.pc).jump (reach s.pc offset))
  | .jsrr base =>
    (.done, m.map fun s =>
      let s := s.setReg 7 s.pc
      s.jump (s.reg base))
  | .and target source operand =>
    (.done, m.map (·.assign target (m.state.reg source &&& m.operand operand)))
  | .ldr target base offset =>
    let (w, m) := m.load (reach (m.state.reg base) offset)
    (.done, m.map (·.assign target w))
  | .str source base offset =>
    (.done, m.map fun s => s.store (reach (s.reg base) offset) (s.reg source))
  | .not target source => (.done, m.map fun s => s.assign target (~~~ s.reg source))
  | .ldi target offset =>
    let (pointer, m) := m.load (reach m.state.pc offset)
    let (w, m) := m.load pointer
    (.done, m.map (·.assign target w))
  | .sti source offset =>
    let (pointer, m) := m.load (reach m.state.pc offset)
    (.done, m.map fun s => s.store pointer (s.reg source))
  | .jmp base => (.done, m.map fun s => s.jump (s.reg base))
  | .lea target offset => (.done, m.map fun s => s.assign target (reach s.pc offset))
  | .trap vector => m.trap vector
  | .reserved word => (.fault (.reserved word), m)

/-- Executes a word as if it had been fetched. -/
def execute (m : Machine κ) (word : Word) : Outcome × Machine κ :=
  m.perform (Instruction.decode word)

/-- A halted machine does nothing. -/
def step (m : Machine κ) : Outcome × Machine κ :=
  if m.state.running then
    let (word, m) := m.load m.state.pc
    (m.map (·.advance)).execute word
  else (.done, m)

def run : (limit : Nat) → Machine κ → Outcome × Machine κ
  | 0, m => (if m.state.running then .interrupted else .done, m)
  | limit + 1, m =>
    if m.state.running then
      match m.step with
      | (.done, m) => run limit m
      | stopped => stopped
    else (.done, m)

theorem step_of_halted (m : Machine κ) (h : m.state.running = false) : m.step = (.done, m) := by
  simp [step, h]

theorem run_of_halted (m : Machine κ) (h : m.state.running = false) (limit : Nat) :
    m.run limit = (.done, m) := by
  cases limit <;> simp [run, h]

end LittleComputer.Machine
