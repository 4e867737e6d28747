import LittleComputer.Machine.Step

/-! A step seen from the console. Whatever the instruction, a step comes to a single exchange: it
may say something and flush it, or poll the keyboard once, or wait for one key, which it may
prompt for and echo. The state afterwards depends on the state before and on the answer alone. -/
namespace LittleComputer

inductive Ask where
  | poll
  | key
  deriving DecidableEq, Repr

inductive Exchange where
  | quiet (outcome : Outcome) (state : State) (said : Option (List UInt8))
  | poll (result : Option Key → Outcome × State)
  | await (state : State) (prompted : Bool)

namespace Exchange

open Machine

def ask : Exchange → Option Ask
  | .quiet .. => none
  | .poll _ => some .poll
  | .await .. => some .key

theorem eq_quiet_of_ask {e : Exchange} (asked : e.ask = none) :
    ∃ outcome state said, e = .quiet outcome state said := by
  cases e with
  | quiet outcome state said => exact ⟨outcome, state, said, rfl⟩
  | _ => cases asked

theorem eq_poll_of_ask {e : Exchange} (asked : e.ask = some .poll) :
    ∃ result, e = .poll result := by
  cases e with
  | poll result => exact ⟨result, rfl⟩
  | _ => cases asked

theorem eq_await_of_ask {e : Exchange} (asked : e.ask = some .key) :
    ∃ state prompted, e = .await state prompted := by
  cases e with
  | await state prompted => exact ⟨state, prompted, rfl⟩
  | _ => cases asked

def status (found : Option Key) : Word := if found.isSome then keyReady else 0

/-- Reads the word at an address and goes on with it. -/
def load (s : State) (a : Word) (next : Word → State → State) : Exchange :=
  if a = keyboardStatus then .poll fun found => (.done, next (status found) (latch found s))
  else .quiet .done (next (s.memory.get a) s) none

def putText (s : State) (bytesOf : Word → List UInt8) : Exchange :=
  match s.memory.textFrom? (s.reg 0) with
  | some words => .quiet .done s (some (words.flatMap bytesOf))
  | none => .quiet .unending s none

def ofService (s : State) : Service → Exchange
  | .getc => .await s false
  | .out => .quiet .done s (some [(s.reg 0).low])
  | .puts => putText s fun w => [w.low]
  | .prompt => .await s true
  | .putsp => putText s unpack
  | .halt => .quiet .done { s with running := false } (some (Latin.lowBytes haltMessage))

def operand (s : State) : Operand → Word
  | .register r => s.reg r
  | .immediate bits => bits.signExtend 16

def ofInstruction (s : State) : Instruction → Exchange
  | .br mask offset =>
    .quiet .done (if mask.setWidth 16 &&& s.cond = 0 then s else s.jump (reach s.pc offset)) none
  | .add target source second =>
    .quiet .done (s.assign target (s.reg source + operand s second)) none
  | .ld target offset => load s (reach s.pc offset) fun w s => s.assign target w
  | .st source offset => .quiet .done (s.store (reach s.pc offset) (s.reg source)) none
  | .jsr offset => .quiet .done ((s.setReg 7 s.pc).jump (reach s.pc offset)) none
  | .jsrr base => .quiet .done ((s.setReg 7 s.pc).jump ((s.setReg 7 s.pc).reg base)) none
  | .and target source second =>
    .quiet .done (s.assign target (s.reg source &&& operand s second)) none
  | .ldr target base offset => load s (reach (s.reg base) offset) fun w s => s.assign target w
  | .str source base offset =>
    .quiet .done (s.store (reach (s.reg base) offset) (s.reg source)) none
  | .not target source => .quiet .done (s.assign target (~~~ s.reg source)) none
  | .ldi target offset =>
    if reach s.pc offset = keyboardStatus then
      .poll fun found =>
        let s := latch found s
        (.done, s.assign target (s.memory.get (status found)))
    else load s (s.memory.get (reach s.pc offset)) fun w s => s.assign target w
  | .sti source offset => load s (reach s.pc offset) fun w s => s.store w (s.reg source)
  | .jmp base => .quiet .done (s.jump (s.reg base)) none
  | .lea target offset => .quiet .done (s.assign target (reach s.pc offset)) none
  | .trap vector =>
    match Service.ofVector? vector with
    | some service => ofService (s.setReg 7 s.pc) service
    | none => .quiet (.fault (.badVector vector)) (s.setReg 7 s.pc) none
  | .reserved word => .quiet (.fault (.reserved word)) s none

/-- The exchange of a step. A status that is fetched is a branch that is never taken if no key was
there, and a reserved word otherwise. -/
def ofState (s : State) : Exchange :=
  if s.running then
    if s.pc = keyboardStatus then
      .poll fun found =>
        (if found.isSome then .fault (.reserved keyReady) else .done, (latch found s).advance)
    else ofInstruction s.advance (Instruction.decode (s.memory.get s.pc))
  else .quiet .done s none

def say [Console κ] (said : Option (List UInt8)) (console : κ) : κ :=
  match said with
  | some bytes => Console.flush (Console.write bytes console)
  | none => console

def promptOf (prompted : Bool) : Option (List UInt8) :=
  if prompted then some (Latin.lowBytes inputPrompt) else none

def echoOf (prompted : Bool) (k : Key) : Option (List UInt8) :=
  if prompted then some [k.echo] else none

/-- Carries an exchange out on a console. -/
def play [Console κ] (e : Exchange) (console : κ) : Outcome × Machine κ :=
  match e with
  | .quiet outcome state said => (outcome, ⟨state, say said console⟩)
  | .poll result =>
    let (found, console) := Console.poll console
    ((result found).1, ⟨(result found).2, console⟩)
  | .await state prompted =>
    match Console.read (say (promptOf prompted) console) with
    | (.key k, console) => (.done, ⟨state.assign 0 k.word, say (echoOf prompted k) console⟩)
    | (.interrupted, console) => (.interrupted, ⟨state, console⟩)
    | (.never, console) => (.unending, ⟨state, console⟩)

/-- What waiting for a key comes to. -/
def outcomeOf : Answer → Outcome
  | .key _ => .done
  | .interrupted => .interrupted
  | .never => .unending

variable {κ : Type} [Console κ]

theorem outcome_play_await (state : State) (prompted : Bool) (console : κ) :
    ((await state prompted).play console).1 =
      outcomeOf (Console.read (say (promptOf prompted) console)).1 := by
  simp only [play]
  generalize Console.read (say (promptOf prompted) console) = reply
  rcases reply with ⟨_ | _ | _, _⟩ <;> rfl

theorem load_status (m : Machine κ) :
    m.load keyboardStatus =
      (status (Console.poll m.console).1,
        ⟨latch (Console.poll m.console).1 m.state, (Console.poll m.console).2⟩) := by
  have word := load_keyboardStatus m
  rw [Console.ready] at word
  exact Prod.ext word rfl

theorem status_ne (found : Option Key) : status found ≠ keyboardStatus := by
  unfold status
  split <;> decide

theorem play_load (m : Machine κ) (a : Word) (next : Word → State → State) :
    (load m.state a next).play m.console =
      (.done, (m.load a).2.map (next (m.load a).1)) := by
  by_cases polled : a = keyboardStatus
  · subst polled
    rw [load, if_pos rfl, load_status]
    rfl
  · rw [load, if_neg polled, load_of_ne m polled]
    rfl

theorem play_putText (m : Machine κ) (bytesOf : Word → List UInt8) :
    (putText m.state bytesOf).play m.console = m.putText bytesOf := by
  unfold putText Machine.putText
  cases m.state.memory.textFrom? (m.state.reg 0) <;> rfl

theorem play_ofService (m : Machine κ) (service : Service) :
    (ofService m.state service).play m.console = m.serve service := by
  cases service with
  | getc =>
    simp only [ofService, play, serve, awaitKey, say, promptOf, echoOf, Bool.false_eq_true, if_false]
    rcases Console.read m.console with ⟨_ | _ | _, console⟩ <;> rfl
  | out => rfl
  | puts => exact play_putText m _
  | prompt =>
    simp only [ofService, play, serve, awaitKey, say, promptOf, echoOf, if_true, write, flush]
    rcases Console.read _ with ⟨_ | _ | _, console⟩ <;> rfl
  | putsp => exact play_putText m _
  | halt => rfl

theorem play_ofInstruction (m : Machine κ) (i : Instruction) :
    (ofInstruction m.state i).play m.console = m.perform i := by
  cases i with
  | br mask offset => rfl
  | add target source second => cases second <;> rfl
  | ld target offset => exact play_load m _ fun w s => s.assign target w
  | st source offset => rfl
  | jsr offset => rfl
  | jsrr base => rfl
  | and target source second => cases second <;> rfl
  | ldr target base offset => exact play_load m _ fun w s => s.assign target w
  | str source base offset => rfl
  | not target source => rfl
  | ldi target offset =>
    simp only [ofInstruction, perform]
    by_cases polled : reach m.state.pc offset = keyboardStatus
    · rw [if_pos polled, polled, load_status, load_of_ne _ (status_ne _)]
      rfl
    · rw [if_neg polled, load_of_ne m polled]
      exact play_load m _ fun w s => s.assign target w
  | sti source offset => exact play_load m _ fun w s => s.store w (s.reg source)
  | jmp base => rfl
  | lea target offset => rfl
  | trap vector =>
    simp only [ofInstruction, perform, trap]
    cases Service.ofVector? vector with
    | none => rfl
    | some service => exact play_ofService (m.map fun s => s.setReg 7 s.pc) service
  | reserved word => rfl

theorem execute_zero (m : Machine κ) : m.execute 0 = (.done, m) := by
  have decoded : Instruction.decode 0 = .br 0 0 := by decide
  rw [execute, decoded]
  simp [perform, map]

theorem execute_keyReady (m : Machine κ) :
    m.execute keyReady = (.fault (.reserved keyReady), m) := by
  have decoded : Instruction.decode keyReady = .reserved keyReady := by decide
  rw [execute, decoded]
  rfl

theorem ofState_of_service {s : State} (service : Service) (running : s.running = true)
    (elsewhere : s.pc ≠ keyboardStatus)
    (traps : Instruction.decode (s.memory.get s.pc) = .trap service.vector) :
    ofState s = ofService (s.advance.setReg 7 s.advance.pc) service := by
  rw [ofState, if_pos running, if_neg elsewhere, traps]
  simp only [ofInstruction, Service.ofVector?_vector]

/-- A step is the exchange of its state, carried out on its console. -/
theorem play_ofState (m : Machine κ) : (ofState m.state).play m.console = m.step := by
  unfold ofState step
  by_cases running : m.state.running = true
  · rw [if_pos running, if_pos running]
    by_cases polled : m.state.pc = keyboardStatus
    · rw [if_pos polled, polled, load_status, play]
      rcases Console.poll m.console with ⟨_ | key, console⟩
      · exact (execute_zero _).symm
      · exact (execute_keyReady _).symm
    · rw [if_neg polled, load_of_ne m polled]
      exact play_ofInstruction (m.map (·.advance)) _
  · rw [if_neg running, if_neg running]
    rfl

end Exchange

end LittleComputer
