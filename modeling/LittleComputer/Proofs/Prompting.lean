import LittleComputer.Proofs.Delivery
import LittleComputer.Proofs.LineQueue
import LittleComputer.Proofs.Printing

/-! Prompting for a key, in actions. The service that prompts echoes the key before register 0 takes
it, and as the console gave it, the mark of the end as -1; the service that writes a character takes
what register 0 has kept of it. Nobody can tell the difference: on every console, prompting is the
text of the prompt and then the two other services, also when the wait for the key breaks off. -/
namespace LittleComputer

namespace Word

theorem low_ofInt (v : Int) : (ofInt v).low = UInt8.ofInt v := by
  apply UInt8.toNat_inj.mp
  have byte : (ofInt v).low.toNat = (BitVec.ofInt 16 v).toNat % 256 := by simp [Word.low, ofInt]
  simp [byte, UInt8.ofInt]
  omega

@[simp] theorem ofInt_toNat (w : Word) : ofInt w.toNat = w := by simp [ofInt]

end Word

/-- What comes after something that is done. All else is the end of it. -/
def Outcome.andThen {α : Type} (result : Outcome × α) (next : α → Outcome × α) : Outcome × α :=
  match result with
  | (.done, s) => next s
  | stopped => stopped

theorem Outcome.andThen_congr {α : Type} {result : Outcome × α} {first second : α → Outcome × α}
    (same : ∀ s, result = (.done, s) → first s = second s) :
    andThen result first = andThen result second := by
  rcases result with ⟨_ | _ | _ | _, s⟩
  · exact same s rfl
  · rfl
  · rfl
  · rfl

/-- What a service does with the integer that it has for a character. -/
inductive Action where
  | say (text : String)
  | flush
  /-- Waits for a key, whose code becomes the character. -/
  | await
  | putCharacter
  | putRegister
  /-- Register 0 takes the character. -/
  | keep
  /-- The condition code describes register 0. -/
  | describe
  deriving DecidableEq, Repr

namespace Action

def getc : List Action := [await, keep, describe]

def out : List Action := [putRegister, flush]

/-- The text of the prompt, made visible. -/
def ask : List Action := [say Machine.inputPrompt, flush]

/-- The echo is of the character, and register 0 has to wait for it. -/
def prompt : List Action := ask ++ [await, putCharacter, flush, keep, describe]

end Action

structure Serving (κ : Type) where
  machine : Machine κ
  character : Int

namespace Serving

open Outcome

variable {κ : Type} [Console κ]

def put (value : Int) (m : Machine κ) : Machine κ := m.write [UInt8.ofInt value]

def act (s : Serving κ) : Action → Outcome × Serving κ
  | .say text => (.done, { s with machine := s.machine.write (Latin.lowBytes text) })
  | .flush => (.done, { s with machine := s.machine.flush })
  | .await =>
    match Console.read s.machine.console with
    | (.key k, console) => (.done, ⟨{ s.machine with console }, k.code⟩)
    | (.interrupted, console) => (.interrupted, { s with machine := { s.machine with console } })
    | (.never, console) => (.unending, { s with machine := { s.machine with console } })
  | .putCharacter => (.done, { s with machine := put s.character s.machine })
  | .putRegister => (.done, { s with machine := put (s.machine.state.reg 0).toNat s.machine })
  | .keep => (.done, { s with machine := s.machine.map (·.setReg 0 (Word.ofInt s.character)) })
  | .describe =>
    (.done,
      { s with machine := s.machine.map fun t => { t with cond := Condition.ofWord (t.reg 0) } })

def actAll (s : Serving κ) : List Action → Outcome × Serving κ
  | [] => (.done, s)
  | a :: rest => andThen (s.act a) fun s => s.actAll rest

theorem actAll_append (s : Serving κ) (first second : List Action) :
    s.actAll (first ++ second) = andThen (s.actAll first) fun s => s.actAll second := by
  induction first generalizing s with
  | nil => rfl
  | cons a rest ih =>
    simp only [List.cons_append, actAll]
    rcases s.act a with ⟨_ | _ | _ | _, next⟩
    · exact ih next
    · rfl
    · rfl
    · rfl

/-- The byte that is left of an integer is that of the word that is left of it. -/
theorem put_eq (value : Int) (m : Machine κ) : put value m = m.write [(Word.ofInt value).low] := by
  rw [put, Word.low_ofInt]

theorem actAll_keep (s : Serving κ) (rest : List Action) :
    s.actAll (.keep :: .describe :: rest) =
      actAll { s with machine := s.machine.map (·.assign 0 (Word.ofInt s.character)) } rest := by
  simp [actAll, andThen, act, Machine.map, State.setReg, State.assign, State.reg]

theorem actAll_echo_before (s : Serving κ) :
    s.actAll [.putCharacter, .flush, .keep, .describe] =
      s.actAll [.keep, .describe, .putRegister, .flush] := by
  calc s.actAll [.putCharacter, .flush, .keep, .describe]
    _ = actAll { s with machine := (put s.character s.machine).flush } [.keep, .describe] := rfl
    _ = (.done, { s with
          machine := ((put s.character s.machine).flush).map
            (·.assign 0 (Word.ofInt s.character)) }) := actAll_keep _ []
    _ = (.done, { s with
          machine := (put s.character
            (s.machine.map (·.assign 0 (Word.ofInt s.character)))).flush }) := rfl
    _ = actAll { s with machine := s.machine.map (·.assign 0 (Word.ofInt s.character)) }
          [.putRegister, .flush] := by
      simp [actAll, andThen, act, Machine.map, put_eq]
    _ = s.actAll [.keep, .describe, .putRegister, .flush] := (actAll_keep s _).symm

/-- Takes the actions as a service, which has no character to begin with. -/
def carryOut (m : Machine κ) (actions : List Action) : Outcome × Machine κ :=
  let (outcome, s) := actAll ⟨m, 0⟩ actions
  (outcome, s.machine)

/-- Whether the echo comes before register 0 has the character or after it makes no difference. -/
theorem actAll_prompt (s : Serving κ) :
    s.actAll Action.prompt = s.actAll ((Action.ask ++ Action.getc) ++ Action.out) := by
  have awaited (s : Serving κ) :
      s.actAll [.await, .putCharacter, .flush, .keep, .describe] =
        s.actAll (Action.getc ++ Action.out) := by
    simp only [Action.getc, Action.out, List.cons_append, List.nil_append]
    rw [actAll, actAll]
    simp only [actAll_echo_before]
  rw [List.append_assoc, Action.prompt, actAll_append, actAll_append]
  simp only [awaited]

theorem carryOut_getc (m : Machine κ) : carryOut m Action.getc = m.serve .getc := by
  simp only [carryOut, Action.getc, actAll, act, Machine.serve, Machine.awaitKey]
  rcases Console.read m.console with ⟨k | _ | _, console⟩
  · simp [andThen, Machine.map, State.setReg, State.assign, State.reg, Key.ofInt_code]
  · rfl
  · rfl

theorem actAll_out (s : Serving κ) :
    s.actAll Action.out = (.done, { s with machine := (s.machine.serve .out).2 }) := by
  simp only [Action.out, actAll, act, andThen, put_eq, Word.ofInt_toNat]
  rfl

theorem carryOut_out (m : Machine κ) : carryOut m Action.out = m.serve .out := by
  rw [carryOut, actAll_out]
  rfl

theorem carryOut_append_out (m : Machine κ) (actions : List Action) :
    carryOut m (actions ++ Action.out) = andThen (carryOut m actions) (·.serve .out) := by
  simp only [carryOut, actAll_append, actAll_out]
  rcases actAll ⟨m, 0⟩ actions with ⟨_ | _ | _ | _, next⟩ <;> rfl

theorem carryOut_prompt (m : Machine κ) : carryOut m Action.prompt = m.serve .prompt := by
  simp only [carryOut, Action.prompt, Action.ask, List.cons_append, List.nil_append, actAll, act,
    andThen, Machine.serve, Machine.awaitKey]
  rcases Console.read _ with ⟨k | _ | _, console⟩
  · simp [put_eq, Key.echo, Machine.map, Machine.write, Machine.flush, State.setReg, State.assign,
      State.reg, Key.ofInt_code]
  · rfl
  · rfl

end Serving

namespace Machine

open Outcome Serving

variable {κ : Type}

theorem linked_of_reg {m : Machine κ} (same : m.state.reg 7 = m.state.pc) : m.linked = m := by
  have registers : m.state.registers.set 7 m.state.pc = m.state.registers := by
    apply Registers.ext_get
    intro r
    rw [Registers.get_set]
    split
    · next here => rw [← here]; exact same.symm
    · rfl
  rw [linked, map, State.setReg, registers]

variable [Console κ]

def prompted (m : Machine κ) : Machine κ := (m.write (Latin.lowBytes inputPrompt)).flush

theorem serve_prompt (m : Machine κ) :
    m.serve .prompt = andThen (m.prompted.serve .getc) (·.serve .out) := by
  calc m.serve .prompt
    _ = carryOut m Action.prompt := (carryOut_prompt m).symm
    _ = carryOut m ((Action.ask ++ Action.getc) ++ Action.out) := by
      rw [carryOut, carryOut, actAll_prompt]
    _ = andThen (carryOut m (Action.ask ++ Action.getc)) (·.serve .out) :=
      carryOut_append_out m _
    _ = andThen (carryOut m.prompted Action.getc) (·.serve .out) := rfl
    _ = andThen (m.prompted.serve .getc) (·.serve .out) := by rw [carryOut_getc]

theorem perform_trap (m : Machine κ) (service : Service) :
    m.perform (.trap service.vector) = m.linked.serve service := by
  simp only [perform, trap, Service.ofVector?_vector]
  rfl

theorem serve_getc_of_done {m n : Machine κ} (served : m.serve .getc = (.done, n)) :
    ∃ k left, Console.read m.console = (.key k, left) ∧ n = ⟨m.state.assign 0 k.word, left⟩ := by
  rw [serve, awaitKey] at served
  rcases answer : Console.read m.console with ⟨k | _ | _, left⟩ <;> rw [answer] at served
  · exact ⟨k, left, rfl, (Prod.mk.inj served).2.symm⟩
  · cases served
  · cases served

theorem perform_trap_prompt (m : Machine κ) :
    m.perform (.trap 0x23) =
      andThen (m.prompted.perform (.trap 0x20)) (·.perform (.trap 0x21)) := by
  have asked : m.prompted.perform (.trap 0x20) = m.linked.prompted.serve .getc :=
    perform_trap m.prompted .getc
  have began : m.perform (.trap 0x23) = m.linked.serve .prompt := perform_trap m .prompt
  rw [began, serve_prompt, asked]
  apply andThen_congr
  intro n served
  obtain ⟨k, left, -, rfl⟩ := serve_getc_of_done served
  have again : ((m.state.setReg 7 m.state.pc).assign 0 k.word).reg 7 = m.state.pc := by simp
  calc serve ⟨(m.state.setReg 7 m.state.pc).assign 0 k.word, left⟩ .out
    _ = (linked ⟨(m.state.setReg 7 m.state.pc).assign 0 k.word, left⟩).serve .out := by
      rw [linked_of_reg again]
    _ = perform ⟨(m.state.setReg 7 m.state.pc).assign 0 k.word, left⟩ (.trap 0x21) :=
      (perform_trap _ .out).symm

/-- What prompting comes to once the console has answered. -/
theorem serve_prompt_of_key {m : Machine κ} {k : Key} {left : κ}
    (answer : Console.read m.prompted.console = (.key k, left)) :
    m.serve .prompt =
      (.done, ⟨m.state.assign 0 k.word, Console.flush (Console.write [k.echo] left)⟩) := by
  rw [prompted] at answer
  simp only [serve, awaitKey, answer]
  rfl

theorem serve_prompt_of_interrupted {m : Machine κ} {left : κ}
    (answer : Console.read m.prompted.console = (.interrupted, left)) :
    m.serve .prompt = (.interrupted, ⟨m.state, left⟩) := by
  rw [prompted] at answer
  simp only [serve, awaitKey, answer]
  rfl

/-- Prompting is the prompt and then the two services that get a character and write it, be it
action by action or by their traps. -/
structure PromptsInParts (m : Machine κ) : Prop where
  prompt : m.serve .prompt = carryOut m Action.prompt
  getc : m.serve .getc = carryOut m Action.getc
  out : m.serve .out = carryOut m Action.out
  services : m.serve .prompt = andThen (m.prompted.serve .getc) (·.serve .out)
  traps : m.perform (.trap 0x23) =
    andThen (m.prompted.perform (.trap 0x20)) (·.perform (.trap 0x21))

theorem promptsInParts (m : Machine κ) : m.PromptsInParts where
  prompt := (carryOut_prompt m).symm
  getc := (carryOut_getc m).symm
  out := (carryOut_out m).symm
  services := serve_prompt m
  traps := perform_trap_prompt m

/-- What waiting for a key gives when these bytes are left and no more will come. -/
def firstKey (keys : List UInt8) : Key := keys.head?.elim .endOfInput Key.byte

/-- A display with the prompt on it and then the echo of a key. -/
def prompting (d : Display) (k : Key) : Display :=
  ((d.write (Latin.lowBytes inputPrompt)).flush.write [k.echo]).flush

theorem read_said_tape (t : Tape) (bytes : List UInt8) :
    Console.read (Console.flush (Console.write bytes t)) = (.key (firstKey t.keys),
      { t with keys := t.keys.tail, display := (t.display.write bytes).flush }) := by
  rcases t with ⟨_ | ⟨b, rest⟩, display, notices⟩ <;> rfl

theorem read_said_pipe (p : Pipe) (bytes : List UInt8) :
    Console.read (Console.flush (Console.write bytes p.close)) = (.key (firstKey p.keys),
      { p.close with keys := p.keys.tail, display := (p.display.write bytes).flush }) := by
  rcases p with ⟨_ | ⟨b, rest⟩, closed, display, notices⟩ <;> rfl

theorem serve_prompt_tape (s : State) (t : Tape) :
    serve ⟨s, t⟩ .prompt = (.done, ⟨s.assign 0 (firstKey t.keys).word,
      { t with keys := t.keys.tail, display := prompting t.display (firstKey t.keys) }⟩) :=
  serve_prompt_of_key (m := ⟨s, t⟩) (read_said_tape t _)

theorem serve_prompt_pipe (s : State) (p : Pipe) :
    serve ⟨s, p.close⟩ .prompt = (.done, ⟨s.assign 0 (firstKey p.keys).word,
      { p.close with
        keys := p.keys.tail, display := prompting p.display (firstKey p.keys) }⟩) :=
  serve_prompt_of_key (m := ⟨s, p.close⟩) (read_said_pipe p _)

/-- The user of a notebook is asked if nothing is queued, and may refuse. -/
theorem serve_prompt_notebook (s : State) (nb : Notebook) :
    let shown : Notebook := Console.flush (Console.write (Latin.lowBytes inputPrompt) nb)
    (nb.queue = [] ∧ nb.lines.head?.join = none ∧
      serve ⟨s, nb⟩ .prompt = (.interrupted, ⟨s, shown.prompted⟩)) ∨
    ∃ b left, Console.read shown = (.key (.byte b), left) ∧
      serve ⟨s, nb⟩ .prompt =
        (.done, ⟨s.assign 0 (Word.ofByte b), Console.flush (Console.write [b] left)⟩) := by
  intro shown
  have queue : shown.queue = nb.queue := Notebook.queue_say nb _
  have lines : shown.lines = nb.lines := Notebook.lines_say nb _
  have answered {b left} (answer : Console.read shown = (.key (.byte b), left)) :
      serve ⟨s, nb⟩ .prompt =
        (.done, ⟨s.assign 0 (Word.ofByte b), Console.flush (Console.write [b] left)⟩) := by
    simpa [Key.word] using serve_prompt_of_key (m := ⟨s, nb⟩) answer
  cases first : nb.queue with
  | cons b rest =>
    have answer := Notebook.read_of_queue (queue.trans first)
    exact .inr ⟨b, _, answer, answered answer⟩
  | nil =>
    cases line : nb.lines.head?.join with
    | none =>
      have answer := Notebook.read_of_refusal (queue.trans first) (by rw [lines, line])
      exact .inl ⟨rfl, rfl, serve_prompt_of_interrupted answer⟩
    | some line' =>
      obtain ⟨b, rest, _, answer⟩ :=
        Notebook.read_of_given (queue.trans first) (by rw [lines, line])
      exact .inr ⟨b, _, answer, answered answer⟩

/-- On every console a prompt is the text, a character got and the same character written. At the
end of input the character is the mark of the end, and only the user of a notebook can break it
off. -/
theorem prompt_is_getc_then_out (s : State) :
    (∀ t : Tape, PromptsInParts ⟨s, t⟩ ∧
      serve ⟨s, t⟩ .prompt = (.done, ⟨s.assign 0 (firstKey t.keys).word,
        { t with keys := t.keys.tail, display := prompting t.display (firstKey t.keys) }⟩)) ∧
    (∀ p : Pipe, PromptsInParts ⟨s, p.close⟩ ∧
      serve ⟨s, p.close⟩ .prompt = (.done, ⟨s.assign 0 (firstKey p.keys).word,
        { p.close with
          keys := p.keys.tail, display := prompting p.display (firstKey p.keys) }⟩)) ∧
    ∀ nb : Notebook, PromptsInParts ⟨s, nb⟩ ∧
      let shown : Notebook := Console.flush (Console.write (Latin.lowBytes inputPrompt) nb)
      (nb.queue = [] ∧ nb.lines.head?.join = none ∧
        serve ⟨s, nb⟩ .prompt = (.interrupted, ⟨s, shown.prompted⟩)) ∨
      ∃ b left, Console.read shown = (.key (.byte b), left) ∧
        serve ⟨s, nb⟩ .prompt =
          (.done, ⟨s.assign 0 (Word.ofByte b), Console.flush (Console.write [b] left)⟩) := by
  refine ⟨?_, ?_, ?_⟩
  · intro t
    exact ⟨promptsInParts _, serve_prompt_tape s t⟩
  · intro p
    exact ⟨promptsInParts _, serve_prompt_pipe s p⟩
  · intro nb
    exact ⟨promptsInParts _, serve_prompt_notebook s nb⟩

end Machine

end LittleComputer
