import LittleComputer.Proofs.Recorder

/-! Which steps ask the keyboard. A step that polls does so because it loads the keyboard's status,
be it to fetch an instruction, and it leaves a key that it finds in the data cell, because nothing
that it stores later goes there. A step that waits for a key executes one of two traps. -/
namespace LittleComputer

namespace Machine

/-- The addresses that an instruction loads from. -/
def sources (s : State) : Instruction → List Word
  | .ld _ offset => [reach s.pc offset]
  | .ldr _ base offset => [reach (s.reg base) offset]
  | .ldi _ offset => [reach s.pc offset, s.memory.get (reach s.pc offset)]
  | .sti _ offset => [reach s.pc offset]
  | _ => []

/-- The step fetches the keyboard's status, or the instruction that it fetches loads it. -/
def Polls (s : State) : Prop :=
  s.pc = keyboardStatus ∨
    keyboardStatus ∈ sources s.advance (Instruction.decode (s.memory.get s.pc))

/-- The step fetches a trap that waits for a key. -/
def Awaits (s : State) : Prop :=
  s.pc ≠ keyboardStatus ∧
    (Instruction.decode (s.memory.get s.pc) = .trap Service.getc.vector ∨
      Instruction.decode (s.memory.get s.pc) = .trap Service.prompt.vector)

end Machine

namespace Exchange

open Machine

theorem ask_load (s : State) (a : Word) (next : Word → State → State) :
    (load s a next).ask = if a = keyboardStatus then some .poll else none := by
  unfold load
  by_cases polled : a = keyboardStatus
  · rw [if_pos polled, if_pos polled]
    rfl
  · rw [if_neg polled, if_neg polled]
    rfl

theorem ask_putText (s : State) (bytesOf : Word → List UInt8) : (putText s bytesOf).ask = none := by
  unfold putText
  cases s.memory.textFrom? (s.reg 0) <;> rfl

theorem ask_ofService (s : State) (service : Service) :
    (ofService s service).ask =
      if service = .getc ∨ service = .prompt then some .key else none := by
  cases service with
  | puts => exact ask_putText s _
  | putsp => exact ask_putText s _
  | _ => rfl

theorem ask_trap (s : State) (vector : BitVec 8) :
    (ofInstruction s (.trap vector)).ask =
      if vector = Service.getc.vector ∨ vector = Service.prompt.vector then some .key
      else none := by
  simp only [ofInstruction]
  cases found : Service.ofVector? vector with
  | none =>
    have apart (service : Service) : vector ≠ service.vector := by
      rintro rfl
      rw [Service.ofVector?_vector] at found
      cases found
    rw [if_neg (not_or.mpr ⟨apart _, apart _⟩)]
    rfl
  | some service =>
    rw [Service.ofVector?_eq_some_iff] at found
    subst found
    dsimp only
    rw [ask_ofService]
    cases service <;> rfl

theorem ask_ofInstruction_eq_poll_iff (s : State) (i : Instruction) :
    (ofInstruction s i).ask = some .poll ↔ keyboardStatus ∈ sources s i := by
  cases i with
  | ld target offset => simp [ofInstruction, ask_load, sources, eq_comm]
  | ldr target base offset => simp [ofInstruction, ask_load, sources, eq_comm]
  | sti source offset => simp [ofInstruction, ask_load, sources, eq_comm]
  | ldi target offset =>
    simp only [ofInstruction, sources]
    by_cases polled : reach s.pc offset = keyboardStatus
    · simp [polled, ask]
    · have apart : keyboardStatus ≠ reach s.pc offset := Ne.symm polled
      rw [if_neg polled, ask_load]
      simp [apart, eq_comm]
  | trap vector =>
    rw [ask_trap]
    simp [sources]
  | _ => simp [ofInstruction, ask, sources]

theorem ask_ofInstruction_eq_key_iff (s : State) (i : Instruction) :
    (ofInstruction s i).ask = some .key ↔
      i = .trap Service.getc.vector ∨ i = .trap Service.prompt.vector := by
  cases i with
  | ld target offset => simp [ofInstruction, ask_load]
  | ldr target base offset => simp [ofInstruction, ask_load]
  | sti source offset => simp [ofInstruction, ask_load]
  | ldi target offset =>
    simp only [ofInstruction]
    by_cases polled : reach s.pc offset = keyboardStatus
    · simp [polled, ask]
    · simp [polled, ask_load]
  | trap vector =>
    rw [ask_trap, Instruction.trap.injEq, Instruction.trap.injEq]
    by_cases asked : vector = Service.getc.vector ∨ vector = Service.prompt.vector
    · rw [if_pos asked]
      exact ⟨fun _ => asked, fun _ => rfl⟩
    · rw [if_neg asked]
      refine ⟨?_, fun found => absurd found asked⟩
      intro found
      cases found
  | _ => simp [ofInstruction, ask]

theorem ofState_at_keyboardStatus {s : State} (running : s.running = true)
    (fetched : s.pc = keyboardStatus) :
    ofState s = .poll fun found =>
      (if found.isSome then .fault (.reserved keyReady) else .done, (latch found s).advance) := by
  rw [ofState, if_pos running, if_pos fetched]

theorem running_of_ask {s : State} {asked : Ask} (asks : (ofState s).ask = some asked) :
    s.running = true := by
  by_cases running : s.running = true
  · exact running
  · rw [ofState, if_neg running] at asks
    cases asks

theorem ask_ofState_eq_poll_iff {s : State} (running : s.running = true) :
    (ofState s).ask = some .poll ↔ Polls s := by
  unfold ofState Polls
  rw [if_pos running]
  by_cases polled : s.pc = keyboardStatus
  · simp [polled, ask]
  · rw [if_neg polled, ask_ofInstruction_eq_poll_iff]
    simp [polled]

theorem ask_ofState_eq_key_iff {s : State} (running : s.running = true) :
    (ofState s).ask = some .key ↔ Awaits s := by
  unfold ofState Awaits
  rw [if_pos running]
  by_cases polled : s.pc = keyboardStatus
  · simp [polled, ask]
  · rw [if_neg polled, ask_ofInstruction_eq_key_iff]
    simp [polled]

theorem ask_ofState_eq_none {s : State} (running : s.running = true) (polls : ¬ Polls s)
    (awaits : ¬ Awaits s) : (ofState s).ask = none := by
  cases asked : (ofState s).ask with
  | none => rfl
  | some ask =>
    cases ask with
    | poll => exact absurd ((ask_ofState_eq_poll_iff running).mp asked) polls
    | key => exact absurd ((ask_ofState_eq_key_iff running).mp asked) awaits

theorem get_latch_keyboardData (key : Key) (s : State) :
    (latch (some key) s).memory.get keyboardData = key.word :=
  Memory.get_set_self ..

theorem load_leaves_latch {s : State} {a b : Word} (next : Word → State → State)
    (keeps : ∀ found t, b ≠ status found →
      (next (status found) t).memory.get b = t.memory.get b)
    {result : Option Key → Outcome × State} (polls : load s a next = .poll result)
    (found : Option Key) (apart : b ≠ status found) :
    (result found).2.memory.get b = (latch found s).memory.get b := by
  unfold load at polls
  by_cases polled : a = keyboardStatus
  · rw [if_pos polled] at polls
    cases polls
    exact keeps found _ apart
  · rw [if_neg polled] at polls
    cases polls

/-- What an instruction stores once it has polled goes to the address that the status reads as. -/
theorem ofInstruction_leaves_latch {s : State} {i : Instruction}
    {result : Option Key → Outcome × State} (polls : ofInstruction s i = .poll result)
    (found : Option Key) {b : Word} (apart : b ≠ status found) :
    (result found).2.memory.get b = (latch found s).memory.get b := by
  cases i with
  | ld target offset =>
    exact load_leaves_latch (fun w s => s.assign target w) (fun _ _ _ => rfl) polls found apart
  | ldr target base offset =>
    exact load_leaves_latch (fun w s => s.assign target w) (fun _ _ _ => rfl) polls found apart
  | sti source offset =>
    have keeps (found : Option Key) (t : State) (apart : b ≠ status found) :
        (t.store (status found) (t.reg source)).memory.get b = t.memory.get b :=
      Memory.get_set_of_ne _ _ apart.symm
    exact load_leaves_latch (fun w t => t.store w (t.reg source)) keeps polls found apart
  | ldi target offset =>
    simp only [ofInstruction] at polls
    by_cases polled : reach s.pc offset = keyboardStatus
    · rw [if_pos polled] at polls
      cases polls
      rfl
    · rw [if_neg polled] at polls
      exact load_leaves_latch (fun w s => s.assign target w) (fun _ _ _ => rfl) polls found apart
  | trap vector =>
    have asked := congrArg ask polls
    rw [ask_trap] at asked
    split at asked <;> cases asked
  | _ => cases polls

/-- What a step that polls leaves in memory is what its poll has found, but at one address. -/
theorem ofState_leaves_latch {s : State} {result : Option Key → Outcome × State}
    (polls : ofState s = .poll result) (found : Option Key) {b : Word} (apart : b ≠ status found) :
    (result found).2.memory.get b = (latch found s).memory.get b := by
  have advanced : (latch found s.advance).memory = (latch found s).memory := by
    cases found <;> rfl
  unfold ofState at polls
  by_cases running : s.running = true
  · rw [if_pos running] at polls
    by_cases polled : s.pc = keyboardStatus
    · rw [if_pos polled] at polls
      cases polls
      rfl
    · rw [if_neg polled] at polls
      rw [ofInstruction_leaves_latch polls found apart, advanced]
  · rw [if_neg running] at polls
    cases polls

theorem ofState_keeps_key {s : State} {result : Option Key → Outcome × State}
    (polls : ofState s = .poll result) (key : Key) :
    (result (some key)).2.memory.get keyboardData = key.word := by
  have apart : keyboardData ≠ keyReady := by decide
  rw [ofState_leaves_latch polls (some key) apart, get_latch_keyboardData]

end Exchange

end LittleComputer
