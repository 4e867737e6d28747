import LittleComputer.Proofs.Exchange
import LittleComputer.Proofs.Runs
import LittleComputer.Proofs.WellFormed
import LittleComputer.Proofs.WordFields

/-! What a step leaves behind it in the instruction counter, in the switch that keeps the machine
running, and in the condition code. The step counts one instruction; the switch is turned off by one
trap alone; the condition code describes the result of an instruction that has one and has
completed, and stays as it is otherwise. -/
namespace LittleComputer

/-- The register that an instruction gives its result to. The link that a call leaves in register 7
is no result. -/
def Instruction.target? : Instruction → Option Reg
  | .add target _ _ | .and target _ _ | .not target _ | .lea target _ => some target
  | .ld target _ | .ldi target _ | .ldr target _ _ => some target
  | .trap vector =>
    if vector = Service.getc.vector ∨ vector = Service.prompt.vector then some 0 else none
  | _ => none

namespace Machine

/-- What an instruction executed in state `s` does if it comes to `outcome` in state `t`. -/
structure Effect (i : Instruction) (s : State) (outcome : Outcome) (t : State) : Prop where
  count : t.count = s.count
  running : t.running = (s.running && i ≠ .trap Service.halt.vector)
  cond : t.cond =
    if outcome = .done then
      i.target?.elim s.cond fun target => Condition.ofWord (t.reg target)
    else s.cond

namespace Effect

variable {i : Instruction} {s t : State} {outcome : Outcome}

theorem of_assign {r : Reg} (w : Word) (target : i.target? = some r)
    (goes_on : i ≠ .trap Service.halt.vector) (count : t.count = s.count)
    (running : t.running = s.running) : Effect i s .done (t.assign r w) where
  count := count
  running := by
    have kept : (t.assign r w).running = s.running := running
    simpa [goes_on] using kept
  cond := by
    rw [target, if_pos rfl, Option.elim_some, State.reg_assign, if_pos rfl]
    rfl

theorem of_cond (targetless : outcome = .done → i.target? = none)
    (goes_on : i ≠ .trap Service.halt.vector) (count : t.count = s.count)
    (running : t.running = s.running) (cond : t.cond = s.cond) : Effect i s outcome t where
  count := count
  running := by simpa [goes_on] using running
  cond := by
    by_cases completed : outcome = .done
    · rw [if_pos completed, targetless completed, Option.elim_none, cond]
    · rw [if_neg completed, cond]

end Effect

variable {κ : Type} [Console κ]

theorem effect_load {m : Machine κ} (a w : Word) {i : Instruction} {r : Reg}
    (target : i.target? = some r) (goes_on : i ≠ .trap Service.halt.vector) :
    Effect i m.state .done ((m.load a).2.state.assign r w) := by
  have loaded := state_load m a
  apply Effect.of_assign w target goes_on
  · rw [loaded]
  · rw [loaded]

theorem effect_awaitKey {i : Instruction} {m : Machine κ} {next : Key → Machine κ → Machine κ}
    (goes_on : i ≠ .trap Service.halt.vector) (target : i.target? = some 0)
    (assigns : ∀ key n, (next key n).state = n.state.assign 0 key.word) :
    Effect i m.state (m.awaitKey next).1 (m.awaitKey next).2.state := by
  unfold awaitKey
  rcases Console.read m.console with ⟨key | _ | _, console⟩
  · dsimp only
    rw [assigns]
    exact .of_assign key.word target goes_on rfl rfl
  · exact .of_cond nofun goes_on rfl rfl rfl
  · exact .of_cond nofun goes_on rfl rfl rfl

theorem effect_putText {i : Instruction} (m : Machine κ) (bytesOf : Word → List UInt8)
    (targetless : i.target? = none) (goes_on : i ≠ .trap Service.halt.vector) :
    Effect i m.state (m.putText bytesOf).1 (m.putText bytesOf).2.state := by
  unfold putText
  cases m.state.memory.textFrom? (m.state.reg 0) with
  | some words => exact .of_cond (fun _ => targetless) goes_on rfl rfl rfl
  | none => exact .of_cond nofun goes_on rfl rfl rfl

theorem effect_serve (m : Machine κ) (service : Service) :
    Effect (.trap service.vector) m.state (m.serve service).1 (m.serve service).2.state := by
  cases service with
  | getc =>
    exact effect_awaitKey (i := .trap Service.getc.vector) (by decide) (by decide) fun _ _ => rfl
  | out => exact .of_cond (fun _ => by decide) (by decide) rfl rfl rfl
  | puts => exact effect_putText m _ (by decide) (by decide)
  | prompt =>
    exact effect_awaitKey (i := .trap Service.prompt.vector)
      (m := (m.write (Latin.lowBytes inputPrompt)).flush) (by decide) (by decide) fun _ _ => rfl
  | putsp => exact effect_putText m _ (by decide) (by decide)
  | halt =>
    constructor
    · rfl
    · simp [serve, map]
    · rfl

theorem effect_trap (m : Machine κ) (vector : BitVec 8) :
    Effect (.trap vector) m.state (m.trap vector).1 (m.trap vector).2.state := by
  unfold trap
  cases found : Service.ofVector? vector with
  | some service =>
    rw [Service.ofVector?_eq_some_iff] at found
    subst found
    have served := effect_serve (m.map fun s => s.setReg 7 s.pc) service
    exact ⟨served.count, served.running, served.cond⟩
  | none =>
    have goes_on : Instruction.trap vector ≠ .trap Service.halt.vector := by
      intro same
      obtain rfl := Instruction.trap.inj same
      rw [Service.ofVector?_vector] at found
      cases found
    exact .of_cond nofun goes_on rfl rfl rfl

theorem effect_perform (m : Machine κ) (i : Instruction) :
    Effect i m.state (m.perform i).1 (m.perform i).2.state := by
  cases i with
  | add target source second => exact .of_assign _ rfl (by simp) rfl rfl
  | and target source second => exact .of_assign _ rfl (by simp) rfl rfl
  | not target source => exact .of_assign _ rfl (by simp) rfl rfl
  | lea target offset => exact .of_assign _ rfl (by simp) rfl rfl
  | ld target offset => exact effect_load _ _ rfl (by simp)
  | ldr target base offset => exact effect_load _ _ rfl (by simp)
  | ldi target offset =>
    have pointed := state_load m (reach m.state.pc offset)
    have loaded := effect_load (m := (m.load (reach m.state.pc offset)).2) (i := .ldi target offset)
      (m.load (reach m.state.pc offset)).1
      ((m.load (reach m.state.pc offset)).2.load (m.load (reach m.state.pc offset)).1).1 rfl (by simp)
    rw [pointed] at loaded
    exact ⟨loaded.count, loaded.running, loaded.cond⟩
  | br mask offset =>
    rw [perform_br]
    dsimp only
    split <;> exact .of_cond (fun _ => rfl) (by simp) rfl rfl rfl
  | st source offset => exact .of_cond (fun _ => rfl) (by simp) rfl rfl rfl
  | str source base offset => exact .of_cond (fun _ => rfl) (by simp) rfl rfl rfl
  | sti source offset =>
    have loaded := state_load m (reach m.state.pc offset)
    simp only [perform, map]
    rw [loaded]
    exact .of_cond (fun _ => rfl) (by simp) rfl rfl rfl
  | jmp base => exact .of_cond (fun _ => rfl) (by simp) rfl rfl rfl
  | jsr offset => exact .of_cond (fun _ => rfl) (by simp) rfl rfl rfl
  | jsrr base => exact .of_cond (fun _ => rfl) (by simp) rfl rfl rfl
  | trap vector => exact effect_trap m vector
  | reserved word =>
    refine .of_cond ?_ (by simp) rfl rfl rfl
    intro completed
    cases completed

/-- The machine once the next instruction has been fetched. -/
def fetched (m : Machine κ) : Machine κ := (m.load m.state.pc).2.map (·.advance)

/-- The word that the next step fetches. -/
def word (m : Machine κ) : Word := (m.load m.state.pc).1

def instruction (m : Machine κ) : Instruction := Instruction.decode (m.load m.state.pc).1

theorem fetched_of_ne {m : Machine κ} (elsewhere : m.state.pc ≠ keyboardStatus) :
    m.fetched = m.map (·.advance) := by
  rw [fetched, load_of_ne m elsewhere]

theorem instruction_of_ne {m : Machine κ} (elsewhere : m.state.pc ≠ keyboardStatus) :
    m.instruction = Instruction.decode (m.state.memory.get m.state.pc) := by
  rw [instruction, load_of_ne m elsewhere]

theorem word_of_ne {m : Machine κ} (elsewhere : m.state.pc ≠ keyboardStatus) :
    m.word = m.state.memory.get m.state.pc := by
  rw [word, load_of_ne m elsewhere]

theorem word_of_status {m : Machine κ} (status : m.state.pc = keyboardStatus) :
    m.word = 0 ∨ m.word = keyReady := by
  rw [word, status, Exchange.load_status]
  cases (Console.poll m.console).1 with
  | none => exact .inl rfl
  | some key => exact .inr rfl

theorem code_of_status {m : Machine κ} (status : m.state.pc = keyboardStatus) :
    m.word.code = 0 ∨ m.word.code = 8 := by
  have idle : (0 : Word).code = 0 := by decide
  have refused : keyReady.code = 8 := by decide
  obtain nothing | ready := word_of_status status
  · exact .inl ((congrArg Word.code nothing).trans idle)
  · exact .inr ((congrArg Word.code ready).trans refused)

/-- A status that is fetched stands for a branch that is never taken, or for a reserved word. -/
theorem instruction_of_status {m : Machine κ} (status : m.state.pc = keyboardStatus) :
    m.instruction = .br 0 0 ∨ m.instruction = .reserved keyReady := by
  have idle : Instruction.decode 0 = .br 0 0 := by decide
  have refused : Instruction.decode keyReady = .reserved keyReady := by decide
  obtain nothing | ready := word_of_status status
  · exact .inl ((congrArg Instruction.decode nothing).trans idle)
  · exact .inr ((congrArg Instruction.decode ready).trans refused)

theorem step_eq_perform {m : Machine κ} (running : m.state.running = true) :
    m.step = m.fetched.perform m.instruction := by
  simp only [step, running, if_true]
  rfl

theorem step_of_get {m : Machine κ} (running : m.state.running = true) {a w : Word}
    (here : m.state.pc = a) (elsewhere : a ≠ keyboardStatus) (held : m.state.memory.get a = w)
    {i : Instruction} (decodes : Instruction.decode w = i) :
    m.step = (m.map (·.advance)).perform i := by
  subst here
  rw [step_eq_perform running, fetched_of_ne elsewhere, instruction_of_ne elsewhere, held, decodes]

theorem state_fetched (m : Machine κ) :
    m.fetched.state = { m.state.advance with memory := m.fetched.state.memory } := by
  simp only [fetched, map]
  rw [state_load]
  rfl

theorem effect_step {m : Machine κ} (running : m.state.running = true) :
    Effect m.instruction m.state.advance m.step.1 m.step.2.state := by
  have performed := effect_perform m.fetched m.instruction
  rw [← step_eq_perform running, state_fetched] at performed
  exact ⟨performed.count, performed.running, performed.cond⟩

theorem count_step {m : Machine κ} (running : m.state.running = true) :
    m.step.2.state.count = m.state.count + 1 :=
  (effect_step running).count

/-- A machine that runs is stopped by a halt, and by nothing else. -/
theorem running_step {m : Machine κ} (running : m.state.running = true) :
    m.step.2.state.running = true ↔ m.instruction ≠ .trap Service.halt.vector := by
  have kept : m.state.advance.running = true := running
  rw [(effect_step running).running, kept]
  simp

theorem count_after {m : Machine κ} {n : Nat}
    (running : ∀ k < n, (m.after k).state.running = true) :
    (m.after n).state.count = m.state.count + n := by
  induction n with
  | zero => rfl
  | succ n ih =>
    have earlier := ih fun k below => running k (Nat.lt_succ_of_lt below)
    have counted := count_step (running n (Nat.lt_succ_self n))
    rw [← step_after, counted, earlier, Nat.add_assoc]

end Machine

end LittleComputer
