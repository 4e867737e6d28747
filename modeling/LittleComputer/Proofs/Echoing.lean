import LittleComputer.Proofs.Endings
import LittleComputer.Proofs.Prompting

/-! What prompting echoes. As long as there are keys, a prompt writes its text and then the key that
it takes. At the end of input it takes nothing and still echoes, namely the low byte of the mark of
the end, which is what a typed `0xFF` looks like. Over a run the echoes are therefore the keys that
prompts have taken, and after them one such byte for each prompt that came too late. -/
namespace LittleComputer.Machine

def Prompts [Console κ] (m : Machine κ) : Prop :=
  m.state.running = true ∧ m.instruction = .trap Service.prompt.vector

instance [Console κ] (m : Machine κ) : Decidable m.Prompts := inferInstanceAs (Decidable (_ ∧ _))

/-- The next step prompts although no key is left. -/
def PromptsTooLate (m : Machine Tape) : Prop := m.Prompts ∧ m.console.keys = []

instance (m : Machine Tape) : Decidable m.PromptsTooLate := inferInstanceAs (Decidable (_ ∧ _))

def promptBytes : List UInt8 := Latin.lowBytes inputPrompt

/-- The keys that the next step takes off its tape. -/
def taken (m : Machine Tape) : List UInt8 :=
  m.console.keys.take (m.console.keys.length - m.step.2.console.keys.length)

def displayed (m : Machine Tape) : List UInt8 :=
  m.step.2.console.display.bytes.toList.drop m.console.display.bytes.size

def typed (n : Nat) (m : Machine Tape) : List UInt8 :=
  (List.range n).flatMap fun k => if (m.after k).Prompts then (m.after k).taken else []

/-- The bytes that the prompts among the first `n` steps write after their texts. -/
def echoed (n : Nat) (m : Machine Tape) : List UInt8 :=
  (List.range n).flatMap fun k =>
    if (m.after k).Prompts then (m.after k).displayed.drop promptBytes.length else []

/-- The number of the first `n` steps that prompt too late. -/
def late (n : Nat) (m : Machine Tape) : Nat :=
  (List.range n).countP fun k => (m.after k).PromptsTooLate

variable {m : Machine Tape}

theorem step_of_prompts (prompts : m.Prompts) :
    m.step.1 = .done ∧ m.step.2.console.keys = m.console.keys.tail ∧
      m.step.2.console.display = prompting m.console.display (firstKey m.console.keys) := by
  obtain ⟨running, traps⟩ := prompts
  have served : m.step = (m.map (·.advance)).linked.serve .prompt := by
    rw [step_eq_perform running, traps, fetched_of_trap traps, perform_trap]
  have told : m.step = (.done, ⟨_, _⟩) := served.trans (serve_prompt_tape _ m.console)
  rw [told]
  exact ⟨rfl, rfl, rfl⟩

theorem echo_firstKey_cons (c : UInt8) (rest : List UInt8) : (firstKey (c :: rest)).echo = c :=
  Key.echo_byte c

/-- The mark of the end, cut down to a byte. -/
theorem echo_firstKey_nil : (firstKey []).echo = 0xFF := by decide

theorem bytes_prompting (d : Display) (k : Key) :
    (prompting d k).bytes.toList = d.bytes.toList ++ (promptBytes ++ [k.echo]) := by
  simp [prompting, promptBytes]

theorem displayed_of_prompts (prompts : m.Prompts) :
    m.displayed = promptBytes ++ [(firstKey m.console.keys).echo] := by
  obtain ⟨_, _, display⟩ := step_of_prompts prompts
  rw [displayed, display, bytes_prompting, List.drop_left' (by simp)]

theorem taken_of_prompts (prompts : m.Prompts) : m.taken = m.console.keys.take 1 := by
  obtain ⟨_, left, _⟩ := step_of_prompts prompts
  rw [taken, left]
  cases m.console.keys with
  | nil => rfl
  | cons c rest => simp

/-- The byte that a prompt echoes is the key that it takes, or else the mark of the end. -/
theorem echo_of_prompts (prompts : m.Prompts) :
    m.displayed.drop promptBytes.length = m.taken ++ if m.console.keys = [] then [0xFF] else [] := by
  rw [displayed_of_prompts prompts, taken_of_prompts prompts, List.drop_left]
  cases m.console.keys with
  | nil => rw [echo_firstKey_nil, if_pos rfl, List.take_nil, List.nil_append]
  | cons c rest => rw [echo_firstKey_cons, if_neg (List.cons_ne_nil c rest)]; rfl

theorem keys_step_of_nil (exhausted : m.console.keys = []) : m.step.2.console.keys = [] := by
  have kept := keys_eq_delivered_append m
  rw [exhausted] at kept
  exact (List.append_eq_nil_iff.mp kept.symm).2

theorem typed_succ (n : Nat) (m : Machine Tape) :
    m.typed (n + 1) = m.typed n ++ if (m.after n).Prompts then (m.after n).taken else [] := by
  simp [typed, List.range_succ]

theorem echoed_succ (n : Nat) (m : Machine Tape) :
    m.echoed (n + 1) = m.echoed n ++
      if (m.after n).Prompts then (m.after n).displayed.drop promptBytes.length else [] := by
  simp [echoed, List.range_succ]

theorem late_succ (n : Nat) (m : Machine Tape) :
    m.late (n + 1) = m.late n + if (m.after n).PromptsTooLate then 1 else 0 := by
  simp [late, List.range_succ]

theorem late_eq_zero {n : Nat} (some_key : (m.after n).console.keys ≠ []) : m.late n = 0 := by
  induction n with
  | zero => rfl
  | succ n ih =>
    have before : (m.after n).console.keys ≠ [] := by
      intro exhausted
      apply some_key
      rw [← step_after]
      exact keys_step_of_nil exhausted
    rw [late_succ, ih before, if_neg fun late => before late.2]

theorem echoed_eq (n : Nat) (m : Machine Tape) :
    m.echoed n = m.typed n ++ List.replicate (m.late n) 0xFF := by
  induction n with
  | zero => rfl
  | succ n ih =>
    rw [echoed_succ, typed_succ, late_succ, ih]
    by_cases prompts : (m.after n).Prompts
    · rw [if_pos prompts, if_pos prompts, echo_of_prompts prompts]
      by_cases exhausted : (m.after n).console.keys = []
      · have nothing : (m.after n).taken = [] := by
          rw [taken_of_prompts prompts, exhausted]
          rfl
        rw [if_pos exhausted, if_pos ⟨prompts, exhausted⟩, nothing, List.replicate_succ']
        simp
      · rw [if_neg exhausted, if_neg fun late => exhausted late.2, late_eq_zero exhausted]
        simp
    · rw [if_neg prompts, if_neg prompts, if_neg fun late => prompts late.1]
      simp

theorem late_eq_zero_iff (n : Nat) (m : Machine Tape) :
    m.late n = 0 ↔ ∀ k < n, ¬ (m.after k).PromptsTooLate := by
  simp [late, List.countP_eq_zero]

/-- Whether a trap that prompts is next does not depend on the tape. -/
theorem Prompts.of_state (prompts : m.Prompts) {other : Machine Tape}
    (same : other.state = m.state) : other.Prompts := by
  obtain ⟨running, traps⟩ := prompts
  have elsewhere := pc_ne_keyboardStatus_of_trap traps
  have elsewhere' : other.state.pc ≠ keyboardStatus := by rwa [same]
  rw [instruction_of_ne elsewhere] at traps
  refine ⟨by rwa [same], ?_⟩
  rw [instruction_of_ne elsewhere', same, traps]

theorem step_of_prompts_of_cons (prompts : m.Prompts) {c : UInt8} {rest : List UInt8}
    (more : m.console.keys = c :: rest) :
    m.step.2.console.keys = rest ∧ m.step.2.console.display.bytes.toList =
      m.console.display.bytes.toList ++ (promptBytes ++ [c]) := by
  obtain ⟨_, left, display⟩ := step_of_prompts prompts
  rw [left, display, bytes_prompting, more, echo_firstKey_cons]
  exact ⟨rfl, rfl⟩

/-- The key that is not there looks like a typed `0xFF`. -/
theorem step_of_prompts_of_nil (prompts : m.Prompts) (exhausted : m.console.keys = []) :
    m.step.2.console.keys = [] ∧
      m.step.2.console.display.bytes.toList =
        m.console.display.bytes.toList ++ (promptBytes ++ [0xFF]) ∧
      (step ⟨m.state, { m.console with keys := [0xFF] }⟩).2.console.display =
        m.step.2.console.display := by
  have typed : Prompts (⟨m.state, { m.console with keys := [0xFF] }⟩ : Machine Tape) :=
    prompts.of_state rfl
  obtain ⟨_, left, display⟩ := step_of_prompts prompts
  obtain ⟨_, _, display'⟩ := step_of_prompts typed
  have alike : prompting m.console.display (firstKey [0xFF]) =
      prompting m.console.display (firstKey []) := by
    rw [prompting, prompting, echo_firstKey_cons, echo_firstKey_nil]
  rw [display', left, display, bytes_prompting, exhausted, echo_firstKey_nil]
  exact ⟨rfl, rfl, alike⟩

/-- A prompt echoes the key that it takes. One that finds no key echoes `0xFF`, as if that had been
typed, so the echoes of a run are the keys taken exactly if none of its prompts came too late. -/
theorem echoes_are_keys_unless_late (m : Machine Tape) (n : Nat) :
    (∀ k, (m.after k).Prompts →
      let before := (m.after k).console
      let after := (m.after (k + 1)).console
      (∀ c rest, before.keys = c :: rest → after.keys = rest ∧
        after.display.bytes.toList = before.display.bytes.toList ++ (promptBytes ++ [c])) ∧
      (before.keys = [] → after.keys = [] ∧
        after.display.bytes.toList = before.display.bytes.toList ++ (promptBytes ++ [0xFF]) ∧
        (step ⟨(m.after k).state, { before with keys := [0xFF] }⟩).2.console.display =
          after.display)) ∧
    m.echoed n = m.typed n ++ List.replicate (m.late n) 0xFF ∧
    (m.echoed n = m.typed n ↔ ∀ k < n, ¬ (m.after k).PromptsTooLate) := by
  refine ⟨?_, echoed_eq n m, ?_⟩
  · intro k prompts before after
    have stepped : (m.after k).step.2.console = after := by rw [step_after]
    constructor
    · intro c rest more
      rw [← stepped]
      exact step_of_prompts_of_cons prompts more
    · intro exhausted
      rw [← stepped]
      exact step_of_prompts_of_nil prompts exhausted
  · rw [← late_eq_zero_iff, echoed_eq, List.append_right_eq_self, List.replicate_eq_nil_iff]

def prompter (t : Tape) : Machine Tape := ⟨State.initial.store 0x3000 0xF023, t⟩

theorem prompts_prompter (t : Tape) : (prompter t).Prompts := by
  have held : (prompter t).state.memory.get 0x3000 = 0xF023 := Memory.get_set_self ..
  have here : (prompter t).state.pc = 0x3000 := rfl
  have elsewhere : (prompter t).state.pc ≠ keyboardStatus := by
    rw [here]
    decide
  refine ⟨rfl, ?_⟩
  rw [instruction_of_ne elsewhere, here, held]
  decide

/-- A prompt that takes the last key, and one that comes too late. -/
theorem echoes_are_keys_unless_late_at_end :
    let last := prompter { keys := [97] }
    let empty := prompter {}
    last.Prompts ∧ (last.after 1).console.keys = [] ∧
      (last.after 1).console.display.bytes.toList = promptBytes ++ [97] ∧
      empty.Prompts ∧ (empty.after 1).console.display.bytes.toList = promptBytes ++ [0xFF] := by
  intro last empty
  have prompts : last.Prompts := prompts_prompter _
  have too_late : empty.Prompts := prompts_prompter _
  obtain ⟨left, echoed⟩ := ((echoes_are_keys_unless_late last 1).1 0 prompts).1 97 [] rfl
  obtain ⟨_, marked, _⟩ := ((echoes_are_keys_unless_late empty 1).1 0 too_late).2 rfl
  exact ⟨prompts, left, echoed, too_late, marked⟩

/-- Nothing is taken, and yet a byte is echoed, the same that is echoed when `0xFF` is typed. -/
theorem late_prompt_echoes_no_key :
    let empty := prompter {}
    empty.Prompts ∧ empty.taken = [] ∧ empty.displayed = promptBytes ++ [0xFF] ∧
      empty.displayed ≠ promptBytes ++ empty.taken ∧ empty.echoed 1 ≠ empty.typed 1 ∧
      (prompter { keys := [0xFF] }).displayed = promptBytes ++ [0xFF] := by
  intro empty
  have prompts : empty.Prompts := prompts_prompter _
  have counted : empty.late 1 = 1 := by
    rw [late_succ, show empty.after 0 = empty from rfl, if_pos ⟨prompts, rfl⟩]
    rfl
  have displayed := displayed_of_prompts prompts
  have displayed' := displayed_of_prompts (prompts_prompter { keys := [0xFF] })
  rw [show empty.console.keys = [] from rfl, echo_firstKey_nil] at displayed
  rw [show (prompter { keys := [0xFF] }).console.keys = [0xFF] from rfl, echo_firstKey_cons]
    at displayed'
  have taken : empty.taken = [] := taken_of_prompts prompts
  refine ⟨prompts, taken, displayed, ?_, ?_, displayed'⟩
  · rw [displayed, taken]
    simp
  · rw [echoed_eq, counted]
    simp

end LittleComputer.Machine
