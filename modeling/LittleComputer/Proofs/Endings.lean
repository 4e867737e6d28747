import LittleComputer.Console.Pipe
import LittleComputer.Proofs.Outcomes
import LittleComputer.Proofs.Upkeep

/-! How a program ends whose console answers whoever waits for a key. If the texts that it prints
come to an end, it halts by the one trap that does so, or one of its instructions is at fault, or it
is still running when the limit is reached; and no more than one of these is the case. -/
namespace LittleComputer

variable {κ : Type} [Console κ]

/-- Consoles that answer with a key whoever waits for one, and go on doing so. -/
structure Answering (A : κ → Prop) : Prop where
  poll {c} : A c → A (Console.poll c).2
  read {c} : A c → (∃ k, (Console.read c).1 = .key k) ∧ A (Console.read c).2
  say {c} (bytes : List UInt8) : A c → A (Console.flush (Console.write bytes c))

theorem Pipe.answering (notices : Array Notice) :
    Answering fun p : Pipe => p.closed = true ∧ p.notices = notices where
  poll := by
    rintro ⟨_ | ⟨b, rest⟩, closed, display, told⟩ same
    · exact same
    · exact same
  read := by
    rintro ⟨_ | ⟨b, rest⟩, closed, display, told⟩ ⟨at_end, same⟩
    · obtain rfl : closed = true := at_end
      exact ⟨⟨.endOfInput, rfl⟩, rfl, same⟩
    · exact ⟨⟨.byte b, rfl⟩, at_end, same⟩
  say _ same := same

namespace Machine

/-- The next step executes the trap that stops the machine. -/
def Halts (m : Machine κ) : Prop := m.state.running = true ∧ m.instruction = .trap 0x25

def Faults (m : Machine κ) : Prop := ∃ f, m.step.1 = .fault f

def Prints (m : Machine κ) : Prop :=
  m.state.running = true ∧ (m.instruction = .trap 0x22 ∨ m.instruction = .trap 0x24)

/-- Whenever a run with this limit writes a text, some cell of memory holds the zero to end it. -/
def TextsEnd (m : Machine κ) (limit : Nat) : Prop :=
  ∀ k < limit, m.Executes k → (m.after k).Prints → ∃ a, (m.after k).state.memory.get a = 0

/-- The machine is halted by its step number `k`, and nothing before has been at fault. -/
def HaltsAt (m : Machine κ) (k : Nat) : Prop :=
  (m.after k).Halts ∧ ∀ j < k, ¬ (m.after j).Faults

/-- The step number `k` is the first at fault, and the machine has not halted before. -/
def FaultsAt (m : Machine κ) (k : Nat) : Prop :=
  (m.after k).Faults ∧ ∀ j < k, ¬ (m.after j).Faults ∧ ¬ (m.after j).Halts

/-- The trap that halts, told by the numbers of the word that is fetched. -/
theorem halts_iff {m : Machine κ} :
    m.Halts ↔ m.state.running = true ∧ m.word.code = 15 ∧ m.word.toNat % 256 = 0x25 :=
  and_congr_right fun _ => Instruction.decode_eq_trap_iff

theorem Faults.running {m : Machine κ} (faults : m.Faults) : m.state.running = true := by
  obtain ⟨f, fault⟩ := faults
  by_cases running : m.state.running = true
  · exact running
  · rw [step_of_halted m (Bool.eq_false_iff.mpr running)] at fault
    cases fault

theorem faults_iff {m : Machine κ} :
    m.Faults ↔ m.state.running = true ∧ ∃ f, m.word.fault? = some f := by
  constructor
  · intro faults
    have running := faults.running
    obtain ⟨f, fault⟩ := faults
    exact ⟨running, f, (step_eq_fault_iff running f).mp fault⟩
  · rintro ⟨running, f, refused⟩
    exact ⟨f, (step_eq_fault_iff running f).mpr refused⟩

theorem Halts.step_eq {m : Machine κ} (halts : m.Halts) :
    m.step = (m.fetched.map fun s => s.setReg 7 s.pc).serve .halt := by
  rw [step_eq_perform halts.1, halts.2]
  rfl

theorem Halts.completes {m : Machine κ} (halts : m.Halts) : m.step.1 = .done := by
  rw [halts.step_eq]
  rfl

theorem halts_of_not_running_step {m : Machine κ} (running : m.state.running = true)
    (stopped : m.step.2.state.running = false) : m.Halts := by
  refine ⟨running, Decidable.byContradiction fun other => ?_⟩
  have going_on := (running_step running).mpr other
  rw [stopped] at going_on
  cases going_on

theorem halts_of_get {m : Machine κ} (running : m.state.running = true)
    (elsewhere : m.state.pc ≠ keyboardStatus)
    (held : m.state.memory.get m.state.pc = 0xF025) : m.Halts := by
  have decoded : Instruction.decode 0xF025 = .trap 0x25 := by decide
  refine ⟨running, ?_⟩
  rw [instruction_of_ne elsewhere, held, decoded]

theorem step_of_get_halt {m : Machine κ} (running : m.state.running = true) {a : Word}
    (here : m.state.pc = a) (elsewhere : a ≠ keyboardStatus)
    (held : m.state.memory.get a = 0xF025) :
    m.step = (.done,
      ((m.map fun s => { s.advance.setReg 7 (s.pc + 1) with running := false }).write
        (Latin.lowBytes haltMessage)).flush) := by
  subst here
  rw [(halts_of_get running elsewhere held).step_eq, fetched_of_ne elsewhere]
  rfl

theorem not_running_after_halts {m : Machine κ} {j k : Nat} (halts : (m.after j).Halts)
    (later : j < k) : (m.after k).state.running = false := by
  have stopped : (m.after (j + 1)).state.running = false := by
    rw [← step_after, Bool.eq_false_iff, Ne, running_step halts.1, halts.2]
    exact not_not_intro rfl
  obtain ⟨d, rfl⟩ := Nat.exists_eq_add_of_lt later
  rw [show j + d + 1 = j + 1 + d by omega, after_add, after_of_halted stopped]
  exact stopped

theorem Halts.outcome_run {m : Machine κ} (halts : m.Halts) (limit : Nat) :
    (m.run (limit + 1)).1 = .done := by
  have stopped : (m.after 1).state.running = false :=
    not_running_after_halts (j := 0) halts Nat.one_pos
  rw [run_succ_of_done halts.1 halts.completes, run_of_halted m.step.2 stopped]

/-- A machine that a run leaves has stopped exactly if the run was not cut short. -/
theorem run_eq_done_iff {m : Machine κ} {limit : Nat} :
    (m.run limit).1 = .done ↔ (m.run limit).2.state.running = false := by
  obtain ⟨n, ends, ran⟩ := run_ends limit m
  rw [ran]
  generalize (m.run limit).1 = outcome at ends
  cases ends with
  | halted _ _ halted => exact iff_of_true rfl halted
  | limited _ running =>
    rw [running]
    exact iff_of_false nofun nofun
  | @stopped k _ _ running stopped =>
    refine iff_of_false stopped fun halted => ?_
    rw [← step_after] at halted
    exact stopped (halts_of_not_running_step running halted).completes

theorem haltsAt_zero {m : Machine κ} (running : m.state.running = true) (word : m.word = 0xF025) :
    m.HaltsAt 0 := by
  refine ⟨halts_iff.mpr ⟨running, ?_⟩, nofun⟩
  rw [after, word]
  decide

theorem faultsAt_zero {m : Machine κ} (running : m.state.running = true) {f : Fault}
    (refused : m.word.fault? = some f) : m.FaultsAt 0 :=
  ⟨faults_iff.mpr ⟨running, f, refused⟩, nofun⟩

theorem HaltsAt.unique {m : Machine κ} {j k : Nat} (first : m.HaltsAt j) (second : m.HaltsAt k) :
    j = k := by
  obtain earlier | rfl | later := Nat.lt_trichotomy j k
  · have stopped := not_running_after_halts first.1 earlier
    rw [second.1.1] at stopped
    cases stopped
  · rfl
  · have stopped := not_running_after_halts second.1 later
    rw [first.1.1] at stopped
    cases stopped

theorem FaultsAt.unique {m : Machine κ} {j k : Nat} (first : m.FaultsAt j)
    (second : m.FaultsAt k) : j = k := by
  obtain earlier | rfl | later := Nat.lt_trichotomy j k
  · exact absurd first.1 (second.2 j earlier).1
  · rfl
  · exact absurd second.1 (first.2 k later).1

theorem not_haltsAt_of_faultsAt {m : Machine κ} {j k : Nat} (faults : m.FaultsAt j) :
    ¬ m.HaltsAt k := by
  intro halts
  obtain earlier | rfl | later := Nat.lt_trichotomy j k
  · exact halts.2 j earlier faults.1
  · obtain ⟨f, fault⟩ := faults.1
    rw [halts.1.completes] at fault
    cases fault
  · exact (faults.2 k later).2 halts.1

theorem pc_ne_keyboardStatus_of_trap {m : Machine κ} {vector : BitVec 8}
    (traps : m.instruction = .trap vector) : m.state.pc ≠ keyboardStatus := by
  intro status
  obtain idle | refused := instruction_of_status status
  · cases idle.symm.trans traps
  · cases refused.symm.trans traps

theorem fetched_of_trap {m : Machine κ} {vector : BitVec 8}
    (traps : m.instruction = .trap vector) : m.fetched = m.map (·.advance) :=
  fetched_of_ne (pc_ne_keyboardStatus_of_trap traps)

end Machine

namespace Answering

open Machine

variable {A : κ → Prop} (answering : Answering A)

include answering

theorem upkeep : Upkeep A where
  poll := answering.poll
  read answers := (answering.read answers).2
  say := answering.say

theorem run {m : Machine κ} (answers : A m.console) (limit : Nat) : A (m.run limit).2.console := by
  obtain ⟨n, _, ran⟩ := run_ends limit m
  rw [ran]
  exact answering.upkeep.after answers n

/-- A step that waits for a key is given one. -/
theorem comes_step {m : Machine κ} (answers : A m.console) :
    Comes m.instruction m.state.memory m.step.1 := by
  obtain comes | ⟨state, prompted, exchange⟩ := Machine.comes_step m
  · exact comes
  · have prompted_too := answering.upkeep.optionally_say answers (Exchange.promptOf prompted)
    obtain ⟨⟨k, answer⟩, _⟩ := answering.read prompted_too
    rw [← Exchange.play_ofState, exchange, Exchange.outcome_play_await, answer]
    exact .done

/-- A step completes, or faults, or writes a text that has no end. -/
theorem outcome_step {m : Machine κ} (answers : A m.console) (running : m.state.running = true) :
    m.step.1 = .done ∨ m.Faults ∨ m.Prints ∧ ∀ a, m.state.memory.get a ≠ 0 := by
  have comes := answering.comes_step answers
  generalize outcome : m.step.1 = result at comes
  cases comes with
  | done => exact .inl rfl
  | fault refused => exact .inr (.inl ⟨_, outcome⟩)
  | unending prints endless => exact .inr (.inr ⟨⟨running, prints⟩, endless⟩)

/-- A run of a machine that is running halts, faults, or exhausts its limit, at the step that halts
or faults first. -/
theorem run_cases {m : Machine κ} (answers : A m.console) (running : m.state.running = true)
    {limit : Nat} (texts : m.TextsEnd limit) :
    (∃ k < limit, m.HaltsAt k ∧ m.Executes k ∧ m.run limit = (.done, m.after (k + 1))) ∨
    (∃ k < limit, m.FaultsAt k ∧ m.Executes k ∧
      ∃ f, m.run limit = (.fault f, m.after (k + 1))) ∨
    (∀ k < limit, ¬ (m.after k).Halts ∧ ¬ (m.after k).Faults) ∧ m.Executes limit ∧
      m.run limit = (.interrupted, m.after limit) := by
  have faultless {n : Nat} (executed : m.Executes n) (k : Nat) (below : k < n) :
      ¬ (m.after k).Faults := by
    rintro ⟨f, fault⟩
    rw [(executed k below).2] at fault
    cases fault
  have unhalted {n : Nat} (alive : (m.after n).state.running = true) (k : Nat) (below : k < n) :
      ¬ (m.after k).Halts := by
    intro halts
    rw [not_running_after_halts halts below] at alive
    cases alive
  obtain ⟨n, ends, ran⟩ := run_ends limit m
  have result : m.run limit = ((m.run limit).1, m.after n) := Prod.ext rfl ran
  generalize (m.run limit).1 = outcome at ends result
  cases ends with
  | halted within executed halted =>
    cases n with
    | zero =>
      rw [show m.after 0 = m from rfl, running] at halted
      cases halted
    | succ k =>
      have alive := (executed k (Nat.lt_succ_self k)).1
      rw [← step_after] at halted
      have halts := halts_of_not_running_step alive halted
      have earlier := executed.mono (Nat.le_succ k)
      exact .inl ⟨k, within, ⟨halts, faultless earlier⟩, earlier, result⟩
  | limited executed alive =>
    exact .inr (.inr ⟨fun k below => ⟨unhalted alive k below, faultless executed k below⟩,
      executed, result⟩)
  | @stopped k within executed alive stopped =>
    obtain completed | faults | ⟨prints, endless⟩ :=
      answering.outcome_step (answering.upkeep.after answers k) alive
    · exact absurd completed stopped
    · have first : m.FaultsAt k :=
        ⟨faults, fun j below => ⟨faultless executed j below, unhalted alive j below⟩⟩
      obtain ⟨f, fault⟩ := faults
      rw [fault] at result
      exact .inr (.inl ⟨k, within, first, executed, f, result⟩)
    · obtain ⟨a, nothing⟩ := texts k within executed prints
      exact absurd nothing (endless a)

end Answering

end LittleComputer
