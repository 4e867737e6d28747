import LittleComputer.Console.Tape
import LittleComputer.Proofs.Endings

/-! Breaking a run off and going on with it. The limit of a run breaks in between two steps, where
everything that the next one needs is in the machine, so a run in two parts is the run under the sum
of their limits. A machine that has halted does nothing more, and its counter tells how many steps
were begun. -/
namespace LittleComputer

namespace Machine

variable {κ : Type} [Console κ]

theorem run_add_of_executes {m : Machine κ} {a : Nat} (executed : m.Executes a) (b : Nat) :
    m.run (a + b) = (m.after a).run b := by
  induction a generalizing m with
  | zero => rw [Nat.zero_add, after]
  | succ a ih =>
    obtain ⟨running, completed⟩ : m.state.running = true ∧ m.step.1 = .done :=
      executed 0 (Nat.succ_pos a)
    rw [Nat.succ_add, run_succ_of_done running completed, after_succ]
    exact ih executed.tail

theorem Leads.run {m last : Machine κ} {n : Nat} (leads : m.Leads n last)
    (halted : last.state.running = false) {limit : Nat} (within : n ≤ limit) :
    m.run limit = (.done, last) := by
  obtain ⟨rest, rfl⟩ := Nat.exists_eq_add_of_le within
  rw [run_add_of_executes leads.executes, leads.after_eq, run_of_halted last halted]

/-- A run ends with the first step that does not complete. -/
theorem run_of_stopped {m : Machine κ} {k limit : Nat} (within : k < limit) (executed : m.Executes k)
    (running : (m.after k).state.running = true) (stopped : (m.after k).step.1 ≠ .done) :
    m.run limit = (m.after k).step := by
  obtain ⟨rest, rfl⟩ := Nat.exists_eq_add_of_lt within
  rw [Nat.add_assoc, run_add_of_executes executed, run_succ_of_stopped running stopped]

/-- A run that was not interrupted is not changed by a higher limit. -/
theorem run_add_of_ended {m : Machine κ} {a : Nat} (ended : (m.run a).1 ≠ .interrupted) (b : Nat) :
    m.run (a + b) = m.run a := by
  induction a generalizing m with
  | zero =>
    cases running : m.state.running with
    | false => rw [run_of_halted m running, run_of_halted m running]
    | true => simp [run, running] at ended
  | succ a ih =>
    rw [Nat.succ_add]
    by_cases running : m.state.running = true
    · by_cases completed : m.step.1 = .done
      · rw [run_succ_of_done running completed] at ended ⊢
        rw [run_succ_of_done running completed]
        exact ih ended
      · rw [run_succ_of_stopped running completed, run_succ_of_stopped running completed]
    · have halted : m.state.running = false := Bool.eq_false_iff.mpr running
      rw [run_of_halted m halted, run_of_halted m halted]

theorem count_after_eq (m : Machine κ) (n : Nat) :
    (m.after n).state.count =
      m.state.count + (List.range n).countP fun k => (m.after k).state.running := by
  induction n with
  | zero => rfl
  | succ n ih =>
    rw [← step_after, List.range_succ, List.countP_append, ← Nat.add_assoc, ← ih]
    by_cases running : (m.after n).state.running = true
    · rw [count_step running]
      simp [running]
    · have halted : (m.after n).state.running = false := Bool.eq_false_iff.mpr running
      rw [step_of_halted _ halted]
      simp [halted]

/-- What the user of a machine calls to make it go on. -/
inductive Call where
  | step
  | run (limit : Nat)
  deriving DecidableEq, Repr

def call (m : Machine κ) : Call → Outcome × Machine κ
  | .step => m.step
  | .run limit => m.run limit

/-- Makes calls one after the other, whatever each of them comes to. -/
def callAll (m : Machine κ) : List Call → List Outcome × Machine κ
  | [] => ([], m)
  | c :: rest =>
    let (outcome, m) := m.call c
    let (outcomes, m) := m.callAll rest
    (outcome :: outcomes, m)

theorem callAll_of_halted {m : Machine κ} (halted : m.state.running = false) (calls : List Call) :
    m.callAll calls = (calls.map fun _ => .done, m) := by
  induction calls with
  | nil => rfl
  | cons c rest ih =>
    have called : m.call c = (.done, m) := by
      cases c with
      | step => exact step_of_halted m halted
      | run limit => exact run_of_halted m halted limit
    simp only [callAll, called, ih, List.map_cons]

end Machine

namespace Answering

open Machine

variable {κ : Type} [Console κ] {A : κ → Prop} (answering : Answering A)

include answering

/-- With a console that answers whoever waits for a key, only its limit interrupts a run. -/
theorem executes_of_interrupted {m : Machine κ} (answers : A m.console) {limit : Nat}
    (interrupted : (m.run limit).1 = .interrupted) :
    m.Executes limit ∧ (m.after limit).state.running = true ∧ (m.run limit).2 = m.after limit := by
  obtain ⟨n, ends, ran⟩ := run_ends limit m
  generalize (m.run limit).1 = outcome at ends interrupted
  cases ends with
  | halted _ _ _ => cases interrupted
  | limited executed running => exact ⟨executed, running, ran⟩
  | @stopped k _ _ _ _ =>
    have comes := answering.comes_step (answering.upkeep.after answers k)
    rw [interrupted] at comes
    cases comes

theorem outcome_run {m : Machine κ} (answers : A m.console) {limit : Nat}
    (texts : m.TextsEnd limit) :
    (m.run limit).1 = .done ∨ (∃ f, (m.run limit).1 = .fault f) ∨
      (m.run limit).1 = .interrupted := by
  cases running : m.state.running with
  | false => exact .inl (congrArg Prod.fst (run_of_halted m running limit))
  | true =>
    obtain ⟨_, _, _, _, ran⟩ | ⟨_, _, _, _, f, ran⟩ | ⟨_, _, ran⟩ :=
      answering.run_cases answers running texts
    · exact .inl (congrArg Prod.fst ran)
    · exact .inr (.inl ⟨f, congrArg Prod.fst ran⟩)
    · exact .inr (.inr (congrArg Prod.fst ran))

end Answering

/-- A tape gives whoever waits for a key the mark of the end, if nothing else. -/
theorem Tape.answering : Answering fun _ : Tape => True where
  poll _ := trivial
  read := by
    rintro ⟨_ | ⟨b, rest⟩, display, notices⟩ _
    · exact ⟨⟨.endOfInput, rfl⟩, trivial⟩
    · exact ⟨⟨.byte b, rfl⟩, trivial⟩
  say _ _ := trivial

namespace Machine

/-- Nothing is lost when a run is interrupted by its limit: going on with it comes to what the run
comes to under the sum of the limits. -/
theorem interruption_loses_nothing (m : Machine Tape) (a b : Nat) :
    ((m.run a).1 = .interrupted →
      m.Executes a ∧ (m.run a).2 = m.after a ∧ (m.run a).2.state.running = true ∧
        (m.run a).2.run b = m.run (a + b)) ∧
    ((m.run a).1 ≠ .interrupted → m.run (a + b) = m.run a) ∧
    (m.TextsEnd a →
      (m.run a).1 = .done ∨ (∃ f, (m.run a).1 = .fault f) ∨ (m.run a).1 = .interrupted) ∧
    (m.state.running = false → ∀ calls, m.callAll calls = (calls.map fun _ => .done, m)) ∧
    (∃ n, Ends m a n (m.run a).1 ∧ (m.run a).2 = m.after n ∧
      (m.run a).2.state.count = m.state.count + n) ∧
    ∀ n, (m.after n).state.count =
      m.state.count + (List.range n).countP fun k => (m.after k).state.running := by
  refine ⟨?_, fun ended => run_add_of_ended ended b, Tape.answering.outcome_run trivial,
    callAll_of_halted, ?_, count_after_eq m⟩
  · intro interrupted
    obtain ⟨executed, running, ran⟩ := Tape.answering.executes_of_interrupted trivial interrupted
    rw [ran]
    exact ⟨executed, rfl, running, (run_add_of_executes executed b).symm⟩
  · obtain ⟨n, ends, ran⟩ := run_ends a m
    refine ⟨n, ends, ran, ?_⟩
    rw [ran]
    exact count_after ends.running

end Machine

end LittleComputer
