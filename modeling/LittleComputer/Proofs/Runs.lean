import LittleComputer.Machine.Step

/-! Steps one after the other, whatever each of them comes to. A run is such a sequence that has
been cut short by a halt, a step that does not complete, or the limit, and its outcome tells which
of them it was. -/
namespace LittleComputer.Machine

variable {κ : Type} [Console κ]

def after : Nat → Machine κ → Machine κ
  | 0, m => m
  | n + 1, m => after n m.step.2

@[simp] theorem after_succ (n : Nat) (m : Machine κ) : m.after (n + 1) = m.step.2.after n := rfl

theorem after_add (n k : Nat) (m : Machine κ) : m.after (n + k) = (m.after n).after k := by
  induction n generalizing m with
  | zero => simp [after]
  | succ n ih =>
    rw [Nat.succ_add]
    exact ih m.step.2

theorem step_after (n : Nat) (m : Machine κ) : (m.after n).step.2 = m.after (n + 1) :=
  (after_add n 1 m).symm

theorem after_of_halted {m : Machine κ} (halted : m.state.running = false) (n : Nat) :
    m.after n = m := by
  induction n with
  | zero => rfl
  | succ n ih => rw [after_succ, step_of_halted m halted, ih]

/-- Each of the first `n` steps executes an instruction to its end. -/
def Executes (m : Machine κ) (n : Nat) : Prop :=
  ∀ k < n, (m.after k).state.running = true ∧ (m.after k).step.1 = .done

theorem executes_zero (m : Machine κ) : m.Executes 0 :=
  fun k below => absurd below (Nat.not_lt_zero k)

theorem executes_succ {m : Machine κ} {n : Nat} (running : m.state.running = true)
    (completed : m.step.1 = .done) (executed : m.step.2.Executes n) : m.Executes (n + 1) := by
  intro k below
  cases k with
  | zero => exact ⟨running, completed⟩
  | succ k => exact executed k (Nat.lt_of_succ_lt_succ below)

theorem Executes.tail {m : Machine κ} {n : Nat} (executed : m.Executes (n + 1)) :
    m.step.2.Executes n := fun k below => executed (k + 1) (Nat.succ_lt_succ below)

theorem Executes.mono {m : Machine κ} {n k : Nat} (executed : m.Executes n) (bound : k ≤ n) :
    m.Executes k := fun i below => executed i (Nat.lt_of_lt_of_le below bound)

/-- What holds before each of the first `n` steps, and before each of the `k` steps after them,
holds all the way. -/
theorem forall_after_add {P : Machine κ → Prop} {m : Machine κ} {n k : Nat}
    (first : ∀ i < n, P (m.after i)) (later : ∀ i < k, P ((m.after n).after i)) :
    ∀ i < n + k, P (m.after i) := by
  intro i below
  obtain early | late := Nat.lt_or_ge i n
  · exact first i early
  · obtain ⟨d, rfl⟩ := Nat.exists_eq_add_of_le late
    rw [after_add]
    exact later d (Nat.lt_of_add_lt_add_left below)

/-- Executing `n` instructions to their ends leads from one machine to another. -/
structure Leads (m : Machine κ) (n : Nat) (last : Machine κ) : Prop where
  executes : m.Executes n
  after_eq : m.after n = last

theorem Leads.of_step {m next : Machine κ} (running : m.state.running = true)
    (stepped : m.step = (.done, next)) : m.Leads 1 next where
  executes := executes_succ running (congrArg Prod.fst stepped) (executes_zero _)
  after_eq := by rw [after_succ, stepped, after]

theorem Leads.trans {m middle last : Machine κ} {n k : Nat} (first : m.Leads n middle)
    (second : middle.Leads k last) : m.Leads (n + k) last := by
  obtain ⟨executed, rfl⟩ := first
  have throughout : m.Executes (n + k) :=
    forall_after_add (P := fun m => m.state.running = true ∧ m.step.1 = .done) executed
      second.executes
  exact ⟨throughout, (after_add n k m).trans second.after_eq⟩

/-- How a run that has made `n` steps can end. -/
inductive Ends (m : Machine κ) (limit : Nat) : Nat → Outcome → Prop where
  | halted {n : Nat} (within : n ≤ limit) (executed : m.Executes n)
      (halted : (m.after n).state.running = false) : Ends m limit n .done
  | limited (executed : m.Executes limit) (running : (m.after limit).state.running = true) :
      Ends m limit limit .interrupted
  | stopped {n : Nat} (within : n < limit) (executed : m.Executes n)
      (running : (m.after n).state.running = true) (stopped : (m.after n).step.1 ≠ .done) :
      Ends m limit (n + 1) (m.after n).step.1

theorem Ends.succ {m : Machine κ} {limit n : Nat} {outcome : Outcome}
    (ends : Ends m.step.2 limit n outcome) (running : m.state.running = true)
    (completed : m.step.1 = .done) : Ends m (limit + 1) (n + 1) outcome := by
  cases ends with
  | halted within executed halted =>
    exact .halted (Nat.succ_le_succ within) (executes_succ running completed executed) halted
  | limited executed alive => exact .limited (executes_succ running completed executed) alive
  | stopped within executed alive stopped =>
    exact .stopped (Nat.succ_lt_succ within) (executes_succ running completed executed) alive
      stopped

theorem Ends.le {m : Machine κ} {limit n : Nat} {outcome : Outcome}
    (ends : Ends m limit n outcome) : n ≤ limit := by
  cases ends with
  | halted within _ _ => exact within
  | limited _ _ => exact Nat.le_refl limit
  | stopped within _ _ _ => exact within

theorem Ends.running {m : Machine κ} {limit n : Nat} {outcome : Outcome}
    (ends : Ends m limit n outcome) : ∀ k < n, (m.after k).state.running = true := by
  cases ends with
  | halted _ executed _ => exact fun k below => (executed k below).1
  | limited executed _ => exact fun k below => (executed k below).1
  | stopped _ executed running _ =>
    intro k below
    obtain earlier | rfl := Nat.lt_succ_iff_lt_or_eq.mp below
    · exact (executed k earlier).1
    · exact running

theorem run_succ_of_done {m : Machine κ} (running : m.state.running = true)
    (completed : m.step.1 = .done) (limit : Nat) : m.run (limit + 1) = m.step.2.run limit := by
  rcases stepped : m.step with ⟨outcome, next⟩
  rw [stepped] at completed
  obtain rfl : outcome = .done := completed
  simp [run, running, stepped]

theorem run_succ_of_stopped {m : Machine κ} (running : m.state.running = true)
    (stopped : m.step.1 ≠ .done) (limit : Nat) : m.run (limit + 1) = m.step := by
  rcases stepped : m.step with ⟨outcome, next⟩
  rw [stepped] at stopped
  cases outcome with
  | done => exact absurd rfl stopped
  | _ => simp [run, running, stepped]

theorem run_ends (limit : Nat) (m : Machine κ) :
    ∃ n, Ends m limit n (m.run limit).1 ∧ (m.run limit).2 = m.after n := by
  induction limit generalizing m with
  | zero =>
    by_cases running : m.state.running = true
    · simp only [run, running, if_true]
      exact ⟨0, .limited (executes_zero m) running, rfl⟩
    · have halted : m.state.running = false := Bool.eq_false_iff.mpr running
      rw [run_of_halted m halted]
      exact ⟨0, .halted (Nat.le_refl 0) (executes_zero m) halted, rfl⟩
  | succ limit ih =>
    by_cases running : m.state.running = true
    · by_cases completed : m.step.1 = .done
      · obtain ⟨n, ends, ran⟩ := ih m.step.2
        rw [run_succ_of_done running completed]
        exact ⟨n + 1, ends.succ running completed, ran⟩
      · rw [run_succ_of_stopped running completed]
        exact ⟨1, .stopped (Nat.succ_pos limit) (executes_zero m) running completed, rfl⟩
    · have halted : m.state.running = false := Bool.eq_false_iff.mpr running
      rw [run_of_halted m halted]
      exact ⟨0, .halted (Nat.zero_le _) (executes_zero m) halted, rfl⟩

/-- A run makes steps as long as the machine runs, and no more than its limit. -/
theorem run_eq_after (limit : Nat) (m : Machine κ) :
    ∃ n ≤ limit, (m.run limit).2 = m.after n ∧ ∀ k < n, (m.after k).state.running = true := by
  obtain ⟨n, ends, ran⟩ := run_ends limit m
  exact ⟨n, ends.le, ran, ends.running⟩

end LittleComputer.Machine
