import LittleComputer.Proofs.Delivery
import LittleComputer.Proofs.Simulation

/-! Keys that come later. A program that is never short of a key knows nothing of those behind the
ones that it has read, so it makes the same steps whatever they are, and whether they are on its tape
from the start or are fed to it between the steps. -/
namespace LittleComputer

namespace Tape

/-- Both tapes have some keys in common, which different keys follow, and were written to alike. -/
structure Forks (rest other : List UInt8) (t u : Tape) : Prop where
  keys : ∃ shared, t.keys = shared ++ rest ∧ u.keys = shared ++ other
  display : t.display = u.display
  notices : t.notices = u.notices

variable {rest other : List UInt8} {t u : Tape}

/-- What is left once a key that both tapes have in common has been taken. -/
theorem Forks.tail (forks : Forks rest other t u) (more : rest.length < t.keys.length) :
    t.keys.head? = u.keys.head? ∧
      Forks rest other { t with keys := t.keys.tail } { u with keys := u.keys.tail } := by
  obtain ⟨⟨shared, left, right⟩, display, notices⟩ := forks
  cases shared with
  | nil =>
    rw [left, List.nil_append] at more
    exact absurd more (Nat.lt_irrefl _)
  | cons b shared =>
    rw [left, right]
    exact ⟨rfl, ⟨shared, rfl, rfl⟩, display, notices⟩

theorem simulation_forks (rest other : List UInt8) :
    Simulation (Forks rest other) fun _ t => rest.length < t.keys.length where
  poll := by
    intro t u forks more
    obtain ⟨first, left⟩ := forks.tail more
    rw [poll_eq, poll_eq, first]
    exact ⟨rfl, left⟩
  read := by
    intro t u forks more
    obtain ⟨first, left⟩ := forks.tail more
    rw [read_eq, read_eq, first]
    exact ⟨rfl, left⟩
  say := by
    rintro t u bytes ⟨keys, display, notices⟩
    exact ⟨keys, congrArg (fun d : Display => (d.write bytes).flush) display, notices⟩
  allowed_say _ more := more

theorem Forks.eq_of_nil (forks : Forks [] [] t u) : t = u := by
  obtain ⟨⟨shared, left, right⟩, display, notices⟩ := forks
  rcases t with ⟨keys, shown, told⟩
  obtain rfl : keys = shared ++ [] := left
  obtain rfl : shown = u.display := display
  obtain rfl : told = u.notices := notices
  rw [← right]

end Tape

/-- What happens to a machine whose keys come in pieces. -/
inductive Turn where
  | feed (bytes : List UInt8)
  | step
  deriving DecidableEq, Repr

namespace Turn

def fed : List Turn → List UInt8
  | [] => []
  | .feed bytes :: rest => bytes ++ fed rest
  | .step :: rest => fed rest

def steps : List Turn → Nat
  | [] => 0
  | .feed _ :: rest => steps rest
  | .step :: rest => steps rest + 1

end Turn

namespace Machine

def feed (bytes : List UInt8) (m : Machine Tape) : Machine Tape :=
  { m with console := m.console.feed bytes }

def withKeys (keys : List UInt8) (m : Machine Tape) : Machine Tape :=
  { m with console := { m.console with keys } }

def outcomes [Console κ] (n : Nat) (m : Machine κ) : List Outcome :=
  (List.range n).map fun k => (m.after k).step.1

/-- Takes turns in order, and gathers what the steps among them come to. -/
def take (m : Machine Tape) : List Turn → List Outcome × Machine Tape
  | [] => ([], m)
  | .feed bytes :: rest => (m.feed bytes).take rest
  | .step :: rest =>
    let (outcome, m) := m.step
    let (outcomes, m) := m.take rest
    (outcome :: outcomes, m)

def Supplied (m : Machine Tape) : Prop := m.requests ≠ [] → m.console.keys ≠ []

/-- A key is there whenever a step among the turns asks for one. -/
def SuppliedIn (m : Machine Tape) : List Turn → Prop
  | [] => True
  | .feed bytes :: rest => (m.feed bytes).SuppliedIn rest
  | .step :: rest => m.Supplied ∧ m.step.2.SuppliedIn rest

theorem outcomes_succ [Console κ] (n : Nat) (m : Machine κ) :
    m.outcomes (n + 1) = m.step.1 :: m.step.2.outcomes n := by
  simp [outcomes, List.range_succ_eq_map, after]

theorem keys_step_of_requests {m : Machine Tape} (asked : m.requests ≠ []) :
    m.step.2.console.keys = m.console.keys.tail := by
  rw [Ne, requests_eq_nil_iff] at asked
  rw [← Exchange.play_ofState]
  cases exchange : Exchange.ofState m.state with
  | quiet outcome state said =>
    rw [exchange] at asked
    exact absurd rfl asked
  | poll result =>
    rw [Exchange.play, Tape.poll_eq]
  | await state prompted =>
    simp only [Exchange.play, Tape.read_eq, Tape.keys_say]

/-- A step that leaves `rest` on a tape has asked for keys before it only. -/
theorem Supplied.obeys {m : Machine Tape} (supplied : m.Supplied) {rest : List UInt8}
    (left : rest.length ≤ m.step.2.console.keys.length) :
    m.Obeys fun _ t => rest.length < t.keys.length := by
  intro ask asks
  have asked : m.requests ≠ [] := by
    rw [Ne, requests_eq_nil_iff, asks]
    exact nofun
  rw [keys_step_of_requests asked, List.length_tail] at left
  have stocked := List.length_pos_iff.mpr (supplied asked)
  omega

theorem length_keys_after_le (m : Machine Tape) {k n : Nat} (later : k ≤ n) :
    (m.after n).console.keys.length ≤ (m.after k).console.keys.length := by
  obtain ⟨d, rfl⟩ := Nat.exists_eq_add_of_le later
  rw [after_add, keys_eq_deliveries_append d (m.after k), List.length_append]
  exact Nat.le_add_left ..

theorem take_eq_of_forks {turns : List Turn} {m n : Machine Tape} (supplied : m.SuppliedIn turns)
    (related : Related (Tape.Forks [] (Turn.fed turns)) m n) :
    m.take turns = (n.outcomes (Turn.steps turns), n.after (Turn.steps turns)) := by
  induction turns generalizing m n with
  | nil =>
    rcases m with ⟨state, console⟩
    obtain rfl : state = n.state := related.state
    obtain rfl : console = n.console := related.console.eq_of_nil
    rfl
  | cons turn rest ih =>
    cases turn with
    | feed bytes =>
      obtain ⟨same, ⟨shared, left, right⟩, display, notices⟩ := related
      refine ih supplied ⟨same, ⟨shared ++ bytes, ?_, ?_⟩, display, notices⟩
      · simp [feed, Tape.feed, left]
      · rw [right, Turn.fed, List.append_assoc]
    | step =>
      obtain ⟨here, later⟩ := supplied
      obtain ⟨same, stepped⟩ :=
        (Tape.simulation_forks [] (Turn.fed rest)).step related (here.obeys (Nat.zero_le _))
      simp only [take, Turn.steps, ih later stepped, outcomes_succ, same, after_succ]

/-- What a program does depends on the keys that it reads, and not on those behind them or on when
they come. -/
theorem run_depends_on_keys_read (m : Machine Tape) :
    (∀ (keys rest : List UInt8) (n : Nat),
      m.console.keys = keys ++ rest → (m.after n).console.keys = rest →
      (∀ k < n, (m.after k).Supplied) →
      ∀ other : List UInt8,
        let changed := m.withKeys (keys ++ other)
        (∀ k ≤ n,
          (changed.after k).state = (m.after k).state ∧
          (changed.after k).console.display = (m.after k).console.display ∧
          (changed.after k).console.notices = (m.after k).console.notices) ∧
        changed.outcomes n = m.outcomes n ∧
        (changed.after n).console.keys = other) ∧
    ∀ turns, m.SuppliedIn turns →
      let stocked := m.feed (Turn.fed turns)
      m.take turns = (stocked.outcomes (Turn.steps turns), stocked.after (Turn.steps turns)) := by
  constructor
  · intro keys rest n given left supplied other changed
    have start : Related (Tape.Forks rest other) m changed := ⟨rfl, ⟨keys, given, rfl⟩, rfl, rfl⟩
    have obeys (k : Nat) (below : k < n) :
        (m.after k).Obeys fun _ t => rest.length < t.keys.length := by
      apply (supplied k below).obeys
      rw [step_after, ← left]
      exact length_keys_after_le m below
    have related (k : Nat) (bound : k ≤ n) :
        Related (Tape.Forks rest other) (m.after k) (changed.after k) :=
      (Tape.simulation_forks rest other).after start k
        fun i below => obeys i (Nat.lt_of_lt_of_le below bound)
    refine ⟨?_, ?_, ?_⟩
    · intro k bound
      obtain ⟨same, _, display, notices⟩ := related k bound
      exact ⟨same.symm, display.symm, notices.symm⟩
    · apply List.map_congr_left
      intro k member
      have below := List.mem_range.mp member
      have stepped := (Tape.simulation_forks rest other).step
        (related k (Nat.le_of_lt below)) (obeys k below)
      exact stepped.1.symm
    · obtain ⟨_, ⟨shared, here, there⟩, _, _⟩ := related n (Nat.le_refl n)
      rw [left, List.self_eq_append_left] at here
      rw [there, here, List.nil_append]
  · intro turns supplied stocked
    exact take_eq_of_forks supplied ⟨rfl, ⟨m.console.keys, by simp, rfl⟩, rfl, rfl⟩

/-- The first of two keys is read, whatever the second is and whenever it is fed. -/
theorem run_depends_on_keys_read_of_first :
    let s := State.initial.store 0x3000 0xF020
    let m : Machine Tape := ⟨s, { keys := [97, 98] }⟩
    let empty : Machine Tape := ⟨s, {}⟩
    let turns : List Turn := [.feed [97], .step, .feed [98]]
    (m.after 1).console.keys = [98] ∧ (∀ k < 1, (m.after k).Supplied) ∧
      ((m.withKeys [97]).after 1).state = (m.after 1).state ∧
      ((m.withKeys [97]).after 1).console.keys = [] ∧
      empty.SuppliedIn turns ∧ empty.take turns = (m.outcomes 1, m.after 1) := by
  intro s m empty turns
  have reads : Exchange.ofState s = .await (s.advance.setReg 7 0x3001) false := by
    have held : s.memory.get s.pc = 0xF020 := Memory.get_set_self ..
    exact Exchange.ofState_of_service .getc rfl (by decide) (by rw [held]; decide)
  have left : (m.after 1).console.keys = [98] := by
    rw [after_succ, ← Exchange.play_ofState, show m.state = s from rfl, reads]
    rfl
  have supplied : ∀ k < 1, (m.after k).Supplied := by
    intro k below
    obtain rfl := Nat.lt_one_iff.mp below
    exact fun _ => nofun
  have supplied_in : empty.SuppliedIn turns := ⟨fun _ => nofun, trivial⟩
  obtain ⟨same, _, nothing⟩ := (run_depends_on_keys_read m).1 [97] [98] 1 rfl left supplied []
  have taken := (run_depends_on_keys_read empty).2 turns supplied_in
  exact ⟨left, supplied, (same 1 (Nat.le_refl 1)).1, nothing, supplied_in, taken⟩

end Machine

end LittleComputer
