import LittleComputer.Console.Pipe
import LittleComputer.Proofs.Delivery
import LittleComputer.Proofs.LastWrite
import LittleComputer.Proofs.Simulation

/-! The end of input on a tape and on a pipe that is closed. Whoever waits for a key is given the
mark of the end by both once their keys are used up; a poll finds nothing on the tape then, and the
mark on the pipe. Nothing else tells a program which of them it reads from. -/
namespace LittleComputer

namespace Pipe

/-- The pipe is closed, has the keys that the tape has, and has been written to as the tape has. -/
structure Mirrors (t : Tape) (p : Pipe) : Prop where
  closed : p.closed = true
  keys : p.keys = t.keys
  display : p.display = t.display

/-- What a tape can be asked so that a closed pipe answers alike. -/
def Alike : Ask → Tape → Prop
  | .poll, t => t.keys ≠ []
  | .key, _ => True

theorem simulation_mirrors : Simulation Mirrors Alike where
  poll := by
    rintro ⟨_, _, told⟩ ⟨keys, _, display, warned⟩ ⟨rfl, rfl, rfl⟩ stocked
    obtain ⟨b, rest, rfl⟩ := List.exists_cons_of_ne_nil stocked
    exact ⟨rfl, rfl, rfl, rfl⟩
  read := by
    rintro ⟨_, _, told⟩ ⟨keys, _, display, warned⟩ ⟨rfl, rfl, rfl⟩ _
    cases keys with
    | nil => exact ⟨rfl, rfl, rfl, rfl⟩
    | cons b rest => exact ⟨rfl, rfl, rfl, rfl⟩
  say := by
    rintro t p bytes ⟨closed, keys, display⟩
    exact ⟨closed, keys, congrArg (fun d : Display => (d.write bytes).flush) display⟩
  allowed_say _ _ := trivial

end Pipe

namespace Machine

/-- The next step polls a tape that has no keys left. -/
def PollsInVain (m : Machine Tape) : Prop :=
  m.console.keys = [] ∧ ∃ found, .polled found ∈ m.requests

theorem obeys_of_not_pollsInVain {m : Machine Tape} (fruitful : ¬ m.PollsInVain) :
    m.Obeys Pipe.Alike := by
  intro ask asks
  cases ask with
  | poll =>
    intro exhausted
    exact fruitful ⟨exhausted, _, (polled_mem_requests_iff m _).mpr ⟨asks, rfl⟩⟩
  | key => trivial

/-- Waiting for a key that does not come gives the mark of the end, which is a negative number. -/
theorem step_of_awaits_at_end {m : Machine Tape} (running : m.state.running = true)
    (awaits : Awaits m.state) (exhausted : m.console.keys = []) :
    m.step.1 = .done ∧ m.step.2.state.reg 0 = 0xFFFF ∧
      m.step.2.state.cond = Condition.negative := by
  have asks := (Exchange.ask_ofState_eq_key_iff running).mpr awaits
  obtain ⟨state, prompted, exchange⟩ := Exchange.eq_await_of_ask asks
  rw [← Exchange.play_ofState, exchange]
  dsimp only [Exchange.play]
  rw [Tape.read_eq, Tape.keys_say, exhausted]
  have sign : Condition.ofWord 0xFFFF = Condition.negative := by decide
  exact ⟨rfl, (State.reg_assign ..).trans (if_pos rfl), sign⟩

/-- A step that polls reads in the status, and leaves in the two cells of the keyboard, what its poll
has found. -/
theorem step_shows_poll {κ : Type} [Console κ] {m : Machine κ}
    (asks : (Exchange.ofState m.state).ask = some .poll) {found : Option Key}
    (finds : (Console.poll m.console).1 = found) :
    m.requests = [.polled found] ∧ ⟨keyboardStatus, Exchange.status found⟩ ∈ m.reads ∧
      m.step.2.state.memory.get keyboardStatus = Exchange.status found ∧
      m.step.2.state.memory.get keyboardData =
        (found.map Key.word).getD (m.state.memory.get keyboardData) := by
  have read := status_mem_reads asks
  rw [Console.ready, finds] at read
  obtain ⟨result, exchange⟩ := Exchange.eq_poll_of_ask asks
  have left (a : Word) (apart : a ≠ Exchange.status found) :
      m.step.2.state.memory.get a = ((Write.polled found).at? a).getD (m.state.memory.get a) := by
    subst finds
    rw [← get_latch, ← Exchange.play_ofState, exchange]
    exact Exchange.ofState_leaves_latch exchange _ apart
  have data_apart : keyboardData ≠ Exchange.status found := by
    unfold Exchange.status
    split <;> decide
  refine ⟨?_, read, left _ (Exchange.status_ne found).symm, left _ data_apart⟩
  rw [requests_eq, exchange, ← finds]

/-- A poll in vain, made on a tape and on a closed pipe. The status reads as zero on the tape; on the
pipe it reads as ready, and the data cell takes the mark of the end. -/
structure Parts (t : Machine Tape) (p : Machine Pipe) : Prop where
  tape_finds : t.requests = [.polled none]
  pipe_finds : p.requests = [.polled (some .endOfInput)]
  tape_reads : ⟨0xFE00, 0⟩ ∈ t.reads
  pipe_reads : ⟨0xFE00, 0x8000⟩ ∈ p.reads
  tape_status : t.step.2.state.memory.get 0xFE00 = 0
  pipe_status : p.step.2.state.memory.get 0xFE00 = 0x8000
  tape_data : t.step.2.state.memory.get 0xFE02 = t.state.memory.get 0xFE02
  pipe_data : p.step.2.state.memory.get 0xFE02 = 0xFFFF

theorem parts_of_pollsInVain {t : Machine Tape} {p : Machine Pipe} (vain : t.PollsInVain)
    (related : Related Pipe.Mirrors t p) : Parts t p := by
  obtain ⟨exhausted, found, polled⟩ := vain
  have tape_asks := ((polled_mem_requests_iff t found).mp polled).1
  have pipe_asks : (Exchange.ofState p.state).ask = some .poll := related.state ▸ tape_asks
  have tape_nothing : (Console.poll t.console).1 = none := by
    rw [Tape.poll_eq, exhausted]
    rfl
  have pipe_end : (Console.poll p.console).1 = some .endOfInput := by
    simp [Console.poll, Pipe.poll, related.console.keys, exhausted, related.console.closed]
  obtain ⟨tape_finds, tape_reads, tape_status, tape_data⟩ := step_shows_poll tape_asks tape_nothing
  obtain ⟨pipe_finds, pipe_reads, pipe_status, pipe_data⟩ := step_shows_poll pipe_asks pipe_end
  exact {
    tape_finds, tape_reads, tape_status, tape_data, pipe_finds, pipe_reads, pipe_status, pipe_data }

/-- A program cannot tell a closed pipe from a tape with the same keys before it polls in vain, and
then it can. -/
theorem pipe_mirrors_tape (s : State) (keys : List UInt8) (display : Display) (n : Nat)
    (fruitful : ∀ k < n, ¬ (after k ⟨s, { keys, display }⟩ : Machine Tape).PollsInVain) :
    let t : Machine Tape := ⟨s, { keys, display }⟩
    let p : Machine Pipe := ⟨s, { keys, closed := true, display }⟩
    (∀ k ≤ n,
      (p.after k).state = (t.after k).state ∧
      (p.after k).console.keys = (t.after k).console.keys ∧
      (p.after k).console.display = (t.after k).console.display) ∧
    (∀ k < n,
      (p.after k).step.1 = (t.after k).step.1 ∧
      ((t.after k).state.running = true → Awaits (t.after k).state →
        (t.after k).console.keys = [] →
        (t.after k).step.1 = .done ∧
        (t.after (k + 1)).state.reg 0 = 0xFFFF ∧ (p.after (k + 1)).state.reg 0 = 0xFFFF ∧
        (t.after (k + 1)).state.cond = Condition.negative ∧
        (p.after (k + 1)).state.cond = Condition.negative)) ∧
    ((t.after n).PollsInVain → Parts (t.after n) (p.after n)) := by
  intro t p
  have start : Related Pipe.Mirrors t p := ⟨rfl, rfl, rfl, rfl⟩
  have obeys (k : Nat) (below : k < n) : (t.after k).Obeys Pipe.Alike :=
    obeys_of_not_pollsInVain (fruitful k below)
  have related (k : Nat) (bound : k ≤ n) : Related Pipe.Mirrors (t.after k) (p.after k) :=
    Pipe.simulation_mirrors.after start k fun i below => obeys i (Nat.lt_of_lt_of_le below bound)
  refine ⟨?_, ?_, fun vain => parts_of_pollsInVain vain (related n (Nat.le_refl n))⟩
  · intro k bound
    obtain ⟨same, _, keys, display⟩ := related k bound
    exact ⟨same.symm, keys, display⟩
  · intro k below
    obtain ⟨same, stepped⟩ :=
      Pipe.simulation_mirrors.step (related k (Nat.le_of_lt below)) (obeys k below)
    refine ⟨same.symm, ?_⟩
    intro running awaits exhausted
    obtain ⟨completed, marked, negative⟩ := step_of_awaits_at_end running awaits exhausted
    rw [← step_after, ← step_after, ← stepped.state]
    exact ⟨completed, marked, marked, negative, negative⟩

/-- A program that waits for a key at the end of its input, and then polls by fetching the
keyboard's status. -/
theorem pipe_mirrors_tape_at_end :
    let s := (State.initial.jump 0xFDFF).store 0xFDFF 0xF020
    let t : Machine Tape := ⟨s, {}⟩
    let p : Machine Pipe := ⟨s, { closed := true }⟩
    (∀ k < 1, ¬ (t.after k).PollsInVain) ∧ (t.after 1).PollsInVain ∧
      (p.after 1).state = (t.after 1).state ∧ (p.after 1).state.reg 0 = 0xFFFF ∧
      (t.after 1).step.2.state.memory.get 0xFE00 = 0 ∧
      (p.after 1).step.2.state.memory.get 0xFE00 = 0x8000 := by
  intro s t p
  have reads : Exchange.ofState s = .await (s.advance.setReg 7 0xFE00) false := by
    have held : s.memory.get s.pc = 0xF020 := Memory.get_set_self ..
    exact Exchange.ofState_of_service .getc rfl (by decide) (by rw [held]; decide)
  have awaits : Awaits s := (Exchange.ask_ofState_eq_key_iff rfl).mp (by rw [reads]; rfl)
  have fruitful : ∀ k < 1, ¬ (t.after k).PollsInVain := by
    intro k below
    obtain rfl := Nat.lt_one_iff.mp below
    rintro ⟨_, found, polled⟩
    obtain ⟨asks, _⟩ := (polled_mem_requests_iff t found).mp polled
    rw [reads] at asks
    cases asks
  have vain : (t.after 1).PollsInVain := by
    have fetches : (t.after 1).state.running = true ∧ (t.after 1).state.pc = keyboardStatus ∧
        (t.after 1).console.keys = [] := by
      rw [after_succ, ← Exchange.play_ofState, show t.state = s from rfl, reads]
      exact ⟨rfl, rfl, rfl⟩
    obtain ⟨running, status, exhausted⟩ := fetches
    refine ⟨exhausted, _, (polled_mem_requests_iff _ _).mpr ⟨?_, rfl⟩⟩
    exact (Exchange.ask_ofState_eq_poll_iff running).mpr (.inl status)
  obtain ⟨same, waits, parts⟩ := pipe_mirrors_tape s [] {} 1 fruitful
  obtain ⟨_, _, marked, _⟩ := (waits 0 Nat.one_pos).2 rfl awaits rfl
  exact ⟨fruitful, vain, (same 1 (Nat.le_refl 1)).1, marked, (parts vain).tape_status,
    (parts vain).pipe_status⟩

end Machine

end LittleComputer
