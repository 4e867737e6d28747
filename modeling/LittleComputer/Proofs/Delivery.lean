import LittleComputer.Console.Tape
import LittleComputer.Proofs.Keyboard
import LittleComputer.Proofs.Runs

/-! Keys are delivered one at a time and in order. A key that a step takes off its tape is left in
the keyboard's data cell if the step polled, and in register 0 if it waited, and no other key is
lost: whatever is gone after some steps is what they have left there. -/
namespace LittleComputer

namespace Tape

theorem poll_eq (t : Tape) :
    Console.poll t = (t.keys.head?.map Key.byte, { t with keys := t.keys.tail }) := by
  rcases t with ⟨_ | ⟨c, rest⟩, display, notices⟩ <;> rfl

theorem read_eq (t : Tape) :
    Console.read t =
      (.key (t.keys.head?.elim .endOfInput Key.byte), { t with keys := t.keys.tail }) := by
  rcases t with ⟨_ | ⟨c, rest⟩, display, notices⟩ <;> rfl

theorem poll_of_nil {t : Tape} (nothing : t.keys = []) : Console.poll t = (none, t) := by
  rcases t with ⟨keys, display, notices⟩
  obtain rfl : keys = [] := nothing
  rfl

theorem poll_of_cons {t : Tape} {c : UInt8} {rest : List UInt8} (more : t.keys = c :: rest) :
    Console.poll t = (some (.byte c), { t with keys := rest }) := by
  rw [poll_eq, more]
  rfl

@[simp] theorem keys_say (said : Option (List UInt8)) (t : Tape) :
    (Exchange.say said t).keys = t.keys := by
  cases said <;> rfl

end Tape

namespace Machine

theorem step_of_polls {m : Machine Tape} (running : m.state.running = true)
    (polls : Polls m.state) :
    m.requests = [.polled (m.console.keys.head?.map Key.byte)] ∧
      m.step.2.console.keys = m.console.keys.tail ∧
      ∀ c ∈ m.console.keys.head?,
        m.step.2.state.memory.get keyboardData = Word.ofByte c := by
  have asked := (Exchange.ask_ofState_eq_poll_iff running).mpr polls
  obtain ⟨result, exchange⟩ := Exchange.eq_poll_of_ask asked
  rw [requests_eq, ← Exchange.play_ofState, exchange, Exchange.play, Tape.poll_eq]
  refine ⟨rfl, rfl, ?_⟩
  intro c found
  obtain found : m.console.keys.head? = some c := found
  rw [found]
  exact Exchange.ofState_keeps_key exchange (.byte c)

theorem step_of_awaits {m : Machine Tape} (running : m.state.running = true)
    (awaits : Awaits m.state) :
    m.requests = [.awaited (.key (m.console.keys.head?.elim .endOfInput Key.byte))] ∧
      m.step.2.console.keys = m.console.keys.tail ∧
      ∀ c ∈ m.console.keys.head?, m.step.2.state.reg 0 = Word.ofByte c := by
  have asked := (Exchange.ask_ofState_eq_key_iff running).mpr awaits
  obtain ⟨state, prompted, exchange⟩ := Exchange.eq_await_of_ask asked
  rw [requests_eq, ← Exchange.play_ofState, exchange]
  dsimp only [Exchange.play]
  rw [Tape.read_eq, Tape.keys_say]
  refine ⟨rfl, ?_, ?_⟩
  · rw [Tape.keys_say]
  · intro c found
    obtain found : m.console.keys.head? = some c := found
    rw [found]
    exact (State.reg_assign ..).trans (if_pos rfl)

theorem step_of_quiet {m : Machine Tape} (quiet : (Exchange.ofState m.state).ask = none) :
    m.requests = [] ∧ m.step.2.console.keys = m.console.keys := by
  obtain ⟨outcome, state, said, exchange⟩ := Exchange.eq_quiet_of_ask quiet
  rw [requests_eq, ← Exchange.play_ofState, exchange]
  exact ⟨rfl, Tape.keys_say said m.console⟩

/-- The byte that a step has delivered, as the machine shows it after the step: in the keyboard's
data cell if a poll has found it, and in register 0 if the step has waited for it. -/
def delivered [Console κ] (m : Machine κ) : List UInt8 :=
  m.requests.flatMap fun
    | .polled (some (.byte _)) => [(m.step.2.state.memory.get keyboardData).low]
    | .awaited (.key (.byte _)) => [(m.step.2.state.reg 0).low]
    | _ => []

def deliveries [Console κ] : Nat → Machine κ → List UInt8
  | 0, _ => []
  | n + 1, m => m.delivered ++ deliveries n m.step.2

def Delivers [Console κ] (m : Machine κ) (c : UInt8) : Prop :=
  Polls m.state ∧ m.requests = [.polled (some (.byte c))] ∧
      m.step.2.state.memory.get keyboardData = Word.ofByte c ∨
    Awaits m.state ∧ m.requests = [.awaited (.key (.byte c))] ∧
      m.step.2.state.reg 0 = Word.ofByte c

theorem Delivers.delivered_eq [Console κ] {m : Machine κ} {c : UInt8} (delivers : Delivers m c) :
    m.delivered = [c] := by
  unfold delivered
  obtain ⟨_, requests, shown⟩ | ⟨_, requests, shown⟩ := delivers
  · rw [requests, List.flatMap_singleton, shown, Word.low_ofByte]
  · rw [requests, List.flatMap_singleton, shown, Word.low_ofByte]

/-- A step leaves the tape alone or delivers the first of its keys. -/
theorem step_keeps_or_delivers (m : Machine Tape) :
    m.step.2.console.keys = m.console.keys ∧ m.delivered = [] ∨
      ∃ c rest, m.console.keys = c :: rest ∧ m.step.2.console.keys = rest ∧ Delivers m c := by
  by_cases running : m.state.running = true
  · by_cases polls : Polls m.state
    · obtain ⟨requests, left, shown⟩ := step_of_polls running polls
      cases keys : m.console.keys with
      | nil =>
        rw [keys] at requests left
        exact .inl ⟨left, by rw [delivered, requests]; rfl⟩
      | cons c rest =>
        rw [keys] at requests left shown
        exact .inr ⟨c, rest, rfl, left, .inl ⟨polls, requests, shown c rfl⟩⟩
    · by_cases awaits : Awaits m.state
      · obtain ⟨requests, left, shown⟩ := step_of_awaits running awaits
        cases keys : m.console.keys with
        | nil =>
          rw [keys] at requests left
          exact .inl ⟨left, by rw [delivered, requests]; rfl⟩
        | cons c rest =>
          rw [keys] at requests left shown
          exact .inr ⟨c, rest, rfl, left, .inr ⟨awaits, requests, shown c rfl⟩⟩
      · have quiet := Exchange.ask_ofState_eq_none running polls awaits
        obtain ⟨requests, left⟩ := step_of_quiet quiet
        exact .inl ⟨left, by rw [delivered, requests]; rfl⟩
  · have quiet : (Exchange.ofState m.state).ask = none := by
      rw [Exchange.ofState, if_neg running]
      rfl
    obtain ⟨requests, left⟩ := step_of_quiet quiet
    exact .inl ⟨left, by rw [delivered, requests]; rfl⟩

theorem keys_eq_delivered_append (m : Machine Tape) :
    m.console.keys = m.delivered ++ m.step.2.console.keys := by
  obtain ⟨left, nothing⟩ | ⟨c, rest, keys, left, delivers⟩ := step_keeps_or_delivers m
  · rw [left, nothing]
    rfl
  · rw [keys, left, delivers.delivered_eq]
    rfl

theorem keys_eq_deliveries_append (n : Nat) (m : Machine Tape) :
    m.console.keys = m.deliveries n ++ (m.after n).console.keys := by
  induction n generalizing m with
  | zero => rfl
  | succ n ih =>
    calc
      m.console.keys = m.delivered ++ m.step.2.console.keys := keys_eq_delivered_append m
      _ = m.delivered ++ (m.step.2.deliveries n ++ (m.step.2.after n).console.keys) := by
        rw [← ih m.step.2]
      _ = m.deliveries (n + 1) ++ (m.after (n + 1)).console.keys := by
        rw [← List.append_assoc]
        rfl

/-- The word in the status cell is not executed: without a key the step is one of a branch that is
never taken. -/
theorem step_fetching_status_of_nil {m : Machine Tape} (running : m.state.running = true)
    (fetched : m.state.pc = keyboardStatus) (keys : m.console.keys = []) :
    m.step =
      (.done,
        ⟨{ m.state with
            pc := 0xFE01
            count := m.state.count + 1
            memory := m.state.memory.set keyboardStatus 0 },
          m.console⟩) := by
  have same : { m.console with keys := [] } = m.console := by rw [← keys]
  rw [← Exchange.play_ofState, Exchange.ofState_at_keyboardStatus running fetched, Exchange.play,
    Tape.poll_eq, keys]
  dsimp only [List.tail_nil]
  rw [same]
  simp [latch, State.advance, State.store, fetched, keyboardStatus]

theorem step_fetching_status_of_cons {m : Machine Tape} (running : m.state.running = true)
    (fetched : m.state.pc = keyboardStatus) {c : UInt8} {rest : List UInt8}
    (keys : m.console.keys = c :: rest) :
    m.step =
      (.fault (.reserved 0x8000),
        ⟨{ m.state with
            pc := 0xFE01
            count := m.state.count + 1
            memory :=
              (m.state.memory.set keyboardStatus 0x8000).set keyboardData (Word.ofByte c) },
          { m.console with keys := rest }⟩) := by
  rw [← Exchange.play_ofState, Exchange.ofState_at_keyboardStatus running fetched, Exchange.play,
    Tape.poll_eq, keys]
  simp [latch, State.advance, State.store, fetched, keyboardStatus, keyReady, Key.word]

/-- A step asks for one key at most, and the keys that are gone from the tape are those that the
steps have delivered, whether they polled or waited for them. -/
theorem keys_are_delivered (m : Machine Tape) (running : m.state.running = true) :
    (m.record.step.1 = m.step.1 ∧ m.record.step.2.erase = m.step.2 ∧ m.requests.length ≤ 1) ∧
    (m.step.2.console.keys = m.console.keys ∨
      ∃ c rest, m.console.keys = c :: rest ∧ m.step.2.console.keys = rest ∧ Delivers m c) ∧
    (m.state.pc = keyboardStatus →
      (m.console.keys = [] →
        m.step =
          (.done,
            ⟨{ m.state with
                pc := 0xFE01
                count := m.state.count + 1
                memory := m.state.memory.set keyboardStatus 0 },
              m.console⟩)) ∧
      ∀ c rest, m.console.keys = c :: rest →
        m.step =
          (.fault (.reserved 0x8000),
            ⟨{ m.state with
                pc := 0xFE01
                count := m.state.count + 1
                memory :=
                  (m.state.memory.set keyboardStatus 0x8000).set keyboardData (Word.ofByte c) },
              { m.console with keys := rest }⟩)) ∧
    (∀ n, m.console.keys = m.deliveries n ++ (m.after n).console.keys) ∧
    ∀ limit, ∃ n ≤ limit, (m.run limit).2 = m.after n := by
  obtain ⟨same, erased⟩ := step_record m
  refine ⟨⟨same, erased, requests_length_le_one m⟩, ?_, ?_, ?_, ?_⟩
  · obtain ⟨left, _⟩ | delivery := step_keeps_or_delivers m
    · exact .inl left
    · exact .inr delivery
  · intro fetched
    constructor
    · exact step_fetching_status_of_nil running fetched
    · intro c rest keys
      exact step_fetching_status_of_cons running fetched keys
  · intro n
    exact keys_eq_deliveries_append n m
  · intro limit
    obtain ⟨n, bound, ran, _⟩ := run_eq_after limit m
    exact ⟨n, bound, ran⟩

/-- A status that is fetched while two keys wait delivers the first of them. -/
theorem keys_are_delivered_by_fetch :
    let m : Machine Tape := ⟨State.initial.jump keyboardStatus, { keys := [97, 98] }⟩
    m.state.running = true ∧ m.step.1 = .fault (.reserved 0x8000) ∧
      m.step.2.console.keys = [98] ∧ m.step.2.state.memory.get keyboardData = 97 := by
  intro m
  have running : m.state.running = true := rfl
  obtain ⟨_, _, fetching, _⟩ := keys_are_delivered m running
  have stepped := (fetching rfl).2 97 [98] rfl
  rw [stepped]
  exact ⟨running, rfl, rfl, Memory.get_set_self ..⟩

end Machine

end LittleComputer
