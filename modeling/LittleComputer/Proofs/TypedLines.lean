import LittleComputer.Proofs.Recorder
import LittleComputer.Proofs.Transcript
import LittleComputer.Console.Tape

/-! Typed lines as a tape. A notebook asks for its lines one by one, as late as it can, and a tape
has all its keys from the start. A machine cannot tell them apart as long as nobody interrupts it
and it does not poll while the next key stands in a line that has not been asked for. -/
namespace LittleComputer

namespace Notebook

/-- A backslash stands in this place, and an `n` in the next. -/
def EscapeAt (cs : List Char) (i : Nat) : Prop := cs[i]? = some '\\' ∧ cs[i + 1]? = some 'n'

instance (cs : List Char) (i : Nat) : Decidable (EscapeAt cs i) :=
  inferInstanceAs (Decidable (_ ∧ _))

/-- What stands for the character in a place once the escaped newlines are replaced. -/
def piece (cs : List Char) (i : Nat) : List Char :=
  if EscapeAt cs i then ['\n'] else if 0 < i ∧ EscapeAt cs (i - 1) then [] else cs[i]?.toList

/-- The characters with a newline for each backslash that is followed by an `n`, and for both of
them. -/
def replaced (cs : List Char) : List Char := (List.range cs.length).flatMap (piece cs)

/-- The bytes that a line stands for: the code points modulo 256 once the escaped newlines are
replaced, or a newline if there is nothing on it. -/
def decodeLine (line : String) : List UInt8 :=
  if line = "" then [10] else (replaced line.toList).map fun c => UInt8.ofNat (c.toNat % 256)

/-- The bytes of all lines that will be typed. An interruption has none. -/
def typed (lines : List (Option String)) : List UInt8 :=
  lines.flatMap fun line => line.elim [] decodeLine

theorem escapeAt_cons_succ (c : Char) (rest : List Char) (i : Nat) :
    EscapeAt (c :: rest) (i + 1) ↔ EscapeAt rest i := Iff.rfl

theorem piece_cons_succ {c : Char} {rest : List Char} {i : Nat}
    (apart : i = 0 → ¬ EscapeAt (c :: rest) 0) : piece (c :: rest) (i + 1) = piece rest i := by
  cases i with
  | zero => simp [piece, escapeAt_cons_succ, apart rfl]
  | succ j => simp [piece, escapeAt_cons_succ]

theorem replaced_cons (c : Char) (rest : List Char) :
    replaced (c :: rest) =
      piece (c :: rest) 0 ++ (List.range rest.length).flatMap fun i => piece (c :: rest) (i + 1) := by
  rw [replaced, List.length_cons, List.range_succ_eq_map, List.flatMap_cons, List.flatMap_map]

theorem replaced_cons_of_plain {c : Char} {rest : List Char} (plain : ¬ EscapeAt (c :: rest) 0) :
    replaced (c :: rest) = c :: replaced rest := by
  have first : piece (c :: rest) 0 = [c] := by simp [piece, plain]
  simp only [replaced_cons, first, piece_cons_succ fun _ => plain]
  rfl

theorem replaced_escape (rest : List Char) :
    replaced ('\\' :: 'n' :: rest) = '\n' :: replaced rest := by
  have plain : ¬ EscapeAt ('n' :: rest) 0 := by simp [EscapeAt]
  have first : piece ('\\' :: 'n' :: rest) 0 = ['\n'] := rfl
  have second : piece ('\\' :: 'n' :: rest) 1 = [] := rfl
  have later (i : Nat) : piece ('\\' :: 'n' :: rest) (i + 1 + 1) = piece rest i :=
    (piece_cons_succ fun zero => absurd zero i.succ_ne_zero).trans (piece_cons_succ fun _ => plain)
  rw [replaced_cons, first, List.length_cons, List.range_succ_eq_map, List.flatMap_cons,
    List.flatMap_map, second]
  simp only [Nat.succ_eq_add_one, later]
  rfl

theorem unescape_eq_replaced (cs : List Char) : unescape cs = replaced cs := by
  fun_induction unescape cs with
  | case1 rest ih => rw [replaced_escape, ih]
  | case2 c rest other ih =>
    have plain : ¬ EscapeAt (c :: rest) 0 := by
      rintro ⟨first, second⟩
      cases rest with
      | nil => cases second
      | cons d later =>
        obtain rfl := Option.some.inj first
        obtain rfl := Option.some.inj second
        exact other later rfl rfl
    rw [replaced_cons_of_plain plain, ih]
  | case3 => rfl

theorem unescape_eq_nil_iff (cs : List Char) : unescape cs = [] ↔ cs = [] := by
  unfold unescape
  split <;> simp

theorem byte_eq (c : Char) : Latin.byte c = UInt8.ofNat (c.toNat % 256) := by
  apply UInt8.toNat_inj.mp
  change c.val.toUInt8.toNat = (UInt8.ofNat (c.toNat % 256)).toNat
  rw [UInt32.toNat_toUInt8, UInt8.toNat_ofNat']
  exact (Nat.mod_mod _ _).symm

theorem keysOf_eq_decodeLine (line : String) : keysOf line = decodeLine line := by
  unfold keysOf decodeLine
  rw [← unescape_eq_replaced]
  by_cases blank : line = ""
  · subst blank
    rfl
  · have chars : line.toList ≠ [] := by simpa using blank
    cases typed : unescape line.toList with
    | nil => exact absurd ((unescape_eq_nil_iff _).mp typed) chars
    | cons c rest => simp [blank, byte_eq]

/-- The tape shows what the notebook has printed, and holds the keys of its queue and then those of
its lines. -/
structure Follows (nb : Notebook) (t : Tape) : Prop where
  shows : Shows nb t.display
  keys : t.keys = nb.queue ++ typed nb.lines

/-- What a notebook can be asked so that it answers as a tape does. -/
def Prepared : Ask → Notebook → Prop
  | .poll, nb => nb.queue = [] → nb.lines = []
  | .key, nb => nb.read.1 ≠ .interrupted

theorem follows_poll {nb : Notebook} {t : Tape} (follows : Follows nb t)
    (prepared : Prepared .poll nb) :
    (Console.poll nb).1 = (Console.poll t).1 ∧ Follows (Console.poll nb).2 (Console.poll t).2 := by
  obtain ⟨shows, keys⟩ := follows
  rcases nb with ⟨_ | ⟨b, rest⟩, pending, lines, notices⟩
  · obtain rfl : lines = [] := prepared rfl
    have none_left : t.keys = [] := keys
    simp only [Console.poll, Tape.poll, none_left]
    exact ⟨rfl, shows, keys⟩
  · simp only [Console.poll, Tape.poll, keys, List.cons_append]
    exact ⟨rfl, ⟨shows.pending, shows.printed⟩, rfl⟩

/-- A line is asked for when the queue is empty, and its first key is handed out at once. -/
theorem read_of_line {nb : Notebook} (nothing : nb.pending = #[]) (empty : nb.queue = [])
    {line : Option String} {lines : List (Option String)} (next : nb.lines = line :: lines)
    (prepared : Prepared .key nb) :
    ∃ b rest, line.elim [] decodeLine = b :: rest ∧
      nb.read = (.key (.byte b),
        { nb with queue := rest, lines, notices := nb.notices.push (.input "") }) := by
  have flushed : nb.flush = nb := by simp [flush, nothing]
  cases line with
  | none => simp [Prepared, read, empty, flushed, ask, next] at prepared
  | some line =>
    cases keys : keysOf line with
    | nil => exact absurd keys (keysOf_ne_nil line)
    | cons b rest =>
      refine ⟨b, rest, ?_, ?_⟩
      · rw [← keys, keysOf_eq_decodeLine]
        rfl
      · simp [read, empty, flushed, ask, next, keys]

theorem follows_read {nb : Notebook} {t : Tape} (follows : Follows nb t)
    (prepared : Prepared .key nb) :
    (Console.read nb).1 = (Console.read t).1 ∧ Follows (Console.read nb).2 (Console.read t).2 := by
  have flushed : nb.flush = nb := by simp [flush, follows.shows.pending]
  cases queue : nb.queue with
  | cons b rest =>
    have keys : t.keys = b :: (rest ++ typed nb.lines) := by rw [follows.keys, queue]; rfl
    simp only [Console.read, read, queue, Tape.read, keys]
    exact ⟨trivial, ⟨follows.shows.pending, follows.shows.printed⟩, rfl⟩
  | nil =>
    cases lines : nb.lines with
    | nil => simp [Prepared, read, queue, flushed, ask, lines] at prepared
    | cons line later =>
      obtain ⟨b, rest, decoded, answer⟩ :=
        read_of_line follows.shows.pending queue lines prepared
      have keys : t.keys = b :: (rest ++ typed later) := by
        rw [follows.keys, queue, lines, typed, List.flatMap_cons, decoded]
        rfl
      have asked := follows.shows.notice (.input "") rfl
      simp only [Console.read, answer, Tape.read, keys]
      exact ⟨trivial, ⟨asked.pending, asked.printed⟩, rfl⟩

theorem queue_say (nb : Notebook) (bytes : List UInt8) :
    (Console.flush (Console.write bytes nb)).queue = nb.queue :=
  queue_flush _

theorem lines_say (nb : Notebook) (bytes : List UInt8) :
    (Console.flush (Console.write bytes nb)).lines = nb.lines :=
  lines_flush _

/-- Whether a notebook is interrupted depends on its queue and its lines only. -/
theorem read_eq_interrupted_iff (nb : Notebook) :
    nb.read.1 = .interrupted ↔ nb.queue = [] ∧ nb.lines.head?.join = none := by
  unfold read
  cases nb.queue with
  | cons b rest => simp
  | nil =>
    simp only [ask, lines_flush, true_and]
    rcases nb.lines with _ | ⟨_ | line, rest⟩
    · simp
    · simp
    · simp only [List.head?_cons]
      cases keys : keysOf line with
      | nil => exact absurd keys (keysOf_ne_nil line)
      | cons b rest => simp

theorem read_say_eq_interrupted_iff (nb : Notebook) (said : Option (List UInt8)) :
    (Exchange.say said nb).read.1 = .interrupted ↔ nb.read.1 = .interrupted := by
  cases said with
  | none => rfl
  | some bytes =>
    rw [read_eq_interrupted_iff, read_eq_interrupted_iff]
    simp only [Exchange.say, queue_say, lines_say]

theorem simulation_follows : Simulation Follows Prepared where
  poll := follows_poll
  read := follows_read
  say := by
    intro nb t bytes follows
    refine ⟨follows.shows.say bytes, ?_⟩
    rw [queue_say, lines_say]
    exact follows.keys
  allowed_say := by
    intro nb bytes prepared interrupted
    exact prepared ((read_say_eq_interrupted_iff nb (some bytes)).mp interrupted)

end Notebook

namespace Machine

open Notebook

/-- In the first `n` steps no line is refused, and a poll of an empty queue comes only after the
last line. -/
def Attended (m : Machine Notebook) (n : Nat) : Prop :=
  ∀ k < n,
    .awaited .interrupted ∉ (m.after k).requests ∧
    ∀ found, .polled found ∈ (m.after k).requests →
      (m.after k).console.queue = [] → (m.after k).console.lines = []

theorem Attended.obeys {m : Machine Notebook} {n : Nat} (attended : m.Attended n) {k : Nat}
    (below : k < n) : (m.after k).Obeys Prepared := by
  obtain ⟨answered, polled⟩ := attended k below
  intro ask asked
  rw [requests_eq] at answered polled
  cases ask with
  | poll =>
    obtain ⟨result, exchange⟩ := Exchange.eq_poll_of_ask asked
    rw [exchange] at polled
    exact polled _ (List.mem_singleton_self _)
  | key =>
    obtain ⟨state, prompted, exchange⟩ := Exchange.eq_await_of_ask asked
    rw [exchange] at answered
    intro interrupted
    have refused := (read_say_eq_interrupted_iff _ (Exchange.promptOf prompted)).mpr interrupted
    exact answered (List.mem_singleton.mpr (congrArg Event.awaited refused.symm))

/-- A notebook whose user attends to it is as good as a tape that holds what is queued and what
will be typed. -/
theorem notebook_refines_tape (s : State) (queue : List UInt8) (lines : List (Option String))
    (n : Nat) (attended : Attended ⟨s, { queue, lines }⟩ n) :
    let nb : Machine Notebook := ⟨s, { queue, lines }⟩
    let t : Machine Tape := ⟨s, { keys := queue ++ typed lines }⟩
    (∀ k ≤ n,
      (nb.after k).state = (t.after k).state ∧
      (t.after k).console.keys =
        (nb.after k).console.queue ++ typed (nb.after k).console.lines ∧
      Latin.encode (Notice.printed (nb.after k).console.notices.toList) =
        .ok (t.after k).console.display.bytes.toList) ∧
    ∀ k < n, (nb.after k).step.1 = (t.after k).step.1 := by
  intro nb t
  have start : Related Follows nb t := ⟨rfl, ⟨rfl, rfl⟩, rfl⟩
  have related (k : Nat) (bound : k ≤ n) : Related Follows (nb.after k) (t.after k) :=
    simulation_follows.after start k fun i below => attended.obeys (Nat.lt_of_lt_of_le below bound)
  constructor
  · intro k bound
    obtain ⟨same, shows, keys⟩ := related k bound
    exact ⟨same, keys, shows.encode⟩
  · intro k below
    exact (simulation_follows.step (related k (Nat.le_of_lt below)) (attended.obeys below)).1

/-- One key of a line is read, and the escaped newline after it stays in the queue. -/
theorem notebook_refines_tape_of_reading :
    let s := State.initial.store 0x3000 0xF020
    let nb : Machine Notebook := ⟨s, { queue := [], lines := [some "a\\n"] }⟩
    let t : Machine Tape := ⟨s, { keys := typed [some "a\\n"] }⟩
    Attended nb 1 ∧ (nb.after 1).state = (t.after 1).state ∧ (t.after 1).console.keys = [10] := by
  intro s nb t
  have reads : Exchange.ofState s = .await (s.advance.setReg 7 0x3001) false := by
    have fetched : s.memory.get s.pc = 0xF020 := Memory.get_set_self ..
    have decoded : Instruction.decode 0xF020 = .trap Service.getc.vector := by decide
    simp only [Exchange.ofState, fetched, decoded]
    rfl
  have attended : Attended nb 1 := by
    intro k below
    obtain rfl : k = 0 := by omega
    rw [requests_eq, show (nb.after 0).state = s from rfl, reads]
    exact ⟨by decide, fun found asked => by simp at asked⟩
  have left : (nb.after 1).console.queue = [10] ∧ (nb.after 1).console.lines = [] := by
    rw [after_succ, ← Exchange.play_ofState, show nb.state = s from rfl, reads]
    exact ⟨rfl, rfl⟩
  obtain ⟨same, _⟩ := notebook_refines_tape s [] [some "a\\n"] 1 attended
  obtain ⟨states, keys, _⟩ := same 1 (Nat.le_refl 1)
  refine ⟨attended, states, keys.trans ?_⟩
  rw [left.1, left.2]
  rfl

end Machine

end LittleComputer
