import LittleComputer.Proofs.Effect
import LittleComputer.Proofs.Keyboard
import LittleComputer.Proofs.TypedLines

/-! Typed lines as a queue. In whatever order a notebook is asked for keys, asked whether there are
any, written to and flushed, the keys that it has handed out and those in its queue are those of the
lines that it has asked for, and it asks for the next line exactly when a key is wanted and none is
left. A machine wants one only in the two traps that wait for it. -/
namespace LittleComputer

namespace Notice

def isPrompt : Notice → Bool
  | .input _ => true
  | _ => false

@[simp] theorem printed_input (prompt : String) : printed [.input prompt] = "" := rfl

end Notice

namespace Notebook

/-- What can be asked of a notebook by hand. -/
inductive Call where
  | getc
  | keyAvailable
  | write (bytes : List UInt8)
  | flush
  deriving DecidableEq, Repr

inductive Reply where
  | answer (a : Answer)
  | available (yes : Bool)
  | nothing
  deriving DecidableEq, Repr

def call (nb : Notebook) : Call → Reply × Notebook
  | .getc => (.answer (Console.read nb).1, (Console.read nb).2)
  | .keyAvailable => (.available (Console.ready nb), nb)
  | .write bytes => (.nothing, Console.write bytes nb)
  | .flush => (.nothing, Console.flush nb)

def callAll (nb : Notebook) : List Call → List Reply × Notebook
  | [] => ([], nb)
  | c :: rest =>
    let (replies, after) := (nb.call c).2.callAll rest
    ((nb.call c).1 :: replies, after)

def Call.bytes : Call → List UInt8
  | .write bytes => bytes
  | _ => []

/-- The replies that there are: what a notebook hands out is a byte. -/
inductive Reply.Regular : Reply → Prop where
  | byte (b : UInt8) : Regular (.answer (.key (.byte b)))
  | refusal : Regular (.answer .interrupted)
  | available (yes : Bool) : Regular (.available yes)
  | nothing : Regular .nothing

def Reply.bytes : Reply → List UInt8
  | .answer (.key (.byte b)) => [b]
  | _ => []

def asked (nb : Notebook) : Nat := nb.notices.toList.countP Notice.isPrompt

/-- The print that a flush comes to, if it comes to one. -/
def unprinted (nb : Notebook) : List Notice :=
  if nb.pending.isEmpty then [] else [.print (Latin.decode nb.pending.toList)]

theorem flush_eq (nb : Notebook) :
    nb.flush = { nb with pending := #[], notices := nb.notices ++ nb.unprinted } := by
  rcases nb with ⟨queue, pending, lines, notices⟩
  by_cases nothing : pending = #[]
  · simp [flush, unprinted, nothing]
  · simp [flush, unprinted, nothing]

theorem ask_eq (nb : Notebook) :
    nb.ask = (nb.lines.head?.join.map keysOf,
      { nb with lines := nb.lines.tail, notices := nb.notices.push (.input "") }) := by
  rcases nb with ⟨queue, pending, _ | ⟨_ | line, rest⟩, notices⟩ <;> rfl

/-- The notebook once it has asked for a line, before the line is put into the queue. -/
def prompted (nb : Notebook) : Notebook :=
  { nb with
    pending := #[]
    lines := nb.lines.tail
    notices := (nb.notices ++ nb.unprinted).push (.input "") }

theorem read_of_queue {nb : Notebook} {b : UInt8} {rest : List UInt8}
    (next : nb.queue = b :: rest) : nb.read = (.key (.byte b), { nb with queue := rest }) := by
  simp [read, next]

theorem read_of_refusal {nb : Notebook} (empty : nb.queue = [])
    (refused : nb.lines.head?.join = none) : nb.read = (.interrupted, nb.prompted) := by
  simp [read, empty, ask_eq, refused, flush_eq, prompted]

/-- A line that is given is decoded to at least one key, and the first is handed out. -/
theorem read_of_given {nb : Notebook} (empty : nb.queue = []) {line : String}
    (given : nb.lines.head?.join = some line) :
    ∃ b rest, decodeLine line = b :: rest ∧
      nb.read = (.key (.byte b), { nb.prompted with queue := rest }) := by
  cases keys : keysOf line with
  | nil => exact absurd keys (keysOf_ne_nil line)
  | cons b rest =>
    refine ⟨b, rest, by rw [← keysOf_eq_decodeLine, keys], ?_⟩
    simp [read, empty, ask_eq, given, keys, flush_eq, prompted]

/-- A queue that is empty is filled by asking, if the user types a line. -/
theorem read_of_empty {nb : Notebook} (empty : nb.queue = []) :
    ∃ rest, nb.read.2 = { nb.prompted with queue := rest } := by
  cases line : nb.lines.head?.join with
  | none => exact ⟨nb.queue, by rw [read_of_refusal empty line]; rfl⟩
  | some line =>
    obtain ⟨b, rest, _, answer⟩ := read_of_given empty line
    exact ⟨rest, by rw [answer]⟩

theorem countP_unprinted (nb : Notebook) : nb.unprinted.countP Notice.isPrompt = 0 := by
  unfold unprinted
  split <;> simp [Notice.isPrompt]

theorem asked_prompted (nb : Notebook) : nb.prompted.asked = nb.asked + 1 := by
  simp [prompted, asked, countP_unprinted, Notice.isPrompt]

theorem asked_flush (nb : Notebook) : nb.flush.asked = nb.asked := by
  simp [flush_eq, asked, countP_unprinted]

theorem asked_read (nb : Notebook) :
    nb.read.2.asked = nb.asked + if nb.queue = [] then 1 else 0 := by
  cases queue : nb.queue with
  | cons b rest => simp [read_of_queue queue, asked]
  | nil =>
    obtain ⟨rest, left⟩ := read_of_empty queue
    rw [left, if_pos rfl]
    exact asked_prompted nb

/-- All that has been written is printed or pending. -/
theorem printed_unprinted (nb : Notebook) :
    Notice.printed nb.unprinted = Latin.decode nb.pending.toList := by
  unfold unprinted
  split
  · next nothing => simp_all [Latin.decode, Notice.printed]
  · exact Notice.printed_print _

/-- The keys of the lines in a history, told by how often the user was asked for one. -/
def decoded (lines : List (Option String)) (nb : Notebook) : List UInt8 :=
  typed (lines.take nb.asked)

/-- What a history of calls, on a notebook with these lines to come, has led to. -/
structure Queued (lines : List (Option String)) (calls : List Call) (replies : List Reply)
    (nb : Notebook) : Prop where
  keys : replies.flatMap Reply.bytes ++ nb.queue = decoded lines nb
  lines : nb.lines = lines.drop nb.asked
  text : Notice.printed nb.notices.toList ++ Latin.decode nb.pending.toList =
    Latin.decode (calls.flatMap Call.bytes)
  regular : ∀ reply ∈ replies, reply.Regular

namespace Queued

variable {lines : List (Option String)} {calls : List Call} {replies : List Reply} {nb : Notebook}

theorem start (lines : List (Option String)) : Queued lines [] [] { lines } where
  keys := by simp [decoded, asked, typed]
  lines := rfl
  text := by simp [Notice.printed, Latin.decode]
  regular _ member := by cases member

theorem head?_lines (queued : Queued lines calls replies nb) :
    nb.lines.head? = lines[nb.asked]? := by
  rw [queued.lines, List.head?_drop]

theorem typed_take_succ (queued : Queued lines calls replies nb) :
    typed (lines.take (nb.asked + 1)) =
      decoded lines nb ++ (nb.lines.head?.join.elim [] decodeLine) := by
  rw [List.take_add_one, ← queued.head?_lines, decoded, typed, typed, List.flatMap_append]
  congr 1
  rcases nb.lines with _ | ⟨_ | line, rest⟩ <;> simp

theorem lines_tail (queued : Queued lines calls replies nb) :
    nb.lines.tail = lines.drop (nb.asked + 1) := by
  rw [queued.lines, List.tail_drop]

theorem text_unprinted (queued : Queued lines calls replies nb) :
    Notice.printed (nb.notices ++ nb.unprinted).toList =
      Latin.decode (calls.flatMap Call.bytes) := by
  rw [← queued.text]
  simp [printed_unprinted]

theorem regular_snoc (queued : Queued lines calls replies nb) {reply : Reply}
    (regular : reply.Regular) : ∀ r ∈ replies ++ [reply], r.Regular :=
  List.forall_mem_append.mpr ⟨queued.regular, List.forall_mem_singleton.mpr regular⟩

/-- A call that asks for no line hands out what it takes from the queue. -/
theorem of_kept (queued : Queued lines calls replies nb) {c : Call} {reply : Reply}
    {after : Notebook} (keys : reply.bytes ++ after.queue = nb.queue)
    (asked : after.asked = nb.asked) (left : after.lines = nb.lines)
    (text : Notice.printed after.notices.toList ++ Latin.decode after.pending.toList =
      Notice.printed nb.notices.toList ++ Latin.decode nb.pending.toList ++ Latin.decode c.bytes)
    (regular : reply.Regular) :
    Queued lines (calls ++ [c]) (replies ++ [reply]) after where
  keys := by simpa [decoded, asked, keys] using queued.keys
  lines := by rw [left, asked, queued.lines]
  text := by
    rw [text, queued.text]
    simp [Latin.decode_append]
  regular := queued.regular_snoc regular

/-- A call that asks for a line hands out what it does not put into the empty queue of its keys. -/
theorem of_asked (queued : Queued lines calls replies nb) (empty : nb.queue = []) {reply : Reply}
    {after : Notebook}
    (keys : reply.bytes ++ after.queue = nb.lines.head?.join.elim [] decodeLine)
    (notices : after.notices = nb.prompted.notices) (left : after.lines = nb.lines.tail)
    (pending : after.pending = #[]) (regular : reply.Regular) :
    Queued lines (calls ++ [.getc]) (replies ++ [reply]) after := by
  have asked : after.asked = nb.asked + 1 := by
    rw [← asked_prompted, Notebook.asked, notices]
    rfl
  have before : replies.flatMap Reply.bytes = decoded lines nb := by
    simpa [empty] using queued.keys
  refine ⟨?_, ?_, ?_, queued.regular_snoc regular⟩
  · rw [decoded, asked, queued.typed_take_succ, ← before, ← keys]
    simp
  · rw [left, asked, queued.lines_tail]
  · have text := queued.text_unprinted
    rw [notices, pending]
    simpa [prompted, Call.bytes, Latin.decode] using text

theorem getc (queued : Queued lines calls replies nb) :
    Queued lines (calls ++ [.getc]) (replies ++ [.answer nb.read.1]) nb.read.2 := by
  cases queue : nb.queue with
  | cons b rest =>
    rw [read_of_queue queue]
    apply queued.of_kept
    · simp [Reply.bytes, queue]
    · rfl
    · rfl
    · simp [Call.bytes, Latin.decode]
    · exact .byte b
  | nil =>
    cases line : nb.lines.head?.join with
    | none =>
      rw [read_of_refusal queue line]
      refine queued.of_asked queue ?_ rfl rfl rfl .refusal
      simpa [Reply.bytes, line, prompted] using queue
    | some line' =>
      obtain ⟨b, rest, decoded, answer⟩ := read_of_given queue line
      rw [answer]
      refine queued.of_asked queue ?_ rfl rfl rfl (.byte b)
      simp [Reply.bytes, line, decoded]

theorem call (queued : Queued lines calls replies nb) (c : Call) :
    Queued lines (calls ++ [c]) (replies ++ [(nb.call c).1]) (nb.call c).2 := by
  cases c with
  | getc => exact queued.getc
  | keyAvailable =>
    refine queued.of_kept rfl rfl rfl ?_ (.available _)
    simp [Notebook.call, Call.bytes, Latin.decode]
  | write bytes =>
    refine queued.of_kept rfl rfl rfl ?_ .nothing
    simp [Notebook.call, Call.bytes, Console.write, Latin.decode_append, String.append_assoc]
  | flush =>
    refine queued.of_kept ?_ (asked_flush nb) (lines_flush nb) ?_ .nothing
    · exact queue_flush nb
    · simp [Notebook.call, Console.flush, flush_eq, printed_unprinted, Call.bytes, Latin.decode]

theorem callAll (queued : Queued lines calls replies nb) (more : List Call) :
    Queued lines (calls ++ more) (replies ++ (nb.callAll more).1) (nb.callAll more).2 := by
  induction more generalizing calls replies nb with
  | nil => simpa [Notebook.callAll] using queued
  | cons c rest ih => simpa [Notebook.callAll] using ih (queued.call c)

theorem handed_out_iff (queued : Queued lines calls replies nb) :
    replies.flatMap Reply.bytes = decoded lines nb ↔ nb.queue = [] := by
  rw [← queued.keys, List.self_eq_append_right]

end Queued

theorem typed_take_append_drop (lines : List (Option String)) (n : Nat) :
    typed (lines.take n) ++ typed (lines.drop n) = typed lines := by
  simp only [typed, ← List.flatMap_append, List.take_append_drop]

theorem typed_tail_of_refusal {lines : List (Option String)} (refused : lines.head?.join = none) :
    typed lines.tail = typed lines := by
  rcases lines with _ | ⟨_ | line, rest⟩
  · rfl
  · rfl
  · cases refused

theorem asked_call (nb : Notebook) (c : Call) :
    (nb.call c).2.asked = nb.asked + if c = .getc ∧ nb.queue = [] then 1 else 0 := by
  cases c with
  | getc => simp [call, Console.read, asked_read]
  | keyAvailable => simp [call]
  | write bytes => rfl
  | flush => simp [call, Console.flush, asked_flush]

/-- A poll takes a key as waiting for one does, once it is known that there is one. -/
theorem poll_eq_some_iff (nb : Notebook) (k : Key) (after : Notebook) :
    nb.poll = (some k, after) ↔ Console.ready nb = true ∧ nb.read = (.key k, after) := by
  rw [ready_iff]
  cases queue : nb.queue with
  | nil => simp [poll, queue]
  | cons b rest => simp [poll, queue, read_of_queue queue]

/-- What a notebook does next, told from its history. -/
structure Faithful (lines : List (Option String)) (calls : List Call) (replies : List Reply)
    (nb : Notebook) : Prop where
  byte : ∀ a, .answer a ∈ replies →
    a = .interrupted ∨ ∃ k, a = .key k ∧ 0 ≤ k.code ∧ k.code ≤ 255
  inOrder : replies.flatMap Reply.bytes <+: typed lines
  available : nb.call .keyAvailable =
    (.available (decide (replies.flatMap Reply.bytes ≠ decoded lines nb)), nb)
  /-- A line is asked for when a key is wanted and all are handed out, and only once. -/
  asks : ∀ c, (nb.call c).2.asked =
    nb.asked + if c = .getc ∧ replies.flatMap Reply.bytes = decoded lines nb then 1 else 0
  /-- All that was written is in print before the prompt. -/
  shown : replies.flatMap Reply.bytes = decoded lines nb →
    nb.read.2.pending = #[] ∧ ∃ before : Array Notice, nb.read.2.notices = before.push (.input "") ∧
      Notice.printed before.toList = Latin.decode (calls.flatMap Call.bytes)
  /-- Only a line that the user refuses to give leaves a getc without a key. -/
  refused : nb.read.1 = .interrupted ↔
    replies.flatMap Reply.bytes = decoded lines nb ∧ lines[nb.asked]?.join = none
  /-- A refusal costs no key. -/
  kept : nb.read.1 = .interrupted →
    nb.read.2.queue = nb.queue ∧ nb.read.2.pending = #[] ∧
      decoded lines nb.read.2 = decoded lines nb ∧ typed nb.read.2.lines = typed nb.lines

theorem Queued.faithful {lines : List (Option String)} {calls : List Call} {replies : List Reply}
    {nb : Notebook} (queued : Queued lines calls replies nb) :
    Faithful lines calls replies nb where
  byte a member := by
    cases queued.regular _ member with
    | byte b =>
      have small := b.toNat_lt
      exact .inr ⟨_, rfl, by simp [Key.code], by simp only [Key.code]; omega⟩
    | refusal => exact .inl rfl
  inOrder := by
    refine ⟨nb.queue ++ typed (lines.drop nb.asked), ?_⟩
    rw [← List.append_assoc, queued.keys]
    exact typed_take_append_drop lines nb.asked
  available := by
    simp only [Notebook.call, ne_eq, queued.handed_out_iff]
    rw [Bool.eq_iff_iff.mpr ((ready_iff nb).trans decide_eq_true_iff.symm)]
  asks c := by simp only [asked_call, queued.handed_out_iff]
  shown handed := by
    have empty := queued.handed_out_iff.mp handed
    obtain ⟨rest, left⟩ := read_of_empty empty
    rw [left]
    exact ⟨rfl, _, rfl, queued.text_unprinted⟩
  refused := by rw [read_eq_interrupted_iff, queued.handed_out_iff, queued.head?_lines]
  kept interrupted := by
    obtain ⟨empty, refused⟩ := (read_eq_interrupted_iff nb).mp interrupted
    rw [read_of_refusal empty refused]
    refine ⟨rfl, rfl, ?_, typed_tail_of_refusal refused⟩
    rw [decoded, asked_prompted, queued.typed_take_succ, refused]
    simp

end Notebook

namespace Machine

open Notebook

/-- The step fetches one of the two traps that wait for a key, told by its code and low byte, on a
notebook that has none left. -/
def WantsLine (m : Machine Notebook) : Prop :=
  m.state.running = true ∧ m.word.code = 15 ∧ m.word.toNat % 256 ∈ [0x20, 0x23] ∧
    m.console.queue = []

instance (m : Machine Notebook) : Decidable m.WantsLine :=
  inferInstanceAs (Decidable (_ ∧ _ ∧ _ ∧ _))

theorem awaits_iff {κ : Type} [Console κ] (m : Machine κ) :
    Awaits m.state ↔ m.word.code = 15 ∧ m.word.toNat % 256 ∈ [0x20, 0x23] := by
  by_cases status : m.state.pc = keyboardStatus
  · refine iff_of_false (fun awaits => awaits.1 status) ?_
    obtain code | code := code_of_status status <;> simp [code]
  · rw [Awaits, word_of_ne status, Instruction.decode_eq_trap_iff, Instruction.decode_eq_trap_iff,
      ← and_or_left]
    simp [status, Service.vector]

theorem asked_say (said : Option (List UInt8)) (nb : Notebook) :
    (Exchange.say said nb).asked = nb.asked := by
  cases said with
  | none => rfl
  | some bytes => exact asked_flush _

theorem queue_said (said : Option (List UInt8)) (nb : Notebook) :
    (Exchange.say said nb).queue = nb.queue := by
  cases said with
  | none => rfl
  | some bytes => exact queue_say nb bytes

theorem asked_poll (nb : Notebook) : (Console.poll nb).2.asked = nb.asked := by
  rcases nb with ⟨_ | ⟨b, rest⟩, pending, lines, notices⟩ <;> rfl

theorem asked_await (s : State) (prompted : Bool) (nb : Notebook) :
    ((Exchange.await s prompted).play nb).2.console.asked =
      nb.asked + if nb.queue = [] then 1 else 0 := by
  have waited := asked_read (Exchange.say (Exchange.promptOf prompted) nb)
  rw [asked_say, queue_said] at waited
  rw [← waited, Exchange.play]
  simp only [Console.read]
  rcases Notebook.read (Exchange.say (Exchange.promptOf prompted) nb) with ⟨k | _ | _, left⟩
  · exact asked_say _ _
  · rfl
  · rfl

theorem asked_step (m : Machine Notebook) :
    m.step.2.console.asked = m.console.asked + if m.WantsLine then 1 else 0 := by
  have wants (asks : (Exchange.ofState m.state).ask = some .key) :
      m.WantsLine ↔ m.console.queue = [] := by
    have running := Exchange.running_of_ask asks
    have awaits := (Exchange.ask_ofState_eq_key_iff running).mp asks
    obtain ⟨code, low⟩ := (awaits_iff m).mp awaits
    simp only [WantsLine, running, code, low, true_and]
  have content (other : (Exchange.ofState m.state).ask ≠ some .key) : ¬ m.WantsLine := by
    rintro ⟨running, code, low, -⟩
    exact other ((Exchange.ask_ofState_eq_key_iff running).mpr ((awaits_iff m).mpr ⟨code, low⟩))
  rw [← Exchange.play_ofState]
  cases exchange : Exchange.ofState m.state with
  | quiet outcome state said =>
    rw [if_neg (content (by rw [exchange]; nofun))]
    exact asked_say said m.console
  | poll result =>
    rw [if_neg (content (by rw [exchange]; nofun))]
    exact asked_poll m.console
  | await state prompted =>
    simp only [wants (by rw [exchange]; rfl)]
    exact asked_await state prompted m.console

theorem asked_after (m : Machine Notebook) (n : Nat) :
    (m.after n).console.asked =
      m.console.asked + (List.range n).countP fun k => (m.after k).WantsLine := by
  induction n with
  | zero => rfl
  | succ n ih =>
    rw [← step_after, asked_step, ih, List.range_succ, List.countP_append, List.countP_singleton]
    simp only [decide_eq_true_eq]
    omega

/-- Keys come from a notebook in the order in which they are typed, none is lost, and the user is
asked for a line only when one is needed: by hand when a key is wanted and none is left, and in a
run when a trap that waits for a key meets an empty queue. -/
theorem typed_lines_are_queued :
    (∀ lines calls,
      Faithful lines calls (callAll { lines } calls).1 (callAll { lines } calls).2) ∧
    (∀ (nb : Notebook) k after,
      Console.poll nb = (some k, after) ↔
        Console.ready nb = true ∧ Console.read nb = (.key k, after)) ∧
    ∀ (m : Machine Notebook) (limit : Nat),
      (m.step.2.console.asked = m.console.asked + if m.WantsLine then 1 else 0) ∧
      ∃ n ≤ limit, (m.run limit).2 = m.after n ∧
        (m.run limit).2.console.asked =
          m.console.asked + (List.range n).countP fun k => (m.after k).WantsLine := by
  refine ⟨?_, poll_eq_some_iff, ?_⟩
  · intro lines calls
    simpa using ((Queued.start lines).callAll calls).faithful
  · intro m limit
    obtain ⟨n, within, ran, _⟩ := run_eq_after limit m
    refine ⟨asked_step m, n, within, ran, ?_⟩
    rw [ran]
    exact asked_after m n

/-- The user types an escaped newline between other characters, then refuses to type, and then types
nothing but Enter. -/
theorem typed_lines_are_queued_of_escape :
    let lines := [some "\\\\n€", none, some ""]
    let ran := callAll { lines } [.getc, .keyAvailable, .getc, .getc, .getc]
    ran.1 = [.answer (.key (.byte 92)), .available true, .answer (.key (.byte 10)),
      .answer (.key (.byte 172)), .answer .interrupted] ∧
      typed lines = [92, 10, 172, 10] ∧ ran.1.flatMap Reply.bytes <+: [92, 10, 172, 10] ∧
      (ran.2.call .getc).1 = .answer (.key (.byte 10)) ∧ (ran.2.call .getc).2.asked = 3 := by
  intro lines ran
  have keys : typed lines = [92, 10, 172, 10] := by decide
  obtain ⟨faithful, _⟩ := typed_lines_are_queued
  have told := faithful lines [.getc, .keyAvailable, .getc, .getc, .getc]
  have order := told.inOrder
  rw [keys] at order
  exact ⟨by decide, keys, order, by decide, (told.asks .getc).trans (by decide)⟩

end Machine

end LittleComputer
