import LittleComputer.Console.Tape
import LittleComputer.Proofs.Effect
import LittleComputer.Proofs.Keyboard
import LittleComputer.Proofs.Latest

/-! Memory over a whole run. A cell holds the last word that was written to it, be it by one of the
three instructions that store or, in the two cells of the keyboard, by a poll; nothing else changes
memory. A word that a step reads is what its cell holds by then, and the keyboard's status alone is
made up when it is read. -/
namespace LittleComputer

/-- A change of memory: a word that is stored at an address, or a poll that leaves what it found. -/
inductive Write where
  | stored (a w : Word)
  | polled (found : Option Key)
  deriving DecidableEq, Repr

namespace Write

open Machine

/-- The word that a write leaves at an address, if it goes there. -/
def at? (a : Word) : Write → Option Word
  | .stored b w => if b = a then some w else none
  | .polled found =>
    if a = keyboardStatus then some (if found.isSome then keyReady else 0)
    else if a = keyboardData then found.map Key.word
    else none

end Write

/-- A word that is read as an instruction reads it, with its address. -/
structure Read where
  address : Word
  word : Word
  deriving DecidableEq, Repr

namespace Machine

variable {κ : Type}

/-- The address that the offset of nine bits of the next word leads to. -/
def near (m : Machine κ) (w : Word) : Word := m.state.pc + 1 + w.offset9

/-- The address that the offset of six bits of the next word leads to from its base. -/
def beside (m : Machine κ) (w : Word) : Word := m.state.reg w.reg6 + w.offset6

theorem near_eq_reach (m : Machine κ) (w : Word) :
    m.near w = reach (m.state.pc + 1) (w.extractLsb' 0 9) :=
  (Instruction.reach_offset9 _ w).symm

theorem beside_eq_reach (m : Machine κ) (w : Word) :
    m.beside w = reach (m.state.reg (Instruction.baseField w)) (w.extractLsb' 0 6) := by
  rw [beside, Instruction.baseField_eq_reg6, Instruction.reach_offset6]

variable [Console κ]

def read (m : Machine κ) (a : Word) : Read := ⟨a, (m.load a).1⟩

def readsOf (m : Machine κ) : Instruction → List Read
  | .ld _ offset => [m.read (reach m.state.pc offset)]
  | .ldr _ base offset => [m.read (reach (m.state.reg base) offset)]
  | .ldi _ offset =>
    let pointed := m.load (reach m.state.pc offset)
    [m.read (reach m.state.pc offset), pointed.2.read pointed.1]
  | .sti _ offset => [m.read (reach m.state.pc offset)]
  | _ => []

/-- What the next word reads from memory in its execution, in order. -/
def readsBy (m : Machine κ) (w : Word) : List Read :=
  match w.code with
  | 2 | 11 => [m.read (m.near w)]
  | 6 => [m.read (m.beside w)]
  | 10 =>
    let pointed := m.load (m.near w)
    [m.read (m.near w), pointed.2.read pointed.1]
  | _ => []

/-- What the next step reads from memory, the instruction first. -/
def reads (m : Machine κ) : List Read :=
  if m.state.running then ⟨m.state.pc, m.word⟩ :: m.readsBy m.word else []

def storeOf? (m : Machine κ) : Instruction → Option Write
  | .st source offset => some (.stored (reach m.state.pc offset) (m.state.reg source))
  | .str source base offset =>
    some (.stored (reach (m.state.reg base) offset) (m.state.reg source))
  | .sti source offset =>
    some (.stored (m.load (reach m.state.pc offset)).1 (m.state.reg source))
  | _ => none

/-- What the next word stores in its execution, if it is one that stores. -/
def storeBy? (m : Machine κ) (w : Word) : Option Write :=
  match w.code with
  | 3 => some (.stored (m.near w) (m.state.reg w.reg9))
  | 7 => some (.stored (m.beside w) (m.state.reg w.reg9))
  | 11 => some (.stored (m.load (m.near w)).1 (m.state.reg w.reg9))
  | _ => none

def store? (m : Machine κ) : Option Write :=
  if m.state.running then m.storeBy? m.word else none

def polls (m : Machine κ) : List Write :=
  m.requests.filterMap fun
    | .polled found => some (.polled found)
    | _ => none

/-- The writes of the first steps, in order. A step polls before it stores. -/
def writes : Nat → Machine κ → List Write
  | 0, _ => []
  | n + 1, m => m.polls ++ m.store?.toList ++ writes n m.step.2

/-- What is loaded does not hang on the program counter. -/
theorem load_advance (m : Machine κ) (a : Word) :
    (m.map (·.advance)).load a = ((m.load a).1, (m.load a).2.map (·.advance)) := by
  by_cases polled : a = keyboardStatus
  · subst polled
    rw [Exchange.load_status, Exchange.load_status]
    have same : (m.map (·.advance)).console = m.console := rfl
    rw [same]
    cases (Console.poll m.console).1 <;> rfl
  · rw [load_of_ne m polled, load_of_ne _ polled]
    rfl

theorem read_advance (m : Machine κ) (a : Word) : (m.map (·.advance)).read a = m.read a := by
  rw [read, load_advance, read]

/-- What a word reads is what the instruction does that it is decoded to. -/
theorem readsBy_eq_readsOf (m : Machine κ) (w : Word) :
    m.readsBy w = (m.map (·.advance)).readsOf (Instruction.decode w) := by
  unfold readsBy Instruction.decode Instruction.ofFields
  rw [← Opcode.number_ofWord_eq_code, near_eq_reach, beside_eq_reach]
  cases Opcode.ofWord w with
  | ld => exact congrArg (fun r => [r]) (read_advance m _).symm
  | ldr => exact congrArg (fun r => [r]) (read_advance m _).symm
  | sti => exact congrArg (fun r => [r]) (read_advance m _).symm
  | ldi =>
    simp only [readsOf, read_advance, load_advance]
    rfl
  | jsr => cases w.getLsbD 11 <;> rfl
  | _ => rfl

theorem storeBy?_eq_storeOf? (m : Machine κ) (w : Word) :
    m.storeBy? w = (m.map (·.advance)).storeOf? (Instruction.decode w) := by
  unfold storeBy? Instruction.decode Instruction.ofFields
  rw [← Opcode.number_ofWord_eq_code, near_eq_reach, beside_eq_reach,
    ← Instruction.targetField_eq_reg9]
  cases Opcode.ofWord w with
  | sti =>
    simp only [storeOf?, load_advance]
    rfl
  | jsr => cases w.getLsbD 11 <;> rfl
  | _ => rfl

theorem reads_of_ne {m : Machine κ} (running : m.state.running = true)
    (elsewhere : m.state.pc ≠ keyboardStatus) :
    m.reads = m.read m.state.pc :: m.fetched.readsOf m.instruction := by
  rw [reads, if_pos running, readsBy_eq_readsOf, fetched_of_ne elsewhere]
  rfl

theorem store?_of_ne {m : Machine κ} (running : m.state.running = true)
    (elsewhere : m.state.pc ≠ keyboardStatus) :
    m.store? = m.fetched.storeOf? m.instruction := by
  rw [store?, if_pos running, storeBy?_eq_storeOf?, fetched_of_ne elsewhere]
  rfl

theorem get_latch (found : Option Key) (s : State) (a : Word) :
    (latch found s).memory.get a = ((Write.polled found).at? a).getD (s.memory.get a) := by
  unfold Write.at?
  cases found with
  | none =>
    rw [latch, State.store, Memory.get_set]
    by_cases status : a = keyboardStatus
    · simp [status]
    · simp [status, Ne.symm status]
  | some key =>
    have apart : keyboardData ≠ keyboardStatus := by decide
    rw [latch, State.store, State.store, Memory.get_set, Memory.get_set]
    by_cases status : a = keyboardStatus
    · simp [status, apart]
    · by_cases data : a = keyboardData
      · simp [data, apart]
      · simp [status, data, Ne.symm status, Ne.symm data]

/-- Loading from the keyboard's status is a poll. -/
def pollsAt (m : Machine κ) (a : Word) : List Write :=
  if a = keyboardStatus then [.polled (Console.poll m.console).1] else []

theorem get_load (m : Machine κ) (a b : Word) :
    (m.load a).2.state.memory.get b =
      latest (Write.at? b) (m.pollsAt a) (m.state.memory.get b) := by
  by_cases polled : a = keyboardStatus
  · subst polled
    rw [Exchange.load_status, pollsAt, if_pos rfl, latest_singleton]
    exact get_latch _ _ b
  · rw [load_of_ne m polled, pollsAt, if_neg polled, latest_nil]

theorem get_store (s : State) (a w b : Word) :
    (s.store a w).memory.get b = ((Write.stored a w).at? b).getD (s.memory.get b) := by
  rw [State.store, Memory.get_set, Write.at?]
  split <;> rfl

theorem memory_awaitKey (m : Machine κ) {next : Key → Machine κ → Machine κ}
    (keeps : ∀ key n, (next key n).state.memory = n.state.memory) :
    (m.awaitKey next).2.state.memory = m.state.memory := by
  unfold awaitKey
  rcases Console.read m.console with ⟨key | _ | _, console⟩
  · exact keeps key _
  · rfl
  · rfl

theorem memory_putText (m : Machine κ) (bytesOf : Word → List UInt8) :
    (m.putText bytesOf).2.state.memory = m.state.memory := by
  unfold putText
  cases m.state.memory.textFrom? (m.state.reg 0) <;> rfl

theorem memory_serve (m : Machine κ) (service : Service) :
    (m.serve service).2.state.memory = m.state.memory := by
  cases service with
  | getc => exact memory_awaitKey m fun _ _ => rfl
  | out => rfl
  | puts => exact memory_putText m _
  | prompt =>
    exact memory_awaitKey (m.write (Latin.lowBytes inputPrompt)).flush fun _ _ => rfl
  | putsp => exact memory_putText m _
  | halt => rfl

theorem memory_trap (m : Machine κ) (vector : BitVec 8) :
    (m.trap vector).2.state.memory = m.state.memory := by
  unfold trap
  cases Service.ofVector? vector with
  | none => rfl
  | some service => exact memory_serve (m.map fun s => s.setReg 7 s.pc) service

def pollsOf (m : Machine κ) (i : Instruction) : List Write :=
  if keyboardStatus ∈ sources m.state i then [.polled (Console.poll m.console).1] else []

theorem pollsOf_of_source {m : Machine κ} {i : Instruction} {a : Word}
    (source : sources m.state i = [a]) : m.pollsOf i = m.pollsAt a := by
  simp [pollsOf, pollsAt, source, eq_comm]

theorem pollsOf_of_sources_eq_nil {m : Machine κ} {i : Instruction}
    (sourceless : sources m.state i = []) : m.pollsOf i = [] := by
  simp [pollsOf, sourceless]

theorem pollsOf_ldi (m : Machine κ) (target : Reg) (offset : BitVec 9) :
    m.pollsOf (.ldi target offset) =
      m.pollsAt (reach m.state.pc offset) ++
        (m.load (reach m.state.pc offset)).2.pollsAt (m.load (reach m.state.pc offset)).1 := by
  by_cases polled : reach m.state.pc offset = keyboardStatus
  · have once : Exchange.status (Console.poll m.console).1 ≠ keyboardStatus := Exchange.status_ne _
    simp [pollsOf, pollsAt, sources, polled, Exchange.load_status, once]
  · rw [load_of_ne m polled]
    simp [pollsOf, pollsAt, sources, polled, Ne.symm polled, eq_comm]

theorem reg_load (m : Machine κ) (a : Word) (r : Reg) :
    (m.load a).2.state.reg r = m.state.reg r := by
  rw [state_load]
  rfl

/-- An instruction changes memory by its polls and its store. -/
theorem get_perform (m : Machine κ) (i : Instruction) (a : Word) :
    (m.perform i).2.state.memory.get a =
      latest (Write.at? a) (m.pollsOf i ++ (m.storeOf? i).toList) (m.state.memory.get a) := by
  rw [latest_append]
  cases i with
  | ld target offset =>
    rw [pollsOf_of_source rfl, ← get_load]
    rfl
  | ldr target base offset =>
    rw [pollsOf_of_source rfl, ← get_load]
    rfl
  | ldi target offset =>
    rw [pollsOf_ldi, latest_append, ← get_load, ← get_load]
    rfl
  | st source offset =>
    rw [pollsOf_of_sources_eq_nil rfl, latest_nil]
    exact (get_store ..).trans (latest_singleton ..).symm
  | str source base offset =>
    rw [pollsOf_of_sources_eq_nil rfl, latest_nil]
    exact (get_store ..).trans (latest_singleton ..).symm
  | sti source offset =>
    have kept := reg_load m (reach m.state.pc offset) source
    rw [pollsOf_of_source rfl, ← get_load]
    simp only [perform, map, storeOf?, Option.toList_some, latest_singleton, get_store, kept]
  | br mask offset =>
    rw [perform_br]
    dsimp only
    split <;> rfl
  | trap vector => exact congrArg (·.get a) (memory_trap m vector)
  | _ => rfl

theorem polls_eq (m : Machine κ) :
    m.polls =
      if (Exchange.ofState m.state).ask = some .poll then [.polled (Console.poll m.console).1]
      else [] := by
  unfold polls
  rw [requests_eq]
  cases Exchange.ofState m.state <;> rfl

theorem store?_of_status {m : Machine κ} (status : m.state.pc = keyboardStatus) :
    m.store? = none := by
  unfold store? storeBy?
  obtain code | code := code_of_status status <;> simp [code]

theorem polls_of_ne {m : Machine κ} (running : m.state.running = true)
    (elsewhere : m.state.pc ≠ keyboardStatus) :
    m.polls = m.fetched.pollsOf m.instruction := by
  have asked := (Exchange.ask_ofState_eq_poll_iff running).trans (or_iff_right elsewhere)
  rw [polls_eq, pollsOf, fetched_of_ne elsewhere, instruction_of_ne elsewhere]
  exact ite_congr (propext asked) (fun _ => rfl) fun _ => rfl

/-- A step changes memory by its polls and its store. -/
theorem get_step (m : Machine κ) (a : Word) :
    m.step.2.state.memory.get a =
      latest (Write.at? a) (m.polls ++ m.store?.toList) (m.state.memory.get a) := by
  by_cases running : m.state.running = true
  · by_cases status : m.state.pc = keyboardStatus
    · have exchange := Exchange.ofState_at_keyboardStatus running status
      rw [polls_eq, exchange, store?_of_status status, ← Exchange.play_ofState, exchange]
      exact (get_latch _ _ a).trans (latest_singleton ..).symm
    · rw [step_eq_perform running, get_perform, polls_of_ne running status,
        store?_of_ne running status, fetched_of_ne status]
      rfl
  · have halted : m.state.running = false := Bool.eq_false_iff.mpr running
    have asked : (Exchange.ofState m.state).ask = none := by
      rw [Exchange.ofState, if_neg running]
      rfl
    simp [step_of_halted m halted, polls_eq, asked, store?, halted]

theorem get_after (n : Nat) (m : Machine κ) (a : Word) :
    (m.after n).state.memory.get a =
      latest (Write.at? a) (m.writes n) (m.state.memory.get a) := by
  induction n generalizing m with
  | zero => rfl
  | succ n ih =>
    rw [after_succ, ih, get_step, ← latest_append]
    rfl

theorem memory_step_of_idle {m : Machine κ} (storeless : m.store? = none)
    (unpolled : ∀ found, .polled found ∉ m.requests) :
    m.step.2.state.memory = m.state.memory := by
  have pollless : m.polls = [] := by
    rw [polls, List.filterMap_eq_nil_iff]
    intro event member
    cases event with
    | polled found => exact absurd member (unpolled found)
    | _ => rfl
  apply Memory.ext_get
  intro a
  rw [get_step, pollless, storeless]
  rfl

theorem store?_of_incomplete {m : Machine κ} (incomplete : m.step.1 ≠ .done) :
    m.store? = none := by
  by_cases running : m.state.running = true
  · by_cases status : m.state.pc = keyboardStatus
    · exact store?_of_status status
    · rw [store?_of_ne running status]
      rw [step_eq_perform running] at incomplete
      cases fetches : m.instruction with
      | st source offset => exact absurd (by rw [fetches]; rfl) incomplete
      | str source base offset => exact absurd (by rw [fetches]; rfl) incomplete
      | sti source offset => exact absurd (by rw [fetches]; rfl) incomplete
      | _ => rfl
  · exact if_neg running

theorem word_read (m : Machine κ) (a : Word) :
    (m.read a).word =
      if a = keyboardStatus then (if Console.ready m.console then keyReady else 0)
      else m.state.memory.get a := by
  unfold read
  by_cases polled : a = keyboardStatus
  · rw [polled, if_pos rfl]
    exact load_keyboardStatus m
  · rw [if_neg polled, load_of_ne m polled]

/-- A pointer that was polled leads to a cell that the poll has not changed. -/
theorem word_read_pointer (m : Machine κ) (a : Word) :
    ((m.load a).2.read (m.load a).1).word =
      if (m.load a).1 = keyboardStatus then (if Console.ready m.console then keyReady else 0)
      else m.state.memory.get (m.load a).1 := by
  by_cases polled : a = keyboardStatus
  · rw [polled, word_read, Exchange.load_status, if_neg (Exchange.status_ne _),
      if_neg (Exchange.status_ne _)]
    dsimp only
    rw [get_latch]
    cases (Console.poll m.console).1 <;> rfl
  · rw [load_of_ne m polled]
    exact word_read m _

theorem word_of_mem_readsBy {m : Machine κ} {w : Word} {r : Read} (member : r ∈ m.readsBy w) :
    r.word =
      if r.address = keyboardStatus then (if Console.ready m.console then keyReady else 0)
      else m.state.memory.get r.address := by
  unfold readsBy at member
  split at member
  case h_4 =>
    obtain rfl | member := List.mem_cons.mp member
    · exact word_read m _
    · obtain rfl := List.mem_singleton.mp member
      exact word_read_pointer m _
  case h_5 => cases member
  all_goals
    obtain rfl := List.mem_singleton.mp member
    exact word_read m _

theorem word_of_mem_reads {m : Machine κ} {r : Read} (member : r ∈ m.reads) :
    r.word =
      if r.address = keyboardStatus then (if Console.ready m.console then keyReady else 0)
      else m.state.memory.get r.address := by
  unfold reads at member
  split at member
  · obtain rfl | member := List.mem_cons.mp member
    · exact word_read m _
    · exact word_of_mem_readsBy member
  · cases member

theorem exists_mem_readsOf_of_source {m : Machine κ} {i : Instruction}
    (source : keyboardStatus ∈ sources m.state i) :
    ∃ r ∈ m.readsOf i, r.address = keyboardStatus := by
  cases i with
  | ld target offset => exact ⟨_, List.mem_singleton_self _, (List.mem_singleton.mp source).symm⟩
  | ldr target base offset =>
    exact ⟨_, List.mem_singleton_self _, (List.mem_singleton.mp source).symm⟩
  | sti source' offset => exact ⟨_, List.mem_singleton_self _, (List.mem_singleton.mp source).symm⟩
  | ldi target offset =>
    by_cases polled : reach m.state.pc offset = keyboardStatus
    · exact ⟨_, List.mem_cons_self, polled⟩
    · obtain first | pointed := List.mem_cons.mp source
      · exact absurd first.symm polled
      · refine ⟨_, List.mem_cons_of_mem _ (List.mem_singleton_self _), ?_⟩
        rw [load_of_ne m polled]
        exact (List.mem_singleton.mp pointed).symm
  | _ => cases source

/-- A step that polls reads the keyboard's status, which says if a key was found. -/
theorem status_mem_reads {m : Machine κ} (asks : (Exchange.ofState m.state).ask = some .poll) :
    ⟨keyboardStatus, if Console.ready m.console then keyReady else 0⟩ ∈ m.reads := by
  have running := Exchange.running_of_ask asks
  have read : ∃ r ∈ m.reads, r.address = keyboardStatus := by
    by_cases status : m.state.pc = keyboardStatus
    · rw [reads, if_pos running]
      exact ⟨_, List.mem_cons_self, status⟩
    · obtain polled | source := (Exchange.ask_ofState_eq_poll_iff running).mp asks
      · exact absurd polled status
      · rw [reads_of_ne running status, fetched_of_ne status, instruction_of_ne status]
        obtain ⟨r, member, address⟩ :=
          exists_mem_readsOf_of_source (m := m.map (·.advance)) source
        exact ⟨r, List.mem_cons_of_mem _ member, address⟩
  obtain ⟨⟨_, w⟩, member, rfl⟩ := read
  have word := word_of_mem_reads member
  rw [if_pos rfl] at word
  obtain rfl : w = _ := word
  exact member

/-- What a step does with the words that it reads: the first is its instruction, and the last is
what a load puts into its target, or where an indirect store goes. -/
structure Uses (m : Machine κ) : Prop where
  fetch : ∃ w rest, m.reads = ⟨m.state.pc, w⟩ :: rest ∧ m.instruction = Instruction.decode w
  load : m.word.code ∈ [2, 6, 10] →
    m.step.1 = .done ∧ m.reads.getLast?.map Read.word = some (m.step.2.state.reg m.word.reg9)
  pointer : m.word.code = 11 →
    m.store? = m.reads.getLast?.map fun r => .stored r.word (m.state.reg m.word.reg9)

theorem uses {m : Machine κ} (running : m.state.running = true) : m.Uses := by
  have reads_eq : m.reads = ⟨m.state.pc, m.word⟩ :: m.readsBy m.word := if_pos running
  constructor
  · exact ⟨_, _, reads_eq, rfl⟩
  · intro loads
    have elsewhere : m.state.pc ≠ keyboardStatus := by
      intro status
      obtain code | code := code_of_status status <;> simp [code] at loads
    have decoded : m.instruction = Instruction.decode m.word := rfl
    rw [reads_of_ne running elsewhere, step_eq_perform running, decoded]
    rw [← Opcode.number_ofWord_eq_code] at loads
    unfold Instruction.decode Instruction.ofFields
    rw [← Instruction.targetField_eq_reg9]
    cases op : Opcode.ofWord m.word with
    | ld => simp [readsOf, perform, map, read]
    | ldr => simp [readsOf, perform, map, read]
    | ldi => simp [readsOf, perform, map, read]
    | _ => simp [op, Opcode.number] at loads
  · intro stores
    rw [reads_eq, store?, if_pos running]
    simp [storeBy?, readsBy, stores, read]

theorem writes_succ_of_get {m : Machine κ} (running : m.state.running = true) {a w : Word}
    (here : m.state.pc = a) (elsewhere : a ≠ keyboardStatus) (held : m.state.memory.get a = w)
    (n : Nat) :
    m.writes (n + 1) = (m.map (·.advance)).pollsOf (Instruction.decode w) ++
      (m.storeBy? w).toList ++ m.step.2.writes n := by
  subst here
  have fetched : m.word = w := (word_of_ne elsewhere).trans held
  have decoded : m.instruction = Instruction.decode w := congrArg Instruction.decode fetched
  rw [writes, polls_of_ne running elsewhere, store?, if_pos running, fetched, decoded,
    fetched_of_ne elsewhere]

/-- However long a program has run, each cell holds what was last written to it, and a step reads
that, or of the keyboard's status whether a key is there. -/
theorem memory_holds_last_write (m : Machine κ) (n : Nat) :
    let now := m.after n
    let held (a : Word) : Word := latest (Write.at? a) (m.writes n) (m.state.memory.get a)
    (∀ a, now.state.memory.get a = held a) ∧
    (∀ r ∈ now.reads, r.word =
      if r.address = 0xFE00 then (if Console.ready now.console then 0x8000 else 0)
      else held r.address) ∧
    (now.state.running = true → now.Uses) ∧
    (now.store? = none → (∀ found, .polled found ∉ now.requests) →
      (m.after (n + 1)).state.memory = now.state.memory) ∧
    (now.step.1 ≠ .done → now.store? = none) ∧
    ∀ limit, ∃ steps ≤ limit, (m.run limit).2 = m.after steps := by
  intro now held
  refine ⟨get_after n m, ?_, uses, ?_, store?_of_incomplete, ?_⟩
  · intro r member
    have word := word_of_mem_reads member
    rwa [get_after] at word
  · intro storeless unpolled
    rw [← step_after]
    exact memory_step_of_idle storeless unpolled
  · intro limit
    obtain ⟨steps, bound, ran, _⟩ := run_eq_after limit m
    exact ⟨steps, bound, ran⟩

/-- A store becomes the next instruction, which stores through a pointer to the keyboard's data. -/
theorem memory_holds_last_write_of_stored_code :
    let s := ((State.initial.setReg 1 0xB200).setReg 2 0x3002).store 0x3000 0x72BF
    let m : Machine Tape := ⟨s.store 0x3002 0xFE02, {}⟩
    m.writes 2 = [.stored 0x3001 0xB200, .stored 0xFE02 0xB200] ∧
      (m.after 1).reads = [⟨0x3001, 0xB200⟩, ⟨0x3002, 0xFE02⟩] ∧
      (m.after 2).state.memory.get 0x3001 = 0xB200 ∧
      (m.after 2).state.memory.get 0xFE02 = 0xB200 ∧
      (m.after 2).state.memory.get 0x3002 = 0xFE02 := by
  intro s m
  let m' : Machine Tape := ⟨m.state.advance.store 0x3001 0xB200, {}⟩
  have held : m.state.memory.get 0x3000 = 0x72BF := by
    simp only [m, s, State.store, Memory.get_set]
    decide
  have held' : m'.state.memory.get 0x3001 = 0xB200 := Memory.get_set_self ..
  have pointer : m'.state.memory.get 0x3002 = 0xFE02 := by
    simp only [m', m, State.store, State.advance, Memory.get_set]
    decide
  have decodes : Instruction.decode 0x72BF = .str 1 2 (-1) := by decide
  have decodes' : Instruction.decode 0xB200 = .sti 1 0 := by decide
  have code : Word.code 0xB200 = 11 := by decide
  have near : m'.near 0xB200 = 0x3002 := by decide
  have source : m'.state.reg (Word.reg9 0xB200) = 0xB200 := by decide
  have loaded : m'.load (m'.near 0xB200) = (0xFE02, m') := by
    rw [near, load_of_ne m' (by decide), pointer]
  have stores : m.storeBy? 0x72BF = some (.stored 0x3001 0xB200) := by decide
  have stores' : m'.storeBy? 0xB200 = some (.stored 0xFE02 0xB200) := by
    simp only [storeBy?, code, loaded, source]
  have step : m.step.2 = m' := by
    have beside : reach (m.state.advance.reg 2) (-1 : BitVec 6) = 0x3001 := by decide
    have source : m.state.advance.reg 1 = 0xB200 := by decide
    rw [step_of_get rfl rfl (by decide) held decodes]
    simp only [perform, map, beside, source]
    rfl
  have running : m'.state.running = true := rfl
  have reads : m'.reads = [⟨0x3001, 0xB200⟩, ⟨0x3002, 0xFE02⟩] := by
    have word : m'.word = 0xB200 := (word_of_ne (by decide)).trans held'
    rw [Machine.reads, if_pos running, word]
    simp only [readsBy, code, read, loaded]
    rw [near]
    rfl
  have writes : m.writes 2 = [.stored 0x3001 0xB200, .stored 0xFE02 0xB200] := by
    have unpolled : (m'.map (·.advance)).pollsOf (.sti 1 0) = [] :=
      (pollsOf_of_source rfl).trans (if_neg (by decide))
    rw [writes_succ_of_get rfl rfl (by decide) held, decodes, pollsOf_of_sources_eq_nil rfl, stores,
      step, writes_succ_of_get running rfl (by decide) held', decodes', unpolled, stores']
    rfl
  have cells := (memory_holds_last_write m 2).1
  simp only [writes] at cells
  refine ⟨writes, ?_, ?_, ?_, ?_⟩
  · rw [after_succ, step]
    exact reads
  · exact cells 0x3001
  · exact cells 0xFE02
  · have kept : m.state.memory.get 0x3002 = 0xFE02 := Memory.get_set_self ..
    rw [cells, kept]
    rfl

end Machine

end LittleComputer
