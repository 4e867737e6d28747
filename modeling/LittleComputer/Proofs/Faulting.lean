import LittleComputer.Proofs.Invocation
import LittleComputer.Proofs.LastWrite
import LittleComputer.Proofs.Outcomes
import LittleComputer.Proofs.Resuming
import LittleComputer.Proofs.TypedLines
import LittleComputer.Session

/-! Programs that are at fault. A fault is found before the faulting instruction has done anything
but count and move the program counter past it, so the machine is left as it was and can go on with
the instruction after it; and the address before the program counter, which both front ends report,
is the one that the word at fault was fetched from. -/
namespace LittleComputer

namespace Machine

variable {κ : Type} [Console κ] {m : Machine κ}

/-- A step that comes to something its instruction cannot come to was answered so. -/
theorem step_eq_outcomeOf_iff (answer : Answer) (keyless : ∀ k, answer ≠ .key k)
    (waits : ¬ Comes m.instruction m.state.memory (Exchange.outcomeOf answer)) :
    m.step.1 = Exchange.outcomeOf answer ↔ .awaited answer ∈ m.requests := by
  have comes := comes_step m
  rw [requests_eq]
  cases exchange : Exchange.ofState m.state with
  | await state prompted =>
    rw [← Exchange.play_ofState, exchange, Exchange.outcome_play_await,
      Exchange.outcomeOf_eq_iff keyless]
    simp
  | _ =>
    have settled := comes.resolve_right (by simp [exchange])
    exact iff_of_false (fun same => waits (same ▸ settled)) (by simp)

/-- Whoever waits for a key executes one of two traps. -/
theorem awaited_mem_requests_iff (running : m.state.running = true) {answer : Answer} {P : Prop}
    (answers : ∀ said, (Console.read (Exchange.say said m.console)).1 = answer ↔ P) :
    .awaited answer ∈ m.requests ↔ Awaits m.state ∧ P := by
  rw [← Exchange.ask_ofState_eq_key_iff running, requests_eq]
  cases Exchange.ofState m.state with
  | await state prompted =>
    rw [← answers (Exchange.promptOf prompted)]
    simp [Exchange.ask, eq_comm]
  | _ => simp [Exchange.ask]

/-- What a step that is at fault leaves of a machine. -/
structure Survives (m : Machine κ) (f : Fault) : Prop where
  running : m.step.2.state.running = true
  pc : m.step.2.state.pc = m.state.pc + 1
  count : m.step.2.state.count = m.state.count + 1
  link : m.step.2.state.reg 7 =
    match f with
    | .badVector _ => m.step.2.state.pc
    | .reserved _ => m.state.reg 7
  registers : ∀ r, r ≠ 7 → m.step.2.state.reg r = m.state.reg r
  cond : m.step.2.state.cond = m.state.cond
  events : m.events = if m.state.pc = 0xFE00 then [.polled (Console.poll m.console).1] else []
  untouched : m.state.pc ≠ 0xFE00 →
    m.step.2.state.memory = m.state.memory ∧ m.step.2.console = m.console
  polled : m.state.pc = 0xFE00 → ∃ key, Console.poll m.console = (some key, m.step.2.console) ∧
    m.step.2.state.memory = (m.state.memory.set 0xFE00 0x8000).set 0xFE02 key.word
  resumes : ∃ w rest, m.step.2.reads = ⟨m.state.pc + 1, w⟩ :: rest ∧
    m.step.2.instruction = Instruction.decode w

theorem state_of_fault (running : m.state.running = true) {f : Fault}
    (fault : m.step.1 = .fault f) :
    m.step.2.state =
      { m.state.advance with
        registers := (f.leaves m.state.advance).registers
        memory := m.fetched.state.memory } := by
  have refused := (step_eq_fault_iff running f).mp fault
  rw [step_of_refused running refused]
  change f.leaves m.fetched.state = _
  rw [Fault.leaves_eq, state_fetched]
  cases f <;> rfl

theorem console_of_fault (running : m.state.running = true) {f : Fault}
    (fault : m.step.1 = .fault f) : m.step.2.console = (m.load m.state.pc).2.console := by
  rw [step_of_refused running ((step_eq_fault_iff running f).mp fault)]
  rfl

theorem get_of_fault (running : m.state.running = true) {f : Fault}
    (fault : m.step.1 = .fault f) : (m.step.2.state.memory.get m.state.pc).fault? = some f := by
  rw [state_of_fault running fault]
  exact (step_eq_fault_iff running f).mp fault

/-- The fetch is all that a step at fault asks of the console. -/
theorem events_of_fault (running : m.state.running = true) {f : Fault}
    (fault : m.step.1 = .fault f) :
    m.events = if m.state.pc = keyboardStatus then [.polled (Console.poll m.console).1] else [] := by
  have recorded : m.record.step.1 = .fault f := (step_record m).1.trans fault
  have fetched := console_of_fault (m := m.record) running recorded
  unfold events
  rw [fetched]
  by_cases status : m.state.pc = keyboardStatus
  · rw [if_pos status, show m.record.state.pc = keyboardStatus from status, Exchange.load_status]
    rfl
  · rw [if_neg status, load_of_ne m.record (a := m.record.state.pc) status]
    rfl

/-- A poll at the fetch of a word at fault has found a key. -/
theorem poll_of_fault (running : m.state.running = true) {f : Fault}
    (fault : m.step.1 = .fault f) (status : m.state.pc = keyboardStatus) :
    ∃ key, Console.poll m.console = (some key, m.step.2.console) ∧
      m.step.2.state.memory =
        (m.state.memory.set keyboardStatus keyReady).set keyboardData key.word := by
  have refused := (step_eq_fault_iff running f).mp fault
  have console := console_of_fault running fault
  rw [status] at refused console
  rcases poll : Console.poll m.console with ⟨_ | key, after⟩
  · have idle : Word.fault? 0 = none := by decide
    rw [load_of_poll_none m poll] at refused
    cases idle.symm.trans refused
  · rw [load_of_poll_some m poll] at console
    have left : m.step.2.console = after := console
    refine ⟨key, by rw [left], ?_⟩
    rw [state_of_fault running fault, fetched, status, load_of_poll_some m poll]
    rfl

theorem survives_of_fault (running : m.state.running = true) {f : Fault}
    (fault : m.step.1 = .fault f) : m.Survives f := by
  have state := state_of_fault running fault
  have alive : m.step.2.state.running = true := by
    rw [state]
    exact running
  have pc : m.step.2.state.pc = m.state.pc + 1 := by
    rw [state]
    rfl
  obtain ⟨w, rest, reads, executes⟩ := (uses alive).fetch
  rw [pc] at reads
  refine {
    running := alive
    pc
    count := count_step running
    link := ?link
    registers := ?registers
    cond := by rw [state]; rfl
    events := events_of_fault running fault
    untouched := ?untouched
    polled := poll_of_fault running fault
    resumes := ⟨w, rest, reads, executes⟩ }
  case link =>
    rw [state]
    cases f with
    | reserved word => rfl
    | badVector vector => exact Registers.get_set_self ..
  case registers =>
    intro r other
    rw [state]
    cases f with
    | reserved word => rfl
    | badVector vector => exact Registers.get_set_of_ne _ _ other.symm
  case untouched =>
    intro elsewhere
    rw [state, console_of_fault running fault, load_of_ne m elsewhere, fetched_of_ne elsewhere]
    exact ⟨rfl, rfl⟩

/-- How the next step can fail on a console that is interrupted, or blocks, under these
conditions. -/
structure Fails (m : Machine κ) (interrupts blocks : Prop) : Prop where
  fault : ∀ f, m.step.1 = .fault f ↔ (m.load m.state.pc).1.fault? = some f
  interrupted : m.step.1 = .interrupted ↔ Awaits m.state ∧ interrupts
  unending : m.TextsEnd 1 → (m.step.1 = .unending ↔ Awaits m.state ∧ blocks)
  survives : ∀ f, m.step.1 = .fault f → m.Survives f

theorem fails_of_answers (running : m.state.running = true) {interrupts blocks : Prop}
    (interrupted : ∀ said,
      (Console.read (Exchange.say said m.console)).1 = .interrupted ↔ interrupts)
    (never : ∀ said, (Console.read (Exchange.say said m.console)).1 = .never ↔ blocks) :
    m.Fails interrupts blocks where
  fault f := step_eq_fault_iff running f
  interrupted :=
    (step_eq_outcomeOf_iff .interrupted nofun nofun).trans
      (awaited_mem_requests_iff running interrupted)
  unending texts := by
    rw [← awaited_mem_requests_iff running never]
    refine step_eq_outcomeOf_iff .never nofun ?_
    rintro (_ | _ | ⟨prints, endless⟩)
    obtain ⟨a, zero⟩ := texts 0 Nat.one_pos (executes_zero m) ⟨running, prints⟩
    exact endless a zero
  survives f := survives_of_fault running

end Machine

theorem Tape.fails {m : Machine Tape} (running : m.state.running = true) :
    m.Fails False False := by
  have answers (said : Option (List UInt8)) :
      ∃ k, (Console.read (Exchange.say said m.console)).1 = .key k :=
    (Tape.answering.read trivial).1
  apply Machine.fails_of_answers running
  · intro said
    obtain ⟨k, answer⟩ := answers said
    simp [answer]
  · intro said
    obtain ⟨k, answer⟩ := answers said
    simp [answer]

namespace Pipe

theorem read_say (p : Pipe) (said : Option (List UInt8)) :
    (Console.read (Exchange.say said p)).1 = (Console.read p).1 := by
  rcases p with ⟨_ | ⟨b, rest⟩, closed, display, notices⟩ <;> cases said <;> rfl

theorem read_ne_interrupted (p : Pipe) : p.read.1 ≠ .interrupted := by
  rcases p with ⟨_ | ⟨b, rest⟩, _ | _, display, notices⟩ <;> exact nofun

theorem read_eq_never_iff (p : Pipe) : p.read.1 = .never ↔ p.keys = [] ∧ p.closed = false := by
  rcases p with ⟨_ | ⟨b, rest⟩, _ | _, display, notices⟩ <;> simp [read]

theorem fails {m : Machine Pipe} (running : m.state.running = true) :
    m.Fails False (m.console.keys = [] ∧ m.console.closed = false) := by
  apply Machine.fails_of_answers running
  · intro said
    exact iff_false_intro (read_ne_interrupted _)
  · intro said
    rw [read_say]
    exact read_eq_never_iff m.console

end Pipe

namespace Notebook

theorem read_ne_never (nb : Notebook) : nb.read.1 ≠ .never := by
  unfold read
  cases nb.queue with
  | cons b rest => exact nofun
  | nil =>
    dsimp only
    split <;> exact nofun

theorem fails {m : Machine Notebook} (running : m.state.running = true) :
    m.Fails (m.console.queue = [] ∧ m.console.lines.head?.join = none) False := by
  apply Machine.fails_of_answers running
  · intro said
    exact (read_say_eq_interrupted_iff m.console said).trans (read_eq_interrupted_iff m.console)
  · intro said
    exact iff_false_intro (read_ne_never _)

end Notebook

namespace Machine

variable {κ : Type} [Console κ] {m : Machine κ}

/-- A run under the limit comes to this fault with the word that it fetches from this address. -/
def FaultsFrom (m : Machine κ) (limit : Nat) (f : Fault) (a : Word) : Prop :=
  ∃ k < limit, m.Executes k ∧ (m.after k).step.1 = .fault f ∧
    ∃ w, (m.after k).reads = [⟨a, w⟩] ∧ w.fault? = some f

theorem readsOf_of_fault {i : Instruction} {f : Fault} (refused : i.fault? = some f) :
    m.readsOf i = [] := by
  cases i with
  | trap vector => rfl
  | reserved word => rfl
  | _ => cases refused

/-- A step at fault reads nothing but the word at fault. -/
theorem reads_of_fault (running : m.state.running = true) {f : Fault}
    (fault : m.step.1 = .fault f) :
    ∃ w, m.reads = [⟨m.state.pc, w⟩] ∧ w.fault? = some f := by
  have refused := (step_eq_fault_iff running f).mp fault
  refine ⟨_, ?_, refused⟩
  rw [← Instruction.fault?_decode] at refused
  have nothing : m.readsBy m.word = [] := by
    rw [readsBy_eq_readsOf]
    exact readsOf_of_fault refused
  rw [reads, if_pos running, nothing]
  rfl

theorem lastFetched_of_fault (running : m.state.running = true) {f : Fault}
    (fault : m.step.1 = .fault f) : lastFetched m.step.2.state = m.state.pc := by
  rw [state_of_fault running fault]
  exact lastFetched_advance m.state

theorem faultsFrom_of_get (running : m.state.running = true) (elsewhere : m.state.pc ≠ keyboardStatus)
    {w : Word} (held : m.state.memory.get m.state.pc = w) {f : Fault} (refused : w.fault? = some f) :
    m.FaultsFrom 1 f m.state.pc := by
  have fault : m.step.1 = .fault f := by
    rw [step_eq_fault_iff running, load_of_ne m elsewhere, held, refused]
  exact ⟨0, Nat.one_pos, executes_zero m, fault, reads_of_fault running fault⟩

/-- A run that ends in a fault ends with the step that is at fault. -/
theorem exists_step_of_fault {limit : Nat} {f : Fault} (fault : (m.run limit).1 = .fault f) :
    ∃ k < limit, m.Executes k ∧ (m.after k).state.running = true ∧
      (m.after k).step.1 = .fault f ∧ (m.run limit).2 = (m.after k).step.2 := by
  obtain ⟨n, ends, ran⟩ := run_ends limit m
  rw [ran]
  generalize (m.run limit).1 = outcome at ends fault
  cases ends with
  | halted _ _ _ => cases fault
  | limited _ _ => cases fault
  | @stopped k within executed running _ =>
    exact ⟨k, within, executed, running, fault, (step_after k m).symm⟩

/-- A run ends in a fault exactly if one of its steps is at fault, and leaves the program counter
just past the address that the word at fault was fetched from. -/
theorem faultsFrom_iff {limit : Nat} {f : Fault} {a : Word} :
    m.FaultsFrom limit f a ↔
      (m.run limit).1 = .fault f ∧ lastFetched (m.run limit).2.state = a := by
  constructor
  · rintro ⟨k, within, executed, fault, w, reads, _⟩
    have running : (m.after k).state.running = true := Faults.running ⟨f, fault⟩
    have stopped : (m.after k).step.1 ≠ .done := by
      rw [fault]
      exact nofun
    obtain ⟨_, at_pc, _⟩ := reads_of_fault running fault
    obtain ⟨⟨rfl, _⟩, _⟩ : _ ∧ _ := by simpa [at_pc] using reads
    rw [run_of_stopped within executed running stopped]
    exact ⟨fault, lastFetched_of_fault running fault⟩
  · rintro ⟨fault, rfl⟩
    obtain ⟨k, within, executed, running, stopped, ran⟩ := exists_step_of_fault fault
    obtain ⟨w, reads, refused⟩ := reads_of_fault running stopped
    rw [ran, lastFetched_of_fault running stopped]
    exact ⟨k, within, executed, stopped, w, reads, refused⟩

/-- After a run that ends in a fault, the word before the program counter is the one at fault. -/
theorem get_lastFetched_of_fault {limit : Nat} {f : Fault} (fault : (m.run limit).1 = .fault f) :
    let final := (m.run limit).2.state
    (final.memory.get (lastFetched final)).fault? = some f := by
  intro final
  obtain ⟨k, _, _, running, stopped, ran⟩ := exists_step_of_fault fault
  simp only [final, ran, lastFetched_of_fault running stopped]
  exact get_of_fault running stopped

end Machine

namespace CommandLine

open Machine

theorem result_of_fault {files : Files} {arguments : List String} {settings : List Unit}
    {names : List String} {input : List UInt8} {limit : Nat} {f : Fault} {a : Word}
    {loaded : Machine Pipe} (accepted : grammar.read arguments = .accepted settings names)
    (loading : (boot input).loadImages files names = (none, loaded))
    (faults : loaded.FaultsFrom limit f a) :
    let result := invoke files arguments input limit
    result.status = 3 ∧ result.errors = String.join (Image.truncations files names) ++
      ("\nRuntime error at " ++ a.hex ++ ": " ++ f.message ++ "\n") := by
  intro result
  obtain ⟨fault, last⟩ := faultsFrom_iff.mp faults
  have verdict : ((boot input).runProgram files names limit).1 = .faulted a f := by
    rw [runProgram_of_loaded loading, fault, ← last]
    rfl
  obtain ⟨status, _⟩ := invoke_of_accepted input files names accepted limit
  have errors := errors_of_accepted input files names accepted limit
  rw [verdict] at status errors
  exact ⟨status, errors⟩

end CommandLine

namespace Session

open Machine

theorem closing_of_fault {s : Session} {files : Files} {names : List String} {limit : Nat}
    {f : Fault} {a : Word} {loaded : Session}
    (loading : (prepare s).loadImages files names = (none, loaded))
    (faults : loaded.FaultsFrom limit f a) :
    let ran := s.runImages files names limit
    ran.1 = false ∧ ran.2.console.notices.back? =
      some (.error ("\nRuntime error:\n    memory " ++ a.hex ++ "\n" ++ f.message)) := by
  intro ran
  obtain ⟨fault, last⟩ := faultsFrom_iff.mp faults
  have concluded : ran = (false, (loaded.run limit).2.flush.report (.error (faultText a f))) := by
    simp only [ran, runImages, runProgram_of_loaded loading, fault, verdict, last,
      conclude]
  rw [concluded]
  exact ⟨rfl, Array.back?_push ..⟩

end Session

namespace Machine

open CommandLine

end Machine

end LittleComputer
