import LittleComputer.Proofs.Cells
import LittleComputer.Proofs.Faulting
import LittleComputer.Proofs.Recorder

/-! The command line and the notebook agree. A process and a cell that are given the same images, of
a program that reads no keys, execute the same instructions and come to the same verdict, which each
of them reports in its own words after the same warnings and the same output. -/
namespace LittleComputer

namespace Machine

variable {κ : Type} [Console κ]

/-- A run with this limit asks for no keys. -/
def Silent (m : Machine κ) (limit : Nat) : Prop :=
  ∀ k < limit, m.Executes k → (m.after k).requests = []

theorem obeys_of_requests_eq_nil {m : Machine κ} (silent : m.requests = [])
    (allowed : Ask → κ → Prop) : m.Obeys allowed := by
  intro ask asked
  rw [requests_eq_nil_iff] at silent
  rw [silent] at asked
  cases asked

theorem Halts.requests_eq_nil {m : Machine κ} (halts : m.Halts) : m.requests = [] := by
  have elsewhere := pc_ne_keyboardStatus_of_trap halts.2
  have decoded := halts.2
  rw [instruction_of_ne elsewhere] at decoded
  rw [requests_eq, Exchange.ofState, if_pos halts.1, if_neg elsewhere, decoded]
  rfl

theorem Silent.runObeys {m : Machine κ} {limit : Nat} (silent : m.Silent limit)
    (allowed : Ask → κ → Prop) : m.RunObeys allowed limit :=
  fun k below executed => obeys_of_requests_eq_nil (silent k below executed) allowed

end Machine

namespace Notebook

/-- The notebook has printed what is on the pipe's display, and both have complained of the same. -/
structure Echoes (p : Pipe) (nb : Notebook) : Prop where
  shows : nb.Shows p.display
  errors : Notice.errors nb.notices.toList = Notice.errors p.notices.toList

theorem Echoes.say {p : Pipe} {nb : Notebook} (echoes : Echoes p nb) (bytes : List UInt8) :
    Echoes (Console.flush (Console.write bytes p)) (Console.flush (Console.write bytes nb)) := by
  refine ⟨echoes.shows.say bytes, ?_⟩
  rw [notices_flush_write nb echoes.shows.pending]
  by_cases empty : bytes = []
  · rw [if_pos empty]
    exact echoes.errors
  · rw [if_neg empty, Array.toList_push, Notice.errors_append, Notice.errors_print, List.append_nil]
    exact echoes.errors

theorem Echoes.error {p : Pipe} {nb : Notebook} (text : String) (echoes : Echoes p nb) :
    Echoes (Console.report (.error text) p) (Console.report (.error text) nb) := by
  refine ⟨echoes.shows.notice (.error text) rfl, ?_⟩
  simp [Console.report, echoes.errors]

/-- A notebook and a pipe are alike to whoever asks neither of them for a key. -/
theorem simulation_echoes : Simulation Echoes fun _ _ => False where
  poll _ never := never.elim
  read _ never := never.elim
  say bytes echoes := echoes.say bytes
  allowed_say _ never := never.elim

end Notebook

namespace Session

def closing (s : State) : Verdict → Notice
  | .completed => .print (completionText s)
  | .notLoaded name cause => .error (cause.report name)
  | .faulted address f => .error (faultText address f)
  | .interrupted => .error "Keyboard Interrupt!"

theorem conclude_eq {s : Session} (nothing : s.console.pending = #[]) (verdict : Verdict) :
    conclude s verdict = (decide (verdict = .completed), s.report (closing s.state verdict)) := by
  have flushed : s.flush = s := by
    simp [Machine.flush, Console.flush, Notebook.flush, nothing]
  cases verdict with
  | completed => rfl
  | notLoaded name cause => rfl
  | faulted address f => simp [conclude, flushed, closing]
  | interrupted => simp [conclude, flushed, closing]

end Session

/-- How a run of images is reported that was to begin on this machine and has left the state: the
status of the process, whether the cell has completed, the complaint at the end of the process and
the notice at the end of the cell. -/
inductive Reported {κ : Type} [Console κ] (files : Files) (names : List String)
    (loaded : Machine κ) (limit : Nat) (s : State) : Nat → Bool → String → Notice → Prop where
  | completed (loadable : ∀ name ∈ names, Image.Loadable files name) (stopped : s.running = false) :
      Reported files names loaded limit s 0 true ""
        (.print (rule ++ "\nComputation completed\n" ++ rule ++ "\nInstructions: " ++
          toString s.count ++ "\n" ++ s.summary))
  | notLoaded {before after : List String} {name reason : String}
      (split : names = before ++ name :: after)
      (earlier : ∀ other ∈ before, Image.Loadable files other)
      (refused : Image.Refused files name reason) :
      Reported files names loaded limit s 1 false
        ("failed to load image: " ++ name ++ " (" ++ reason ++ ")\n")
        (.error ("failed to load image: " ++ name ++ " (" ++ reason ++ ")"))
  | faulted {address : Word} {message : String} {f : Fault}
      (loadable : ∀ name ∈ names, Image.Loadable files name)
      (faults : loaded.FaultsFrom limit f address) (pc : s.pc = address + 1)
      (refused : (s.memory.get address).refusal? = some message) :
      Reported files names loaded limit s 3 false
        ("\nRuntime error at " ++ address.hex ++ ": " ++ message ++ "\n")
        (.error ("\nRuntime error:\n    memory " ++ address.hex ++ "\n" ++ message))
  | interrupted (loadable : ∀ name ∈ names, Image.Loadable files name)
      (running : s.running = true) (faultless : ∀ f address, ¬ loaded.FaultsFrom limit f address) :
      Reported files names loaded limit s 130 false "\nKeyboard Interrupt!\n"
        (.error "Keyboard Interrupt!")

namespace Reported

open CommandLine Machine Session

variable {κ : Type} [Console κ] {files : Files} {names : List String} {loaded : Machine κ}
  {limit : Nat}

theorem of_run (loadable : ∀ name ∈ names, Image.Loadable files name) :
    let ran := loaded.run limit
    let v := verdict ran.2.state ran.1
    Reported files names loaded limit ran.2.state (exitStatus v) (decide (v = .completed))
      ((complaint? v).getD "") (closing ran.2.state v) := by
  intro ran
  have stopped : ran.1 = .done ↔ ran.2.state.running = false := run_eq_done_iff
  have held (f : Fault) (fault : ran.1 = .fault f) :
      (ran.2.state.memory.get (lastFetched ran.2.state)).fault? = some f :=
    get_lastFetched_of_fault fault
  have faults (f : Fault) (address : Word) :
      loaded.FaultsFrom limit f address ↔
        ran.1 = .fault f ∧ lastFetched ran.2.state = address := faultsFrom_iff
  rcases ran with ⟨outcome, final⟩
  cases outcome with
  | done => exact .completed loadable (stopped.mp rfl)
  | fault f =>
    have pc : final.state.pc = lastFetched final.state + 1 := (BitVec.sub_add_cancel ..).symm
    have refused : (final.state.memory.get (lastFetched final.state)).refusal? = some f.message := by
      rw [Word.refusal?_eq, held f rfl]
      rfl
    exact .faulted loadable ((faults f _).mpr ⟨rfl, rfl⟩) pc refused
  | interrupted | unending =>
    have running : final.state.running = true := by
      rw [← Bool.not_eq_false, ← stopped]
      exact nofun
    refine .interrupted loadable running fun f address fault => ?_
    cases ((faults f address).mp fault).1

/-- A run of images is reported so whatever console its machine is on. -/
theorem of_runProgram (m : Machine κ) (files : Files) (names : List String) (limit : Nat) :
    let ran := m.runProgram files names limit
    Reported files names (m.loadImages files names).2 limit ran.2.state (exitStatus ran.1)
      (decide (ran.1 = .completed)) ((complaint? ran.1).getD "") (closing ran.2.state ran.1) := by
  intro ran
  obtain ⟨loadable, loading⟩ | ⟨before, name, after, cause, split, earlier, unread, failed⟩ :=
    m.loadImages_cases files names
  · simp only [ran, runProgram_of_loaded loading]
    exact of_run loadable
  · have refused : Image.Refused files name cause.message :=
      Image.refused_iff.mpr ⟨cause, unread, rfl⟩
    simp only [ran, runProgram_of_not_loaded failed, complaint?_notLoaded]
    exact .notLoaded split earlier refused

theorem ne_of_head?_ne {a b : String} (heads : a.toList.head? ≠ b.toList.head?) : some a ≠ some b :=
  fun same => heads (congrArg (·.toList.head?) (Option.some.inj same))

theorem getLast?_errors_append (before : List Notice) (text : String) :
    (Notice.errors (before ++ [.error text])).getLast? = some text := by
  simp

variable {s : State} {status : Nat} {completed : Bool} {complaint : String} {closing : Notice}
  (reported : Reported files names loaded limit s status completed complaint closing)
  (before : List Notice)

include reported

/-- The first image that is refused is the one that is reported. -/
theorem of_first_refused {earlier later : List String} {name reason : String}
    (split : names = earlier ++ name :: later)
    (loadable : ∀ other ∈ earlier, Image.Loadable files other)
    (refused : Image.Refused files name reason) :
    status = 1 ∧ complaint = "failed to load image: " ++ name ++ " (" ++ reason ++ ")\n" ∧
      closing = .error ("failed to load image: " ++ name ++ " (" ++ reason ++ ")") := by
  obtain ⟨cause, unread, rfl⟩ := Image.refused_iff.mp refused
  have member : name ∈ names := by
    rw [split]
    simp
  have unloadable := Image.not_loadable_iff.mpr ⟨cause, unread⟩
  cases reported with
  | completed all | faulted all | interrupted all => exact absurd (all name member) unloadable
  | @notLoaded others rest other _ other_split all other_refused =>
    obtain ⟨other_cause, other_unread, rfl⟩ := Image.refused_iff.mp other_refused
    have first := loadImages_of_not_loadable (boot []) loadable unread later
    have same := loadImages_of_not_loadable (boot []) all other_unread rest
    rw [← split] at first
    rw [← other_split, first] at same
    obtain ⟨rfl, rfl⟩ : name = other ∧ cause = other_cause := by simpa using congrArg Prod.fst same
    exact ⟨rfl, rfl, rfl⟩

theorem of_status_zero (success : status = 0) :
    completed = true ∧ complaint = "" ∧ ∃ text, closing = .print text := by
  cases reported with
  | completed => exact ⟨rfl, rfl, _, rfl⟩
  | notLoaded | faulted | interrupted => cases success

theorem status_completed : status = 0 ↔ completed = true := by
  cases reported <;> simp

theorem status_notLoaded : status = 1 ↔
    completed = false ∧ ∃ name reason : String,
      (Notice.errors (before ++ [closing])).getLast? =
        some ("failed to load image: " ++ name ++ " (" ++ reason ++ ")") := by
  cases reported with
  | completed => simp
  | notLoaded => exact iff_of_true rfl ⟨rfl, _, _, getLast?_errors_append before _⟩
  | faulted | interrupted =>
    simp only [getLast?_errors_append]
    refine iff_of_false (by decide) ?_
    rintro ⟨_, name, reason, same⟩
    exact ne_of_head?_ne (by simp) same

theorem status_faulted : status = 3 ↔
    completed = false ∧ ∃ (address : Word) (message : String),
      (Notice.errors (before ++ [closing])).getLast? =
        some ("\nRuntime error:\n    memory " ++ address.hex ++ "\n" ++ message) := by
  cases reported with
  | completed => simp
  | faulted => exact iff_of_true rfl ⟨rfl, _, _, getLast?_errors_append before _⟩
  | notLoaded | interrupted =>
    simp only [getLast?_errors_append]
    refine iff_of_false (by decide) ?_
    rintro ⟨_, address, message, same⟩
    exact ne_of_head?_ne (by simp) same

theorem status_interrupted : status = 130 ↔
    completed = false ∧
      (Notice.errors (before ++ [closing])).getLast? = some "Keyboard Interrupt!" := by
  cases reported with
  | completed => simp
  | interrupted => exact iff_of_true rfl ⟨rfl, getLast?_errors_append before _⟩
  | notLoaded | faulted =>
    simp only [getLast?_errors_append]
    refine iff_of_false (by decide) ?_
    rintro ⟨_, same⟩
    exact ne_of_head?_ne (by simp) same

end Reported

/-- A process with this result and a cell that has left the state and given the notices agree about
the run of these images. -/
structure Agree (files : Files) (names : List String) (input : List UInt8) (limit : Nat)
    (result : CommandLine.Result) (completed : Bool) (s : State) (told : List Notice) : Prop where
  state : ∃ m, result.machine = some m ∧ m.state = s
  status_completed : result.status = 0 ↔ completed = true
  status_notLoaded : result.status = 1 ↔
    completed = false ∧ ∃ name reason : String, (Notice.errors told).getLast? =
      some ("failed to load image: " ++ name ++ " (" ++ reason ++ ")")
  status_faulted : result.status = 3 ↔
    completed = false ∧ ∃ (address : Word) (message : String), (Notice.errors told).getLast? =
      some ("\nRuntime error:\n    memory " ++ address.hex ++ "\n" ++ message)
  status_interrupted : result.status = 130 ↔
    completed = false ∧ (Notice.errors told).getLast? = some "Keyboard Interrupt!"
  /-- Before each of them ends with its report, the cell has given the warnings of the process and
  printed what the process has written. -/
  reports : ∃ before complaint closing, told = before ++ [closing] ∧
    Reported files names ((CommandLine.boot input).loadImages files names).2 limit s
      result.status completed complaint closing ∧
    Notice.errors before = Image.truncations files names ∧
    result.errors = String.join (Image.truncations files names) ++ complaint ∧
    Latin.encode (Notice.printed before) = .ok result.output

namespace Session

open CommandLine Machine Notebook

section Silent

variable {files : Files} {names : List String} (named : names ≠ []) (input : List UInt8)
  (limit : Nat)
  (silent : ∀ loaded, (boot input).loadImages files names = (none, loaded) → loaded.Silent limit)

include named silent

theorem agree_of_start (lines : List (Option String)) :
    let ran := (start.withLines lines).runImages files names limit
    Agree files names input limit (invoke files ("--" :: names) input limit) ran.1 ran.2.state
      ran.2.console.notices.toList := by
  intro ran
  have started : Related Echoes (boot input) (prepare (start.withLines lines)) :=
    ⟨rfl, ⟨rfl, rfl⟩, rfl⟩
  obtain ⟨same, ended⟩ := Simulation.runProgram Echoes.error simulation_echoes started
    files names limit fun loaded loading => (silent loaded loading).runObeys _
  obtain ⟨verdict, m, s, left, right, states, echoes⟩ := paired same ended
  have reported : ran = (decide (verdict = .completed), s.report (closing s.state verdict)) := by
    rw [← conclude_eq echoes.shows.pending]
    simp only [ran, runImages, right]
  have accepted : grammar.read ("--" :: names) = .accepted [] names :=
    Arguments.read_separator grammar rfl named
  obtain ⟨status, output, _, machine⟩ := invoke_of_accepted input files names accepted limit
  have errors := errors_of_accepted input files names accepted limit
  have warned := errors_runProgram_boot input files names limit
  have told := Reported.of_runProgram (boot input) files names limit
  rw [left] at status output errors machine warned told
  dsimp only at status output errors machine warned told
  rw [← echoes.errors] at warned
  rw [← status, states] at told
  rw [states] at machine
  have encoded := echoes.shows.encode
  rw [← output] at encoded
  have notices : ran.2.console.notices.toList =
      s.console.notices.toList ++ [closing s.state verdict] := by
    rw [reported]
    exact Array.toList_push
  rw [notices, reported]
  exact {
    state := machine
    status_completed := told.status_completed
    status_notLoaded := told.status_notLoaded _
    status_faulted := told.status_faulted _
    status_interrupted := told.status_interrupted _
    reports := ⟨_, _, _, rfl, told, warned, errors, encoded⟩ }

end Silent

end Session

end LittleComputer
