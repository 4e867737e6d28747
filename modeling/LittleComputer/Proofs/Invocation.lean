import LittleComputer.CommandLine
import LittleComputer.Proofs.Endings
import LittleComputer.Proofs.Loading
import LittleComputer.Proofs.Transcript

/-! An invocation of the command line, taken apart into the run of its images on the process's own
streams and the report at its end. The images that were cut short are complained of before, and in
the order in which they are loaded. -/
namespace LittleComputer

namespace Pipe

/-- The console of a process whose standard input holds these bytes and then ends. -/
def ofInput (input : List UInt8) : Pipe := { keys := input, closed := true }

/-- Complaints are the only thing that they change. -/
theorem warned_eq (texts : List String) (p : Pipe) :
    let warned := Console.warned texts p
    warned.closed = p.closed ∧ warned.display = p.display ∧
      Notice.errors warned.notices.toList = Notice.errors p.notices.toList ++ texts := by
  induction texts generalizing p with
  | nil => simp [Console.warned]
  | cons text rest ih =>
    obtain ⟨closed, display, errors⟩ := ih (Console.report (.error text) p)
    refine ⟨closed, display, ?_⟩
    refine errors.trans ?_
    simp [Console.report]

end Pipe

namespace CommandLine

open Machine

/-- The machine of a process before anything is loaded into it. -/
def boot (input : List UInt8) : Machine Pipe := start (.ofInput input)

variable (input : List UInt8) (files : Files) (names : List String)

theorem console_loadImages_boot :
    let loaded := ((boot input).loadImages files names).2.console
    loaded.closed = true ∧ loaded.display = {} ∧
      Notice.errors loaded.notices.toList = Image.truncations files names := by
  intro loaded
  have told := console_loadImages (boot input) rfl files names
  obtain ⟨closed, display, errors⟩ :=
    Pipe.warned_eq (Image.truncations files names) (boot input).console
  rw [← told] at closed display errors
  exact ⟨closed, display, errors⟩

theorem state_loadImages_boot :
    ((boot input).loadImages files names).2.state =
      { State.initial with memory := ((boot input).loadImages files names).2.state.memory } :=
  state_loadImages (boot input) files names

/-- The word at 0x3000 is fetched first. -/
theorem word_loadImages_boot {w : Word}
    (held : ((boot input).loadImages files names).2.state.memory.get 0x3000 = w) :
    let loaded := ((boot input).loadImages files names).2
    loaded.state.running = true ∧ loaded.word = w := by
  intro loaded
  have fresh := state_loadImages_boot input files names
  have pc : loaded.state.pc = 0x3000 := by
    simp only [loaded]
    rw [fresh]
    rfl
  have elsewhere : loaded.state.pc ≠ keyboardStatus := by
    rw [pc]
    decide
  constructor
  · simp only [loaded]
    rw [fresh]
    rfl
  · rw [word_of_ne elsewhere, pc]
    exact held

theorem begins_loadImages_boot {name : String} {w : Word}
    (read : Image.ofFile files name = .ok ⟨0x3000, #[w]⟩) :
    let loaded := ((boot input).loadImages files [name]).2
    loaded.state.running = true ∧ loaded.word = w ∧ loaded.TextsEnd 1 := by
  intro loaded
  have memory : loaded.state.memory = Memory.blank.place 0x3000 #[w] := by
    simp only [loaded]
    rw [loadImages_of_ok _ read, loadImages, state_place]
    rfl
  have held : loaded.state.memory.get 0x3000 = w := by
    rw [memory, Memory.get_place]
    rfl
  have zero : loaded.state.memory.get 0 = 0 := by
    rw [memory, Memory.get_place, Memory.get_blank]
    rfl
  obtain ⟨running, word⟩ := word_loadImages_boot input files [name] held
  refine ⟨running, word, ?_⟩
  intro k below _ _
  obtain rfl := Nat.lt_one_iff.mp below
  exact ⟨0, zero⟩

theorem halts_loadImages_boot
    (held : ((boot input).loadImages files names).2.state.memory.get 0x3000 = 0xF025) :
    ((boot input).loadImages files names).2.Halts := by
  obtain ⟨running, word⟩ := word_loadImages_boot input files names held
  exact (haltsAt_zero running word).1

theorem complaint?_notLoaded (name : String) (cause : LoadError) :
    complaint? (.notLoaded name cause) =
      some ("failed to load image: " ++ name ++ " (" ++ cause.message ++ ")\n") := by
  have last : ")" ++ "\n" = ")\n" := by decide
  refine congrArg some (String.append_assoc.trans ?_)
  rw [last]

theorem conclude_report (m : Machine Pipe) (verdict : Verdict) :
    (conclude m verdict).2.state = m.state ∧
      (conclude m verdict).2.console.display = m.console.display ∧
      Notice.errors (conclude m verdict).2.console.notices.toList =
        Notice.errors m.console.notices.toList ++ (complaint? verdict).toList := by
  unfold conclude
  cases complaint? verdict with
  | none => simp
  | some text => exact ⟨rfl, rfl, by simp [report, Console.report]⟩

/-- What a process leaves behind once its images have been run. -/
theorem invoke_of_accepted {arguments : List String} {settings : List Unit}
    (accepted : grammar.read arguments = .accepted settings names) (limit : Nat) :
    let ran := (boot input).runProgram files names limit
    let result := invoke files arguments input limit
    result.status = exitStatus ran.1 ∧ result.output = ran.2.console.display.bytes.toList ∧
      result.errors = String.join
        (Notice.errors ran.2.console.notices.toList ++ (complaint? ran.1).toList) ∧
      ∃ m, result.machine = some m ∧ m.state = ran.2.state := by
  intro ran result
  obtain ⟨state, display, errors⟩ := conclude_report ran.2 ran.1
  have unfolded : result =
      ⟨exitStatus ran.1, (conclude ran.2 ran.1).2.console.display.bytes.toList,
        Notice.complaints (conclude ran.2 ran.1).2.console.notices.toList,
        some (conclude ran.2 ran.1).2⟩ := by
    simp only [result, invoke, accepted]
    rfl
  rw [unfolded]
  refine ⟨rfl, ?_, ?_, _, rfl, state⟩
  · rw [display]
  · rw [Notice.complaints_eq, errors]

/-- The program that runs is not heard in the complaints. -/
theorem errors_runProgram_boot (limit : Nat) :
    Notice.errors ((boot input).runProgram files names limit).2.console.notices.toList =
      Image.truncations files names := by
  obtain ⟨closed, _, warned⟩ := console_loadImages_boot input files names
  rcases loading : (boot input).loadImages files names with ⟨_ | failure, loaded⟩
  · rw [loading] at closed warned
    obtain ⟨_, kept⟩ := (Pipe.answering _).run ⟨closed, rfl⟩ limit
    rw [runProgram_of_loaded loading, kept, warned]
  · rw [loading] at warned
    rw [runProgram_of_not_loaded loading, warned]

/-- A process complains of the images that were cut short, and then of how it has ended. -/
theorem errors_of_accepted {arguments : List String} {settings : List Unit}
    (accepted : grammar.read arguments = .accepted settings names) (limit : Nat) :
    (invoke files arguments input limit).errors = String.join (Image.truncations files names) ++
      (complaint? ((boot input).runProgram files names limit).1).getD "" := by
  obtain ⟨_, _, errors, _⟩ := invoke_of_accepted input files names accepted limit
  rw [errors, errors_runProgram_boot, String.join_append]
  cases complaint? ((boot input).runProgram files names limit).1 with
  | none => rfl
  | some text => simp [String.join_cons]

end CommandLine

namespace Arguments

variable {α : Type} (g : Grammar α)

theorem proceed_plain (texts : List String) (p : Progress α) (opened : p.group = .open) :
    g.proceed (texts.map .plain) p = .ok { p with operands := p.operands ++ texts } := by
  induction texts generalizing p with
  | nil => simp [Grammar.proceed]
  | cons text rest ih =>
    have added : p.addPlain text = { p with operands := p.operands ++ [text] } := by
      rcases p with ⟨given, settings, operands, group, surplus⟩
      obtain rfl : group = .open := opened
      rfl
    rw [List.map_cons, Grammar.proceed, added]
    rw [ih { p with operands := p.operands ++ [text] } opened]
    simp

/-- After a separator all arguments are operands, whatever they look like. -/
theorem read_separator {label : String} (takes : g.operands = some label) {texts : List String}
    (some_text : texts ≠ []) : g.read ("--" :: texts) = .accepted [] texts := by
  obtain ⟨first, rest, rfl⟩ := List.exists_cons_of_ne_nil some_text
  have added : (⟨[], [], [], .ahead, []⟩ : Progress α).addPlain first =
      ⟨[], [], [first], .open, []⟩ := rfl
  have separated : (⟨[], [], [], .ahead, []⟩ : Progress α).addSeparator true =
      ⟨[], [], [], .ahead, []⟩ := rfl
  have proceeded := proceed_plain g rest ⟨[], [], [first], .open, []⟩ rfl
  simp only [Grammar.read, Grammar.tokens, if_true, takes, Option.isSome_some, List.map_cons,
    Grammar.proceed, List.isEmpty_cons, Bool.not_false, separated, added, proceeded]
  simp [Grammar.finish, takes]

end Arguments

end LittleComputer
