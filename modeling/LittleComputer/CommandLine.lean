import LittleComputer.Arguments
import LittleComputer.Console.Pipe
import LittleComputer.Machine.Program

/-! The command line: the images named by the arguments are loaded into a new machine, which
runs on the process's own streams. The exit status tells how the run ended. -/
namespace LittleComputer.CommandLine

open Arguments

def usage : String := "usage: lc3vm [-h] IMAGE [IMAGE ...]"

def helpText : String :=
  usage ++ "\n\n" ++
  "Run LC-3 object images. Execution starts at x3000.\n\n" ++
  "positional arguments:\n" ++
  "  IMAGE       object file(s), loaded in the order given\n\n" ++
  "options:\n" ++
  "  -h, --help  show this help message and exit\n"

def grammar : Grammar Unit where
  program := "lc3vm"
  usage := usage
  help := helpText
  choices := [{ letter := some 'h', word := "help", effect := .help }]
  operands := some "IMAGE"

def exitStatus : Verdict → Nat
  | .completed => 0
  | .notLoaded .. => 1
  | .faulted .. => 3
  | .interrupted => 130

def complaint? : Verdict → Option String
  | .completed => none
  | .notLoaded name cause => some (cause.report name ++ "\n")
  | .faulted address f => some ("\nRuntime error at " ++ address.hex ++ ": " ++ f.message ++ "\n")
  | .interrupted => some "\nKeyboard Interrupt!\n"

def conclude (m : Machine κ) [Console κ] (verdict : Verdict) : Nat × Machine κ :=
  (exitStatus verdict,
    match complaint? verdict with
    | some text => m.report (.error text)
    | none => m)

/-- What a process leaves behind. The machine is there if the arguments were accepted. -/
structure Result where
  status : Nat
  output : List UInt8
  errors : String
  machine : Option (Machine Pipe)

/-- The outcome of `lc3vm` with these arguments, on a standard input that holds these bytes. -/
def invoke (files : Files) (arguments : List String) (input : List UInt8) (limit : Nat) :
    Result :=
  match grammar.read arguments with
  | .help => ⟨0, helpText.toUTF8.toList, "", none⟩
  | .refused r => ⟨2, [], grammar.refusalText r, none⟩
  | .accepted _ names =>
    let console : Pipe := { keys := input, closed := true }
    let (verdict, m) := (Machine.start console).runProgram files names limit
    let (status, m) := conclude m verdict
    ⟨status, m.console.display.bytes.toList, Notice.complaints m.console.notices.toList, some m⟩

end LittleComputer.CommandLine
