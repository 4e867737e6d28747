import LittleComputer.Console.Notebook
import LittleComputer.Machine.Program
import LittleComputer.Machine.Summary
import LittleComputer.Text.Blank

/-! Notebook sessions. Each cell that names images runs them on the session's machine, which is
reset first; what was typed ahead for an earlier cell is forgotten, too. The end of the run is
reported after the program's own output, with a summary of the registers if it completed. -/
namespace LittleComputer

/-- What a kernel tells a notebook about itself. -/
structure KernelInfo where
  implementation : String
  implementationVersion : String
  language : String
  languageVersion : String
  banner : String
  languageName : String
  mimeType : String
  fileExtension : String
  deriving DecidableEq, Repr

abbrev Session := Machine Notebook

inductive Cell where
  | code (text : String)
  | file (name : String)
  | images (names : List String)
  deriving DecidableEq, Repr

namespace Session

def info : KernelInfo where
  implementation := "lc3vm"
  implementationVersion := "1.0"
  language := "LC3"
  languageVersion := "0.1"
  banner := "LC3 virtual machine - runs LC-3 object images"
  languageName := "lc3"
  mimeType := "text/plain"
  fileExtension := ".obj"

def usage : String :=
  "This is the LC3 virtual machine Jupyter kernel.\n\n" ++
  "Enter the paths of one or more LC-3 object (.obj) images, separated by\n" ++
  "spaces or newlines. The machine is reset, the images are loaded in order\n" ++
  "(later images overwrite earlier ones) and the program runs from x3000 until\n" ++
  "it HALTs.\n\n" ++
  "GETC and IN read from an input prompt; the keyboard status register (xFE00)\n" ++
  "only reports characters left over from earlier input.\n"

def start : Session := Machine.start {}

/-- The lines that the user will type from now on. -/
def withLines (s : Session) (lines : List (Option String)) : Session :=
  { s with console := { s.console with lines } }

def prepare (s : Session) : Session :=
  { s with state := .initial, console := { s.console with queue := [] } }

def completionText (s : State) : String :=
  rule ++ "\nComputation completed\n" ++ rule ++ "\nInstructions: " ++ toString s.count ++ "\n" ++
    s.summary

def faultText (address : Word) (f : Fault) : String :=
  "\nRuntime error:\n    memory " ++ address.hex ++ "\n" ++ f.message

/-- Reports how a run ended, and says whether it completed. -/
def conclude (s : Session) : Verdict → Bool × Session
  | .completed => (true, s.report (.print (completionText s.state)))
  | .notLoaded name cause => (false, s.report (.error (cause.report name)))
  | .faulted address f => (false, s.flush.report (.error (faultText address f)))
  | .interrupted => (false, s.flush.report (.error "Keyboard Interrupt!"))

def runImages (s : Session) (files : Files) (names : List String) (limit : Nat) :
    Bool × Session :=
  let (verdict, s) := (prepare s).runProgram files names limit
  conclude s verdict

end Session

namespace Cell

/-- The images that a cell names. A cell of blanks names none. -/
def names : Cell → List String
  | .code text => Blank.words text
  | .file name => [name]
  | .images names => names

/-- Runs a cell; only a list of images is answered by whether the run completed. -/
def run (cell : Cell) (s : Session) (files : Files) (limit : Nat) : Option Bool × Session :=
  match cell, cell.names with
  | .code _, [] => (none, s)
  | .images _, names =>
    let (completed, s) := s.runImages files names limit
    (some completed, s)
  | _, names => (none, (s.runImages files names limit).2)

end Cell

end LittleComputer
