import LittleComputer.Arguments

/-! Installing the kernel's specification where a notebook server finds it. The arguments choose
one of three places; the installation itself is left to whoever receives the request. -/
namespace LittleComputer.Installer

open Arguments

/-- Where a specification goes: to the user's place or not, and below which directory. -/
structure Destination where
  user : Bool := true
  directory : Option String := none
  deriving DecidableEq, Repr

/-- A specification to be installed under a name, as a directory with one file. -/
structure Request where
  name : String
  destination : Destination
  replace : Bool
  /-- The permissions of the directory. -/
  mode : String
  fileName : String
  contents : String
  deriving DecidableEq, Repr

/-- The interpreter and the directory that the running system belongs to. -/
structure Host where
  executable : String
  directory : String

/-- A text between double quotes, for texts that need no escapes. -/
def jsonText (text : String) : String := "\"" ++ text ++ "\""

def specification (host : Host) : String :=
  "\x7b" ++ jsonText "argv" ++ ": [" ++
    ", ".intercalate ([host.executable, "-m", "lc3vm.kernel", "-f", "\x7bconnection_file\x7d"].map
      jsonText) ++
    "], " ++ jsonText "display_name" ++ ": " ++ jsonText "LC3 VM" ++ ", " ++
    jsonText "language" ++ ": " ++ jsonText "lc3" ++ "\x7d"

def announcement : String := "Installing Jupyter kernel spec\n"

def request (host : Host) (destination : Destination) : Request where
  name := "lc3vm"
  destination := destination
  replace := true
  mode := "755"
  fileName := "kernel.json"
  contents := specification host

inductive Setting where
  | forUser
  | forSystem
  | into (directory : String)
  deriving DecidableEq, Repr

def usage : String := "usage: python -m lc3vm.install [-h] [--user | --sys-prefix | --prefix DIR]"

def helpText : String :=
  usage ++ "\n\n" ++
  "Install the LC3 VM Jupyter kernel spec.\n\n" ++
  "options:\n" ++
  "  -h, --help    show this help message and exit\n" ++
  "  --user        install for the current user (default)\n" ++
  "  --sys-prefix  install into sys.prefix, e.g. a virtualenv or conda env\n" ++
  "  --prefix DIR  install into the given prefix\n"

def grammar : Grammar Setting where
  program := "python -m lc3vm.install"
  usage := usage
  help := helpText
  choices :=
    [{ letter := some 'h', word := "help", effect := .help },
      { word := "user", effect := .set .forUser, exclusive := true },
      { word := "sys-prefix", effect := .set .forSystem, exclusive := true },
      { word := "prefix", effect := .setTo .into, exclusive := true }]

/-- The system's own directory if it was asked for; else the last directory given, unless that
is empty; else the user's. -/
def destination (host : Host) (settings : List Setting) : Destination :=
  if settings.contains .forSystem then ⟨false, some host.directory⟩
  else
    match settings.reverse.findSome? fun | .into directory => some directory | _ => none with
    | some directory => if directory = "" then {} else ⟨false, some directory⟩
    | none => {}

structure Result where
  status : Nat
  output : String
  errors : String
  requests : List Request

def invoke (host : Host) (arguments : List String) : Result :=
  match grammar.read arguments with
  | .help => ⟨0, helpText, "", []⟩
  | .refused r => ⟨2, "", grammar.refusalText r, []⟩
  | .accepted settings _ =>
    ⟨0, announcement, "", [request host (destination host settings)]⟩

end LittleComputer.Installer
