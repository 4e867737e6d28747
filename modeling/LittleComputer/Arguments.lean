import LittleComputer.Text.Digit
import LittleComputer.Text.Quoted

/-! Command lines. A grammar lists the options of a program and says whether it takes operands.
Options are written `--word`, `--word=value` or by any beginning of a word that no other option
shares; the help option also has a letter. Arguments are first told apart, which fails on a
beginning that several options share, and then acted upon from left to right; help ends this at
once. The operands are the first uninterrupted group of plain arguments, and whatever else is
left over is refused at the end. After a separator `--` all arguments are plain; a separator
that an option has for its value is dropped. -/
namespace LittleComputer.Arguments

inductive Effect (α : Type) where
  | help
  | set (setting : α)
  | setTo (setting : String → α)

structure Choice (α : Type) where
  letter : Option Char := none
  word : String
  effect : Effect α
  /-- Whether the option excludes the others that are marked so. -/
  exclusive : Bool := false

structure Grammar (α : Type) where
  program : String
  usage : String
  help : String
  choices : List (Choice α)
  /-- The name of the operands, of which there is at least one. -/
  operands : Option String := none

inductive Refusal where
  | ambiguous (argument : String) (candidates : List String)
  | expectedValue (label : String)
  | unexpectedValue (label value : String)
  | conflict (label earlier : String)
  | missingOperands (name : String)
  | unrecognized (arguments : List String)
  deriving DecidableEq, Repr

def Refusal.message : Refusal → String
  | .ambiguous argument candidates =>
    "ambiguous option: " ++ argument ++ " could match " ++ ", ".intercalate candidates
  | .expectedValue label => "argument " ++ label ++ ": expected one argument"
  | .unexpectedValue label value =>
    "argument " ++ label ++ ": ignored explicit argument " ++ Quoted.quoted value
  | .conflict label earlier =>
    "argument " ++ label ++ ": not allowed with argument " ++ earlier
  | .missingOperands name => "the following arguments are required: " ++ name
  | .unrecognized arguments => "unrecognized arguments: " ++ " ".intercalate arguments

inductive Reading (α : Type) where
  | help
  | refused (r : Refusal)
  | accepted (settings : List α) (operands : List String)

namespace Choice

def long (c : Choice α) : String := "--" ++ c.word

def label (c : Choice α) : String :=
  match c.letter with
  | some letter => "-" ++ letter.toString ++ "/" ++ c.long
  | none => c.long

def takesValue (c : Choice α) : Bool :=
  match c.effect with
  | .setTo _ => true
  | _ => false

end Choice

/-- The value of an option that is written with an equals sign: a separator leaves no text. -/
def attached (value : String) : String := if value = "--" then "" else value

/-- An argument told apart from the others. -/
inductive Token (α : Type) where
  | separator
  | plain (text : String)
  | unknown (text : String)
  | word (choice : Choice α) (value : Option String)
  | letter (choice : Choice α) (value : Option (List Char))

namespace Grammar

def byLetter? (g : Grammar α) (letter : Char) : Option (Choice α) :=
  g.choices.find? fun c => c.letter == some letter && !c.takesValue

/-- The options that a beginning of a word can stand for; a whole word stands for its own. -/
def byWord (g : Grammar α) (beginning : String) : List (Choice α) :=
  match g.choices.find? (·.word == beginning) with
  | some c => [c]
  | none => g.choices.filter (·.word.startsWith beginning)

/-- An argument that is like an option but is none. -/
def leftover (argument : String) : Token α :=
  if Digit.isNegativeNumber argument.toList || argument.contains ' ' then .plain argument
  else .unknown argument

/-- A word as far as its first equals sign, and what follows that sign. -/
def splitValue (text : List Char) : String × Option String :=
  let word := text.takeWhile (· != '=')
  (String.ofList word,
    match text.dropWhile (· != '=') with
    | _ :: value => some (String.ofList value)
    | [] => none)

def token (g : Grammar α) (argument : String) : Except Refusal (Token α) :=
  match argument.toList with
  | '-' :: '-' :: rest =>
    let (word, value) := splitValue rest
    match g.byWord word with
    | [] => .ok (leftover argument)
    | [c] => .ok (.word c value)
    | candidates => .error (.ambiguous argument (candidates.map (·.long)))
  | '-' :: letter :: rest =>
    match g.byLetter? letter, rest with
    | none, _ => .ok (leftover argument)
    | some c, [] => .ok (.letter c none)
    | some c, '=' :: value => .ok (.letter c (some value))
    | some c, value => .ok (.letter c (some value))
  | _ => .ok (.plain argument)

def tokens (g : Grammar α) : List String → Except Refusal (List (Token α))
  | [] => .ok []
  | argument :: rest =>
    if argument = "--" then .ok (.separator :: rest.map .plain)
    else do
      let t ← g.token argument
      let ts ← g.tokens rest
      return t :: ts

/-- The options that a letter and the letters after it stand for. -/
def cluster (g : Grammar α) (c : Choice α) : List Char → Except Refusal (List (Choice α))
  | [] => .ok [c]
  | letter :: rest =>
    match g.byLetter? letter with
    | some next => (g.cluster next rest).map (c :: ·)
    | none => .error (.unexpectedValue c.label (String.ofList (letter :: rest)))

def letters (g : Grammar α) (c : Choice α) : Option (List Char) → Except Refusal (List (Choice α))
  | none => .ok [c]
  | some [] => .error (.unexpectedValue c.label "")
  | some letters => g.cluster c letters

end Grammar

/-- Which part of the command line the operands are in. -/
inductive Group where
  | ahead
  | open
  | closed
  deriving DecidableEq, Repr

structure Progress (α : Type) where
  given : List (Choice α) := []
  settings : List α := []
  operands : List String := []
  group : Group
  surplus : List String := []

/-- What ends the reading before the last argument. -/
inductive Ending where
  | help
  | refused (r : Refusal)

namespace Progress

def leaveGroup (p : Progress α) : Progress α :=
  if p.group = .open then { p with group := .closed } else p

def addSurplus (p : Progress α) (text : String) : Progress α :=
  { p with surplus := p.surplus ++ [text] }

def addPlain (p : Progress α) (text : String) : Progress α :=
  match p.group with
  | .closed => p.addSurplus text
  | _ => { p with operands := p.operands ++ [text], group := .open }

/-- A separator vanishes in a group of operands, and in front of one. -/
def addSeparator (p : Progress α) (more : Bool) : Progress α :=
  match p.group with
  | .closed => p.addSurplus "--"
  | .open => p
  | .ahead => if more then p else p.addSurplus "--"

/-- An option given earlier that excludes this one. -/
def conflict? (p : Progress α) (c : Choice α) : Option (Choice α) :=
  if c.exclusive then p.given.find? fun d => d.exclusive && d.word != c.word else none

def act (p : Progress α) (c : Choice α) (value : String) : Except Ending (Progress α) :=
  match p.conflict? c with
  | some earlier => .error (.refused (.conflict c.label earlier.label))
  | none =>
    let p := { p with given := p.given ++ [c] }
    match c.effect with
    | .help => .error .help
    | .set setting => .ok { p with settings := p.settings ++ [setting] }
    | .setTo setting => .ok { p with settings := p.settings ++ [setting value] }

def actAll (p : Progress α) (cs : List (Choice α)) : Except Ending (Progress α) :=
  cs.foldlM (fun p c => p.act c "") p

end Progress

namespace Grammar

def proceed (g : Grammar α) : List (Token α) → Progress α → Except Ending (Progress α)
  | [], p => .ok p
  | .separator :: rest, p => g.proceed rest (p.addSeparator !rest.isEmpty)
  | .plain text :: rest, p => g.proceed rest (p.addPlain text)
  | .unknown text :: rest, p => g.proceed rest (p.leaveGroup.addSurplus text)
  | .letter c value :: rest, p =>
    match g.letters c value with
    | .error r => .error (.refused r)
    | .ok cs =>
      match p.leaveGroup.actAll cs with
      | .error e => .error e
      | .ok p => g.proceed rest p
  | .word c value :: rest, p =>
    match c.takesValue, value with
    | false, some value => .error (.refused (.unexpectedValue c.label value))
    | false, none =>
      match p.leaveGroup.act c "" with
      | .error e => .error e
      | .ok p => g.proceed rest p
    | true, some value =>
      match p.leaveGroup.act c (attached value) with
      | .error e => .error e
      | .ok p => g.proceed rest p
    | true, none =>
      match rest with
      | .plain value :: rest =>
        match p.leaveGroup.act c value with
        | .error e => .error e
        | .ok p => g.proceed rest p
      | _ => .error (.refused (.expectedValue c.label))

def finish (g : Grammar α) (p : Progress α) : Reading α :=
  match g.operands, p.operands with
  | some name, [] => .refused (.missingOperands name)
  | _, operands =>
    if p.surplus.isEmpty then .accepted p.settings operands
    else .refused (.unrecognized p.surplus)

def read (g : Grammar α) (arguments : List String) : Reading α :=
  match g.tokens arguments with
  | .error r => .refused r
  | .ok ts =>
    match g.proceed ts { group := if g.operands.isSome then .ahead else .closed } with
    | .error .help => .help
    | .error (.refused r) => .refused r
    | .ok p => g.finish p

def refusalText (g : Grammar α) (r : Refusal) : String :=
  g.usage ++ "\n" ++ g.program ++ ": error: " ++ r.message ++ "\n"

end Grammar

end LittleComputer.Arguments
