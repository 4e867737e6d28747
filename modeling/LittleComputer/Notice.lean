/-! What a machine and its host tell the user besides the program's own output: printed text,
complaints, and prompts for a line of input, in the order in which they appeared. -/
namespace LittleComputer

inductive Notice where
  | print (text : String)
  | error (text : String)
  | input (prompt : String)
  deriving DecidableEq, Repr

namespace Notice

/-- Whether anything can be seen of the notice. A prompt is seen even without text. -/
def visible : Notice → Bool
  | .print text | .error text => !text.isEmpty
  | .input _ => true

/-- Adds a notice in front of a log, as one piece with a print that it precedes. -/
def cons : Notice → List Notice → List Notice
  | .print text, .print next :: rest => .print (text ++ next) :: rest
  | notice, rest => notice :: rest

/-- The notices as they are seen: invisible ones dropped and neighbouring prints joined. -/
def log (notices : List Notice) : List Notice := (notices.filter visible).foldr cons []

def complaints (notices : List Notice) : String :=
  String.join (notices.filterMap fun
    | .error text => some text
    | _ => none)

end Notice

end LittleComputer
