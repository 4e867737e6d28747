import LittleComputer.Console.Display

/-! A console in memory: its keys are prepared beforehand, more can be added at any time, and
running out of them is not the end. A poll of an empty tape finds nothing; waiting on one gives
the mark of the end instead. -/
namespace LittleComputer

structure Tape where
  keys : List UInt8 := []
  display : Display := {}
  notices : Array Notice := #[]

namespace Tape

def feed (bs : List UInt8) (t : Tape) : Tape := { t with keys := t.keys ++ bs }

def poll (t : Tape) : Option Key × Tape :=
  match t.keys with
  | [] => (none, t)
  | b :: rest => (some (.byte b), { t with keys := rest })

def read (t : Tape) : Answer × Tape :=
  match t.keys with
  | [] => (.key .endOfInput, t)
  | b :: rest => (.key (.byte b), { t with keys := rest })

instance : Console Tape where
  poll := poll
  read := read
  write bs t := { t with display := t.display.write bs }
  flush t := { t with display := t.display.flush }
  report n t := { t with notices := t.notices.push n }

end Tape

end LittleComputer
