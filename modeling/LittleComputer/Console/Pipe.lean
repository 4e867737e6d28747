import LittleComputer.Console.Display

/-! A console at the end of a pipe. Until the far end is closed an empty pipe has nothing to
poll, and waiting on it does not end; once it is closed, the end of input is itself a key, which
can be polled and read any number of times. -/
namespace LittleComputer

structure Pipe where
  keys : List UInt8 := []
  closed : Bool := false
  display : Display := {}
  notices : Array Notice := #[]

namespace Pipe

def feed (bs : List UInt8) (p : Pipe) : Pipe := { p with keys := p.keys ++ bs }

def close (p : Pipe) : Pipe := { p with closed := true }

def poll (p : Pipe) : Option Key × Pipe :=
  match p.keys with
  | [] => (if p.closed then some .endOfInput else none, p)
  | b :: rest => (some (.byte b), { p with keys := rest })

def read (p : Pipe) : Answer × Pipe :=
  match p.keys with
  | [] => (if p.closed then .key .endOfInput else .never, p)
  | b :: rest => (.key (.byte b), { p with keys := rest })

instance : Console Pipe where
  poll := poll
  read := read
  write bs p := { p with display := p.display.write bs }
  flush p := { p with display := p.display.flush }
  report n p := { p with notices := p.notices.push n }

end Pipe

end LittleComputer
