import LittleComputer.Console
import LittleComputer.Text.Latin

/-! A console inside a notebook. Output gathers until a flush prints it as one text. Keys come
from lines that the user types into an input prompt: a line is asked for only when a key is
awaited and none is left, and its characters are then handed out one at a time. -/
namespace LittleComputer

structure Notebook where
  queue : List UInt8 := []
  pending : Array UInt8 := #[]
  /-- The lines that the user will type; `none` is an interruption instead of a line. -/
  lines : List (Option String) := []
  notices : Array Notice := #[]

namespace Notebook

/-- Replaces each backslash followed by an `n` with a newline. -/
def unescape : List Char → List Char
  | '\\' :: 'n' :: rest => '\n' :: unescape rest
  | c :: rest => c :: unescape rest
  | [] => []

/-- The keys that a typed line stands for. An empty line is the Enter key alone. -/
def keysOf (line : String) : List UInt8 :=
  match unescape line.toList with
  | [] => [10]
  | cs => cs.map Latin.byte

def flush (nb : Notebook) : Notebook :=
  if nb.pending.isEmpty then nb
  else { nb with
    pending := #[]
    notices := nb.notices.push (.print (Latin.decode nb.pending.toList)) }

def poll (nb : Notebook) : Option Key × Notebook :=
  match nb.queue with
  | [] => (none, nb)
  | b :: rest => (some (.byte b), { nb with queue := rest })

/-- Asks the user for a line, which becomes the queue. -/
def ask (nb : Notebook) : Option (List UInt8) × Notebook :=
  let nb := { nb with notices := nb.notices.push (.input "") }
  match nb.lines with
  | [] => (none, nb)
  | none :: rest => (none, { nb with lines := rest })
  | some line :: rest => (some (keysOf line), { nb with lines := rest })

def read (nb : Notebook) : Answer × Notebook :=
  match nb.queue with
  | b :: rest => (.key (.byte b), { nb with queue := rest })
  | [] =>
    match nb.flush.ask with
    | (some (b :: rest), nb) => (.key (.byte b), { nb with queue := rest })
    | (_, nb) => (.interrupted, nb)

instance : Console Notebook where
  poll := poll
  read := read
  write bs nb := { nb with pending := nb.pending ++ bs }
  flush := flush
  report n nb := { nb with notices := nb.notices.push n }

theorem keysOf_ne_nil (line : String) : keysOf line ≠ [] := by
  unfold keysOf
  cases unescape line.toList <;> simp

@[simp] theorem pending_flush (nb : Notebook) : nb.flush.pending = #[] := by
  unfold flush
  split <;> simp_all

@[simp] theorem queue_flush (nb : Notebook) : nb.flush.queue = nb.queue := by
  unfold flush
  split <;> rfl

@[simp] theorem lines_flush (nb : Notebook) : nb.flush.lines = nb.lines := by
  unfold flush
  split <;> rfl

theorem ready_iff (nb : Notebook) : Console.ready nb = true ↔ nb.queue ≠ [] := by
  rcases nb with ⟨_ | ⟨b, rest⟩, _, _, _⟩ <;> simp [Console.ready, Console.poll, poll]

end Notebook

end LittleComputer
