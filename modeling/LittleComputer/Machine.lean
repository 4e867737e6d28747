import LittleComputer.Console
import LittleComputer.Machine.State

/-! A machine is a state beside a console. Two addresses are wired to the console's keyboard:
loading from the status address polls for a key and leaves what it found in the status and data
cells before the status cell is read. Stores and raw reads see these cells as plain memory. -/
namespace LittleComputer

structure Machine (κ : Type) where
  state : State
  console : κ

namespace Machine

def keyboardStatus : Word := 0xFE00
def keyboardData : Word := 0xFE02

def keyReady : Word := 0x8000

def start (console : κ) : Machine κ := ⟨.initial, console⟩

def map (f : State → State) (m : Machine κ) : Machine κ := { m with state := f m.state }

def reset (m : Machine κ) : Machine κ := { m with state := .initial }

variable [Console κ]

def write (bytes : List UInt8) (m : Machine κ) : Machine κ :=
  { m with console := Console.write bytes m.console }

def flush (m : Machine κ) : Machine κ := { m with console := Console.flush m.console }

def report (n : Notice) (m : Machine κ) : Machine κ :=
  { m with console := Console.report n m.console }

/-- Records what a poll found in the two keyboard cells. -/
def latch (found : Option Key) (s : State) : State :=
  match found with
  | some key => (s.store keyboardStatus keyReady).store keyboardData key.word
  | none => s.store keyboardStatus 0

def pollKeyboard (m : Machine κ) : Machine κ :=
  let (found, console) := Console.poll m.console
  { m with state := latch found m.state, console }

/-- Reads a word as the machine's own instructions do. -/
def load (m : Machine κ) (a : Word) : Word × Machine κ :=
  let m := if a = keyboardStatus then m.pollKeyboard else m
  (m.state.memory.get a, m)

@[simp] theorem load_of_ne (m : Machine κ) {a : Word} (h : a ≠ keyboardStatus) :
    m.load a = (m.state.memory.get a, m) := by simp [load, h]

theorem load_of_poll_none (m : Machine κ) {console : κ}
    (poll : Console.poll m.console = (none, console)) :
    m.load keyboardStatus = (0, { m with console }.map (·.store keyboardStatus 0)) := by
  simp [load, pollKeyboard, latch, poll, map, State.store]

theorem load_of_poll_some (m : Machine κ) {key : Key} {console : κ}
    (poll : Console.poll m.console = (some key, console)) :
    m.load keyboardStatus =
      (keyReady, ({ m with console }.map (·.store keyboardStatus keyReady)).map
        (·.store keyboardData key.word)) := by
  have apart : keyboardData ≠ keyboardStatus := by decide
  simp [load, pollKeyboard, latch, poll, map, State.store, Memory.get_set_of_ne _ _ apart]

/-- Whatever was stored there, the status address reads as ready or as zero. -/
theorem load_keyboardStatus (m : Machine κ) :
    (m.load keyboardStatus).1 = if Console.ready m.console then keyReady else 0 := by
  rcases poll : Console.poll m.console with ⟨_ | key, console⟩
  · simp [load_of_poll_none m poll, Console.ready, poll]
  · simp [load_of_poll_some m poll, Console.ready, poll]

end Machine

end LittleComputer
