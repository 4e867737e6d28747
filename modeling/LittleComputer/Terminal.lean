/-! Terminal settings, and the mode in which a program sees every key as it is struck. The mode
turns echo and line buffering off and leaves the rest alone; it is left again however the
activity inside it ends. Where input is not a terminal there is nothing to change. -/
namespace LittleComputer.Terminal

structure Settings where
  echo : Bool
  /-- Whether input is handed over by lines. -/
  canonical : Bool
  signals : Bool
  extended : Bool
  returnToNewline : Bool
  postprocess : Bool
  /-- The number of bytes that a read waits for, and how long it waits. -/
  minimum : Nat
  timeout : Nat
  deriving DecidableEq, Repr

/-- Keys one at a time: no echo, no line buffering, and a read waits for one byte. -/
def Settings.keywise (s : Settings) : Settings :=
  { s with echo := false, canonical := false, minimum := 1, timeout := 0 }

/-- The device behind a console's input, with settings if it is a terminal. -/
structure Device where
  settings : Option Settings
  deriving DecidableEq, Repr

def Device.duringRaw (activity : Device → β × Device) (d : Device) : β × Device :=
  match d.settings with
  | none => activity d
  | some saved =>
    let (result, d) := activity { d with settings := some saved.keywise }
    (result, { d with settings := some saved })

end LittleComputer.Terminal
