import LittleComputer.CommandLine

/-! The command-line program. Standard input is read to its end before the machine starts, and
output is shown whenever the machine has made another round of steps. -/
namespace LittleComputer.Main

def readFile (path : String) : IO (Except FileError (Array UInt8)) := do
  if path.contains '\x00' then return .error .embeddedNull
  try
    return .ok (← IO.FS.readBinFile path).data
  catch
    | .inappropriateType .. => return .error (.isFolder path)
    | _ => return .error (.missing path)

partial def readAll (input : IO.FS.Stream) (soFar : ByteArray) : IO ByteArray := do
  let more ← input.read 65536
  if more.isEmpty then return soFar else readAll input (soFar ++ more)

/-- Runs the machine to its end, a round of steps at a time. -/
partial def drive (output : IO.FS.Stream) (m : Machine Pipe) : IO (Outcome × Machine Pipe) := do
  let (outcome, m) := m.run 10000
  output.write ⟨m.console.display.bytes⟩
  output.flush
  let m := { m with console := { m.console with display := {} } }
  if outcome = .interrupted then drive output m else return (outcome, m)

end LittleComputer.Main

open LittleComputer Main in
def main (arguments : List String) : IO UInt32 := do
  match CommandLine.grammar.read arguments with
  | .help =>
    IO.print CommandLine.helpText
    return 0
  | .refused r =>
    IO.eprint (CommandLine.grammar.refusalText r)
    return 2
  | .accepted _ names =>
    let found ← names.mapM fun name => return (name, ← readFile name)
    let files : Files := fun path => (found.lookup path).getD (.error (.missing path))
    let input ← readAll (← IO.getStdin) .empty
    let console : Pipe := { keys := input.toList, closed := true }
    let (verdict, m) ← match (Machine.start console).loadImages files names with
      | (some (name, cause), m) => pure (.notLoaded name cause, m)
      | (none, m) => do
        let (outcome, m) ← drive (← IO.getStdout) m
        pure (Machine.verdict m.state outcome, m)
    let (status, m) := CommandLine.conclude m verdict
    IO.eprint (Notice.complaints m.console.notices.toList)
    return status.toUInt32
