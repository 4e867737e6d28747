import LittleComputer.Machine.Load
import LittleComputer.Machine.Step

/-! Running a program: its images are loaded in order and the machine runs until it halts, a
fault stops it, or the user does. Nothing runs if an image cannot be loaded. -/
namespace LittleComputer

inductive Verdict where
  | completed
  | notLoaded (name : String) (cause : LoadError)
  | faulted (address : Word) (f : Fault)
  | interrupted
  deriving DecidableEq, Repr

namespace Machine

/-- The address before the program counter, which is that of the instruction begun last unless
it has jumped. -/
def lastFetched (s : State) : Word := s.pc - 1

/-- The verdict on a run that left the state behind. An instruction that would go on for ever is
left only when the user breaks in. -/
def verdict (s : State) : Outcome → Verdict
  | .done => .completed
  | .fault f => .faulted (lastFetched s) f
  | .interrupted | .unending => .interrupted

variable {κ : Type} [Console κ]

def runProgram (m : Machine κ) (files : Files) (names : List String) (limit : Nat) :
    Verdict × Machine κ :=
  match m.loadImages files names with
  | (some (name, cause), m) => (.notLoaded name cause, m)
  | (none, m) =>
    let (outcome, m) := m.run limit
    (verdict m.state outcome, m)

theorem lastFetched_advance (s : State) : lastFetched s.advance = s.pc := by
  exact BitVec.add_sub_cancel _ _

end Machine

end LittleComputer
