import LittleComputer.Word

/-! The services that a program calls by a trap, and the vectors that name them. -/
namespace LittleComputer

inductive Service where
  | getc | out | puts | prompt | putsp | halt
  deriving DecidableEq, Repr

namespace Service

def all : List Service := [.getc, .out, .puts, .prompt, .putsp, .halt]

def vector : Service → BitVec 8
  | .getc => 0x20
  | .out => 0x21
  | .puts => 0x22
  | .prompt => 0x23
  | .putsp => 0x24
  | .halt => 0x25

def ofVector? (v : BitVec 8) : Option Service := all.find? (·.vector == v)

def name : Service → String
  | .getc => "GETC"
  | .out => "OUT"
  | .puts => "PUTS"
  | .prompt => "IN"
  | .putsp => "PUTSP"
  | .halt => "HALT"

theorem ofVector?_vector (s : Service) : ofVector? s.vector = some s := by cases s <;> decide

theorem vector_of_ofVector? {v : BitVec 8} {s : Service} (h : ofVector? v = some s) :
    s.vector = v := by
  simpa using List.find?_some h

theorem ofVector?_eq_some_iff {v : BitVec 8} {s : Service} :
    ofVector? v = some s ↔ v = s.vector :=
  ⟨fun h => (vector_of_ofVector? h).symm, fun h => h ▸ ofVector?_vector s⟩

end Service

end LittleComputer
