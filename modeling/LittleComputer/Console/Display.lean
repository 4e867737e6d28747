import LittleComputer.Console

/-! The output side of a console that keeps every byte written to it. -/
namespace LittleComputer

structure Display where
  bytes : Array UInt8 := #[]
  /-- How many of the bytes a flush has made visible. -/
  visible : Nat := 0
  flushes : Nat := 0
  deriving DecidableEq

namespace Display

def write (bs : List UInt8) (d : Display) : Display := { d with bytes := d.bytes ++ bs }

def flush (d : Display) : Display :=
  { d with visible := d.bytes.size, flushes := d.flushes + 1 }

@[simp] theorem toList_write (bs : List UInt8) (d : Display) :
    (d.write bs).bytes.toList = d.bytes.toList ++ bs := by
  simp [write]

@[simp] theorem bytes_flush (d : Display) : d.flush.bytes = d.bytes := rfl

@[simp] theorem visible_flush (d : Display) : d.flush.visible = d.flush.bytes.size := rfl

end Display

end LittleComputer
