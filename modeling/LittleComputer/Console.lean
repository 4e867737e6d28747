import LittleComputer.Word
import LittleComputer.Notice

/-! What a machine needs of a console: to poll the keyboard without waiting, to wait for a key,
to write bytes, and to make what was written visible. The console also carries the machine's
reports to the user. -/
namespace LittleComputer

/-- A key is a byte, or the mark that no more bytes will come. -/
inductive Key where
  | byte (b : UInt8)
  | endOfInput
  deriving DecidableEq, Repr

namespace Key

def word : Key → Word
  | .byte b => Word.ofByte b
  | .endOfInput => 0xFFFF

def echo (k : Key) : UInt8 := k.word.low

def code : Key → Int
  | .byte b => b.toNat
  | .endOfInput => -1

@[simp] theorem echo_byte (b : UInt8) : (byte b).echo = b := Word.low_ofByte b

theorem ofInt_code (k : Key) : Word.ofInt k.code = k.word := by
  rcases k with ⟨⟨b⟩⟩ | _
  · apply BitVec.eq_of_toNat_eq
    simp [code, word, Word.ofInt, Word.ofByte]
  · rfl

end Key

/-- What waiting for a key leads to: a key, an interruption by the user, or no end of waiting. -/
inductive Answer where
  | key (k : Key)
  | interrupted
  | never
  deriving DecidableEq, Repr

class Console (κ : Type) where
  /-- Takes a key if one is there, without waiting. -/
  poll : κ → Option Key × κ
  /-- Waits for a key. -/
  read : κ → Answer × κ
  write : List UInt8 → κ → κ
  /-- Makes everything written so far visible. -/
  flush : κ → κ
  report : Notice → κ → κ

def Console.ready [Console κ] (c : κ) : Bool := (Console.poll c).1.isSome

end LittleComputer
