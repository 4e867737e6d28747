/-! Machine words: sixteen bits, their two bytes, and their written form, an `x` followed by
four upper-case hexadecimal digits. -/
namespace LittleComputer

abbrev Word := BitVec 16

namespace Word

/-- The word congruent to an integer modulo `2 ^ 16`. -/
def ofInt (v : Int) : Word := BitVec.ofInt 16 v

def ofBytes (high low : UInt8) : Word := high.toBitVec ++ low.toBitVec

def ofByte (b : UInt8) : Word := b.toBitVec.setWidth 16

def low (w : Word) : UInt8 := ⟨w.extractLsb' 0 8⟩

def high (w : Word) : UInt8 := ⟨w.extractLsb' 8 8⟩

def hexDigit (d : BitVec 4) : Char :=
  Char.ofNat (if d.toNat < 10 then '0'.toNat + d.toNat else 'A'.toNat + (d.toNat - 10))

def hexDigits (w : Word) : List Char :=
  [hexDigit (w.extractLsb' 12 4), hexDigit (w.extractLsb' 8 4),
    hexDigit (w.extractLsb' 4 4), hexDigit (w.extractLsb' 0 4)]

def hex (w : Word) : String := String.ofList ('x' :: hexDigits w)

theorem getLsbD_ofBytes (high low : UInt8) (i : Nat) :
    (ofBytes high low).getLsbD i =
      if i < 8 then low.toBitVec.getLsbD i else high.toBitVec.getLsbD (i - 8) :=
  BitVec.getLsbD_append

@[simp] theorem low_ofBytes (high low : UInt8) : Word.low (ofBytes high low) = low := by
  rcases low with ⟨low⟩
  simp only [Word.low, UInt8.ofBitVec.injEq]
  ext i hi
  simp [getLsbD_ofBytes, hi, ← BitVec.getLsbD_eq_getElem]

@[simp] theorem high_ofBytes (high low : UInt8) : Word.high (ofBytes high low) = high := by
  rcases high with ⟨high⟩
  simp only [Word.high, UInt8.ofBitVec.injEq]
  ext i hi
  simp [getLsbD_ofBytes, hi, ← BitVec.getLsbD_eq_getElem]

@[simp] theorem ofBytes_high_low (w : Word) : ofBytes w.high w.low = w := by
  simp only [ofBytes, Word.high, Word.low]
  exact BitVec.extractLsb'_append_extractLsb'

@[simp] theorem low_ofByte (b : UInt8) : Word.low (ofByte b) = b := by
  rcases b with ⟨b⟩
  simp only [Word.low, ofByte, UInt8.ofBitVec.injEq]
  ext i hi
  simp [← BitVec.getLsbD_eq_getElem, BitVec.getLsbD_setWidth, show i < 16 by omega, hi]

@[simp] theorem length_hexDigits (w : Word) : (hexDigits w).length = 4 := rfl

end Word

end LittleComputer
