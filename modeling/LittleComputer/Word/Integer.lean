import LittleComputer.Word

/-! Word arithmetic on integers of any size and sign, read in two's complement of unlimited
width. Only the results that a rule masks are brought back to sixteen bits: a value whose sign
bit is clear passes through `signed` and `signExtend` as it is. -/
namespace LittleComputer.Integer

/-- A field of less than one bit has no sign bit to look at. -/
inductive FieldError where
  | noSignBit
  deriving DecidableEq, Repr

def FieldError.message : FieldError → String
  | .noSignBit => "negative shift count"

/-- The number of values that `width` bits can take. -/
def span (width : Nat) : Int := (1 <<< width : Nat)

/-- The bits that two integers have in common. A negative number has the bits that its complement
lacks. -/
def land : Int → Int → Int
  | .ofNat m, .ofNat n => ((m &&& n : Nat) : Int)
  | .ofNat m, .negSucc n => ((m ^^^ (m &&& n) : Nat) : Int)
  | .negSucc m, .ofNat n => ((n ^^^ (n &&& m) : Nat) : Int)
  | .negSucc m, .negSucc n => .negSucc (m ||| n)

def lor (a b : Int) : Int := ~~~land (~~~a) (~~~b)

def bit (v : Int) (position : Nat) : Bool := land v (span position) != 0

def truncate (v : Int) : Int := land v 0xFFFF

/-- The reading of `v` as a signed word when bit 15 is set, and `v` itself when it is clear. -/
def signed (v : Int) : Int := if bit v 15 then -truncate (~~~truncate v + 1) else v

/-- Fills the bits of a word above a field of `width` bits with ones when the field's top bit is
set. Bits of `v` above the field are ignored in that case and kept in the other. -/
def extend (v : Int) (width : Nat) : Int :=
  if bit v (width - 1) then truncate (lor v (0xFFFF <<< width : Nat)) else v

def signExtend (v width : Int) : Except FieldError Int :=
  if width < 1 then .error .noSignBit else .ok (extend v width.toNat)

def plus (a b : Int) : Int := truncate (a + b)

def hex (v : Int) : String := (Word.ofInt v).hex

theorem ofInt_not (width : Nat) (a : Int) :
    BitVec.ofInt width (~~~a) = ~~~BitVec.ofInt width a := by
  cases a with
  | ofNat m => exact BitVec.ofInt_negSucc_eq_not_ofNat
  | negSucc m =>
    rw [BitVec.ofInt_negSucc_eq_not_ofNat, BitVec.not_not]
    exact BitVec.ofInt_natCast width m

/-- Whatever the width at which two integers are seen, they have in common what is seen of both. -/
theorem ofInt_land (width : Nat) (a b : Int) :
    BitVec.ofInt width (land a b) = BitVec.ofInt width a &&& BitVec.ofInt width b := by
  have without (m n : Nat) : BitVec.ofInt width ((m ^^^ (m &&& n) : Nat) : Int) =
      BitVec.ofNat width m &&& ~~~BitVec.ofNat width n := by
    rw [BitVec.ofInt_natCast, BitVec.ofNat_xor, BitVec.ofNat_and]
    ext i hi
    rw [BitVec.getElem_xor, BitVec.getElem_and, BitVec.getElem_and, BitVec.getElem_not]
    cases (BitVec.ofNat width m)[i] <;> simp
  cases a with
  | ofNat m =>
    cases b with
    | ofNat n => exact (BitVec.ofInt_natCast width _).trans BitVec.ofNat_and
    | negSucc n =>
      rw [BitVec.ofInt_negSucc_eq_not_ofNat]
      exact without m n
  | negSucc m =>
    cases b with
    | ofNat n =>
      rw [BitVec.ofInt_negSucc_eq_not_ofNat, BitVec.and_comm]
      exact without n m
    | negSucc n =>
      simp only [land, BitVec.ofInt_negSucc_eq_not_ofNat, BitVec.ofNat_or, BitVec.not_or]

theorem ofInt_lor (width : Nat) (a b : Int) :
    BitVec.ofInt width (lor a b) = BitVec.ofInt width a ||| BitVec.ofInt width b := by
  rw [lor, ofInt_not, ofInt_land, ofInt_not, ofInt_not, BitVec.not_and, BitVec.not_not,
    BitVec.not_not]

theorem land_toNat (v : Int) (mask : BitVec width) :
    land v mask.toNat = (BitVec.ofInt width v &&& mask).toNat := by
  have bounded : ∃ u : Nat, land v mask.toNat = u ∧ u < 2 ^ width := by
    cases v with
    | ofNat m => exact ⟨m &&& mask.toNat, rfl, Nat.lt_of_le_of_lt Nat.and_le_right mask.isLt⟩
    | negSucc m =>
      exact ⟨mask.toNat ^^^ (mask.toNat &&& m), rfl,
        Nat.xor_lt_two_pow mask.isLt (Nat.lt_of_le_of_lt Nat.and_le_left mask.isLt)⟩
  obtain ⟨u, eq, small⟩ := bounded
  have seen := ofInt_land width v mask.toNat
  rw [eq, BitVec.ofInt_natCast, BitVec.ofInt_natCast, BitVec.ofNat_toNat, BitVec.setWidth_eq]
    at seen
  rw [eq, ← seen, BitVec.toNat_ofNat, Nat.mod_eq_of_lt small]

theorem bit_eq_getLsbD (v : Int) {position width : Nat} (inside : position < width) :
    bit v position = (BitVec.ofInt width v).getLsbD position := by
  have mask : span position = (BitVec.twoPow width position).toNat := by
    rw [span, Nat.one_shiftLeft, BitVec.toNat_twoPow_of_lt inside]
  have nonzero : (2 : Int) ^ position ≠ 0 := Int.pow_ne_zero (by decide)
  rw [bit, mask, land_toNat, BitVec.and_twoPow]
  cases (BitVec.ofInt width v).getLsbD position <;>
    simp [BitVec.toNat_twoPow_of_lt inside, nonzero]

theorem toNat_ofInt (v : Int) : ((Word.ofInt v).toNat : Int) = truncate v := by
  have masked : truncate v = (Word.ofInt v &&& BitVec.allOnes 16).toNat :=
    land_toNat v (BitVec.allOnes 16)
  rw [masked, BitVec.and_allOnes]

theorem truncate_eq (v : Int) : truncate v = v % 65536 := by
  rw [← toNat_ofInt, Word.ofInt, BitVec.toNat_ofInt]
  omega

end LittleComputer.Integer
