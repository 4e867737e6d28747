import LittleComputer.Instruction
import LittleComputer.Word.Integer
import Mathlib.Data.Int.ModEq

/-! Masks, complements and fills as arithmetic. What an integer is read as depends on its residue
alone, and filling above a field is the sign extension of its bits, so the laws of words of fixed
width decide those of the integers that stand for them. -/
namespace LittleComputer.Integer

theorem not_eq (a : Int) : ~~~a = -a - 1 := by
  cases a with
  | ofNat m =>
    change Int.negSucc m = -(m : Int) - 1
    rw [Int.negSucc_eq]
    omega
  | negSucc m =>
    change (m : Int) = -Int.negSucc m - 1
    rw [Int.negSucc_eq]
    omega

theorem bit_fifteen (v : Int) : bit v 15 = decide (32768 ≤ v % 65536) := by
  have top : bit v 15 = (Word.ofInt v).msb :=
    (bit_eq_getLsbD v (Nat.lt_succ_self 15)).trans (BitVec.msb_eq_getLsbD_last _).symm
  rw [top, BitVec.msb_eq_decide, ← truncate_eq, ← toNat_ofInt, decide_eq_decide]
  omega

theorem signed_eq (v : Int) : signed v = if 32768 ≤ v % 65536 then v % 65536 - 65536 else v := by
  rw [signed, bit_fifteen]
  by_cases upper : 32768 ≤ v % 65536
  · rw [decide_eq_true upper, if_pos rfl, if_pos upper, not_eq, truncate_eq, truncate_eq]
    omega
  · rw [decide_eq_false upper, if_neg Bool.false_ne_true, if_neg upper]

theorem signed_emod (v : Int) : signed v % 65536 = v % 65536 := by
  rw [signed_eq]
  split <;> omega

theorem truncate_signed (v : Int) : truncate (signed v) = truncate v := by
  rw [truncate_eq, truncate_eq, signed_emod]

theorem plus_eq_truncate_signed (a b : Int) : plus a b = truncate (signed a + signed b) := by
  rw [plus, truncate_eq, truncate_eq, Int.add_emod a, Int.add_emod (signed a), signed_emod,
    signed_emod]

theorem eq_signed_truncate_iff (v n : Int) :
    n = signed (truncate v) ↔ -32768 ≤ n ∧ n ≤ 32767 ∧ n ≡ v [ZMOD 2 ^ 16] := by
  rw [signed_eq, truncate_eq, Int.emod_emod, Int.ModEq]
  split <;> omega

theorem signed_toNat (w : Word) : signed w.toNat = w.toInt := by
  have bound : w.toNat < 65536 := w.isLt
  rw [signed_eq, BitVec.toInt_eq_toNat_cond]
  split <;> split <;> omega

theorem extend_of_clear (clear : bit v (width - 1) = false) : extend v width = v := by
  rw [extend, clear, if_neg Bool.false_ne_true]

theorem extend_of_set (set : bit v (width - 1) = true) :
    extend v width = (Word.ofInt v ||| BitVec.allOnes 16 <<< width).toNat := by
  have fill : BitVec.ofNat 16 (0xFFFF <<< width) = BitVec.allOnes 16 <<< width := by
    apply BitVec.eq_of_toNat_eq
    rw [BitVec.toNat_ofNat, BitVec.toNat_shiftLeft]
    rfl
  rw [extend, if_pos set, ← toNat_ofInt, Word.ofInt, ofInt_lor, BitVec.ofInt_natCast, fill,
    Word.ofInt]

/-- Filling a filled word changes nothing. Whether it is filled again depends on the width: the top
bit of a field of more than sixteen bits is lost in the first extension. -/
theorem extend_extend (v : Int) (width : Nat) : extend (extend v width) width = extend v width := by
  cases first : bit v (width - 1) with
  | false => rw [extend_of_clear first, extend_of_clear first]
  | true =>
    cases second : bit (extend v width) (width - 1) with
    | false => exact extend_of_clear second
    | true =>
      rw [extend_of_set second, extend_of_set first, Word.ofInt, BitVec.ofInt_natCast,
        BitVec.ofNat_toNat, BitVec.setWidth_eq, BitVec.or_assoc, BitVec.or_self]

section Field

variable {width : Nat} (field : BitVec width) (positive : 1 ≤ width)

include positive

theorem bit_toNat_top : bit field.toNat (width - 1) = field.msb := by
  have inside : width - 1 < width := by omega
  rw [bit_eq_getLsbD _ inside, BitVec.ofInt_natCast, BitVec.ofNat_toNat, BitVec.setWidth_eq,
    BitVec.msb_eq_getLsbD_last]

theorem extend_toNat (narrow : width ≤ 16) :
    extend field.toNat width = (field.signExtend 16).toNat := by
  have top := bit_toNat_top field positive
  cases sign : field.msb with
  | false =>
    rw [extend_of_clear (top.trans sign), BitVec.signExtend_eq_setWidth_of_msb_false sign,
      BitVec.toNat_setWidth_of_le narrow]
  | true =>
    have filled : field.setWidth 16 ||| BitVec.allOnes 16 <<< width = field.signExtend 16 := by
      apply BitVec.eq_of_getLsbD_eq
      intro i hi
      rw [BitVec.getLsbD_or, BitVec.getLsbD_setWidth, BitVec.getLsbD_shiftLeft,
        BitVec.getLsbD_allOnes, BitVec.getLsbD_signExtend, sign]
      by_cases inside : i < width
      · simp [hi, inside]
      · have above : i - width < 16 := by omega
        simp [hi, inside, above]
    rw [extend_of_set (top.trans sign), Word.ofInt, BitVec.ofInt_natCast, BitVec.ofNat_toNat,
      filled]

theorem signed_extend (narrow : width ≤ 16) : signed (extend field.toNat width) = field.toInt := by
  rw [extend_toNat field positive narrow, signed_toNat, BitVec.toInt_signExtend_of_le narrow]

theorem extend_extend_emod (wider : width ≤ c) (narrow : c ≤ 16) :
    extend (extend field.toNat width % 2 ^ c) c = extend field.toNat width := by
  have cut : (field.signExtend 16).setWidth c = field.signExtend c := by
    apply BitVec.eq_of_getLsbD_eq
    intro i hi
    have inside : i < 16 := by omega
    rw [BitVec.getLsbD_setWidth, BitVec.getLsbD_signExtend, BitVec.getLsbD_signExtend]
    simp [hi, inside]
  have again : (field.signExtend c).signExtend 16 = field.signExtend 16 := by
    apply BitVec.eq_of_toInt_eq
    rw [BitVec.toInt_signExtend_of_le narrow, BitVec.toInt_signExtend_of_le wider,
      BitVec.toInt_signExtend_of_le (wider.trans narrow)]
  have seen : ((field.signExtend 16).toNat : Int) % 2 ^ c = (field.signExtend c).toNat := by
    rw [← cut, BitVec.toNat_setWidth]
    norm_cast
  rw [extend_toNat field positive (wider.trans narrow), seen,
    extend_toNat _ (positive.trans wider) narrow, again]

end Field

theorem exists_field {x : Int} (nonneg : 0 ≤ x) (small : x < 2 ^ width) :
    ∃ field : BitVec width, x = field.toNat := by
  lift x to ℕ using nonneg
  have fits : x < 2 ^ width := by exact_mod_cast small
  exact ⟨BitVec.ofNat width x, by rw [BitVec.toNat_ofNat, Nat.mod_eq_of_lt fits]⟩

theorem toInt_field (field : BitVec width) (positive : 1 ≤ width) :
    field.toInt = if 2 ^ (width - 1) ≤ (field.toNat : Int) then (field.toNat : Int) - 2 ^ width
      else field.toNat := by
  obtain ⟨rest, rfl⟩ := Nat.exists_eq_add_of_le' positive
  have power (n : ℕ) : (2 : ℤ) ^ n = (2 ^ n : ℕ) := by norm_cast
  rw [BitVec.toInt_eq_toNat_cond, power, power, Nat.add_sub_cancel, pow_succ]
  split <;> split <;> omega

theorem signExtend_of_positive {width : Nat} (x : Int) (positive : 1 ≤ width) :
    signExtend x width = .ok (extend x width) := by
  rw [signExtend, if_neg (by omega), Int.toNat_natCast]

/-- Words are integers modulo `2 ^ 16`: truncation takes the residue, the signed reading after it is
the only congruent number in the range of a signed word, and sums do not depend on the readings that
are added. Extending twice is extending once. A field extends to a word that reads as the field does
in two's complement, also when it is cut to a wider field on the way and extended from there. -/
theorem arithmetic_is_twos_complement :
    (∀ v : Int, truncate v = v % 2 ^ 16 ∧
      (∀ n : Int, n = signed (truncate v) ↔ -32768 ≤ n ∧ n ≤ 32767 ∧ n ≡ v [ZMOD 2 ^ 16]) ∧
      truncate (signed v) = truncate v) ∧
    (∀ a b : Int, plus a b = truncate (signed a + signed b)) ∧
    ∀ width : Nat, 1 ≤ width → ∀ x : Int, ∃ e, signExtend x width = .ok e ∧
      signExtend e width = .ok e ∧
      (width ≤ 16 → 0 ≤ x → x < 2 ^ width →
        0 ≤ e ∧ e ≤ 65535 ∧
        signed e = (if 2 ^ (width - 1) ≤ x then x - 2 ^ width else x) ∧
        ∀ c : Nat, width ≤ c → c ≤ 16 → signExtend (e % 2 ^ c) c = .ok e) := by
  refine ⟨?_, plus_eq_truncate_signed, ?_⟩
  · intro v
    exact ⟨truncate_eq v, eq_signed_truncate_iff v, truncate_signed v⟩
  · intro width positive x
    refine ⟨extend x width, signExtend_of_positive x positive, ?_, ?_⟩
    · rw [signExtend_of_positive _ positive, extend_extend]
    · intro narrow nonneg small
      obtain ⟨field, rfl⟩ := exists_field nonneg small
      have bound := (field.signExtend 16).isLt
      have word := extend_toNat field positive narrow
      refine ⟨by omega, by omega, ?_, ?_⟩
      · rw [signed_extend field positive narrow, toInt_field field positive]
      · intro c wider within
        rw [signExtend_of_positive _ (positive.trans wider),
          extend_extend_emod field positive wider within]

/-- The least number of nine bits, taken from a field of eleven on its way. -/
theorem arithmetic_is_twos_complement_of_least :
    (0x100 : Int) < 2 ^ 9 ∧ signExtend 0x100 9 = .ok 0xFF00 ∧ signed 0xFF00 = 0x100 - 2 ^ 9 ∧
      signExtend (0xFF00 % 2 ^ 11) 11 = .ok 0xFF00 := by
  obtain ⟨e, extended, _, small⟩ := arithmetic_is_twos_complement.2.2 9 (by decide) 0x100
  obtain rfl : 0xFF00 = e := Except.ok.inj extended
  obtain ⟨_, _, value, widened⟩ := small (by decide) (by decide) (by decide)
  exact ⟨by decide, extended, value, widened 11 (by decide) (by decide)⟩

end LittleComputer.Integer
