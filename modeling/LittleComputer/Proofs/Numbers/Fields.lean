import LittleComputer.Instruction
import LittleComputer.Proofs.Numbers

/-! The fields of a word as numbers, and sums and conjunctions of words as operations on
integers. -/
namespace LittleComputer.Numbers

theorem span_eq (width : Nat) : Integer.span width = ((2 ^ width : Nat) : Int) := by
  simp [Integer.span, Nat.shiftLeft_eq]

theorem field_toNat (w : Word) (high low : Nat) :
    field w.toNat high low = (w.extractLsb' low (high + 1 - low)).toNat := by
  simp only [field, span_eq, BitVec.extractLsb'_toNat, Nat.shiftRight_eq_div_pow]
  norm_cast

theorem field_bit (w : Word) (i : Nat) : field w.toNat i i = if w.getLsbD i then 1 else 0 := by
  rw [field_toNat, Nat.add_sub_cancel_left, BitVec.extractLsb'_toNat, BitVec.getLsbD,
    Nat.testBit_eq_decide_div_mod_eq, Nat.shiftRight_eq_div_pow, pow_one]
  have := Nat.mod_two_eq_zero_or_one (w.toNat / 2 ^ i)
  split <;> simp_all

theorem field_target (w : Word) : field w.toNat 11 9 = (Instruction.targetField w).toNat :=
  field_toNat w 11 9

theorem field_base (w : Word) : field w.toNat 8 6 = (Instruction.baseField w).toNat :=
  field_toNat w 8 6

theorem field_opcode (w : Word) : field w.toNat 15 12 = (Opcode.ofWord w).number := by
  rw [Opcode.number_ofWord]
  exact field_toNat w 15 12

theorem signedField_toNat (w : Word) {width : Nat} (positive : 0 < width) :
    signedField w.toNat width = (w.extractLsb' 0 width).toInt := by
  cases width with
  | zero => contradiction
  | succ rest =>
    simp only [signedField, field_toNat, span_eq, BitVec.toInt_eq_toNat_cond,
      Nat.add_sub_cancel, Nat.sub_zero, pow_succ]
    split <;> split <;> omega

theorem toNat_reach (a : Word) (offset : BitVec width) (narrow : width ≤ 16) :
    ((reach a offset).toNat : Int) = (a.toNat + offset.toInt) % 65536 := by
  have extended : (offset.signExtend 16).toInt = offset.toInt :=
    BitVec.toInt_signExtend_of_le narrow
  rw [← extended, BitVec.toInt_eq_toNat_cond, reach, BitVec.toNat_add]
  split <;> omega

theorem toNat_complement (w : Word) : ((~~~ w).toNat : Int) = 65535 - w.toNat := by
  rw [BitVec.toNat_not]
  omega

/-- A negative number has ones in all the bits above a word, so it keeps those that a sign
extension would. -/
theorem land_toInt (a b : Word) : (a.toNat : Int).land b.toInt = (a &&& b).toNat := by
  rw [BitVec.toInt_eq_toNat_cond]
  split
  · rfl
  · have complement : (b.toNat : Int) - (2 ^ 16 : Nat) = Int.negSucc (~~~ b).toNat := by
      rw [Int.negSucc_eq, toNat_complement]
      omega
    rw [complement]
    change ((Nat.ldiff a.toNat (~~~ b).toNat : Nat) : Int) = _
    congr 1
    apply Nat.eq_of_testBit_eq
    intro i
    have outside : 16 ≤ i → a.toNat.testBit i = false := BitVec.getLsbD_of_ge a i
    rw [Nat.testBit_ldiff, BitVec.testBit_toNat, BitVec.testBit_toNat, BitVec.testBit_toNat,
      BitVec.getLsbD_not, BitVec.getLsbD_and]
    by_cases i < 16 <;> simp_all

theorem sign_toNat (w : Word) : sign w.toNat = (Condition.ofWord w).toNat := by
  by_cases zero : w = 0
  · subst zero
    rfl
  · have nonzero : (w.toNat : Int) ≠ 0 := by
      intro h
      exact zero (BitVec.eq_of_toNat_eq (by simpa using h))
    unfold sign Condition.ofWord
    rw [if_neg zero, if_neg nonzero, BitVec.msb_eq_decide]
    by_cases low : w.toNat < 32768
    · rw [if_pos (by omega), decide_eq_false (by omega)]
      rfl
    · rw [if_neg (by omega), decide_eq_true (by omega)]
      rfl

/-- The marks of a branch select the condition that its mask has a bit in common with. A code of
several bits would have more than one mark to answer to. -/
theorem meets_iff (w cond : Word)
    (valid : cond = Condition.positive ∨ cond = Condition.zero ∨ cond = Condition.negative) :
    meets w.toNat cond.toNat = true ↔ (w.extractLsb' 9 3).setWidth 16 &&& cond ≠ 0 := by
  have marks : w.getLsbD 9 = (w.extractLsb' 9 3).getLsbD 0 ∧
      w.getLsbD 10 = (w.extractLsb' 9 3).getLsbD 1 ∧
      w.getLsbD 11 = (w.extractLsb' 9 3).getLsbD 2 := by simp
  simp only [meets, field_bit, marks]
  generalize w.extractLsb' 9 3 = mask
  rcases valid with rfl | rfl | rfl <;> revert mask <;> decide

theorem table_toNat (f : BitVec width → Word) (a : BitVec width) :
    table f a.toNat = (f a).toNat := by
  have bound : (a.toNat : Int) < Integer.span width := by
    rw [span_eq]
    exact_mod_cast a.isLt
  simp [table, bound]

theorem table_update (f : BitVec width → Word) (a : BitVec width) (w : Word) :
    table (Function.update f a w) = Function.update (table f) a.toNat w.toNat := by
  funext i
  by_cases same : i = a.toNat
  · subst same
    rw [table_toNat, Function.update_self, Function.update_self]
  · rw [Function.update_of_ne same]
    unfold table
    split
    · next inside =>
      have apart : BitVec.ofInt width i ≠ a := by
        rintro rfl
        rw [span_eq] at inside
        apply same
        have positive := Nat.two_pow_pos width
        rw [BitVec.toNat_ofInt, Int.toNat_of_nonneg (Int.emod_nonneg _ (by omega)),
          Int.emod_eq_of_lt inside.1 inside.2]
      rw [Function.update_of_ne apart]
    · rfl

theorem table_injective {f g : BitVec width → Word} (h : table f = table g) : f = g := by
  funext a
  apply BitVec.eq_of_toNat_eq
  have entry := congrFun h a.toNat
  rw [table_toNat, table_toNat] at entry
  exact_mod_cast entry

end LittleComputer.Numbers
