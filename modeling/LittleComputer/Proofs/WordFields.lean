import LittleComputer.Instruction

/-! Words told by their numbers. The fields of an instruction word are quotients and remainders of
the number that it is: the operation code, two registers and two offsets from minus half a span up
to half of it. Decoding a word finds the same fields. -/
namespace LittleComputer

namespace Word

/-- The operation code, which stands in the top four bits. -/
def code (w : Word) : Nat := w.toNat / 4096

/-- The register from bit 9 up. -/
def reg9 (w : Word) : Reg := BitVec.ofNat 3 (w.toNat / 512)

/-- The register from bit 6 up. -/
def reg6 (w : Word) : Reg := BitVec.ofNat 3 (w.toNat / 64)

/-- The lowest nine bits as a signed number, modulo the size of memory. -/
def offset9 (w : Word) : Word := BitVec.ofInt 16 ((w.toNat : Int).bmod 512)

/-- The lowest six bits as a signed number, modulo the size of memory. -/
def offset6 (w : Word) : Word := BitVec.ofInt 16 ((w.toNat : Int).bmod 64)

end Word

theorem Opcode.number_ofWord_eq_code (w : Word) : (ofWord w).number = w.code := by
  rw [number_ofWord, BitVec.extractLsb'_toNat, Nat.shiftRight_eq_div_pow]
  exact Nat.mod_eq_of_lt (by have := w.isLt; omega)

namespace Instruction

theorem targetField_eq_reg9 (w : Word) : targetField w = w.reg9 :=
  congrArg (BitVec.ofNat 3) (Nat.shiftRight_eq_div_pow w.toNat 9)

theorem baseField_eq_reg6 (w : Word) : baseField w = w.reg6 :=
  congrArg (BitVec.ofNat 3) (Nat.shiftRight_eq_div_pow w.toNat 6)

theorem toInt_extractLsb'_zero (w : Word) (width : Nat) :
    (w.extractLsb' 0 width).toInt = (w.toNat : Int).bmod (1 <<< width) := by
  rw [BitVec.toInt_eq_toNat_bmod, BitVec.extractLsb'_toNat, Nat.shiftRight_zero,
    Nat.one_shiftLeft, Int.natCast_emod, Int.emod_bmod]

theorem reach_offset9 (a w : Word) : reach a (w.extractLsb' 0 9) = a + w.offset9 := by
  rw [reach, BitVec.signExtend, toInt_extractLsb'_zero]
  rfl

theorem reach_offset6 (a w : Word) : reach a (w.extractLsb' 0 6) = a + w.offset6 := by
  rw [reach, BitVec.signExtend, toInt_extractLsb'_zero]
  rfl

theorem decode_eq_trap_iff {w : Word} {vector : BitVec 8} :
    decode w = .trap vector ↔ w.code = 15 ∧ w.toNat % 256 = vector.toNat := by
  have low : (w.extractLsb' 0 8).toNat = w.toNat % 256 := BitVec.extractLsb'_toNat ..
  unfold decode ofFields
  rw [← Opcode.number_ofWord_eq_code, ← low, BitVec.toNat_inj]
  cases Opcode.ofWord w with
  | jsr => cases w.getLsbD 11 <;> simp [Opcode.number]
  | _ => simp [Opcode.number]

end Instruction

end LittleComputer
