import LittleComputer.Word

/-! The eight general registers. -/
namespace LittleComputer

/-- The three-bit number of a general register, as it stands in an instruction. -/
abbrev Reg := BitVec 3

structure Registers where
  words : Vector Word 8
  deriving DecidableEq

namespace Registers

def cleared : Registers := ⟨Vector.replicate 8 0⟩

def get (rs : Registers) (r : Reg) : Word := rs.words[r.toNat]

def set (rs : Registers) (r : Reg) (w : Word) : Registers := ⟨rs.words.set r.toNat w⟩

def toList (rs : Registers) : List Word := rs.words.toList

@[simp] theorem get_cleared (r : Reg) : cleared.get r = 0 := by simp [get, cleared]

@[simp] theorem get_set_self (rs : Registers) (r : Reg) (w : Word) : (rs.set r w).get r = w := by
  simp [get, set]

theorem get_set_of_ne (rs : Registers) {r s : Reg} (w : Word) (h : r ≠ s) :
    (rs.set r w).get s = rs.get s := by
  have h' : r.toNat ≠ s.toNat := fun e => h (BitVec.eq_of_toNat_eq e)
  simp [get, set, h']

theorem get_set (rs : Registers) (r s : Reg) (w : Word) :
    (rs.set r w).get s = if r = s then w else rs.get s := by
  split
  · next h => subst h; exact get_set_self ..
  · next h => exact get_set_of_ne _ _ h

/-- Register files that agree on every register are equal. -/
theorem ext_get {rs ss : Registers} (h : ∀ r, rs.get r = ss.get r) : rs = ss := by
  rcases rs with ⟨rs⟩
  rcases ss with ⟨ss⟩
  congr 1
  ext i hi : 1
  simpa [get, BitVec.toNat_ofNat, Nat.mod_eq_of_lt hi] using h (BitVec.ofNat 3 i)

end Registers

end LittleComputer
