import LittleComputer.Word

/-! The `2 ^ 16` words of memory, one for each address. A block of words is placed from an
origin upwards and never wraps round the top; a text is read from an address up to the first
zero word, and reading does wrap. -/
namespace LittleComputer

structure Memory where
  cells : Vector Word 65536

namespace Memory

def blank : Memory := ⟨Vector.replicate 65536 0⟩

def get (mem : Memory) (a : Word) : Word := mem.cells[a.toNat]

def set (mem : Memory) (a w : Word) : Memory := ⟨mem.cells.set a.toNat w⟩

def ofFn (f : Fin 65536 → Word) : Memory := ⟨Vector.ofFn f⟩

/-- The number of words that fit from `origin` up to the top of memory. -/
def room (origin : Word) : Nat := 65536 - origin.toNat

/-- Puts `words` into the cells from `origin` on; those beyond the top are dropped. -/
def place (mem : Memory) (origin : Word) (words : Array Word) : Memory :=
  ofFn fun a =>
    if origin.toNat ≤ a.val then words[a.val - origin.toNat]?.getD (mem.cells[a]) else mem.cells[a]

/-- Looks for a zero word at the distances `distance`, `distance + 1`, … from `a`. -/
def zeroFrom (mem : Memory) (a : Word) : (fuel distance : Nat) → Option Nat
  | 0, _ => none
  | fuel + 1, distance =>
    if mem.get (a + BitVec.ofNat 16 distance) = 0 then some distance
    else zeroFrom mem a fuel (distance + 1)

/-- The words from `a` up to the first zero word, or nothing if no cell holds zero. Every cell is
at a distance below `2 ^ 16`. -/
def textFrom? (mem : Memory) (a : Word) : Option (List Word) :=
  (mem.zeroFrom a 65536 0).map fun length =>
    (List.range length).map fun i => mem.get (a + BitVec.ofNat 16 i)

@[simp] theorem get_blank (a : Word) : blank.get a = 0 := by simp [get, blank]

@[simp] theorem get_set_self (mem : Memory) (a w : Word) : (mem.set a w).get a = w := by
  simp [get, set]

theorem get_set_of_ne (mem : Memory) {a b : Word} (w : Word) (h : a ≠ b) :
    (mem.set a w).get b = mem.get b := by
  have h' : a.toNat ≠ b.toNat := fun e => h (BitVec.eq_of_toNat_eq e)
  simp [get, set, h']

theorem get_set (mem : Memory) (a b w : Word) :
    (mem.set a w).get b = if a = b then w else mem.get b := by
  split
  · next h => subst h; exact get_set_self ..
  · next h => exact get_set_of_ne _ _ h

theorem get_place (mem : Memory) (origin : Word) (words : Array Word) (a : Word) :
    (mem.place origin words).get a =
      if origin.toNat ≤ a.toNat then words[a.toNat - origin.toNat]?.getD (mem.get a)
      else mem.get a := by
  simp [get, place, ofFn]

/-- Memories that agree on every address are equal. -/
theorem ext_get {m n : Memory} (h : ∀ a, m.get a = n.get a) : m = n := by
  rcases m with ⟨m⟩
  rcases n with ⟨n⟩
  congr 1
  ext i hi : 1
  simpa [get, BitVec.toNat_ofNat, Nat.mod_eq_of_lt hi] using h (BitVec.ofNat 16 i)

end Memory

end LittleComputer
