import LittleComputer.Word

/-! The condition codes: one bit each for a positive, a zero and a negative result. -/
namespace LittleComputer.Condition

def positive : Word := 1
def zero : Word := 2
def negative : Word := 4

def ofWord (w : Word) : Word :=
  if w = 0 then zero else if w.msb then negative else positive

theorem ofWord_eq_zero_iff (w : Word) : ofWord w = zero ↔ w = 0 := by
  unfold ofWord
  split <;> simp_all [zero, negative, positive]
  split <;> simp

theorem ofWord_eq_negative_iff (w : Word) : ofWord w = negative ↔ w.toInt < 0 := by
  unfold ofWord
  split
  · next h => subst h; decide
  · next h =>
    have sign := BitVec.msb_eq_toInt (x := w)
    split <;> simp_all [negative, positive]

/-- Exactly one of the three bits is set in the code of a word. -/
theorem ofWord_cases (w : Word) :
    ofWord w = positive ∨ ofWord w = zero ∨ ofWord w = negative := by
  unfold ofWord
  split
  · exact .inr (.inl rfl)
  · split
    · exact .inr (.inr rfl)
    · exact .inl rfl

end LittleComputer.Condition
