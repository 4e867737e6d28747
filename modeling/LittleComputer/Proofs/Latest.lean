import LittleComputer.Word

/-! The latest of some writes to a cell. Each of them leaves a word there or passes the cell by, and
the last one that leaves a word decides. -/
namespace LittleComputer

/-- What a cell that held `w` holds after some writes, each of which leaves in it what `f` says. -/
def latest (f : α → Option Word) (writes : List α) (w : Word) : Word :=
  (writes.filterMap f).getLast?.getD w

@[simp] theorem latest_nil (f : α → Option Word) (w : Word) : latest f [] w = w := rfl

@[simp] theorem latest_singleton (f : α → Option Word) (x : α) (w : Word) :
    latest f [x] w = (f x).getD w := by
  cases left : f x <;> simp [latest, left]

theorem latest_append (f : α → Option Word) (xs ys : List α) (w : Word) :
    latest f (xs ++ ys) w = latest f ys (latest f xs w) := by
  unfold latest
  rw [List.filterMap_append, List.getLast?_append]
  cases (ys.filterMap f).getLast? <;> simp

theorem latest_cons (f : α → Option Word) (x : α) (xs : List α) (w : Word) :
    latest f (x :: xs) w = latest f xs ((f x).getD w) := by
  rw [← List.singleton_append, latest_append, latest_singleton]

theorem latest_twice (f : α → Option Word) (xs : List α) (x : α) (ys : List α) (w : Word) :
    latest f (xs ++ x :: x :: ys) w = latest f (xs ++ x :: ys) w := by
  simp only [latest_append, latest_cons]
  cases f x <;> rfl

/-- Two writes in a row that do not both go to the cell can be made the other way round. -/
theorem latest_exchange {f : α → Option Word} {x y : α} (apart : f x = none ∨ f y = none)
    (xs ys : List α) (w : Word) :
    latest f (xs ++ y :: x :: ys) w = latest f (xs ++ x :: y :: ys) w := by
  simp only [latest_append, latest_cons]
  obtain passes | passes := apart <;> simp [passes]

end LittleComputer
