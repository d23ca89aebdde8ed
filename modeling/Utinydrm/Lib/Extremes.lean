import Mathlib.Order.Bounds.Basic
import Mathlib.Order.MinMax

/-
  Running minima and maxima of the values of a list.

  A fold that keeps the smaller of two values ends with the
  least value met, the one it started with included. Where
  that one is an upper bound of the others it does not
  matter.

  Main declarations:
    * `Extremes.isLeast_foldl_min`
    * `Extremes.isGreatest_foldl_max`
-/

------------------------------------------------------------
-- Folds
------------------------------------------------------------

namespace Extremes

variable {α β : Type}

/- The values of the members of a list. -/
def values (f : β → α) (l : List β) : Set α :=
  Set.image f {b | b ∈ l}

theorem values_cons
    (f : β → α) (b : β) (l : List β) :
    values f (b :: l) = insert (f b) (values f l) := by
  ext a
  simp [values, eq_comm]

variable [LinearOrder α] (f : β → α)

/- What is kept is the least of the start and the values. -/
theorem isLeast_foldl_min_insert
    (l : List β) (start : α) :
    IsLeast (insert start (values f l))
      (l.foldl (fun a b => min a (f b)) start) := by
  induction l generalizing start with
  | nil => simp [values]
  | cons b l ih =>
      rcases ih (min start (f b)) with ⟨hMem, hLower⟩
      rw [values_cons]
      constructor
      · rcases hMem with hStart | hValue
        · rw [List.foldl_cons, hStart]
          rcases min_choice start (f b) with hLeft | hRight
          · exact Or.inl hLeft
          · exact Or.inr (Or.inl hRight)
        · exact Or.inr (Or.inr hValue)
      · rintro a (hStart | hHead | hValue)
        · rw [hStart]
          exact (hLower (Or.inl rfl)).trans (min_le_left _ _)
        · rw [hHead]
          exact (hLower (Or.inl rfl)).trans (min_le_right _ _)
        · exact hLower (Or.inr hValue)

theorem isLeast_foldl_min
    {l : List β} {start : α}
    (hSome : l ≠ [])
    (hAbove : ∀ b ∈ l, f b ≤ start) :
    IsLeast (values f l)
      (l.foldl (fun a b => min a (f b)) start) := by
  rcases isLeast_foldl_min_insert f l start with
    ⟨hMem, hLower⟩
  refine ⟨?_, fun a ha => hLower (Or.inr ha)⟩
  rcases hMem with hStart | hValue
  · -- the start is then itself a value
    rcases List.exists_mem_of_ne_nil l hSome with ⟨b, hb⟩
    refine ⟨b, hb, le_antisymm ?_ (hLower (Or.inr ⟨b, hb, rfl⟩))⟩
    rw [hStart]
    exact hAbove b hb
  · exact hValue

theorem isGreatest_foldl_max
    {l : List β} {start : α}
    (hSome : l ≠ [])
    (hBelow : ∀ b ∈ l, start ≤ f b) :
    IsGreatest (values f l)
      (l.foldl (fun a b => max a (f b)) start) :=
  isLeast_foldl_min (α := αᵒᵈ) f hSome hBelow

end Extremes
