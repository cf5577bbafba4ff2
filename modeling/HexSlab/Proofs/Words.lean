import HexSlab.Numeral.Word
import Mathlib.Algebra.BigOperators.Group.List.Basic
import Mathlib.Algebra.GroupWithZero.Nat

/-!
# Which numbers words hold

Words hold whatever one word bounds. A sum is added up from the left, and no sum on the
way exceeds the whole. So words hold all of them exactly if they hold the whole sum.
-/

namespace HexSlab.Word

/-- A number below the limit is its own word. -/
theorem of?_of_lt {value : Nat} (fits : value < limit) : of? value = some value := if_pos fits

/-- A number from the limit on has no word. -/
theorem of?_of_le {value : Nat} (exceeds : limit ≤ value) : of? value = none :=
  if_neg (Nat.not_lt.mpr exceeds)

/-- Words hold numbers that a word bounds. -/
theorem hold_of_le {numbers : List Nat} {bound : Nat} (fits : bound < limit)
    (le : ∀ number ∈ numbers, number ≤ bound) : Hold numbers :=
  fun number listed => Nat.lt_of_le_of_lt (le number listed) fits

/-- Sums from the left, from a word on. -/
theorem foldlM_of? {start : Nat} (fits : start < limit) (row : List Nat) :
    row.foldlM (fun sum value => of? (sum + value)) start = of? (start + row.sum) := by
  induction row generalizing start with
  | nil => rw [List.sum_nil, Nat.add_zero, of?_of_lt fits]; rfl
  | cons value rest ih =>
    rw [List.foldlM_cons, List.sum_cons, ← Nat.add_assoc]
    by_cases next : start + value < limit
    · rw [of?_of_lt next]
      exact ih next
    · have exceeds : limit ≤ start + value := Nat.le_of_not_lt next
      rw [of?_of_le exceeds, of?_of_le (Nat.le_trans exceeds (Nat.le_add_right _ _))]
      rfl

/-- The sum of a row, if a word holds it. -/
theorem sum?_eq (row : List Nat) : sum? row = of? row.sum := by
  have zero : 0 < limit := by decide
  exact (foldlM_of? zero row).trans (by rw [Nat.zero_add])

end HexSlab.Word
