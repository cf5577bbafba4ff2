/-!
# Numbers that a machine word holds

Counts are kept in words of 64 bits. A number that needs more has no value here: where
arithmetic is checked the program stops at such a number, and where it is not it goes on
with the remainder, and nothing is said about what follows.
-/

namespace HexSlab.Word

/-- The number of different words. -/
def limit : Nat := 0x10000000000000000

/-- A number, if a word holds it. -/
def of? (value : Nat) : Option Nat := if value < limit then some value else none

/-- The sum of a row, if words hold it and the sums on the way. -/
def sum? (row : List Nat) : Option Nat := row.foldlM (fun sum value => of? (sum + value)) 0

/-- Words hold all numbers of a list. -/
def Hold (numbers : List Nat) : Prop := ∀ number ∈ numbers, number < limit

instance (numbers : List Nat) : Decidable (Hold numbers) :=
  inferInstanceAs (Decidable (∀ number ∈ numbers, number < limit))

/-- The numbers of a list, if words hold them. -/
def all? (numbers : List Nat) : Option (List Nat) :=
  if Hold numbers then some numbers else none

end HexSlab.Word
