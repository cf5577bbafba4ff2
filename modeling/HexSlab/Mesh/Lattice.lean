/-!
# Walking over a lattice

Values of a function at all places of a lattice in two or three directions, the
last direction varying fastest.
-/

namespace HexSlab

variable {α : Type}

/-- The values at the places `(j, i)` with `j` below `outer` and `i` below `inner`. -/
def grid2 (outer inner : Nat) (value : Nat → Nat → α) : List α :=
  (List.range outer).flatMap fun j => (List.range inner).map fun i => value j i

/-- The values at the places `(k, j, i)`, each direction below its bound. -/
def grid3 (outer middle inner : Nat) (value : Nat → Nat → Nat → α) : List α :=
  (List.range outer).flatMap fun k => grid2 middle inner (value k)

/-- A lattice in two directions has as many places as the product of its bounds. -/
theorem length_grid2 (outer inner : Nat) (value : Nat → Nat → α) :
    (grid2 outer inner value).length = outer * inner := by
  simp [grid2, List.length_flatMap, List.map_const']

/-- A lattice in three directions has as many places as the product of its bounds. -/
theorem length_grid3 (outer middle inner : Nat) (value : Nat → Nat → Nat → α) :
    (grid3 outer middle inner value).length = outer * (middle * inner) := by
  simp [grid3, List.length_flatMap, length_grid2, List.map_const']

end HexSlab
