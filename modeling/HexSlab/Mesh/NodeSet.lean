/-!
# Sets of node places

A set of places below a capacity, as one truth value for each place. Places
from the capacity on are never members.
-/

namespace HexSlab

/-- A set of places. -/
structure NodeSet where
  /-- Whether each place below the capacity is a member. -/
  members : Array Bool

namespace NodeSet

/-- The number of places that the set can tell apart. -/
def capacity (set : NodeSet) : Nat := set.members.size

/-- The set without members. -/
def empty (capacity : Nat) : NodeSet := ⟨Array.replicate capacity false⟩

/-- The place is a member. -/
def contains (set : NodeSet) (place : Nat) : Bool := set.members.getD place false

/-- Add a place, if it lies below the capacity. -/
def insert (set : NodeSet) (place : Nat) : NodeSet :=
  ⟨set.members.setIfInBounds place true⟩

/-- Add all places of a list. -/
def insertAll (set : NodeSet) (places : List Nat) : NodeSet := places.foldl insert set

/-- The set of the listed places. There is none if a place is beyond the
capacity. -/
def ofList? (capacity : Nat) (places : List Nat) : Option NodeSet :=
  if places.all fun place => decide (place < capacity) then
    some ((empty capacity).insertAll places)
  else none

/-- The members of either set, with the larger capacity. -/
def union (first second : NodeSet) : NodeSet :=
  ⟨Array.ofFn fun place : Fin (max first.capacity second.capacity) =>
    first.contains place || second.contains place⟩

/-- The members in ascending order. -/
def toList (set : NodeSet) : List Nat := (List.range set.capacity).filter set.contains

/-- The empty set has no members. -/
theorem contains_empty (capacity place : Nat) : (empty capacity).contains place = false := by
  simp only [contains, empty, Array.getD_eq_getD_getElem?]
  rw [Array.getElem?_replicate]
  split <;> rfl

/-- Adding a place keeps the capacity. -/
theorem capacity_insert (set : NodeSet) (place : Nat) :
    (set.insert place).capacity = set.capacity := by
  simp [capacity, insert]

/-- The members after adding a place. -/
theorem contains_insert (set : NodeSet) (place other : Nat) :
    (set.insert place).contains other =
      (set.contains other || (decide (place = other) && decide (place < set.capacity))) := by
  simp only [contains, insert, capacity, Array.getD_eq_getD_getElem?]
  rw [Array.getElem?_setIfInBounds]
  by_cases same : place = other
  · subst same
    by_cases inside : place < set.members.size
    · simp [inside]
    · simp [inside]
  · simp [same]

/-- An empty set keeps the capacity that it was made with. -/
theorem capacity_empty (capacity : Nat) : (empty capacity).capacity = capacity := by
  simp [NodeSet.capacity, empty]

/-- The members after adding places. -/
theorem contains_insertAll (set : NodeSet) (places : List Nat) (other : Nat) :
    (set.insertAll places).contains other =
      (set.contains other || (places.contains other && decide (other < set.capacity))) := by
  induction places generalizing set with
  | nil => simp [insertAll]
  | cons place rest ih =>
    have step : set.insertAll (place :: rest) = (set.insert place).insertAll rest := rfl
    rw [step, ih, capacity_insert, contains_insert, List.contains_cons]
    by_cases same : place = other
    · subst same
      cases set.contains place <;> simp
    · have apart : (other == place) = false := by simp [Ne.symm same]
      simp [same, apart]

/-- There is a set of the listed places exactly if all of them are below the
capacity. -/
theorem isSome_ofList? (capacity : Nat) (places : List Nat) :
    (ofList? capacity places).isSome = true ↔ ∀ place ∈ places, place < capacity := by
  unfold ofList?
  split <;> simp_all

/-- The members of a set made from a list are the listed places. -/
theorem contains_ofList? (capacity : Nat) (places : List Nat) (set : NodeSet)
    (made : ofList? capacity places = some set) (other : Nat) :
    set.contains other = places.contains other := by
  unfold ofList? at made
  split at made
  · rename_i inside
    rw [← Option.some.inj made, contains_insertAll, contains_empty, capacity_empty]
    by_cases listed : other ∈ places
    · have below : other < capacity := by simpa using List.all_eq_true.mp inside other listed
      simp [listed, below]
    · simp [listed]
  · cases made

/-- The members of a union. -/
theorem contains_union (first second : NodeSet) (place : Nat) :
    (first.union second).contains place = (first.contains place || second.contains place) := by
  simp only [contains, union, Array.getD_eq_getD_getElem?, Array.getElem?_ofFn, capacity]
  split
  · rfl
  · rename_i outside
    have h1 : ¬ place < first.members.size := by omega
    have h2 : ¬ place < second.members.size := by omega
    simp [Array.getElem?_eq_none (Nat.le_of_not_lt h1),
      Array.getElem?_eq_none (Nat.le_of_not_lt h2)]

end NodeSet

end HexSlab
