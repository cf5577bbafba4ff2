import HexSlab.Layout

/-!
# The slab of a process

The intervals along the third axis are dealt out to the processes in contiguous
slabs, by rank. The even split gives the first ranks one interval more where
the number of processes does not divide the number of intervals.
-/

namespace HexSlab

/-- The intervals along Z of one process. -/
structure Slab where
  /-- First interval. -/
  start : Nat
  /-- Number of intervals. -/
  count : Nat
  deriving DecidableEq

/-- The slab of a process if the intervals are dealt out as evenly as possible. -/
def Slab.even (intervals : Nat) (layout : Layout) : Slab :=
  let share := intervals / layout.count
  let extra := intervals % layout.count
  ⟨layout.rank * share + min layout.rank extra,
    share + if layout.rank < extra then 1 else 0⟩

end HexSlab
