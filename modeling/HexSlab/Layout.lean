/-!
# Place of a process in a run

A layout names one process among all processes of a run. The rank lies below
the number of processes by construction, so a layout always belongs to a run
with at least one process.
-/

namespace HexSlab

/-- One process of a run. -/
structure Layout where
  /-- Number of processes of the run. -/
  count : Nat
  /-- Index of this process. -/
  rank : Nat
  /-- The process belongs to the run. -/
  rank_lt : rank < count
  deriving DecidableEq

/-- Why a pair of numbers is no layout. -/
inductive LayoutError where
  /-- The run has no processes. -/
  | noProcesses
  /-- The rank is not below the number of processes. -/
  | rankOutOfRange (rank count : Nat)
  deriving DecidableEq

/-- The text of a layout error. -/
def LayoutError.message : LayoutError → String
  | .noProcesses => "a run needs at least one process"
  | .rankOutOfRange rank count =>
    "rank " ++ toString rank ++ " out of range for " ++ toString count ++ " processes"

namespace Layout

/-- Process `rank` of a run of `count` processes. A run without processes is
reported before a rank out of range. -/
def ofRank (count rank : Nat) : Except LayoutError Layout :=
  if count = 0 then .error .noProcesses
  else if h : rank < count then .ok ⟨count, rank, h⟩
  else .error (.rankOutOfRange rank count)

/-- The only process of a serial run. -/
def serial : Layout := ⟨1, 0, Nat.one_pos⟩

/-- The layouts of all processes of a run, by rank. -/
def all (count : Nat) : List Layout :=
  (List.finRange count).map fun rank => ⟨count, rank.val, rank.isLt⟩

/-- The first process of its run. -/
def isFirst (layout : Layout) : Bool := layout.rank == 0

/-- The last process of its run. -/
def isLast (layout : Layout) : Bool := layout.rank + 1 == layout.count

end Layout

end HexSlab
