import HexSlab.Vec

/-!
# Reductions over the processes of a run

A communicator says where a process stands and how a local value becomes a
value of the whole run. Inner products and norms of distributed vectors are
reduced through it.
-/

namespace HexSlab

/-- The collective operations of one process in a run. -/
structure Communicator (R : Type) where
  /-- Index of this process. -/
  rank : Nat
  /-- Number of processes. -/
  size : Nat
  /-- Sum of a value over all processes. -/
  sumAll : R → R
  /-- Exact sum of a count over all processes. -/
  sumCounts : Nat → Nat
  /-- Largest of a value over all processes. -/
  maxAll : R → R

namespace Communicator

variable {R : Type}

/-- The communicator of a run with one process: every reduction is the value itself. -/
def serial : Communicator R where
  rank := 0
  size := 1
  sumAll := id
  sumCounts := id
  maxAll := id

variable [Scalar R]

/-- A run in which every process holds the same data, so that sums are
multiples and maxima are the value itself. -/
def replicated (rank size : Nat) : Communicator R where
  rank := rank
  size := size
  sumAll := fun value => value * Scalar.ofNat size
  sumCounts := fun count => count * size
  maxAll := id

variable {n : Nat}

/-- Inner product of distributed vectors. -/
@[specialize] def dot (comm : Communicator R) (x y : Vector R n) : R :=
  comm.sumAll (Vec.dot x y)

/-- Euclidean norm of a distributed vector. -/
@[specialize] def norm (comm : Communicator R) (x : Vector R n) : R :=
  Scalar.sqrt (comm.dot x x)

end Communicator

end HexSlab
