import HexSlab.Smoother.Error

/-!
# The power method

Repeated application of the diagonally scaled operator to a vector, which is
brought back to unit length each time, turns it towards the eigenvector of the
largest eigenvalue. The quotient of inner products before each step estimates
that eigenvalue.
-/

namespace HexSlab

variable {σ R : Type} [Scalar R] {n : Nat}

/-- A number of power iterations from a vector of unit length. The estimate so
far is the answer when no iteration is left. -/
@[specialize] def powerIterations (op : Operator σ R n) (inverse : Vector R n) :
    Nat → Vector R n → R → Attempt σ (PreconditionerError R) R
  | 0, _, estimate => pure estimate
  | steps + 1, x, _ => do
    let image ← (op.apply x).mapError .operator
    let y := Vec.hadamard image inverse
    let estimate := op.comm.dot y x / op.comm.dot x x
    let length := op.comm.norm y
    if length == 0 then Attempt.fail .iterateVanished
    else powerIterations op inverse steps (Vec.divBy y length) estimate

/-- An estimate of the largest eigenvalue of the operator scaled by an inverse
diagonal, from a start vector. -/
@[specialize] def powerMethod (op : Operator σ R n) (inverse start : Vector R n)
    (iterations : Nat) : Attempt σ (PreconditionerError R) R :=
  let length := op.comm.norm start
  if length == 0 then Attempt.fail .startVanished
  else powerIterations op inverse iterations (Vec.divBy start length) 0

/-- The power method with an inverse diagonal of any length. One of the wrong
length is noticed when the first image is scaled by it. -/
def powerMethodChecked (op : Operator σ R n) (inverse : Array R) (start : Vector R n)
    (iterations : Nat) : Attempt σ (PreconditionerError R) R :=
  if h : inverse.size = n then powerMethod op ⟨inverse, h⟩ start iterations
  else
    let length := op.comm.norm start
    if length == 0 then Attempt.fail .startVanished
    else if iterations = 0 then pure 0
    else do
      let _ ← (op.apply (Vec.divBy start length)).mapError .operator
      Attempt.fail .shapesDiffer

end HexSlab
