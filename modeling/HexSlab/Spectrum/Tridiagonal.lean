import HexSlab.Scalar

/-!
# Extreme eigenvalues of a symmetric tridiagonal matrix

Eigenvalues below a number are counted by the signs of the pivots that
elimination meets after that number is subtracted from the diagonal. Halving
an interval that holds all eigenvalues finds the smallest and the largest one.
The entries are first divided by the largest of them and the result is
multiplied by it again.
-/

namespace HexSlab

/-- A symmetric tridiagonal matrix. -/
structure Tridiagonal (R : Type) where
  /-- Entries on the diagonal. -/
  diagonal : List R
  /-- Entries beside the diagonal, one fewer. -/
  offDiagonal : List R

namespace Tridiagonal

variable {R : Type} [Scalar R]

/-- The larger of two numbers. -/
def larger (a b : R) : R := if a < b then b else a

/-- The smaller of two numbers. -/
def smaller (a b : R) : R := if b < a then b else a

/-- The largest magnitude among the entries. -/
def magnitude (matrix : Tridiagonal R) : R :=
  match matrix.diagonal ++ matrix.offDiagonal with
  | [] => 0
  | first :: rest =>
    rest.foldl (fun most value => larger most (Scalar.abs value)) (Scalar.abs first)

/-- The matrix with all entries divided by a number. -/
def divBy (matrix : Tridiagonal R) (divisor : R) : Tridiagonal R :=
  ⟨matrix.diagonal.map (· / divisor), matrix.offDiagonal.map (· / divisor)⟩

/-- The discs that hold the eigenvalues: each diagonal entry with the sum of
the magnitudes beside it. The entry before the first row is given. -/
def discs (before : R) : List R → List R → List (R × R)
  | [], _ => []
  | d :: ds, [] => (d, before) :: discs 0 ds []
  | d :: ds, e :: es => (d, before + Scalar.abs e) :: discs (Scalar.abs e) ds es

/-- The number of negative pivots, given the part that elimination takes from
the next diagonal entry. -/
def countPivots (shift taken : R) : List R → List R → Nat
  | [], _ => 0
  | d :: ds, es =>
    let pivot := d - shift - taken
    let sign := if pivot < 0 then 1 else 0
    match es with
    | [] => sign + countPivots shift 0 ds []
    | e :: es => sign + countPivots shift (if e == 0 then 0 else e * e / pivot) ds es

/-- The number of eigenvalues below a number. -/
def countBelow (matrix : Tridiagonal R) (shift : R) : Nat :=
  countPivots shift 0 matrix.diagonal matrix.offDiagonal

/-- Halve an interval a number of times, keeping the half at whose upper end
more than `index` eigenvalues lie below. -/
def bisect (matrix : Tridiagonal R) (index : Nat) : Nat → R → R → R
  | 0, low, high => (low + high) / Scalar.two
  | steps + 1, low, high =>
    let middle := (low + high) / Scalar.two
    if index < matrix.countBelow middle then bisect matrix index steps low middle
    else bisect matrix index steps middle high

/-- How often an interval is halved. -/
def halvings : Nat := 140

/-- The smallest and the largest eigenvalue of a matrix whose entries are at
most one in magnitude. -/
def unitExtremes (matrix : Tridiagonal R) : R × R :=
  match discs 0 matrix.diagonal matrix.offDiagonal with
  | [] => (0, 0)
  | [disc] => (disc.1, disc.1)
  | disc :: rest =>
    let low := rest.foldl (fun least d => smaller least (d.1 - d.2)) (disc.1 - disc.2)
    let high := rest.foldl (fun most d => larger most (d.1 + d.2)) (disc.1 + disc.2)
    (matrix.bisect 0 halvings low high,
      matrix.bisect (matrix.diagonal.length - 1) halvings low high)

/-- The smallest and the largest eigenvalue. -/
def extremes (matrix : Tridiagonal R) : R × R :=
  let size := matrix.magnitude
  if size == 0 then (0, 0)
  else
    let unit := (matrix.divBy size).unitExtremes
    (unit.1 * size, unit.2 * size)

end Tridiagonal

end HexSlab
