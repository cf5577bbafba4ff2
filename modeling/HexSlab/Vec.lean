import HexSlab.Scalar

/-!
# Dense vectors

Vectors carry their length in their type, so that every operation below is
total and no algorithm checks a length twice. Entrywise sums and differences
are those of `Vector`. The inner product adds its terms in eight lanes, which
fixes the rounding of a floating point run and is the ordinary sum of products
in exact arithmetic.
-/

namespace HexSlab.Vec

variable {R : Type} [Scalar R] {n : Nat}

/-- The vector with the same entry everywhere. -/
@[specialize] def fill (value : R) : Vector R n := Vector.replicate n value

/-- Entrywise product. -/
@[specialize] def hadamard (x y : Vector R n) : Vector R n := x.zipWith (· * ·) y

/-- Every entry divided by one number. -/
@[specialize] def divBy (x : Vector R n) (divisor : R) : Vector R n := x.map (· / divisor)

/-- The combination `a x + b y`. With a zero `b` the entries of `y` take no
part, not even where they are not numbers. -/
@[specialize] def axpy (a : R) (x : Vector R n) (b : R) (y : Vector R n) : Vector R n :=
  if b == 0 then x.map (a * ·) else x.zipWith (fun s t => a * s + b * t) y

/-- Eight running sums, one for each position in a block of eight terms. -/
structure Lanes (R : Type) where
  /-- Sum of the first terms of the blocks. -/
  l0 : R
  /-- Sum of the second terms. -/
  l1 : R
  /-- Sum of the third terms. -/
  l2 : R
  /-- Sum of the fourth terms. -/
  l3 : R
  /-- Sum of the fifth terms. -/
  l4 : R
  /-- Sum of the sixth terms. -/
  l5 : R
  /-- Sum of the seventh terms. -/
  l6 : R
  /-- Sum of the eighth terms. -/
  l7 : R

namespace Lanes

/-- Empty sums. -/
def zero : Lanes R := ⟨0, 0, 0, 0, 0, 0, 0, 0⟩

/-- The total of the lanes: lane pairs four apart are added first. -/
@[specialize] def total (s : Lanes R) : R :=
  (((0 + (s.l0 + s.l4)) + (s.l1 + s.l5)) + (s.l2 + s.l6)) + (s.l3 + s.l7)

end Lanes

/-- Sum of a list: full blocks of eight go into the lanes, and the terms left
over are added to the total of the lanes one by one. -/
@[specialize] def laneSum (s : Lanes R) : List R → R
  | a0 :: a1 :: a2 :: a3 :: a4 :: a5 :: a6 :: a7 :: rest =>
    laneSum ⟨s.l0 + a0, s.l1 + a1, s.l2 + a2, s.l3 + a3,
      s.l4 + a4, s.l5 + a5, s.l6 + a6, s.l7 + a7⟩ rest
  | rest => rest.foldl (· + ·) s.total

/-- Inner product of the vectors of one process. -/
@[specialize] def dot (x y : Vector R n) : R :=
  laneSum Lanes.zero (x.zipWith (· * ·) y).toList

end HexSlab.Vec
