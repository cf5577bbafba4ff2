import HexSlab.Spectrum.KeyStream
import HexSlab.Spectrum.Tridiagonal
import HexSlab.Vec

/-!
# What eigenvalue estimates rest on

An estimate needs a start vector for each process and a way to find the extreme
eigenvalues of a small tridiagonal matrix. Both are given to the estimates as
data; the kit for floating point draws start vectors from a key stream with a
fixed seed for each rank.
-/

namespace HexSlab

/-- Start vectors and eigenvalues of tridiagonal matrices. -/
structure SpectralKit (R : Type) where
  /-- The start vector of a length on the process of a rank. -/
  start : (n : Nat) → (rank : Nat) → Vector R n
  /-- The smallest and the largest eigenvalue. -/
  extremes : Tridiagonal R → R × R

namespace SpectralKit

/-- The seed of the process of rank zero. -/
def baseSeed : Nat := 0x5eed

/-- Start vectors from the key stream whose seed is the base seed plus the rank. -/
def streamStart (n rank : Nat) : Vector Float n :=
  let drawn := (KeyStream.reals (UInt64.ofNat (baseSeed + rank)) n).toArray
  Vector.ofFn fun i => drawn.getD i 0

/-- The kit for floating point. -/
def floating : SpectralKit Float := ⟨streamStart, Tridiagonal.extremes⟩

end SpectralKit

end HexSlab
