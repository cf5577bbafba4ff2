import HexSlab.Krylov.System
import HexSlab.Smoother.Chebyshev
import HexSlab.Smoother.Relaxation

/-!
# Smoothers as preconditioners

A smoother counts its applications, so as a preconditioner it is part of the
state of the run: each application uses the smoother of the state and puts the
one it returns in its place.
-/

namespace HexSlab

/-- A Chebyshev smoother kept in the state of a run, as a preconditioner. -/
def Chebyshev.preconditioner {σ R : Type} [Scalar R] {n : Nat} (op : Operator σ R n) :
    Preconditioner (σ × Chebyshev R n) R n where
  applyInverse := fun x y state =>
    match state.2.applyInverse op x y state.1 with
    | (.ok (y, smoother), inner) => (.ok y, inner, smoother)
    | (.error interrupted, inner) => (.error interrupted.error, inner, state.2)

/-- A relaxation kept in the state of a run, as a preconditioner. -/
def Relaxation.preconditioner {σ R : Type} [Scalar R] {n : Nat} (op : Operator σ R n) :
    Preconditioner (σ × Relaxation R n) R n where
  applyInverse := fun x y state =>
    match state.2.applyInverse op x y state.1 with
    | (.ok (y, relaxation), inner) => (.ok y, inner, relaxation)
    | (.error interrupted, inner) => (.error interrupted.error, inner, state.2)

end HexSlab
