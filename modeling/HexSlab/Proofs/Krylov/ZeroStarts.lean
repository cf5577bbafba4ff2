import HexSlab.Proofs.Krylov.ScaledCycles
import HexSlab.Proofs.Smoother.ChebyshevPolynomial
import HexSlab.Proofs.Smoother.ComputedSettings
import HexSlab.Proofs.Smoother.ScaledSmoothers

/-!
# Starting a preconditioner from zero

A solver hands a zero vector to its preconditioner as the start, each time. A
smoother that starts from what it is given therefore starts from zero too. The
polynomial then has a product with the operator more, which is zero, and a
relaxation does nothing else at all. So the flag that skips this product can be
seen in the operator's calls but not in a solve.
-/

namespace HexSlab

open Vec

variable {σ R : Type} [Field R] [LinearOrder R] [Roots R] {n : Nat} {op : Operator σ R n}
  {action : (Fin n → R) →ₗ[R] (Fin n → R)}

namespace Chebyshev

/-- From a zero vector the first step is the same, whether that vector is read or
not. -/
theorem firstStep_zero_attains (linear : op.Realizes action) (inverse : Vector R n)
    (bounds : ChebyshevBounds R) (zeroStart : Bool) (x : Vector R n) :
    (firstStep op inverse bounds zeroStart x (fill 0)).Attains fun first =>
      entries first.1 = firstMap bounds inverse (entries x) ∧
        entries first.2 = firstMap bounds inverse (entries x) := by
  have update : entries (divBy (hadamard inverse x) bounds.theta) =
      firstMap bounds inverse (entries x) := by
    rw [entries_divBy, entries_hadamard]
    rfl
  unfold firstStep
  cases zeroStart with
  | true => exact Attempt.attains_pure ⟨update, update⟩
  | false =>
    refine Attempt.Attains.bind ((linear (fill 0)).mapError _) fun image known => ?_
    have none : entries image = 0 := by rw [known, entries_zero, map_zero]
    have residual : x - image = x := by rw [← entries_inj, entries_sub, none, sub_zero]
    dsimp only
    rw [residual]
    apply Attempt.attains_pure
    dsimp only
    rw [entries_add, entries_zero, zero_add]
    exact ⟨update, update⟩

/-- The smoother with the flag set or cleared, and otherwise as it is. -/
def withZeroStart (smoother : Chebyshev R n) (zeroStart : Bool) : Chebyshev R n :=
  { smoother with params := { smoother.params with zeroStart := zeroStart } }

/-- With the flag set and with the flag cleared a smoother is a preconditioner in
step with itself. -/
theorem zeroStart_inStep (linear : op.Realizes action) :
    (preconditioner op).InStepWith
      (fun one other => True ∧ one.2.StartsApart true false other.2) (preconditioner op) := by
  apply preconditioner_inStep (linear.linearUpTo.inStepWith op.comm)
  intro inverse bounds k x x' scaled
  apply Attempt.inStep_of_attains (firstStep_zero_attains linear inverse bounds true x)
    (firstStep_zero_attains linear inverse bounds false x')
  rintro one two ⟨iterate, update⟩ ⟨iterate', update'⟩
  constructor
  · rw [Scaled, iterate', iterate, scaled, map_smul]
  · rw [Scaled, update', update, scaled, map_smul]

end Chebyshev

/-- The relaxation with the flag set or cleared, and otherwise as it is. -/
def Relaxation.withZeroStart (relaxation : Relaxation R n) (zeroStart : Bool) : Relaxation R n :=
  { relaxation with params := { relaxation.params with zeroStart := zeroStart } }

/-- The flag for a zero start does not change a solve. With a linear operator that
never fails, and with a smoother of either kind for it as the preconditioner,
every solver gives the same status or the same error, and the same vector, whether
the flag is set or cleared. -/
theorem zero_start_changes_no_solve [IsStrictOrderedRing R] (linear : op.Realizes action)
    (solver : KrylovSolver R) (b x : Array R) (state : σ) (polynomial : Chebyshev R n)
    (relaxation : Relaxation R n) :
    (let outcome (zeroStart : Bool) :=
        ((solver.solveChecked op.besides (some (Chebyshev.preconditioner op)) b x).run
          (state, polynomial.withZeroStart zeroStart)).1
     outcome true = outcome false) ∧
    (let outcome (zeroStart : Bool) :=
        ((solver.solveChecked op.besides (some (Relaxation.preconditioner op)) b x).run
          (state, relaxation.withZeroStart zeroStart)).1
     outcome true = outcome false) := by
  have reductions : op.comm.Multiplies op.comm 1 n := op.comm.multiplies_self
  have matched : op.InStepWith (fun _ _ => True) op := linear.linearUpTo.inStepWith op.comm
  constructor
  · have operators := matched.besides fun (one other : Chebyshev R n) =>
      one.StartsApart true false other
    have preconditioners := Chebyshev.zeroStart_inStep linear
    have solves := KrylovSolver.solveChecked_inStep operators reductions (.some preconditioners)
      solver b x
    exact solves.run_eq ⟨trivial, rfl, rfl, rfl⟩
  · have operators := matched.besides fun (one other : Relaxation R n) =>
      one.StartsApart true false other
    have preconditioners := Relaxation.preconditioner_inStep matched rfl true false
    have solves := KrylovSolver.solveChecked_inStep operators reductions (.some preconditioners)
      solver b x
    exact solves.run_eq ⟨trivial, rfl, rfl, rfl⟩

/-- A polynomial of degree two for the operator with two rows. -/
def quadratic : Chebyshev Rat 2 :=
  ((Chebyshev.ofParams { ChebyshevParams.default with degree := 2 }).compute onesKit
    twoRows ()).1.after

/-- A Jacobi sweep for the operator with two rows. -/
def oneSweep : Relaxation Rat 2 := ((Relaxation.ofParams .default).compute twoRows).after

/-- Minimal residuals with the polynomial and with the sweep, which were both
computed. -/
theorem zero_start_changes_no_solve_two_rows :
    quadratic.isComputed = true ∧ oneSweep.isComputed = true ∧
    (let outcome (zeroStart : Bool) :=
        (((⟨.gmres 2, 2, 0⟩ : KrylovSolver Rat).solveChecked twoRows.besides
          (some (Chebyshev.preconditioner twoRows)) #[3, 4] #[1, 0]).run
            ((), quadratic.withZeroStart zeroStart)).1
     outcome true = outcome false) ∧
    (let outcome (zeroStart : Bool) :=
        (((⟨.gmres 2, 2, 0⟩ : KrylovSolver Rat).solveChecked twoRows.besides
          (some (Relaxation.preconditioner twoRows)) #[3, 4] #[1, 0]).run
            ((), oneSweep.withZeroStart zeroStart)).1
     outcome true = outcome false) := by
  have linear : twoRows.Realizes (diagonal ![2, 4]) := Operator.realizes_ofAction _ Unit
  refine ⟨by decide +kernel, by decide +kernel, ?_⟩
  exact zero_start_changes_no_solve linear ⟨.gmres 2, 2, 0⟩ #[3, 4] #[1, 0] () quadratic oneSweep

end HexSlab
