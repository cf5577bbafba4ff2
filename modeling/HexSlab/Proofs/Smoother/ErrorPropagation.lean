import HexSlab.Proofs.Smoother.ChebyshevSymmetry
import HexSlab.Proofs.Smoother.RelaxationSymmetry

/-!
# What smoothers make of an error

A smoother that starts from a given vector adds to it the image of its residual under one
linear map: the map of all corrections of a relaxation, or that of the steps of a
Chebyshev smoother. The residual is the image of the error under the operator, so what
becomes of an error depends on the error alone, and the solution itself is left as it is.
-/

namespace HexSlab

open Vec

variable {σ R S : Type} [Field R] {n : Nat}

/-- Applications that treat the error of a start as they treat a start for the right-hand
side zero. -/
structure PropagatesErrors
    (apply : Array R → Array R → Attempt σ (PreconditionerError R × Array R) (Array R × S))
    (counted : S) (action : Module.End R (Fin n → R)) : Prop where
  /-- For the right-hand side of a solution, a start leads to the solution plus what the
  difference of the two leads to for the right-hand side zero. -/
  errors : ∀ (solution x y : Vector R n) (state other : σ), entries x = action (entries solution) →
    ∃ (solved error : Vector R n) (after afterOther : σ),
      (apply x.toArray y.toArray).run state = (.ok (solved.toArray, counted), after) ∧
      (apply (fill 0 : Vector R n).toArray (y - solution).toArray).run other =
        (.ok (error.toArray, counted), afterOther) ∧
      solved = solution + error
  /-- The solution itself is returned as it was given. -/
  fixed : ∀ (solution x : Vector R n) (state : σ), entries x = action (entries solution) →
    ∃ after, (apply x.toArray solution.toArray).run state =
      (.ok (solution.toArray, counted), after)

/-- Applications that add to the given vector the image of its residual under a linear
map treat errors like this. -/
theorem propagatesErrors_of_correction
    {apply : Array R → Array R → Attempt σ (PreconditionerError R × Array R) (Array R × S)}
    {counted : S} {action : Module.End R (Fin n → R)} (map : Module.End R (Fin n → R))
    (corrects : ∀ x y : Vector R n, (apply x.toArray y.toArray).Attains fun result =>
      ∃ value : Vector R n × S, result = (value.1.toArray, value.2) ∧ value.2 = counted ∧
        entries value.1 = entries y + map (entries x - action (entries y))) :
    PropagatesErrors apply counted action where
  errors := by
    intro solution x y state other image
    obtain ⟨_, after, run, solved, rfl, counts, same⟩ := corrects x y state
    obtain ⟨_, afterOther, runOther, error, rfl, countsOther, sameError⟩ :=
      corrects (fill 0) (y - solution) other
    have residual : (0 : Fin n → R) - action (entries y - entries solution) =
        action (entries solution) - action (entries y) := by
      rw [map_sub, zero_sub, neg_sub]
    refine ⟨solved.1, error.1, after, afterOther, ?_, ?_, ?_⟩
    · rw [← counts]
      exact run
    · rw [← countsOther]
      exact runOther
    · rw [← entries_inj, entries_add, same, sameError, image, entries_zero, entries_sub, residual,
        ← add_assoc, add_sub_cancel]
  fixed := by
    intro solution x state image
    obtain ⟨_, after, run, solved, rfl, counts, same⟩ := corrects x solution state
    rw [image, sub_self, map_zero, add_zero, entries_inj] at same
    rw [same, counts] at run
    exact ⟨after, run⟩

variable [LinearOrder R] [Roots R]

/-- A relaxation that starts from the given vector treats errors like this, for every
operator that serves its kind of sweep. -/
theorem Relaxation.propagatesErrors (relaxation : Relaxation R n) {op : Operator σ R n}
    {action : Module.End R (Fin n → R)} {inverse : Vector R n}
    (serves : Serves op action relaxation.params.sweep)
    (computed : relaxation.phase = .computed inverse)
    (given : relaxation.params.zeroStart = false) :
    PropagatesErrors (relaxation.applyInverseChecked op) relaxation.recordApply action := by
  refine propagatesErrors_of_correction
    (sweepMap action (allCorrections inverse relaxation.params)) ?_
  intro x y
  refine applyInverseChecked_attains relaxation op computed x y ?_
  refine (relaxation.applyInverse_attains serves computed x y).mono ?_
  rintro result ⟨counted, same⟩
  rw [given, if_neg Bool.false_ne_true, correct_eq] at same
  exact ⟨counted, same⟩

/-- Outside the identity shortcut a Chebyshev smoother that starts from the given vector
treats errors like this. -/
theorem Chebyshev.propagatesErrors (smoother : Chebyshev R n) {op : Operator σ R n}
    {action : Module.End R (Fin n → R)} {inverse : Vector R n} {bounds : ChebyshevBounds R}
    (linear : op.Realizes action) (computed : smoother.phase = .computed inverse bounds)
    (outside : isIdentity smoother.params = false) (given : smoother.params.zeroStart = false) :
    PropagatesErrors (smoother.applyInverseChecked op) smoother.recordApply action := by
  refine propagatesErrors_of_correction
    (smoothMap bounds inverse action smoother.params.degree) ?_
  intro x y
  refine applyInverseChecked_attains smoother op computed x y ?_
  rw [applyInverse_eq_smooth computed outside, given]
  refine Attempt.Attains.bind (smooth_attains_map op linear smoother.params.degree false x y) ?_
  intro solved same
  exact Attempt.attains_pure ⟨rfl, same⟩

/-- Smoothers propagate errors linearly and keep the solution. In exact arithmetic and
with a start from the given vector this holds of Jacobi sweeps and of Chebyshev smoothers
outside the identity shortcut for every linear operator, and of Gauss-Seidel sweeps of
both kinds for every valid square matrix stored by rows, whatever the settings, the
inverted diagonal and the bounds are: applied to the image of a solution and to a start,
they succeed with the solution plus what they return for zero and the error of the start.
The scalars may be any field, and divisors of the Chebyshev recurrence may be zero, since
both applications divide by the same ones. -/
theorem smoothers_propagate_errors (op : Operator σ R n) (action : (Fin n → R) →ₗ[R] (Fin n → R))
    (linear : op.Realizes action) (matrix : Csr R) (valid : matrix.Valid)
    (square : matrix.rowCount = matrix.colCount) (comm : Communicator R) (limit : Option Nat) :
    (∀ (relaxation : Relaxation R n) (inverse : Vector R n),
      relaxation.phase = .computed inverse → relaxation.params.zeroStart = false →
      relaxation.params.sweep = .jacobi →
      PropagatesErrors (relaxation.applyInverseChecked op) relaxation.recordApply action) ∧
    (∀ (relaxation : Relaxation R matrix.rowCount) (inverse : Vector R matrix.rowCount),
      relaxation.phase = .computed inverse → relaxation.params.zeroStart = false →
      relaxation.params.sweep ≠ .jacobi →
      PropagatesErrors (relaxation.applyInverseChecked (matrix.operator comm limit))
        relaxation.recordApply matrix.action) ∧
    (∀ (smoother : Chebyshev R n) (inverse : Vector R n) (bounds : ChebyshevBounds R),
      smoother.phase = .computed inverse bounds → smoother.params.zeroStart = false →
      Chebyshev.isIdentity smoother.params = false →
      PropagatesErrors (smoother.applyInverseChecked op) smoother.recordApply action) := by
  refine ⟨?_, ?_, ?_⟩
  · intro relaxation inverse computed given kind
    have serves : Relaxation.Serves op action relaxation.params.sweep := by
      rw [kind]
      exact linear
    exact relaxation.propagatesErrors serves computed given
  · intro relaxation inverse computed given kind
    have reads := Relaxation.readsRows_operator valid square comm limit
    exact relaxation.propagatesErrors (Relaxation.serves_of_reads reads kind) computed given
  · intro smoother inverse bounds computed given outside
    exact smoother.propagatesErrors linear computed outside given

/-- Two damped sweeps of a kind, from the given vector. -/
def Relaxation.dampedPair (sweep : Sweep) : Relaxation Rat 2 :=
  { coupledSweeps with params := { coupledSweeps.params with sweep := sweep, zeroStart := false } }

/-- Jacobi sweeps, symmetric Gauss-Seidel sweeps and a smoother of degree three for an
operator that does not commute with its diagonal. -/
theorem smoothers_propagate_errors_coupled :
    PropagatesErrors
        ((Relaxation.dampedPair .jacobi).applyInverseChecked (.ofAction Chebyshev.coupled Unit))
        (Relaxation.dampedPair .jacobi).recordApply Chebyshev.coupled ∧
      PropagatesErrors
        ((Relaxation.dampedPair .symmetricGaussSeidel).applyInverseChecked
          (Relaxation.coupledRows.operator .serial none))
        (Relaxation.dampedPair .symmetricGaussSeidel).recordApply Relaxation.coupledRows.action ∧
      PropagatesErrors
        (Chebyshev.cubic.applyInverseChecked (.ofAction Chebyshev.coupled Unit))
        Chebyshev.cubic.recordApply Chebyshev.coupled := by
  obtain ⟨jacobi, gaussSeidel, chebyshev⟩ :=
    smoothers_propagate_errors (.ofAction Chebyshev.coupled Unit) Chebyshev.coupled
      (Operator.realizes_ofAction _ Unit) Relaxation.coupledRows
      Relaxation.symmetric_coupledRows.valid rfl .serial none
  exact ⟨jacobi _ _ rfl rfl rfl, gaussSeidel _ _ rfl rfl (by decide),
    chebyshev _ _ _ rfl rfl (by decide +kernel)⟩

end HexSlab
