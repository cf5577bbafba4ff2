import HexSlab.Proofs.Krylov.InnerProduct
import Mathlib.LinearAlgebra.FiniteDimensional.Lemmas

/-!
# Conjugate directions

The directions that an iteration has gone so far span a subspace. The residual
is orthogonal to it, the next direction is conjugate to it, and the map of the
preconditioner after the operator leads out of it along the next direction only.
A step of the method adds its direction to the subspace and keeps all of this.
The subspace grows with each step as long as the residual is not zero, so there
are at most as many steps as there are places in a vector.
-/

namespace HexSlab

variable {R : Type} [Field R] {n : Nat}

/-- What a step of conjugate gradients relies on: how the residual and the next
direction lie to the subspace that was explored. -/
structure Conjugate (action inverse : (Fin n → R) →ₗ[R] (Fin n → R))
    (explored : Submodule R (Fin n → R)) (r p : Fin n → R) : Prop where
  /-- The residual is orthogonal to the subspace. -/
  orthogonal : ∀ s ∈ explored, r ⬝ᵥ s = 0
  /-- The direction is conjugate to the subspace. -/
  conjugate : ∀ s ∈ explored, p ⬝ᵥ action s = 0
  /-- From the subspace one gets out along the direction only. -/
  image : ∀ s ∈ explored, inverse (action s) ∈ explored ⊔ Submodule.span R {p}
  /-- The direction is the preconditioned residual up to the subspace. -/
  direction : p - inverse r ∈ explored

variable {action inverse : (Fin n → R) →ₗ[R] (Fin n → R)} {explored : Submodule R (Fin n → R)}
  {r p : Fin n → R}

/-- The first direction is the preconditioned residual; nothing was explored. -/
theorem conjugate_bot (action inverse : (Fin n → R) →ₗ[R] (Fin n → R)) (r : Fin n → R) :
    Conjugate action inverse ⊥ r (inverse r) where
  orthogonal := by
    intro s none
    rw [(Submodule.mem_bot R).mp none, dotProduct_zero]
  conjugate := by
    intro s none
    rw [(Submodule.mem_bot R).mp none, map_zero, dotProduct_zero]
  image := by
    intro s none
    rw [(Submodule.mem_bot R).mp none, map_zero, map_zero]
    exact Submodule.zero_mem _
  direction := by
    rw [sub_self]
    exact Submodule.zero_mem _

namespace Conjugate

/-- The subspace with the direction in it. -/
theorem mem_sup_iff (explored : Submodule R (Fin n → R)) (p s : Fin n → R) :
    s ∈ explored ⊔ Submodule.span R {p} ↔ ∃ t ∈ explored, ∃ c : R, t + c • p = s := by
  rw [Submodule.mem_sup]
  simp only [Submodule.mem_span_singleton, exists_exists_eq_and]

/-- The direction has the same part along the residual as the preconditioned
residual. -/
theorem residual_direction (holds : Conjugate action inverse explored r p) :
    r ⬝ᵥ p = r ⬝ᵥ inverse r := by
  have rest : r ⬝ᵥ (p - inverse r) = 0 := holds.orthogonal _ holds.direction
  rw [dotProduct_sub] at rest
  exact sub_eq_zero.mp rest

/-- The preconditioned residual lies in the subspace with the direction in it. -/
theorem inverse_residual_mem (holds : Conjugate action inverse explored r p) :
    inverse r ∈ explored ⊔ Submodule.span R {p} := by
  have rest : -(p - inverse r) + p = inverse r := by abel
  have old : -(p - inverse r) ∈ explored := explored.neg_mem holds.direction
  rw [← rest]
  exact Submodule.add_mem _ (Submodule.mem_sup_left old)
    (Submodule.mem_sup_right (Submodule.mem_span_singleton_self p))

variable [LinearOrder R]

/-- The direction is not in the subspace unless the residual is zero. -/
theorem not_mem (holds : Conjugate action inverse explored r p)
    (definite : PositiveDefinite inverse) (nonzero : r ≠ 0) : p ∉ explored := by
  intro inside
  have none : r ⬝ᵥ inverse r = 0 := by
    rw [← holds.residual_direction]
    exact holds.orthogonal p inside
  exact (definite.positive r nonzero).ne' none

/-- The direction has positive energy unless the residual is zero. -/
theorem energy_pos (holds : Conjugate action inverse explored r p)
    (positive : PositiveDefinite action) (definite : PositiveDefinite inverse) (nonzero : r ≠ 0) :
    0 < p ⬝ᵥ action p := by
  apply positive.positive
  rintro rfl
  exact holds.not_mem definite nonzero explored.zero_mem

/-- The subspace is smaller than the whole space unless the residual is zero. -/
theorem finrank_lt (holds : Conjugate action inverse explored r p)
    (definite : PositiveDefinite inverse) (nonzero : r ≠ 0) : Module.finrank R explored < n := by
  have proper : explored < ⊤ := by
    rw [lt_top_iff_ne_top]
    intro whole
    apply holds.not_mem definite nonzero
    rw [whole]
    exact Submodule.mem_top
  have smaller := Submodule.finrank_lt_finrank_of_lt proper
  rw [finrank_top, Module.finrank_fin_fun] at smaller
  exact smaller

/-- A step adds a dimension to the subspace unless the residual is zero. -/
theorem finrank_lt_sup (holds : Conjugate action inverse explored r p)
    (definite : PositiveDefinite inverse) (nonzero : r ≠ 0) :
    Module.finrank R explored < Module.finrank R ↥(explored ⊔ Submodule.span R {p}) := by
  apply Submodule.finrank_lt_finrank_of_lt
  refine lt_of_le_of_ne le_sup_left ?_
  intro same
  apply holds.not_mem definite nonzero
  rw [same]
  exact Submodule.mem_sup_right (Submodule.mem_span_singleton_self p)

end Conjugate

/-- A step of conjugate gradients from a residual and a direction to the next
residual, by the factors that the method takes. -/
structure ConjugateStep (action inverse : (Fin n → R) →ₗ[R] (Fin n → R)) (r p moved : Fin n → R)
    (alpha beta : R) : Prop where
  /-- The residual moves against the image of the direction. -/
  move : moved = r - alpha • action p
  /-- It moves as far as takes away its part along the direction. -/
  length : alpha * (p ⬝ᵥ action p) = r ⬝ᵥ inverse r
  /-- The share of the old direction in the next one. -/
  turn : beta * (r ⬝ᵥ inverse r) = moved ⬝ᵥ inverse moved

namespace ConjugateStep

variable {moved : Fin n → R} {alpha beta : R}

/-- The image of the direction is the change of the residual. -/
theorem smul_image (step : ConjugateStep action inverse r p moved alpha beta) :
    alpha • action p = r - moved := by
  rw [step.move, sub_sub_cancel]

variable [LinearOrder R]

/-- The length of a step is not zero unless the residual is. -/
theorem alpha_ne_zero (step : ConjugateStep action inverse r p moved alpha beta)
    (definite : PositiveDefinite inverse) (nonzero : r ≠ 0) : alpha ≠ 0 := by
  rintro rfl
  have none : 0 = r ⬝ᵥ inverse r := by rw [← step.length, zero_mul]
  exact (definite.positive r nonzero).ne none

/-- The residual after a step is orthogonal to the subspace with the direction
in it. -/
theorem orthogonal (step : ConjugateStep action inverse r p moved alpha beta)
    (holds : Conjugate action inverse explored r p) (positive : PositiveDefinite action) :
    ∀ s ∈ explored ⊔ Submodule.span R {p}, moved ⬝ᵥ s = 0 := by
  intro s inside
  obtain ⟨t, old, c, rfl⟩ := (Conjugate.mem_sup_iff explored p s).mp inside
  have before : moved ⬝ᵥ t = 0 := by
    rw [step.move, sub_dotProduct, smul_dotProduct, positive.symmetric, holds.orthogonal t old,
      holds.conjugate t old, smul_zero, sub_zero]
  have along : moved ⬝ᵥ p = 0 := by
    rw [step.move, sub_dotProduct, smul_dotProduct, positive.symmetric, holds.residual_direction,
      smul_eq_mul, step.length, sub_self]
  rw [dotProduct_add, dotProduct_smul, before, along, smul_zero, add_zero]

/-- The direction after a step is conjugate to the subspace with the old
direction in it: to what was explored before because the preconditioned
residual is, and to the old direction by the share of it. -/
theorem conjugate (step : ConjugateStep action inverse r p moved alpha beta)
    (holds : Conjugate action inverse explored r p) (positive : PositiveDefinite action)
    (definite : PositiveDefinite inverse) (nonzero : r ≠ 0) :
    ∀ s ∈ explored ⊔ Submodule.span R {p}, (inverse moved + beta • p) ⬝ᵥ action s = 0 := by
  intro s inside
  obtain ⟨t, old, c, rfl⟩ := (Conjugate.mem_sup_iff explored p s).mp inside
  have orthogonal := step.orthogonal holds positive
  have before : (inverse moved + beta • p) ⬝ᵥ action t = 0 := by
    rw [add_dotProduct, smul_dotProduct, definite.symmetric, orthogonal _ (holds.image t old),
      holds.conjugate t old, smul_zero, add_zero]
  -- the image of the old direction is known up to the length of the step
  have along : alpha * ((inverse moved + beta • p) ⬝ᵥ action p) = 0 := by
    calc alpha * ((inverse moved + beta • p) ⬝ᵥ action p)
        = inverse moved ⬝ᵥ (alpha • action p) + beta * (alpha * (p ⬝ᵥ action p)) := by
          rw [add_dotProduct, smul_dotProduct, dotProduct_smul, smul_eq_mul, smul_eq_mul]
          ring
      _ = moved ⬝ᵥ inverse r - moved ⬝ᵥ inverse moved + moved ⬝ᵥ inverse moved := by
          rw [step.smul_image, step.length, step.turn, dotProduct_sub, definite.symmetric,
            definite.symmetric]
      _ = 0 := by rw [orthogonal _ holds.inverse_residual_mem, zero_sub, neg_add_cancel]
  have direction := (mul_eq_zero_iff_left (step.alpha_ne_zero definite nonzero)).mp along
  rw [map_add, map_smul, dotProduct_add, dotProduct_smul, before, direction, smul_zero, add_zero]

/-- After a step one gets out of the subspace along the new direction only. -/
theorem image (step : ConjugateStep action inverse r p moved alpha beta)
    (holds : Conjugate action inverse explored r p) (definite : PositiveDefinite inverse)
    (nonzero : r ≠ 0) :
    ∀ s ∈ explored ⊔ Submodule.span R {p}, inverse (action s) ∈
      explored ⊔ Submodule.span R {p} ⊔ Submodule.span R {inverse moved + beta • p} := by
  intro s inside
  obtain ⟨t, old, c, rfl⟩ := (Conjugate.mem_sup_iff explored p s).mp inside
  have residual : inverse moved ∈
      explored ⊔ Submodule.span R {p} ⊔ Submodule.span R {inverse moved + beta • p} := by
    refine (Conjugate.mem_sup_iff _ _ _).mpr ⟨-(beta • p), ?_, 1, ?_⟩
    · exact Submodule.neg_mem _ (Submodule.smul_mem _ beta
        (Submodule.mem_sup_right (Submodule.mem_span_singleton_self p)))
    · rw [one_smul, neg_add_cancel_comm_assoc]
  have along : inverse (action p) ∈
      explored ⊔ Submodule.span R {p} ⊔ Submodule.span R {inverse moved + beta • p} := by
    rw [← Submodule.smul_mem_iff _ (step.alpha_ne_zero definite nonzero), ← map_smul,
      step.smul_image, map_sub]
    exact Submodule.sub_mem _ (Submodule.mem_sup_left holds.inverse_residual_mem) residual
  rw [map_add, map_add, map_smul, map_smul]
  exact Submodule.add_mem _ (Submodule.mem_sup_left (holds.image t old))
    (Submodule.smul_mem _ c along)

/-- A step keeps what the next one relies on, with its direction explored. -/
theorem keeps (step : ConjugateStep action inverse r p moved alpha beta)
    (holds : Conjugate action inverse explored r p) (positive : PositiveDefinite action)
    (definite : PositiveDefinite inverse) (nonzero : r ≠ 0) :
    Conjugate action inverse (explored ⊔ Submodule.span R {p}) moved
      (inverse moved + beta • p) where
  orthogonal := step.orthogonal holds positive
  conjugate := step.conjugate holds positive definite nonzero
  image := step.image holds definite nonzero
  direction := by
    rw [add_sub_cancel_left]
    exact Submodule.smul_mem _ beta
      (Submodule.mem_sup_right (Submodule.mem_span_singleton_self p))

end ConjugateStep

end HexSlab
