import HexSlab.Proofs.Smoother.ChebyshevPolynomial
import HexSlab.Proofs.Smoother.SymmetricMaps
import Mathlib.Algebra.Algebra.Bilinear
import Mathlib.LinearAlgebra.Matrix.Notation

/-!
# A Chebyshev smoother is a symmetric preconditioner

From a zero start the iterate and the last update are images of the right-hand
side under linear maps that the recurrence makes of the inverted diagonal `D`
and the operator `A`. The two do not commute, so a sum of products of them need
not be symmetric. Those of the recurrence are: besides being its own adjoint,
each map `M` satisfies `D A M = M A D`, and the maps of which both hold form a
subspace that `D` lies in and that `D A` takes into itself.
-/

namespace HexSlab.Chebyshev

open Vec

section Maps

variable {R : Type} [Field R] {n : Nat}

/-- The maps that are their own adjoint and that the operator may be taken
through: on the left it is scaled after it acts, on the right before. -/
def exchanging (inverse : Vector R n) (action : Module.End R (Fin n → R)) :
    Submodule R (Module.End R (Fin n → R)) :=
  pairing.selfAdjointSubmodule ⊓
    LinearMap.eqLocus (LinearMap.mulLeft R (scaledAction inverse action))
      (LinearMap.mulRight R (actionScaled inverse action))

variable {inverse : Vector R n} {action map : Module.End R (Fin n → R)}

/-- What makes a map one of these. -/
theorem mem_exchanging : map ∈ exchanging inverse action ↔
    pairing.IsSelfAdjoint map ∧
      scaledAction inverse action * map = map * actionScaled inverse action := Iff.rfl

/-- Multiplying by the inverted diagonal is one of these maps. -/
theorem diagonal_mem_exchanging (inverse : Vector R n) (action : Module.End R (Fin n → R)) :
    (diagonal (entries inverse) : Module.End R (Fin n → R)) ∈ exchanging inverse action :=
  mem_exchanging.mpr ⟨isSelfAdjoint_diagonal _, rfl⟩

/-- For a symmetric operator, to scale before is the adjoint of to scale after. -/
theorem scaledAction_adjoint (inverse : Vector R n) (symmetric : pairing.IsSelfAdjoint action) :
    LinearMap.IsAdjointPair pairing pairing (scaledAction inverse action)
      (actionScaled inverse action) :=
  LinearMap.IsAdjointPair.mul (isSelfAdjoint_diagonal (entries inverse)) symmetric

/-- The scaled operator after one of these maps is another one. -/
theorem scaledAction_mul_mem (symmetric : pairing.IsSelfAdjoint action)
    (member : map ∈ exchanging inverse action) :
    scaledAction inverse action * map ∈ exchanging inverse action := by
  obtain ⟨adjoint, exchanged⟩ := mem_exchanging.mp member
  -- the adjoint of the product has its factors the other way round, which is the product again
  have product := LinearMap.IsAdjointPair.mul (scaledAction_adjoint inverse symmetric) adjoint
  rw [← exchanged] at product
  refine mem_exchanging.mpr ⟨product, ?_⟩
  rw [mul_assoc _ map, exchanged]

/-- The map of the steps after the first: from the maps of the iterate and of the
last update and the last coefficient, a number of further degrees. -/
def recurrenceMap (bounds : ChebyshevBounds R) (inverse : Vector R n)
    (action : Module.End R (Fin n → R)) :
    Nat → Module.End R (Fin n → R) → Module.End R (Fin n → R) → R → Module.End R (Fin n → R)
  | 0, iterate, _, _ => iterate
  | degrees + 1, iterate, last, rho =>
    let next := 1 / (2 * bounds.s1 - rho)
    let residual := diagonal (entries inverse) - scaledAction inverse action * iterate
    let update := (2 * next * bounds.delta) • residual + (next * rho) • last
    recurrenceMap bounds inverse action degrees (iterate + update) update next

/-- The map of all steps from zero, for a degree. -/
def smoothMap (bounds : ChebyshevBounds R) (inverse : Vector R n)
    (action : Module.End R (Fin n → R)) (degree : Nat) : Module.End R (Fin n → R) :=
  recurrenceMap bounds inverse action (degree - 1) (firstMap bounds inverse)
    (firstMap bounds inverse) (1 / bounds.s1)

/-- The steps of the recurrence do not lead out of the subspace. -/
theorem recurrenceMap_mem (bounds : ChebyshevBounds R) (symmetric : pairing.IsSelfAdjoint action)
    (degrees : Nat) {iterate last : Module.End R (Fin n → R)} (rho : R)
    (iterateMem : iterate ∈ exchanging inverse action)
    (lastMem : last ∈ exchanging inverse action) :
    recurrenceMap bounds inverse action degrees iterate last rho ∈ exchanging inverse action := by
  induction degrees generalizing iterate last rho with
  | zero => exact iterateMem
  | succ degrees ih =>
    have residual : diagonal (entries inverse) - scaledAction inverse action * iterate ∈
        exchanging inverse action :=
      Submodule.sub_mem _ (diagonal_mem_exchanging inverse action)
        (scaledAction_mul_mem symmetric iterateMem)
    have update (a b : R) : a • (diagonal (entries inverse) -
        scaledAction inverse action * iterate) + b • last ∈ exchanging inverse action :=
      Submodule.add_mem _ (Submodule.smul_mem _ a residual) (Submodule.smul_mem _ b lastMem)
    exact ih _ (Submodule.add_mem _ iterateMem (update _ _)) (update _ _)

/-- The map of all steps is its own adjoint. -/
theorem isSelfAdjoint_smoothMap (bounds : ChebyshevBounds R) (inverse : Vector R n)
    (symmetric : pairing.IsSelfAdjoint action) (degree : Nat) :
    pairing.IsSelfAdjoint (smoothMap bounds inverse action degree) := by
  have first : firstMap bounds inverse ∈ exchanging inverse action :=
    Submodule.smul_mem _ _ (diagonal_mem_exchanging inverse action)
  exact (mem_exchanging.mp (recurrenceMap_mem bounds symmetric _ _ first first)).1

end Maps

variable {σ R : Type} [Field R] [LinearOrder R] [Roots R] {n : Nat} {inverse : Vector R n}
  {bounds : ChebyshevBounds R} {action : Module.End R (Fin n → R)}

/-- From a start and images of its residual the recurrence leads to the start and the
image under the map of the steps. -/
theorem recurrence_attains_map (op : Operator σ R n) (linear : op.Realizes action)
    (rhs : Vector R n) (start : Fin n → R) (degrees : Nat) {y w : Vector R n} (rho : R)
    {iterate last : Module.End R (Fin n → R)}
    (iterateImage : entries y = start + iterate (entries rhs - action start))
    (lastImage : entries w = last (entries rhs - action start)) :
    (recurrence op inverse bounds rhs degrees y w rho).Attains fun solved =>
      entries solved = start +
        recurrenceMap bounds inverse action degrees iterate last rho
          (entries rhs - action start) := by
  induction degrees generalizing y w rho iterate last with
  | zero => exact Attempt.attains_pure iterateImage
  | succ degrees ih =>
    refine Attempt.Attains.bind ((linear y).mapError _) ?_
    intro image known
    have residual : entries (hadamard inverse (rhs - image)) =
        (diagonal (entries inverse) - scaledAction inverse action * iterate)
          (entries rhs - action start) := by
      rw [entries_scaledResidual rhs known, scaledResidual, iterateImage, map_add,
        sub_add_eq_sub_sub, mul_sub]
      rfl
    have update (a b : R) : entries (axpy a (hadamard inverse (rhs - image)) b w) =
        (a • (diagonal (entries inverse) - scaledAction inverse action * iterate) + b • last)
          (entries rhs - action start) := by
      rw [entries_axpy, residual, lastImage]
      rfl
    have two : (Scalar.two : R) = 2 := Scalar.two_eq
    dsimp only
    rw [two]
    refine ih _ ?_ (update _ _)
    rw [entries_add, iterateImage, update, add_assoc]
    rfl

/-- From zero or from the given vector, all steps lead to the start and the image of its
residual under their map. -/
theorem smooth_attains_map (op : Operator σ R n) (linear : op.Realizes action) (degree : Nat)
    (zeroStart : Bool) (rhs y : Vector R n) :
    (smooth op inverse bounds degree zeroStart rhs y).Attains fun solved =>
      entries solved = startOf zeroStart y +
        smoothMap bounds inverse action degree
          (entries rhs - action (startOf zeroStart y)) := by
  cases zeroStart with
  | true =>
    have first : entries (divBy (hadamard inverse rhs) bounds.theta) =
        firstMap bounds inverse (entries rhs - action 0) := by
      rw [entries_divBy, entries_hadamard, map_zero, sub_zero]
      rfl
    have begun := first
    rw [← zero_add (firstMap bounds inverse _)] at begun
    exact recurrence_attains_map op linear rhs 0 (degree - 1) _ begun first
  | false =>
    unfold smooth
    rw [firstStep, if_neg Bool.false_ne_true, bind_assoc]
    refine Attempt.Attains.bind ((linear y).mapError _) ?_
    intro image known
    have first : entries (divBy (hadamard inverse (rhs - image)) bounds.theta) =
        firstMap bounds inverse (entries rhs - action (entries y)) := by
      rw [entries_divBy, entries_scaledResidual rhs known]
      rfl
    have begun : entries (y + divBy (hadamard inverse (rhs - image)) bounds.theta) =
        entries y + firstMap bounds inverse (entries rhs - action (entries y)) := by
      rw [entries_add, first]
    rw [pure_bind]
    exact recurrence_attains_map op linear rhs (entries y) (degree - 1) _ begun first

/-- The map of an application from zero, with the shortcut where the scaled
operator is taken to be the identity. -/
def applicationMap (params : ChebyshevParams R) (bounds : ChebyshevBounds R)
    (inverse : Vector R n) (action : Module.End R (Fin n → R)) : Module.End R (Fin n → R) :=
  if isIdentity params then diagonal (entries inverse)
  else smoothMap bounds inverse action params.degree

/-- The map of an application is its own adjoint. -/
theorem isSelfAdjoint_applicationMap (params : ChebyshevParams R) (bounds : ChebyshevBounds R)
    (inverse : Vector R n) (symmetric : pairing.IsSelfAdjoint action) :
    pairing.IsSelfAdjoint (applicationMap params bounds inverse action) := by
  unfold applicationMap
  split
  · exact isSelfAdjoint_diagonal _
  · exact isSelfAdjoint_smoothMap bounds inverse symmetric params.degree

/-- An application from zero attains the image of the right-hand side, and counts
the call. -/
theorem applyInverse_attains_map (smoother : Chebyshev R n) (op : Operator σ R n)
    (linear : op.Realizes action) (computed : smoother.phase = .computed inverse bounds)
    (zeroStart : smoother.params.zeroStart = true) (x y : Vector R n) :
    (smoother.applyInverse op x y).Attains fun result =>
      result.2 = smoother.recordApply ∧
        entries result.1 = applicationMap smoother.params bounds inverse action (entries x) := by
  unfold applyInverse applicationMap
  rw [computed]
  dsimp only
  split
  · exact Attempt.attains_pure ⟨rfl, entries_hadamard inverse x⟩
  · rw [zeroStart]
    refine Attempt.Attains.bind (smooth_attains_map op linear smoother.params.degree true x y) ?_
    intro solved same
    have begun : startOf true y = 0 := rfl
    rw [begun, map_zero, sub_zero, zero_add] at same
    exact Attempt.attains_pure ⟨rfl, same⟩

/-- A Chebyshev smoother is a symmetric preconditioner. In exact arithmetic, for
every symmetric linear operator and every computed smoother that starts from
zero, whatever its degree, its bounds and its inverted diagonal, and with the
identity shortcut or without: applying it always succeeds, the result is the
image of the right-hand side under one linear map, that of its recurrence, and
the map may be moved from one side of the inner product to the other. -/
theorem polynomial_applies_symmetric_map (smoother : Chebyshev R n) (op : Operator σ R n)
    (action : (Fin n → R) →ₗ[R] (Fin n → R)) (inverse : Vector R n) (bounds : ChebyshevBounds R)
    (linear : op.Realizes action) (symmetric : ∀ u v, action u ⬝ᵥ v = u ⬝ᵥ action v)
    (computed : smoother.phase = .computed inverse bounds)
    (zeroStart : smoother.params.zeroStart = true) :
    SymmetricApplication op.comm (smoother.applyInverseChecked op) smoother.recordApply
      (applicationMap smoother.params bounds inverse action) := by
  refine symmetricApplication_of_isSelfAdjoint op.comm
    (isSelfAdjoint_applicationMap smoother.params bounds inverse symmetric) ?_
  intro x y
  exact applyInverseChecked_attains smoother op computed x y
    (applyInverse_attains_map smoother op linear computed zeroStart x y)

/-- A symmetric operator that does not commute with its diagonal. -/
def coupled : (Fin 2 → Rat) →ₗ[Rat] (Fin 2 → Rat) := Matrix.mulVecLin !![2, 1; 1, 4]

/-- A computed smoother of degree three for it, with a zero start. -/
def coupledCubic : Chebyshev Rat 2 :=
  ⟨⟨2, 0, 1, 3, 0, true, .given, 0⟩, .computed (Vector.ofFn ![1 / 2, 1 / 4]) (.ofSpectrum 1 2),
    .zero, none, .zero⟩

/-- The symmetric map of a smoother of degree three. -/
theorem polynomial_applies_symmetric_map_coupled :
    SymmetricApplication .serial (coupledCubic.applyInverseChecked (.ofAction coupled Unit))
      coupledCubic.recordApply
      (applicationMap coupledCubic.params (.ofSpectrum 1 2) #v[1 / 2, 1 / 4] coupled) :=
  polynomial_applies_symmetric_map coupledCubic (.ofAction coupled Unit) coupled #v[1 / 2, 1 / 4]
    (.ofSpectrum 1 2) (Operator.realizes_ofAction _ Unit)
    (by
      intro u v
      simp only [coupled, Matrix.mulVecLin_apply, dotProduct, Matrix.mulVec, Fin.sum_univ_two,
        Matrix.of_apply, Matrix.cons_val_zero, Matrix.cons_val_one]
      ring)
    rfl rfl

end HexSlab.Chebyshev
