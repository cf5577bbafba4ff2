import HexSlab.Proofs.Smoother.ChebyshevCalls
import HexSlab.Proofs.Smoother.Corrections
import HexSlab.Proofs.Smoother.ProductSteps

/-!
# Smoothers whose operator fails

A Chebyshev smoother and Jacobi sweeps take steps with one product each, so where a
product fails they leave what a lower degree or fewer sweeps return. Gauss-Seidel sweeps
read rows instead, and a smoother that takes the scaled operator to be the identity reads
the diagonal; neither asks for a product. All of this holds in any arithmetic.
-/

namespace HexSlab

variable {σ R : Type} {n : Nat}

namespace Chebyshev

/-- What is kept between the products of a smoother: the iterate, and after the first
step the last update and the last coefficient. -/
structure Progress (R : Type) (n : Nat) where
  /-- The iterate. -/
  iterate : Vector R n
  /-- The last update and the last coefficient. -/
  last? : Option (Vector R n × R)

variable [Scalar R]

/-- The step that follows a product. -/
def Progress.advance (inverse : Vector R n) (bounds : ChebyshevBounds R) (x : Vector R n)
    (progress : Progress R n) (image : Vector R n) : Progress R n :=
  let residual := Vec.hadamard inverse (x - image)
  match progress.last? with
  | none =>
    let update := Vec.divBy residual bounds.theta
    ⟨progress.iterate + update, some (update, 1 / bounds.s1)⟩
  | some (w, rho) =>
    let next := 1 / (Scalar.two * bounds.s1 - rho)
    let update := Vec.axpy (Scalar.two * next * bounds.delta) residual (next * rho) w
    ⟨progress.iterate + update, some (update, next)⟩

/-- Where the products begin: from zero after the first step, which needs none. -/
def Progress.begin (inverse : Vector R n) (bounds : ChebyshevBounds R) (zeroStart : Bool)
    (x y : Vector R n) : Progress R n :=
  if zeroStart then
    let update := Vec.divBy (Vec.hadamard inverse x) bounds.theta
    ⟨update, some (update, 1 / bounds.s1)⟩
  else ⟨y, none⟩

variable (op : Operator σ R n) (inverse : Vector R n) (bounds : ChebyshevBounds R)

/-- The recurrence takes steps with one product each. -/
theorem recurrence_eq_productSteps (x : Vector R n) (degrees : Nat) (y w : Vector R n) (rho : R) :
    recurrence op inverse bounds x degrees y w rho =
      productSteps op Progress.iterate (Progress.advance inverse bounds x) degrees
        ⟨y, some (w, rho)⟩ := by
  induction degrees generalizing y w rho with
  | zero => rfl
  | succ degrees ih =>
    rw [recurrence, productSteps]
    congr 1
    funext image
    exact ih _ _ _

/-- The number of products for a degree: one less from zero. -/
def productCount (zeroStart : Bool) (degree : Nat) : Nat :=
  if zeroStart then degree - 1 else degree

/-- The degree that a number of products reaches. -/
def reachedDegree (zeroStart : Bool) (products : Nat) : Nat :=
  if zeroStart then products + 1 else products

omit [Scalar R] in
/-- A positive degree is reached with its products. -/
theorem productCount_reachedDegree (zeroStart : Bool) (products : Nat) :
    productCount zeroStart (reachedDegree zeroStart products) = products := by
  cases zeroStart <;> rfl

/-- A smoother of a positive degree takes steps with one product each. -/
theorem smooth_eq_productSteps (zeroStart : Bool) {degree : Nat} (positive : degree ≠ 0)
    (x y : Vector R n) :
    smooth op inverse bounds degree zeroStart x y =
      productSteps op Progress.iterate (Progress.advance inverse bounds x)
        (productCount zeroStart degree) (Progress.begin inverse bounds zeroStart x y) := by
  unfold smooth firstStep
  cases zeroStart with
  | true => exact recurrence_eq_productSteps op inverse bounds x (degree - 1) _ _ _
  | false =>
    obtain ⟨degrees, rfl⟩ := Nat.exists_eq_succ_of_ne_zero positive
    simp only [recurrence_eq_productSteps, Bool.false_eq_true, if_false, bind_assoc, pure_bind]
    rfl

variable {op inverse bounds}

/-- Outside the identity shortcut a computed smoother reports what its steps come to. -/
theorem applyInverseChecked_eq {smoother : Chebyshev R n}
    (computed : smoother.phase = .computed inverse bounds)
    (outside : isIdentity smoother.params = false) (x y : Vector R n) :
    smoother.applyInverseChecked op x.toArray y.toArray =
      (smooth op inverse bounds smoother.params.degree smoother.params.zeroStart x y).reporting
        smoother.recordApply := by
  have ready : smoother.isComputed = true := by rw [isComputed, computed]
  rw [applyInverseChecked, if_pos ready, checkPair_eq_ok_iff.mpr ⟨rfl, rfl⟩]
  dsimp only
  rw [applyInverse_eq_smooth computed outside]
  exact Attempt.reporting_eq _ _

/-- The smoother with another degree. -/
def withDegree (smoother : Chebyshev R n) (degree : Nat) : Chebyshev R n :=
  { smoother with params := { smoother.params with degree := degree } }

/-- What a smoother returns at another degree, where degree zero leaves the vector as it
is given. -/
def returnsAt (smoother : Chebyshev R n) (op : Operator σ R n) (degree : Nat) (x y : Array R) :
    Attempt σ (PreconditionerError R × Array R) (Array R × Chebyshev R n) :=
  if degree = 0 then pure (y, smoother) else (smoother.withDegree degree).applyInverseChecked op x y

/-- A computed smoother stops at a failure with what a lower degree returns. -/
theorem stopsAtFailure (op : Operator σ R n) {smoother : Chebyshev R n}
    (computed : smoother.phase = .computed inverse bounds) (positive : smoother.params.degree ≠ 0)
    (outside : isIdentity smoother.params = false) (x y : Vector R n) :
    StopsAtFailure op (productCount smoother.params.zeroStart smoother.params.degree)
      (smoother.applyInverseChecked op.counted x.toArray y.toArray)
      fun made => smoother.returnsAt op.counted (reachedDegree smoother.params.zeroStart made)
        x.toArray y.toArray := by
  have steps (degree : Nat) (positive : degree ≠ 0) :
      (smoother.withDegree degree).applyInverseChecked op.counted x.toArray y.toArray =
        (productSteps op.counted Progress.iterate (Progress.advance inverse bounds x)
          (productCount smoother.params.zeroStart degree)
          (Progress.begin inverse bounds smoother.params.zeroStart x y)).reporting
          (smoother.withDegree degree).recordApply := by
    have same : (smoother.withDegree degree).phase = .computed inverse bounds := computed
    rw [applyInverseChecked_eq same outside, ← smooth_eq_productSteps _ _ _ _ positive]
    rfl
  refine stopsAtFailure_of_steps (steps smoother.params.degree positive) ?_
  intro made _
  unfold returnsAt
  split
  · rename_i zero
    -- no product at all belongs to the given vector: from zero the first step needs none
    have given : smoother.params.zeroStart = false := by
      by_contra begun
      rw [Bool.not_eq_false] at begun
      rw [begun] at zero
      cases zero
    rw [given] at zero ⊢
    have none : made = 0 := zero
    rw [none]
    exact ⟨smoother, rfl⟩
  · rename_i reached
    have whole := steps (reachedDegree smoother.params.zeroStart made) reached
    rw [productCount_reachedDegree] at whole
    exact ⟨_, whole⟩

/-- A smoother that takes the scaled operator to be the identity asks for no product. -/
theorem neverCalls (op : Operator σ R n) {smoother : Chebyshev R n}
    (computed : smoother.phase = .computed inverse bounds)
    (identity : isIdentity smoother.params = true) (x y : Vector R n) :
    NeverCalls op fun op => smoother.applyInverseChecked op x.toArray y.toArray := by
  have ready : smoother.isComputed = true := by rw [isComputed, computed]
  have whole (op : Operator σ R n) : smoother.applyInverseChecked op x.toArray y.toArray =
      pure ((Vec.hadamard inverse x).toArray, smoother.recordApply) := by
    rw [applyInverseChecked, if_pos ready, checkPair_eq_ok_iff.mpr ⟨rfl, rfl⟩]
    dsimp only
    rw [applyInverse, computed]
    dsimp only
    rw [identity, if_pos rfl]
    rfl
  constructor
  · intro product
    rw [whole, whole]
  · intro state
    rw [whole]
    rfl

end Chebyshev

namespace Relaxation

variable [Scalar R] {op : Operator σ R n} {inverse : Vector R n}

/-- A computed relaxation reports what its sweeps come to. -/
theorem applyInverseChecked_eq {relaxation : Relaxation R n}
    (computed : relaxation.phase = .computed inverse) (x y : Vector R n) :
    relaxation.applyInverseChecked op x.toArray y.toArray =
      (smooth op inverse relaxation.params x y).reporting relaxation.recordApply := by
  have ready : relaxation.isComputed = true := by rw [isComputed, computed]
  rw [applyInverseChecked, if_pos ready, checkPair_eq_ok_iff.mpr ⟨rfl, rfl⟩]
  dsimp only
  rw [applyInverse, computed]
  exact Attempt.reporting_eq _ _

/-- Jacobi sweeps are steps with one product each. -/
theorem sweepTimes_eq_productSteps (op : Operator σ R n) (inverse : Vector R n) (damping : R)
    (x : Vector R n) (count : Nat) (y : Vector R n) :
    sweepTimes op inverse .jacobi damping x count y =
      productSteps op id
        (fun y image => Vec.axpy damping (Vec.hadamard inverse (x - image)) 1 y) count y := by
  induction count generalizing y with
  | zero => rfl
  | succ count ih =>
    rw [sweepTimes, productSteps, sweepOnce, jacobiSweep, bind_assoc]
    congr 1
    funext image
    rw [pure_bind]
    exact ih _

/-- The relaxation with another number of sweeps. -/
def withSweeps (relaxation : Relaxation R n) (sweeps : Nat) : Relaxation R n :=
  { relaxation with params := { relaxation.params with sweeps := sweeps } }

/-- Jacobi sweeps stop at a failure with what fewer of them return. -/
theorem stopsAtFailure (op : Operator σ R n) {relaxation : Relaxation R n}
    (computed : relaxation.phase = .computed inverse)
    (kind : relaxation.params.sweep = .jacobi) (x y : Vector R n) :
    StopsAtFailure op relaxation.params.sweeps
      (relaxation.applyInverseChecked op.counted x.toArray y.toArray)
      fun made => (relaxation.withSweeps made).applyInverseChecked op.counted x.toArray
        y.toArray := by
  have steps (sweeps : Nat) :
      (relaxation.withSweeps sweeps).applyInverseChecked op.counted x.toArray y.toArray =
        (productSteps op.counted id
          (fun y image => Vec.axpy relaxation.params.damping (Vec.hadamard inverse (x - image)) 1 y)
          sweeps (if relaxation.params.zeroStart then Vec.fill 0 else y)).reporting
          (relaxation.withSweeps sweeps).recordApply := by
    have same : (relaxation.withSweeps sweeps).phase = .computed inverse := computed
    have jacobi : (relaxation.withSweeps sweeps).params.sweep = .jacobi := kind
    rw [applyInverseChecked_eq same, ← sweepTimes_eq_productSteps, smooth, jacobi]
    rfl
  exact stopsAtFailure_of_steps (steps relaxation.params.sweeps) fun made _ =>
    ⟨_, steps made⟩

/-- A pass reads the rows of the operator and nothing else. -/
theorem gaussSeidelPass_of_rows (op : Operator σ R n)
    (product : Vector R n → Attempt σ OperatorError (Vector R n)) (inverse : Vector R n)
    (damping : R) (x : Vector R n) (order : List (Fin n)) :
    gaussSeidelPass { op with apply := product } inverse damping x order =
      gaussSeidelPass op inverse damping x order := by
  induction order with
  | nil => rfl
  | cons i rest ih =>
    funext y
    rw [gaussSeidelPass_cons, gaussSeidelPass_cons, ih]

/-- Gauss-Seidel sweeps do the same for every operator with the same rows. -/
theorem sweepTimes_of_rows (op : Operator σ R n)
    (product : Vector R n → Attempt σ OperatorError (Vector R n)) (inverse : Vector R n)
    {sweep : Sweep} (kind : sweep ≠ .jacobi) (damping : R) (x : Vector R n) (count : Nat)
    (y : Vector R n) :
    sweepTimes { op with apply := product } inverse sweep damping x count y =
      sweepTimes op inverse sweep damping x count y := by
  have once (y : Vector R n) :
      sweepOnce { op with apply := product } inverse sweep damping x y =
        sweepOnce op inverse sweep damping x y := by
    cases sweep with
    | jacobi => exact absurd rfl kind
    | gaussSeidel =>
      simp only [sweepOnce, gaussSeidelPass_of_rows]
      rfl
    | symmetricGaussSeidel =>
      simp only [sweepOnce, gaussSeidelPass_of_rows]
      rfl
  induction count generalizing y with
  | zero => rfl
  | succ count ih =>
    rw [sweepTimes, sweepTimes, once]
    simp only [ih]

/-- Gauss-Seidel sweeps leave the state of the run alone. -/
theorem run_sweepTimes_still (op : Operator σ R n) (inverse : Vector R n) {sweep : Sweep}
    (kind : sweep ≠ .jacobi) (damping : R) (x : Vector R n) (count : Nat) (y : Vector R n)
    (state : σ) : ((sweepTimes op inverse sweep damping x count y).run state).2 = state := by
  have once (y : Vector R n) : ((sweepOnce op inverse sweep damping x y).run state).2 = state := by
    cases sweep with
    | jacobi => exact absurd rfl kind
    | gaussSeidel => rfl
    | symmetricGaussSeidel => rfl
  induction count generalizing y with
  | zero => rfl
  | succ count ih =>
    have first := once y
    rw [sweepTimes, Attempt.run_bind]
    rcases taken : (sweepOnce op inverse sweep damping x y).run state with
      ⟨interrupted | next, after⟩
    · rw [taken] at first
      exact first
    · rw [taken] at first
      have same : after = state := first
      rw [same]
      exact ih next

/-- Gauss-Seidel sweeps ask for no product. -/
theorem neverCalls (op : Operator σ R n) {relaxation : Relaxation R n}
    (computed : relaxation.phase = .computed inverse) (kind : relaxation.params.sweep ≠ .jacobi)
    (x y : Vector R n) :
    NeverCalls op fun op => relaxation.applyInverseChecked op x.toArray y.toArray where
  same := by
    intro product
    rw [applyInverseChecked_eq computed, applyInverseChecked_eq computed, smooth, smooth,
      sweepTimes_of_rows op product inverse kind]
  still := by
    intro state
    rw [applyInverseChecked_eq computed, Attempt.run_reporting_snd]
    exact run_sweepTimes_still op inverse kind _ x _ _ state

end Relaxation

/-- A failed product leaves a result of lower order. In any arithmetic and for every
operator, whenever and for whatever reason it fails, the applications of a computed
smoother to vectors that fit it stop at the first product that fails, with the operator's
error. A Chebyshev smoother of a positive degree makes as many products as its degree
says, one less from zero, and leaves what the degree returns that the products before the
failure suffice for. Jacobi makes one product for each sweep and leaves what the sweeps
before return. Gauss-Seidel sweeps, and a Chebyshev smoother that takes the scaled
operator to be the identity, ask for no product at all. -/
theorem failed_product_leaves_lower_order [Scalar R] (op : Operator σ R n) (x y : Vector R n) :
    (∀ (smoother : Chebyshev R n) (inverse : Vector R n) (bounds : ChebyshevBounds R),
      smoother.phase = .computed inverse bounds → 1 ≤ smoother.params.degree →
      Chebyshev.isIdentity smoother.params = false →
      StopsAtFailure op
        (Chebyshev.productCount smoother.params.zeroStart smoother.params.degree)
        (smoother.applyInverseChecked op.counted x.toArray y.toArray)
        fun made => smoother.returnsAt op.counted
          (Chebyshev.reachedDegree smoother.params.zeroStart made) x.toArray y.toArray) ∧
    (∀ (smoother : Chebyshev R n) (inverse : Vector R n) (bounds : ChebyshevBounds R),
      smoother.phase = .computed inverse bounds → Chebyshev.isIdentity smoother.params = true →
      NeverCalls op fun op => smoother.applyInverseChecked op x.toArray y.toArray) ∧
    (∀ (relaxation : Relaxation R n) (inverse : Vector R n),
      relaxation.phase = .computed inverse → relaxation.params.sweep = .jacobi →
      StopsAtFailure op relaxation.params.sweeps
        (relaxation.applyInverseChecked op.counted x.toArray y.toArray)
        fun made => (relaxation.withSweeps made).applyInverseChecked op.counted x.toArray
          y.toArray) ∧
    (∀ (relaxation : Relaxation R n) (inverse : Vector R n),
      relaxation.phase = .computed inverse → relaxation.params.sweep ≠ .jacobi →
      NeverCalls op fun op => relaxation.applyInverseChecked op x.toArray y.toArray) := by
  refine ⟨?_, ?_, ?_, ?_⟩
  · intro smoother inverse bounds computed positive outside
    exact Chebyshev.stopsAtFailure op computed (Nat.one_le_iff_ne_zero.mp positive) outside x y
  · intro smoother inverse bounds computed identity
    exact Chebyshev.neverCalls op computed identity x y
  · intro relaxation inverse computed kind
    exact Relaxation.stopsAtFailure op computed kind x y
  · intro relaxation inverse computed kind
    exact Relaxation.neverCalls op computed kind x y

/-- A matrix whose third product fails. -/
def failingThird : Operator Nat Rat 2 :=
  (⟨2, 2, #[0, 2, 4], #[0, 1, 0, 1], #[2, 1, 1, 3]⟩ : Csr Rat).operator .serial (some 2)

/-- A computed smoother of degree four for it, which starts from the given vector. -/
def quartic : Chebyshev Rat 2 :=
  ⟨⟨2, 0, 1, 4, 0, false, .given, 0⟩, .computed #v[1 / 2, 1 / 3] (.ofSpectrum 1 2), .zero, none,
    .zero⟩

/-- The same smoother, told that its scaled operator is the identity. -/
def toldIdentity : Chebyshev Rat 2 :=
  { quartic with params := { quartic.params with lambdaMin := 1, lambdaMax := 1 } }

/-- Three computed sweeps of a kind from zero. -/
def threeSweeps (sweep : Sweep) : Relaxation Rat 2 :=
  ⟨⟨sweep, 3, 3 / 2, 0, true⟩, .computed #v[1 / 2, 1 / 3], 2, 4, .zero⟩

/-- The third product of four fails on what degree two returns, and leaves it. Jacobi
sweeps for the same operator stop as well, and the rest never asks it for a product. -/
theorem failed_product_leaves_lower_order_third :
    (∃ (v : Vector Rat 2) (kept : Chebyshev Rat 2) (between : Nat) (error : OperatorError)
        (after : Nat),
      (quartic.returnsAt failingThird.counted 2 #[3, 4] #[1, 5]).run (0, 0) =
        (.ok (v.toArray, kept), between, 2) ∧
      (failingThird.apply v).run between = (.error error, after) ∧
      (quartic.applyInverseChecked failingThird.counted #[3, 4] #[1, 5]).run (0, 0) =
        (.error (.operator error, v.toArray), after, 3)) ∧
    NeverCalls failingThird (fun op => toldIdentity.applyInverseChecked op #[3, 4] #[1, 5]) ∧
    StopsAtFailure failingThird 3
      ((threeSweeps .jacobi).applyInverseChecked failingThird.counted #[3, 4] #[1, 5])
      (fun made => ((threeSweeps .jacobi).withSweeps made).applyInverseChecked
        failingThird.counted #[3, 4] #[1, 5]) ∧
    NeverCalls failingThird fun op =>
      (threeSweeps .symmetricGaussSeidel).applyInverseChecked op #[3, 4] #[1, 5] := by
  obtain ⟨chebyshev, identity, jacobi, gaussSeidel⟩ :=
    failed_product_leaves_lower_order failingThird #v[3, 4] #v[1, 5]
  refine ⟨?_, identity toldIdentity _ _ rfl (by decide +kernel),
    jacobi (threeSweeps .jacobi) _ rfl rfl,
    gaussSeidel (threeSweeps .symmetricGaussSeidel) _ rfl (by decide)⟩
  have stops := chebyshev quartic _ _ rfl (by decide) (by decide +kernel)
  have third : ((quartic.applyInverseChecked failingThird.counted #[3, 4] #[1, 5]).run (0, 0)).2.2 =
      3 := by decide +kernel
  rcases run : (quartic.applyInverseChecked failingThird.counted #[3, 4] #[1, 5]).run (0, 0) with
    ⟨failure | result, after, calls⟩
  · rw [run] at third
    obtain rfl : calls = 3 := third
    obtain ⟨made, fewer, counts, v, kept, between, error, part, failed, rfl⟩ :=
      (stops.fails_iff 0 failure after 3).mp run
    obtain rfl : made = 2 := by omega
    exact ⟨v, kept, between, error, after, part, failed, rfl⟩
  · have four := stops.completes 0 result after calls run
    rw [run, four] at third
    cases third

end HexSlab
