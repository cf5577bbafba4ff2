import HexSlab.Proofs.Smoother.ChebyshevCalls
import HexSlab.Proofs.Smoother.ChebyshevCoefficients
import Mathlib.Algebra.Module.LinearMap.End
import Mathlib.Algebra.Module.Rat
import Mathlib.Tactic.Module

/-!
# A Chebyshev smoother is a Chebyshev polynomial

The recurrence keeps an iterate and the last update of it. Scaled by the
polynomials at the center, the residuals of the iterate and of the one before
are polynomials in the scaled operator, applied to the residual of the start.
Each step takes such a pair to the next degree, because the coefficients are
quotients of the polynomials at the center.
-/

namespace HexSlab.Chebyshev

open Vec

variable {σ R : Type} [Field R] {n : Nat}

/-- The operator scaled by the inverted diagonal. -/
def scaledAction (inverse : Vector R n) (action : (Fin n → R) →ₗ[R] (Fin n → R)) :
    Module.End R (Fin n → R) :=
  (diagonal (entries inverse)).comp action

/-- The operator after the inverted diagonal. -/
def actionScaled (inverse : Vector R n) (action : Module.End R (Fin n → R)) :
    Module.End R (Fin n → R) :=
  action.comp (diagonal (entries inverse))

/-- The residual of an iterate scaled by the inverted diagonal. -/
def scaledResidual (inverse : Vector R n) (action : (Fin n → R) →ₗ[R] (Fin n → R))
    (x y : Fin n → R) : Fin n → R :=
  entries inverse * (x - action y)

/-- The scaled operator moved so that the damped interval lies between minus
one and one. -/
def centered (bounds : ChebyshevBounds R) (inverse : Vector R n)
    (action : (Fin n → R) →ₗ[R] (Fin n → R)) : Module.End R (Fin n → R) :=
  bounds.delta • (bounds.theta • (1 : Module.End R (Fin n → R)) - scaledAction inverse action)

/-- The map of a first step from zero. -/
def firstMap (bounds : ChebyshevBounds R) (inverse : Vector R n) : Module.End R (Fin n → R) :=
  bounds.theta⁻¹ • diagonal (entries inverse)

/-- An update of the iterate changes the residual by its image. -/
theorem scaledResidual_add (inverse : Vector R n) (action : (Fin n → R) →ₗ[R] (Fin n → R))
    (x y w : Fin n → R) :
    scaledResidual inverse action x (y + w) =
      scaledResidual inverse action x y - scaledAction inverse action w := by
  have image : scaledAction inverse action w = entries inverse * action w := rfl
  rw [scaledResidual, scaledResidual, image, map_add, ← mul_sub, sub_add_eq_sub_sub]

/-- The centered operator applied to a vector. -/
theorem centered_apply (bounds : ChebyshevBounds R) (inverse : Vector R n)
    (action : (Fin n → R) →ₗ[R] (Fin n → R)) (v : Fin n → R) :
    centered bounds inverse action v =
      bounds.delta • (bounds.theta • v - scaledAction inverse action v) := rfl

/-- After a number of further degrees the residuals of the iterate and of the
one before, both scaled by polynomials at the center, are polynomials applied
to the residual of the start. -/
structure Reached (bounds : ChebyshevBounds R) (inverse : Vector R n)
    (action : (Fin n → R) →ₗ[R] (Fin n → R)) (x first : Fin n → R) (degree : Nat)
    (y w : Fin n → R) : Prop where
  /-- The residual of the iterate. -/
  current : chebyshevAt R bounds.s1 (degree + 1) • scaledResidual inverse action x y =
    chebyshevAt R (centered bounds inverse action) (degree + 1) first
  /-- The residual before the last update. -/
  previous : chebyshevAt R bounds.s1 degree •
      (scaledResidual inverse action x y + scaledAction inverse action w) =
    chebyshevAt R (centered bounds inverse action) degree first

variable {bounds : ChebyshevBounds R} {inverse : Vector R n}
  {action : (Fin n → R) →ₗ[R] (Fin n → R)} {x first y w : Fin n → R}

/-- The first update leads to the first polynomial. -/
theorem reached_zero (center : bounds.s1 = bounds.theta * bounds.delta) (theta : bounds.theta ≠ 0)
    (y : Fin n → R) :
    Reached bounds inverse action x (scaledResidual inverse action x y) 0
      (y + bounds.theta⁻¹ • scaledResidual inverse action x y)
      (bounds.theta⁻¹ • scaledResidual inverse action x y) where
  current := by
    have cancel : bounds.theta * bounds.delta * bounds.theta⁻¹ = bounds.delta := by field_simp
    rw [scaledResidual_add, map_smul, chebyshevAt_one, chebyshevAt_one, centered_apply, center,
      smul_sub, smul_smul, smul_sub, smul_smul, cancel, mul_comm bounds.theta]
  previous := by
    rw [scaledResidual_add, sub_add_cancel, chebyshevAt_zero, chebyshevAt_zero, one_smul]
    rfl

/-- A step leads from a polynomial to the next. -/
theorem Reached.step (center : bounds.s1 = bounds.theta * bounds.delta) {degree : Nat}
    (reached : Reached bounds inverse action x first degree y w) {update : Fin n → R}
    (updated : chebyshevAt R bounds.s1 (degree + 2) • update =
      (2 * bounds.delta * chebyshevAt R bounds.s1 (degree + 1)) •
          scaledResidual inverse action x y + chebyshevAt R bounds.s1 degree • w) :
    Reached bounds inverse action x first (degree + 1) (y + update) update where
  current := by
    have values : chebyshevAt R bounds.s1 (degree + 2) =
        2 * (bounds.theta * bounds.delta) * chebyshevAt R bounds.s1 (degree + 1) -
          chebyshevAt R bounds.s1 degree := by
      rw [chebyshevAt_add_two, center]
    have operators : chebyshevAt R (centered bounds inverse action) (degree + 2) first =
        (2 : R) • centered bounds inverse action
            (chebyshevAt R (centered bounds inverse action) (degree + 1) first) -
          chebyshevAt R (centered bounds inverse action) degree first := by
      rw [chebyshevAt_add_two, two_smul, two_mul, add_mul]
      rfl
    calc chebyshevAt R bounds.s1 (degree + 2) • scaledResidual inverse action x (y + update)
        = chebyshevAt R bounds.s1 (degree + 2) • scaledResidual inverse action x y -
            scaledAction inverse action (chebyshevAt R bounds.s1 (degree + 2) • update) := by
          rw [scaledResidual_add, smul_sub, map_smul]
      _ = (2 : R) • centered bounds inverse action
              (chebyshevAt R bounds.s1 (degree + 1) • scaledResidual inverse action x y) -
            chebyshevAt R bounds.s1 degree •
              (scaledResidual inverse action x y + scaledAction inverse action w) := by
          rw [updated, centered_apply, map_add, map_smul, map_smul, map_smul, values]
          module
      _ = chebyshevAt R (centered bounds inverse action) (degree + 2) first := by
          rw [reached.current, reached.previous, operators]
  previous := by
    rw [scaledResidual_add, sub_add_cancel]
    exact reached.current

variable [LinearOrder R] [Roots R]

/-- The scaled residual as it is computed, from the image of the iterate. -/
theorem entries_scaledResidual (rhs : Vector R n) {y image : Vector R n}
    (known : entries image = action (entries y)) :
    entries (hadamard inverse (rhs - image)) =
      scaledResidual inverse action (entries rhs) (entries y) := by
  rw [entries_hadamard, entries_sub, known, scaledResidual]

/-- The recurrence goes from each coefficient to the next, and the update of a
step is weighted by both. -/
theorem recurrence_succ (op : Operator σ R n) (inverse : Vector R n) (bounds : ChebyshevBounds R)
    (rhs : Vector R n) (degrees step : Nat) (y w : Vector R n) :
    recurrence op inverse bounds rhs (degrees + 1) y w (bounds.coefficient step) =
      (op.apply y).leaving y >>= fun image =>
        let update := axpy (Scalar.two * bounds.coefficient (step + 1) * bounds.delta)
          (hadamard inverse (rhs - image))
          (bounds.coefficient (step + 1) * bounds.coefficient step) w
        recurrence op inverse bounds rhs degrees (y + update) update
          (bounds.coefficient (step + 1)) := rfl

/-- What a computed smoother attains for vectors it attains for their entries,
since the checks succeed. -/
theorem applyInverseChecked_attains (smoother : Chebyshev R n) (op : Operator σ R n)
    (computed : smoother.phase = .computed inverse bounds) (x y : Vector R n)
    {holds : Vector R n × Chebyshev R n → Prop}
    (inner : (smoother.applyInverse op x y).Attains holds) :
    (smoother.applyInverseChecked op x.toArray y.toArray).Attains fun result =>
      ∃ value, result = (value.1.toArray, value.2) ∧ holds value := by
  have ready : smoother.isComputed = true := by rw [isComputed, computed]
  rw [applyInverseChecked, if_pos ready]
  exact Attempt.attains_checkPair inner

variable [IsStrictOrderedRing R]

/-- The weights of the recurrence are those of a step, in terms of the
polynomials at the center. -/
theorem update_eq (sound : bounds.Sound) (step : Nat) (residual w : Fin n → R) :
    chebyshevAt R bounds.s1 (step + 2) •
        ((2 * bounds.coefficient (step + 1) * bounds.delta) • residual +
          (bounds.coefficient (step + 1) * bounds.coefficient step) • w) =
      (2 * bounds.delta * chebyshevAt R bounds.s1 (step + 1)) • residual +
        chebyshevAt R bounds.s1 step • w := by
  have current := (chebyshevAt_pos sound.one_lt_s1 (step + 1)).ne'
  have next := (chebyshevAt_pos sound.one_lt_s1 (step + 2)).ne'
  have first : chebyshevAt R bounds.s1 (step + 2) *
      (2 * bounds.coefficient (step + 1) * bounds.delta) =
      2 * bounds.delta * chebyshevAt R bounds.s1 (step + 1) := by
    rw [sound.coefficient_eq]
    field_simp
  have second : chebyshevAt R bounds.s1 (step + 2) *
      (bounds.coefficient (step + 1) * bounds.coefficient step) =
      chebyshevAt R bounds.s1 step := by
    rw [sound.coefficient_eq, sound.coefficient_eq]
    field_simp
  rw [smul_add, smul_smul, smul_smul, first, second]

/-- Each step of the recurrence leads to the next degree. -/
theorem recurrence_attains (op : Operator σ R n) (linear : op.Realizes action)
    (sound : bounds.Sound) (rhs : Vector R n) (degrees step : Nat) (y w : Vector R n)
    (reached : Reached bounds inverse action (entries rhs) first step (entries y) (entries w)) :
    (recurrence op inverse bounds rhs degrees y w (bounds.coefficient step)).Attains
      fun solved => ∃ last, Reached bounds inverse action (entries rhs) first (step + degrees)
        (entries solved) last := by
  induction degrees generalizing step y w with
  | zero => exact Attempt.attains_pure ⟨entries w, reached⟩
  | succ degrees ih =>
    rw [recurrence_succ]
    refine Attempt.Attains.bind ((linear y).mapError _) ?_
    intro image known
    dsimp only
    rw [Nat.add_comm degrees 1, ← Nat.add_assoc]
    refine ih (step + 1) _ _ ?_
    rw [entries_add]
    apply reached.step sound.s1_eq
    rw [entries_axpy, entries_scaledResidual rhs known, Scalar.two_eq]
    exact update_eq sound step _ _

/-- The vector that an application starts from. -/
def startOf (zeroStart : Bool) (y : Vector R n) : Fin n → R := if zeroStart then 0 else entries y

/-- The first step leads to degree one, from zero or from the given vector. -/
theorem firstStep_attains (op : Operator σ R n) (linear : op.Realizes action)
    (sound : bounds.Sound) (zeroStart : Bool) (rhs y : Vector R n) :
    (firstStep op inverse bounds zeroStart rhs y).Attains fun reached =>
      Reached bounds inverse action (entries rhs)
        (scaledResidual inverse action (entries rhs) (startOf zeroStart y)) 0
        (entries reached.1) (entries reached.2) := by
  have begun : ∀ start, Reached bounds inverse action (entries rhs)
      (scaledResidual inverse action (entries rhs) start) 0
      (start + bounds.theta⁻¹ • scaledResidual inverse action (entries rhs) start)
      (bounds.theta⁻¹ • scaledResidual inverse action (entries rhs) start) :=
    reached_zero sound.s1_eq sound.theta_pos.ne'
  cases zeroStart with
  | true =>
    apply Attempt.attains_pure
    have residual : entries (hadamard inverse rhs) =
        scaledResidual inverse action (entries rhs) 0 := by
      rw [entries_hadamard, scaledResidual, map_zero, sub_zero]
    have zero : startOf true y = 0 := rfl
    have whole := begun 0
    rw [zero_add] at whole
    dsimp only
    rw [entries_divBy, residual, zero]
    exact whole
  | false =>
    refine Attempt.Attains.bind ((linear y).mapError _) ?_
    intro image known
    apply Attempt.attains_pure
    have given : startOf false y = entries y := rfl
    dsimp only
    rw [entries_add, entries_divBy, entries_scaledResidual rhs known, given]
    exact begun (entries y)

/-- A smoother of a positive degree attains its polynomial. -/
theorem smooth_attains (op : Operator σ R n) (linear : op.Realizes action) (sound : bounds.Sound)
    {degree : Nat} (positive : degree ≠ 0) (zeroStart : Bool) (rhs y : Vector R n) :
    (smooth op inverse bounds degree zeroStart rhs y).Attains fun solved =>
      chebyshevAt R bounds.s1 degree •
          scaledResidual inverse action (entries rhs) (entries solved) =
        chebyshevAt R (centered bounds inverse action) degree
          (scaledResidual inverse action (entries rhs) (startOf zeroStart y)) := by
  unfold smooth
  refine Attempt.Attains.bind (firstStep_attains op linear sound zeroStart rhs y) ?_
  intro begun reached
  have run := recurrence_attains op linear sound rhs (degree - 1) 0 begun.1 begun.2 reached
  have total : 0 + (degree - 1) + 1 = degree := by omega
  refine run.mono ?_
  rintro solved ⟨last, final⟩
  have current := final.current
  rw [total] at current
  exact current

/-- Outside the identity shortcut a computed smoother attains its polynomial,
and counts the call. -/
theorem applyInverse_attains (smoother : Chebyshev R n) (op : Operator σ R n)
    (linear : op.Realizes action) (sound : bounds.Sound)
    (computed : smoother.phase = .computed inverse bounds)
    (positive : smoother.params.degree ≠ 0) (outside : isIdentity smoother.params = false)
    (x y : Vector R n) :
    (smoother.applyInverse op x y).Attains fun result =>
      result.2 = smoother.recordApply ∧
        chebyshevAt R bounds.s1 smoother.params.degree •
            scaledResidual inverse action (entries x) (entries result.1) =
          chebyshevAt R (centered bounds inverse action) smoother.params.degree
            (scaledResidual inverse action (entries x) (startOf smoother.params.zeroStart y)) := by
  rw [applyInverse_eq_smooth computed outside]
  refine Attempt.Attains.bind
    (smooth_attains op linear sound positive smoother.params.zeroStart x y) ?_
  intro solved fact
  exact Attempt.attains_pure ⟨rfl, fact⟩

/-- A Chebyshev smoother computes the scaled Chebyshev polynomial. In exact
arithmetic, for every linear operator and every computed smoother of a positive
degree, outside the identity shortcut: the recurrence never divides by zero, and
the scaled residual of the result, times the polynomial at the center, is the
polynomial of the centered operator applied to the scaled residual of the
start. -/
theorem applyInverse_computes_polynomial (smoother : Chebyshev R n) (op : Operator σ R n)
    (action : (Fin n → R) →ₗ[R] (Fin n → R)) (inverse : Vector R n) (lambdaMax ratio : R)
    (linear : op.Realizes action) (lambda_pos : 0 < lambdaMax) (ratio_pos : 0 < ratio)
    (interval : (ChebyshevBounds.ofSpectrum lambdaMax ratio).alpha <
      (ChebyshevBounds.ofSpectrum lambdaMax ratio).beta)
    (computed : smoother.phase = .computed inverse (.ofSpectrum lambdaMax ratio))
    (positive : 1 ≤ smoother.params.degree) (outside : isIdentity smoother.params = false)
    (x y : Vector R n) (state : σ) :
    let bounds := ChebyshevBounds.ofSpectrum lambdaMax ratio
    let polynomial := Polynomial.Chebyshev.T R smoother.params.degree
    bounds.NeverDividesByZero ∧
      ∃ (solved : Vector R n) (after : σ),
        (smoother.applyInverseChecked op x.toArray y.toArray).run state =
          (.ok (solved.toArray, smoother.recordApply), after) ∧
        polynomial.eval bounds.s1 • scaledResidual inverse action (entries x) (entries solved) =
          Polynomial.aeval (centered bounds inverse action) polynomial
            (scaledResidual inverse action (entries x)
              (if smoother.params.zeroStart then 0 else entries y)) := by
  have sound := ChebyshevBounds.sound_ofSpectrum lambda_pos ratio_pos interval
  have attains : (smoother.applyInverseChecked op x.toArray y.toArray).Attains fun result =>
      ∃ solved : Vector R n, result = (solved.toArray, smoother.recordApply) ∧
        chebyshevAt R (ChebyshevBounds.ofSpectrum lambdaMax ratio).s1 smoother.params.degree •
            scaledResidual inverse action (entries x) (entries solved) =
          chebyshevAt R (centered (.ofSpectrum lambdaMax ratio) inverse action)
            smoother.params.degree (scaledResidual inverse action (entries x)
              (startOf smoother.params.zeroStart y)) := by
    have inner := applyInverse_attains smoother op linear sound computed
      (Nat.one_le_iff_ne_zero.mp positive) outside x y
    refine (applyInverseChecked_attains smoother op computed x y inner).mono ?_
    rintro result ⟨⟨solved, counted⟩, rfl, same, fact⟩
    exact ⟨solved, by rw [same], fact⟩
  refine ⟨sound.neverDividesByZero, ?_⟩
  obtain ⟨result, after, run, solved, rfl, fact⟩ := attains state
  refine ⟨solved, after, run, ?_⟩
  rw [← Polynomial.coe_aeval_eq_eval]
  exact fact

/-- A computed smoother of degree three for a diagonal operator. -/
def cubic : Chebyshev Rat 2 :=
  ⟨⟨2, 0, 1, 3, 0, false, .given, 0⟩, .computed #v[1 / 2, 1] (.ofSpectrum 1 2), .zero, none, .zero⟩

/-- The polynomial of degree three on a start that is not zero. -/
theorem applyInverse_computes_polynomial_cubic :
    (ChebyshevBounds.ofSpectrum 1 2 : ChebyshevBounds Rat).NeverDividesByZero ∧
      ∃ (solved : Vector Rat 2) (after : Unit),
        (cubic.applyInverseChecked (.ofAction (diagonal ![2, 1]) Unit) #[3, 4]
            #[1, 5]).run () = (.ok (solved.toArray, cubic.recordApply), after) ∧
        (Polynomial.Chebyshev.T Rat 3).eval
              (ChebyshevBounds.ofSpectrum 1 2 : ChebyshevBounds Rat).s1 •
            scaledResidual #v[1 / 2, 1] (diagonal ![2, 1]) (entries #v[3, 4])
              (entries solved) =
          Polynomial.aeval
            (centered (.ofSpectrum 1 2) #v[1 / 2, 1] (diagonal ![2, 1]))
            (Polynomial.Chebyshev.T Rat 3)
            (scaledResidual #v[1 / 2, 1] (diagonal ![2, 1]) (entries #v[3, 4])
              (entries #v[1, 5])) :=
  applyInverse_computes_polynomial cubic _ (diagonal ![2, 1]) #v[1 / 2, 1] 1 2
    (Operator.realizes_ofAction _ Unit) (by decide +kernel) (by decide +kernel)
    (by decide +kernel) rfl (by decide) (by decide +kernel) #v[3, 4] #v[1, 5] ()

end HexSlab.Chebyshev
