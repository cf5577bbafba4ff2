import HexSlab.Krylov.Preconditioning
import HexSlab.Proofs.Krylov.ScaledSystems
import HexSlab.Proofs.Smoother.Corrections

/-!
# Smoothers in two runs

A smoother that starts from zero is linear in the right-hand side: each of its
steps is, the product of the operator as well as the correction of one unknown by
its row. So two smoothers with the same data answer right-hand sides that differ
by a factor with vectors that do, whatever the operator's error is if it has one.
-/

namespace HexSlab

open Vec

variable {σ τ R : Type} {n : Nat}

/-- Two computations were stopped by the same error, at whatever vector. -/
def Interrupted.SameError (one other : Interrupted R n) : Prop := one.error = other.error

/-- A preconditioner kept in the state of a run, which takes the place of itself
with each application. -/
def Preconditioner.ofKept {S : Type}
    (apply : S → Vector R n → Vector R n → Attempt σ (Interrupted R n) (Vector R n × S)) :
    Preconditioner (σ × S) R n where
  applyInverse := fun x y state =>
    match apply state.2 x y state.1 with
    | (.ok (y, kept), inner) => (.ok y, inner, kept)
    | (.error interrupted, inner) => (.error interrupted.error, inner, state.2)

variable [Field R]

/-- Two kept preconditioners are in step if their applications are, and keep what
they have in common. -/
theorem Preconditioner.ofKept_inStep {S : Type} {states : σ → τ → Prop} {same : S → S → Prop}
    {apply : S → Vector R n → Vector R n → Attempt σ (Interrupted R n) (Vector R n × S)}
    {applyCopy : S → Vector R n → Vector R n → Attempt τ (Interrupted R n) (Vector R n × S)}
    (inStep : ∀ kept other, same kept other → ∀ (k : R) (r s : Vector R n), Scaled k r s →
      (apply kept r (fill 0)).InStep states Interrupted.SameError
        (fun result found => Scaled k result.1 found.1 ∧ same result.2 found.2)
        (applyCopy other s (fill 0))) :
    (ofKept apply).InStepWith (fun one other => states one.1 other.1 ∧ same one.2 other.2)
      (ofKept applyCopy) := by
  intro k r s scaled one other related
  obtain ⟨state, kept⟩ := one
  obtain ⟨state', kept'⟩ := other
  have taken := inStep kept kept' related.2 k r s scaled state state' related.1
  unfold Attempt.run ofKept
  dsimp only
  unfold Attempt.run at taken
  generalize apply kept r (fill 0) state = found at taken ⊢
  generalize applyCopy kept' s (fill 0) state' = found' at taken ⊢
  obtain ⟨outcome, after⟩ := found
  obtain ⟨outcome', after'⟩ := found'
  obtain ⟨outcomes, between⟩ := taken
  cases outcomes with
  | ok agree => exact ⟨.ok agree.1, between, agree.2⟩
  | error agree => exact ⟨.error agree, between, related.2⟩

variable [LinearOrder R] [Roots R] {states : σ → τ → Prop} {op : Operator σ R n}
  {copy : Operator τ R n} {k : R} {x x' y y' w w' : Vector R n}

omit [LinearOrder R] [Roots R] in
/-- Images of scaled vectors are scaled, at whatever vectors the computations stop. -/
theorem Operator.InStepWith.leaving (matched : op.InStepWith states copy) (scaled : Scaled k y y')
    (left left' : Vector R n) :
    ((op.apply y).leaving left).InStep states Interrupted.SameError (Scaled k)
      ((copy.apply y').leaving left') := by
  refine (matched k y y' scaled).mapError ?_
  rintro error _ rfl
  exact rfl

namespace Chebyshev

/-- The steps of the recurrence keep the factor. -/
theorem recurrence_inStep (matched : op.InStepWith states copy) (inverse : Vector R n)
    (bounds : ChebyshevBounds R) (rhs : Scaled k x x') (degrees : Nat) (rho : R)
    (iterate : Scaled k y y') (update : Scaled k w w') :
    (recurrence op inverse bounds x degrees y w rho).InStep states Interrupted.SameError (Scaled k)
      (recurrence copy inverse bounds x' degrees y' w' rho) := by
  induction degrees generalizing y y' w w' rho with
  | zero => exact Attempt.inStep_pure iterate
  | succ degrees ih =>
    unfold recurrence
    refine (matched.leaving iterate y y').bind fun image image' applied => ?_
    have residual := (rhs.sub applied).hadamard inverse
    have next := residual.axpy update
    exact ih _ (iterate.add (next _ _)) (next _ _)

/-- So does the first step, if both runs start alike. -/
theorem firstStep_inStep (matched : op.InStepWith states copy) (inverse : Vector R n)
    (bounds : ChebyshevBounds R) (zeroStart : Bool) (rhs : Scaled k x x')
    (start : Scaled k y y') :
    (firstStep op inverse bounds zeroStart x y).InStep states Interrupted.SameError
      (fun first second => Scaled k first.1 second.1 ∧ Scaled k first.2 second.2)
      (firstStep copy inverse bounds zeroStart x' y') := by
  unfold firstStep
  cases zeroStart with
  | true =>
    have update := (rhs.hadamard inverse).divBy bounds.theta
    exact Attempt.inStep_pure ⟨update, update⟩
  | false =>
    refine (matched.leaving start y y').bind fun image image' applied => ?_
    have update := ((rhs.sub applied).hadamard inverse).divBy bounds.theta
    exact Attempt.inStep_pure ⟨start.add update, update⟩

/-- Two smoothers with the same data and the same settings, but for where they
start from. -/
structure StartsApart (first second : Bool) (smoother other : Chebyshev R n) : Prop where
  /-- The phase is the same, with what was computed. -/
  phase_eq : smoother.phase = other.phase
  /-- The settings of the first. -/
  start : smoother.params.zeroStart = first
  /-- The settings of the second. -/
  params_eq : other.params = { smoother.params with zeroStart := second }

/-- Smoothers whose first steps from zero are in step are applied in step. -/
theorem applyInverse_inStep (matched : op.InStepWith states copy) {first second : Bool}
    (begins : ∀ (inverse : Vector R n) (bounds : ChebyshevBounds R) (k : R) (x x' : Vector R n),
      Scaled k x x' → (firstStep op inverse bounds first x (fill 0)).InStep states
        Interrupted.SameError (fun one two => Scaled k one.1 two.1 ∧ Scaled k one.2 two.2)
        (firstStep copy inverse bounds second x' (fill 0)))
    {smoother other : Chebyshev R n} (apart : smoother.StartsApart first second other)
    (rhs : Scaled k x x') :
    (smoother.applyInverse op x (fill 0)).InStep states Interrupted.SameError
      (fun result found => Scaled k result.1 found.1 ∧ result.2.StartsApart first second found.2)
      (other.applyInverse copy x' (fill 0)) := by
  have counted : smoother.recordApply.StartsApart first second other.recordApply :=
    ⟨apart.phase_eq, apart.start, apart.params_eq⟩
  unfold applyInverse
  rw [← apart.phase_eq]
  cases smoother.phase with
  | fresh => exact Attempt.inStep_fail rfl
  | prepared => exact Attempt.inStep_fail rfl
  | computed inverse bounds =>
    have identity : isIdentity other.params = isIdentity smoother.params := by
      rw [apart.params_eq]
      rfl
    dsimp only
    rw [identity]
    refine Attempt.inStep_ite Iff.rfl (fun _ => ?_) fun _ => ?_
    · exact Attempt.inStep_pure ⟨rhs.hadamard inverse, counted⟩
    have degree : other.params.degree = smoother.params.degree := by rw [apart.params_eq]
    have start : other.params.zeroStart = second := by rw [apart.params_eq]
    rw [degree, start, apart.start]
    refine Attempt.InStep.bind ?_ fun result found scaled => Attempt.inStep_pure ⟨scaled, counted⟩
    refine (begins inverse bounds k x x' rhs).bind fun one two scaled => ?_
    exact recurrence_inStep matched inverse bounds rhs _ _ scaled.1 scaled.2

/-- A smoother is a preconditioner that is kept in the state. -/
theorem preconditioner_eq (op : Operator σ R n) :
    preconditioner op = .ofKept fun smoother => smoother.applyInverse op := by
  unfold preconditioner Preconditioner.ofKept
  congr 1
  funext x y state
  dsimp only
  rcases state.2.applyInverse op x y state.1 with ⟨_ | ⟨_, _⟩, _⟩ <;> rfl

/-- Chebyshev smoothers with the same data and settings are preconditioners in
step. -/
theorem preconditioner_inStep (matched : op.InStepWith states copy) {first second : Bool}
    (begins : ∀ (inverse : Vector R n) (bounds : ChebyshevBounds R) (k : R) (x x' : Vector R n),
      Scaled k x x' → (firstStep op inverse bounds first x (fill 0)).InStep states
        Interrupted.SameError (fun one two => Scaled k one.1 two.1 ∧ Scaled k one.2 two.2)
        (firstStep copy inverse bounds second x' (fill 0))) :
    (preconditioner op).InStepWith
      (fun one other => states one.1 other.1 ∧ one.2.StartsApart first second other.2)
      (preconditioner copy) := by
  rw [preconditioner_eq, preconditioner_eq]
  exact Preconditioner.ofKept_inStep fun _ _ apart _ _ _ =>
    applyInverse_inStep matched begins apart

end Chebyshev

namespace Relaxation

omit [LinearOrder R] [Roots R] in
/-- A row has a sum for a scaled vector exactly if it has one for the vector, and
the sums differ by the factor. -/
theorem foldlM_row_scaled (scaled : Scaled k y y') (row : List (Nat × R)) (start : R) :
    row.foldlM (fun sum entry => (y'[entry.1]?).map fun value => sum + entry.2 * value)
        (k * start) =
      (row.foldlM (fun sum entry => (y[entry.1]?).map fun value => sum + entry.2 * value)
        start).map (k * ·) := by
  induction row generalizing start with
  | nil => rfl
  | cons entry rest ih =>
    rw [List.foldlM_cons, List.foldlM_cons, scaled.getElem?_eq]
    rcases y[entry.1]? with _ | value
    · rfl
    · have next : k * start + entry.2 * (k * value) = k * (start + entry.2 * value) := by ring
      have rest := ih (start + entry.2 * value)
      rw [← next] at rest
      exact rest

/-- The sum of a row. -/
theorem rowSum?_scaled (scaled : Scaled k y y') (row : List (Nat × R)) :
    rowSum? y' row = (rowSum? y row).map (k * ·) := by
  have whole := foldlM_row_scaled scaled row 0
  rw [mul_zero] at whole
  exact whole

/-- Correcting one unknown keeps the factor. -/
theorem correctEntry_scaled (rhs : Scaled k x x') (iterate : Scaled k y y')
    (inverse : Vector R n) (damping : R) (i : Fin n) (sum : R) :
    Scaled k (correctEntry inverse x damping i sum y)
      (correctEntry inverse x' damping i (k * sum) y') := by
  funext j
  by_cases here : j = i
  · have corrected (x y : Vector R n) (sum : R) :
        Vec.entries (correctEntry inverse x damping i sum y) i =
          Vec.entries y i + damping * Vec.entries inverse i * (Vec.entries x i - sum) :=
      Vector.getElem_set_self i.isLt
    rw [here, Pi.smul_apply, corrected, corrected, iterate.entry, rhs.entry, smul_eq_mul]
    ring
  · have unchanged (x y : Vector R n) (sum : R) :
        Vec.entries (correctEntry inverse x damping i sum y) j = Vec.entries y j :=
      Vector.getElem_set_ne i.isLt j.isLt fun same => here (Fin.ext same.symm)
    rw [Pi.smul_apply, unchanged, unchanged, iterate.entry, smul_eq_mul]

/-- A pass over the rows keeps the factor, or stops at the same row. -/
theorem gaussSeidelPass_alike (rows : op.row = copy.row) (inverse : Vector R n) (damping : R)
    (rhs : Scaled k x x') (order : List (Fin n)) (iterate : Scaled k y y') :
    Attempt.Alike Interrupted.SameError (Scaled k) (gaussSeidelPass op inverse damping x order y)
      (gaussSeidelPass copy inverse damping x' order y') := by
  induction order generalizing y y' with
  | nil => exact .ok iterate
  | cons i rest ih =>
    rw [gaussSeidelPass_cons, gaussSeidelPass_cons, ← rows, rowSum?_scaled iterate]
    cases rowSum? y (op.row i) with
    | none => exact .error rfl
    | some sum => exact ih (correctEntry_scaled rhs iterate inverse damping i sum)

/-- A sweep keeps the factor. -/
theorem sweepOnce_inStep (matched : op.InStepWith states copy) (rows : op.row = copy.row)
    (inverse : Vector R n) (sweep : Sweep) (damping : R) (rhs : Scaled k x x')
    (iterate : Scaled k y y') :
    (sweepOnce op inverse sweep damping x y).InStep states Interrupted.SameError (Scaled k)
      (sweepOnce copy inverse sweep damping x' y') := by
  cases sweep with
  | jacobi =>
    refine (matched.leaving iterate y y').bind fun image image' applied => ?_
    have residual := (rhs.sub applied).hadamard inverse
    exact Attempt.inStep_pure (residual.axpy iterate damping 1)
  | gaussSeidel =>
    intro state other related
    exact ⟨gaussSeidelPass_alike rows inverse damping rhs _ iterate, related⟩
  | symmetricGaussSeidel =>
    intro state other related
    refine ⟨?_, related⟩
    have forward := gaussSeidelPass_alike rows inverse damping rhs (List.finRange n) iterate
    show Attempt.Alike _ _ ((gaussSeidelPass op inverse damping x (List.finRange n) y).bind
        (gaussSeidelPass op inverse damping x (List.finRange n).reverse))
      ((gaussSeidelPass copy inverse damping x' (List.finRange n) y').bind
        (gaussSeidelPass copy inverse damping x' (List.finRange n).reverse))
    generalize gaussSeidelPass op inverse damping x (List.finRange n) y = first at forward ⊢
    generalize gaussSeidelPass copy inverse damping x' (List.finRange n) y' = second at forward ⊢
    cases forward with
    | ok between => exact gaussSeidelPass_alike rows inverse damping rhs _ between
    | error same => exact .error same

/-- A number of sweeps keeps the factor. -/
theorem sweepTimes_inStep (matched : op.InStepWith states copy) (rows : op.row = copy.row)
    (inverse : Vector R n) (sweep : Sweep) (damping : R) (rhs : Scaled k x x') (count : Nat)
    (iterate : Scaled k y y') :
    (sweepTimes op inverse sweep damping x count y).InStep states Interrupted.SameError (Scaled k)
      (sweepTimes copy inverse sweep damping x' count y') := by
  induction count generalizing y y' with
  | zero => exact Attempt.inStep_pure iterate
  | succ count ih =>
    exact (sweepOnce_inStep matched rows inverse sweep damping rhs iterate).bind
      fun _ _ next => ih next

/-- Two relaxations with the same data and the same settings, but for where they
start from. -/
structure StartsApart (first second : Bool) (relaxation other : Relaxation R n) : Prop where
  /-- The phase is the same, with what was computed. -/
  phase_eq : relaxation.phase = other.phase
  /-- The settings of the first. -/
  start : relaxation.params.zeroStart = first
  /-- The settings of the second. -/
  params_eq : other.params = { relaxation.params with zeroStart := second }

/-- Relaxations are applied in step from zero, wherever else they would start. -/
theorem applyInverse_inStep (matched : op.InStepWith states copy) (rows : op.row = copy.row)
    {first second : Bool} {relaxation other : Relaxation R n}
    (apart : relaxation.StartsApart first second other) (rhs : Scaled k x x') :
    (relaxation.applyInverse op x (fill 0)).InStep states Interrupted.SameError
      (fun result found => Scaled k result.1 found.1 ∧ result.2.StartsApart first second found.2)
      (other.applyInverse copy x' (fill 0)) := by
  have counted : relaxation.recordApply.StartsApart first second other.recordApply :=
    ⟨apart.phase_eq, apart.start, apart.params_eq⟩
  unfold applyInverse
  rw [← apart.phase_eq]
  cases relaxation.phase with
  | fresh => exact Attempt.inStep_fail rfl
  | prepared => exact Attempt.inStep_fail rfl
  | computed inverse =>
    refine Attempt.InStep.bind ?_ fun result found scaled => Attempt.inStep_pure ⟨scaled, counted⟩
    unfold smooth
    dsimp only
    rw [ite_self, ite_self, apart.params_eq]
    exact sweepTimes_inStep matched rows inverse _ _ rhs _ (scaled_zero k)

/-- A relaxation is a preconditioner that is kept in the state. -/
theorem preconditioner_eq (op : Operator σ R n) :
    preconditioner op = .ofKept fun relaxation => relaxation.applyInverse op := by
  unfold preconditioner Preconditioner.ofKept
  congr 1
  funext x y state
  dsimp only
  rcases state.2.applyInverse op x y state.1 with ⟨_ | ⟨_, _⟩, _⟩ <;> rfl

/-- Relaxations with the same data and settings are preconditioners in step. -/
theorem preconditioner_inStep (matched : op.InStepWith states copy) (rows : op.row = copy.row)
    (first second : Bool) :
    (preconditioner op).InStepWith
      (fun one other => states one.1 other.1 ∧ one.2.StartsApart first second other.2)
      (preconditioner copy) := by
  rw [preconditioner_eq, preconditioner_eq]
  exact Preconditioner.ofKept_inStep fun _ _ apart _ _ _ => applyInverse_inStep matched rows apart

end Relaxation

end HexSlab
