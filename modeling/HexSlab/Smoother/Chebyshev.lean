import HexSlab.Smoother.ChebyshevParams
import HexSlab.Smoother.Outcome
import HexSlab.Smoother.Stats
import HexSlab.Spectrum.Kit
import HexSlab.Spectrum.Lanczos
import HexSlab.Spectrum.Power

/-!
# Chebyshev smoothing

A polynomial in the diagonally scaled operator that damps all error components
with eigenvalues in an interval as evenly as possible. It is applied by a
recurrence of three terms, with one product of the operator for each degree.
The smoother is prepared for an operator, computed from its values and then
applied; new parameters ask for another computation.
-/

namespace HexSlab

/-- The interval to damp and the coefficients of the recurrence. -/
structure ChebyshevBounds (R : Type) where
  /-- Lower end. -/
  alpha : R
  /-- Upper end. -/
  beta : R
  /-- Two over the length. -/
  delta : R
  /-- Center. -/
  theta : R
  /-- Center over half the length. -/
  s1 : R

/-- The bounds for a largest eigenvalue and its ratio to the smallest one that
is damped. The upper end lies a tenth above the largest eigenvalue. -/
def ChebyshevBounds.ofSpectrum {R : Type} [Scalar R] (lambdaMax ratio : R) :
    ChebyshevBounds R :=
  let alpha := lambdaMax / ratio
  let beta := Scalar.ofNat 11 / Scalar.ofNat 10 * lambdaMax
  let delta := Scalar.two / (beta - alpha)
  let theta := 1 / Scalar.two * (beta + alpha)
  ⟨alpha, beta, delta, theta, theta * delta⟩

/-- How far a Chebyshev smoother has come. -/
inductive ChebyshevPhase (R : Type) (n : Nat) where
  /-- Nothing was done yet. -/
  | fresh
  /-- The structure of the operator is known. -/
  | prepared
  /-- The smoother can be applied. -/
  | computed (inverse : Vector R n) (bounds : ChebyshevBounds R)

/-- Sizes of an operator, as recorded when a smoother is prepared for it. -/
structure RecordedSizes where
  /-- Rows on this process. -/
  rows : Nat
  /-- Rows over all processes. -/
  globalRows : Nat
  /-- Stored entries on this process. -/
  entries : Nat

/-- No sizes were recorded. -/
def RecordedSizes.zero : RecordedSizes := ⟨0, 0, 0⟩

/-- The sizes of an operator. -/
def RecordedSizes.of {σ R : Type} {n : Nat} (op : Operator σ R n) : RecordedSizes :=
  ⟨n, op.globalRows, op.entryCount⟩

/-- A Chebyshev smoother for an operator on vectors with `n` entries. -/
structure Chebyshev (R : Type) (n : Nat) where
  /-- The settings, with estimated eigenvalues once these are known. -/
  params : ChebyshevParams R
  /-- How far it has come. -/
  phase : ChebyshevPhase R n
  /-- The sizes of its operator. -/
  sizes : RecordedSizes
  /-- The last estimate of the condition number. -/
  condition : Option R
  /-- Statistics of its phases. -/
  stats : PhaseStats

namespace Chebyshev

variable {σ R : Type} {n : Nat}

/-- A smoother with given parameters. -/
def ofParams (params : ChebyshevParams R) : Chebyshev R n :=
  ⟨params, .fresh, .zero, none, .zero⟩

/-- The structure of the operator is known. -/
def isPrepared (smoother : Chebyshev R n) : Bool :=
  match smoother.phase with
  | .fresh => false
  | _ => true

/-- The smoother can be applied. -/
def isComputed (smoother : Chebyshev R n) : Bool :=
  match smoother.phase with
  | .computed _ _ => true
  | _ => false

/-- The inverted diagonal, once computed. -/
def inverseDiagonal? (smoother : Chebyshev R n) : Option (Vector R n) :=
  match smoother.phase with
  | .computed inverse _ => some inverse
  | _ => none

/-- The bounds, once computed. -/
def bounds? (smoother : Chebyshev R n) : Option (ChebyshevBounds R) :=
  match smoother.phase with
  | .computed _ bounds => some bounds
  | _ => none

/-- Prepare for the structure of an operator. -/
def prepare (smoother : Chebyshev R n) (op : Operator σ R n) : Chebyshev R n :=
  { smoother with
    phase := .prepared
    sizes := .of op
    condition := none
    stats := { smoother.stats with prepare := smoother.stats.prepare.record 0.0 } }

variable [Scalar R]

/-- Read parameters. A smoother that was computed has to be computed again if
all of them could be read. -/
def setParameters (smoother : Chebyshev R n) (list : ParameterList R) :
    Outcome (PreconditionerError R) (Chebyshev R n) :=
  match (ChebyshevParams.update list).run smoother.params with
  | (.error error, params) => .failure { smoother with params := params } (.parameter error)
  | (.ok (), params) =>
    let phase := if smoother.isComputed then .prepared else smoother.phase
    ⟨{ smoother with params := params, phase := phase }, none, ChebyshevParams.warnings list⟩

/-- The inverse of a diagonal entry. An entry below the bound is replaced by
the bound, which is not inverted. -/
def invertEntry (least entry : R) : R := if Scalar.abs entry < least then least else 1 / entry

/-- The diagonal of the operator inverted entry by entry. -/
def invertDiagonal (op : Operator σ R n) (least : R) : Vector R n :=
  op.diagonal.map (invertEntry least)

/-- Settings that cannot be computed with, whatever the operator. -/
def settingsError? (params : ChebyshevParams R) : Option (PreconditionerError R) :=
  if params.degree = 0 then some .noDegree
  else if 0 < params.ratio then none
  else some (.ratioNotPositive params.ratio)

/-- The settings with the eigenvalues that their estimation finds. -/
def estimateSpectrum (kit : SpectralKit R) (op : Operator σ R n) (inverse : Vector R n)
    (params : ChebyshevParams R) :
    Attempt σ (PreconditionerError R) (ChebyshevParams R) :=
  let start := kit.start n op.comm.rank
  match params.estimation with
  | .given => pure params
  | .power => do
    let lambdaMax ← powerMethod op inverse start params.iterations
    pure { params with lambdaMax := lambdaMax }
  | .cg => do
    let spectrum ← cgEstimate kit.extremes op inverse start params.iterations
    pure { params with lambdaMin := spectrum.1, lambdaMax := spectrum.2 }

/-- The bounds for the largest eigenvalue, if there is an interval to damp. -/
def checkedBounds (params : ChebyshevParams R) :
    Except (PreconditionerError R) (ChebyshevBounds R) :=
  if 0 < params.lambdaMax ∧ Scalar.isFinite params.lambdaMax = true then
    let bounds := ChebyshevBounds.ofSpectrum params.lambdaMax params.ratio
    if bounds.alpha < bounds.beta then .ok bounds
    else .error (.intervalEmpty bounds.alpha bounds.beta params.ratio)
  else .error (.eigenvalueUnusable params.lambdaMax)

/-- Operations of an estimate, for a number of iterations. -/
def estimateFlops (sizes : RecordedSizes) (params : ChebyshevParams R) : Float :=
  let perIteration :=
    match params.estimation with
    | .given => 0
    | .power => 2 * sizes.entries + 5 * sizes.rows
    | .cg => 2 * sizes.entries + 11 * sizes.rows
  match params.estimation with
  | .given => Float.ofNat sizes.rows
  | _ => Float.ofNat sizes.rows + Float.ofNat params.iterations * Float.ofNat perIteration

/-- The last step of computing: find the bounds and count the call. -/
def settle (smoother : Chebyshev R n) (inverse : Vector R n) :
    Outcome (PreconditionerError R) (Chebyshev R n) :=
  match checkedBounds smoother.params with
  | .error error => .failure smoother error
  | .ok bounds =>
    let flops := estimateFlops smoother.sizes smoother.params
    .success { smoother with
      phase := .computed inverse bounds
      stats := { smoother.stats with compute := smoother.stats.compute.record flops } }

/-- Compute the smoother from the values of the operator, preparing it first if
that was not done. Estimated eigenvalues replace those of the settings even if
they turn out to be unusable. -/
def compute (smoother : Chebyshev R n) (kit : SpectralKit R) (op : Operator σ R n) (state : σ) :
    Outcome (PreconditionerError R) (Chebyshev R n) × σ :=
  let smoother := if smoother.isPrepared then smoother else smoother.prepare op
  match settingsError? smoother.params with
  | some error => (.failure smoother error, state)
  | none =>
    let inverse := invertDiagonal op smoother.params.minDiagonal
    match estimateSpectrum kit op inverse smoother.params state with
    | (.error error, state) => (.failure smoother error, state)
    | (.ok params, state) => (settle { smoother with params := params } inverse, state)

/-- The condition number of the scaled operator by conjugate gradients. It is
kept until the smoother is prepared again. -/
def estimateCondition (smoother : Chebyshev R n) (kit : SpectralKit R) (op : Operator σ R n)
    (iterations : Nat) (state : σ) :
    Outcome (PreconditionerError R) (Chebyshev R n) × σ :=
  match smoother.phase with
  | .computed inverse _ =>
    match cgEstimate kit.extremes op inverse (kit.start n op.comm.rank) iterations state with
    | (.error error, state) => (.failure smoother error, state)
    | (.ok spectrum, state) =>
      (.success { smoother with condition := some (spectrum.2 / spectrum.1) }, state)
  | _ => (.failure smoother .notComputed, state)

/-- The steps of the recurrence after the first: from the iterate, the last
update and the last coefficient, a number of further degrees. -/
@[specialize] def recurrence (op : Operator σ R n) (inverse : Vector R n)
    (bounds : ChebyshevBounds R) (x : Vector R n) :
    Nat → Vector R n → Vector R n → R → Attempt σ (Interrupted R n) (Vector R n)
  | 0, y, _, _ => pure y
  | degrees + 1, y, w, rho => do
    let image ← (op.apply y).leaving y
    let next := 1 / (Scalar.two * bounds.s1 - rho)
    let residual := Vec.hadamard inverse (x - image)
    let update := Vec.axpy (Scalar.two * next * bounds.delta) residual (next * rho) w
    recurrence op inverse bounds x degrees (y + update) update next

/-- The first iterate and the update that led to it: a damped step from zero or
from the given vector. -/
def firstStep (op : Operator σ R n) (inverse : Vector R n) (bounds : ChebyshevBounds R)
    (zeroStart : Bool) (x y : Vector R n) :
    Attempt σ (Interrupted R n) (Vector R n × Vector R n) :=
  if zeroStart then
    let w := Vec.divBy (Vec.hadamard inverse x) bounds.theta
    pure (w, w)
  else do
    let image ← (op.apply y).leaving y
    let w := Vec.divBy (Vec.hadamard inverse (x - image)) bounds.theta
    pure (y + w, w)

/-- The polynomial of a degree applied to a right-hand side and a start. -/
def smooth (op : Operator σ R n) (inverse : Vector R n) (bounds : ChebyshevBounds R)
    (degree : Nat) (zeroStart : Bool) (x y : Vector R n) :
    Attempt σ (Interrupted R n) (Vector R n) := do
  let first ← firstStep op inverse bounds zeroStart x y
  recurrence op inverse bounds x (degree - 1) first.1 first.2 (1 / bounds.s1)

/-- Both ends of the spectrum are one: the scaled operator is the identity, and
the inverted diagonal is all that there is to apply. -/
def isIdentity (params : ChebyshevParams R) : Bool :=
  params.lambdaMin == 1 && params.lambdaMax == 1

/-- Operations of one application. -/
def applyFlops (smoother : Chebyshev R n) : Float :=
  let rows := Float.ofNat smoother.sizes.rows
  let entries := Float.ofNat smoother.sizes.entries
  if isIdentity smoother.params then rows
  else 3.0 * rows +
    (Float.ofNat smoother.params.degree - 1.0) * (2.0 * entries + 6.0 * rows)

/-- Count a successful application. -/
def recordApply (smoother : Chebyshev R n) : Chebyshev R n :=
  { smoother with
    stats :=
      { smoother.stats with apply := smoother.stats.apply.record smoother.applyFlops } }

/-- Apply a smoother to vectors that fit the operator. On failure the smoother
is as it was, and the vector is left at the last complete iterate. -/
def applyInverse (smoother : Chebyshev R n) (op : Operator σ R n) (x y : Vector R n) :
    Attempt σ (Interrupted R n) (Vector R n × Chebyshev R n) :=
  match smoother.phase with
  | .computed inverse bounds =>
    if isIdentity smoother.params then
      pure (Vec.hadamard inverse x, smoother.recordApply)
    else do
      let result ← smooth op inverse bounds smoother.params.degree smoother.params.zeroStart x y
      pure (result, smoother.recordApply)
  | _ => Attempt.fail ⟨.notComputed, y⟩

/-- Apply a smoother to vectors of any length. That it was computed is checked
before the lengths; the given vector is left alone if a check fails. -/
def applyInverseChecked (smoother : Chebyshev R n) (op : Operator σ R n) (x y : Array R) :
    Attempt σ (PreconditionerError R × Array R) (Array R × Chebyshev R n) :=
  if smoother.isComputed then
    match checkPair n x y with
    | .error error => Attempt.fail (.operator error, y)
    | .ok (x, y) => do
      let result ← (smoother.applyInverse op x y).mapError fun e => (e.error, e.vector.toArray)
      pure (result.1.toArray, result.2)
  else Attempt.fail (.notComputed, y)

/-- The text that names a smoother and its degree. -/
def label (smoother : Chebyshev R n) : String :=
  "Chebyshev polynomial, degree = " ++ toString smoother.params.degree

end Chebyshev

end HexSlab
