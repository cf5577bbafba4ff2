import HexSlab.Numeral.Layout
import HexSlab.Smoother.Outcome
import HexSlab.Smoother.RelaxationParams
import HexSlab.Smoother.Stats

/-!
# Point relaxation

Each unknown is corrected by the residual of its own row. A Jacobi sweep
corrects all unknowns at once and goes through a product of the operator; a
Gauss-Seidel sweep corrects them in order and reads the rows of the operator,
so it sees the corrections already made.
-/

namespace HexSlab

/-- How far a relaxation has come. -/
inductive RelaxationPhase (R : Type) (n : Nat) where
  /-- Nothing was done yet. -/
  | fresh
  /-- The structure of the operator is known. -/
  | prepared
  /-- The relaxation can be applied. -/
  | computed (inverse : Vector R n)

/-- A point relaxation for an operator on vectors with `n` entries. -/
structure Relaxation (R : Type) (n : Nat) where
  /-- The settings. -/
  params : RelaxationParams R
  /-- How far it has come. -/
  phase : RelaxationPhase R n
  /-- Rows of its operator on this process, once prepared. -/
  rows : Nat
  /-- Stored entries of its operator on this process, once prepared. -/
  entries : Nat
  /-- Statistics of its phases. -/
  stats : PhaseStats

namespace Relaxation

variable {σ R : Type} {n : Nat}

/-- A relaxation with given parameters. -/
def ofParams (params : RelaxationParams R) : Relaxation R n := ⟨params, .fresh, 0, 0, .zero⟩

/-- The structure of the operator is known. -/
def isPrepared (relaxation : Relaxation R n) : Bool :=
  match relaxation.phase with
  | .fresh => false
  | _ => true

/-- The relaxation can be applied. -/
def isComputed (relaxation : Relaxation R n) : Bool :=
  match relaxation.phase with
  | .computed _ => true
  | _ => false

/-- The inverted diagonal, once computed. -/
def inverseDiagonal? (relaxation : Relaxation R n) : Option (Vector R n) :=
  match relaxation.phase with
  | .computed inverse => some inverse
  | _ => none

/-- Prepare for the structure of an operator. -/
def prepare (relaxation : Relaxation R n) (op : Operator σ R n) : Relaxation R n :=
  { relaxation with
    phase := .prepared
    rows := n
    entries := op.entryCount
    stats := { relaxation.stats with prepare := relaxation.stats.prepare.record 0.0 } }

variable [Scalar R]

/-- Read parameters. A relaxation that was computed has to be computed again if
all of them could be read. -/
def setParameters (relaxation : Relaxation R n) (list : ParameterList R) :
    Outcome (PreconditionerError R) (Relaxation R n) :=
  match (RelaxationParams.update list).run relaxation.params with
  | (.error error, params) => .failure { relaxation with params := params } (.parameter error)
  | (.ok (), params) =>
    let phase := if relaxation.isComputed then .prepared else relaxation.phase
    ⟨{ relaxation with params := params, phase := phase }, none, RelaxationParams.warnings list⟩

/-- The inverse of a diagonal entry, or of the bound for an entry below it. -/
def invertEntry (least entry : R) : R :=
  1 / if Scalar.abs entry < least then least else entry

/-- The diagonal of the operator inverted entry by entry. -/
def invertDiagonal (op : Operator σ R n) (least : R) : Vector R n :=
  op.diagonal.map (invertEntry least)

/-- Compute the relaxation from the values of the operator, preparing it first
if that was not done. -/
def compute (relaxation : Relaxation R n) (op : Operator σ R n) :
    Outcome (PreconditionerError R) (Relaxation R n) :=
  let relaxation := if relaxation.isPrepared then relaxation else relaxation.prepare op
  if relaxation.params.sweeps = 0 then .failure relaxation .noSweeps
  else
    let inverse := invertDiagonal op relaxation.params.minDiagonal
    let flops := Float.ofNat relaxation.rows
    .success { relaxation with
      phase := .computed inverse
      stats := { relaxation.stats with compute := relaxation.stats.compute.record flops } }

/-- A Jacobi sweep. -/
@[specialize] def jacobiSweep (op : Operator σ R n) (inverse : Vector R n) (damping : R)
    (x y : Vector R n) : Attempt σ (Interrupted R n) (Vector R n) := do
  let image ← (op.apply y).leaving y
  pure (Vec.axpy damping (Vec.hadamard inverse (x - image)) 1 y)

/-- The product of a row with a vector, if the vector has all its columns. -/
@[specialize] def rowSum? (y : Vector R n) (row : List (Nat × R)) : Option R :=
  row.foldlM (fun sum entry => (y[entry.1]?).map fun value => sum + entry.2 * value) 0

/-- Correct the unknowns of a list of rows one after the other. A row with a
column beyond the vector ends the pass and leaves the vector as it is then. -/
@[specialize] def gaussSeidelPass (op : Operator σ R n) (inverse : Vector R n) (damping : R)
    (x : Vector R n) : List (Fin n) → Vector R n → Except (Interrupted R n) (Vector R n)
  | [], y => .ok y
  | i :: rest, y =>
    match rowSum? y (op.row i) with
    | none => .error ⟨.shapesDiffer, y⟩
    | some sum =>
      let value := y[i] + damping * inverse[i] * (x[i] - sum)
      gaussSeidelPass op inverse damping x rest (y.set i value)

/-- One sweep of a kind. -/
@[specialize] def sweepOnce (op : Operator σ R n) (inverse : Vector R n) (sweep : Sweep)
    (damping : R) (x y : Vector R n) : Attempt σ (Interrupted R n) (Vector R n) :=
  match sweep with
  | .jacobi => jacobiSweep op inverse damping x y
  | .gaussSeidel => fun state =>
    (gaussSeidelPass op inverse damping x (List.finRange n) y, state)
  | .symmetricGaussSeidel => fun state =>
    ((gaussSeidelPass op inverse damping x (List.finRange n) y).bind
      (gaussSeidelPass op inverse damping x (List.finRange n).reverse), state)

/-- A number of sweeps. -/
@[specialize] def sweepTimes (op : Operator σ R n) (inverse : Vector R n) (sweep : Sweep)
    (damping : R) (x : Vector R n) : Nat → Vector R n → Attempt σ (Interrupted R n) (Vector R n)
  | 0, y => pure y
  | count + 1, y => do
    let next ← sweepOnce op inverse sweep damping x y
    sweepTimes op inverse sweep damping x count next

/-- All sweeps, from zero or from the given vector. -/
def smooth (op : Operator σ R n) (inverse : Vector R n) (params : RelaxationParams R)
    (x y : Vector R n) : Attempt σ (Interrupted R n) (Vector R n) :=
  let start := if params.zeroStart then Vec.fill 0 else y
  sweepTimes op inverse params.sweep params.damping x params.sweeps start

/-- Operations of one application. -/
def applyFlops (relaxation : Relaxation R n) : Float :=
  let perSweep := Float.ofNat (2 * relaxation.entries + 3 * relaxation.rows)
  let passes :=
    match relaxation.params.sweep with
    | .symmetricGaussSeidel => 2.0
    | _ => 1.0
  passes * perSweep * Float.ofNat relaxation.params.sweeps

/-- Count a successful application. -/
def recordApply (relaxation : Relaxation R n) : Relaxation R n :=
  { relaxation with
    stats :=
      { relaxation.stats with apply := relaxation.stats.apply.record relaxation.applyFlops } }

/-- Apply a relaxation to vectors that fit the operator. On failure the
relaxation is as it was, and the vector is left as the last correction made it. -/
def applyInverse (relaxation : Relaxation R n) (op : Operator σ R n) (x y : Vector R n) :
    Attempt σ (Interrupted R n) (Vector R n × Relaxation R n) :=
  match relaxation.phase with
  | .computed inverse => do
    let result ← smooth op inverse relaxation.params x y
    pure (result, relaxation.recordApply)
  | _ => Attempt.fail ⟨.notComputed, y⟩

/-- Apply a relaxation to vectors of any length. That it was computed is checked
before the lengths; the given vector is left alone if a check fails. -/
def applyInverseChecked (relaxation : Relaxation R n) (op : Operator σ R n) (x y : Array R) :
    Attempt σ (PreconditionerError R × Array R) (Array R × Relaxation R n) :=
  if relaxation.isComputed then
    match checkPair n x y with
    | .error error => Attempt.fail (.operator error, y)
    | .ok (x, y) => do
      let result ← (relaxation.applyInverse op x y).mapError fun e =>
        (e.error, e.vector.toArray)
      pure (result.1.toArray, result.2)
  else Attempt.fail (.notComputed, y)

/-- The text that names a relaxation and its settings. -/
def label (relaxation : Relaxation Float n) : String :=
  relaxation.params.sweep.name ++ ", sweeps = " ++ toString relaxation.params.sweeps ++
    ", damping = " ++ Numeral.plain relaxation.params.damping

end Relaxation

end HexSlab
