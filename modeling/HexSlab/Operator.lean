import HexSlab.Attempt
import HexSlab.Communicator

/-!
# Linear operators

An operator is known by its action on a vector, its diagonal, its rows and the
communicator of its run. Its action is an attempt over the state of the run, so
it may fail, and may do so at one time and not at another. It returns the
product instead of writing it somewhere: where it fails, nothing was written.
-/

namespace HexSlab

/-- Why an operator could not be applied. -/
inductive OperatorError where
  /-- A vector has another length than the operator asks for. -/
  | lengthMismatch (expected found : Nat)
  /-- The operator itself failed. -/
  | applyFailed (reason : String)
  deriving DecidableEq

/-- The text of an operator error. -/
def OperatorError.message : OperatorError → String
  | .lengthMismatch expected found =>
    "Dimension mismatch: expected a vector of length " ++ toString expected ++ ", got " ++
      toString found
  | .applyFailed reason => "Operator application failed: " ++ reason

/-- A square operator on vectors with `n` entries on this process, in a run
with states `σ`. -/
structure Operator (σ R : Type) (n : Nat) where
  /-- The communicator that the operator is distributed over. -/
  comm : Communicator R
  /-- Number of stored entries on this process. -/
  entryCount : Nat
  /-- The diagonal entries, zero where none is stored. -/
  diagonal : Vector R n
  /-- The stored entries of a row, by column. -/
  row : Fin n → List (Nat × R)
  /-- The product with a vector. -/
  apply : Vector R n → Attempt σ OperatorError (Vector R n)

namespace Operator

variable {σ R : Type} {n : Nat}

/-- Rows over all processes. -/
def globalRows (op : Operator σ R n) : Nat := op.comm.sumCounts n

/-- Stored entries over all processes. -/
def globalEntries (op : Operator σ R n) : Nat := op.comm.sumCounts op.entryCount

/-- The operator in a run with a larger state. -/
def besides {τ : Type} (op : Operator σ R n) : Operator (σ × τ) R n :=
  { op with apply := fun x => (op.apply x).besides }

end Operator

/-- A list of entries as a vector of the length that is asked for. -/
def checkLength {R : Type} (n : Nat) (entries : Array R) : Except OperatorError (Vector R n) :=
  if h : entries.size = n then .ok ⟨entries, h⟩
  else .error (.lengthMismatch n entries.size)

/-- The vectors that an operator takes: one with an entry for each row. The
lengths are checked one after the other. -/
def checkPair {R : Type} (n : Nat) (x y : Array R) :
    Except OperatorError (Vector R n × Vector R n) := do
  let first ← checkLength n x
  let second ← checkLength n y
  return (first, second)

/-- A list of entries becomes the vector that has it as its entries. -/
theorem checkLength_eq_ok_iff {R : Type} {n : Nat} {entries : Array R} {v : Vector R n} :
    checkLength n entries = .ok v ↔ v.toArray = entries := by
  unfold checkLength
  constructor
  · intro done
    split at done
    · rw [← Except.ok.inj done]
    · cases done
  · rintro rfl
    rw [dif_pos v.size_toArray]

/-- Two lists of entries become the vectors that have them as their entries. -/
theorem checkPair_eq_ok_iff {R : Type} {n : Nat} {x y : Array R} {v w : Vector R n} :
    checkPair n x y = .ok (v, w) ↔ v.toArray = x ∧ w.toArray = y := by
  rw [← checkLength_eq_ok_iff, ← checkLength_eq_ok_iff]
  unfold checkPair
  rcases checkLength n x with error | left
  · constructor
    · intro done
      cases done
    · rintro ⟨first, -⟩
      cases first
  rcases checkLength n y with error | right
  · constructor
    · intro done
      cases done
    · rintro ⟨-, second⟩
      cases second
  constructor
  · intro done
    have both : (left, right) = (v, w) := Except.ok.inj done
    rw [(Prod.mk.inj both).1, (Prod.mk.inj both).2]
    exact ⟨rfl, rfl⟩
  · rintro ⟨first, second⟩
    rw [Except.ok.inj first, Except.ok.inj second]
    rfl

/-- Count a call in the state of the run, and fail once there were more calls
than a limit. -/
def countCall (limit : Option Nat) : Attempt Nat OperatorError Unit := fun calls =>
  let call := calls + 1
  match limit with
  | none => (.ok (), call)
  | some most =>
    if call ≤ most then (.ok (), call)
    else (.error (.applyFailed ("call " ++ toString call)), call)

end HexSlab
