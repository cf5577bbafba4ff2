import HexSlab.Journal
import HexSlab.Smoother.Error

/-!
# What a call leaves behind

Setting up a preconditioner can fail after part of the work is done, and
applying it can fail after the vector was changed. Both are kept: the
preconditioner after the call beside an error, and the vector at the point of
failure beside its cause.
-/

namespace HexSlab

/-- A value after a call, whether the call succeeded or not. -/
structure Outcome (ε α : Type) where
  /-- The value after the call. -/
  after : α
  /-- Why the call failed, if it did. -/
  error? : Option ε
  /-- The messages of the call. -/
  journal : Journal

namespace Outcome

variable {ε α : Type}

/-- A call that succeeded. -/
def success (after : α) : Outcome ε α := ⟨after, none, []⟩

/-- A call that failed. -/
def failure (after : α) (error : ε) : Outcome ε α := ⟨after, some error, []⟩

end Outcome

/-- A vector that was being computed when an error arose. -/
structure Interrupted (R : Type) (n : Nat) where
  /-- What went wrong. -/
  error : PreconditionerError R
  /-- The vector as it was left. -/
  vector : Vector R n

/-- An attempt that leaves a given vector if the operator fails. -/
@[inline] def Attempt.leaving {σ R α : Type} {n : Nat} (attempt : Attempt σ OperatorError α)
    (vector : Vector R n) : Attempt σ (Interrupted R n) α :=
  attempt.mapError fun error => ⟨.operator error, vector⟩

end HexSlab
