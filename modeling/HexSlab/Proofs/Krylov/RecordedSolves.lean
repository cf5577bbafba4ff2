import HexSlab.Proofs.CountedCalls
import HexSlab.Proofs.Krylov.PlainDivision
import HexSlab.Proofs.RecordedDivisions

/-!
# Solves that keep a record of their divisions

A solve divides by the division that it is given and in no other way. Given one that
adds each divisor to a record in the state of the run, with its place in the method, it
is a solve that records all its divisions. The operator and the preconditioner leave the
record alone. A cycle of minimal residuals brings what the basis leaves to unit length
also where it ends only because it has taken all its steps, so this division is recorded
as well although nothing uses its result.
-/

namespace HexSlab

open Attempt

variable {σ R : Type} {n : Nat} {expected : Divisor → R → Prop}

/-- A solve with a record of what it has divided by. -/
abbrev RecordedSolving (σ R : Type) (n : Nat) (α : Type) :=
  Solving (σ × List (Divisor × R)) R n α

namespace LinearSystem

/-- The system in a run that keeps a record. -/
def recorded (system : LinearSystem σ R n) : LinearSystem (σ × List (Divisor × R)) R n :=
  { system with
    op := system.op.besides
    preconditioner := system.preconditioner.map .besides }

/-- A product with the operator divides by nothing. -/
theorem records_apply (system : LinearSystem σ R n) (x v : Vector R n) :
    (system.recorded.apply x v).Records (system.apply x v) expected :=
  (records_besides (system.op.apply v)).mapError _

variable [Scalar R]

/-- Inner products are the same. -/
theorem dot_recorded (system : LinearSystem σ R n) (x y : Vector R n) :
    system.recorded.dot x y = system.dot x y := rfl

/-- Whatever the preconditioner divides by is not recorded. -/
theorem records_precondition (system : LinearSystem σ R n) (x r : Vector R n) :
    (system.recorded.precondition x r).Records (system.precondition x r) expected := by
  obtain ⟨op, preconditioner, b, bNorm, maxIterations, tolerance⟩ := system
  cases preconditioner with
  | none => exact records_pure r
  | some preconditioner => exact (records_besides _).mapError _

/-- The residual of the solution vector takes no division. -/
theorem records_residual (system : LinearSystem σ R n) (x : Vector R n) :
    (system.recorded.residual x).Records (system.residual x) expected :=
  (system.records_apply x x).bind (yields_any _) fun _ _ => records_pure _

section Attains

variable {system : LinearSystem σ R n} {x v : Vector R n} {holds : Vector R n → Prop}

omit [Scalar R] in
/-- With a record, a product attains what it attains without one. -/
theorem attains_apply (attains : (system.apply x v).Attains holds) :
    (system.recorded.apply x v).Attains holds := by
  have records : (system.recorded.apply x v).Records (system.apply x v) fun _ _ => True :=
    system.records_apply x v
  exact records.attains attains

/-- So does the preconditioner. -/
theorem attains_precondition (attains : (system.precondition x v).Attains holds) :
    (system.recorded.precondition x v).Attains holds := by
  have records : (system.recorded.precondition x v).Records (system.precondition x v)
      fun _ _ => True := system.records_precondition x v
  exact records.attains attains

/-- So does the residual. -/
theorem attains_residual (attains : (system.residual x).Attains holds) :
    (system.recorded.residual x).Attains holds := by
  have records : (system.recorded.residual x).Records (system.residual x) fun _ _ => True :=
    system.records_residual x
  exact records.attains attains

end Attains

end LinearSystem

variable [Scalar R]

namespace Division

/-- Division that adds each divisor to a record, with its place. -/
def recorded : Division (σ × List (Divisor × R)) R n where
  quotients := fun place divisor => do
    record place divisor
    pure (· / divisor)

/-- Division by an expected divisor is division. -/
theorem records_quotients {place : Divisor} {divisor : R} (fact : expected place divisor) :
    (recorded.quotients place divisor : RecordedSolving σ R n (R → R)).Records
      (pure (· / divisor)) expected :=
  (records_record fact).bind_pure (records_pure _)

/-- A division by an expected divisor gives the quotient. -/
theorem records_divide {place : Divisor} {dividend divisor : R} (fact : expected place divisor) :
    (recorded.divide place dividend divisor : RecordedSolving σ R n R).Records
      (pure (dividend / divisor)) expected :=
  (records_quotients fact).bind_pure (records_pure _)

/-- So it does for all entries of a vector. -/
theorem records_divideAll {place : Divisor} {v : Vector R n} {divisor : R}
    (fact : expected place divisor) :
    (recorded.divideAll place v divisor : RecordedSolving σ R n (Vector R n)).Records
      (pure (Vec.divBy v divisor)) expected :=
  (records_quotients fact).bind_pure (records_pure _)

/-- A quotient never fails. -/
theorem attains_divide (place : Divisor) (dividend divisor : R) :
    (recorded.divide place dividend divisor : RecordedSolving σ R n R).Attains
      fun quotient => quotient = dividend / divisor :=
  fun state => ⟨dividend / divisor, (state.1, state.2 ++ [(place, divisor)]), rfl, rfl⟩

/-- A quotient makes its division. -/
theorem makes_divide (place : Divisor) (dividend divisor : R) :
    (recorded.divide place dividend divisor : RecordedSolving σ R n R).Makes (place, divisor) :=
  fun state => List.mem_append_right state.2 (List.mem_singleton_self (place, divisor))

end Division

/-- A relative norm is a division by the norm of the right-hand side. -/
theorem LinearSystem.records_relativeNorm {system : LinearSystem σ R n}
    (fact : expected .rightHandSide system.bNorm) (r : Vector R n) :
    (system.recorded.relativeNormBy .recorded r).Records (pure (system.relativeNorm r))
      expected :=
  Division.records_divide fact

namespace KrylovSolver

/-- A solve that records its divisions, of vectors that fit the operator. -/
def solveRecorded (solver : KrylovSolver R) (op : Operator σ R n)
    (preconditioner : Option (Preconditioner σ R n)) (b x : Vector R n) :
    RecordedSolving σ R n (Solution R n) :=
  solver.solveBy .recorded op.besides (preconditioner.map .besides) b x

/-- A solve that records its divisions, of vectors of any length. -/
def solveCheckedRecorded (solver : KrylovSolver R) (op : Operator σ R n)
    (preconditioner : Option (Preconditioner σ R n)) (b x : Array R) :
    Attempt (σ × List (Divisor × R)) (SolverError R × Array R) (Array R × SolveStatus R) :=
  solver.solveCheckedBy .recorded op.besides (preconditioner.map .besides) b x

end KrylovSolver

end HexSlab
