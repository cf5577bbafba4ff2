import HexSlab.Krylov.System

/-!
# Generalized minimal residuals

A cycle builds an orthonormal basis, one vector for each step, and keeps the
preconditioned vectors beside it, so the preconditioner may vary between the
steps. The projected operator is brought to triangular form by rotations as its
columns arrive; the last entry of the rotated right-hand side is then the norm
of the smallest residual in reach. A cycle ends when that norm is small enough,
when the basis cannot be continued, or after a number of steps, and the next
one starts from the corrected solution.

Nothing is laid out beforehand for the steps that a restart allows, and their number is
not bounded: whether a word holds it with one more, and whether there is room for as many
vectors, is left out.
-/

namespace HexSlab.MinimalResiduals

variable {σ R : Type} [Scalar R] {n : Nat}

/-- A plane rotation by its cosine and sine. -/
structure Rotation (R : Type) where
  /-- Cosine. -/
  cos : R
  /-- Sine. -/
  sin : R

/-- A cycle in progress. -/
structure Cycle (R : Type) (n : Nat) where
  /-- The solution at the start of the cycle. -/
  x : Vector R n
  /-- The orthonormal basis without its newest vector. -/
  basis : List (Vector R n)
  /-- The newest vector of the basis. -/
  newest : Vector R n
  /-- The preconditioned basis vectors. -/
  directions : List (Vector R n)
  /-- The columns of the triangular matrix. -/
  columns : List (List R)
  /-- The rotations of the columns. -/
  rotations : List (Rotation R)
  /-- The entries of the rotated right-hand side that are final. -/
  settled : List R
  /-- Its last entry. -/
  last : R

/-- The start of a cycle from a solution with a residual of some norm, which has
been brought to unit length. -/
def Cycle.first (x newest : Vector R n) (norm : R) : Cycle R n :=
  ⟨x, [], newest, [], [], [], [], norm⟩

/-- A vector made orthogonal to a list of vectors, one after the other, with the
coefficients that were taken away. -/
@[specialize] def orthogonalize (system : LinearSystem σ R n) :
    List (Vector R n) → Vector R n → List R × Vector R n
  | [], w => ([], w)
  | v :: rest, w =>
    let h := system.dot w v
    let later := orthogonalize system rest (Vec.axpy (-h) v 1 w)
    (h :: later.1, later.2)

/-- Nothing of a system but its communicator plays a part in this. -/
theorem orthogonalize_congr {τ : Type} {system : LinearSystem σ R n} {other : LinearSystem τ R n}
    (same : other.op.comm = system.op.comm) (basis : List (Vector R n)) (w : Vector R n) :
    orthogonalize other basis w = orthogonalize system basis w := by
  induction basis generalizing w with
  | nil => rfl
  | cons v basis ih =>
    have along : other.dot w v = system.dot w v := by
      rw [LinearSystem.dot, LinearSystem.dot, same]
    rw [orthogonalize, orthogonalize, along, ih]

/-- A column after a list of rotations, each of which turns an entry into the
next: the entries that are final and the last one. -/
@[specialize] def rotateColumn : List (Rotation R) → R → List R → List R × R
  | rotation :: rotations, upper, lower :: rest =>
    let later := rotateColumn rotations (-rotation.sin * upper + rotation.cos * lower) rest
    ((rotation.cos * upper + rotation.sin * lower) :: later.1, later.2)
  | _, last, _ => ([], last)

/-- The entry of a triangular matrix, given by its columns. -/
def entryAt (columns : List (List R)) (row column : Nat) : R :=
  (columns.getD column []).getD row 0

/-- Solve the first rows of a triangular system, given the solution of the
later ones. -/
@[specialize] def backSubstituteBy (division : Division σ R n) (columns : List (List R))
    (rhs : List R) : Nat → List R → Solving σ R n (List R)
  | 0, solved => pure solved
  | row + 1, solved => do
    let known := (solved.zipIdx (row + 1)).foldl
      (fun sum later => sum + entryAt columns row later.2 * later.1) 0
    let value ← division.divide .pivot (rhs.getD row 0 - known) (entryAt columns row row)
    backSubstituteBy division columns rhs row (value :: solved)

/-- The solution corrected by a combination of directions. -/
@[specialize] def correct (x : Vector R n) : List R → List (Vector R n) → Vector R n
  | coefficient :: coefficients, z :: directions =>
    correct (Vec.axpy coefficient z 1 x) coefficients directions
  | _, _ => x

/-- The solution at the end of a cycle, with the coefficients of the smallest residual
that the cycle can reach. -/
@[specialize] def Cycle.finishBy (division : Division σ R n) (cycle : Cycle R n) :
    Solving σ R n (Vector R n) := do
  let coefficients ←
    backSubstituteBy division cycle.columns cycle.settled cycle.columns.length []
  pure (correct cycle.x coefficients cycle.directions)

/-- What a step of a cycle leads to. -/
structure Step (R : Type) (n : Nat) where
  /-- The cycle after the step, with no new vector in its basis yet. -/
  cycle : Cycle R n
  /-- What the basis leaves of the image of the newest vector. -/
  remainder : Vector R n
  /-- The norm of the remainder. -/
  next : R

/-- The cycle with a further vector in its basis. -/
def Cycle.continueWith (cycle : Cycle R n) (newest : Vector R n) : Cycle R n :=
  { cycle with
    basis := cycle.basis ++ [cycle.newest]
    newest := newest }

/-- One step of a cycle: a new direction, a new column and its rotation. The
step has the number `iteration` among all steps of the solve. -/
@[specialize] def stepBy (division : Division σ R n) (system : LinearSystem σ R n)
    (method : KrylovMethod) (iteration : Nat) (cycle : Cycle R n) : Solving σ R n (Step R n) := do
  let z ← system.precondition cycle.x cycle.newest
  let image ← system.apply cycle.x z
  let (coefficients, remainder) := orthogonalize system (cycle.basis ++ [cycle.newest]) image
  let next := system.op.comm.norm remainder
  let (above, corner) := rotateColumn cycle.rotations (coefficients.headD 0) coefficients.tail
  let length := Scalar.hypot corner next
  if length == 0 then LinearSystem.breakdown cycle.x method iteration .hessenbergSingular
  else
    let cos ← division.divide .rotation corner length
    let sin ← division.divide .rotation next length
    let after := { cycle with
      directions := cycle.directions ++ [z]
      columns := cycle.columns ++ [above ++ [length]]
      rotations := cycle.rotations ++ [⟨cos, sin⟩]
      settled := cycle.settled ++ [cycle.last * cos]
      last := -sin * cycle.last }
    pure ⟨after, remainder, next⟩

/-- Begin a cycle from a solution, or accept the solution. The steps of a cycle
are given. -/
@[specialize] def beginCycleBy (division : Division σ R n) (system : LinearSystem σ R n)
    (remaining : Nat) (advance : Cycle R n → Solving σ R n (Solution R n)) (x : Vector R n) :
    Solving σ R n (Solution R n) := do
  let r ← system.residual x
  let norm := system.op.comm.norm r
  let residual ← division.divide .rightHandSide norm system.bNorm
  if residual ≤ system.tolerance ∨ remaining = 0 then
    pure ⟨x, system.status (system.maxIterations - remaining) residual⟩
  else
    let newest ← division.divideAll .residual r norm
    advance (.first x newest norm)

/-- At most a number of steps, in as many cycles as they need. A cycle has to end if its
residual is small enough, if its basis cannot be continued, if none of the steps remains,
or after as many steps as a restart allows; the basis is continued before this is known. -/
@[specialize] def advanceBy (division : Division σ R n) (system : LinearSystem σ R n)
    (restart : Nat) : Nat → Cycle R n → Solving σ R n (Solution R n)
  | 0, cycle => do
    let residual ← division.divide .rightHandSide cycle.last system.bNorm
    pure ⟨cycle.x, system.status system.maxIterations residual⟩
  | remaining + 1, cycle => do
    let iteration := system.maxIterations - remaining
    let taken ← stepBy division system (.gmres restart) iteration cycle
    let estimate ←
      division.divide .rightHandSide (Scalar.abs taken.cycle.last) system.bNorm
    let restarted := beginCycleBy division system remaining
      (advanceBy division system restart remaining)
    if estimate ≤ system.tolerance ∨ taken.next == 0 ∨ remaining = 0 then
      let x ← taken.cycle.finishBy division
      restarted x
    else
      let newest ← division.divideAll .remainder taken.remainder taken.next
      if restart ≤ taken.cycle.columns.length then
        let x ← taken.cycle.finishBy division
        restarted x
      else advanceBy division system restart remaining (taken.cycle.continueWith newest)

/-- Solve a system from a start, with at least one step in each cycle. -/
@[specialize] def solveBy (division : Division σ R n) (system : LinearSystem σ R n)
    (restart : Nat) (x : Vector R n) : Solving σ R n (Solution R n) :=
  beginCycleBy division system system.maxIterations
    (advanceBy division system (max restart 1) system.maxIterations) x

end HexSlab.MinimalResiduals
