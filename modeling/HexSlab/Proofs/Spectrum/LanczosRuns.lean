import HexSlab.Proofs.Spectrum.TridiagonalForms
import HexSlab.Spectrum.Lanczos

/-!
# Runs of conjugate gradients are positive

Whatever operator a run of conjugate gradients meets, it keeps positive steps and
positive turns only, and a turn for every step that another one follows. So every
coefficient that its tridiagonal matrix reads is there, and the quadratic form of
the matrix is a sum of squares divided by the steps, which vanishes at zero only.
Estimated intervals are therefore positive.
-/

namespace HexSlab

open Matrix

namespace LanczosRun

variable {R : Type} [Field R] [LinearOrder R] [Roots R]

/-- A run of positive steps and turns, with a turn behind every step but the last. -/
inductive Sound : LanczosRun R → Prop
  /-- The run without a step. -/
  | none : Sound .none
  /-- A last step without a turn. -/
  | last {step : R} (forward : 0 < step) : Sound (.last step)
  /-- A step and a turn in front of a run. -/
  | cons {step turn : R} {rest : LanczosRun R} (forward : 0 < step) (onward : 0 < turn)
      (later : Sound rest) : Sound (.cons step turn rest)

omit [Roots R] in
/-- Every step that another one follows has a turn. -/
theorem Sound.length_steps_le {run : LanczosRun R} (sound : run.Sound) :
    run.steps.length ≤ run.turns.length + 1 := by
  induction sound with
  | none => simp [LanczosRun.none]
  | last _ => simp [LanczosRun.last]
  | cons _ _ _ ih => simpa [LanczosRun.cons] using ih

section Entries

/-- The entry on the diagonal of a row, read from the coefficients where they are. -/
def onDiagonal? (run : LanczosRun R) : Nat → Option R
  | 0 => do
    let step ← run.steps[0]?
    return 1 / step
  | row + 1 => do
    let step ← run.steps[row + 1]?
    let turn ← run.turns[row]?
    let before ← run.steps[row]?
    return 1 / step + turn / before

/-- The entry beside the diagonal of a row. -/
def besideDiagonal? (run : LanczosRun R) (row : Nat) : Option R := do
  let turn ← run.turns[row]?
  let step ← run.steps[row]?
  return Scalar.sqrt turn / step

/-- An entry of the full matrix. -/
def readAt? (run : LanczosRun R) (row column : Nat) : Option R :=
  if row = column then run.onDiagonal? row
  else if row + 1 = column then run.besideDiagonal? row
  else if column + 1 = row then run.besideDiagonal? column
  else some 0

/-- The diagonal holds what is read for it. -/
theorem getElem?_diagonal (run : LanczosRun R) (row : Nat) :
    run.tridiagonal.diagonal[row]? = run.onDiagonal? row := by
  obtain ⟨steps, turns⟩ := run
  cases steps with
  | nil => cases row <;> rfl
  | cons first steps =>
    cases row with
    | zero => rfl
    | succ row =>
      simp only [tridiagonal, onDiagonal?, List.getElem?_cons_succ, List.getElem?_zipWith]
      cases steps[row]? <;> cases turns[row]? <;> cases (first :: steps)[row]? <;> rfl

/-- So do the entries beside it, as far as there are any. -/
theorem getElem?_offDiagonal (run : LanczosRun R) {row : Nat}
    (inside : row + 1 < run.steps.length) :
    run.tridiagonal.offDiagonal[row]? = run.besideDiagonal? row := by
  have early : row < run.steps.length - 1 := by omega
  simp only [tridiagonal, besideDiagonal?, List.getElem?_take, if_pos early, List.getElem?_zipWith]
  cases run.turns[row]? <;> cases run.steps[row]? <;> rfl

/-- A matrix has a row for each step. -/
theorem Sound.length_diagonal {run : LanczosRun R} (sound : run.Sound) :
    run.tridiagonal.diagonal.length = run.steps.length := by
  have turns := sound.length_steps_le
  obtain ⟨steps, turns⟩ := run
  cases steps with
  | nil => rfl
  | cons first steps =>
    simp only [List.length_cons] at turns
    simp only [tridiagonal, List.length_cons, List.length_zipWith]
    omega

/-- There is an entry beside the diagonal for each step that another one follows. -/
theorem Sound.length_offDiagonal {run : LanczosRun R} (sound : run.Sound) :
    run.tridiagonal.offDiagonal.length = run.steps.length - 1 := by
  have turns := sound.length_steps_le
  simp only [tridiagonal, List.length_take, List.length_zipWith]
  omega

end Entries

section Form

/-- The quadratic form of the matrix of a run. -/
def form (run : LanczosRun R) (u : List R) : R :=
  Tridiagonal.form run.tridiagonal.diagonal run.tridiagonal.offDiagonal u

/-- The form of a single step. -/
theorem form_last (step x : R) : (last step).form [x] = x * x / step := by
  simp only [form, last, tridiagonal, Tridiagonal.form, List.zipWith_nil_left,
    List.zipWith_nil_right, List.take_nil, List.headD_nil]
  ring

variable [IsStrictOrderedRing R]

/-- A step in front of a run adds a square divided by the step: its own entry on the
diagonal, those beside it and what the turn adds to the next one complete it. -/
theorem form_cons (roots : SquareRoots R) {step turn : R} (onward : 0 ≤ turn)
    (rest : LanczosRun R) (x : R) {u : List R} (long : u.length = rest.steps.length) :
    (cons step turn rest).form (x :: u) =
      (x + Roots.sqrt turn * u.headD 0) * (x + Roots.sqrt turn * u.headD 0) / step +
        rest.form u := by
  have square : Roots.sqrt turn * Roots.sqrt turn = turn := roots.mul_self turn onward
  obtain ⟨steps, turns⟩ := rest
  cases steps with
  | nil =>
    obtain rfl : u = [] := List.eq_nil_of_length_eq_zero long
    simp only [form, cons, tridiagonal, Tridiagonal.form, List.zipWith_nil_left,
      List.zipWith_nil_right, List.headD_nil]
    ring
  | cons next steps =>
    let beyond := List.zipWith (fun step carried => 1 / step + carried) steps
      (List.zipWith (fun turn step => turn / step) turns (next :: steps))
    let beside := (List.zipWith (fun turn step => Roots.sqrt turn / step) turns
      (next :: steps)).take steps.length
    have whole : (cons step turn ⟨next :: steps, turns⟩).form (x :: u) =
        Tridiagonal.form (1 / step :: (1 / next + turn / step) :: beyond)
          (Roots.sqrt turn / step :: beside) (x :: u) := rfl
    have part : form ⟨next :: steps, turns⟩ u = Tridiagonal.form (1 / next :: beyond) beside u :=
      rfl
    rw [whole, part, Tridiagonal.form, List.headD_cons, List.tail_cons, Tridiagonal.form_add_head]
    calc 1 / step * (x * x) + Roots.sqrt turn / step * (x * u.headD 0 + u.headD 0 * x) +
          (turn / step * (u.headD 0 * u.headD 0) +
            Tridiagonal.form (1 / next :: beyond) beside u)
        = 1 / step * (x * x) + Roots.sqrt turn / step * (x * u.headD 0 + u.headD 0 * x) +
          (Roots.sqrt turn * Roots.sqrt turn / step * (u.headD 0 * u.headD 0) +
            Tridiagonal.form (1 / next :: beyond) beside u) := by rw [square]
      _ = (x + Roots.sqrt turn * u.headD 0) * (x + Roots.sqrt turn * u.headD 0) / step +
          Tridiagonal.form (1 / next :: beyond) beside u := by ring

/-- The form of a sound run is not negative, and zero for zero only: of the squares
that add up to it the last one makes the last entry zero, and so on upwards. -/
theorem Sound.form_definite (roots : SquareRoots R) {run : LanczosRun R} (sound : run.Sound)
    {u : List R} (long : u.length = run.steps.length) :
    0 ≤ run.form u ∧ (run.form u = 0 → ∀ x ∈ u, x = 0) := by
  induction sound generalizing u with
  | none =>
    obtain rfl : u = [] := List.eq_nil_of_length_eq_zero long
    exact ⟨le_rfl, fun _ x inside => absurd inside List.not_mem_nil⟩
  | @last step forward =>
    obtain ⟨x, rfl⟩ := List.length_eq_one_iff.mp long
    rw [form_last]
    refine ⟨div_nonneg (mul_self_nonneg x) forward.le, fun zero y inside => ?_⟩
    obtain rfl := List.mem_singleton.mp inside
    exact mul_self_eq_zero.mp ((div_eq_zero_iff.mp zero).resolve_right forward.ne')
  | @cons step turn rest forward onward _ ih =>
    obtain ⟨x, u, rfl⟩ := List.exists_cons_of_length_eq_add_one long
    have shorter : u.length = rest.steps.length := Nat.succ.inj long
    obtain ⟨nonneg, definite⟩ := ih shorter
    rw [form_cons roots onward.le rest x shorter]
    set sum := x + Roots.sqrt turn * u.headD 0 with sum_eq
    have square : 0 ≤ sum * sum / step := div_nonneg (mul_self_nonneg sum) forward.le
    refine ⟨add_nonneg square nonneg, fun zero => ?_⟩
    obtain ⟨first, later⟩ := (add_eq_zero_iff_of_nonneg square nonneg).mp zero
    have below := definite later
    have head : u.headD 0 = 0 := by
      cases u with
      | nil => rfl
      | cons y u => exact below y List.mem_cons_self
    have none : sum = 0 :=
      mul_self_eq_zero.mp ((div_eq_zero_iff.mp first).resolve_right forward.ne')
    rw [sum_eq, head, mul_zero, add_zero] at none
    exact List.forall_mem_cons.mpr ⟨none, below⟩

end Form

/-- What a run builds: a matrix with a row for each step, all of whose entries were
read from coefficients that are there, symmetric and positive definite. -/
structure BuildsPositive (run : LanczosRun R) : Prop where
  /-- A row for each step. -/
  rows : run.tridiagonal.diagonal.length = run.steps.length
  /-- The coefficients that an entry is read from are in the run. -/
  inRange : ∀ row column,
    run.readAt? row.val column.val = some (run.tridiagonal.toMatrix row column)
  /-- The matrix is its own transpose. -/
  symmetric : run.tridiagonal.toMatrix.IsSymm
  /-- Its quadratic form is positive but at zero. -/
  positive : ∀ u, u ≠ 0 → 0 < u ⬝ᵥ (run.tridiagonal.toMatrix *ᵥ u)

/-- Every entry of the matrix of a sound run is read where there is a coefficient. -/
theorem Sound.readAt?_eq {run : LanczosRun R} (sound : run.Sound)
    (row column : Fin run.tridiagonal.diagonal.length) :
    run.readAt? row column = some (run.tridiagonal.toMatrix row column) := by
  have rows := sound.length_diagonal
  have beside (place : Nat) (inside : place + 1 < run.steps.length) :
      run.besideDiagonal? place = some (run.tridiagonal.offDiagonal.getD place 0) := by
    have early : place < run.tridiagonal.offDiagonal.length := by
      rw [sound.length_offDiagonal]
      omega
    rw [← run.getElem?_offDiagonal inside, List.getD_eq_getElem?_getD,
      List.getElem?_eq_getElem early]
    rfl
  simp only [readAt?, Tridiagonal.toMatrix, of_apply, Fin.ext_iff]
  split_ifs with same above below
  · rw [← run.getElem?_diagonal, List.getElem?_eq_getElem row.isLt]
    rfl
  · exact beside row (by omega)
  · exact beside column (by omega)
  · rfl

variable [IsStrictOrderedRing R]

/-- A sound run builds a positive matrix. -/
theorem Sound.buildsPositive (roots : SquareRoots R) {run : LanczosRun R} (sound : run.Sound) :
    run.BuildsPositive where
  rows := sound.length_diagonal
  inRange := sound.readAt?_eq
  symmetric := Tridiagonal.isSymm_toMatrix _
  positive := by
    intro u nonzero
    have long : (List.ofFn u).length = run.steps.length := by
      rw [List.length_ofFn, sound.length_diagonal]
    obtain ⟨nonneg, definite⟩ := sound.form_definite roots long
    have value : u ⬝ᵥ (run.tridiagonal.toMatrix *ᵥ u) = run.form (List.ofFn u) :=
      Tridiagonal.dotProduct_toMatrix_mulVec _ _ u
    rw [value]
    refine lt_of_le_of_ne nonneg fun zero => nonzero ?_
    funext i
    exact definite zero.symm (u i) (List.mem_ofFn.mpr ⟨i, rfl⟩)

end LanczosRun

section Steps

variable {σ R : Type} [Field R] [LinearOrder R] [Roots R] [IsStrictOrderedRing R] {n : Nat}

/-- Steps that are kept are positive, and so are the turns between them, as a step is
the quotient of two positive numbers and a turn is looked at before it is kept. -/
theorem lanczosSteps_sound (op : Operator σ R n) (inverse : Vector R n) (bound : R) (count : Nat)
    (r p : Vector R n) (rz : R) :
    (lanczosSteps op inverse bound count r p rz).Yields LanczosRun.Sound := by
  induction count generalizing r p rz with
  | zero => exact Attempt.yields_pure .none
  | succ count ih =>
    unfold lanczosSteps
    split_ifs with residual
    · refine (Attempt.yields_any _).bind fun q _ => ?_
      dsimp only
      split_ifs with energy converged onward
      · exact Attempt.yields_pure (.last (div_pos residual energy))
      · refine (ih _ _ _).bind fun rest later => ?_
        exact Attempt.yields_pure (.cons (div_pos residual energy) onward later)
      · exact Attempt.yields_pure (.last (div_pos residual energy))
      · exact Attempt.yields_pure .none
    · exact Attempt.yields_pure .none

/-- The run from any start vector is sound, whatever the operator does. -/
theorem lanczosRun_sound (op : Operator σ R n) (inverse start : Vector R n) (iterations : Nat) :
    (lanczosRun op inverse start iterations).Yields LanczosRun.Sound :=
  lanczosSteps_sound op inverse _ iterations start _ _

omit [IsStrictOrderedRing R] in
/-- A run ends with an error of the operator only. -/
theorem lanczosRun_failsOnly (op : Operator σ R n) (inverse start : Vector R n)
    (iterations : Nat) :
    (lanczosRun op inverse start iterations).FailsOnly fun error =>
      ∃ cause, error = .operator cause := by
  have steps (bound : R) (count : Nat) (r p : Vector R n) (rz : R) :
      (lanczosSteps op inverse bound count r p rz).FailsOnly fun error =>
        ∃ cause, error = .operator cause := by
    induction count generalizing r p rz with
    | zero => exact Attempt.failsOnly_pure _
    | succ count ih =>
      unfold lanczosSteps
      split_ifs
      · refine Attempt.FailsOnly.bind ((Attempt.failsOnly_any _).mapError ?_) fun q => ?_
        · intro cause _
          exact ⟨cause, rfl⟩
        · dsimp only
          split_ifs
          · exact Attempt.failsOnly_pure _
          · exact (ih _ _ _).bind fun rest => Attempt.failsOnly_pure _
          · exact Attempt.failsOnly_pure _
          · exact Attempt.failsOnly_pure _
      · exact Attempt.failsOnly_pure _
  exact steps _ iterations start _ _

end Steps

section Exact

variable {σ R : Type} [Field R] [LinearOrder R] [Roots R] {n : Nat}

/-- A routine finds the extreme eigenvalues of the matrix of every run from a start
vector that has taken a step. -/
def ExactFor (extremes : Tridiagonal R → R × R) (op : Operator σ R n) (inverse start : Vector R n)
    (iterations : Nat) : Prop :=
  (lanczosRun op inverse start iterations).Yields fun run =>
    run.steps ≠ [] → run.tridiagonal.HasExtremes (extremes run.tridiagonal)

/-- An estimate is the pair of extreme eigenvalues of a matrix that a run built, so it
has whatever follows for these from what is known of the run. -/
theorem ExactFor.cgEstimate {extremes : Tridiagonal R → R × R} {op : Operator σ R n}
    {inverse start : Vector R n} {iterations : Nat}
    (exact : ExactFor extremes op inverse start iterations) {known : LanczosRun R → Prop}
    (run : (lanczosRun op inverse start iterations).Yields known) {holds : R × R → Prop}
    (follows : ∀ taken pair, known taken → taken.tridiagonal.HasExtremes pair → holds pair) :
    (cgEstimate extremes op inverse start iterations).Yields holds := by
  unfold HexSlab.cgEstimate
  refine (exact.and run).bind fun taken facts => ?_
  obtain ⟨found, fact⟩ := facts
  split_ifs with empty
  · exact Attempt.yields_fail _
  · rw [List.isEmpty_iff] at empty
    exact Attempt.yields_pure (follows taken _ fact (found empty))

/-- Steps are taken to their end with an operator that never fails. -/
theorem lanczosSteps_attains {op : Operator σ R n}
    (never : ∀ v, (op.apply v).Attains fun _ => True) (inverse : Vector R n) (bound : R)
    (count : Nat) (r p : Vector R n) (rz : R) :
    (lanczosSteps op inverse bound count r p rz).Attains fun _ => True := by
  induction count generalizing r p rz with
  | zero => exact Attempt.attains_pure trivial
  | succ count ih =>
    unfold lanczosSteps
    split_ifs
    · refine ((never p).mapError _).bind fun q _ => ?_
      dsimp only
      split_ifs
      · exact Attempt.attains_pure trivial
      · exact (ih _ _ _).bind fun rest _ => Attempt.attains_pure trivial
      · exact Attempt.attains_pure trivial
      · exact Attempt.attains_pure trivial
    · exact Attempt.attains_pure trivial

/-- An estimate is found if the operator never fails, the start vector has a positive
length and the first direction a positive energy. -/
theorem cgEstimate_attains (extremes : Tridiagonal R → R × R) {op : Operator σ R n}
    (never : ∀ v, (op.apply v).Attains fun _ => True) {inverse start : Vector R n}
    (length : 0 < op.comm.dot start (Vec.hadamard inverse start))
    (energy : (op.apply (Vec.hadamard inverse start)).Yields fun image =>
      0 < op.comm.dot (Vec.hadamard inverse start) image) (iterations : Nat) :
    (cgEstimate extremes op inverse start (iterations + 1)).Attains fun _ => True := by
  have run : (lanczosRun op inverse start (iterations + 1)).Attains fun taken =>
      taken.steps ≠ [] := by
    unfold lanczosRun lanczosSteps
    dsimp only
    rw [if_pos length]
    refine (((never _).and energy).mapError _).bind fun image facts => ?_
    rw [if_pos facts.2]
    split_ifs
    · exact Attempt.attains_pure (List.cons_ne_nil _ _)
    · refine (lanczosSteps_attains never _ _ _ _ _ _).bind fun rest _ => ?_
      exact Attempt.attains_pure (List.cons_ne_nil _ _)
    · exact Attempt.attains_pure (List.cons_ne_nil _ _)
  refine run.bind fun taken steps => ?_
  have some_step : ¬taken.steps.isEmpty = true := by rwa [List.isEmpty_iff]
  rw [if_neg some_step]
  exact Attempt.attains_pure trivial

/-- The extreme eigenvalues of a matrix of real numbers are found for every run. -/
theorem exactFor_exactExtremes (op : Operator σ ℝ n) (inverse start : Vector ℝ n)
    (iterations : Nat) : ExactFor Tridiagonal.exactExtremes op inverse start iterations := by
  refine (Attempt.yields_any _).mono fun run _ taken => ?_
  refine Tridiagonal.hasExtremes_exactExtremes _ ?_
  obtain ⟨steps, turns⟩ := run
  cases steps with
  | nil => exact absurd rfl taken
  | cons first steps => exact List.cons_ne_nil _ _

end Exact

end HexSlab
