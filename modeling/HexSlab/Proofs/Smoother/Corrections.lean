import HexSlab.Proofs.Smoother.SymmetricMaps
import HexSlab.Proofs.Sparse.Product
import HexSlab.Smoother.Relaxation
import Mathlib.Tactic.Abel

/-!
# Sweeps as corrections one after the other

A correction adds the image of the residual of the iterate under some map. A
Jacobi sweep is one correction that weights the whole residual, and a
Gauss-Seidel sweep is one for each row that weights the residual there, since the
rows read what the corrections before them made. So all sweeps are a list of
corrections, which acts on the residual of the start as one linear map. The
transpose of that map is the map of the list taken from its end.
-/

namespace HexSlab.Relaxation

open Vec

section Rows

variable {σ R : Type} [Scalar R] {n : Nat}

/-- The vector with one entry corrected, given the sum of its row. -/
def correctEntry (inverse x : Vector R n) (damping : R) (i : Fin n) (sum : R) (y : Vector R n) :
    Vector R n :=
  y.set i.val (Vec.entries y i + damping * Vec.entries inverse i * (Vec.entries x i - sum)) i.isLt

/-- The first correction of a pass. -/
theorem gaussSeidelPass_cons (op : Operator σ R n) (inverse x : Vector R n) (damping : R)
    (i : Fin n) (rest : List (Fin n)) (y : Vector R n) :
    gaussSeidelPass op inverse damping x (i :: rest) y =
      match rowSum? y (op.row i) with
      | none => .error ⟨.shapesDiffer, y⟩
      | some sum => gaussSeidelPass op inverse damping x rest
          (correctEntry inverse x damping i sum y) := rfl

end Rows

section Maps

variable {R : Type} [Field R] {n : Nat}

/-- The iterate after corrections, one after the other. -/
def correct (action : Module.End R (Fin n → R)) (x y : Fin n → R)
    (corrections : List (Module.End R (Fin n → R))) : Fin n → R :=
  corrections.foldl (fun y correction => y + correction (x - action y)) y

/-- The corrections of two lists are those of one after the other. -/
theorem correct_append (action : Module.End R (Fin n → R)) (x y : Fin n → R)
    (first second : List (Module.End R (Fin n → R))) :
    correct action x y (first ++ second) = correct action x (correct action x y first) second :=
  List.foldl_append

/-- The map from the residual of the start to the sum of all corrections. -/
def sweepMap (action : Module.End R (Fin n → R)) :
    List (Module.End R (Fin n → R)) → Module.End R (Fin n → R)
  | [] => 0
  | correction :: rest => correction + sweepMap action rest * (1 - action * correction)

/-- Corrections add the image of the residual of the start. -/
theorem correct_eq (action : Module.End R (Fin n → R)) (x y : Fin n → R)
    (corrections : List (Module.End R (Fin n → R))) :
    correct action x y corrections = y + sweepMap action corrections (x - action y) := by
  induction corrections generalizing y with
  | nil => exact (add_zero y).symm
  | cons correction rest ih =>
    have residual : x - action (y + correction (x - action y)) =
        (1 - action * correction) (x - action y) := by
      rw [map_add, sub_add_eq_sub_sub]
      rfl
    calc correct action x y (correction :: rest)
        = correct action x (y + correction (x - action y)) rest := rfl
      _ = y + correction (x - action y) +
            sweepMap action rest ((1 - action * correction) (x - action y)) := by
          rw [ih, residual]
      _ = y + sweepMap action (correction :: rest) (x - action y) := add_assoc _ _ _

/-- One more correction at the end works on the residual that the others leave. -/
theorem sweepMap_concat (action : Module.End R (Fin n → R))
    (corrections : List (Module.End R (Fin n → R))) (last : Module.End R (Fin n → R)) :
    sweepMap action (corrections ++ [last]) =
      sweepMap action corrections + last * (1 - action * sweepMap action corrections) := by
  induction corrections with
  | nil =>
    show last + 0 * (1 - action * last) = 0 + last * (1 - action * 0)
    rw [zero_mul, mul_zero, sub_zero, mul_one, add_zero, zero_add]
  | cons correction rest ih =>
    rw [List.cons_append, sweepMap, ih, sweepMap]
    simp only [mul_sub, sub_mul, mul_add, add_mul, mul_one, mul_assoc]
    abel

/-- For a symmetric operator and symmetric corrections the opposite order makes
the transpose of the map. -/
theorem sweepMap_adjoint {action : Module.End R (Fin n → R)}
    (symmetric : pairing.IsSelfAdjoint action) (corrections : List (Module.End R (Fin n → R)))
    (each : ∀ correction ∈ corrections, pairing.IsSelfAdjoint correction) :
    LinearMap.IsAdjointPair pairing pairing (sweepMap action corrections)
      (sweepMap action corrections.reverse) := by
  induction corrections with
  | nil => exact LinearMap.isAdjointPair_zero
  | cons correction rest ih =>
    obtain ⟨own, others⟩ := List.forall_mem_cons.mp each
    have before : LinearMap.IsAdjointPair pairing pairing
        (1 - action * correction : Module.End R (Fin n → R))
        (1 - correction * action : Module.End R (Fin n → R)) :=
      LinearMap.isAdjointPair_one.sub (LinearMap.IsAdjointPair.mul symmetric own)
    have whole := LinearMap.IsAdjointPair.add own (LinearMap.IsAdjointPair.mul (ih others) before)
    -- taken from its end the list has this correction last, and so has the adjoint of the map
    have order : sweepMap action (correction :: rest).reverse =
        correction + (1 - correction * action) * sweepMap action rest.reverse := by
      rw [List.reverse_cons, sweepMap_concat, mul_sub, sub_mul, mul_one, one_mul, mul_assoc]
      abel
    rw [order]
    exact whole

/-- The correction of one unknown by the residual of its row. -/
def pointCorrection (inverse : Vector R n) (damping : R) (i : Fin n) : Module.End R (Fin n → R) :=
  diagonal (Pi.single i (damping * Vec.entries inverse i))

/-- The corrections of a sweep. -/
def sweepCorrections (inverse : Vector R n) (damping : R) :
    Sweep → List (Module.End R (Fin n → R))
  | .jacobi => [diagonal (damping • Vec.entries inverse)]
  | .gaussSeidel => (List.finRange n).map (pointCorrection inverse damping)
  | .symmetricGaussSeidel =>
    (List.finRange n ++ (List.finRange n).reverse).map (pointCorrection inverse damping)

/-- The corrections of a number of sweeps. -/
def allCorrections (inverse : Vector R n) (params : RelaxationParams R) :
    List (Module.End R (Fin n → R)) :=
  (List.replicate params.sweeps (sweepCorrections inverse params.damping params.sweep)).flatten

end Maps

section Sweeps

variable {σ R : Type} [Field R] [LinearOrder R] [Roots R] {n : Nat}

/-- A row is read from a vector that has all its columns, and its sum is its
form. -/
theorem rowSum?_eq {row : List (Nat × R)} (inside : ∀ column ∈ row.map (·.1), column < n)
    (y : Vector R n) : rowSum? y row = some (Csr.rowForm row (Vec.entries y)) := by
  have fold (start : R) : (row.foldlM
      (fun sum entry => (y[entry.1]?).map fun value => sum + entry.2 * value) start : Option R) =
        some (start + Csr.rowForm row (Vec.entries y)) := by
    induction row generalizing start with
    | nil => exact congrArg some (add_zero start).symm
    | cons entry rest ih =>
      have bound : entry.1 < n := inside entry.1 List.mem_cons_self
      have others : ∀ column ∈ rest.map (·.1), column < n := fun column member =>
        inside column (List.mem_cons_of_mem entry.1 member)
      rw [List.foldlM_cons, Vector.getElem?_eq_getElem bound, Option.map_some, Option.bind_eq_bind,
        Option.bind_some, ih others, Csr.rowForm_cons, valueAt_of_lt bound, add_assoc]
      rfl
  rw [rowSum?, fold, zero_add]

/-- The rows of an operator can be read and say what its map does. -/
def ReadsRows (op : Operator σ R n) (action : Module.End R (Fin n → R)) : Prop :=
  ∀ (y : Vector R n) (i : Fin n), rowSum? y (op.row i) = some (action (Vec.entries y) i)

variable {op : Operator σ R n} {action : Module.End R (Fin n → R)}

/-- Replacing one entry by its corrected value corrects the vector there. -/
theorem entries_correctEntry (action : Module.End R (Fin n → R)) (inverse x y : Vector R n)
    (damping : R) (i : Fin n) :
    Vec.entries (correctEntry inverse x damping i (action (Vec.entries y) i) y) =
      Vec.entries y +
        pointCorrection inverse damping i (Vec.entries x - action (Vec.entries y)) := by
  funext j
  show Vec.entries (correctEntry inverse x damping i _ y) j = Vec.entries y j +
    (Pi.single i (damping * Vec.entries inverse i) : Fin n → R) j *
      (Vec.entries x j - action (Vec.entries y) j)
  by_cases here : j = i
  · rw [here, Pi.single_eq_same]
    exact Vector.getElem_set_self i.isLt
  · rw [Pi.single_eq_of_ne here, zero_mul, add_zero]
    exact Vector.getElem_set_ne i.isLt j.isLt fun same => here (Fin.ext same.symm)

/-- A pass over rows that can be read makes their corrections in order. -/
theorem gaussSeidelPass_eq (reads : ReadsRows op action) (inverse x : Vector R n) (damping : R)
    (order : List (Fin n)) (y : Vector R n) :
    ∃ after, gaussSeidelPass op inverse damping x order y = .ok after ∧
      Vec.entries after = correct action (Vec.entries x) (Vec.entries y)
        (order.map (pointCorrection inverse damping)) := by
  induction order generalizing y with
  | nil => exact ⟨y, rfl, rfl⟩
  | cons i rest ih =>
    obtain ⟨after, done, same⟩ :=
      ih (correctEntry inverse x damping i (action (Vec.entries y) i) y)
    refine ⟨after, ?_, ?_⟩
    · rw [gaussSeidelPass_cons, reads y i]
      exact done
    · rw [same, entries_correctEntry]
      rfl

/-- An operator whose products, or rows, say what a map does: the ones that a kind of
sweep asks for. -/
def Serves (op : Operator σ R n) (action : Module.End R (Fin n → R)) : Sweep → Prop
  | .jacobi => op.Realizes action
  | .gaussSeidel => ReadsRows op action
  | .symmetricGaussSeidel => ReadsRows op action

/-- An operator whose products and rows both say what a map does serves every kind of
sweep. -/
theorem serves_of_both (linear : op.Realizes action) (reads : ReadsRows op action)
    (sweep : Sweep) : Serves op action sweep := by
  cases sweep with
  | jacobi => exact linear
  | gaussSeidel => exact reads
  | symmetricGaussSeidel => exact reads

/-- An operator whose rows say what a map does serves the sweeps that read them. -/
theorem serves_of_reads (reads : ReadsRows op action) {sweep : Sweep} (kind : sweep ≠ .jacobi) :
    Serves op action sweep := by
  cases sweep with
  | jacobi => exact absurd rfl kind
  | gaussSeidel => exact reads
  | symmetricGaussSeidel => exact reads

/-- A sweep makes its corrections. -/
theorem sweepOnce_attains {sweep : Sweep} (serves : Serves op action sweep)
    (inverse : Vector R n) (damping : R) (x y : Vector R n) :
    (sweepOnce op inverse sweep damping x y).Attains fun after =>
      Vec.entries after = correct action (Vec.entries x) (Vec.entries y)
        (sweepCorrections inverse damping sweep) := by
  cases sweep with
  | jacobi =>
    refine Attempt.Attains.bind ((serves y).mapError _) ?_
    intro image known
    apply Attempt.attains_pure
    rw [entries_axpy, entries_hadamard, entries_sub, known, one_smul, add_comm,
      ← smul_mul_assoc]
    rfl
  | gaussSeidel =>
    intro state
    obtain ⟨after, done, same⟩ :=
      gaussSeidelPass_eq serves inverse x damping (List.finRange n) y
    exact ⟨after, state, congrArg (·, state) done, same⟩
  | symmetricGaussSeidel =>
    intro state
    obtain ⟨between, forward, first⟩ :=
      gaussSeidelPass_eq serves inverse x damping (List.finRange n) y
    obtain ⟨after, backward, second⟩ :=
      gaussSeidelPass_eq serves inverse x damping (List.finRange n).reverse between
    refine ⟨after, state, ?_, ?_⟩
    · show ((gaussSeidelPass op inverse damping x (List.finRange n) y).bind
        (gaussSeidelPass op inverse damping x (List.finRange n).reverse), state) = _
      rw [forward, Except.bind, backward]
    · show Vec.entries after = _
      rw [second, first, sweepCorrections, List.map_append, correct_append]

/-- A number of sweeps makes their corrections, one sweep after the other. -/
theorem sweepTimes_attains {sweep : Sweep} (serves : Serves op action sweep)
    (inverse : Vector R n) (damping : R) (x : Vector R n) (count : Nat) (y : Vector R n) :
    (sweepTimes op inverse sweep damping x count y).Attains fun after =>
      Vec.entries after = correct action (Vec.entries x) (Vec.entries y)
        (List.replicate count (sweepCorrections inverse damping sweep)).flatten := by
  induction count generalizing y with
  | zero => exact Attempt.attains_pure rfl
  | succ count ih =>
    refine Attempt.Attains.bind (sweepOnce_attains serves inverse damping x y) ?_
    intro next made
    refine (ih next).mono ?_
    intro after same
    rw [same, made, ← correct_append, List.replicate_succ, List.flatten_cons]

/-- A computed relaxation makes all its corrections, and counts the call. -/
theorem applyInverse_attains (relaxation : Relaxation R n) {inverse : Vector R n}
    (serves : Serves op action relaxation.params.sweep)
    (computed : relaxation.phase = .computed inverse) (x y : Vector R n) :
    (relaxation.applyInverse op x y).Attains fun result =>
      result.2 = relaxation.recordApply ∧
        Vec.entries result.1 =
          correct action (Vec.entries x)
            (if relaxation.params.zeroStart then 0 else Vec.entries y)
            (allCorrections inverse relaxation.params) := by
  have begun : Vec.entries (if relaxation.params.zeroStart then (Vec.fill 0 : Vector R n) else y) =
      if relaxation.params.zeroStart then 0 else Vec.entries y := by
    split
    · exact entries_zero
    · rfl
  unfold applyInverse
  rw [computed]
  refine Attempt.Attains.bind (sweepTimes_attains serves inverse relaxation.params.damping x
    relaxation.params.sweeps _) ?_
  intro solved same
  refine Attempt.attains_pure ⟨rfl, ?_⟩
  rw [same, begun]
  rfl

end Sweeps

end HexSlab.Relaxation
