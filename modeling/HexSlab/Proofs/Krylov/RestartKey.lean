import HexSlab.Krylov.Method
import HexSlab.Proofs.Exact
import Mathlib.Data.List.Forall2

/-!
# The number of steps before a restart is read for every method

The number of steps before a restart matters to one method, but it is read and checked
before the method is chosen. So with the other methods a list is read as if the number
were not there exactly if it is a count. Any other value is an error that no list without
the number gives.
-/

namespace HexSlab

/-- The key that an error is about. -/
def ParameterError.key : ParameterError → String
  | .typeMismatch key _ _ => key
  | .invalidValue key _ _ => key

namespace ParameterValue

variable {R : Type}

/-- An integer as a count. -/
theorem asCount_int (key : String) (i : Int) :
    asCount key (int i : ParameterValue R) =
      if 0 ≤ i then .ok i.toNat
      else .error (.invalidValue key (toString i) "expected a non-negative integer") := rfl

/-- A value is a count exactly if it is an integer that is not negative. -/
theorem exists_asCount_eq_ok_iff (key : String) (value : ParameterValue R) :
    (∃ count, value.asCount key = .ok count) ↔ ∃ count : Nat, value = .int count := by
  cases value with
  | int i =>
    rw [asCount_int]
    by_cases nonneg : 0 ≤ i
    · rw [if_pos nonneg]
      exact iff_of_true ⟨_, rfl⟩ ⟨i.toNat, congrArg int (Int.toNat_of_nonneg nonneg).symm⟩
    · rw [if_neg nonneg]
      refine iff_of_false (fun ⟨count, made⟩ => by cases made) ?_
      rintro ⟨count, same⟩
      rw [int.inj same] at nonneg
      exact nonneg (Int.natCast_nonneg count)
  | bool | double | text =>
    exact iff_of_false (fun ⟨count, made⟩ => by cases made) fun ⟨count, same⟩ => by cases same

/-- What is wrong with a count is said of its key. -/
theorem key_of_asCount {key : String} {value : ParameterValue R} {error : ParameterError}
    (refused : value.asCount key = .error error) : error.key = key := by
  cases value with
  | int i =>
    rw [asCount_int] at refused
    split at refused
    · cases refused
    · rw [← Except.error.inj refused]
      rfl
  | bool | double | text =>
    cases refused
    rfl

/-- What is wrong with a real number is said of its key. -/
theorem key_of_asDouble [Scalar R] {key : String} {value : ParameterValue R}
    {error : ParameterError} (refused : value.asDouble key = .error error) : error.key = key := by
  cases value with
  | int | double => cases refused
  | bool | text =>
    cases refused
    rfl

end ParameterValue

/-- What is wrong with a parameter that is read is said of its key, if its kind says so. -/
theorem ParameterList.key_of_read {R T : Type} {list : ParameterList R}
    {convert : String → ParameterValue R → Except ParameterError T} {key : String} {default : T}
    {error : ParameterError}
    (named : ∀ value, convert key value = .error error → error.key = key)
    (refused : list.read convert key default = .error error) : error.key = key := by
  unfold read at refused
  split at refused
  · exact named _ refused
  · cases refused

/-- A name spells a word of small letters: it has its letters, each small or capital. -/
def Spells (name word : String) : Prop :=
  List.Forall₂ (fun c letter => c = letter ∨ c = letter.toUpper) name.toList word.toList

instance (name word : String) : Decidable (Spells name word) :=
  decidable_of_iff (name.toList.length = word.toList.length ∧
      ∀ pair ∈ name.toList.zip word.toList, pair.1 = pair.2 ∨ pair.1 = pair.2.toUpper)
    ⟨fun ⟨length, letters⟩ => List.forall₂_iff_zip.mpr ⟨length, letters _⟩,
      fun spelt => ⟨spelt.length_eq, fun _ listed => (List.forall₂_iff_zip.mp spelt).2 listed⟩⟩

/-- A name that spells a word becomes it when it is lowered, if the word's letters and
their capital letters do. -/
theorem Spells.lower_eq {name word : String} (spelt : Spells name word)
    (kept : word.toList.map Text.lowerChar = word.toList)
    (lowered : (word.toList.map Char.toUpper).map Text.lowerChar = word.toList) :
    Text.lower name = word := by
  have letters : name.toList.map Text.lowerChar = word.toList := by
    unfold Spells at spelt
    generalize name.toList = given at spelt ⊢
    generalize word.toList = letters at spelt kept lowered ⊢
    induction spelt with
    | nil => rfl
    | cons here _ ih =>
      obtain ⟨keptHere, keptRest⟩ := List.cons.inj kept
      obtain ⟨loweredHere, loweredRest⟩ := List.cons.inj lowered
      rw [List.map_cons, ih keptRest loweredRest]
      rcases here with rfl | rfl
      · rw [keptHere]
      · rw [loweredHere]
  rw [Text.lower, letters, String.ofList_toList]

namespace KrylovSolver

variable {R : Type} [Scalar R]

/-- A name that spells a method without restarts is that of a method, whatever number of
steps is given. -/
theorem exists_methodOfName {name : String} (spelt : Spells name "cg" ∨ Spells name "bicgstab") :
    ∃ method, ∀ restart, methodOfName name restart = .ok method := by
  rcases spelt with spelt | spelt
  · have word := spelt.lower_eq (by decide) (by decide)
    refine ⟨.cg, fun restart => ?_⟩
    simp only [methodOfName, word]
    rfl
  · have word := spelt.lower_eq (by decide) (by decide)
    refine ⟨.bicgstab, fun restart => ?_⟩
    simp only [methodOfName, word]
    rfl

/-- A list that asks for a method without restarts: it names none, and then conjugate
gradients are taken, or it spells one. -/
def AvoidsRestarts (list : ParameterList R) : Prop :=
  ∀ value ∈ list.value? methodKey,
    ∃ name, value = .text name ∧ (Spells name "cg" ∨ Spells name "bicgstab")

/-- The limits that a list gives a method. -/
def limited (list : ParameterList R) (method : KrylovMethod) :
    Except ParameterError (KrylovSolver R) := do
  let usual : KrylovSolver R := ofMethod method
  let maxIterations ← list.read ParameterValue.asCount iterationsKey usual.maxIterations
  let tolerance ← list.read ParameterValue.asDouble toleranceKey usual.tolerance
  return ⟨method, maxIterations, tolerance⟩

/-- What is wrong with the limits is said of one of their keys. -/
theorem key_of_limited {list : ParameterList R} {method : KrylovMethod} {error : ParameterError}
    (refused : limited list method = .error error) :
    error.key = iterationsKey ∨ error.key = toleranceKey := by
  unfold limited at refused
  dsimp only at refused
  cases iterations : list.read ParameterValue.asCount iterationsKey
      (ofMethod method : KrylovSolver R).maxIterations with
  | error cause =>
    rw [iterations] at refused
    rw [← Except.error.inj refused]
    exact .inl (ParameterList.key_of_read (fun _ => ParameterValue.key_of_asCount) iterations)
  | ok count =>
    rw [iterations] at refused
    cases tolerance : list.read ParameterValue.asDouble toleranceKey
        (ofMethod method : KrylovSolver R).tolerance with
    | error cause =>
      rw [tolerance] at refused
      rw [← Except.error.inj refused]
      exact .inr (ParameterList.key_of_read (fun _ => ParameterValue.key_of_asDouble) tolerance)
    | ok bound =>
      rw [tolerance] at refused
      cases refused

/-- The number of steps before a restart does not change the limits. -/
theorem limited_set (list : ParameterList R) (value : ParameterValue R) (method : KrylovMethod) :
    limited (list.set restartKey value) method = limited list method := by
  have iterations : iterationsKey ≠ restartKey := by decide
  have tolerance : toleranceKey ≠ restartKey := by decide
  simp only [limited, list.read_set_of_ne _ iterations, list.read_set_of_ne _ tolerance]

omit [Scalar R] in
/-- The name of a method without restarts is read from such a list. -/
theorem AvoidsRestarts.exists_name {list : ParameterList R} (avoids : AvoidsRestarts list) :
    ∃ name, list.read ParameterValue.asText methodKey "cg" = .ok name ∧
      (Spells name "cg" ∨ Spells name "bicgstab") := by
  unfold ParameterList.read
  cases found : list.value? methodKey with
  | none => exact ⟨"cg", rfl, .inl (List.forall₂_same.mpr fun _ _ => .inl rfl)⟩
  | some value =>
    obtain ⟨name, rfl, spelt⟩ := avoids value found
    exact ⟨name, rfl, spelt⟩

/-- The outcome for a list whose method does not depend on the number of steps before a
restart: the number is read, and then the limits. -/
theorem ofParameters_eq {list : ParameterList R} {name : String} {method : KrylovMethod}
    (named : list.read ParameterValue.asText methodKey "cg" = .ok name)
    (chosen : ∀ restart, methodOfName name restart = .ok method) :
    ofParameters list =
      (list.read ParameterValue.asCount restartKey defaultRestart).bind fun _ =>
        limited list method := by
  unfold ofParameters
  rw [named]
  cases list.read ParameterValue.asCount restartKey defaultRestart with
  | error error => rfl
  | ok restart =>
    show (methodOfName name restart).bind _ = _
    rw [chosen]
    rfl

/-- A list that asks for a method without restarts is read with a number of steps as it is
read without one exactly if the number is a count. Another value is an error, the same as
for the method that has restarts. There are the same warnings in any case. -/
theorem restart_read_for_every_method {R : Type} [Scalar R] (list : ParameterList R)
    (unset : list.value? restartKey = none) (avoids : AvoidsRestarts list)
    (value : ParameterValue R) :
    (ofParameters (list.set restartKey value) = ofParameters list ↔
      ∃ count : Nat, value = .int count) ∧
    (∀ error, value.asCount restartKey = .error error →
      ofParameters (list.set restartKey value) = .error error) ∧
    warnings (list.set restartKey value) = warnings list := by
  obtain ⟨name, named, spelt⟩ := avoids.exists_name
  obtain ⟨method, chosen⟩ := exists_methodOfName spelt
  have without : ofParameters list = limited list method := by
    have usual :
        list.read ParameterValue.asCount restartKey defaultRestart = .ok defaultRestart := by
      rw [ParameterList.read, unset]
    rw [ofParameters_eq named chosen, usual]
    rfl
  have within : ofParameters (list.set restartKey value) =
      (value.asCount restartKey).bind fun _ => limited list method := by
    have apart : methodKey ≠ restartKey := by decide
    rw [← list.read_set_of_ne _ apart value] at named
    rw [ofParameters_eq named chosen, list.read_set, limited_set]
  refine ⟨?_, ?_, ?_⟩
  · rw [without, within, ← ParameterValue.exists_asCount_eq_ok_iff restartKey]
    cases counted : value.asCount restartKey with
    | ok count => exact iff_of_true rfl ⟨count, rfl⟩
    | error error =>
      have blamed := ParameterValue.key_of_asCount counted
      refine iff_of_false (fun same => ?_) (by rintro ⟨count, made⟩; cases made)
      rcases key_of_limited same.symm with here | here
      · exact absurd (here.symm.trans blamed) (by decide)
      · exact absurd (here.symm.trans blamed) (by decide)
  · intro error refused
    rw [within, refused]
    rfl
  · have listed : keys.contains restartKey = true := by decide
    rw [warnings, warnings, ParameterList.unrecognizedWarnings, ParameterList.unrecognizedWarnings,
      list.unrecognized_set space listed]

/-- A list that spells a method with capitals, and a number of steps before a restart. -/
theorem restart_read_for_every_method_seven :
    let list : ParameterList Rat := .ofList [(methodKey, .text "BiCgStab")]
    list.value? restartKey = none ∧ AvoidsRestarts list ∧
      (ofParameters (list.set restartKey (.int 7)) = ofParameters list ↔
        ∃ count : Nat, (.int 7 : ParameterValue Rat) = .int count) ∧
      (∀ error, (.int 7 : ParameterValue Rat).asCount restartKey = .error error →
        ofParameters (list.set restartKey (.int 7)) = .error error) ∧
      warnings (list.set restartKey (.int 7)) = warnings list := by
  intro list
  have unset : list.value? restartKey = none := by decide +kernel
  have avoids : AvoidsRestarts list := by
    intro value found
    have named : list.value? methodKey = some (.text "BiCgStab") :=
      ParameterList.value?_set .empty methodKey methodKey _
    obtain rfl : .text "BiCgStab" = value := Option.some.inj (named.symm.trans found)
    exact ⟨"BiCgStab", rfl, .inr (by decide +kernel)⟩
  exact ⟨unset, avoids, restart_read_for_every_method list unset avoids (.int 7)⟩

/-- The method that is taken without a list is refused with a number of steps that it does
not need, if that is a text. -/
theorem restart_text_refused :
    ¬ ∀ list : ParameterList Rat, list.value? restartKey = none → AvoidsRestarts list →
      ∀ value, ofParameters (list.set restartKey value) = ofParameters list := by
  intro same
  have nothing : AvoidsRestarts (.empty : ParameterList Rat) := fun _ found => by cases found
  have accepted := congrArg Except.toBool (same .empty rfl nothing (.text "ten"))
  revert accepted
  decide +kernel

end KrylovSolver

end HexSlab
