import Mathlib.Data.List.Basic

/-!
# Reading values one after the other

Values are read in order, and the first that cannot be read ends the reading. So a
reading of a list succeeds exactly if that of each value does, with the readings of the
values, and otherwise it fails as that of the first value that cannot be read.
-/

namespace HexSlab

/-- Reading values one by one succeeds if each can be read. -/
theorem exists_mapM_eq_ok {ε α β : Type} {read : α → Except ε β} {values : List α}
    (each : ∀ value ∈ values, ∃ result, read value = .ok result) :
    ∃ results, values.mapM read = .ok results := by
  induction values with
  | nil => exact ⟨[], rfl⟩
  | cons value rest ih =>
    rw [List.forall_mem_cons] at each
    obtain ⟨result, here⟩ := each.1
    obtain ⟨results, later⟩ := ih each.2
    refine ⟨result :: results, ?_⟩
    rw [List.mapM_cons, here, later]
    rfl

/-- Reading values one by one stops at the first that cannot be read. -/
theorem mapM_eq_error {ε α β : Type} {read : α → Except ε β} {before after : List α} {value : α}
    {error : ε} (each : ∀ earlier ∈ before, ∃ result, read earlier = .ok result)
    (wrong : read value = .error error) :
    (before ++ value :: after).mapM read = .error error := by
  obtain ⟨results, first⟩ := exists_mapM_eq_ok each
  rw [List.mapM_append, first, List.mapM_cons, wrong]
  rfl

/-- Either all values satisfy a condition, or one of them is the first that does not. -/
theorem forall_or_exists_first {α : Type} (condition : α → Prop) (values : List α) :
    (∀ value ∈ values, condition value) ∨
      ∃ before value after, values = before ++ value :: after ∧
        (∀ earlier ∈ before, condition earlier) ∧ ¬condition value := by
  induction values with
  | nil => exact .inl (List.forall_mem_nil _)
  | cons first rest ih =>
    by_cases here : condition first
    · obtain all | ⟨before, value, after, place, passed, failed⟩ := ih
      · exact .inl (List.forall_mem_cons.mpr ⟨here, all⟩)
      · refine .inr ⟨first :: before, value, after, ?_, ?_, failed⟩
        · rw [place, List.cons_append]
        · exact List.forall_mem_cons.mpr ⟨here, passed⟩
    · exact .inr ⟨[], first, rest, rfl, List.forall_mem_nil _, here⟩

/-- Values that all have readings are read as these. -/
theorem mapM_eq_ok_of_map {ε α β : Type} {reading : α → Option β} {read : α → Except ε β}
    (agree : ∀ value result, reading value = some result → read value = .ok result)
    {values : List α} {results : List β}
    (readings : values.map reading = results.map some) : values.mapM read = .ok results := by
  induction values generalizing results with
  | nil =>
    obtain rfl := List.map_eq_nil_iff.mp readings.symm
    rfl
  | cons value rest ih =>
    cases results with
    | nil => cases readings
    | cons result more =>
      rw [List.map_cons, List.map_cons, List.cons.injEq] at readings
      rw [List.mapM_cons, agree value result readings.1, ih readings.2]
      rfl

/-- The readings of values that all have one. -/
theorem map_eq_map_filterMap {α β : Type} {reading : α → Option β} {values : List α}
    (each : ∀ value ∈ values, ∃ result, reading value = some result) :
    values.map reading = (values.filterMap reading).map some := by
  induction values with
  | nil => rfl
  | cons value rest ih =>
    rw [List.forall_mem_cons] at each
    obtain ⟨result, here⟩ := each.1
    rw [List.map_cons, List.filterMap_cons, here, ih each.2]
    rfl

/-- Readings of all parts are given exactly if each part has its reading. -/
theorem mapM_eq_some_iff {α β : Type} {read : α → Option β} {parts : List α}
    {results : List β} :
    parts.mapM read = some results ↔ parts.map read = results.map some := by
  induction parts generalizing results with
  | nil => cases results <;> simp
  | cons part rest ih =>
    rw [List.mapM_cons, List.map_cons]
    cases results <;> simp [Option.bind_eq_some_iff, ih]

end HexSlab
