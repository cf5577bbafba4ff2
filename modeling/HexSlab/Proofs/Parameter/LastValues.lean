import HexSlab.Parameter.List
import Mathlib.Data.Finset.Card
import Mathlib.Data.List.Forall2

/-!
# A parameter list is the sorted map of the last values

Whatever parameters are set, in whatever order and however often, the list holds each of
them once, with the value it was given last, in the order of the keys. So two sequences of
settings lead to the same list exactly if they set the same keys to the same last values.
-/

namespace HexSlab

section Settings

variable {V : Type}

/-- A value is the last one given to a key: no later setting is of that key. -/
def IsLastValue (settings : List (String × V)) (key : String) (value : V) : Prop :=
  ∃ before after, settings = before ++ (key, value) :: after ∧ ∀ later ∈ after, later.1 ≠ key

/-- Two sequences of settings are of the same keys, and a comparison finds the last values
of each key the same. -/
def SameLastValues (same : V → V → Prop) (first second : List (String × V)) : Prop :=
  (∀ key, key ∈ first.map (·.1) ↔ key ∈ second.map (·.1)) ∧
    ∀ key a b, IsLastValue first key a → IsLastValue second key b → same a b

/-- Without settings no value is the last one. -/
theorem not_isLastValue_nil (key : String) (value : V) : ¬ IsLastValue [] key value := by
  rintro ⟨before, after, split, -⟩
  exact List.cons_ne_nil _ _ (List.append_eq_nil_iff.mp split.symm).2

/-- One more setting gives its key a last value and leaves those of the other keys. -/
theorem isLastValue_concat_iff (settings : List (String × V)) (setting : String × V)
    (key : String) (value : V) :
    IsLastValue (settings ++ [setting]) key value ↔
      if key = setting.1 then setting.2 = value else IsLastValue settings key value := by
  constructor
  · rintro ⟨before, after, split, apart⟩
    -- the last setting of the key is the new one if nothing comes after it
    rcases List.eq_nil_or_concat' after with rfl | ⟨rest, final, rfl⟩
    · obtain ⟨-, here⟩ := List.append_inj' split rfl
      rw [List.singleton_inj.mp here, if_pos rfl]
    · rw [← List.cons_append, ← List.append_assoc] at split
      obtain ⟨earlier, here⟩ := List.append_inj' split rfl
      have other : final.1 ≠ key := apart final (List.mem_append_right _ List.mem_cons_self)
      rw [List.singleton_inj.mp here, if_neg other.symm]
      exact ⟨before, rest, earlier, fun later mem => apart later (List.mem_append_left _ mem)⟩
  · intro last
    split at last
    · rename_i here
      exact ⟨settings, [], by rw [here, ← last], fun _ later => absurd later List.not_mem_nil⟩
    · rename_i other
      obtain ⟨before, after, rfl, apart⟩ := last
      refine ⟨before, after ++ [setting], by rw [List.append_assoc, List.cons_append], ?_⟩
      intro later mem
      rcases List.mem_append.mp mem with mem | mem
      · exact apart later mem
      · rw [List.mem_singleton.mp mem]
        exact Ne.symm other

/-- Exactly the keys that are set have a last value. -/
theorem exists_isLastValue_iff (settings : List (String × V)) (key : String) :
    (∃ value, IsLastValue settings key value) ↔ key ∈ settings.map (·.1) := by
  induction settings using List.reverseRecOn with
  | nil => exact iff_of_false (fun ⟨_, last⟩ => not_isLastValue_nil _ _ last) List.not_mem_nil
  | append_singleton earlier setting ih =>
    simp only [isLastValue_concat_iff, List.map_append, List.map_singleton, List.mem_append,
      List.mem_singleton]
    by_cases here : key = setting.1
    · simp only [if_pos here]
      exact iff_of_true ⟨setting.2, rfl⟩ (.inr here)
    · simp only [if_neg here, ih, or_iff_left here]

end Settings

section Keys

variable {V : Type}

/-- A key that comes before another is a different one. -/
theorem KeyBefore.ne {first second : String} (h : KeyBefore first second) : first ≠ second := by
  rintro rfl
  exact KeyBefore.irrefl first h

/-- No key is listed twice. -/
theorem KeysAscending.nodup {entries : List (String × V)} (h : KeysAscending entries) :
    (entries.map (·.1)).Nodup :=
  List.pairwise_map.mpr (h.imp KeyBefore.ne)

/-- The value of a key is the one it is listed with. -/
theorem KeysAscending.lookup_eq_some_iff {entries : List (String × V)}
    (h : KeysAscending entries) (key : String) (value : V) :
    entries.lookup key = some value ↔ (key, value) ∈ entries := by
  rw [List.lookup_eq_some_iff]
  constructor
  · rintro ⟨before, after, rfl, -⟩
    exact List.mem_append_right _ List.mem_cons_self
  · intro listed
    obtain ⟨before, after, rfl⟩ := List.append_of_mem listed
    refine ⟨before, after, rfl, fun earlier here => bne_iff_ne.mpr ?_⟩
    have ahead : KeyBefore earlier.1 key :=
      (List.pairwise_append.mp h).2.2 earlier here (key, value) List.mem_cons_self
    exact ahead.ne.symm

/-- Lists with the same keys have them in the same places. -/
theorem KeysAscending.keys_eq {first second : List (String × V)} (h : KeysAscending first)
    (k : KeysAscending second)
    (keys : ∀ key, key ∈ first.map (·.1) ↔ key ∈ second.map (·.1)) :
    first.map (·.1) = second.map (·.1) := by
  have rearranged : (first.map (·.1)).Perm (second.map (·.1)) :=
    (List.perm_ext_iff_of_nodup h.nodup k.nodup).mpr keys
  -- of two rearrangements of the same keys only one ascends
  exact rearranged.eq_of_pairwise
    (fun a _ _ _ before after => absurd rfl (before.trans after).ne)
    (List.pairwise_map.mpr h) (List.pairwise_map.mpr k)

/-- Lists that agree place by place have values for the same keys, and they agree. -/
theorem rel_lookup_of_forall₂ {same : V → V → Prop} {first second : List (String × V)}
    (agree : List.Forall₂ (fun a b => a.1 = b.1 ∧ same a.2 b.2) first second) (key : String) :
    Option.Rel same (first.lookup key) (second.lookup key) := by
  induction agree with
  | nil => exact .none
  | cons heads _ ih =>
    rw [lookup_cons_eq_ite, lookup_cons_eq_ite, heads.1]
    split
    · exact .some heads.2
    · exact ih

/-- Lists agree place by place exactly if they have the same keys, with values that agree. -/
theorem KeysAscending.forall₂_iff {first second : List (String × V)} (h : KeysAscending first)
    (k : KeysAscending second) (same : V → V → Prop) :
    List.Forall₂ (fun a b => a.1 = b.1 ∧ same a.2 b.2) first second ↔
      (∀ key, key ∈ first.map (·.1) ↔ key ∈ second.map (·.1)) ∧
        ∀ key a b, (key, a) ∈ first → (key, b) ∈ second → same a b := by
  have keys_iff : List.Forall₂ (fun a b => a.1 = b.1) first second ↔
      first.map (·.1) = second.map (·.1) := by
    rw [← List.forall₂_eq_eq_eq, List.forall₂_map_left_iff, List.forall₂_map_right_iff]
  constructor
  · intro agree
    have keys := keys_iff.mp (agree.imp fun _ _ both => both.1)
    refine ⟨fun key => by rw [keys], fun key a b left right => ?_⟩
    -- the pairs may stand anywhere, so they are found by their key
    have values := rel_lookup_of_forall₂ agree key
    rw [(h.lookup_eq_some_iff key a).mpr left, (k.lookup_eq_some_iff key b).mpr right] at values
    cases values with
    | some values => exact values
  · rintro ⟨keys, values⟩
    have paired := keys_iff.mpr (h.keys_eq k keys)
    refine List.forall₂_iff_zip.mpr ⟨paired.length_eq, fun {a b} pair => ?_⟩
    have here : a.1 = b.1 := (List.forall₂_iff_zip.mp paired).2 pair
    obtain ⟨left, right⟩ := List.of_mem_zip pair
    exact ⟨here, values b.1 a.2 b.2 (here ▸ left) right⟩

end Keys

namespace ParameterList

variable {R : Type}

/-- Two lists are the same up to a comparison of values: they list the same keys, with
values that the comparison finds the same. A comparison of real numbers need not find a
number the same as itself. -/
def SameBy (same : ParameterValue R → ParameterValue R → Prop) (first second : ParameterList R) :
    Prop :=
  List.Forall₂ (fun a b => a.1 = b.1 ∧ same a.2 b.2) first.entries second.entries

/-- Lists with the same values are the same list. -/
theorem sameBy_eq_iff (first second : ParameterList R) :
    SameBy Eq first second ↔ first = second := by
  have pairs : (fun a b : String × ParameterValue R => a.1 = b.1 ∧ a.2 = b.2) = Eq := by
    funext a b
    exact propext Prod.ext_iff.symm
  rw [SameBy, pairs, List.forall₂_eq_eq_eq]
  constructor
  · intro entries
    cases first
    cases second
    cases entries
    rfl
  · rintro rfl
    rfl

/-- One more setting is one more value set. -/
theorem ofList_concat (settings : List (String × ParameterValue R))
    (setting : String × ParameterValue R) :
    ofList (settings ++ [setting]) = (ofList settings).set setting.1 setting.2 := by
  rw [ofList, List.foldl_concat, ofList]

/-- The value of a parameter is the last one it was given. -/
theorem value?_ofList_eq_some_iff (settings : List (String × ParameterValue R)) (key : String)
    (value : ParameterValue R) :
    (ofList settings).value? key = some value ↔ IsLastValue settings key value := by
  induction settings using List.reverseRecOn with
  | nil => exact iff_of_false (fun set => by cases set) (not_isLastValue_nil key value)
  | append_singleton earlier setting ih =>
    rw [ofList_concat, value?_set, isLastValue_concat_iff]
    split
    · exact Option.some_inj
    · exact ih

/-- The pairs of a list are the parameters that were set, with their last values. -/
theorem mem_entries_ofList_iff (settings : List (String × ParameterValue R)) (key : String)
    (value : ParameterValue R) :
    (key, value) ∈ (ofList settings).entries ↔ IsLastValue settings key value := by
  rw [← value?_ofList_eq_some_iff, value?, (ofList settings).ascending.lookup_eq_some_iff]

/-- The keys of a list are those that were set. -/
theorem mem_keys_ofList_iff (settings : List (String × ParameterValue R)) (key : String) :
    key ∈ (ofList settings).entries.map (·.1) ↔ key ∈ settings.map (·.1) := by
  rw [← exists_isLastValue_iff settings key, List.mem_map]
  constructor
  · rintro ⟨entry, listed, rfl⟩
    exact ⟨entry.2, (mem_entries_ofList_iff settings _ _).mp listed⟩
  · rintro ⟨value, last⟩
    exact ⟨(key, value), (mem_entries_ofList_iff settings key value).mpr last, rfl⟩

/-- Exactly the parameters that were never set have no value. -/
theorem value?_ofList_eq_none_iff (settings : List (String × ParameterValue R)) (key : String) :
    (ofList settings).value? key = none ↔ key ∉ settings.map (·.1) := by
  rw [← exists_isLastValue_iff settings key, Option.eq_none_iff_forall_ne_some, not_exists]
  exact forall_congr' fun value => not_congr (value?_ofList_eq_some_iff settings key value)

/-- There are as many parameters as different keys were set. -/
theorem size_ofList (settings : List (String × ParameterValue R)) :
    (ofList settings).size = (settings.map (·.1)).toFinset.card := by
  have keys : ((ofList settings).entries.map (·.1)).toFinset = (settings.map (·.1)).toFinset := by
    ext key
    rw [List.mem_toFinset, List.mem_toFinset, mem_keys_ofList_iff]
  rw [← keys, List.toFinset_card_of_nodup (ofList settings).ascending.nodup, List.length_map, size]

/-- The unrecognized keys are those in the name space that are not known. -/
theorem mem_unrecognized_iff (params : ParameterList R) (space : String) (known : List String)
    (key : String) :
    key ∈ params.unrecognized space known ↔
      key ∈ params.entries.map (·.1) ∧ (∃ rest, key = space ++ rest) ∧ key ∉ known := by
  have starts : space.toList <+: key.toList ↔ ∃ rest, key = space ++ rest := by
    constructor
    · rintro ⟨rest, split⟩
      refine ⟨String.ofList rest, String.toList_inj.mp ?_⟩
      rw [String.toList_append, String.toList_ofList, split]
    · rintro ⟨rest, rfl⟩
      exact ⟨rest.toList, String.toList_append.symm⟩
  rw [unrecognized, List.mem_filter, Bool.and_eq_true, List.isPrefixOf_iff_prefix, starts,
    Bool.not_eq_true', ← Bool.not_eq_true, List.contains_iff_mem]

/-- The unrecognized keys come in the order of the list. -/
theorem pairwise_unrecognized (params : ParameterList R) (space : String) (known : List String) :
    (params.unrecognized space known).Pairwise KeyBefore :=
  List.Pairwise.filter _ (List.pairwise_map.mpr params.ascending)

/-- A list is the sorted map of the last values of some settings. -/
structure IsSortedMapOf (list : ParameterList R) (settings : List (String × ParameterValue R)) :
    Prop where
  /-- The value of a key is the one it was given last. -/
  value : ∀ key value, list.value? key = some value ↔ IsLastValue settings key value
  /-- Exactly the keys that were never set have no value. -/
  unset : ∀ key, list.value? key = none ↔ key ∉ settings.map (·.1)
  /-- The pairs listed are the keys that were set, with the values they were given last. -/
  listed : ∀ key value, (key, value) ∈ list.entries ↔ IsLastValue settings key value
  /-- Every key that was set is listed once, and no other key is. -/
  once : ∀ key, (list.entries.map (·.1)).count key = if key ∈ settings.map (·.1) then 1 else 0
  /-- The keys are listed in strictly ascending order of their bytes. -/
  ascending : (list.entries.map fun entry => keyBytes entry.1).Pairwise (· < ·)
  /-- The size is the number of different keys that were set. -/
  size : list.size = (settings.map (·.1)).toFinset.card
  /-- The unrecognized keys are those set in the name space that are not known. -/
  unrecognized : ∀ space known key, key ∈ list.unrecognized space known ↔
    key ∈ settings.map (·.1) ∧ (∃ rest, key = space ++ rest) ∧ key ∉ known
  /-- They come in the same order. -/
  unrecognizedAscending : ∀ space known,
    ((list.unrecognized space known).map keyBytes).Pairwise (· < ·)

/-- The list that a sequence of settings leads to is the sorted map of the last values. -/
theorem isSortedMapOf_ofList (settings : List (String × ParameterValue R)) :
    (ofList settings).IsSortedMapOf settings where
  value := value?_ofList_eq_some_iff settings
  unset := value?_ofList_eq_none_iff settings
  listed := mem_entries_ofList_iff settings
  once key := by
    rw [(ofList settings).ascending.nodup.count]
    simp only [mem_keys_ofList_iff]
  ascending := List.pairwise_map.mpr (ofList settings).ascending
  size := size_ofList settings
  unrecognized space known key := by rw [mem_unrecognized_iff, mem_keys_ofList_iff]
  unrecognizedAscending space known := List.pairwise_map.mpr (pairwise_unrecognized _ space known)

/-- The lists of two sequences of settings compare as the last values do. -/
theorem sameBy_ofList_iff (first second : List (String × ParameterValue R))
    (same : ParameterValue R → ParameterValue R → Prop) :
    SameBy same (ofList first) (ofList second) ↔ SameLastValues same first second := by
  rw [SameBy, (ofList first).ascending.forall₂_iff (ofList second).ascending, SameLastValues]
  simp only [mem_keys_ofList_iff, mem_entries_ofList_iff]

/-- A sequence of settings leads to the sorted map of the last values. Two sequences lead to
the same list exactly if they set the same keys to the same last values, whatever their order
and repetitions, and the lists compare as the last values do in any other comparison. -/
theorem settings_lead_to_sorted_map {R : Type} (settings : List (String × ParameterValue R)) :
    (ofList settings).IsSortedMapOf settings ∧
      ∀ others : List (String × ParameterValue R),
        (ofList settings = ofList others ↔ SameLastValues Eq settings others) ∧
          ∀ same, SameBy same (ofList settings) (ofList others) ↔
            SameLastValues same settings others := by
  refine ⟨isSortedMapOf_ofList settings, fun others => ⟨?_, fun same => ?_⟩⟩
  · rw [← sameBy_eq_iff, sameBy_ofList_iff]
  · exact sameBy_ofList_iff settings others same

/-- A key comes before the keys it begins, and letters beyond one byte come last. -/
example :
    let list : ParameterList Rat :=
      .ofList [("é", .int 1), ("z: a", .int 2), ("z", .bool true), ("é", .int 3)]
    list.entries.map (·.1) = ["z", "z: a", "é"] ∧ list.unrecognized "z" ["z"] = ["z: a"] := by
  decide +kernel

end ParameterList

end HexSlab
