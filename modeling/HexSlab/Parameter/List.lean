import HexSlab.Journal
import HexSlab.Parameter.Value

/-!
# Parameter lists

A parameter list is a finite map from keys to values, kept as pairs in strictly
ascending order of the keys. Keys are compared by their bytes in UTF-8. The
order is part of the type, so two lists with the same last values are equal
however they were set.
-/

namespace HexSlab

/-- The bytes of a key. -/
def keyBytes (key : String) : List UInt8 := key.toUTF8.data.toList

/-- One key comes before another. -/
def KeyBefore (first second : String) : Prop := keyBytes first < keyBytes second

instance (first second : String) : Decidable (KeyBefore first second) :=
  inferInstanceAs (Decidable (keyBytes first < keyBytes second))

/-- Keys with the same bytes are the same. -/
theorem keyBytes_inj {first second : String} (h : keyBytes first = keyBytes second) :
    first = second := by
  apply String.toByteArray_inj.mp
  apply ByteArray.ext
  exact Array.toList_inj.mp h

/-- The order of keys is transitive. -/
theorem KeyBefore.trans {first second third : String} (h : KeyBefore first second)
    (k : KeyBefore second third) : KeyBefore first third :=
  List.lt_trans h k

/-- No key comes before itself. -/
theorem KeyBefore.irrefl (key : String) : ¬ KeyBefore key key :=
  List.lt_irrefl (keyBytes key)

/-- Of two different keys one comes first. -/
theorem KeyBefore.of_not {first second : String} (h : ¬ KeyBefore first second)
    (ne : first ≠ second) : KeyBefore second first := by
  rcases List.le_iff_lt_or_eq.mp (List.not_lt.mp h) with k | k
  · exact k
  · exact absurd (keyBytes_inj k).symm ne

/-- Pairs in strictly ascending order of their keys. -/
def KeysAscending {V : Type} (entries : List (String × V)) : Prop :=
  entries.Pairwise fun a b => KeyBefore a.1 b.1

/-- Put a pair into its place, in favour of the new value of a key already there. -/
def putEntry {V : Type} (key : String) (value : V) : List (String × V) → List (String × V)
  | [] => [(key, value)]
  | entry :: rest =>
    if key = entry.1 then (key, value) :: rest
    else if KeyBefore key entry.1 then (key, value) :: entry :: rest
    else entry :: putEntry key value rest

/-- A pair put into a list is the new one or an old one. -/
theorem mem_putEntry {V : Type} {key : String} {value : V} {entry : String × V}
    {entries : List (String × V)} (h : entry ∈ putEntry key value entries) :
    entry = (key, value) ∨ entry ∈ entries := by
  induction entries with
  | nil => simpa [putEntry] using h
  | cons head rest ih =>
    unfold putEntry at h
    split at h
    · rcases List.mem_cons.mp h with h | h
      · exact .inl h
      · exact .inr (List.mem_cons_of_mem _ h)
    · split at h
      · rcases List.mem_cons.mp h with h | h
        · exact .inl h
        · exact .inr h
      · rcases List.mem_cons.mp h with h | h
        · exact .inr (h ▸ List.mem_cons_self)
        · exact (ih h).imp_right (List.mem_cons_of_mem _)

/-- Putting a pair into its place keeps the order. -/
theorem KeysAscending.putEntry {V : Type} {entries : List (String × V)}
    (h : KeysAscending entries) (key : String) (value : V) :
    KeysAscending (putEntry key value entries) := by
  induction entries with
  | nil => exact List.pairwise_singleton _ _
  | cons head rest ih =>
    have hhead := (List.pairwise_cons.mp h).1
    have hrest := (List.pairwise_cons.mp h).2
    unfold HexSlab.putEntry
    split
    · rename_i same
      exact List.pairwise_cons.mpr ⟨fun entry mem => same ▸ hhead entry mem, hrest⟩
    · split
      · rename_i before
        refine List.pairwise_cons.mpr ⟨fun entry mem => ?_, h⟩
        rcases List.mem_cons.mp mem with rfl | mem
        · exact before
        · exact before.trans (hhead entry mem)
      · rename_i ne notBefore
        refine List.pairwise_cons.mpr ⟨fun entry mem => ?_, ih hrest⟩
        rcases mem_putEntry mem with rfl | mem
        · exact KeyBefore.of_not notBefore ne
        · exact hhead entry mem

/-- The value of a key behind a first pair. -/
theorem lookup_cons_eq_ite {V : Type} (key : String) (entry : String × V)
    (rest : List (String × V)) :
    (entry :: rest).lookup key = if key = entry.1 then some entry.2 else rest.lookup key := by
  rw [List.lookup_cons]
  by_cases same : key = entry.1
  · rw [if_pos same, beq_iff_eq.mpr same]
  · rw [if_neg same, beq_false_of_ne same]

/-- The value of a key after a pair was put into its place. -/
theorem lookup_putEntry {V : Type} (key other : String) (value : V)
    (entries : List (String × V)) :
    (putEntry key value entries).lookup other =
      if other = key then some value else entries.lookup other := by
  induction entries with
  | nil => exact lookup_cons_eq_ite other (key, value) []
  | cons head rest ih =>
    unfold putEntry
    rw [lookup_cons_eq_ite other head rest]
    split
    · rename_i here
      rw [lookup_cons_eq_ite, ← here]
      split <;> rfl
    · split
      · rw [lookup_cons_eq_ite, lookup_cons_eq_ite]
      · rename_i apart _
        rw [lookup_cons_eq_ite, ih]
        by_cases first : other = head.1
        · rw [if_pos first, if_pos first, if_neg fun same => apart (same.symm.trans first)]
        · rw [if_neg first, if_neg first]

/-- A key that is dropped does not count where it is put into its place. -/
theorem filter_putEntry {V : Type} {keep : String → Bool} {key : String}
    (dropped : keep key = false) (value : V) (entries : List (String × V)) :
    ((putEntry key value entries).map (·.1)).filter keep = (entries.map (·.1)).filter keep := by
  have without (rest : List String) : (key :: rest).filter keep = rest.filter keep :=
    List.filter_cons_of_neg (Bool.eq_false_iff.mp dropped)
  induction entries with
  | nil => exact without []
  | cons head rest ih =>
    unfold putEntry
    split
    · rename_i here
      rw [List.map_cons, List.map_cons, without, ← here, without]
    · split
      · exact without _
      · rw [List.map_cons, List.map_cons, List.filter_cons, List.filter_cons, ih]

/-- A finite map from keys to parameter values. -/
structure ParameterList (R : Type) where
  /-- The pairs of the map. -/
  entries : List (String × ParameterValue R)
  /-- The keys ascend strictly. -/
  ascending : KeysAscending entries

namespace ParameterList

variable {R : Type}

/-- The list without parameters. -/
def empty : ParameterList R := ⟨[], List.Pairwise.nil⟩

/-- Set a parameter, in place of any value it had. -/
def set (params : ParameterList R) (key : String) (value : ParameterValue R) :
    ParameterList R :=
  ⟨putEntry key value params.entries, params.ascending.putEntry key value⟩

/-- The list that a sequence of settings leads to. -/
def ofList (settings : List (String × ParameterValue R)) : ParameterList R :=
  settings.foldl (fun params setting => params.set setting.1 setting.2) empty

/-- The value of a parameter, if it is set. -/
def value? (params : ParameterList R) (key : String) : Option (ParameterValue R) :=
  params.entries.lookup key

/-- The parameter is set. -/
def contains (params : ParameterList R) (key : String) : Bool := (params.value? key).isSome

/-- The number of parameters set. -/
def size (params : ParameterList R) : Nat := params.entries.length

/-- Read a parameter as one kind of value, with a default for one not set. -/
def read {T : Type} (params : ParameterList R)
    (convert : String → ParameterValue R → Except ParameterError T) (key : String)
    (default : T) : Except ParameterError T :=
  match params.value? key with
  | some value => convert key value
  | none => .ok default

/-- The value of a parameter after another one, or the same one, was set. -/
theorem value?_set (params : ParameterList R) (key other : String) (value : ParameterValue R) :
    (params.set key value).value? other = if other = key then some value else params.value? other :=
  lookup_putEntry key other value params.entries

/-- A parameter that was set is read. -/
theorem read_set {T : Type} (params : ParameterList R)
    (convert : String → ParameterValue R → Except ParameterError T) (key : String)
    (value : ParameterValue R) (default : T) :
    (params.set key value).read convert key default = convert key value := by
  rw [read, value?_set, if_pos rfl]

/-- Every other parameter is read as before. -/
theorem read_set_of_ne {T : Type} (params : ParameterList R)
    (convert : String → ParameterValue R → Except ParameterError T) {key other : String}
    (apart : other ≠ key) (value : ParameterValue R) (default : T) :
    (params.set key value).read convert other default = params.read convert other default := by
  rw [read, read, value?_set, if_neg apart]

/-- The keys in a name space that are not among the known ones, in order. -/
def unrecognized (params : ParameterList R) (space : String) (known : List String) :
    List String :=
  (params.entries.map (·.1)).filter fun key =>
    space.toList.isPrefixOf key.toList && !known.contains key

/-- Setting a known parameter leaves the unrecognized keys as they are. -/
theorem unrecognized_set (params : ParameterList R) (space : String) {known : List String}
    {key : String} (listed : known.contains key = true) (value : ParameterValue R) :
    (params.set key value).unrecognized space known = params.unrecognized space known := by
  refine filter_putEntry ?_ value params.entries
  rw [listed, Bool.not_true, Bool.and_false]

/-- A warning for each unrecognized key of a name space. -/
def unrecognizedWarnings (params : ParameterList R) (space : String) (known : List String) :
    Journal :=
  (params.unrecognized space known).map fun key =>
    ⟨.warning, "Ignoring unrecognized parameter '" ++ key ++ "'"⟩

/-- The list as text, one parameter to a line. -/
def describe (params : ParameterList Float) : String :=
  String.join (params.entries.map fun entry => entry.1 ++ " = " ++ entry.2.describe ++ "\n")

end ParameterList

end HexSlab
