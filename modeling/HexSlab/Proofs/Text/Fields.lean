import HexSlab.Text.Split
import Mathlib.Data.List.DropRight
import Mathlib.Data.List.Infix

/-!
# Texts that list values

A text lists values when each of them stands between separators with blank margins,
and between the other separators there are only blanks. There are many such texts for
the same values: margins are free, and so is the number of empty parts. Reading is a
function, and the fields of a text are the values that it lists.
-/

namespace HexSlab.Text

/-- The text has blank characters only. -/
def Blank (text : List Char) : Prop := ∀ c ∈ text, isBlank c = true

instance (text : List Char) : Decidable (Blank text) :=
  decidable_of_iff (text.all isBlank = true) List.all_eq_true

/-- The text has characters, and no blank margins. -/
structure Bare (text : List Char) : Prop where
  /-- There is a character. -/
  ne_nil : text ≠ []
  /-- The first character is not blank. -/
  head_bare : isBlank (text.head ne_nil) = false
  /-- The last character is not blank. -/
  last_bare : isBlank (text.getLast ne_nil) = false

/-- A text without blanks has no blank margins. -/
theorem Bare.of_forall {text : List Char} (ne_nil : text ≠ [])
    (filled : ∀ c ∈ text, isBlank c = false) : Bare text where
  ne_nil := ne_nil
  head_bare := filled _ (List.head_mem ne_nil)
  last_bare := filled _ (List.getLast_mem ne_nil)

/-- Trimming drops blanks on the left and then on the right. -/
theorem trim_eq_rdropWhile (text : List Char) :
    trim text = (text.dropWhile isBlank).rdropWhile isBlank :=
  rfl

/-- Nothing remains of a blank text. -/
theorem trim_of_blank {text : List Char} (blank : Blank text) : trim text = [] := by
  rw [trim_eq_rdropWhile, List.dropWhile_eq_nil_iff.mpr blank, List.rdropWhile_nil]

/-- A text has a blank margin on either side of what trimming leaves. -/
theorem exists_margins (text : List Char) :
    ∃ before after, Blank before ∧ Blank after ∧ text = before ++ trim text ++ after := by
  refine ⟨text.takeWhile isBlank, (text.dropWhile isBlank).rtakeWhile isBlank,
    fun c listed => List.mem_takeWhile_imp listed,
    fun c listed => List.mem_rtakeWhile_imp listed, ?_⟩
  rw [trim_eq_rdropWhile, List.append_assoc, List.rdropWhile_append_rtakeWhile,
    List.takeWhile_append_dropWhile]

/-- What trimming leaves, if anything, has no blank margins. -/
theorem bare_trim {text : List Char} (some : trim text ≠ []) : Bare (trim text) := by
  rw [trim_eq_rdropWhile] at some ⊢
  have first := List.rdropWhile_prefix isBlank (text.dropWhile isBlank)
  refine ⟨some, ?_, ?_⟩
  · rw [first.head some]
    exact List.head_dropWhile_not isBlank _
  · exact Bool.eq_false_iff.mpr (List.rdropWhile_last_not isBlank _ some)

/-- Trimming drops a blank margin on either side. -/
theorem trim_of_margins {before value after : List Char} (left : Blank before)
    (right : Blank after) (bare : Bare value) : trim (before ++ value ++ after) = value := by
  have some : value ++ after ≠ [] := List.append_ne_nil_of_left_ne_nil bare.ne_nil after
  have front : (before ++ value ++ after).dropWhile isBlank = value ++ after := by
    rw [List.append_assoc, List.dropWhile_append_of_pos left, List.dropWhile_eq_self_iff]
    intro _
    rw [← List.head_eq_getElem some, List.head_append_of_ne_nil bare.ne_nil, bare.head_bare]
    exact Bool.false_ne_true
  have back : (value ++ after).rdropWhile isBlank = value := by
    rw [List.rdropWhile, List.reverse_append,
      List.dropWhile_append_of_pos fun c listed => right c (List.mem_reverse.mp listed),
      ← List.rdropWhile, List.rdropWhile_eq_self_iff]
    intro _
    rw [bare.last_bare]
    exact Bool.false_ne_true
  rw [trim_eq_rdropWhile, front, back]

variable {isSeparator : Char → Bool}

/-- A separator in front begins a new part. -/
theorem split_cons_of_mark {c : Char} (mark : isSeparator c = true) (rest : List Char) :
    split isSeparator (c :: rest) = [] :: split isSeparator rest := by
  rw [split, if_pos mark]

/-- Any other character in front belongs to the first part. -/
theorem split_cons_of_not_mark {c : Char} (other : isSeparator c = false) {rest part : List Char}
    {parts : List (List Char)} (later : split isSeparator rest = part :: parts) :
    split isSeparator (c :: rest) = (c :: part) :: parts := by
  rw [split, if_neg (Bool.eq_false_iff.mp other), later]

/-- A text without separators is its only part. -/
theorem split_of_free {text : List Char} (free : ∀ c ∈ text, isSeparator c = false) :
    split isSeparator text = [text] := by
  induction text with
  | nil => rfl
  | cons c rest ih =>
    rw [List.forall_mem_cons] at free
    exact split_cons_of_not_mark free.1 (ih free.2)

/-- The parts of a text are those before a separator and those after it. -/
theorem split_append_cons {mark : Char} (separates : isSeparator mark = true)
    (text rest : List Char) :
    split isSeparator (text ++ mark :: rest) =
      split isSeparator text ++ split isSeparator rest := by
  induction text with
  | nil => exact split_cons_of_mark separates rest
  | cons c later ih =>
    rw [List.cons_append]
    cases kind : isSeparator c with
    | true => rw [split_cons_of_mark kind, split_cons_of_mark kind, ih, List.cons_append]
    | false =>
      obtain ⟨part, parts, whole⟩ := List.exists_cons_of_ne_nil (split_ne_nil isSeparator later)
      rw [whole, List.cons_append] at ih
      rw [split_cons_of_not_mark kind whole, split_cons_of_not_mark kind ih, List.cons_append]

/-- The fields of a text are those before a separator and those after it. -/
theorem fields_append_cons {mark : Char} (separates : isSeparator mark = true)
    (text rest : List Char) :
    fields isSeparator (text ++ mark :: rest) =
      fields isSeparator text ++ fields isSeparator rest := by
  unfold fields
  rw [split_append_cons separates, List.map_append, List.filter_append]

/-- A text without separators has at most one field. -/
theorem fields_of_free {text : List Char} (free : ∀ c ∈ text, isSeparator c = false) :
    fields isSeparator text = if trim text = [] then [] else [trim text] := by
  unfold fields
  rw [split_of_free free, List.map_singleton]
  cases trim text <;> rfl

/-- The values that a text lists: they have no blank margins and no separators, and
stand between separators with any blank margins. -/
inductive Lists (isSeparator : Char → Bool) : List Char → List (List Char) → Prop where
  /-- Blanks list no value. -/
  | blank {text : List Char} (blank : Blank text) : Lists isSeparator text []
  /-- A value between margins. -/
  | value {before value after : List Char} (left : Blank before) (right : Blank after)
    (bare : Bare value) (free : ∀ c ∈ value, isSeparator c = false) :
    Lists isSeparator (before ++ value ++ after) [value]
  /-- Values before a separator and after it. -/
  | append {mark : Char} (separates : isSeparator mark = true) {text rest : List Char}
    {values others : List (List Char)} (first : Lists isSeparator text values)
    (second : Lists isSeparator rest others) :
    Lists isSeparator (text ++ mark :: rest) (values ++ others)

/-- No separator is a blank character. -/
def Marks (isSeparator : Char → Bool) : Prop :=
  ∀ c, isBlank c = true → isSeparator c = false

/-- The fields of a text are the values that it lists. -/
theorem Lists.fields_eq (marks : Marks isSeparator) {text : List Char}
    {values : List (List Char)} (lists : Lists isSeparator text values) :
    fields isSeparator text = values := by
  induction lists with
  | blank blank =>
    rw [fields_of_free fun c listed => marks c (blank c listed), if_pos (trim_of_blank blank)]
  | @value before value after left right bare free =>
    have all : ∀ c ∈ before ++ value ++ after, isSeparator c = false := by
      intro c listed
      rw [List.mem_append, List.mem_append] at listed
      obtain (listed | listed) | listed := listed
      · exact marks c (left c listed)
      · exact free c listed
      · exact marks c (right c listed)
    rw [fields_of_free all, trim_of_margins left right bare, if_neg bare.ne_nil]
  | append separates first second ih later => rw [fields_append_cons separates, ih, later]

/-- A text lists its fields. -/
theorem lists_fields (text : List Char) : Lists isSeparator text (fields isSeparator text) := by
  by_cases free : ∀ c ∈ text, isSeparator c = false
  · obtain ⟨before, after, left, right, whole⟩ := exists_margins text
    rw [fields_of_free free]
    split_ifs with none
    · rw [none, List.append_nil] at whole
      refine .blank ?_
      rw [whole]
      exact List.forall_mem_append.mpr ⟨left, right⟩
    · have inside : ∀ c ∈ trim text, isSeparator c = false := by
        intro c listed
        refine free c ?_
        rw [whole]
        exact List.mem_append_left _ (List.mem_append_right _ listed)
      have one := Lists.value left right (bare_trim none) inside
      rwa [← whole] at one
  · -- the text is cut at any separator, and both sides list their fields
    push Not at free
    obtain ⟨mark, listed, separates⟩ := free
    obtain ⟨first, rest, rfl⟩ := List.append_of_mem listed
    have separates : isSeparator mark = true := (Bool.not_eq_false _).mp separates
    rw [fields_append_cons separates]
    exact .append separates (lists_fields first) (lists_fields rest)
termination_by text.length
decreasing_by all_goals grind

/-- A text has given fields exactly if it lists them. -/
theorem fields_eq_iff (marks : Marks isSeparator) {text : List Char}
    {values : List (List Char)} :
    fields isSeparator text = values ↔ Lists isSeparator text values := by
  constructor
  · rintro rfl
    exact lists_fields text
  · exact Lists.fields_eq marks

/-- A blank margin on the left adds no value. -/
theorem Lists.blank_append {margin : List Char} (blank : Blank margin) {text : List Char}
    {values : List (List Char)} (lists : Lists isSeparator text values) :
    Lists isSeparator (margin ++ text) values := by
  induction lists with
  | blank rest => exact .blank (List.forall_mem_append.mpr ⟨blank, rest⟩)
  | value left right bare free =>
    rw [← List.append_assoc, ← List.append_assoc]
    exact .value (List.forall_mem_append.mpr ⟨blank, left⟩) right bare free
  | append separates first second ih later =>
    rw [← List.append_assoc]
    exact .append separates ih second

/-- A blank margin on the right adds no value. -/
theorem Lists.append_blank {margin : List Char} (blank : Blank margin) {text : List Char}
    {values : List (List Char)} (lists : Lists isSeparator text values) :
    Lists isSeparator (text ++ margin) values := by
  induction lists with
  | blank rest => exact .blank (List.forall_mem_append.mpr ⟨rest, blank⟩)
  | value left right bare free =>
    rw [List.append_assoc]
    exact .value left (List.forall_mem_append.mpr ⟨right, blank⟩) bare free
  | append separates first second ih later =>
    rw [List.append_assoc, List.cons_append]
    exact .append separates first later

/-- Trimming changes no field. -/
theorem fields_trim (marks : Marks isSeparator) (text : List Char) :
    fields isSeparator (trim text) = fields isSeparator text := by
  obtain ⟨before, after, left, right, whole⟩ := exists_margins text
  have core : Lists isSeparator (trim text) (fields isSeparator (trim text)) :=
    lists_fields (trim text)
  have lists := (core.blank_append left).append_blank right
  rw [← whole] at lists
  exact (lists.fields_eq marks).symm

variable {separator : Char}

/-- A text without the character is not cut at it. -/
theorem splitOnce_of_not_mem {text : List Char} (missing : separator ∉ text) :
    splitOnce separator text = none := by
  induction text with
  | nil => rfl
  | cons c rest ih =>
    rw [List.mem_cons, not_or] at missing
    rw [splitOnce, if_neg (Ne.symm missing.1), ih missing.2, Option.map_none]

/-- A text with the character is cut at the first one. -/
theorem splitOnce_of_mem {text : List Char} (listed : separator ∈ text) :
    splitOnce separator text =
      some (text.takeWhile (· != separator), (text.dropWhile (· != separator)).tail) := by
  induction text with
  | nil => exact absurd listed List.not_mem_nil
  | cons c rest ih =>
    rw [splitOnce]
    split_ifs with here
    · simp [here]
    · have later : separator ∈ rest := (List.mem_cons.mp listed).resolve_left (Ne.symm here)
      simp [here, ih later]

end HexSlab.Text
