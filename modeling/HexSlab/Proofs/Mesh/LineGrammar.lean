import HexSlab.Proofs.Mesh.GroupGrammar

/-!
# Which lines describe a mesh

A line describes a mesh if its first group gives three positive intervals, those
along Z enough for the processes, and every later group passes. A line that does not
is answered with the fault of the first group that has one. The reader of lines
decides exactly this. One fault is not among its documented answers: where no word holds
the sum of a split, the setter ends with an overflow, which is no answer.
-/

namespace HexSlab.Mesh

open Numeral Text

/-- The group gives intervals: cut at each `x`, it has three parts, which are positive
counts with any blank margins. -/
def GivesIntervals (group : List Char) (numX numY numZ : Nat) : Prop :=
  ((split (fun c => c == 'x' || c == 'X') group).map fun part => count? (trim part)) =
      [some numX, some numY, some numZ] ∧
    0 < numX ∧ 0 < numY ∧ 0 < numZ

/-- The line describes a mesh in a run of some processes. -/
def LineAccepted (processes : Nat) (line : String) : Prop :=
  ∃ intervals options numX numY numZ,
    groups line.toList = intervals :: options ∧ GivesIntervals intervals numX numY numZ ∧
      processes ≤ numZ ∧ ∀ group ∈ options, GroupPasses processes group

/-- The fault of a line: that of its first group with a fault. -/
inductive LineFault (processes : Nat) (line : String) : MeshError → Prop where
  /-- The line is blank between its separators. -/
  | noIntervals (none : groups line.toList = []) :
    LineFault processes line (.invalidIntervals line)
  /-- The first group gives no intervals. -/
  | invalidIntervals {intervals : List Char} {options : List (List Char)}
    (parts : groups line.toList = intervals :: options)
    (wrong : ∀ numX numY numZ, ¬GivesIntervals intervals numX numY numZ) :
    LineFault processes line (.invalidIntervals (String.ofList intervals))
  /-- The first group gives too few intervals along Z. -/
  | insufficientIntervals {intervals : List Char} {options : List (List Char)}
    (parts : groups line.toList = intervals :: options) {numX numY numZ : Nat}
    (gives : GivesIntervals intervals numX numY numZ) (few : numZ < processes) :
    LineFault processes line (.insufficientIntervals numZ processes)
  /-- A later group has a fault, and those before it pass. -/
  | group {intervals group : List Char} {before after : List (List Char)}
    (parts : groups line.toList = intervals :: (before ++ group :: after))
    {numX numY numZ : Nat} (gives : GivesIntervals intervals numX numY numZ)
    (enough : processes ≤ numZ) (passed : ∀ earlier ∈ before, GroupPasses processes earlier)
    {error : MeshError} (fault : GroupFault processes group error) :
    LineFault processes line error

/-- Intervals that a group gives are read. -/
theorem readIntervals_of_gives {group : List Char} {numX numY numZ : Nat}
    (gives : GivesIntervals group numX numY numZ) :
    readIntervals group = .ok (numX, numY, numZ) := by
  obtain ⟨parts, positive⟩ := gives
  have read : ((split (fun c => c == 'x' || c == 'X') group).mapM fun part =>
      count? (trim part)) = some [numX, numY, numZ] := mapM_eq_some_iff.mpr parts
  unfold readIntervals
  rw [read]
  dsimp only
  rw [if_pos positive]

/-- A group that gives no intervals is refused. -/
theorem readIntervals_of_not_gives {group : List Char}
    (wrong : ∀ numX numY numZ, ¬GivesIntervals group numX numY numZ) :
    readIntervals group = .error (.invalidIntervals (String.ofList group)) := by
  unfold readIntervals
  dsimp only
  split
  · rename_i numX numY numZ read
    split_ifs with positive
    · exact absurd ⟨mapM_eq_some_iff.mp read, positive⟩ (wrong numX numY numZ)
    · rfl
  · rfl

/-- A mesh takes groups that pass. -/
theorem Accepted.applyGroups_of_passes {mesh : Mesh Float} {split : ZSplit}
    (accepted : mesh.Accepted split)
    {groups : List (List Char)} (passes : ∀ group ∈ groups, GroupPasses mesh.layout.count group) :
    ∃ next, (mesh.applyGroups groups).mesh = .ok next := by
  induction groups generalizing mesh split with
  | nil => exact ⟨mesh, rfl⟩
  | cons group rest ih =>
    rw [List.forall_mem_cons] at passes
    obtain ⟨middle, first⟩ := applyGroup_of_passes passes.1
    obtain ⟨other, kept, after⟩ := accepted.applyGroup first
    have later : ∀ group ∈ rest, GroupPasses middle.layout.count group := by
      rw [kept]
      exact passes.2
    obtain ⟨next, last⟩ := ih after later
    refine ⟨next, ?_⟩
    rw [mesh_applyGroups_cons, ← mesh_applyGroup, first]
    exact last

/-- A mesh answers groups with the fault of the first that has one. -/
theorem Accepted.applyGroups_of_fault {mesh : Mesh Float} {split : ZSplit}
    (accepted : mesh.Accepted split)
    {before after : List (List Char)} {group : List Char} {error : MeshError}
    (passed : ∀ earlier ∈ before, GroupPasses mesh.layout.count earlier)
    (fault : GroupFault mesh.layout.count group error) :
    (mesh.applyGroups (before ++ group :: after)).mesh = .error error := by
  induction before generalizing mesh split with
  | nil =>
    rw [List.nil_append, mesh_applyGroups_cons, ← mesh_applyGroup, applyGroup_of_fault fault]
    rfl
  | cons first rest ih =>
    rw [List.forall_mem_cons] at passed
    obtain ⟨middle, made⟩ := applyGroup_of_passes passed.1
    obtain ⟨other, kept, next⟩ := accepted.applyGroup made
    rw [List.cons_append, mesh_applyGroups_cons, ← mesh_applyGroup, made]
    refine ih next ?_ ?_
    · rw [kept]
      exact passed.2
    · rw [kept]
      exact fault

/-- A line with given intervals goes on with its later groups. -/
theorem mesh_ofText_of_gives {line : String} {layout : Layout} {intervals : List Char}
    {options : List (List Char)} (parts : groups line.toList = intervals :: options)
    {numX numY numZ : Nat} (gives : GivesIntervals intervals numX numY numZ) :
    (ofText line layout).mesh =
      (ofIntervals numX numY numZ layout).bind fun mesh => (mesh.applyGroups options).mesh := by
  unfold ofText
  rw [parts]
  dsimp only
  rw [readIntervals_of_gives gives]
  exact MeshReading.mesh_andThen _ _

/-- Positive intervals, with enough of them along Z, give the mesh of unit spacing. -/
theorem GivesIntervals.ofIntervals_eq_unit {intervals : List Char} {numX numY numZ : Nat}
    (gives : GivesIntervals intervals numX numY numZ) {layout : Layout}
    (enough : layout.count ≤ numZ) :
    (ofIntervals numX numY numZ layout : Except MeshError (Mesh Float)) =
        .ok (unit numX numY numZ layout) ∧
      (unit numX numY numZ layout : Mesh Float).Accepted (.even numZ) := by
  have positive : 0 < numX ∧ 0 < numY ∧ layout.count ≤ numZ :=
    ⟨gives.2.1, gives.2.2.1, enough⟩
  exact ⟨ofIntervals_eq_ok_iff.mpr ⟨positive, rfl⟩, accepted_unit positive⟩

/-- An accepted line is read. -/
theorem ofText_of_accepted {line : String} {layout : Layout}
    (accepted : LineAccepted layout.count line) :
    ∃ mesh, (ofText line layout).mesh = .ok mesh := by
  obtain ⟨intervals, options, numX, numY, numZ, parts, gives, enough, passes⟩ := accepted
  obtain ⟨made, start⟩ := gives.ofIntervals_eq_unit enough
  rw [mesh_ofText_of_gives parts gives, made]
  exact start.applyGroups_of_passes passes

/-- A line with a fault is answered with it. -/
theorem ofText_of_fault {line : String} {layout : Layout} {error : MeshError}
    (fault : LineFault layout.count line error) : (ofText line layout).mesh = .error error := by
  cases fault with
  | noIntervals none =>
    unfold ofText
    rw [none]
    rfl
  | invalidIntervals parts wrong =>
    unfold ofText
    rw [parts]
    dsimp only
    rw [readIntervals_of_not_gives wrong]
    rfl
  | @insufficientIntervals intervals options parts numX numY numZ gives few =>
    obtain ⟨posX, posY, posZ⟩ := gives.2
    rw [mesh_ofText_of_gives parts gives, ofIntervals_eq, if_neg (by omega), if_pos few]
    rfl
  | group parts gives enough passed fault =>
    obtain ⟨made, start⟩ := gives.ofIntervals_eq_unit enough
    rw [mesh_ofText_of_gives parts gives, made]
    exact start.applyGroups_of_fault passed fault

/-- Every line is accepted or has a fault. -/
theorem accepted_or_fault (processes : Nat) (line : String) :
    LineAccepted processes line ∨ ∃ error, LineFault processes line error := by
  cases parts : groups line.toList with
  | nil => exact .inr ⟨_, .noIntervals parts⟩
  | cons intervals options =>
    by_cases given : ∃ numX numY numZ, GivesIntervals intervals numX numY numZ
    case neg =>
      push Not at given
      exact .inr ⟨_, .invalidIntervals parts given⟩
    obtain ⟨numX, numY, numZ, gives⟩ := given
    by_cases enough : processes ≤ numZ
    case neg => exact .inr ⟨_, .insufficientIntervals parts gives (Nat.not_le.mp enough)⟩
    obtain passes | ⟨before, group, after, place, passed, fails⟩ :=
      forall_or_exists_first (GroupPasses processes) options
    · exact .inl ⟨intervals, options, numX, numY, numZ, parts, gives, enough, passes⟩
    · obtain ⟨error, fault⟩ := (passes_or_fault processes group).resolve_left fails
      rw [place] at parts
      exact .inr ⟨error, .group parts gives enough passed fault⟩

/-- The reader of lines accepts exactly its grammar. For every line and every process of
every run, a mesh is read exactly if the line is accepted, and an error is answered
exactly if it is the fault of the line. -/
theorem ofText_decides_grammar (line : String) (layout : Layout) :
    ((∃ mesh, (ofText line layout).mesh = .ok mesh) ↔ LineAccepted layout.count line) ∧
      ∀ error, (ofText line layout).mesh = .error error ↔ LineFault layout.count line error := by
  have decided := accepted_or_fault layout.count line
  constructor
  · refine ⟨fun ⟨mesh, made⟩ => decided.resolve_right ?_, ofText_of_accepted⟩
    rintro ⟨error, fault⟩
    rw [ofText_of_fault fault] at made
    cases made
  · refine fun error => ⟨fun answered => ?_, ofText_of_fault⟩
    obtain accepted | ⟨other, fault⟩ := decided
    · obtain ⟨mesh, made⟩ := ofText_of_accepted accepted
      rw [made] at answered
      cases answered
    · rw [ofText_of_fault fault] at answered
      obtain rfl := Except.error.inj answered
      exact fault

/-- A split with a count for each of three processes, which adds up to more intervals than
there are processes, and which no word holds: the line is not read. -/
theorem split_past_words_unread :
    groups "1x1x5|zdecomp:18446744073709551615,1,5".toList =
        ["1x1x5".toList, "zdecomp:18446744073709551615,1,5".toList] ∧
      GivesIntervals "1x1x5".toList 1 1 5 ∧
      ':' ∈ "zdecomp:18446744073709551615,1,5".toList ∧
      (groupValues "zdecomp:18446744073709551615,1,5".toList).map count? =
        [some 18446744073709551615, some 1, some 5] ∧
      3 ≤ 18446744073709551615 + 1 + 5 ∧
      (ofText "1x1x5|zdecomp:18446744073709551615,1,5" ⟨3, 0, by decide⟩).mesh =
        .error .overflow :=
  ⟨by decide, ⟨by decide, by decide⟩, by decide, by decide, by decide, rfl⟩

end HexSlab.Mesh
