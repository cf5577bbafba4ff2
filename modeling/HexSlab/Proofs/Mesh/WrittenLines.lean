import HexSlab.Proofs.Mesh.LineGrammar

/-!
# Lines that write setter calls

A list of clauses stands for setter calls, and there are many lines that write it:
groups are parted by bars or plus signs and values by commas, there may be blanks
around each of them and empty ones between them, numbers are any tokens that are read
as these numbers, and groups with other options may stand anywhere after the
intervals. Whichever line is taken, the mesh it leads to is the one that the
intervals and the setter calls lead to.
-/

namespace HexSlab

open Numeral Text

/-- A part of a line that calls setters. -/
inductive Clause where
  /-- Add shells on faces. -/
  | shell (faces : List Face)
  /-- Set the distance of neighbouring nodes. -/
  | scale (value : Vec3 Float)
  /-- Set the place of the first node. -/
  | offset (value : Vec3 Float)
  /-- Fill a box. -/
  | box (low high : Vec3 Float)
  /-- Name the intervals along Z of each process. -/
  | split (counts : List Nat)
  /-- Rotate about axes given by their letters. -/
  | rotate (turns : List (Char × Float))

namespace Clause

/-- The option of a clause. -/
def option : Clause → MeshOption
  | .shell _ => .shell
  | .scale _ => .scale
  | .offset _ => .offset
  | .box _ _ => .bbox
  | .split _ => .zdecomp
  | .rotate _ => .rotate

/-- The setter calls that a clause stands for. -/
def calls : Clause → List (Setting Float)
  | .shell faces => faces.map .shells
  | .scale value => [.scale value]
  | .offset value => [.offset value]
  | .box low high => [.box low high]
  | .split counts => [.split counts]
  | .rotate turns => turns.map fun turn => .turnNamed [turn.1] turn.2

end Clause

/-- The letters of the axes. -/
def axisLetters : List Char := ['x', 'X', 'y', 'Y', 'z', 'Z']

/-- The tokens write turns: the letter of an axis and a number for each. -/
inductive WritesTurns : List (List Char) → List (Char × Float) → Prop where
  /-- No turns. -/
  | nil : WritesTurns [] []
  /-- A turn before others. -/
  | cons {letter : Char} (named : letter ∈ axisLetters) {angle : List Char} {degrees : Float}
    (reads : number? angle = some degrees) {tokens : List (List Char)}
    {turns : List (Char × Float)} (rest : WritesTurns tokens turns) :
    WritesTurns ([letter] :: angle :: tokens) ((letter, degrees) :: turns)

/-- The text lists tokens of given numbers between commas. -/
def WritesNumbers (argument : List Char) (numbers : List Float) : Prop :=
  ∃ tokens, Lists (· == ',') argument tokens ∧ tokens.map number? = numbers.map some

/-- The text writes the values of a clause. Letters of faces stand in a row, with any
blanks between them; all other values are listed between commas. -/
def Clause.WrittenAs (argument : List Char) : Clause → Prop
  | .shell faces => argument.filter (fun c => !isBlank c) = faces.map Face.letter
  | .scale value => WritesNumbers argument [value.x, value.y, value.z]
  | .offset value => WritesNumbers argument [value.x, value.y, value.z]
  | .box low high => WritesNumbers argument [low.x, low.y, low.z, high.x, high.y, high.z]
  | .split counts =>
    ∃ tokens, Lists (· == ',') argument tokens ∧ tokens.map count? = counts.map some
  | .rotate turns => ∃ tokens, Lists (· == ',') argument tokens ∧ WritesTurns tokens turns

/-- The group writes a clause: the word of its option, blanks, a colon and the values. -/
def Clause.WrittenBy (group : List Char) (clause : Clause) : Prop :=
  ∃ gap argument, Blank gap ∧ clause.WrittenAs argument ∧
    group = clause.option.word.toList ++ gap ++ ':' :: argument

/-- The group asks for no setter call: its key is an unknown word, or the word of an
option that stands alone. -/
def Ignored (group : List Char) : Prop :=
  ∀ option, Mesh.Asks group option → Mesh.standsAlone option = true

/-- The groups write clauses in order, with ignored groups between them. -/
inductive WritesClauses : List (List Char) → List Clause → Prop where
  /-- No groups. -/
  | nil : WritesClauses [] []
  /-- A group that writes a clause. -/
  | clause {group : List Char} {clause : Clause} (written : clause.WrittenBy group)
    {groups : List (List Char)} {clauses : List Clause} (rest : WritesClauses groups clauses) :
    WritesClauses (group :: groups) (clause :: clauses)
  /-- A group that writes none. -/
  | ignored {group : List Char} (ignored : Ignored group) {groups : List (List Char)}
    {clauses : List Clause} (rest : WritesClauses groups clauses) :
    WritesClauses (group :: groups) clauses

/-- The text writes a count, with any blank margins. -/
def WritesCount (part : List Char) (count : Nat) : Prop :=
  ∃ before token after, Blank before ∧ Blank after ∧ part = before ++ token ++ after ∧
    count? token = some count

/-- A cross, which stands between the counts of intervals. -/
def isCross (c : Char) : Bool := c == 'x' || c == 'X'

/-- The group writes intervals: three counts with a cross between them. -/
def WritesIntervals (group : List Char) (numX numY numZ : Nat) : Prop :=
  ∃ first mark second other third, isCross mark = true ∧ isCross other = true ∧
    group = first ++ mark :: (second ++ other :: third) ∧
      WritesCount first numX ∧ WritesCount second numY ∧ WritesCount third numZ

/-- The line writes intervals and then clauses. -/
def LineWrites (line : String) (numX numY numZ : Nat) (clauses : List Clause) : Prop :=
  ∃ intervals options,
    Lists (fun c => c == '|' || c == '+') line.toList (intervals :: options) ∧
      WritesIntervals intervals numX numY numZ ∧ WritesClauses options clauses

/-! ### Tokens of counts -/

/-- The code point of a decimal digit. -/
theorem toNat_of_isDigit {c : Char} (digit : isDigit c = true) :
    48 ≤ c.toNat ∧ c.toNat ≤ 57 := by
  unfold isDigit digitValue? at digit
  split_ifs at digit with range
  · exact range
  · cases digit

/-- A decimal digit is neither blank nor a cross. -/
theorem isDigit_apart {c : Char} (digit : isDigit c = true) :
    isBlank c = false ∧ isCross c = false := by
  have range := toNat_of_isDigit digit
  constructor
  · by_contra blank
    simp only [isBlank, blankRanges, List.any_cons, List.any_nil, Bool.not_eq_false,
      Bool.or_eq_true, Bool.and_eq_true, decide_eq_true_eq, Bool.false_eq_true, or_false] at blank
    omega
  · rw [isCross, Bool.or_eq_false_iff, beq_eq_false_iff_ne, beq_eq_false_iff_ne]
    constructor <;> rintro rfl
    · exact absurd digit (by decide)
    · exact absurd digit (by decide)

/-- Digits that are read are digits. -/
theorem isDigit_of_digitsFrom {value count : Nat} {text : List Char}
    (read : digitsFrom value text = some count) : ∀ c ∈ text, isDigit c = true := by
  induction text generalizing value with
  | nil => exact List.forall_mem_nil _
  | cons c rest ih =>
    obtain ⟨digit, here, later⟩ := Option.bind_eq_some_iff.mp read
    refine List.forall_mem_cons.mpr ⟨?_, ih later⟩
    rw [isDigit, here, Option.isSome_some]

/-- Digits that are read are some, without blanks and crosses. -/
theorem apart_of_digits? {text : List Char} {count : Nat} (read : digits? text = some count) :
    text ≠ [] ∧ ∀ c ∈ text, isBlank c = false ∧ isCross c = false := by
  unfold digits? at read
  split at read
  · cases read
  · rename_i some
    refine ⟨fun none => some (by rw [none]; rfl), fun c listed => ?_⟩
    exact isDigit_apart (isDigit_of_digitsFrom read c listed)

/-- The token of a count has characters, none of them blank or a cross. -/
theorem apart_of_count? {token : List Char} {count : Nat} (read : count? token = some count) :
    token ≠ [] ∧ ∀ c ∈ token, isBlank c = false ∧ isCross c = false := by
  have digits := (Option.filter_eq_some_iff.mp read).1
  split at digits
  · obtain ⟨-, apart⟩ := apart_of_digits? digits
    exact ⟨List.cons_ne_nil _ _, List.forall_mem_cons.mpr ⟨by decide, apart⟩⟩
  · exact apart_of_digits? digits

/-- No cross is blank. -/
theorem marks_cross : Marks isCross := by
  intro c blank
  rw [isCross, Bool.or_eq_false_iff, beq_eq_false_iff_ne, beq_eq_false_iff_ne]
  constructor <;> rintro rfl
  · exact absurd blank (by decide)
  · exact absurd blank (by decide)

/-- Neither bar nor plus sign is blank. -/
theorem marks_bar : Marks fun c => c == '|' || c == '+' := by
  intro c blank
  rw [Bool.or_eq_false_iff, beq_eq_false_iff_ne, beq_eq_false_iff_ne]
  constructor <;> rintro rfl
  · exact absurd blank (by decide)
  · exact absurd blank (by decide)

/-- A count that a part writes is read from it, and the part has no cross. -/
theorem WritesCount.read {part : List Char} {count : Nat} (writes : WritesCount part count) :
    count? (trim part) = some count ∧ ∀ c ∈ part, isCross c = false := by
  obtain ⟨before, token, after, left, right, rfl, read⟩ := writes
  obtain ⟨some, apart⟩ := apart_of_count? read
  have bare : Bare token := .of_forall some fun c listed => (apart c listed).1
  rw [trim_of_margins left right bare]
  refine ⟨read, fun c listed => ?_⟩
  rw [List.mem_append, List.mem_append] at listed
  obtain (listed | listed) | listed := listed
  · exact marks_cross c (left c listed)
  · exact (apart c listed).2
  · exact marks_cross c (right c listed)

/-- Turns are written by an even number of tokens. -/
theorem WritesTurns.even {tokens : List (List Char)} {turns : List (Char × Float)}
    (writes : WritesTurns tokens turns) : tokens.length % 2 = 0 := by
  induction writes with
  | nil => rfl
  | cons named reads rest ih =>
    rw [List.length_cons, List.length_cons]
    omega

namespace Mesh

/-- Intervals that a group writes are the ones that it gives. -/
theorem gives_of_writes {group : List Char} {numX numY numZ : Nat}
    (writes : WritesIntervals group numX numY numZ)
    (positive : 0 < numX ∧ 0 < numY ∧ 0 < numZ) : GivesIntervals group numX numY numZ := by
  obtain ⟨first, mark, second, other, third, cross, again, rfl, writesX, writesY, writesZ⟩ :=
    writes
  obtain ⟨readX, freeX⟩ := writesX.read
  obtain ⟨readY, freeY⟩ := writesY.read
  obtain ⟨readZ, freeZ⟩ := writesZ.read
  have parts : split isCross (first ++ mark :: (second ++ other :: third)) =
      [first, second, third] := by
    rw [split_append_cons cross, split_append_cons again, split_of_free freeX,
      split_of_free freeY, split_of_free freeZ]
    rfl
  refine ⟨?_, positive⟩
  change (split isCross _).map _ = _
  rw [parts, List.map_cons, List.map_cons, List.map_singleton, readX, readY, readZ]

/-! ### Groups of clauses -/

/-- The word of an option is its own token, and has no colon. -/
theorem bare_word (option : MeshOption) :
    Bare option.word.toList ∧ ∀ c ∈ option.word.toList, (c != ':') = true := by
  have some : option.word.toList ≠ [] := by cases option <;> decide
  have apart : option.word.toList.all (fun c => !isBlank c && c != ':') = true := by
    cases option <;> decide
  have each (c : Char) (listed : c ∈ option.word.toList) :
      isBlank c = false ∧ (c != ':') = true := by
    have here := List.all_eq_true.mp apart c listed
    rwa [Bool.and_eq_true, Bool.not_eq_true'] at here
  exact ⟨.of_forall some fun c listed => (each c listed).1, fun c listed => (each c listed).2⟩

/-- A group that begins with the word of an option and a colon asks for this option, and
its argument is what follows. -/
theorem asks_of_word (option : MeshOption) {gap : List Char} (blank : Blank gap)
    (argument : List Char) :
    Asks (option.word.toList ++ gap ++ ':' :: argument) option ∧
      ':' ∈ option.word.toList ++ gap ++ ':' :: argument ∧
      groupArgument (option.word.toList ++ gap ++ ':' :: argument) = argument := by
  obtain ⟨bare, free⟩ := bare_word option
  have before : ∀ c ∈ option.word.toList ++ gap, (c != ':') = true := by
    refine List.forall_mem_append.mpr ⟨free, fun c listed => ?_⟩
    rw [bne_iff_ne]
    rintro rfl
    exact absurd (blank ':' listed) (by decide)
  refine ⟨?_, List.mem_append_right _ List.mem_cons_self, ?_⟩
  · rw [Asks, groupKey, List.takeWhile_append_of_pos before, List.takeWhile_cons_of_neg (by decide),
      List.append_nil]
    exact trim_of_margins (List.forall_mem_nil _) blank bare
  · rw [groupArgument, List.dropWhile_append_of_pos before, List.dropWhile_cons_of_neg (by decide),
      List.tail_cons]

/-- Blanks name no face. -/
theorem ofLetter?_of_blank {c : Char} (blank : isBlank c = true) : Face.ofLetter? c = none := by
  refine Option.eq_none_iff_forall_ne_some.mpr fun face found => ?_
  have named := List.find?_some found
  have filled : isBlank face.letter = false := by cases face <;> decide
  rw [beq_iff_eq.mp named, blank] at filled
  cases filled

/-- Blanks among letters of faces ask for nothing. -/
theorem letterCalls_filter (text : List Char) :
    letterCalls (text.filter fun c => !isBlank c) = letterCalls text := by
  rw [letterCalls, letterCalls, List.filterMap_filter]
  refine List.filterMap_congr fun c _ => ?_
  cases blank : isBlank c with
  | true => rw [ofLetter?_of_blank blank]; rfl
  | false => rfl

/-- Trimming keeps all that is not blank. -/
theorem filter_trim (text : List Char) :
    (trim text).filter (fun c => !isBlank c) = text.filter fun c => !isBlank c := by
  have none {margin : List Char} (blank : Blank margin) :
      margin.filter (fun c => !isBlank c) = [] := by
    refine List.filter_eq_nil_iff.mpr fun c listed => ?_
    rw [blank c listed]
    exact Bool.false_ne_true
  obtain ⟨before, after, left, right, whole⟩ := exists_margins text
  conv_rhs => rw [whole, List.filter_append, List.filter_append, none left, none right,
    List.nil_append, List.append_nil]

/-- The letters of faces ask for shells on these faces. -/
theorem letterCalls_letters (faces : List Face) :
    letterCalls (faces.map Face.letter) = faces.map .shells := by
  induction faces with
  | nil => rfl
  | cons face rest ih =>
    rw [List.map_cons, letterCalls, List.filterMap_cons, Face.ofLetter?_letter]
    exact congrArg _ ih

/-- Turns that are written ask for rotations as their setter calls do. -/
theorem exists_turnCalls {tokens : List (List Char)} {turns : List (Char × Float)}
    (writes : WritesTurns tokens turns) :
    ∃ calls, turnCalls tokens = .ok calls ∧ ∀ mesh : Mesh Float,
      mesh.inTurn calls = mesh.inTurn (turns.map fun turn => .turnNamed [turn.1] turn.2) := by
  induction writes with
  | nil => exact ⟨[], rfl, fun _ => rfl⟩
  | @cons letter named angle degrees reads tokens turns writes ih =>
    obtain ⟨calls, later, same⟩ := ih
    obtain ⟨axis, found⟩ : ∃ axis, Axis.ofText [letter] = .ok axis := by
      simp only [axisLetters, List.mem_cons, List.not_mem_nil, or_false] at named
      obtain rfl | rfl | rfl | rfl | rfl | rfl := named
      · exact ⟨.x, rfl⟩
      · exact ⟨.x, rfl⟩
      · exact ⟨.y, rfl⟩
      · exact ⟨.y, rfl⟩
      · exact ⟨.z, rfl⟩
      · exact ⟨.z, rfl⟩
    -- the reader rotates about the axis, and the setter looks the letter up again
    refine ⟨.turn axis degrees :: calls, ?_, fun mesh => ?_⟩
    · rw [turnCalls, readNumber, reads, later, found]
      rfl
    · have first : (Setting.turnNamed [letter] degrees).apply mesh =
          .ok (mesh.rotate axis degrees) := by
        rw [Setting.apply, Attempt.finish, Setting.attempt, run_rotateNamed, found]
      rw [List.map_cons, inTurn_cons, inTurn_cons, first]
      exact same _

/-- The values that a text lists are those of its trimmed text. -/
theorem valueTokens_of_lists {argument : List Char} {tokens : List (List Char)}
    (lists : Lists (· == ',') argument tokens) : valueTokens (trim argument) = tokens :=
  (fields_trim marks_comma argument).trans (lists.fields_eq marks_comma)

/-- Written numbers are the readings of the values, as many as there are numbers. -/
theorem readings_of_writes {argument : List Char} {numbers : List Float}
    (writes : WritesNumbers argument numbers) :
    (valueTokens (trim argument)).length = numbers.length ∧
      (valueTokens (trim argument)).map number? = numbers.map some := by
  obtain ⟨tokens, lists, readings⟩ := writes
  have counted := congrArg List.length readings
  rw [List.length_map, List.length_map] at counted
  rw [valueTokens_of_lists lists]
  exact ⟨counted, readings⟩

/-- Three written numbers are read as their vector. -/
theorem readVector_of_writes {option : MeshOption} {argument : List Char} {value : Vec3 Float}
    (writes : WritesNumbers argument [value.x, value.y, value.z]) :
    readVector option (trim argument) = .ok value := by
  obtain ⟨counted, readings⟩ := readings_of_writes writes
  rw [readVector_eq_map option counted, mapM_readNumber readings]
  rfl

/-- Six written numbers are read as the corners of their box. -/
theorem readCorners_of_writes {option : MeshOption} {argument : List Char}
    {low high : Vec3 Float}
    (writes : WritesNumbers argument [low.x, low.y, low.z, high.x, high.y, high.z]) :
    readCorners option (trim argument) = .ok (low, high) := by
  obtain ⟨counted, readings⟩ := readings_of_writes writes
  rw [readCorners_eq_map option counted, mapM_readNumber readings]
  rfl

/-- A written clause asks for calls that do what its setter calls do. -/
theorem exists_argumentCalls {clause : Clause} {processes : Nat} {argument : List Char}
    (written : clause.WrittenAs argument)
    (counted : ∀ counts, clause = .split counts → counts.length = processes) :
    ∃ calls, argumentCalls processes clause.option (trim argument) = .ok calls ∧
      ∀ mesh : Mesh Float, mesh.inTurn calls = mesh.inTurn clause.calls := by
  cases clause with
  | shell faces =>
    refine ⟨faces.map .shells, ?_, fun _ => rfl⟩
    change Except.ok (letterCalls (trim argument)) = _
    rw [← letterCalls_filter, filter_trim, written, letterCalls_letters]
  | scale value =>
    refine ⟨[.scale value], ?_, fun _ => rfl⟩
    rw [Clause.option, argumentCalls, readVector_of_writes written]
    rfl
  | offset value =>
    refine ⟨[.offset value], ?_, fun _ => rfl⟩
    rw [Clause.option, argumentCalls, readVector_of_writes written]
    rfl
  | box low high =>
    refine ⟨[.box low high], ?_, fun _ => rfl⟩
    rw [Clause.option, argumentCalls, readCorners_of_writes written]
    rfl
  | split counts =>
    obtain ⟨tokens, lists, readings⟩ := written
    have values := valueTokens_of_lists lists
    have same := congrArg List.length readings
    rw [List.length_map, List.length_map, counted counts rfl] at same
    rw [← values] at readings same
    refine ⟨[.split counts], ?_, fun _ => rfl⟩
    rw [Clause.option, argumentCalls_zdecomp same, mapM_readCount readings]
    rfl
  | rotate turns =>
    obtain ⟨tokens, lists, writes⟩ := written
    obtain ⟨calls, read, agree⟩ := exists_turnCalls writes
    refine ⟨calls, ?_, agree⟩
    rw [Clause.option, argumentCalls, valueTokens_of_lists lists, if_pos writes.even, read]

/-- A group that writes a clause does what the setter calls of the clause do. -/
theorem mesh_applyGroup_of_written {mesh : Mesh Float} {clause : Clause} {group : List Char}
    (written : clause.WrittenBy group)
    (counted : ∀ counts, clause = .split counts → counts.length = mesh.layout.count) :
    (mesh.applyGroup group).mesh = mesh.inTurn clause.calls := by
  obtain ⟨gap, argument, blank, values, rfl⟩ := written
  obtain ⟨asks, colon, rest⟩ := asks_of_word clause.option blank argument
  obtain ⟨calls, read, agree⟩ := exists_argumentCalls values counted
  rw [mesh_applyGroup, groupCalls_of_mem asks colon, rest, read]
  exact agree mesh

/-- A group that asks for no setter call leaves the mesh as it is. -/
theorem mesh_applyGroup_of_ignored {group : List Char} (ignored : Ignored group)
    (mesh : Mesh Float) : (mesh.applyGroup group).mesh = .ok mesh := by
  have alone {option : MeshOption} (stands : standsAlone option = true) (argument : List Char) :
      argumentCalls mesh.layout.count option argument = .ok [] := by
    cases option with
    | summary | usage => rfl
    | _ => cases stands
  have none : groupCalls mesh.layout.count group = .ok [] := by
    by_cases known : ∃ option, Asks group option
    case neg =>
      push Not at known
      exact groupCalls_of_unknown known
    obtain ⟨option, asks⟩ := known
    have stands := ignored option asks
    by_cases argument : ':' ∈ group
    · rw [groupCalls_of_mem asks argument, alone stands]
    · rw [groupCalls_of_not_mem asks argument, if_pos stands, alone stands]
  rw [mesh_applyGroup, none]
  rfl

/-- Groups that write clauses do what the setter calls of the clauses do. -/
theorem Accepted.applyGroups_of_writes {mesh : Mesh Float} {split : ZSplit}
    (accepted : mesh.Accepted split) {groups : List (List Char)} {clauses : List Clause}
    (writes : WritesClauses groups clauses)
    (counted : ∀ counts, Clause.split counts ∈ clauses → counts.length = mesh.layout.count) :
    (mesh.applyGroups groups).mesh = mesh.inTurn (clauses.flatMap Clause.calls) := by
  induction writes generalizing mesh split with
  | nil => rfl
  | @clause group clause written groups clauses writes ih =>
    have here : ∀ counts, clause = .split counts → counts.length = mesh.layout.count :=
      fun counts same => counted counts (same ▸ List.mem_cons_self)
    rw [mesh_applyGroups_cons, ← mesh_applyGroup, mesh_applyGroup_of_written written here,
      List.flatMap_cons, inTurn_append]
    cases outcome : mesh.inTurn clause.calls with
    | error error => rfl
    | ok next =>
      obtain ⟨other, kept, after⟩ := accepted.inTurn outcome
      refine ih after fun counts listed => ?_
      rw [kept]
      exact counted counts (List.mem_cons_of_mem _ listed)
  | ignored ignored writes ih =>
    rw [mesh_applyGroups_cons, ← mesh_applyGroup, mesh_applyGroup_of_ignored ignored]
    exact ih accepted counted

/-- A line means its setter calls. Whatever line writes positive intervals and then
clauses, each split with a count for every process, the reader of lines ends on every
process with the mesh, or the first error, of the intervals followed by the setter calls
of the clauses in order. -/
theorem ofText_eq_setter_calls {line : String} {numX numY numZ : Nat} {clauses : List Clause}
    (writes : LineWrites line numX numY numZ clauses)
    (positive : 0 < numX ∧ 0 < numY ∧ 0 < numZ) (layout : Layout)
    (counted : ∀ counts, Clause.split counts ∈ clauses → counts.length = layout.count) :
    (ofText line layout).mesh =
      (ofIntervals numX numY numZ layout).bind fun mesh =>
        mesh.inTurn (clauses.flatMap Clause.calls) := by
  obtain ⟨intervals, options, lists, given, written⟩ := writes
  have parts : groups line.toList = intervals :: options := lists.fields_eq marks_bar
  rw [mesh_ofText_of_gives parts (gives_of_writes given positive)]
  cases made : (ofIntervals numX numY numZ layout : Except MeshError (Mesh Float)) with
  | error error => rfl
  | ok mesh =>
    obtain ⟨enough, rfl⟩ := ofIntervals_eq_ok_iff.mp made
    exact (accepted_unit enough).applyGroups_of_writes written counted

/-- A line with blanks, an empty group, an empty value and a group without calls, read by
the second of two processes. -/
theorem ofText_eq_setter_calls_spaced :
    LineWrites " 2 x 2X4 || show + shell : x Z|zdecomp: 3 ,,1 + rotate:Z,90" 2 2 4
        [.shell [.minX, .maxZ], .split [3, 1], .rotate [('Z', Scaled.toFloat ⟨90, 0⟩)]] ∧
      (ofText " 2 x 2X4 || show + shell : x Z|zdecomp: 3 ,,1 + rotate:Z,90"
          ⟨2, 1, by decide⟩).mesh =
        (ofIntervals 2 2 4 ⟨2, 1, by decide⟩).bind fun mesh =>
          mesh.inTurn [.shells .minX, .shells .maxZ, .split [3, 1],
            .turnNamed ['Z'] (Scaled.toFloat ⟨90, 0⟩)] := by
  have intervals : WritesIntervals "2 x 2X4".toList 2 2 4 :=
    ⟨"2 ".toList, 'x', " 2".toList, 'X', "4".toList, rfl, rfl, by decide,
      ⟨[], "2".toList, " ".toList, by decide, by decide, by decide, by decide⟩,
      ⟨" ".toList, "2".toList, [], by decide, by decide, by decide, by decide⟩,
      ⟨[], "4".toList, [], by decide, by decide, by decide, by decide⟩⟩
  have shown : Ignored "show".toList := by
    intro option asks
    cases option with
    | summary | usage => rfl
    | _ => exact absurd asks (by decide)
  have letters : " x Z".toList.filter (fun c => !isBlank c) =
      [Face.minX, Face.maxZ].map Face.letter := by decide
  have shell : (Clause.shell [.minX, .maxZ]).WrittenBy "shell : x Z".toList :=
    ⟨[' '], " x Z".toList, by decide, letters, by decide⟩
  have split : (Clause.split [3, 1]).WrittenBy "zdecomp: 3 ,,1".toList :=
    ⟨[], " 3 ,,1".toList, by decide,
      ⟨["3".toList, "1".toList], (fields_eq_iff marks_comma).mp (by decide), by decide⟩,
      by decide⟩
  have rotate : (Clause.rotate [('Z', Scaled.toFloat ⟨90, 0⟩)]).WrittenBy
      "rotate:Z,90".toList :=
    ⟨[], "Z,90".toList, by decide,
      ⟨[['Z'], "90".toList], (fields_eq_iff marks_comma).mp (by decide),
        .cons (by decide) rfl .nil⟩,
      by decide⟩
  have writes : LineWrites " 2 x 2X4 || show + shell : x Z|zdecomp: 3 ,,1 + rotate:Z,90" 2 2 4
      [.shell [.minX, .maxZ], .split [3, 1], .rotate [('Z', Scaled.toFloat ⟨90, 0⟩)]] :=
    ⟨"2 x 2X4".toList, ["show".toList, "shell : x Z".toList, "zdecomp: 3 ,,1".toList,
      "rotate:Z,90".toList], (fields_eq_iff marks_bar).mp (by decide), intervals,
      .ignored shown (.clause shell (.clause split (.clause rotate .nil)))⟩
  refine ⟨writes, ofText_eq_setter_calls writes (by decide) _ fun counts listed => ?_⟩
  simp only [List.mem_cons, List.not_mem_nil, or_false, reduceCtorEq, false_or,
    Clause.split.injEq] at listed
  rw [listed]
  rfl

end Mesh

end HexSlab
