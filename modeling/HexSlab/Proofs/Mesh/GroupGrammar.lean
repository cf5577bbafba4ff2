import HexSlab.Proofs.Mesh.LineCalls
import HexSlab.Proofs.Readings
import HexSlab.Proofs.Text.Fields

/-!
# Which groups a mesh takes

A group asks for an option by its key, and passes if it gives what the option wants:
an argument, a number of values, values that are numbers, and for a split enough
intervals, whose sum a word holds. Each group passes or has one fault, the first in
that order, and a mesh takes the groups that pass and answers the others with the
fault. Neither the conditions nor the faults mention the mesh beyond the number of its
processes.
-/

namespace HexSlab

open Numeral Text

/-- A number of values is one that was asked for. -/
def ValueCount.Admits (found : Nat) : ValueCount → Prop
  | .exactly count => found = count
  | .perProcess count => found = count
  | .anyEven => found % 2 = 0

/-- The second value, the fourth and so on. -/
def everySecond {α : Type} : List α → List α
  | _ :: second :: rest => second :: everySecond rest
  | _ => []

namespace MeshOption

/-- The number of values that an option asks for in a run of some processes. -/
def wants (processes : Nat) : MeshOption → Option ValueCount
  | .scale => some (.exactly 3)
  | .offset => some (.exactly 3)
  | .bbox => some (.exactly 6)
  | .zdecomp => some (.exactly processes)
  | .rotate => some .anyEven
  | .shell | .summary | .usage => none

/-- A number of values is one that the option takes. -/
def Takes (processes found : Nat) (option : MeshOption) : Prop :=
  ∀ wanted, option.wants processes = some wanted → wanted.Admits found

/-- The values of an option that are to be numbers. -/
def numerals (values : List (List Char)) : MeshOption → List (List Char)
  | .scale | .offset | .bbox | .zdecomp => values
  | .rotate => everySecond values
  | .shell | .summary | .usage => []

/-- An option reads a value: a split wants counts, and the others any numbers. -/
def Reads (value : List Char) : MeshOption → Prop
  | .zdecomp => ∃ count, count? value = some count
  | _ => ∃ number, number? value = some number

/-- An option with a given word is read from it. -/
theorem ofWord?_word (option : MeshOption) : ofWord? option.word.toList = some option := by
  cases option <;> decide

/-- An option is read from its own word only. -/
theorem eq_word_of_ofWord? {word : List Char} {option : MeshOption}
    (read : ofWord? word = some option) : word = option.word.toList := by
  have same := List.find?_some read
  exact (beq_iff_eq.mp same).symm

end MeshOption

namespace Mesh

/-- The key of a group: what stands before its first colon. -/
def groupKey (group : List Char) : List Char := trim (group.takeWhile (· != ':'))

/-- The argument of a group: what stands after its first colon. -/
def groupArgument (group : List Char) : List Char := (group.dropWhile (· != ':')).tail

/-- The values of a group: what stands between the commas of its argument. -/
def groupValues (group : List Char) : List (List Char) := valueTokens (groupArgument group)

/-- The group asks for an option. -/
def Asks (group : List Char) (option : MeshOption) : Prop :=
  groupKey group = option.word.toList

instance (group : List Char) (option : MeshOption) : Decidable (Asks group option) :=
  inferInstanceAs (Decidable (groupKey group = option.word.toList))

/-- A group with a given option gives what the option wants. -/
structure OptionPasses (processes : Nat) (group : List Char) (option : MeshOption) : Prop where
  /-- It has an argument if one is needed. -/
  argument : standsAlone option = false → ':' ∈ group
  /-- It has as many values as are wanted. -/
  counted : option.Takes processes (groupValues group).length
  /-- The values that are to be numbers can be read. -/
  numeric : ∀ value ∈ option.numerals (groupValues group), option.Reads value
  /-- A word holds the intervals that a split deals out. -/
  within : option = .zdecomp → ((groupValues group).filterMap count?).sum < Word.limit
  /-- A split deals out an interval for each process. -/
  enough : option = .zdecomp → processes ≤ ((groupValues group).filterMap count?).sum

/-- The group passes: whatever option it asks for gets what it wants. -/
def GroupPasses (processes : Nat) (group : List Char) : Prop :=
  ∀ option, Asks group option → OptionPasses processes group option

/-- The fault of a group with a given option, each under the condition that there is
no earlier one. -/
inductive OptionFault (processes : Nat) (group : List Char) (option : MeshOption) :
    MeshError → Prop where
  /-- There is no argument, and one is needed. -/
  | missingArgument (needed : standsAlone option = false) (none : ':' ∉ group) :
    OptionFault processes group option (.missingArgument option.word)
  /-- There is an argument with the wrong number of values. -/
  | wrongValueCount (argument : ':' ∈ group) {wanted : ValueCount}
    (wants : option.wants processes = some wanted)
    (wrong : ¬wanted.Admits (groupValues group).length) :
    OptionFault processes group option
      (.wrongValueCount option.word wanted (groupValues group).length)
  /-- The number of values is right, and one of them is the first that cannot be read. -/
  | invalidNumber (argument : ':' ∈ group)
    (counted : option.Takes processes (groupValues group).length)
    {before after : List (List Char)} {value : List Char}
    (place : option.numerals (groupValues group) = before ++ value :: after)
    (read : ∀ earlier ∈ before, option.Reads earlier) (unread : ¬option.Reads value) :
    OptionFault processes group option (.invalidNumber option.word (String.ofList value))
  /-- All values can be read, and no word holds their sum. -/
  | overflow (argument : ':' ∈ group) (split : option = .zdecomp)
    (counted : (groupValues group).length = processes)
    (numeric : ∀ value ∈ groupValues group, option.Reads value)
    (exceeds : Word.limit ≤ ((groupValues group).filterMap count?).sum) :
    OptionFault processes group option .overflow
  /-- A word holds the sum of all values, and they are too few intervals. -/
  | insufficientIntervals (argument : ':' ∈ group) (split : option = .zdecomp)
    (counted : (groupValues group).length = processes)
    (numeric : ∀ value ∈ groupValues group, option.Reads value)
    (within : ((groupValues group).filterMap count?).sum < Word.limit)
    (few : ((groupValues group).filterMap count?).sum < processes) :
    OptionFault processes group option
      (.insufficientIntervals ((groupValues group).filterMap count?).sum processes)

/-- The group has a fault with the option that it asks for. -/
def GroupFault (processes : Nat) (group : List Char) (error : MeshError) : Prop :=
  ∃ option, Asks group option ∧ OptionFault processes group option error

/-! ### The reader's view of a group -/

/-- No comma is blank. -/
theorem marks_comma : Marks (· == ',') := by
  intro c blank
  rw [beq_eq_false_iff_ne]
  rintro rfl
  exact absurd blank (by decide)

/-- A group with a colon is cut at the first one. -/
theorem keyAndArgument_of_mem {group : List Char} (argument : ':' ∈ group) :
    keyAndArgument group = (groupKey group, some (trim (groupArgument group))) := by
  unfold keyAndArgument
  rw [splitOnce_of_mem argument]
  rfl

/-- A group without a colon is its own key. -/
theorem keyAndArgument_of_not_mem {group : List Char} (missing : ':' ∉ group) :
    keyAndArgument group = (groupKey group, none) := by
  have whole : group.takeWhile (· != ':') = group := by
    rw [List.takeWhile_eq_self_iff]
    intro c listed
    rw [bne_iff_ne]
    rintro rfl
    exact missing listed
  unfold keyAndArgument groupKey
  rw [splitOnce_of_not_mem missing, whole]

/-- A group with an argument asks for calls with that argument. -/
theorem groupCalls_of_mem {processes : Nat} {group : List Char} {option : MeshOption}
    (asks : Asks group option) (argument : ':' ∈ group) :
    groupCalls processes group =
      argumentCalls processes option (trim (groupArgument group)) := by
  unfold groupCalls
  rw [keyAndArgument_of_mem argument]
  dsimp only
  rw [asks, MeshOption.ofWord?_word]

/-- A group without an argument asks for calls only if its option stands alone. -/
theorem groupCalls_of_not_mem {processes : Nat} {group : List Char} {option : MeshOption}
    (asks : Asks group option) (missing : ':' ∉ group) :
    groupCalls processes group =
      if standsAlone option then argumentCalls processes option []
      else .error (.missingArgument option.word) := by
  unfold groupCalls
  rw [keyAndArgument_of_not_mem missing]
  dsimp only
  rw [asks, MeshOption.ofWord?_word]

/-- A group that asks for no option asks for no calls. -/
theorem groupCalls_of_unknown {processes : Nat} {group : List Char}
    (unknown : ∀ option, ¬Asks group option) : groupCalls processes group = .ok [] := by
  have key : (keyAndArgument group).1 = groupKey group := by
    by_cases argument : ':' ∈ group
    · rw [keyAndArgument_of_mem argument]
    · rw [keyAndArgument_of_not_mem argument]
  have none : MeshOption.ofWord? (groupKey group) = none :=
    Option.eq_none_iff_forall_ne_some.mpr fun option read =>
      unknown option (MeshOption.eq_word_of_ofWord? read)
  unfold groupCalls
  rw [key, none]

/-! ### The values of options -/

/-- Tokens of numbers are read as these numbers. -/
theorem mapM_readNumber {option : MeshOption} {tokens : List (List Char)} {numbers : List Float}
    (readings : tokens.map number? = numbers.map some) :
    tokens.mapM (readNumber option) = .ok numbers :=
  mapM_eq_ok_of_map (fun token number read => by rw [readNumber, read]) readings

/-- Tokens of counts are read as these counts. -/
theorem mapM_readCount {option : MeshOption} {tokens : List (List Char)} {counts : List Nat}
    (readings : tokens.map count? = counts.map some) :
    tokens.mapM (readCount option) = .ok counts :=
  mapM_eq_ok_of_map (fun token count read => by rw [readCount, read]) readings

/-- The vector of three numbers. -/
def vectorOf : List Float → Vec3 Float
  | [x, y, z] => ⟨x, y, z⟩
  | _ => Vec3.fill 0

/-- The opposite corners of a box given by six numbers. -/
def cornersOf : List Float → Vec3 Float × Vec3 Float
  | [a, b, c, d, e, f] => (⟨a, b, c⟩, ⟨d, e, f⟩)
  | _ => (Vec3.fill 0, Vec3.fill 0)

/-- Three numbers are read in order. -/
theorem readVector_eq_map (option : MeshOption) {argument : List Char}
    (counted : (valueTokens argument).length = 3) :
    readVector option argument =
      ((valueTokens argument).mapM (readNumber option)).map vectorOf := by
  obtain ⟨a, b, c, whole⟩ := List.length_eq_three.mp counted
  unfold readVector
  rw [whole]
  simp only [List.mapM_cons, List.mapM_nil]
  rcases readNumber option a with _ | x
  · rfl
  rcases readNumber option b with _ | y
  · rfl
  cases readNumber option c <;> rfl

/-- Six numbers are read in order. -/
theorem readCorners_eq_map (option : MeshOption) {argument : List Char}
    (counted : (valueTokens argument).length = 6) :
    readCorners option argument =
      ((valueTokens argument).mapM (readNumber option)).map cornersOf := by
  unfold readCorners
  match valueTokens argument, counted with
  | [a, b, c, d, e, f], _ =>
    simp only [List.mapM_cons, List.mapM_nil]
    -- both sides end with the first value that cannot be read
    rcases readNumber option a with _ | a
    · rfl
    rcases readNumber option b with _ | b
    · rfl
    rcases readNumber option c with _ | c
    · rfl
    rcases readNumber option d with _ | d
    · rfl
    rcases readNumber option e with _ | e
    · rfl
    cases readNumber option f <;> rfl

/-- The calls that pairs of an axis and an angle ask for, once the angles are read. -/
def turnsOf : List (List Char) → List Float → List (Setting Float)
  | axis :: _ :: rest, degrees :: more =>
    match Axis.ofText axis with
    | .ok axis => .turn axis degrees :: turnsOf rest more
    | .error _ => turnsOf rest more
  | _, _ => []

/-- The angles of rotations are read in order. -/
theorem turnCalls_eq_map (tokens : List (List Char)) :
    turnCalls tokens = ((everySecond tokens).mapM (readNumber .rotate)).map (turnsOf tokens) := by
  fun_induction turnCalls tokens with
  | case1 axis angle rest ih =>
    rw [everySecond, List.mapM_cons, ih]
    rcases readNumber .rotate angle with _ | degrees
    · rfl
    rcases (everySecond rest).mapM (readNumber .rotate) with _ | more
    · rfl
    cases found : Axis.ofText axis with
    | ok named =>
      have built : turnsOf (axis :: angle :: rest) (degrees :: more) =
          .turn named degrees :: turnsOf rest more := by rw [turnsOf, found]
      exact congrArg Except.ok built.symm
    | error error =>
      have built : turnsOf (axis :: angle :: rest) (degrees :: more) = turnsOf rest more := by
        rw [turnsOf, found]
      exact congrArg Except.ok built.symm
  | case2 tokens short =>
    cases tokens with
    | nil => rfl
    | cons axis rest =>
      cases rest with
      | nil => rfl
      | cons angle rest => exact absurd rfl (short _ _ _)

/-- Apart from a split, an option with as many values as it wants reads its numbers in
order and asks for calls with them. -/
theorem argumentCalls_eq_map {processes : Nat} {option : MeshOption} (other : option ≠ .zdecomp)
    {argument : List Char} (counted : option.Takes processes (valueTokens argument).length) :
    ∃ build : List Float → List (Setting Float), argumentCalls processes option argument =
      ((option.numerals (valueTokens argument)).mapM (readNumber option)).map build := by
  cases option with
  | zdecomp => exact absurd rfl other
  | shell => exact ⟨fun _ => letterCalls argument, rfl⟩
  | summary | usage => exact ⟨fun _ => [], rfl⟩
  | scale =>
    have read := readVector_eq_map .scale (counted _ rfl)
    refine ⟨fun values => [.scale (vectorOf values)], ?_⟩
    rw [argumentCalls, MeshOption.numerals, read]
    cases (valueTokens argument).mapM (readNumber .scale) <;> rfl
  | offset =>
    have read := readVector_eq_map .offset (counted _ rfl)
    refine ⟨fun values => [.offset (vectorOf values)], ?_⟩
    rw [argumentCalls, MeshOption.numerals, read]
    cases (valueTokens argument).mapM (readNumber .offset) <;> rfl
  | bbox =>
    have read := readCorners_eq_map .bbox (counted _ rfl)
    refine ⟨fun values => [.box (cornersOf values).1 (cornersOf values).2], ?_⟩
    rw [argumentCalls, MeshOption.numerals, read]
    cases (valueTokens argument).mapM (readNumber .bbox) <;> rfl
  | rotate =>
    have even : (valueTokens argument).length % 2 = 0 := counted _ rfl
    refine ⟨turnsOf (valueTokens argument), ?_⟩
    rw [argumentCalls, if_pos even, MeshOption.numerals, turnCalls_eq_map]

/-- A split with a count for each process asks for the split that is read in order. -/
theorem argumentCalls_zdecomp {processes : Nat} {argument : List Char}
    (counted : (valueTokens argument).length = processes) :
    argumentCalls processes .zdecomp argument =
      ((valueTokens argument).mapM (readCount .zdecomp)).map fun counts => [.split counts] := by
  rw [argumentCalls, readCounts, if_pos counted]

/-- A split with a count for each process, all of them readable, asks for that split. -/
theorem argumentCalls_zdecomp_eq_ok {processes : Nat} {argument : List Char}
    (counted : (valueTokens argument).length = processes)
    (numeric : ∀ value ∈ valueTokens argument, ∃ count, count? value = some count) :
    argumentCalls processes .zdecomp argument =
        .ok [.split ((valueTokens argument).filterMap count?)] ∧
      ((valueTokens argument).filterMap count?).length = processes := by
  have readings := map_eq_map_filterMap numeric
  have same := congrArg List.length readings
  rw [List.length_map, List.length_map] at same
  refine ⟨?_, same.symm.trans counted⟩
  rw [argumentCalls_zdecomp counted, mapM_readCount readings]
  rfl

/-- A number that an option reads. -/
theorem exists_readNumber {option : MeshOption} (other : option ≠ .zdecomp) {value : List Char}
    (read : option.Reads value) : ∃ number, readNumber option value = .ok number := by
  have found : ∃ number, number? value = some number := by
    cases option with
    | zdecomp => exact absurd rfl other
    | _ => exact read
  obtain ⟨number, found⟩ := found
  exact ⟨number, by rw [readNumber, found]⟩

/-- A number that an option does not read. -/
theorem readNumber_eq_error {option : MeshOption} (other : option ≠ .zdecomp)
    {value : List Char} (unread : ¬option.Reads value) :
    readNumber option value = .error (.invalidNumber option.word (String.ofList value)) := by
  have none : number? value = none := by
    refine Option.eq_none_iff_forall_ne_some.mpr fun number found => unread ?_
    cases option with
    | zdecomp => exact absurd rfl other
    | _ => exact ⟨number, found⟩
  rw [readNumber, none]

/-- An option stops at its first value that cannot be read. -/
theorem argumentCalls_eq_error {processes : Nat} {option : MeshOption} {argument : List Char}
    (counted : option.Takes processes (valueTokens argument).length)
    {before after : List (List Char)} {value : List Char}
    (place : option.numerals (valueTokens argument) = before ++ value :: after)
    (read : ∀ earlier ∈ before, option.Reads earlier) (unread : ¬option.Reads value) :
    argumentCalls processes option argument =
      .error (.invalidNumber option.word (String.ofList value)) := by
  by_cases split : option = .zdecomp
  · subst split
    have values : valueTokens argument = before ++ value :: after := place
    have missing : count? value = none :=
      Option.eq_none_iff_forall_ne_some.mpr fun count found => unread ⟨count, found⟩
    have wrong : readCount .zdecomp value =
        .error (.invalidNumber MeshOption.zdecomp.word (String.ofList value)) := by
      rw [readCount, missing]
    have each : ∀ earlier ∈ before, ∃ count, readCount .zdecomp earlier = .ok count := by
      intro earlier listed
      obtain ⟨count, found⟩ := read earlier listed
      exact ⟨count, by rw [readCount, found]⟩
    rw [argumentCalls_zdecomp (counted _ rfl), values, mapM_eq_error each wrong]
    rfl
  · obtain ⟨build, calls⟩ := argumentCalls_eq_map split counted
    have each : ∀ earlier ∈ before, ∃ number, readNumber option earlier = .ok number :=
      fun earlier listed => exists_readNumber split (read earlier listed)
    rw [calls, place, mapM_eq_error each (readNumber_eq_error split unread)]
    rfl

/-- An option with the wrong number of values is refused before any is read. -/
theorem argumentCalls_of_wrong_count {processes : Nat} {option : MeshOption}
    {argument : List Char} {wanted : ValueCount} (wants : option.wants processes = some wanted)
    (wrong : ¬wanted.Admits (valueTokens argument).length) :
    argumentCalls processes option argument =
      .error (.wrongValueCount option.word wanted (valueTokens argument).length) := by
  cases option with
  | shell | summary | usage => cases wants
  | zdecomp =>
    obtain rfl := Option.some.inj wants
    have other : ¬(valueTokens argument).length = processes := wrong
    rw [argumentCalls, readCounts, if_neg other]
    rfl
  | rotate =>
    obtain rfl := Option.some.inj wants
    have uneven : ¬(valueTokens argument).length % 2 = 0 := wrong
    rw [argumentCalls, if_neg uneven]
  | scale | offset =>
    obtain rfl := Option.some.inj wants
    unfold argumentCalls readVector
    dsimp only
    split
    · rename_i whole
      exact absurd (congrArg List.length whole) wrong
    · rfl
  | bbox =>
    obtain rfl := Option.some.inj wants
    unfold argumentCalls readCorners
    dsimp only
    split
    · rename_i whole
      exact absurd (congrArg List.length whole) wrong
    · rfl

/-! ### A mesh and a group -/

/-- The values of a group are those of its trimmed argument. -/
theorem valueTokens_trim (group : List Char) :
    valueTokens (trim (groupArgument group)) = groupValues group :=
  fields_trim marks_comma _

/-- What becomes of a split with a count for each process. -/
theorem inTurn_split {mesh : Mesh Float} {counts : List Nat}
    (counted : counts.length = mesh.layout.count) :
    mesh.inTurn [.split counts] =
      if Word.limit ≤ counts.sum then .error .overflow
      else if counts.sum < mesh.layout.count then
        .error (.insufficientIntervals counts.sum mesh.layout.count)
      else .ok { mesh with
        numZ := counts.sum, slab := (ZSplit.listed counts).slab mesh.layout } := by
  change ((setZSplit counts).finish mesh).bind .ok = _
  rw [Attempt.finish, run_setZSplit, if_neg (not_not.mpr counted)]
  by_cases exceeds : Word.limit ≤ counts.sum
  · rw [if_pos exceeds, if_pos exceeds]
    rfl
  rw [if_neg exceeds, if_neg exceeds]
  by_cases few : counts.sum < mesh.layout.count
  · rw [if_pos few, if_pos few]
    rfl
  · rw [if_neg few, if_neg few]
    rfl

/-- A mesh takes a group that passes. -/
theorem applyGroup_of_passes {mesh : Mesh Float} {group : List Char}
    (passes : GroupPasses mesh.layout.count group) :
    ∃ next, (mesh.applyGroup group).mesh = .ok next := by
  rw [mesh_applyGroup]
  by_cases known : ∃ option, Asks group option
  case neg =>
    push Not at known
    exact ⟨mesh, by rw [groupCalls_of_unknown known]; rfl⟩
  obtain ⟨option, asks⟩ := known
  have given := passes option asks
  by_cases argument : ':' ∈ group
  case neg =>
    have alone : standsAlone option = true := by
      by_contra needed
      exact argument (given.argument (Bool.eq_false_iff.mpr needed))
    refine ⟨mesh, ?_⟩
    rw [groupCalls_of_not_mem asks argument, if_pos alone]
    cases option with
    | summary | usage => rfl
    | _ => cases alone
  rw [groupCalls_of_mem asks argument]
  by_cases split : option = .zdecomp
  · subst split
    have counted : (groupValues group).length = mesh.layout.count := given.counted _ rfl
    have numeric : ∀ value ∈ groupValues group, ∃ count, count? value = some count :=
      given.numeric
    have within := given.within rfl
    have enough := given.enough rfl
    rw [← valueTokens_trim] at counted numeric within enough
    obtain ⟨calls, same⟩ := argumentCalls_zdecomp_eq_ok counted numeric
    have outcome := inTurn_split same
    rw [calls]
    rw [if_neg (Nat.not_le.mpr within), if_neg (Nat.not_lt.mpr enough)] at outcome
    exact ⟨_, outcome⟩
  · have counted := given.counted
    have numeric := given.numeric
    rw [← valueTokens_trim] at counted numeric
    obtain ⟨build, calls⟩ := argumentCalls_eq_map split counted
    obtain ⟨numbers, read⟩ := exists_mapM_eq_ok fun value listed =>
      exists_readNumber split (numeric value listed)
    rw [read] at calls
    rw [calls]
    exact exists_inTurn (isPlain_of_argumentCalls split calls) mesh

/-- A mesh answers a group that has a fault with that fault. -/
theorem applyGroup_of_fault {mesh : Mesh Float} {group : List Char} {error : MeshError}
    (fault : GroupFault mesh.layout.count group error) :
    (mesh.applyGroup group).mesh = .error error := by
  rw [mesh_applyGroup]
  obtain ⟨option, asks, fault⟩ := fault
  cases fault with
  | missingArgument needed missing =>
    rw [groupCalls_of_not_mem asks missing, if_neg (Bool.eq_false_iff.mp needed)]
    rfl
  | wrongValueCount argument wants wrong =>
    rw [← valueTokens_trim] at wrong ⊢
    rw [groupCalls_of_mem asks argument, argumentCalls_of_wrong_count wants wrong]
    rfl
  | invalidNumber argument counted place read unread =>
    rw [← valueTokens_trim] at counted place
    rw [groupCalls_of_mem asks argument, argumentCalls_eq_error counted place read unread]
    rfl
  | overflow argument split counted numeric exceeds =>
    subst split
    rw [← valueTokens_trim] at counted numeric exceeds
    obtain ⟨calls, same⟩ := argumentCalls_zdecomp_eq_ok counted numeric
    have outcome := inTurn_split same
    rw [groupCalls_of_mem asks argument, calls]
    rwa [if_pos exceeds] at outcome
  | insufficientIntervals argument split counted numeric within few =>
    subst split
    rw [← valueTokens_trim] at counted numeric within few ⊢
    obtain ⟨calls, same⟩ := argumentCalls_zdecomp_eq_ok counted numeric
    have outcome := inTurn_split same
    rw [groupCalls_of_mem asks argument, calls]
    rwa [if_neg (Nat.not_le.mpr within), if_pos few] at outcome

/-- Every group passes or has a fault. -/
theorem passes_or_fault (processes : Nat) (group : List Char) :
    GroupPasses processes group ∨ ∃ error, GroupFault processes group error := by
  by_cases passes : GroupPasses processes group
  · exact .inl passes
  unfold GroupPasses at passes
  push Not at passes
  obtain ⟨option, asks, fails⟩ := passes
  suffices fault : ∃ error, OptionFault processes group option error from
    .inr (fault.imp fun error fault => ⟨option, asks, fault⟩)
  -- the conditions are tried in the order in which their faults are answered
  by_cases argument : ':' ∈ group
  case neg =>
    cases option with
    | summary | usage =>
      refine absurd ⟨fun needed => ?_, fun wanted wants => ?_, List.forall_mem_nil _,
        fun split => ?_, fun split => ?_⟩ fails
      · cases needed
      · cases wants
      · cases split
      · cases split
    | _ => exact ⟨_, .missingArgument rfl argument⟩
  by_cases counted : option.Takes processes (groupValues group).length
  case neg =>
    unfold MeshOption.Takes at counted
    push Not at counted
    obtain ⟨wanted, wants, wrong⟩ := counted
    exact ⟨_, .wrongValueCount argument wants wrong⟩
  obtain numeric | ⟨before, value, after, place, read, unread⟩ :=
    forall_or_exists_first option.Reads (option.numerals (groupValues group))
  case inr => exact ⟨_, .invalidNumber argument counted place read unread⟩
  by_cases within : option = .zdecomp → ((groupValues group).filterMap count?).sum < Word.limit
  case neg =>
    push Not at within
    obtain ⟨rfl, exceeds⟩ := within
    exact ⟨_, .overflow argument rfl (counted _ rfl) numeric exceeds⟩
  by_cases enough : option = .zdecomp → processes ≤ ((groupValues group).filterMap count?).sum
  case pos => exact absurd ⟨fun _ => argument, counted, numeric, within, enough⟩ fails
  push Not at enough
  obtain ⟨rfl, few⟩ := enough
  exact ⟨_, .insufficientIntervals argument rfl (counted _ rfl) numeric (within rfl) few⟩

end Mesh

end HexSlab
