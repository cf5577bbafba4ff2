import HexSlab.Mesh.ParameterText
import HexSlab.Proofs.Mesh.SetterCalls

/-!
# A line as the setter calls it asks for

Reading a group of a line never looks at the mesh: it leads to a list of setter
calls, or to an error. The mesh that a line describes is therefore the one made of
its intervals by these calls, group after group, up to the first error, and every
process of a run reads the same mesh or meets the same error.
-/

namespace HexSlab

/-- The mesh of a reading that goes on from another. -/
theorem MeshReading.mesh_andThen (reading : MeshReading) (next : Mesh Float → MeshReading) :
    (reading.andThen next).mesh = reading.mesh.bind fun mesh => (next mesh).mesh := by
  rcases reading with ⟨_ | mesh, journal⟩ <;> rfl

/-- A step after another succeeds only where both do. -/
theorem exists_of_bind_eq_ok {ε α β : Type} {first : Except ε α} {next : α → Except ε β} {b : β}
    (made : first.bind next = .ok b) : ∃ a, first = .ok a ∧ next a = .ok b := by
  cases first with
  | error error => cases made
  | ok a => exact ⟨a, rfl, made⟩

/-- A result that was changed is the change of a result. -/
theorem exists_of_map_eq_ok {ε α β : Type} {first : Except ε α} {change : α → β} {b : β}
    (made : first.map change = .ok b) : ∃ a, first = .ok a ∧ change a = b := by
  cases first with
  | error error => cases made
  | ok a => exact ⟨a, rfl, Except.ok.inj made⟩

/-- The call is one that no mesh refuses. -/
def Setting.isPlain {R : Type} : Setting R → Bool
  | .split _ => false
  | .turnNamed _ _ => false
  | _ => true

/-- A call that no mesh refuses names no split. -/
theorem Setting.isSplit_eq_false {R : Type} {setting : Setting R}
    (plain : setting.isPlain = true) : setting.isSplit = false := by
  cases setting with
  | split counts => cases plain
  | _ => rfl

namespace Mesh

section Calls

variable {R : Type} [Scalar R] [Trigonometry R]

/-- The mesh after setter calls one after the other, up to the first that fails. -/
def inTurn (mesh : Mesh R) (settings : List (Setting R)) : Except MeshError (Mesh R) :=
  settings.foldlM (fun mesh setting => setting.apply mesh) mesh

/-- Calls in turn begin with the first. -/
theorem inTurn_cons (mesh : Mesh R) (setting : Setting R) (rest : List (Setting R)) :
    mesh.inTurn (setting :: rest) = (setting.apply mesh).bind fun next => next.inTurn rest :=
  rfl

/-- Calls in turn begin with those of a first list. -/
theorem inTurn_append (mesh : Mesh R) (settings rest : List (Setting R)) :
    mesh.inTurn (settings ++ rest) =
      (mesh.inTurn settings).bind fun next => next.inTurn rest :=
  List.foldlM_append

/-- Calls that no mesh refuses all succeed. -/
theorem exists_inTurn {settings : List (Setting R)}
    (plain : ∀ setting ∈ settings, setting.isPlain = true) (mesh : Mesh R) :
    ∃ next, mesh.inTurn settings = .ok next := by
  induction settings generalizing mesh with
  | nil => exact ⟨mesh, rfl⟩
  | cons setting rest ih =>
    rw [List.forall_mem_cons] at plain
    cases setting with
    | split | turnNamed => cases plain.1
    | scale | offset | box | shells | turn => exact ih plain.2 _

/-- Calls in turn have the same outcome on all processes of a run, and keep the split if
none of them names one. -/
theorem Accepted.agree_inTurn {mesh : Mesh R} {split : ZSplit} (accepted : mesh.Accepted split)
    (settings : List (Setting R)) :
    Agree mesh.layout.count
      (fun other => (∀ setting ∈ settings, setting.isSplit = false) → other = split)
      fun layout => (mesh.seenFrom split layout).inTurn settings := by
  induction settings generalizing mesh split with
  | nil => exact .make mesh split accepted rfl (fun _ => rfl) fun _ _ => rfl
  | cons setting rest ih =>
    refine (accepted.agree_apply setting).bind fun next middle kept after count => ?_
    rw [← count]
    refine (ih after).mono fun other stays none => ?_
    obtain ⟨first, others⟩ := List.forall_mem_cons.mp none
    exact (stays others).trans (kept first)

/-- Calls in turn keep the layout, and the mesh accepted. -/
theorem Accepted.inTurn {mesh next : Mesh R} {split : ZSplit} {settings : List (Setting R)}
    (accepted : mesh.Accepted split) (made : mesh.inTurn settings = .ok next) :
    ∃ other, next.layout = mesh.layout ∧ next.Accepted other :=
  (accepted.agree_inTurn settings).accepted (fun mesh => mesh.inTurn settings) accepted made

end Calls

/-- The calls that letters of faces ask for. -/
def letterCalls (letters : List Char) : List (Setting Float) :=
  letters.filterMap fun c => (Face.ofLetter? c).map .shells

/-- The calls that pairs of an axis and an angle ask for. -/
def turnCalls : List (List Char) → Except MeshError (List (Setting Float))
  | axis :: angle :: rest => do
    let degrees ← readNumber .rotate angle
    let later ← turnCalls rest
    match Axis.ofText axis with
    | .ok axis => return .turn axis degrees :: later
    | .error _ => return later
  | _ => return []

/-- The calls that an option asks for with its argument, in a run of some processes. -/
def argumentCalls (processes : Nat) (option : MeshOption) (argument : List Char) :
    Except MeshError (List (Setting Float)) :=
  match option with
  | .shell => .ok (letterCalls argument)
  | .scale => (readVector option argument).map fun value => [.scale value]
  | .offset => (readVector option argument).map fun value => [.offset value]
  | .bbox => (readCorners option argument).map fun box => [.box box.1 box.2]
  | .zdecomp => (readCounts option processes argument).map fun counts => [.split counts]
  | .rotate =>
    if (valueTokens argument).length % 2 = 0 then turnCalls (valueTokens argument)
    else .error (.wrongValueCount option.word .anyEven (valueTokens argument).length)
  | .summary => .ok []
  | .usage => .ok []

/-- The calls that a group asks for. -/
def groupCalls (processes : Nat) (group : List Char) : Except MeshError (List (Setting Float)) :=
  match MeshOption.ofWord? (keyAndArgument group).1, (keyAndArgument group).2 with
  | none, _ => .ok []
  | some option, some argument => argumentCalls processes option argument
  | some option, none =>
    if standsAlone option then argumentCalls processes option []
    else .error (.missingArgument option.word)

/-- Letters of faces add their shells in turn. -/
theorem mesh_addLetters (mesh : Mesh Float) (letters : List Char) :
    (mesh.addLetters letters).mesh = mesh.inTurn (letterCalls letters) := by
  induction letters generalizing mesh with
  | nil => rfl
  | cons c rest ih =>
    unfold addLetters letterCalls
    rw [List.filterMap_cons]
    cases Face.ofLetter? c with
    | none => exact ih mesh
    | some face => exact ih (mesh.addShells face)

/-- Pairs of an axis and an angle rotate in turn. -/
theorem mesh_rotateInTurn (mesh : Mesh Float) (tokens : List (List Char)) :
    (mesh.rotateInTurn tokens).mesh = (turnCalls tokens).bind mesh.inTurn := by
  fun_induction turnCalls tokens generalizing mesh with
  | case1 axis angle rest ih =>
    unfold rotateInTurn rotateNamed
    cases readNumber .rotate angle with
    | error error => rfl
    | ok degrees =>
      cases Axis.ofText axis with
      | ok axis =>
        refine (ih (mesh.rotate axis degrees)).trans ?_
        cases turnCalls rest <;> rfl
      | error error =>
        refine (ih mesh).trans ?_
        cases turnCalls rest <;> rfl
  | case2 tokens short =>
    unfold rotateInTurn
    split
    · exact absurd rfl (short _ _ _)
    · rfl

/-- An option with its argument makes the calls that it asks for. -/
theorem mesh_applyArgument (mesh : Mesh Float) (option : MeshOption) (argument : List Char) :
    (mesh.applyArgument option argument).mesh =
      (argumentCalls mesh.layout.count option argument).bind mesh.inTurn := by
  unfold applyArgument argumentCalls
  cases option with
  | shell => exact mesh_addLetters mesh argument
  | scale | offset => cases readVector _ argument <;> rfl
  | bbox => cases readCorners _ argument <;> rfl
  | zdecomp =>
    cases readCounts _ mesh.layout.count argument with
    | error error => rfl
    | ok counts =>
      change (setZSplit counts).finish mesh = ((setZSplit counts).finish mesh).bind .ok
      cases (setZSplit counts).finish mesh <;> rfl
  | rotate =>
    unfold applyTurns
    dsimp only
    split
    · exact mesh_rotateInTurn mesh _
    · rfl
  | summary | usage => rfl

/-- A group makes the calls that it asks for. -/
theorem mesh_applyGroup (mesh : Mesh Float) (group : List Char) :
    (mesh.applyGroup group).mesh = (groupCalls mesh.layout.count group).bind mesh.inTurn := by
  unfold applyGroup groupCalls
  dsimp only
  cases MeshOption.ofWord? (keyAndArgument group).1 with
  | none => rfl
  | some option =>
    cases (keyAndArgument group).2 with
    | some argument => exact mesh_applyArgument mesh option argument
    | none =>
      dsimp only
      split
      · exact mesh_applyArgument mesh option []
      · rfl

/-- Groups make their calls one after the other, up to the first error. -/
theorem mesh_applyGroups_cons (mesh : Mesh Float) (group : List Char) (rest : List (List Char)) :
    (mesh.applyGroups (group :: rest)).mesh =
      ((groupCalls mesh.layout.count group).bind mesh.inTurn).bind fun next =>
        (next.applyGroups rest).mesh := by
  rw [← mesh_applyGroup]
  exact MeshReading.mesh_andThen _ _

/-- The group asks for a split along Z. -/
def IsSplitGroup (group : List Char) : Prop :=
  MeshOption.ofWord? (keyAndArgument group).1 = some .zdecomp

/-- No mesh refuses the rotations about axes that were read. -/
theorem isPlain_of_turnCalls {tokens : List (List Char)} {settings : List (Setting Float)}
    (read : turnCalls tokens = .ok settings) : ∀ setting ∈ settings, setting.isPlain = true := by
  fun_induction turnCalls tokens generalizing settings with
  | case1 axis angle rest ih =>
    obtain ⟨degrees, -, read⟩ := exists_of_bind_eq_ok read
    obtain ⟨later, more, read⟩ := exists_of_bind_eq_ok read
    have others := ih more
    split at read
    · have whole := Except.ok.inj read
      rw [← whole, List.forall_mem_cons]
      exact ⟨rfl, others⟩
    · have whole := Except.ok.inj read
      rw [← whole]
      exact others
  | case2 tokens short =>
    have none := Except.ok.inj read
    rw [← none]
    exact List.forall_mem_nil _

/-- Only one option asks for calls that a mesh may refuse. -/
theorem isPlain_of_argumentCalls {processes : Nat} {option : MeshOption} {argument : List Char}
    {settings : List (Setting Float)} (other : option ≠ .zdecomp)
    (read : argumentCalls processes option argument = .ok settings) :
    ∀ setting ∈ settings, setting.isPlain = true := by
  cases option with
  | zdecomp => exact absurd rfl other
  | rotate =>
    unfold argumentCalls at read
    dsimp only at read
    split at read
    · exact isPlain_of_turnCalls read
    · cases read
  | shell =>
    have faces := Except.ok.inj read
    intro setting listed
    rw [← faces, letterCalls, List.mem_filterMap] at listed
    obtain ⟨letter, -, found⟩ := listed
    obtain ⟨face, -, rfl⟩ := Option.map_eq_some_iff.mp found
    rfl
  | scale | offset | bbox =>
    obtain ⟨value, -, whole⟩ := exists_of_map_eq_ok read
    rw [← whole, List.forall_mem_singleton]
    rfl
  | summary | usage =>
    have none := Except.ok.inj read
    rw [← none]
    exact List.forall_mem_nil _

/-- Groups that ask for no split lead to calls that no mesh refuses. -/
theorem isPlain_of_groupCalls {processes : Nat} {group : List Char}
    {settings : List (Setting Float)} (other : ¬IsSplitGroup group)
    (read : groupCalls processes group = .ok settings) :
    ∀ setting ∈ settings, setting.isPlain = true := by
  unfold groupCalls at read
  split at read
  · have none := Except.ok.inj read
    rw [← none]
    exact List.forall_mem_nil _
  · rename_i option argument word _
    refine isPlain_of_argumentCalls ?_ read
    rintro rfl
    exact other word
  · rename_i option word _
    split at read
    · refine isPlain_of_argumentCalls ?_ read
      rintro rfl
      exact other word
    · cases read

/-- A group leads to the same mesh, or the same error, on all processes of a run, and keeps
the split if it asks for none. -/
theorem Accepted.agree_applyGroup {mesh : Mesh Float} {split : ZSplit}
    (accepted : mesh.Accepted split) (group : List Char) :
    Agree mesh.layout.count (fun other => ¬IsSplitGroup group → other = split) fun layout =>
      ((mesh.seenFrom split layout).applyGroup group).mesh := by
  have calls (layout : Layout) (same : layout.count = mesh.layout.count) :
      ((mesh.seenFrom split layout).applyGroup group).mesh =
        (groupCalls mesh.layout.count group).bind (mesh.seenFrom split layout).inTurn := by
    rw [mesh_applyGroup, ← same]
    rfl
  cases read : groupCalls mesh.layout.count group with
  | error error =>
    refine .fail error fun layout same => ?_
    rw [calls layout same, read]
    rfl
  | ok settings =>
    have agree := (accepted.agree_inTurn settings).mono fun other stays unasked =>
      stays fun setting listed =>
        Setting.isSplit_eq_false (isPlain_of_groupCalls unasked read setting listed)
    refine agree.congr fun layout same => ?_
    rw [calls layout same, read]
    rfl

/-- A group keeps the layout, and the mesh accepted. -/
theorem Accepted.applyGroup {mesh next : Mesh Float} {split : ZSplit} {group : List Char}
    (accepted : mesh.Accepted split) (made : (mesh.applyGroup group).mesh = .ok next) :
    ∃ other, next.layout = mesh.layout ∧ next.Accepted other :=
  (accepted.agree_applyGroup group).accepted (fun mesh => (mesh.applyGroup group).mesh)
    accepted made

/-- Groups lead to the same mesh, or the same error, on all processes of a run, and keep
the split if none of them asks for one. -/
theorem Accepted.agree_applyGroups {mesh : Mesh Float} {split : ZSplit}
    (accepted : mesh.Accepted split) (groups : List (List Char)) :
    Agree mesh.layout.count
      (fun other => (∀ group ∈ groups, ¬IsSplitGroup group) → other = split)
      fun layout => ((mesh.seenFrom split layout).applyGroups groups).mesh := by
  induction groups generalizing mesh split with
  | nil => exact .make mesh split accepted rfl (fun _ => rfl) fun _ _ => rfl
  | cons group rest ih =>
    have step : Agree mesh.layout.count
        (fun other => (∀ asked ∈ group :: rest, ¬IsSplitGroup asked) → other = split)
        fun layout => ((mesh.seenFrom split layout).applyGroup group).mesh.bind fun next =>
          (next.applyGroups rest).mesh := by
      refine (accepted.agree_applyGroup group).bind fun next middle kept after count => ?_
      rw [← count]
      refine (ih after).mono fun other stays none => ?_
      obtain ⟨first, others⟩ := List.forall_mem_cons.mp none
      exact (stays others).trans (kept first)
    exact step.congr fun layout _ => MeshReading.mesh_andThen _ _

/-- The line asks for a split along Z, after its intervals. -/
def IsSplitLine (line : String) : Prop := ∃ group ∈ (groups line.toList).tail, IsSplitGroup group

/-- A line leads to the same mesh, or the same error, on all processes of a run. The mesh
is evenly split unless the line asks for a split. -/
theorem agree_ofText (line : String) (processes : Nat) :
    Agree processes (fun split => ¬IsSplitLine line → ∃ intervals, split = .even intervals)
      fun layout => (ofText line layout).mesh := by
  unfold ofText
  cases parts : groups line.toList with
  | nil => exact .fail _ fun _ _ => rfl
  | cons intervals options =>
    dsimp only
    cases readIntervals intervals with
    | error error => exact .fail error fun _ _ => rfl
    | ok counts =>
      have made := agree_ofIntervals (R := Float) counts.1 counts.2.1 counts.2.2 processes
      have read : Agree processes
          (fun split => ¬IsSplitLine line → ∃ intervals, split = .even intervals)
          fun layout => (ofIntervals counts.1 counts.2.1 counts.2.2 layout).bind fun mesh =>
            (mesh.applyGroups options).mesh := by
        refine made.bind fun mesh split even accepted count => ?_
        rw [← count]
        refine (accepted.agree_applyGroups options).mono fun other stays unasked => ?_
        refine ⟨counts.2.2, (stays fun group listed asks => unasked ⟨group, ?_, asks⟩).trans even⟩
        rw [parts]
        exact listed
      exact read.congr fun layout _ => MeshReading.mesh_andThen _ _

end Mesh

end HexSlab
