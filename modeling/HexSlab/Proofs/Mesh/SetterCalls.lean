import HexSlab.Proofs.Mesh.Configuration

/-!
# Runs of setters

A mesh comes from its intervals by a sequence of setter calls, some of which may be
refused. One lemma says what a call does on all processes of a run: it is refused on all
of them and leaves each mesh as it was, or it is taken on all of them. What every
accepted configuration satisfies is kept by each call and therefore by each sequence, and
the processes differ in nothing but the slab that they look at.
-/

namespace HexSlab

/-- A call of a setter with its arguments. -/
inductive Setting (R : Type) where
  /-- Set the distance of neighbouring nodes. -/
  | scale (value : Vec3 R)
  /-- Set the place of the first node. -/
  | offset (value : Vec3 R)
  /-- Fill a box. -/
  | box (low high : Vec3 R)
  /-- Add a block of shells. -/
  | shells (face : Face)
  /-- Rotate about an axis. -/
  | turn (axis : Axis) (degrees : R)
  /-- Rotate about an axis given by its name. -/
  | turnNamed (axis : List Char) (degrees : R)
  /-- Name the number of intervals along Z of each process. -/
  | split (counts : List Nat)

/-- The call names a split along Z. -/
def Setting.isSplit {R : Type} : Setting R → Bool
  | .split _ => true
  | _ => false

/-- The call names a split whose sum exceeds a word, in a run of some processes. -/
def Setting.Overflows {R : Type} (processes : Nat) : Setting R → Prop
  | .split counts => counts.length = processes ∧ Word.limit ≤ counts.sum
  | _ => False

variable {R : Type} [Scalar R] [Trigonometry R]

/-- What a setter call does to a mesh. -/
def Setting.attempt : Setting R → Attempt (Mesh R) MeshError Unit
  | .scale value => .update fun mesh => mesh.setScale value
  | .offset value => .update fun mesh => mesh.setOffset value
  | .box low high => .update fun mesh => mesh.setBox low high
  | .shells face => .update fun mesh => mesh.addShells face
  | .turn axis degrees => .update fun mesh => mesh.rotate axis degrees
  | .turnNamed axis degrees => Mesh.rotateNamed axis degrees
  | .split counts => Mesh.setZSplit counts

/-- The outcome of a setter call on a mesh. -/
def Setting.apply (mesh : Mesh R) (setting : Setting R) : Except MeshError (Mesh R) :=
  setting.attempt.finish mesh

namespace Mesh

/-- The mesh after a setter call, whether or not it succeeded. -/
def afterSetting (mesh : Mesh R) (setting : Setting R) : Mesh R := (setting.attempt.run mesh).2

/-- The mesh after a sequence of setter calls. -/
def configure (mesh : Mesh R) : List (Setting R) → Mesh R
  | [] => mesh
  | setting :: rest => (mesh.afterSetting setting).configure rest

/-- What goes on after a setter call: the mesh as the call leaves it, taken or refused,
unless the call ends with an overflow. -/
def proceed (mesh : Mesh R) (setting : Setting R) : Except MeshError (Mesh R) :=
  match setting.attempt.run mesh with
  | (.error .overflow, _) => .error .overflow
  | (_, after) => .ok after

/-- The mesh after a sequence of setter calls, up to the first overflow. -/
def perform (mesh : Mesh R) : List (Setting R) → Except MeshError (Mesh R)
  | [] => .ok mesh
  | setting :: rest => (mesh.proceed setting).bind fun after => after.perform rest

/-- The mesh that one process builds: its intervals and then a sequence of
setter calls. -/
def build (numX numY numZ : Nat) (settings : List (Setting R)) (layout : Layout) :
    Except MeshError (Mesh R) :=
  (ofIntervals numX numY numZ layout).bind fun mesh => mesh.perform settings

/-- What a setter call does on a process that sees a mesh in its split: it is refused and
leaves the view as it was, with an overflow exactly if the call is one, or it is taken. -/
inductive Called (mesh : Mesh R) (split : ZSplit) (call : Setting R) : Prop where
  /-- All processes refuse the call. -/
  | refused (error : MeshError)
    (alike : ∀ layout : Layout, layout.count = mesh.layout.count →
      call.attempt.run (mesh.seenFrom split layout) =
        (.error error, mesh.seenFrom split layout))
    (overflow : error = .overflow ↔ call.Overflows mesh.layout.count)
  /-- All processes take the call, which may change the split if it names one. -/
  | taken (next : Mesh R) (other : ZSplit) (accepted : next.Accepted other)
    (layout : next.layout = mesh.layout)
    (alike : ∀ layout : Layout, layout.count = mesh.layout.count →
      call.attempt.run (mesh.seenFrom split layout) = (.ok (), next.seenFrom other layout))
    (kept : call.isSplit = false → other = split) (within : ¬call.Overflows mesh.layout.count)

omit [Scalar R] [Trigonometry R] in
/-- The intervals decide about an accepted mesh; its placement and shells do not. -/
theorem Accepted.of_intervals {mesh next : Mesh R} {split : ZSplit}
    (accepted : mesh.Accepted split) (numX : next.numX = mesh.numX) (numY : next.numY = mesh.numY)
    (numZ : next.numZ = mesh.numZ) (slab : next.slab = mesh.slab)
    (layout : next.layout = mesh.layout) : next.Accepted split where
  numX_pos := numX ▸ accepted.numX_pos
  numY_pos := numY ▸ accepted.numY_pos
  fits := layout ▸ accepted.fits
  numZ_eq := numZ.trans accepted.numZ_eq
  slab_eq := slab.trans (layout ▸ accepted.slab_eq)

/-- A call that names a split is refused for the number of its counts, for a sum that
exceeds a word or for one that is too small, and otherwise taken. -/
theorem Accepted.called_split {mesh : Mesh R} {split : ZSplit} (accepted : mesh.Accepted split)
    (counts : List Nat) : mesh.Called split (.split counts) := by
  have run (layout : Layout) := run_setZSplit (mesh.seenFrom split layout) counts
  have own {layout : Layout} (same : layout.count = mesh.layout.count) :
      (mesh.seenFrom split layout).layout.count = mesh.layout.count := same
  by_cases counted : counts.length = mesh.layout.count
  case neg =>
    refine .refused (.wrongValueCount "zdecomp" (.perProcess mesh.layout.count) counts.length)
      (fun layout same => (run layout).trans ?_) (iff_of_false nofun fun past => counted past.1)
    rw [own same, if_pos counted]
  by_cases exceeds : Word.limit ≤ counts.sum
  case pos =>
    refine .refused .overflow (fun layout same => (run layout).trans ?_)
      (iff_of_true rfl ⟨counted, exceeds⟩)
    rw [own same, if_neg (not_not_intro counted), if_pos exceeds]
  by_cases few : counts.sum < mesh.layout.count
  case pos =>
    refine .refused (.insufficientIntervals counts.sum mesh.layout.count)
      (fun layout same => (run layout).trans ?_) (iff_of_false nofun fun past => exceeds past.2)
    rw [own same, if_neg (not_not_intro counted), if_neg exceeds, if_pos few]
  let next : Mesh R :=
    { mesh with numZ := counts.sum, slab := (ZSplit.listed counts).slab mesh.layout }
  refine .taken next (.listed counts) ?_ rfl (fun layout same => (run layout).trans ?_) nofun
    fun past => exceeds past.2
  · exact ⟨accepted.numX_pos, accepted.numY_pos, ⟨counted, Nat.le_of_not_lt few⟩, rfl, rfl⟩
  · rw [own same, if_neg (not_not_intro counted), if_neg exceeds, if_neg few]
    rfl

/-- Every setter call is refused on all processes of a run or taken on all of them. -/
theorem Accepted.called {mesh : Mesh R} {split : ZSplit} (accepted : mesh.Accepted split)
    (call : Setting R) : mesh.Called split call := by
  cases call with
  | scale value =>
    have after : (mesh.setScale value).Accepted split := accepted.of_intervals rfl rfl rfl rfl rfl
    exact .taken _ split after rfl (fun _ _ => rfl) (fun _ => rfl) id
  | offset value =>
    have after : (mesh.setOffset value).Accepted split := accepted.of_intervals rfl rfl rfl rfl rfl
    exact .taken _ split after rfl (fun _ _ => rfl) (fun _ => rfl) id
  | box low high =>
    have after : (mesh.setBox low high).Accepted split := accepted.of_intervals rfl rfl rfl rfl rfl
    exact .taken _ split after rfl (fun _ _ => rfl) (fun _ => rfl) id
  | shells face =>
    have after : (mesh.addShells face).Accepted split := accepted.of_intervals rfl rfl rfl rfl rfl
    exact .taken _ split after rfl (fun _ _ => rfl) (fun _ => rfl) id
  | turn axis degrees =>
    have after : (mesh.rotate axis degrees).Accepted split :=
      accepted.of_intervals rfl rfl rfl rfl rfl
    exact .taken _ split after rfl (fun _ _ => rfl) (fun _ => rfl) id
  | turnNamed name degrees =>
    have run (layout : Layout) := run_rotateNamed (mesh.seenFrom split layout) name degrees
    cases named : Axis.ofText name with
    | ok axis =>
      have after : (mesh.rotate axis degrees).Accepted split :=
        accepted.of_intervals rfl rfl rfl rfl rfl
      refine .taken _ split after rfl (fun layout _ => (run layout).trans ?_) (fun _ => rfl) id
      rw [named]
      rfl
    | error error =>
      refine .refused error (fun layout _ => (run layout).trans ?_)
        (iff_of_false (Axis.ne_overflow_of_ofText named) id)
      rw [named]
  | split counts => exact accepted.called_split counts

/-- All processes of a run meet the same error, or each has its view of one accepted mesh,
which is dealt out in an admitted way. -/
inductive Agree (processes : Nat) (admitted : ZSplit → Prop)
    (outcome : Layout → Except MeshError (Mesh R)) : Prop where
  /-- All meet the same error. -/
  | fail (error : MeshError)
    (all : ∀ layout : Layout, layout.count = processes → outcome layout = .error error)
  /-- All have a view of one mesh. -/
  | make (mesh : Mesh R) (split : ZSplit) (accepted : mesh.Accepted split)
    (count : mesh.layout.count = processes) (admits : admitted split)
    (all : ∀ layout : Layout, layout.count = processes →
      outcome layout = .ok (mesh.seenFrom split layout))

section Agreement

variable {processes : Nat} {admitted further : ZSplit → Prop}
  {outcome : Layout → Except MeshError (Mesh R)}

omit [Scalar R] [Trigonometry R] in
/-- Processes that agree still agree after a step on which all views of a mesh agree. -/
theorem Agree.bind {step : Mesh R → Except MeshError (Mesh R)}
    (first : Agree processes admitted outcome)
    (later : ∀ (mesh : Mesh R) (split : ZSplit), admitted split → mesh.Accepted split →
      mesh.layout.count = processes →
      Agree processes further fun layout => step (mesh.seenFrom split layout)) :
    Agree processes further fun layout => (outcome layout).bind step := by
  cases first with
  | fail error all =>
    refine .fail error fun layout same => ?_
    rw [all layout same]
    rfl
  | make mesh split accepted count admits all =>
    cases later mesh split admits accepted count with
    | fail error after =>
      refine .fail error fun layout same => ?_
      rw [all layout same]
      exact after layout same
    | make next other accepted count admits after =>
      refine .make next other accepted count admits fun layout same => ?_
      rw [all layout same]
      exact after layout same

omit [Scalar R] [Trigonometry R] in
/-- Where processes agree, the mesh of one of them is accepted for a split in which all
others see it. -/
theorem Agree.exists_split (agree : Agree processes admitted outcome) {layout : Layout}
    (run : layout.count = processes) {mesh : Mesh R} (made : outcome layout = .ok mesh) :
    ∃ split, admitted split ∧ mesh.layout = layout ∧ mesh.Accepted split ∧
      ∀ other : Layout, other.count = processes →
        outcome other = .ok (mesh.seenFrom split other) := by
  cases agree with
  | fail error all => cases made.symm.trans (all layout run)
  | make seen split accepted count admits all =>
    obtain rfl : mesh = seen.seenFrom split layout :=
      Except.ok.inj (made.symm.trans (all layout run))
    exact ⟨split, admits, rfl, accepted.seenFrom (run.trans count.symm), all⟩

omit [Scalar R] [Trigonometry R] in
/-- Processes that agree in an admitted way agree in every way that it allows for. -/
theorem Agree.mono (agree : Agree processes admitted outcome)
    (weaker : ∀ split, admitted split → further split) : Agree processes further outcome := by
  cases agree with
  | fail error all => exact .fail error all
  | make mesh split accepted count admits all =>
    exact .make mesh split accepted count (weaker split admits) all

omit [Scalar R] [Trigonometry R] in
/-- Agreement is about the processes of the run alone. -/
theorem Agree.congr {other : Layout → Except MeshError (Mesh R)}
    (agree : Agree processes admitted other)
    (same : ∀ layout : Layout, layout.count = processes → outcome layout = other layout) :
    Agree processes admitted outcome := by
  cases agree with
  | fail error all => exact .fail error fun layout run => (same layout run).trans (all layout run)
  | make mesh split accepted count admits all =>
    exact .make mesh split accepted count admits fun layout run =>
      (same layout run).trans (all layout run)

omit [Scalar R] [Trigonometry R] in
/-- What agreeing processes make of a mesh is accepted and keeps the layout. -/
theorem Agree.accepted {mesh next : Mesh R} {split : ZSplit}
    (step : Mesh R → Except MeshError (Mesh R)) (accepted : mesh.Accepted split)
    (agree : Agree mesh.layout.count admitted fun layout => step (mesh.seenFrom split layout))
    (made : step mesh = .ok next) :
    ∃ other, next.layout = mesh.layout ∧ next.Accepted other := by
  rw [← accepted.seenFrom_self] at made
  obtain ⟨other, -, layout, after, -⟩ := agree.exists_split rfl made
  exact ⟨other, layout, after⟩

omit [Trigonometry R] in
/-- Intervals are accepted on all processes of a run or on none. -/
theorem agree_ofIntervals (numX numY numZ processes : Nat) :
    Agree processes (fun split => split = .even numZ) fun layout =>
      (ofIntervals numX numY numZ layout : Except MeshError (Mesh R)) := by
  by_cases none : numX = 0 ∨ numY = 0 ∨ numZ = 0
  · exact .fail _ fun layout same => (ofIntervals_eq ..).trans (if_pos none)
  by_cases few : numZ < processes
  · refine .fail (.insufficientIntervals numZ processes) fun layout same => ?_
    rw [ofIntervals_eq, if_neg none, same, if_pos few]
  rcases Nat.eq_zero_or_pos processes with rfl | some
  · exact .fail .overflow fun layout same => absurd (same ▸ layout.rank_lt) (Nat.not_lt_zero _)
  let first : Layout := ⟨processes, 0, some⟩
  refine .make (unit numX numY numZ first) (.even numZ) (accepted_unit ?_) rfl rfl
    fun layout same => ?_
  · exact ⟨by omega, by omega, Nat.le_of_not_lt few⟩
  · rw [ofIntervals_eq, if_neg none, same, if_neg few]
    rfl

/-- A setter call is taken on all processes of a run or refused on all, and keeps the
split unless it names one. -/
theorem Accepted.agree_apply {mesh : Mesh R} {split : ZSplit} (accepted : mesh.Accepted split)
    (call : Setting R) :
    Agree mesh.layout.count (fun other => call.isSplit = false → other = split) fun layout =>
      call.apply (mesh.seenFrom split layout) := by
  unfold Setting.apply Attempt.finish
  cases accepted.called call with
  | refused error alike _ =>
    refine .fail error fun layout same => ?_
    rw [alike layout same]
  | taken next other after layout alike kept _ =>
    refine .make next other after (congrArg Layout.count layout) kept fun layout same => ?_
    rw [alike layout same]

/-- After a refused call that is no overflow, the mesh is as it was left. -/
theorem proceed_of_refused {mesh after : Mesh R} {call : Setting R} {error : MeshError}
    (refused : call.attempt.run mesh = (.error error, after)) (other : error ≠ .overflow) :
    mesh.proceed call = .ok after := by
  unfold proceed
  rw [refused]
  split
  · rename_i past
    exact absurd (Except.error.inj (Prod.mk.inj past).1) other
  · rename_i same
    rw [(Prod.mk.inj same).2]

/-- A call that is taken, or refused without an overflow, is gone on from on all
processes. -/
theorem Accepted.agree_proceed {mesh : Mesh R} {split : ZSplit} (accepted : mesh.Accepted split)
    (call : Setting R) :
    Agree mesh.layout.count (fun _ => True) fun layout =>
      (mesh.seenFrom split layout).proceed call := by
  cases accepted.called call with
  | refused error alike _ =>
    by_cases past : error = .overflow
    · refine .fail .overflow fun layout same => ?_
      rw [proceed, alike layout same, past]
    · exact .make mesh split accepted rfl trivial fun layout same =>
        proceed_of_refused (alike layout same) past
  | taken next other after layout alike _ _ =>
    refine .make next other after (congrArg Layout.count layout) trivial fun layout same => ?_
    rw [proceed, alike layout same]

/-- A sequence of setter calls ends at an overflow on all processes or leads to views of
one mesh. -/
theorem Accepted.agree_perform {mesh : Mesh R} {split : ZSplit} (accepted : mesh.Accepted split)
    (calls : List (Setting R)) :
    Agree mesh.layout.count (fun _ => True) fun layout =>
      (mesh.seenFrom split layout).perform calls := by
  induction calls generalizing mesh split with
  | nil => exact .make mesh split accepted rfl trivial fun _ _ => rfl
  | cons call rest ih =>
    refine (accepted.agree_proceed call).bind fun next other _ after count => ?_
    rw [← count]
    exact ih after

/-- All processes build the same mesh, or meet the same error. -/
theorem agree_build (numX numY numZ processes : Nat) (settings : List (Setting R)) :
    Agree processes (fun _ => True) (build numX numY numZ settings) := by
  refine (agree_ofIntervals numX numY numZ processes).bind fun mesh split _ accepted count => ?_
  rw [← count]
  exact accepted.agree_perform settings

/-- A mesh that was built is accepted for a split in which every other process of the run
builds its own view of it. -/
theorem exists_split_of_build {numX numY numZ : Nat} {settings : List (Setting R)}
    {layout : Layout} {mesh : Mesh R} (built : build numX numY numZ settings layout = .ok mesh) :
    ∃ split, mesh.layout = layout ∧ mesh.Accepted split ∧
      ∀ other : Layout, other.count = layout.count →
        build numX numY numZ settings other = .ok (mesh.seenFrom split other) := by
  obtain ⟨split, -, seen⟩ :=
    (agree_build numX numY numZ layout.count settings).exists_split rfl built
  exact ⟨split, seen⟩

end Agreement

section Sequences

/-- Among calls on a mesh, one that names a split is accepted. -/
def SplitTaken (mesh : Mesh R) : List (Setting R) → Prop
  | [] => False
  | call :: rest =>
    (call.isSplit = true ∧ ∃ next, call.apply mesh = .ok next) ∨
      (mesh.afterSetting call).SplitTaken rest

/-- A change that all processes make leads from one accepted mesh to another, each with
its own split. -/
structure Leads (change : Mesh R → Mesh R) (mesh : Mesh R) (split other : ZSplit) : Prop where
  /-- The changed mesh is accepted. -/
  accepted : (change mesh).Accepted other
  /-- It is seen from the same process. -/
  layout : (change mesh).layout = mesh.layout
  /-- Every process that saw the mesh sees the changed one. -/
  alike : ∀ layout : Layout, layout.count = mesh.layout.count →
    change (mesh.seenFrom split layout) = (change mesh).seenFrom other layout

/-- A call leads all processes to one mesh, whether it is taken or refused. The split
stays unless the call names one and is taken. -/
theorem Accepted.leads_afterSetting {mesh : Mesh R} {split : ZSplit}
    (accepted : mesh.Accepted split) (call : Setting R) :
    ∃ other, Leads (fun mesh => mesh.afterSetting call) mesh split other ∧
      (¬(call.isSplit = true ∧ ∃ next, call.apply mesh = .ok next) → other = split) := by
  have own := accepted.seenFrom_self
  unfold afterSetting
  cases accepted.called call with
  | refused error alike _ =>
    have here := alike mesh.layout rfl
    rw [own] at here
    refine ⟨split, ⟨?_, ?_, fun layout same => ?_⟩, fun _ => rfl⟩
    · simpa only [here] using accepted
    · rw [here]
    · simp only [alike layout same, here]
  | taken next other after layout alike kept _ =>
    have here := alike mesh.layout rfl
    rw [own, ← layout, after.seenFrom_self] at here
    refine ⟨other, ⟨?_, ?_, fun layout same => ?_⟩, fun untaken => kept ?_⟩
    · simpa only [here] using after
    · rw [here, layout]
    · simp only [alike layout same, here]
    · refine Bool.eq_false_iff.mpr fun named => untaken ⟨named, next, ?_⟩
      rw [Setting.apply, Attempt.finish, here]

/-- A sequence of calls leads all processes to one mesh. The split stays as long as no
call that names one is taken. -/
theorem Accepted.leads_configure {mesh : Mesh R} {split : ZSplit}
    (accepted : mesh.Accepted split) (calls : List (Setting R)) :
    ∃ other, Leads (fun mesh => mesh.configure calls) mesh split other ∧
      (¬mesh.SplitTaken calls → other = split) := by
  induction calls generalizing mesh split with
  | nil => exact ⟨split, ⟨accepted, rfl, fun _ _ => rfl⟩, fun _ => rfl⟩
  | cons call rest ih =>
    obtain ⟨middle, first, kept⟩ := accepted.leads_afterSetting call
    obtain ⟨other, later, stays⟩ := ih first.accepted
    refine ⟨other, ⟨later.accepted, later.layout.trans first.layout, fun layout same => ?_⟩, ?_⟩
    · have next := later.alike layout (same.trans (congrArg Layout.count first.layout).symm)
      exact (congrArg (fun mesh => mesh.configure rest) (first.alike layout same)).trans next
    · intro untaken
      obtain ⟨here, after⟩ := not_or.mp untaken
      exact (stays after).trans (kept here)

/-- A call is refused and leaves the mesh as it was, with an overflow exactly if it is
one, or it is taken. -/
theorem Accepted.run_call {mesh : Mesh R} {split : ZSplit} (accepted : mesh.Accepted split)
    (call : Setting R) :
    (∃ error, call.attempt.run mesh = (.error error, mesh) ∧
      (error = .overflow ↔ call.Overflows mesh.layout.count)) ∨
    ∃ next, call.attempt.run mesh = (.ok (), next) ∧ ¬call.Overflows mesh.layout.count := by
  have own := accepted.seenFrom_self
  cases accepted.called call with
  | refused error alike overflow =>
    have run := alike mesh.layout rfl
    rw [own] at run
    exact .inl ⟨error, run, overflow⟩
  | taken next other _ _ alike _ within =>
    have run := alike mesh.layout rfl
    rw [own] at run
    exact .inr ⟨_, run, within⟩

/-- A call that overflows ends what goes on, and after any other one the mesh is as the
call leaves it. -/
theorem Accepted.proceed_eq {mesh : Mesh R} {split : ZSplit} (accepted : mesh.Accepted split)
    (call : Setting R) :
    call.Overflows mesh.layout.count ∧ mesh.proceed call = .error .overflow ∨
      ¬call.Overflows mesh.layout.count ∧ mesh.proceed call = .ok (mesh.afterSetting call) := by
  obtain ⟨error, run, overflow⟩ | ⟨next, run, within⟩ := accepted.run_call call
  · by_cases past : call.Overflows mesh.layout.count
    · refine .inl ⟨past, ?_⟩
      rw [proceed, run, overflow.mpr past]
    · refine .inr ⟨past, ?_⟩
      rw [proceed_of_refused run (mt overflow.mp past), afterSetting, run]
  · refine .inr ⟨within, ?_⟩
    rw [proceed, afterSetting, run]

/-- A sequence of calls ends with an overflow if one of them overflows, and otherwise with
the mesh that they all lead to. -/
theorem Accepted.perform_eq {mesh : Mesh R} {split : ZSplit} (accepted : mesh.Accepted split)
    (calls : List (Setting R)) :
    (∃ call ∈ calls, call.Overflows mesh.layout.count) ∧
        mesh.perform calls = .error .overflow ∨
      (∀ call ∈ calls, ¬call.Overflows mesh.layout.count) ∧
        mesh.perform calls = .ok (mesh.configure calls) := by
  induction calls generalizing mesh split with
  | nil => exact .inr ⟨List.forall_mem_nil _, rfl⟩
  | cons call rest ih =>
    obtain ⟨past, ends⟩ | ⟨within, goes⟩ := accepted.proceed_eq call
    · refine .inl ⟨⟨call, List.mem_cons_self, past⟩, ?_⟩
      rw [perform, ends]
      rfl
    obtain ⟨other, leads, -⟩ := accepted.leads_afterSetting call
    have later := ih leads.accepted
    rw [leads.layout] at later
    rw [perform, goes]
    obtain ⟨⟨last, listed, past⟩, ends⟩ | ⟨others, made⟩ := later
    · exact .inl ⟨⟨last, List.mem_cons_of_mem call listed, past⟩, ends⟩
    · exact .inr ⟨List.forall_mem_cons.mpr ⟨within, others⟩, made⟩

end Sequences

/-- A step that succeeds on every member of a list succeeds on the list. -/
theorem mapM_eq_pure {m : Type → Type} [Monad m] [LawfulMonad m] {α β : Type} {step : α → m β}
    {value : α → β} {items : List α} (each : ∀ item ∈ items, step item = pure (value item)) :
    items.mapM step = pure (items.map value) := by
  induction items with
  | nil => rfl
  | cons item rest ih =>
    have first := each item List.mem_cons_self
    have later := ih fun other listed => each other (List.mem_cons_of_mem item listed)
    simp only [List.mapM_cons, first, later, pure_bind, List.map_cons]

/-- Every member of the list of layouts belongs to the run. -/
theorem count_of_mem_all {count : Nat} {layout : Layout} (listed : layout ∈ Layout.all count) :
    layout.count = count := by
  unfold Layout.all at listed
  obtain ⟨rank, -, rfl⟩ := List.mem_map.mp listed
  rfl

/-- The views that all processes of a run build. -/
theorem mapM_build {numX numY numZ processes : Nat} {settings : List (Setting R)}
    {mesh : Mesh R} {split : ZSplit}
    (alike : ∀ layout : Layout, layout.count = processes →
      build numX numY numZ settings layout = .ok (mesh.seenFrom split layout)) :
    (Layout.all processes).mapM (build numX numY numZ settings) =
      .ok ((Layout.all processes).map (mesh.seenFrom split)) :=
  mapM_eq_pure fun _ listed => alike _ (count_of_mem_all listed)

end Mesh

end HexSlab
