import HexSlab.Proofs.Mesh.LineCalls
import HexSlab.Proofs.Mesh.NodeSharing

/-!
# The processes of a run stay in step

Every process configures its mesh alone, from the same intervals or the same line and
by the same calls. What it answers does not depend on its rank, so after any number of
calls, taken or refused, the processes differ in nothing but the slab they look at, and
their slabs follow one another from the bottom of the intervals to the top. As long as
no split was named, the slabs are as equal as they can be. All this ends where a split is
named whose sum no word holds: there all processes stop.
-/

namespace HexSlab

/-- What the mesh of a run is made from. -/
inductive Origin where
  /-- The intervals along the three axes. -/
  | intervals (numX numY numZ : Nat)
  /-- A line of text. -/
  | line (text : String)

namespace Origin

/-- The mesh that one process makes. -/
def mesh (origin : Origin) (layout : Layout) : Except MeshError (Mesh Float) :=
  match origin with
  | .intervals numX numY numZ => Mesh.ofIntervals numX numY numZ layout
  | .line text => (Mesh.ofText text layout).mesh

/-- The split along Z is named at the start. -/
def NamesSplit : Origin → Prop
  | .intervals _ _ _ => False
  | .line text => Mesh.IsSplitLine text

/-- All processes of a run make the same mesh or meet the same error. The mesh is evenly
split if no split was named. -/
theorem agree_mesh (origin : Origin) (processes : Nat) :
    Mesh.Agree processes
      (fun split => ¬origin.NamesSplit → ∃ intervals, split = .even intervals) origin.mesh := by
  cases origin with
  | intervals numX numY numZ =>
    exact (Mesh.agree_ofIntervals numX numY numZ processes).mono fun _ even _ => ⟨numZ, even⟩
  | line text => exact Mesh.agree_ofText text processes

end Origin

/-- The place of a rank among all processes of a run. -/
def Layout.ofFin {count : Nat} (rank : Fin count) : Layout := ⟨count, rank.val, rank.isLt⟩

variable {processes : Nat}

/-- The processes of a run are in step: each has its own slab of one mesh. -/
structure InStep (state : Fin processes → Mesh Float) : Prop where
  /-- Each process looks at the mesh from its own place. -/
  own : ∀ rank, (state rank).layout = .ofFin rank
  /-- The meshes of two processes have the same intervals, placement and shells. -/
  same : ∀ rank other, state other =
    { state rank with layout := .ofFin other, slab := (state other).slab }
  /-- Two processes give the same answer to a call: that it is taken, or the same error. -/
  answers : ∀ rank other (call : Setting Float),
    (call.attempt.run (state other)).1 = (call.attempt.run (state rank)).1
  /-- A call that fails changes nothing. -/
  refusals : ∀ rank (call : Setting Float) (error : MeshError),
    (call.attempt.run (state rank)).1 = .error error →
      (call.attempt.run (state rank)).2 = state rank
  /-- The slab of the first process begins at the bottom. -/
  bottom : ∀ rank, rank.val = 0 → (state rank).slab.start = 0
  /-- Each slab ends where the next one begins. -/
  joined : ∀ rank next : Fin processes, next.val = rank.val + 1 →
    (state rank).slab.start + (state rank).slab.count = (state next).slab.start
  /-- The slab of the last process ends at the top. -/
  top : ∀ rank, rank.val + 1 = processes →
    (state rank).slab.start + (state rank).slab.count = (state rank).numZ

/-- The slabs of a run are as equal as they can be. -/
structure Balanced (state : Fin processes → Mesh Float) : Prop where
  /-- Each process has an equal share or one interval more. -/
  shares : ∀ rank, (state rank).slab.count = (state rank).numZ / processes ∨
    (state rank).slab.count = (state rank).numZ / processes + 1
  /-- Later processes have no more intervals than earlier ones. -/
  falling : ∀ rank later, rank ≤ later → (state later).slab.count ≤ (state rank).slab.count
  /-- Each process has an interval. -/
  filled : ∀ rank, 1 ≤ (state rank).slab.count

namespace Mesh

/-- Processes that see one acceptable mesh are in step. -/
theorem Accepted.inStep {mesh : Mesh Float} {split : ZSplit} (accepted : mesh.Accepted split)
    (run : mesh.layout.count = processes) :
    InStep fun rank : Fin processes => mesh.seenFrom split (.ofFin rank) where
  own := fun _ => rfl
  same := fun _ _ => rfl
  answers := by
    intro rank other call
    cases accepted.called call with
    | refused error alike _ => rw [alike _ run.symm, alike _ run.symm]
    | taken next _ _ _ alike _ _ => rw [alike _ run.symm, alike _ run.symm]
  refusals := by
    intro rank call error refused
    cases accepted.called call with
    | refused error alike _ => rw [alike _ run.symm]
    | taken next _ _ _ alike _ _ =>
      rw [alike _ run.symm] at refused
      cases refused
  bottom := by
    intro rank first
    have here : (mesh.seenFrom split (.ofFin rank)).layout.rank = 0 := first
    rw [(accepted.seenFrom run.symm).start_slab, here, ZSplit.boundary_zero]
  joined := by
    intro rank next later
    rw [(accepted.seenFrom run.symm).start_add_count_slab,
      (accepted.seenFrom run.symm).start_slab]
    exact congrArg (split.boundary processes) later.symm
  top := by
    intro rank last
    have here : (mesh.seenFrom split (.ofFin rank)).layout.rank + 1 =
        (mesh.seenFrom split (.ofFin rank)).layout.count := last
    have there : (mesh.seenFrom split (.ofFin rank)).Accepted split := accepted.seenFrom run.symm
    rw [there.start_add_count_slab, here, there.boundary_processes]

/-- An even split that fits is balanced. -/
theorem Accepted.balanced {mesh : Mesh Float} {intervals : Nat}
    (accepted : mesh.Accepted (.even intervals)) (run : mesh.layout.count = processes) :
    Balanced fun rank : Fin processes => mesh.seenFrom (.even intervals) (.ofFin rank) := by
  have fits : processes ≤ intervals := run ▸ accepted.fits
  have some : 0 < processes := run ▸ Nat.zero_lt_of_lt mesh.layout.rank_lt
  have share : 0 < intervals / processes := Nat.div_pos fits some
  have total (rank : Fin processes) :
      (mesh.seenFrom (.even intervals) (.ofFin rank)).numZ = intervals := accepted.numZ_eq
  have own (rank : Fin processes) :
      (mesh.seenFrom (.even intervals) (.ofFin rank)).slab.count =
        intervals / processes + if rank.val < intervals % processes then 1 else 0 := rfl
  constructor
  · intro rank
    rw [own rank, total rank]
    split
    · exact .inr rfl
    · exact .inl rfl
  · intro rank later rise
    rw [own rank, own later]
    have rise : rank.val ≤ later.val := rise
    split <;> split <;> omega
  · intro rank
    rw [own rank]
    omega

/-- On every run, whatever the mesh is made from, either all processes meet the same
error, or all make a mesh. Calls on all of them end with an overflow on all, if one of the
calls names a split whose sum no word holds. After any other calls, taken or refused, the
processes are in step, and balanced as long as no split was named and taken. -/
theorem ranks_agree_and_tile (origin : Origin) (processes : Nat) :
    (∃ error, ∀ rank : Fin processes, origin.mesh (.ofFin rank) = .error error) ∨
    ∃ meshes : Fin processes → Mesh Float,
      (∀ rank, origin.mesh (.ofFin rank) = .ok (meshes rank)) ∧
      ∀ calls : List (Setting Float),
        (∃ call ∈ calls, call.Overflows processes) ∧
          (∀ rank, (meshes rank).perform calls = .error .overflow) ∨
        (∀ call ∈ calls, ¬call.Overflows processes) ∧
          ∃ state : Fin processes → Mesh Float,
            (∀ rank, (meshes rank).perform calls = .ok (state rank)) ∧ InStep state ∧
            (¬origin.NamesSplit → (∀ rank, ¬(meshes rank).SplitTaken calls) →
              Balanced state) := by
  rcases Nat.eq_zero_or_pos processes with rfl | some
  · exact .inl ⟨.overflow, fun rank => rank.elim0⟩
  let first : Fin processes := ⟨0, some⟩
  cases origin.agree_mesh processes with
  | fail error all => exact .inl ⟨error, fun rank => all _ rfl⟩
  | make mesh split accepted count even all =>
    refine .inr ⟨fun rank => mesh.seenFrom split (.ofFin rank), fun rank => all _ rfl, ?_⟩
    intro calls
    have view (rank : Fin processes) :
        (mesh.seenFrom split (.ofFin rank)).Accepted split := accepted.seenFrom count.symm
    by_cases past : ∃ call ∈ calls, call.Overflows processes
    · refine .inl ⟨past, fun rank => ?_⟩
      obtain ⟨-, ends⟩ | ⟨within, -⟩ := (view rank).perform_eq calls
      · exact ends
      · obtain ⟨call, listed, exceeds⟩ := past
        exact absurd exceeds (within call listed)
    have within : ∀ call ∈ calls, ¬call.Overflows processes :=
      fun call listed exceeds => past ⟨call, listed, exceeds⟩
    refine .inr ⟨within, fun rank => (mesh.seenFrom split (.ofFin rank)).configure calls,
      fun rank => ?_, ?_⟩
    · obtain ⟨exceeds, -⟩ | ⟨-, made⟩ := (view rank).perform_eq calls
      · exact absurd exceeds past
      · exact made
    -- after the calls all processes see the mesh that the first one has then
    obtain ⟨other, leads, stays⟩ := (view first).leads_configure calls
    have views : (fun rank : Fin processes =>
        (mesh.seenFrom split (.ofFin rank)).configure calls) =
        fun rank => ((mesh.seenFrom split (.ofFin first)).configure calls).seenFrom other
          (.ofFin rank) :=
      funext fun rank => leads.alike (.ofFin rank) rfl
    have run : ((mesh.seenFrom split (.ofFin first)).configure calls).layout.count = processes :=
      congrArg Layout.count leads.layout
    rw [views]
    refine ⟨leads.accepted.inStep run, fun unnamed untaken => ?_⟩
    obtain ⟨intervals, rfl⟩ := even unnamed
    obtain rfl := stays (untaken first)
    exact leads.accepted.balanced run

/-- Five layers on three processes, with a split for two processes and a rotation about
no axis, both refused: the slabs stay balanced. -/
theorem ranks_agree_and_tile_uneven :
    ∃ meshes : Fin 3 → Mesh Float,
      (∀ rank, (Origin.intervals 1 1 5).mesh (.ofFin rank) = .ok (meshes rank)) ∧
      ∃ state : Fin 3 → Mesh Float,
        (∀ rank, (meshes rank).perform [.split [2, 3], .turnNamed ['q'] 30] =
          .ok (state rank)) ∧ InStep state ∧ Balanced state := by
  rcases ranks_agree_and_tile (.intervals 1 1 5) 3 with ⟨error, all⟩ | ⟨meshes, made, after⟩
  · cases all 0
  refine ⟨meshes, made, ?_⟩
  obtain ⟨⟨call, listed, exceeds⟩, -⟩ | ⟨-, state, done, step, balanced⟩ :=
    after [.split [2, 3], .turnNamed ['q'] 30]
  · rcases List.mem_pair.mp listed with rfl | rfl
    · exact absurd exceeds.1 (by decide)
    · exact absurd exceeds id
  refine ⟨state, done, step, balanced id fun rank => ?_⟩
  have here : unit 1 1 5 (.ofFin rank) = meshes rank := Except.ok.inj (made rank)
  rw [← here]
  rintro (⟨-, next, accepted⟩ | ⟨none, -⟩ | none)
  · cases accepted
  · cases none
  · exact none

/-- Five layers on three processes, and a split of more layers than words hold: naming it
to the setter or in the line ends with an overflow, and no process has a slab of it. -/
theorem split_past_words_untaken :
    (∃ meshes : Fin 3 → Mesh Float,
      (∀ rank, (Origin.intervals 1 1 5).mesh (.ofFin rank) = .ok (meshes rank)) ∧
      ∀ rank, (meshes rank).perform [.split [18446744073709551615, 1, 5]] = .error .overflow) ∧
    ∀ rank : Fin 3, (Origin.line "1x1x5|zdecomp:18446744073709551615,1,5").mesh (.ofFin rank) =
      .error .overflow :=
  ⟨⟨fun rank => unit 1 1 5 (.ofFin rank), fun _ => rfl, fun _ => rfl⟩, fun _ => rfl⟩

end Mesh

end HexSlab
