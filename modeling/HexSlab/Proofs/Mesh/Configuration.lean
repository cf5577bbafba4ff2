import HexSlab.Mesh.Basic
import HexSlab.Proofs.Words

/-!
# Accepted configurations

The intervals along the third axis are dealt out by a split, evenly or by a number for
each process, and the slab of a process is what the split deals out to it. What the
checks of the setters establish is said for a mesh and its split. A setter that can fail
does nothing before all that can fail, and what it does is said by one equation.
-/

namespace HexSlab

/-- How the intervals along Z are dealt out. -/
inductive ZSplit where
  /-- As evenly as possible. -/
  | even (intervals : Nat)
  /-- By a number for each process. -/
  | listed (counts : List Nat)

namespace ZSplit

/-- The number of intervals that are dealt out. -/
def total : ZSplit → Nat
  | .even intervals => intervals
  | .listed counts => counts.sum

/-- The slab of one process. -/
def slab (layout : Layout) : ZSplit → Slab
  | .even intervals => .even intervals layout
  | .listed counts => ⟨(counts.take layout.rank).sum, counts.getD layout.rank 0⟩

/-- A split deals out enough intervals for a run, and a listed one names a
number for each process. -/
def Fits (processes : Nat) : ZSplit → Prop
  | .even intervals => processes ≤ intervals
  | .listed counts => counts.length = processes ∧ processes ≤ counts.sum

/-- A split that fits deals out at least one interval for each process. -/
theorem Fits.le_total {processes : Nat} {split : ZSplit} (fits : split.Fits processes) :
    processes ≤ split.total := by
  cases split with
  | even intervals => exact fits
  | listed counts => exact fits.2

end ZSplit

/-- A text that names no axis is refused, and not for an overflow. -/
theorem Axis.ne_overflow_of_ofText {name : List Char} {error : MeshError}
    (refused : Axis.ofText name = .error error) : error ≠ .overflow := by
  unfold Axis.ofText at refused
  rintro rfl
  split at refused <;> cases refused

/-- What the setters establish, for one split of the intervals along Z. -/
structure Mesh.Accepted {R : Type} (mesh : Mesh R) (split : ZSplit) : Prop where
  /-- There are intervals along X. -/
  numX_pos : 0 < mesh.numX
  /-- There are intervals along Y. -/
  numY_pos : 0 < mesh.numY
  /-- The split fits the run. -/
  fits : split.Fits mesh.layout.count
  /-- The split deals out the intervals along Z. -/
  numZ_eq : mesh.numZ = split.total
  /-- The slab is that of this process. -/
  slab_eq : mesh.slab = split.slab mesh.layout

namespace Mesh

variable {R : Type} {split : ZSplit}

/-- There are intervals along Z, since a run has at least one process. -/
theorem Accepted.numZ_pos {mesh : Mesh R} (accepted : mesh.Accepted split) : 0 < mesh.numZ := by
  have enough := accepted.fits.le_total
  have inside := mesh.layout.rank_lt
  have total := accepted.numZ_eq
  omega

/-- The same mesh seen from another process, which has its own slab of the split. -/
def seenFrom (mesh : Mesh R) (split : ZSplit) (layout : Layout) : Mesh R :=
  { mesh with slab := split.slab layout, layout := layout }

/-- An accepted mesh is its own view. -/
theorem Accepted.seenFrom_self {mesh : Mesh R} (accepted : mesh.Accepted split) :
    mesh.seenFrom split mesh.layout = mesh := by
  have own := accepted.slab_eq
  cases mesh
  simp only [seenFrom, Mesh.mk.injEq, true_and, and_true]
  exact own.symm

/-- Seen from another process of its run, a mesh is as acceptable as before. -/
theorem Accepted.seenFrom {mesh : Mesh R} (accepted : mesh.Accepted split) {layout : Layout}
    (same : layout.count = mesh.layout.count) : (mesh.seenFrom split layout).Accepted split where
  numX_pos := accepted.numX_pos
  numY_pos := accepted.numY_pos
  fits := by
    have fits := accepted.fits
    rw [← same] at fits
    exact fits
  numZ_eq := accepted.numZ_eq
  slab_eq := rfl

section Setters

/-- Adding up numbers of intervals, if a word holds their sum. -/
theorem run_sumIntervals_of_lt {counts : List Nat} (fits : counts.sum < Word.limit)
    (mesh : Mesh R) : (sumIntervals counts).run mesh = (.ok counts.sum, mesh) := by
  unfold sumIntervals
  rw [Word.sum?_eq, Word.of?_of_lt fits]
  rfl

/-- Adding up numbers of intervals, if no word holds their sum. -/
theorem run_sumIntervals_of_le {counts : List Nat} (exceeds : Word.limit ≤ counts.sum)
    (mesh : Mesh R) : (sumIntervals counts).run mesh = (.error .overflow, mesh) := by
  unfold sumIntervals
  rw [Word.sum?_eq, Word.of?_of_le exceeds]
  rfl

/-- What naming a split does. No part of it is done before all that can fail: the sum
below a slab is part of the sum that was added up before. -/
theorem run_setZSplit (mesh : Mesh R) (counts : List Nat) :
    (setZSplit counts).run mesh =
      if counts.length ≠ mesh.layout.count then
        (.error (.wrongValueCount "zdecomp" (.perProcess mesh.layout.count) counts.length), mesh)
      else if Word.limit ≤ counts.sum then (.error .overflow, mesh)
      else if counts.sum < mesh.layout.count then
        (.error (.insufficientIntervals counts.sum mesh.layout.count), mesh)
      else
        (.ok (), { mesh with
          numZ := counts.sum, slab := (ZSplit.listed counts).slab mesh.layout }) := by
  unfold setZSplit
  rw [Attempt.run_bind, Attempt.run_current]
  dsimp only
  by_cases counted : counts.length ≠ mesh.layout.count
  · rw [if_pos counted, if_pos counted]
    rfl
  rw [if_neg counted, if_neg counted, Attempt.run_bind]
  by_cases exceeds : Word.limit ≤ counts.sum
  · rw [if_pos exceeds, run_sumIntervals_of_le exceeds]
  rw [if_neg exceeds, run_sumIntervals_of_lt (Nat.lt_of_not_le exceeds)]
  dsimp only
  by_cases few : counts.sum < mesh.layout.count
  · rw [if_pos few, if_pos few]
    rfl
  rw [if_neg few, if_neg few]
  have below : (counts.take mesh.layout.rank).sum < Word.limit := by
    have parts := congrArg List.sum (List.take_append_drop mesh.layout.rank counts)
    rw [List.sum_append] at parts
    omega
  simp only [Attempt.run_bind, Attempt.run_update, run_sumIntervals_of_lt below]
  rfl

variable [Scalar R]

/-- What a rotation about a named axis does. -/
theorem run_rotateNamed [Trigonometry R] (mesh : Mesh R) (name : List Char) (degrees : R) :
    (rotateNamed name degrees).run mesh =
      match Axis.ofText name with
      | .ok axis => (.ok (), mesh.rotate axis degrees)
      | .error error => (.error error, mesh) := by
  unfold rotateNamed
  cases Axis.ofText name <;> rfl

/-- The evenly split mesh of unit spacing at the origin. -/
def unit (numX numY numZ : Nat) (layout : Layout) : Mesh R :=
  ⟨numX, numY, numZ, .even numZ layout, layout, Vec3.fill 1, Vec3.fill 0, none, []⟩

/-- Intervals are refused, or make the mesh of unit spacing. -/
theorem ofIntervals_eq (numX numY numZ : Nat) (layout : Layout) :
    (ofIntervals numX numY numZ layout : Except MeshError (Mesh R)) =
      if numX = 0 ∨ numY = 0 ∨ numZ = 0 then
        .error (.invalidIntervals
          (toString numX ++ "x" ++ toString numY ++ "x" ++ toString numZ))
      else if numZ < layout.count then .error (.insufficientIntervals numZ layout.count)
      else .ok (unit numX numY numZ layout) := by
  unfold ofIntervals decompose Attempt.finish
  split
  · rfl
  · rw [Attempt.run_bind, Attempt.run_current]
    dsimp only
    by_cases few : numZ < layout.count
    · rw [if_pos few, if_pos few]
      rfl
    · rw [if_neg few, if_neg few]
      rfl

/-- Which intervals are accepted, and what they lead to. -/
theorem ofIntervals_eq_ok_iff {numX numY numZ : Nat} {layout : Layout} {mesh : Mesh R} :
    ofIntervals numX numY numZ layout = .ok mesh ↔
      (0 < numX ∧ 0 < numY ∧ layout.count ≤ numZ) ∧ mesh = unit numX numY numZ layout := by
  have inside := layout.rank_lt
  rw [ofIntervals_eq]
  constructor
  · intro made
    split at made
    · cases made
    · split at made
      · cases made
      · exact ⟨⟨by omega, by omega, by omega⟩, (Except.ok.inj made).symm⟩
  · rintro ⟨positive, rfl⟩
    rw [if_neg (by omega), if_neg (by omega)]

/-- The mesh of accepted intervals is accepted. -/
theorem accepted_unit {numX numY numZ : Nat} {layout : Layout}
    (positive : 0 < numX ∧ 0 < numY ∧ layout.count ≤ numZ) :
    (unit numX numY numZ layout : Mesh R).Accepted (.even numZ) :=
  ⟨positive.1, positive.2.1, positive.2.2, rfl, rfl⟩

end Setters

end Mesh

end HexSlab
