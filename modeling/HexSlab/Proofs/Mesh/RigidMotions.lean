import HexSlab.Mesh.Coordinates
import HexSlab.Proofs.Krylov.InnerProduct
import HexSlab.Proofs.Mesh.Corners
import HexSlab.Proofs.Mesh.RightHandedTurns
import HexSlab.Proofs.Mesh.SetterCalls
import Mathlib.Analysis.SpecialFunctions.Trigonometric.Basic
import Mathlib.Data.Option.NAry

/-!
# Rotating a mesh moves it rigidly

Among the setter calls of a run some rotate the mesh about an axis, and those that name
no axis are errors and change nothing. Each call that rotates takes the accumulated
matrix on by one turn, and every other call leaves it. So after any run the nodes are
where the mesh without rotation has them, moved by the turns one after the other in the
order of the calls. The matrix stays that of a rigid motion, and distances stay as they
were.
-/

namespace HexSlab

/-- The letters that name an axis. -/
def Axis.letters : Axis → List Char
  | .x => ['x', 'X']
  | .y => ['y', 'Y']
  | .z => ['z', 'Z']

/-- A text names an axis by one of its letters, or it is refused. -/
theorem Axis.ofText_cases (name : List Char) :
    (∃ axis : Axis, ∃ letter ∈ axis.letters, Text.trim name = [letter] ∧
      Axis.ofText name = .ok axis) ∨
    (∀ axis : Axis, ∀ letter ∈ axis.letters, Text.trim name ≠ [letter]) ∧
      Axis.ofText name = .error (.invalidAxis (String.ofList (Text.trim name))) := by
  unfold Axis.ofText
  split
  case h_1 same => exact .inl ⟨.x, 'x', by decide, same, rfl⟩
  case h_2 same => exact .inl ⟨.x, 'X', by decide, same, rfl⟩
  case h_3 same => exact .inl ⟨.y, 'y', by decide, same, rfl⟩
  case h_4 same => exact .inl ⟨.y, 'Y', by decide, same, rfl⟩
  case h_5 same => exact .inl ⟨.z, 'z', by decide, same, rfl⟩
  case h_6 same => exact .inl ⟨.z, 'Z', by decide, same, rfl⟩
  case h_7 =>
    refine .inr ⟨?_, rfl⟩
    intro axis letter listed same
    cases axis <;> rcases List.mem_pair.mp listed with rfl | rfl <;> contradiction

variable {R : Type}

/-- The axis and the angle of a call that rotates. -/
def Setting.turn? : Setting R → Option (Axis × R)
  | .turn axis degrees => some (axis, degrees)
  | .turnNamed name degrees => (Axis.ofText name).toOption.map fun axis => (axis, degrees)
  | .scale _ | .offset _ | .box _ _ | .shells _ | .split _ => none

namespace Mesh

/-- The turns of a sequence of calls, in order. -/
def turns (calls : List (Setting R)) : List (Axis × R) := calls.filterMap Setting.turn?

/-- The mesh without its rotations. -/
def unrotated (mesh : Mesh R) : Mesh R := { mesh with rotation := none }

/-- A point moved by the matrix of the rotations, if there were any. -/
def moved [Scalar R] (rotation : Option (Mat3 R)) (p : Vec3 R) : Vec3 R :=
  match rotation with
  | some m => p.mulMat m
  | none => p

/-- The nodes are where the mesh without rotation has them, moved. -/
theorem coordinates_eq_moved [Scalar R] (mesh : Mesh R) :
    mesh.coordinates = mesh.unrotated.coordinates.map (moved mesh.rotation) := by
  rw [coordinates, coordinates, map_grid3]
  rfl

section Runs

variable [Scalar R] [Trigonometry R]

/-- A call rotates the mesh by its turn, or it does the same to the mesh without
rotation and leaves the matrix. -/
theorem afterSetting_cases (mesh : Mesh R) (call : Setting R) :
    (∃ turn, call.turn? = some turn ∧ mesh.afterSetting call = mesh.rotate turn.1 turn.2) ∨
    call.turn? = none ∧ (mesh.afterSetting call).rotation = mesh.rotation ∧
      (mesh.afterSetting call).unrotated = mesh.unrotated.afterSetting call := by
  cases call with
  | turn axis degrees => exact .inl ⟨(axis, degrees), rfl, rfl⟩
  | turnNamed name degrees =>
    have run : mesh.afterSetting (.turnNamed name degrees) = _ :=
      congrArg Prod.snd (run_rotateNamed mesh name degrees)
    have bare : mesh.unrotated.afterSetting (.turnNamed name degrees) = _ :=
      congrArg Prod.snd (run_rotateNamed mesh.unrotated name degrees)
    rw [Setting.turn?, run, bare]
    cases Axis.ofText name with
    | ok axis => exact .inl ⟨(axis, degrees), rfl, rfl⟩
    | error error => exact .inr ⟨rfl, rfl, rfl⟩
  | split counts =>
    have run : mesh.afterSetting (.split counts) = _ :=
      congrArg Prod.snd (run_setZSplit mesh counts)
    have bare : mesh.unrotated.afterSetting (.split counts) = _ :=
      congrArg Prod.snd (run_setZSplit mesh.unrotated counts)
    refine .inr ⟨rfl, ?_⟩
    rw [run, bare]
    simp only [apply_ite Prod.snd, apply_ite Mesh.rotation, apply_ite unrotated]
    exact ⟨by simp only [ite_self], rfl⟩
  | scale | offset | box | shells => exact .inr ⟨rfl, rfl, rfl⟩

/-- A call that names an axis rotates the mesh about it; a call that names none is an
error and leaves the mesh as it was. -/
theorem rotateNamed_cases (mesh : Mesh R) (name : List Char) (degrees : R) :
    (∃ axis : Axis, ∃ letter ∈ axis.letters, Text.trim name = [letter] ∧
      (rotateNamed name degrees).run mesh = (.ok (), mesh.rotate axis degrees)) ∨
    (∀ axis : Axis, ∀ letter ∈ axis.letters, Text.trim name ≠ [letter]) ∧
      (rotateNamed name degrees).run mesh =
        (.error (.invalidAxis (String.ofList (Text.trim name))), mesh) := by
  rw [run_rotateNamed]
  obtain ⟨axis, letter, listed, named, found⟩ | ⟨unnamed, found⟩ := Axis.ofText_cases name
  · refine .inl ⟨axis, letter, listed, named, ?_⟩
    rw [found]
  · refine .inr ⟨unnamed, ?_⟩
    rw [found]

/-- The matrix after a turn, from the one before. -/
def turnMatrix (rotation : Option (Mat3 R)) (turn : Axis × R) : Option (Mat3 R) :=
  some ((rotation.getD Mat3.identity).mul (Mat3.turnDegrees turn.1 turn.2))

/-- There is no matrix after a number of turns only if there was none, and no turn. -/
theorem foldl_turnMatrix_eq_none_iff (turns : List (Axis × R)) (rotation : Option (Mat3 R)) :
    turns.foldl turnMatrix rotation = none ↔ turns = [] ∧ rotation = none := by
  induction turns generalizing rotation with
  | nil => exact ⟨fun before => ⟨rfl, before⟩, fun ⟨_, before⟩ => before⟩
  | cons turn rest ih =>
    rw [List.foldl_cons, ih]
    constructor
    · rintro ⟨-, made⟩
      cases made
    · rintro ⟨some, -⟩
      cases some

/-- The matrix after a run is that of its turns, one after the other. -/
theorem rotation_configure (mesh : Mesh R) (calls : List (Setting R)) :
    (mesh.configure calls).rotation = (turns calls).foldl turnMatrix mesh.rotation := by
  induction calls generalizing mesh with
  | nil => rfl
  | cons call rest ih =>
    rw [configure, ih, turns, turns]
    obtain ⟨turn, found, after⟩ | ⟨found, kept, -⟩ := afterSetting_cases mesh call
    · rw [List.filterMap_cons_some found, after]
      rfl
    · rw [List.filterMap_cons_none found, kept]

/-- Without rotation the mesh after a run is what the calls without a turn make of it. -/
theorem unrotated_configure (mesh : Mesh R) (calls : List (Setting R)) :
    (mesh.configure calls).unrotated =
      mesh.unrotated.configure (calls.filter fun call => call.turn?.isNone) := by
  induction calls generalizing mesh with
  | nil => rfl
  | cons call rest ih =>
    rw [configure, ih]
    obtain ⟨turn, found, after⟩ | ⟨found, -, same⟩ := afterSetting_cases mesh call
    · rw [List.filter_cons_of_neg (by rw [found]; exact Bool.false_ne_true), after]
      rfl
    · rw [List.filter_cons_of_pos (by rw [found]; rfl), configure, same]

end Runs

section Exact

variable [Field R] [LinearOrder R] [Roots R]

/-- A rigid matrix, or none, keeps the square of every distance. -/
theorem distanceSquared_moved {rotation : Option (Mat3 R)} (rigid : ∀ m ∈ rotation, m.Rigid)
    (p q : Vec3 R) :
    (moved rotation p).distanceSquared (moved rotation q) = p.distanceSquared q := by
  cases rotation with
  | none => rfl
  | some m => exact Vec3.distanceSquared_mulMat (rigid m rfl) p q

variable [Trigonometry R]

/-- A point turned by an angle in degrees. -/
def turnPoint (p : Vec3 R) (turn : Axis × R) : Vec3 R :=
  p.turned turn.1 (Trigonometry.sin (turn.2 * Trigonometry.degree))
    (Trigonometry.cos (turn.2 * Trigonometry.degree))

/-- One turn more moves a point by the matrix so far, and then turns it. -/
theorem moved_turnMatrix (rotation : Option (Mat3 R)) (turn : Axis × R) (p : Vec3 R) :
    moved (turnMatrix rotation turn) p = turnPoint (moved rotation p) turn := by
  cases rotation with
  | none =>
    show p.mulMat (Mat3.identity.mul (Mat3.turnDegrees turn.1 turn.2)) = _
    rw [Vec3.mulMat_mul, Vec3.mulMat_identity]
    exact Vec3.mulMat_turn _ _ _ _
  | some m =>
    show p.mulMat (m.mul (Mat3.turnDegrees turn.1 turn.2)) = _
    rw [Vec3.mulMat_mul]
    exact Vec3.mulMat_turn _ _ _ _

/-- The matrix of a number of turns moves a point by one after the other. -/
theorem moved_foldl_turnMatrix (turns : List (Axis × R)) (rotation : Option (Mat3 R))
    (p : Vec3 R) :
    moved (turns.foldl turnMatrix rotation) p = turns.foldl turnPoint (moved rotation p) := by
  induction turns generalizing rotation with
  | nil => rfl
  | cons turn rest ih => rw [List.foldl_cons, List.foldl_cons, ih, moved_turnMatrix]

/-- The matrix of a number of turns is rigid, if the one before them is. -/
theorem rigid_foldl_turnMatrix (lawful : Trigonometry.Lawful R) (turns : List (Axis × R))
    {rotation : Option (Mat3 R)} (rigid : ∀ m ∈ rotation, m.Rigid) :
    ∀ m ∈ turns.foldl turnMatrix rotation, m.Rigid := by
  induction turns generalizing rotation with
  | nil => exact rigid
  | cons turn rest ih =>
    refine ih fun m made => ?_
    have turned : (Mat3.turnDegrees turn.1 turn.2).Rigid :=
      Mat3.rigid_turn turn.1 (lawful.squares (turn.2 * Trigonometry.degree))
    have before : (rotation.getD Mat3.identity).Rigid := by
      cases rotation with
      | none => exact Mat3.rigid_identity
      | some m => exact rigid m rfl
    rw [← Option.some.inj made]
    exact before.mul turned

/-- Turning back by the same angle restores a point. -/
theorem turnPoint_neg_turnPoint (lawful : Trigonometry.Lawful R) (axis : Axis) (degrees : R)
    (p : Vec3 R) : turnPoint (turnPoint p (axis, degrees)) (axis, -degrees) = p := by
  unfold turnPoint
  rw [neg_mul, lawful.sin_neg, lawful.cos_neg]
  exact Vec3.turned_neg_turned axis (lawful.squares _) p

/-- What a run of setter calls makes of a mesh, as to rotation. -/
structure MovesRigidly (mesh : Mesh R) (calls : List (Setting R)) : Prop where
  /-- There is a matrix exactly if a call has rotated the mesh. -/
  rotation_eq_none : (mesh.configure calls).rotation = none ↔ turns calls = []
  /-- The matrix is orthogonal, and its determinant is one. -/
  rigid : ∀ m ∈ (mesh.configure calls).rotation,
    m.toMatrix * m.toMatrix.transpose = 1 ∧ m.toMatrix.det = 1
  /-- Without rotation the mesh is as the other calls make it. -/
  unrotated : (mesh.configure calls).unrotated =
    mesh.configure (calls.filter fun call => call.turn?.isNone)
  /-- Every node is moved by the turns in order. -/
  coordinates : (mesh.configure calls).coordinates =
    (mesh.configure calls).unrotated.coordinates.map fun p => (turns calls).foldl turnPoint p
  /-- The distances of the nodes stay. -/
  distances : ∀ a b : Nat,
    Option.map₂ Vec3.distanceSquared (mesh.configure calls).coordinates[a]?
        (mesh.configure calls).coordinates[b]? =
      Option.map₂ Vec3.distanceSquared (mesh.configure calls).unrotated.coordinates[a]?
        (mesh.configure calls).unrotated.coordinates[b]?

/-- Every run of setter calls moves a mesh rigidly that was not rotated before. -/
theorem movesRigidly (lawful : Trigonometry.Lawful R) {mesh : Mesh R}
    (fresh : mesh.rotation = none) (calls : List (Setting R)) : mesh.MovesRigidly calls := by
  have same : mesh.unrotated = mesh := by
    rw [Mesh.unrotated, ← fresh]
  have rigid : ∀ m ∈ (mesh.configure calls).rotation, m.Rigid := by
    rw [rotation_configure, fresh]
    exact rigid_foldl_turnMatrix lawful (turns calls) fun m made => nomatch made
  constructor
  case rotation_eq_none =>
    rw [rotation_configure, fresh, foldl_turnMatrix_eq_none_iff]
    exact and_iff_left rfl
  case rigid => exact fun m made => ⟨(rigid m made).orthogonal, (rigid m made).det⟩
  case unrotated => rw [unrotated_configure, same]
  case coordinates =>
    rw [coordinates_eq_moved, rotation_configure, fresh]
    exact List.map_congr_left fun p _ => moved_foldl_turnMatrix (turns calls) none p
  case distances =>
    intro a b
    rw [coordinates_eq_moved, List.getElem?_map, List.getElem?_map, Option.map₂_map_left,
      Option.map₂_map_right]
    simp only [distanceSquared_moved rigid]

/-- Rotating a mesh about an axis and back leaves every node where it was, whatever
rotations there were before. -/
theorem coordinates_rotate_back (lawful : Trigonometry.Lawful R) (mesh : Mesh R) (axis : Axis)
    (degrees : R) :
    ((mesh.rotate axis degrees).rotate axis (-degrees)).coordinates = mesh.coordinates := by
  rw [coordinates_eq_moved, coordinates_eq_moved mesh]
  refine List.map_congr_left fun p _ => ?_
  show moved (turnMatrix (turnMatrix mesh.rotation (axis, degrees)) (axis, -degrees)) p = _
  rw [moved_turnMatrix, moved_turnMatrix, turnPoint_neg_turnPoint lawful]

end Exact

/-- If the squares of sines and cosines add up to one, cosines are even and sines odd,
then every run of setter calls moves every mesh rigidly that was not rotated before: the
matrix, if any, is orthogonal with determinant one, every node is turned right-handedly
by the calls that rotate, in their order, and distances stay. Rotating about an axis and
back restores every node, and a call that names no axis changes nothing. -/
theorem rotations_move_rigidly (R : Type) [Field R] [LinearOrder R] [Roots R] [Trigonometry R]
    (lawful : Trigonometry.Lawful R) :
    (∀ mesh : Mesh R, mesh.rotation = none →
      ∀ calls : List (Setting R), mesh.MovesRigidly calls) ∧
    (∀ (mesh : Mesh R) (axis : Axis) (degrees : R),
      ((mesh.rotate axis degrees).rotate axis (-degrees)).coordinates = mesh.coordinates) ∧
    ∀ (mesh : Mesh R) (name : List Char) (degrees : R),
      (∃ axis : Axis, ∃ letter ∈ axis.letters, Text.trim name = [letter] ∧
        (rotateNamed name degrees).run mesh = (.ok (), mesh.rotate axis degrees)) ∨
      (∀ axis : Axis, ∀ letter ∈ axis.letters, Text.trim name ≠ [letter]) ∧
        (rotateNamed name degrees).run mesh =
          (.error (.invalidAxis (String.ofList (Text.trim name))), mesh) :=
  ⟨fun _ fresh calls => movesRigidly lawful fresh calls, coordinates_rotate_back lawful,
    rotateNamed_cases⟩

/-- Sine and cosine of real numbers, with a degree in radians. -/
noncomputable instance : Trigonometry ℝ where
  sin := Real.sin
  cos := Real.cos
  degree := Real.pi / 180

/-- Real sines and cosines have what is used of them. -/
theorem lawful_real : Trigonometry.Lawful ℝ where
  squares := fun angle => by
    rw [← sq, ← sq]
    exact Real.sin_sq_add_cos_sq angle
  cos_neg := Real.cos_neg
  sin_neg := Real.sin_neg

/-- Two quarter turns, the first by name, move a cube of real coordinates rigidly; the
call between them names no axis. -/
theorem rotations_move_rigidly_quarters :
    Trigonometry.Lawful ℝ ∧ (unit 1 1 1 Layout.serial : Mesh ℝ).rotation = none ∧
      (unit 1 1 1 Layout.serial : Mesh ℝ).MovesRigidly
        [.turnNamed [' ', 'X'] 90, .turnNamed ['q'] 3, .turn .z 90] :=
  ⟨lawful_real, rfl, (rotations_move_rigidly ℝ lawful_real).1 _ rfl _⟩

end Mesh

end HexSlab
