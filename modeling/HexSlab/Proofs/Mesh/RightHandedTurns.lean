import HexSlab.Mesh.Geometry
import HexSlab.Proofs.Exact
import Mathlib.LinearAlgebra.Matrix.Determinant.Basic
import Mathlib.LinearAlgebra.Matrix.DotProduct
import Mathlib.LinearAlgebra.Matrix.Notation
import Mathlib.Tactic.LinearCombination

/-!
# Turns about an axis are rigid

A point is turned about an axis, right-handed, by keeping its part along the axis and
turning the rest towards the vector product of the axis with the point. The matrix of a
turn does this to a row vector. Its rows are orthonormal, and its determinant is one,
since the squares of a sine and a cosine add up to one. Products of such matrices are
such matrices, and they keep all distances.
-/

namespace HexSlab

/-- What is used of sine and cosine. -/
structure Trigonometry.Lawful (R : Type) [Field R] [Trigonometry R] : Prop where
  /-- Their squares add up to one. -/
  squares : ∀ angle : R, sin angle * sin angle + cos angle * cos angle = 1
  /-- The cosine is even. -/
  cos_neg : ∀ angle : R, cos (-angle) = cos angle
  /-- The sine is odd. -/
  sin_neg : ∀ angle : R, sin (-angle) = -sin angle

variable {R : Type}

/-- The unit vector along an axis. -/
def Axis.direction [Field R] : Axis → Vec3 R
  | .x => ⟨1, 0, 0⟩
  | .y => ⟨0, 1, 0⟩
  | .z => ⟨0, 0, 1⟩

namespace Vec3

/-- The components as a row. -/
def toRow (p : Vec3 R) : Fin 3 → R := ![p.x, p.y, p.z]

/-- Points with the same row are equal. -/
theorem toRow_injective : Function.Injective (toRow : Vec3 R → Fin 3 → R) := by
  intro p q same
  have x : p.x = q.x := congrFun same 0
  have y : p.y = q.y := congrFun same 1
  have z : p.z = q.z := congrFun same 2
  cases p
  cases q
  rw [mk.injEq]
  exact ⟨x, y, z⟩

/-- The inner product. -/
def dot [Field R] (a b : Vec3 R) : R := a.x * b.x + a.y * b.y + a.z * b.z

/-- The vector product. -/
def cross [Field R] (a b : Vec3 R) : Vec3 R :=
  ⟨a.y * b.z - a.z * b.y, a.z * b.x - a.x * b.z, a.x * b.y - a.y * b.x⟩

/-- The inner product of two points is that of their rows. -/
theorem dot_eq_dotProduct [Field R] (p q : Vec3 R) : p.dot q = p.toRow ⬝ᵥ q.toRow :=
  Matrix.vec3_dotProduct'.symm

end Vec3

variable [Field R] [LinearOrder R] [Roots R]

namespace Vec3

/-- The square of the distance of two points. -/
def distanceSquared (p q : Vec3 R) : R := (p.sub q).dot (p.sub q)

/-- The point turned about an axis, right-handed, by the angle with a given sine and
cosine: of the part across the axis the cosine stays, and the sine goes on towards the
vector product. -/
def turned (axis : Axis) (sin cos : R) (p : Vec3 R) : Vec3 R :=
  let along : Vec3 R := (fill (axis.direction.dot p)).scale axis.direction
  (along.add ((fill cos).scale (p.sub along))).add ((fill sin).scale (axis.direction.cross p))

/-- The product of a row vector with a matrix, by components. -/
theorem mulMat_eq (p : Vec3 R) (m : Mat3 R) :
    p.mulMat m =
      ⟨m.rowX.x * p.x + m.rowY.x * p.y + m.rowZ.x * p.z,
        m.rowX.y * p.x + m.rowY.y * p.y + m.rowZ.y * p.z,
        m.rowX.z * p.x + m.rowY.z * p.y + m.rowZ.z * p.z⟩ := rfl

/-- The identity matrix keeps every point. -/
theorem mulMat_identity (p : Vec3 R) : p.mulMat Mat3.identity = p := by
  have entries : (Mat3.identity : Mat3 R) = ⟨⟨1, 0, 0⟩, ⟨0, 1, 0⟩, ⟨0, 0, 1⟩⟩ := rfl
  rw [mulMat_eq, entries]
  simp only [one_mul, zero_mul, add_zero, zero_add]

/-- A product of matrices moves a point by one after the other. -/
theorem mulMat_mul (p : Vec3 R) (a b : Mat3 R) :
    p.mulMat (a.mul b) = (p.mulMat a).mulMat b := by
  simp only [Mat3.mul, mulMat_eq, mk.injEq]
  exact ⟨by ring, by ring, by ring⟩

end Vec3

namespace Mat3

/-- The entries as a matrix. -/
def toMatrix (m : Mat3 R) : Matrix (Fin 3) (Fin 3) R :=
  Matrix.of ![m.rowX.toRow, m.rowY.toRow, m.rowZ.toRow]

/-- The matrix of a rigid motion that keeps the handedness. -/
structure Rigid (m : Mat3 R) : Prop where
  /-- The rows are orthonormal. -/
  orthogonal : m.toMatrix * m.toMatrix.transpose = 1
  /-- The determinant is one. -/
  det : m.toMatrix.det = 1

/-- The entries of a turn. -/
theorem turn_eq (axis : Axis) (sin cos : R) :
    turn axis sin cos =
      match axis with
      | .x => ⟨⟨1, 0, 0⟩, ⟨0, cos, sin⟩, ⟨0, -sin, cos⟩⟩
      | .y => ⟨⟨cos, 0, -sin⟩, ⟨0, 1, 0⟩, ⟨sin, 0, cos⟩⟩
      | .z => ⟨⟨cos, sin, 0⟩, ⟨-sin, cos, 0⟩, ⟨0, 0, 1⟩⟩ := rfl

/-- A row vector times a matrix. -/
theorem toRow_mulMat (p : Vec3 R) (m : Mat3 R) :
    (p.mulMat m).toRow = Matrix.vecMul p.toRow m.toMatrix := by
  funext j
  rw [Vec3.mulMat_eq]
  fin_cases j <;>
    simp [Vec3.toRow, toMatrix, Matrix.vecMul, dotProduct, Fin.sum_univ_three, mul_comm]

/-- The product of two matrices. -/
theorem toMatrix_mul (a b : Mat3 R) : (a.mul b).toMatrix = a.toMatrix * b.toMatrix := by
  funext i
  fin_cases i
  · exact toRow_mulMat a.rowX b
  · exact toRow_mulMat a.rowY b
  · exact toRow_mulMat a.rowZ b

/-- Rigid motions one after the other are rigid. -/
theorem Rigid.mul {a b : Mat3 R} (first : a.Rigid) (second : b.Rigid) : (a.mul b).Rigid where
  orthogonal := by
    rw [toMatrix_mul, Matrix.transpose_mul, Matrix.mul_assoc, ← Matrix.mul_assoc b.toMatrix,
      second.orthogonal, Matrix.one_mul, first.orthogonal]
  det := by rw [toMatrix_mul, Matrix.det_mul, first.det, second.det, one_mul]

/-- Staying in place is rigid. -/
theorem rigid_identity : (identity : Mat3 R).Rigid := by
  have entries : (identity : Mat3 R).toMatrix = 1 := by
    ext i j
    fin_cases i <;> fin_cases j <;> rfl
  constructor
  · rw [entries, Matrix.transpose_one, Matrix.one_mul]
  · rw [entries, Matrix.det_one]

/-- Every turn is rigid. -/
theorem rigid_turn (axis : Axis) {sin cos : R} (unit : sin * sin + cos * cos = 1) :
    (turn axis sin cos).Rigid := by
  have swapped : cos * cos + sin * sin = 1 := by rw [add_comm, unit]
  constructor
  · cases axis <;> ext i j <;> fin_cases i <;> fin_cases j <;>
      simp [turn_eq, toMatrix, Vec3.toRow, Matrix.mul_apply, Fin.sum_univ_three, unit, swapped,
        mul_comm]
  · cases axis <;>
      simp [turn_eq, toMatrix, Vec3.toRow, Matrix.det_fin_three, swapped]

end Mat3

namespace Vec3

/-- A matrix moves the difference of two points as it moves the points. -/
theorem sub_mulMat (p q : Vec3 R) (m : Mat3 R) :
    (p.sub q).mulMat m = (p.mulMat m).sub (q.mulMat m) := by
  have entries (a b : Vec3 R) : a.sub b = ⟨a.x - b.x, a.y - b.y, a.z - b.z⟩ := rfl
  simp only [entries, mulMat_eq, mk.injEq]
  exact ⟨by ring, by ring, by ring⟩

/-- A rigid motion keeps the square of every length. -/
theorem dot_mulMat_self {m : Mat3 R} (rigid : m.Rigid) (p : Vec3 R) :
    (p.mulMat m).dot (p.mulMat m) = p.dot p := by
  rw [dot_eq_dotProduct, dot_eq_dotProduct, Mat3.toRow_mulMat, ← Matrix.dotProduct_mulVec,
    ← Matrix.mulVec_transpose, Matrix.mulVec_mulVec, rigid.orthogonal, Matrix.one_mulVec]

/-- A rigid motion keeps the square of every distance. -/
theorem distanceSquared_mulMat {m : Mat3 R} (rigid : m.Rigid) (p q : Vec3 R) :
    (p.mulMat m).distanceSquared (q.mulMat m) = p.distanceSquared q := by
  rw [distanceSquared, ← sub_mulMat, dot_mulMat_self rigid, distanceSquared]

/-- A turned point, by components. -/
theorem turned_eq (axis : Axis) (sin cos : R) (p : Vec3 R) :
    p.turned axis sin cos =
      match axis with
      | .x => ⟨p.x, cos * p.y - sin * p.z, sin * p.y + cos * p.z⟩
      | .y => ⟨cos * p.x + sin * p.z, p.y, cos * p.z - sin * p.x⟩
      | .z => ⟨cos * p.x - sin * p.y, sin * p.x + cos * p.y, p.z⟩ := by
  have added (a b : Vec3 R) : a.add b = ⟨a.x + b.x, a.y + b.y, a.z + b.z⟩ := rfl
  have taken (a b : Vec3 R) : a.sub b = ⟨a.x - b.x, a.y - b.y, a.z - b.z⟩ := rfl
  have scaled (c : R) (a : Vec3 R) : (fill c).scale a = ⟨c * a.x, c * a.y, c * a.z⟩ := rfl
  cases axis <;>
    simp only [turned, Axis.direction, dot, cross, added, taken, scaled, mk.injEq] <;>
    exact ⟨by ring, by ring, by ring⟩

/-- The matrix of a turn turns every point. -/
theorem mulMat_turn (axis : Axis) (sin cos : R) (p : Vec3 R) :
    p.mulMat (Mat3.turn axis sin cos) = p.turned axis sin cos := by
  rw [turned_eq]
  cases axis <;>
    simp only [Mat3.turn_eq, mulMat_eq, mk.injEq] <;>
    exact ⟨by ring, by ring, by ring⟩

/-- Turning back by the same angle restores every point. -/
theorem turned_neg_turned (axis : Axis) {sin cos : R} (unit : sin * sin + cos * cos = 1)
    (p : Vec3 R) : (p.turned axis sin cos).turned axis (-sin) cos = p := by
  have back : (Mat3.turn axis (-sin) cos).toMatrix =
      (Mat3.turn axis sin cos).toMatrix.transpose := by
    cases axis <;> ext i j <;> fin_cases i <;> fin_cases j <;>
      simp [Mat3.turn_eq, Mat3.toMatrix, toRow]
  apply toRow_injective
  rw [← mulMat_turn, ← mulMat_turn, Mat3.toRow_mulMat, Mat3.toRow_mulMat, back,
    Matrix.vecMul_vecMul, (Mat3.rigid_turn axis unit).orthogonal, Matrix.vecMul_one]

end Vec3

end HexSlab
