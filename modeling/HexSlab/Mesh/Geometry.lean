import HexSlab.Scalar

/-!
# Points, matrices and axes

Points of space and three by three matrices over a scalar type, with the
operations that placing a mesh needs. Points are rotated as row vectors, so the
matrix of two rotations in turn is their product in the same order.
-/

namespace HexSlab

/-- A point or a vector of space. -/
structure Vec3 (R : Type) where
  /-- First component. -/
  x : R
  /-- Second component. -/
  y : R
  /-- Third component. -/
  z : R
  deriving DecidableEq

/-- A three by three matrix by rows. -/
structure Mat3 (R : Type) where
  /-- First row. -/
  rowX : Vec3 R
  /-- Second row. -/
  rowY : Vec3 R
  /-- Third row. -/
  rowZ : Vec3 R
  deriving DecidableEq

/-- Sine, cosine and the size of a degree in the unit that they take. -/
class Trigonometry (R : Type) where
  /-- Sine. -/
  sin : R → R
  /-- Cosine. -/
  cos : R → R
  /-- The angle of one degree. -/
  degree : R

/-- The functions of floating point, with a degree in radians. -/
instance : Trigonometry Float where
  sin := Float.sin
  cos := Float.cos
  degree := 0.017453292519943295

/-- A coordinate axis. -/
inductive Axis where
  /-- First axis. -/
  | x
  /-- Second axis. -/
  | y
  /-- Third axis. -/
  | z
  deriving DecidableEq

variable {R : Type} [Scalar R]

namespace Vec3

/-- The vector with three equal components. -/
def fill (value : R) : Vec3 R := ⟨value, value, value⟩

/-- Sum. -/
def add (a b : Vec3 R) : Vec3 R := ⟨a.x + b.x, a.y + b.y, a.z + b.z⟩

/-- Difference. -/
def sub (a b : Vec3 R) : Vec3 R := ⟨a.x - b.x, a.y - b.y, a.z - b.z⟩

/-- Product by components. -/
def scale (a b : Vec3 R) : Vec3 R := ⟨a.x * b.x, a.y * b.y, a.z * b.z⟩

/-- Quotient by components. -/
def unscale (a b : Vec3 R) : Vec3 R := ⟨a.x / b.x, a.y / b.y, a.z / b.z⟩

/-- The vector of three counts. -/
def ofCounts (i j k : Nat) : Vec3 R := ⟨Scalar.ofNat i, Scalar.ofNat j, Scalar.ofNat k⟩

/-- The row vector times a matrix. -/
def mulMat (p : Vec3 R) (m : Mat3 R) : Vec3 R where
  x := m.rowX.x * p.x + m.rowY.x * p.y + m.rowZ.x * p.z
  y := m.rowX.y * p.x + m.rowY.y * p.y + m.rowZ.y * p.z
  z := m.rowX.z * p.x + m.rowY.z * p.y + m.rowZ.z * p.z

end Vec3

namespace Mat3

/-- The identity matrix. -/
def identity : Mat3 R := ⟨⟨1, 0, 0⟩, ⟨0, 1, 0⟩, ⟨0, 0, 1⟩⟩

/-- Matrix product. -/
def mul (a b : Mat3 R) : Mat3 R where
  rowX := a.rowX.mulMat b
  rowY := a.rowY.mulMat b
  rowZ := a.rowZ.mulMat b

/-- The rotation of row vectors about an axis, right-handed, by the angle with
a given sine and cosine. -/
def turn (axis : Axis) (sin cos : R) : Mat3 R :=
  match axis with
  | .x => ⟨⟨1, 0, 0⟩, ⟨0, cos, sin⟩, ⟨0, -sin, cos⟩⟩
  | .y => ⟨⟨cos, 0, -sin⟩, ⟨0, 1, 0⟩, ⟨sin, 0, cos⟩⟩
  | .z => ⟨⟨cos, sin, 0⟩, ⟨-sin, cos, 0⟩, ⟨0, 0, 1⟩⟩

/-- The rotation about an axis by an angle in degrees. -/
def turnDegrees [Trigonometry R] (axis : Axis) (degrees : R) : Mat3 R :=
  let angle := degrees * Trigonometry.degree
  turn axis (Trigonometry.sin angle) (Trigonometry.cos angle)

end Mat3

end HexSlab
