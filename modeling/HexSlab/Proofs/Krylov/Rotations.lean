import HexSlab.Proofs.Krylov.OrthonormalBasis
import Mathlib.Tactic.Module

/-!
# Rotations of a basis

The rotations that act on the columns of a matrix also turn the basis that the
columns are read in. What a column is in the basis, it is after the rotations in
the turned frame. The vector that the last rotation leaves over is orthogonal to
the frame, which is why its coefficient alone measures the residual.
-/

namespace HexSlab.MinimalResiduals

variable {R : Type} [Field R] {n : Nat}

/-- A rotation turns the end of a column into one entry of the length of both
and a zero. -/
structure Rotation.Zeroes (rotation : Rotation R) (corner next length : R) : Prop where
  /-- The rotation keeps lengths. -/
  circle : rotation.cos * rotation.cos + rotation.sin * rotation.sin = 1
  /-- The upper entry becomes the length. -/
  upper : rotation.cos * corner + rotation.sin * next = length
  /-- The lower entry becomes zero. -/
  lower : -rotation.sin * corner + rotation.cos * next = 0

/-- The quotients by the length make such a rotation. -/
theorem rotation_zeroes {corner next length : R}
    (square : length * length = corner * corner + next * next) (nonzero : length ≠ 0) :
    (⟨corner / length, next / length⟩ : Rotation R).Zeroes corner next length where
  circle := by
    show corner / length * (corner / length) + next / length * (next / length) = 1
    rw [div_mul_div_comm, div_mul_div_comm, ← add_div, ← square,
      div_self (mul_ne_zero nonzero nonzero)]
  upper := by
    show corner / length * corner + next / length * next = length
    rw [div_mul_eq_mul_div, div_mul_eq_mul_div, ← add_div, ← square, mul_div_cancel_left₀ _ nonzero]
  lower := by
    show -(next / length) * corner + corner / length * next = 0
    ring

/-- The vector of a plane that a rotation settles. -/
def Rotation.settled (rotation : Rotation R) (left v : Fin n → R) : Fin n → R :=
  rotation.cos • left + rotation.sin • v

/-- The vector of a plane that a rotation leaves over. -/
def Rotation.leftOver (rotation : Rotation R) (left v : Fin n → R) : Fin n → R :=
  -rotation.sin • left + rotation.cos • v

/-- A combination of two vectors, in the plane of a rotation. -/
theorem Rotation.combine_eq {rotation : Rotation R}
    (circle : rotation.cos * rotation.cos + rotation.sin * rotation.sin = 1) (left v : Fin n → R)
    (upper lower : R) :
    upper • left + lower • v =
      (rotation.cos * upper + rotation.sin * lower) • rotation.settled left v +
        (-rotation.sin * upper + rotation.cos * lower) • rotation.leftOver left v := by
  have turned : (rotation.cos * upper + rotation.sin * lower) • rotation.settled left v +
      (-rotation.sin * upper + rotation.cos * lower) • rotation.leftOver left v =
      ((rotation.cos * rotation.cos + rotation.sin * rotation.sin) * upper) • left +
        ((rotation.cos * rotation.cos + rotation.sin * rotation.sin) * lower) • v := by
    rw [settled, leftOver]
    module
  rw [turned, circle, one_mul, one_mul]

/-- What is left over is orthogonal to what is settled, where both vectors have
unit length or the rotation is none. -/
theorem Rotation.leftOver_settled {rotation : Rotation R} {left v : Fin n → R}
    (unit : left ⬝ᵥ left = 1) (across : v ⬝ᵥ left = 0)
    (reached : rotation.sin * (v ⬝ᵥ v) = rotation.sin) :
    rotation.leftOver left v ⬝ᵥ rotation.settled left v = 0 := by
  calc rotation.leftOver left v ⬝ᵥ rotation.settled left v
      = rotation.cos * (rotation.sin * (v ⬝ᵥ v) - rotation.sin * (left ⬝ᵥ left)) +
          (rotation.cos * rotation.cos - rotation.sin * rotation.sin) * (v ⬝ᵥ left) := by
        simp only [settled, leftOver, add_dotProduct, dotProduct_add, smul_dotProduct,
          dotProduct_smul, smul_eq_mul, dotProduct_comm left v]
        ring
    _ = 0 := by rw [reached, unit, across, mul_one, sub_self, mul_zero, mul_zero, add_zero]

/-- The length of what is left over. -/
theorem Rotation.leftOver_leftOver (rotation : Rotation R) {left v : Fin n → R}
    (unit : left ⬝ᵥ left = 1) (across : v ⬝ᵥ left = 0) :
    rotation.leftOver left v ⬝ᵥ rotation.leftOver left v =
      rotation.cos * rotation.cos * (v ⬝ᵥ v) + rotation.sin * rotation.sin := by
  simp only [leftOver, add_dotProduct, dotProduct_add, smul_dotProduct, dotProduct_smul,
    smul_eq_mul, dotProduct_comm left v, across, unit]
  ring

variable [LinearOrder R] [Roots R]

/-- Without rotations the only entry is the last one. -/
theorem rotateColumn_nil (upper : R) (rest : List R) :
    rotateColumn [] upper rest = ([], upper) := by
  cases rest with
  | nil => rfl
  | cons lower rest => rfl

/-- A column has as many final entries as there are rotations. -/
theorem length_rotateColumn (rotations : List (Rotation R)) (upper : R) (rest : List R)
    (same : rest.length = rotations.length) :
    (rotateColumn rotations upper rest).1.length = rotations.length := by
  induction rotations generalizing upper rest with
  | nil => rfl
  | cons rotation rotations ih =>
    cases rest with
    | nil => cases same
    | cons lower rest =>
      have shorter : rest.length = rotations.length := Nat.succ.inj same
      rw [rotateColumn, List.length_cons, List.length_cons, ih _ rest shorter]

/-- The last rotation turns the last entry into a further one. -/
theorem rotateColumn_concat (rotations : List (Rotation R)) (rotation : Rotation R) (upper : R)
    (rest : List R) (lowest : R) (same : rest.length = rotations.length) :
    rotateColumn (rotations ++ [rotation]) upper (rest ++ [lowest]) =
      ((rotateColumn rotations upper rest).1 ++
        [rotation.cos * (rotateColumn rotations upper rest).2 + rotation.sin * lowest],
      -rotation.sin * (rotateColumn rotations upper rest).2 + rotation.cos * lowest) := by
  induction rotations generalizing upper rest with
  | nil =>
    have none : rest = [] := List.eq_nil_of_length_eq_zero same
    rw [none]
    rfl
  | cons first rotations ih =>
    cases rest with
    | nil => cases same
    | cons lower rest =>
      have shorter : rest.length = rotations.length := Nat.succ.inj same
      rw [List.cons_append, List.cons_append, rotateColumn, ih _ rest shorter, rotateColumn,
        List.cons_append]

/-- Rotations turn a basis into a frame and a vector that is left over. -/
structure Turns (rotations : List (Rotation R)) (basis frame : List (Fin n → R))
    (left : Fin n → R) : Prop where
  /-- Each rotation acts on two vectors of the basis that follow each other. -/
  length_basis : basis.length = rotations.length + 1
  /-- Each rotation settles a vector of the frame. -/
  length_frame : frame.length = rotations.length
  /-- A column in the basis is the rotated column in the frame. -/
  combine_eq : ∀ upper rest, rest.length = rotations.length →
    combine (upper :: rest) basis =
      combine (rotateColumn rotations upper rest).1 frame +
        (rotateColumn rotations upper rest).2 • left
  /-- What is orthogonal to the basis is orthogonal to all it is turned into. -/
  outside : ∀ w, (∀ v ∈ basis, w ⬝ᵥ v = 0) → w ⬝ᵥ left = 0 ∧ ∀ u ∈ frame, w ⬝ᵥ u = 0
  /-- The vector that is left over is orthogonal to the frame. -/
  orthogonal : ∀ u ∈ frame, left ⬝ᵥ u = 0

/-- Without rotations the only vector of the basis is left over. -/
theorem turns_nil (v : Fin n → R) : Turns [] [v] [] v where
  length_basis := rfl
  length_frame := rfl
  combine_eq := by
    intro upper rest same
    have none : rest = [] := List.eq_nil_of_length_eq_zero same
    rw [none, combine_cons, combine_nil, rotateColumn_nil, combine_nil, add_comm]
  outside := by
    intro w apart
    refine ⟨apart v List.mem_cons_self, ?_⟩
    intro u none
    cases none
  orthogonal := by
    intro u none
    cases none

variable {rotations : List (Rotation R)} {basis frame : List (Fin n → R)} {left v : Fin n → R}
  {rotation : Rotation R}

/-- A further rotation turns the vector that was left over and a further vector
of the basis. The two have unit length, or the rotation is none. -/
theorem Turns.concat (turns : Turns rotations basis frame left) (unit : left ⬝ᵥ left = 1)
    (apart : ∀ w ∈ basis, v ⬝ᵥ w = 0)
    (circle : rotation.cos * rotation.cos + rotation.sin * rotation.sin = 1)
    (reached : rotation.sin * (v ⬝ᵥ v) = rotation.sin) :
    Turns (rotations ++ [rotation]) (basis ++ [v]) (frame ++ [rotation.settled left v])
      (rotation.leftOver left v) where
  length_basis := by
    rw [List.length_append, List.length_append, turns.length_basis, List.length_singleton,
      List.length_singleton]
  length_frame := length_concat_congr turns.length_frame _ rotation
  combine_eq := by
    intro upper column same
    rw [List.length_append, List.length_singleton] at same
    -- the new rotation acts on the last entry only, so the column is split there
    rcases List.eq_nil_or_concat' column with none | ⟨rest, lowest, split⟩
    · rw [none] at same
      cases same
    rw [split, List.length_append, List.length_singleton] at same
    have shorter : rest.length = rotations.length := Nat.succ.inj same
    have whole : (upper :: rest).length = basis.length := by
      rw [turns.length_basis, List.length_cons, shorter]
    have above : (rotateColumn rotations upper rest).1.length = frame.length := by
      rw [length_rotateColumn rotations upper rest shorter, turns.length_frame]
    have plane := Rotation.combine_eq circle left v (rotateColumn rotations upper rest).2 lowest
    rw [split, ← List.cons_append, combine_concat _ _ _ _ whole,
      turns.combine_eq upper rest shorter,
      rotateColumn_concat rotations rotation upper rest lowest shorter,
      combine_concat _ _ _ _ above, add_assoc, add_assoc, plane]
  outside := by
    intro w far
    obtain ⟨alone, others⟩ := turns.outside w fun u inside => far u (List.mem_append_left _ inside)
    have new : w ⬝ᵥ v = 0 := far v (List.mem_append_right _ List.mem_cons_self)
    have plane (a b : R) : w ⬝ᵥ (a • left + b • v) = 0 := by
      rw [dotProduct_add, dotProduct_smul, dotProduct_smul, alone, new, smul_zero, smul_zero,
        add_zero]
    refine ⟨plane _ _, ?_⟩
    intro u inside
    rcases List.mem_append.mp inside with old | last
    · exact others u old
    · rw [List.mem_singleton.mp last]
      exact plane _ _
  orthogonal := by
    obtain ⟨across, others⟩ := turns.outside v apart
    intro u inside
    rcases List.mem_append.mp inside with old | last
    · rw [Rotation.leftOver, add_dotProduct, smul_dotProduct, smul_dotProduct,
        turns.orthogonal u old, others u old, smul_zero, smul_zero, add_zero]
    · rw [List.mem_singleton.mp last]
      exact Rotation.leftOver_settled unit across reached

/-- The end of a column that a rotation turns to zero plays no part in the
frame. -/
theorem Turns.combine_zeroed
    (turns : Turns (rotations ++ [rotation]) (basis ++ [v]) frame left) {column : List R}
    {next length : R} (whole : column.length = rotations.length + 1)
    (zeroes : rotation.Zeroes (rotateColumn rotations (column.headD 0) column.tail).2 next length) :
    combine (column ++ [next]) (basis ++ [v]) =
      combine ((rotateColumn rotations (column.headD 0) column.tail).1 ++ [length]) frame := by
  cases column with
  | nil => cases whole
  | cons upper rest =>
    have shorter : rest.length = rotations.length := Nat.succ.inj whole
    have reach : (rest ++ [next]).length = (rotations ++ [rotation]).length :=
      length_concat_congr shorter next rotation
    rw [List.cons_append, turns.combine_eq upper (rest ++ [next]) reach,
      rotateColumn_concat rotations rotation upper rest next shorter]
    rw [List.headD_cons, List.tail_cons] at zeroes
    rw [zeroes.upper, zeroes.lower, zero_smul, add_zero, List.headD_cons, List.tail_cons]

end HexSlab.MinimalResiduals
