import HexSlab.Proofs.Krylov.Rotations
import HexSlab.Proofs.Krylov.Triangular

/-!
# What a step of a cycle keeps

A cycle of minimal residuals keeps its data about one frame. In it the residual
of the start is the settled right-hand side with the last entry along the vector
that is left over, and the image of each direction is its column. A step adds a
vector to the frame. The vector that is left over has unit length as long as the
basis can be continued; where it cannot, the last entry is zero.
-/

namespace HexSlab.MinimalResiduals

open Vec

variable {σ R : Type} {n : Nat}

/-- The basis of a cycle with its newest vector. -/
def Cycle.vectors (cycle : Cycle R n) : List (Fin n → R) :=
  (cycle.basis ++ [cycle.newest]).map entries

/-- A further vector behind the newest. -/
theorem Cycle.vectors_concat (cycle : Cycle R n) (v : Vector R n) :
    (cycle.basis ++ [cycle.newest] ++ [v]).map entries = cycle.vectors ++ [entries v] := by
  rw [List.map_append, List.map_singleton, vectors]

variable [Field R] [LinearOrder R] [Roots R]

/-- What the data of a cycle says in a frame. -/
structure Cycle.Reduced (cycle : Cycle R n) (action : (Fin n → R) →ₗ[R] (Fin n → R))
    (b : Fin n → R) (frame : List (Fin n → R)) (left : Fin n → R) : Prop where
  /-- The residual of the start, by the rotated right-hand side. -/
  residual_eq : b - action (entries cycle.x) = combine cycle.settled frame + cycle.last • left
  /-- The images of the directions, by the columns. -/
  images : cycle.directions.map (fun z => action (entries z)) =
    cycle.columns.map fun column => combine column frame
  /-- The columns are those of a triangular matrix. -/
  triangular : IsTriangular cycle.columns
  /-- An entry of the right-hand side is settled for each column. -/
  length_settled : cycle.settled.length = cycle.columns.length
  /-- There is a rotation for each column. -/
  length_rotations : cycle.rotations.length = cycle.columns.length
  /-- The rotations turn the basis into the frame. -/
  turns : Turns cycle.rotations cycle.vectors frame left
  /-- The last entry is the length of what it stands for. -/
  last_square : cycle.last * cycle.last * (left ⬝ᵥ left) = cycle.last * cycle.last

/-- A cycle that can take a step. -/
structure Cycle.Ready (cycle : Cycle R n) (action : (Fin n → R) →ₗ[R] (Fin n → R))
    (b : Fin n → R) (frame : List (Fin n → R)) (left : Fin n → R) : Prop
    extends Cycle.Reduced cycle action b frame left where
  /-- The basis is orthonormal. -/
  orthonormal : IsOrthonormal cycle.vectors
  /-- The vector that is left over has unit length. -/
  unit : left ⬝ᵥ left = 1

/-- There are as many columns as vectors in the frame. -/
theorem Cycle.Reduced.length_frame {cycle : Cycle R n} {action : (Fin n → R) →ₗ[R] (Fin n → R)}
    {b : Fin n → R} {frame : List (Fin n → R)} {left : Fin n → R}
    (reduced : cycle.Reduced action b frame left) : frame.length = cycle.columns.length := by
  rw [reduced.turns.length_frame, reduced.length_rotations]

/-- The cycle with a further direction, a further vector of the basis and a
further rotation. -/
def Cycle.grow (cycle : Cycle R n) (z v : Vector R n) (above : List R) (length : R)
    (rotation : Rotation R) : Cycle R n where
  x := cycle.x
  basis := cycle.basis ++ [cycle.newest]
  newest := v
  directions := cycle.directions ++ [z]
  columns := cycle.columns ++ [above ++ [length]]
  rotations := cycle.rotations ++ [rotation]
  settled := cycle.settled ++ [cycle.last * rotation.cos]
  last := -rotation.sin * cycle.last

/-- A direction that a cycle can take: its image is a column in the basis with
a further vector, and a rotation turns the end of the column to a length that is
not zero. -/
structure Cycle.Takes (cycle : Cycle R n) (action : (Fin n → R) →ₗ[R] (Fin n → R))
    (z v : Vector R n) (column above : List R) (corner next length : R)
    (rotation : Rotation R) : Prop where
  /-- The image of the direction. -/
  image : action (entries z) = combine (column ++ [next]) (cycle.vectors ++ [entries v])
  /-- The column has an entry for each vector of the basis. -/
  length_column : column.length = cycle.rotations.length + 1
  /-- The column after the rotations there are. -/
  rotated : rotateColumn cycle.rotations (column.headD 0) column.tail = (above, corner)
  /-- The rotation turns the end of the column. -/
  zeroes : rotation.Zeroes corner next length
  /-- The length of the end is not zero. -/
  nonzero : length ≠ 0
  /-- The further vector is orthogonal to the basis. -/
  apart : ∀ w ∈ cycle.vectors, entries v ⬝ᵥ w = 0
  /-- It has unit length where the basis can be continued. -/
  unit : next ≠ 0 → entries v ⬝ᵥ entries v = 1
  /-- Where it cannot, the rotation is none. -/
  still : next = 0 → rotation.sin = 0

namespace Cycle.Takes

variable {cycle : Cycle R n} {action : (Fin n → R) →ₗ[R] (Fin n → R)} {b : Fin n → R}
  {frame : List (Fin n → R)} {left : Fin n → R} {z v : Vector R n} {column above : List R}
  {corner next length : R} {rotation : Rotation R}

/-- The new rotation is none, or the further vector has unit length. -/
theorem reached (takes : cycle.Takes action z v column above corner next length rotation) :
    rotation.sin * (entries v ⬝ᵥ entries v) = rotation.sin := by
  by_cases none : next = 0
  · rw [takes.still none, zero_mul]
  · rw [takes.unit none, mul_one]

/-- The rotated column has a final entry for each earlier column. -/
theorem length_above (takes : cycle.Takes action z v column above corner next length rotation) :
    above.length = cycle.rotations.length := by
  have shorter : column.tail.length = cycle.rotations.length := by
    rw [List.length_tail, takes.length_column, Nat.add_sub_cancel]
  have long := length_rotateColumn cycle.rotations (column.headD 0) column.tail shorter
  rw [takes.rotated] at long
  exact long

/-- The rotations turn the basis with the further vector. -/
theorem turns (takes : cycle.Takes action z v column above corner next length rotation)
    (ready : cycle.Ready action b frame left) :
    Turns (cycle.rotations ++ [rotation]) (cycle.vectors ++ [entries v])
      (frame ++ [rotation.settled left (entries v)]) (rotation.leftOver left (entries v)) :=
  ready.turns.concat ready.unit takes.apart takes.zeroes.circle takes.reached

/-- The residual of the start, with a further settled entry. -/
theorem residual_eq (takes : cycle.Takes action z v column above corner next length rotation)
    (ready : cycle.Ready action b frame left) :
    b - action (entries cycle.x) =
      combine (cycle.settled ++ [cycle.last * rotation.cos])
          (frame ++ [rotation.settled left (entries v)]) +
        (-rotation.sin * cycle.last) • rotation.leftOver left (entries v) := by
  have sizes : cycle.settled.length = frame.length := by
    rw [ready.length_settled, ready.length_frame]
  have plane := Rotation.combine_eq takes.zeroes.circle left (entries v) cycle.last 0
  rw [zero_smul, mul_zero, mul_zero, add_zero, add_zero, add_zero] at plane
  rw [ready.residual_eq, combine_concat _ _ _ _ sizes, plane, mul_comm cycle.last, add_assoc]

/-- The images of the directions, with a further column. -/
theorem images (takes : cycle.Takes action z v column above corner next length rotation)
    (ready : cycle.Ready action b frame left) :
    (cycle.directions ++ [z]).map (fun z => action (entries z)) =
      (cycle.columns ++ [above ++ [length]]).map fun column =>
        combine column (frame ++ [rotation.settled left (entries v)]) := by
  have old (column : List R) (member : column ∈ cycle.columns) :
      combine column (frame ++ [rotation.settled left (entries v)]) = combine column frame := by
    apply combine_append_right
    rw [ready.length_frame]
    exact ready.triangular.length_le column member
  have zeroes := takes.zeroes
  have new := (takes.turns ready).combine_zeroed takes.length_column
    (by rw [takes.rotated]; exact zeroes)
  rw [takes.rotated] at new
  rw [List.map_append, List.map_append, List.map_singleton, List.map_singleton, ready.images,
    List.map_congr_left old, takes.image, new]

/-- What is left over has the length that the rotation gives it. -/
theorem length_leftOver (takes : cycle.Takes action z v column above corner next length rotation)
    (ready : cycle.Ready action b frame left) :
    rotation.leftOver left (entries v) ⬝ᵥ rotation.leftOver left (entries v) =
      rotation.cos * rotation.cos * (entries v ⬝ᵥ entries v) + rotation.sin * rotation.sin :=
  rotation.leftOver_leftOver ready.unit (ready.turns.outside _ takes.apart).1

/-- The new last entry is the length of what it stands for: what is left over
has unit length, or the entry is zero. -/
theorem last_square (takes : cycle.Takes action z v column above corner next length rotation)
    (ready : cycle.Ready action b frame left) :
    -rotation.sin * cycle.last * (-rotation.sin * cycle.last) *
        (rotation.leftOver left (entries v) ⬝ᵥ rotation.leftOver left (entries v)) =
      -rotation.sin * cycle.last * (-rotation.sin * cycle.last) := by
  rw [takes.length_leftOver ready]
  by_cases none : next = 0
  · rw [takes.still none]
    ring
  · rw [takes.unit none, mul_one, takes.zeroes.circle, mul_one]

/-- A direction that was taken keeps what the data says, in the frame with the
vector that the new rotation settles. -/
theorem reduced (takes : cycle.Takes action z v column above corner next length rotation)
    (ready : cycle.Ready action b frame left) :
    (cycle.grow z v above length rotation).Reduced action b
      (frame ++ [rotation.settled left (entries v)]) (rotation.leftOver left (entries v)) where
  residual_eq := takes.residual_eq ready
  images := takes.images ready
  triangular := by
    have reach : above.length = cycle.columns.length := by
      rw [takes.length_above, ready.length_rotations]
    exact ready.triangular.concat reach takes.nonzero
  length_settled := length_concat_congr ready.length_settled _ _
  length_rotations := length_concat_congr ready.length_rotations _ _
  turns := by
    have turns := takes.turns ready
    rw [← vectors_concat] at turns
    exact turns
  last_square := takes.last_square ready

/-- Where the basis can be continued the cycle is ready for the next step. -/
theorem ready (takes : cycle.Takes action z v column above corner next length rotation)
    (before : cycle.Ready action b frame left) (continued : next ≠ 0) :
    (cycle.grow z v above length rotation).Ready action b
      (frame ++ [rotation.settled left (entries v)]) (rotation.leftOver left (entries v)) where
  toReduced := takes.reduced before
  orthonormal := by
    have orthonormal := before.orthonormal.concat (takes.unit continued) takes.apart
    rw [← vectors_concat] at orthonormal
    exact orthonormal
  unit := by
    rw [takes.length_leftOver before, takes.unit continued, mul_one, takes.zeroes.circle]

end Cycle.Takes

variable {system : LinearSystem σ R n} {action : (Fin n → R) →ₗ[R] (Fin n → R)}

variable [IsStrictOrderedRing R]

/-- A cycle is ready at its start, where the residual is not zero. -/
theorem Cycle.ready_start (exact : system.Exact action) (roots : SquareRoots R) {x r : Vector R n}
    (follows : system.IsResidual action x r) (remains : system.op.comm.norm r ≠ 0) :
    (Cycle.start x r (system.op.comm.norm r)).Ready action (entries system.b) []
      (entries (divBy r (system.op.comm.norm r))) := by
  rw [exact.alone, norm_serial] at remains ⊢
  have unit := dotProduct_divBy roots r remains
  constructor
  case orthonormal => exact isOrthonormal_singleton unit
  case unit => exact unit
  constructor
  case residual_eq =>
    have known : entries r = entries system.b - action (entries x) := follows
    show entries system.b - action (entries x) =
      0 + euclidean (entries r) • entries (divBy r (euclidean (entries r)))
    rw [norm_smul_divBy roots, known, zero_add]
  case images => rfl
  case triangular => exact isTriangular_nil
  case length_settled => rfl
  case length_rotations => rfl
  case turns => exact turns_nil _
  case last_square => rw [unit, mul_one]

/-- The image of a direction in the basis, with the remainder as a further
vector. -/
theorem combine_orthogonalize (exact : system.Exact action) (roots : SquareRoots R)
    (basis : List (Vector R n)) (image : Vector R n) :
    entries image =
      combine ((orthogonalize system basis image).1 ++
          [system.op.comm.norm (orthogonalize system basis image).2])
        ((basis ++ [divBy (orthogonalize system basis image).2
          (system.op.comm.norm (orthogonalize system basis image).2)]).map entries) := by
  have whole : (orthogonalize system basis image).1.length = (basis.map entries).length := by
    rw [length_orthogonalize, List.length_map]
  rw [List.map_append, List.map_singleton, combine_concat _ _ _ _ whole, exact.alone, norm_serial,
    norm_smul_divBy roots]
  exact orthogonalize_eq system basis image

/-- The direction of a step can be taken: its image, made orthogonal to the
basis, is a column with the norm of the remainder as its last entry. -/
theorem Cycle.Ready.takes {cycle : Cycle R n} {frame : List (Fin n → R)} {left : Fin n → R}
    (ready : cycle.Ready action (entries system.b) frame left) (exact : system.Exact action)
    (roots : SquareRoots R) (hypotenuses : Hypotenuses R) {z image remainder : Vector R n}
    (known : entries image = action (entries z)) {column above : List R} {corner next length : R}
    (made : orthogonalize system (cycle.basis ++ [cycle.newest]) image = (column, remainder))
    (measured : next = system.op.comm.norm remainder)
    (rotated : rotateColumn cycle.rotations (column.headD 0) column.tail = (above, corner))
    (long : length = Roots.hypot corner next) (nonzero : length ≠ 0) :
    cycle.Takes action z (divBy remainder next) column above corner next length
      ⟨corner / length, next / length⟩ where
  image := by
    have whole := combine_orthogonalize exact roots (cycle.basis ++ [cycle.newest]) image
    rw [made, vectors_concat, known, ← measured] at whole
    exact whole
  length_column := by
    have size := length_orthogonalize system (cycle.basis ++ [cycle.newest]) image
    have basis := ready.turns.length_basis
    rw [vectors, List.length_map] at basis
    rw [made] at size
    rw [size, basis]
  rotated := rotated
  zeroes := by
    refine rotation_zeroes ?_ nonzero
    rw [long, hypotenuses]
  nonzero := nonzero
  apart := by
    intro w inside
    have apart := orthogonalize_orthogonal exact.alone (cycle.basis ++ [cycle.newest]) image
      ready.orthonormal w inside
    rw [made] at apart
    rw [entries_divBy, smul_dotProduct, apart, smul_zero]
  unit := by
    rw [measured, exact.alone, norm_serial]
    exact dotProduct_divBy roots remainder
  still := by
    intro none
    show next / length = 0
    rw [none, zero_div]

/-- A step of a cycle keeps what the data says about the start of the cycle,
and makes the cycle ready for the next step unless the basis cannot be
continued. -/
theorem step_yields (exact : system.Exact action) (roots : SquareRoots R)
    (hypotenuses : Hypotenuses R) (method : KrylovMethod) (iteration : Nat) {cycle : Cycle R n}
    {frame : List (Fin n → R)} {left : Fin n → R}
    (ready : cycle.Ready action (entries system.b) frame left) :
    (step system method iteration cycle).Yields fun taken =>
      taken.cycle.x = cycle.x ∧ ∃ frame left,
        taken.extend.Reduced action (entries system.b) frame left ∧
          (taken.next ≠ 0 → taken.extend.Ready action (entries system.b) frame left) := by
  rw [step_eq]
  refine Attempt.Yields.bind (Attempt.yields_any _) ?_
  intro z _
  refine Attempt.Yields.bind (exact.apply_yields cycle.x z) ?_
  intro image known
  rcases made : orthogonalize system (cycle.basis ++ [cycle.newest]) image with ⟨column, remainder⟩
  rcases rotated : rotateColumn cycle.rotations (column.headD 0) column.tail with ⟨above, corner⟩
  dsimp only
  rw [rotated]
  dsimp only
  split
  · exact Attempt.yields_fail _
  · rename_i remains
    have nonzero : Roots.hypot corner (system.op.comm.norm remainder) ≠ 0 := fun none =>
      remains (beq_iff_eq.mpr none)
    have takes := ready.takes exact roots hypotenuses known made rfl rotated rfl nonzero
    apply Attempt.yields_pure
    exact ⟨rfl, _, _, takes.reduced ready, takes.ready ready⟩

end HexSlab.MinimalResiduals
