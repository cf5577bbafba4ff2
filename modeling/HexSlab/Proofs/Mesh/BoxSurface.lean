import HexSlab.Proofs.Mesh.HexahedronFaces
import HexSlab.Proofs.Mesh.NodeSharing

/-!
# The nodes on the surface of the box

A process finds the nodes of its slab on the sides along X and Y by their places.
The bottom and the top of the box it looks for by its rank alone, on the first and
on the last process. That is the whole surface exactly if no other process has a
layer there, which holds where no slab is empty: an empty slab at an end of the
intervals puts the layer of that end on its neighbour too, which leaves it out.
-/

namespace HexSlab.Mesh

variable {R : Type} {split : ZSplit}

/-- A point of the whole mesh lies on a face of the box. -/
def OnFace (mesh : Mesh R) (p : LatticePoint) : Face → Prop
  | .minX => p.i = 0
  | .maxX => p.i = mesh.numX
  | .minY => p.j = 0
  | .maxY => p.j = mesh.numY
  | .minZ => p.k = 0
  | .maxZ => p.k = mesh.numZ

/-- The lattice point, in the slab, of a node that is counted from zero. -/
def slabPoint (mesh : Mesh R) (place : Nat) : LatticePoint := mesh.latticeAt (place + 1)

/-- The lattice point of a node, with the layers counted from the bottom of the box. -/
def boxPoint (mesh : Mesh R) (place : Nat) : LatticePoint :=
  (mesh.slabPoint place).raise mesh.slab.start

/-- The face is one that this process looks for nodes on. -/
def LooksAt (mesh : Mesh R) : Face → Prop
  | .minX => True
  | .maxX => True
  | .minY => True
  | .maxY => True
  | .minZ => mesh.layout.isFirst = true
  | .maxZ => mesh.layout.isLast = true

/-- What this process finds is the part of the surface of the box in its slab. -/
structure FindsSurface (mesh : Mesh R) : Prop where
  /-- The nodes on a face are those whose lattice points lie on it. -/
  faces : ∀ face place, (mesh.faceNodes face).contains place = true ↔
    place < mesh.ownNodeCount ∧ mesh.OnFace (mesh.boxPoint place) face
  /-- The nodes on the surface are those whose lattice points lie on some face. -/
  surface : ∀ place, mesh.boundaryNodes.contains place = true ↔
    place < mesh.ownNodeCount ∧ ∃ face, mesh.OnFace (mesh.boxPoint place) face

/-- The bottom and the top of the box are in the slab of this process only if it is
the first and the last one. -/
structure EndsApart (mesh : Mesh R) : Prop where
  /-- Only the first process has the bottom. -/
  bottom : mesh.slab.start = 0 → mesh.layout.isFirst = true
  /-- Only the last process has the top. -/
  top : mesh.slab.start + mesh.slab.count = mesh.numZ → mesh.layout.isLast = true

/-- A node in the slab lies in the lattice of the slab. -/
theorem slabPoint_le (mesh : Mesh R) {place : Nat} (inside : place < mesh.ownNodeCount) :
    (mesh.slabPoint place).i ≤ mesh.numX ∧ (mesh.slabPoint place).j ≤ mesh.numY ∧
      (mesh.slabPoint place).k ≤ mesh.slab.count := by
  have layer : place / mesh.layerNodes < mesh.slab.count + 1 := Nat.div_lt_of_lt_mul inside
  exact ⟨Nat.le_of_lt_succ (Nat.mod_lt _ (Nat.succ_pos _)),
    Nat.le_of_lt_succ (Nat.mod_lt _ (Nat.succ_pos _)), Nat.le_of_lt_succ layer⟩

/-- The place of a lattice point is that of no other point. -/
theorem nodePlace_eq_iff (mesh : Mesh R) {i j k place : Nat} (insideX : i ≤ mesh.numX)
    (insideY : j ≤ mesh.numY) :
    mesh.nodePlace i j k = place ↔ mesh.slabPoint place = ⟨i, j, k⟩ := by
  constructor
  · rintro rfl
    exact latticeAt_nodeAt mesh (p := ⟨i, j, k⟩) insideX insideY
  · intro point
    -- a number is made of its remainders by rows and layers
    obtain ⟨rfl, rfl, rfl⟩ := LatticePoint.mk.inj point
    have rows := Nat.div_add_mod place (mesh.numX + 1)
    have layers := Nat.div_add_mod (place / (mesh.numX + 1)) (mesh.numY + 1)
    rw [Nat.div_div_eq_div_mul] at layers
    simp only [nodePlace, layerNodes, Nat.add_sub_cancel]
    calc place / ((mesh.numX + 1) * (mesh.numY + 1)) * ((mesh.numX + 1) * (mesh.numY + 1)) +
          place / (mesh.numX + 1) % (mesh.numY + 1) * (mesh.numX + 1) + place % (mesh.numX + 1)
        = (mesh.numX + 1) * ((mesh.numY + 1) * (place / ((mesh.numX + 1) * (mesh.numY + 1))) +
            place / (mesh.numX + 1) % (mesh.numY + 1)) + place % (mesh.numX + 1) := by ring
      _ = place := by rw [layers, rows]

/-- The nodes of the slab at one place along X. -/
theorem mem_acrossX_iff {mesh : Mesh R} {place i : Nat} (inside : place < mesh.ownNodeCount)
    (insideX : i ≤ mesh.numX) :
    place ∈ grid2 (mesh.slab.count + 1) (mesh.numY + 1) (fun k j => mesh.nodePlace i j k) ↔
      (mesh.slabPoint place).i = i := by
  rw [mem_grid2]
  constructor
  · rintro ⟨k, -, j, along, here⟩
    rw [nodePlace_eq_iff mesh insideX (Nat.le_of_lt_succ along)] at here
    rw [here]
  · intro across
    obtain ⟨-, alongY, alongZ⟩ := mesh.slabPoint_le inside
    refine ⟨_, Nat.lt_succ_of_le alongZ, _, Nat.lt_succ_of_le alongY, ?_⟩
    rw [nodePlace_eq_iff mesh insideX alongY, ← across]

/-- The nodes of the slab at one place along Y. -/
theorem mem_acrossY_iff {mesh : Mesh R} {place j : Nat} (inside : place < mesh.ownNodeCount)
    (insideY : j ≤ mesh.numY) :
    place ∈ grid2 (mesh.slab.count + 1) (mesh.numX + 1) (fun k i => mesh.nodePlace i j k) ↔
      (mesh.slabPoint place).j = j := by
  rw [mem_grid2]
  constructor
  · rintro ⟨k, -, i, along, here⟩
    rw [nodePlace_eq_iff mesh (Nat.le_of_lt_succ along) insideY] at here
    rw [here]
  · intro across
    obtain ⟨alongX, -, alongZ⟩ := mesh.slabPoint_le inside
    refine ⟨_, Nat.lt_succ_of_le alongZ, _, Nat.lt_succ_of_le alongX, ?_⟩
    rw [nodePlace_eq_iff mesh alongX insideY, ← across]

/-- The nodes of one layer of the slab. -/
theorem mem_layer_iff {mesh : Mesh R} {place layer : Nat} :
    place ∈ List.range' (layer * mesh.layerNodes) mesh.layerNodes ↔
      (mesh.slabPoint place).k = layer := by
  have some := mesh.layerNodes_pos
  have here : (mesh.slabPoint place).k = place / mesh.layerNodes := rfl
  rw [here, Nat.div_eq_iff some, List.mem_range'_1]
  omega

/-- A process finds, on the faces that it looks at, the nodes that lie there. -/
theorem Accepted.contains_faceNodes_iff {mesh : Mesh R} (accepted : mesh.Accepted split)
    {face : Face} {place : Nat} :
    (mesh.faceNodes face).contains place = true ↔
      place < mesh.ownNodeCount ∧ mesh.OnFace (mesh.boxPoint place) face ∧ mesh.LooksAt face := by
  simp only [faceNodes, NodeSet.contains_insertAll, NodeSet.contains_empty,
    NodeSet.capacity_empty, Bool.false_or, Bool.and_eq_true, List.contains_iff_mem,
    decide_eq_true_eq]
  rw [and_comm]
  refine and_congr_right fun inside => ?_
  cases face with
  | minX => exact (mem_acrossX_iff inside (Nat.zero_le _)).trans (iff_of_eq (and_true _)).symm
  | maxX => exact (mem_acrossX_iff inside le_rfl).trans (iff_of_eq (and_true _)).symm
  | minY => exact (mem_acrossY_iff inside (Nat.zero_le _)).trans (iff_of_eq (and_true _)).symm
  | maxY => exact (mem_acrossY_iff inside le_rfl).trans (iff_of_eq (and_true _)).symm
  | minZ =>
    cases first : mesh.layout.isFirst with
    | false => simp only [LooksAt, first, Bool.false_eq_true, if_false, List.not_mem_nil, and_false]
    | true =>
      have bottom : List.range mesh.layerNodes = List.range' (0 * mesh.layerNodes)
          mesh.layerNodes := by rw [Nat.zero_mul, List.range_eq_range']
      simp only [LooksAt, OnFace, boxPoint, LatticePoint.raise,
        accepted.start_slab_of_isFirst first, first, if_true, and_true, Nat.zero_add, bottom,
        mem_layer_iff]
  | maxZ =>
    cases last : mesh.layout.isLast with
    | false => simp only [LooksAt, last, Bool.false_eq_true, if_false, List.not_mem_nil, and_false]
    | true =>
      have top := accepted.slab_end_of_isLast last
      simp only [LooksAt, OnFace, boxPoint, LatticePoint.raise, last, if_true, and_true,
        mem_layer_iff, ← top, Nat.add_left_cancel_iff]

/-- A union of sets has the members of each of them. -/
theorem contains_foldl_union {sets : Face → NodeSet} (faces : List Face) (start : NodeSet)
    (place : Nat) :
    (faces.foldl (fun set face => set.union (sets face)) start).contains place = true ↔
      start.contains place = true ∨ ∃ face ∈ faces, (sets face).contains place = true := by
  induction faces generalizing start with
  | nil => simp only [List.foldl_nil, List.not_mem_nil, false_and, exists_false, or_false]
  | cons face rest ih =>
    rw [List.foldl_cons, ih, NodeSet.contains_union, Bool.or_eq_true, List.exists_mem_cons_iff,
      or_assoc]

/-- The surface that a process finds is made of the faces that it looks at. -/
theorem contains_boundaryNodes_iff {mesh : Mesh R} {place : Nat} :
    mesh.boundaryNodes.contains place = true ↔
      ∃ face, (mesh.faceNodes face).contains place = true := by
  rw [boundaryNodes, contains_foldl_union, NodeSet.contains_empty]
  simp only [Bool.false_eq_true, false_or, Face.mem_all, true_and]

/-- The lowest and the highest layer of a slab have nodes. -/
theorem exists_slabPoint (mesh : Mesh R) {layer : Nat} (within : layer ≤ mesh.slab.count) :
    ∃ place < mesh.ownNodeCount, (mesh.slabPoint place).k = layer := by
  have some := mesh.layerNodes_pos
  have next : layer * mesh.layerNodes < mesh.layerNodes * (mesh.slab.count + 1) := by
    rw [Nat.mul_comm]
    exact Nat.mul_lt_mul_of_pos_left (Nat.lt_succ_of_le within) some
  exact ⟨layer * mesh.layerNodes, next, Nat.mul_div_cancel layer some⟩

/-- A process finds the surface in its slab exactly if the bottom and the top of the
box are in no slab between the first and the last. -/
theorem Accepted.findsSurface_iff {mesh : Mesh R} (accepted : mesh.Accepted split) :
    mesh.FindsSurface ↔ mesh.EndsApart := by
  constructor
  · intro finds
    constructor
    · intro bottom
      obtain ⟨place, inside, lowest⟩ := mesh.exists_slabPoint (Nat.zero_le _)
      have here : mesh.OnFace (mesh.boxPoint place) .minZ := by
        simp only [OnFace, boxPoint, LatticePoint.raise, bottom, lowest]
      have found := (finds.faces .minZ place).mpr ⟨inside, here⟩
      exact (accepted.contains_faceNodes_iff.mp found).2.2
    · intro top
      obtain ⟨place, inside, highest⟩ := mesh.exists_slabPoint (Nat.le_refl _)
      have here : mesh.OnFace (mesh.boxPoint place) .maxZ := by
        simp only [OnFace, boxPoint, LatticePoint.raise, ← top, highest]
      have found := (finds.faces .maxZ place).mpr ⟨inside, here⟩
      exact (accepted.contains_faceNodes_iff.mp found).2.2
  · intro apart
    have looks {face : Face} {place : Nat} (inside : place < mesh.ownNodeCount)
        (here : mesh.OnFace (mesh.boxPoint place) face) : mesh.LooksAt face := by
      have within := (mesh.slabPoint_le inside).2.2
      have among := accepted.slab_le
      cases face with
      | minX | maxX | minY | maxY => trivial
      | minZ =>
        simp only [OnFace, boxPoint, LatticePoint.raise] at here
        exact apart.bottom (by omega)
      | maxZ =>
        simp only [OnFace, boxPoint, LatticePoint.raise] at here
        exact apart.top (by omega)
    have faces (face : Face) (place : Nat) : (mesh.faceNodes face).contains place = true ↔
        place < mesh.ownNodeCount ∧ mesh.OnFace (mesh.boxPoint place) face := by
      rw [accepted.contains_faceNodes_iff]
      exact ⟨fun found => ⟨found.1, found.2.1⟩,
        fun found => ⟨found.1, found.2, looks found.1 found.2⟩⟩
    refine ⟨faces, fun place => ?_⟩
    rw [contains_boundaryNodes_iff]
    simp only [faces, exists_and_left]

/-- Where no slab is empty, only the first and the last process reach the ends of the
intervals. -/
theorem Accepted.endsApart {mesh : Mesh R} (accepted : mesh.Accepted split)
    (filled : ∀ rank < mesh.layout.count,
      split.boundary mesh.layout.count rank < split.boundary mesh.layout.count (rank + 1)) :
    mesh.EndsApart := by
  have inside := mesh.layout.rank_lt
  have rises := split.boundary_mono mesh.layout.count
  constructor
  · intro bottom
    rw [Layout.isFirst, beq_iff_eq]
    by_contra later
    -- the slab of the first process would lie below zero
    have first := filled 0 (Nat.zero_lt_of_lt inside)
    have rise := rises (show 0 + 1 ≤ mesh.layout.rank from Nat.pos_of_ne_zero later)
    rw [accepted.start_slab] at bottom
    omega
  · intro top
    rw [Layout.isLast, beq_iff_eq]
    by_contra earlier
    have next : mesh.layout.rank + 1 < mesh.layout.count := by omega
    have last := filled _ next
    have rise := rises (show mesh.layout.rank + 1 + 1 ≤ mesh.layout.count from next)
    rw [accepted.start_add_count_slab] at top
    rw [accepted.boundary_processes] at rise
    omega

section Runs

variable [Scalar R] [Trigonometry R]

/-- Every process of a run that makes the same calls has an interval along Z. -/
def EachHasInterval (numX numY numZ : Nat) (settings : List (Setting R)) (processes : Nat) :
    Prop :=
  ∀ layout : Layout, layout.count = processes → ∀ own : Mesh R,
    build numX numY numZ settings layout = .ok own → 0 < own.slab.count

/-- On every mesh that can be built, a process finds the nodes that lie on the faces
it looks at. What it finds is the whole surface in its slab exactly if no process
between the first and the last reaches the bottom or the top, as where every process
has an interval. -/
theorem surface_found_iff_ends_apart {numX numY numZ : Nat}
    {settings : List (Setting R)} {layout : Layout} {mesh : Mesh R}
    (built : build numX numY numZ settings layout = .ok mesh) :
    (∀ face place, (mesh.faceNodes face).contains place = true ↔
      place < mesh.ownNodeCount ∧ mesh.OnFace (mesh.boxPoint place) face ∧ mesh.LooksAt face) ∧
    (∀ place, mesh.boundaryNodes.contains place = true ↔
      place < mesh.ownNodeCount ∧
        ∃ face, mesh.OnFace (mesh.boxPoint place) face ∧ mesh.LooksAt face) ∧
    (mesh.FindsSurface ↔ mesh.EndsApart) ∧
    (EachHasInterval numX numY numZ settings layout.count → mesh.FindsSurface) := by
  obtain ⟨split, rfl, accepted, elsewhere⟩ := exists_split_of_build built
  refine ⟨fun face place => accepted.contains_faceNodes_iff, fun place => ?_,
    accepted.findsSurface_iff, fun each => ?_⟩
  · rw [contains_boundaryNodes_iff]
    simp only [accepted.contains_faceNodes_iff, exists_and_left]
  · refine accepted.findsSurface_iff.mpr (accepted.endsApart fun rank inside => ?_)
    let other : Layout := ⟨mesh.layout.count, rank, inside⟩
    have own : 0 < (split.slab other).count := each other rfl _ (elsewhere other rfl)
    have next := split.start_add_count_slab other
    rw [split.start_slab] at next
    exact next ▸ Nat.lt_add_of_pos_right own

end Runs

/-- Three layers split one to two: the upper process finds the whole surface in its
slab. -/
theorem surface_found_iff_ends_apart_upper :
    ∃ mesh : Mesh Float,
      build 2 2 3 [.split [1, 2]] ⟨2, 1, by decide⟩ = .ok mesh ∧
        mesh.boundaryNodes.contains 4 = false ∧ mesh.boundaryNodes.contains 22 = true ∧
        EachHasInterval (R := Float) 2 2 3 [.split [1, 2]] 2 ∧ mesh.FindsSurface := by
  have built : build 2 2 3 [.split [1, 2]] ⟨2, 1, by decide⟩ =
      .ok ((unit 2 2 3 ⟨2, 1, by decide⟩ : Mesh Float).configure [.split [1, 2]]) := rfl
  have each : EachHasInterval (R := Float) 2 2 3 [.split [1, 2]] 2 := by
    rintro ⟨count, rank, inside⟩ (rfl : count = 2) own made
    match rank, inside with
    | 0, _ => exact Except.ok.inj made ▸ Nat.one_pos
    | 1, _ => exact Except.ok.inj made ▸ Nat.two_pos
  exact ⟨_, built, by decide, by decide, each, (surface_found_iff_ends_apart built).2.2.2 each⟩

/-- Two layers on the upper of two processes, none on the lower: the node in the
middle of the bottom is in the slab of the upper process, which does not find it. -/
theorem bottom_not_found_above_empty_slab :
    ∃ mesh : Mesh Float,
      build 2 2 2 [.split [0, 2]] ⟨2, 1, by decide⟩ = .ok mesh ∧
        4 < mesh.ownNodeCount ∧ mesh.OnFace (mesh.boxPoint 4) .minZ ∧
        (mesh.faceNodes .minZ).contains 4 = false ∧ mesh.boundaryNodes.contains 4 = false ∧
        ¬mesh.FindsSurface := by
  have built : build 2 2 2 [.split [0, 2]] ⟨2, 1, by decide⟩ =
      .ok ((unit 2 2 2 ⟨2, 1, by decide⟩ : Mesh Float).configure [.split [0, 2]]) := rfl
  refine ⟨_, built, by decide, rfl, by decide, by decide, fun finds => ?_⟩
  have found := (finds.faces .minZ 4).mpr ⟨by decide, rfl⟩
  exact absurd found (by decide)

end HexSlab.Mesh
