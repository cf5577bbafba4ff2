import HexSlab.Proofs.Mesh.BoxSurface
import HexSlab.Proofs.Sparse.LaplacianSpectrum

/-!
# The seven points of a row

A row of the Laplacian has six at its own node and minus one at each node whose point
in the lattice of the slab is one step away in one direction. The places of these nodes
are all different, so no two entries of a row are added together, whatever the arithmetic
is; and the next number after the end of a line of the lattice belongs to no neighbour.
Each edge of the lattice is met from both of its ends, which gives the number of entries.
-/

namespace HexSlab

/-- An item that is only there under a condition comes once if it is in no later part. -/
theorem nodup_ite_append {α : Type} {here : Prop} [Decidable here] (a : α) (rest : List α) :
    ((if here then [a] else []) ++ rest).Nodup ↔ (here → a ∉ rest) ∧ rest.Nodup := by
  by_cases taken : here
  · rw [if_pos taken, List.singleton_append, List.nodup_cons, imp_iff_right taken]
  · rw [if_neg taken, List.nil_append]
    exact ⟨fun unique => ⟨fun here => absurd here taken, unique⟩, And.right⟩

namespace Triplets

variable {R : Type} [Scalar R]

/-- A value at a new column is a further entry of a row. -/
theorem addToRow_perm {column : Nat} {value : R} {row : List (Nat × R)}
    (new : column ∉ row.map (·.1)) :
    (addToRow column value row).Perm ((column, value) :: row) := by
  induction row with
  | nil => exact .refl _
  | cons entry rest ih =>
    rw [List.map_cons, List.mem_cons, not_or] at new
    unfold addToRow
    split
    · exact .refl _
    · rw [if_neg new.1]
      exact ((ih new.2).cons entry).trans (.swap _ _ _)

/-- Values at columns that come only once are further entries of a row. -/
theorem foldl_addToRow_perm (added row : List (Nat × R))
    (unique : ((added ++ row).map (·.1)).Nodup) :
    (added.foldl (fun row entry => addToRow entry.1 entry.2 row) row).Perm (added ++ row) := by
  induction added generalizing row with
  | nil => exact .refl _
  | cons entry rest ih =>
    rw [List.cons_append, List.map_cons, List.nodup_cons, List.map_append, List.mem_append,
      not_or] at unique
    have new : (addToRow entry.1 entry.2 row).Perm (entry :: row) := addToRow_perm unique.1.2
    have moved : (rest ++ addToRow entry.1 entry.2 row).Perm (entry :: (rest ++ row)) :=
      (new.append_left rest).trans List.perm_middle
    have kept : ((rest ++ addToRow entry.1 entry.2 row).map (·.1)).Nodup := by
      rw [(moved.map (·.1)).nodup_iff, List.map_cons, List.map_append, List.nodup_cons,
        List.mem_append, not_or]
      exact unique
    exact (ih _ kept).trans moved

/-- Triplets whose columns come only once in a row are the entries of that row. -/
theorem row_toCsr_perm (triplets : Triplets R) {i : Nat} (inside : i < triplets.rowCount)
    {row : List (Nat × R)} (listed : (triplets.entries.filter fun e => e.1 == i).map (·.2) = row)
    (unique : (row.map (·.1)).Nodup) : (triplets.toCsr.row i).Perm row := by
  rw [triplets.row_toCsr_eq_foldl inside, listed]
  have perm := foldl_addToRow_perm row []
  rw [List.append_nil] at perm
  exact perm unique

/-- The entries of all rows together are those of the matrix. -/
theorem entryCount_toCsr (triplets : Triplets R) :
    triplets.toCsr.entryCount =
      ∑ i ∈ Finset.range triplets.rowCount, (triplets.toCsr.row i).length := by
  have rows : triplets.rows.toList = (List.range triplets.rowCount).map triplets.toCsr.row := by
    refine List.ext_getElem ?_ fun i inside listed => ?_
    · rw [List.length_map, List.length_range, Array.length_toList, triplets.size_rows]
    · rw [List.length_map, List.length_range] at listed
      rw [List.getElem_map, List.getElem_range, triplets.row_toCsr listed,
        Array.getD_eq_getD_getElem?, Array.getElem?_eq_getElem, Option.getD_some,
        Array.getElem_toList]
  have entries : triplets.toCsr.entryCount = triplets.rows.toList.flatten.length := by
    show (triplets.rows.toList.flatten.map (·.2)).length = _
    rw [List.length_map]
  rw [entries, rows, List.length_flatten, List.map_map]
  rfl

end Triplets

namespace Extents

/-- The point of the lattice with a number. -/
def pointAt (extents : Extents) (place : Nat) : LatticePoint :=
  ⟨place % extents.x, place / extents.x % extents.y, place / (extents.x * extents.y)⟩

/-- A point has the number of its place. -/
theorem place_pointAt (extents : Extents) (place : Nat) :
    extents.place (extents.pointAt place).i (extents.pointAt place).j
      (extents.pointAt place).k = place := by
  show (place / (extents.x * extents.y) * extents.y + place / extents.x % extents.y) * extents.x +
    place % extents.x = place
  rw [← Nat.div_div_eq_div_mul, Nat.div_add_mod', Nat.div_add_mod']

/-- The number of a place is that of its point. -/
theorem pointAt_place (extents : Extents) {i j : Nat} (k : Nat) (insideX : i < extents.x)
    (insideY : j < extents.y) : extents.pointAt (extents.place i j k) = ⟨i, j, k⟩ := by
  have line := (Nat.div_mod_unique (Nat.zero_lt_of_lt insideX)).mpr
    ⟨(by rw [place]; ring : i + extents.x * (k * extents.y + j) = extents.place i j k), insideX⟩
  have layer := (Nat.div_mod_unique (Nat.zero_lt_of_lt insideY)).mpr
    ⟨(by ring : j + extents.y * k = k * extents.y + j), insideY⟩
  rw [pointAt, ← Nat.div_div_eq_div_mul, line.1, line.2, layer.1, layer.2]

/-- No two numbers are those of one point. -/
theorem pointAt_injective (extents : Extents) : Function.Injective extents.pointAt := by
  intro place other same
  rw [← extents.place_pointAt place, same, extents.place_pointAt]

/-- The points one step away from a point in one direction. -/
def beside (extents : Extents) (p : LatticePoint) : List LatticePoint :=
  (if 0 < p.i then [{ p with i := p.i - 1 }] else []) ++
    (if p.i + 1 < extents.x then [{ p with i := p.i + 1 }] else []) ++
    (if 0 < p.j then [{ p with j := p.j - 1 }] else []) ++
    (if p.j + 1 < extents.y then [{ p with j := p.j + 1 }] else []) ++
    (if 0 < p.k then [{ p with k := p.k - 1 }] else []) ++
    if p.k + 1 < extents.z then [{ p with k := p.k + 1 }] else []

/-- The neighbours of a place are the places of these points. -/
theorem map_pointAt_neighbours (extents : Extents) {p : LatticePoint} (insideX : p.i < extents.x)
    (insideY : p.j < extents.y) :
    (extents.neighbours p.i p.j p.k).map extents.pointAt = extents.beside p := by
  have one {here : Prop} [Decidable here] {i j k : Nat}
      (inside : here → i < extents.x ∧ j < extents.y) :
      (if here then [extents.place i j k] else []).map extents.pointAt =
        if here then [⟨i, j, k⟩] else [] := by
    by_cases taken : here
    · rw [if_pos taken, if_pos taken, List.map_singleton,
        extents.pointAt_place k (inside taken).1 (inside taken).2]
    · rw [if_neg taken, if_neg taken, List.map_nil]
  simp only [neighbours, List.map_append, beside]
  rw [one fun _ => ⟨by omega, insideY⟩, one fun right => ⟨right, insideY⟩,
    one fun _ => ⟨insideX, by omega⟩, one fun back => ⟨insideX, back⟩,
    one fun _ => ⟨insideX, insideY⟩, one fun _ => ⟨insideX, insideY⟩]

/-- The points beside a point are different from it and from one another. -/
theorem nodup_beside (extents : Extents) (p : LatticePoint) : (p :: extents.beside p).Nodup := by
  obtain ⟨i, j, k⟩ := p
  have last {here : Prop} [Decidable here] (a : LatticePoint) :
      (if here then [a] else []).Nodup := by
    split
    · exact List.nodup_singleton a
    · exact List.nodup_nil
  simp only [beside, List.append_assoc, List.nodup_cons, nodup_ite_append, List.mem_append,
    List.mem_ite_nil_right, List.mem_singleton, LatticePoint.mk.injEq, last, and_true]
  omega

/-- They are the points of the lattice with a step along an axis between. -/
theorem mem_beside_iff (extents : Extents) {p q : LatticePoint} (insideX : p.i < extents.x)
    (insideY : p.j < extents.y) (insideZ : p.k < extents.z) :
    q ∈ extents.beside p ↔ (q.i < extents.x ∧ q.j < extents.y ∧ q.k < extents.z) ∧
      ∃ axis, p.next axis = q ∨ q.next axis = p := by
  obtain ⟨i, j, k⟩ := p
  simp only [beside, List.mem_append, List.mem_ite_nil_right, List.mem_singleton]
  constructor
  · rintro (((((⟨some, rfl⟩ | ⟨more, rfl⟩) | ⟨some, rfl⟩) | ⟨more, rfl⟩) | ⟨some, rfl⟩) |
      ⟨more, rfl⟩)
    · refine ⟨⟨(Nat.sub_le i 1).trans_lt insideX, insideY, insideZ⟩, .x, .inr ?_⟩
      rw [LatticePoint.next, Nat.sub_add_cancel some]
    · exact ⟨⟨more, insideY, insideZ⟩, .x, .inl rfl⟩
    · refine ⟨⟨insideX, (Nat.sub_le j 1).trans_lt insideY, insideZ⟩, .y, .inr ?_⟩
      rw [LatticePoint.next, Nat.sub_add_cancel some]
    · exact ⟨⟨insideX, more, insideZ⟩, .y, .inl rfl⟩
    · refine ⟨⟨insideX, insideY, (Nat.sub_le k 1).trans_lt insideZ⟩, .z, .inr ?_⟩
      rw [LatticePoint.next, Nat.sub_add_cancel some]
    · exact ⟨⟨insideX, insideY, more⟩, .z, .inl rfl⟩
  · rintro ⟨⟨withinX, withinY, withinZ⟩, axis, up | down⟩
    · subst up
      cases axis with
      | x => exact .inl (.inl (.inl (.inl (.inr ⟨withinX, rfl⟩))))
      | y => exact .inl (.inl (.inr ⟨withinY, rfl⟩))
      | z => exact .inr ⟨withinZ, rfl⟩
    · cases axis with
      | x =>
        obtain ⟨rfl, rfl, rfl⟩ := LatticePoint.mk.inj down
        exact .inl (.inl (.inl (.inl (.inl ⟨Nat.succ_pos _, rfl⟩))))
      | y =>
        obtain ⟨rfl, rfl, rfl⟩ := LatticePoint.mk.inj down
        exact .inl (.inl (.inl (.inr ⟨Nat.succ_pos _, rfl⟩)))
      | z =>
        obtain ⟨rfl, rfl, rfl⟩ := LatticePoint.mk.inj down
        exact .inl (.inr ⟨Nat.succ_pos _, rfl⟩)

/-- The neighbours of a place are the places of the lattice whose points are a step along
an axis away. -/
theorem mem_neighbours_iff (extents : Extents) {p : LatticePoint} (insideX : p.i < extents.x)
    (insideY : p.j < extents.y) (insideZ : p.k < extents.z) {place : Nat} :
    place ∈ extents.neighbours p.i p.j p.k ↔ place < extents.x * extents.y * extents.z ∧
      ∃ axis, p.next axis = extents.pointAt place ∨ (extents.pointAt place).next axis = p := by
  rw [← List.mem_map_of_injective extents.pointAt_injective,
    extents.map_pointAt_neighbours insideX insideY, extents.mem_beside_iff insideX insideY insideZ]
  refine and_congr_left fun _ => ⟨fun within => ?_, fun inside => ?_⟩
  · have bound := extents.place_lt within.1 within.2.1 within.2.2
    rw [extents.place_pointAt] at bound
    exact bound
  · have lines : 0 < extents.x := Nat.zero_lt_of_lt insideX
    have rows : 0 < extents.y := Nat.zero_lt_of_lt insideY
    exact ⟨Nat.mod_lt _ lines, Nat.mod_lt _ rows, Nat.div_lt_of_lt_mul inside⟩

variable {R : Type} [Scalar R]

/-- The entries of a row of the Laplacian: six at its place, and minus one at each
neighbour. -/
def stencilRow (extents : Extents) (p : LatticePoint) : List (Nat × R) :=
  (extents.place p.i p.j p.k, Scalar.ofNat 6) ::
    (extents.neighbours p.i p.j p.k).map fun column => (column, -1)

/-- The places of these entries are all different. -/
theorem nodup_stencilRow (extents : Extents) {p : LatticePoint} (insideX : p.i < extents.x)
    (insideY : p.j < extents.y) : ((extents.stencilRow p : List (Nat × R)).map (·.1)).Nodup := by
  have columns : ((extents.stencilRow p : List (Nat × R)).map (·.1)) =
      extents.place p.i p.j p.k :: extents.neighbours p.i p.j p.k := by
    rw [stencilRow, List.map_cons, List.map_map]
    exact congrArg _ (List.map_id _)
  rw [columns]
  refine List.Nodup.of_map extents.pointAt ?_
  rw [List.map_cons, extents.pointAt_place p.k insideX insideY,
    extents.map_pointAt_neighbours insideX insideY]
  exact extents.nodup_beside p

/-- No two of the triplets of a row are added together. -/
theorem row_laplacian_perm (extents : Extents) {p : LatticePoint} (insideX : p.i < extents.x)
    (insideY : p.j < extents.y) (insideZ : p.k < extents.z) :
    ((extents.laplacianTriplets : Triplets R).toCsr.row (extents.place p.i p.j p.k)).Perm
      (extents.stencilRow p) := by
  refine Triplets.row_toCsr_perm _ (extents.place_lt insideX insideY insideZ) ?_
    (extents.nodup_stencilRow insideX insideY)
  rw [extents.filter_laplacianTriplets insideX insideY insideZ, stencil, stencilRow,
    List.map_cons, List.map_map]
  rfl

/-- The number of neighbours of the places along a line: each step of the line is met from
both of its ends. -/
theorem sum_besideOnLine_one (last : Nat) :
    ∑ i ∈ Finset.range (last + 1), besideOnLine (last + 1) (fun _ => (1 : Int)) i = 2 * last := by
  have pairs := sum_mul_besideOnLine last (fun _ => (1 : Int)) fun _ => 1
  simp only [one_mul, Finset.sum_const, Finset.card_range, nsmul_eq_mul] at pairs
  rw [pairs]
  ring

/-- The neighbours of all places are twice as many as the edges of the lattice. -/
theorem sum_length_neighbours (x y z : Nat) :
    ∑ k ∈ Finset.range (z + 1), ∑ j ∈ Finset.range (y + 1), ∑ i ∈ Finset.range (x + 1),
      ((⟨x + 1, y + 1, z + 1⟩ : Extents).neighbours i j k).length =
        2 * (x * (y + 1) * (z + 1) + (x + 1) * y * (z + 1) + (x + 1) * (y + 1) * z) := by
  have ones (i j k : Nat) : (((⟨x + 1, y + 1, z + 1⟩ : Extents).neighbours i j k).length : Int) =
      besideOnLine (x + 1) (fun _ => 1) i + besideOnLine (y + 1) (fun _ => 1) j +
        besideOnLine (z + 1) (fun _ => 1) k := by
    rw [← sum_neighbours (⟨x + 1, y + 1, z + 1⟩ : Extents) (fun _ => (1 : Int)) i j k,
      List.map_const', List.sum_replicate, nsmul_one]
  zify
  simp only [ones, Finset.sum_add_distrib, sum_besideOnLine_one, Finset.sum_const,
    Finset.card_range, nsmul_eq_mul, ← Finset.mul_sum]
  push_cast
  ring

/-- A row of the Laplacian has an entry for its place and one for each neighbour. -/
theorem length_row_laplacian (extents : Extents) {i j k : Nat} (insideX : i < extents.x)
    (insideY : j < extents.y) (insideZ : k < extents.z) :
    ((extents.laplacianTriplets : Triplets R).toCsr.row (extents.place i j k)).length =
      1 + (extents.neighbours i j k).length := by
  have perm := extents.row_laplacian_perm (R := R) (p := ⟨i, j, k⟩) insideX insideY insideZ
  rw [perm.length_eq, stencilRow, List.length_cons, List.length_map, Nat.add_comm]

/-- The entries of the Laplacian are as many as the places and all their neighbours. -/
theorem entryCount_eq_sum (extents : Extents) :
    (extents.laplacianTriplets : Triplets R).toCsr.entryCount =
      extents.x * extents.y * extents.z +
        ∑ k ∈ Finset.range extents.z, ∑ j ∈ Finset.range extents.y,
          ∑ i ∈ Finset.range extents.x, (extents.neighbours i j k).length := by
  have places : ∑ k ∈ Finset.range extents.z, ∑ j ∈ Finset.range extents.y,
      ∑ i ∈ Finset.range extents.x, 1 = extents.x * extents.y * extents.z := by
    rw [← extents.sum_places fun _ => 1, Finset.sum_const, Finset.card_range, smul_eq_mul, mul_one]
  have rows := extents.sum_places fun place =>
    ((extents.laplacianTriplets : Triplets R).toCsr.row place).length
  have each : ∑ k ∈ Finset.range extents.z, ∑ j ∈ Finset.range extents.y,
      ∑ i ∈ Finset.range extents.x,
        ((extents.laplacianTriplets : Triplets R).toCsr.row (extents.place i j k)).length =
      ∑ k ∈ Finset.range extents.z, ∑ j ∈ Finset.range extents.y,
        ∑ i ∈ Finset.range extents.x, (1 + (extents.neighbours i j k).length) := by
    refine Finset.sum_congr rfl fun k insideZ => Finset.sum_congr rfl fun j insideY =>
      Finset.sum_congr rfl fun i insideX => ?_
    exact extents.length_row_laplacian (Finset.mem_range.mp insideX) (Finset.mem_range.mp insideY)
      (Finset.mem_range.mp insideZ)
  simp only [Finset.sum_add_distrib, places] at each
  rw [Triplets.entryCount_toCsr, ← each, ← rows]
  rfl

/-- The Laplacian has an entry for each place and two for each edge of the lattice. -/
theorem entryCount_laplacian (x y z : Nat) :
    ((⟨x + 1, y + 1, z + 1⟩ : Extents).laplacianTriplets : Triplets R).toCsr.entryCount =
      (x + 1) * (y + 1) * (z + 1) +
        2 * (x * (y + 1) * (z + 1) + (x + 1) * y * (z + 1) + (x + 1) * (y + 1) * z) := by
  rw [entryCount_eq_sum, sum_length_neighbours]

end Extents

namespace Mesh

variable {R : Type}

/-- Another node of the slab has its point one step away in one direction. -/
def StepApart (mesh : Mesh R) (node other : Nat) : Prop :=
  other < mesh.ownNodeCount ∧ ∃ axis,
    (mesh.slabPoint node).next axis = mesh.slabPoint other ∨
      (mesh.slabPoint other).next axis = mesh.slabPoint node

/-- The Laplacian of a slab has the pattern of seven points. -/
structure HasSevenPoints [Scalar R] (mesh : Mesh R) (S : Type) [Scalar S] : Prop where
  /-- The nodes of the slab come in the order of its lattice. -/
  order : ∀ node < mesh.ownNodeCount, mesh.coordinates[node]? =
    some (mesh.point (mesh.boxPoint node).i (mesh.boxPoint node).j (mesh.boxPoint node).k)
  /-- Every listed entry lies in the matrix. -/
  in_range : (mesh.slabExtents.laplacianTriplets : Triplets S).InRange
  /-- There is a row for each node. -/
  rowCount : (mesh.laplacian : Csr S).rowCount = mesh.ownNodeCount
  /-- There is a column for each node. -/
  colCount : (mesh.laplacian : Csr S).colCount = mesh.ownNodeCount
  /-- The columns of each row ascend. -/
  ascending : ∀ node < mesh.ownNodeCount,
    Csr.ColumnsAscending mesh.ownNodeCount (((mesh.laplacian : Csr S).row node).map (·.1))
  /-- A row stores six at its node and minus one at each node a step apart, and nothing
  else. -/
  row : ∀ node < mesh.ownNodeCount, ∀ (column : Nat) (value : S),
    (column, value) ∈ (mesh.laplacian : Csr S).row node ↔
      (column = node ∧ value = Scalar.ofNat 6) ∨ (mesh.StepApart node column ∧ value = -1)
  /-- There is an entry for each node, and two for each edge of the lattice. -/
  entryCount : (mesh.laplacian : Csr S).entryCount = mesh.ownNodeCount +
    2 * (mesh.numX * (mesh.numY + 1) * (mesh.slab.count + 1) +
      (mesh.numX + 1) * mesh.numY * (mesh.slab.count + 1) +
      (mesh.numX + 1) * (mesh.numY + 1) * mesh.slab.count)

/-- The point of a node lies in the lattice of the slab. -/
theorem slabPoint_lt (mesh : Mesh R) {node : Nat} (inside : node < mesh.ownNodeCount) :
    (mesh.slabPoint node).i < mesh.slabExtents.x ∧ (mesh.slabPoint node).j < mesh.slabExtents.y ∧
      (mesh.slabPoint node).k < mesh.slabExtents.z := by
  obtain ⟨withinX, withinY, withinZ⟩ := mesh.slabPoint_le inside
  exact ⟨Nat.lt_succ_of_le withinX, Nat.lt_succ_of_le withinY, Nat.lt_succ_of_le withinZ⟩

/-- The place of this point is the node. -/
theorem place_slabPoint (mesh : Mesh R) (node : Nat) :
    mesh.slabExtents.place (mesh.slabPoint node).i (mesh.slabPoint node).j
      (mesh.slabPoint node).k = node :=
  mesh.slabExtents.place_pointAt node

/-- The neighbours of a node are the nodes a step apart from it. -/
theorem mem_neighbours_iff (mesh : Mesh R) {node other : Nat} (inside : node < mesh.ownNodeCount) :
    other ∈ mesh.slabExtents.neighbours (mesh.slabPoint node).i (mesh.slabPoint node).j
      (mesh.slabPoint node).k ↔ mesh.StepApart node other := by
  obtain ⟨withinX, withinY, withinZ⟩ := mesh.slabPoint_lt inside
  exact mesh.slabExtents.mem_neighbours_iff withinX withinY withinZ

/-- A row of the Laplacian, in some order. -/
theorem row_laplacian_perm {S : Type} [Scalar S] (mesh : Mesh R) {node : Nat}
    (inside : node < mesh.ownNodeCount) :
    ((mesh.laplacian : Csr S).row node).Perm
      (mesh.slabExtents.stencilRow (mesh.slabPoint node)) := by
  obtain ⟨withinX, withinY, withinZ⟩ := mesh.slabPoint_lt inside
  have perm := mesh.slabExtents.row_laplacian_perm (R := S) withinX withinY withinZ
  rw [mesh.place_slabPoint] at perm
  exact perm

/-- The coordinates of a node are those of its point. -/
theorem getElem?_coordinates [Scalar R] (mesh : Mesh R) {node : Nat}
    (inside : node < mesh.ownNodeCount) : mesh.coordinates[node]? =
      some (mesh.point (mesh.boxPoint node).i (mesh.boxPoint node).j (mesh.boxPoint node).k) := by
  obtain ⟨withinX, withinY, withinZ⟩ := mesh.slabPoint_lt inside
  have place : node = (mesh.slabPoint node).k * (mesh.slabExtents.y * mesh.slabExtents.x) +
      ((mesh.slabPoint node).j * mesh.slabExtents.x + (mesh.slabPoint node).i) := by
    rw [← Nat.mul_assoc, ← Nat.add_assoc, ← Nat.add_mul]
    exact (mesh.place_slabPoint node).symm
  have found := getElem?_grid3 (fun k j i => mesh.point i j (mesh.slab.start + k)) withinZ withinY
    withinX
  rw [← place] at found
  exact found

/-- The Laplacian of a lattice has exactly the pattern of seven points. For every mesh and
process, in whatever arithmetic: nothing is listed out of range; the row of a node stores
six at the node and minus one at each node whose point in the lattice of the slab is one
step away in one direction, in ascending order and nothing else; and there are as many
entries as nodes and twice the edges of the lattice. -/
theorem laplacian_has_seven_points [Scalar R] (mesh : Mesh R) (S : Type) [Scalar S] :
    mesh.HasSevenPoints S where
  order := fun _ inside => mesh.getElem?_coordinates inside
  in_range := mesh.slabExtents.inRange_laplacianTriplets
  rowCount := mesh.slabExtents.rowCount_laplacian
  colCount := rfl
  ascending := by
    intro node inside
    have valid := Triplets.valid_toCsr (mesh.slabExtents.inRange_laplacianTriplets (R := S))
    refine valid.columns_ascend node ?_
    rw [mesh.slabExtents.rowCount_laplacian]
    exact inside
  row := by
    intro node inside column value
    have own : mesh.slabExtents.place (mesh.slabPoint node).i (mesh.slabPoint node).j
        (mesh.slabPoint node).k = node := mesh.slabExtents.place_pointAt node
    rw [(mesh.row_laplacian_perm inside).mem_iff, Extents.stencilRow, own, List.mem_cons,
      List.mem_map, Prod.mk.injEq]
    refine or_congr_right ⟨?_, ?_⟩
    · rintro ⟨other, near, same⟩
      obtain ⟨rfl, rfl⟩ := Prod.mk.inj same
      exact ⟨(mesh.mem_neighbours_iff inside).mp near, rfl⟩
    · rintro ⟨near, rfl⟩
      exact ⟨column, (mesh.mem_neighbours_iff inside).mpr near, rfl⟩
  entryCount := Extents.entryCount_laplacian mesh.numX mesh.numY mesh.slab.count

end Mesh

end HexSlab
