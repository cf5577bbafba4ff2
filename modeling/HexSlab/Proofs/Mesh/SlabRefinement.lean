import HexSlab.Mesh.Coordinates
import HexSlab.Proofs.Mesh.ExactAnswers
import HexSlab.Proofs.Mesh.SetterCalls

/-!
# Slabs refine the serial mesh

What a process says about its slab is what the serial mesh says about the same
place. Element by element, the local nodes of a block translate to the global
nodes that the serial mesh lists for the element of the same global number. Node
by node, the coordinates are those of the serial mesh, by the same operations on
scalars, so processes that share a node agree on where it is.
-/

namespace HexSlab

/-- The nodes of the element at a place, in a list of the nodes of elements with
`size` nodes each. -/
def elementAt (size : Nat) (nodes : List Nat) (place : Nat) : List Nat :=
  (nodes.drop (place * size)).take size

/-- In a row of elements of one size, an element is found at its place. -/
theorem elementAt_flatten {size : Nat} {elements : List (List Nat)}
    (even : ∀ nodes ∈ elements, nodes.length = size) {place : Nat} {nodes : List Nat}
    (here : elements[place]? = some nodes) : elementAt size elements.flatten place = nodes := by
  unfold elementAt
  induction elements generalizing place with
  | nil => cases here
  | cons first rest ih =>
    have length : first.length = size := even first List.mem_cons_self
    cases place with
    | zero =>
      have same : first = nodes := Option.some.inj here
      subst same
      simp only [List.flatten_cons, Nat.zero_mul, List.drop_zero, List.take_left' length]
    | succ place =>
      have later := ih (fun other listed => even other (List.mem_cons_of_mem first listed)) here
      rw [List.flatten_cons, Nat.succ_mul, Nat.add_comm, ← List.drop_drop,
        List.drop_left' length, later]

namespace Mesh

variable {R : Type} {split : ZSplit}

/-- The node of the serial mesh at a raised point. -/
theorem nodeAt_serial_raise (mesh : Mesh R) (p : LatticePoint) :
    mesh.serial.nodeAt (p.raise mesh.slab.start) =
      mesh.slab.start * mesh.layerNodes + mesh.nodeAt p := by
  have same : mesh.serial.nodeAt (p.raise mesh.slab.start) =
      (mesh.slab.start + p.k) * mesh.layerNodes + p.j * (mesh.numX + 1) + p.i + 1 := rfl
  rw [same, Nat.add_mul, nodeAt, localNode]
  omega

/-- The global number of a node given by its local place, counted from one. -/
def globalNode? (mesh : Mesh R) : Nat → Option Nat
  | 0 => none
  | place + 1 => mesh.nodeMap[place]?

/-- The global numbers of nodes given by their local places. -/
def globalNodes? (mesh : Mesh R) (nodes : List Nat) : Option (List Nat) :=
  nodes.mapM mesh.globalNode?

/-- The node at a place of the slab. -/
theorem getElem?_nodeMap (mesh : Mesh R) (place : Nat) :
    mesh.nodeMap[place]? =
      if place < mesh.ownNodeCount then some (mesh.slab.start * mesh.layerNodes + 1 + place)
      else none := by
  unfold nodeMap
  split
  · rename_i inside
    rw [List.getElem?_range' inside, Nat.one_mul]
  · rename_i outside
    exact List.getElem?_eq_none (by rw [List.length_range']; omega)

/-- The node of a point of the slab is the node of the raised point in the serial
mesh. -/
theorem globalNode?_nodeAt {mesh : Mesh R} {p : LatticePoint} (inside : mesh.InSlab p) :
    mesh.globalNode? (mesh.nodeAt p) = some (mesh.serial.nodeAt (p.raise mesh.slab.start)) := by
  have bound := nodeAt_le inside
  rw [nodeAt_serial_raise]
  simp only [nodeAt, localNode] at bound ⊢
  simp only [globalNode?, getElem?_nodeMap]
  rw [if_pos (by omega), Option.some.injEq]
  omega

/-- The elements of a process, raised to their place in the whole mesh, are the
stretch of the serial elements from its cut on. -/
theorem Accepted.getElem?_origins_raise {mesh : Mesh R} (accepted : mesh.Accepted split)
    {block : Block} {place : Nat} (own : place < mesh.ownElementsOf block) :
    (mesh.origins block)[place]?.map (LatticePoint.raise mesh.slab.start) =
      (mesh.serial.origins block)[mesh.elementsBelow split mesh.layout.rank block + place]? := by
  have inside : mesh.slab.start + mesh.slab.count ≤ mesh.numZ := accepted.slab_le
  have whole : mesh.serial.slab.count = mesh.numZ := by rw [slab_serial]
  have sameX : mesh.serial.numX = mesh.numX := rfl
  have sameY : mesh.serial.numY = mesh.numY := rfl
  have rank := mesh.layout.rank_lt
  rw [← List.getElem?_map]
  cases block with
  | hexahedra =>
    have here : place < mesh.slab.count * (mesh.numY * mesh.numX) := by
      simpa only [ownElementsOf, Nat.mul_comm] using own
    simp only [origins, map_grid3, LatticePoint.raise, elementsBelow, ← accepted.start_slab, whole,
      sameX, sameY]
    rw [Nat.mul_comm mesh.numX, ← getElem?_grid3_shift _ inside here]
  | shells face =>
    cases face with
    | minX | maxX =>
      have here : place < mesh.slab.count * mesh.numY := by
        simpa only [ownElementsOf, Nat.mul_comm] using own
      simp only [origins, map_grid2, LatticePoint.raise, elementsBelow, ← accepted.start_slab,
        whole, sameX, sameY]
      rw [← getElem?_grid2_shift _ inside here]
    | minY | maxY =>
      have here : place < mesh.slab.count * mesh.numX := by
        simpa only [ownElementsOf, Nat.mul_comm] using own
      simp only [origins, map_grid2, LatticePoint.raise, elementsBelow, ← accepted.start_slab,
        whole, sameX, sameY]
      rw [← getElem?_grid2_shift _ inside here]
    | minZ =>
      cases first : mesh.layout.isFirst with
      | false =>
        simp only [ownElementsOf, first, Bool.false_eq_true, if_false] at own
        exact absurd own (Nat.not_lt_zero place)
      | true =>
        have zero : mesh.layout.rank = 0 := by
          simpa only [Layout.isFirst, beq_iff_eq] using first
        have alone : mesh.serial.layout.isFirst = true := rfl
        simp only [origins, first, alone, if_true, map_grid2, LatticePoint.raise,
          accepted.start_slab_of_isFirst first, elementsBelow, zero, Nat.zero_add]
        rfl
    | maxZ =>
      cases last : mesh.layout.isLast with
      | false =>
        simp only [ownElementsOf, last, Bool.false_eq_true, if_false] at own
        exact absurd own (Nat.not_lt_zero place)
      | true =>
        have alone : mesh.serial.layout.isLast = true := rfl
        simp only [origins, last, alone, if_true, map_grid2, LatticePoint.raise,
          accepted.slab_end_of_isLast last, elementsBelow, rank, whole, Nat.zero_add]
        rfl

/-- The nodes of a list of lattice points of the slab. -/
theorem globalNodes?_map_nodeAt {mesh : Mesh R} {points : List LatticePoint}
    (inside : ∀ p ∈ points, mesh.InSlab p) :
    mesh.globalNodes? (points.map mesh.nodeAt) =
      some ((points.map (LatticePoint.raise mesh.slab.start)).map mesh.serial.nodeAt) := by
  have each := mapM_eq_pure (m := Option) fun p listed => globalNode?_nodeAt (inside p listed)
  rw [globalNodes?, List.mapM_map, List.map_map]
  exact each

/-- An element of this process has the nodes of the serial element that lies as
far behind the cut. -/
theorem Accepted.exists_elements {mesh : Mesh R} (accepted : mesh.Accepted split) {block : Block}
    {place : Nat} (own : place < mesh.ownElementsOf block) :
    ∃ nodes whole, (mesh.elements block)[place]? = some nodes ∧
      (mesh.serial.elements block)[mesh.elementsBelow split mesh.layout.rank block + place]? =
        some whole ∧
      mesh.globalNodes? nodes = some whole := by
  have inside : place < (mesh.origins block).length := by rwa [length_origins]
  obtain ⟨p, here⟩ : ∃ p, (mesh.origins block)[place]? = some p :=
    ⟨_, List.getElem?_eq_getElem inside⟩
  have whole := accepted.getElem?_origins_raise own
  rw [here, Option.map_some] at whole
  have slab : ∀ q ∈ block.corners p, mesh.InSlab q := fun q corner =>
    inSlab_of_mem_corners (List.mem_of_getElem? here) corner
  refine ⟨_, _, ?_, ?_, globalNodes?_map_nodeAt slab⟩
  · rw [elements_eq, List.getElem?_map, here, Option.map_some]
  · rw [elements_eq, List.getElem?_map, ← whole, Option.map_some, Block.corners_raise]

/-- The elements of a block have as many nodes as its shape. -/
theorem length_of_mem_elements {mesh : Mesh R} {block : Block} {nodes : List Nat}
    (listed : nodes ∈ mesh.elements block) : nodes.length = block.shape.nodeCount := by
  rw [elements_eq] at listed
  obtain ⟨p, -, rfl⟩ := List.mem_map.mp listed
  rw [List.length_map, Block.length_corners]

/-- The coordinates of a process are a stretch of those of the serial mesh. -/
theorem Accepted.getElem?_coordinates [Scalar R] {mesh : Mesh R} (accepted : mesh.Accepted split)
    {place : Nat} (own : place < mesh.ownNodeCount) :
    mesh.coordinates[place]? =
      mesh.serial.coordinates[mesh.slab.start * mesh.layerNodes + place]? := by
  have inside : mesh.slab.start + (mesh.slab.count + 1) ≤ mesh.numZ + 1 := by
    have le := accepted.slab_le
    omega
  have layer : mesh.layerNodes = (mesh.numY + 1) * (mesh.numX + 1) := Nat.mul_comm _ _
  have here : place < (mesh.slab.count + 1) * ((mesh.numY + 1) * (mesh.numX + 1)) := by
    rwa [ownNodeCount, Nat.mul_comm, layer] at own
  have whole : mesh.serial.coordinates =
      grid3 (mesh.numZ + 1) (mesh.numY + 1) (mesh.numX + 1) fun k j i => mesh.point i j k := by
    simp only [coordinates, slab_serial, Nat.zero_add]
    rfl
  rw [whole, layer]
  exact getElem?_grid3_shift (fun k j i => mesh.point i j k) inside here

/-- There is a point for each node. -/
theorem length_coordinates [Scalar R] (mesh : Mesh R) :
    mesh.coordinates.length = mesh.ownNodeCount := by
  rw [coordinates, length_grid3, ownNodeCount, layerNodes, Nat.mul_comm (mesh.numX + 1),
    Nat.mul_comm _ (mesh.slab.count + 1)]

/-- What a process says about its slab is what the serial mesh says, where both answer. -/
structure RefinesSerial [Scalar R] (mesh : Mesh R) : Prop where
  /-- The serial mesh is accepted: it only places the mesh of its intervals and
  adds shells to it. -/
  intervals : ofIntervals mesh.numX mesh.numY mesh.numZ .serial =
    .ok ({ mesh.serial with
      scale := Vec3.fill 1, offset := Vec3.fill 0, rotation := none, shells := [] } : Mesh R)
  /-- The process answers with the numbers of its nodes. -/
  nodes : mesh.nodeMap? = some mesh.nodeMap
  /-- The nodes of each element are those of the serial element of its number. -/
  elements : ∀ number, 1 ≤ number → number ≤ mesh.blockCount →
    ∃ block ownNumbers wholeNumbers ownNodes wholeNodes,
      mesh.block number = .ok block ∧
      mesh.blockElementMap? number = .ok (some ownNumbers) ∧
      mesh.serial.blockElementMap? number = .ok (some wholeNumbers) ∧
      mesh.connectivity? number = .ok (some ownNodes) ∧
      mesh.serial.connectivity? number = .ok (some wholeNodes) ∧
      ownNodes.length = ownNumbers.length * block.shape.nodeCount ∧
      ∀ place e, ownNumbers[place]? = some e →
        ∃ first nodes, wholeNumbers[0]? = some first ∧ first ≤ e ∧
          nodes.length = block.shape.nodeCount ∧
          mesh.globalNodes? (elementAt block.shape.nodeCount ownNodes place) = some nodes ∧
          elementAt block.shape.nodeCount wholeNodes (e - first) = nodes
  /-- Each node is where the serial mesh has the node of its number. -/
  coordinates : mesh.coordinates.length = mesh.ownNodeCount ∧
    ∀ place < mesh.ownNodeCount, ∃ node point,
      mesh.nodeMap[place]? = some node ∧ 1 ≤ node ∧
      mesh.coordinates[place]? = some point ∧
      mesh.serial.coordinates[node - 1]? = some point

/-- The elements of a block, one by one. -/
theorem Accepted.refines_elements {mesh : Mesh R} (accepted : mesh.Accepted split) {block : Block}
    {preceding place e : Nat} (numbered : (mesh.elementNumbers preceding block)[place]? = some e) :
    ∃ first nodes, (mesh.serial.elementNumbers preceding block)[0]? = some first ∧ first ≤ e ∧
      nodes.length = block.shape.nodeCount ∧
      mesh.globalNodes? (elementAt block.shape.nodeCount (mesh.elements block).flatten place) =
        some nodes ∧
      elementAt block.shape.nodeCount (mesh.serial.elements block).flatten (e - first) =
        nodes := by
  have own : place < mesh.ownElementsOf block := by
    have listed := (List.getElem?_eq_some_iff.mp numbered).1
    rwa [accepted.elementNumbers_eq, List.length_range'] at listed
  have some_element : 0 < mesh.elementsOf block := by
    have le := accepted.elementsBelow_add_own_le block
    omega
  have number : e = preceding + 1 + mesh.elementsBelow split mesh.layout.rank block + place := by
    rw [accepted.elementNumbers_eq, List.getElem?_range' own, Nat.one_mul] at numbered
    exact (Option.some.inj numbered).symm
  obtain ⟨nodes, whole, here, there, global⟩ := accepted.exists_elements own
  refine ⟨preceding + 1, whole, ?_, by omega, ?_, ?_, ?_⟩
  · rw [accepted.elementNumbers_serial, List.getElem?_range' some_element, Nat.mul_zero,
      Nat.add_zero]
  · exact length_of_mem_elements (List.mem_of_getElem? there)
  · rw [elementAt_flatten (fun _ listed => length_of_mem_elements listed) here, global]
  · have shifted : e - (preceding + 1) =
        mesh.elementsBelow split mesh.layout.rank block + place := by
      omega
    rw [shifted]
    exact elementAt_flatten (fun _ listed => length_of_mem_elements listed) there

/-- An accepted mesh refines its serial mesh, if words hold the corners of all hexahedra
and the numbers of all elements. -/
theorem Accepted.refinesSerial [Scalar R] {mesh : Mesh R} (accepted : mesh.Accepted split)
    (corners : 8 * (mesh.numX * mesh.numY * mesh.numZ) < Word.limit)
    (numbers : mesh.elementCount + 1 < Word.limit) : mesh.RefinesSerial where
  intervals :=
    ofIntervals_eq_ok_iff.mpr
      ⟨⟨accepted.numX_pos, accepted.numY_pos, accepted.numZ_pos⟩,
        congrArg (fun slab => (⟨mesh.numX, mesh.numY, mesh.numZ, slab, .serial, Vec3.fill 1,
          Vec3.fill 0, none, []⟩ : Mesh R)) (slab_even_serial mesh)⟩
  nodes := accepted.nodeMap?_eq (Nat.lt_of_le_of_lt accepted.nodeCount_le_corners corners)
  elements := by
    intro number first last
    obtain ⟨block, found⟩ := exists_block first last
    have serial : mesh.serial.block number = .ok block := found
    refine ⟨block, _, _, _, _, found, accepted.blockElementMap?_eq numbers found,
      accepted.serial.blockElementMap?_eq numbers serial, accepted.connectivity?_eq corners found,
      accepted.serial.connectivity?_eq corners serial, ?_, ?_⟩
    · have even : ∀ nodes ∈ mesh.elements block, nodes.length = block.shape.nodeCount :=
        fun _ listed => length_of_mem_elements listed
      rw [List.length_flatten, List.map_congr_left even, List.map_const', List.sum_replicate_nat,
        elements_eq, List.length_map, length_origins]
      simp only [elementNumbers, List.length_range']
    · intro place e numbered
      exact accepted.refines_elements numbered
  coordinates := by
    refine ⟨mesh.length_coordinates, fun place own => ?_⟩
    have inside : place < mesh.coordinates.length := by rwa [length_coordinates]
    have here := List.getElem?_eq_getElem inside
    refine ⟨_, _, by rw [getElem?_nodeMap, if_pos own], by omega, here, ?_⟩
    have back : mesh.slab.start * mesh.layerNodes + 1 + place - 1 =
        mesh.slab.start * mesh.layerNodes + place := by omega
    rw [back, ← accepted.getElem?_coordinates own, here]

/-- Two views of one mesh have a node in common at the same coordinates. -/
theorem Accepted.coordinates_shared [Scalar R] {mesh : Mesh R} (accepted : mesh.Accepted split)
    {layout : Layout} (same : layout.count = mesh.layout.count) {place other node : Nat}
    (here : mesh.nodeMap[place]? = some node)
    (there : (mesh.seenFrom split layout).nodeMap[other]? = some node) :
    mesh.coordinates[place]? = (mesh.seenFrom split layout).coordinates[other]? := by
  rw [getElem?_nodeMap] at here there
  split at here
  · split at there
    · rename_i own elsewhere
      have first := Option.some.inj here
      have second := Option.some.inj there
      have layer : (mesh.seenFrom split layout).layerNodes = mesh.layerNodes := rfl
      have meet : mesh.slab.start * mesh.layerNodes + place =
          (mesh.seenFrom split layout).slab.start * (mesh.seenFrom split layout).layerNodes +
            other := by
        omega
      rw [accepted.getElem?_coordinates own,
        (accepted.seenFrom same).getElem?_coordinates elsewhere, meet]
      rfl
    · cases there
  · cases here

/-- Whatever mesh a process builds, if words hold the corners of all hexahedra and the
numbers of all elements, its slab refines the serial mesh, and it agrees with every other
process that builds the same on the coordinates of the nodes that both have. -/
theorem slab_refines_serial [Scalar R] [Trigonometry R] {numX numY numZ : Nat}
    {settings : List (Setting R)} {layout : Layout} {mesh : Mesh R}
    (built : build numX numY numZ settings layout = .ok mesh)
    (corners : 8 * (mesh.numX * mesh.numY * mesh.numZ) < Word.limit)
    (numbers : mesh.elementCount + 1 < Word.limit) :
    mesh.RefinesSerial ∧
      ∀ other : Layout, other.count = layout.count →
        ∃ neighbour, build numX numY numZ settings other = .ok neighbour ∧
          neighbour.nodeMap? = some neighbour.nodeMap ∧
          ∀ place otherPlace node : Nat, mesh.nodeMap[place]? = some node →
            neighbour.nodeMap[otherPlace]? = some node →
            mesh.coordinates[place]? = neighbour.coordinates[otherPlace]? := by
  obtain ⟨split, kept, accepted, elsewhere⟩ := exists_split_of_build built
  refine ⟨accepted.refinesSerial corners numbers, fun other same => ?_⟩
  have agree : other.count = mesh.layout.count := by rw [kept, same]
  have nodes := Nat.lt_of_le_of_lt accepted.nodeCount_le_corners corners
  refine ⟨_, elsewhere other same, (accepted.seenFrom agree).nodeMap?_eq nodes, ?_⟩
  intro place otherPlace node here there
  exact accepted.coordinates_shared agree here there

/-- Three layers split one to two, with shells on the upper side: the second
process refines the serial mesh. -/
theorem slab_refines_serial_upper :
    ∃ mesh : Mesh Float,
      build 2 1 3 [.split [1, 2], .shells .maxZ] ⟨2, 1, by decide⟩ = .ok mesh ∧
        8 * (mesh.numX * mesh.numY * mesh.numZ) < Word.limit ∧
        mesh.elementCount + 1 < Word.limit ∧
        mesh.connectivity? 2 = .ok (some [13, 14, 17, 16, 14, 15, 18, 17]) ∧
        mesh.RefinesSerial := by
  have built : build 2 1 3 [.split [1, 2], .shells .maxZ] ⟨2, 1, by decide⟩ =
      .ok ((unit 2 1 3 ⟨2, 1, by decide⟩ : Mesh Float).configure [.split [1, 2], .shells .maxZ]) :=
    rfl
  exact ⟨_, built, by decide, by decide, by decide,
    (slab_refines_serial built (by decide) (by decide)).1⟩

/-- Past words there is nothing to compare. The process of a serial run does not answer
with the numbers of its hexahedra, and the last of many processes with one layer each,
which has eight nodes and their coordinates, does not answer with the numbers of these. -/
theorem slab_unanswered_past_words :
    (∃ mesh : Mesh Float,
      build 4611686018427387904 6 1 [] .serial = .ok mesh ∧
        mesh.blockElementMap? 1 = .ok none ∧ mesh.connectivity? 1 = .ok none) ∧
    ∃ mesh : Mesh Float,
      build 1 1 4611686018427387904 [] ⟨4611686018427387904, 4611686018427387903, by decide⟩ =
        .ok mesh ∧
        mesh.coordinates.length = 8 ∧ mesh.nodeMap? = none :=
  ⟨⟨_, rfl, by decide, by decide⟩, _, rfl, by decide, by decide⟩

end Mesh

end HexSlab
