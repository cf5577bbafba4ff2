import HexSlab.Mesh.Answers
import HexSlab.Proofs.Mesh.Corners
import HexSlab.Proofs.Words
import Mathlib.Algebra.Order.BigOperators.Group.List
import Mathlib.Tactic.Ring

/-!
# When processes answer exactly

Every number that is computed for an answer is bounded by one number of the whole mesh:
by that of its nodes, by that of its elements, or by that of the corners of all
hexahedra. So wherever words hold that number, every process of a run answers, and its
answer is the exact one.
-/

namespace HexSlab.Mesh

variable {R : Type} {mesh : Mesh R} {split : ZSplit}

section Elements

/-- The elements in the first blocks. -/
theorem elementsBefore_eq_sum (mesh : Mesh R) (count : Nat) :
    mesh.elementsBefore count = ((mesh.blocks.take count).map mesh.elementsOf).sum :=
  List.sum_eq_foldl_nat.symm

/-- The elements in all blocks. -/
theorem elementCount_eq_sum (mesh : Mesh R) :
    mesh.elementCount = (mesh.blocks.map mesh.elementsOf).sum := by
  rw [elementCount, elementsBefore_eq_sum, blockCount, List.take_length]

/-- The elements of this process in all blocks. -/
theorem ownElementCount_eq_sum (mesh : Mesh R) :
    mesh.ownElementCount = (mesh.blocks.map mesh.ownElementsOf).sum :=
  List.sum_eq_foldl_nat.symm

/-- The first blocks hold no more elements than all of them. -/
theorem elementsBefore_le (mesh : Mesh R) (count : Nat) :
    mesh.elementsBefore count ≤ mesh.elementCount := by
  have parts := congrArg (fun blocks => (blocks.map mesh.elementsOf).sum)
    (List.take_append_drop count mesh.blocks)
  simp only [List.map_append, List.sum_append] at parts
  rw [elementsBefore_eq_sum, elementCount_eq_sum]
  omega

/-- A block comes after the blocks before it. -/
theorem elementsBefore_add_le {earlier : Nat} {block : Block}
    (here : mesh.blocks[earlier]? = some block) :
    mesh.elementsBefore earlier + mesh.elementsOf block ≤ mesh.elementCount := by
  have joint : mesh.elementsBefore (earlier + 1) =
      mesh.elementsBefore earlier + mesh.elementsOf block := by
    rw [elementsBefore_eq_sum, elementsBefore_eq_sum, List.take_add_one, here]
    simp only [Option.toList_some, List.map_append, List.map_cons, List.map_nil,
      List.sum_append, List.sum_singleton]
  rw [← joint]
  exact mesh.elementsBefore_le (earlier + 1)

/-- A block holds no more elements than all blocks. -/
theorem elementsOf_le {block : Block} (listed : block ∈ mesh.blocks) :
    mesh.elementsOf block ≤ mesh.elementCount := by
  obtain ⟨earlier, here⟩ := List.getElem?_of_mem listed
  exact Nat.le_trans (Nat.le_add_left _ _) (elementsBefore_add_le here)

/-- The elements of this process and those below it are among all of the block. -/
theorem Accepted.lower_add_own_le (accepted : mesh.Accepted split) (block : Block) :
    mesh.lowerElementsOf block + mesh.ownElementsOf block ≤ mesh.elementsOf block := by
  have within := accepted.slab_le
  cases block with
  | hexahedra =>
    have layers := Nat.mul_le_mul_left (mesh.numX * mesh.numY) within
    rw [lowerElementsOf, ownElementsOf, elementsOf, Nat.mul_assoc, Nat.mul_comm mesh.slab.start,
      ← Nat.mul_add]
    exact layers
  | shells face =>
    cases face with
    | minX | maxX =>
      have layers := Nat.mul_le_mul_left mesh.numY within
      rw [lowerElementsOf, ownElementsOf, elementsOf, Nat.mul_comm mesh.slab.start,
        ← Nat.mul_add]
      exact layers
    | minY | maxY =>
      have layers := Nat.mul_le_mul_left mesh.numX within
      rw [lowerElementsOf, ownElementsOf, elementsOf, Nat.mul_comm mesh.slab.start,
        ← Nat.mul_add]
      exact layers
    | minZ | maxZ =>
      rw [lowerElementsOf, ownElementsOf, elementsOf, Nat.zero_add]
      split
      · exact Nat.le_refl _
      · exact Nat.zero_le _

/-- This process has no more elements of a block than there are. -/
theorem Accepted.ownElementsOf_le (accepted : mesh.Accepted split) (block : Block) :
    mesh.ownElementsOf block ≤ mesh.elementsOf block :=
  Nat.le_trans (Nat.le_add_left _ _) (accepted.lower_add_own_le block)

/-- This process has no more elements than there are. -/
theorem Accepted.ownElementCount_le (accepted : mesh.Accepted split) :
    mesh.ownElementCount ≤ mesh.elementCount := by
  rw [ownElementCount_eq_sum, elementCount_eq_sum]
  exact List.sum_le_sum fun block _ => accepted.ownElementsOf_le block

/-- The hexahedra of a layer are no more than all hexahedra. -/
theorem Accepted.layer_le (accepted : mesh.Accepted split) :
    mesh.numX * mesh.numY ≤ mesh.numX * mesh.numY * mesh.numZ :=
  Nat.le_mul_of_pos_right _ accepted.numZ_pos

/-- A block has no more elements than there are hexahedra. -/
theorem Accepted.elementsOf_le_hexahedra (accepted : mesh.Accepted split) (block : Block) :
    mesh.elementsOf block ≤ mesh.numX * mesh.numY * mesh.numZ := by
  cases block with
  | hexahedra => exact Nat.le_refl _
  | shells face =>
    cases face with
    | minX | maxX =>
      rw [elementsOf, Nat.mul_assoc]
      exact Nat.le_mul_of_pos_left _ accepted.numX_pos
    | minY | maxY =>
      rw [elementsOf, Nat.mul_right_comm]
      exact Nat.le_mul_of_pos_right _ accepted.numY_pos
    | minZ | maxZ => exact accepted.layer_le

/-- The hexahedra are no more than all elements. -/
theorem hexahedra_le (mesh : Mesh R) :
    mesh.numX * mesh.numY * mesh.numZ ≤ mesh.elementCount := by
  have first : Block.hexahedra ∈ mesh.blocks := List.mem_cons_self
  exact elementsOf_le first

/-- What bounds a number of elements of a block and the hexahedra of a layer bounds what is
computed for the number. -/
theorem le_of_mem_countSteps {bound count number : Nat} {block : Block}
    (layer : mesh.numX * mesh.numY ≤ bound) (le : count ≤ bound)
    (step : number ∈ mesh.countSteps count block) : number ≤ bound := by
  cases block with
  | hexahedra =>
    rcases List.mem_pair.mp step with rfl | rfl
    · exact layer
    · exact le
  | shells face =>
    rw [List.mem_singleton.mp step]
    exact le

/-- What is computed for a number of elements of a block is no more than all elements. -/
theorem Accepted.le_of_mem_countSteps (accepted : mesh.Accepted split) {count number : Nat}
    {block : Block} (le : count ≤ mesh.elementCount)
    (step : number ∈ mesh.countSteps count block) : number ≤ mesh.elementCount :=
  Mesh.le_of_mem_countSteps (accepted.layer_le.trans mesh.hexahedra_le) le step

/-- So is what is computed for the elements of this process in a block. -/
theorem Accepted.le_of_mem_ownBlockSteps (accepted : mesh.Accepted split) {number : Nat}
    {block : Block} (listed : block ∈ mesh.blocks) (step : number ∈ mesh.ownBlockSteps block) :
    number ≤ mesh.elementCount :=
  accepted.le_of_mem_countSteps
    (Nat.le_trans (accepted.ownElementsOf_le block) (elementsOf_le listed)) step

/-- So is what is computed for the elements in the first blocks. -/
theorem Accepted.le_of_mem_precedingSteps (accepted : mesh.Accepted split) {count number : Nat}
    (step : number ∈ mesh.precedingSteps count) : number ≤ mesh.elementCount := by
  rcases List.mem_append.mp step with inside | last
  · obtain ⟨block, listed, inside⟩ := List.mem_flatMap.mp inside
    exact accepted.le_of_mem_countSteps (elementsOf_le (List.mem_of_mem_take listed)) inside
  · rw [List.mem_singleton.mp last]
    exact mesh.elementsBefore_le count

/-- So is what is computed for the elements of this process in all blocks. -/
theorem Accepted.le_of_mem_ownSteps (accepted : mesh.Accepted split) {number : Nat}
    (step : number ∈ mesh.ownSteps) : number ≤ mesh.elementCount := by
  rcases List.mem_append.mp step with inside | last
  · obtain ⟨block, listed, inside⟩ := List.mem_flatMap.mp inside
    exact accepted.le_of_mem_ownBlockSteps listed inside
  · rw [List.mem_singleton.mp last]
    exact accepted.ownElementCount_le

/-- The numbers of the elements in a block end after all elements at the latest. -/
theorem Accepted.le_of_mem_numberSteps (accepted : mesh.Accepted split) {earlier number : Nat}
    {block : Block} (here : mesh.blocks[earlier]? = some block)
    (step : number ∈ mesh.numberSteps earlier block) : number ≤ mesh.elementCount + 1 := by
  rcases List.mem_append.mp step with counts | last
  · rcases List.mem_append.mp counts with own | before
    · exact (accepted.le_of_mem_ownBlockSteps (List.mem_of_getElem? here) own).trans
        (Nat.le_succ _)
    · exact (accepted.le_of_mem_precedingSteps before).trans (Nat.le_succ _)
  · rw [List.mem_singleton.mp last]
    have before := elementsBefore_add_le here
    have own := accepted.lower_add_own_le block
    omega

/-- The number of elements of the whole mesh. -/
theorem Accepted.elementCount?_eq (accepted : mesh.Accepted split)
    (fits : mesh.elementCount < Word.limit) : mesh.elementCount? = some mesh.elementCount :=
  if_pos (Word.hold_of_le fits fun _ step => accepted.le_of_mem_precedingSteps step)

/-- The number of elements of this process. -/
theorem Accepted.ownElementCount?_eq (accepted : mesh.Accepted split)
    (fits : mesh.elementCount < Word.limit) :
    mesh.ownElementCount? = some mesh.ownElementCount :=
  if_pos (Word.hold_of_le fits fun _ step => accepted.le_of_mem_ownSteps step)

/-- The number of elements of a block. -/
theorem Accepted.elementsOf?_eq (accepted : mesh.Accepted split)
    (fits : mesh.numX * mesh.numY * mesh.numZ < Word.limit) (block : Block) :
    mesh.elementsOf? block = some (mesh.elementsOf block) :=
  if_pos (Word.hold_of_le fits fun _ step =>
    Mesh.le_of_mem_countSteps accepted.layer_le (accepted.elementsOf_le_hexahedra block) step)

/-- The number of elements of this process in a block. -/
theorem Accepted.ownElementsOf?_eq (accepted : mesh.Accepted split)
    (fits : mesh.numX * mesh.numY * mesh.numZ < Word.limit) (block : Block) :
    mesh.ownElementsOf? block = some (mesh.ownElementsOf block) :=
  if_pos (Word.hold_of_le fits fun _ step =>
    Mesh.le_of_mem_countSteps accepted.layer_le
      ((accepted.ownElementsOf_le block).trans (accepted.elementsOf_le_hexahedra block)) step)

/-- The numbers of the elements of this process in a block. -/
theorem Accepted.blockElementMap?_eq (accepted : mesh.Accepted split)
    (fits : mesh.elementCount + 1 < Word.limit) {number : Nat} {block : Block}
    (found : mesh.block number = .ok block) :
    mesh.blockElementMap? number =
      .ok (some (mesh.elementNumbers (mesh.elementsBefore (number - 1)) block)) := by
  have here := (block_eq_ok_iff.mp found).2
  rw [blockElementMap?, found]
  exact congrArg Except.ok
    (if_pos (Word.hold_of_le fits fun _ step => accepted.le_of_mem_numberSteps here step))

/-- The numbers of all elements of this process. -/
theorem Accepted.elementMap?_eq (accepted : mesh.Accepted split)
    (fits : mesh.elementCount + 1 < Word.limit) : mesh.elementMap? = some mesh.elementMap := by
  refine if_pos ⟨Word.hold_of_le (Nat.lt_of_succ_lt fits) fun _ step =>
    accepted.le_of_mem_ownSteps step, fun place listed => ?_⟩
  exact Word.hold_of_le fits fun _ step =>
    accepted.le_of_mem_numberSteps (List.mem_zipIdx_iff_getElem?.mp listed) step

end Elements

section Nodes

/-- The nodes of layers up to one of the whole mesh. -/
theorem layers_le {layers : Nat} (within : layers ≤ mesh.numZ + 1) :
    layers * mesh.layerNodes ≤ mesh.nodeCount := by
  rw [nodeCount, Nat.mul_comm]
  exact Nat.mul_le_mul_left _ within

/-- The nodes of one layer. -/
theorem layerNodes_le (mesh : Mesh R) : mesh.layerNodes ≤ mesh.nodeCount :=
  Nat.le_mul_of_pos_right _ (Nat.succ_pos _)

/-- The number of nodes of the whole mesh. -/
theorem nodeCount?_eq (fits : mesh.nodeCount < Word.limit) :
    mesh.nodeCount? = some mesh.nodeCount :=
  Word.of?_of_lt fits

/-- This process has no more nodes than there are. -/
theorem Accepted.ownNodeCount_le (accepted : mesh.Accepted split) :
    mesh.slab.start * mesh.layerNodes + mesh.ownNodeCount ≤ mesh.nodeCount := by
  have within := accepted.slab_le
  rw [ownNodeCount, Nat.mul_comm mesh.layerNodes, ← Nat.add_mul]
  exact layers_le (by omega)

/-- The number of nodes of this process. -/
theorem Accepted.ownNodeCount?_eq (accepted : mesh.Accepted split)
    (fits : mesh.nodeCount < Word.limit) : mesh.ownNodeCount? = some mesh.ownNodeCount := by
  have le := accepted.ownNodeCount_le
  exact Word.of?_of_lt (by omega)

/-- The numbers of the nodes of this process. -/
theorem Accepted.nodeMap?_eq (accepted : mesh.Accepted split)
    (fits : mesh.nodeCount < Word.limit) : mesh.nodeMap? = some mesh.nodeMap :=
  if_pos (Word.hold_of_le fits fun _ step =>
    List.mem_singleton.mp step ▸ accepted.ownNodeCount_le)

/-- The nodes that other processes have too, if none of these processes is empty. -/
theorem sharedNodes?_eq (fits : mesh.nodeCount < Word.limit)
    (below : mesh.slab.start < mesh.numZ)
    (above : mesh.layout.isLast = false → mesh.slab.start + mesh.slab.count < mesh.numZ) :
    mesh.sharedNodes? = some mesh.sharedNodes := by
  have layerEnd_le {layer : Nat} (inside : layer < mesh.numZ) :
      mesh.layerEnd layer ≤ mesh.nodeCount := by
    have last : mesh.nodeCount = mesh.numZ * mesh.layerNodes + mesh.layerNodes := by
      rw [nodeCount, Nat.mul_comm, Nat.succ_mul]
    have layers := Nat.mul_le_mul_right mesh.layerNodes inside
    have some : 0 < mesh.layerNodes := Nat.mul_pos (Nat.succ_pos _) (Nat.succ_pos _)
    rw [Nat.succ_mul] at layers
    rw [layerEnd]
    omega
  refine if_pos (Word.hold_of_le fits fun number step => ?_)
  rcases List.mem_append.mp step with lower | upper
  · rcases List.mem_cons.mp lower with rfl | first
    · exact mesh.layerNodes_le
    · split at first
      · cases first
      · rw [List.mem_singleton.mp first]
        exact layerEnd_le below
  · split at upper
    · cases upper
    · rename_i inner
      rw [List.mem_singleton.mp upper]
      exact layerEnd_le (above (Bool.eq_false_iff.mpr inner))

end Nodes

section Corners

/-- There are no more nodes than corners of hexahedra. -/
theorem Accepted.nodeCount_le_corners (accepted : mesh.Accepted split) :
    mesh.nodeCount ≤ 8 * (mesh.numX * mesh.numY * mesh.numZ) := by
  have alongX : mesh.numX + 1 ≤ 2 * mesh.numX := by
    have some := accepted.numX_pos
    omega
  have alongY : mesh.numY + 1 ≤ 2 * mesh.numY := by
    have some := accepted.numY_pos
    omega
  have alongZ : mesh.numZ + 1 ≤ 2 * mesh.numZ := by
    have some := accepted.numZ_pos
    omega
  calc mesh.nodeCount
      ≤ 2 * mesh.numX * (2 * mesh.numY) * (2 * mesh.numZ) :=
        Nat.mul_le_mul (Nat.mul_le_mul alongX alongY) alongZ
    _ = 8 * (mesh.numX * mesh.numY * mesh.numZ) := by ring

/-- What is computed for the nodes of the elements in a block is no more than the corners
of all hexahedra. -/
theorem Accepted.le_of_mem_connectivitySteps (accepted : mesh.Accepted split) {number : Nat}
    {block : Block} (step : number ∈ mesh.connectivitySteps block) :
    number ≤ 8 * (mesh.numX * mesh.numY * mesh.numZ) := by
  have own := (accepted.ownElementsOf_le block).trans (accepted.elementsOf_le_hexahedra block)
  have layer := accepted.layer_le
  rcases List.mem_append.mp step with counts | last
  · rcases List.mem_cons.mp counts with rfl | counts
    · exact mesh.layerNodes_le.trans accepted.nodeCount_le_corners
    · have le := Mesh.le_of_mem_countSteps layer own counts
      omega
  · have size : block.shape.nodeCount ≤ 8 := by
      cases block with
      | hexahedra => exact Nat.le_refl 8
      | shells face => exact Nat.le_of_ble_eq_true rfl
    rw [List.mem_singleton.mp last, Nat.mul_comm]
    exact Nat.mul_le_mul size own

/-- The nodes of elements are nodes of this process. -/
theorem le_ownNodeCount_of_mem_elements {block : Block} {node : Nat}
    (listed : node ∈ (mesh.elements block).flatten) : node ≤ mesh.ownNodeCount := by
  obtain ⟨nodes, element, listed⟩ := List.mem_flatten.mp listed
  rw [elements_eq] at element
  obtain ⟨p, origin, rfl⟩ := List.mem_map.mp element
  obtain ⟨q, corner, rfl⟩ := List.mem_map.mp listed
  exact nodeAt_le (inSlab_of_mem_corners origin corner)

/-- The nodes of the elements of this process in a block. -/
theorem Accepted.connectivity?_eq (accepted : mesh.Accepted split)
    (fits : 8 * (mesh.numX * mesh.numY * mesh.numZ) < Word.limit) {number : Nat} {block : Block}
    (found : mesh.block number = .ok block) :
    mesh.connectivity? number = .ok (some (mesh.elements block).flatten) := by
  have steps : Word.Hold (mesh.connectivitySteps block) :=
    Word.hold_of_le fits fun _ step => accepted.le_of_mem_connectivitySteps step
  have nodes : Word.Hold (mesh.elements block).flatten := Word.hold_of_le fits fun _ listed =>
    ((le_ownNodeCount_of_mem_elements listed).trans
      ((Nat.le_add_left _ _).trans accepted.ownNodeCount_le)).trans accepted.nodeCount_le_corners
  rw [connectivity?, found]
  exact congrArg Except.ok ((if_pos steps).trans (if_pos nodes))

end Corners

end HexSlab.Mesh
