import HexSlab.Proofs.Mesh.ElementNumbers

/-!
# Neighbours share one layer of nodes

A process has the nodes of all layers from the boundary of its slab to the next
one. Where no slab is empty the boundaries rise strictly, so a layer between two
slabs lies in exactly these two, and every other layer lies in one. What two
processes share is therefore what their lists of shared nodes say, and nodes
counted by process are those of the whole mesh with each layer between two slabs
counted once more.
-/

namespace HexSlab

/-- Cuts that start at zero leave no place out up to the last one. -/
theorem exists_between_cuts {cut : Nat → Nat} (zero : cut 0 = 0) {count place : Nat}
    (some : 0 < count) (inside : place ≤ cut count) :
    ∃ rank < count, cut rank ≤ place ∧ place ≤ cut (rank + 1) := by
  induction count with
  | zero => exact absurd some (Nat.lt_irrefl 0)
  | succ count ih =>
    by_cases last : cut count ≤ place
    · exact ⟨count, Nat.lt_succ_self count, last, inside⟩
    · have before : 0 < count := by
        rcases Nat.eq_zero_or_pos count with rfl | positive
        · omega
        · exact positive
      obtain ⟨rank, below, between⟩ := ih before (by omega)
      exact ⟨rank, Nat.lt_succ_of_lt below, between⟩

/-- Of numbers any two of which are neighbours there are at most two. -/
theorem length_le_two_of_neighbours {ranks : List Nat}
    (neighbours : ranks.Pairwise fun lower upper => upper = lower + 1) : ranks.length ≤ 2 := by
  match ranks, neighbours with
  | [], _ => exact Nat.zero_le 2
  | [_], _ => exact Nat.le_succ 1
  | [_, _], _ => exact Nat.le_refl 2
  | first :: second :: third :: _, neighbours =>
    -- the third would be the successor of both others
    simp only [List.pairwise_cons, List.mem_cons, forall_eq_or_imp] at neighbours
    omega

/-- The ranks of a run rise through the list of its layouts. -/
theorem Layout.pairwise_rank_all (count : Nat) :
    (all count).Pairwise fun lower upper => lower.rank < upper.rank := by
  have rise : ((all count).map Layout.rank).Pairwise (· < ·) := by
    rw [map_rank_all]
    exact List.pairwise_lt_range
  exact List.pairwise_map.mp rise

/-- A layout is known by the size of its run and its rank. -/
theorem Layout.ext {first second : Layout} (count : first.count = second.count)
    (rank : first.rank = second.rank) : first = second := by
  cases first
  cases second
  simp only [Layout.mk.injEq]
  exact ⟨count, rank⟩

/-- The layout at the place of its rank. -/
theorem Layout.getElem?_all_eq_some {count rank : Nat} {layout : Layout}
    (found : (all count)[rank]? = some layout) : layout.count = count ∧ layout.rank = rank := by
  have listed := Mesh.count_of_mem_all (List.mem_of_getElem? found)
  have here : ((all count).map Layout.rank)[rank]? = some layout.rank := by
    rw [List.getElem?_map, found, Option.map_some]
  rw [map_rank_all] at here
  obtain ⟨inside, same⟩ := List.getElem?_eq_some_iff.mp here
  rw [List.getElem_range inside] at same
  exact ⟨listed, same.symm⟩

/-- No process of a run gets an empty slab. -/
def ZSplit.Filled (split : ZSplit) (processes : Nat) : Prop :=
  ∀ rank, split.boundary processes rank < split.boundary processes (rank + 1)

namespace Mesh

variable {R : Type} {split : ZSplit}

/-- A layer has nodes. -/
theorem layerNodes_pos (mesh : Mesh R) : 0 < mesh.layerNodes :=
  Nat.mul_pos (Nat.succ_pos _) (Nat.succ_pos _)

/-- The layer that a global node lies in, counted from zero. -/
def layerOf (mesh : Mesh R) (node : Nat) : Nat := (node - 1) / mesh.layerNodes

/-- The nodes of a stretch of layers. -/
theorem mem_layers_iff (mesh : Mesh R) {first count node : Nat} :
    node ∈ List.range' (first * mesh.layerNodes + 1) (mesh.layerNodes * count) ↔
      1 ≤ node ∧ first ≤ mesh.layerOf node ∧ mesh.layerOf node < first + count := by
  have positive := mesh.layerNodes_pos
  have total : (first + count) * mesh.layerNodes =
      first * mesh.layerNodes + mesh.layerNodes * count := by
    rw [Nat.add_mul, Nat.mul_comm count]
  rw [layerOf, Nat.le_div_iff_mul_le positive, Nat.div_lt_iff_lt_mul positive, total,
    List.mem_range'_1]
  omega

/-- A process has the nodes from the boundary of its slab to the next one. -/
theorem Accepted.mem_nodeMap_iff {mesh : Mesh R} (accepted : mesh.Accepted split) {node : Nat} :
    node ∈ mesh.nodeMap ↔ 1 ≤ node ∧
      split.boundary mesh.layout.count mesh.layout.rank ≤ mesh.layerOf node ∧
      mesh.layerOf node ≤ split.boundary mesh.layout.count (mesh.layout.rank + 1) := by
  have last := accepted.start_add_count_slab
  rw [nodeMap, ownNodeCount, mem_layers_iff, accepted.start_slab]
  rw [accepted.start_slab] at last
  omega

/-- The nodes of a shared layer, with the process that shares it. -/
theorem mem_sharedLayer_iff {mesh : Mesh R} {layer process node other : Nat} :
    (node, other) ∈ mesh.sharedLayer layer process ↔
      other = process ∧ 1 ≤ node ∧ mesh.layerOf node = layer := by
  have one : List.range' (layer * mesh.layerNodes + 1) mesh.layerNodes =
      List.range' (layer * mesh.layerNodes + 1) (mesh.layerNodes * 1) := by rw [Nat.mul_one]
  rw [sharedLayer, one, List.mem_map]
  simp only [mem_layers_iff, Prod.mk.injEq]
  constructor
  · rintro ⟨_, within, rfl, rfl⟩
    omega
  · rintro ⟨rfl, positive, rfl⟩
    exact ⟨node, by omega, rfl, rfl⟩

/-- Which nodes a process shares, and with whom. -/
theorem Accepted.mem_sharedNodes_iff {mesh : Mesh R} (accepted : mesh.Accepted split)
    {node other : Nat} :
    (node, other) ∈ mesh.sharedNodes ↔ 1 ≤ node ∧
      (other + 1 = mesh.layout.rank ∧
          mesh.layerOf node = split.boundary mesh.layout.count mesh.layout.rank ∨
        other = mesh.layout.rank + 1 ∧ other < mesh.layout.count ∧
          mesh.layerOf node = split.boundary mesh.layout.count (mesh.layout.rank + 1)) := by
  have inside := mesh.layout.rank_lt
  rw [sharedNodes, List.mem_append, accepted.start_add_count_slab, accepted.start_slab]
  simp only [Layout.isFirst, Layout.isLast, beq_iff_eq]
  have lower : (node, other) ∈ (if mesh.layout.rank = 0 then []
      else mesh.sharedLayer (split.boundary mesh.layout.count mesh.layout.rank)
        (mesh.layout.rank - 1)) ↔
        other + 1 = mesh.layout.rank ∧ 1 ≤ node ∧
          mesh.layerOf node = split.boundary mesh.layout.count mesh.layout.rank := by
    split
    · simp only [List.not_mem_nil, false_iff]
      omega
    · rw [mem_sharedLayer_iff]
      omega
  have upper : (node, other) ∈ (if mesh.layout.rank + 1 = mesh.layout.count then []
      else mesh.sharedLayer (split.boundary mesh.layout.count (mesh.layout.rank + 1))
        (mesh.layout.rank + 1)) ↔
        (other = mesh.layout.rank + 1 ∧ other < mesh.layout.count) ∧ 1 ≤ node ∧
          mesh.layerOf node = split.boundary mesh.layout.count (mesh.layout.rank + 1) := by
    split
    · simp only [List.not_mem_nil, false_iff]
      omega
    · rw [mem_sharedLayer_iff]
      omega
  rw [lower, upper]
  constructor
  · rintro (⟨below, positive, layer⟩ | ⟨⟨above, last⟩, positive, layer⟩)
    · exact ⟨positive, .inl ⟨below, layer⟩⟩
    · exact ⟨positive, .inr ⟨above, last, layer⟩⟩
  · rintro ⟨positive, ⟨below, layer⟩ | ⟨above, last, layer⟩⟩
    · exact .inl ⟨below, positive, layer⟩
    · exact .inr ⟨⟨above, last⟩, positive, layer⟩

/-- A shared layer has each of its nodes once. -/
theorem nodup_sharedLayer (mesh : Mesh R) (layer process : Nat) :
    (mesh.sharedLayer layer process).Nodup :=
  (List.nodup_range' 1).map fun _ _ same => (Prod.mk.inj same).1

/-- No node is shared with one process twice. -/
theorem nodup_sharedNodes (mesh : Mesh R) : mesh.sharedNodes.Nodup := by
  rw [sharedNodes]
  refine List.nodup_append'.mpr ⟨?_, ?_, ?_⟩
  · split
    · exact List.nodup_nil
    · exact nodup_sharedLayer _ _ _
  · split
    · exact List.nodup_nil
    · exact nodup_sharedLayer _ _ _
  · -- the processes below and above differ
    rintro ⟨node, other⟩ below above
    split at below
    · cases below
    · split at above
      · cases above
      · have first := (mem_sharedLayer_iff.mp below).1
        have second := (mem_sharedLayer_iff.mp above).1
        omega

section Views

variable {mesh : Mesh R} {lower upper : Layout}

/-- A process of the run has the nodes between its boundaries. -/
theorem Accepted.mem_nodeMap_seenFrom_iff (accepted : mesh.Accepted split) {layout : Layout}
    (same : layout.count = mesh.layout.count) {node : Nat} :
    node ∈ (mesh.seenFrom split layout).nodeMap ↔ 1 ≤ node ∧
      split.boundary mesh.layout.count layout.rank ≤ mesh.layerOf node ∧
      mesh.layerOf node ≤ split.boundary mesh.layout.count (layout.rank + 1) := by
  rw [(accepted.seenFrom same).mem_nodeMap_iff, ← same]
  rfl

/-- What a process of the run shares, and with whom. -/
theorem Accepted.mem_sharedNodes_seenFrom_iff (accepted : mesh.Accepted split)
    {layout : Layout} (same : layout.count = mesh.layout.count) {node other : Nat} :
    (node, other) ∈ (mesh.seenFrom split layout).sharedNodes ↔ 1 ≤ node ∧
      (other + 1 = layout.rank ∧ mesh.layerOf node = split.boundary mesh.layout.count layout.rank ∨
        other = layout.rank + 1 ∧ other < mesh.layout.count ∧
          mesh.layerOf node = split.boundary mesh.layout.count (layout.rank + 1)) := by
  rw [(accepted.seenFrom same).mem_sharedNodes_iff, ← same]
  rfl

/-- Two processes have a node in common exactly if they are neighbours and it lies
in the layer between their slabs. -/
theorem Accepted.mem_both_iff (accepted : mesh.Accepted split)
    (filled : split.Filled mesh.layout.count)
    (sameLower : lower.count = mesh.layout.count) (sameUpper : upper.count = mesh.layout.count)
    (rise : lower.rank < upper.rank) {node : Nat} :
    node ∈ (mesh.seenFrom split lower).nodeMap ∧ node ∈ (mesh.seenFrom split upper).nodeMap ↔
      1 ≤ node ∧ upper.rank = lower.rank + 1 ∧
        mesh.layerOf node = split.boundary mesh.layout.count (lower.rank + 1) := by
  rw [accepted.mem_nodeMap_seenFrom_iff sameLower,
    accepted.mem_nodeMap_seenFrom_iff sameUpper]
  have below := filled lower.rank
  have above := filled upper.rank
  constructor
  · rintro ⟨⟨positive, -, highest⟩, -, lowest, -⟩
    have apart : split.boundary mesh.layout.count (lower.rank + 1) ≤
        split.boundary mesh.layout.count upper.rank :=
      split.boundary_mono mesh.layout.count rise
    -- a slab between the two would hold a layer above the lower and below the upper one
    have next : upper.rank = lower.rank + 1 := by
      by_contra far
      have between := filled (lower.rank + 1)
      have later : lower.rank + 1 + 1 ≤ upper.rank := by omega
      have beyond := split.boundary_mono mesh.layout.count later
      omega
    exact ⟨positive, next, by omega⟩
  · rintro ⟨positive, next, between⟩
    rw [next] at above ⊢
    omega

/-- The lower of two processes lists the nodes they have in common. -/
theorem Accepted.mem_both_iff_lower (accepted : mesh.Accepted split)
    (filled : split.Filled mesh.layout.count)
    (sameLower : lower.count = mesh.layout.count) (sameUpper : upper.count = mesh.layout.count)
    (rise : lower.rank < upper.rank) {node : Nat} :
    node ∈ (mesh.seenFrom split lower).nodeMap ∧ node ∈ (mesh.seenFrom split upper).nodeMap ↔
      upper.rank = lower.rank + 1 ∧
        (node, upper.rank) ∈ (mesh.seenFrom split lower).sharedNodes := by
  have inside := upper.rank_lt
  rw [accepted.mem_both_iff filled sameLower sameUpper rise,
    accepted.mem_sharedNodes_seenFrom_iff sameLower]
  omega

/-- The upper of two processes lists the nodes they have in common. -/
theorem Accepted.mem_both_iff_upper (accepted : mesh.Accepted split)
    (filled : split.Filled mesh.layout.count)
    (sameLower : lower.count = mesh.layout.count) (sameUpper : upper.count = mesh.layout.count)
    (rise : lower.rank < upper.rank) {node : Nat} :
    node ∈ (mesh.seenFrom split lower).nodeMap ∧ node ∈ (mesh.seenFrom split upper).nodeMap ↔
      upper.rank = lower.rank + 1 ∧
        (node, lower.rank) ∈ (mesh.seenFrom split upper).sharedNodes := by
  rw [accepted.mem_both_iff filled sameLower sameUpper rise,
    accepted.mem_sharedNodes_seenFrom_iff sameUpper]
  constructor
  · rintro ⟨positive, next, between⟩
    exact ⟨next, positive, .inl ⟨next.symm, by rw [next, between]⟩⟩
  · rintro ⟨next, positive, ⟨-, between⟩ | ⟨after, -⟩⟩
    · exact ⟨positive, next, by rw [between, next]⟩
    · omega

end Views

/-- A node of the whole mesh lies in a layer up to the last one, and conversely. -/
theorem le_nodeCount_iff (mesh : Mesh R) {node : Nat} :
    1 ≤ node ∧ node ≤ mesh.nodeCount ↔ 1 ≤ node ∧ mesh.layerOf node ≤ mesh.numZ := by
  have within : mesh.layerOf node < mesh.numZ + 1 ↔ node - 1 < mesh.nodeCount := by
    rw [layerOf, Nat.div_lt_iff_lt_mul mesh.layerNodes_pos, nodeCount, Nat.mul_comm]
  omega

/-- A function of the rank on all processes of a run. -/
theorem total_map_all {count : Nat} {value : Layout → Nat} (part : Nat → Nat)
    (same : ∀ layout ∈ Layout.all count, value layout = part layout.rank) :
    ((Layout.all count).map value).sum = ((List.range count).map part).sum := by
  rw [← Layout.map_rank_all, List.map_map]
  exact congrArg List.sum (List.map_congr_left same)

/-- The lengths between neighbouring cuts, each with one more, add up to the length
between the first cut and the last one and one more for each. -/
theorem total_map_cuts {cut : Nat → Nat} (rise : ∀ rank, cut rank ≤ cut (rank + 1))
    (size count : Nat) :
    ((List.range count).map fun rank => size * (cut (rank + 1) - cut rank + 1)).sum =
      size * (cut count - cut 0 + count) := by
  induction count with
  | zero =>
    simp only [List.range_zero, List.map_nil, List.sum_nil, Nat.sub_self, Nat.add_zero,
      Nat.mul_zero]
  | succ count ih =>
    have start : cut 0 ≤ cut count := monotone_nat_of_le_succ rise (Nat.zero_le count)
    have last := rise count
    have joint : cut (count + 1) - cut 0 + (count + 1) =
        (cut count - cut 0 + count) + (cut (count + 1) - cut count + 1) := by omega
    rw [List.range_succ, List.map_append, List.sum_append, ih, joint,
      Nat.mul_add size (cut count - cut 0 + count)]
    rfl

/-- The nodes of all processes of a run, counted by process. -/
theorem Accepted.total_ownNodeCount {mesh : Mesh R} (accepted : mesh.Accepted split) :
    (((Layout.all mesh.layout.count).map (mesh.seenFrom split)).map ownNodeCount).sum =
      mesh.nodeCount + (mesh.layout.count - 1) * mesh.layerNodes := by
  have inside := mesh.layout.rank_lt
  have each : ∀ layout ∈ Layout.all mesh.layout.count,
      (ownNodeCount ∘ mesh.seenFrom split) layout =
        mesh.layerNodes *
          (split.boundary mesh.layout.count (layout.rank + 1) -
            split.boundary mesh.layout.count layout.rank + 1) := by
    intro layout listed
    have same := count_of_mem_all listed
    have there := accepted.seenFrom same
    have last : (mesh.seenFrom split layout).slab.start +
        (mesh.seenFrom split layout).slab.count =
          split.boundary layout.count (layout.rank + 1) := there.start_add_count_slab
    have first : (mesh.seenFrom split layout).slab.start =
        split.boundary layout.count layout.rank := there.start_slab
    rw [first, same] at last
    have count : (mesh.seenFrom split layout).slab.count =
        split.boundary mesh.layout.count (layout.rank + 1) -
          split.boundary mesh.layout.count layout.rank :=
      Nat.eq_sub_of_add_eq' last
    rw [Function.comp_apply, ownNodeCount, count]
    rfl
  have layers : mesh.numZ + mesh.layout.count = (mesh.numZ + 1) + (mesh.layout.count - 1) := by
    omega
  rw [List.map_map, total_map_all (fun rank =>
      mesh.layerNodes * (split.boundary mesh.layout.count (rank + 1) -
        split.boundary mesh.layout.count rank + 1)) each,
    total_map_cuts (fun rank => split.boundary_mono mesh.layout.count (Nat.le_succ rank)),
    ZSplit.boundary_zero, accepted.boundary_processes, Nat.sub_zero, layers, Nat.mul_add, nodeCount,
    Nat.mul_comm (mesh.layout.count - 1)]

/-- A node of the whole mesh is on one process or on two neighbours. -/
theorem Accepted.countP_nodeMap {mesh : Mesh R} (accepted : mesh.Accepted split)
    (filled : split.Filled mesh.layout.count) {node : Nat}
    (inside : 1 ≤ node ∧ node ≤ mesh.nodeCount) :
    1 ≤ ((Layout.all mesh.layout.count).map (mesh.seenFrom split)).countP
        (fun own => node ∈ own.nodeMap) ∧
      ((Layout.all mesh.layout.count).map (mesh.seenFrom split)).countP
        (fun own => node ∈ own.nodeMap) ≤ 2 := by
  have processes : 0 < mesh.layout.count := Nat.zero_lt_of_lt mesh.layout.rank_lt
  obtain ⟨positive, layer⟩ := mesh.le_nodeCount_iff.mp inside
  constructor
  · rw [← accepted.boundary_processes] at layer
    obtain ⟨rank, below, between⟩ := exists_between_cuts (split.boundary_zero _) processes layer
    let owner : Layout := ⟨mesh.layout.count, rank, below⟩
    have run : owner.count = mesh.layout.count := rfl
    refine List.one_le_countP_iff.mpr ⟨mesh.seenFrom split owner, ?_, ?_⟩
    · exact List.mem_map.mpr ⟨owner, owner.mem_all, rfl⟩
    · exact decide_eq_true ((accepted.mem_nodeMap_seenFrom_iff run).mpr ⟨positive, between⟩)
  · rw [List.countP_map, List.countP_eq_length_filter, ← List.length_map Layout.rank]
    refine length_le_two_of_neighbours (List.pairwise_map.mpr ?_)
    refine ((Layout.pairwise_rank_all _).filter _).imp_of_mem ?_
    intro lower upper first second rise
    obtain ⟨runLower, ownLower⟩ := List.mem_filter.mp first
    obtain ⟨runUpper, ownUpper⟩ := List.mem_filter.mp second
    have both := (accepted.mem_both_iff filled (count_of_mem_all runLower)
      (count_of_mem_all runUpper) rise).mp ⟨of_decide_eq_true ownLower, of_decide_eq_true ownUpper⟩
    exact both.2.1

/-- What the processes of a run have in common is what they list as shared. -/
structure NodesShared (ranks : List (Mesh R)) : Prop where
  /-- Each process answers with its nodes, with those that it shares, and with the numbers
  of nodes. -/
  answers : ∀ own ∈ ranks, own.nodeMap? = some own.nodeMap ∧
    own.sharedNodes? = some own.sharedNodes ∧
    own.nodeCount? = some own.nodeCount ∧ own.ownNodeCount? = some own.ownNodeCount
  /-- Each process has each of its nodes once, and they are nodes of the whole mesh. -/
  once : ∀ own ∈ ranks, own.nodeMap.Nodup ∧ own.nodeMap.length = own.ownNodeCount ∧
    ∀ node ∈ own.nodeMap, 1 ≤ node ∧ node ≤ own.nodeCount
  /-- Each node of the whole mesh is on one process or on two. -/
  owners : ∀ own ∈ ranks, ∀ node, 1 ≤ node ∧ node ≤ own.nodeCount →
    1 ≤ ranks.countP (fun other => node ∈ other.nodeMap) ∧
      ranks.countP (fun other => node ∈ other.nodeMap) ≤ 2
  /-- Two processes have the nodes in common that the lower one shares with the next. -/
  lower : ∀ rank later own other, rank < later → ranks[rank]? = some own →
    ranks[later]? = some other → ∀ node, node ∈ own.nodeMap ∧ node ∈ other.nodeMap ↔
      later = rank + 1 ∧ (node, later) ∈ own.sharedNodes
  /-- Two processes have the nodes in common that the upper one shares with the one
  before. -/
  upper : ∀ rank later own other, rank < later → ranks[rank]? = some own →
    ranks[later]? = some other → ∀ node, node ∈ own.nodeMap ∧ node ∈ other.nodeMap ↔
      later = rank + 1 ∧ (node, rank) ∈ other.sharedNodes
  /-- No pair is listed twice. -/
  distinct : ∀ own ∈ ranks, own.sharedNodes.Nodup
  /-- A pair that is listed names a neighbour in the run and a node that both have. -/
  listed : ∀ rank own node process, ranks[rank]? = some own →
    (node, process) ∈ own.sharedNodes → (process + 1 = rank ∨ process = rank + 1) ∧
      node ∈ own.nodeMap ∧ ∃ other, ranks[process]? = some other ∧ node ∈ other.nodeMap
  /-- Counted by process, the nodes between two slabs are counted twice. -/
  total : ∀ own ∈ ranks, (ranks.map ownNodeCount).sum =
    own.nodeCount + (ranks.length - 1) * ((own.numX + 1) * (own.numY + 1))

/-- The view of a mesh at a place in the list of all views. -/
theorem exists_layout_of_getElem? {mesh own : Mesh R} {rank : Nat}
    (found : ((Layout.all mesh.layout.count).map (mesh.seenFrom split))[rank]? = some own) :
    ∃ layout : Layout, layout.count = mesh.layout.count ∧ layout.rank = rank ∧
      own = mesh.seenFrom split layout := by
  rw [List.getElem?_map, Option.map_eq_some_iff] at found
  obtain ⟨layout, here, rfl⟩ := found
  obtain ⟨same, place⟩ := Layout.getElem?_all_eq_some here
  exact ⟨layout, same, place, rfl⟩

/-- Each process of the run has its view in the list of all views. -/
theorem getElem?_views {mesh : Mesh R} {layout : Layout}
    (same : layout.count = mesh.layout.count) :
    ((Layout.all mesh.layout.count).map (mesh.seenFrom split))[layout.rank]? =
      some (mesh.seenFrom split layout) := by
  have inside : layout.rank < (Layout.all mesh.layout.count).length := by
    rw [Layout.all, List.length_map, List.length_finRange, ← same]
    exact layout.rank_lt
  rw [List.getElem?_map, List.getElem?_eq_getElem inside, Option.map_some]
  obtain ⟨count, rank⟩ := Layout.getElem?_all_eq_some (List.getElem?_eq_getElem inside)
  rw [Layout.ext (count.trans same.symm) rank]

/-- What a process lists as shared is on the other process too. -/
theorem Accepted.mem_of_mem_sharedNodes {mesh : Mesh R} (accepted : mesh.Accepted split)
    (filled : split.Filled mesh.layout.count)
    {layout : Layout} (same : layout.count = mesh.layout.count) {node process : Nat}
    (listed : (node, process) ∈ (mesh.seenFrom split layout).sharedNodes) :
    (process + 1 = layout.rank ∨ process = layout.rank + 1) ∧
      node ∈ (mesh.seenFrom split layout).nodeMap ∧
      ∃ other : Layout, other.count = mesh.layout.count ∧ other.rank = process ∧
        node ∈ (mesh.seenFrom split other).nodeMap := by
  have inside := layout.rank_lt
  have shared := (accepted.mem_sharedNodes_seenFrom_iff same).mp listed
  obtain ⟨-, ⟨below, -⟩ | ⟨above, last, -⟩⟩ := shared
  · let other : Layout := ⟨mesh.layout.count, process, by omega⟩
    have run : other.count = mesh.layout.count := rfl
    have next : layout.rank = other.rank + 1 := below.symm
    have both := (accepted.mem_both_iff_upper filled run same (by omega)).mpr ⟨next, listed⟩
    exact ⟨.inl below, both.2, other, run, rfl, both.1⟩
  · let other : Layout := ⟨mesh.layout.count, process, last⟩
    have run : other.count = mesh.layout.count := rfl
    have next : other.rank = layout.rank + 1 := above
    have both := (accepted.mem_both_iff_lower filled same run (by omega)).mpr ⟨next, listed⟩
    exact ⟨.inr above, both.1, other, run, rfl, both.2⟩

/-- Where no slab is empty, each process answers with the nodes that it shares, if words
hold the numbers of all nodes. -/
theorem Accepted.sharedNodes?_eq {mesh : Mesh R} (accepted : mesh.Accepted split)
    (filled : split.Filled mesh.layout.count) (fits : mesh.nodeCount < Word.limit) :
    mesh.sharedNodes? = some mesh.sharedNodes := by
  have inside := mesh.layout.rank_lt
  have rises := split.boundary_mono mesh.layout.count
  have total := accepted.boundary_processes
  refine Mesh.sharedNodes?_eq fits ?_ fun inner => ?_
  · have own := filled mesh.layout.rank
    have below := rises (show mesh.layout.rank + 1 ≤ mesh.layout.count from inside)
    rw [accepted.start_slab]
    omega
  · have later : mesh.layout.rank + 1 + 1 ≤ mesh.layout.count := by
      simp only [Layout.isLast, beq_eq_false_iff_ne] at inner
      omega
    have next := filled (mesh.layout.rank + 1)
    have below := rises later
    rw [accepted.start_add_count_slab]
    omega

/-- Where no slab is empty, the processes of a run share what they list, if words hold the
numbers of all nodes. -/
theorem Accepted.nodesShared {mesh : Mesh R} (accepted : mesh.Accepted split)
    (filled : split.Filled mesh.layout.count) (fits : mesh.nodeCount < Word.limit) :
    NodesShared ((Layout.all mesh.layout.count).map (mesh.seenFrom split)) where
  answers := by
    intro own here
    obtain ⟨layout, run, rfl⟩ := List.mem_map.mp here
    have same := count_of_mem_all run
    have there := accepted.seenFrom same
    have none : split.Filled (mesh.seenFrom split layout).layout.count := by
      rw [← same] at filled
      exact filled
    exact ⟨there.nodeMap?_eq fits, there.sharedNodes?_eq none fits, nodeCount?_eq fits,
      there.ownNodeCount?_eq fits⟩
  once := by
    intro own here
    obtain ⟨layout, run, rfl⟩ := List.mem_map.mp here
    have same := count_of_mem_all run
    refine ⟨List.nodup_range' 1, List.length_range', fun node listed => ?_⟩
    obtain ⟨positive, -, highest⟩ := (accepted.mem_nodeMap_seenFrom_iff same).mp listed
    have last : layout.rank + 1 ≤ mesh.layout.count := same ▸ layout.rank_lt
    have below := split.boundary_mono mesh.layout.count last
    rw [accepted.boundary_processes] at below
    exact mesh.le_nodeCount_iff.mpr ⟨positive, highest.trans below⟩
  owners := by
    intro own here node inside
    obtain ⟨layout, run, rfl⟩ := List.mem_map.mp here
    exact accepted.countP_nodeMap filled inside
  lower := by
    intro rank later own other rise here there node
    obtain ⟨first, sameFirst, rfl, rfl⟩ := exists_layout_of_getElem? here
    obtain ⟨second, sameSecond, rfl, rfl⟩ := exists_layout_of_getElem? there
    exact accepted.mem_both_iff_lower filled sameFirst sameSecond rise
  upper := by
    intro rank later own other rise here there node
    obtain ⟨first, sameFirst, rfl, rfl⟩ := exists_layout_of_getElem? here
    obtain ⟨second, sameSecond, rfl, rfl⟩ := exists_layout_of_getElem? there
    exact accepted.mem_both_iff_upper filled sameFirst sameSecond rise
  distinct := by
    intro own here
    exact own.nodup_sharedNodes
  listed := by
    intro rank own node process here pair
    obtain ⟨layout, same, rfl, rfl⟩ := exists_layout_of_getElem? here
    obtain ⟨neighbour, has, other, run, rfl, also⟩ :=
      accepted.mem_of_mem_sharedNodes filled same pair
    exact ⟨neighbour, has, _, getElem?_views run, also⟩
  total := by
    intro own here
    obtain ⟨layout, run, rfl⟩ := List.mem_map.mp here
    have length : ((Layout.all mesh.layout.count).map (mesh.seenFrom split)).length =
        mesh.layout.count := by
      rw [Layout.all, List.length_map, List.length_map, List.length_finRange]
    rw [accepted.total_ownNodeCount, length]
    rfl

/-- An even split of enough intervals leaves no process without one. -/
theorem filled_even {intervals processes : Nat} (run : 1 ≤ processes)
    (enough : processes ≤ intervals) : (ZSplit.even intervals).Filled processes := by
  intro rank
  have share : 0 < intervals / processes := Nat.div_pos enough run
  have next : (rank + 1) * (intervals / processes) =
      rank * (intervals / processes) + intervals / processes := Nat.succ_mul _ _
  simp only [ZSplit.boundary]
  omega

/-- On every run with at least one interval along Z for each process, the processes
build their meshes, and, if words hold the numbers of all nodes, two of them have exactly
those nodes in common that their lists of shared nodes say. -/
theorem nodes_shared_as_listed [Scalar R] {numX numY numZ processes : Nat}
    (someX : 1 ≤ numX) (someY : 1 ≤ numY) (run : 1 ≤ processes) (enough : processes ≤ numZ)
    (fits : (numX + 1) * (numY + 1) * (numZ + 1) < Word.limit) :
    ∃ ranks : List (Mesh R),
      (Layout.all processes).mapM (ofIntervals numX numY numZ) = .ok ranks ∧
        ranks.length = processes ∧ NodesShared ranks := by
  let first : Layout := ⟨processes, 0, run⟩
  have accepted : (unit numX numY numZ first : Mesh R).Accepted (.even numZ) :=
    accepted_unit ⟨someX, someY, enough⟩
  have built : (Layout.all processes).mapM (ofIntervals numX numY numZ) =
      .ok ((Layout.all processes).map (unit numX numY numZ : Layout → Mesh R)) :=
    mapM_eq_pure fun layout listed => ofIntervals_eq_ok_iff.mpr
      ⟨⟨someX, someY, (count_of_mem_all listed).symm ▸ enough⟩, rfl⟩
  refine ⟨_, built, ?_, accepted.nodesShared (filled_even run enough) fits⟩
  rw [Layout.all, List.length_map, List.length_map, List.length_finRange]

/-- Five layers on three processes: the middle process shares its first layer with
the process below and its last one with the process above. -/
theorem nodes_shared_as_listed_three :
    (unit 1 1 5 ⟨3, 1, by decide⟩ : Mesh Float).sharedNodes? =
        some [(9, 0), (10, 0), (11, 0), (12, 0), (17, 2), (18, 2), (19, 2), (20, 2)] ∧
      ∃ ranks : List (Mesh Float),
        (Layout.all 3).mapM (ofIntervals 1 1 5) = .ok ranks ∧ ranks.length = 3 ∧
          NodesShared ranks :=
  ⟨by decide, nodes_shared_as_listed (by decide) (by decide) (by decide) (by decide) (by decide)⟩

/-- Past words nodes are not shared as listed. The process of a serial run does not answer
with the numbers of its nodes, and neither does the last of many processes, which has eight
nodes. -/
theorem nodes_unlisted_past_words :
    (∃ mesh : Mesh Float,
      ofIntervals 2305843009213693951 5 1 .serial = .ok mesh ∧
        mesh.nodeCount? = none ∧ mesh.nodeMap? = none) ∧
    ∃ mesh : Mesh Float,
      ofIntervals 1 1 4611686018427387904
          ⟨4611686018427387904, 4611686018427387903, by decide⟩ = .ok mesh ∧
        mesh.ownNodeCount? = some 8 ∧ mesh.nodeMap? = none :=
  ⟨⟨_, rfl, by decide, by decide⟩, _, rfl, by decide, by decide⟩

end Mesh

end HexSlab
