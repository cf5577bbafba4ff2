import HexSlab.Proofs.Mesh.ExactAnswers
import HexSlab.Proofs.Mesh.SetterCalls
import Mathlib.Data.List.FinRange
import Mathlib.Data.List.Perm.Basic

/-!
# Element numbers are dealt out without gap or overlap

The numbers of a block on the processes of a run, one process after the other,
are consecutive, because each process begins at its cut and ends at the next one.
The blocks follow each other, so on each process the numbers rise, and all
processes together have every number from one to the number of elements once.
-/

namespace HexSlab

/-- Stretches between neighbouring cuts make up the stretch from the first cut to
the last one. -/
theorem flatMap_range'_cuts {cut : Nat → Nat} (rise : ∀ rank, cut rank ≤ cut (rank + 1))
    (base count : Nat) :
    ((List.range count).flatMap fun rank =>
        List.range' (base + cut rank) (cut (rank + 1) - cut rank)) =
      List.range' (base + cut 0) (cut count - cut 0) := by
  induction count with
  | zero => simp only [List.range_zero, List.flatMap_nil, Nat.sub_self, List.range'_zero]
  | succ count ih =>
    have start : cut 0 ≤ cut count := monotone_nat_of_le_succ rise (Nat.zero_le count)
    have last := rise count
    have joint : base + cut count = base + cut 0 + (cut count - cut 0) := by omega
    have total : cut (count + 1) - cut 0 =
        (cut count - cut 0) + (cut (count + 1) - cut count) := by omega
    rw [List.range_succ, List.flatMap_append, ih, List.flatMap_singleton, total, joint]
    exact List.range'_append_1

namespace Layout

/-- The ranks of all processes of a run, in order. -/
theorem map_rank_all (count : Nat) : (all count).map Layout.rank = List.range count := by
  rw [all, List.map_map]
  exact List.map_coe_finRange_eq_range

/-- Each process is among all processes of its run. -/
theorem mem_all (layout : Layout) : layout ∈ all layout.count :=
  List.mem_map.mpr ⟨⟨layout.rank, layout.rank_lt⟩, List.mem_finRange _, rfl⟩

/-- A function of the rank over all processes of a run. -/
theorem flatMap_all {α : Type} {count : Nat} {value : Layout → List α} (part : Nat → List α)
    (same : ∀ layout ∈ all count, value layout = part layout.rank) :
    (all count).flatMap value = (List.range count).flatMap part := by
  rw [← map_rank_all, List.flatMap_map]
  exact List.flatMap_congr same

end Layout

namespace Mesh

variable {R : Type} {split : ZSplit}

/-- The cuts of a block are the same for all processes of a run. -/
theorem elementsBelow_seenFrom {mesh : Mesh R} {layout : Layout}
    (same : layout.count = mesh.layout.count) (rank : Nat) (block : Block) :
    (mesh.seenFrom split layout).elementsBelow split rank block =
      mesh.elementsBelow split rank block := by
  cases block with
  | hexahedra => simp only [elementsBelow, seenFrom, same]
  | shells face => cases face <;> simp only [elementsBelow, seenFrom, same]

/-- The elements of a block on another process of the run lie between its cut and
the next one. -/
theorem Accepted.elementNumbers_seenFrom {mesh : Mesh R} (accepted : mesh.Accepted split)
    {layout : Layout} (same : layout.count = mesh.layout.count) (preceding : Nat)
    (block : Block) :
    (mesh.seenFrom split layout).elementNumbers preceding block =
      List.range' (preceding + 1 + mesh.elementsBelow split layout.rank block)
        (mesh.elementsBelow split (layout.rank + 1) block -
          mesh.elementsBelow split layout.rank block) := by
  have there := accepted.seenFrom same
  have next := there.elementsBelow_succ_rank block
  rw [elementsBelow_seenFrom same, elementsBelow_seenFrom same] at next
  have rank : (mesh.seenFrom split layout).layout.rank = layout.rank := rfl
  rw [rank] at next
  rw [there.elementNumbers_eq, elementsBelow_seenFrom same, rank, next, Nat.add_sub_cancel_left]

/-- The numbers of a block's elements on all processes, in order, are consecutive. -/
theorem Accepted.flatMap_elementNumbers {mesh : Mesh R} (accepted : mesh.Accepted split)
    (preceding : Nat) (block : Block) :
    ((Layout.all mesh.layout.count).flatMap fun layout =>
        (mesh.seenFrom split layout).elementNumbers preceding block) =
      List.range' (preceding + 1) (mesh.elementsOf block) := by
  have ranks := Layout.flatMap_all
    (fun rank => List.range' (preceding + 1 + mesh.elementsBelow split rank block)
      (mesh.elementsBelow split (rank + 1) block - mesh.elementsBelow split rank block))
    fun layout (listed : layout ∈ Layout.all mesh.layout.count) =>
      accepted.elementNumbers_seenFrom (count_of_mem_all listed) preceding block
  rw [ranks, flatMap_range'_cuts (fun rank => mesh.elementsBelow_le_succ split rank block),
    elementsBelow_zero, accepted.elementsBelow_processes, Nat.add_zero, Nat.sub_zero]

/-- The numbers in a list of blocks come after those of the blocks before it. -/
theorem lt_of_mem_elementMapFrom {mesh : Mesh R} {blocks : List Block} {preceding number : Nat}
    (listed : number ∈ mesh.elementMapFrom preceding blocks) : preceding < number := by
  induction blocks generalizing preceding with
  | nil => cases listed
  | cons block rest ih =>
    obtain here | later := List.mem_append.mp listed
    · rw [elementNumbers, List.mem_range'_1] at here
      omega
    · have after := ih later
      omega

/-- The numbers of this process rise through a list of blocks. -/
theorem Accepted.pairwise_elementMapFrom {mesh : Mesh R} (accepted : mesh.Accepted split)
    (blocks : List Block) (preceding : Nat) :
    (mesh.elementMapFrom preceding blocks).Pairwise (· < ·) := by
  induction blocks generalizing preceding with
  | nil => exact List.Pairwise.nil
  | cons block rest ih =>
    rw [elementMapFrom, List.pairwise_append]
    refine ⟨List.pairwise_lt_range', ih _, ?_⟩
    intro number here other later
    have bound := accepted.elementsBelow_add_own_le block
    have after := lt_of_mem_elementMapFrom later
    rw [accepted.elementNumbers_eq, List.mem_range'_1] at here
    omega

/-- This process has one number for each of its elements in a list of blocks. -/
theorem length_elementMapFrom (mesh : Mesh R) (blocks : List Block) (preceding : Nat) :
    (mesh.elementMapFrom preceding blocks).length =
      (blocks.map mesh.ownElementsOf).sum := by
  induction blocks generalizing preceding with
  | nil => rfl
  | cons block rest ih =>
    rw [elementMapFrom, List.length_append, ih, elementNumbers, List.length_range',
      List.map_cons, List.sum_cons]

/-- All processes together have the consecutive numbers of a list of blocks, each
once. -/
theorem Accepted.perm_elementMapFrom {mesh : Mesh R} (accepted : mesh.Accepted split)
    (blocks : List Block) (preceding : Nat) :
    ((Layout.all mesh.layout.count).flatMap fun layout =>
        (mesh.seenFrom split layout).elementMapFrom preceding blocks).Perm
      (List.range' (preceding + 1) (blocks.map mesh.elementsOf).sum) := by
  induction blocks generalizing preceding with
  | nil =>
    have empty : (Layout.all mesh.layout.count).flatMap
        (fun layout => (mesh.seenFrom split layout).elementMapFrom preceding []) = [] :=
      List.flatMap_eq_nil_iff.mpr fun _ _ => rfl
    rw [empty]
    exact List.Perm.refl _
  | cons block rest ih =>
    have later := ih (preceding + mesh.elementsOf block)
    have joint : preceding + mesh.elementsOf block + 1 =
        preceding + 1 + mesh.elementsOf block := Nat.add_right_comm _ _ _
    rw [joint] at later
    rw [List.map_cons, List.sum_cons, ← List.range'_append_1]
    calc ((Layout.all mesh.layout.count).flatMap fun layout =>
          (mesh.seenFrom split layout).elementMapFrom preceding (block :: rest))
        = (Layout.all mesh.layout.count).flatMap fun layout =>
          (mesh.seenFrom split layout).elementNumbers preceding block ++
            (mesh.seenFrom split layout).elementMapFrom (preceding + mesh.elementsOf block) rest :=
        rfl
      _ |>.Perm _ := (List.flatMap_append_perm _ _ _).symm
      _ |>.Perm _ :=
        (List.Perm.of_eq (accepted.flatMap_elementNumbers preceding block)).append later

/-- All processes together have the number of each element once. -/
theorem Accepted.perm_elementMap {mesh : Mesh R} (accepted : mesh.Accepted split) :
    (((Layout.all mesh.layout.count).map (mesh.seenFrom split)).flatMap elementMap).Perm
      (List.range' 1 mesh.elementCount) := by
  rw [List.flatMap_map, elementCount_eq_sum]
  exact accepted.perm_elementMapFrom mesh.blocks 0

/-- The numbers of a block on the processes of a run, one process after the other, if
words hold the numbers of all elements. -/
theorem Accepted.flatten_blockElementMap {mesh : Mesh R} (accepted : mesh.Accepted split)
    (fits : mesh.elementCount + 1 < Word.limit) {number : Nat} {block : Block}
    (found : mesh.block number = .ok block) :
    ∃ maps : List (List Nat),
      ((Layout.all mesh.layout.count).map (mesh.seenFrom split)).mapM
        (fun own => own.blockElementMap? number) = .ok (maps.map some) ∧
      maps.flatten =
        List.range' (mesh.elementsBefore (number - 1) + 1) (mesh.elementsOf block) := by
  have each : ∀ own ∈ (Layout.all mesh.layout.count).map (mesh.seenFrom split),
      own.blockElementMap? number =
        .ok (some (own.elementNumbers (mesh.elementsBefore (number - 1)) block)) := by
    intro own listed
    obtain ⟨layout, run, rfl⟩ := List.mem_map.mp listed
    have same : (mesh.seenFrom split layout).block number = .ok block := found
    exact (accepted.seenFrom (count_of_mem_all run)).blockElementMap?_eq fits same
  refine ⟨((Layout.all mesh.layout.count).map (mesh.seenFrom split)).map fun own =>
    own.elementNumbers (mesh.elementsBefore (number - 1)) block, ?_, ?_⟩
  · rw [List.map_map]
    exact mapM_eq_pure each
  · rw [List.map_map, ← List.flatMap_def]
    exact accepted.flatMap_elementNumbers _ block

/-- Whatever run of setters all processes of a run perform alike, if words hold the
numbers of all elements, each process answers with rising numbers, one for each of its
elements; the numbers of each block on the processes, in order, are the consecutive ones
after those of the blocks before it; and all processes together have the numbers from one
to the number of elements, each once. -/
theorem element_numbers_partition [Scalar R] [Trigonometry R] {numX numY numZ : Nat}
    {settings : List (Setting R)} {layout : Layout} {mesh : Mesh R}
    (built : build numX numY numZ settings layout = .ok mesh)
    (fits : mesh.elementCount + 1 < Word.limit) :
    ∃ ranks, (Layout.all layout.count).mapM (build numX numY numZ settings) = .ok ranks ∧
      mesh ∈ ranks ∧
      (∀ own ∈ ranks, ∃ numbers, own.elementMap? = some numbers ∧ numbers.Pairwise (· < ·) ∧
        own.ownElementCount? = some numbers.length) ∧
      (∀ number, 1 ≤ number → number ≤ mesh.blockCount →
        ∃ (block : Block) (maps : List (List Nat)), mesh.block number = .ok block ∧
        mesh.elementsOf? block = some (mesh.elementsOf block) ∧
        ranks.mapM (fun own => own.blockElementMap? number) = .ok (maps.map some) ∧
        maps.flatten =
          List.range' (1 + ((mesh.blocks.take (number - 1)).map mesh.elementsOf).sum)
            (mesh.elementsOf block)) ∧
      mesh.elementCount? = some mesh.elementCount ∧
      ∃ maps : List (List Nat), ranks.mapM elementMap? = some maps ∧
        maps.flatten.Perm (List.range' 1 mesh.elementCount) := by
  obtain ⟨split, rfl, accepted, elsewhere⟩ := exists_split_of_build built
  have less := Nat.lt_of_succ_lt fits
  have there {own : Mesh R}
      (listed : own ∈ (Layout.all mesh.layout.count).map (mesh.seenFrom split)) :
      own.Accepted split ∧ own.elementCount = mesh.elementCount := by
    obtain ⟨other, run, rfl⟩ := List.mem_map.mp listed
    exact ⟨accepted.seenFrom (count_of_mem_all run), rfl⟩
  have answers {own : Mesh R}
      (listed : own ∈ (Layout.all mesh.layout.count).map (mesh.seenFrom split)) :
      own.elementMap? = some own.elementMap :=
    (there listed).1.elementMap?_eq ((there listed).2.symm ▸ fits)
  refine ⟨_, mapM_build elsewhere, ?_, ?_, ?_, accepted.elementCount?_eq less, ?_⟩
  · exact List.mem_map.mpr ⟨mesh.layout, mesh.layout.mem_all, accepted.seenFrom_self⟩
  · intro own listed
    refine ⟨own.elementMap, answers listed, (there listed).1.pairwise_elementMapFrom _ 0, ?_⟩
    rw [elementMap, length_elementMapFrom, ← ownElementCount_eq_sum]
    exact (there listed).1.ownElementCount?_eq ((there listed).2.symm ▸ less)
  · intro number first last
    obtain ⟨block, found⟩ := exists_block first last
    obtain ⟨maps, read, joined⟩ := accepted.flatten_blockElementMap fits found
    have hexahedra := Nat.lt_of_le_of_lt mesh.hexahedra_le less
    refine ⟨block, maps, found, accepted.elementsOf?_eq hexahedra block, read, ?_⟩
    rw [joined, Nat.add_comm 1, elementsBefore_eq_sum]
  · refine ⟨_, mapM_eq_pure fun own listed => answers listed, ?_⟩
    rw [← List.flatMap_def]
    exact accepted.perm_elementMap

/-- Four layers split one, zero and three on three processes, with shells around:
the second process owns no hexahedron and no shell. -/
theorem element_numbers_partition_uneven :
    ∃ mesh : Mesh Float,
      build 2 1 4 [.split [1, 0, 3], .shells .minZ, .shells .maxX, .shells .maxZ]
        ⟨3, 2, by decide⟩ = .ok mesh ∧
      mesh.elementCount + 1 < Word.limit ∧
      mesh.elementMap? = some [3, 4, 5, 6, 7, 8, 12, 13, 14, 15, 16] ∧
      ∃ ranks : List (Mesh Float), (Layout.all 3).mapM (build 2 1 4
          [.split [1, 0, 3], .shells .minZ, .shells .maxX, .shells .maxZ]) = .ok ranks ∧
        ∃ maps : List (List Nat), ranks.mapM elementMap? = some maps ∧
          maps.flatten.Perm (List.range' 1 mesh.elementCount) := by
  have built : build 2 1 4 [.split [1, 0, 3], .shells .minZ, .shells .maxX, .shells .maxZ]
      ⟨3, 2, by decide⟩ = .ok ((unit 2 1 4 ⟨3, 2, by decide⟩ : Mesh Float).configure
        [.split [1, 0, 3], .shells .minZ, .shells .maxX, .shells .maxZ]) := rfl
  obtain ⟨ranks, all, -, -, -, -, numbers⟩ := element_numbers_partition built (by decide)
  exact ⟨_, built, by decide, by decide, ranks, all, numbers⟩

/-- Past words there is no partition. The process of a serial run does not answer with the
numbers of its elements, and neither does the first of two processes that has six elements
of its own, where the shells come after more hexahedra than there are words. -/
theorem elements_unnumbered_past_words :
    (∃ mesh : Mesh Float,
      build 4611686018427387904 6 1 [] .serial = .ok mesh ∧ mesh.elementMap? = none) ∧
    ∃ mesh : Mesh Float,
      build 2 2 2 [.split [1, 4611686018427387903], .shells .minX] ⟨2, 0, by decide⟩ =
        .ok mesh ∧
        mesh.ownElementCount? = some 6 ∧ mesh.elementMap? = none :=
  ⟨⟨_, rfl, by decide⟩, _, rfl, by decide, by decide⟩

end Mesh

end HexSlab
