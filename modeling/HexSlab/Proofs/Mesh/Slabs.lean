import HexSlab.Mesh.Numbering
import HexSlab.Proofs.Mesh.Configuration
import Mathlib.Order.Monotone.Basic

/-!
# Slabs as cuts of the whole mesh

A split cuts the intervals along Z at one boundary for each rank. The boundaries
rise from zero to the number of all intervals, and the slab of a process lies
between its boundary and the next one. The elements of a block are cut in the
same way, the faces across Z included, so what a process owns is always the
stretch between two neighbouring cuts.
-/

namespace HexSlab

/-- The sum of a row that is one longer at its front part. -/
theorem sum_take_succ (row : List Nat) (count : Nat) :
    (row.take (count + 1)).sum = (row.take count).sum + row.getD count 0 := by
  have one : row[count]?.toList.sum = row.getD count 0 := by
    rw [List.getD_eq_getElem?_getD]
    cases row[count]? with
    | none => rfl
    | some value => exact Nat.add_zero value
  rw [List.take_add_one, List.sum_append, one]

namespace ZSplit

/-- Where the slab of a rank begins in a run of some processes. -/
def boundary (split : ZSplit) (processes rank : Nat) : Nat :=
  match split with
  | .even intervals => rank * (intervals / processes) + min rank (intervals % processes)
  | .listed counts => (counts.take rank).sum

/-- A slab begins at the boundary of its rank. -/
theorem start_slab (split : ZSplit) (layout : Layout) :
    (split.slab layout).start = split.boundary layout.count layout.rank := by
  cases split <;> rfl

/-- A slab ends at the boundary of the next rank. -/
theorem start_add_count_slab (split : ZSplit) (layout : Layout) :
    (split.slab layout).start + (split.slab layout).count =
      split.boundary layout.count (layout.rank + 1) := by
  cases split with
  | even intervals =>
    have share : (layout.rank + 1) * (intervals / layout.count) =
        layout.rank * (intervals / layout.count) + intervals / layout.count := Nat.succ_mul _ _
    simp only [slab, Slab.even, boundary]
    split <;> omega
  | listed counts => exact (sum_take_succ counts layout.rank).symm

/-- The first slab begins at zero. -/
theorem boundary_zero (split : ZSplit) (processes : Nat) : split.boundary processes 0 = 0 := by
  cases split with
  | even intervals => simp only [boundary, Nat.zero_mul, Nat.zero_min]
  | listed counts => rfl

/-- The boundaries rise with the rank. -/
theorem boundary_le_succ (split : ZSplit) (processes rank : Nat) :
    split.boundary processes rank ≤ split.boundary processes (rank + 1) := by
  cases split with
  | even intervals =>
    simp only [boundary]
    generalize intervals / processes = share
    have next : (rank + 1) * share = rank * share + share := Nat.succ_mul rank share
    omega
  | listed counts =>
    have next := sum_take_succ counts rank
    simp only [boundary]
    omega

/-- The boundaries rise with the rank, from any rank to any later one. -/
theorem boundary_mono (split : ZSplit) (processes : Nat) : Monotone (split.boundary processes) :=
  monotone_nat_of_le_succ (split.boundary_le_succ processes)

/-- The last slab ends where the intervals end. -/
theorem boundary_processes {split : ZSplit} {processes : Nat} (some : 0 < processes)
    (fits : split.Fits processes) : split.boundary processes processes = split.total := by
  cases split with
  | even intervals =>
    have short : intervals % processes < processes := Nat.mod_lt intervals some
    have parts := Nat.div_add_mod intervals processes
    simp only [boundary, total]
    omega
  | listed counts =>
    have full : counts.take processes = counts := List.take_of_length_le fits.1.le
    simp only [boundary, total, full]

end ZSplit

namespace Mesh

variable {R : Type} {mesh : Mesh R} {split : ZSplit}

/-- The slab of this process begins at the boundary of its rank. -/
theorem Accepted.start_slab (accepted : mesh.Accepted split) :
    mesh.slab.start = split.boundary mesh.layout.count mesh.layout.rank := by
  rw [accepted.slab_eq]
  exact split.start_slab mesh.layout

/-- The slab of this process ends at the boundary of the next rank. -/
theorem Accepted.start_add_count_slab (accepted : mesh.Accepted split) :
    mesh.slab.start + mesh.slab.count =
      split.boundary mesh.layout.count (mesh.layout.rank + 1) := by
  rw [accepted.slab_eq]
  exact split.start_add_count_slab mesh.layout

/-- The last slab ends where the intervals end. -/
theorem Accepted.boundary_processes (accepted : mesh.Accepted split) :
    split.boundary mesh.layout.count mesh.layout.count = mesh.numZ := by
  rw [accepted.numZ_eq]
  exact ZSplit.boundary_processes (Nat.zero_lt_of_lt mesh.layout.rank_lt) accepted.fits

/-- A slab lies within the intervals. -/
theorem Accepted.slab_le (accepted : mesh.Accepted split) :
    mesh.slab.start + mesh.slab.count ≤ mesh.numZ := by
  rw [accepted.start_add_count_slab, ← accepted.boundary_processes]
  exact split.boundary_mono mesh.layout.count mesh.layout.rank_lt

/-- The slab of the first process begins at zero. -/
theorem Accepted.start_slab_of_isFirst (accepted : mesh.Accepted split)
    (first : mesh.layout.isFirst = true) : mesh.slab.start = 0 := by
  have zero : mesh.layout.rank = 0 := by simpa only [Layout.isFirst, beq_iff_eq] using first
  rw [accepted.start_slab, zero, ZSplit.boundary_zero]

/-- The slab of the last process ends where the intervals end. -/
theorem Accepted.slab_end_of_isLast (accepted : mesh.Accepted split)
    (last : mesh.layout.isLast = true) : mesh.slab.start + mesh.slab.count = mesh.numZ := by
  have next : mesh.layout.rank + 1 = mesh.layout.count := by
    simpa only [Layout.isLast, beq_iff_eq] using last
  rw [accepted.start_add_count_slab, next, accepted.boundary_processes]

/-- The only slab of a serial run holds all intervals. -/
theorem slab_serial (mesh : Mesh R) : mesh.serial.slab = ⟨0, mesh.numZ⟩ := rfl

/-- So does the one that an even split deals out to it. -/
theorem slab_even_serial (mesh : Mesh R) :
    mesh.serial.slab = (ZSplit.even mesh.numZ).slab mesh.serial.layout := by
  have whole : (ZSplit.even mesh.numZ).slab mesh.serial.layout =
      ⟨0 * (mesh.numZ / 1) + min 0 (mesh.numZ % 1),
        mesh.numZ / 1 + if 0 < mesh.numZ % 1 then 1 else 0⟩ := rfl
  rw [whole, slab_serial, Nat.mod_one, Nat.div_one]
  simp only [Nat.zero_mul, Nat.zero_min, Nat.lt_irrefl, if_false, Nat.add_zero]

/-- Elements of a block on the processes below a rank. -/
def elementsBelow (mesh : Mesh R) (split : ZSplit) (rank : Nat) : Block → Nat
  | .hexahedra => split.boundary mesh.layout.count rank * (mesh.numX * mesh.numY)
  | .shells .minX => split.boundary mesh.layout.count rank * mesh.numY
  | .shells .maxX => split.boundary mesh.layout.count rank * mesh.numY
  | .shells .minY => split.boundary mesh.layout.count rank * mesh.numX
  | .shells .maxY => split.boundary mesh.layout.count rank * mesh.numX
  | .shells .minZ => if rank = 0 then 0 else mesh.numX * mesh.numY
  | .shells .maxZ => if rank < mesh.layout.count then 0 else mesh.numX * mesh.numY

/-- No elements lie below the first process. -/
theorem elementsBelow_zero (mesh : Mesh R) (split : ZSplit) (block : Block) :
    mesh.elementsBelow split 0 block = 0 := by
  have inside : 0 < mesh.layout.count := Nat.zero_lt_of_lt mesh.layout.rank_lt
  cases block with
  | hexahedra => simp only [elementsBelow, ZSplit.boundary_zero, Nat.zero_mul]
  | shells face =>
    cases face <;> simp only [elementsBelow, ZSplit.boundary_zero, Nat.zero_mul, if_pos, inside]

/-- All elements of a block lie below the end of the run. -/
theorem Accepted.elementsBelow_processes (accepted : mesh.Accepted split)
    (block : Block) : mesh.elementsBelow split mesh.layout.count block = mesh.elementsOf block := by
  have inside : mesh.layout.count ≠ 0 := Nat.ne_zero_of_lt mesh.layout.rank_lt
  have total := accepted.boundary_processes
  cases block with
  | hexahedra => simp only [elementsBelow, elementsOf, total, Nat.mul_comm]
  | shells face =>
    cases face <;>
      simp only [elementsBelow, elementsOf, total, Nat.mul_comm, Nat.lt_irrefl, if_false, inside]

/-- More elements lie below a later process. -/
theorem elementsBelow_le_succ (mesh : Mesh R) (split : ZSplit) (rank : Nat) (block : Block) :
    mesh.elementsBelow split rank block ≤ mesh.elementsBelow split (rank + 1) block := by
  have rise := split.boundary_mono mesh.layout.count (Nat.le_succ rank)
  cases block with
  | hexahedra => exact Nat.mul_le_mul_right _ rise
  | shells face =>
    cases face with
    | minX | maxX | minY | maxY => exact Nat.mul_le_mul_right _ rise
    | minZ =>
      simp only [elementsBelow, Nat.add_one_ne_zero, if_false]
      split <;> omega
    | maxZ =>
      simp only [elementsBelow]
      split
      · exact Nat.zero_le _
      · rw [if_neg (by omega)]

/-- The elements of a block in the slab of this process are those between its cut
and the next one. -/
theorem Accepted.elementsBelow_succ_rank (accepted : mesh.Accepted split) (block : Block) :
    mesh.elementsBelow split (mesh.layout.rank + 1) block =
      mesh.elementsBelow split mesh.layout.rank block + mesh.ownElementsOf block := by
  have inside := mesh.layout.rank_lt
  have next := accepted.start_add_count_slab
  rw [accepted.start_slab] at next
  cases block with
  | hexahedra =>
    simp only [elementsBelow, ownElementsOf, ← next, Nat.add_mul, Nat.mul_comm mesh.slab.count]
  | shells face =>
    cases face with
    | minX | maxX | minY | maxY =>
      simp only [elementsBelow, ownElementsOf, ← next, Nat.add_mul, Nat.mul_comm mesh.slab.count]
    | minZ =>
      simp only [elementsBelow, ownElementsOf, Layout.isFirst, beq_iff_eq,
        Nat.add_one_ne_zero, if_false]
      split <;> omega
    | maxZ =>
      simp only [elementsBelow, ownElementsOf, Layout.isLast, beq_iff_eq, inside, if_true]
      split <;> split <;> omega

/-- The process below which a number of elements lie owns the elements from there
on. Where a process owns none, the cut of a face across Z may lie elsewhere. -/
theorem Accepted.lowerElementsOf_eq (accepted : mesh.Accepted split) (block : Block)
    (own : 0 < mesh.ownElementsOf block) :
    mesh.lowerElementsOf block = mesh.elementsBelow split mesh.layout.rank block := by
  have inside := mesh.layout.rank_lt
  cases block with
  | hexahedra => simp only [lowerElementsOf, elementsBelow, accepted.start_slab, Nat.mul_assoc]
  | shells face =>
    cases face with
    | minX | maxX | minY | maxY => simp only [lowerElementsOf, elementsBelow, accepted.start_slab]
    | minZ =>
      have first : mesh.layout.rank = 0 := by
        simp only [ownElementsOf, Layout.isFirst, beq_iff_eq] at own
        split at own
        · assumption
        · exact absurd own (Nat.lt_irrefl 0)
      simp only [lowerElementsOf, elementsBelow, first, if_true]
    | maxZ => simp only [lowerElementsOf, elementsBelow, inside, if_true]

/-- The numbers of a block's elements on this process begin at its cut. -/
theorem Accepted.elementNumbers_eq (accepted : mesh.Accepted split) (preceding : Nat)
    (block : Block) :
    mesh.elementNumbers preceding block =
      List.range' (preceding + 1 + mesh.elementsBelow split mesh.layout.rank block)
        (mesh.ownElementsOf block) := by
  unfold elementNumbers
  by_cases own : 0 < mesh.ownElementsOf block
  · rw [accepted.lowerElementsOf_eq block own, Nat.add_right_comm]
  · have none : mesh.ownElementsOf block = 0 := Nat.eq_zero_of_not_pos own
    rw [none, List.range'_zero, List.range'_zero]

/-- The elements below this process and its own are among all elements. -/
theorem Accepted.elementsBelow_add_own_le (accepted : mesh.Accepted split)
    (block : Block) :
    mesh.elementsBelow split mesh.layout.rank block + mesh.ownElementsOf block ≤
      mesh.elementsOf block := by
  rw [← accepted.elementsBelow_succ_rank, ← accepted.elementsBelow_processes]
  exact monotone_nat_of_le_succ (fun rank => mesh.elementsBelow_le_succ split rank block)
    mesh.layout.rank_lt

/-- The serial mesh of an accepted one is accepted. -/
theorem Accepted.serial (accepted : mesh.Accepted split) :
    mesh.serial.Accepted (.even mesh.numZ) :=
  ⟨accepted.numX_pos, accepted.numY_pos, accepted.numZ_pos, rfl, slab_even_serial mesh⟩

/-- The process of a serial run owns all elements. -/
theorem Accepted.ownElementsOf_serial (accepted : mesh.Accepted split) (block : Block) :
    mesh.serial.ownElementsOf block = mesh.elementsOf block := by
  have above : mesh.serial.elementsBelow (.even mesh.numZ) 1 block =
      mesh.serial.elementsBelow (.even mesh.numZ) 0 block + mesh.serial.ownElementsOf block :=
    accepted.serial.elementsBelow_succ_rank block
  have total : mesh.serial.elementsBelow (.even mesh.numZ) 1 block = mesh.elementsOf block :=
    accepted.serial.elementsBelow_processes block
  rw [elementsBelow_zero, Nat.zero_add] at above
  exact above.symm.trans total

/-- The numbers of a block's elements in a serial run. -/
theorem Accepted.elementNumbers_serial (accepted : mesh.Accepted split)
    (preceding : Nat) (block : Block) :
    mesh.serial.elementNumbers preceding block =
      List.range' (preceding + 1) (mesh.elementsOf block) := by
  have below : mesh.serial.elementsBelow (.even mesh.numZ) mesh.serial.layout.rank block = 0 :=
    mesh.serial.elementsBelow_zero _ block
  rw [accepted.serial.elementNumbers_eq, below, accepted.ownElementsOf_serial, Nat.add_zero]

/-- The blocks are numbered from one. -/
theorem block_eq_ok_iff {mesh : Mesh R} {number : Nat} {block : Block} :
    mesh.block number = .ok block ↔ 1 ≤ number ∧ mesh.blocks[number - 1]? = some block := by
  unfold Mesh.block
  cases number with
  | zero =>
    constructor
    · intro found
      cases found
    · rintro ⟨first, -⟩
      exact absurd first (Nat.not_succ_le_zero 0)
  | succ index =>
    simp only [Nat.add_sub_cancel, Nat.le_add_left, true_and]
    cases mesh.blocks[index]? with
    | none => simp only [reduceCtorEq]
    | some found => simp only [Except.ok.injEq, Option.some.injEq]

/-- There is a block for each number up to their count. -/
theorem exists_block {mesh : Mesh R} {number : Nat} (first : 1 ≤ number)
    (last : number ≤ mesh.blockCount) : ∃ block, mesh.block number = .ok block := by
  have inside : number - 1 < mesh.blocks.length := by
    unfold blockCount at last
    omega
  exact ⟨mesh.blocks[number - 1], block_eq_ok_iff.mpr ⟨first, List.getElem?_eq_getElem inside⟩⟩

end Mesh

end HexSlab
