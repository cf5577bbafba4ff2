import HexSlab.Proofs.Krylov.InnerProduct
import HexSlab.Smoother.Error
import Mathlib.LinearAlgebra.Matrix.ToLin
import Mathlib.LinearAlgebra.SesquilinearForm.Basic

/-!
# Preconditioners that are symmetric linear maps

Conjugate gradients ask of a preconditioner that it is a symmetric linear map.
An application that always succeeds with the image under one linear map, and
keeps nothing of the vector that it overwrites, is one of these if the map is
its own adjoint for the sum of products of entries. How inner products are
reduced over the processes of a run makes no difference then.
-/

namespace HexSlab

namespace Vec

section Adjoints

variable {R : Type} [Field R] {n : Nat}

/-- The sum of products as a bilinear form, for which maps have adjoints. -/
def pairing : LinearMap.BilinForm R (Fin n → R) := dotProductBilin R R

/-- A map that is its own adjoint may be moved from one side of a sum of products
to the other. -/
theorem isSelfAdjoint_iff (map : Module.End R (Fin n → R)) :
    pairing.IsSelfAdjoint map ↔ ∀ u v, map u ⬝ᵥ v = u ⬝ᵥ map v := Iff.rfl

/-- Multiplying entry by entry is its own adjoint. -/
theorem isSelfAdjoint_diagonal (d : Fin n → R) : pairing.IsSelfAdjoint (diagonal d) :=
  (isSelfAdjoint_iff _).mpr (diagonal_dotProduct d)

/-- The image of a vector under a linear map. -/
def image (map : (Fin n → R) →ₗ[R] (Fin n → R)) (x : Vector R n) : Vector R n :=
  Vector.ofFn (map (entries x))

/-- The entries of an image. -/
theorem entries_image (map : (Fin n → R) →ₗ[R] (Fin n → R)) (x : Vector R n) :
    entries (image map x) = map (entries x) := entries_ofFn _

/-- A vector is an image if its entries are. -/
theorem eq_image_iff (map : (Fin n → R) →ₗ[R] (Fin n → R)) (x solved : Vector R n) :
    solved = image map x ↔ entries solved = map (entries x) := by
  rw [← entries_inj, entries_image]

end Adjoints

end Vec

open Vec

variable {σ R S : Type} [Field R] [LinearOrder R] [Roots R] {n : Nat}

/-- The inner product of a run is the sum of products of entries, reduced over
the processes. -/
theorem Communicator.dot_eq (comm : Communicator R) (x y : Vector R n) :
    comm.dot x y = comm.sumAll (entries x ⬝ᵥ entries y) :=
  congrArg comm.sumAll (dot_eq_sum x y)

/-- The applications of a preconditioner are those of a symmetric linear map. -/
structure SymmetricApplication (comm : Communicator R)
    (apply : Array R → Array R → Attempt σ (PreconditionerError R × Array R) (Array R × S))
    (counted : S) (map : (Fin n → R) →ₗ[R] (Fin n → R)) : Prop where
  /-- From every state an application succeeds with the image of the right-hand
  side, whatever it overwrites, and the preconditioner has counted it. -/
  applies : ∀ x y : Vector R n, (apply x.toArray y.toArray).Attains fun result =>
    result = ((image map x).toArray, counted)
  /-- The map may be moved from one side of an inner product to the other. -/
  symmetric : ∀ u v : Vector R n, comm.dot (image map u) v = comm.dot u (image map v)

/-- Applications with the image under a map that is its own adjoint are those of
a symmetric map. -/
theorem symmetricApplication_of_isSelfAdjoint (comm : Communicator R)
    {apply : Array R → Array R → Attempt σ (PreconditionerError R × Array R) (Array R × S)}
    {counted : S} {map : (Fin n → R) →ₗ[R] (Fin n → R)} (adjoint : pairing.IsSelfAdjoint map)
    (applies : ∀ x y : Vector R n, (apply x.toArray y.toArray).Attains fun result =>
      ∃ value : Vector R n × S, result = (value.1.toArray, value.2) ∧
        value.2 = counted ∧ entries value.1 = map (entries x)) :
    SymmetricApplication comm apply counted map where
  applies := by
    intro x y
    refine (applies x y).mono ?_
    rintro result ⟨⟨solved, after⟩, rfl, rfl, same⟩
    rw [(eq_image_iff map x solved).mpr same]
  symmetric := by
    intro u v
    rw [comm.dot_eq, comm.dot_eq, entries_image, entries_image,
      (isSelfAdjoint_iff map).mp adjoint]

end HexSlab
