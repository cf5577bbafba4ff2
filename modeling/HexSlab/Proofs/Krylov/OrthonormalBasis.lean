import HexSlab.Proofs.Krylov.InnerProduct
import HexSlab.Proofs.Krylov.Residual
import Mathlib.LinearAlgebra.FiniteDimensional.Lemmas

/-!
# Making a vector orthogonal to a basis

The coefficients that are taken away from a vector, with the remainder, give the
vector back. If the basis is orthonormal then the remainder is orthogonal to all
of it: what is taken away later does not bring back what was taken away before.
-/

namespace HexSlab

open Vec

/-- Lists that are equally long are so with one more element each. -/
theorem length_concat_congr {α β : Type} {xs : List α} {ys : List β}
    (same : xs.length = ys.length) (x : α) (y : β) : (xs ++ [x]).length = (ys ++ [y]).length := by
  rw [List.length_append, List.length_append, same, List.length_singleton, List.length_singleton]

variable {R : Type} [Field R] {n : Nat}

/-- The combination of vectors with coefficients, as far as there are both. -/
def combine : List R → List (Fin n → R) → Fin n → R
  | coefficient :: coefficients, v :: rest => coefficient • v + combine coefficients rest
  | _, _ => 0

/-- Without coefficients the combination is zero. -/
@[simp] theorem combine_nil (vectors : List (Fin n → R)) : combine [] vectors = 0 := rfl

/-- Without vectors the combination is zero. -/
@[simp] theorem combine_nil_right (coefficients : List R) :
    combine coefficients ([] : List (Fin n → R)) = 0 := by
  cases coefficients with
  | nil => rfl
  | cons coefficient coefficients => rfl

/-- The combination of a first vector and the others. -/
@[simp] theorem combine_cons (coefficient : R) (coefficients : List R) (v : Fin n → R)
    (rest : List (Fin n → R)) :
    combine (coefficient :: coefficients) (v :: rest) =
      coefficient • v + combine coefficients rest := rfl

/-- The combination of a last vector and the others. -/
theorem combine_concat (coefficients : List R) (vectors : List (Fin n → R)) (coefficient : R)
    (v : Fin n → R) (same : coefficients.length = vectors.length) :
    combine (coefficients ++ [coefficient]) (vectors ++ [v]) =
      combine coefficients vectors + coefficient • v := by
  induction coefficients generalizing vectors with
  | nil =>
    have none : vectors = [] := List.eq_nil_of_length_eq_zero same.symm
    rw [none, List.nil_append, List.nil_append, combine_cons, combine_nil, zero_add, add_zero]
  | cons first coefficients ih =>
    cases vectors with
    | nil => cases same
    | cons w rest =>
      have shorter : coefficients.length = rest.length := Nat.succ.inj same
      rw [List.cons_append, List.cons_append, combine_cons, combine_cons, ih rest shorter,
        add_assoc]

/-- Vectors without a coefficient play no part. -/
theorem combine_append_right (coefficients : List R) (vectors more : List (Fin n → R))
    (enough : coefficients.length ≤ vectors.length) :
    combine coefficients (vectors ++ more) = combine coefficients vectors := by
  induction coefficients generalizing vectors with
  | nil => rw [combine_nil, combine_nil]
  | cons first coefficients ih =>
    cases vectors with
    | nil => cases enough
    | cons v rest =>
      have fewer : coefficients.length ≤ rest.length := Nat.le_of_succ_le_succ enough
      rw [List.cons_append, combine_cons, combine_cons, ih rest fewer]

/-- A linear map takes a combination to that of the images. -/
theorem map_combine (action : (Fin n → R) →ₗ[R] (Fin n → R)) (coefficients : List R)
    (vectors : List (Fin n → R)) :
    action (combine coefficients vectors) = combine coefficients (vectors.map action) := by
  induction vectors generalizing coefficients with
  | nil => rw [combine_nil_right, map_zero, List.map_nil, combine_nil_right]
  | cons v rest ih =>
    cases coefficients with
    | nil => rw [combine_nil, map_zero, combine_nil]
    | cons first coefficients =>
      rw [combine_cons, map_add, map_smul, ih, List.map_cons, combine_cons]

/-- The combination as a sum over the places, with zero where there is no
coefficient. -/
theorem combine_eq_sum (coefficients : List R) (vectors : List (Fin n → R)) :
    combine coefficients vectors =
      ∑ i ∈ Finset.range vectors.length, coefficients.getD i 0 • vectors.getD i 0 := by
  induction vectors generalizing coefficients with
  | nil => rw [combine_nil_right, List.length_nil, Finset.range_zero, Finset.sum_empty]
  | cons v rest ih =>
    rw [List.length_cons, Finset.sum_range_succ', List.getD_cons_zero]
    cases coefficients with
    | nil =>
      have none (i : Nat) : ([] : List R).getD i 0 = 0 := List.getD_nil
      simp only [none, zero_smul, Finset.sum_const_zero, combine_nil, add_zero]
    | cons first coefficients =>
      simp only [List.getD_cons_succ, List.getD_cons_zero]
      rw [combine_cons, ih, add_comm]

/-- A vector that is orthogonal to others is orthogonal to their combinations. -/
theorem dotProduct_combine_eq_zero (w : Fin n → R) (coefficients : List R)
    (vectors : List (Fin n → R)) (orthogonal : ∀ v ∈ vectors, w ⬝ᵥ v = 0) :
    w ⬝ᵥ combine coefficients vectors = 0 := by
  induction vectors generalizing coefficients with
  | nil => rw [combine_nil_right, dotProduct_zero]
  | cons v rest ih =>
    cases coefficients with
    | nil => rw [combine_nil, dotProduct_zero]
    | cons first coefficients =>
      have here : w ⬝ᵥ v = 0 := orthogonal v List.mem_cons_self
      have later := ih coefficients fun u inside => orthogonal u (List.mem_cons_of_mem v inside)
      rw [combine_cons, dotProduct_add, dotProduct_smul, here, later, smul_zero, add_zero]

/-- Vectors have unit length and are orthogonal to each other. -/
structure IsOrthonormal (vectors : List (Fin n → R)) : Prop where
  /-- Each has unit length. -/
  unit : ∀ v ∈ vectors, v ⬝ᵥ v = 1
  /-- Each is orthogonal to the later ones. -/
  orthogonal : vectors.Pairwise fun v w => v ⬝ᵥ w = 0

/-- One vector of unit length is orthonormal. -/
theorem isOrthonormal_singleton {v : Fin n → R} (unit : v ⬝ᵥ v = 1) : IsOrthonormal [v] where
  unit := by
    intro w inside
    rw [List.mem_singleton.mp inside]
    exact unit
  orthogonal := List.pairwise_singleton _ v

/-- A further vector of unit length, orthogonal to all. -/
theorem IsOrthonormal.concat {vectors : List (Fin n → R)} (given : IsOrthonormal vectors)
    {v : Fin n → R} (unit : v ⬝ᵥ v = 1) (orthogonal : ∀ w ∈ vectors, v ⬝ᵥ w = 0) :
    IsOrthonormal (vectors ++ [v]) where
  unit := by
    intro w inside
    rcases List.mem_append.mp inside with old | new
    · exact given.unit w old
    · rw [List.mem_singleton.mp new]
      exact unit
  orthogonal := by
    rw [List.pairwise_append]
    refine ⟨given.orthogonal, List.pairwise_singleton _ v, ?_⟩
    intro w old u new
    rw [List.mem_singleton.mp new, dotProduct_comm]
    exact orthogonal w old

/-- No vector is a combination of others that are orthonormal with it. -/
theorem IsOrthonormal.ne_combine {vectors : List (Fin n → R)} {v : Fin n → R}
    (given : IsOrthonormal (vectors ++ [v])) (coefficients : List R) :
    v ≠ combine coefficients vectors := by
  intro same
  have apart : ∀ w ∈ vectors, v ⬝ᵥ w = 0 := by
    intro w inside
    rw [dotProduct_comm]
    exact (List.pairwise_append.mp given.orthogonal).2.2 w inside v List.mem_cons_self
  have unit : v ⬝ᵥ v = 1 := given.unit v (List.mem_append_right _ List.mem_cons_self)
  have none : v ⬝ᵥ v = 0 := by
    nth_rewrite 2 [same]
    exact dotProduct_combine_eq_zero v coefficients vectors apart
  exact one_ne_zero (unit.symm.trans none)

/-- The inner products of orthonormal vectors. -/
theorem IsOrthonormal.dotProduct_get {vectors : List (Fin n → R)} (given : IsOrthonormal vectors)
    (i j : Fin vectors.length) : vectors.get i ⬝ᵥ vectors.get j = if i = j then 1 else 0 := by
  rcases lt_trichotomy i j with before | same | after
  · rw [if_neg before.ne]
    exact List.pairwise_iff_get.mp given.orthogonal i j before
  · rw [if_pos same, same]
    exact given.unit _ (List.get_mem vectors j)
  · rw [if_neg after.ne', dotProduct_comm]
    exact List.pairwise_iff_get.mp given.orthogonal j i after

/-- There are no more orthonormal vectors than places. -/
theorem IsOrthonormal.length_le {vectors : List (Fin n → R)} (given : IsOrthonormal vectors) :
    vectors.length ≤ n := by
  have independent : LinearIndependent R vectors.get := by
    rw [Fintype.linearIndependent_iff]
    intro c vanishes i
    have along : vectors.get i ⬝ᵥ ∑ j, c j • vectors.get j = c i := by
      simp only [dotProduct_sum, dotProduct_smul, given.dotProduct_get, smul_eq_mul, mul_ite,
        mul_one, mul_zero, Finset.sum_ite_eq, Finset.mem_univ, if_true]
    rw [← along, vanishes, dotProduct_zero]
  have bound := independent.fintype_card_le_finrank
  rw [Fintype.card_fin, Module.finrank_fin_fun] at bound
  exact bound

namespace MinimalResiduals

variable {σ : Type} [LinearOrder R] [Roots R] {system : LinearSystem σ R n}

/-- A coefficient is taken away for each vector. -/
theorem length_orthogonalize (system : LinearSystem σ R n) (basis : List (Vector R n))
    (w : Vector R n) : (orthogonalize system basis w).1.length = basis.length := by
  induction basis generalizing w with
  | nil => rfl
  | cons v rest ih =>
    rw [orthogonalize, List.length_cons, List.length_cons, ih]

/-- What is taken away and the remainder give the vector back. -/
theorem orthogonalize_eq (system : LinearSystem σ R n) (basis : List (Vector R n))
    (w : Vector R n) :
    entries w = combine (orthogonalize system basis w).1 (basis.map entries) +
      entries (orthogonalize system basis w).2 := by
  induction basis generalizing w with
  | nil => rw [orthogonalize, combine_nil, zero_add]
  | cons v rest ih =>
    have later := ih (axpy (-system.dot w v) v 1 w)
    rw [entries_axpy, one_smul, neg_smul, neg_add_eq_sub, sub_eq_iff_eq_add'] at later
    rw [orthogonalize, List.map_cons, combine_cons, add_assoc]
    exact later

/-- What a vector has not got along another is not brought back by a basis that
is orthogonal to the other. -/
theorem orthogonalize_stays (system : LinearSystem σ R n) (basis : List (Vector R n))
    (w : Vector R n) {v : Fin n → R} (apart : ∀ u ∈ basis.map entries, v ⬝ᵥ u = 0)
    (gone : entries w ⬝ᵥ v = 0) : entries (orthogonalize system basis w).2 ⬝ᵥ v = 0 := by
  have parts := orthogonalize_eq system basis w
  have taken : v ⬝ᵥ combine (orthogonalize system basis w).1 (basis.map entries) = 0 :=
    dotProduct_combine_eq_zero v _ _ apart
  rw [parts, add_dotProduct, dotProduct_comm, taken, zero_add] at gone
  exact gone

/-- The remainder is orthogonal to an orthonormal basis. -/
theorem orthogonalize_orthogonal (alone : system.op.comm = .serial) (basis : List (Vector R n))
    (w : Vector R n) (orthonormal : IsOrthonormal (basis.map entries)) :
    ∀ v ∈ basis.map entries, entries (orthogonalize system basis w).2 ⬝ᵥ v = 0 := by
  induction basis generalizing w with
  | nil =>
    intro v inside
    cases inside
  | cons v rest ih =>
    rw [List.map_cons] at orthonormal
    obtain ⟨first, others⟩ := List.pairwise_cons.mp orthonormal.orthogonal
    have unit : entries v ⬝ᵥ entries v = 1 := orthonormal.unit _ List.mem_cons_self
    have restUnit : ∀ u ∈ rest.map entries, u ⬝ᵥ u = 1 := fun u inside =>
      orthonormal.unit u (List.mem_cons_of_mem _ inside)
    have gone : entries (axpy (-system.dot w v) v 1 w) ⬝ᵥ entries v = 0 := by
      rw [entries_axpy, one_smul, LinearSystem.dot, alone, dot_serial, add_dotProduct,
        smul_dotProduct, unit, smul_eq_mul, mul_one, neg_add_cancel]
    intro u inside
    rw [orthogonalize]
    -- the first vector is dealt with before the others, and they are orthogonal to it
    rcases List.mem_cons.mp inside with here | there
    · rw [here]
      exact orthogonalize_stays system rest _ first gone
    · exact ih _ ⟨restUnit, others⟩ u there

end MinimalResiduals

end HexSlab
