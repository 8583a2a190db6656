import Mathlib.LinearAlgebra.Matrix.NonsingularInverse
import Mathlib.Tactic

/-!
# Inverting a matrix in place

Gauss-Jordan elimination needs no second matrix: when a column has been cleared, its place can hold
the column of the inverse that comes into being. What is then stored is neither the matrix nor its
inverse. It solves the equations `y = A x` for the unknowns of the pivots that are done, given the
right sides of their rows and the unknowns that are left.

## Main definitions

- `PartialInverse` — a matrix in the course of its inversion
- `pivot` — one step

## Main results

- `PartialInverse.pivot`, `PartialInverse.swapRows` — what a step and a row exchange do
- `PartialInverse.inverse` — with every pivot done, the inverse is there up to its columns
- `PartialInverse.singular` — without a pivot the matrix is singular
-/

namespace Inversion

open Matrix

variable {ι F : Type*} [Fintype ι] [DecidableEq ι] [Field F]
variable {A M : Matrix ι ι F} {done : Finset ι} {rows : Equiv.Perm ι} {i j p : ι}

/-- `M` solves `y = A x` for the unknowns in `done`; row `i` of `A` has moved from `rows i`. -/
def PartialInverse (A M : Matrix ι ι F) (done : Finset ι) (rows : Equiv.Perm ι) : Prop :=
  ∀ x : ι → F,
    M *ᵥ (fun j => if j ∈ done then (A *ᵥ x) (rows j) else -x j) =
      fun i => if i ∈ done then x i else -(A *ᵥ x) (rows i)

/-- One step: row `p` is divided by the pivot, its multiples are subtracted from the other rows,
and column `p` takes the column of the inverse. -/
def pivot (M : Matrix ι ι F) (p : ι) : Matrix ι ι F := Matrix.of fun i j =>
  if i = p then
    if j = p then (M p p)⁻¹ else (M p p)⁻¹ * M p j
  else
    if j = p then -(M i p * (M p p)⁻¹) else M i j - M i p * ((M p p)⁻¹ * M p j)

/-- A product with entry `p` of the vector set apart. -/
theorem mulVec_eq_add_erase (M : Matrix ι ι F) (u : ι → F) (p i : ι) :
    (M *ᵥ u) i = M i p * u p + ∑ j ∈ Finset.univ.erase p, M i j * u j :=
  (Finset.add_sum_erase _ (fun j => M i j * u j) (Finset.mem_univ p)).symm

/-- A step exchanges entry `p` of the vector with entry `p` of the product. -/
theorem pivot_mulVec (h : M p p ≠ 0) (u : ι → F) :
    pivot M p *ᵥ Function.update u p (-(M *ᵥ u) p) = Function.update (M *ᵥ u) p (-u p) := by
  have hp := mulVec_eq_add_erase M u p p
  -- away from `p` the new row is the old one less a multiple of row `p`
  have hrest : ∀ i, ∑ j ∈ Finset.univ.erase p,
      (M i j - M i p * ((M p p)⁻¹ * M p j)) * u j =
        ∑ j ∈ Finset.univ.erase p, M i j * u j -
          M i p * ((M p p)⁻¹ * ∑ j ∈ Finset.univ.erase p, M p j * u j) := by
    intro i
    rw [Finset.mul_sum, Finset.mul_sum, ← Finset.sum_sub_distrib]
    refine Finset.sum_congr rfl fun j _ => ?_
    ring
  funext i
  rw [mulVec_eq_add_erase _ _ p i, Function.update_self]
  by_cases hi : i = p
  · subst hi
    have hrow : ∑ j ∈ Finset.univ.erase i,
        pivot M i i j * Function.update u i (-(M *ᵥ u) i) j =
          (M i i)⁻¹ * ∑ j ∈ Finset.univ.erase i, M i j * u j := by
      rw [Finset.mul_sum]
      refine Finset.sum_congr rfl fun j hj => ?_
      rw [Function.update_of_ne (Finset.ne_of_mem_erase hj), pivot, Matrix.of_apply, if_pos rfl,
        if_neg (Finset.ne_of_mem_erase hj), mul_assoc]
    rw [hrow, Function.update_self, hp, pivot, Matrix.of_apply, if_pos rfl, if_pos rfl]
    field_simp
    ring
  · have hrow : ∑ j ∈ Finset.univ.erase p,
        pivot M p i j * Function.update u p (-(M *ᵥ u) p) j =
          ∑ j ∈ Finset.univ.erase p, (M i j - M i p * ((M p p)⁻¹ * M p j)) * u j := by
      refine Finset.sum_congr rfl fun j hj => ?_
      rw [Function.update_of_ne (Finset.ne_of_mem_erase hj), pivot, Matrix.of_apply, if_neg hi,
        if_neg (Finset.ne_of_mem_erase hj)]
    rw [hrow, hrest, Function.update_of_ne hi, hp, pivot, Matrix.of_apply, if_neg hi, if_pos rfl,
      mulVec_eq_add_erase M u p i]
    field_simp
    ring

namespace PartialInverse

/-- Before the first step. -/
theorem start (A : Matrix ι ι F) : PartialInverse A A ∅ 1 := by
  intro x
  simp only [Finset.notMem_empty, if_false, Equiv.Perm.one_apply]
  funext i
  exact congrFun (Matrix.mulVec_neg x A) i

/-- Rows that have not been pivots may be exchanged. -/
theorem swapRows (h : PartialInverse A M done rows) (hi : i ∉ done) (hj : j ∉ done) :
    PartialInverse A (M.submatrix (Equiv.swap i j) id) done (rows * Equiv.swap i j) := by
  have hmem : ∀ r, Equiv.swap i j r ∈ done ↔ r ∈ done := by
    intro r
    by_cases hri : r = i
    · rw [hri, Equiv.swap_apply_left]
      exact iff_of_false hj hi
    · by_cases hrj : r = j
      · rw [hrj, Equiv.swap_apply_right]
        exact iff_of_false hi hj
      · rw [Equiv.swap_apply_of_ne_of_ne hri hrj]
  have hfix : ∀ r, r ∈ done → Equiv.swap i j r = r := fun r hr =>
    Equiv.swap_apply_of_ne_of_ne (fun h => hi (h ▸ hr)) (fun h => hj (h ▸ hr))
  intro x
  have hvec : (fun r => if r ∈ done then (A *ᵥ x) ((rows * Equiv.swap i j) r) else -x r) =
      fun r => if r ∈ done then (A *ᵥ x) (rows r) else -x r := by
    funext r
    by_cases hr : r ∈ done
    · rw [if_pos hr, if_pos hr, Equiv.Perm.mul_apply, hfix r hr]
    · rw [if_neg hr, if_neg hr]
  rw [hvec]
  funext r
  have hrow := congrFun (h x) (Equiv.swap i j r)
  simp only [hmem] at hrow
  refine hrow.trans ?_
  by_cases hr : r ∈ done
  · rw [if_pos hr, if_pos hr, hfix r hr]
  · rw [if_neg hr, if_neg hr, Equiv.Perm.mul_apply]

/-- A step adds its pivot. -/
theorem pivot (h : PartialInverse A M done rows) (hp : p ∉ done) (hne : M p p ≠ 0) :
    PartialInverse A (Inversion.pivot M p) (insert p done) rows := by
  intro x
  have hstep := pivot_mulVec hne fun j => if j ∈ done then (A *ᵥ x) (rows j) else -x j
  rw [h x] at hstep
  simp only [if_neg hp, neg_neg] at hstep
  have hupdate : ∀ a b : ι → F, Function.update (fun j => if j ∈ done then a j else b j) p (a p) =
      fun j => if j ∈ insert p done then a j else b j := by
    intro a b
    funext j
    by_cases hj : j = p
    · rw [hj, Function.update_self, if_pos (Finset.mem_insert_self p done)]
    · rw [Function.update_of_ne hj]
      exact if_congr (by rw [Finset.mem_insert, or_iff_right hj]) rfl rfl
  have hleft := hupdate (fun j => (A *ᵥ x) (rows j)) (fun j => -x j)
  have hright := hupdate (fun j => x j) (fun j => -(A *ᵥ x) (rows j))
  rwa [hleft, hright] at hstep

/-- With every pivot done, the columns need only be put back. -/
theorem inverse (h : PartialInverse A M Finset.univ rows) :
    M.submatrix id rows.symm * A = 1 := by
  apply Matrix.ext_of_mulVec_single
  intro k
  have hk := h (Pi.single k 1)
  simp only [Finset.mem_univ, if_true] at hk
  rw [← Matrix.mulVec_mulVec, Matrix.one_mulVec]
  refine Eq.trans ?_ hk
  funext i
  have hsum := Equiv.sum_comp rows fun j => M i (rows.symm j) * (A *ᵥ Pi.single k 1) j
  simp only [Equiv.symm_apply_apply] at hsum
  exact hsum.symm

/-- Rows without a pivot: a right side that is one there has no solution. -/
theorem singular (h : PartialInverse A M done rows) (hi : i ∉ done)
    (hstuck : ∀ j, j ∉ done → M i j = 0) : A.det = 0 := by
  by_contra hdet
  have hunit : IsUnit A.det := isUnit_iff_ne_zero.mpr hdet
  have hsolve : A *ᵥ (A⁻¹ *ᵥ Pi.single (rows i) 1) = Pi.single (rows i) 1 := by
    rw [Matrix.mulVec_mulVec, Matrix.mul_nonsing_inv _ hunit, Matrix.one_mulVec]
  have hrow := congrFun (h (A⁻¹ *ᵥ Pi.single (rows i) 1)) i
  rw [hsolve] at hrow
  simp only [if_neg hi, Pi.single_eq_same] at hrow
  have hzero : (M *ᵥ fun j => if j ∈ done then (Pi.single (rows i) (1 : F) : ι → F) (rows j)
      else -(A⁻¹ *ᵥ Pi.single (rows i) 1) j) i = 0 := by
    refine Finset.sum_eq_zero fun j _ => ?_
    by_cases hj : j ∈ done
    · have hne : rows j ≠ rows i := fun heq => hi (rows.injective heq ▸ hj)
      simp only [if_pos hj, Pi.single_eq_of_ne hne, mul_zero]
    · simp only [hstuck j hj, zero_mul]
  rw [hzero] at hrow
  exact one_ne_zero (neg_eq_zero.mp hrow.symm)

end PartialInverse

end Inversion
