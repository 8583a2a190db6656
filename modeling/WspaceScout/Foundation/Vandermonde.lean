import Mathlib.Algebra.BigOperators.Fin
import Mathlib.LinearAlgebra.Vandermonde
import Mathlib.Tactic

/-!
# Inverting a Vandermonde matrix by synthetic division

Column `r` of the inverse of a Vandermonde matrix holds the coefficients of the polynomial that is
one at point `r` and zero at the others. It is found by dividing the product of all `x - p i` by
`x - p r`, where Horner's rule gives the quotient and its value at `p r` at once.

## Main definitions

- `tailEval` — the value of a monic polynomial with coefficients at the end of an array

## Main results

- `syntheticDivision` — the quotient by a linear factor
- `tailEval_step` — one more factor, multiplied in place
- `vandermonde_inverse_iff` — when scaled quotients are the columns of the inverse
-/

namespace Inversion

open Matrix

variable {F : Type*} [Field F]

/-- Horner's rule divides by `y - z`: the quotient has the coefficients `b`. -/
theorem syntheticDivision {a b : ℕ → F} {k : ℕ} {z : F}
    (hstep : ∀ i, i < k → b i = a (i + 1) + z * b (i + 1)) (hend : b k = 0) (y : F) :
    (y - z) * ∑ i ∈ Finset.range k, b i * y ^ i =
      ∑ i ∈ Finset.range k, a (i + 1) * y ^ (i + 1) -
        ∑ i ∈ Finset.range k, a (i + 1) * z ^ (i + 1) := by
  -- the terms of the quotient telescope
  have hvalue : ∀ y, (y - z) * ∑ i ∈ Finset.range k, b i * y ^ i =
      ∑ i ∈ Finset.range k, a (i + 1) * y ^ (i + 1) - z * b 0 := by
    intro y
    have htel := Finset.sum_range_sub (fun i => b i * y ^ i) k
    rw [hend, zero_mul, pow_zero, mul_one, zero_sub] at htel
    have hterms : (y - z) * ∑ i ∈ Finset.range k, b i * y ^ i =
        ∑ i ∈ Finset.range k, a (i + 1) * y ^ (i + 1) +
          z * ∑ i ∈ Finset.range k, (b (i + 1) * y ^ (i + 1) - b i * y ^ i) := by
      rw [Finset.mul_sum, Finset.mul_sum, ← Finset.sum_add_distrib]
      refine Finset.sum_congr rfl fun i hi => ?_
      linear_combination y ^ (i + 1) * hstep i (Finset.mem_range.mp hi)
    rw [hterms, htel]
    ring
  have hz := hvalue z
  rw [sub_self, zero_mul] at hz
  rw [hvalue y]
  linear_combination (-1 : F) * hz

/-- The value at `y` of the monic polynomial of degree `n` whose other coefficients are the last
`n` of the first `k` entries of `a`. -/
def tailEval (a : ℕ → F) (k n : ℕ) (y : F) : F :=
  y ^ n + ∑ m ∈ Finset.range n, a (k - n + m) * y ^ m

/-- Adding `q` times the right neighbour to each of the last `n` entries, the leading one being
`1`, multiplies by `y + q`, up to the constant coefficients. -/
theorem tailEval_step {a a' : ℕ → F} {k n : ℕ} {q : F} (hpos : 0 < n) (hn : n < k)
    (hlast : a' (k - 1) = a (k - 1) + q)
    (hmid : ∀ j, k - n ≤ j → j < k - 1 → a' j = a j + q * a (j + 1)) (y : F) :
    tailEval a' k (n + 1) y =
      (y + q) * tailEval a k n y + a' (k - (n + 1)) - q * a (k - n) := by
  obtain ⟨n, rfl⟩ : ∃ m, n = m + 1 := ⟨n - 1, by omega⟩
  have hcoef : ∀ m, m < n →
      a' (k - (n + 1) + m) = a (k - (n + 1) + m) + q * a (k - (n + 1) + (m + 1)) := fun m hm =>
    hmid _ (by omega) (by omega)
  have htop : a' (k - (n + 1) + n) = a (k - (n + 1) + n) + q := by
    rw [show k - (n + 1) + n = k - 1 by omega]
    exact hlast
  have hshift : ∀ m, k - (n + 1 + 1) + (m + 1) = k - (n + 1) + m := by omega
  simp only [tailEval]
  rw [Finset.sum_range_succ', Finset.sum_range_succ, hshift, htop, Finset.sum_range_succ,
    Nat.add_zero, pow_zero, mul_one]
  have hsum : ∑ m ∈ Finset.range n, a' (k - (n + 1 + 1) + (m + 1)) * y ^ (m + 1) =
      y * ∑ m ∈ Finset.range n, a (k - (n + 1) + m) * y ^ m +
        q * ∑ m ∈ Finset.range n, a (k - (n + 1) + (m + 1)) * y ^ (m + 1) := by
    rw [Finset.mul_sum, Finset.mul_sum, ← Finset.sum_add_distrib]
    refine Finset.sum_congr rfl fun m hm => ?_
    rw [hshift, hcoef m (Finset.mem_range.mp hm)]
    ring
  have hsplit := Finset.sum_range_succ' (fun m => a (k - (n + 1) + m) * y ^ m) n
  rw [Finset.sum_range_succ, Nat.add_zero, pow_zero, mul_one] at hsplit
  rw [hsum]
  linear_combination -q * hsplit

variable {k : ℕ} {p : Fin k → F} {b : Fin k → Fin k → F}

/-- The value of quotient `r` at point `i`. -/
theorem vandermonde_mulVec (i r : Fin k) :
    (vandermonde p *ᵥ b r) i = ∑ j, b r j * p i ^ (j : ℕ) := by
  simp only [Matrix.mulVec, dotProduct, vandermonde_apply]
  exact Finset.sum_congr rfl fun j _ => mul_comm _ _

/-- Nonzero polynomials, each divided by its value at its own point, are the columns of the inverse
exactly if each is zero at the points of the others. -/
theorem vandermonde_inverse_iff (hp : Function.Injective p) (hb : ∀ r, b r ≠ 0) :
    vandermonde p * Matrix.of (fun j r => (∑ j, b r j * p r ^ (j : ℕ))⁻¹ * b r j) = 1 ↔
      ∀ i r, i ≠ r → ∑ j, b r j * p i ^ (j : ℕ) = 0 := by
  have hentry : ∀ i r, (vandermonde p *
      Matrix.of (fun j r => (∑ j, b r j * p r ^ (j : ℕ))⁻¹ * b r j)) i r =
        (∑ j, b r j * p r ^ (j : ℕ))⁻¹ * ∑ j, b r j * p i ^ (j : ℕ) := by
    intro i r
    rw [Matrix.mul_apply, Finset.mul_sum]
    refine Finset.sum_congr rfl fun j _ => ?_
    rw [vandermonde_apply, Matrix.of_apply]
    ring
  constructor
  · intro h i r hir
    have hdiag := congrFun (congrFun h r) r
    have hoff := congrFun (congrFun h i) r
    rw [hentry, Matrix.one_apply_eq] at hdiag
    rw [hentry, Matrix.one_apply_ne hir] at hoff
    refine (mul_eq_zero.mp hoff).resolve_left fun hinv => ?_
    rw [hinv, zero_mul] at hdiag
    exact zero_ne_one hdiag
  · intro h
    -- a polynomial of this degree that is zero at all points is zero
    have hne : ∀ r, ∑ j, b r j * p r ^ (j : ℕ) ≠ 0 := by
      intro r hr
      apply hb r
      apply Matrix.eq_zero_of_mulVec_eq_zero (det_vandermonde_ne_zero_iff.mpr hp)
      funext i
      rw [vandermonde_mulVec]
      by_cases hir : i = r
      · rw [hir]
        exact hr
      · exact h i r hir
    ext i r
    rw [hentry]
    by_cases hir : i = r
    · rw [hir, Matrix.one_apply_eq, inv_mul_cancel₀ (hne r)]
    · rw [Matrix.one_apply_ne hir, h i r hir, mul_zero]

end Inversion
