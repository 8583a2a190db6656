import Mathlib.Data.Nat.ModEq
import Mathlib.Data.Fin.Basic
import Mathlib.Logic.Function.Basic

/-!
# Rings of cells addressed by unbounded indices

`CellRing N α` holds `N` cells. Cell `i` of the unbounded sequence `0, 1, 2, …` lives in cell
`i % N`, so any window of at most `N` consecutive indices is stored without collisions. That is
`get_set_window`; `exists_index` says that every window of `N` indices meets every cell.
-/

namespace Foundation

/-- `N` cells, indexed modulo `N`. -/
def CellRing (N : Nat) (α : Type*) := Fin N → α

namespace CellRing

variable {N : Nat} [NeZero N] {α : Type*}

/-- The content of the cell that holds index `i`. -/
def get (r : CellRing N α) (i : Nat) : α := r (Fin.ofNat N i)

/-- Overwrite the cell that holds index `i`. -/
def set (r : CellRing N α) (i : Nat) (a : α) : CellRing N α :=
  Function.update r (Fin.ofNat N i) a

theorem ofNat_eq_iff {i j : Nat} : Fin.ofNat N i = Fin.ofNat N j ↔ i % N = j % N := by
  rw [Fin.ext_iff, Fin.val_ofNat, Fin.val_ofNat]

omit [NeZero N] in
/-- Two indices of one window that share a cell are equal. -/
theorem eq_of_mod_eq {lo i j : Nat} (hi : lo ≤ i ∧ i < lo + N) (hj : lo ≤ j ∧ j < lo + N)
    (h : i % N = j % N) : i = j := by
  obtain hle | hle := Nat.le_total i j
  · have hdvd : N ∣ j - i := (Nat.modEq_iff_dvd' hle).mp h
    have hzero : j - i = 0 := Nat.eq_zero_of_dvd_of_lt hdvd (by omega)
    omega
  · have hdvd : N ∣ i - j := (Nat.modEq_iff_dvd' hle).mp h.symm
    have hzero : i - j = 0 := Nat.eq_zero_of_dvd_of_lt hdvd (by omega)
    omega

@[simp]
theorem get_set_self (r : CellRing N α) (i : Nat) (a : α) : (r.set i a).get i = a :=
  Function.update_self _ _ _

theorem get_set_of_ne (r : CellRing N α) {i j : Nat} (a : α) (h : j % N ≠ i % N) :
    (r.set i a).get j = r.get j :=
  Function.update_of_ne (fun he => h (ofNat_eq_iff.mp he)) _ _

/-- Inside one window, a write is seen at its own index only. -/
theorem get_set_window (r : CellRing N α) {lo i j : Nat} (a : α) (hi : lo ≤ i ∧ i < lo + N)
    (hj : lo ≤ j ∧ j < lo + N) (hne : j ≠ i) : (r.set i a).get j = r.get j :=
  r.get_set_of_ne a (fun h => hne (eq_of_mod_eq hj hi h))

@[simp]
theorem set_get_self (r : CellRing N α) (i : Nat) : r.set i (r.get i) = r :=
  Function.update_eq_self _ _

/-- A cell copied from another ring, which has been overwritten there. -/
theorem set_get_set (r r' : CellRing N α) (i : Nat) (a : α) :
    r.set i ((r'.set i a).get i) = (r.set i (r'.get i)).set i a := by
  rw [get_set_self]
  exact (Function.update_idem _ _ _).symm

/-- Every cell holds some index of every window of `N` indices. -/
theorem exists_index (k : Fin N) (lo : Nat) :
    ∃ i, lo ≤ i ∧ i < lo + N ∧ Fin.ofNat N i = k := by
  have hN : 0 < N := Nat.pos_of_neZero N
  have hdiv := Nat.div_add_mod lo N
  have hmod := Nat.mod_lt lo hN
  have hk := k.isLt
  by_cases h : lo % N ≤ k.val
  · refine ⟨N * (lo / N) + k.val, by omega, by omega, Fin.ext ?_⟩
    rw [Fin.val_ofNat, Nat.mul_add_mod, Nat.mod_eq_of_lt hk]
  · refine ⟨N * (lo / N + 1) + k.val, ?_, ?_, Fin.ext ?_⟩
    · rw [Nat.mul_succ]; omega
    · rw [Nat.mul_succ]; omega
    · rw [Fin.val_ofNat, Nat.mul_add_mod, Nat.mod_eq_of_lt hk]

end CellRing

end Foundation
