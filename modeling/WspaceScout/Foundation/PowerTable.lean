import Mathlib.Algebra.Field.Defs
import Mathlib.Algebra.Group.Hom.Defs
import Mathlib.Algebra.GroupWithZero.NeZero
import Mathlib.Logic.Function.Iterate
import Mathlib.Tactic

/-!
# Fields given by the powers of one element

A finite field is often implemented by tables: `exp` lists the powers of a generator, `log` inverts
it, and a product is the power at the sum of two logarithms. A `PowerTable` is what makes this
work: multiplication by the generator is additive, and its iterates on `one` reach every nonzero
element and return to `one`. The product so defined is that of a field.

## Main definitions

- `PowerTable` — an additive map whose iterates on one element cover the nonzero elements
- `PowerTable.mul` — the product through logarithms
- `PowerTable.field` — the field

## Main results

- `PowerTable.mul_eq_iterate` — any logarithm of the first factor gives the product
-/

/-- Multiplication by a generator, and its powers. -/
structure PowerTable (V : Type*) [AddCommGroup V] where
  step : V →+ V
  one : V
  order : ℕ
  one_ne_zero : one ≠ 0
  order_pos : 0 < order
  step_order : step^[order] one = one
  exists_power : ∀ v, v ≠ 0 → ∃ i, i < order ∧ step^[i] one = v

namespace PowerTable

variable {V : Type*} [AddCommGroup V] (T : PowerTable V) {a b c : V} {i j : ℕ}

/-- The `i`-th power of the generator. -/
def power (i : ℕ) : V := T.step^[i] T.one

theorem iterate_power (i j : ℕ) : T.step^[i] (T.power j) = T.power (i + j) :=
  (Function.iterate_add_apply _ _ _ _).symm

theorem iterate_add (i : ℕ) (a b : V) : T.step^[i] (a + b) = T.step^[i] a + T.step^[i] b := by
  induction i generalizing a b with
  | zero => rfl
  | succ i ih => rw [Function.iterate_succ_apply, Function.iterate_succ_apply,
      Function.iterate_succ_apply, map_add, ih]

theorem iterate_zero (i : ℕ) : T.step^[i] 0 = 0 :=
  Function.iterate_fixed (map_zero T.step) i

theorem power_add_order (i : ℕ) : T.power (i + T.order) = T.power i := by
  rw [← T.iterate_power i T.order]
  exact congrArg _ T.step_order

theorem power_add_mul_order (i m : ℕ) : T.power (i + m * T.order) = T.power i := by
  induction m with
  | zero => rw [Nat.zero_mul, Nat.add_zero]
  | succ m ih => rw [Nat.succ_mul, ← Nat.add_assoc, T.power_add_order, ih]

theorem power_mod (i : ℕ) : T.power (i % T.order) = T.power i := by
  have h := T.power_add_mul_order (i % T.order) (i / T.order)
  rwa [Nat.mul_comm, Nat.mod_add_div, eq_comm] at h

/-- No power is zero, since a later one is `one`. -/
theorem power_ne_zero (i : ℕ) : T.power i ≠ 0 := by
  intro h
  have hlater : T.power (i * T.order) = 0 := by
    have hle : i ≤ i * T.order := Nat.le_mul_of_pos_right i T.order_pos
    rw [show i * T.order = (i * T.order - i) + i by omega, ← T.iterate_power, h, T.iterate_zero]
  have hone := T.power_add_mul_order 0 i
  rw [Nat.zero_add, hlater] at hone
  exact T.one_ne_zero hone.symm

/-- A logarithm of a nonzero element. -/
noncomputable def log (a : V) : ℕ := by
  classical
  exact if h : a ≠ 0 then (T.exists_power a h).choose else 0

theorem power_log (h : a ≠ 0) : T.power (T.log a) = a := by
  rw [log, dif_pos h]
  exact (T.exists_power a h).choose_spec.2

theorem log_lt (a : V) : T.log a < T.order := by
  by_cases h : a ≠ 0
  · rw [log, dif_pos h]
    exact (T.exists_power a h).choose_spec.1
  · rw [log, dif_neg h]
    exact T.order_pos

/-- The product. -/
noncomputable def mul (a b : V) : V := by
  classical
  exact if a = 0 then 0 else T.step^[T.log a] b

/-- Equal powers shift everything alike. -/
theorem iterate_congr (h : T.power i = T.power j) (b : V) : T.step^[i] b = T.step^[j] b := by
  by_cases hb : b = 0
  · rw [hb, T.iterate_zero, T.iterate_zero]
  · rw [← T.power_log hb, T.iterate_power, T.iterate_power, Nat.add_comm i, Nat.add_comm j,
      ← T.iterate_power, ← T.iterate_power, h]

theorem zero_mul (b : V) : T.mul 0 b = 0 := if_pos rfl

/-- Any logarithm of the first factor gives the product. -/
theorem mul_eq_iterate (i : ℕ) (b : V) : T.mul (T.power i) b = T.step^[i] b := by
  rw [mul, if_neg (T.power_ne_zero i)]
  exact T.iterate_congr (T.power_log (T.power_ne_zero i)) b

theorem mul_power (i j : ℕ) : T.mul (T.power i) (T.power j) = T.power (i + j) := by
  rw [T.mul_eq_iterate, T.iterate_power]

theorem mul_zero (a : V) : T.mul a 0 = 0 := by
  by_cases ha : a = 0
  · rw [ha, T.zero_mul]
  · rw [← T.power_log ha, T.mul_eq_iterate, T.iterate_zero]

theorem mul_comm (a b : V) : T.mul a b = T.mul b a := by
  by_cases ha : a = 0
  · rw [ha, T.zero_mul, T.mul_zero]
  · by_cases hb : b = 0
    · rw [hb, T.zero_mul, T.mul_zero]
    · rw [← T.power_log ha, ← T.power_log hb, T.mul_power, T.mul_power, Nat.add_comm]

theorem mul_add (a b c : V) : T.mul a (b + c) = T.mul a b + T.mul a c := by
  by_cases ha : a = 0
  · rw [ha, T.zero_mul, T.zero_mul, T.zero_mul, add_zero]
  · rw [← T.power_log ha, T.mul_eq_iterate, T.mul_eq_iterate, T.mul_eq_iterate, T.iterate_add]

theorem add_mul (a b c : V) : T.mul (a + b) c = T.mul a c + T.mul b c := by
  rw [T.mul_comm, T.mul_add, T.mul_comm c a, T.mul_comm c b]

/-- Shifting by two logarithms does not depend on their order. -/
theorem mul_left_comm (a b c : V) : T.mul a (T.mul b c) = T.mul b (T.mul a c) := by
  by_cases ha : a = 0
  · rw [ha, T.zero_mul, T.zero_mul, T.mul_zero]
  · by_cases hb : b = 0
    · rw [hb, T.zero_mul, T.zero_mul, T.mul_zero]
    · rw [← T.power_log ha, ← T.power_log hb]
      simp only [T.mul_eq_iterate]
      rw [← Function.iterate_add_apply, ← Function.iterate_add_apply, Nat.add_comm]

theorem mul_assoc (a b c : V) : T.mul (T.mul a b) c = T.mul a (T.mul b c) := by
  rw [T.mul_comm (T.mul a b) c, T.mul_left_comm c a b, T.mul_comm c b]

theorem one_mul (b : V) : T.mul T.one b = b := T.mul_eq_iterate 0 b

/-- The inverse: the power that is missing to the order. -/
noncomputable def inv (a : V) : V := by
  classical
  exact if a = 0 then 0 else T.power (T.order - T.log a)

theorem mul_inv_cancel (h : a ≠ 0) : T.mul a (T.inv a) = T.one := by
  have hlt := T.log_lt a
  rw [inv, if_neg h]
  nth_rewrite 1 [← T.power_log h]
  rw [T.mul_power, show T.log a + (T.order - T.log a) = T.order by omega]
  exact T.step_order

/-- The field of the powers. -/
noncomputable abbrev field : Field V where
  __ := (inferInstance : AddCommGroup V)
  mul := T.mul
  one := T.one
  inv := T.inv
  mul_assoc := T.mul_assoc
  one_mul := T.one_mul
  mul_one a := (T.mul_comm a T.one).trans (T.one_mul a)
  mul_comm := T.mul_comm
  left_distrib := T.mul_add
  right_distrib := T.add_mul
  zero_mul := T.zero_mul
  mul_zero := T.mul_zero
  exists_pair_ne := ⟨T.one, 0, T.one_ne_zero⟩
  mul_inv_cancel _ h := T.mul_inv_cancel h
  inv_zero := if_pos rfl
  nnqsmul := _
  qsmul := _

end PowerTable
