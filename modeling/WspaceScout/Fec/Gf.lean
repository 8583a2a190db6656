import Mathlib.Data.Finset.Card
import Mathlib.Dynamics.PeriodicPts.Lemmas
import Mathlib.NumberTheory.Divisors
import Mathlib.Order.Interval.Finset.Nat
import Mathlib.Tactic
import WspaceScout.Fec.CodeInfo
import WspaceScout.Foundation.CountedLoop
import WspaceScout.Foundation.PowerTable

/-!
# The field of the erasure code

The erasure code computes in GF(2^8). `generate_gf` lists the powers of the generator and their
logarithms, `init_mul_table` fills the table of all products, and everything else only looks up.
Here the tables are computed as the source does, and compared with the field whose sum is the
exclusive or.

## Main definitions

- `GfTables` — the tables; `initFec` fills them
- `Gf` — the field of the bytes, `Gf.powers` its generator

## Main results

- `generateGf_spec` — the powers, logarithms and inverses in the tables
- `initFec_field` — whatever the tables held before, multiplication and inversion by them are
  those of the field
- `modnn_eq` — the reduction without a division
-/

namespace WspaceScout

open Foundation

/-- Number of bits of a field element. -/
def GF_BITS : Nat := 8

/-- `allPp[GF_BITS]`, the coefficients of the primitive polynomial from the constant one on. -/
def Pp : List Char := ['1', '0', '1', '1', '1', '0', '0', '0', '1']

/-- The tables of `fec.c`; arrays are addressed from zero. -/
structure GfTables where
  gfExp : Nat → UInt8
  gfLog : Nat → Nat
  inverse : Nat → UInt8
  gfMulTable : Nat → Nat → UInt8

/-- `modnn`: the remainder by `GF_SIZE` without a division. -/
def modnn (x : Nat) : Nat :=
  if x ≥ GF_SIZE then modnn (((x - GF_SIZE) >>> GF_BITS) + ((x - GF_SIZE) &&& GF_SIZE)) else x
termination_by x
decreasing_by
  have hshift : (x - GF_SIZE) >>> GF_BITS = (x - GF_SIZE) / 256 := Nat.shiftRight_eq_div_pow _ 8
  have hand : (x - GF_SIZE) &&& GF_SIZE = (x - GF_SIZE) % 256 :=
    Nat.and_two_pow_sub_one_eq_mod _ 8
  rw [hshift, hand]
  simp only [GF_SIZE] at *
  omega

theorem modnn_eq (x : Nat) : modnn x = x % GF_SIZE := by
  fun_induction modnn x with
  | case1 x hx ih =>
    have hshift : (x - GF_SIZE) >>> GF_BITS = (x - GF_SIZE) / 256 := Nat.shiftRight_eq_div_pow _ 8
    have hand : (x - GF_SIZE) &&& GF_SIZE = (x - GF_SIZE) % 256 :=
      Nat.and_two_pow_sub_one_eq_mod _ 8
    rw [ih, hshift, hand]
    simp only [GF_SIZE] at *
    omega
  | case2 x hx => exact (Nat.mod_eq_of_lt (Nat.lt_of_not_le hx)).symm

/-! ### Filling the tables -/

/-- One of the first `GF_BITS` powers; the second component is `mask`. -/
def firstPower (s : GfTables × UInt8) (i : Nat) : GfTables × UInt8 :=
  let (t, mask) := s
  let gfExp := Function.update t.gfExp i mask
  let gfLog := Function.update t.gfLog (gfExp i).toNat i
  let gfExp :=
    if Pp[i]? = some '1' then Function.update gfExp GF_BITS (gfExp GF_BITS ^^^ mask) else gfExp
  ({ t with gfExp := gfExp, gfLog := gfLog }, mask <<< 1)

/-- One of the other powers. -/
def nextPower (mask : UInt8) (t : GfTables) (i : Nat) : GfTables :=
  let gfExp := Function.update t.gfExp i
    (if t.gfExp (i - 1) ≥ mask then t.gfExp GF_BITS ^^^ ((t.gfExp (i - 1) ^^^ mask) <<< 1)
    else t.gfExp (i - 1) <<< 1)
  { t with gfExp := gfExp, gfLog := Function.update t.gfLog (gfExp i).toNat i }

/-- The powers of the generator and their logarithms. -/
def generatePowers (t : GfTables) : GfTables :=
  let t := { t with gfExp := Function.update t.gfExp GF_BITS 0 }
  let t := ((List.range GF_BITS).foldl firstPower (t, 1)).1
  let t := { t with gfLog := Function.update t.gfLog (t.gfExp GF_BITS).toNat GF_BITS }
  (List.range' (GF_BITS + 1) (GF_SIZE - (GF_BITS + 1))).foldl (nextPower ((1 : UInt8) <<< 7)) t

/-- `generate_gf`. -/
def generateGf (t : GfTables) : GfTables :=
  let t := generatePowers t
  let t := { t with gfLog := Function.update t.gfLog 0 GF_SIZE }
  let t := { t with
    gfExp := (List.range GF_SIZE).foldl
      (fun gfExp i => Function.update gfExp (i + GF_SIZE) (gfExp i)) t.gfExp }
  let t := { t with inverse := Function.update (Function.update t.inverse 0 0) 1 1 }
  { t with
    inverse := (List.range' 2 (GF_SIZE - 1)).foldl
      (fun inverse i => Function.update inverse i (t.gfExp (GF_SIZE - t.gfLog i))) t.inverse }

/-- One product of the table of products. -/
def mulEntry (t : GfTables) (i j : Nat) (table : Nat → Nat → UInt8) : Nat → Nat → UInt8 :=
  Function.update table i
    (Function.update (table i) j (t.gfExp (modnn (t.gfLog i + t.gfLog j))))

/-- `init_mul_table`. -/
def initMulTable (t : GfTables) : GfTables :=
  let table := (List.range (GF_SIZE + 1)).foldl (fun table i =>
    (List.range (GF_SIZE + 1)).foldl (fun table j => mulEntry t i j table) table) t.gfMulTable
  { t with
    gfMulTable := (List.range (GF_SIZE + 1)).foldl (fun table j =>
      let table := Function.update table j (Function.update (table j) 0 0)
      Function.update table 0 (Function.update (table 0) j (table j 0))) table }

/-- `init_fec`. -/
def initFec (t : GfTables) : GfTables := initMulTable (generateGf t)

/-! ### The powers of the generator -/

/-- Multiplication by the generator: the carry is replaced by the low part of the polynomial. -/
def gfStep (x : UInt8) : UInt8 :=
  if x ≥ 128 then (0x1d : UInt8) ^^^ ((x ^^^ 128) <<< 1) else x <<< 1

/-- A power of the generator. -/
def gfPower (i : Nat) : UInt8 := gfStep^[i] 1

theorem gfPower_succ (i : Nat) : gfPower (i + 1) = gfStep (gfPower i) :=
  Function.iterate_succ_apply' _ _ _

theorem top_iff (x : UInt8) : x ≥ 128 ↔ x.toBitVec.msb = true := by
  rw [BitVec.msb_eq_decide, decide_eq_true_iff]
  exact UInt8.le_iff_toNat_le

theorem gfStep_eq (x : UInt8) :
    gfStep x = (x <<< 1) ^^^ (if x.toBitVec.msb then 0x1d else 0) := by
  by_cases h : x.toBitVec.msb = true
  · rw [gfStep, if_pos h, if_pos ((top_iff x).mpr h), UInt8.shiftLeft_xor, UInt8.xor_comm,
      show (128 : UInt8) <<< 1 = 0 from rfl, UInt8.xor_zero]
  · rw [gfStep, if_neg h, if_neg fun hle => h ((top_iff x).mp hle), UInt8.xor_zero]

theorem gfStep_xor (x y : UInt8) : gfStep (x ^^^ y) = gfStep x ^^^ gfStep y := by
  rw [gfStep_eq, gfStep_eq, gfStep_eq, UInt8.shiftLeft_xor, UInt8.toBitVec_xor, BitVec.msb_xor]
  have hcarry : ∀ a b : Bool, (if a ^^ b then (0x1d : UInt8) else 0) =
      (if a then 0x1d else 0) ^^^ (if b then 0x1d else 0) := by decide
  rw [hcarry]
  ac_rfl

/-- The generator has order `GF_SIZE`: it returns to one there, and at no proper divisor. -/
theorem minimalPeriod_gfStep : Function.minimalPeriod gfStep 1 = GF_SIZE := by
  have hperiod : Function.IsPeriodicPt gfStep GF_SIZE 1 := by
    change gfStep^[255] 1 = 1
    decide +kernel
  have hproper : ∀ m ∈ Nat.properDivisors 255, gfStep^[m] 1 ≠ 1 := by decide +kernel
  have hdvd := hperiod.minimalPeriod_dvd
  by_contra hne
  have hlt := lt_of_le_of_ne (Nat.le_of_dvd (by decide) hdvd) hne
  exact hproper _ (Nat.mem_properDivisors.mpr ⟨hdvd, hlt⟩)
    (Function.isPeriodicPt_minimalPeriod gfStep 1)

theorem gfPower_order : gfPower GF_SIZE = 1 := by
  have h := Function.isPeriodicPt_minimalPeriod gfStep 1
  rwa [minimalPeriod_gfStep] at h

theorem gfPower_injOn {i j : Nat} (hi : i < GF_SIZE) (hj : j < GF_SIZE)
    (h : gfPower i = gfPower j) : i = j := by
  rw [← minimalPeriod_gfStep] at hi hj
  exact Function.iterate_injOn_Iio_minimalPeriod hi hj h

theorem gfPower_ne_zero {i : Nat} (hi : i < GF_SIZE) : gfPower i ≠ 0 := by
  intro h
  have hzero : gfStep^[GF_SIZE - i] (gfPower i) = 0 := by
    rw [h]
    exact Function.iterate_fixed (by decide) _
  rw [gfPower, ← Function.iterate_add_apply, Nat.sub_add_cancel (Nat.le_of_lt hi)] at hzero
  exact absurd (gfPower_order.symm.trans hzero) (by decide)

/-- The powers below the order are as many as the nonzero bytes, so they are all of them. -/
theorem exists_gfPower {v : UInt8} (hv : v ≠ 0) : ∃ i, i < GF_SIZE ∧ gfPower i = v := by
  have hsub : (Finset.range GF_SIZE).image (fun i => (gfPower i).toNat) ⊆ Finset.Icc 1 255 := by
    intro x hx
    obtain ⟨i, hi, rfl⟩ := Finset.mem_image.mp hx
    have hne := gfPower_ne_zero (Finset.mem_range.mp hi)
    have hlt := (gfPower i).toNat_lt
    have hpos : (gfPower i).toNat ≠ 0 := fun h => hne (UInt8.toNat_inj.mp h)
    exact Finset.mem_Icc.mpr ⟨by omega, by omega⟩
  have hcard : (Finset.Icc 1 255).card ≤
      ((Finset.range GF_SIZE).image fun i => (gfPower i).toNat).card := by
    rw [Finset.card_image_of_injOn, Finset.card_range, Nat.card_Icc]
    · decide
    · intro i hi j hj h
      exact gfPower_injOn (Finset.mem_range.mp hi) (Finset.mem_range.mp hj) (UInt8.toNat_inj.mp h)
  have hmem : v.toNat ∈ Finset.Icc 1 255 := by
    have hlt := v.toNat_lt
    have hpos : v.toNat ≠ 0 := fun h => hv (UInt8.toNat_inj.mp h)
    exact Finset.mem_Icc.mpr ⟨by omega, by omega⟩
  rw [← Finset.eq_of_subset_of_card_le hsub hcard] at hmem
  obtain ⟨i, hi, h⟩ := Finset.mem_image.mp hmem
  exact ⟨i, Finset.mem_range.mp hi, UInt8.toNat_inj.mp h⟩

/-! ### The tables after `generate_gf` -/

/-- The tables hold the first `n` powers and their logarithms. -/
structure GfTables.HoldsPowers (t : GfTables) (n : Nat) : Prop where
  exp : ∀ i, i < n → t.gfExp i = gfPower i
  log : ∀ i, i < n → t.gfLog (gfPower i).toNat = i

theorem nextPower_holds {t : GfTables} {i : Nat} (hlo : GF_BITS < i) (hi : i < GF_SIZE)
    (h : t.HoldsPowers i) : (nextPower ((1 : UInt8) <<< 7) t i).HoldsPowers (i + 1) := by
  have hprev : t.gfExp (i - 1) = gfPower (i - 1) := h.exp _ (by omega)
  have htop : t.gfExp GF_BITS = 0x1d := (h.exp GF_BITS hlo).trans (by decide)
  -- the entry that is written is the power
  have hnew : (if t.gfExp (i - 1) ≥ (1 : UInt8) <<< 7 then
      t.gfExp GF_BITS ^^^ ((t.gfExp (i - 1) ^^^ (1 : UInt8) <<< 7) <<< 1)
      else t.gfExp (i - 1) <<< 1) = gfPower i := by
    rw [hprev, htop]
    have hsucc := gfPower_succ (i - 1)
    rw [show i - 1 + 1 = i by omega] at hsucc
    exact hsucc.symm
  constructor
  · intro j hj
    by_cases hji : j = i
    · rw [hji, ← hnew]
      exact Function.update_self _ _ _
    · rw [← h.exp j (by omega)]
      exact Function.update_of_ne hji _ _
  · intro j hj
    simp only [nextPower, Function.update_self, hnew]
    by_cases hji : j = i
    · rw [hji, Function.update_self]
    · have hne : (gfPower j).toNat ≠ (gfPower i).toNat := fun heq =>
        hji (gfPower_injOn (by omega) hi (UInt8.toNat_inj.mp heq))
      rw [Function.update_of_ne hne]
      exact h.log j (by omega)

theorem generatePowers_holds (t : GfTables) : (generatePowers t).HoldsPowers GF_SIZE := by
  have hcount : GF_SIZE = GF_BITS + 1 + (GF_SIZE - (GF_BITS + 1)) := by decide
  rw [hcount]
  apply foldl_range'_invariant (I := fun i t => GfTables.HoldsPowers t i)
  · -- the first powers are single bits, and the next one collects the bits of the polynomial
    constructor
    · intro j hj
      simp only [GF_BITS] at hj
      interval_cases j <;> simp [firstPower, List.range_succ, Pp, GF_BITS] <;> rfl
    · intro j hj
      simp only [GF_BITS] at hj
      interval_cases j <;> simp [firstPower, List.range_succ, Pp, GF_BITS] <;> rfl
  · intro i t hlo hi h
    exact nextPower_holds hlo (by rwa [← hcount] at hi) h

/-- The tables after `generate_gf`. -/
structure GfTables.Generated (t : GfTables) : Prop where
  exp : ∀ i, i < 2 * GF_SIZE → t.gfExp i = gfPower (i % GF_SIZE)
  log : ∀ i, i < GF_SIZE → t.gfLog (gfPower i).toNat = i
  log_zero : t.gfLog 0 = GF_SIZE
  inverse : ∀ i, i < GF_SIZE → t.inverse (gfPower i).toNat = gfPower ((GF_SIZE - i) % GF_SIZE)
  inverse_zero : t.inverse 0 = 0

/-- The second half of the powers repeats the first. -/
theorem extendPowers_spec {gfExp : Nat → UInt8} (h : ∀ i, i < GF_SIZE → gfExp i = gfPower i) :
    ∀ i, i < 2 * GF_SIZE → (List.range GF_SIZE).foldl
      (fun gfExp i => Function.update gfExp (i + GF_SIZE) (gfExp i)) gfExp i =
        gfPower (i % GF_SIZE) := by
  have hloop := foldl_range_invariant
    (I := fun n e => (∀ i, i < GF_SIZE → e i = gfPower i) ∧
      ∀ i, i < n → e (i + GF_SIZE) = gfPower i)
    (fun gfExp i => Function.update gfExp (i + GF_SIZE) (gfExp i)) GF_SIZE gfExp
    ⟨h, fun i hi => absurd hi (Nat.not_lt_zero i)⟩ (by
      rintro n e hn ⟨hlow, hhigh⟩
      constructor
      · intro i hi
        rw [Function.update_of_ne (by omega)]
        exact hlow i hi
      · intro i hi
        by_cases hin : i = n
        · rw [hin, Function.update_self]
          exact hlow n hn
        · rw [Function.update_of_ne (by omega)]
          exact hhigh i (by omega))
  intro i hi
  by_cases hlow : i < GF_SIZE
  · rw [Nat.mod_eq_of_lt hlow]
    exact hloop.1 i hlow
  · have hhigh := hloop.2 (i - GF_SIZE) (by omega)
    rw [show i - GF_SIZE + GF_SIZE = i by omega] at hhigh
    rw [hhigh, Nat.mod_eq_sub_mod (by omega), Nat.mod_eq_of_lt (by omega)]

theorem inverseLoop_spec (value : Nat → UInt8) (inverse : Nat → UInt8) (x : Nat) :
    (List.range' 2 (GF_SIZE - 1)).foldl (fun inverse i => Function.update inverse i (value i))
      inverse x = if 2 ≤ x ∧ x < GF_SIZE + 1 then value x else inverse x := by
  have hloop := foldl_range'_invariant
    (I := fun n f => ∀ x, f x = if 2 ≤ x ∧ x < n then value x else inverse x)
    (fun inverse i => Function.update inverse i (value i)) 2 (GF_SIZE - 1) inverse
    (fun x => (if_neg (by omega)).symm) (by
      intro n f hlo _ hf x
      by_cases hx : x = n
      · rw [hx, Function.update_self, if_pos ⟨hlo, Nat.lt_succ_self n⟩]
      · rw [Function.update_of_ne hx, hf x]
        exact if_congr (by omega) rfl rfl)
  exact hloop x

/-! What `generate_gf` leaves in each table. -/

theorem generateGf_gfExp (t : GfTables) : (generateGf t).gfExp = (List.range GF_SIZE).foldl
    (fun gfExp i => Function.update gfExp (i + GF_SIZE) (gfExp i)) (generatePowers t).gfExp := by
  simp only [generateGf]

theorem generateGf_gfLog (t : GfTables) :
    (generateGf t).gfLog = Function.update (generatePowers t).gfLog 0 GF_SIZE := by
  simp only [generateGf]

theorem generateGf_inverse (t : GfTables) : (generateGf t).inverse =
    (List.range' 2 (GF_SIZE - 1)).foldl (fun inverse i => Function.update inverse i
      ((generateGf t).gfExp (GF_SIZE - (generateGf t).gfLog i)))
      (Function.update (Function.update (generatePowers t).inverse 0 0) 1 1) := by
  simp only [generateGf]

theorem generateGf_spec (t : GfTables) : (generateGf t).Generated := by
  have hpow := generatePowers_holds t
  have hexp : ∀ i, i < 2 * GF_SIZE → (generateGf t).gfExp i = gfPower (i % GF_SIZE) := by
    rw [generateGf_gfExp]
    exact extendPowers_spec hpow.exp
  have hne : ∀ i, i < GF_SIZE → (gfPower i).toNat ≠ 0 := fun i hi h =>
    gfPower_ne_zero hi (UInt8.toNat_inj.mp h)
  have hlog : ∀ i, i < GF_SIZE → (generateGf t).gfLog (gfPower i).toNat = i := by
    intro i hi
    rw [generateGf_gfLog, Function.update_of_ne (hne i hi)]
    exact hpow.log i hi
  have hzero : (generateGf t).gfLog 0 = GF_SIZE := by
    rw [generateGf_gfLog, Function.update_self]
  refine ⟨hexp, hlog, hzero, ?_, ?_⟩
  · intro i hi
    have hlt := (gfPower i).toNat_lt
    rw [generateGf_inverse, inverseLoop_spec]
    by_cases hone : i = 0
    · -- the entry of one is written by hand
      subst hone
      rfl
    · have hval : (gfPower i).toNat ≠ 1 := fun h =>
        hone (gfPower_injOn hi (by decide) (UInt8.toNat_inj.mp h : gfPower i = gfPower 0))
      have hpos := hne i hi
      rw [if_pos ⟨by omega, by simp only [GF_SIZE]; omega⟩, hlog i hi]
      exact hexp _ (by omega)
  · rw [generateGf_inverse, inverseLoop_spec]
    rfl

/-! ### The table of products -/

/-- One row of the table. -/
theorem mulRow_spec (t : GfTables) (i n : Nat) (table : Nat → Nat → UInt8) :
    (List.range n).foldl (fun table j => mulEntry t i j table) table =
      Function.update table i fun j =>
        if j < n then t.gfExp (modnn (t.gfLog i + t.gfLog j)) else table i j := by
  refine foldl_range_invariant (I := fun n' table' => table' = Function.update table i fun j =>
    if j < n' then t.gfExp (modnn (t.gfLog i + t.gfLog j)) else table i j) _ n table ?_ ?_
  · simp
  · rintro j _ - rfl
    funext i' j'
    by_cases hi : i' = i
    · subst hi
      rw [mulEntry, Function.update_self, Function.update_self, Function.update_self]
      by_cases hj : j' = j
      · rw [hj, Function.update_self, if_pos (Nat.lt_succ_self j)]
      · rw [Function.update_of_ne hj]
        exact if_congr (by omega) rfl rfl
    · rw [mulEntry, Function.update_of_ne hi, Function.update_of_ne hi, Function.update_of_ne hi]

theorem mulRows_spec (t : GfTables) (n m : Nat) (table : Nat → Nat → UInt8) {i j : Nat}
    (hi : i < n) (hj : j < m) :
    (List.range n).foldl (fun table i =>
        (List.range m).foldl (fun table j => mulEntry t i j table) table) table i j =
      t.gfExp (modnn (t.gfLog i + t.gfLog j)) := by
  have hloop := foldl_range_invariant
    (I := fun n' table' => ∀ i j, i < n' → j < m →
      table' i j = t.gfExp (modnn (t.gfLog i + t.gfLog j)))
    (fun table i => (List.range m).foldl (fun table j => mulEntry t i j table) table) n table
    (fun i j hi => absurd hi (Nat.not_lt_zero i)) (by
      intro r table' _ htable i j hi hj
      rw [mulRow_spec]
      by_cases hir : i = r
      · rw [hir, Function.update_self, if_pos hj]
      · rw [Function.update_of_ne hir]
        exact htable i j (by omega) hj)
  exact hloop i j hi hj

/-- The row and the column of zero. -/
theorem zeroRowCol_spec (n : Nat) (table : Nat → Nat → UInt8) {i j : Nat} (hi : i < n)
    (hj : j < n) :
    (List.range n).foldl (fun table j =>
        let table := Function.update table j (Function.update (table j) 0 0)
        Function.update table 0 (Function.update (table 0) j (table j 0))) table i j =
      if i = 0 ∨ j = 0 then 0 else table i j := by
  have hloop := foldl_range_invariant
    (I := fun n' table' => ∀ i j, i < n → j < n → table' i j =
      if i = 0 ∧ j < n' ∨ j = 0 ∧ i < n' then 0 else table i j)
    (fun table j =>
        let table := Function.update table j (Function.update (table j) 0 0)
        Function.update table 0 (Function.update (table 0) j (table j 0))) n table
    (fun i j _ _ => (if_neg (by omega)).symm) (by
      intro r table' _ htable i j hi hj
      simp only [Function.update_apply]
      have h := htable i j hi hj
      grind)
  rw [hloop i j hi hj]
  exact if_congr (by omega) rfl rfl

/-- `gf_mul`. -/
def GfTables.gfMul (t : GfTables) (x y : UInt8) : UInt8 := t.gfMulTable x.toNat y.toNat

theorem initFec_gfMul (t : GfTables) (x y : UInt8) : (initFec t).gfMul x y =
    if x = 0 ∨ y = 0 then 0 else
      (generateGf t).gfExp
        (modnn ((generateGf t).gfLog x.toNat + (generateGf t).gfLog y.toNat)) := by
  have hx : x.toNat < GF_SIZE + 1 := x.toNat_lt
  have hy : y.toNat < GF_SIZE + 1 := y.toNat_lt
  simp only [GfTables.gfMul, initFec, initMulTable]
  rw [zeroRowCol_spec _ _ hx hy, mulRows_spec _ _ _ _ hx hy]
  exact if_congr (or_congr (UInt8.toNat_inj (b := 0)) (UInt8.toNat_inj (b := 0))) rfl rfl

theorem initFec_gfExp (t : GfTables) : (initFec t).gfExp = (generateGf t).gfExp := by
  simp only [initFec, initMulTable]

theorem initFec_gfLog (t : GfTables) : (initFec t).gfLog = (generateGf t).gfLog := by
  simp only [initFec, initMulTable]

theorem initFec_inverse (t : GfTables) : (initFec t).inverse = (generateGf t).inverse := by
  simp only [initFec, initMulTable]

/-! ### The field -/

/-- An element of the field. -/
@[ext]
structure Gf where
  byte : UInt8
  deriving DecidableEq

namespace Gf

instance : Zero Gf := ⟨⟨0⟩⟩

instance : Add Gf := ⟨fun a b => ⟨a.byte ^^^ b.byte⟩⟩

instance : Neg Gf := ⟨fun a => a⟩

instance : AddCommGroup Gf where
  add_assoc a b c := Gf.ext (UInt8.xor_assoc a.byte b.byte c.byte)
  zero_add a := Gf.ext UInt8.zero_xor
  add_zero a := Gf.ext UInt8.xor_zero
  add_comm a b := Gf.ext (UInt8.xor_comm a.byte b.byte)
  neg_add_cancel a := Gf.ext UInt8.xor_self
  nsmul := nsmulRec
  zsmul := zsmulRec

theorem byte_add (a b : Gf) : (a + b).byte = a.byte ^^^ b.byte := rfl

theorem iterate_step (i : Nat) (x : UInt8) :
    (fun a : Gf => (⟨gfStep a.byte⟩ : Gf))^[i] ⟨x⟩ = ⟨gfStep^[i] x⟩ := by
  induction i generalizing x with
  | zero => rfl
  | succ i ih => rw [Function.iterate_succ_apply, Function.iterate_succ_apply, ih]

/-- The generator of the field. -/
def powers : PowerTable Gf where
  step := ⟨⟨fun a => ⟨gfStep a.byte⟩, rfl⟩, fun a b => Gf.ext (gfStep_xor a.byte b.byte)⟩
  one := ⟨1⟩
  order := GF_SIZE
  one_ne_zero h := absurd (congrArg Gf.byte h) (by decide)
  order_pos := by decide
  step_order := (iterate_step GF_SIZE 1).trans (congrArg Gf.mk gfPower_order)
  exists_power v hv := by
    obtain ⟨i, hi, h⟩ := exists_gfPower fun h => hv (Gf.ext h)
    exact ⟨i, hi, (iterate_step i 1).trans (congrArg Gf.mk h)⟩

theorem powers_power (i : Nat) : powers.power i = ⟨gfPower i⟩ := iterate_step i 1

noncomputable instance : Field Gf := powers.field

theorem mul_gfPower (i j : Nat) : (⟨gfPower i⟩ * ⟨gfPower j⟩ : Gf) = ⟨gfPower (i + j)⟩ := by
  rw [← powers_power, ← powers_power, ← powers_power]
  exact powers.mul_power i j

theorem gfPower_mod (i : Nat) : gfPower (i % GF_SIZE) = gfPower i := by
  have h := powers.power_mod i
  rw [powers_power, powers_power] at h
  exact congrArg Gf.byte h

theorem pow_gfPower (i j : Nat) : (⟨gfPower i⟩ : Gf) ^ j = ⟨gfPower (i * j)⟩ := by
  induction j with
  | zero => rfl
  | succ j ih => rw [pow_succ, ih, mul_gfPower, Nat.mul_succ]

theorem neg_eq (a : Gf) : -a = a := rfl

theorem sub_eq_add (a b : Gf) : a - b = a + b := sub_eq_add_neg a b

end Gf

/-- The table of products is the product of the field. -/
theorem gfMul_eq (t : GfTables) (x y : UInt8) :
    (initFec t).gfMul x y = ((⟨x⟩ : Gf) * ⟨y⟩).byte := by
  have hgen := generateGf_spec t
  rw [initFec_gfMul]
  by_cases hx : x = 0
  · subst hx
    rw [if_pos (.inl rfl)]
    exact (congrArg Gf.byte (zero_mul (⟨y⟩ : Gf))).symm
  by_cases hy : y = 0
  · subst hy
    rw [if_pos (.inr rfl)]
    exact (congrArg Gf.byte (mul_zero (⟨x⟩ : Gf))).symm
  obtain ⟨i, hi, rfl⟩ := exists_gfPower hx
  obtain ⟨j, hj, rfl⟩ := exists_gfPower hy
  have hlt : (i + j) % GF_SIZE < 2 * GF_SIZE := by
    have := Nat.mod_lt (i + j) (show GF_SIZE > 0 by decide)
    omega
  rw [if_neg (not_or.mpr ⟨hx, hy⟩), hgen.log i hi, hgen.log j hj, modnn_eq, hgen.exp _ hlt,
    Nat.mod_mod, Gf.gfPower_mod, Gf.mul_gfPower]

/-- The table of inverses is the inverse of the field. -/
theorem inverse_eq (t : GfTables) (x : UInt8) :
    (initFec t).inverse x.toNat = ((⟨x⟩ : Gf)⁻¹).byte := by
  have hgen := generateGf_spec t
  by_cases hx : x = 0
  · subst hx
    have hzero : (⟨0⟩ : Gf)⁻¹ = 0 := inv_zero
    rw [initFec_inverse, hzero]
    exact hgen.inverse_zero
  obtain ⟨i, hi, rfl⟩ := exists_gfPower hx
  have hinv : (⟨gfPower i⟩ : Gf)⁻¹ = ⟨gfPower (GF_SIZE - i)⟩ := by
    apply inv_eq_of_mul_eq_one_right
    rw [Gf.mul_gfPower, Nat.add_sub_cancel' (Nat.le_of_lt hi), gfPower_order]
    rfl
  rw [initFec_inverse, hgen.inverse i hi, Gf.gfPower_mod, hinv]

/-- Whatever the tables held before, `init_fec` leaves the tables of a field whose sum is the
exclusive or; `gf_exp` is long enough to add two logarithms without `modnn`. -/
theorem initFec_field (t : GfTables) :
    (∀ x y, (initFec t).gfMul x y = (initFec t).gfMul y x) ∧
    (∀ x y z, (initFec t).gfMul ((initFec t).gfMul x y) z =
      (initFec t).gfMul x ((initFec t).gfMul y z)) ∧
    (∀ x y z, (initFec t).gfMul x (y ^^^ z) = (initFec t).gfMul x y ^^^ (initFec t).gfMul x z) ∧
    (∀ x, (initFec t).gfMul 1 x = x) ∧
    (∀ x, x ≠ 0 → (initFec t).gfMul x ((initFec t).inverse x.toNat) = 1) ∧
    (∀ x, x ≠ 0 → (initFec t).gfExp ((initFec t).gfLog x.toNat) = x) ∧
    ∀ x y, x ≠ 0 → y ≠ 0 →
      (initFec t).gfExp ((initFec t).gfLog x.toNat + (initFec t).gfLog y.toNat) =
        (initFec t).gfMul x y := by
  have hgen := generateGf_spec t
  simp only [gfMul_eq, inverse_eq, initFec_gfExp, initFec_gfLog]
  refine ⟨fun x y => ?_, fun x y z => ?_, fun x y z => ?_, fun x => ?_, fun x hx => ?_,
    fun x hx => ?_, fun x y hx hy => ?_⟩
  · rw [mul_comm]
  · exact congrArg Gf.byte (mul_assoc (⟨x⟩ : Gf) ⟨y⟩ ⟨z⟩)
  · exact congrArg Gf.byte (mul_add (⟨x⟩ : Gf) ⟨y⟩ ⟨z⟩)
  · exact congrArg Gf.byte (one_mul (⟨x⟩ : Gf))
  · have hne : (⟨x⟩ : Gf) ≠ 0 := fun h => hx (congrArg Gf.byte h)
    exact congrArg Gf.byte (mul_inv_cancel₀ hne)
  · obtain ⟨i, hi, rfl⟩ := exists_gfPower hx
    rw [hgen.log i hi, hgen.exp i (by omega), Nat.mod_eq_of_lt hi]
  · obtain ⟨i, hi, rfl⟩ := exists_gfPower hx
    obtain ⟨j, hj, rfl⟩ := exists_gfPower hy
    rw [hgen.log i hi, hgen.log j hj, hgen.exp _ (by omega), Gf.gfPower_mod, Gf.mul_gfPower]

end WspaceScout
