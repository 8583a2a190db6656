import WspaceScout.Fec.Addmul
import WspaceScout.Foundation.Vandermonde

/-!
# The fast inverse of a Vandermonde matrix in `invert_vdm`

`invert_vdm` multiplies the linear factors of all points in the array `c` and divides the product
by each of them. The loop that multiplies leaves out the constant coefficient. That is harmless
where the first point is zero, as in `fec_new`, and wrong in general.

## Main definitions

- `vdmCoeffs`, `divideFactor` — the two inner computations
- `invertVdm` — `invert_vdm`

## Main results

- `vdmCoeffs_eval` — the polynomial that the array really holds
- `invertVdm_exact` — for which matrices the result is the inverse
-/

namespace WspaceScout

open Foundation Inversion

/-- One more factor; `c[k]` is one and not stored. -/
def mulFactor (k : Nat) (p : Nat → UInt8) (c : Nat → UInt8) (i : Nat) : Nat → UInt8 :=
  let c := (List.range' (k - 1 - (i - 1)) (i - 1)).foldl
    (fun c j => Function.update c j (c j ^^^ gfMul (p i) (c (j + 1)))) c
  Function.update c (k - 1) (c (k - 1) ^^^ p i)

/-- The array `c`. -/
def vdmCoeffs (k : Nat) (p : Nat → UInt8) : Nat → UInt8 :=
  (List.range' 1 (k - 1)).foldl (mulFactor k p) (Function.update (fun _ => 0) (k - 1) (p 0))

/-- One coefficient of a quotient; the state is the array `b` and the value `t`. -/
def divideStep (c : Nat → UInt8) (xx : UInt8) (i : Nat) (s : (Nat → UInt8) × UInt8) :
    (Nat → UInt8) × UInt8 :=
  let b := Function.update s.1 i (c (i + 1) ^^^ gfMul xx (s.1 (i + 1)))
  (b, gfMul xx s.2 ^^^ b i)

/-- The array `b` and the value `t` for one row. -/
def divideFactor (k : Nat) (c : Nat → UInt8) (xx : UInt8) : (Nat → UInt8) × UInt8 :=
  (List.range (k - 1)).foldr (divideStep c xx) (Function.update (fun _ => 0) (k - 1) 1, 1)

/-- One column of the inverse. -/
def writeColumn (k : Nat) (c p : Nat → UInt8) (src : Nat → Memory) (row : Nat) : Nat → Memory :=
  let (b, t) := divideFactor k c (p row)
  fun col =>
    if col < k then fun r => if r = row then gfMul (gfInverse t) (b col) else src col r
    else src col

/-- `invert_vdm`; its result is always zero. -/
def invertVdm (src : Nat → Memory) (k : Nat) : Nat → Memory :=
  if k = 1 then src
  else
    let p := fun i => src i 1
    (List.range k).foldl (writeColumn k (vdmCoeffs k p) p) src

/-! ### The coefficients -/

theorem mulFactor_inner (q : UInt8) (c : Nat → UInt8) (lo n : Nat) :
    (List.range' lo n).foldl (fun c j => Function.update c j (c j ^^^ gfMul q (c (j + 1)))) c =
      fun j => if lo ≤ j ∧ j < lo + n then c j ^^^ gfMul q (c (j + 1)) else c j := by
  refine foldl_range'_invariant (I := fun i c' => c' = fun j =>
    if lo ≤ j ∧ j < i then c j ^^^ gfMul q (c (j + 1)) else c j) _ lo n c ?_ ?_
  · funext j
    exact (if_neg (by omega)).symm
  · rintro i _ hlo - rfl
    -- the neighbour on the right has not been written yet
    funext j
    by_cases hj : j = i
    · subst hj
      have hself : ¬(lo ≤ j ∧ j < j) := fun h => Nat.lt_irrefl j h.2
      have hnext : ¬(lo ≤ j + 1 ∧ j + 1 < j) := fun h => by omega
      rw [Function.update_self, if_pos ⟨hlo, Nat.lt_succ_self j⟩]
      exact congrArg₂ _ (if_neg hself) (congrArg _ (if_neg hnext))
    · rw [Function.update_of_ne hj]
      exact if_congr (by omega) rfl rfl

theorem mulFactor_apply {k i : Nat} (p c : Nat → UInt8) (hpos : 0 < i) (hi : i < k) (j : Nat) :
    mulFactor k p c i j =
      if j = k - 1 then c (k - 1) ^^^ p i
      else if k - i ≤ j ∧ j < k - 1 then c j ^^^ gfMul (p i) (c (j + 1))
      else c j := by
  simp only [mulFactor, mulFactor_inner, Function.update_apply]
  by_cases hj : j = k - 1
  · rw [if_pos hj, if_pos hj, if_neg (by omega)]
  · rw [if_neg hj, if_neg hj]
    exact if_congr (by omega) rfl rfl

/-- The product of the factors as the array holds it: without the constant coefficient of the first
two. -/
noncomputable def vdmProduct (p : Nat → Gf) (n : Nat) (y : Gf) : Gf :=
  if n = 1 then y + p 0
  else y * (y + p 0 + p 1) * ∏ i ∈ Finset.range (n - 2), (y + p (i + 2))

theorem vdmProduct_two (p : Nat → Gf) (y : Gf) : vdmProduct p 2 y = y * (y + p 0 + p 1) := by
  rw [vdmProduct, if_neg (by decide), Nat.sub_self, Finset.prod_range_zero, mul_one]

theorem vdmProduct_succ (p : Nat → Gf) {n : Nat} (hn : 2 ≤ n) (y : Gf) :
    vdmProduct p (n + 1) y = (y + p n) * vdmProduct p n y := by
  obtain ⟨n, rfl⟩ : ∃ m, n = m + 2 := ⟨n - 2, by omega⟩
  rw [vdmProduct, vdmProduct, if_neg (by omega), if_neg (by omega),
    show n + 2 + 1 - 2 = n + 1 by omega, Nat.add_sub_cancel, Finset.prod_range_succ]
  ring

/-- After `n` factors. -/
structure CoeffsAfter (k : Nat) (p : Nat → UInt8) (n : Nat) (c : Nat → UInt8) : Prop where
  low : ∀ j, j + n < k → c j = 0
  const : 2 ≤ n → c (k - n) = 0
  first : n = 1 → c (k - 1) = p 0
  eval : ∀ y, tailEval (fun j => (⟨c j⟩ : Gf)) k n y = vdmProduct (fun i => ⟨p i⟩) n y

theorem CoeffsAfter.start {k : Nat} (hk : 0 < k) (p : Nat → UInt8) :
    CoeffsAfter k p 1 (Function.update (fun _ => 0) (k - 1) (p 0)) := by
  refine ⟨fun j hj => Function.update_of_ne (by omega) _ _, fun h => absurd h (by decide),
    fun _ => Function.update_self _ _ _, fun y => ?_⟩
  rw [vdmProduct, if_pos rfl, tailEval, Finset.sum_range_one, Nat.add_zero, Function.update_self,
    pow_zero, pow_one, mul_one]

theorem CoeffsAfter.step {k n : Nat} {p c : Nat → UInt8} (h : CoeffsAfter k p n c) (hpos : 0 < n)
    (hn : n < k) : CoeffsAfter k p (n + 1) (mulFactor k p c n) := by
  have hkeep : ∀ j, j + n < k → mulFactor k p c n j = 0 := by
    intro j hj
    rw [mulFactor_apply p c hpos hn, if_neg (by omega), if_neg (by omega)]
    exact h.low j hj
  have hnew : mulFactor k p c n (k - (n + 1)) = 0 := hkeep _ (by omega)
  have hstep := @tailEval_step Gf _ (fun j => ⟨c j⟩) (fun j => ⟨mulFactor k p c n j⟩) k n ⟨p n⟩
    hpos hn
    (Gf.ext (by rw [mulFactor_apply p c hpos hn, if_pos rfl]; rfl))
    (fun j hlo hhi => Gf.ext (by
      rw [mulFactor_apply p c hpos hn, if_neg (by omega), if_pos ⟨hlo, hhi⟩, gfMul_byte]
      rfl))
  refine ⟨fun j hj => hkeep j (by omega), fun _ => hnew, fun h1 => by omega, fun y => ?_⟩
  rw [hstep y, hnew, h.eval y]
  have hzero : (⟨0⟩ : Gf) = 0 := rfl
  by_cases hone : n = 1
  · -- the constant coefficient that is dropped is the product of the first two points
    subst hone
    rw [h.first rfl, vdmProduct_two, vdmProduct, if_pos rfl, hzero]
    ring
  · rw [h.const (by omega), vdmProduct_succ _ (by omega), hzero]
    ring

theorem vdmCoeffs_eval {k : Nat} (hk : 0 < k) (p : Nat → UInt8) (y : Gf) :
    tailEval (fun j => (⟨vdmCoeffs k p j⟩ : Gf)) k k y = vdmProduct (fun i => ⟨p i⟩) k y := by
  have hloop := foldl_range'_invariant (I := fun n c => CoeffsAfter k p n c) (mulFactor k p) 1
    (k - 1) _ (CoeffsAfter.start hk p) (fun n c hlo hn h => h.step hlo (by omega))
  rw [show 1 + (k - 1) = k by omega] at hloop
  exact hloop.eval y

/-! ### The division -/

/-- What the division of one row computes. -/
structure Divided (k : Nat) (c : Nat → UInt8) (xx : UInt8) (i : Nat) (s : (Nat → UInt8) × UInt8) :
    Prop where
  lead : s.1 (k - 1) = 1
  quotient : ∀ j, i ≤ j → j < k - 1 → s.1 j = c (j + 1) ^^^ gfMul xx (s.1 (j + 1))
  value : (⟨s.2⟩ : Gf) = ∑ m ∈ Finset.range (k - i), ⟨s.1 (i + m)⟩ * (⟨xx⟩ : Gf) ^ m

theorem divideFactor_spec {k : Nat} (hk : 0 < k) (c : Nat → UInt8) (xx : UInt8) :
    Divided k c xx 0 (divideFactor k c xx) := by
  refine foldr_range_invariant (I := fun i s => Divided k c xx i s) _ (k - 1) _ ?_ ?_
  · have hlead : Function.update (fun _ => (0 : UInt8)) (k - 1) 1 (k - 1) = 1 :=
      Function.update_self _ _ _
    refine ⟨hlead, fun j hlo hhi => by omega, ?_⟩
    rw [show k - (k - 1) = 1 by omega, Finset.sum_range_one, Nat.add_zero, pow_zero, mul_one]
    exact congrArg Gf.mk hlead.symm
  · intro i s hi h
    have hkeep : ∀ j, i < j → (divideStep c xx i s).1 j = s.1 j := fun j hj =>
      Function.update_of_ne (by omega) _ _
    have hself : (divideStep c xx i s).1 i = c (i + 1) ^^^ gfMul xx (s.1 (i + 1)) :=
      Function.update_self _ _ _
    have hvalue : (divideStep c xx i s).2 = gfMul xx s.2 ^^^ (divideStep c xx i s).1 i := rfl
    refine ⟨(hkeep _ (by omega)).trans h.lead, fun j hlo hhi => ?_, ?_⟩
    · rw [hkeep (j + 1) (by omega)]
      by_cases hji : j = i
      · rw [hji, hself]
      · rw [hkeep j (by omega)]
        exact h.quotient j (by omega) hhi
    · -- Horner's rule
      have hsum : ∑ m ∈ Finset.range (k - (i + 1)),
          (⟨(divideStep c xx i s).1 (i + (m + 1))⟩ : Gf) * (⟨xx⟩ : Gf) ^ (m + 1) =
            ⟨xx⟩ * ⟨s.2⟩ := by
        rw [h.value, Finset.mul_sum]
        refine Finset.sum_congr rfl fun m _ => ?_
        rw [hkeep _ (by omega), show i + (m + 1) = i + 1 + m by omega]
        ring
      rw [show k - i = k - (i + 1) + 1 by omega, Finset.sum_range_succ', hsum, Nat.add_zero,
        pow_zero, mul_one, hvalue]
      apply Gf.ext
      rw [Gf.byte_add, gfMul_byte]

/-! ### The inverse -/

theorem writeColumn_apply (k : Nat) (c p : Nat → UInt8) (src : Nat → Memory) (row : Nat) {col : Nat}
    (hcol : col < k) (r : Nat) : writeColumn k c p src row col r =
      if r = row then
        gfMul (gfInverse (divideFactor k c (p row)).2) ((divideFactor k c (p row)).1 col)
      else src col r := by
  have hrow : writeColumn k c p src row col = fun r => if r = row then
      gfMul (gfInverse (divideFactor k c (p row)).2) ((divideFactor k c (p row)).1 col)
      else src col r := if_pos hcol
  rw [hrow]

theorem writeColumn_outside (k : Nat) (c p : Nat → UInt8) (src : Nat → Memory) (row : Nat)
    {col : Nat} (hcol : k ≤ col) : writeColumn k c p src row col = src col :=
  if_neg (Nat.not_lt.mpr hcol)

theorem invertVdm_apply {k : Nat} (hk : k ≠ 1) (src : Nat → Memory) {col r : Nat} (hcol : col < k)
    (hr : r < k) : invertVdm src k col r =
      gfMul (gfInverse (divideFactor k (vdmCoeffs k fun i => src i 1) (src r 1)).2)
        ((divideFactor k (vdmCoeffs k fun i => src i 1) (src r 1)).1 col) := by
  have hloop := foldl_range_invariant
    (I := fun n src' => ∀ col r, col < k → r < n → src' col r =
      gfMul (gfInverse (divideFactor k (vdmCoeffs k fun i => src i 1) (src r 1)).2)
        ((divideFactor k (vdmCoeffs k fun i => src i 1) (src r 1)).1 col))
    (writeColumn k (vdmCoeffs k fun i => src i 1) fun i => src i 1) k src
    (fun col r _ hr => absurd hr (Nat.not_lt_zero r)) (by
      intro n src' _ h col r hcol hr
      rw [writeColumn_apply _ _ _ _ _ hcol]
      by_cases hrn : r = n
      · rw [if_pos hrn, hrn]
      · rw [if_neg hrn]
        exact h col r hcol (by omega))
  rw [invertVdm, if_neg hk]
  exact hloop col r hcol hr

/-- Only the first `k` rows are written. -/
theorem invertVdm_outside (src : Nat → Memory) {k row : Nat} (hrow : k ≤ row) :
    invertVdm src k row = src row := by
  by_cases hk : k = 1
  · rw [invertVdm, if_pos hk]
  · rw [invertVdm, if_neg hk]
    exact foldl_range_invariant (I := fun _ src' => src' row = src row) _ k src rfl
      (fun n src' _ h => (writeColumn_outside k _ _ src' n hrow).trans h)

variable {k : Nat} {p : Nat → UInt8}

/-- The coefficients of the polynomial that is divided, from degree one on. -/
def vdmDividend (k : Nat) (p : Nat → UInt8) (i : Nat) : Gf :=
  if i < k then ⟨vdmCoeffs k p i⟩ else ⟨1⟩

/-- The quotients at the points differ as the values of the product do. -/
theorem quotient_eval (hk : 0 < k) (i r : Nat) :
    ((⟨p i⟩ : Gf) - ⟨p r⟩) * ∑ j ∈ Finset.range k,
        ⟨(divideFactor k (vdmCoeffs k p) (p r)).1 j⟩ * (⟨p i⟩ : Gf) ^ j =
      vdmProduct (fun i => ⟨p i⟩) k ⟨p i⟩ - vdmProduct (fun i => ⟨p i⟩) k ⟨p r⟩ := by
  have hdiv := divideFactor_spec hk (vdmCoeffs k p) (p r)
  have hvalue : ∀ y : Gf, ∑ i ∈ Finset.range k, vdmDividend k p (i + 1) * y ^ (i + 1) =
      vdmProduct (fun i => ⟨p i⟩) k y - ⟨vdmCoeffs k p 0⟩ := by
    intro y
    have hsum := Finset.sum_range_succ' (fun i => vdmDividend k p i * y ^ i) k
    rw [Finset.sum_range_succ, pow_zero, mul_one] at hsum
    have hlow : ∑ i ∈ Finset.range k, vdmDividend k p i * y ^ i =
        ∑ i ∈ Finset.range k, (⟨vdmCoeffs k p (k - k + i)⟩ : Gf) * y ^ i := by
      refine Finset.sum_congr rfl fun i hi => ?_
      rw [vdmDividend, if_pos (Finset.mem_range.mp hi), Nat.sub_self, Nat.zero_add]
    have htop : vdmDividend k p k = 1 := if_neg (Nat.lt_irrefl k)
    have hconst : vdmDividend k p 0 = ⟨vdmCoeffs k p 0⟩ := if_pos hk
    have heval := vdmCoeffs_eval hk p y
    rw [tailEval] at heval
    rw [hlow, htop, hconst, one_mul] at hsum
    linear_combination heval - hsum
  have h := syntheticDivision (a := vdmDividend k p) (k := k) (z := ⟨p r⟩)
    (b := fun j => if j < k then ⟨(divideFactor k (vdmCoeffs k p) (p r)).1 j⟩ else 0)
    (by
      intro j hj
      rw [if_pos hj, vdmDividend]
      by_cases hlast : j + 1 < k
      · rw [if_pos hlast, if_pos hlast, hdiv.quotient j (Nat.zero_le j) (by omega)]
        apply Gf.ext
        rw [Gf.byte_add, gfMul_byte]
      · rw [if_neg hlast, if_neg hlast, mul_zero, add_zero, show j = k - 1 by omega, hdiv.lead])
    (if_neg (Nat.lt_irrefl k)) ⟨p i⟩
  rw [hvalue, hvalue, sub_sub_sub_cancel_right] at h
  refine Eq.trans (congrArg _ (Finset.sum_congr rfl fun j hj => ?_)) h
  rw [if_pos (Finset.mem_range.mp hj)]

theorem vdmProduct_zero (q : Nat → Gf) {n : Nat} (hn : 2 ≤ n) :
    vdmProduct q n (q 0) =
      q 0 * q 1 * ∏ i ∈ Finset.range (n - 2), (q 0 + q (i + 2)) := by
  have hself : q 0 + q 0 = 0 := Gf.ext UInt8.xor_self
  rw [vdmProduct, if_neg (by omega), hself, zero_add]

theorem vdmProduct_later (q : Nat → Gf) {n j : Nat} (hj : 2 ≤ j) (hjn : j < n) :
    vdmProduct q n (q j) = 0 := by
  have hself : q j + q (j - 2 + 2) = 0 := by
    rw [show j - 2 + 2 = j by omega]
    exact Gf.ext UInt8.xor_self
  rw [vdmProduct, if_neg (by omega),
    Finset.prod_eq_zero (Finset.mem_range.mpr (show j - 2 < n - 2 by omega)) hself, mul_zero]

/-- The product that is divided takes one value at all points exactly if the dropped coefficient is
harmless. -/
theorem vdmProduct_constant_iff {q : Nat → Gf} (hk : 2 ≤ k)
    (hq : ∀ i j, i < k → j < k → q i = q j → i = j) :
    (∀ i r, i < k → r < k → vdmProduct q k (q i) = vdmProduct q k (q r)) ↔
      k ≤ 2 ∨ q 0 = 0 ∨ q 1 = 0 := by
  have hsub : ∀ a b : Gf, a + b = 0 → a = b := fun a b h =>
    sub_eq_zero.mp ((Gf.sub_eq_add a b).trans h)
  constructor
  · intro h
    by_cases hle : k ≤ 2
    · exact .inl hle
    · have h02 := h 0 2 (by omega) (by omega)
      rw [vdmProduct_zero q hk, vdmProduct_later q (Nat.le_refl 2) (by omega)] at h02
      rcases mul_eq_zero.mp h02 with hpair | hprod
      · exact .inr (mul_eq_zero.mp hpair)
      · obtain ⟨i, hi, hzero⟩ := Finset.prod_eq_zero_iff.mp hprod
        have hilt := Finset.mem_range.mp hi
        exact absurd (hq 0 (i + 2) (by omega) (by omega) (hsub _ _ hzero)) (by omega)
  · have hone : vdmProduct q k (q 1) =
        q 0 * q 1 * ∏ i ∈ Finset.range (k - 2), (q 1 + q (i + 2)) := by
      have hself : q 1 + q 0 + q 1 = q 0 := by
        rw [add_comm (q 1), add_assoc]
        exact (congrArg _ (Gf.ext UInt8.xor_self : q 1 + q 1 = 0)).trans (add_zero _)
      rw [vdmProduct, if_neg (by omega), hself, mul_comm (q 1)]
    have hvalue : k ≤ 2 ∨ q 0 = 0 ∨ q 1 = 0 → ∃ v, ∀ i, i < k → vdmProduct q k (q i) = v := by
      rintro (hle | hpair)
      · refine ⟨q 0 * q 1, fun i hi => ?_⟩
        have htwo : k - 2 = 0 := by omega
        obtain rfl | rfl : i = 0 ∨ i = 1 := by omega
        · rw [vdmProduct_zero q hk, htwo, Finset.prod_range_zero, mul_one]
        · rw [hone, htwo, Finset.prod_range_zero, mul_one]
      · refine ⟨0, fun i hi => ?_⟩
        have hzero : q 0 * q 1 = 0 := mul_eq_zero.mpr hpair
        by_cases hlate : 2 ≤ i
        · exact vdmProduct_later q hlate hi
        · obtain rfl | rfl : i = 0 ∨ i = 1 := by omega
          · rw [vdmProduct_zero q hk, hzero, zero_mul]
          · rw [hone, hzero, zero_mul]
    intro h i r hi hr
    obtain ⟨v, hv⟩ := hvalue h
    rw [hv i hi, hv r hr]

/-- A Vandermonde matrix of the points in its second column. -/
def IsVandermonde (k : Nat) (src : Nat → Memory) : Prop :=
  ∀ i j, i < k → j < k → (⟨src i j⟩ : Gf) = ⟨src i 1⟩ ^ j

theorem invertVdm_inverse_iff {src : Nat → Memory} (hk : 0 < k) (hsrc : IsVandermonde k src)
    (hdistinct : ∀ i j, i < k → j < k → src i 1 = src j 1 → i = j) :
    toMatrix k src * toMatrix k (invertVdm src k) = 1 ↔
      k ≤ 2 ∨ src 0 1 = 0 ∨ src 1 1 = 0 := by
  have hmat : toMatrix k src = Matrix.vandermonde fun i : Fin k => (⟨src i 1⟩ : Gf) :=
    Matrix.ext fun i j => hsrc i j i.isLt j.isLt
  by_cases hone : k = 1
  · subst hone
    refine iff_of_true ?_ (.inl (by decide))
    have hunit : toMatrix 1 src = 1 := by
      refine Matrix.ext fun i j => ?_
      rw [hmat, Subsingleton.elim j i, Matrix.one_apply_eq, Matrix.vandermonde_apply,
        Fin.val_eq_zero, pow_zero]
    rw [invertVdm, if_pos rfl, hunit, one_mul]
  have hinv : toMatrix k (invertVdm src k) = Matrix.of fun j r : Fin k =>
      (∑ j : Fin k, (⟨(divideFactor k (vdmCoeffs k fun i => src i 1) (src r 1)).1 j⟩ : Gf) *
        (⟨src r 1⟩ : Gf) ^ (j : ℕ))⁻¹ *
        ⟨(divideFactor k (vdmCoeffs k fun i => src i 1) (src r 1)).1 j⟩ := by
    refine Matrix.ext fun j r => Gf.ext ?_
    have hvalue := (divideFactor_spec hk (vdmCoeffs k fun i => src i 1) (src r 1)).value
    simp only [Nat.sub_zero, Nat.zero_add] at hvalue
    rw [Finset.sum_range] at hvalue
    rw [toMatrix_apply, Matrix.of_apply, ← hvalue, invertVdm_apply hone src j.isLt r.isLt,
      gfMul_byte, gfInverse_byte]
  have hinj : Function.Injective fun i : Fin k => (⟨src i 1⟩ : Gf) := fun i j h =>
    Fin.ext (hdistinct i j i.isLt j.isLt (congrArg Gf.byte h))
  rw [hmat, hinv, vandermonde_inverse_iff hinj]
  · refine Iff.trans ?_ ((vdmProduct_constant_iff (q := fun i => ⟨src i 1⟩) (by omega)
      fun i j hi hj h => hdistinct i j hi hj (congrArg Gf.byte h)).trans ?_)
    · have heval := fun i r : Nat => quotient_eval (p := fun i => src i 1) hk i r
      constructor
      · intro h i r hi hr
        by_cases hir : i = r
        · rw [hir]
        · have hz := h ⟨i, hi⟩ ⟨r, hr⟩ fun h => hir (Fin.mk.inj h)
          have he := heval i r
          rw [Finset.sum_range, hz, mul_zero] at he
          exact (sub_eq_zero.mp he.symm)
      · intro h i r hir
        have he := heval i r
        rw [Finset.sum_range, h i r i.isLt r.isLt, sub_self] at he
        refine (mul_eq_zero.mp he).resolve_left fun hz => hir ?_
        exact hinj (sub_eq_zero.mp hz)
    · exact or_congr_right (or_congr (Gf.ext_iff.trans Iff.rfl) (Gf.ext_iff.trans Iff.rfl))
  · intro r hzero
    have hlead := (divideFactor_spec hk (vdmCoeffs k fun i => src i 1) (src r 1)).lead
    have hlast : (divideFactor k (vdmCoeffs k fun i => src i 1) (src r 1)).1 (k - 1) = 0 :=
      congrArg Gf.byte (congrFun hzero ⟨k - 1, by omega⟩)
    exact absurd (hlead.symm.trans hlast) (by decide)

/-- For distinct points `invert_vdm` leaves the inverse exactly if one of the first two points is
zero, or if there are at most two; it writes no other row. -/
theorem invertVdm_exact {k : Nat} {src : Nat → Memory} (hk : 0 < k) (hsrc : IsVandermonde k src)
    (hdistinct : ∀ i j, i < k → j < k → src i 1 = src j 1 → i = j) :
    (toMatrix k src * toMatrix k (invertVdm src k) = 1 ↔
      k ≤ 2 ∨ src 0 1 = 0 ∨ src 1 1 = 0) ∧
    ∀ row, k ≤ row → invertVdm src k row = src row :=
  ⟨invertVdm_inverse_iff hk hsrc hdistinct, fun _ hrow => invertVdm_outside src hrow⟩

/-- The powers of three consecutive powers of the generator. -/
def threePoints : Nat → Memory := fun i j => gfPower (i * j)

/-- Three points none of which is zero. -/
theorem invertVdm_exact_three :
    (toMatrix 3 threePoints * toMatrix 3 (invertVdm threePoints 3) = 1 ↔
      3 ≤ 2 ∨ threePoints 0 1 = 0 ∨ threePoints 1 1 = 0) ∧
    ∀ row, 3 ≤ row → invertVdm threePoints 3 row = threePoints row :=
  invertVdm_exact (by decide)
    (fun i j _ _ => (congrArg Gf.mk (congrArg gfPower (by rw [Nat.mul_one]))).trans
      (Gf.pow_gfPower (i * 1) j).symm)
    (fun i j hi hj h => by
      have heq := gfPower_injOn (by simp only [GF_SIZE]; omega) (by simp only [GF_SIZE]; omega) h
      omega)

end WspaceScout
