import WspaceScout.Foundation.CountedLoop
import WspaceScout.Rate.BaseRate

/-!
# Loss maps

A `LossMap` keeps an estimate of the loss for each rate of a table: a number between 0 and 1, or
`INVALID_LOSS_RATE` if there is no information. The assertions of `UpdateLoss` on its argument are
what lets an estimate be of the type `LossRate`.

## Main definitions

- `LossMap.updateLoss`, `LossMap.getLossRate`
- `calcLossRatesFrontBack` — the loss behind two antennas
-/

namespace WspaceScout

open Foundation

/-- The assertions of the rate adaptation that can fail. -/
inductive RateFault where
  /-- `LossMap`: the rate is not in the map -/
  | lossMapRate
  /-- `UpdateLoss`: the loss or the weight is out of range -/
  | lossRange
  /-- a division by a packet duration of zero -/
  | pktDuration
  /-- `ApplyFECForData` -/
  | fecData
  /-- `ApplyFECForTimeOut` -/
  | fecTimeOut
  /-- `ApplyFECForRetransmission`, the check of `k` and the one of `n` -/
  | fecRetransK
  | fecRetransN
  /-- `ApplyRateScout`: there is no rate -/
  | maxInd
  /-- `SampleRatesRandom`: too many samples -/
  | sampleBound
  /-- a baseline version without its algorithm -/
  | noBaseline
  deriving DecidableEq, Repr

def INVALID_LOSS_RATE : ℚ := -1

/-- An estimate of a loss rate, or none. -/
def IsLossRate (x : ℚ) : Prop := x = INVALID_LOSS_RATE ∨ 0 ≤ x ∧ x ≤ 1

instance (x : ℚ) : Decidable (IsLossRate x) :=
  inferInstanceAs (Decidable (x = INVALID_LOSS_RATE ∨ 0 ≤ x ∧ x ≤ 1))

theorem ne_invalid_of_nonneg {x : ℚ} (hx : 0 ≤ x) : x ≠ INVALID_LOSS_RATE := by
  rw [INVALID_LOSS_RATE]
  linarith

theorem max_isLossRate {x y : ℚ} (hx : IsLossRate x) (hy : IsLossRate y) :
    IsLossRate (max x y) := by
  obtain hmax | hmax := max_choice x y
  · rwa [hmax]
  · rwa [hmax]

/-- The estimates that a loss map can hold. -/
abbrev LossRate := { x : ℚ // IsLossRate x }

namespace LossRate

/-- No information. -/
def invalid : LossRate := ⟨INVALID_LOSS_RATE, .inl rfl⟩

theorem between {x : LossRate} (h : x.val ≠ INVALID_LOSS_RATE) : 0 ≤ x.val ∧ x.val ≤ 1 :=
  x.property.resolve_left h

/-- The new estimate in `UpdateLoss`: the old one keeps the weight `previousWeight`. -/
def blend (old loss : LossRate) (previousWeight : ℚ) (hweight : previousWeight ≤ 1) : LossRate :=
  if h : 0 < previousWeight ∧ loss.val ≠ INVALID_LOSS_RATE ∧ old.val ≠ INVALID_LOSS_RATE then
    ⟨old.val * previousWeight + loss.val * (1 - previousWeight), by
      obtain ⟨hpos, hloss, hold⟩ := h
      obtain ⟨hloss0, hloss1⟩ := between hloss
      obtain ⟨hold0, hold1⟩ := between hold
      exact .inr ⟨by nlinarith, by nlinarith⟩⟩
  else if previousWeight ≤ 0 ∨ old.val = INVALID_LOSS_RATE then loss
  else old

/-- Without a previous weight the new loss replaces the old one. -/
theorem blend_neg (old loss : LossRate) (hweight : (-1 : ℚ) ≤ 1) :
    old.blend loss (-1) hweight = loss := by
  rw [blend, dif_neg (fun h => absurd h.1 (by norm_num)), if_pos (.inl (by norm_num))]

variable {old loss : LossRate} {previousWeight : ℚ} {hweight : previousWeight ≤ 1}

/-- An invalid loss leaves the estimate, if there is a previous weight and an estimate. -/
theorem blend_invalid (hpos : 0 < previousWeight) (hold : old.val ≠ INVALID_LOSS_RATE)
    (hloss : loss.val = INVALID_LOSS_RATE) : old.blend loss previousWeight hweight = old := by
  rw [blend, dif_neg fun h => h.2.1 hloss, if_neg]
  exact not_or.mpr ⟨not_le.mpr hpos, hold⟩

theorem blend_val (hpos : 0 < previousWeight) (hold : old.val ≠ INVALID_LOSS_RATE)
    (hloss : loss.val ≠ INVALID_LOSS_RATE) : (old.blend loss previousWeight hweight).val =
      old.val * previousWeight + loss.val * (1 - previousWeight) := by
  rw [blend, dif_pos ⟨hpos, hloss, hold⟩]

/-- A known estimate stays known. -/
theorem blend_known (hpos : 0 < previousWeight) (hold : old.val ≠ INVALID_LOSS_RATE) :
    (old.blend loss previousWeight hweight).val ≠ INVALID_LOSS_RATE := by
  by_cases hloss : loss.val = INVALID_LOSS_RATE
  · rwa [blend_invalid hpos hold hloss]
  · rw [blend_val hpos hold hloss]
    apply ne_invalid_of_nonneg
    have hweight0 : 0 ≤ 1 - previousWeight := by linarith
    exact add_nonneg (mul_nonneg (between hold).1 hpos.le)
      (mul_nonneg (between hloss).1 hweight0)

end LossRate

/-- An estimate for each rate of a table. -/
abbrev LossMap (rates : List Nat) := KeyedTable rates LossRate

namespace LossMap

variable {rates : List Nat}

/-- The constructor. -/
def init : LossMap rates := fun _ => .invalid

/-- `UpdateLoss`. -/
def updateLoss (m : LossMap rates) (rate : Nat) (loss previousWeight : ℚ) :
    Except RateFault (LossMap rates) :=
  if rate ∈ rates then
    if hloss : IsLossRate loss then
      if hweight : previousWeight ≤ 1 then
        .ok (m.modify rate fun old => old.blend ⟨loss, hloss⟩ previousWeight hweight)
      else .error .lossRange
    else .error .lossRange
  else .error .lossMapRate

/-- `GetLossRate`. -/
def getLossRate (m : LossMap rates) (rate : Nat) : Except RateFault LossRate :=
  if h : rate ∈ rates then .ok (m ⟨rates.idxOf rate, List.idxOf_lt_length_of_mem h⟩)
  else .error .lossMapRate

theorem getLossRate_mem (m : LossMap rates) {rate : Nat} (h : rate ∈ rates) :
    ∃ loss, m.getLossRate rate = .ok loss := ⟨_, dif_pos h⟩

theorem updateLoss_ok (m : LossMap rates) {rate : Nat} {loss previousWeight : ℚ}
    (hrate : rate ∈ rates) (hloss : IsLossRate loss) (hweight : previousWeight ≤ 1) :
    ∃ m', m.updateLoss rate loss previousWeight = .ok m' :=
  ⟨_, by rw [updateLoss, if_pos hrate, dif_pos hloss, dif_pos hweight]⟩

/-- `UpdateLoss` changes one estimate. -/
theorem updateLoss_spec {m m' : LossMap rates} {rate : Nat} {loss previousWeight : ℚ}
    (h : m.updateLoss rate loss previousWeight = .ok m') :
    ∃ (hloss : IsLossRate loss) (hweight : previousWeight ≤ 1), ∀ rate' old,
      m.getLossRate rate' = .ok old → m'.getLossRate rate' =
        .ok (if rate' = rate then old.blend ⟨loss, hloss⟩ previousWeight hweight else old) := by
  rw [updateLoss] at h
  split at h
  · next hrate =>
    split at h
    · next hloss =>
      split at h
      · next hweight =>
        cases h
        refine ⟨hloss, hweight, fun rate' old hold => ?_⟩
        by_cases hmem : rate' ∈ rates
        · rw [getLossRate, dif_pos hmem] at hold ⊢
          cases hold
          by_cases heq : rate' = rate
          · rw [if_pos heq, KeyedTable.modify, if_pos (congrArg rates.idxOf heq.symm)]
          · rw [if_neg heq, KeyedTable.modify, if_neg]
            exact fun hidx => heq ((List.idxOf_inj hrate).mp hidx).symm
        · rw [getLossRate, dif_neg hmem] at hold
          cases hold
      · cases h
    · cases h
  · cases h

/-! ### Loops that update estimates -/

section Loop

variable {ι : Type*} {k : ι → Nat} {g : ι → Except RateFault ℚ} {previousWeight : ℚ}
  {l : List ι} {m m' : LossMap rates}

/-- No assertion fails in a loop over valid losses for rates of the table. -/
theorem updateAll_ok (hweight : previousWeight ≤ 1)
    (hl : ∀ i ∈ l, k i ∈ rates ∧ ∃ loss, g i = .ok loss ∧ IsLossRate loss) :
    ∃ m', (l.foldlM (fun (m : LossMap rates) i => do
      let loss ← g i
      m.updateLoss (k i) loss previousWeight) m) = .ok m' := by
  induction l generalizing m with
  | nil => exact ⟨m, rfl⟩
  | cons i l ih =>
    obtain ⟨hkey, loss, hloss, hvalid⟩ := hl i List.mem_cons_self
    obtain ⟨m₁, hm₁⟩ := m.updateLoss_ok hkey hvalid hweight
    obtain ⟨m', hm'⟩ := @ih m₁ fun j hj => hl j (List.mem_cons_of_mem i hj)
    refine ⟨m', ?_⟩
    rw [List.foldlM_cons, hloss]
    show (m.updateLoss (k i) loss previousWeight >>= _) = _
    rw [hm₁]
    exact hm'

/-- The rule for one estimate: `P` is kept by every pass for its rate. -/
theorem updateAll_rule {P : LossRate → Prop} {rate : Nat} {old : LossRate}
    (h : (l.foldlM (fun (m : LossMap rates) i => do
      let loss ← g i
      m.updateLoss (k i) loss previousWeight) m) = .ok m')
    (hold : m.getLossRate rate = .ok old) (hP : P old)
    (hstep : ∀ i ∈ l, k i = rate → ∀ (old loss : LossRate) (hweight : previousWeight ≤ 1),
      g i = .ok loss.val → P old → P (old.blend loss previousWeight hweight)) :
    ∃ new, m'.getLossRate rate = .ok new ∧ P new := by
  induction l generalizing m old with
  | nil =>
    cases h
    exact ⟨old, hold, hP⟩
  | cons i l ih =>
    rw [List.foldlM_cons] at h
    obtain ⟨m₁, hm₁, h⟩ := bind_eq_ok.mp h
    obtain ⟨loss, hloss, hm₁⟩ := bind_eq_ok.mp hm₁
    obtain ⟨hvalid, hweight, hget⟩ := updateLoss_spec hm₁
    refine ih h (hget rate old hold) ?_ fun j hj => hstep j (List.mem_cons_of_mem i hj)
    split
    · next heq => exact hstep i List.mem_cons_self heq.symm old ⟨loss, hvalid⟩ hweight hloss hP
    · exact hP

/-- A loop without a previous weight replaces the estimates. -/
theorem updateAll_replaces {i : ι} (hi : i ∈ l) (hkey : k i ∈ rates)
    (hsame : ∀ j ∈ l, k j = k i → g j = g i)
    (h : (l.foldlM (fun (m : LossMap rates) i => do
      let loss ← g i
      m.updateLoss (k i) loss (-1)) m) = .ok m') :
    ∃ new, m'.getLossRate (k i) = .ok new ∧ g i = .ok new.val := by
  obtain ⟨l₁, l₂, rfl⟩ := List.append_of_mem hi
  rw [List.foldlM_append] at h
  obtain ⟨m₁, -, h⟩ := bind_eq_ok.mp h
  rw [List.foldlM_cons] at h
  obtain ⟨m₂, hm₂, h⟩ := bind_eq_ok.mp h
  obtain ⟨loss, hloss, hm₂⟩ := bind_eq_ok.mp hm₂
  obtain ⟨hvalid, hweight, hget⟩ := updateLoss_spec hm₂
  obtain ⟨old, hold⟩ := m₁.getLossRate_mem hkey
  have hnew := hget (k i) old hold
  rw [if_pos rfl, LossRate.blend_neg] at hnew
  -- later passes for the rate write the same loss
  refine updateAll_rule (P := fun new => g i = .ok new.val) h hnew hloss ?_
  intro j hj hkeys old loss' hweight' hloss' _
  rw [LossRate.blend_neg, ← hloss', hsame j (by simp [hj]) hkeys]

/-- A loop with one pass for each rate blends the losses in. -/
theorem updateAll_blends {i : ι} {loss : ℚ} {old : LossRate} (hi : i ∈ l) (hkeys : (l.map k).Nodup)
    (hloss : g i = .ok loss) (hold : m.getLossRate (k i) = .ok old)
    (h : (l.foldlM (fun (m : LossMap rates) i => do
      let loss ← g i
      m.updateLoss (k i) loss previousWeight) m) = .ok m') :
    ∃ (hvalid : IsLossRate loss) (hweight : previousWeight ≤ 1),
      m'.getLossRate (k i) = .ok (old.blend ⟨loss, hvalid⟩ previousWeight hweight) := by
  obtain ⟨l₁, l₂, rfl⟩ := List.append_of_mem hi
  rw [List.map_append, List.map_cons, List.nodup_middle, List.nodup_cons] at hkeys
  have hother : ∀ j, j ∈ l₁ ∨ j ∈ l₂ → k j ≠ k i := by
    rintro j hj heq
    refine hkeys.1 (List.mem_append.mpr ?_)
    rw [← heq]
    exact hj.imp (List.mem_map_of_mem (f := k)) (List.mem_map_of_mem (f := k))
  rw [List.foldlM_append] at h
  obtain ⟨m₁, hm₁, h⟩ := bind_eq_ok.mp h
  obtain ⟨_, hold₁, rfl⟩ := updateAll_rule (P := (· = old)) hm₁ hold rfl fun j hj heq =>
    absurd heq (hother j (.inl hj))
  rw [List.foldlM_cons, hloss] at h
  obtain ⟨m₂, hm₂, h⟩ := bind_eq_ok.mp h
  obtain ⟨hvalid, hweight, hget⟩ := updateLoss_spec hm₂
  have hnew := hget (k i) _ hold₁
  rw [if_pos rfl] at hnew
  obtain ⟨_, hnew', rfl⟩ := updateAll_rule (P := (· = _)) h hnew rfl fun j hj heq =>
    absurd heq (hother j (.inr hj))
  exact ⟨hvalid, hweight, hnew'⟩

end Loop

end LossMap

/-- `CalcLossRatesFrontBack`. -/
def calcLossRatesFrontBack (lossFront lossBack : ℚ) : ℚ :=
  if lossFront = INVALID_LOSS_RATE ∨ lossBack = INVALID_LOSS_RATE then max lossFront lossBack
  else if lossFront = 0 ∨ lossBack = 0 then max lossFront lossBack / 2
  else lossFront * lossBack

end WspaceScout
