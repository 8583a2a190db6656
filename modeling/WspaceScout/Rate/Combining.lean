import WspaceScout.Rate.ScoutRate

/-!
# Combining the losses of two antennas

A packet is lost if both antennas lose it, so known losses are multiplied. A loss of exactly zero
is not trusted: then half of the larger loss is taken. This half can be more than the product of
two small losses, so the combination is monotone only up to this jump.

## Main results

- `calcLossRatesFrontBack_le_iff` — where higher losses give a higher combination
- `combinedLoss_stored` — what `CalcLossRatesAfterCombine` leaves in the combined map
- `lossCombine_mono` — the jump is the only exception, in the map as well
-/

namespace WspaceScout

open Foundation

variable {f b f' b' : ℚ}

/-- One of the lower losses is zero and the halving takes it above the product of the higher
ones. -/
def Overshoots (f b f' b' : ℚ) : Prop :=
  (f = 0 ∨ b = 0) ∧ 0 < f' ∧ 0 < b' ∧ f' * b' < max f b / 2

theorem calcLossRatesFrontBack_zero (hf : 0 ≤ f) (hb : 0 ≤ b) (h : f = 0 ∨ b = 0) :
    calcLossRatesFrontBack f b = max f b / 2 := by
  rw [calcLossRatesFrontBack, if_neg, if_pos h]
  exact not_or.mpr ⟨ne_invalid_of_nonneg hf, ne_invalid_of_nonneg hb⟩

theorem calcLossRatesFrontBack_pos (hf : 0 < f) (hb : 0 < b) :
    calcLossRatesFrontBack f b = f * b := by
  rw [calcLossRatesFrontBack, if_neg, if_neg]
  · exact not_or.mpr ⟨hf.ne', hb.ne'⟩
  · exact not_or.mpr ⟨ne_invalid_of_nonneg hf.le, ne_invalid_of_nonneg hb.le⟩

/-- Lower losses give a combination that is not higher, unless the halving overshoots. -/
theorem calcLossRatesFrontBack_le_iff (hf : 0 ≤ f) (hff' : f ≤ f') (hb : 0 ≤ b) (hbb' : b ≤ b') :
    calcLossRatesFrontBack f b ≤ calcLossRatesFrontBack f' b' ↔ ¬Overshoots f b f' b' := by
  have hf' := hf.trans hff'
  have hb' := hb.trans hbb'
  by_cases hzero : f = 0 ∨ b = 0
  · rw [calcLossRatesFrontBack_zero hf hb hzero]
    by_cases hzero' : f' = 0 ∨ b' = 0
    · -- both are halved
      rw [calcLossRatesFrontBack_zero hf' hb' hzero']
      refine iff_of_true ?_ ?_
      · linarith [max_le_max hff' hbb']
      · rintro ⟨-, hf'pos, hb'pos, -⟩
        exact hzero'.elim hf'pos.ne' hb'pos.ne'
    · obtain ⟨hf'ne, hb'ne⟩ := not_or.mp hzero'
      have hf'pos := lt_of_le_of_ne hf' (Ne.symm hf'ne)
      have hb'pos := lt_of_le_of_ne hb' (Ne.symm hb'ne)
      rw [calcLossRatesFrontBack_pos hf'pos hb'pos, ← not_lt, Overshoots]
      simp only [hzero, hf'pos, hb'pos, true_and]
  · obtain ⟨hfne, hbne⟩ := not_or.mp hzero
    have hfpos := lt_of_le_of_ne hf (Ne.symm hfne)
    have hbpos := lt_of_le_of_ne hb (Ne.symm hbne)
    rw [calcLossRatesFrontBack_pos hfpos hbpos,
      calcLossRatesFrontBack_pos (hfpos.trans_le hff') (hbpos.trans_le hbb')]
    exact iff_of_true (mul_le_mul hff' hbb' hb hf') fun h => hzero h.1

/-- The combination of two losses is valid: the missing one is never multiplied or halved. -/
theorem calcLossRatesFrontBack_isLossRate (hf : IsLossRate f) (hb : IsLossRate b) :
    IsLossRate (calcLossRatesFrontBack f b) := by
  rw [calcLossRatesFrontBack]
  split
  · exact max_isLossRate hf hb
  · next hknown =>
    obtain ⟨hfne, hbne⟩ := not_or.mp hknown
    obtain ⟨hf0, hf1⟩ := hf.resolve_left hfne
    obtain ⟨hb0, hb1⟩ := hb.resolve_left hbne
    split
    · have hmax0 : 0 ≤ max f b := hf0.trans (le_max_left f b)
      have hmax1 : max f b ≤ 1 := max_le hf1 hb1
      exact .inr ⟨by linarith, by linarith⟩
    · exact .inr ⟨mul_nonneg hf0 hb0, mul_le_one₀ hf1 hb0 hb1⟩

/-! ### The combined map -/

section Stored

variable {rates : List Nat} {s t : ScoutRateAdaptation rates} {r : Readings rates} {rate : Nat}

/-- The combined loss of a rate is stored, and the maps that it was computed from have stayed. -/
theorem combinedLoss_stored (h : s.calcLossRatesAfterCombine r = .ok t) (hrate : rate ∈ rates) :
    ∃ loss, t.lossMapCombine.getLossRate rate = .ok loss ∧ t.combinedLoss rate = .ok loss.val := by
  obtain ⟨s₁, -, h⟩ := bind_eq_ok.mp h
  obtain ⟨m, hloop, h⟩ := bind_eq_ok.mp h
  cases h
  have hstored := LossMap.updateAll_replaces (k := id) hrate hrate
    (fun j _ hj => congrArg s₁.combinedLoss hj) hloop
  exact hstored

theorem combinedLoss_delay (hmode : t.combineMode = .delayCombine) {front back : LossRate}
    (hfront : t.lossMapFront.getLossRate rate = .ok front)
    (hback : t.lossMapBack.getLossRate rate = .ok back) :
    t.combinedLoss rate = .ok (calcLossRatesFrontBack front.val back.val) := by
  rw [ScoutRateAdaptation.combinedLoss, hmode]
  dsimp only
  rw [hfront, hback]
  rfl

theorem combinedLoss_scout (hmode : t.combineMode = .scoutCombine) {scout front back : LossRate}
    (hscout : t.lossMapScout.getLossRate rate = .ok scout)
    (hfront : t.lossMapFront.getLossRate rate = .ok front)
    (hback : t.lossMapBack.getLossRate rate = .ok back) :
    t.combinedLoss rate =
      .ok (calcLossRatesFrontBack (max scout.val front.val) back.val) := by
  rw [ScoutRateAdaptation.combinedLoss, hmode]
  dsimp only
  rw [hscout, hfront, hback]
  rfl

/-- The combined loss of a rate of the table is valid. -/
theorem combinedLoss_ok (s : ScoutRateAdaptation rates) {rate : Nat} (hrate : rate ∈ rates) :
    ∃ loss, s.combinedLoss rate = .ok loss ∧ IsLossRate loss := by
  obtain ⟨front, hfront⟩ := s.lossMapFront.getLossRate_mem hrate
  obtain ⟨back, hback⟩ := s.lossMapBack.getLossRate_mem hrate
  obtain ⟨scout, hscout⟩ := s.lossMapScout.getLossRate_mem hrate
  cases hmode : s.combineMode with
  | frontOnly =>
    refine ⟨front.val, ?_, front.property⟩
    rw [ScoutRateAdaptation.combinedLoss, hmode]
    dsimp only
    rw [hfront]
    rfl
  | backOnly =>
    refine ⟨back.val, ?_, back.property⟩
    rw [ScoutRateAdaptation.combinedLoss, hmode]
    dsimp only
    rw [hback]
    rfl
  | delayCombine => exact ⟨_, combinedLoss_delay hmode hfront hback,
      calcLossRatesFrontBack_isLossRate front.property back.property⟩
  | scoutCombine => exact ⟨_, combinedLoss_scout hmode hscout hfront hback,
      calcLossRatesFrontBack_isLossRate (max_isLossRate scout.property front.property)
        back.property⟩

end Stored

/-- The combination of lower losses is not higher except where the halving overshoots, and the same
is true of the losses that two runs of the loop store for a rate. -/
theorem lossCombine_mono :
    (∀ f b f' b' : ℚ, 0 ≤ f → f ≤ f' → 0 ≤ b → b ≤ b' →
      (calcLossRatesFrontBack f b ≤ calcLossRatesFrontBack f' b' ↔ ¬Overshoots f b f' b')) ∧
    ∀ (rates : List Nat) (s s' t t' : ScoutRateAdaptation rates) (r r' : Readings rates)
      (rate : Nat), rate ∈ rates → s.calcLossRatesAfterCombine r = .ok t →
      s'.calcLossRatesAfterCombine r' = .ok t' → t.combineMode = t'.combineMode →
      ∀ front back front' back' : LossRate,
        t.lossMapFront.getLossRate rate = .ok front → t.lossMapBack.getLossRate rate = .ok back →
        t'.lossMapFront.getLossRate rate = .ok front' →
        t'.lossMapBack.getLossRate rate = .ok back' →
        front.val ≠ INVALID_LOSS_RATE → back.val ≠ INVALID_LOSS_RATE →
        front.val ≤ front'.val → back.val ≤ back'.val →
        ∃ loss loss', t.lossMapCombine.getLossRate rate = .ok loss ∧
          t'.lossMapCombine.getLossRate rate = .ok loss' ∧
          (t.combineMode = .delayCombine →
            (loss.val ≤ loss'.val ↔ ¬Overshoots front.val back.val front'.val back'.val)) ∧
          (t.combineMode = .scoutCombine → ∀ scout scout' : LossRate,
            t.lossMapScout.getLossRate rate = .ok scout →
            t'.lossMapScout.getLossRate rate = .ok scout' →
            scout.val ≠ INVALID_LOSS_RATE → scout.val ≤ scout'.val →
            (loss.val ≤ loss'.val ↔ ¬Overshoots (max scout.val front.val) back.val
              (max scout'.val front'.val) back'.val)) := by
  refine ⟨fun f b f' b' hf hff' hb hbb' => calcLossRatesFrontBack_le_iff hf hff' hb hbb', ?_⟩
  intro rates s s' t t' r r' rate hrate hs hs' hmode front back front' back' hfront hback hfront'
    hback' hknown hknownBack hle hleBack
  obtain ⟨loss, hloss, hcombined⟩ := combinedLoss_stored hs hrate
  obtain ⟨loss', hloss', hcombined'⟩ := combinedLoss_stored hs' hrate
  have hf := (LossRate.between hknown).1
  have hb := (LossRate.between hknownBack).1
  refine ⟨loss, loss', hloss, hloss', fun hdelay => ?_, fun hscouting scout scout' hscout hscout'
    hknownScout hleScout => ?_⟩
  · rw [combinedLoss_delay hdelay hfront hback] at hcombined
    rw [combinedLoss_delay (hmode ▸ hdelay) hfront' hback'] at hcombined'
    rw [← Except.ok.inj hcombined, ← Except.ok.inj hcombined']
    exact calcLossRatesFrontBack_le_iff hf hle hb hleBack
  · rw [combinedLoss_scout hscouting hscout hfront hback] at hcombined
    rw [combinedLoss_scout (hmode ▸ hscouting) hscout' hfront' hback'] at hcombined'
    rw [← Except.ok.inj hcombined, ← Except.ok.inj hcombined']
    exact calcLossRatesFrontBack_le_iff (hf.trans (le_max_right _ _)) (max_le_max hleScout hle) hb
      hleBack

theorem lossCombine_mono_product :
    calcLossRatesFrontBack (1 / 10) (8 / 10) ≤ calcLossRatesFrontBack (2 / 10) (9 / 10) :=
  (lossCombine_mono.1 (1 / 10) (8 / 10) (2 / 10) (9 / 10) (by norm_num) (by norm_num)
    (by norm_num) (by norm_num)).mpr fun h => absurd h.1 (by norm_num)

/-- A perfect front antenna is combined to a higher loss than one that loses a tenth. -/
theorem lossCombine_overshoots : ¬∀ f b f' b' : ℚ, 0 ≤ f → f ≤ f' → f' ≤ 1 → 0 ≤ b → b ≤ b' →
    b' ≤ 1 → calcLossRatesFrontBack f b ≤ calcLossRatesFrontBack f' b' := by
  intro h
  have hle := h 0 (8 / 10) (1 / 10) (8 / 10) (by norm_num) (by norm_num) (by norm_num)
    (by norm_num) (by norm_num) (by norm_num)
  rw [calcLossRatesFrontBack_zero (le_refl 0) (by norm_num) (.inl rfl),
    calcLossRatesFrontBack_pos (by norm_num) (by norm_num)] at hle
  norm_num at hle

end WspaceScout
