import WspaceScout.Rate.CoherenceTime

/-!
# The spare packet

With FEC, a batch gets more coded packets than the loss alone asks for: `n` is at least one above
`⌈k / (1 - loss)⌉`, or `k` at least one below what `n` packets carry on average. Caps that come
after it, on `k`, on `n` and by the coherence time, must leave this packet alone. What breaks the
guarantee are conversions to `int`, most of all that of a retransmission at a loss of almost 0.95.

## Main results

- `withExtraPkts_spare`, `spareK_spare` — the spare packet survives the clamps
- `sparePacket_iff` — the guarantee for all three modes
- `sparePacket_overflow` — a loss at which it fails
-/

namespace WspaceScout

variable {loss : LossRate} {k n maxN : Int}

/-- A known loss of up to nine tenths. -/
def LossRate.IsLow (loss : LossRate) : Prop := loss.val ≠ INVALID_LOSS_RATE ∧ loss.val ≤ 9 / 10

theorem isLowLoss_iff : isLowLoss loss = true ↔ loss.IsLow := by
  rw [isLowLoss, decide_eq_true_eq, kMaxLoss]
  exact And.comm

/-- If the packets asked for and one more are within the limit, they are granted. -/
theorem withExtraPkts_spare {nNoExtra : Int} (hmax : nNoExtra + 1 ≤ maxN) :
    nNoExtra + 1 ≤ withExtraPkts n nNoExtra maxN := by
  have hextra : kExtraRedundancy > 0 := by norm_num [kExtraRedundancy]
  have hnum : kExtraNumPkts = 1 := rfl
  simp only [withExtraPkts, hnum, hextra, true_and]
  split <;> split <;> omega

/-- Above one data packet, one of the packets that arrive on average is to spare. -/
theorem spareK_spare (hlow : loss.IsLow) (hk : 1 < spareK loss n k) :
    spareK loss n k + 1 ≤ ⌊(n * (1 - loss.val) : ℚ)⌋ := by
  have hnum : kExtraNumPkts = 1 := rfl
  have hspare : spareK loss n k + 1 ≤ doubleToInt ⌊(n * (1 - loss.val) : ℚ)⌋ := by
    simp only [spareK, isLowLoss_iff.mpr hlow, hnum, true_and] at hk ⊢
    split at hk <;> split at hk <;> split <;> omega
  rwa [doubleToInt_eq (by omega)] at hspare

/-- What a low loss asks for is far below the limits of `int`. -/
theorem ceil_div_le (hlow : loss.IsLow) (hk : 0 < k) (hmax : k < kMaxK) :
    0 ≤ ⌈(k / (1 - loss.val) : ℚ)⌉ ∧ ⌈(k / (1 - loss.val) : ℚ)⌉ ≤ 90 := by
  obtain ⟨hknown, hle⟩ := hlow
  have hk' : (0 : ℚ) < k := by exact_mod_cast hk
  have hmax' : (k : ℚ) ≤ 9 := by
    have hmaxK : kMaxK = 10 := rfl
    exact_mod_cast (show k ≤ 9 by omega)
  have hdiv : (k / (1 - loss.val) : ℚ) ≤ 90 := by
    rw [div_le_iff₀ (by linarith)]
    linarith
  exact ⟨Int.ceil_nonneg (div_nonneg hk'.le (by linarith)),
    Int.ceil_le.mpr (by exact_mod_cast hdiv)⟩

theorem nNoExtraRedundancy_low (hlow : loss.IsLow) (hk : 0 < k) (hmax : k < kMaxK) :
    nNoExtraRedundancy loss k = ⌈(k / (1 - loss.val) : ℚ)⌉ := by
  have hceil := ceil_div_le hlow hk hmax
  rw [nNoExtraRedundancy, if_pos (isLowLoss_iff.mpr hlow)]
  exact doubleToInt_of_fits (by omega) (by omega)

/-! ### The three modes -/

/-- What the assertions demand of a decision. -/
def InLimits (k n : Int) : Prop := 1 ≤ k ∧ k ≤ kMaxK ∧ k ≤ n ∧ n ≤ kGFSize

theorem fecForData_spare {n' : Int} (h : fecForData loss n = .ok (k, n')) (hlow : loss.IsLow)
    (hk : 1 < k) : k + 1 ≤ ⌊(n' * (1 - loss.val) : ℚ)⌋ := by
  unfold fecForData at h
  dsimp only at h
  generalize (if (capK (redundancyFor kStartRedundancyData loss) n).2 > kGFSize then kGFSize
    else (capK (redundancyFor kStartRedundancyData loss) n).2) = m at h
  split at h
  · simp only [Except.ok.injEq, Prod.mk.injEq] at h
    obtain ⟨rfl, rfl⟩ := h
    exact spareK_spare hlow hk
  · cases h

theorem fecForTimeOut_spare (hlow : loss.IsLow) (hk : 0 < k) (hmax : k < kMaxK) :
    ⌈(k / (1 - loss.val) : ℚ)⌉ + 1 ≤ fecForTimeOut loss k := by
  have hceil := ceil_div_le hlow hk hmax
  have hgf : kGFSize = 254 := rfl
  rw [← nNoExtraRedundancy_low hlow hk hmax] at hceil ⊢
  exact withExtraPkts_spare (by omega)

theorem fecForRetransmission_spare (hlow : loss.IsLow) (hk : 0 < k) (hmax : k < kMaxK)
    (hroom : ⌈(k / (1 - loss.val) : ℚ)⌉ + 1 ≤ maxN) :
    ⌈(k / (1 - loss.val) : ℚ)⌉ + 1 ≤ fecForRetransmission loss k maxN := by
  rw [← nNoExtraRedundancy_low hlow hk hmax] at hroom ⊢
  exact withExtraPkts_spare hroom

/-- A number of packets below one fails the assertion, whatever the loss is. -/
theorem fecForData_neg (loss : LossRate) (hn : n < 0) : fecForData loss n = .error .fecData := by
  have hn' : (n : ℚ) < 0 := by exact_mod_cast hn
  have hmaxK : kMaxK = 10 := rfl
  have hcap : (capK (redundancyFor kStartRedundancyData loss) n).2 < 1 := by
    generalize redundancyFor kStartRedundancyData loss = r
    unfold capK
    dsimp only
    split
    · next hgt =>
      -- more than ten data packets come of a redundancy above one only
      rw [doubleToInt_eq (by omega)] at hgt
      have hfloor := Int.floor_le (n * (1 - r) : ℚ)
      have hpos : (0 : ℚ) < n * (1 - r) := by
        have hten : (10 : ℚ) < ⌊(n * (1 - r) : ℚ)⌋ := by exact_mod_cast hmaxK ▸ hgt
        linarith
      have hr : 1 - r < 0 := by
        by_contra hge
        nlinarith [not_lt.mp hge]
      have hdiv : (kMaxK / (1 - r) : ℚ) ≤ 0 := by
        rw [hmaxK]
        exact div_nonpos_of_nonneg_of_nonpos (by norm_num) hr.le
      have hceil : ⌈(kMaxK / (1 - r) : ℚ)⌉ ≤ 0 := Int.ceil_le.mpr (by exact_mod_cast hdiv)
      rw [doubleToInt]
      split <;> omega
    · omega
  unfold fecForData
  dsimp only
  have hgf : kGFSize = 254 := rfl
  rw [if_neg (show ¬(capK (redundancyFor kStartRedundancyData loss) n).2 > kGFSize by omega)]
  have hspare := (spareK_bounds loss (capK (redundancyFor kStartRedundancyData loss) n).2
    (capK (redundancyFor kStartRedundancyData loss) n).1).1
  rw [if_neg (by omega)]

/-- All three routines return within their limits, and with a known loss of up to nine tenths there
is a packet to spare wherever there is room for it. -/
structure SparePacket {rates : List Nat} (s : ScoutRateAdaptation rates)
    (coherenceTime pktSize extraTime : Nat) (loss : LossRate) : Prop where
  data : ∃ k n, s.applyFECForData coherenceTime pktSize extraTime = .ok (k, n) ∧ InLimits k n ∧
    (loss.IsLow → 1 < k → k + 1 ≤ ⌊(n * (1 - loss.val) : ℚ)⌋)
  timeOut : ∀ k, 0 < k → k < kMaxK → ∃ n, s.applyFECForTimeOut k = .ok n ∧ InLimits k n ∧
    (loss.IsLow → ⌈(k / (1 - loss.val) : ℚ)⌉ + 1 ≤ n)
  retrans : ∃ n, s.applyFECForRetransmission coherenceTime pktSize extraTime 1 = .ok n ∧
    InLimits 1 n ∧ (loss.IsLow →
      ⌈(1 / (1 - loss.val) : ℚ)⌉ + 1 ≤
        min ((coherenceTime / pktDuration s.rate pktSize extraTime : Nat) : Int) kGFSize →
      ⌈(1 / (1 - loss.val) : ℚ)⌉ + 1 ≤ n)

section Modes

variable {rates : List Nat} {s : ScoutRateAdaptation rates}
  {coherenceTime pktSize extraTime : Nat}

theorem applyFECForData_spare (hfec : s.useFec = true)
    (hloss : s.lossMapCombine.getLossRate s.rate = .ok loss)
    (hn : pktsPerCoherence coherenceTime (pktDuration s.rate pktSize extraTime) = .ok n)
    (hpos : 1 ≤ n) (hmax : n ≤ 2147483647) :
    ∃ k n', s.applyFECForData coherenceTime pktSize extraTime = .ok (k, n') ∧ InLimits k n' ∧
      (loss.IsLow → 1 < k → k + 1 ≤ ⌊(n' * (1 - loss.val) : ℚ)⌋) := by
  obtain ⟨k, n', hdata⟩ := fecForData_of_pos loss hpos hmax
  have hbounds := fecForData_bounds hdata
  refine ⟨k, n', ?_, ⟨by omega, hbounds.2⟩, fun hlow hk => fecForData_spare hdata hlow hk⟩
  simpa [ScoutRateAdaptation.applyFECForData, hn, hfec, hloss, bind, Except.bind] using hdata

theorem applyFECForTimeOut_spare (hfec : s.useFec = true)
    (hloss : s.lossMapCombine.getLossRate s.rate = .ok loss) (hk : 0 < k) (hmax : k < kMaxK) :
    ∃ n, s.applyFECForTimeOut k = .ok n ∧ InLimits k n ∧
      (loss.IsLow → ⌈(k / (1 - loss.val) : ℚ)⌉ + 1 ≤ n) := by
  have hbounds := fecForTimeOut_bounds loss hk hmax
  refine ⟨fecForTimeOut loss k, ?_, ⟨by omega, hmax.le, hbounds⟩, fun hlow =>
    fecForTimeOut_spare hlow hk hmax⟩
  rw [ScoutRateAdaptation.applyFECForTimeOut, if_pos ⟨hk, hmax⟩, if_pos hfec, hloss]
  rfl

theorem applyFECForRetransmission_spare (hfec : s.useFec = true)
    (hloss : s.lossMapCombine.getLossRate s.rate = .ok loss) (hfits : loss.FitsInt)
    (hn : pktsPerCoherence coherenceTime (pktDuration s.rate pktSize extraTime) = .ok n)
    (hpos : 1 ≤ n) :
    ∃ n', s.applyFECForRetransmission coherenceTime pktSize extraTime 1 = .ok n' ∧
      InLimits 1 n' ∧ (loss.IsLow → ⌈(1 / (1 - loss.val) : ℚ)⌉ + 1 ≤ min n kGFSize →
        ⌈(1 / (1 - loss.val) : ℚ)⌉ + 1 ≤ n') := by
  have hgf : kGFSize = 254 := rfl
  have hmaxK : kMaxK = 10 := rfl
  have hbounds := fecForRetransmission_bounds hfits (show 1 ≤ min n kGFSize by omega)
  refine ⟨fecForRetransmission loss 1 (min n kGFSize), ?_, ⟨le_refl 1, by omega, by omega⟩, ?_⟩
  · exact (applyFECForRetransmission_eq hfec hloss hn hpos).trans (if_pos hbounds)
  · intro hlow hroom
    simpa using fecForRetransmission_spare (k := 1) hlow (by decide) (by decide)
      (by simpa using hroom)

end Modes

theorem toInt32_of_lt {m : Nat} (h : m < 2147483648) : toInt32 m = m := if_pos h

theorem toInt32_neg {m : Nat} (h : 2147483648 ≤ m) (hlt : m < 4294967296) : toInt32 m < 0 := by
  rw [toInt32, if_neg (by omega)]
  omega

section Broken

variable {rates : List Nat} {s : ScoutRateAdaptation rates}
  {coherenceTime pktSize extraTime : Nat}

/-- A quotient that does not fit an `int` makes `n` negative. -/
theorem not_sparePacket_quotient (hfec : s.useFec = true)
    (hloss : s.lossMapCombine.getLossRate s.rate = .ok loss)
    (hpos : 0 < pktDuration s.rate pktSize extraTime) (hc : coherenceTime < 4294967296)
    (hge : 2147483648 ≤ coherenceTime / pktDuration s.rate pktSize extraTime) :
    ¬SparePacket s coherenceTime pktSize extraTime loss := by
  rintro ⟨⟨k, n, hdata, -⟩, -, -⟩
  have hneg := toInt32_neg hge ((Nat.div_le_self _ _).trans_lt hc)
  have herror : s.applyFECForData coherenceTime pktSize extraTime = .error .fecData := by
    simp [ScoutRateAdaptation.applyFECForData, pktsPerCoherence, if_neg hpos.ne', hfec, hloss,
      bind, Except.bind, fecForData_neg loss hneg]
  rw [herror] at hdata
  cases hdata

/-- A loss whose retransmission does not fit an `int` leaves no packet at all. -/
theorem not_sparePacket_loss (hfec : s.useFec = true)
    (hloss : s.lossMapCombine.getLossRate s.rate = .ok loss) (hnot : ¬loss.FitsInt)
    (hn : pktsPerCoherence coherenceTime (pktDuration s.rate pktSize extraTime) = .ok n)
    (hpos : 1 ≤ n) : ¬SparePacket s coherenceTime pktSize extraTime loss := by
  rintro ⟨-, -, ⟨n', hretrans, -⟩⟩
  rw [applyFECForRetransmission_overflow hfec hloss hnot hn hpos] at hretrans
  cases hretrans

end Broken

/-- The guarantee holds exactly if the number of packets per coherence time and the number that a
retransmission asks for fit an `int`. -/
theorem sparePacket_iff {rates : List Nat} (s : ScoutRateAdaptation rates)
    (coherenceTime pktSize extraTime : Nat) (loss : LossRate) (hfec : s.useFec = true)
    (hloss : s.lossMapCombine.getLossRate s.rate = .ok loss)
    (hpos : 0 < pktDuration s.rate pktSize extraTime)
    (hle : pktDuration s.rate pktSize extraTime ≤ coherenceTime)
    (hc : coherenceTime < 4294967296) :
    SparePacket s coherenceTime pktSize extraTime loss ↔
      coherenceTime / pktDuration s.rate pktSize extraTime < 2147483648 ∧ loss.FitsInt := by
  have hn : pktsPerCoherence coherenceTime (pktDuration s.rate pktSize extraTime) =
      .ok (toInt32 (coherenceTime / pktDuration s.rate pktSize extraTime)) := by
    rw [pktsPerCoherence, if_neg hpos.ne']
  have hone : 1 ≤ coherenceTime / pktDuration s.rate pktSize extraTime := Nat.div_pos hle hpos
  have hone' : (1 : Int) ≤ (coherenceTime / pktDuration s.rate pktSize extraTime : Nat) := by
    exact_mod_cast hone
  constructor
  · intro hspare
    have hlt : coherenceTime / pktDuration s.rate pktSize extraTime < 2147483648 := by
      by_contra hge
      exact not_sparePacket_quotient hfec hloss hpos hc (by omega) hspare
    refine ⟨hlt, ?_⟩
    by_contra hnot
    rw [toInt32_of_lt hlt] at hn
    exact not_sparePacket_loss hfec hloss hnot hn hone' hspare
  · rintro ⟨hlt, hfits⟩
    rw [toInt32_of_lt hlt] at hn
    exact ⟨applyFECForData_spare hfec hloss hn hone' (by omega),
      fun k hk hmax => applyFECForTimeOut_spare hfec hloss hk hmax,
      applyFECForRetransmission_spare hfec hloss hfits hn hone'⟩

/-- The coherence time of ten milliseconds, and no known loss. -/
theorem sparePacket_short : SparePacket (.init mac80211abgRate .scoutCombine .noSample) 10000 100
    55 .invalid := by
  have hduration : pktDuration 10 100 55 = 855 := pktDuration_eq (by decide) (by decide)
  exact (sparePacket_iff (.init mac80211abgRate .scoutCombine .noSample) 10000 100 55 .invalid rfl
    rfl (hduration ▸ by decide) (hduration ▸ by decide) (by decide)).mpr
      ⟨hduration ▸ by decide, LossRate.fitsInt_invalid⟩

/-- `UpdateLoss` with a loss of 95% in `windows` windows after one of 90%; the weight is the one of
the antennas. -/
def lossAfterWindows (windows : Nat) : LossRate :=
  (fun old : LossRate => old.blend ⟨19 / 20, .inr (by norm_num)⟩ (1 / 5) (by norm_num))^[windows]
    ⟨9 / 10, .inr (by norm_num)⟩

/-- The estimate comes closer to 95% with every window. -/
theorem lossAfterWindows_val (windows : Nat) :
    (lossAfterWindows windows).val = 19 / 20 - 1 / 20 * (1 / 5) ^ windows := by
  have hboth : (lossAfterWindows windows).val ≠ INVALID_LOSS_RATE ∧
      (lossAfterWindows windows).val = 19 / 20 - 1 / 20 * (1 / 5) ^ windows := by
    induction windows with
    | zero => exact ⟨ne_invalid_of_nonneg (by norm_num [lossAfterWindows]),
        by norm_num [lossAfterWindows]⟩
    | succ windows ih =>
      obtain ⟨hknown, hval⟩ := ih
      have hpos : (0 : ℚ) < 1 / 5 := by norm_num
      rw [lossAfterWindows, Function.iterate_succ_apply', ← lossAfterWindows]
      refine ⟨LossRate.blend_known hpos hknown, ?_⟩
      rw [LossRate.blend_val hpos hknown (ne_invalid_of_nonneg (by norm_num)), hval]
      ring
  exact hboth.2

/-- Twelve windows later a packet of 100 bytes at 1 Mbit/s, with ten milliseconds and the wait of
`TxSendAth`, cannot be retransmitted. -/
theorem sparePacket_overflow : ¬∀ (s : ScoutRateAdaptation mac80211abgRate)
    (coherenceTime pktSize extraTime : Nat) (loss : LossRate), s.useFec = true →
    s.lossMapCombine.getLossRate s.rate = .ok loss → 0 < pktDuration s.rate pktSize extraTime →
    pktDuration s.rate pktSize extraTime ≤ coherenceTime → coherenceTime < 4294967296 →
      SparePacket s coherenceTime pktSize extraTime loss := by
  intro h
  let s : ScoutRateAdaptation mac80211abgRate :=
    { ScoutRateAdaptation.init mac80211abgRate .scoutCombine .noSample with
      lossMapCombine := fun _ => lossAfterWindows 12 }
  have hloss : s.lossMapCombine.getLossRate s.rate = .ok (lossAfterWindows 12) := rfl
  have hduration : pktDuration s.rate (batchPktSize 100) kExtraWaitTime = 1303 := by
    have hrate : s.rate = 10 := rfl
    rw [hrate]
    exact pktDuration_batch (by decide) (by decide)
  have hnot : ¬(lossAfterWindows 12).FitsInt := by
    rw [LossRate.FitsInt, lossAfterWindows_val]
    norm_num
  have hn : pktsPerCoherence 10000 (pktDuration s.rate (batchPktSize 100) kExtraWaitTime) =
      .ok 7 := by
    rw [hduration]
    rfl
  exact not_sparePacket_loss (s := s) rfl hloss hnot hn (by decide)
    (h s 10000 (batchPktSize 100) kExtraWaitTime (lossAfterWindows 12) rfl hloss
      (hduration ▸ by decide) (hduration ▸ by decide) (by decide))

end WspaceScout
