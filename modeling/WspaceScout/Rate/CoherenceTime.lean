import WspaceScout.DataPath.SendCodedBatch
import WspaceScout.Rate.ScoutRate

/-!
# Rate decisions and the coherence time

`ApplyFECForData` and `ApplyFECForRetransmission` divide the coherence time by the airtime of a
packet. The constructor of `WspaceAP` checks only that the coherence time is positive.

## Main results

- `applyFECForRetransmission_overflow` — just below a loss of 0.95 a retransmission gets no packet
- `decisionSafe_iff` — no assertion fails and a packet fits exactly if its airtime and the extra
  wait are within the coherence time and the loss is not so close below 0.95
- `decisionSafe_short` — a coherence time of one microsecond passes the check of the constructor
-/

namespace WspaceScout

open Foundation

/-- `pkt_size` in `TxSendAth`: the header with all lengths, and the packet. -/
def batchPktSize (len : Nat) : Nat := uint16 (ATH_CODE_HEADER_SIZE + MAX_BATCH_SIZE * 2 + len)

/-- `kExtraWaitTime`: `DIFS_80211ag + SLOT_TIME * 3`, in microseconds. -/
def kExtraWaitTime : Nat := 28 + 9 * 3

/-- Decisions for a packet of `len` bytes succeed, and leave room for it in the batch. -/
structure DecisionSafe {rates : List Nat} (s : ScoutRateAdaptation rates)
    (coherenceTime len : Nat) : Prop where
  data : ∃ k n, s.applyFECForData coherenceTime (batchPktSize len) kExtraWaitTime = .ok (k, n) ∧
    1 ≤ k
  retrans : ∃ n, s.applyFECForRetransmission coherenceTime (batchPktSize len) kExtraWaitTime 1 =
    .ok n

/-- The truncated airtime is a quotient of natural numbers. -/
theorem pktDuration_eq {rate pktSize extraTime : Nat} (hrate : 0 < rate)
    (hlt : 80 * pktSize / rate + extraTime < 4294967296) :
    pktDuration rate pktSize extraTime = 80 * pktSize / rate + extraTime := by
  have hrate' : (rate : ℚ) ≠ 0 := by exact_mod_cast hrate.ne'
  have hquot : (pktSize * 8 / (rate / 10) : ℚ) = ((80 * pktSize : Nat) : ℚ) / rate := by
    push_cast
    field_simp
    ring
  rw [pktDuration, hquot, Nat.floor_add_natCast (by positivity), Rat.natFloor_natCast_div_natCast,
    uint32_of_lt hlt]

section

variable {rates : List Nat} {s : ScoutRateAdaptation rates} {coherenceTime len : Nat}

/-- At least one packet per coherence time. -/
theorem pktsPerCoherence_pos {d : Nat} (hd : 2 ≤ d) (hc : coherenceTime < 4294967296)
    (hle : d ≤ coherenceTime) :
    ∃ n, pktsPerCoherence coherenceTime d = .ok n ∧ 1 ≤ n ∧ n ≤ 2147483647 := by
  have hpos : 0 < coherenceTime / d := Nat.div_pos hle (by omega)
  have hlt : coherenceTime / d < 2147483648 := by
    apply Nat.div_lt_of_lt_mul
    omega
  refine ⟨(coherenceTime / d : Nat), ?_, by exact_mod_cast hpos, by omega⟩
  rw [pktsPerCoherence, if_neg (by omega), toInt32, if_pos hlt]

theorem pktsPerCoherence_zero {d : Nat} (hlt : coherenceTime < d) :
    pktsPerCoherence coherenceTime d = .ok 0 := by
  rw [pktsPerCoherence, if_neg (by omega), Nat.div_eq_of_lt hlt]
  rfl

theorem applyFECForData_of_pos (hrate : s.rate ∈ rates) {pktSize extraTime : Nat} {n : Int}
    (hn : pktsPerCoherence coherenceTime (pktDuration s.rate pktSize extraTime) = .ok n)
    (hpos : 1 ≤ n) (hmax : n ≤ 2147483647) :
    ∃ k n', s.applyFECForData coherenceTime pktSize extraTime = .ok (k, n') ∧ 1 ≤ k := by
  obtain ⟨loss, hloss⟩ := s.lossMapCombine.getLossRate_mem hrate
  unfold ScoutRateAdaptation.applyFECForData
  rw [hn]
  cases hfec : s.useFec with
  | true =>
    -- the clamps keep `k` between one and `n`
    obtain ⟨k, n', hdata⟩ := fecForData_of_pos loss hpos hmax
    refine ⟨k, n', ?_, (fecForData_bounds hdata).1⟩
    simpa [hloss, bind, Except.bind] using hdata
  | false =>
    -- `k` and `n` are both the number of packets, cut down to `kMaxK`
    have hmaxK : kMaxK = 10 := rfl
    refine ⟨_, _, rfl, ?_⟩
    split <;> omega

section Retransmission

variable {loss : LossRate} {pktSize extraTime : Nat} {n : Int}

/-- The first assertion holds, so that the decision is the one of the arithmetic. -/
theorem applyFECForRetransmission_eq (hfec : s.useFec = true)
    (hloss : s.lossMapCombine.getLossRate s.rate = .ok loss)
    (hn : pktsPerCoherence coherenceTime (pktDuration s.rate pktSize extraTime) = .ok n)
    (hpos : 1 ≤ n) :
    s.applyFECForRetransmission coherenceTime pktSize extraTime 1 =
      if fecForRetransmission loss 1 (min n kGFSize) ≥ 1 ∧
          fecForRetransmission loss 1 (min n kGFSize) ≤ min n kGFSize then
        .ok (fecForRetransmission loss 1 (min n kGFSize))
      else .error .fecRetransN := by
  have hgf : kGFSize = 254 := rfl
  have hmaxK : kMaxK = 10 := rfl
  have hcheck : (1 : Int) > 0 ∧ 1 ≤ min n kGFSize ∧ 1 ≤ kMaxK := by omega
  unfold ScoutRateAdaptation.applyFECForRetransmission
  rw [hn]
  simp only [bind, Except.bind, if_pos hcheck, hfec, if_true, hloss]

/-- Just below a loss of 0.95 the second assertion fails. -/
theorem applyFECForRetransmission_overflow (hfec : s.useFec = true)
    (hloss : s.lossMapCombine.getLossRate s.rate = .ok loss) (hnot : ¬loss.FitsInt)
    (hn : pktsPerCoherence coherenceTime (pktDuration s.rate pktSize extraTime) = .ok n)
    (hpos : 1 ≤ n) :
    s.applyFECForRetransmission coherenceTime pktSize extraTime 1 = .error .fecRetransN := by
  have hgf : kGFSize = 254 := rfl
  have hzero := fecForRetransmission_overflow hnot (show 0 ≤ min n kGFSize by omega)
  rw [applyFECForRetransmission_eq hfec hloss hn hpos, hzero]
  exact if_neg fun hge => absurd hge.1 (by decide)

theorem applyFECForRetransmission_of_pos (hrate : s.rate ∈ rates)
    (hfits : s.useFec = true → ∀ loss, s.lossMapCombine.getLossRate s.rate = .ok loss →
      loss.FitsInt)
    (hn : pktsPerCoherence coherenceTime (pktDuration s.rate pktSize extraTime) = .ok n)
    (hpos : 1 ≤ n) :
    ∃ n', s.applyFECForRetransmission coherenceTime pktSize extraTime 1 = .ok n' := by
  obtain ⟨loss, hloss⟩ := s.lossMapCombine.getLossRate_mem hrate
  have hgf : kGFSize = 254 := rfl
  have hmaxK : kMaxK = 10 := rfl
  have hmax : 1 ≤ min n kGFSize := by omega
  cases hfec : s.useFec with
  | true =>
    have hbounds := fecForRetransmission_bounds (hfits hfec loss hloss) hmax
    exact ⟨_, (applyFECForRetransmission_eq hfec hloss hn hpos).trans (if_pos hbounds)⟩
  | false =>
    have hcheck : (1 : Int) > 0 ∧ 1 ≤ min n kGFSize ∧ 1 ≤ kMaxK := by omega
    refine ⟨1, ?_⟩
    unfold ScoutRateAdaptation.applyFECForRetransmission
    rw [hn]
    simp only [bind, Except.bind, if_pos hcheck, hfec, Bool.false_eq_true, if_false]

end Retransmission

/-- A coherence time shorter than the airtime leaves no packet, whatever the loss is. -/
theorem not_decisionSafe (hzero : pktsPerCoherence coherenceTime
    (pktDuration s.rate (batchPktSize len) kExtraWaitTime) = .ok 0) :
    ¬DecisionSafe s coherenceTime len := by
  rintro ⟨⟨k, n, hdata, hk⟩, -⟩
  unfold ScoutRateAdaptation.applyFECForData at hdata
  rw [hzero] at hdata
  cases hfec : s.useFec with
  | true =>
    simp only [hfec, if_true] at hdata
    obtain ⟨n₀, hn₀, hdata⟩ := bind_eq_ok.mp hdata
    injection hn₀ with hn₀
    rw [← hn₀] at hdata
    obtain ⟨loss, -, hdata⟩ := bind_eq_ok.mp hdata
    -- the assertion fails
    rw [fecForData_zero] at hdata
    cases hdata
  | false =>
    simp only [hfec, Bool.false_eq_true, if_false] at hdata
    obtain ⟨n₀, hn₀, hdata⟩ := bind_eq_ok.mp hdata
    injection hn₀ with hn₀
    rw [← hn₀] at hdata
    injection hdata with hdata
    injection hdata with hdata
    -- there is no assertion, but `k` is zero
    have hmaxK : kMaxK = 10 := rfl
    rw [if_neg (by omega)] at hdata
    omega

end

theorem mac80211abgRate_pos : ∀ rate ∈ mac80211abgRate, 0 < rate := by decide

theorem batchPktSize_eq {len : Nat} (hlen : len ≤ PKT_SIZE) : batchPktSize len = 56 + len := by
  have hsize : PKT_SIZE = 1472 := rfl
  exact Nat.mod_eq_of_lt (show 56 + len < 65536 by omega)

/-- The airtime of a packet of the buffer is far from an overflow. -/
theorem pktDuration_batch {rate len : Nat} (hrate : rate ∈ mac80211abgRate)
    (hlen : len ≤ PKT_SIZE) :
    pktDuration rate (batchPktSize len) kExtraWaitTime = 80 * (56 + len) / rate + 55 := by
  have hsize : PKT_SIZE = 1472 := rfl
  have hle : 80 * (56 + len) / rate ≤ 80 * (56 + len) := Nat.div_le_self _ _
  rw [batchPktSize_eq hlen]
  exact pktDuration_eq (mac80211abgRate_pos rate hrate)
    (show 80 * (56 + len) / rate + 55 < 4294967296 by omega)

/-- Decisions are safe exactly if the airtime of the packet and the extra wait, in whole
microseconds, are within the coherence time and, with FEC, the packets that the loss asks for fit
an `int`. -/
theorem decisionSafe_iff (s : ScoutRateAdaptation mac80211abgRate) {coherenceTime len : Nat}
    (hrate : s.rate ∈ mac80211abgRate) (hlen : len ≤ PKT_SIZE)
    (hc : coherenceTime < 4294967296) :
    DecisionSafe s coherenceTime len ↔ 80 * (56 + len) / s.rate + 55 ≤ coherenceTime ∧
      (s.useFec = true → ∀ loss, s.lossMapCombine.getLossRate s.rate = .ok loss →
        loss.FitsInt) := by
  have hduration := pktDuration_batch hrate hlen
  -- two microseconds are enough for the quotient to fit an `int`
  have htwo : 2 ≤ 80 * (56 + len) / s.rate + 55 :=
    (by decide : 2 ≤ 55).trans (Nat.le_add_left 55 _)
  constructor
  · intro hsafe
    have hlong : 80 * (56 + len) / s.rate + 55 ≤ coherenceTime := by
      by_contra hshort
      exact not_decisionSafe (by
        rw [hduration]
        exact pktsPerCoherence_zero (by omega)) hsafe
    refine ⟨hlong, fun hfec loss hloss => ?_⟩
    by_contra hnot
    obtain ⟨n, hn, hpos, -⟩ := pktsPerCoherence_pos htwo hc hlong
    rw [← hduration] at hn
    obtain ⟨n', hretrans⟩ := hsafe.retrans
    rw [applyFECForRetransmission_overflow hfec hloss hnot hn hpos] at hretrans
    cases hretrans
  · rintro ⟨hlong, hfits⟩
    obtain ⟨n, hn, hpos, hmax⟩ := pktsPerCoherence_pos htwo hc hlong
    rw [← hduration] at hn
    exact ⟨applyFECForData_of_pos hrate hn hpos hmax,
      applyFECForRetransmission_of_pos hrate hfits hn hpos⟩

/-- A packet of 1000 bytes at 1 Mbit/s, with ten milliseconds and no known loss. -/
theorem decisionSafe_iff_long :
    DecisionSafe (.init mac80211abgRate .scoutCombine .noSample) 10000 1000 := by
  refine (decisionSafe_iff (.init mac80211abgRate .scoutCombine .noSample) (by decide) (by decide)
    (by decide)).mpr ⟨by decide, fun _ loss hloss => ?_⟩
  cases hloss
  exact LossRate.fitsInt_invalid

/-- A coherence time of one microsecond passes the check of the constructor. -/
theorem decisionSafe_short :
    ∃ s : ScoutRateAdaptation mac80211abgRate, ∃ coherenceTime len,
      s.rate ∈ mac80211abgRate ∧ 0 < coherenceTime ∧ coherenceTime < 4294967296 ∧ 0 < len ∧
      len ≤ PKT_SIZE ∧ ¬DecisionSafe s coherenceTime len := by
  refine ⟨.init mac80211abgRate .scoutCombine .noSample, 1, 1000, by decide, by decide, by decide,
    by decide, by decide, not_decisionSafe ?_⟩
  rw [pktDuration_batch (by decide) (by decide)]
  rfl

end WspaceScout
