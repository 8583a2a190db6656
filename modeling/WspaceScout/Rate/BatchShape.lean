import Mathlib.Data.List.GetD
import WspaceScout.DataPath.TxSendAth

/-!
# The shape of a batch

`MakeDecision` chooses `k`, `n` and one rate for each coded packet; `SendCodedBatch` relies on how
these fit together.

## Main definitions

- `BatchShape` — how `k`, `n` and the rates fit together
- `BatchDecision.Sendable` — what `SendCodedBatch` and the encoder need of them

## Main results

- `ScoutRateAdaptation.decideRate_spec`, `applyFEC_bounds`, `drawSamples_spec`,
  `findRatesForBatch_spec` — one lemma for each part of `MakeDecision`
- `makeDecision_shape` — every decision with data packets has this shape
- `makeDecision_answers` — it is one that the model of `TxSendAth` expects
-/

namespace WspaceScout

open Foundation

/-- The number of sampled rates in a batch. -/
def RateAdaptVersion.numSamples (v : RateAdaptVersion) : Nat :=
  if v.sampleMode = .noSample then 0 else 1

/-- How `k`, `n` and the rates of a batch fit together, if FEC chose `nFec` coded packets. -/
structure BatchShape (v : RateAdaptVersion) (nFec : Int) (d : BatchDecision) : Prop where
  k_le : d.k ≤ d.n
  n_eq : d.n = d.rateArr.length
  n_le : d.n ≤ 255
  rates : ∀ rate ∈ d.rateArr, rate ∈ mac80211abgRate ∧ (rateCode rate).isSome
  count : (d.n : Int) = (if d.isDuplicate then d.k else nFec) + v.numSamples
  sorted : v.sampleMode ≠ .noSample → d.rateArr.Pairwise (· ≤ ·)

/-- What the encoder, `SetHeader` and `SendCodedBatch` need of a decision. -/
structure BatchDecision.Sendable (d : BatchDecision) : Prop where
  kByte : (uint8 d.k.toNat : Int) = d.k
  nByte : uint8 d.n = d.n
  fecNew : fecNewAccepts d.k.toNat d.n = true
  rateArr : ∀ (c : CodeInfo) (startSeq : Nat),
    d.rateArr.length = (c.setCodeInfo d.k.toNat d.n startSeq).n
  header : ∀ (c : CodeInfo) (ids : BatchIds) (scratch : Frame) (startSeq ind : Nat),
    0 < ids.rawSeq → 0 < ids.batchId → 0 < startSeq → ind < d.n →
    ∃ f, buildHeader ids scratch (c.setCodeInfo d.k.toNat d.n startSeq) (d.rateArr.getD ind 0) ind =
      .ok f ∧ f.hdr.ind = ind ∧ f.hdr.k = d.k ∧ f.hdr.n = d.n

/-- Every rate of the table has a code. -/
theorem rateCode_isSome : ∀ rate ∈ mac80211abgRate, (rateCode rate).isSome := by decide

namespace ScoutRateAdaptation

variable {rates : List Nat} {s s' : ScoutRateAdaptation rates} {r : Readings rates}
  {mode : TransmitMode} {coherenceTime pktSize extraTime : Nat} {k k' n : Int}

/-! ### The current rate -/

theorem calcLossRates_spec (h : s.calcLossRates r = .ok s') :
    s'.rate = s.rate ∧ s'.rateAdaptVersion = s.rateAdaptVersion := by
  obtain ⟨m, -, h⟩ := bind_eq_ok.mp h
  injection h with h
  rw [← h]
  exact ⟨rfl, rfl⟩

theorem calcLossRatesAfterCombine_spec (h : s.calcLossRatesAfterCombine r = .ok s') :
    s'.rate = s.rate ∧ s'.rateAdaptVersion = s.rateAdaptVersion := by
  obtain ⟨s₁, h₁, h⟩ := bind_eq_ok.mp h
  obtain ⟨m, -, h⟩ := bind_eq_ok.mp h
  injection h with h
  rw [← h]
  unfold lookUpScout at h₁
  split at h₁
  · obtain ⟨hrate, hversion⟩ := calcLossRates_spec h₁
    exact ⟨hrate, hversion⟩
  · injection h₁ with h₁
    rw [← h₁]
    exact ⟨rfl, rfl⟩

theorem applyRateScout_spec {lossThresh : ℚ} (h : s.applyRateScout lossThresh = .ok s') :
    s'.rate ∈ rates ∧ s'.rateAdaptVersion = s.rateAdaptVersion := by
  obtain ⟨throughputArr, -, h⟩ := bind_eq_ok.mp h
  split at h
  · rename_i rate hrate
    injection h with h
    rw [← h]
    obtain ⟨maxInd, -, hget⟩ := Option.bind_eq_some_iff.mp hrate
    exact ⟨List.mem_of_getElem? hget, rfl⟩
  · cases h

/-- The rate that a decision starts from is one of the table. -/
theorem decideRate_spec {s s' : ScoutRateAdaptation mac80211abgRate}
    {r : Readings mac80211abgRate} (hrate : s.rate ∈ mac80211abgRate)
    (h : s.decideRate r mode = .ok s') :
    s'.rate ∈ mac80211abgRate ∧ s'.rateAdaptVersion = s.rateAdaptVersion := by
  rw [decideRate] at h
  split at h
  · obtain ⟨s₁, h₁, h⟩ := bind_eq_ok.mp h
    obtain ⟨hrate₁, hversion⟩ := calcLossRatesAfterCombine_spec h₁
    rw [← hversion]
    rw [← hrate₁] at hrate
    cases hcase : s₁.rateAdaptVersion with
    | sampleRate | rraa =>
      -- the baselines have tables of their own, whose rates all occur in this one
      simp only [applyRate, hcase] at h
      split at h
      · rename_i b _
        injection h with h
        rw [← h]
        exact ⟨b.applyRate_mem _ _, rfl⟩
      · cases h
    | fixed =>
      simp only [applyRate, hcase] at h
      injection h with h
      rw [← h]
      exact ⟨hrate, hcase⟩
    | batchSeq | batchRandom | scoutSeq | scoutRandom | scoutBoundLossSeq | scoutBoundLossRandom =>
      simp only [applyRate, hcase] at h
      rw [← hcase]
      exact applyRateScout_spec h
  · -- a partial batch keeps the rate of the last decision
    injection h with h
    rw [← h]
    exact ⟨hrate, rfl⟩

/-! ### FEC -/

theorem applyFECForData_bounds
    (h : s.applyFECForData coherenceTime pktSize extraTime = .ok (k, n)) (hk : 1 ≤ k) :
    k ≤ kMaxK ∧ k ≤ n ∧ n ≤ kGFSize := by
  obtain ⟨n₀, -, h⟩ := bind_eq_ok.mp h
  split at h
  · obtain ⟨loss, -, h⟩ := bind_eq_ok.mp h
    exact (fecForData_bounds h).2
  · injection h with h
    injection h with hk' hn'
    have hmaxK : kMaxK = 10 := rfl
    have hgf : kGFSize = 254 := rfl
    split at hk' <;> omega

theorem applyFECForTimeOut_bounds (h : s.applyFECForTimeOut k = .ok n) :
    k ≤ kMaxK ∧ k ≤ n ∧ n ≤ kGFSize := by
  have hmaxK : kMaxK = 10 := rfl
  have hgf : kGFSize = 254 := rfl
  unfold applyFECForTimeOut at h
  split at h
  · rename_i hcheck
    split at h
    · obtain ⟨loss, -, h⟩ := bind_eq_ok.mp h
      injection h with h
      rw [← h]
      exact ⟨hcheck.2.le, fecForTimeOut_bounds loss hcheck.1 hcheck.2⟩
    · injection h with h
      omega
  · cases h

theorem applyFECForRetransmission_bounds
    (h : s.applyFECForRetransmission coherenceTime pktSize extraTime k = .ok n) :
    k ≤ kMaxK ∧ k ≤ n ∧ n ≤ kGFSize := by
  unfold applyFECForRetransmission at h
  obtain ⟨n₀, -, h⟩ := bind_eq_ok.mp h
  dsimp only at h
  split at h
  · rename_i hcheck
    split at h
    · obtain ⟨loss, -, h⟩ := bind_eq_ok.mp h
      split at h
      · injection h with h
        omega
      · cases h
    · injection h with h
      omega
  · cases h

/-- Whatever the mode is, FEC asks for at least `k` packets and leaves room for a sample. -/
theorem applyFEC_bounds (h : s.applyFEC mode coherenceTime pktSize extraTime k = .ok (k', n))
    (hk : 1 ≤ k') : k' ≤ kMaxK ∧ k' ≤ n ∧ n ≤ kGFSize := by
  cases mode with
  | data => exact applyFECForData_bounds h hk
  | timeOut =>
    obtain ⟨n', hn', h⟩ := bind_eq_ok.mp h
    injection h with h
    injection h with hk' hn
    rw [← hk', ← hn]
    exact applyFECForTimeOut_bounds hn'
  | retrans =>
    obtain ⟨n', hn', h⟩ := bind_eq_ok.mp h
    injection h with h
    injection h with hk' hn
    rw [← hk', ← hn]
    exact applyFECForRetransmission_bounds hn'

/-! ### Sampling -/

theorem mem_of_feasibleFrom {startInd count rate : Nat} (h : rate ∈ s.feasibleFrom startInd count) :
    rate ∈ rates :=
  List.mem_of_mem_drop (List.mem_of_mem_take (List.mem_of_mem_filter h))

theorem length_feasibleFrom_le (s : ScoutRateAdaptation rates) (startInd count : Nat) :
    (s.feasibleFrom startInd count).length ≤ count :=
  (List.length_filter_le _ _).trans (List.length_take_le _ _)

/-- Drawing without replacement. -/
theorem drawRates_spec (sample : Nat → Nat) (i n : Nat) (candidates : List Nat) :
    (drawRates sample i n candidates).length ≤ n ∧
      ∀ rate ∈ drawRates sample i n candidates, rate ∈ candidates := by
  induction n generalizing i candidates with
  | zero => simp [drawRates]
  | succ n ih =>
    cases candidates with
    | nil => simp [drawRates]
    | cons c rest =>
      have hlt : sample i % (c :: rest).length < (c :: rest).length :=
        Nat.mod_lt _ (Nat.succ_pos _)
      obtain ⟨hlen, hmem⟩ := ih (i + 1) ((c :: rest).eraseIdx (sample i % (c :: rest).length))
      refine ⟨Nat.succ_le_succ hlen, fun rate hrate => ?_⟩
      obtain rfl | hrate := List.mem_cons.mp hrate
      · rw [List.getD_eq_getElem _ _ hlt]
        exact List.getElem_mem hlt
      · exact List.mem_of_mem_eraseIdx (hmem rate hrate)

/-- The filler completes the samples. -/
theorem fillSamples_spec {numSampleRates startInd : Nat} {sampled : List Nat}
    (hlen : sampled.length ≤ numSampleRates) (hmem : ∀ rate ∈ sampled, rate ∈ rates)
    (hstart : startInd - 2 < rates.length) :
    (fillSamples rates numSampleRates startInd sampled).length = numSampleRates ∧
      ∀ rate ∈ fillSamples rates numSampleRates startInd sampled, rate ∈ rates := by
  constructor
  · rw [fillSamples, List.length_append, List.length_replicate]
    omega
  · intro rate hrate
    obtain hrate | hrate := List.mem_append.mp hrate
    · exact hmem rate hrate
    · rw [(List.mem_replicate.mp hrate).2, List.getD_eq_getElem _ _ hstart]
      exact List.getElem_mem hstart

/-- One sample in the sampling versions, none in the others. -/
theorem drawSamples_spec (hrate : s.rate ∈ rates) (h : s.drawSamples r 1 kSampleBound = .ok s') :
    s'.rate = s.rate ∧ s'.rateAdaptVersion = s.rateAdaptVersion ∧
      s'.sampleRates.length = s.rateAdaptVersion.numSamples ∧
      ∀ rate ∈ s'.sampleRates, rate ∈ rates := by
  have hind : s.rateInd + 1 - 2 < rates.length := by
    have hlt := List.idxOf_lt_length_of_mem hrate
    rw [rateInd, if_pos hrate]
    omega
  unfold drawSamples at h
  dsimp only at h
  split at h
  · rename_i hzero
    cases hzero
  · unfold RateAdaptVersion.numSamples
    split at h
    · rename_i hmode
      injection h with h
      rw [← h, if_pos hmode]
      exact ⟨rfl, rfl, rfl, by simp⟩
    · -- the next rate, if it is feasible
      rename_i hmode
      injection h with h
      obtain ⟨hlen, hmem⟩ := fillSamples_spec (length_feasibleFrom_le _ _ _)
        (fun rate hrate => mem_of_feasibleFrom hrate) hind
      rw [← h, if_neg (by rw [hmode]; decide)]
      exact ⟨rfl, rfl, hlen, hmem⟩
    · -- one of the next two, if any is feasible
      rename_i hmode
      obtain ⟨sampled, hsampled, h⟩ := bind_eq_ok.mp h
      injection h with h
      unfold sampleRatesRandom at hsampled
      split at hsampled
      · injection hsampled with hsampled
        obtain ⟨hdrawn, hcandidate⟩ := drawRates_spec r.sample 0 1 _
        rw [hsampled] at hdrawn hcandidate
        obtain ⟨hlen, hmem⟩ := fillSamples_spec hdrawn
          (fun rate hrate => mem_of_feasibleFrom (hcandidate rate hrate)) hind
        rw [← h, if_neg (by rw [hmode]; decide)]
        exact ⟨rfl, rfl, hlen, hmem⟩
      · cases hsampled

/-! ### The rates of the batch -/

theorem applyRates_spec (b : Baseline) (i n : Nat) :
    (b.applyRates r i n).1.length = n ∧
      ∀ rate ∈ (b.applyRates r i n).1, rate ∈ mac80211abgRate := by
  induction n generalizing b i with
  | zero => simp [Baseline.applyRates]
  | succ n ih =>
    obtain ⟨hlen, hmem⟩ := ih (b.applyRate (r.clock i) (r.random i)).2 (i + 1)
    refine ⟨Nat.succ_inj.mpr hlen, fun rate hrate => ?_⟩
    obtain rfl | hrate := List.mem_cons.mp hrate
    · exact b.applyRate_mem _ _
    · exact hmem rate hrate

/-- The batch has the requested packets and the samples, at rates of the table. -/
theorem findRatesForBatch_spec {s s' : ScoutRateAdaptation mac80211abgRate}
    {r : Readings mac80211abgRate} {rateArr : List Nat} (hrate : s.rate ∈ mac80211abgRate)
    (hsamples : s.sampleRates.length = s.rateAdaptVersion.numSamples)
    (hmem : ∀ rate ∈ s.sampleRates, rate ∈ mac80211abgRate) (hn : 1 ≤ n)
    (h : s.findRatesForBatch r n = .ok (rateArr, s')) :
    (rateArr.length : Int) = n + s.rateAdaptVersion.numSamples ∧
      (∀ rate ∈ rateArr, rate ∈ mac80211abgRate) ∧
      (s.rateAdaptVersion.sampleMode ≠ .noSample → rateArr.Pairwise (· ≤ ·)) := by
  -- the baselines decide on every packet anew
  have hbaseline : ∀ b : Baseline,
      (s.rate :: (b.applyRates r 1 (n - 1).toNat).1).length = n ∧
        ∀ rate ∈ s.rate :: (b.applyRates r 1 (n - 1).toNat).1, rate ∈ mac80211abgRate := by
    intro b
    obtain ⟨hlen, hrest⟩ := applyRates_spec b 1 (n - 1).toNat
    refine ⟨by rw [List.length_cons, hlen]; omega, fun rate hin => ?_⟩
    obtain rfl | hin := List.mem_cons.mp hin
    · exact hrate
    · exact hrest rate hin
  -- the sampling versions repeat one rate, add the samples and sort
  have hsampling : ∀ arr : List Nat,
      arr = (List.replicate n.toNat s.rate ++ s.sampleRates).mergeSort →
      (arr.length : Int) = n + s.sampleRates.length ∧ (∀ rate ∈ arr, rate ∈ mac80211abgRate) ∧
        arr.Pairwise (· ≤ ·) := by
    rintro arr rfl
    refine ⟨?_, fun rate hin => ?_, ?_⟩
    · rw [List.length_mergeSort, List.length_append, List.length_replicate]
      omega
    · obtain hin | hin := List.mem_append.mp (List.mem_mergeSort.mp hin)
      · rw [(List.mem_replicate.mp hin).2]
        exact hrate
      · exact hmem rate hin
    · exact List.pairwise_mergeSort' _ _
  cases hversion : s.rateAdaptVersion with
  | sampleRate | rraa =>
    simp only [findRatesForBatch, hversion] at h
    split at h
    · rename_i b _
      injection h with h
      injection h with harr
      rw [← harr]
      obtain ⟨hlen, hrates⟩ := hbaseline b
      refine ⟨?_, hrates, fun hne => absurd rfl hne⟩
      rw [hlen]
      simp [RateAdaptVersion.numSamples, RateAdaptVersion.sampleMode]
    · cases h
  | fixed =>
    simp only [findRatesForBatch, hversion] at h
    injection h with h
    injection h with harr
    rw [← harr]
    refine ⟨?_, fun rate hin => ?_, fun hne => absurd rfl hne⟩
    · simp [RateAdaptVersion.numSamples, RateAdaptVersion.sampleMode]
      omega
    · rw [(List.mem_replicate.mp hin).2]
      exact hrate
  | batchSeq | batchRandom | scoutSeq | scoutRandom | scoutBoundLossSeq | scoutBoundLossRandom =>
    simp only [findRatesForBatch, hversion] at h
    injection h with h
    injection h with harr
    obtain ⟨hlen, hrates, hsorted⟩ := hsampling _ harr.symm
    rw [← hversion, ← hsamples]
    exact ⟨hlen, hrates, fun _ => hsorted⟩

end ScoutRateAdaptation

section

variable {s s' : ScoutRateAdaptation mac80211abgRate} {r : Readings mac80211abgRate}
  {mode : TransmitMode} {coherenceTime pktSize extraTime : Nat} {k : Int} {d : BatchDecision}

/-- A batch of this shape with a few data packets can be sent. -/
theorem BatchShape.sendable {v : RateAdaptVersion} {nFec : Int} (h : BatchShape v nFec d)
    (hk : 1 ≤ d.k) : d.Sendable := by
  have hle := h.k_le
  have hn := h.n_le
  -- `n` is at most 255, so that a byte holds it and everything below it
  have hkn : d.k.toNat ≤ d.n := by omega
  have hkByte : uint8 d.k.toNat = d.k.toNat := Nat.mod_eq_of_lt (by omega)
  have hnByte : uint8 d.n = d.n := Nat.mod_eq_of_lt (by omega)
  constructor
  · rw [hkByte]
    omega
  · exact hnByte
  · have hgf : GF_SIZE = 255 := rfl
    simp only [fecNewAccepts, decide_eq_true_eq]
    omega
  · intro c startSeq
    exact h.n_eq.symm
  · intro c ids scratch startSeq ind hraw hbatch hstart hind
    have hlt : ind < d.rateArr.length := h.n_eq ▸ hind
    have hrate : (rateCode (d.rateArr.getD ind 0)).isSome := by
      rw [List.getD_eq_getElem _ _ hlt]
      exact (h.rates _ (List.getElem_mem hlt)).2
    have hseq : 0 < (c.setCodeInfo d.k.toNat d.n startSeq).startSeq := by
      rw [CodeInfo.setCodeInfo, if_pos hstart]
      exact hstart
    obtain ⟨f, hf⟩ : ∃ f, buildHeader ids scratch (c.setCodeInfo d.k.toNat d.n startSeq)
        (d.rateArr.getD ind 0) ind = .ok f := buildHeader_ok hraw hbatch hseq hind hkn hrate
    obtain ⟨-, -, -, hfind, hfk, hfn, -⟩ := buildHeader_hdr hf
    refine ⟨f, hf, ?_, ?_, ?_⟩
    · rw [hfind]
      exact Nat.mod_eq_of_lt (by omega)
    · rw [hfk]
      show (uint8 d.k.toNat : Int) = d.k
      omega
    · rw [hfn]
      exact hnByte

/-- The parts of `MakeDecision` together. -/
theorem makeDecision_spec (hrate : s.rate ∈ mac80211abgRate)
    (h : s.makeDecision r mode coherenceTime pktSize extraTime k = .ok (d, s')) (hk : 1 ≤ d.k) :
    ∃ s₁ nFec, s.decideRate r mode = .ok s₁ ∧
      s₁.applyFEC mode coherenceTime pktSize extraTime k = .ok (d.k, nFec) ∧ d.k ≤ kMaxK ∧
      BatchShape s.rateAdaptVersion nFec d := by
  obtain ⟨s₁, h₁, h⟩ := bind_eq_ok.mp h
  obtain ⟨⟨k', nFec⟩, hfec, h⟩ := bind_eq_ok.mp h
  obtain ⟨isDuplicate, -, h⟩ := bind_eq_ok.mp h
  obtain ⟨s₂, h₂, h⟩ := bind_eq_ok.mp h
  obtain ⟨⟨rateArr, s₃⟩, h₃, h⟩ := bind_eq_ok.mp h
  injection h with h
  injection h with hd
  rw [← hd] at hk ⊢
  change 1 ≤ k' at hk
  -- from one part to the next: the rate stays in the table and the version is kept
  obtain ⟨hrate₁, hversion₁⟩ := s.decideRate_spec hrate h₁
  obtain ⟨hmax, hkn, hgf⟩ := ScoutRateAdaptation.applyFEC_bounds hfec hk
  have hone : (if isDuplicate then 1 else kNumSampleRates) = 1 := by
    split
    · rfl
    · rfl
  rw [hone] at h₂
  obtain ⟨hrate₂, hversion₂, hlen₂, hmem₂⟩ := ScoutRateAdaptation.drawSamples_spec hrate₁ h₂
  have hdata : 1 ≤ (if isDuplicate then k' else nFec) := by
    split <;> omega
  rw [← hversion₂] at hlen₂
  obtain ⟨hlen, hrates, hsorted⟩ := ScoutRateAdaptation.findRatesForBatch_spec
    (hrate₂ ▸ hrate₁) hlen₂ hmem₂ hdata h₃
  rw [hversion₂, hversion₁] at hlen hsorted
  -- the limit on the coded packets leaves room for the sample
  have hextra : s.rateAdaptVersion.numSamples ≤ 1 := by
    unfold RateAdaptVersion.numSamples
    split
    · exact Nat.zero_le 1
    · exact Nat.le_refl 1
  have hgfSize : kGFSize = 254 := rfl
  have hshape : BatchShape s.rateAdaptVersion nFec ⟨k', rateArr.length, rateArr, isDuplicate⟩ := by
    refine ⟨?_, rfl, ?_, fun rate hin => ?_, hlen, hsorted⟩
    · show k' ≤ (rateArr.length : Int)
      split at hlen <;> omega
    · show rateArr.length ≤ 255
      split at hlen <;> omega
    · exact ⟨hrates rate hin, rateCode_isSome rate (hrates rate hin)⟩
  exact ⟨s₁, nFec, h₁, hfec, hmax, hshape⟩

/-- Only for new packets does `MakeDecision` choose `k`. -/
theorem applyFEC_k {s : ScoutRateAdaptation mac80211abgRate} {k' n : Int} (hmode : mode ≠ .data)
    (h : s.applyFEC mode coherenceTime pktSize extraTime k = .ok (k', n)) : k' = k := by
  cases mode with
  | data => exact absurd rfl hmode
  | timeOut | retrans =>
    obtain ⟨n', -, h⟩ := bind_eq_ok.mp h
    injection h with h
    injection h with hk'
    exact hk'.symm

/-- A decision with data packets is an answer that the model of `TxSendAth` expects. -/
theorem makeDecision_answers (hrate : s.rate ∈ mac80211abgRate)
    (h : s.makeDecision r mode coherenceTime pktSize extraTime k = .ok (d, s')) (hk : 1 ≤ d.k) :
    Decision.Answers ⟨d.k.toNat, d.rateArr⟩ mode k.toNat := by
  obtain ⟨s₁, nFec, -, hfec, hmax, hshape⟩ := makeDecision_spec hrate h hk
  have hle : d.k.toNat ≤ d.rateArr.length := by
    have hkn := hshape.k_le
    rw [hshape.n_eq] at hkn
    omega
  have hmaxK : kMaxK = MAX_BATCH_SIZE := rfl
  cases mode with
  | data => exact ⟨show 1 ≤ d.k.toNat by omega, show d.k.toNat ≤ MAX_BATCH_SIZE by omega, hle⟩
  | timeOut => exact ⟨congrArg Int.toNat (applyFEC_k (by decide) hfec), hle⟩
  | retrans => exact ⟨congrArg Int.toNat (applyFEC_k (by decide) hfec), hle⟩

/-- Whenever `MakeDecision` returns with data packets, `k`, `n` and the rates fit together, and the
batch can be encoded and sent. -/
theorem makeDecision_shape (hrate : s.rate ∈ mac80211abgRate)
    (h : s.makeDecision r mode coherenceTime pktSize extraTime k = .ok (d, s')) (hk : 1 ≤ d.k) :
    ∃ s₁ nFec, s.decideRate r mode = .ok s₁ ∧
      s₁.applyFEC mode coherenceTime pktSize extraTime k = .ok (d.k, nFec) ∧
      BatchShape s.rateAdaptVersion nFec d ∧ d.Sendable := by
  obtain ⟨s₁, nFec, h₁, hfec, -, hshape⟩ := makeDecision_spec hrate h hk
  exact ⟨s₁, nFec, h₁, hfec, hshape, hshape.sendable hk⟩

end

/-- No feedback so far. -/
def noReadings : Readings mac80211abgRate := ⟨none, none, fun _ => ⟨0, 0⟩, fun _ => 0, fun _ => 0⟩

/-- A new client. -/
def newClient : ScoutRateAdaptation mac80211abgRate :=
  .init mac80211abgRate .scoutCombine .noSample

/-- The first partial batch of a new client: one packet at the lowest rate, one sample. -/
theorem makeDecision_shape_newClient :
    ∃ d s', newClient.makeDecision noReadings .timeOut 0 0 0 1 = .ok (d, s') ∧
      d.rateArr = [10, 20] ∧ ∃ nFec, BatchShape .scoutSeq nFec d ∧ d.Sendable := by
  have hfec : newClient.applyFEC .timeOut 0 0 0 1 = .ok (1, 7) := by decide +kernel
  have hdup : newClient.decideDuplicate .timeOut = .ok true := by decide +kernel
  have hsort : (List.replicate 1 10 ++ [20]).mergeSort = [10, 20] :=
    List.mergeSort_of_pairwise (by decide)
  let sampled := { newClient with sampleMode := .sequential, sampleRates := [20] }
  have hrates : sampled.findRatesForBatch noReadings 1 = .ok ([10, 20], sampled) := by
    rw [← hsort]
    rfl
  have hrun : newClient.makeDecision noReadings .timeOut 0 0 0 1 =
      .ok (⟨1, 2, [10, 20], true⟩, sampled) :=
    bind_eq_ok.mpr ⟨_, rfl, bind_eq_ok.mpr ⟨_, hfec, bind_eq_ok.mpr ⟨_, hdup,
      bind_eq_ok.mpr ⟨_, rfl, bind_eq_ok.mpr ⟨_, hrates, rfl⟩⟩⟩⟩⟩
  obtain ⟨s₁, nFec, -, -, hshape, hsend⟩ := makeDecision_shape (by decide) hrun (by decide)
  exact ⟨_, _, hrun, rfl, nFec, hshape, hsend⟩

end WspaceScout
