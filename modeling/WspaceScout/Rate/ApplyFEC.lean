import Mathlib.Algebra.Order.Floor.Ring
import Mathlib.Data.Rat.Floor
import WspaceScout.AsymUtil.TxDataBuf
import WspaceScout.Fec.CodeInfo
import WspaceScout.Rate.LossMap

/-!
# How many coded packets a batch gets

The arithmetic of `ApplyFECForData`, `ApplyFECForTimeOut` and `ApplyFECForRetransmission`, given the
combined loss of the current rate. Doubles are read as exact rationals. A conversion of a double to
`uint32_t` keeps the low 32 bits, one of `uint32_t` to `int` is two's complement, and a double that
is out of the range of `int` is converted to the least one, which is what x86 makes of it.

## Main results

- `fecForData_of_pos` — with one packet per coherence time the assertion holds
- `fecForTimeOut_bounds` — `n` is at least `k` and within its limit
- `fecForRetransmission_bounds`, `fecForRetransmission_overflow` — the same for a retransmission,
  unless the loss is so close below 0.95 that the conversion overflows
-/

namespace WspaceScout

open Foundation

/-- `kNumSampleRates`. -/
def kNumSampleRates : Nat := 1

/-- The members that `ClientContext` sets: `gf_size - kNumSampleRates` and `max_k`. -/
def kGFSize : Int := GF_SIZE - kNumSampleRates
def kMaxK : Int := MAX_BATCH_SIZE

/-- The start redundancies of data and of the other two modes, if the loss is not known. -/
def kStartRedundancyData : ℚ := 6 / 10
def kStartRedundancy : ℚ := 8 / 10

/-- Extra redundancy against bursty loss. -/
def kExtraRedundancy : ℚ := 5 / 100

/-- Packets added where the extra redundancy is not enough. -/
def kExtraNumPkts : Int := 1

/-- Above this loss no packet is added. -/
def kMaxLoss : ℚ := 9 / 10

/-- The value of a 32-bit unsigned number as an `int`. -/
def toInt32 (n : Nat) : Int := if n < 2147483648 then n else n - 4294967296

/-- The whole number that `floor` or `ceil` gives, assigned to an `int`. -/
def doubleToInt (x : Int) : Int :=
  if -2147483648 ≤ x ∧ x ≤ 2147483647 then x else -2147483648

/-- `uint32_t pkt_duration = pkt_size * 8.0 / (rate_ / 10.) + extra_time`, in microseconds. -/
def pktDuration (rate pktSize extraTime : Nat) : Nat :=
  uint32 ⌊(pktSize * 8 / (rate / 10) + extraTime : ℚ)⌋₊

/-- `coherence_time / pkt_duration`. -/
def pktsPerCoherence (coherenceTime pktDuration : Nat) : Except RateFault Int :=
  if pktDuration = 0 then .error .pktDuration else .ok (toInt32 (coherenceTime / pktDuration))

/-- The redundancy that goes with a loss. -/
def redundancyFor (start : ℚ) (loss : LossRate) : ℚ :=
  if loss.val = INVALID_LOSS_RATE then start + kExtraRedundancy else loss.val + kExtraRedundancy

/-- `loss <= kMaxLoss && loss != INVALID_LOSS_RATE`. -/
def isLowLoss (loss : LossRate) : Bool := loss.val ≤ kMaxLoss ∧ loss.val ≠ INVALID_LOSS_RATE

/-- `n_no_extra_redundancy`: the packets that the loss alone asks for. -/
def nNoExtraRedundancy (loss : LossRate) (k : Int) : Int :=
  if isLowLoss loss then doubleToInt ⌈(k / (1 - loss.val) : ℚ)⌉ else -1

/-- Make sure that there are `kExtraNumPkts` extra packets, within the limit `maxN`. -/
def withExtraPkts (n nNoExtra maxN : Int) : Int :=
  let n :=
    if kExtraRedundancy > 0 ∧ n < nNoExtra + kExtraNumPkts ∧ nNoExtra + kExtraNumPkts ≤ maxN then
      nNoExtra + kExtraNumPkts
    else n
  if n > maxN then maxN else n

/-- `k` for `n` coded packets, with both cut down if there are too many data packets. -/
def capK (redundancy : ℚ) (n : Int) : Int × Int :=
  let k := doubleToInt ⌊(n * (1 - redundancy) : ℚ)⌋
  if k > kMaxK then (kMaxK, doubleToInt ⌈(kMaxK / (1 - redundancy) : ℚ)⌉) else (k, n)

/-- Leave room for an extra packet, but at least one data packet. -/
def spareK (loss : LossRate) (n k : Int) : Int :=
  let kNoExtra := doubleToInt ⌊(n * (1 - loss.val) : ℚ)⌋
  let k := if isLowLoss loss ∧ kNoExtra - kExtraNumPkts < k then kNoExtra - kExtraNumPkts else k
  if k ≤ 0 then 1 else k

/-- `ApplyFECForData` with FEC, from `n = coherence_time / pkt_duration` on: `k` and `n`. -/
def fecForData (loss : LossRate) (n : Int) : Except RateFault (Int × Int) :=
  let capped := capK (redundancyFor kStartRedundancyData loss) n
  let n := if capped.2 > kGFSize then kGFSize else capped.2
  let k := spareK loss n capped.1
  if k > 0 ∧ k ≤ kMaxK ∧ n ≥ k ∧ n ≤ kGFSize then .ok (k, n) else .error .fecData

/-- `ApplyFECForTimeOut` with FEC. -/
def fecForTimeOut (loss : LossRate) (k : Int) : Int :=
  let maxRedundancy : ℚ := 1 - k / (kGFSize - 1)  -- minus one is for the ceiling
  let redundancy := redundancyFor kStartRedundancy loss
  let redundancy := if redundancy > maxRedundancy then maxRedundancy else redundancy
  withExtraPkts (doubleToInt ⌈(k / (1 - redundancy) : ℚ)⌉) (nNoExtraRedundancy loss k) kGFSize

/-- `ApplyFECForRetransmission` with FEC. -/
def fecForRetransmission (loss : LossRate) (k kMaxN : Int) : Int :=
  let redundancy := redundancyFor kStartRedundancy loss
  let n := if redundancy < 1 then doubleToInt ⌈(k / (1 - redundancy) : ℚ)⌉ else kMaxN
  withExtraPkts n (nNoExtraRedundancy loss k) kMaxN

/-! ### Conversions -/

section Conversions

variable {x : Int}

theorem doubleToInt_of_fits (h0 : -2147483648 ≤ x) (h1 : x ≤ 2147483647) : doubleToInt x = x :=
  if_pos ⟨h0, h1⟩

theorem doubleToInt_overflow (h : 2147483647 < x) : doubleToInt x = -2147483648 :=
  if_neg fun hfits => absurd hfits.2 (not_le.mpr h)

/-- Above the least `int`, the conversion has not overflowed. -/
theorem doubleToInt_eq (h : -2147483648 < doubleToInt x) : doubleToInt x = x := by
  rw [doubleToInt] at h ⊢
  split at h
  · next hfits => exact if_pos hfits
  · exact absurd h (lt_irrefl _)

end Conversions

/-- The packets that a retransmission asks for fit an `int`. -/
def LossRate.FitsInt (loss : LossRate) : Prop :=
  loss.val ≤ 19 / 20 - 1 / 2147483647 ∨ 19 / 20 ≤ loss.val

theorem LossRate.fitsInt_invalid : LossRate.invalid.FitsInt :=
  .inl (by norm_num [LossRate.invalid, INVALID_LOSS_RATE])

/-! ### Bounds -/

variable {loss : LossRate} {k n maxN : Int} {r : ℚ}

theorem redundancyFor_ge (start : ℚ) (hstart : 0 ≤ start) (loss : LossRate) :
    kExtraRedundancy ≤ redundancyFor start loss := by
  unfold redundancyFor
  split
  · linarith
  · rename_i hloss
    linarith [(LossRate.between hloss).1]

/-- Redundancy never asks for fewer packets. -/
theorem le_ceil_div (hk : 0 ≤ k) (hr0 : 0 ≤ r) (hr1 : r < 1) : k ≤ ⌈(k / (1 - r) : ℚ)⌉ := by
  have hdiv : (k : ℚ) ≤ k / (1 - r) := by
    rw [le_div_iff₀ (by linarith)]
    have hk' : (0 : ℚ) ≤ k := by exact_mod_cast hk
    nlinarith
  exact_mod_cast hdiv.trans (Int.le_ceil _)

/-- The same for the `int`, if `m` packets carry `k` and `m` is one. -/
theorem le_doubleToInt_ceil_div {m : Int} (hk : 0 ≤ k) (hr0 : 0 ≤ r) (hr1 : r < 1)
    (hm : (k : ℚ) ≤ m * (1 - r)) (hmax : m ≤ 2147483647) :
    k ≤ doubleToInt ⌈(k / (1 - r) : ℚ)⌉ := by
  have hge := le_ceil_div hk hr0 hr1
  have hle : ⌈(k / (1 - r) : ℚ)⌉ ≤ m := Int.ceil_le.mpr ((div_le_iff₀ (by linarith)).mpr hm)
  rwa [doubleToInt_of_fits (by omega) (by omega)]

/-- The extra packets keep `n` between `k` and its limit. -/
theorem withExtraPkts_bounds (hn : k ≤ n) (hmax : k ≤ maxN) (nNoExtra : Int) :
    k ≤ withExtraPkts n nNoExtra maxN ∧ withExtraPkts n nNoExtra maxN ≤ maxN := by
  simp only [withExtraPkts]
  split <;> split <;> omega

/-- After an overflow, the extra packet is added to the -1 that stands for no packets. -/
theorem withExtraPkts_overflow (hmax : 0 ≤ maxN) : withExtraPkts (-2147483648) (-1) maxN = 0 := by
  have hextra : kExtraRedundancy > 0 := by norm_num [kExtraRedundancy]
  have hnum : kExtraNumPkts = 1 := rfl
  simp only [withExtraPkts, hnum, hextra, true_and]
  split <;> split <;> omega

theorem fecForTimeOut_bounds (loss : LossRate) (hk : 0 < k) (hmax : k < kMaxK) :
    k ≤ fecForTimeOut loss k ∧ fecForTimeOut loss k ≤ kGFSize := by
  have hmaxK : kMaxK = 10 := rfl
  have hsize : k < 10 := by omega
  have hk' : (0 : ℚ) < k := by exact_mod_cast hk
  have hsize' : (k : ℚ) < 10 := by exact_mod_cast hsize
  have hlimit : ((kGFSize : ℚ) - 1) = 253 := by norm_num [kGFSize, GF_SIZE, kNumSampleRates]
  have hextra : (0 : ℚ) < kExtraRedundancy := by norm_num [kExtraRedundancy]
  have hge := redundancyFor_ge kStartRedundancy (by norm_num [kStartRedundancy]) loss
  -- `k / 253` at least is left for the data
  have hleft : ∀ r : ℚ, r ≤ 1 - k / (kGFSize - 1) → r < 1 ∧ (k : ℚ) ≤ (253 : Int) * (1 - r) := by
    intro r hr
    rw [hlimit] at hr
    refine ⟨?_, ?_⟩
    · have hpos : (0 : ℚ) < k / 253 := by positivity
      linarith
    · push_cast
      linarith
  apply withExtraPkts_bounds
  · split
    · obtain ⟨hlt, hcarry⟩ := hleft _ le_rfl
      refine le_doubleToInt_ceil_div hk.le ?_ hlt hcarry (by norm_num)
      rw [hlimit, sub_nonneg, div_le_one (by norm_num)]
      linarith
    · next hle =>
      obtain ⟨hlt, hcarry⟩ := hleft _ (not_lt.mp hle)
      exact le_doubleToInt_ceil_div hk.le (by linarith) hlt hcarry (by norm_num)
  · have hgf : kGFSize = 254 := rfl
    omega

/-- The redundancy of a retransmission leaves enough for a packet to fit an `int`. -/
theorem LossRate.FitsInt.carry (h : loss.FitsInt)
    (hlt : redundancyFor kStartRedundancy loss < 1) :
    (1 : ℚ) ≤ (2147483647 : Int) * (1 - redundancyFor kStartRedundancy loss) := by
  push_cast
  rw [redundancyFor, kExtraRedundancy] at hlt ⊢
  split at hlt
  · next hloss =>
    rw [if_pos hloss, kStartRedundancy]
    norm_num
  · next hloss =>
    rw [if_neg hloss]
    obtain hle | hge := h
    · linarith
    · linarith

/-- One packet is retransmitted with at least itself and within the limit. -/
theorem fecForRetransmission_bounds (hfits : loss.FitsInt) (hmax : 1 ≤ maxN) :
    1 ≤ fecForRetransmission loss 1 maxN ∧ fecForRetransmission loss 1 maxN ≤ maxN := by
  have hextra : (0 : ℚ) < kExtraRedundancy := by norm_num [kExtraRedundancy]
  have hge := redundancyFor_ge kStartRedundancy (by norm_num [kStartRedundancy]) loss
  refine withExtraPkts_bounds ?_ hmax _
  split
  · next hlt =>
    have hcarry := hfits.carry hlt
    exact le_doubleToInt_ceil_div (by decide) (by linarith) hlt (by simpa using hcarry) le_rfl
  · exact hmax

/-- Just below a loss of 0.95 the conversion overflows, and no packet is left. -/
theorem fecForRetransmission_overflow (hnot : ¬loss.FitsInt) (hmax : 0 ≤ maxN) :
    fecForRetransmission loss 1 maxN = 0 := by
  obtain ⟨hlow, hhigh⟩ := not_or.mp hnot
  rw [not_le] at hlow hhigh
  have hknown : loss.val ≠ INVALID_LOSS_RATE := by
    rw [INVALID_LOSS_RATE]
    intro hval
    norm_num [hval] at hlow
  have hred : redundancyFor kStartRedundancy loss = loss.val + 1 / 20 := by
    rw [redundancyFor, if_neg hknown, kExtraRedundancy]
    norm_num
  have hlt : loss.val + 1 / 20 < 1 := by linarith
  have hceil : 2147483647 < ⌈((1 : Int) / (1 - (loss.val + 1 / 20)) : ℚ)⌉ := by
    rw [Int.lt_ceil, lt_div_iff₀ (by linarith)]
    push_cast
    linarith
  have hextra : nNoExtraRedundancy loss 1 = -1 := by
    refine if_neg fun hloss => ?_
    rw [isLowLoss, decide_eq_true_eq, kMaxLoss] at hloss
    linarith [hloss.1]
  rw [fecForRetransmission, hred, if_pos hlt, doubleToInt_overflow hceil, hextra]
  exact withExtraPkts_overflow hmax

/-- What the assertion of `ApplyFECForData` says. -/
theorem fecForData_bounds {n' : Int} (h : fecForData loss n = .ok (k, n')) :
    0 < k ∧ k ≤ kMaxK ∧ k ≤ n' ∧ n' ≤ kGFSize := by
  unfold fecForData at h
  dsimp only at h
  generalize (if (capK (redundancyFor kStartRedundancyData loss) n).2 > kGFSize then kGFSize
    else (capK (redundancyFor kStartRedundancyData loss) n).2) = m at h
  split at h
  · rename_i hcheck
    simp only [Except.ok.injEq, Prod.mk.injEq] at h
    rw [← h.1, ← h.2]
    exact hcheck
  · cases h

theorem capK_bounds (hn : 1 ≤ n) (hmax : n ≤ 2147483647) (hr : 0 ≤ r) :
    (capK r n).1 ≤ (capK r n).2 ∧ (capK r n).1 ≤ kMaxK ∧ 1 ≤ (capK r n).2 := by
  have hn' : (1 : ℚ) ≤ n := by exact_mod_cast hn
  have hfloor := Int.floor_le (n * (1 - r) : ℚ)
  have hmaxK : kMaxK = 10 := rfl
  unfold capK
  dsimp only
  split
  · rename_i hgt
    rw [doubleToInt_eq (by omega)] at hgt
    -- `n` packets carry more than ten, so that fewer than `n` carry ten
    have hcarry : (kMaxK : ℚ) ≤ n * (1 - r) := by
      have hgt' : (kMaxK : ℚ) < ⌊(n * (1 - r) : ℚ)⌋ := by exact_mod_cast hgt
      linarith
    have hlt : r < 1 := by
      by_contra hge
      have hten : (kMaxK : ℚ) = 10 := by norm_num [hmaxK]
      nlinarith
    have hceil := le_doubleToInt_ceil_div (k := kMaxK) (by omega) hr hlt hcarry hmax
    exact ⟨hceil, le_refl _, by omega⟩
  · rename_i hle
    have hkn : doubleToInt ⌊(n * (1 - r) : ℚ)⌋ ≤ n := by
      have hmul : (n * (1 - r) : ℚ) ≤ n := by nlinarith
      have hn'' : ⌊(n * (1 - r) : ℚ)⌋ ≤ n := by exact_mod_cast hfloor.trans hmul
      rw [doubleToInt]
      split <;> omega
    exact ⟨hkn, by omega, hn⟩

theorem spareK_bounds (loss : LossRate) (n k : Int) :
    1 ≤ spareK loss n k ∧ (spareK loss n k ≤ k ∨ spareK loss n k = 1) := by
  simp only [spareK]
  split <;> split <;> omega

/-- With one packet per coherence time or more, the assertion of `ApplyFECForData` holds. -/
theorem fecForData_of_pos (loss : LossRate) (hn : 1 ≤ n) (hmax : n ≤ 2147483647) :
    ∃ k n', fecForData loss n = .ok (k, n') := by
  have hextra : (0 : ℚ) < kExtraRedundancy := by norm_num [kExtraRedundancy]
  have hge := redundancyFor_ge kStartRedundancyData (by norm_num [kStartRedundancyData]) loss
  have hmaxK : kMaxK = 10 := rfl
  have hgf : kGFSize = 254 := rfl
  obtain ⟨hkn, hk, hn1⟩ := capK_bounds hn hmax (hextra.le.trans hge)
  unfold fecForData
  dsimp only
  generalize capK (redundancyFor kStartRedundancyData loss) n = capped at hkn hk hn1 ⊢
  have hlimit : capped.1 ≤ (if capped.2 > kGFSize then kGFSize else capped.2) ∧
      1 ≤ (if capped.2 > kGFSize then kGFSize else capped.2) ∧
      (if capped.2 > kGFSize then kGFSize else capped.2) ≤ kGFSize := by
    split <;> omega
  generalize (if capped.2 > kGFSize then kGFSize else capped.2) = m at hlimit ⊢
  have hspare := spareK_bounds loss m capped.1
  rw [if_pos (by omega)]
  exact ⟨_, _, rfl⟩

/-- With no packet per coherence time it fails: `k` is raised to one, but `n` stays zero. -/
theorem fecForData_zero (loss : LossRate) : fecForData loss 0 = .error .fecData := by
  have hcap : capK (redundancyFor kStartRedundancyData loss) 0 = (0, 0) := by
    have hfloor : ⌊((0 : Int) * (1 - redundancyFor kStartRedundancyData loss) : ℚ)⌋ = 0 := by simp
    unfold capK
    dsimp only
    rw [hfloor, doubleToInt_of_fits (by decide) (by decide)]
    exact if_neg (by decide)
  have hspare := (spareK_bounds loss 0 0).1
  unfold fecForData
  dsimp only
  rw [hcap]
  have hgf : ¬(0 : Int) > kGFSize := by decide
  dsimp only
  rw [if_neg hgf, if_neg (by omega)]

end WspaceScout
