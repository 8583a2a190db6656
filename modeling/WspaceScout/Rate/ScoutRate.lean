import WspaceScout.Foundation.CountedLoop
import WspaceScout.Rate.ApplyFEC
import WspaceScout.Rate.RobustRate
import WspaceScout.Rate.SampleRate

/-!
# The rate decision for a batch

`makeDecision` is `MakeDecision`: it combines the loss maps, chooses a rate, applies FEC and lists
the rate of every packet of the batch. What it looks up in the feedback records, the readings of
the clock and the random numbers are collected in `Readings`.

The loss of a rate can be read for the rates of the table only, so that reading one of another rate
is a fault, as it is in the source.

## Main definitions

- `ScoutRateAdaptation` — the members that the decision reads and writes
- `ScoutRateAdaptation.applyRate`, `ScoutRateAdaptation.applyFEC`,
  `ScoutRateAdaptation.drawSamples`, `ScoutRateAdaptation.findRatesForBatch` — its parts
- `ScoutRateAdaptation.makeDecision`
-/

namespace WspaceScout

open Foundation

/-- Why `MakeDecision` is called. -/
inductive TransmitMode where
  | data
  | timeOut
  | retrans
  deriving DecidableEq, Repr

/-- `RateAdaptVersion`. -/
inductive RateAdaptVersion where
  | sampleRate
  | rraa
  | fixed
  | batchSeq
  | batchRandom
  | scoutSeq
  | scoutRandom
  | scoutBoundLossSeq
  | scoutBoundLossRandom
  deriving DecidableEq, Repr

inductive CombineMode where
  | frontOnly
  | backOnly
  | delayCombine
  | scoutCombine
  deriving DecidableEq, Repr

inductive SampleMode where
  | noSample
  | sequential
  | random
  deriving DecidableEq, Repr

/-- The choice of `ConfigLossLookUp`. -/
def RateAdaptVersion.combineMode : RateAdaptVersion → CombineMode
  | .sampleRate | .rraa | .fixed => .backOnly
  | .batchSeq | .batchRandom => .delayCombine
  | .scoutSeq | .scoutRandom | .scoutBoundLossSeq | .scoutBoundLossRandom => .scoutCombine

/-- The choice of `ConfigSampleMode`. -/
def RateAdaptVersion.sampleMode : RateAdaptVersion → SampleMode
  | .batchSeq | .scoutSeq | .scoutBoundLossSeq => .sequential
  | .batchRandom | .scoutRandom | .scoutBoundLossRandom => .random
  | .sampleRate | .rraa | .fixed => .noSample

/-- `kSampleBound`. -/
def kSampleBound : Nat := 2

/-- `rate_adapt_baseline_`: either of the baselines with its packet window. -/
inductive Baseline where
  | sampleRate (r : RateAdaptation (SampleRate mac80211abgRate))
  | rraa (r : RateAdaptation RobustRate)

namespace Baseline

/-- `RateAdaptation::ApplyRate`. -/
def applyRate (now : MonotonicTimer) (random : Nat) : Baseline → Nat × Baseline
  | .sampleRate r =>
    let (decision, r) := r.applyRate now random
    (decision.rate, .sampleRate r)
  | .rraa r =>
    let (decision, r) := r.applyRate now random
    (decision.rate, .rraa r)

theorem applyRate_mem (b : Baseline) (now : MonotonicTimer) (random : Nat) :
    (b.applyRate now random).1 ∈ mac80211abgRate := by
  cases b with
  | sampleRate r => exact r.baseRate.applyRate_mem now random
  | rraa r =>
    have hsub : ∀ rate ∈ rraaRate, rate ∈ mac80211abgRate := by decide
    exact hsub _ r.baseRate.applyRate_mem

end Baseline

/-- What a decision reads from outside: the losses at the same location and the rates that worked
recently, if there are any feedback records for them; the clock and `rand()` at the `i`-th call of
`RateAdaptation::ApplyRate`; and `rand()` for the `i`-th sampled rate. -/
structure Readings (rates : List Nat) where
  frontLoss : Option (KeyedTable rates ℚ)
  successRates : Option (List Nat)
  clock : Nat → MonotonicTimer
  random : Nat → Nat
  sample : Nat → Nat

/-- The rates of the calls of `ApplyRate` from the `i`-th on. -/
def Baseline.applyRates {rates : List Nat} (r : Readings rates) :
    Baseline → Nat → Nat → List Nat × Baseline
  | b, _, 0 => ([], b)
  | b, i, n + 1 =>
    let (rate, b) := b.applyRate (r.clock i) (r.random i)
    let (rest, b) := applyRates r b (i + 1) n
    (rate :: rest, b)

/-- The members of the class that `MakeDecision` reads or writes. -/
structure ScoutRateAdaptation (rates : List Nat) where
  rate : Nat
  rateAdaptVersion : RateAdaptVersion
  combineMode : CombineMode
  sampleMode : SampleMode
  useFec : Bool
  feasibleRates : List Nat
  sampleRates : List Nat
  lossMapFront : LossMap rates
  lossMapBack : LossMap rates
  lossMapScout : LossMap rates
  lossMapCombine : LossMap rates
  rateAdaptBaseline : Option Baseline
  duplicateThresh : ℚ
  lossBound : ℚ
  enableDuplicate : Bool

/-- What `MakeDecision` writes to its out-parameters. -/
structure BatchDecision where
  k : Int
  n : Nat
  rateArr : List Nat
  isDuplicate : Bool
  deriving DecidableEq, Repr

/-- `FindMaxInd`; none stands for -1. -/
def findMaxInd (arr : List ℚ) : Option Nat :=
  if arr.length = 0 then none
  else some <| (List.range' 1 (arr.length - 1)).foldl
    (fun maxInd i => if arr.getD maxInd 0 < arr.getD i 0 then i else maxInd) 0

namespace ScoutRateAdaptation

variable {rates : List Nat}

/-- The constructor; it does not set the combine mode and the sample mode. -/
def init (rates : List Nat) (combineMode : CombineMode) (sampleMode : SampleMode) :
    ScoutRateAdaptation rates where
  rate := rates.getD 0 0
  rateAdaptVersion := .scoutSeq
  combineMode := combineMode
  sampleMode := sampleMode
  useFec := true
  feasibleRates := []
  sampleRates := []
  lossMapFront := .init
  lossMapBack := .init
  lossMapScout := .init
  lossMapCombine := .init
  rateAdaptBaseline := none
  duplicateThresh := 7 / 10
  lossBound := 65 / 100
  enableDuplicate := true

/-! ### The current rate -/

/-- `CalcLossRates(front_window, back_window)`. -/
def calcLossRates (s : ScoutRateAdaptation rates) (r : Readings rates) :
    Except RateFault (ScoutRateAdaptation rates) := do
  -- a previous weight of -1 means that the new loss replaces the old one
  let lossMapScout ← (List.finRange rates.length).foldlM (fun m i =>
      m.updateLoss (rates.get i) (r.frontLoss.elim INVALID_LOSS_RATE fun loss => loss i) (-1))
    s.lossMapScout
  .ok { s with lossMapScout := lossMapScout, feasibleRates := r.successRates.getD rates }

/-- The location-based lookup, which `CalcLossRatesAfterCombine` makes in one of the modes. -/
def lookUpScout (s : ScoutRateAdaptation rates) (r : Readings rates) :
    Except RateFault (ScoutRateAdaptation rates) :=
  if s.combineMode = .scoutCombine then s.calcLossRates r else .ok s

/-- The body of the loop in `CalcLossRatesAfterCombine`. -/
def combinedLoss (s : ScoutRateAdaptation rates) (rate : Nat) : Except RateFault ℚ :=
  match s.combineMode with
  | .frontOnly => do
    let loss ← s.lossMapFront.getLossRate rate
    .ok loss.val
  | .backOnly => do
    let loss ← s.lossMapBack.getLossRate rate
    .ok loss.val
  | .delayCombine => do
    let lossFront ← s.lossMapFront.getLossRate rate
    let lossBack ← s.lossMapBack.getLossRate rate
    .ok (calcLossRatesFrontBack lossFront.val lossBack.val)
  | .scoutCombine => do
    let lossFront ← s.lossMapScout.getLossRate rate
    let lossFrontDelay ← s.lossMapFront.getLossRate rate
    let lossBack ← s.lossMapBack.getLossRate rate
    .ok (calcLossRatesFrontBack (max lossFront.val lossFrontDelay.val) lossBack.val)

/-- `CalcLossRatesAfterCombine`. -/
def calcLossRatesAfterCombine (s : ScoutRateAdaptation rates) (r : Readings rates) :
    Except RateFault (ScoutRateAdaptation rates) := do
  -- `ConfigLossLookUp`, then the location-based lookup
  let s ← lookUpScout { s with combineMode := s.rateAdaptVersion.combineMode } r
  let lossMapCombine ← rates.foldlM (fun m rate => do
      let loss ← s.combinedLoss rate
      m.updateLoss rate loss (-1))
    s.lossMapCombine
  .ok { s with lossMapCombine := lossMapCombine }

/-- `IsFeasible`. -/
def isFeasible (s : ScoutRateAdaptation rates) (rate : Nat) : Bool :=
  s.feasibleRates.length = 0 ∨ rate ∈ s.feasibleRates

/-- The body of the loop in `ApplyRateScout`; rates are in units of 100 kbit/s. -/
def throughput (s : ScoutRateAdaptation rates) (lossThresh : ℚ) (rate : Nat) (loss : LossRate) :
    ℚ :=
  if ¬s.isFeasible rate ∨ loss.val > lossThresh then 0
  else if loss.val = INVALID_LOSS_RATE then if rate > s.rate then 0 else rate / 10
  else rate / 10 * (1 - loss.val)

/-- `ApplyRateScout`. -/
def applyRateScout (s : ScoutRateAdaptation rates) (lossThresh : ℚ) :
    Except RateFault (ScoutRateAdaptation rates) := do
  let throughputArr ← rates.mapM fun rate => do
    let loss ← s.lossMapCombine.getLossRate rate
    .ok (s.throughput lossThresh rate loss)
  match (findMaxInd throughputArr).bind fun maxInd => rates[maxInd]? with
  | some rate => .ok { s with rate := rate }
  | none => .error .maxInd

/-- `ApplyRate`; `now` and `random` are for the baselines. -/
def applyRate (s : ScoutRateAdaptation rates) (now : MonotonicTimer) (random : Nat) :
    Except RateFault (ScoutRateAdaptation rates) :=
  match s.rateAdaptVersion with
  | .sampleRate | .rraa =>
    match s.rateAdaptBaseline with
    | some b =>
      let (rate, b) := b.applyRate now random
      .ok { s with rate := rate, rateAdaptBaseline := some b }
    | none => .error .noBaseline
  | .fixed => .ok s
  | .batchSeq | .batchRandom | .scoutSeq | .scoutRandom => s.applyRateScout (15 / 10)
  | .scoutBoundLossSeq | .scoutBoundLossRandom => s.applyRateScout s.lossBound

/-! ### FEC -/

/-- `ApplyFECForData`: `k` and `n`. -/
def applyFECForData (s : ScoutRateAdaptation rates) (coherenceTime pktSize extraTime : Nat) :
    Except RateFault (Int × Int) := do
  let n ← pktsPerCoherence coherenceTime (pktDuration s.rate pktSize extraTime)
  if s.useFec then
    let loss ← s.lossMapCombine.getLossRate s.rate
    fecForData loss n
  else
    let n := if n > kMaxK then kMaxK else n
    .ok (n, n)

/-- `ApplyFECForTimeOut`. -/
def applyFECForTimeOut (s : ScoutRateAdaptation rates) (k : Int) : Except RateFault Int :=
  if k > 0 ∧ k < kMaxK then
    if s.useFec then do
      let loss ← s.lossMapCombine.getLossRate s.rate
      .ok (fecForTimeOut loss k)
    else .ok k
  else .error .fecTimeOut

/-- `ApplyFECForRetransmission`. -/
def applyFECForRetransmission (s : ScoutRateAdaptation rates)
    (coherenceTime pktSize extraTime : Nat) (k : Int) : Except RateFault Int := do
  let perCoherence ← pktsPerCoherence coherenceTime (pktDuration s.rate pktSize extraTime)
  let kMaxN := min perCoherence kGFSize
  -- the first assertion; without FEC the second one is not reached
  if k > 0 ∧ k ≤ kMaxN ∧ k ≤ kMaxK then
    if s.useFec then
      let loss ← s.lossMapCombine.getLossRate s.rate
      let n := fecForRetransmission loss k kMaxN
      if n ≥ k ∧ n ≤ kMaxN then .ok n else .error .fecRetransN
    else .ok k
  else .error .fecRetransK

/-- `ApplyFEC`: `k`, which only data packets change, and `n`. -/
def applyFEC (s : ScoutRateAdaptation rates) (mode : TransmitMode)
    (coherenceTime pktSize extraTime : Nat) (k : Int) : Except RateFault (Int × Int) :=
  match mode with
  | .data => s.applyFECForData coherenceTime pktSize extraTime
  | .timeOut => do
    let n ← s.applyFECForTimeOut k
    .ok (k, n)
  | .retrans => do
    let n ← s.applyFECForRetransmission coherenceTime pktSize extraTime k
    .ok (k, n)

/-! ### Sampling -/

/-- `rate_ind`: a map returns zero for a key that it does not have. -/
def rateInd (s : ScoutRateAdaptation rates) : Nat :=
  if s.rate ∈ rates then rates.idxOf s.rate else 0

/-- The feasible rates among the `count` rates from `startInd` on. -/
def feasibleFrom (s : ScoutRateAdaptation rates) (startInd count : Nat) : List Nat :=
  ((rates.drop startInd).take count).filter s.isFeasible

/-- The loop of `SampleRatesRandom` that draws without replacement. -/
def drawRates (sample : Nat → Nat) : Nat → Nat → List Nat → List Nat
  | _, 0, _ => []
  | _, _ + 1, [] => []
  | i, n + 1, rate :: rest =>
    let candidates := rate :: rest
    let randInd := sample i % candidates.length
    candidates.getD randInd 0 :: drawRates sample (i + 1) n (candidates.eraseIdx randInd)

/-- `SampleRatesRandom`; `SampleRatesSequential` is `feasibleFrom`. -/
def sampleRatesRandom (s : ScoutRateAdaptation rates) (r : Readings rates)
    (startInd numSampleRates bound : Nat) : Except RateFault (List Nat) :=
  if numSampleRates ≤ bound then
    .ok (drawRates r.sample 0 numSampleRates (s.feasibleFrom startInd bound))
  else .error .sampleBound

/-- Fill up with a rate lower than the current one. -/
def fillSamples (rates : List Nat) (numSampleRates startInd : Nat) (sampled : List Nat) :
    List Nat :=
  sampled ++ List.replicate (numSampleRates - sampled.length) (rates.getD (startInd - 2) 0)

/-- `SampleRates`. -/
def drawSamples (s : ScoutRateAdaptation rates) (r : Readings rates) (numSampleRates bound : Nat) :
    Except RateFault (ScoutRateAdaptation rates) :=
  if numSampleRates = 0 then .ok { s with sampleRates := [] }
  else
    -- `ConfigSampleMode`
    let s := { s with sampleRates := [], sampleMode := s.rateAdaptVersion.sampleMode }
    let startInd := s.rateInd + 1
    match s.sampleMode with
    | .noSample => .ok s
    | .sequential =>
      let sampled := s.feasibleFrom startInd numSampleRates
      .ok { s with sampleRates := fillSamples rates numSampleRates startInd sampled }
    | .random => do
      let sampled ← s.sampleRatesRandom r startInd numSampleRates bound
      .ok { s with sampleRates := fillSamples rates numSampleRates startInd sampled }

/-! ### The decision -/

/-- `FindRatesForBatch`: the rates and the state. `set_rate_adapt_version` sees to it that the first
two versions have a baseline. -/
def findRatesForBatch (s : ScoutRateAdaptation rates) (r : Readings rates) (numDataPkts : Int) :
    Except RateFault (List Nat × ScoutRateAdaptation rates) :=
  match s.rateAdaptVersion with
  | .sampleRate | .rraa =>
    match s.rateAdaptBaseline with
    | some b =>
      let (rest, b) := b.applyRates r 1 (numDataPkts - 1).toNat
      .ok (s.rate :: rest, { s with rateAdaptBaseline := some b })
    | none => .error .noBaseline
  | .fixed => .ok (List.replicate numDataPkts.toNat s.rate, s)
  | .batchSeq | .batchRandom | .scoutSeq | .scoutRandom | .scoutBoundLossSeq |
    .scoutBoundLossRandom =>
    .ok ((List.replicate numDataPkts.toNat s.rate ++ s.sampleRates).mergeSort, s)

/-- `IsHighLoss`. -/
def isHighLoss (s : ScoutRateAdaptation rates) : Except RateFault Bool := do
  let loss ← s.lossMapCombine.getLossRate s.rate
  .ok (loss.val > s.duplicateThresh)

/-- `IsBootstrapping`. -/
def isBootstrapping (s : ScoutRateAdaptation rates) : Bool := rates.head? = some s.rate

/-- Whether to send the batch over the cellular link as well. -/
def decideDuplicate (s : ScoutRateAdaptation rates) (mode : TransmitMode) :
    Except RateFault Bool := do
  if s.enableDuplicate then
    let high ← s.isHighLoss
    .ok (high ∨ mode = .retrans ∨ s.isBootstrapping)
  else .ok false

/-- The rate for the batch: a partial batch keeps the current one. -/
def decideRate (s : ScoutRateAdaptation rates) (r : Readings rates) (mode : TransmitMode) :
    Except RateFault (ScoutRateAdaptation rates) := do
  if mode ≠ .timeOut then
    let s ← s.calcLossRatesAfterCombine r
    s.applyRate (r.clock 0) (r.random 0)
  else .ok s

/-- `MakeDecision`. -/
def makeDecision (s : ScoutRateAdaptation rates) (r : Readings rates) (mode : TransmitMode)
    (coherenceTime pktSize extraTime : Nat) (k : Int) :
    Except RateFault (BatchDecision × ScoutRateAdaptation rates) := do
  let s ← s.decideRate r mode
  let (k, n) ← s.applyFEC mode coherenceTime pktSize extraTime k
  let isDuplicate ← s.decideDuplicate mode
  let nNoSampling := if isDuplicate then k else n  -- don't slow down the cellular link
  let s ← s.drawSamples r (if isDuplicate then 1 else kNumSampleRates) kSampleBound
  let (rateArr, s) ← s.findRatesForBatch r nNoSampling
  .ok (⟨k, rateArr.length, rateArr, isDuplicate⟩, s)

end ScoutRateAdaptation

end WspaceScout
