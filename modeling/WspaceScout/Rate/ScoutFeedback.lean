import WspaceScout.Feedback.LossHistory
import WspaceScout.Rate.Combining

/-!
# The rate adaptation with its feedback

`ScoutRateAdaptation` keeps the feedback of two antennas and turns it into estimates: directly for
each antenna, by a lookup of what the front antenna met where the back antenna is now, and by
combining these.

## Main definitions

- `ScoutFeedback` — the rate adaptation with its feedback records
- `estimateMachine` — the calls that read or write estimates

## Main results

- `ScoutFeedback.exec_ends` — no assertion on an estimate fails
-/

namespace WspaceScout

open Foundation

inductive Laptop where
  | invalid
  | front
  | back
  | frontScout
  | afterCombine
  deriving DecidableEq, Repr

/-- The laptops of the two antennas. -/
def Laptop.IsAntenna (laptop : Laptop) : Prop := laptop = .front ∨ laptop = .back

/-- Where a call stops. -/
inductive EstimateFault where
  /-- `Perror` or `assert(0)` on the laptop -/
  | laptop
  /-- `SetLossRates`: the sizes of its arguments -/
  | sizes
  | insert (fault : RawFault)
  | query (fault : QueryFault)
  | rate (fault : RateFault)
  deriving DecidableEq, Repr

/-- `version == kSampleRate || version == kRRAA` -/
def RateAdaptVersion.isBaseline (version : RateAdaptVersion) : Bool :=
  version = .sampleRate ∨ version = .rraa

namespace Baseline

/-- `new RateAdaptation(version)`; none if it asserts. -/
def ofVersion (version : RateAdaptVersion) (clock : MonotonicTimer) (dirty : Bool) :
    Option Baseline :=
  match version with
  | .sampleRate => some (.sampleRate ⟨[], .init clock⟩)
  | .rraa => some (.rraa ⟨[], .init dirty⟩)
  | _ => none

/-- `RateAdaptation::InsertRecord`. -/
def insertRecord (now : MonotonicTimer) (seq : Nat) (status : PacketStatus) (rate len : Nat) :
    Baseline → Baseline
  | .sampleRate r => .sampleRate (r.insertRecord now seq status rate len)
  | .rraa r => .rraa (r.insertRecord now seq status rate len)

end Baseline

namespace ScoutRateAdaptation

variable {rates : List Nat}

/-- `GetLossMap`. -/
def getLossMap (s : ScoutRateAdaptation rates) : Laptop → Except EstimateFault (LossMap rates)
  | .front => .ok s.lossMapFront
  | .back => .ok s.lossMapBack
  | .frontScout => .ok s.lossMapScout
  | .afterCombine => .ok s.lossMapCombine
  | .invalid => .error .laptop

/-- Write to what `GetLossMap` points to. -/
def setLossMap (s : ScoutRateAdaptation rates) (m : LossMap rates) :
    Laptop → ScoutRateAdaptation rates
  | .front => { s with lossMapFront := m }
  | .back => { s with lossMapBack := m }
  | .frontScout => { s with lossMapScout := m }
  | .afterCombine => { s with lossMapCombine := m }
  | .invalid => s

/-- The estimate of a rate. -/
def lossRate (s : ScoutRateAdaptation rates) (laptop : Laptop) (rate : Nat) :
    Except EstimateFault LossRate := do
  let m ← s.getLossMap laptop
  (m.getLossRate rate).mapError .rate

/-- `SetLossRates`. -/
def setLossRates (s : ScoutRateAdaptation rates) (laptop : Laptop) (rateArr : List Nat)
    (lossArr : List ℚ) : Except EstimateFault (ScoutRateAdaptation rates) :=
  if rateArr.length = lossArr.length then do
    let m ← s.getLossMap laptop
    let m ← ((rateArr.zip lossArr).foldlM (fun (m : LossMap rates) p =>
      m.updateLoss p.1 p.2 (-1)) m).mapError .rate
    .ok (s.setLossMap m laptop)
  else .error .sizes

/-- `SetHighLoss`. -/
def setHighLoss (s : ScoutRateAdaptation rates) :
    Except EstimateFault (ScoutRateAdaptation rates) := do
  let lossArr := rates.map fun _ => (1 : ℚ)
  let s ← s.setLossRates .front rates lossArr
  let s ← s.setLossRates .back rates lossArr
  s.setLossRates .frontScout rates lossArr

/-- A baseline selects its rate by the feedback of the back antenna. -/
def insertRecord (s : ScoutRateAdaptation rates) (now : MonotonicTimer) (seq : Nat)
    (status : PacketStatus) (rate len : Nat) :
    Except EstimateFault (ScoutRateAdaptation rates) :=
  if s.rateAdaptVersion.isBaseline then
    match s.rateAdaptBaseline with
    | some b => .ok { s with rateAdaptBaseline := some (b.insertRecord now seq status rate len) }
    | none => .error (.rate .noBaseline)
  else .ok s

end ScoutRateAdaptation

/-- `ScoutRateAdaptation` with its feedback records and with what the lookup by location reads. -/
structure ScoutFeedback (rates : List Nat) extends ScoutRateAdaptation rates where
  feedbackRecFront : LossRecords
  feedbackRecBack : LossRecords
  /-- `kAntennaDist`, in meters -/
  antennaDist : ℚ
  speed : ℚ
  frontWindow : MonotonicTimer
  backWindow : MonotonicTimer

def kPrevWeight : ℚ := 2 / 10

/-- What a double is converted to. -/
def truncate (x : ℚ) : Int := x.num.tdiv x.den

/-- `is_available ? loss_arr[i] : INVALID_LOSS_RATE` -/
def lossAt (answer : Option (List ℚ)) (i : Nat) : ℚ :=
  answer.elim INVALID_LOSS_RATE fun lossArr => lossArr.getD i INVALID_LOSS_RATE

/-- What the queries for a lookup read; the other readings are for other parts of a decision. -/
def Readings.ofQueries {rates : List Nat} (answer : Option (List ℚ))
    (successRates : Option (List Nat)) : Readings rates where
  frontLoss := answer.map fun _ i => lossAt answer i
  successRates := successRates
  clock _ := ⟨0, 0⟩
  random _ := 0
  sample _ := 0

namespace ScoutFeedback

variable {rates : List Nat}

/-- The records of an antenna. -/
def feedbackRec (s : ScoutFeedback rates) : Laptop → Except EstimateFault LossRecords
  | .front => .ok s.feedbackRecFront
  | .back => .ok s.feedbackRecBack
  | _ => .error .laptop

def setFeedbackRec (s : ScoutFeedback rates) (f : LossRecords) : Laptop → ScoutFeedback rates
  | .front => { s with feedbackRecFront := f }
  | .back => { s with feedbackRecBack := f }
  | _ => s

/-- `set_rate_adapt_version`; `clock` and `dirty` are for the constructor of a baseline. -/
def setRateAdaptVersion (s : ScoutFeedback rates) (version : RateAdaptVersion)
    (clock : MonotonicTimer) (dirty : Bool) : ScoutFeedback rates :=
  { s with
    rateAdaptVersion := version
    rateAdaptBaseline :=
      if version.isBaseline ∧ s.rateAdaptBaseline.isNone then
        Baseline.ofVersion version clock dirty
      else s.rateAdaptBaseline }

/-- `InsertFeedback`; `clock` and `now` are the readings that the records and the baseline make. -/
def insertFeedback (s : ScoutFeedback rates) (laptop : Laptop) (seq : Nat) (status : PacketStatus)
    (rate len : Nat) (time clock now : MonotonicTimer) :
    Except EstimateFault (ScoutFeedback rates) := do
  let f ← s.feedbackRec laptop
  let (_, f) ← (f.insertPacket seq status rate time clock).mapError .insert
  let s := s.setFeedbackRec f laptop
  if laptop = .back then do
    let scout ← s.toScoutRateAdaptation.insertRecord now seq status rate len
    .ok { s with toScoutRateAdaptation := scout }
  else .ok s

/-- `CalcLossRates(laptop, start, end)`. -/
def calcLossRates (s : ScoutFeedback rates) (laptop : Laptop) (start stop : MonotonicTimer) :
    Except EstimateFault (ScoutFeedback rates) := do
  let f ← s.feedbackRec laptop
  let m ← s.getLossMap laptop
  let (answer, f) ← (f.calcLossRates start stop rates).mapError .query
  let m ← ((List.finRange rates.length).foldlM (fun (m : LossMap rates) i =>
      m.updateLoss (rates.get i) (lossAt answer i) kPrevWeight) m).mapError .rate
  let s := s.setFeedbackRec f laptop
  .ok { s with toScoutRateAdaptation := s.setLossMap m laptop }

/-- `start` and `end`: around the time when the front antenna was where the back antenna is. -/
def sameLocation (s : ScoutFeedback rates) (frontWindow now : MonotonicTimer) :
    MonotonicTimer × MonotonicTimer :=
  let timeSameLoc := now.sub (.ofNSec (truncate (s.antennaDist / s.speed * 1000000000)))
  (timeSameLoc.sub (frontWindow.div 2), timeSameLoc.add (frontWindow.div 2))

/-- The two queries of `CalcLossRates(front_window, back_window)`, with the records that they
leave. -/
def lookUp (s : ScoutFeedback rates) (frontWindow backWindow now : MonotonicTimer) :
    Except EstimateFault (Readings rates × LossRecords × LossRecords) := do
  let window := s.sameLocation frontWindow now
  -- the scout map, which is updated between the queries, is not read by them
  let (answer, front) ←
    if 0 < s.speed then
      (s.feedbackRecFront.calcLossRates window.1 window.2 rates).mapError EstimateFault.query
    else .ok (none, s.feedbackRecFront)
  let (successRates, back) ←
    (s.feedbackRecBack.findSuccessRates (now.sub backWindow) now false).mapError
      EstimateFault.query
  .ok (.ofQueries answer successRates, front, back)

/-- `CalcLossRates(front_window, back_window)`. -/
def calcLossRatesScout (s : ScoutFeedback rates) (frontWindow backWindow now : MonotonicTimer) :
    Except EstimateFault (ScoutFeedback rates) := do
  let (r, front, back) ← s.lookUp frontWindow backWindow now
  let scout ← (s.toScoutRateAdaptation.calcLossRates r).mapError .rate
  .ok { s with
    toScoutRateAdaptation := scout
    feedbackRecFront := front
    feedbackRecBack := back }

/-- The queries of `CalcLossRatesAfterCombine`, which it makes in one of the modes. -/
def lookUpCombine (s : ScoutFeedback rates) (now : MonotonicTimer) :
    Except EstimateFault (Readings rates × LossRecords × LossRecords) :=
  if s.rateAdaptVersion.combineMode = .scoutCombine then
    s.lookUp s.frontWindow s.backWindow now
  else .ok (.ofQueries none none, s.feedbackRecFront, s.feedbackRecBack)

/-- `CalcLossRatesAfterCombine`. -/
def calcLossRatesAfterCombine (s : ScoutFeedback rates) (now : MonotonicTimer) :
    Except EstimateFault (ScoutFeedback rates) := do
  let (r, front, back) ← s.lookUpCombine now
  let scout ← (s.toScoutRateAdaptation.calcLossRatesAfterCombine r).mapError .rate
  .ok { s with
    toScoutRateAdaptation := scout
    feedbackRecFront := front
    feedbackRecBack := back }

end ScoutFeedback

/-- The calls, with the readings of the clock that they make. -/
inductive EstimateInput where
  | insertFeedback (laptop : Laptop) (seq : Nat) (status : PacketStatus) (rate len : Nat)
      (time clock now : MonotonicTimer)
  | calcLossRates (laptop : Laptop) (start stop : MonotonicTimer)
  | calcLossRatesScout (frontWindow backWindow now : MonotonicTimer)
  | setHighLoss
  | calcLossRatesAfterCombine (now : MonotonicTimer)
  | setRateAdaptVersion (version : RateAdaptVersion) (clock : MonotonicTimer) (dirty : Bool)
  | setSpeed (speed : ℚ)

/-- The laptops and statuses that callers pass. -/
def EstimateInput.IsLegal : EstimateInput → Prop
  | .insertFeedback laptop _ status _ _ _ _ _ => laptop.IsAntenna ∧ status.isLegal = true
  | .calcLossRates laptop _ _ => laptop.IsAntenna
  | _ => True

namespace ScoutFeedback

variable {rates : List Nat}

def exec (s : ScoutFeedback rates) : EstimateInput → Except EstimateFault (ScoutFeedback rates)
  | .insertFeedback laptop seq status rate len time clock now =>
    s.insertFeedback laptop seq status rate len time clock now
  | .calcLossRates laptop start stop => s.calcLossRates laptop start stop
  | .calcLossRatesScout frontWindow backWindow now =>
    s.calcLossRatesScout frontWindow backWindow now
  | .setHighLoss => do
    let scout ← s.toScoutRateAdaptation.setHighLoss
    .ok { s with toScoutRateAdaptation := scout }
  | .calcLossRatesAfterCombine now => s.calcLossRatesAfterCombine now
  | .setRateAdaptVersion version clock dirty => .ok (s.setRateAdaptVersion version clock dirty)
  | .setSpeed speed => .ok { s with speed := speed }

/-- The windows of a lookup end after they start. -/
def WindowsOrdered (s : ScoutFeedback rates) (frontWindow backWindow now : MonotonicTimer) :
    Prop :=
  (0 < s.speed → (s.sameLocation frontWindow now).1 ≤ (s.sameLocation frontWindow now).2) ∧
    now.sub backWindow ≤ now

/-- All windows end after they start. -/
def enabled (s : ScoutFeedback rates) : EstimateInput → Prop
  | .calcLossRates _ start stop => start ≤ stop
  | .calcLossRatesScout frontWindow backWindow now => s.WindowsOrdered frontWindow backWindow now
  | .calcLossRatesAfterCombine now => s.rateAdaptVersion.combineMode = .scoutCombine →
    s.WindowsOrdered s.frontWindow s.backWindow now
  | _ => True

/-- Where `CalcLossRates` searches the records of an antenna, they are in the order of their times,
and the search for the end of the window meets no record with this time behind the first one. -/
def FindsEnd (s : ScoutFeedback rates) : EstimateInput → Prop
  | .calcLossRates laptop start stop => ∀ f, s.feedbackRec laptop = .ok f →
    (f.records.Pairwise fun p q => p.timer ≤ q.timer) ∧ (start ≠ stop → f.MeetsFirst stop)
  | _ => True

/-- An input that is not about a rate of an antenna: neither `SetHighLoss` nor a `CalcLossRates`
with a packet of the rate in its window. -/
def Idle (s : ScoutFeedback rates) (laptop : Laptop) (rate : Nat) : EstimateInput → Prop
  | .calcLossRates laptop' start stop => laptop' = laptop → ∀ f, s.feedbackRec laptop = .ok f →
    ∀ p ∈ f.records, p.rate = rate → ¬(start ≤ p.timer ∧ p.timer < stop)
  | .setHighLoss => False
  | _ => True

/-- No packet of a rate is inserted for an antenna with a time in `[start, stop)`. -/
def InsertsOutside (laptop : Laptop) (rate : Nat) (start stop : MonotonicTimer)
    (_ : ScoutFeedback rates) : EstimateInput → Prop
  | .insertFeedback laptop' _ _ rate' _ time clock _ => laptop' = laptop → rate' = rate →
    let now := if time.getMSec ≠ 0 then time else clock
    ¬(start ≤ now ∧ now < stop)
  | _ => True

end ScoutFeedback

/-- A `ScoutRateAdaptation` for the rates `rateArr`, with any antenna distance and windows. -/
def estimateMachine (rateArr : List Int) (totalWindow : MonotonicTimer) :
    Machine (ScoutFeedback (rateArr.map LossRecords.tableRate)) EstimateInput EstimateFault where
  init s :=
    (∃ combineMode sampleMode, s.toScoutRateAdaptation = .init _ combineMode sampleMode) ∧
    s.feedbackRecFront = .ofRates rateArr totalWindow ∧
    s.feedbackRecBack = .ofRates rateArr totalWindow
  enabled := ScoutFeedback.enabled
  exec := ScoutFeedback.exec

/-! ### Valid losses -/

theorem windowLoss_isLossRate (w : List PacketInfo) (rate : Nat) :
    IsLossRate (windowLoss w rate) := by
  rw [windowLoss]
  split
  · exact .inl rfl
  · next hsent =>
    have hpos : (0 : ℚ) < sent w rate := by exact_mod_cast Nat.pos_of_ne_zero hsent
    have hacked : (acked w rate : ℚ) ≤ sent w rate := by exact_mod_cast acked_le_sent w rate
    have hratio0 : (0 : ℚ) ≤ acked w rate / sent w rate := by positivity
    have hratio1 : (acked w rate : ℚ) / sent w rate ≤ 1 := (div_le_one hpos).mpr hacked
    exact .inr ⟨by linarith, by linarith⟩

theorem lossAt_some {rates : List Nat} (loss : Nat → ℚ) (i : Fin rates.length) :
    lossAt (some (rates.map loss)) i = loss (rates.get i) := by
  simp [lossAt, List.getD_eq_getElem?_getD]

/-- What is written for a rate after a query is valid. -/
theorem lossAt_isLossRate {f f' : LossRecords} {start stop : MonotonicTimer} {rates : List Nat}
    {answer : Option (List ℚ)} (hle : start ≤ stop)
    (h : f.calcLossRates start stop rates = .ok (answer, f')) (i : Fin rates.length) :
    IsLossRate (lossAt answer i) := by
  obtain ⟨answer', f'', hends, hanswer⟩ := f.calcLossRates_ends hle rates
  rw [h] at hends
  cases hends
  obtain rfl | ⟨w, -, rfl⟩ := hanswer
  · exact .inl rfl
  · rw [lossAt_some]
    exact windowLoss_isLossRate w _

/-! ### The calls end -/

namespace ScoutRateAdaptation

variable {rates : List Nat} {s s' : ScoutRateAdaptation rates} {r : Readings rates}

theorem calcLossRates_ok (hr : ∀ loss ∈ r.frontLoss, ∀ i, IsLossRate (loss i)) :
    ∃ s', s.calcLossRates r = .ok s' := by
  have hloop := LossMap.updateAll_ok (m := s.lossMapScout) (k := rates.get)
    (g := fun i => .ok (r.frontLoss.elim INVALID_LOSS_RATE fun loss => loss i))
    (l := List.finRange rates.length) (show (-1 : ℚ) ≤ 1 by norm_num) ?_
  · obtain ⟨m, hm⟩ := hloop
    exact ⟨_, bind_eq_ok.mpr ⟨m, hm, rfl⟩⟩
  · intro i _
    refine ⟨List.get_mem rates i, _, rfl, ?_⟩
    cases hloss : r.frontLoss with
    | none => exact .inl rfl
    | some loss => exact hr loss hloss i

theorem calcLossRatesAfterCombine_ok (hr : ∀ loss ∈ r.frontLoss, ∀ i, IsLossRate (loss i)) :
    ∃ s', s.calcLossRatesAfterCombine r = .ok s' := by
  have hlookUp : ∃ s₁, lookUpScout { s with combineMode := s.rateAdaptVersion.combineMode } r =
      .ok s₁ := by
    rw [lookUpScout]
    split
    · exact calcLossRates_ok hr
    · exact ⟨_, rfl⟩
  obtain ⟨s₁, hs₁⟩ := hlookUp
  obtain ⟨m, hm⟩ := LossMap.updateAll_ok (m := s₁.lossMapCombine) (k := id)
    (g := s₁.combinedLoss) (l := rates) (show (-1 : ℚ) ≤ 1 by norm_num)
    fun rate hrate => ⟨hrate, combinedLoss_ok s₁ hrate⟩
  exact ⟨_, bind_eq_ok.mpr ⟨s₁, hs₁, bind_eq_ok.mpr ⟨m, hm, rfl⟩⟩⟩

theorem getLossMap_ok (s : ScoutRateAdaptation rates) {laptop : Laptop}
    (hlaptop : laptop ≠ .invalid) : ∃ m, s.getLossMap laptop = .ok m := by
  cases laptop with
  | invalid => exact absurd rfl hlaptop
  | _ => exact ⟨_, rfl⟩

/-- The rates and losses of `SetHighLoss`. -/
theorem mem_zip_ones {p : Nat × ℚ} (hp : p ∈ rates.zip (rates.map fun _ => 1)) :
    p.1 ∈ rates ∧ p.2 = 1 := by
  obtain ⟨hrate, hloss⟩ := List.of_mem_zip hp
  obtain ⟨-, -, hone⟩ := List.mem_map.mp hloss
  exact ⟨hrate, hone.symm⟩

theorem setLossRates_ok (s : ScoutRateAdaptation rates) {laptop : Laptop}
    (hlaptop : laptop ≠ .invalid) :
    ∃ s', s.setLossRates laptop rates (rates.map fun _ => 1) = .ok s' := by
  obtain ⟨m, hm⟩ := s.getLossMap_ok hlaptop
  obtain ⟨m', hm'⟩ := LossMap.updateAll_ok (m := m) (k := Prod.fst)
    (g := fun p : Nat × ℚ => .ok p.2) (l := rates.zip (rates.map fun _ => 1))
    (show (-1 : ℚ) ≤ 1 by norm_num) (by
      intro p hp
      obtain ⟨hrate, hone⟩ := mem_zip_ones hp
      exact ⟨hrate, p.2, rfl, hone ▸ .inr ⟨by norm_num, le_refl 1⟩⟩)
  rw [setLossRates, if_pos (List.length_map _).symm]
  exact ⟨_, bind_eq_ok.mpr ⟨m, hm, bind_eq_ok.mpr ⟨m', mapError_eq_ok.mpr hm', rfl⟩⟩⟩

theorem setHighLoss_ok (s : ScoutRateAdaptation rates) : ∃ s', s.setHighLoss = .ok s' := by
  obtain ⟨s₁, hs₁⟩ := s.setLossRates_ok (show Laptop.front ≠ .invalid by decide)
  obtain ⟨s₂, hs₂⟩ := s₁.setLossRates_ok (show Laptop.back ≠ .invalid by decide)
  obtain ⟨s₃, hs₃⟩ := s₂.setLossRates_ok (show Laptop.frontScout ≠ .invalid by decide)
  exact ⟨s₃, bind_eq_ok.mpr ⟨s₁, hs₁, bind_eq_ok.mpr ⟨s₂, hs₂, hs₃⟩⟩⟩

/-- A baseline version has its baseline. -/
def BaselineSet (s : ScoutRateAdaptation rates) : Prop :=
  s.rateAdaptVersion.isBaseline = true → s.rateAdaptBaseline.isSome = true

theorem BaselineSet.setLossMap (hs : s.BaselineSet) (m : LossMap rates) (laptop : Laptop) :
    (s.setLossMap m laptop).BaselineSet := by
  cases laptop <;> exact hs

theorem insertRecord_ok (hs : s.BaselineSet) (now : MonotonicTimer) (seq : Nat)
    (status : PacketStatus) (rate len : Nat) :
    ∃ s', s.insertRecord now seq status rate len = .ok s' := by
  rw [insertRecord]
  split
  · next hversion =>
    obtain ⟨b, hb⟩ := Option.isSome_iff_exists.mp (hs hversion)
    rw [hb]
    exact ⟨_, rfl⟩
  · exact ⟨_, rfl⟩

end ScoutRateAdaptation

namespace ScoutFeedback

variable {rates : List Nat} {s s' : ScoutFeedback rates}

/-- Windows that are intervals, as those of the constructor, end after they start. -/
theorem windowsOrdered (s : ScoutFeedback rates) {frontWindow backWindow : MonotonicTimer}
    (hfront : frontWindow.Normal) (hfrontSec : 0 ≤ frontWindow.tvSec) (hback : backWindow.Normal)
    (hbackSec : 0 ≤ backWindow.tvSec) (now : MonotonicTimer) :
    s.WindowsOrdered frontWindow backWindow now := by
  obtain ⟨hhalf, hhalfSec⟩ := MonotonicTimer.normal_half hfront hfrontSec
  refine ⟨fun _ => ?_, MonotonicTimer.sub_le hback hbackSec⟩
  exact (MonotonicTimer.sub_le hhalf hhalfSec).trans (MonotonicTimer.le_add hhalf hhalfSec)

theorem lookUp_ok {frontWindow backWindow now : MonotonicTimer}
    (hle : s.WindowsOrdered frontWindow backWindow now) :
    ∃ r front back, s.lookUp frontWindow backWindow now = .ok (r, front, back) ∧
      ∀ loss ∈ r.frontLoss, ∀ i, IsLossRate (loss i) := by
  obtain ⟨⟨success, back⟩, hback⟩ := s.feedbackRecBack.findSuccessRates_ends hle.2
  by_cases hspeed : 0 < s.speed
  · obtain ⟨answer, front, hfront, -⟩ :=
      s.feedbackRecFront.calcLossRates_ends (hle.1 hspeed) rates
    refine ⟨.ofQueries answer success, front, back, ?_, ?_⟩
    · simp only [lookUp, if_pos hspeed, hfront, hback]
      rfl
    · rintro loss hloss i
      obtain ⟨_, -, rfl⟩ := Option.mem_map.mp hloss
      exact lossAt_isLossRate (hle.1 hspeed) hfront i
  · refine ⟨.ofQueries none success, s.feedbackRecFront, back, ?_, ?_⟩
    · simp only [lookUp, if_neg hspeed, hback]
      rfl
    · rintro loss ⟨⟩

theorem calcLossRates_ok (s : ScoutFeedback rates) {laptop : Laptop}
    (hlaptop : laptop.IsAntenna) {start stop : MonotonicTimer} (hle : start ≤ stop) :
    ∃ s', s.calcLossRates laptop start stop = .ok s' := by
  obtain ⟨f, m, hrec, hmap⟩ :
      ∃ f m, s.feedbackRec laptop = .ok f ∧ s.getLossMap laptop = .ok m := by
    obtain rfl | rfl := hlaptop
    · exact ⟨_, _, rfl, rfl⟩
    · exact ⟨_, _, rfl, rfl⟩
  obtain ⟨answer, f', hcalc, -⟩ := f.calcLossRates_ends hle rates
  obtain ⟨m', hm'⟩ := LossMap.updateAll_ok (m := m) (k := rates.get)
    (g := fun i => .ok (lossAt answer i)) (l := List.finRange rates.length)
    (show kPrevWeight ≤ 1 by norm_num [kPrevWeight])
    fun i _ => ⟨List.get_mem rates i, _, rfl, lossAt_isLossRate hle hcalc i⟩
  exact ⟨_, bind_eq_ok.mpr ⟨f, hrec, bind_eq_ok.mpr ⟨m, hmap, bind_eq_ok.mpr
    ⟨(answer, f'), mapError_eq_ok.mpr hcalc, bind_eq_ok.mpr
      ⟨m', mapError_eq_ok.mpr hm', rfl⟩⟩⟩⟩⟩

/-- A legal status for an antenna is inserted. -/
theorem insertFeedback_legal (hs : s.BaselineSet) {laptop : Laptop} (hlaptop : laptop.IsAntenna)
    {status : PacketStatus} (hlegal : status.isLegal = true) (seq rate len : Nat)
    (time clock now : MonotonicTimer) :
    ∃ s', s.insertFeedback laptop seq status rate len time clock now = .ok s' := by
  obtain ⟨f, hrec⟩ : ∃ f, s.feedbackRec laptop = .ok f := by
    obtain rfl | rfl := hlaptop
    · exact ⟨_, rfl⟩
    · exact ⟨_, rfl⟩
  obtain ⟨⟨removed, records⟩, hins⟩ :=
    f.toFeedbackRecords.insertPacket_legal seq rate time clock hlegal
  let f' : LossRecords := { f with toFeedbackRecords := records }
  have hf : f.insertPacket seq status rate time clock = .ok (removed, f') :=
    bind_eq_ok.mpr ⟨_, hins, rfl⟩
  obtain rfl | rfl := hlaptop
  · exact ⟨s.setFeedbackRec f' .front,
      bind_eq_ok.mpr ⟨f, hrec, bind_eq_ok.mpr ⟨_, mapError_eq_ok.mpr hf, rfl⟩⟩⟩
  · obtain ⟨scout, hscout⟩ :=
      ScoutRateAdaptation.insertRecord_ok hs now seq status rate len
    exact ⟨{ s.setFeedbackRec f' .back with toScoutRateAdaptation := scout },
      bind_eq_ok.mpr ⟨f, hrec, bind_eq_ok.mpr ⟨_, mapError_eq_ok.mpr hf,
        bind_eq_ok.mpr ⟨scout, hscout, rfl⟩⟩⟩⟩

theorem insertFeedback_ok (hs : s.BaselineSet) (laptop : Laptop) (seq : Nat)
    (status : PacketStatus) (rate len : Nat) (time clock now : MonotonicTimer) :
    (∃ s', s.insertFeedback laptop seq status rate len time clock now = .ok s') ∨
      s.insertFeedback laptop seq status rate len time clock now = .error .laptop ∨
      s.insertFeedback laptop seq status rate len time clock now =
        .error (.insert .packetStatus) := by
  cases hrec : s.feedbackRec laptop with
  | error fault =>
    right
    left
    cases laptop with
    | front | back => cases hrec
    | invalid | frontScout | afterCombine => rfl
  | ok f =>
    by_cases hlegal : status.isLegal = true
    · left
      have hlaptop : laptop.IsAntenna := by
        cases laptop with
        | front => exact .inl rfl
        | back => exact .inr rfl
        | invalid | frontScout | afterCombine => cases hrec
      exact insertFeedback_legal hs hlaptop hlegal seq rate len time clock now
    · right
      right
      simp only [insertFeedback, hrec, LossRecords.insertPacket, FeedbackRecords.insertPacket,
        if_neg hlegal]
      rfl

/-- A legal call ends, in a state with a baseline where it is needed. -/
theorem exec_legal (hs : s.BaselineSet) {input : EstimateInput} (hen : s.enabled input)
    (hlegal : input.IsLegal) : ∃ s', s.exec input = .ok s' := by
  cases input with
  | insertFeedback laptop seq status rate len time clock now =>
    exact insertFeedback_legal hs hlegal.1 hlegal.2 seq rate len time clock now
  | calcLossRates laptop start stop => exact calcLossRates_ok s hlegal hen
  | calcLossRatesScout frontWindow backWindow now =>
    obtain ⟨r, front, back, hlookUp, hr⟩ := lookUp_ok hen
    obtain ⟨scout, hscout⟩ :=
      ScoutRateAdaptation.calcLossRates_ok (s := s.toScoutRateAdaptation) hr
    exact ⟨_, bind_eq_ok.mpr ⟨_, hlookUp,
      bind_eq_ok.mpr ⟨scout, mapError_eq_ok.mpr hscout, rfl⟩⟩⟩
  | setHighLoss =>
    obtain ⟨scout, hscout⟩ := s.toScoutRateAdaptation.setHighLoss_ok
    exact ⟨_, bind_eq_ok.mpr ⟨scout, hscout, rfl⟩⟩
  | calcLossRatesAfterCombine now =>
    obtain ⟨r, front, back, hlookUp, hr⟩ : ∃ r front back,
        s.lookUpCombine now = .ok (r, front, back) ∧
          ∀ loss ∈ r.frontLoss, ∀ i, IsLossRate (loss i) := by
      rw [lookUpCombine]
      split
      · next hmode => exact lookUp_ok (hen hmode)
      · exact ⟨_, _, _, rfl, fun loss hloss => by cases hloss⟩
    obtain ⟨scout, hscout⟩ :=
      ScoutRateAdaptation.calcLossRatesAfterCombine_ok (s := s.toScoutRateAdaptation) hr
    exact ⟨_, bind_eq_ok.mpr ⟨_, hlookUp,
      bind_eq_ok.mpr ⟨scout, mapError_eq_ok.mpr hscout, rfl⟩⟩⟩
  | setRateAdaptVersion version clock dirty => exact ⟨_, rfl⟩
  | setSpeed speed => exact ⟨_, rfl⟩

/-- In a state with a baseline where it is needed, a call ends, unless `InsertFeedback` or
`CalcLossRates` is given a laptop that is no antenna or `InsertFeedback` a status that is not
legal. -/
theorem exec_ends (hs : s.BaselineSet) {input : EstimateInput} (hen : s.enabled input) :
    (∃ s', s.exec input = .ok s') ∨ s.exec input = .error .laptop ∨
      s.exec input = .error (.insert .packetStatus) := by
  cases input with
  | insertFeedback laptop seq status rate len time clock now =>
    exact insertFeedback_ok hs laptop seq status rate len time clock now
  | calcLossRates laptop start stop =>
    cases laptop with
    | front => exact .inl (exec_legal hs hen (.inl rfl))
    | back => exact .inl (exec_legal hs hen (.inr rfl))
    | invalid | frontScout | afterCombine => exact .inr (.inl rfl)
  | _ => exact .inl (exec_legal hs hen trivial)

end ScoutFeedback

end WspaceScout
