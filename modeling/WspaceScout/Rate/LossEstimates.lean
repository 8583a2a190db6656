import WspaceScout.Rate.ScoutFeedback
import WspaceScout.Rate.ScoutSelection

/-!
# Loss estimates over all runs

An estimate of an antenna that is known stays known, and it changes only by feedback on its rate or
by `SetHighLoss`, provided that the search for the end of a time window finds it.

## Main results

- `ScoutFeedback.exec_rule` — what a call does to an estimate of an antenna
- `estimateMachine_keeps` — the estimates in every run
- `estimateMachine_equalTimes` — a search that does not find the end
-/

namespace WspaceScout

open Foundation

/-! ### What the calls do -/

/-- The maps of the two antennas stay, and a baseline version keeps its baseline. -/
structure KeepsAntennas {rates : List Nat} (s s' : ScoutRateAdaptation rates) : Prop where
  front : s'.lossMapFront = s.lossMapFront
  back : s'.lossMapBack = s.lossMapBack
  baseline : s.BaselineSet → s'.BaselineSet

namespace ScoutRateAdaptation

variable {rates : List Nat} {s s' : ScoutRateAdaptation rates} {r : Readings rates}
  {laptop laptop' : Laptop} {rate : Nat} {old : LossRate} {P : LossRate → Prop}

theorem calcLossRates_keeps (h : s.calcLossRates r = .ok s') : KeepsAntennas s s' := by
  obtain ⟨m, -, h⟩ := bind_eq_ok.mp h
  cases h
  exact ⟨rfl, rfl, id⟩

theorem calcLossRatesAfterCombine_keeps (h : s.calcLossRatesAfterCombine r = .ok s') :
    KeepsAntennas s s' := by
  obtain ⟨s₁, h₁, h⟩ := bind_eq_ok.mp h
  obtain ⟨m, -, h⟩ := bind_eq_ok.mp h
  cases h
  rw [lookUpScout] at h₁
  split at h₁
  · have hkeeps := calcLossRates_keeps h₁
    exact ⟨hkeeps.front, hkeeps.back, hkeeps.baseline⟩
  · cases h₁
    exact ⟨rfl, rfl, id⟩

theorem insertRecord_keeps {now : MonotonicTimer} {seq len : Nat} {status : PacketStatus}
    (h : s.insertRecord now seq status rate len = .ok s') : KeepsAntennas s s' := by
  rw [insertRecord] at h
  split at h
  · split at h
    · cases h
      exact ⟨rfl, rfl, fun _ _ => rfl⟩
    · cases h
  · cases h
    exact ⟨rfl, rfl, id⟩

theorem lossRate_eq_ok {loss : LossRate} : s.lossRate laptop rate = .ok loss ↔
    ∃ m, s.getLossMap laptop = .ok m ∧ m.getLossRate rate = .ok loss := by
  rw [lossRate, bind_eq_ok]
  simp only [mapError_eq_ok]

theorem getLossMap_setLossMap {m : LossMap rates} (hlaptop : laptop ≠ .invalid) :
    (s.setLossMap m laptop).getLossMap laptop = .ok m := by
  cases laptop with
  | invalid => exact absurd rfl hlaptop
  | _ => rfl

theorem ne_invalid_of_getLossMap {m : LossMap rates} (hm : s.getLossMap laptop = .ok m) :
    laptop ≠ .invalid := by
  rintro rfl
  cases hm

/-- A change of one map, seen at any map. -/
theorem lossRate_setLossMap {m m' : LossMap rates} (hm : s.getLossMap laptop = .ok m)
    (hold : s.lossRate laptop' rate = .ok old) (hP : P old)
    (hrule : laptop' = laptop → m.getLossRate rate = .ok old →
      ∃ new, m'.getLossRate rate = .ok new ∧ P new) :
    ∃ new, (s.setLossMap m' laptop).lossRate laptop' rate = .ok new ∧ P new := by
  simp only [lossRate_eq_ok] at hold ⊢
  obtain ⟨m₀, hm₀, hold⟩ := hold
  by_cases hsame : laptop' = laptop
  · subst hsame
    rw [hm] at hm₀
    cases hm₀
    obtain ⟨new, hnew, hPnew⟩ := hrule rfl hold
    exact ⟨new, ⟨m', getLossMap_setLossMap (ne_invalid_of_getLossMap hm), hnew⟩, hPnew⟩
  · refine ⟨old, ⟨m₀, ?_, hold⟩, hP⟩
    rw [← hm₀]
    cases laptop <;> cases laptop' <;> first | rfl | exact absurd rfl hsame

theorem setLossRates_inv {rateArr : List Nat} {lossArr : List ℚ}
    (h : s.setLossRates laptop rateArr lossArr = .ok s') :
    ∃ m m', s.getLossMap laptop = .ok m ∧
      ((rateArr.zip lossArr).foldlM (fun (m : LossMap rates) p =>
        m.updateLoss p.1 p.2 (-1)) m) = .ok m' ∧
      s' = s.setLossMap m' laptop := by
  rw [setLossRates] at h
  split at h
  · obtain ⟨m, hm, h⟩ := bind_eq_ok.mp h
    obtain ⟨m', hm', h⟩ := bind_eq_ok.mp h
    cases h
    exact ⟨m, m', hm, mapError_eq_ok.mp hm', rfl⟩
  · cases h

/-- Ones in all maps. -/
theorem setLossRates_rule (h : s.setLossRates laptop rates (rates.map fun _ => 1) = .ok s')
    (hold : s.lossRate laptop' rate = .ok old) (hP : P old)
    (hone : ∀ loss : LossRate, loss.val = 1 → P loss) :
    ∃ new, s'.lossRate laptop' rate = .ok new ∧ P new := by
  obtain ⟨m, m', hm, hloop, rfl⟩ := setLossRates_inv h
  refine lossRate_setLossMap hm hold hP fun _ hget => ?_
  refine LossMap.updateAll_rule (k := Prod.fst) (g := fun p : Nat × ℚ => .ok p.2) hloop hget hP ?_
  intro p hp _ old' loss hweight hloss _
  rw [LossRate.blend_neg]
  apply hone
  rw [← Except.ok.inj hloss, (mem_zip_ones hp).2]

theorem setHighLoss_rule (h : s.setHighLoss = .ok s') (hold : s.lossRate laptop rate = .ok old)
    (hP : P old) (hone : ∀ loss : LossRate, loss.val = 1 → P loss) :
    ∃ new, s'.lossRate laptop rate = .ok new ∧ P new := by
  obtain ⟨s₁, hs₁, h⟩ := bind_eq_ok.mp h
  obtain ⟨s₂, hs₂, hs₃⟩ := bind_eq_ok.mp h
  obtain ⟨old₁, hold₁, hP₁⟩ := setLossRates_rule hs₁ hold hP hone
  obtain ⟨old₂, hold₂, hP₂⟩ := setLossRates_rule hs₂ hold₁ hP₁ hone
  exact setLossRates_rule hs₃ hold₂ hP₂ hone

theorem setLossRates_ones (hlaptop : laptop ≠ .invalid) (hrate : rate ∈ rates)
    (h : s.setLossRates laptop rates (rates.map fun _ => 1) = .ok s') :
    ∃ loss, s'.lossRate laptop rate = .ok loss ∧ loss.val = 1 := by
  obtain ⟨m, m', hm, hloop, rfl⟩ := setLossRates_inv h
  have hp : (rate, (1 : ℚ)) ∈ rates.zip (rates.map fun _ => 1) := by
    rw [← List.map_prod_left_eq_zip]
    exact List.mem_map.mpr ⟨rate, hrate, rfl⟩
  obtain ⟨new, hnew, hone⟩ := LossMap.updateAll_replaces (k := Prod.fst)
    (g := fun p : Nat × ℚ => .ok p.2) hp hrate
    (fun p hp' _ => congrArg Except.ok (mem_zip_ones hp').2) hloop
  exact ⟨new, lossRate_eq_ok.mpr ⟨m', getLossMap_setLossMap hlaptop, hnew⟩,
    (Except.ok.inj hone).symm⟩

/-- What `SetHighLoss` leaves for an antenna. -/
theorem setHighLoss_high (hrate : rate ∈ rates) (h : s.setHighLoss = .ok s') :
    (∃ loss, s'.lossRate .front rate = .ok loss ∧ loss.val = 1) ∧
      ∃ loss, s'.lossRate .back rate = .ok loss ∧ loss.val = 1 := by
  obtain ⟨s₁, hs₁, h⟩ := bind_eq_ok.mp h
  obtain ⟨s₂, hs₂, hs₃⟩ := bind_eq_ok.mp h
  obtain ⟨front₁, hfront₁, hone₁⟩ := setLossRates_ones (by decide) hrate hs₁
  obtain ⟨front₂, hfront₂, hone₂⟩ :=
    setLossRates_rule (P := fun loss => loss.val = 1) hs₂ hfront₁ hone₁ fun _ hone => hone
  obtain ⟨back₂, hback₂, hback⟩ := setLossRates_ones (by decide) hrate hs₂
  exact ⟨setLossRates_rule hs₃ hfront₂ hone₂ fun _ hone => hone,
    setLossRates_rule hs₃ hback₂ hback fun _ hone => hone⟩

theorem setLossRates_baselineSet {rateArr : List Nat} {lossArr : List ℚ}
    (h : s.setLossRates laptop rateArr lossArr = .ok s') (hs : s.BaselineSet) :
    s'.BaselineSet := by
  obtain ⟨m, m', -, -, rfl⟩ := setLossRates_inv h
  exact hs.setLossMap m' laptop

theorem setHighLoss_baselineSet (h : s.setHighLoss = .ok s') (hs : s.BaselineSet) :
    s'.BaselineSet := by
  obtain ⟨s₁, hs₁, h⟩ := bind_eq_ok.mp h
  obtain ⟨s₂, hs₂, hs₃⟩ := bind_eq_ok.mp h
  exact setLossRates_baselineSet hs₃
    (setLossRates_baselineSet hs₂ (setLossRates_baselineSet hs₁ hs))

end ScoutRateAdaptation

theorem KeepsAntennas.lossRate {rates : List Nat} {s s' : ScoutRateAdaptation rates}
    (h : KeepsAntennas s s') {laptop : Laptop} (hlaptop : laptop.IsAntenna) (rate : Nat) :
    s'.lossRate laptop rate = s.lossRate laptop rate := by
  obtain rfl | rfl := hlaptop
  · rw [ScoutRateAdaptation.lossRate, ScoutRateAdaptation.getLossMap, h.front]
    rfl
  · rw [ScoutRateAdaptation.lossRate, ScoutRateAdaptation.getLossMap, h.back]
    rfl

namespace ScoutFeedback

variable {rates : List Nat} {s s' : ScoutFeedback rates} {input : EstimateInput}
  {laptop : Laptop} {start stop : MonotonicTimer} {rate : Nat} {old : LossRate}
  {P : LossRate → Prop}

@[simp]
theorem toScoutRateAdaptation_setFeedbackRec (f : LossRecords) :
    (s.setFeedbackRec f laptop).toScoutRateAdaptation = s.toScoutRateAdaptation := by
  cases laptop <;> rfl

theorem calcLossRates_inv (h : s.calcLossRates laptop start stop = .ok s') :
    ∃ f m answer f' m', s.feedbackRec laptop = .ok f ∧ s.getLossMap laptop = .ok m ∧
      f.calcLossRates start stop rates = .ok (answer, f') ∧
      ((List.finRange rates.length).foldlM (fun (m : LossMap rates) i =>
        m.updateLoss (rates.get i) (lossAt answer i) kPrevWeight) m) = .ok m' ∧
      s'.toScoutRateAdaptation = s.toScoutRateAdaptation.setLossMap m' laptop := by
  obtain ⟨f, hf, h⟩ := bind_eq_ok.mp h
  obtain ⟨m, hm, h⟩ := bind_eq_ok.mp h
  obtain ⟨⟨answer, f'⟩, hcalc, h⟩ := bind_eq_ok.mp h
  obtain ⟨m', hm', h⟩ := bind_eq_ok.mp h
  cases h
  refine ⟨f, m, answer, f', m', hf, hm, mapError_eq_ok.mp hcalc, mapError_eq_ok.mp hm', ?_⟩
  rw [toScoutRateAdaptation_setFeedbackRec]

/-- What `CalcLossRates` writes for the rates of a table without duplicates. -/
theorem calcLossRates_blends (hrates : rates.Nodup) {f f' : LossRecords}
    {answer : Option (List ℚ)} {i : Fin rates.length}
    (h : s.calcLossRates laptop start stop = .ok s') (hf : s.feedbackRec laptop = .ok f)
    (hanswer : f.calcLossRates start stop rates = .ok (answer, f'))
    (hold : s.lossRate laptop (rates.get i) = .ok old) :
    ∃ (hvalid : IsLossRate (lossAt answer i)) (hweight : kPrevWeight ≤ 1),
      s'.lossRate laptop (rates.get i) =
        .ok (old.blend ⟨lossAt answer i, hvalid⟩ kPrevWeight hweight) := by
  obtain ⟨f₁, m, answer₁, f'₁, m', hf₁, hm, hanswer₁, hloop, hs'⟩ := calcLossRates_inv h
  rw [hf] at hf₁
  cases hf₁
  rw [hanswer] at hanswer₁
  cases hanswer₁
  obtain ⟨m₀, hm₀, hold⟩ := ScoutRateAdaptation.lossRate_eq_ok.mp hold
  rw [hm₀] at hm
  cases hm
  have hkeys : ((List.finRange rates.length).map rates.get).Nodup := by
    rwa [List.map_get_finRange]
  obtain ⟨hvalid, hweight, hnew⟩ := LossMap.updateAll_blends (k := rates.get)
    (g := fun i => .ok (lossAt answer i)) (List.mem_finRange i) hkeys rfl hold hloop
  refine ⟨hvalid, hweight, ?_⟩
  rw [hs', ScoutRateAdaptation.lossRate_eq_ok]
  exact ⟨m', ScoutRateAdaptation.getLossMap_setLossMap
    (ScoutRateAdaptation.ne_invalid_of_getLossMap hm₀), hnew⟩

theorem insertFeedback_keeps {seq len : Nat} {status : PacketStatus}
    {time clock now : MonotonicTimer}
    (h : s.insertFeedback laptop seq status rate len time clock now = .ok s') :
    KeepsAntennas s.toScoutRateAdaptation s'.toScoutRateAdaptation := by
  obtain ⟨f, -, h⟩ := bind_eq_ok.mp h
  obtain ⟨⟨removed, f'⟩, -, h⟩ := bind_eq_ok.mp h
  dsimp only at h
  split at h
  · obtain ⟨scout, hscout, h⟩ := bind_eq_ok.mp h
    cases h
    rw [toScoutRateAdaptation_setFeedbackRec] at hscout
    exact ScoutRateAdaptation.insertRecord_keeps hscout
  · cases h
    rw [toScoutRateAdaptation_setFeedbackRec]
    exact ⟨rfl, rfl, id⟩

theorem setRateAdaptVersion_keeps (s : ScoutFeedback rates) (version : RateAdaptVersion)
    (clock : MonotonicTimer) (dirty : Bool) : KeepsAntennas s.toScoutRateAdaptation
      (s.setRateAdaptVersion version clock dirty).toScoutRateAdaptation := by
  refine ⟨rfl, rfl, fun _ hversion => ?_⟩
  have hbaseline : version.isBaseline = true := hversion
  show Option.isSome (if _ then _ else _) = true
  split
  · cases version <;> first | rfl | exact absurd hbaseline (by decide)
  · next hnone =>
    cases hb : s.rateAdaptBaseline with
    | none => exact absurd ⟨hbaseline, by rw [hb]; rfl⟩ hnone
    | some b => rfl

/-- What a call does to the maps of the antennas: two calls write to them, all others leave them
alone. -/
inductive EstimateEffect (s s' : ScoutFeedback rates) : EstimateInput → Prop where
  | high (h : s.setHighLoss = .ok s'.toScoutRateAdaptation) : EstimateEffect s s' .setHighLoss
  | blended (laptop : Laptop) (start stop : MonotonicTimer)
      (h : s.calcLossRates laptop start stop = .ok s') :
      EstimateEffect s s' (.calcLossRates laptop start stop)
  | kept (input : EstimateInput)
      (h : KeepsAntennas s.toScoutRateAdaptation s'.toScoutRateAdaptation) :
      EstimateEffect s s' input

theorem exec_effect (h : s.exec input = .ok s') : EstimateEffect s s' input := by
  cases input with
  | insertFeedback laptop seq status rate len time clock now =>
    exact .kept _ (insertFeedback_keeps h)
  | calcLossRates laptop start stop => exact .blended laptop start stop h
  | calcLossRatesScout frontWindow backWindow now =>
    obtain ⟨⟨r, front, back⟩, -, h⟩ := bind_eq_ok.mp h
    obtain ⟨scout, hscout, h⟩ := bind_eq_ok.mp h
    cases h
    exact .kept _ (ScoutRateAdaptation.calcLossRates_keeps (mapError_eq_ok.mp hscout))
  | setHighLoss =>
    obtain ⟨scout, hscout, h⟩ := bind_eq_ok.mp h
    cases h
    exact .high hscout
  | calcLossRatesAfterCombine now =>
    obtain ⟨⟨r, front, back⟩, -, h⟩ := bind_eq_ok.mp h
    obtain ⟨scout, hscout, h⟩ := bind_eq_ok.mp h
    cases h
    exact .kept _ (ScoutRateAdaptation.calcLossRatesAfterCombine_keeps (mapError_eq_ok.mp hscout))
  | setRateAdaptVersion version clock dirty =>
    cases h
    exact .kept _ (s.setRateAdaptVersion_keeps version clock dirty)
  | setSpeed speed =>
    cases h
    exact .kept _ ⟨rfl, rfl, id⟩

/-- What a call does to an estimate of an antenna: `SetHighLoss` writes a one, `CalcLossRates` for
the antenna blends in what its records answer, and every other call leaves the estimate alone. -/
theorem exec_rule (hlaptop : laptop.IsAntenna) (h : s.exec input = .ok s')
    (hold : s.lossRate laptop rate = .ok old) (hP : P old)
    (hone : input = .setHighLoss → ∀ loss : LossRate, loss.val = 1 → P loss)
    (hblend : ∀ start stop, input = .calcLossRates laptop start stop →
      ∀ f answer f', s.feedbackRec laptop = .ok f →
        f.calcLossRates start stop rates = .ok (answer, f') →
        ∀ (i : Fin rates.length), rates.get i = rate → ∀ (old loss : LossRate)
          (hweight : kPrevWeight ≤ 1), loss.val = lossAt answer i → P old →
            P (old.blend loss kPrevWeight hweight)) :
    ∃ new, s'.lossRate laptop rate = .ok new ∧ P new := by
  cases exec_effect h with
  | high hhigh => exact ScoutRateAdaptation.setHighLoss_rule hhigh hold hP (hone rfl)
  | blended laptop' start stop hcalc =>
    obtain ⟨f, m, answer, f', m', hf, hm, hanswer, hloop, hs'⟩ := calcLossRates_inv hcalc
    rw [hs']
    refine ScoutRateAdaptation.lossRate_setLossMap hm hold hP fun hsame hget => ?_
    subst hsame
    refine LossMap.updateAll_rule (k := rates.get) (g := fun i => .ok (lossAt answer i)) hloop
      hget hP ?_
    intro i _ hi old' loss hweight hloss hPold
    exact hblend start stop rfl f answer f' hf hanswer i hi old' loss hweight
      (Except.ok.inj hloss).symm hPold
  | kept _ hkeeps =>
    rw [hkeeps.lossRate hlaptop]
    exact ⟨old, hold, hP⟩

theorem exec_baselineSet (h : s.exec input = .ok s') (hs : s.BaselineSet) : s'.BaselineSet := by
  cases exec_effect h with
  | high hhigh => exact ScoutRateAdaptation.setHighLoss_baselineSet hhigh hs
  | blended laptop start stop hcalc =>
    obtain ⟨f, m, answer, f', m', -, -, -, -, hs'⟩ := calcLossRates_inv hcalc
    rw [hs']
    exact hs.setLossMap m' laptop
  | kept _ hkeeps => exact hkeeps.baseline hs

/-- A known estimate of an antenna stays known. -/
theorem exec_known (hlaptop : laptop.IsAntenna) (h : s.exec input = .ok s')
    (hold : s.lossRate laptop rate = .ok old) (hknown : old.val ≠ INVALID_LOSS_RATE) :
    ∃ new, s'.lossRate laptop rate = .ok new ∧ new.val ≠ INVALID_LOSS_RATE := by
  refine exec_rule hlaptop h hold hknown ?_ ?_
  · intro _ loss hloss
    rw [hloss, INVALID_LOSS_RATE]
    norm_num
  · intro _ _ _ _ _ _ _ _ _ _ old' loss hweight _ hold'
    exact LossRate.blend_known (by norm_num [kPrevWeight]) hold'

/-- Without a packet of a rate in the window there is no loss for it, provided that the search for
the end finds it. -/
theorem lossAt_idle {f f' : LossRecords} {answer : Option (List ℚ)} {i : Fin rates.length}
    (hsorted : f.records.Pairwise fun p q => p.timer ≤ q.timer)
    (hstop : start ≠ stop → f.MeetsFirst stop) (hle : start ≤ stop)
    (hidle : ∀ p ∈ f.records, p.rate = rates.get i → ¬(start ≤ p.timer ∧ p.timer < stop))
    (h : f.calcLossRates start stop rates = .ok (answer, f')) :
    lossAt answer i = INVALID_LOSS_RATE := by
  obtain ⟨answer', f'', hends, hanswer⟩ := f.calcLossRates_ends hle rates
  rw [h] at hends
  cases hends
  obtain rfl | ⟨w, hw, rfl⟩ := hanswer
  · rfl
  · have hnone : sent w (rates.get i) = 0 := by
      by_contra hsent
      obtain ⟨p, hp, hrate⟩ := sent_pos_iff.mp (Nat.pos_of_ne_zero hsent)
      exact hidle p ((FeedbackRecords.window_sublist hw).subset hp) hrate
        (FeedbackRecords.mem_window hsorted hstop hw hp)
    rw [lossAt_some, windowLoss, if_pos hnone]
    rfl

/-- Without feedback on its rate a known estimate of an antenna does not change. -/
theorem exec_idle (hlaptop : laptop.IsAntenna) (hen : s.enabled input) (hends : s.FindsEnd input)
    (hidle : s.Idle laptop rate input) (h : s.exec input = .ok s')
    (hold : s.lossRate laptop rate = .ok old) (hknown : old.val ≠ INVALID_LOSS_RATE) :
    s'.lossRate laptop rate = .ok old := by
  have hrule : ∃ new, s'.lossRate laptop rate = .ok new ∧ new = old := by
    refine exec_rule hlaptop h hold rfl ?_ ?_
    · rintro rfl
      exact hidle.elim
    · rintro start stop rfl f answer f' hf hanswer i hi old' loss hweight hloss rfl
      obtain ⟨hsorted, hstop⟩ := hends f hf
      have hinvalid : loss.val = INVALID_LOSS_RATE := by
        rw [hloss]
        exact lossAt_idle hsorted hstop hen
          (fun p hp hrate => hidle rfl f hf p hp (hrate.trans hi)) hanswer
      exact LossRate.blend_invalid (by norm_num [kPrevWeight]) hknown hinvalid
  obtain ⟨new, hnew, rfl⟩ := hrule
  exact hnew

end ScoutFeedback

section Runs

variable {rateArr : List Int} {totalWindow : MonotonicTimer}
  {s s' : ScoutFeedback (rateArr.map LossRecords.tableRate)}

theorem estimateMachine_baselineSet (h : (estimateMachine rateArr totalWindow).Reachable s) :
    s.BaselineSet := by
  refine Machine.Reachable.invariant (I := fun s => s.BaselineSet) h ?_ ?_
  · rintro s ⟨⟨combineMode, sampleMode, hscout⟩, -, -⟩
    rw [hscout]
    intro hversion
    cases hversion
  · intro s input s' _ hs _ hexec
    exact ScoutFeedback.exec_baselineSet hexec hs

end Runs

/-- In every run, every entry of the four maps is valid and no assertion on an estimate fails. From
there on, a known estimate of an antenna stays known in every run, and it is unchanged in a run
without feedback on its rate whose searches find the ends of their windows. -/
theorem estimateMachine_keeps (rateArr : List Int) (totalWindow : MonotonicTimer)
    (s : ScoutFeedback (rateArr.map LossRecords.tableRate))
    (hs : (estimateMachine rateArr totalWindow).Reachable s) :
    (∀ laptop, laptop ≠ .invalid → ∀ rate ∈ rateArr.map LossRecords.tableRate,
      ∃ loss, s.lossRate laptop rate = .ok loss ∧
        (loss.val = -1 ∨ 0 ≤ loss.val ∧ loss.val ≤ 1)) ∧
    (∀ input, s.enabled input → (∃ s', s.exec input = .ok s') ∨ s.exec input = .error .laptop ∨
      s.exec input = .error (.insert .packetStatus)) ∧
    (rateArr ≠ [] → ∀ lossThresh, ∃ s', s.applyRateScout lossThresh = .ok s') ∧
    ∀ laptop, laptop.IsAntenna → ∀ rate known, s.lossRate laptop rate = .ok known →
      known.val ≠ INVALID_LOSS_RATE →
      (∀ s', ((estimateMachine rateArr totalWindow).startingAt s).Reachable s' →
        ∃ loss, s'.lossRate laptop rate = .ok loss ∧ loss.val ≠ INVALID_LOSS_RATE) ∧
      ∀ s', (((estimateMachine rateArr totalWindow).startingAt s).restrict fun t input =>
          t.FindsEnd input ∧ t.Idle laptop rate input).Reachable s' →
        s'.lossRate laptop rate = .ok known := by
  refine ⟨fun laptop hlaptop rate hrate => ?_, fun input hen => ?_, fun hne lossThresh => ?_,
    fun laptop hlaptop rate known hknown hvalid => ⟨fun s' hs' => ?_, fun s' hs' => ?_⟩⟩
  · obtain ⟨m, hm⟩ := s.getLossMap_ok hlaptop
    obtain ⟨loss, hloss⟩ := m.getLossRate_mem hrate
    exact ⟨loss, ScoutRateAdaptation.lossRate_eq_ok.mpr ⟨m, hm, hloss⟩, loss.property⟩
  · exact ScoutFeedback.exec_ends (estimateMachine_baselineSet hs) hen
  · obtain ⟨m, hm, happly, -⟩ :=
      s.toScoutRateAdaptation.applyRateScout_first lossThresh (by simpa using hne)
    exact ⟨_, happly⟩
  · refine Machine.Reachable.invariant (I := fun s' : ScoutFeedback _ =>
      ∃ loss, s'.lossRate laptop rate = .ok loss ∧ loss.val ≠ INVALID_LOSS_RATE) hs' ?_ ?_
    · rintro s' rfl
      exact ⟨known, hknown, hvalid⟩
    · rintro t input t' - ⟨loss, hloss, hloss'⟩ - hexec
      exact ScoutFeedback.exec_known hlaptop hexec hloss hloss'
  · refine Machine.Reachable.invariant (I := fun s' : ScoutFeedback _ =>
      s'.lossRate laptop rate = .ok known) hs' ?_ ?_
    · rintro s' rfl
      exact hknown
    · rintro t input t' - hold ⟨hen, hends, hidle⟩ hexec
      exact ScoutFeedback.exec_idle hlaptop hen hends hidle hexec hold hvalid

/-! ### Three packets at one time -/

/-- Acked packets at five seconds, in the records of the back antenna. -/
def fedBack (n : Nat) : ScoutFeedback ([60].map LossRecords.tableRate) where
  toScoutRateAdaptation := .init _ .scoutCombine .noSample
  feedbackRecFront := .ofRates [60] ⟨10, 0⟩
  feedbackRecBack := { LossRecords.ofRates [60] ⟨10, 0⟩ with
    records := (List.range n).map fun seq => ⟨⟨5, 0⟩, seq, 60, 0, .acked⟩ }
  antennaDist := 11 / 10
  speed := -1
  frontWindow := ⟨0, 50000000⟩
  backWindow := ⟨0, 100000000⟩

/-- Feedback on the next of them. -/
def feedNext (n : Nat) : EstimateInput :=
  .insertFeedback .back n .acked 60 1000 ⟨5, 0⟩ ⟨5, 0⟩ ⟨5, 0⟩

theorem exec_feedNext (n : Nat) : (fedBack n).exec (feedNext n) = .ok (fedBack (n + 1)) := by
  have htime : (⟨5, 0⟩ : MonotonicTimer).getMSec ≠ 0 := by norm_num [MonotonicTimer.getMSec]
  have hrecords : (fedBack n).feedbackRecBack.records ++ [⟨⟨5, 0⟩, n, 60, 0, .acked⟩] =
      (fedBack (n + 1)).feedbackRecBack.records := by
    simp [fedBack, List.range_succ]
  -- no record is old
  have hlive : List.dropWhile ((fedBack n).feedbackRecBack.isOld ⟨5, 0⟩)
      (fedBack (n + 1)).feedbackRecBack.records = (fedBack (n + 1)).feedbackRecBack.records := by
    rw [List.dropWhile_eq_self_iff]
    intro hpos
    simp [fedBack, FeedbackRecords.isOld, LossRecords.ofRates, MonotonicTimer.add,
      MonotonicTimer.le_def, BILLION]
  have hlegal : PacketStatus.acked.isLegal = true := rfl
  obtain ⟨⟨removed, records⟩, hins⟩ :=
    (fedBack n).feedbackRecBack.toFeedbackRecords.insertPacket_legal n 60 ⟨5, 0⟩ ⟨5, 0⟩ hlegal
  have heq : records = (fedBack (n + 1)).feedbackRecBack.toFeedbackRecords := by
    rw [FeedbackRecords.insertPacket_eq hins htime, hrecords, hlive]
    rfl
  subst heq
  exact bind_eq_ok.mpr ⟨_, rfl, bind_eq_ok.mpr
    ⟨(removed, (fedBack (n + 1)).feedbackRecBack),
      mapError_eq_ok.mpr (bind_eq_ok.mpr ⟨_, hins, rfl⟩), rfl⟩⟩

/-- The runs in which no packet is inserted with a time in the fifth second. -/
def outsideMachine : Machine (ScoutFeedback ([60].map LossRecords.tableRate)) EstimateInput
    EstimateFault :=
  (estimateMachine [60] ⟨10, 0⟩).restrict (ScoutFeedback.InsertsOutside .back 60 ⟨4, 0⟩ ⟨5, 0⟩)

theorem reachable_fedBack (n : Nat) : outsideMachine.Reachable (fedBack n) := by
  induction n with
  | zero => exact .init ⟨⟨_, _, rfl⟩, rfl, rfl⟩
  | succ n ih =>
    have hen : outsideMachine.enabled (fedBack n) (feedNext n) := by
      refine ⟨trivial, fun _ _ => ?_⟩
      rw [ite_self]
      decide
    exact .step ih hen (exec_feedNext n)

/-- The records can be met with a known estimate. -/
theorem exists_highLoss (n : Nat) : ∃ s : ScoutFeedback ([60].map LossRecords.tableRate),
    outsideMachine.Reachable s ∧ s.feedbackRecBack = (fedBack n).feedbackRecBack ∧
      ∃ loss, s.lossRate .back 60 = .ok loss ∧ loss.val = 1 := by
  obtain ⟨scout, hscout⟩ := (fedBack n).toScoutRateAdaptation.setHighLoss_ok
  have hexec : (fedBack n).exec .setHighLoss =
      .ok { fedBack n with toScoutRateAdaptation := scout } :=
    bind_eq_ok.mpr ⟨scout, hscout, rfl⟩
  have hen : outsideMachine.enabled (fedBack n) .setHighLoss := ⟨trivial, trivial⟩
  have hone := ScoutRateAdaptation.setHighLoss_high (List.mem_singleton.mpr rfl : 60 ∈ _) hscout
  exact ⟨_, .step (reachable_fedBack n) hen hexec, rfl, hone.2⟩

/-- With one record at the end of the window, the estimate stays. -/
theorem estimateMachine_keeps_one : ∃ s s' : ScoutFeedback ([60].map LossRecords.tableRate),
    s.calcLossRates .back ⟨4, 0⟩ ⟨5, 0⟩ = .ok s' ∧
      ∃ loss, s.lossRate .back 60 = .ok loss ∧ s'.lossRate .back 60 = .ok loss := by
  obtain ⟨s, hs, hrec, loss, hloss, hone⟩ := exists_highLoss 1
  have hle : (⟨4, 0⟩ : MonotonicTimer) ≤ ⟨5, 0⟩ := by decide
  obtain ⟨s', hs'⟩ := s.calcLossRates_ok (.inr rfl) hle
  have hknown : loss.val ≠ INVALID_LOSS_RATE := by
    rw [hone, INVALID_LOSS_RATE]
    norm_num
  have hends : s.FindsEnd (.calcLossRates .back ⟨4, 0⟩ ⟨5, 0⟩) := by
    rintro f ⟨⟩
    rw [hrec]
    exact ⟨by decide, fun _ => by simp [FeedbackRecords.MeetsFirst, fedBack, probes]⟩
  have hidle : s.Idle .back 60 (.calcLossRates .back ⟨4, 0⟩ ⟨5, 0⟩) := by
    rintro - f ⟨⟩
    rw [hrec]
    decide
  have hen : ((estimateMachine [60] ⟨10, 0⟩).startingAt s).enabled s
      (.calcLossRates .back ⟨4, 0⟩ ⟨5, 0⟩) := hle
  have hkeeps := ((estimateMachine_keeps [60] ⟨10, 0⟩ s hs.of_restrict).2.2.2 .back (.inr rfl) 60
    loss hloss hknown).2
  exact ⟨s, s', hs', loss, hloss, hkeeps s' (.step (.init rfl) ⟨hen, hends, hidle⟩ hs')⟩

/-- With three records at the end of the window, the first one is counted. -/
theorem calcLossRates_fedBack : ∃ f', (fedBack 3).feedbackRecBack.calcLossRates ⟨4, 0⟩ ⟨5, 0⟩
    ([60].map LossRecords.tableRate) = .ok (some [0], f') := by
  have hle : (⟨4, 0⟩ : MonotonicTimer) ≤ ⟨5, 0⟩ := by decide
  have havail : (fedBack 3).feedbackRecBack.isUnavailable ⟨4, 0⟩ ⟨5, 0⟩ = false := by decide
  have hleft : (fedBack 3).feedbackRecBack.binarySearchRecords ⟨4, 0⟩ = .ok 0 := by decide
  have hright : (fedBack 3).feedbackRecBack.binarySearchRecords ⟨5, 0⟩ = .ok 1 := by
    simp [FeedbackRecords.binarySearchRecords, fedBack, List.range_succ, bisect,
      FeedbackRecords.compareTimer]
  have hwindow : (fedBack 3).feedbackRecBack.window ⟨4, 0⟩ ⟨5, 0⟩ =
      .ok [⟨⟨5, 0⟩, 0, 60, 0, .acked⟩] := by
    rw [FeedbackRecords.window, hleft, hright]
    rfl
  obtain ⟨table, hcalc, -⟩ := LossRecords.calcLossRates_spec hle havail hwindow
    ([60].map LossRecords.tableRate)
  have hloss : windowLoss [⟨⟨5, 0⟩, 0, 60, 0, .acked⟩] 60 = 0 := by
    norm_num [windowLoss, sent, acked]
  have hlosses : ([60].map LossRecords.tableRate).map
      (windowLoss [⟨⟨5, 0⟩, 0, 60, 0, .acked⟩]) = [0] := by
    simp [LossRecords.tableRate, hloss]
  rw [hlosses] at hcalc
  exact ⟨_, hcalc⟩

/-- With three records at the end of the window, the search for the end stops at the second. -/
theorem estimateMachine_equalTimes : ¬∀ (rateArr : List Int) (totalWindow : MonotonicTimer)
    (laptop : Laptop) (rate : Nat) (start stop : MonotonicTimer)
    (s s' : ScoutFeedback (rateArr.map LossRecords.tableRate)) (known : LossRate),
    ((estimateMachine rateArr totalWindow).restrict
      (ScoutFeedback.InsertsOutside laptop rate start stop)).Reachable s →
    laptop.IsAntenna → start ≤ stop → s.lossRate laptop rate = .ok known →
    known.val ≠ INVALID_LOSS_RATE → s.calcLossRates laptop start stop = .ok s' →
    s'.lossRate laptop rate = .ok known := by
  intro h
  obtain ⟨s, hs, hrec, loss, hloss, hone⟩ := exists_highLoss 3
  have hle : (⟨4, 0⟩ : MonotonicTimer) ≤ ⟨5, 0⟩ := by decide
  obtain ⟨s', hs'⟩ := s.calcLossRates_ok (.inr rfl) hle
  have hknown : loss.val ≠ INVALID_LOSS_RATE := by
    rw [hone, INVALID_LOSS_RATE]
    norm_num
  have hsame := h [60] ⟨10, 0⟩ .back 60 ⟨4, 0⟩ ⟨5, 0⟩ s s' loss hs (.inr rfl) hle hloss hknown hs'
  obtain ⟨f', hanswer⟩ := calcLossRates_fedBack
  obtain ⟨hvalid, hweight, hnew⟩ := ScoutFeedback.calcLossRates_blends (i := ⟨0, by decide⟩)
    (by decide) hs' rfl (hrec ▸ hanswer) hloss
  have hblend := congrArg Subtype.val (Except.ok.inj (hnew.symm.trans hsame))
  have hzero : lossAt (some [0]) 0 = 0 := rfl
  rw [LossRate.blend_val (by norm_num [kPrevWeight]) hknown] at hblend
  · dsimp only at hblend
    rw [hone, hzero, kPrevWeight] at hblend
    norm_num at hblend
  · dsimp only
    rw [hzero, INVALID_LOSS_RATE]
    norm_num

end WspaceScout
