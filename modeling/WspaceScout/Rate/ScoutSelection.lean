import WspaceScout.Foundation.Scan
import WspaceScout.Rate.ScoutRate

/-!
# The rate that scout rate adaptation selects

`ApplyRateScout` estimates the throughput of every rate and selects the first rate with the highest
estimate. Rates that are infeasible, too lossy or untried and above the current rate count as zero,
so none of them can win against a lower rate.

## Main results

- `findMaxInd_spec` — the loop finds the first maximum
- `applyRateScout_optimal` — the selected rate is the best one, and no better than it should be
-/

namespace WspaceScout

open Foundation OrderDual

/-- `FindMaxInd` finds the first maximum. -/
theorem findMaxInd_spec {arr : List ℚ} (hne : arr ≠ []) :
    ∃ m, findMaxInd arr = some m ∧
      IsFirstLeast (fun i => toDual (arr.getD i 0)) (List.range arr.length) m := by
  have hpos : 0 < arr.length := List.length_pos_iff.mpr hne
  refine ⟨_, by rw [findMaxInd, if_neg hpos.ne'], ?_⟩
  have hscan := (IsFirstLeast.singleton (fun i => toDual (arr.getD i 0)) 0).scan
    (List.range' 1 (arr.length - 1))
  have hrange : [0] ++ List.range' 1 (arr.length - 1) = List.range arr.length := by
    rw [List.range_eq_range', ← Nat.sub_add_cancel hpos, List.range'_succ, Nat.add_sub_cancel]
    rfl
  rw [hrange] at hscan
  simpa only [toDual_lt_toDual] using hscan

namespace ScoutRateAdaptation

variable {rates : List Nat} (s : ScoutRateAdaptation rates) (lossThresh : ℚ)

/-- The estimate for a rate of the table. -/
def estimate (rate : Nat) : ℚ :=
  match s.lossMapCombine.getLossRate rate with
  | .ok loss => s.throughput lossThresh rate loss
  | .error _ => 0

variable {s lossThresh} {rate : Nat} {loss : LossRate}

theorem throughput_nonneg : 0 ≤ s.throughput lossThresh rate loss := by
  have hrate : (0 : ℚ) ≤ rate / 10 := by positivity
  unfold throughput
  split
  · exact le_refl 0
  · split
    · split
      · exact le_refl 0
      · exact hrate
    · next hknown =>
      have hle := (LossRate.between hknown).2
      exact mul_nonneg hrate (by linarith)

/-- What it takes to have a positive estimate. -/
theorem of_throughput_pos (h : 0 < s.throughput lossThresh rate loss) :
    s.isFeasible rate = true ∧ loss.val < 1 ∧ loss.val ≤ lossThresh ∧
      ¬(loss.val = INVALID_LOSS_RATE ∧ s.rate < rate) := by
  unfold throughput at h
  split at h
  · exact absurd h (lt_irrefl 0)
  · next hok =>
    rw [not_or, not_not, not_lt] at hok
    refine ⟨hok.1, ?_, hok.2, ?_⟩
    · split at h
      · next hunknown =>
        rw [hunknown]
        norm_num [INVALID_LOSS_RATE]
      · next hknown =>
        by_contra hone
        have heq : loss.val = 1 := le_antisymm (LossRate.between hknown).2 (not_lt.mp hone)
        rw [heq, sub_self, mul_zero] at h
        exact absurd h (lt_irrefl 0)
    · rintro ⟨hunknown, habove⟩
      rw [if_pos hunknown, if_pos habove] at h
      exact absurd h (lt_irrefl 0)

theorem estimate_nonneg : 0 ≤ s.estimate lossThresh rate := by
  unfold estimate
  split
  · exact throughput_nonneg
  · exact le_refl 0

/-- The loop that fills `throughput_arr`. -/
theorem mapM_throughput {l : List Nat} (hl : ∀ rate ∈ l, rate ∈ rates) :
    (l.mapM fun rate => do
      let loss ← s.lossMapCombine.getLossRate rate
      Except.ok (s.throughput lossThresh rate loss) : Except RateFault (List ℚ)) =
      .ok (l.map (s.estimate lossThresh)) := by
  induction l with
  | nil => rfl
  | cons rate l ih =>
    obtain ⟨loss, hloss⟩ := s.lossMapCombine.getLossRate_mem (hl rate List.mem_cons_self)
    have hestimate : s.estimate lossThresh rate = s.throughput lossThresh rate loss := by
      rw [estimate, hloss]
    rw [List.mapM_cons, ih fun r hr => hl r (List.mem_cons_of_mem rate hr), hloss, List.map_cons,
      hestimate]
    rfl

variable (s lossThresh)

/-- The first rate with the highest estimate is selected. -/
theorem applyRateScout_first (hne : rates ≠ []) :
    ∃ m, ∃ hm : m < rates.length,
      s.applyRateScout lossThresh = .ok { s with rate := rates[m] } ∧
      (∀ j (hj : j < rates.length),
        s.estimate lossThresh rates[j] ≤ s.estimate lossThresh rates[m]) ∧
      ∀ j (hj : j < m),
        s.estimate lossThresh (rates.get ⟨j, hj.trans hm⟩) < s.estimate lossThresh rates[m] := by
  have harr : rates.map (s.estimate lossThresh) ≠ [] := by simpa using hne
  obtain ⟨m, hmax, hfirst⟩ := findMaxInd_spec harr
  have hm : m < rates.length := by simpa using hfirst.mem
  have hget : ∀ j (hj : j < rates.length),
      (rates.map (s.estimate lossThresh)).getD j 0 = s.estimate lossThresh rates[j] := by
    intro j hj
    simp [List.getD_eq_getElem?_getD, hj]
  refine ⟨m, hm, ?_, fun j hj => ?_, fun j hj => ?_⟩
  · rw [applyRateScout, mapM_throughput fun rate h => h]
    simp only [bind, Except.bind, hmax, Option.bind, List.getElem?_eq_getElem hm]
  · have hle := hfirst.le (List.mem_range.mpr (by simpa using hj))
    rwa [toDual_le_toDual, hget j hj, hget m hm] at hle
  · have hlt := hfirst.lt List.pairwise_lt_range
      (List.mem_range.mpr (by simpa using hj.trans hm)) hj
    rwa [toDual_lt_toDual, hget j (hj.trans hm), hget m hm] at hlt

end ScoutRateAdaptation

/-- The selected rate has the highest estimate, and a higher one than every lower rate. Unless it
is the lowest rate, it is feasible, its loss is below one and not over the threshold, and it is not
an untried rate above the current one. -/
theorem applyRateScout_optimal {rates : List Nat} (s : ScoutRateAdaptation rates) (lossThresh : ℚ)
    (hne : rates ≠ []) (hasc : rates.Pairwise (· < ·)) :
    ∃ s' loss, s.applyRateScout lossThresh = .ok s' ∧ s' = { s with rate := s'.rate } ∧
      s'.rate ∈ rates ∧ s.lossMapCombine.getLossRate s'.rate = .ok loss ∧
      (∀ rate ∈ rates, s.estimate lossThresh rate ≤ s.estimate lossThresh s'.rate ∧
        (rate < s'.rate → s.estimate lossThresh rate < s.estimate lossThresh s'.rate)) ∧
      (rates.head? = some s'.rate ∨
        s.isFeasible s'.rate = true ∧ loss.val < 1 ∧ loss.val ≤ lossThresh ∧
          ¬(loss.val = INVALID_LOSS_RATE ∧ s.rate < s'.rate)) := by
  obtain ⟨m, hm, happly, hleast, hbefore⟩ :=
    s.applyRateScout_first lossThresh hne
  have hmem : rates[m] ∈ rates := List.getElem_mem hm
  obtain ⟨loss, hloss⟩ := s.lossMapCombine.getLossRate_mem hmem
  refine ⟨_, loss, happly, rfl, hmem, hloss, fun rate hrate => ?_, ?_⟩
  · obtain ⟨j, hj, rfl⟩ := List.getElem_of_mem hrate
    refine ⟨hleast j hj, fun hlt => hbefore j ?_⟩
    by_contra hge
    obtain heq | hgt := Nat.eq_or_lt_of_le (not_lt.mp hge)
    · subst heq
      exact absurd hlt (lt_irrefl _)
    · have hord := List.pairwise_iff_getElem.mp hasc m j hm hj hgt
      exact absurd hlt (not_lt_of_gt hord)
  · by_cases hzero : m = 0
    · left
      subst hzero
      rw [List.head?_eq_getElem?, List.getElem?_eq_getElem hm]
    · right
      have hlowest := hbefore 0 (Nat.pos_of_ne_zero hzero)
      have hpos := ScoutRateAdaptation.estimate_nonneg.trans_lt hlowest
      rw [ScoutRateAdaptation.estimate, hloss] at hpos
      exact ScoutRateAdaptation.of_throughput_pos hpos

/-- At 12 Mbit/s: rates with a known loss, untried rates on both sides, and a lossless rate of
18 Mbit/s that is infeasible. -/
def mixedRates : ScoutRateAdaptation mac80211abgRate :=
  { ScoutRateAdaptation.init mac80211abgRate .scoutCombine .noSample with
    rate := 120
    feasibleRates := [10, 60, 90, 120, 240]
    lossMapCombine := fun i => match mac80211abgRate.get i with
      | 10 | 180 => ⟨0, .inr (by norm_num)⟩
      | 60 => ⟨1 / 10, .inr (by norm_num)⟩
      | 120 => ⟨1 / 2, .inr (by norm_num)⟩
      | _ => .invalid }

/-- The untried rate of 9 Mbit/s is selected. -/
theorem applyRateScout_optimal_mixed :
    ∃ s', mixedRates.applyRateScout (15 / 10) = .ok s' ∧ s'.rate = 90 ∧
      ∀ rate ∈ mac80211abgRate, mixedRates.estimate (15 / 10) rate ≤ 9 := by
  obtain ⟨s', loss, happly, -, hmem, -, hbest, -⟩ :=
    applyRateScout_optimal mixedRates (15 / 10) (by decide) (by decide)
  have hvalue : (mixedRates.applyRateScout (15 / 10)).toOption.map (·.rate) = some 90 := by
    decide +kernel
  rw [happly] at hvalue
  injection hvalue with hrate
  replace hrate : s'.rate = 90 := hrate
  have hestimate : mixedRates.estimate (15 / 10) 90 = 9 := by decide +kernel
  refine ⟨s', happly, hrate, fun rate h => ?_⟩
  rw [← hestimate, ← hrate]
  exact (hbest rate h).1

end WspaceScout
