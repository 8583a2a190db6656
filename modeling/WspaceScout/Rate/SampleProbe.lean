import WspaceScout.Foundation.Scan
import WspaceScout.Rate.SampleRate

/-!
# What SampleRate probes

Every tenth packet goes out at a random candidate. The candidates are counted below the current
position plus three, but drawn from a loop over the whole table. This makes no difference, because
the loop meets the candidates that were counted before all others.

## Main results

- `SampleRate.randomCandidate_eq` — the draw is one from the counted candidates
- `SampleRate.applyRate_admissible` — what a probe may be, and what the other packets use
-/

namespace WspaceScout

open Foundation

namespace SampleRate

variable {rates : List Nat} (s : SampleRate rates)

/-- The rate may be probed next. -/
structure Admissible (i : Fin rates.length) : Prop where
  lt : i.val < s.curRatePos.val + 3
  ne : i ≠ s.curRatePos
  losses : (s.rateTable i).numContiLoss < 4
  faster : (s.rateTable i).minAvgTxTime < (s.rateTable s.curRatePos).avgTxTime

/-- The candidates that are counted. -/
def counted : List (Fin rates.length) :=
  ((List.finRange _).filter s.isCandidate).filter fun i => i.val < s.curRatePos.val + 3

theorem mem_counted {i : Fin rates.length} : i ∈ s.counted ↔ s.Admissible i := by
  simp only [counted, isCandidate, List.mem_filter, List.mem_finRange, true_and,
    decide_eq_true_eq]
  constructor
  · rintro ⟨⟨hlosses, hne, hfaster⟩, hlt⟩
    exact ⟨hlt, hne, hlosses, hfaster⟩
  · rintro ⟨hlt, hne, hlosses, hfaster⟩
    exact ⟨⟨hlosses, hne, hfaster⟩, hlt⟩

/-- The loop that draws meets the counted candidates first. -/
theorem take_candidates :
    ((List.finRange _).filter s.isCandidate).take s.counted.length = s.counted := by
  rw [counted, ← List.countP_eq_length_filter]
  apply take_countP_eq_filter
  apply List.Pairwise.filter
  apply (List.pairwise_lt_finRange _).imp
  intro i j hij hj
  simp only [decide_eq_true_eq] at hj ⊢
  exact lt_trans hij hj

theorem randomCandidate_eq (random : Nat) : s.randomCandidate random =
    if s.counted = [] then s.curRatePos
    else s.counted[random % s.counted.length]?.getD s.curRatePos := by
  have hcount : ((List.finRange _).countP fun i =>
      i.val < s.curRatePos.val + 3 ∧ s.isCandidate i) = s.counted.length := by
    rw [counted, ← List.countP_eq_length_filter, List.countP_filter]
    apply List.countP_congr
    intro i _
    simp
  simp only [randomCandidate, hcount]
  by_cases hnil : s.counted = []
  · rw [if_pos hnil, if_neg (by simp [hnil])]
  · have hpos : 0 < s.counted.length := List.length_pos_iff.mpr hnil
    rw [if_neg hnil, if_pos hpos.ne']
    have hlt := Nat.mod_lt random hpos
    rw [← List.getElem?_take_of_lt hlt, take_candidates]

/-- The draw ends at an admissible rate, if there is one. -/
theorem randomCandidate_spec (random : Nat) :
    (∀ i, ¬s.Admissible i) ∧ s.randomCandidate random = s.curRatePos ∨
      s.Admissible (s.randomCandidate random) := by
  rw [randomCandidate_eq]
  by_cases hnil : s.counted = []
  · refine .inl ⟨fun i hi => ?_, if_pos hnil⟩
    have hmem := s.mem_counted.mpr hi
    rw [hnil] at hmem
    cases hmem
  · right
    have hlt := Nat.mod_lt random (List.length_pos_iff.mpr hnil)
    rw [if_neg hnil, List.getElem?_eq_getElem hlt, ← mem_counted]
    exact List.getElem_mem hlt

/-- Every admissible rate is drawn for some random number. -/
theorem randomCandidate_reaches {i : Fin rates.length} (hi : s.Admissible i) :
    ∃ random, random < rates.length ∧ s.randomCandidate random = i := by
  have hmem := s.mem_counted.mpr hi
  obtain ⟨random, hlt, hget⟩ := List.getElem_of_mem hmem
  have hle : s.counted.length ≤ rates.length := by
    have hsub : s.counted.Sublist (List.finRange rates.length) :=
      List.filter_sublist.trans List.filter_sublist
    have hlen := hsub.length_le
    rwa [List.length_finRange] at hlen
  refine ⟨random, hlt.trans_le hle, ?_⟩
  rw [randomCandidate_eq, if_neg (List.ne_nil_of_mem hmem), Nat.mod_eq_of_lt hlt,
    List.getElem?_eq_getElem hlt, hget]
  rfl

/-- The position of the first rate with the lowest average transmission time, if there is one below
that of a rate without acks; the current position otherwise. -/
def IsFastest (i : Fin rates.length) : Prop :=
  (∀ j, 10000000000 ≤ (s.rateTable j).avgTxTime) ∧ i = s.curRatePos ∨
    (s.rateTable i).avgTxTime < 10000000000 ∧
      (∀ j, (s.rateTable i).avgTxTime ≤ (s.rateTable j).avgTxTime) ∧
      ∀ j, j < i → (s.rateTable i).avgTxTime < (s.rateTable j).avgTxTime

theorem fastest_spec : s.IsFastest s.fastest := by
  obtain ⟨hnone, heq⟩ | ⟨i, hfirst, hlt, heq⟩ := scan_below (fun i => (s.rateTable i).avgTxTime)
    (List.finRange _) 10000000000 s.curRatePos
  · rw [fastest, heq]
    exact .inl ⟨fun j => hnone j (List.mem_finRange j), rfl⟩
  · rw [fastest, heq]
    exact .inr ⟨hlt, fun j => hfirst.le (List.mem_finRange j), fun j hj =>
      hfirst.lt (List.pairwise_lt_finRange _) (List.mem_finRange j) hj⟩

variable (random : Nat)

theorem chooseRate_rate :
    (s.chooseRate random).1.rate = rates.get (s.chooseRate random).2.curRatePos := by
  simp only [chooseRate]
  split
  · rfl
  · split
    · rfl
    · rfl

theorem chooseRate_probe (hacked : s.statistic.numAcked ≠ 0)
    (hprobe : uint32 (s.pktCount + 1) % 10 = 0) :
    (s.chooseRate random).2.curRatePos = s.randomCandidate random := by
  simp only [chooseRate, if_neg hacked, if_pos hprobe]

theorem chooseRate_fastest (hacked : s.statistic.numAcked ≠ 0)
    (hother : uint32 (s.pktCount + 1) % 10 ≠ 0) :
    (s.chooseRate random).2.curRatePos = s.fastest := by
  simp only [chooseRate, if_neg hacked, if_neg hother]

/-- A packet goes out at the rate of the new position. A probe stays exactly if no rate is
admissible, and otherwise moves to an admissible one, each of which some random number reaches. With
acks, the other packets go out at the fastest rate. -/
theorem applyRate_admissible (s : SampleRate rates) (now : MonotonicTimer) (random : Nat) :
    let t := s.refresh now
    let pos := (s.applyRate now random).2.curRatePos
    (s.applyRate now random).1.rate = rates.get pos ∧
      (t.statistic.numAcked ≠ 0 →
        (uint32 (t.pktCount + 1) % 10 = 0 →
          (pos = t.curRatePos ↔ ∀ i, ¬t.Admissible i) ∧
          (pos ≠ t.curRatePos → t.Admissible pos) ∧
          ∀ i, t.Admissible i → ∃ random', random' < rates.length ∧
            (s.applyRate now random').2.curRatePos = i) ∧
        (uint32 (t.pktCount + 1) % 10 ≠ 0 → t.IsFastest pos)) := by
  intro t pos
  refine ⟨t.chooseRate_rate random, fun hacked => ⟨fun hprobe => ?_, fun hother => ?_⟩⟩
  · have hpos : pos = t.randomCandidate random := t.chooseRate_probe random hacked hprobe
    refine ⟨?_, ?_, fun i hi => ?_⟩
    · obtain ⟨hnone, hstay⟩ | hadm := t.randomCandidate_spec random
      · exact iff_of_true (hpos.trans hstay) hnone
      · exact iff_of_false (fun heq => hadm.ne (hpos.symm.trans heq)) fun hnone => hnone _ hadm
    · intro hmoved
      obtain ⟨-, hstay⟩ | hadm := t.randomCandidate_spec random
      · exact absurd (hpos.trans hstay) hmoved
      · exact hpos ▸ hadm
    · obtain ⟨random', hlt, hdraw⟩ := t.randomCandidate_reaches hi
      exact ⟨random', hlt, (t.chooseRate_probe random' hacked hprobe).trans hdraw⟩
  · have hpos : pos = t.fastest := t.chooseRate_fastest random hacked hother
    rw [hpos]
    exact t.fastest_spec

/-- After an ack at 1 Mbit/s and eight other packets, the tenth one is a probe. -/
def probing : SampleRate mac80211abgRate :=
  { (SampleRate.init ⟨0, 0⟩).insertIntoRateTable ⟨⟨0, 0⟩, 1, 10, 100, .acked⟩ with pktCount := 9 }

/-- It goes out at an admissible rate of 2 Mbit/s. -/
theorem applyRate_admissible_probe : (probing.applyRate ⟨1, 0⟩ 0).1.rate = 20 ∧
    (probing.refresh ⟨1, 0⟩).Admissible (probing.applyRate ⟨1, 0⟩ 0).2.curRatePos := by
  obtain ⟨hrate, hprobe⟩ := probing.applyRate_admissible ⟨1, 0⟩ 0
  obtain ⟨-, hmoved, -⟩ := (hprobe (by decide +kernel)).1 (by decide +kernel)
  have hpos : (probing.applyRate ⟨1, 0⟩ 0).2.curRatePos = ⟨1, by decide⟩ := by decide +kernel
  refine ⟨?_, hmoved ?_⟩
  · rw [hrate, hpos]
    rfl
  · rw [hpos]
    decide +kernel

end SampleRate

end WspaceScout
