import WspaceScout.AccessPoint.LossReport

/-!
# The losses behind a report

`InsertFeedback` looks the loss up in a window from its first status to its last one. While the
times of the statuses increase, the records are those that reach into the time window of the last
status, and the search finds both ends of the window of the query, so that the new estimates come
from exactly the packets of that time.

## Main results

- `lossAt_increasing` — what a query answers for a rate
- `insertAll_records` — the records after the loop of `InsertFeedback`
- `insertFeedback_estimates` — the estimates after `InsertFeedback`
-/

namespace WspaceScout

open Foundation

/-- The records of a time `[start, stop)`. -/
def recordsWithin (records : List PacketInfo) (start stop : MonotonicTimer) : List PacketInfo :=
  records.filter fun pkt => start ≤ pkt.timer ∧ pkt.timer < stop

/-- The record of a status that has been sent at some time. -/
def RawPktSendStatus.toRecord (r : RawPktSendStatus) : PacketInfo :=
  ⟨r.sendTime, r.seq, r.rate, 0, r.status.toPacketStatus⟩

section Queries

variable {f f' : LossRecords} {start stop : MonotonicTimer} {rates : List Nat}
  {answer : Option (List ℚ)}

/-- What is unavailable has no record. -/
theorem recordsWithin_unavailable
    (hf : f.records.Pairwise fun p q => p.timer < q.timer)
    (h : f.isUnavailable start stop = true) : recordsWithin f.records start stop = [] := by
  rw [recordsWithin, List.filter_eq_nil_iff]
  intro p hp hwithin
  obtain ⟨hstart, hstop⟩ := of_decide_eq_true hwithin
  obtain ⟨i, hi, rfl⟩ := List.mem_iff_getElem.mp hp
  have hsorted := List.pairwise_iff_getElem.mp (hf.imp le_of_lt)
  have hpos : 0 < f.records.length := by omega
  have hfirst : f.records[0].timer ≤ f.records[i].timer := by
    obtain rfl | hlt := Nat.eq_zero_or_pos i
    · exact le_refl _
    · exact hsorted 0 i hpos hi hlt
  have hlast : f.records[i].timer ≤ f.records[f.records.length - 1].timer := by
    obtain heq | hlt := Nat.eq_or_lt_of_le (Nat.le_sub_one_of_lt hi)
    · simp only [heq, le_refl]
    · exact hsorted i _ hi (by omega) hlt
  rw [FeedbackRecords.isUnavailable, List.head?_eq_getElem?, List.getElem?_eq_getElem hpos,
    List.getLast?_eq_getElem?, List.getElem?_eq_getElem (by omega)] at h
  obtain hbefore | hafter := of_decide_eq_true h
  · exact absurd (hfirst.trans_lt hstop) (lt_asymm hbefore)
  · exact absurd (hstart.trans hlast) (not_le.mpr hafter)

/-- With increasing times a query answers for the packets of its window. -/
theorem lossAt_increasing (hf : f.records.Pairwise fun p q => p.timer < q.timer)
    (hle : start ≤ stop) (h : f.calcLossRates start stop rates = .ok (answer, f'))
    (i : Fin rates.length) :
    lossAt answer i = windowLoss (recordsWithin f.records start stop) (rates.get i) := by
  cases havail : f.isUnavailable start stop with
  | true =>
    rw [LossRecords.calcLossRates_unavailable hle havail] at h
    cases h
    rw [recordsWithin_unavailable hf havail]
    rfl
  | false =>
    have hne := FeedbackRecords.ne_nil_of_available havail
    have hsorted := hf.imp le_of_lt
    have hsearch : ∀ t, f.binarySearchRecords t = .ok (f.lowerBound t) := fun t =>
      (FeedbackRecords.binarySearchRecords_eq_iff hsorted hne).2.mpr
        (FeedbackRecords.meetsFirst_of_increasing hf)
    obtain ⟨table, hcalc, -⟩ := LossRecords.calcLossRates_spec hle havail
      (FeedbackRecords.window_eq_filter hsorted hle (hsearch start) (hsearch stop)) rates
    rw [hcalc] at h
    cases h
    exact lossAt_some _ i

/-- A query leaves the records. -/
theorem records_calcLossRates (h : f.calcLossRates start stop rates = .ok (answer, f')) :
    f'.records = f.records := by
  unfold LossRecords.calcLossRates at h
  split at h
  · split at h
    · cases h
      rfl
    · obtain ⟨table, -, h⟩ := bind_eq_ok.mp h
      cases h
      rfl
  · cases h

end Queries

namespace ScoutFeedback

variable {rates : List Nat} {s s' : ScoutFeedback rates}

/-- The records of the back antenna after an insertion; old ones have been dropped. -/
theorem insertFeedback_records {seq rate len : Nat} {status : PacketStatus}
    {time clock now : MonotonicTimer} (htime : time.getMSec ≠ 0)
    (h : s.insertFeedback .back seq status rate len time clock now = .ok s') :
    s'.feedbackRecBack.duration = s.feedbackRecBack.duration ∧
      s'.feedbackRecBack.records = List.dropWhile (s.feedbackRecBack.isOld time)
        (s.feedbackRecBack.records ++ [⟨time, seq, rate, 0, status⟩]) := by
  obtain ⟨f, hf, h⟩ := bind_eq_ok.mp h
  cases hf
  obtain ⟨⟨removed, f'⟩, hinsert, h⟩ := bind_eq_ok.mp h
  obtain ⟨⟨removed', records⟩, hpacket, hf'⟩ := bind_eq_ok.mp (mapError_eq_ok.mp hinsert)
  cases hf'
  obtain ⟨scout, -, h⟩ := bind_eq_ok.mp h
  cases h
  have hrecords := FeedbackRecords.insertPacket_eq hpacket htime
  show records.duration = _ ∧ records.records = _
  rw [hrecords]
  exact ⟨rfl, rfl⟩

/-- The estimates after the query at the end of `InsertFeedback`. -/
theorem calcLossRates_estimates {start stop : MonotonicTimer} (hrates : rates.Nodup)
    (hincreasing : s.feedbackRecBack.records.Pairwise fun p q => p.timer < q.timer)
    (hle : start ≤ stop) (h : s.calcLossRates .back start stop = .ok s') :
    s'.feedbackRecBack.records = s.feedbackRecBack.records ∧
      ∀ rate ∈ rates, ∀ old, s.lossRate .back rate = .ok old →
        ∃ (hvalid : IsLossRate
            (windowLoss (recordsWithin s.feedbackRecBack.records start stop) rate))
          (hweight : kPrevWeight ≤ 1),
          s'.lossRate .back rate = .ok (old.blend ⟨_, hvalid⟩ kPrevWeight hweight) := by
  have hcalc := h
  obtain ⟨f, hf, h⟩ := bind_eq_ok.mp h
  cases hf
  obtain ⟨m, -, h⟩ := bind_eq_ok.mp h
  obtain ⟨⟨answer, f'⟩, hquery, h⟩ := bind_eq_ok.mp h
  rw [mapError_eq_ok] at hquery
  obtain ⟨m', hloop, h⟩ := bind_eq_ok.mp h
  refine ⟨?_, fun rate hrate old hold => ?_⟩
  · cases h
    exact records_calcLossRates hquery
  · obtain ⟨i, rfl⟩ := List.mem_iff_get.mp hrate
    obtain ⟨hvalid, hweight, hnew⟩ := calcLossRates_blends hrates hcalc rfl hquery hold
    have hloss := lossAt_increasing hincreasing hle hquery i
    have hsame : (⟨lossAt answer i, hvalid⟩ : LossRate) = ⟨_, hloss ▸ hvalid⟩ :=
      Subtype.ext hloss
    rw [hsame] at hnew
    exact ⟨hloss ▸ hvalid, hweight, hnew⟩

end ScoutFeedback

section Reports

variable {s s' : ReportState} {clock now : Nat → MonotonicTimer}

/-- The records that reach into the time window of the back antenna which ends at `t`. -/
def ReportState.live (s : ReportState) (t : MonotonicTimer) (pkt : PacketInfo) : Bool :=
  t ≤ pkt.timer.add s.scoutRateMaker.feedbackRecBack.duration

theorem insertStatus_records {status : RawPktSendStatus} {t u : MonotonicTimer}
    (htime : status.sendTime.getMSec ≠ 0)
    (hincreasing : (s.scoutRateMaker.feedbackRecBack.records ++ [status.toRecord]).Pairwise
      fun p q => p.timer < q.timer)
    (hnormal : ∀ p ∈ s.scoutRateMaker.feedbackRecBack.records ++ [status.toRecord],
      p.timer.Normal)
    (h : s.insertStatus status t u = .ok s') :
    s'.live = s.live ∧
      s'.scoutRateMaker.feedbackRecBack.records =
        (s.scoutRateMaker.feedbackRecBack.records ++ [status.toRecord]).filter
          (s.live status.sendTime) ∧
      ∀ rate, s'.scoutRateMaker.lossRate .back rate = s.scoutRateMaker.lossRate .back rate := by
  obtain ⟨maker, hmaker, h⟩ := bind_eq_ok.mp h
  cases h
  obtain ⟨hduration, hrecords⟩ := ScoutFeedback.insertFeedback_records htime hmaker
  refine ⟨?_, hrecords.trans ?_, (ScoutFeedback.insertFeedback_keeps hmaker).lossRate (.inr rfl)⟩
  · funext v pkt
    rw [ReportState.live, ReportState.live, hduration]
  · exact FeedbackRecords.dropWhile_isOld _ _ hincreasing hnormal

/-- The loop of `InsertFeedback` leaves the records that reach into the time window of the last
status, and it leaves the estimates. -/
theorem insertAll_records {l : List (RawPktSendStatus × Nat)} {back : RawPktSendStatus × Nat}
    (h : l.foldlM (fun (s : ReportState) p => s.insertStatus p.1 (clock p.2) (now p.2)) s =
      .ok s') (hback : l.getLast? = some back) (htime : ∀ p ∈ l, p.1.sendTime.getMSec ≠ 0)
    (hincreasing : (s.scoutRateMaker.feedbackRecBack.records ++
      l.map fun p => p.1.toRecord).Pairwise fun p q => p.timer < q.timer)
    (hnormal : ∀ p ∈ s.scoutRateMaker.feedbackRecBack.records ++ l.map fun p => p.1.toRecord,
      p.timer.Normal) :
    s'.scoutRateMaker.feedbackRecBack.records =
        (s.scoutRateMaker.feedbackRecBack.records ++ l.map fun p => p.1.toRecord).filter
          (s.live back.1.sendTime) ∧
      ∀ rate, s'.scoutRateMaker.lossRate .back rate = s.scoutRateMaker.lossRate .back rate := by
  induction l generalizing s with
  | nil => cases hback
  | cons p l ih =>
    obtain ⟨s₁, hstatus, hrest⟩ := bind_eq_ok.mp h
    have hsplit : s.scoutRateMaker.feedbackRecBack.records ++ (p :: l).map (fun p => p.1.toRecord) =
        (s.scoutRateMaker.feedbackRecBack.records ++ [p.1.toRecord]) ++
          l.map fun p => p.1.toRecord := by
      rw [List.map_cons, List.append_assoc, List.singleton_append]
    rw [hsplit] at hincreasing hnormal ⊢
    obtain ⟨hfirst, hlater, hbefore⟩ := List.pairwise_append.mp hincreasing
    obtain ⟨hlive, hrecords, hkeep⟩ := insertStatus_records (htime p List.mem_cons_self) hfirst
      (fun q hq => hnormal q (List.mem_append_left _ hq)) hstatus
    cases l with
    | nil =>
      cases hrest
      cases hback
      rw [List.map_nil, List.append_nil]
      exact ⟨hrecords, hkeep⟩
    | cons q l =>
      have hsub : (s₁.scoutRateMaker.feedbackRecBack.records ++
          (q :: l).map fun p => p.1.toRecord).Sublist
            ((s.scoutRateMaker.feedbackRecBack.records ++ [p.1.toRecord]) ++
              (q :: l).map fun p => p.1.toRecord) := by
        rw [hrecords]
        exact List.filter_sublist.append_right _
      obtain ⟨hrecords', hkeep'⟩ := ih hrest (by rwa [List.getLast?_cons_cons] at hback)
        (fun r hr => htime r (List.mem_cons_of_mem p hr)) (hincreasing.sublist hsub)
        fun r hr => hnormal r (hsub.subset hr)
      refine ⟨?_, fun rate => (hkeep' rate).trans (hkeep rate)⟩
      have hearlier : p.1.sendTime ≤ back.1.sendTime := by
        have hmem : back ∈ q :: l :=
          List.mem_of_getLast? (by rwa [List.getLast?_cons_cons] at hback)
        exact (hbefore p.1.toRecord (List.mem_append_right _ List.mem_cons_self) back.1.toRecord
          (List.mem_map_of_mem hmem)).le
      -- what reaches into the last time window reaches into the first one
      have hreach : ∀ r, s.live back.1.sendTime r = true → s.live p.1.sendTime r = true := by
        intro r hr
        exact decide_eq_true (hearlier.trans (of_decide_eq_true hr))
      rw [hrecords', hlive, hrecords]
      generalize s.scoutRateMaker.feedbackRecBack.records ++ [p.1.toRecord] = w
      rw [List.filter_append, List.filter_append, List.filter_filter]
      congr 1
      exact List.filter_congr fun r _ => Bool.and_eq_left_iff_imp.mpr (hreach r)

theorem sendTime_le {statusVec : List RawPktSendStatus} {front back : RawPktSendStatus}
    (hfront : statusVec.head? = some front) (hback : statusVec.getLast? = some back)
    (hincreasing : (statusVec.map RawPktSendStatus.toRecord).Pairwise
      fun p q => p.timer < q.timer) : front.sendTime ≤ back.sendTime := by
  cases statusVec with
  | nil => cases hfront
  | cons status l =>
    cases hfront
    obtain rfl | hmem := List.mem_cons.mp (List.mem_of_getLast? hback)
    · exact le_refl _
    · exact ((List.pairwise_cons.mp hincreasing).1 _ (List.mem_map_of_mem hmem)).le

/-- After `InsertFeedback` the records of the back antenna are the earlier ones and those of the
statuses, without those that do not reach into the time window of the last status. Every estimate
for the back antenna is the earlier one blended with the loss of its rate among the records from the
first status to the last. -/
theorem insertFeedback_estimates {statusVec : List RawPktSendStatus}
    {front back : RawPktSendStatus} {bsId clientId : Int}
    (hfront : statusVec.head? = some front) (hback : statusVec.getLast? = some back)
    (hsent : ∀ status ∈ statusVec, status.sendTime.getMSec ≠ 0)
    (hincreasing : (s.scoutRateMaker.feedbackRecBack.records ++
      statusVec.map RawPktSendStatus.toRecord).Pairwise fun p q => p.timer < q.timer)
    (hnormal : ∀ p ∈ s.scoutRateMaker.feedbackRecBack.records ++
      statusVec.map RawPktSendStatus.toRecord, p.timer.Normal)
    (h : s.insertFeedback statusVec clock now bsId clientId = .ok s') :
    s'.scoutRateMaker.feedbackRecBack.records =
        (s.scoutRateMaker.feedbackRecBack.records ++
          statusVec.map RawPktSendStatus.toRecord).filter (s.live back.sendTime) ∧
      ∀ rate ∈ mac80211abgRate, ∃ old, s.scoutRateMaker.lossRate .back rate = .ok old ∧
        ∃ (hvalid : IsLossRate (windowLoss (recordsWithin
            s'.scoutRateMaker.feedbackRecBack.records (front.sendTime.sub ⟨0, 1⟩)
            (back.sendTime.add ⟨0, 1⟩)) rate)) (hweight : kPrevWeight ≤ 1),
          s'.scoutRateMaker.lossRate .back rate =
            .ok (old.blend ⟨_, hvalid⟩ kPrevWeight hweight) := by
  unfold ReportState.insertFeedback at h
  rw [hfront, hback] at h
  obtain ⟨s₁, hloop, h⟩ := bind_eq_ok.mp h
  obtain ⟨s₂, hcall, hreport⟩ := bind_eq_ok.mp h
  obtain ⟨maker, hmaker, hs₂⟩ := bind_eq_ok.mp hcall
  cases hs₂
  obtain ⟨pkt, hrun, -⟩ :=
    ReportState.sendLossRate_ok { s₁ with scoutRateMaker := maker } bsId clientId
  cases hreport.symm.trans hrun
  have hmap : (statusVec.zipIdx.map fun p => p.1.toRecord) =
      statusVec.map RawPktSendStatus.toRecord := by
    calc (statusVec.zipIdx.map fun p => p.1.toRecord)
        = (statusVec.zipIdx.map Prod.fst).map RawPktSendStatus.toRecord := by
          rw [List.map_map]
          rfl
      _ = statusVec.map RawPktSendStatus.toRecord := by rw [List.zipIdx_map_fst]
  have hzip : (statusVec.zipIdx.getLast?).map Prod.fst = some back := by
    rw [← List.getLast?_map, List.zipIdx_map_fst, hback]
  obtain ⟨last, hlast, rfl⟩ := Option.map_eq_some_iff.mp hzip
  obtain ⟨hrecords, hkeep⟩ := insertAll_records hloop hlast
    (fun p hp => hsent p.1 (List.fst_mem_of_mem_zipIdx hp)) (hmap ▸ hincreasing) (hmap ▸ hnormal)
  rw [hmap] at hrecords
  have htime := sendTime_le hfront hback (List.pairwise_append.mp hincreasing).2.1
  obtain ⟨hquery, hestimates⟩ := ScoutFeedback.calcLossRates_estimates (by decide)
    (hincreasing.sublist (hrecords ▸ List.filter_sublist)) (closeRange_ordered htime) hmaker
  refine ⟨hquery.trans hrecords, fun rate hrate => ?_⟩
  obtain ⟨old, hloss⟩ := s.scoutRateMaker.lossMapBack.getLossRate_mem hrate
  have hold : s.scoutRateMaker.lossRate .back rate = .ok old :=
    ScoutRateAdaptation.lossRate_eq_ok.mpr ⟨_, rfl, hloss⟩
  have hnew := hestimates rate hrate old ((hkeep rate).trans hold)
  rw [← hquery] at hnew
  exact ⟨old, hold, hnew⟩

/-- Of three packets the first one is too old by the time of the last one. What is left at 1 Mbps is
the lost packet. -/
theorem insertFeedback_estimates_three : ∃ s',
    freshReport.insertFeedback threeStatuses (fun _ => ⟨12, 0⟩) (fun _ => ⟨12, 0⟩) 1 2 = .ok s' ∧
    s'.scoutRateMaker.feedbackRecBack.records =
      [⟨⟨2, 0⟩, 2, 10, 0, .naked⟩, ⟨⟨12, 0⟩, 3, 60, 0, .acked⟩] ∧
    ∃ loss, s'.scoutRateMaker.lossRate .back 10 = .ok loss ∧ loss.val = 1 := by
  obtain ⟨maker, -, hcalls⟩ := insertFeedback_calls freshReport_reachable threeStatuses rfl rfl
    (by decide) (by decide) (fun _ => ⟨12, 0⟩) fun _ => ⟨12, 0⟩
  obtain ⟨pkt, hreport, -⟩ :=
    ReportState.sendLossRate_ok { freshReport with scoutRateMaker := maker } 1 2
  have hrun := hcalls.trans hreport
  obtain ⟨hrecords, hestimates⟩ := insertFeedback_estimates rfl rfl (by decide +kernel)
    (by decide) (by decide) hrun
  obtain ⟨old, hold, hvalid, hweight, hnew⟩ := hestimates 10 (by decide)
  refine ⟨_, hrun, hrecords, _, hnew, ?_⟩
  cases hold
  -- no loss was known before, so that the new one is taken over
  rw [LossRate.blend, dif_neg fun h => h.2.2 rfl, if_pos (.inr rfl)]
  show windowLoss (recordsWithin _ _ _) 10 = 1
  rw [hrecords]
  decide +kernel

end Reports

end WspaceScout
