import Mathlib.Order.Bounds.Basic
import WspaceScout.AsymUtil.TxRawBuf
import WspaceScout.Rate.LossEstimates

/-!
# What the controller is told about a client

`WspaceAP::InsertFeedback` passes statuses of raw packets on to the rate maker, brings the loss map
of the back antenna up to date and reports the best throughput that this map allows. The threads
of a client share the rate maker, so the parts of `InsertFeedback` come in any order with each
other and with the calls for a decision.

## Main definitions

- `ReportState.sendLossRate`, `ReportState.insertFeedback`
- `reportMachine` — the calls of the threads, in any order

## Main results

- `LossMap.bestThroughput_spec` — the loop of `SendLossRate` finds the greatest throughput
- `reportMachine_throughput` — reports over all runs
- `insertFeedback_reports` — what `InsertFeedback` reports
-/

namespace WspaceScout

open Foundation

def BS_STATS : Nat := 8

/-- The report for the controller. -/
structure BSStatsPkt where
  type : Nat
  seq : Nat
  bsId : Int
  clientId : Int
  throughput : ℚ
  deriving DecidableEq, Repr

/-- `BSStatsPkt::Init`. -/
def BSStatsPkt.init (seq : Nat) (bsId clientId : Int) (throughput : ℚ) : BSStatsPkt :=
  ⟨BS_STATS, seq, bsId, clientId, throughput⟩

namespace LossMap

variable {rates : List Nat} {m : LossMap rates} {rate : Nat} {th x : ℚ}

/-- The loop of `SendLossRate`, in Mbps. -/
def bestThroughput (m : LossMap rates) (rateArr : List Nat) (throughput : ℚ) :
    Except RateFault ℚ :=
  rateArr.foldlM (fun throughput rate => do
    let lossRate ← m.getLossRate rate
    if lossRate.val = INVALID_LOSS_RATE then .ok throughput
    else
      let th := rate * (1 - lossRate.val) / 10
      .ok (if throughput < th then th else throughput)) throughput

/-- `x` is the throughput of a rate with a known loss. -/
def Allows (m : LossMap rates) (rate : Nat) (x : ℚ) : Prop :=
  ∃ loss, m.getLossRate rate = .ok loss ∧ loss.val ≠ INVALID_LOSS_RATE ∧
    x = rate * (1 - loss.val) / 10

theorem Allows.nonneg (h : m.Allows rate x) : 0 ≤ x := by
  obtain ⟨loss, -, hknown, rfl⟩ := h
  have hloss : 0 ≤ 1 - loss.val := sub_nonneg.mpr (LossRate.between hknown).2
  positivity

theorem Allows.le (h : m.Allows rate x) : x ≤ rate / 10 := by
  obtain ⟨loss, -, hknown, rfl⟩ := h
  have hloss := (LossRate.between hknown).1
  have hrate : (0 : ℚ) ≤ rate := Nat.cast_nonneg rate
  have hmul : (rate : ℚ) * (1 - loss.val) ≤ rate := mul_le_of_le_one_right hrate (by linarith)
  linarith

/-- One pass: the next value is the greatest of the old one and what the rate allows. -/
theorem bestThroughput_cons (hrate : rate ∈ rates) (l : List Nat) (th : ℚ) :
    ∃ th', m.bestThroughput (rate :: l) th = m.bestThroughput l th' ∧
      IsGreatest (insert th {x | m.Allows rate x}) th' := by
  obtain ⟨loss, hloss⟩ := m.getLossRate_mem hrate
  unfold bestThroughput
  rw [List.foldlM_cons, hloss]
  by_cases hknown : loss.val = INVALID_LOSS_RATE
  · refine ⟨th, by simp only [bind, Except.bind, if_pos hknown], .inl rfl, ?_⟩
    rintro x (rfl | ⟨loss', hloss', hknown', -⟩)
    · exact le_refl _
    · cases hloss.symm.trans hloss'
      exact absurd hknown hknown'
  · have hallows : m.Allows rate (rate * (1 - loss.val) / 10) := ⟨loss, hloss, hknown, rfl⟩
    have honly : ∀ x, m.Allows rate x → x = rate * (1 - loss.val) / 10 := by
      rintro x ⟨loss', hloss', -, rfl⟩
      cases hloss.symm.trans hloss'
      rfl
    refine ⟨if th < rate * (1 - loss.val) / 10 then rate * (1 - loss.val) / 10 else th,
      by simp only [bind, Except.bind, if_neg hknown], ?_⟩
    split
    · next hlt =>
      refine ⟨.inr hallows, ?_⟩
      rintro x (rfl | hx)
      · exact hlt.le
      · exact (honly x hx).le
    · next hge =>
      refine ⟨.inl rfl, ?_⟩
      rintro x (rfl | hx)
      · exact le_refl _
      · rw [honly x hx]
        exact not_lt.mp hge

/-- The loop finds the greatest throughput. -/
theorem bestThroughput_spec {l : List Nat} (hl : ∀ rate ∈ l, rate ∈ rates) (th : ℚ) :
    ∃ best, m.bestThroughput l th = .ok best ∧
      IsGreatest (insert th {x | ∃ rate ∈ l, m.Allows rate x}) best := by
  induction l generalizing th with
  | nil =>
    refine ⟨th, rfl, .inl rfl, ?_⟩
    rintro x (rfl | ⟨rate, hrate, -⟩)
    · exact le_refl _
    · cases hrate
  | cons rate l ih =>
    obtain ⟨th', hpass, hmem', hle'⟩ :=
      bestThroughput_cons (m := m) (hl rate List.mem_cons_self) l th
    obtain ⟨best, hrun, hmem, hle⟩ := ih (fun r hr => hl r (List.mem_cons_of_mem rate hr)) th'
    refine ⟨best, hpass.trans hrun, ?_, ?_⟩
    · obtain rfl | ⟨r, hr, hx⟩ := hmem
      · obtain rfl | hx := hmem'
        · exact .inl rfl
        · exact .inr ⟨rate, List.mem_cons_self, hx⟩
      · exact .inr ⟨r, List.mem_cons_of_mem rate hr, hx⟩
    · have hth' : th' ≤ best := hle (.inl rfl)
      rintro x (rfl | ⟨r, hr, hx⟩)
      · exact (hle' (.inl rfl)).trans hth'
      · obtain rfl | hr := List.mem_cons.mp hr
        · exact (hle' (.inr hx)).trans hth'
        · exact hle (.inr ⟨r, hr, hx⟩)

end LossMap

/-- What the reports for a client depend on; `sent` is what has been written to the controller. -/
structure ReportState where
  scoutRateMaker : ScoutFeedback mac80211abgRate
  bsstatsSeq : Nat
  sent : List BSStatsPkt

namespace ReportState

/-- `SendLossRate`. -/
def sendLossRate (s : ReportState) (bsId clientId : Int) : Except EstimateFault ReportState := do
  let lossMap ← s.scoutRateMaker.getLossMap .back
  let throughput ← (lossMap.bestThroughput mac80211abgRate 0).mapError .rate
  let seq := uint32 (s.bsstatsSeq + 1)
  .ok { s with
    bsstatsSeq := seq
    sent := s.sent ++ [.init seq bsId clientId throughput] }

/-- A call of the rate maker. -/
def call (s : ReportState) (input : EstimateInput) : Except EstimateFault ReportState := do
  let scoutRateMaker ← s.scoutRateMaker.exec input
  .ok { s with scoutRateMaker := scoutRateMaker }

/-- The call in the loop of `InsertFeedback`, with the times that it reads. -/
def insertStatus (s : ReportState) (status : RawPktSendStatus) (clock now : MonotonicTimer) :
    Except EstimateFault ReportState :=
  s.call (.insertFeedback .back status.seq status.status.toPacketStatus status.rate status.len
    status.sendTime clock now)

/-- `WspaceAP::InsertFeedback`; `clock` and `now` are what the pass for a status reads. -/
def insertFeedback (s : ReportState) (statusVec : List RawPktSendStatus)
    (clock now : Nat → MonotonicTimer) (bsId clientId : Int) :
    Except EstimateFault ReportState := do
  match statusVec.head?, statusVec.getLast? with
  | some front, some back =>
    let s ← statusVec.zipIdx.foldlM (fun (s : ReportState) p =>
      s.insertStatus p.1 (clock p.2) (now p.2)) s
    let start := front.sendTime.sub ⟨0, 1⟩
    let stop := back.sendTime.add ⟨0, 1⟩
    let s ← s.call (.calcLossRates .back start stop)
    s.sendLossRate bsId clientId
  | _, _ => .ok s

end ReportState

/-- A call for the rate maker or the end of an `InsertFeedback`, by any thread of the client. -/
inductive ReportInput where
  | call (input : EstimateInput)
  | sendLossRate

def enabledReport (s : ReportState) : ReportInput → Prop
  | .call input => s.scoutRateMaker.enabled input ∧ input.IsLegal
  | .sendLossRate => True

def execReport (bsId clientId : Int) (s : ReportState) :
    ReportInput → Except EstimateFault ReportState
  | .call input => s.call input
  | .sendLossRate => s.sendLossRate bsId clientId

/-- The rate maker and the reports of one client. -/
def reportMachine (bsId clientId : Int) (totalWindow : MonotonicTimer) :
    Machine ReportState ReportInput EstimateFault where
  init s :=
    (∃ combineMode sampleMode,
      s.scoutRateMaker.toScoutRateAdaptation = .init _ combineMode sampleMode) ∧
    s.scoutRateMaker.feedbackRecFront = .ofRates (mac80211abgRate.map Int.ofNat) totalWindow ∧
    s.scoutRateMaker.feedbackRecBack = .ofRates (mac80211abgRate.map Int.ofNat) totalWindow ∧
    s.bsstatsSeq = 0 ∧ s.sent = []
  enabled := enabledReport
  exec := execReport bsId clientId

/-- A report with a throughput that some rate has. -/
structure BSStatsPkt.Ok (pkt : BSStatsPkt) (bsId clientId : Int) : Prop where
  type_eq : pkt.type = BS_STATS
  bsId_eq : pkt.bsId = bsId
  clientId_eq : pkt.clientId = clientId
  nonneg : 0 ≤ pkt.throughput
  le : pkt.throughput ≤ 24

structure ReportInv (bsId clientId : Int) (s : ReportState) : Prop where
  baselineSet : s.scoutRateMaker.BaselineSet
  seq_eq : s.bsstatsSeq = uint32 s.sent.length
  numbered : ∀ i pkt, s.sent[i]? = some pkt → pkt.seq = uint32 (i + 1)
  ok : ∀ pkt ∈ s.sent, pkt.Ok bsId clientId

section Reports

variable {bsId clientId : Int} {totalWindow : MonotonicTimer} {s s' : ReportState}

/-- What a report says about the loss map of the back antenna. -/
def Reports (lossMap : LossMap mac80211abgRate) (pkt : BSStatsPkt) : Prop :=
  IsGreatest (insert 0 {x | ∃ rate ∈ mac80211abgRate, lossMap.Allows rate x}) pkt.throughput

theorem rate_le {rate : Nat} (h : rate ∈ mac80211abgRate) : rate ≤ 240 := by
  revert rate
  decide

theorem Reports.ok {lossMap : LossMap mac80211abgRate} {seq : Nat} {x : ℚ}
    (h : Reports lossMap (.init seq bsId clientId x)) :
    (BSStatsPkt.init seq bsId clientId x).Ok bsId clientId where
  type_eq := rfl
  bsId_eq := rfl
  clientId_eq := rfl
  nonneg := h.2 (.inl rfl)
  le := by
    obtain hzero | ⟨rate, hrate, hallows⟩ := h.1
    · rw [hzero]
      norm_num
    · have hle : (rate : ℚ) ≤ 240 := by exact_mod_cast rate_le hrate
      exact hallows.le.trans (by linarith)

namespace ReportState

theorem sendLossRate_ok (s : ReportState) (bsId clientId : Int) :
    ∃ pkt, s.sendLossRate bsId clientId =
        .ok { s with bsstatsSeq := pkt.seq, sent := s.sent ++ [pkt] } ∧
      pkt.seq = uint32 (s.bsstatsSeq + 1) ∧ Reports s.scoutRateMaker.lossMapBack pkt ∧
      pkt.Ok bsId clientId := by
  obtain ⟨best, hrun, hbest⟩ := LossMap.bestThroughput_spec
    (m := s.scoutRateMaker.lossMapBack) (l := mac80211abgRate) (fun _ h => h) 0
  let seq := uint32 (s.bsstatsSeq + 1)
  refine ⟨.init seq bsId clientId best, ?_, rfl, hbest, Reports.ok hbest⟩
  exact bind_eq_ok.mpr ⟨_, rfl, bind_eq_ok.mpr ⟨best, mapError_eq_ok.mpr hrun, rfl⟩⟩

/-- A call that its caller may make ends. -/
theorem call_ok (hs : s.scoutRateMaker.BaselineSet) {input : EstimateInput}
    (hen : s.scoutRateMaker.enabled input) (hlegal : input.IsLegal) :
    ∃ maker, s.scoutRateMaker.exec input = .ok maker ∧
      s.call input = .ok { s with scoutRateMaker := maker } := by
  obtain ⟨maker, hmaker⟩ := ScoutFeedback.exec_legal hs hen hlegal
  exact ⟨maker, hmaker, bind_eq_ok.mpr ⟨maker, hmaker, rfl⟩⟩

theorem call_reachable (h : (reportMachine bsId clientId totalWindow).Reachable s)
    (hs : s.scoutRateMaker.BaselineSet) (input : EstimateInput)
    (hen : enabledReport s (.call input)) :
    ∃ maker, s.call input = .ok { s with scoutRateMaker := maker } ∧
      (reportMachine bsId clientId totalWindow).Reachable { s with scoutRateMaker := maker } ∧
      maker.BaselineSet := by
  obtain ⟨maker, hexec, hcall⟩ := call_ok hs hen.1 hen.2
  exact ⟨maker, hcall, .step (i := .call input) h hen hcall,
    ScoutFeedback.exec_baselineSet hexec hs⟩

/-- The loop of `InsertFeedback` passes statuses on that are not unknown. -/
theorem insertAll_reachable {l : List (RawPktSendStatus × Nat)}
    (h : (reportMachine bsId clientId totalWindow).Reachable s)
    (hs : s.scoutRateMaker.BaselineSet) (hknown : ∀ p ∈ l, p.1.status ≠ .unknown)
    (clock now : Nat → MonotonicTimer) :
    ∃ maker, l.foldlM (fun (s : ReportState) p => s.insertStatus p.1 (clock p.2) (now p.2)) s =
        .ok { s with scoutRateMaker := maker } ∧
      (reportMachine bsId clientId totalWindow).Reachable { s with scoutRateMaker := maker } ∧
      maker.BaselineSet := by
  induction l generalizing s with
  | nil => exact ⟨s.scoutRateMaker, rfl, h, hs⟩
  | cons p l ih =>
    have hlegal := RawStatus.toPacketStatus_isLegal (hknown p List.mem_cons_self)
    obtain ⟨maker, hrun, hreach, hmaker⟩ := call_reachable h hs
      (.insertFeedback .back p.1.seq p.1.status.toPacketStatus p.1.rate p.1.len
        p.1.sendTime (clock p.2) (now p.2)) ⟨trivial, .inr rfl, hlegal⟩
    obtain ⟨maker', hrun', hreach', hmaker'⟩ := ih hreach hmaker
      fun q hq => hknown q (List.mem_cons_of_mem p hq)
    refine ⟨maker', ?_, hreach', hmaker'⟩
    rw [List.foldlM_cons]
    exact bind_eq_ok.mpr ⟨_, hrun, hrun'⟩

end ReportState

/-- The step lemma. -/
theorem ReportInv.step (hs : ReportInv bsId clientId s) {input : ReportInput}
    (hen : enabledReport s input) :
    ∃ s', execReport bsId clientId s input = .ok s' ∧ ReportInv bsId clientId s' := by
  cases input with
  | call input =>
    obtain ⟨maker, hexec, hcall⟩ := ReportState.call_ok hs.baselineSet hen.1 hen.2
    exact ⟨_, hcall, { hs with baselineSet := ScoutFeedback.exec_baselineSet hexec hs.baselineSet }⟩
  | sendLossRate =>
    obtain ⟨pkt, hrun, hseq, -, hok⟩ := s.sendLossRate_ok bsId clientId
    have hnext : pkt.seq = uint32 (s.sent.length + 1) := by
      rw [hseq, hs.seq_eq]
      simp only [uint32, Nat.mod_add_mod]
    refine ⟨_, hrun, hs.baselineSet, ?_, fun i pkt' hpkt => ?_, fun pkt' hpkt => ?_⟩
    · rw [List.length_append, List.length_singleton]
      exact hnext
    · obtain hlt | rfl | hgt := lt_trichotomy i s.sent.length
      · rw [List.getElem?_append_left hlt] at hpkt
        exact hs.numbered i pkt' hpkt
      · rw [List.getElem?_concat_length] at hpkt
        cases hpkt
        exact hnext
      · rw [List.getElem?_eq_none (by simp; omega)] at hpkt
        cases hpkt
    · obtain hold | hnew := List.mem_append.mp hpkt
      · exact hs.ok pkt' hold
      · rw [List.mem_singleton.mp hnew]
        exact hok

/-- The run lemma. -/
theorem reportInv_of_reachable (h : (reportMachine bsId clientId totalWindow).Reachable s) :
    ReportInv bsId clientId s := by
  refine h.invariant ?_ ?_
  · rintro s ⟨⟨combineMode, sampleMode, hscout⟩, -, -, hseq, hsent⟩
    refine ⟨?_, ?_, fun i pkt hpkt => ?_, fun pkt hpkt => ?_⟩
    · rw [hscout]
      intro hversion
      cases hversion
    · rw [hseq, hsent]
      rfl
    · rw [hsent] at hpkt
      cases hpkt
    · rw [hsent] at hpkt
      cases hpkt
  · intro s input s' _ hs hen hexec
    obtain ⟨s'', hrun, hs''⟩ := hs.step hen
    cases hexec.symm.trans hrun
    exact hs''

/-- In every run no call and no report fails, and a report states the greatest throughput of a rate
whose loss is known when it is made. The reports are numbered from one on, and none states more
than the 24 Mbps of the highest rate. -/
theorem reportMachine_throughput (h : (reportMachine bsId clientId totalWindow).Reachable s) :
    (∀ input, enabledReport s input → ∃ s', execReport bsId clientId s input = .ok s') ∧
      (∃ pkt, s.sendLossRate bsId clientId =
          .ok { s with bsstatsSeq := pkt.seq, sent := s.sent ++ [pkt] } ∧
        IsGreatest (insert 0 {x | ∃ rate ∈ mac80211abgRate,
          s.scoutRateMaker.lossMapBack.Allows rate x}) pkt.throughput) ∧
      (∀ i pkt, s.sent[i]? = some pkt → pkt.seq = uint32 (i + 1)) ∧
      ∀ pkt ∈ s.sent, pkt.type = BS_STATS ∧ pkt.bsId = bsId ∧ pkt.clientId = clientId ∧
        0 ≤ pkt.throughput ∧ pkt.throughput ≤ 24 := by
  have hs := reportInv_of_reachable h
  refine ⟨fun input hen => ?_, ?_, hs.numbered, fun pkt hpkt => ?_⟩
  · obtain ⟨s', hrun, -⟩ := hs.step hen
    exact ⟨s', hrun⟩
  · obtain ⟨pkt, hrun, -, hbest, -⟩ := s.sendLossRate_ok bsId clientId
    exact ⟨pkt, hrun, hbest⟩
  · have hok := hs.ok pkt hpkt
    exact ⟨hok.type_eq, hok.bsId_eq, hok.clientId_eq, hok.nonneg, hok.le⟩

/-- A client after its start. -/
def freshReport : ReportState where
  scoutRateMaker := {
    toScoutRateAdaptation := .init _ .scoutCombine .noSample
    feedbackRecFront := .ofRates (mac80211abgRate.map Int.ofNat) ⟨10, 0⟩
    feedbackRecBack := .ofRates (mac80211abgRate.map Int.ofNat) ⟨10, 0⟩
    antennaDist := 11 / 10
    speed := -1
    frontWindow := ⟨0, 50000000⟩
    backWindow := ⟨0, 100000000⟩ }
  bsstatsSeq := 0
  sent := []

theorem freshReport_reachable : (reportMachine 1 2 ⟨10, 0⟩).Reachable freshReport :=
  .init ⟨⟨_, _, rfl⟩, rfl, rfl, rfl, rfl⟩

/-- At 1 Mbps one packet has been acked and one has been lost. -/
theorem reportMachine_throughput_half : ∃ s pkt, (reportMachine 1 2 ⟨10, 0⟩).Reachable s ∧
    s.sendLossRate 1 2 = .ok { s with bsstatsSeq := pkt.seq, sent := s.sent ++ [pkt] } ∧
    IsGreatest (insert 0 {x | ∃ rate ∈ mac80211abgRate,
      s.scoutRateMaker.lossMapBack.Allows rate x}) pkt.throughput ∧ pkt.throughput = 1 / 2 := by
  let acked : EstimateInput := .insertFeedback .back 1 .acked 10 100 ⟨1, 0⟩ ⟨1, 0⟩ ⟨1, 0⟩
  let lost : EstimateInput := .insertFeedback .back 2 .naked 10 100 ⟨2, 0⟩ ⟨2, 0⟩ ⟨2, 0⟩
  let query : EstimateInput := .calcLossRates .back ⟨1, 0⟩ ⟨3, 0⟩
  obtain ⟨m₁, hcall₁, hreach₁, hm₁⟩ := ReportState.call_reachable freshReport_reachable
    (reportInv_of_reachable freshReport_reachable).baselineSet acked ⟨trivial, .inr rfl, rfl⟩
  obtain ⟨m₂, hcall₂, hreach₂, hm₂⟩ := ReportState.call_reachable hreach₁ hm₁ lost
    ⟨trivial, .inr rfl, rfl⟩
  obtain ⟨m₃, hcall₃, hreach₃, -⟩ := ReportState.call_reachable hreach₂ hm₂ query
    ⟨show (⟨1, 0⟩ : MonotonicTimer) ≤ ⟨3, 0⟩ by decide, .inr rfl⟩
  obtain ⟨-, ⟨pkt, hreport, hbest⟩, -⟩ := reportMachine_throughput hreach₃
  have hrun : (freshReport.call acked >>= (·.call lost) >>= (·.call query) >>=
      (·.sendLossRate 1 2)) = .ok _ :=
    bind_eq_ok.mpr ⟨_, bind_eq_ok.mpr ⟨_, bind_eq_ok.mpr ⟨_, hcall₁, hcall₂⟩, hcall₃⟩, hreport⟩
  have hvalue : (freshReport.call acked >>= (·.call lost) >>= (·.call query) >>=
      (·.sendLossRate 1 2)).toOption.map (fun s : ReportState =>
        s.sent.map BSStatsPkt.throughput) = some [1 / 2] := by decide +kernel
  rw [hrun] at hvalue
  injection hvalue with hvalue
  injection hvalue with hvalue
  exact ⟨_, pkt, hreach₃, hreport, hbest, hvalue⟩

/-- The window reaches one nanosecond beyond the first and the last status. -/
theorem closeRange_ordered {front back : RawPktSendStatus}
    (htime : front.sendTime ≤ back.sendTime) :
    front.sendTime.sub ⟨0, 1⟩ ≤ back.sendTime.add ⟨0, 1⟩ :=
  (MonotonicTimer.sub_le (by decide) (by decide)).trans
    (htime.trans (MonotonicTimer.le_add (by decide) (by decide)))

/-- `InsertFeedback` comes down to the report, from another state of the run. -/
theorem insertFeedback_calls (h : (reportMachine bsId clientId totalWindow).Reachable s)
    (statusVec : List RawPktSendStatus) {front back : RawPktSendStatus}
    (hfront : statusVec.head? = some front) (hback : statusVec.getLast? = some back)
    (hknown : ∀ status ∈ statusVec, status.status ≠ .unknown)
    (htime : front.sendTime ≤ back.sendTime) (clock now : Nat → MonotonicTimer) :
    ∃ maker, (reportMachine bsId clientId totalWindow).Reachable
        { s with scoutRateMaker := maker } ∧
      s.insertFeedback statusVec clock now bsId clientId =
        ReportState.sendLossRate { s with scoutRateMaker := maker } bsId clientId := by
  have hloop : ∀ p ∈ statusVec.zipIdx, p.1.status ≠ .unknown := fun p hp =>
    hknown p.1 (List.fst_mem_of_mem_zipIdx hp)
  obtain ⟨maker, hinsert, hreach, hmaker⟩ := ReportState.insertAll_reachable h
    (reportInv_of_reachable h).baselineSet hloop clock now
  obtain ⟨maker', hcall, hreach', -⟩ := ReportState.call_reachable hreach hmaker
    (.calcLossRates .back (front.sendTime.sub ⟨0, 1⟩) (back.sendTime.add ⟨0, 1⟩))
    ⟨closeRange_ordered htime, .inr rfl⟩
  refine ⟨maker', hreach', ?_⟩
  unfold ReportState.insertFeedback
  rw [hfront, hback]
  simp only [hinsert, bind, Except.bind]
  rw [hcall]

/-- From every state of a run `InsertFeedback` reports once, for statuses that are not unknown and
that come in the order of their times: the greatest throughput of a rate whose loss is known by
then. -/
theorem insertFeedback_reports (h : (reportMachine bsId clientId totalWindow).Reachable s)
    (statusVec : List RawPktSendStatus) {front back : RawPktSendStatus}
    (hfront : statusVec.head? = some front) (hback : statusVec.getLast? = some back)
    (hknown : ∀ status ∈ statusVec, status.status ≠ .unknown)
    (htime : front.sendTime ≤ back.sendTime) (clock now : Nat → MonotonicTimer) :
    ∃ s' pkt, s.insertFeedback statusVec clock now bsId clientId = .ok s' ∧
      (reportMachine bsId clientId totalWindow).Reachable s' ∧ s'.sent = s.sent ++ [pkt] ∧
      IsGreatest (insert 0 {x | ∃ rate ∈ mac80211abgRate,
        s'.scoutRateMaker.lossMapBack.Allows rate x}) pkt.throughput := by
  obtain ⟨maker, hreach, hcalls⟩ := insertFeedback_calls h statusVec hfront hback hknown htime
    clock now
  obtain ⟨pkt, hreport, -, hbest, -⟩ :=
    ReportState.sendLossRate_ok { s with scoutRateMaker := maker } bsId clientId
  exact ⟨_, pkt, hcalls.trans hreport, hreach.step (i := .sendLossRate) trivial hreport, rfl,
    hbest⟩

/-- Two packets at 1 Mbps, of which one has been acked, and a later one at 6 Mbps. -/
def threeStatuses : List RawPktSendStatus :=
  [⟨1, 10, 100, .good, ⟨1, 0⟩⟩, ⟨2, 10, 100, .bad, ⟨2, 0⟩⟩, ⟨3, 60, 100, .good, ⟨12, 0⟩⟩]

/-- The report is about the higher rate. -/
theorem insertFeedback_reports_three : ∃ s' pkt,
    freshReport.insertFeedback threeStatuses (fun _ => ⟨12, 0⟩) (fun _ => ⟨12, 0⟩) 1 2 = .ok s' ∧
    s'.sent = [pkt] ∧ IsGreatest (insert 0 {x | ∃ rate ∈ mac80211abgRate,
      s'.scoutRateMaker.lossMapBack.Allows rate x}) pkt.throughput ∧ pkt.throughput = 6 := by
  obtain ⟨s', pkt, hrun, -, hsent, hbest⟩ := insertFeedback_reports freshReport_reachable
    threeStatuses rfl rfl (by decide) (by decide) (fun _ => ⟨12, 0⟩) fun _ => ⟨12, 0⟩
  have hvalue : (freshReport.insertFeedback threeStatuses (fun _ => ⟨12, 0⟩) (fun _ => ⟨12, 0⟩)
      1 2).toOption.map (fun s => s.sent.map BSStatsPkt.throughput) = some [6] := by
    decide +kernel
  rw [hrun] at hvalue
  injection hvalue with hvalue
  replace hsent : s'.sent = [pkt] := hsent
  simp only [hsent] at hvalue
  injection hvalue with hvalue
  exact ⟨s', pkt, hrun, hsent, hbest, hvalue⟩

end Reports

end WspaceScout
