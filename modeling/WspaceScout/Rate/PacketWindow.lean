import WspaceScout.Rate.RobustRate
import WspaceScout.Rate.SampleRate

/-!
# The rate tables are aggregates of the packet window

Both baselines keep their counters by adding a packet that enters the window and subtracting one
that leaves it. In every run the counters of a row are those that could be computed from the window.

## Main definitions

- `PacketStat.Exact`, `RRAARateInfo.Exact` — a row and the packets with its rate
- `SampleRate.Exact`, `RobustRate.Exact` — the tables and the window

## Main results

- `SampleRate.summary_exact`, `RobustRate.summary_exact` — insertion and removal keep this
- `rateTables_exact` — both tables and the window in every run
-/

namespace WspaceScout

open Foundation

/-- The packets sent at a rate. -/
def PacketInfo.hasRate (rate : Nat) (p : PacketInfo) : Bool := p.rate = rate

/-- The packets sent at a rate that met a fate. -/
def PacketInfo.hasFate (rate : Nat) (status : PacketStatus) (p : PacketInfo) : Bool :=
  p.rate = rate ∧ p.status = status

/-- The bytes of the packets with a property. -/
def bytes (p : PacketInfo → Bool) (w : List PacketInfo) : ℚ :=
  total p (fun pkt => (pkt.length : ℚ)) w

section

variable {p : PacketInfo → Bool} {w w' : List PacketInfo} {pkt : PacketInfo} {rate : Nat}

@[simp]
theorem bytes_cons : bytes p (pkt :: w) = bytes p w + if p pkt then (pkt.length : ℚ) else 0 :=
  total_cons p _ pkt w

@[simp]
theorem bytes_snoc : bytes p (w ++ [pkt]) = bytes p w + if p pkt then (pkt.length : ℚ) else 0 :=
  total_snoc p _ pkt w

theorem PacketInfo.hasRate_of_hasFate {status : PacketStatus} (q : PacketInfo)
    (h : q.hasFate rate status = true) : q.hasRate rate = true := by
  simp only [hasFate, decide_eq_true_eq] at h
  exact decide_eq_true h.1

/-- What two windows agree on if no row of another rate may tell them apart. -/
abbrev SameAtRate (rate : Nat) (w w' : List PacketInfo) : Prop :=
  w.filter (PacketInfo.hasRate rate) = w'.filter (PacketInfo.hasRate rate)

/-- A packet of another rate makes no difference, be it the last or the first. -/
theorem sameAtRate_snoc (hrate : pkt.rate ≠ rate) : SameAtRate rate w (w ++ [pkt]) := by
  have hnot : PacketInfo.hasRate rate pkt = false := decide_eq_false hrate
  simp [SameAtRate, hnot]

theorem sameAtRate_cons (hrate : pkt.rate ≠ rate) : SameAtRate rate (pkt :: w) w := by
  have hnot : PacketInfo.hasRate rate pkt = false := decide_eq_false hrate
  simp [SameAtRate, hnot]

end

/-- Packets have at least one byte, so that only an empty sum is zero. -/
theorem bytes_cases {w : List PacketInfo} (p : PacketInfo → Bool) (hw : ∀ q ∈ w, 1 ≤ q.length) :
    w.countP p = 0 ∧ bytes p w = 0 ∨ 0 < w.countP p ∧ 1 ≤ bytes p w :=
  total_eq_zero_or_le zero_le_one fun q hq _ => by exact_mod_cast hw q hq

theorem bytes_eq_zero_or_le {w : List PacketInfo} (p : PacketInfo → Bool)
    (hw : ∀ q ∈ w, 1 ≤ q.length) : bytes p w = 0 ∨ 1 ≤ bytes p w :=
  (bytes_cases p hw).imp And.right And.right

/-! ### SampleRate -/

/-- The row of `rate` and the packets in the window. -/
structure PacketStat.Exact (w : List PacketInfo) (rate : Nat) (h : PacketStat) : Prop where
  numSent : h.numSent = w.countP (PacketInfo.hasRate rate)
  numAcked : h.numAcked = w.countP (PacketInfo.hasFate rate .acked)
  numNaked : h.numNaked = w.countP (PacketInfo.hasFate rate .naked)
  numTimeout : h.numTimeout = w.countP (PacketInfo.hasFate rate .timeOut)
  lenSent : h.lenSent = bytes (PacketInfo.hasRate rate) w
  lenAcked : h.lenAcked = bytes (PacketInfo.hasFate rate .acked) w
  lenNaked : h.lenNaked = bytes (PacketInfo.hasFate rate .naked) w
  lenTimeout : h.lenTimeout = bytes (PacketInfo.hasFate rate .timeOut) w
  totalTxTime : h.totalTxTime =
    total (PacketInfo.hasRate rate) (fun pkt => (pkt.length * 80 / rate + 28 : ℚ)) w

/-- The table of `SampleRate` and the packets in the window. -/
structure SampleRate.Exact {rates : List Nat} (w : List PacketInfo) (s : SampleRate rates) :
    Prop where
  row : ∀ i, (s.rateTable i).Exact w (rates.get i)
  statistic : s.statistic.numAcked = w.countP fun p => p.rate ∈ rates ∧ p.status = .acked

namespace PacketStat

variable {w w' : List PacketInfo} {rate : Nat} {h : PacketStat} {pkt : PacketInfo}

theorem exact_init (rate : Nat) : PacketStat.init.Exact [] rate := by
  constructor <;> rfl

theorem Exact.insert (hh : h.Exact w pkt.rate) :
    (h.insert pkt 28).Exact (w ++ [pkt]) pkt.rate := by
  constructor <;> cases hst : pkt.status <;>
    simp [PacketStat.insert, PacketInfo.hasRate, PacketInfo.hasFate, hst, hh.numSent,
      hh.numAcked, hh.numNaked, hh.numTimeout, hh.lenSent, hh.lenAcked, hh.lenNaked, hh.lenTimeout,
      hh.totalTxTime]

theorem Exact.remove (hh : h.Exact (pkt :: w) pkt.rate) :
    (h.remove pkt 28).Exact w pkt.rate := by
  constructor <;> cases hst : pkt.status <;>
    simp [PacketStat.remove, PacketInfo.hasRate, PacketInfo.hasFate, hst, hh.numSent,
      hh.numAcked, hh.numNaked, hh.numTimeout, hh.lenSent, hh.lenAcked, hh.lenNaked, hh.lenTimeout,
      hh.totalTxTime]

/-- A row depends on the packets of its rate only. -/
theorem Exact.congr (hw : SameAtRate rate w w') (hh : h.Exact w rate) : h.Exact w' rate := by
  have hrate : ∀ q : PacketInfo, q.hasRate rate = true → q.hasRate rate = true := fun _ => id
  constructor
  · rw [hh.numSent, countP_congr_filter hrate hw]
  · rw [hh.numAcked, countP_congr_filter PacketInfo.hasRate_of_hasFate hw]
  · rw [hh.numNaked, countP_congr_filter PacketInfo.hasRate_of_hasFate hw]
  · rw [hh.numTimeout, countP_congr_filter PacketInfo.hasRate_of_hasFate hw]
  · rw [hh.lenSent, bytes, total_congr_filter _ hrate hw, bytes]
  · rw [hh.lenAcked, bytes, total_congr_filter _ PacketInfo.hasRate_of_hasFate hw, bytes]
  · rw [hh.lenNaked, bytes, total_congr_filter _ PacketInfo.hasRate_of_hasFate hw, bytes]
  · rw [hh.lenTimeout, bytes, total_congr_filter _ PacketInfo.hasRate_of_hasFate hw, bytes]
  · rw [hh.totalTxTime, total_congr_filter _ hrate hw]

end PacketStat

/-- A sum of bytes or of airtimes is zero or not close to zero. -/
theorem isZero_eq_false {x : ℚ} (h : 1 ≤ x) : isZero x = false := by
  have hlt : ¬|x| < 1 / 1000000000 := by
    rw [abs_of_nonneg (by linarith)]
    linarith
  exact decide_eq_false hlt

/-- Clearing what is almost zero changes nothing in an exact sum. -/
theorem clearIfZero_of {x : ℚ} (h : x = 0 ∨ 1 ≤ x) : clearIfZero x = x := by
  unfold clearIfZero
  obtain rfl | h := h
  · exact ite_self 0
  · rw [isZero_eq_false h]
    rfl

namespace PacketStat

/-- `UpdateRateTable` touches the counted values only to clear them. -/
theorem update_counted (h : PacketStat) :
    h.update.numSent = h.numSent ∧ h.update.numAcked = h.numAcked ∧
    h.update.numNaked = h.numNaked ∧ h.update.numTimeout = h.numTimeout ∧
    h.update.lenNaked = h.lenNaked ∧ h.update.lenTimeout = h.lenTimeout ∧
    h.update.lenSent = clearIfZero h.lenSent ∧ h.update.lenAcked = clearIfZero h.lenAcked ∧
    h.update.totalTxTime = clearIfZero h.totalTxTime := by
  simp only [update, clearIfZero, apply_ite numSent, apply_ite numAcked, apply_ite numNaked,
    apply_ite numTimeout, apply_ite lenNaked, apply_ite lenTimeout, apply_ite lenSent,
    apply_ite lenAcked, apply_ite totalTxTime, ite_self, and_self]

/-- Bringing an exact row up to date leaves it exact. -/
theorem Exact.update {w : List PacketInfo} {rate : Nat} {h : PacketStat} (hh : h.Exact w rate)
    (hw : ∀ p ∈ w, 1 ≤ p.length) : h.update.Exact w rate := by
  obtain ⟨hsent, hacked, hnaked, htimeout, hlnaked, hltimeout, hlsent, hlacked, htotal⟩ :=
    update_counted h
  have htx : h.totalTxTime = 0 ∨ 1 ≤ h.totalTxTime := by
    have hterm : ∀ p ∈ w, PacketInfo.hasRate rate p = true →
        (1 : ℚ) ≤ (p.length * 80 / rate + 28 : ℚ) := by
      intro p _ _
      have hnonneg : (0 : ℚ) ≤ (p.length * 80 / rate : ℚ) := by positivity
      linarith
    rw [hh.totalTxTime]
    exact (total_eq_zero_or_le zero_le_one hterm).imp And.right And.right
  constructor
  · rw [hsent, hh.numSent]
  · rw [hacked, hh.numAcked]
  · rw [hnaked, hh.numNaked]
  · rw [htimeout, hh.numTimeout]
  · rw [hlsent, hh.lenSent, clearIfZero_of (bytes_eq_zero_or_le _ hw)]
  · rw [hlacked, hh.lenAcked, clearIfZero_of (bytes_eq_zero_or_le _ hw)]
  · rw [hlnaked, hh.lenNaked]
  · rw [hltimeout, hh.lenTimeout]
  · rw [htotal, clearIfZero_of htx, hh.totalTxTime]

end PacketStat

namespace SampleRate

variable {rates : List Nat} {w : List PacketInfo} {s : SampleRate rates}

/-- Both inter-frame spaces are the same. -/
theorem difs_eq (rate : Nat) : difs rate = 28 := by
  unfold difs
  split
  · rfl
  · rfl

theorem Exact.insert (hrates : rates.Nodup) (hs : s.Exact w) (pkt : PacketInfo) :
    (s.insertIntoRateTable pkt).Exact (w ++ [pkt]) := by
  constructor
  · refine KeyedTable.modify_rule (Q := PacketStat.Exact (w ++ [pkt])) hrates hs.row ?_ ?_
    · intro row hrow
      rw [difs_eq]
      exact hrow.insert
    · intro rate row hrate hrow
      exact hrow.congr (sameAtRate_snoc (Ne.symm hrate))
  · simp only [insertIntoRateTable, countAcked, List.countP_append, List.countP_singleton]
    by_cases hacked : pkt.rate ∈ rates ∧ pkt.status = .acked
    · simp [hacked, hs.statistic]
    · simp [hacked, hs.statistic]

theorem Exact.remove {pkt : PacketInfo} (hrates : rates.Nodup) (hs : s.Exact (pkt :: w)) :
    (s.removeFromRateTable pkt).Exact w := by
  constructor
  · refine KeyedTable.modify_rule (Q := PacketStat.Exact w) hrates hs.row ?_ ?_
    · intro row hrow
      rw [difs_eq]
      exact hrow.remove
    · intro rate row hrate hrow
      exact hrow.congr (sameAtRate_cons (Ne.symm hrate))
  · have hstat := hs.statistic
    simp only [removeFromRateTable, countAcked]
    by_cases hacked : pkt.rate ∈ rates ∧ pkt.status = .acked
    · simp [hacked, hstat]
    · simp [hacked, hstat]

theorem summary_exact (hrates : rates.Nodup) : (BaseRate.summary (SampleRate rates)).Exact Exact :=
  ⟨fun pkt hs => hs.insert hrates pkt, fun hs => hs.remove hrates⟩

/-- Forgetting losses leaves what is counted alone. -/
theorem Exact.forgetLoss (hs : s.Exact w) (now : MonotonicTimer) : (s.forgetLoss now).Exact w := by
  unfold SampleRate.forgetLoss
  split
  · refine ⟨fun i => ?_, hs.statistic⟩
    obtain ⟨h1, h2, h3, h4, h5, h6, h7, h8, h9⟩ := hs.row i
    exact ⟨h1, h2, h3, h4, h5, h6, h7, h8, h9⟩
  · exact hs

theorem Exact.refresh (hs : s.Exact w) (hw : ∀ p ∈ w, 1 ≤ p.length) (now : MonotonicTimer) :
    (s.refresh now).Exact w := by
  unfold SampleRate.refresh
  split
  · have hclean : Exact w { s with dirty := false } := ⟨hs.row, hs.statistic⟩
    have hloss := hclean.forgetLoss now
    exact ⟨fun i => (hloss.row i).update hw, hloss.statistic⟩
  · exact hs

theorem Exact.applyRate (hs : s.Exact w) (hw : ∀ p ∈ w, 1 ≤ p.length) (now : MonotonicTimer)
    (random : Nat) : (s.applyRate now random).2.Exact w := by
  have hfresh := hs.refresh hw now
  obtain ⟨htable, hstat⟩ := chooseRate_table (s.refresh now) random
  constructor
  · intro i
    rw [SampleRate.applyRate, htable]
    exact hfresh.row i
  · rw [SampleRate.applyRate, hstat]
    exact hfresh.statistic

end SampleRate

/-! ### RRAA -/

/-- The bytes that were lost over the bytes that were sent. -/
def lostFraction (w : List PacketInfo) (rate : Nat) : ℚ :=
  if w.countP (PacketInfo.hasRate rate) = 0 then 1
  else bytes (fun p => PacketInfo.hasRate rate p && !decide (p.status = .acked)) w /
    bytes (PacketInfo.hasRate rate) w

/-- The row of `rate` and the packets in the window. -/
structure RRAARateInfo.Exact (w : List PacketInfo) (rate : Nat) (r : RRAARateInfo) : Prop where
  numSent : r.numSent = w.countP (PacketInfo.hasRate rate)
  numAcked : r.numAcked = w.countP (PacketInfo.hasFate rate .acked)
  lenSent : r.lenSent = bytes (PacketInfo.hasRate rate) w
  lenAcked : r.lenAcked = bytes (PacketInfo.hasFate rate .acked) w

/-- The table of `RobustRate` and the packets in the window. -/
structure RobustRate.Exact (w : List PacketInfo) (s : RobustRate) : Prop where
  row : ∀ i, (s.rateTable i).Exact w (rraaRate.get i)
  lossRatio : s.dirty = false → ∀ i, (s.rateTable i).lossRatio = lostFraction w (rraaRate.get i)

namespace RRAARateInfo

variable {w w' : List PacketInfo} {rate : Nat} {r : RRAARateInfo} {pkt : PacketInfo}

theorem Exact.insert (hr : r.Exact w pkt.rate) :
    (r.insert pkt).Exact (w ++ [pkt]) pkt.rate := by
  constructor <;> by_cases hst : pkt.status = .acked <;>
    simp [RRAARateInfo.insert, PacketInfo.hasRate, PacketInfo.hasFate, hst, hr.numSent,
      hr.numAcked, hr.lenSent, hr.lenAcked]

theorem Exact.remove (hr : r.Exact (pkt :: w) pkt.rate) :
    (r.remove pkt).Exact w pkt.rate := by
  constructor <;> by_cases hst : pkt.status = .acked <;>
    simp [RRAARateInfo.remove, PacketInfo.hasRate, PacketInfo.hasFate, hst, hr.numSent,
      hr.numAcked, hr.lenSent, hr.lenAcked]

/-- A row depends on the packets of its rate only. -/
theorem Exact.congr (hw : SameAtRate rate w w') (hr : r.Exact w rate) : r.Exact w' rate := by
  have hrate : ∀ q : PacketInfo, q.hasRate rate = true → q.hasRate rate = true := fun _ => id
  constructor
  · rw [hr.numSent, countP_congr_filter hrate hw]
  · rw [hr.numAcked, countP_congr_filter PacketInfo.hasRate_of_hasFate hw]
  · rw [hr.lenSent, bytes, total_congr_filter _ hrate hw, bytes]
  · rw [hr.lenAcked, bytes, total_congr_filter _ PacketInfo.hasRate_of_hasFate hw, bytes]

/-- Bringing an exact row up to date leaves it exact and makes its loss ratio so. -/
theorem Exact.update (hr : r.Exact w rate) (hw : ∀ p ∈ w, 1 ≤ p.length) :
    r.update.Exact w rate ∧ r.update.lossRatio = lostFraction w rate := by
  have hsent : clearIfZero r.lenSent = bytes (PacketInfo.hasRate rate) w := by
    rw [hr.lenSent, clearIfZero_of (bytes_eq_zero_or_le _ hw)]
  have hacked : clearIfZero r.lenAcked = bytes (PacketInfo.hasFate rate .acked) w := by
    rw [hr.lenAcked, clearIfZero_of (bytes_eq_zero_or_le _ hw)]
  refine ⟨⟨hr.numSent, hr.numAcked, hsent, hacked⟩, ?_⟩
  have hlost : bytes (PacketInfo.hasRate rate) w - bytes (PacketInfo.hasFate rate .acked) w =
      bytes (fun p => PacketInfo.hasRate rate p && !decide (p.status = .acked)) w := by
    have hfate : PacketInfo.hasFate rate .acked =
        fun p => PacketInfo.hasRate rate p && decide (p.status = .acked) := by
      funext p
      simp [PacketInfo.hasFate, PacketInfo.hasRate]
    rw [hfate]
    exact total_sub _ _ _ _
  simp only [RRAARateInfo.update, lostFraction, hsent, hacked, hlost]
  obtain ⟨hcount, hzero⟩ | ⟨hcount, hle⟩ := bytes_cases (PacketInfo.hasRate rate) hw
  · rw [if_neg (by rw [hzero]; exact lt_irrefl 0), if_pos hcount]
  · rw [if_pos (by linarith), if_neg (by omega)]

end RRAARateInfo

namespace RobustRate

variable {w : List PacketInfo} {s : RobustRate}

theorem rraaRate_nodup : rraaRate.Nodup := by decide

theorem summary_exact : (BaseRate.summary RobustRate).Exact Exact := by
  constructor
  · intro w s pkt hs
    -- the table is dirty now, so that nothing is said about its loss ratios
    refine ⟨?_, fun hdirty => by cases hdirty⟩
    refine KeyedTable.modify_rule (Q := RRAARateInfo.Exact (w ++ [pkt])) rraaRate_nodup hs.row ?_ ?_
    · intro row hrow
      exact hrow.insert
    · intro rate row hrate hrow
      exact hrow.congr (sameAtRate_snoc (Ne.symm hrate))
  · intro w s pkt hs
    -- the table is dirty now, so that nothing is said about its loss ratios
    refine ⟨?_, fun hdirty => by cases hdirty⟩
    refine KeyedTable.modify_rule (Q := RRAARateInfo.Exact w) rraaRate_nodup hs.row ?_ ?_
    · intro row hrow
      exact hrow.remove
    · intro rate row hrate hrow
      exact hrow.congr (sameAtRate_cons (Ne.symm hrate))

/-- The table on which `ApplyRate` decides. -/
theorem Exact.refresh (hs : s.Exact w) (hw : ∀ p ∈ w, 1 ≤ p.length) :
    s.refresh.Exact w ∧ s.refresh.dirty = false := by
  unfold RobustRate.refresh
  split
  · exact ⟨⟨fun i => ((hs.row i).update hw).1, fun _ i => ((hs.row i).update hw).2⟩, rfl⟩
  · rename_i hclean
    exact ⟨hs, by simpa using hclean⟩

theorem Exact.applyRate (hs : s.Exact w) (hw : ∀ p ∈ w, 1 ≤ p.length) : s.applyRate.2.Exact w := by
  obtain ⟨hfresh, -⟩ := hs.refresh hw
  obtain ⟨htable, hdirty⟩ := chooseRate_table s.refresh
  constructor
  · intro i
    rw [RobustRate.applyRate, htable]
    exact hfresh.row i
  · rw [RobustRate.applyRate, htable, hdirty]
    exact hfresh.lossRatio

end RobustRate

/-! ### Every run -/

/-- `RateAdaptation(kSampleRate)`. -/
def sampleRateMachine : Machine (RateState (SampleRate mac80211abgRate)) RateInput Empty :=
  rateMachine fun b => ∃ clock, b = SampleRate.init clock

/-- `RateAdaptation(kRRAA)`. -/
def robustRateMachine : Machine (RateState RobustRate) RateInput Empty :=
  rateMachine fun b => ∃ dirty, b = RobustRate.init dirty

theorem sampleRate_exact {s : RateState (SampleRate mac80211abgRate)}
    (h : sampleRateMachine.Reachable s) :
    s.base.Exact s.window := by
  refine rateMachine_exact (SampleRate.summary_exact (by decide)) ?_
    (fun w b now random hw hb => hb.applyRate hw now random) h
  rintro b ⟨clock, rfl⟩
  exact ⟨fun i => PacketStat.exact_init _, rfl⟩

theorem robustRate_exact {s : RateState RobustRate} (h : robustRateMachine.Reachable s) :
    s.base.Exact s.window := by
  refine rateMachine_exact RobustRate.summary_exact ?_
    (fun w b now random hw hb => hb.applyRate hw) h
  rintro b ⟨dirty, rfl⟩
  exact ⟨fun i => ⟨rfl, rfl, rfl, rfl⟩, fun _ i => rfl⟩

/-- In every run of either baseline, the window holds the inserted packets that are not too old,
and the table is its aggregate; RRAA decides on the fraction of bytes lost in the window. -/
theorem rateTables_exact :
    (∀ s, sampleRateMachine.Reachable s →
      s.window = s.inserted.filter (fun p => s.cleaned < p.timer.add RateAdaptation.duration) ∧
      s.base.Exact s.window) ∧
    (∀ s, robustRateMachine.Reachable s →
      s.window = s.inserted.filter (fun p => s.cleaned < p.timer.add RateAdaptation.duration) ∧
      (∀ i, (s.base.rateTable i).Exact s.window (rraaRate.get i)) ∧
      ∀ i, (s.base.refresh.rateTable i).lossRatio = lostFraction s.window (rraaRate.get i)) := by
  constructor
  · intro s hs
    exact ⟨(rateMachine_window hs).window, sampleRate_exact hs⟩
  · intro s hs
    have hexact := robustRate_exact hs
    obtain ⟨hfresh, hclean⟩ := hexact.refresh (rateMachine_window hs).length
    exact ⟨(rateMachine_window hs).window, hexact.row, hfresh.lossRatio hclean⟩

/-- One packet of 1000 bytes is sent at 2 Mbit/s and lost. -/
def oneLost : RateState RobustRate where
  adaptation := RateAdaptation.insertRecord ⟨[], RobustRate.init true⟩ ⟨1, 0⟩ 1 .naked 20 1000
  inserted := [⟨⟨1, 0⟩, 1, 20, 1000, .naked⟩]
  clock := ⟨1, 0⟩
  cleaned := ⟨1, 0⟩

theorem oneLost_reachable : robustRateMachine.Reachable oneLost := by
  have hinit : robustRateMachine.Reachable
      ⟨⟨[], RobustRate.init true⟩, [], ⟨0, 0⟩, ⟨0, 0⟩⟩ :=
    .init ⟨⟨true, rfl⟩, rfl, rfl, by decide, rfl⟩
  refine .step hinit (i := .insertRecord ⟨1, 0⟩ 1 .naked 20 1000) ?_ rfl
  exact ⟨by decide, by decide, by decide⟩

theorem rateTables_exact_oneLost :
    (oneLost.base.refresh.rateTable ⟨1, by decide⟩).lossRatio = lostFraction oneLost.window 20 := by
  obtain ⟨-, -, hloss⟩ := rateTables_exact.2 oneLost oneLost_reachable
  exact hloss ⟨1, by decide⟩

end WspaceScout
