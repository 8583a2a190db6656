import WspaceScout.Feedback.FeedbackRecords
import WspaceScout.Foundation.Bisection
import WspaceScout.Foundation.CountedLoop

/-!
# Loss rates of a time window

`CalcLossRates` and `FindSuccessRates` search the records for both ends of a time window, count
the packets of each rate between them in `rate_table_` and read the table.

## Main definitions

- `FeedbackRecords.binarySearchRecords`, `FeedbackRecords.lowerBound` — the search and what it is
  to find
- `LossRecords` — the records together with `rate_table_`
- `LossRecords.calcLossRates`, `LossRecords.findSuccessRates`

## Main results

- `LossRecords.countWindow_spec` — the counts are those of the records in the window
-/

namespace WspaceScout

/-- Where a query stops. -/
inductive QueryFault where
  /-- `assert(sz > 0)` -/
  | noRecord
  /-- `assert(start <= end)` -/
  | startAfterEnd
  deriving DecidableEq, Repr

open Foundation

namespace FeedbackRecords

/-- Record `i` compared with `t`. -/
def compareTimer (f : FeedbackRecords) (t : MonotonicTimer) (i : Nat) : Ordering :=
  match f.records[i]? with
  | some pkt => if pkt.timer = t then .eq else if t < pkt.timer then .gt else .lt
  | none => .gt

/-- `BinarySearchRecords`. Its positions are `int32`s, so there are fewer than `2 ^ 31` records. -/
def binarySearchRecords (f : FeedbackRecords) (t : MonotonicTimer) : Except QueryFault Nat :=
  match f.records.head?, f.records.getLast? with
  | some first, some last =>
    if last.timer < t then .ok f.records.length
    else if t < first.timer then .ok 0
    else .ok (bisect (f.compareTimer t) 0 (f.records.length - 1))
  | _, _ => .error .noRecord

/-- The first record that is not before `t`, the size if there is none. -/
def lowerBound (f : FeedbackRecords) (t : MonotonicTimer) : Nat :=
  f.records.findIdx fun pkt => t ≤ pkt.timer

/-- The halving from `[0, size - 1]` towards the first record not before `t` meets no later record
with the time `t`. -/
def MeetsFirst (f : FeedbackRecords) (t : MonotonicTimer) : Prop :=
  ∀ m ∈ probes (f.lowerBound t) 0 (f.records.length - 1),
    f.lowerBound t < m → f.compareTimer t m ≠ .eq

instance (f : FeedbackRecords) (t : MonotonicTimer) : Decidable (f.MeetsFirst t) :=
  inferInstanceAs (Decidable (∀ m ∈ probes (f.lowerBound t) 0 (f.records.length - 1),
    f.lowerBound t < m → f.compareTimer t m ≠ .eq))

/-- `sz == 0 || end < records_[0].timer || start > records_[sz-1].timer` -/
def isUnavailable (f : FeedbackRecords) (start stop : MonotonicTimer) : Bool :=
  match f.records.head?, f.records.getLast? with
  | some first, some last => stop < first.timer ∨ last.timer < start
  | _, _ => true

/-- The records that the loops from `left` to `right` visit. -/
def window (f : FeedbackRecords) (start stop : MonotonicTimer) :
    Except QueryFault (List PacketInfo) := do
  let left ← f.binarySearchRecords start
  let right ← f.binarySearchRecords stop
  .ok ((f.records.take right).drop left)

/-! ### The search -/

variable {f : FeedbackRecords} {t : MonotonicTimer}

theorem compareTimer_eq_lt_iff {i : Nat} (h : i < f.records.length) :
    f.compareTimer t i = .lt ↔ f.records[i].timer < t := by
  rw [compareTimer, List.getElem?_eq_getElem h]
  dsimp only
  split
  · next heq => simp [heq]
  · next hne =>
    split
    · next hlt => simpa using hlt.le
    · next hge => simpa using lt_of_le_of_ne (not_lt.mp hge) hne

theorem compareTimer_ne_eq_iff {i : Nat} (h : i < f.records.length) :
    f.compareTimer t i ≠ .eq ↔ f.records[i].timer ≠ t := by
  rw [compareTimer, List.getElem?_eq_getElem h]
  dsimp only
  split
  · next heq => simp [heq]
  · next hne =>
    split
    · simpa using hne
    · simpa using hne

/-- In an ordered history, exactly the records in front of the bound are before `t`. -/
theorem lt_lowerBound_iff (hf : f.records.Pairwise fun p q => p.timer ≤ q.timer) {i : Nat}
    (h : i < f.records.length) : i < f.lowerBound t ↔ f.records[i].timer < t := by
  constructor
  · intro hi
    have hnot := List.not_of_lt_findIdx hi
    simpa using hnot
  · intro hi
    by_contra hge
    have hle : f.lowerBound t ≤ i := not_lt.mp hge
    have hhit : t ≤ (f.records.get ⟨f.lowerBound t, hle.trans_lt h⟩).timer :=
      of_decide_eq_true (List.findIdx_getElem (w := hle.trans_lt h))
    obtain heq | hlt := Nat.eq_or_lt_of_le hle
    · simp only [heq, List.get_eq_getElem] at hhit
      exact absurd (hhit.trans_lt hi) (lt_irrefl t)
    · have hord := List.pairwise_iff_getElem.mp hf _ _ (hle.trans_lt h) h hlt
      exact absurd ((hhit.trans hord).trans_lt hi) (lt_irrefl t)

/-- The search ends. It finds the bound exactly if its way there meets no equal time behind the
bound. -/
theorem binarySearchRecords_eq_iff (hf : f.records.Pairwise fun p q => p.timer ≤ q.timer)
    (hne : f.records ≠ []) :
    (∃ r, f.binarySearchRecords t = .ok r) ∧
      (f.binarySearchRecords t = .ok (f.lowerBound t) ↔ f.MeetsFirst t) := by
  have hpos : 0 < f.records.length := List.length_pos_iff.mpr hne
  have hhead : f.records.head? = some f.records[0] := by
    rw [List.head?_eq_getElem?, List.getElem?_eq_getElem hpos]
  have hlast : f.records.getLast? = some f.records[f.records.length - 1] := by
    rw [List.getLast?_eq_getElem?, List.getElem?_eq_getElem]
  have hle : f.lowerBound t ≤ f.records.length := List.findIdx_le_length
  simp only [binarySearchRecords, hhead, hlast]
  split
  · next hafter =>
    -- every record is before `t`
    have hbound : f.lowerBound t = f.records.length := by
      have := (lt_lowerBound_iff hf (by omega)).mpr hafter
      omega
    refine ⟨⟨_, rfl⟩, fun _ m hm hlt => ?_, fun _ => by rw [hbound]⟩
    have := mem_probes hm
    omega
  split
  · next hbefore =>
    -- every record is behind `t`
    have hbound : f.lowerBound t = 0 := by
      have := (lt_lowerBound_iff hf hpos).not.mpr (not_lt.mpr hbefore.le)
      omega
    refine ⟨⟨_, rfl⟩, fun _ m hm hlt => ?_, fun _ => by rw [hbound]⟩
    have hm' : m < f.records.length := by
      have := mem_probes hm
      omega
    rw [compareTimer_ne_eq_iff hm']
    have hord := List.pairwise_iff_getElem.mp hf 0 m hpos hm' (by omega)
    exact (hbefore.trans_le hord).ne'
  · next hnotAfter _ =>
    have hbound : f.lowerBound t ≤ f.records.length - 1 := by
      have := (lt_lowerBound_iff hf (by omega)).not.mpr hnotAfter
      omega
    refine ⟨⟨_, rfl⟩, ?_⟩
    rw [Except.ok.injEq, bisect_eq_iff (Nat.zero_le _) hbound]
    · rfl
    · intro k _ hk
      rw [compareTimer_eq_lt_iff (by omega), lt_lowerBound_iff hf]

/-- Without equal times, the search finds its bound. -/
theorem meetsFirst_of_increasing (hf : f.records.Pairwise fun p q => p.timer < q.timer) :
    f.MeetsFirst t := by
  intro m hm hlt
  have hm' : m < f.records.length := by
    have := mem_probes hm
    omega
  rw [compareTimer_ne_eq_iff hm']
  have hbound : ¬f.records[f.lowerBound t].timer < t := by
    rw [← lt_lowerBound_iff (hf.imp le_of_lt)]
    exact lt_irrefl _
  have hord := List.pairwise_iff_getElem.mp hf _ m (hlt.trans hm') hm' hlt
  exact ((not_lt.mp hbound).trans_lt hord).ne'

/-- Where both searches find their bounds, the loops see the records of `[start, stop)`. -/
theorem window_eq_filter (hf : f.records.Pairwise fun p q => p.timer ≤ q.timer)
    {start stop : MonotonicTimer} (hle : start ≤ stop)
    (hstart : f.binarySearchRecords start = .ok (f.lowerBound start))
    (hstop : f.binarySearchRecords stop = .ok (f.lowerBound stop)) :
    f.window start stop =
      .ok (f.records.filter fun pkt => start ≤ pkt.timer ∧ pkt.timer < stop) := by
  have hmono : ∀ t : MonotonicTimer, f.records.Pairwise fun p q =>
      decide (t ≤ p.timer) = true → decide (t ≤ q.timer) = true := by
    intro t
    apply hf.imp
    intro p q hpq
    simpa using fun htp => le_trans htp hpq
  rw [window, hstart, hstop]
  show Except.ok _ = _
  rw [lowerBound, lowerBound, take_drop_eq_filter (hmono start) (hmono stop)]
  · congr 1
    apply List.filter_congr
    intro pkt _
    simp only [Bool.decide_and, ← decide_not, not_le]
  · intro pkt h
    simpa using hle.trans (by simpa using h)

/-- The search does not leave before its bound. -/
theorem lowerBound_le (hf : f.records.Pairwise fun p q => p.timer ≤ q.timer) {r : Nat}
    (h : f.binarySearchRecords t = .ok r) : f.lowerBound t ≤ r := by
  have hle : f.lowerBound t ≤ f.records.length := List.findIdx_le_length
  rw [binarySearchRecords] at h
  split at h
  · next first last hfirst hlast =>
    have hpos : 0 < f.records.length :=
      List.length_pos_iff.mpr fun hnil => by simp [hnil] at hfirst
    split at h
    · cases h
      exact hle
    · next hnotAfter =>
      rw [List.getLast?_eq_getElem?, List.getElem?_eq_getElem (by omega), Option.some.injEq]
        at hlast
      rw [← hlast] at hnotAfter
      have hbound : f.lowerBound t ≤ f.records.length - 1 := by
        have := (lt_lowerBound_iff hf (by omega)).not.mpr hnotAfter
        omega
      split at h
      · next hbefore =>
        cases h
        rw [List.head?_eq_getElem?, List.getElem?_eq_getElem hpos, Option.some.injEq] at hfirst
        rw [← hfirst] at hbefore
        have := (lt_lowerBound_iff hf hpos).not.mpr (not_lt.mpr hbefore.le)
        omega
      · cases h
        apply le_bisect hbound
        intro k _ hk hnot
        rw [Ne, compareTimer_eq_lt_iff (by omega), ← lt_lowerBound_iff hf] at hnot
        exact not_lt.mp hnot
  · cases h

/-- Where the second search finds its bound, the loops see no record outside `[start, stop)`. -/
theorem mem_window (hf : f.records.Pairwise fun p q => p.timer ≤ q.timer)
    {start stop : MonotonicTimer} (hstop : start ≠ stop → f.MeetsFirst stop)
    {w : List PacketInfo} (hw : f.window start stop = .ok w) {p : PacketInfo} (hp : p ∈ w) :
    start ≤ p.timer ∧ p.timer < stop := by
  obtain ⟨left, hleft, hw⟩ := bind_eq_ok.mp hw
  obtain ⟨right, hright, hw⟩ := bind_eq_ok.mp hw
  cases hw
  obtain ⟨i, hi, rfl⟩ := List.mem_iff_getElem.mp hp
  rw [List.length_drop, List.length_take] at hi
  rw [List.getElem_drop, List.getElem_take]
  have hlen : left + i < f.records.length := by omega
  have hne : f.records ≠ [] := List.length_pos_iff.mp (by omega)
  have hmeets : f.MeetsFirst stop := by
    apply hstop
    rintro rfl
    rw [hleft] at hright
    cases hright
    omega
  rw [(binarySearchRecords_eq_iff hf hne).2.mpr hmeets] at hright
  cases hright
  constructor
  · rw [← not_lt, ← lt_lowerBound_iff hf hlen]
    have := lowerBound_le hf hleft
    omega
  · rw [← lt_lowerBound_iff hf hlen]
    omega

/-- The search finds the first record not before `t` exactly if its halving meets no later record
with the time `t`; where it does so for both ends of a window, the records at its start are counted
and those at its end are not. -/
theorem binarySearchRecords_lowerBound (f : FeedbackRecords) (hne : f.records ≠ [])
    (hf : f.records.Pairwise fun p q => p.timer ≤ q.timer) (t : MonotonicTimer) :
    (∃ r, f.binarySearchRecords t = .ok r) ∧
    (f.binarySearchRecords t = .ok (f.lowerBound t) ↔ f.MeetsFirst t) ∧
    ∀ stop, t ≤ stop → f.MeetsFirst t → f.MeetsFirst stop →
      f.window t stop = .ok (f.records.filter fun pkt => t ≤ pkt.timer ∧ pkt.timer < stop) := by
  obtain ⟨hends, hiff⟩ := binarySearchRecords_eq_iff (t := t) hf hne
  refine ⟨hends, hiff, fun stop hle hstart hstop => ?_⟩
  have hiff' := (binarySearchRecords_eq_iff (t := stop) hf hne).2
  exact window_eq_filter hf hle (hiff.mpr hstart) (hiff'.mpr hstop)

theorem binarySearchRecords_lowerBound_456 :
    binarySearchRecords ⟨⟨2, 0⟩, [⟨⟨4, 0⟩, 1, 60, 0, .acked⟩, ⟨⟨5, 0⟩, 2, 60, 0, .naked⟩,
      ⟨⟨6, 0⟩, 3, 60, 0, .acked⟩]⟩ ⟨5, 0⟩ = .ok 1 :=
  (binarySearchRecords_lowerBound ⟨⟨2, 0⟩, [⟨⟨4, 0⟩, 1, 60, 0, .acked⟩,
    ⟨⟨5, 0⟩, 2, 60, 0, .naked⟩, ⟨⟨6, 0⟩, 3, 60, 0, .acked⟩]⟩ (by simp) (by decide) ⟨5, 0⟩).2.1.mpr
    (by simp [MeetsFirst, probes, lowerBound, List.findIdx_cons, MonotonicTimer.le_def])

/-- Three records with one time: the search leaves at the second. -/
theorem binarySearchRecords_equal_times : ¬∀ (f : FeedbackRecords), f.records ≠ [] →
    (f.records.Pairwise fun p q => p.timer ≤ q.timer) → ∀ t : MonotonicTimer,
      f.binarySearchRecords t = .ok (f.lowerBound t) := by
  intro h
  let f : FeedbackRecords := ⟨⟨2, 0⟩, [⟨⟨5, 0⟩, 1, 60, 0, .acked⟩, ⟨⟨5, 0⟩, 2, 60, 0, .naked⟩,
    ⟨⟨5, 0⟩, 3, 60, 0, .acked⟩]⟩
  have hne : f.records ≠ [] := by simp [f]
  have hsorted : f.records.Pairwise fun p q => p.timer ≤ q.timer := by decide
  have hmeets := (binarySearchRecords_eq_iff hsorted hne).2.mp (h f hne hsorted ⟨5, 0⟩)
  have hbound : f.lowerBound ⟨5, 0⟩ = 0 := by decide
  have hprobe : 1 ∈ probes 0 0 2 := by simp [probes]
  exact hmeets 1 (by rw [hbound]; exact hprobe) (by decide) (by decide)

end FeedbackRecords

/-! ### The table of counts -/

/-- The counts of one rate. -/
structure RateInfo where
  nAck : Nat
  nSent : Nat
  deriving DecidableEq, Repr

/-- `rate_table_`. -/
abbrev LossTable := Std.TreeMap Nat RateInfo

namespace LossTable

/-- What `rate_table_[rate]` reads. -/
def info (table : LossTable) (rate : Nat) : RateInfo := table.getD rate ⟨0, 0⟩

/-- Change `rate_table_[rate]`, which makes an entry where there is none. -/
def update (table : LossTable) (rate : Nat) (f : RateInfo → RateInfo) : LossTable :=
  table.alter rate fun info => some (f (info.getD ⟨0, 0⟩))

/-- One record is counted. -/
def count (table : LossTable) (pkt : PacketInfo) : LossTable :=
  table.update pkt.rate fun info =>
    ⟨if pkt.status = .acked then info.nAck + 1 else info.nAck, info.nSent + 1⟩

/-- `ResetRateTable`: the entries stay. -/
def reset (table : LossTable) : LossTable := table.map fun _ _ => ⟨0, 0⟩

end LossTable

/-- What `CalcLossRates` makes of the counts of a rate. -/
def RateInfo.lossRate (info : RateInfo) : ℚ :=
  if info.nSent = 0 then -1 else 1 - info.nAck / info.nSent

/-- Read the rates one after another. -/
def LossTable.readLosses : LossTable → List Nat → List ℚ × LossTable
  | table, [] => ([], table)
  | table, rate :: rates =>
    let r := readLosses (table.update rate id) rates
    ((table.info rate).lossRate :: r.1, r.2)

def kMinSentCnt : Nat := 2

/-- The loop of `FindSuccessRates` over the entries, in the order of the rates. -/
def LossTable.successRates (table : LossTable) : List Nat :=
  (table.toList.filter fun e => e.2.nAck > 0 ∨ e.2.nSent < kMinSentCnt).map Prod.fst

/-- `FeedbackRecords` with its `rate_table_`. -/
structure LossRecords extends FeedbackRecords where
  rateTable : LossTable

namespace LossRecords

/-- Count the records between `start` and `stop` into a cleared table. -/
def countWindow (f : LossRecords) (start stop : MonotonicTimer) :
    Except QueryFault LossTable := do
  let w ← f.window start stop
  .ok (w.foldl LossTable.count f.rateTable.reset)

/-- `CalcLossRates`; `none` for a return value of false, which leaves `loss_rate` as it is. -/
def calcLossRates (f : LossRecords) (start stop : MonotonicTimer) (rates : List Nat) :
    Except QueryFault (Option (List ℚ) × LossRecords) :=
  if start ≤ stop then
    if f.isUnavailable start stop then .ok (none, f)
    else do
      let table ← f.countWindow start stop
      let r := table.readLosses rates
      .ok (some r.1, { f with rateTable := r.2 })
  else .error .startAfterEnd

/-- `FindSuccessRates`; `none` for a return value of false, with `rates` cleared. -/
def findSuccessRates (f : LossRecords) (start stop : MonotonicTimer) (isLossAvailable : Bool) :
    Except QueryFault (Option (List Nat) × LossRecords) :=
  if start ≤ stop then
    if f.isUnavailable start stop then .ok (none, f)
    else do
      let table ← if isLossAvailable then .ok f.rateTable else f.countWindow start stop
      .ok (some table.successRates, { f with rateTable := table })
  else .error .startAfterEnd

end LossRecords

/-! ### What the counts are -/

/-- Records with a rate. -/
def sent (w : List PacketInfo) (rate : Nat) : Nat := w.countP fun p => p.rate = rate

/-- Acked records with a rate. -/
def acked (w : List PacketInfo) (rate : Nat) : Nat :=
  w.countP fun p => p.rate = rate ∧ p.status = .acked

/-- The loss rate over some records. -/
def windowLoss (w : List PacketInfo) (rate : Nat) : ℚ :=
  if sent w rate = 0 then -1 else 1 - acked w rate / sent w rate

theorem acked_le_sent (w : List PacketInfo) (rate : Nat) : acked w rate ≤ sent w rate := by
  apply List.countP_mono_left
  intro p _ h
  simp only [decide_eq_true_eq] at h ⊢
  exact h.1

theorem sent_pos_iff {w : List PacketInfo} {rate : Nat} :
    0 < sent w rate ↔ ∃ p ∈ w, p.rate = rate := by
  simp [sent, List.countP_pos_iff]

theorem acked_append (w w' : List PacketInfo) (rate : Nat) :
    acked (w ++ w') rate = acked w rate + acked w' rate := List.countP_append

theorem sent_append (w w' : List PacketInfo) (rate : Nat) :
    sent (w ++ w') rate = sent w rate + sent w' rate := List.countP_append

namespace LossTable

variable (table : LossTable) (pkt : PacketInfo) (rate rate' : Nat)

@[simp]
theorem info_reset : table.reset.info rate = ⟨0, 0⟩ := by
  rw [info, reset, Std.TreeMap.getD_map]
  cases table[rate]? <;> rfl

@[simp]
theorem mem_reset : rate ∈ table.reset ↔ rate ∈ table := Std.TreeMap.mem_map

theorem info_update (f : RateInfo → RateInfo) : (table.update rate f).info rate' =
    if rate = rate' then f (table.info rate') else table.info rate' := by
  rw [info, update, Std.TreeMap.getD_alter]
  by_cases h : rate = rate'
  · rw [if_pos h, if_pos (h ▸ Std.ReflCmp.compare_self), h, info,
      Std.TreeMap.getD_eq_getD_getElem?]
    rfl
  · rw [if_neg h, if_neg fun heq => h (Std.LawfulEqCmp.eq_of_compare heq), info]

theorem mem_update (f : RateInfo → RateInfo) :
    rate' ∈ table.update rate f ↔ rate = rate' ∨ rate' ∈ table := by
  rw [update, Std.TreeMap.mem_alter]
  by_cases h : rate = rate'
  · simp [h]
  · rw [if_neg fun heq => h (Std.LawfulEqCmp.eq_of_compare heq)]
    simp [h]

theorem info_count : (table.count pkt).info rate =
    ⟨(table.info rate).nAck + acked [pkt] rate, (table.info rate).nSent + sent [pkt] rate⟩ := by
  rw [count, info_update]
  by_cases h : pkt.rate = rate
  · by_cases hack : pkt.status = .acked
    · simp [h, hack, acked, sent]
    · simp [h, hack, acked, sent]
  · simp [h, acked, sent]

/-- The counts of a loop. -/
theorem info_foldl_count (w : List PacketInfo) : (w.foldl count table).info rate =
    ⟨(table.info rate).nAck + acked w rate, (table.info rate).nSent + sent w rate⟩ := by
  induction w generalizing table with
  | nil => rfl
  | cons pkt w ih =>
    rw [List.foldl_cons, ih, info_count, Nat.add_assoc, Nat.add_assoc, ← acked_append,
      ← sent_append, List.singleton_append]

/-- The entries that a loop leaves. -/
theorem mem_foldl_count (w : List PacketInfo) :
    rate ∈ w.foldl count table ↔ 0 < sent w rate ∨ rate ∈ table := by
  induction w generalizing table with
  | nil => simp [sent]
  | cons pkt w ih =>
    rw [List.foldl_cons, ih, count, mem_update, sent_pos_iff, sent_pos_iff]
    simp [or_assoc, or_left_comm]

theorem readLosses_fst (rates : List Nat) :
    (table.readLosses rates).1 = rates.map fun rate => (table.info rate).lossRate := by
  induction rates generalizing table with
  | nil => rfl
  | cons rate rates ih =>
    have hsame : ∀ rate', (table.update rate id).info rate' = table.info rate' := by
      intro rate'
      rw [info_update, id, ite_self]
    rw [readLosses, List.map_cons]
    simp only [ih, hsame]

theorem mem_readLosses_snd (rates : List Nat) :
    rate' ∈ (table.readLosses rates).2 ↔ rate' ∈ rates ∨ rate' ∈ table := by
  induction rates generalizing table with
  | nil => simp [readLosses]
  | cons rate rates ih =>
    rw [readLosses, ih, mem_update, List.mem_cons]
    tauto

theorem successRates_sorted : table.successRates.Pairwise (· < ·) := by
  rw [successRates, List.pairwise_map]
  apply List.Pairwise.filter
  apply table.ordered_keys_toList.imp
  intro e e' h
  exact compare_lt_iff_lt.mp h

theorem mem_successRates : rate ∈ table.successRates ↔
    rate ∈ table ∧ (0 < (table.info rate).nAck ∨ (table.info rate).nSent < kMinSentCnt) := by
  simp only [successRates, List.mem_map, List.mem_filter, decide_eq_true_eq, Prod.exists,
    exists_and_right, exists_eq_right, Std.TreeMap.mem_toList_iff_getElem?_eq_some]
  rw [Std.TreeMap.mem_iff_isSome_getElem?, info, Std.TreeMap.getD_eq_getD_getElem?]
  cases table[rate]? with
  | none => simp
  | some e => simp

end LossTable

/-! ### The queries -/

namespace FeedbackRecords

variable {f : FeedbackRecords} {start stop : MonotonicTimer}

theorem binarySearchRecords_ok (hne : f.records ≠ []) (t : MonotonicTimer) :
    ∃ i, f.binarySearchRecords t = .ok i := by
  obtain ⟨first, rest, hrecords⟩ := List.exists_cons_of_ne_nil hne
  simp only [binarySearchRecords, hrecords, List.head?_cons, List.getLast?_cons]
  split
  · exact ⟨_, rfl⟩
  · split
    · exact ⟨_, rfl⟩
    · exact ⟨_, rfl⟩

theorem ne_nil_of_available (h : f.isUnavailable start stop = false) : f.records ≠ [] := by
  intro hnil
  simp [isUnavailable, hnil] at h

theorem window_ok (h : f.isUnavailable start stop = false) :
    ∃ w, f.window start stop = .ok w := by
  obtain ⟨left, hleft⟩ := binarySearchRecords_ok (ne_nil_of_available h) start
  obtain ⟨right, hright⟩ := binarySearchRecords_ok (ne_nil_of_available h) stop
  rw [window, hleft, hright]
  exact ⟨_, rfl⟩

theorem window_sublist {w : List PacketInfo} (hw : f.window start stop = .ok w) :
    w.Sublist f.records := by
  obtain ⟨left, -, hw⟩ := bind_eq_ok.mp hw
  obtain ⟨right, -, hw⟩ := bind_eq_ok.mp hw
  cases hw
  exact (List.drop_sublist _ _).trans (List.take_sublist _ _)

end FeedbackRecords

namespace LossRecords

variable {f : LossRecords} {start stop : MonotonicTimer} {w : List PacketInfo}

/-- The counts are those of the records in the window, and the entries are the old ones and those
of the rates in the window. -/
theorem countWindow_spec (hw : f.window start stop = .ok w) :
    ∃ table : LossTable, f.countWindow start stop = .ok table ∧
      (∀ rate, table.info rate = ⟨acked w rate, sent w rate⟩) ∧
      ∀ rate, rate ∈ table ↔ 0 < sent w rate ∨ rate ∈ f.rateTable := by
  refine ⟨w.foldl LossTable.count f.rateTable.reset, by rw [countWindow, hw]; rfl, ?_, ?_⟩
  · intro rate
    rw [LossTable.info_foldl_count, LossTable.info_reset, Nat.zero_add, Nat.zero_add]
  · intro rate
    rw [LossTable.mem_foldl_count, LossTable.mem_reset]

theorem calcLossRates_unavailable (hle : start ≤ stop) (h : f.isUnavailable start stop = true)
    (rates : List Nat) : f.calcLossRates start stop rates = .ok (none, f) := by
  rw [calcLossRates, if_pos hle, if_pos h]

theorem calcLossRates_spec (hle : start ≤ stop) (h : f.isUnavailable start stop = false)
    (hw : f.window start stop = .ok w) (rates : List Nat) :
    ∃ table : LossTable, f.calcLossRates start stop rates =
        .ok (some (rates.map (windowLoss w)), { f with rateTable := table }) ∧
      ∀ rate, rate ∈ table ↔ rate ∈ rates ∨ 0 < sent w rate ∨ rate ∈ f.rateTable := by
  obtain ⟨table, hcount, hinfo, hmem⟩ := countWindow_spec hw
  have hloss : (table.readLosses rates).1 = rates.map (windowLoss w) := by
    rw [LossTable.readLosses_fst]
    apply List.map_congr_left
    intro rate _
    rw [hinfo]
    rfl
  refine ⟨(table.readLosses rates).2, ?_, fun rate => ?_⟩
  · rw [calcLossRates, if_pos hle, h, if_neg Bool.false_ne_true, hcount, ← hloss]
    rfl
  · rw [LossTable.mem_readLosses_snd, hmem]

theorem findSuccessRates_unavailable (hle : start ≤ stop)
    (h : f.isUnavailable start stop = true) (isLossAvailable : Bool) :
    f.findSuccessRates start stop isLossAvailable = .ok (none, f) := by
  rw [findSuccessRates, if_pos hle, if_pos h]

/-- Every entry that the table has behind the loop can be a success. -/
theorem findSuccessRates_spec (hle : start ≤ stop) (h : f.isUnavailable start stop = false)
    (hw : f.window start stop = .ok w) :
    ∃ table : LossTable, f.findSuccessRates start stop false =
        .ok (some table.successRates, { f with rateTable := table }) ∧
      (∀ rate, rate ∈ table ↔ 0 < sent w rate ∨ rate ∈ f.rateTable) ∧
      ∀ rate, rate ∈ table.successRates ↔
        rate ∈ table ∧ (0 < acked w rate ∨ sent w rate < kMinSentCnt) := by
  obtain ⟨table, hcount, hinfo, hmem⟩ := countWindow_spec hw
  refine ⟨table, ?_, hmem, fun rate => ?_⟩
  · rw [findSuccessRates, if_pos hle, h, if_neg Bool.false_ne_true, if_neg Bool.false_ne_true,
      hcount]
    rfl
  · rw [LossTable.mem_successRates, hinfo]

/-- A query for loss rates has no answer, or the loss rates over a window of the records. -/
theorem calcLossRates_ends (hle : start ≤ stop) (rates : List Nat) :
    ∃ answer f', f.calcLossRates start stop rates = .ok (answer, f') ∧
      (answer = none ∨ ∃ w, f.window start stop = .ok w ∧
        answer = some (rates.map (windowLoss w))) := by
  cases havail : f.isUnavailable start stop with
  | true => exact ⟨none, f, calcLossRates_unavailable hle havail rates, .inl rfl⟩
  | false =>
    obtain ⟨w, hw⟩ := FeedbackRecords.window_ok havail
    obtain ⟨table, hcalc, -⟩ := calcLossRates_spec hle havail hw rates
    exact ⟨_, _, hcalc, .inr ⟨w, hw, rfl⟩⟩

theorem findSuccessRates_ends (hle : start ≤ stop) :
    ∃ r, f.findSuccessRates start stop false = .ok r := by
  cases havail : f.isUnavailable start stop with
  | true => exact ⟨_, findSuccessRates_unavailable hle havail false⟩
  | false =>
    obtain ⟨w, hw⟩ := FeedbackRecords.window_ok havail
    obtain ⟨table, hfind, -⟩ := findSuccessRates_spec hle havail hw
    exact ⟨_, hfind⟩

/-- What a query does to the object: only `rate_table_` changes, no entry is lost, and a new one is
for a rate asked for or a rate of a record. -/
structure Queried (f : LossRecords) (rates : List Nat) (f' : LossRecords) : Prop where
  records_eq : f'.toFeedbackRecords = f.toFeedbackRecords
  keeps : ∀ rate ∈ f.rateTable, rate ∈ f'.rateTable
  new : ∀ rate ∈ f'.rateTable,
    rate ∈ f.rateTable ∨ rate ∈ rates ∨ ∃ p ∈ f.records, p.rate = rate

theorem Queried.refl (f : LossRecords) (rates : List Nat) : f.Queried rates f :=
  ⟨rfl, fun _ h => h, fun _ h => .inl h⟩

/-- A query that counts a window. -/
theorem Queried.counted {rates : List Nat} {table : LossTable} (hw : w.Sublist f.records)
    (hmem : ∀ rate, rate ∈ table ↔ rate ∈ rates ∨ 0 < sent w rate ∨ rate ∈ f.rateTable) :
    f.Queried rates { f with rateTable := table } := by
  refine ⟨rfl, fun rate h => (hmem rate).mpr (.inr (.inr h)), fun rate h => ?_⟩
  obtain h | h | h := (hmem rate).mp h
  · exact .inr (.inl h)
  · obtain ⟨p, hp, hrate⟩ := sent_pos_iff.mp h
    exact .inr (.inr ⟨p, hw.subset hp, hrate⟩)
  · exact .inl h

variable {f' : LossRecords}

theorem calcLossRates_queried {rates : List Nat} {answer : Option (List ℚ)}
    (h : f.calcLossRates start stop rates = .ok (answer, f')) : f.Queried rates f' := by
  by_cases hle : start ≤ stop
  · cases havail : f.isUnavailable start stop with
    | true =>
      rw [calcLossRates_unavailable hle havail] at h
      cases h
      exact .refl f rates
    | false =>
      obtain ⟨w, hw⟩ := FeedbackRecords.window_ok havail
      obtain ⟨table, hcalc, hmem⟩ := calcLossRates_spec hle havail hw rates
      rw [hcalc] at h
      cases h
      exact .counted (FeedbackRecords.window_sublist hw) hmem
  · rw [calcLossRates, if_neg hle] at h
    cases h

theorem findSuccessRates_queried {isLossAvailable : Bool} {answer : Option (List Nat)}
    (h : f.findSuccessRates start stop isLossAvailable = .ok (answer, f')) :
    f.Queried [] f' := by
  by_cases hle : start ≤ stop
  · cases havail : f.isUnavailable start stop with
    | true =>
      rw [findSuccessRates_unavailable hle havail] at h
      cases h
      exact .refl f []
    | false =>
      cases isLossAvailable with
      | true =>
        rw [findSuccessRates, if_pos hle, havail] at h
        cases h
        exact .refl f []
      | false =>
        obtain ⟨w, hw⟩ := FeedbackRecords.window_ok havail
        obtain ⟨table, hfind, hmem, -⟩ := findSuccessRates_spec hle havail hw
        rw [hfind] at h
        cases h
        exact .counted (FeedbackRecords.window_sublist hw) fun rate => by simp [hmem rate]
  · rw [findSuccessRates, if_neg hle] at h
    cases h

end LossRecords

end WspaceScout
