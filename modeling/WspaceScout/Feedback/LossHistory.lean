import WspaceScout.Feedback.LossRates
import WspaceScout.Foundation.Machine
import WspaceScout.Foundation.SlidingWindow

/-!
# Loss rates over all runs

Packets are inserted at increasing times, between queries. What the history retains is determined
by the packets inserted, and so is the answer of `CalcLossRates`. `FindSuccessRates` answers with
the entries of `rate_table_`, which never loses one: a packet at a rate outside the table adds an
entry for good.

## Main definitions

- `lossMachine` — insertions and queries
- `LossHistory.CalcExact`, `LossHistory.FindExact` — what the queries are to answer
- `LossHistory.NoStray` — no rate outside the table gets into the answer

## Main results

- `LossInv.step` — the step lemma
- `LossInv.findExact_iff` — when `FindSuccessRates` answers with rates of the table only
-/

namespace WspaceScout

open Foundation

namespace LossRecords

/-- `InsertPacket`, which does not touch `rate_table_`. -/
def insertPacket (f : LossRecords) (seq : Nat) (status : PacketStatus) (rate : Nat)
    (time clock : MonotonicTimer) : Except RawFault (Bool × LossRecords) := do
  let (removed, records) ← f.toFeedbackRecords.insertPacket seq status rate time clock
  .ok (removed, { f with toFeedbackRecords := records })

/-- `(uint16_t)rate_arr[i]` -/
def tableRate (rate : Int) : Nat := (rate % 65536).toNat

/-- The constructor. -/
def ofRates (rateArr : List Int) (duration : MonotonicTimer) : LossRecords where
  duration := duration
  records := []
  rateTable := rateArr.foldl (fun table rate => table.insert (tableRate rate) ⟨0, 0⟩) ∅

theorem mem_ofRates (rateArr : List Int) (duration : MonotonicTimer) (rate : Nat) :
    rate ∈ (ofRates rateArr duration).rateTable ↔ rate ∈ rateArr.map tableRate := by
  have hfold : ∀ table : LossTable,
      rate ∈ rateArr.foldl (fun table rate => table.insert (tableRate rate) ⟨0, 0⟩) table ↔
        rate ∈ rateArr.map tableRate ∨ rate ∈ table := by
    induction rateArr with
    | nil => simp
    | cons r rateArr ih =>
      intro table
      rw [List.foldl_cons, ih, Std.TreeMap.mem_insert, compare_eq_iff_eq, List.map_cons,
        List.mem_cons, ← or_assoc, or_comm (b := tableRate r = rate), eq_comm]
  rw [ofRates, hfold]
  simp

end LossRecords

/-- The records, and every packet inserted. -/
structure LossHistory where
  records : LossRecords
  inserted : List PacketInfo

/-- The calls; `clock` is the reading that an insertion makes. -/
inductive LossInput where
  | insertPacket (seq : Nat) (status : PacketStatus) (rate : Nat) (time clock : MonotonicTimer)
  | calcLossRates (start stop : MonotonicTimer) (rates : List Nat)
  | findSuccessRates (start stop : MonotonicTimer) (isLossAvailable : Bool)

inductive LossFault where
  | insert (fault : RawFault)
  | query (fault : QueryFault)

namespace LossHistory

/-- Make a call and record it. -/
def exec (s : LossHistory) : LossInput → Except LossFault LossHistory
  | .insertPacket seq status rate time clock => do
    let (_, records) ← (s.records.insertPacket seq status rate time clock).mapError .insert
    .ok ⟨records, s.inserted ++ [⟨time, seq, rate, 0, status⟩]⟩
  | .calcLossRates start stop rates => do
    let (_, records) ← (s.records.calcLossRates start stop rates).mapError .query
    .ok { s with records := records }
  | .findSuccessRates start stop isLossAvailable => do
    let (_, records) ←
      (s.records.findSuccessRates start stop isLossAvailable).mapError .query
    .ok { s with records := records }

/-- Times increase and are not zero, and loss rates are asked for rates of the table. -/
def enabled (table : List Nat) (s : LossHistory) : LossInput → Prop
  | .insertPacket _ _ _ time _ =>
    (∀ p ∈ s.inserted, p.timer < time) ∧ time.Normal ∧ time.getMSec ≠ 0
  | .calcLossRates _ _ rates => ∀ rate ∈ rates, rate ∈ table
  | .findSuccessRates .. => True

end LossHistory

/-- `FeedbackRecords` for the rates `rateArr` and the window size `duration`. -/
def lossMachine (rateArr : List Int) (duration : MonotonicTimer) :
    Machine LossHistory LossInput LossFault where
  init s := s = ⟨.ofRates rateArr duration, []⟩
  enabled := LossHistory.enabled (rateArr.map LossRecords.tableRate)
  exec := LossHistory.exec

namespace LossHistory

/-- The packets that reach into the window that ends with the last insertion. -/
def retained (s : LossHistory) : List PacketInfo :=
  match s.inserted.getLast? with
  | none => []
  | some last => s.inserted.filter fun p => last.timer ≤ p.timer.add s.records.duration

theorem retained_sublist (s : LossHistory) : s.retained.Sublist s.inserted := by
  rw [retained]
  split
  · exact List.nil_sublist _
  · exact List.filter_sublist

/-- A packet that reaches into a later window reaches into the present one. -/
theorem filter_retained (s : LossHistory) {now : MonotonicTimer}
    (hlater : ∀ p ∈ s.inserted, p.timer < now) :
    (s.retained.filter fun p => now ≤ p.timer.add s.records.duration) =
      s.inserted.filter fun p => now ≤ p.timer.add s.records.duration := by
  rw [retained]
  split
  · next hnone => rw [List.getLast?_eq_none_iff.mp hnone]
  · next last hlast =>
    rw [List.filter_filter]
    apply List.filter_congr
    intro p _
    have hle := (hlater last (List.mem_of_getLast? hlast)).le
    simpa using fun hp => hle.trans hp

/-- Those of them in `[start, stop)`. -/
def counted (s : LossHistory) (start stop : MonotonicTimer) : List PacketInfo :=
  s.retained.filter fun p => start ≤ p.timer ∧ p.timer < stop

/-- Nothing is retained, or the window ends before the first or starts after the last retained
packet. -/
def IsUnavailable (s : LossHistory) (start stop : MonotonicTimer) : Prop :=
  s.retained = [] ∨ (∃ first ∈ s.retained.head?, stop < first.timer) ∨
    ∃ last ∈ s.retained.getLast?, last.timer < start

/-- A query ends; it has no answer exactly if nothing is available, and every answer meets `Q`. -/
def Answers {α : Type*} (s : LossHistory) (start stop : MonotonicTimer)
    (query : Except QueryFault (Option α × LossRecords)) (Q : α → Prop) : Prop :=
  ∃ answer records, query = .ok (answer, records) ∧
    (answer = none ↔ s.IsUnavailable start stop) ∧ ∀ a ∈ answer, Q a

/-- `CalcLossRates` answers with the loss rates over the packets counted. -/
def CalcExact (s : LossHistory) (start stop : MonotonicTimer) (rates : List Nat) : Prop :=
  s.Answers start stop (s.records.calcLossRates start stop rates) fun losses =>
    losses = rates.map (windowLoss (s.counted start stop))

/-- `FindSuccessRates` answers, each once and in ascending order, with the rates of the table that
have an ack or less than two packets among those counted. -/
def FindExact (table : List Nat) (s : LossHistory) (start stop : MonotonicTimer) : Prop :=
  s.Answers start stop (s.records.findSuccessRates start stop false) fun rates =>
    rates.Pairwise (· < ·) ∧ ∀ rate, rate ∈ rates ↔ rate ∈ table ∧
      (0 < acked (s.counted start stop) rate ∨ sent (s.counted start stop) rate < 2)

/-- Every rate outside the table that has an entry, or gets one by a packet counted, has two
packets without an ack. -/
def NoStray (table : List Nat) (s : LossHistory) (start stop : MonotonicTimer) : Prop :=
  s.IsUnavailable start stop ∨
    ∀ rate, rate ∉ table →
      rate ∈ s.records.rateTable ∨ 0 < sent (s.counted start stop) rate →
      acked (s.counted start stop) rate = 0 ∧ 2 ≤ sent (s.counted start stop) rate

/-- Packets are sent at rates of the table. -/
def InTable (table : List Nat) (_ : LossHistory) (input : LossInput) : Prop :=
  ∀ seq status rate time clock, input = .insertPacket seq status rate time clock → rate ∈ table

end LossHistory

/-- What holds in every run. -/
structure LossInv (table : List Nat) (duration : MonotonicTimer) (s : LossHistory) : Prop where
  duration_eq : s.records.duration = duration
  retained : s.records.records = s.retained
  increasing : s.inserted.Pairwise fun p q => p.timer < q.timer
  normal : ∀ p ∈ s.inserted, p.timer.Normal
  entries : ∀ rate ∈ table, rate ∈ s.records.rateTable

/-- What a call does. -/
inductive LossEffect (s : LossHistory) : LossInput → LossHistory → Prop where
  | inserted (seq : Nat) (status : PacketStatus) (rate : Nat) (time clock : MonotonicTimer) :
      LossEffect s (.insertPacket seq status rate time clock) {
        records := { s.records with
          records := List.dropWhile (s.records.isOld time)
            (s.records.records ++ [⟨time, seq, rate, 0, status⟩]) }
        inserted := s.inserted ++ [⟨time, seq, rate, 0, status⟩] }
  | calculated (start stop : MonotonicTimer) (rates : List Nat) (records : LossRecords)
      (h : s.records.Queried rates records) :
      LossEffect s (.calcLossRates start stop rates) { s with records := records }
  | found (start stop : MonotonicTimer) (isLossAvailable : Bool) (records : LossRecords)
      (h : s.records.Queried [] records) :
      LossEffect s (.findSuccessRates start stop isLossAvailable) { s with records := records }

section Steps

variable {table : List Nat} {duration : MonotonicTimer} {s s' : LossHistory} {input : LossInput}

theorem LossHistory.exec_effect (hen : s.enabled table input) (h : s.exec input = .ok s') :
    LossEffect s input s' := by
  cases input with
  | insertPacket seq status rate time clock =>
    obtain ⟨r, hr, h⟩ := bind_eq_ok.mp h
    cases h
    obtain ⟨⟨removed, records⟩, hins, heq⟩ := bind_eq_ok.mp (mapError_eq_ok.mp hr)
    cases heq
    rw [FeedbackRecords.insertPacket_eq hins hen.2.2]
    exact .inserted seq status rate time clock
  | calcLossRates start stop rates =>
    obtain ⟨⟨answer, records⟩, hcalc, h⟩ := bind_eq_ok.mp h
    cases h
    exact .calculated start stop rates records
      (LossRecords.calcLossRates_queried (mapError_eq_ok.mp hcalc))
  | findSuccessRates start stop isLossAvailable =>
    obtain ⟨⟨answer, records⟩, hfind, h⟩ := bind_eq_ok.mp h
    cases h
    exact .found start stop isLossAvailable records
      (LossRecords.findSuccessRates_queried (mapError_eq_ok.mp hfind))

/-- A query keeps the invariant. -/
theorem LossInv.queried (h : LossInv table duration s) {rates : List Nat} {records : LossRecords}
    (hq : s.records.Queried rates records) :
    LossInv table duration { s with records := records } where
  duration_eq := by rw [hq.records_eq, h.duration_eq]
  retained := by
    show records.records = LossHistory.retained ⟨records, s.inserted⟩
    rw [hq.records_eq, h.retained, LossHistory.retained, LossHistory.retained]
    simp only [hq.records_eq]
  increasing := h.increasing
  normal := h.normal
  entries := fun rate hrate => hq.keeps rate (h.entries rate hrate)

/-- The front is cleaned of exactly the packets that do not reach into the new window. -/
theorem LossInv.dropWhile_eq (h : LossInv table duration s) (pkt : PacketInfo)
    (hlater : ∀ p ∈ s.inserted, p.timer < pkt.timer) (hnormal : pkt.timer.Normal) :
    List.dropWhile (s.records.isOld pkt.timer) (s.records.records ++ [pkt]) =
      (s.inserted ++ [pkt]).filter fun p => pkt.timer ≤ p.timer.add s.records.duration := by
  have hincreasing : (s.inserted ++ [pkt]).Pairwise fun p q => p.timer < q.timer := by
    rw [List.pairwise_append]
    refine ⟨h.increasing, List.pairwise_singleton _ _, fun p hp q hq => ?_⟩
    rw [List.mem_singleton.mp hq]
    exact hlater p hp
  have hnormals : ∀ p ∈ s.inserted ++ [pkt], p.timer.Normal := by
    intro p hp
    obtain hp | hp := List.mem_append.mp hp
    · exact h.normal p hp
    · rw [List.mem_singleton.mp hp]
      exact hnormal
  have hsub := s.retained_sublist.append_right [pkt]
  calc List.dropWhile (s.records.isOld pkt.timer) (s.records.records ++ [pkt])
      = List.dropWhile (s.records.isOld pkt.timer) (s.retained ++ [pkt]) := by rw [h.retained]
    _ = (s.retained ++ [pkt]).filter fun p =>
          decide (pkt.timer ≤ p.timer.add s.records.duration) :=
        s.records.dropWhile_isOld pkt.timer (hincreasing.sublist hsub) fun p hp =>
          hnormals p (hsub.subset hp)
    _ = (s.inserted ++ [pkt]).filter fun p =>
          decide (pkt.timer ≤ p.timer.add s.records.duration) := by
        rw [List.filter_append, List.filter_append, s.filter_retained hlater]

theorem LossInv.step (h : LossInv table duration s) (hen : s.enabled table input)
    (heff : LossEffect s input s') : LossInv table duration s' := by
  cases heff with
  | inserted seq status rate time clock =>
    obtain ⟨hlater, hnormal, -⟩ := hen
    refine ⟨h.duration_eq, ?_, ?_, ?_, h.entries⟩
    · rw [h.dropWhile_eq ⟨time, seq, rate, 0, status⟩ hlater hnormal]
      simp [LossHistory.retained]
    · rw [List.pairwise_append]
      refine ⟨h.increasing, List.pairwise_singleton _ _, fun p hp q hq => ?_⟩
      rw [List.mem_singleton.mp hq]
      exact hlater p hp
    · intro p hp
      obtain hp | hp := List.mem_append.mp hp
      · exact h.normal p hp
      · rw [List.mem_singleton.mp hp]
        exact hnormal
  | calculated start stop rates records hq => exact h.queried hq
  | found start stop isLossAvailable records hq => exact h.queried hq

theorem lossMachine_inv {rateArr : List Int}
    (h : (lossMachine rateArr duration).Reachable s) :
    LossInv (rateArr.map LossRecords.tableRate) duration s := by
  refine h.invariant ?_ ?_
  · rintro s rfl
    exact ⟨rfl, rfl, List.Pairwise.nil, fun p hp => absurd hp List.not_mem_nil,
      fun rate hrate => (LossRecords.mem_ofRates rateArr duration rate).mpr hrate⟩
  · intro s input s' _ ih hen hex
    exact ih.step hen (LossHistory.exec_effect hen hex)

end Steps

/-! ### The answers -/

section Answers

variable {table : List Nat} {duration start stop : MonotonicTimer} {s s' : LossHistory}

theorem LossInv.isUnavailable_iff (h : LossInv table duration s) :
    s.records.isUnavailable start stop = true ↔ s.IsUnavailable start stop := by
  rw [FeedbackRecords.isUnavailable, LossHistory.IsUnavailable, h.retained]
  cases hretained : s.retained with
  | nil => simp
  | cons p w => simp [List.getLast?_cons]

/-- The loops see the packets to be counted. -/
theorem LossInv.window_eq (h : LossInv table duration s) (hle : start ≤ stop)
    (hne : s.records.records ≠ []) :
    s.records.window start stop = .ok (s.counted start stop) := by
  have hincreasing : s.records.records.Pairwise fun p q => p.timer < q.timer := by
    rw [h.retained]
    exact h.increasing.sublist s.retained_sublist
  have hsorted : s.records.records.Pairwise fun p q => p.timer ≤ q.timer :=
    hincreasing.imp le_of_lt
  have hbound : ∀ t, s.records.binarySearchRecords t = .ok (s.records.lowerBound t) := fun t =>
    (FeedbackRecords.binarySearchRecords_eq_iff hsorted hne).2.mpr
      (FeedbackRecords.meetsFirst_of_increasing hincreasing)
  rw [FeedbackRecords.window_eq_filter hsorted hle (hbound start) (hbound stop), h.retained,
    LossHistory.counted]

theorem LossInv.calcExact (h : LossInv table duration s) (hle : start ≤ stop)
    (rates : List Nat) : s.CalcExact start stop rates := by
  cases havail : s.records.isUnavailable start stop with
  | true =>
    refine ⟨none, _, LossRecords.calcLossRates_unavailable hle havail rates, ?_, by simp⟩
    simpa using h.isUnavailable_iff.mp havail
  | false =>
    have hw := h.window_eq hle (FeedbackRecords.ne_nil_of_available havail)
    obtain ⟨counts, hcalc, -⟩ := LossRecords.calcLossRates_spec hle havail hw rates
    refine ⟨_, _, hcalc, ?_, by simp⟩
    rw [← h.isUnavailable_iff, havail]
    simp

/-- `FindSuccessRates` answers with rates of the table exactly if no other rate strays into the
answer. -/
theorem LossInv.findExact_iff (h : LossInv table duration s) (hle : start ≤ stop) :
    s.FindExact table start stop ↔ s.NoStray table start stop := by
  cases havail : s.records.isUnavailable start stop with
  | true =>
    have hun := h.isUnavailable_iff.mp havail
    refine iff_of_true ⟨none, _, LossRecords.findSuccessRates_unavailable hle havail false, ?_,
      by simp⟩ (.inl hun)
    simpa using hun
  | false =>
    have hun : ¬s.IsUnavailable start stop := by
      rw [← h.isUnavailable_iff, havail]
      exact Bool.false_ne_true
    have hw := h.window_eq hle (FeedbackRecords.ne_nil_of_available havail)
    obtain ⟨counts, hfind, hentry, hmem⟩ := LossRecords.findSuccessRates_spec hle havail hw
    constructor
    · rintro ⟨answer, records, hanswer, -, hexact⟩
      rw [hfind] at hanswer
      cases hanswer
      refine .inr fun rate hrate hstray => ?_
      have hnot : rate ∉ counts.successRates := fun hin =>
        hrate (((hexact _ rfl).2 rate).mp hin).1
      rw [hmem, hentry, kMinSentCnt] at hnot
      have hfail : ¬(0 < acked (s.counted start stop) rate ∨
          sent (s.counted start stop) rate < 2) := fun hsuccess => hnot ⟨hstray.symm, hsuccess⟩
      omega
    · intro hstray
      refine ⟨_, _, hfind, by simp [hun], ?_⟩
      rintro rates ⟨⟩
      refine ⟨counts.successRates_sorted, fun rate => ?_⟩
      rw [hmem, hentry, kMinSentCnt]
      constructor
      · rintro ⟨hin, hsuccess⟩
        refine ⟨?_, hsuccess⟩
        by_contra hrate
        have hfail := hstray.resolve_left hun rate hrate hin.symm
        omega
      · rintro ⟨hrate, hsuccess⟩
        exact ⟨.inr (h.entries rate hrate), hsuccess⟩

/-- If at most one answer is right, two objects that retain the same packets give the same. -/
theorem LossHistory.Answers.answer_eq {α : Type*}
    {query query' : Except QueryFault (Option α × LossRecords)} {Q Q' : α → Prop}
    (h : s.Answers start stop query Q) (h' : s'.Answers start stop query' Q')
    (hretained : s.retained = s'.retained) (hunique : ∀ a a', Q a → Q' a' → a = a') :
    query.map Prod.fst = query'.map Prod.fst := by
  obtain ⟨answer, records, rfl, hnone, hsome⟩ := h
  obtain ⟨answer', records', rfl, hnone', hsome'⟩ := h'
  have hiff : s.IsUnavailable start stop ↔ s'.IsUnavailable start stop := by
    rw [LossHistory.IsUnavailable, LossHistory.IsUnavailable, hretained]
  have heq : answer = answer' := by
    cases answer with
    | none => exact (hnone'.mpr (hiff.mp (hnone.mp rfl))).symm
    | some a =>
      cases answer' with
      | none => exact hnone.mpr (hiff.mpr (hnone'.mp rfl))
      | some a' => rw [hunique a a' (hsome a rfl) (hsome' a' rfl)]
  rw [heq]
  rfl

theorem LossHistory.retained_eq (hinserted : s.inserted = s'.inserted)
    (hduration : s.records.duration = s'.records.duration) : s.retained = s'.retained := by
  rw [LossHistory.retained, LossHistory.retained, hinserted, hduration]

end Answers

/-! ### Runs at rates of the table -/

/-- No rate outside the table has been inserted or asked for. -/
structure LossInTable (table : List Nat) (s : LossHistory) : Prop where
  entries : ∀ rate ∈ s.records.rateTable, rate ∈ table
  inserted : ∀ p ∈ s.inserted, p.rate ∈ table

section InTable

variable {table : List Nat} {duration : MonotonicTimer} {s s' : LossHistory} {input : LossInput}

theorem LossInTable.queried (h : LossInTable table s) (hinv : LossInv table duration s)
    {rates : List Nat} {records : LossRecords} (hq : s.records.Queried rates records)
    (hrates : ∀ rate ∈ rates, rate ∈ table) : LossInTable table { s with records := records } where
  entries := by
    intro rate hrate
    obtain hold | hasked | ⟨p, hp, rfl⟩ := hq.new rate hrate
    · exact h.entries rate hold
    · exact hrates rate hasked
    · rw [hinv.retained] at hp
      exact h.inserted p (s.retained_sublist.subset hp)
  inserted := h.inserted

theorem LossInTable.step (h : LossInTable table s) (hinv : LossInv table duration s)
    (hen : s.enabled table input) (hin : s.InTable table input) (heff : LossEffect s input s') :
    LossInTable table s' := by
  cases heff with
  | inserted seq status rate time clock =>
    refine ⟨h.entries, fun p hp => ?_⟩
    obtain hp | hp := List.mem_append.mp hp
    · exact h.inserted p hp
    · rw [List.mem_singleton.mp hp]
      exact hin seq status rate time clock rfl
  | calculated start stop rates records hq => exact h.queried hinv hq hen
  | found start stop isLossAvailable records hq =>
    exact h.queried hinv hq fun rate hrate => absurd hrate List.not_mem_nil

theorem LossInTable.noStray (h : LossInTable table s) (start stop : MonotonicTimer) :
    s.NoStray table start stop := by
  refine .inr fun rate hrate hstray => ?_
  obtain hentry | hsent := hstray
  · exact absurd (h.entries rate hentry) hrate
  · obtain ⟨p, hp, rfl⟩ := sent_pos_iff.mp hsent
    exact absurd (h.inserted p (s.retained_sublist.subset (List.mem_of_mem_filter hp))) hrate

variable {rateArr : List Int}

theorem lossMachine_inTable
    (h : ((lossMachine rateArr duration).restrict
      (LossHistory.InTable (rateArr.map LossRecords.tableRate))).Reachable s) :
    LossInTable (rateArr.map LossRecords.tableRate) s := by
  refine h.invariant ?_ ?_
  · rintro s rfl
    exact ⟨fun rate hrate => (LossRecords.mem_ofRates rateArr duration rate).mp hrate,
      fun p hp => absurd hp List.not_mem_nil⟩
  · intro s input s' hr ih hen hex
    exact ih.step (lossMachine_inv hr.of_restrict) hen.1 hen.2
      (LossHistory.exec_effect hen.1 hex)

end InTable

/-- `CalcLossRates` is exact in every run, and `FindSuccessRates` exactly where no rate outside the
table strays into its answer. In a run at rates of the table it always is, and earlier queries
make no difference. -/
theorem lossMachine_exact (rateArr : List Int) (duration : MonotonicTimer) :
    let table := rateArr.map LossRecords.tableRate
    (∀ s, (lossMachine rateArr duration).Reachable s → ∀ start stop, start ≤ stop →
      (∀ rates, s.CalcExact start stop rates) ∧
      (s.FindExact table start stop ↔ s.NoStray table start stop)) ∧
    ∀ s, ((lossMachine rateArr duration).restrict (LossHistory.InTable table)).Reachable s →
      ∀ start stop, start ≤ stop → s.FindExact table start stop ∧
        ∀ s', ((lossMachine rateArr duration).restrict (LossHistory.InTable table)).Reachable s' →
          s'.inserted = s.inserted →
            (∀ rates, (s'.records.calcLossRates start stop rates).map Prod.fst =
              (s.records.calcLossRates start stop rates).map Prod.fst) ∧
            (s'.records.findSuccessRates start stop false).map Prod.fst =
              (s.records.findSuccessRates start stop false).map Prod.fst := by
  intro table
  have hfind : ∀ s, ((lossMachine rateArr duration).restrict
      (LossHistory.InTable table)).Reachable s → ∀ start stop, start ≤ stop →
        s.FindExact table start stop := fun s hs start stop hle =>
    ((lossMachine_inv hs.of_restrict).findExact_iff hle).mpr
      ((lossMachine_inTable hs).noStray start stop)
  refine ⟨fun s hs start stop hle => ?_, fun s hs start stop hle =>
    ⟨hfind s hs start stop hle, fun s' hs' hinserted => ?_⟩⟩
  · have hinv := lossMachine_inv hs
    exact ⟨hinv.calcExact hle, hinv.findExact_iff hle⟩
  · have hinv := lossMachine_inv hs.of_restrict
    have hinv' := lossMachine_inv hs'.of_restrict
    have hretained : s'.retained = s.retained :=
      LossHistory.retained_eq hinserted (hinv'.duration_eq.trans hinv.duration_eq.symm)
    have hcounted : s'.counted start stop = s.counted start stop := by
      rw [LossHistory.counted, LossHistory.counted, hretained]
    constructor
    · intro rates
      refine (hinv'.calcExact hle rates).answer_eq (hinv.calcExact hle rates) hretained ?_
      rintro losses losses' rfl rfl
      rw [hcounted]
    · refine (hfind s' hs' start stop hle).answer_eq (hfind s hs start stop hle) hretained ?_
      rintro rates rates' ⟨hsorted, hmem⟩ ⟨hsorted', hmem'⟩
      apply hsorted.eq_of_mem_iff hsorted'
      intro rate
      rw [hmem, hmem', hcounted]

/-- One acked packet in a history for the rate 60. -/
def oneInserted (rate : Nat) : LossHistory where
  records := { LossRecords.ofRates [60] ⟨2, 0⟩ with
    records := [⟨⟨5, 0⟩, 1, rate, 0, .acked⟩] }
  inserted := [⟨⟨5, 0⟩, 1, rate, 0, .acked⟩]

def insertOne (rate : Nat) : LossInput := .insertPacket 1 .acked rate ⟨5, 0⟩ ⟨5, 0⟩

theorem exec_insertOne (rate : Nat) :
    LossHistory.exec ⟨.ofRates [60] ⟨2, 0⟩, []⟩ (insertOne rate) = .ok (oneInserted rate) := by
  have htime : (⟨5, 0⟩ : MonotonicTimer).getMSec ≠ 0 := by norm_num [MonotonicTimer.getMSec]
  simp only [insertOne, LossHistory.exec, LossRecords.insertPacket, FeedbackRecords.insertPacket,
    if_pos htime]
  rfl

theorem enabled_insertOne (rate : Nat) :
    (lossMachine [60] ⟨2, 0⟩).enabled ⟨.ofRates [60] ⟨2, 0⟩, []⟩ (insertOne rate) :=
  ⟨fun _ hp => absurd hp List.not_mem_nil, by decide, by norm_num [MonotonicTimer.getMSec]⟩

theorem lossMachine_exact_60 : (oneInserted 60).FindExact [60] ⟨5, 0⟩ ⟨6, 0⟩ := by
  have hin : LossHistory.InTable [60] ⟨.ofRates [60] ⟨2, 0⟩, []⟩ (insertOne 60) := by
    intro seq status rate time clock h
    cases h
    decide
  exact ((lossMachine_exact [60] ⟨2, 0⟩).2 (oneInserted 60)
    (.step (.init rfl) ⟨enabled_insertOne 60, hin⟩ (exec_insertOne 60))
    ⟨5, 0⟩ ⟨6, 0⟩ (by decide)).1

/-- A packet at the rate 360 in a history for the rate 60. -/
theorem lossMachine_strayRate : ¬∀ (rateArr : List Int) (duration : MonotonicTimer)
    (s : LossHistory), (lossMachine rateArr duration).Reachable s → ∀ start stop, start ≤ stop →
      s.FindExact (rateArr.map LossRecords.tableRate) start stop := by
  intro h
  have hreach : (lossMachine [60] ⟨2, 0⟩).Reachable (oneInserted 360) :=
    .step (.init rfl) (enabled_insertOne 360) (exec_insertOne 360)
  have hle : (⟨5, 0⟩ : MonotonicTimer) ≤ ⟨6, 0⟩ := by decide
  have hexact := h [60] ⟨2, 0⟩ (oneInserted 360) hreach ⟨5, 0⟩ ⟨6, 0⟩ hle
  obtain hun | hstray := ((lossMachine_inv hreach).findExact_iff hle).mp hexact
  · have havail := (lossMachine_inv hreach).isUnavailable_iff.mpr hun
    exact absurd havail (by decide)
  · have hacked := (hstray 360 (by decide) (.inr (by decide))).1
    exact absurd hacked (by decide)

end WspaceScout
