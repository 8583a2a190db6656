import WspaceScout.Feedback.Threads

/-!
# The order of the feedback history

The history is searched by time, so its records have to be sorted. Statuses leave the raw buffer in
the order in which the packets were sent, but a thread may insert its statuses before another
thread has inserted earlier ones. If each insertion waits for its turn, the history is sorted.

## Main definitions

- `FeedbackState.TimesIncrease` — send times increase with the sequence numbers
- `FeedbackState.Orderly` — the side condition on the steps

## Main results

- `HistoryInv.step` — the step lemma
- `feedbackMachine_sorted` — the history is sorted in runs that meet the side condition
- `feedbackMachine_sorted_overtaken` — a run that does not
-/

namespace WspaceScout

open Foundation

/-- Sent earlier. -/
def RawPktSendStatus.Before (x y : RawPktSendStatus) : Prop :=
  x.seq < y.seq ∧ x.sendTime < y.sendTime

namespace FeedbackState

/-- Send times strictly increase with the sequence numbers. -/
def TimesIncrease (s : FeedbackState) (input : FeedbackInput) : Prop :=
  ∀ rate len sendTime, input = .pushPktStatus rate len sendTime →
    ∀ r ∈ s.sentLog, r.sendTime < sendTime

/-- The side condition: send times increase and are not zero, a full buffer is met only at the end
of a batch, and no thread inserts a record while another one still has an earlier record. -/
structure Orderly (s : FeedbackState) (input : FeedbackInput) : Prop where
  times : s.TimesIncrease input
  nonzero : ∀ rate len sendTime, input = .pushPktStatus rate len sendTime → sendTime.getMSec ≠ 0
  fills : s.FillsAtEnd input
  turn : ∀ who clock, input = .insertFeedback who clock → ∀ other, other ≠ who →
    ∀ x ∈ (s.todo who).head?, ∀ y ∈ s.todo other, x.seq ≤ y.seq

end FeedbackState

/-- The buffer, the threads and the history stand in the order of the packets sent. -/
structure HistoryInv (s : FeedbackState) : Prop where
  nonzero : ∀ r ∈ s.sentLog, r.sendTime.getMSec ≠ 0
  order : s.view.InOrder RawPktSendStatus.Before
  sorted : s.records.records.Pairwise fun p q => p.timer ≤ q.timer
  timers : ∀ p ∈ s.records.records, ∃ x ∈ s.view.done, p.timer = x.sendTime

section Steps

variable {s s' : FeedbackState} {input : FeedbackInput}

theorem FeedOnce.sent (h : FeedOnce s) {who : Feeder} {x : RawPktSendStatus}
    (hx : x ∈ s.view.done ++ s.view.held who ++ s.view.queue) : x ∈ s.sentLog :=
  Multiset.mem_coe.mp (Multiset.mem_of_le h.tracked_le (TakeQueue.mem_tracked hx))

/-- A record that was sent stands before the next one. -/
theorem FeedOnce.before_next (h : FeedOnce s) {rate len : Nat} {sendTime : MonotonicTimer}
    (htimes : s.TimesIncrease (.pushPktStatus rate len sendTime)) {x : RawPktSendStatus}
    (hx : x ∈ s.sentLog) : x.Before (s.next rate len sendTime) := by
  have hseq := (h.numbered.bounds hx).2
  refine ⟨?_, htimes rate len sendTime rfl x hx⟩
  change x.seq < s.rawSeq
  rw [h.rawSeq_eq]
  omega

/-- An insertion appends a time that no record exceeds. -/
theorem HistoryInv.inserted (h : HistoryInv s) (ho : FeedOnce s) {who : Feeder}
    {clock : MonotonicTimer} {r : RawPktSendStatus} {rest : List RawPktSendStatus} {b : Bool}
    {records : FeedbackRecords} (htodo : s.todo who = r :: rest)
    (hins : s.records.insertPacket r.seq r.status.toPacketStatus r.rate r.sendTime clock =
      .ok (b, records)) :
    records.records.Pairwise (fun p q => p.timer ≤ q.timer) ∧
      ∀ p ∈ records.records, ∃ x ∈ s.view.done ++ [r.asSent], p.timer = x.sendTime := by
  have hheld : r.asSent ∈ s.view.held who := by
    change r.asSent ∈ (s.todo who).map RawPktSendStatus.asSent
    rw [htodo]
    exact List.mem_cons_self
  have hsent : r.asSent ∈ s.sentLog :=
    ho.sent (List.mem_append_left _ (List.mem_append_right _ hheld))
  have hsuffix : records.records <:+
      s.records.records ++ [⟨r.sendTime, r.seq, r.rate, 0, r.status.toPacketStatus⟩] := by
    have htime : r.sendTime.getMSec ≠ 0 := h.nonzero r.asSent hsent
    rw [FeedbackRecords.insertPacket_eq hins htime]
    exact List.dropWhile_suffix _
  have hlast : ∀ p ∈ s.records.records, p.timer ≤ r.sendTime := fun p hp => by
    obtain ⟨x, hx, htimer⟩ := h.timers p hp
    have hchain := h.order.chain who
    rw [List.append_assoc, List.pairwise_append] at hchain
    rw [htimer]
    exact MonotonicTimer.le_of_lt (hchain.2.2 x hx _ (List.mem_append_left _ hheld)).2
  refine ⟨List.Pairwise.sublist hsuffix.sublist ?_, fun p hp => ?_⟩
  · -- the new record comes last, and the front is cut off
    refine List.pairwise_append.mpr ⟨h.sorted, List.pairwise_singleton _ _, fun p hp q hq => ?_⟩
    rw [List.mem_singleton.mp hq]
    exact hlast p hp
  · obtain hp | hp := List.mem_append.mp (hsuffix.subset hp)
    · obtain ⟨x, hx, htimer⟩ := h.timers p hp
      exact ⟨x, List.mem_append_left _ hx, htimer⟩
    · refine ⟨r.asSent, List.mem_append_right _ List.mem_cons_self, ?_⟩
      rw [List.mem_singleton.mp hp]
      rfl

/-- The step lemma. -/
theorem HistoryInv.step (h : HistoryInv s) (ho : FeedOnce s) (hord : s.Orderly input)
    (heff : FeedbackEffect s input s') : HistoryInv s' := by
  cases heff with
  | batch n => exact ⟨h.nonzero, h.order, h.sorted, h.timers⟩
  | pushed rate len sendTime out rest s' hidle hout hview hlog hseq hrec hvec =>
    have hheld : s.view.held .sendCodedBatch = [] := congrArg (List.map _) hidle
    have htake := h.order.take hheld hout
    refine ⟨fun r hr => ?_, ?_, hrec ▸ h.sorted, ?_⟩
    · rw [hlog] at hr
      obtain hr | hr := List.mem_append.mp hr
      · exact h.nonzero r hr
      · rw [List.mem_singleton.mp hr]
        exact hord.nonzero rate len sendTime rfl
    · rw [hview]
      refine htake.push fun who x hx => ho.before_next hord.times ?_
      exact Multiset.mem_coe.mp (Multiset.mem_of_le
        ((TakeQueue.tracked_take hheld hout).trans ho.tracked_le) (TakeQueue.mem_tracked hx))
    · rw [hrec, hview]
      exact h.timers
  | took input who out buf hidle hout =>
    have hheld : s.view.held who = [] := congrArg (List.map _) hidle
    refine ⟨h.nonzero, ?_, h.sorted, h.timers⟩
    rw [view_take]
    exact h.order.take hheld hout
  | inserted who clock r rest b records htodo hins =>
    have hheld : s.view.held who = r.asSent :: rest.map RawPktSendStatus.asSent :=
      congrArg (List.map _) htodo
    obtain ⟨hsorted, htimers⟩ := h.inserted ho htodo hins
    refine ⟨h.nonzero, ?_, hsorted, ?_⟩
    · rw [view_finish]
      -- it is this thread's turn: no other one holds an earlier status
      refine h.order.finish hheld fun other hne y hy hbefore => ?_
      obtain ⟨y, hin, rfl⟩ := List.mem_map.mp hy
      have hle := hord.turn who clock rfl other hne r (by rw [htodo]; rfl) y hin
      exact absurd hbefore.1 (Nat.not_lt.mpr hle)
    · rw [view_finish]
      exact htimers

theorem historyInv_init (duration : MonotonicTimer) : HistoryInv (.init duration) :=
  ⟨fun _ hr => (List.not_mem_nil hr).elim, ⟨fun _ => .nil, fun _ _ _ => .inl nofun⟩, .nil,
    fun _ hp => (List.not_mem_nil hp).elim⟩

/-- In a run in which every insertion waits for its turn, the history is sorted by time. -/
theorem feedbackMachine_sorted
    (h : (feedbackMachine.restrict FeedbackState.Orderly).Reachable s) :
    s.records.records.Pairwise fun p q => p.timer ≤ q.timer := by
  have hs : HistoryInv s := by
    refine h.invariant ?_ fun s input s' hr hs hen hexec => ?_
    · rintro s ⟨duration, rfl⟩
      exact historyInv_init duration
    · have ho := feedOnce_of_reachable (fun _ _ hP => hP.fills) hr
      exact hs.step ho hen.2 (ho.effect hen.2.fills hen.1 hexec)
  exact hs.sorted

theorem getMSec_ne_zero {time : MonotonicTimer} (hsec : 0 < time.tvSec) (hnsec : 0 ≤ time.tvNsec) :
    time.getMSec ≠ 0 := by
  have h1 : (0 : ℚ) < time.tvSec := by exact_mod_cast hsec
  have h2 : (0 : ℚ) ≤ time.tvNsec := by exact_mod_cast hnsec
  unfold MonotonicTimer.getMSec
  positivity

/-- An insertion by the only thread that has statuses. -/
theorem FeedbackState.Orderly.alone {who : Feeder} {clock : MonotonicTimer}
    (h : ∀ other, other ≠ who → s.todo other = []) : s.Orderly (.insertFeedback who clock) := by
  constructor
  · intro _ _ _ heq
    cases heq
  · intro _ _ _ heq
    cases heq
  · intro _ _ _ heq
    cases heq
  · intro who' _ heq other hne x _ y hy
    cases heq
    rw [h other hne] at hy
    exact (List.not_mem_nil hy).elim

/-- A batch of two, flushed by a timeout and inserted in order. -/
theorem feedbackMachine_sorted_flushed :
    ∃ s, (feedbackMachine.restrict FeedbackState.Orderly).Reachable s ∧
      s.inserted.map RawPktSendStatus.seq = [1, 2] ∧
      s.records.records.Pairwise fun p q => p.timer ≤ q.timer := by
  have h0 : (feedbackMachine.restrict FeedbackState.Orderly).Reachable (.init ⟨2, 0⟩) :=
    .init ⟨_, rfl⟩
  have h1 := feedback_batch h0 2 rfl rfl ⟨nofun, nofun, nofun, nofun⟩
  have h2 := feedback_push h1 110 100 ⟨1, 0⟩ (by decide) rfl (by decide)
    ⟨fun _ _ _ _ r hr => (List.not_mem_nil hr).elim,
      fun _ _ _ h => by cases h; exact getMSec_ne_zero (by decide) (by decide),
      fun _ _ _ _ => ⟨by decide, nofun⟩, nofun⟩
  have h3 := feedback_push h2 110 100 ⟨1, 30⟩ (by decide) rfl (by decide)
    ⟨fun _ _ _ h r hr => by cases h; rw [List.mem_singleton.mp hr]; decide,
      fun _ _ _ h => by cases h; exact getMSec_ne_zero (by decide) (by decide),
      fun _ _ _ _ => ⟨by decide, nofun⟩, nofun⟩
  have h4 := feedback_clear h3 rfl ⟨nofun, nofun, nofun, nofun⟩
  obtain ⟨_, _, -, h5⟩ := feedback_insert h4 .handleTimeOut ⟨1, 90⟩ rfl nofun
    (.alone fun other hne => by cases other <;> first | rfl | exact absurd rfl hne)
  obtain ⟨_, _, -, h6⟩ := feedback_insert h5 .handleTimeOut ⟨1, 90⟩ rfl nofun
    (.alone fun other hne => by cases other <;> first | rfl | exact absurd rfl hne)
  exact ⟨_, h6, rfl, feedbackMachine_sorted h6⟩

/-- The raw ack thread takes the status of packet `1` out of the buffer; before it inserts it, a
timeout takes out packet `2` and inserts that. -/
theorem feedbackMachine_sorted_overtaken :
    ∃ s, (feedbackMachine.restrict FeedbackState.TimesIncrease).Reachable s ∧
      ¬s.records.records.Pairwise fun p q => p.timer ≤ q.timer := by
  have h0 : (feedbackMachine.restrict FeedbackState.TimesIncrease).Reachable (.init ⟨2, 0⟩) :=
    .init ⟨_, rfl⟩
  have h1 := feedback_batch h0 2 rfl rfl nofun
  have h2 := feedback_push h1 110 100 ⟨1, 0⟩ (by decide) rfl (by decide)
    fun _ _ _ _ r hr => (List.not_mem_nil hr).elim
  have h3 := feedback_push h2 110 100 ⟨1, 30⟩ (by decide) rfl (by decide)
    fun _ _ _ h r hr => by cases h; rw [List.mem_singleton.mp hr]; decide
  -- two threads hold one status each, and the later one is inserted first
  have h4 := feedback_pop h3 ⟨1, 1, []⟩ rfl rfl nofun
  have h5 := feedback_clear h4 rfl nofun
  obtain ⟨_, f, hf, h6⟩ := feedback_insert h5 .handleTimeOut ⟨1, 90⟩ rfl nofun nofun
  obtain ⟨_, g, hg, h7⟩ := feedback_insert h6 .txHandleRawAck ⟨1, 91⟩ rfl nofun nofun
  refine ⟨_, h7, ?_⟩
  have hf' := FeedbackRecords.insertPacket_eq hf (getMSec_ne_zero (by decide) (by decide))
  have hg' := FeedbackRecords.insertPacket_eq hg (getMSec_ne_zero (by decide) (by decide))
  subst hf'
  subst hg'
  decide

end Steps

end WspaceScout
