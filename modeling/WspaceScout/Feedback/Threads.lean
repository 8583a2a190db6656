import WspaceScout.Feedback.FeedbackRecords
import WspaceScout.Foundation.Consecutive
import WspaceScout.Foundation.Machine
import WspaceScout.Foundation.TakeQueue

/-!
# Three threads feed one history

`SendCodedBatch`, `TxHandleRawAck` and `HandleTimeOut` take statuses out of the raw buffer, each
under the lock of the buffer, and then insert them one at a time into the feedback history, under
another lock. `SendCodedBatch` uses one vector for all packets of a batch, and `PushPktStatus`
writes to it only if the buffer is full, so what a full buffer has left there is inserted again for
every later packet of the batch.

## Main definitions

- `feedbackMachine` — the threads, step by step
- `FeedbackState.view` — the buffer as a queue that the threads take from
- `FeedbackState.FillsAtEnd` — the side condition on pushes

## Main results

- `FeedOnce.effect` — what a step does, seen as an operation of the queue
- `FeedOnce.step` — the step lemma: what is tracked has been sent once
- `feedbackMachine_once` — at most one insertion per packet in runs that meet the side condition
- `feedbackMachine_once_refilled` — a run that does not
-/

namespace WspaceScout

open Foundation

/-- The threads that insert feedback for a client. -/
inductive Feeder where
  | sendCodedBatch
  | txHandleRawAck
  | handleTimeOut
  deriving DecidableEq, Repr

instance : Fintype Feeder :=
  ⟨{.sendCodedBatch, .txHandleRawAck, .handleTimeOut}, fun who => by cases who <;> decide⟩

/-- The raw buffer, the history and the locals of the threads. `left` and `statusVec` belong to
`SendCodedBatch`: the packets of the batch that it has yet to push, and its vector. `todo` is what
the loop of `InsertFeedback` has yet to pass on in each thread. The logs are for the proofs. -/
structure FeedbackState where
  rawSeq : Nat
  buf : TxRawBuf
  left : Nat
  statusVec : List RawPktSendStatus
  todo : Feeder → List RawPktSendStatus
  records : FeedbackRecords
  sentLog : List RawPktSendStatus
  inserted : List RawPktSendStatus

/-- One step of one thread. -/
inductive FeedbackInput where
  | sendCodedBatch (n : Nat)
  | pushPktStatus (rate len : Nat) (sendTime : MonotonicTimer)
  | popPktStatus (ack : RawAck)
  | clearPktStatus
  | insertFeedback (who : Feeder) (clock : MonotonicTimer)

/-- The state of a fresh client context. -/
def FeedbackState.init (duration : MonotonicTimer) : FeedbackState :=
  ⟨1, ⟨[]⟩, 0, [], fun _ => [], ⟨duration, []⟩, [], []⟩

/-- A thread goes on when its loop over the statuses has ended, and the next batch begins when the
packets of the last one have been pushed. -/
def enabledFeedback (s : FeedbackState) : FeedbackInput → Prop
  | .sendCodedBatch _ => s.left = 0 ∧ s.todo .sendCodedBatch = []
  | .pushPktStatus _ _ _ => 0 < s.left ∧ s.todo .sendCodedBatch = []
  | .popPktStatus _ => s.todo .txHandleRawAck = []
  | .clearPktStatus => s.todo .handleTimeOut = []
  | .insertFeedback who _ => s.todo who ≠ []

/-- The effect of a step. -/
def execFeedback (s : FeedbackState) : FeedbackInput → Except RawFault FeedbackState
  | .sendCodedBatch n => .ok { s with left := n, statusVec := [] }
  | .pushPktStatus rate len sendTime =>
    let r : RawPktSendStatus := ⟨s.rawSeq, rate, len, .unknown, sendTime⟩
    let (statusVec, buf) := s.buf.pushPktStatus s.statusVec r
    .ok { s with
      rawSeq := uint32 (s.rawSeq + 1)
      buf := buf
      left := s.left - 1
      statusVec := statusVec
      todo := Function.update s.todo .sendCodedBatch statusVec
      sentLog := s.sentLog ++ [r] }
  | .popPktStatus ack =>
    match s.buf.popPktStatus ack with
    | .error e => .error e
    | .ok (out, buf) =>
      .ok { s with buf := buf, todo := Function.update s.todo .txHandleRawAck out }
  | .clearPktStatus =>
    .ok { s with
      buf := s.buf.clearPktStatus.2
      todo := Function.update s.todo .handleTimeOut s.buf.clearPktStatus.1 }
  | .insertFeedback who clock =>
    match s.todo who with
    | [] => .ok s
    | r :: rest =>
      match s.records.insertPacket r.seq r.status.toPacketStatus r.rate r.sendTime clock with
      | .error e => .error e
      | .ok (_, records) =>
        .ok { s with
          todo := Function.update s.todo who rest
          records := records
          inserted := s.inserted ++ [r] }

/-- The three threads of one client. -/
def feedbackMachine : Machine FeedbackState FeedbackInput RawFault where
  init s := ∃ duration, s = .init duration
  enabled := enabledFeedback
  exec := execFeedback

/-! ### One step -/

namespace FeedbackState

/-- The record of the next packet. -/
def next (s : FeedbackState) (rate len : Nat) (sendTime : MonotonicTimer) : RawPktSendStatus :=
  ⟨s.rawSeq, rate, len, .unknown, sendTime⟩

/-- The raw buffer as a queue that the threads take from. -/
def view (s : FeedbackState) : TakeQueue Feeder RawPktSendStatus where
  done := s.inserted.map RawPktSendStatus.asSent
  held who := (s.todo who).map RawPktSendStatus.asSent
  queue := s.buf.sent

/-- The buffer is full only when the last packet of a batch is pushed, and the numbers do not
wrap. -/
def FillsAtEnd (s : FeedbackState) (input : FeedbackInput) : Prop :=
  ∀ rate len sendTime, input = .pushPktStatus rate len sendTime →
    s.rawSeq < 4294967295 ∧ (s.buf.isFull = true → s.left = 1)

end FeedbackState

/-- What a step does to the queue, the records and the log. -/
inductive FeedbackEffect (s : FeedbackState) : FeedbackInput → FeedbackState → Prop where
  | batch (n : Nat) : FeedbackEffect s (.sendCodedBatch n) { s with left := n, statusVec := [] }
  | pushed (rate len : Nat) (sendTime : MonotonicTimer) (out rest : List RawPktSendStatus)
      (s' : FeedbackState) : s.todo .sendCodedBatch = [] → (out ++ rest).Sublist s.buf.sent →
      s'.view = (s.view.take .sendCodedBatch out rest).push (s.next rate len sendTime) →
      s'.sentLog = s.sentLog ++ [s.next rate len sendTime] → s'.rawSeq = s.rawSeq + 1 →
      s'.records = s.records → (0 < s'.left → s'.statusVec = []) →
      FeedbackEffect s (.pushPktStatus rate len sendTime) s'
  | took (input : FeedbackInput) (who : Feeder) (out : List RawPktSendStatus) (buf : TxRawBuf) :
      s.todo who = [] → (out.map RawPktSendStatus.asSent ++ buf.sent).Sublist s.buf.sent →
      FeedbackEffect s input { s with buf := buf, todo := Function.update s.todo who out }
  | inserted (who : Feeder) (clock : MonotonicTimer) (r : RawPktSendStatus)
      (rest : List RawPktSendStatus) (b : Bool) (records : FeedbackRecords) :
      s.todo who = r :: rest →
      s.records.insertPacket r.seq r.status.toPacketStatus r.rate r.sendTime clock =
        .ok (b, records) →
      FeedbackEffect s (.insertFeedback who clock) { s with
        todo := Function.update s.todo who rest
        records := records
        inserted := s.inserted ++ [r] }

/-- Whatever is tracked was sent, once, and the packets sent are numbered from `1`. -/
structure FeedOnce (s : FeedbackState) : Prop where
  statusVec : 0 < s.left → s.statusVec = []
  tracked_le : s.view.tracked ≤ (s.sentLog : Multiset RawPktSendStatus)
  numbered : Consecutive RawPktSendStatus.seq 1 s.sentLog
  rawSeq_eq : s.rawSeq = s.sentLog.length + 1

section Steps

variable {s s' : FeedbackState} {input : FeedbackInput}

/-- `asSent` and an update of one thread. -/
theorem map_update_todo (todo : Feeder → List RawPktSendStatus) (who : Feeder)
    (l : List RawPktSendStatus) :
    (fun i => (Function.update todo who l i).map RawPktSendStatus.asSent) =
      Function.update (fun i => (todo i).map RawPktSendStatus.asSent) who
        (l.map RawPktSendStatus.asSent) :=
  funext fun i => Function.apply_update (fun _ l => l.map RawPktSendStatus.asSent) todo who l i

theorem view_take (s : FeedbackState) (who : Feeder) (out : List RawPktSendStatus)
    (buf : TxRawBuf) :
    FeedbackState.view { s with buf := buf, todo := Function.update s.todo who out } =
      s.view.take who (out.map RawPktSendStatus.asSent) buf.sent :=
  congrArg (TakeQueue.mk _ · _) (map_update_todo s.todo who out)

theorem view_finish (s : FeedbackState) (who : Feeder) (r : RawPktSendStatus)
    (rest : List RawPktSendStatus) (records : FeedbackRecords) :
    FeedbackState.view { s with
      todo := Function.update s.todo who rest
      records := records
      inserted := s.inserted ++ [r] } =
      s.view.finish who r.asSent (rest.map RawPktSendStatus.asSent) :=
  congrArg₂ (TakeQueue.mk · · _) List.map_append (map_update_todo s.todo who rest)

/-- A push inside a batch takes nothing unless the buffer is full, and then the whole buffer. -/
theorem FeedOnce.pushed {rate len : Nat} {sendTime : MonotonicTimer} (h : FeedOnce s)
    (hfill : s.FillsAtEnd (.pushPktStatus rate len sendTime))
    (hen : enabledFeedback s (.pushPktStatus rate len sendTime))
    (hexec : execFeedback s (.pushPktStatus rate len sendTime) = .ok s') :
    FeedbackEffect s (.pushPktStatus rate len sendTime) s' := by
  obtain ⟨hleft, hidle⟩ := hen
  obtain ⟨hseq, hlast⟩ := hfill rate len sendTime rfl
  have hvec := h.statusVec hleft
  have hnext : uint32 (s.rawSeq + 1) = s.rawSeq + 1 := uint32_of_lt (by omega)
  by_cases hfull : s.buf.isFull = true
  · -- the whole buffer is taken, and this is the last push of the batch
    simp only [execFeedback, TxRawBuf.pushPktStatus, if_pos hfull, Except.ok.injEq] at hexec
    subst hexec
    refine .pushed rate len sendTime s.buf.sent [] _ hidle ?_ ?_ rfl hnext rfl fun hpos => ?_
    · rw [List.append_nil]
    · rw [← s.buf.clearPktStatus_sent]
      exact congrArg (TakeQueue.mk _ · _) (map_update_todo s.todo _ _)
    · have := hlast hfull
      change 0 < s.left - 1 at hpos
      omega
  · simp only [execFeedback, TxRawBuf.pushPktStatus, if_neg hfull, Except.ok.injEq] at hexec
    subst hexec
    refine .pushed rate len sendTime [] s.buf.sent _ hidle (.refl _) ?_ rfl hnext rfl
      fun _ => hvec
    rw [hvec]
    exact congrArg₂ (TakeQueue.mk _) (map_update_todo s.todo _ _) List.map_append

/-- What a step does, if pushes meet the side condition. -/
theorem FeedOnce.effect (h : FeedOnce s) (hfill : s.FillsAtEnd input)
    (hen : enabledFeedback s input) (hexec : execFeedback s input = .ok s') :
    FeedbackEffect s input s' := by
  cases input with
  | sendCodedBatch n =>
    cases hexec
    exact .batch n
  | pushPktStatus rate len sendTime => exact h.pushed hfill hen hexec
  | popPktStatus ack =>
    simp only [execFeedback] at hexec
    split at hexec
    · cases hexec
    · rename_i out buf hpop
      cases hexec
      -- what stays behind a prefix of the buffer is no more than the buffer
      obtain ⟨k, hk⟩ := TxRawBuf.popPktStatus_sent hpop
      exact .took _ _ out buf hen (hk ▸ List.drop_sublist k _)
  | clearPktStatus =>
    cases hexec
    have hnil : s.buf.sent ++ s.buf.clearPktStatus.2.sent = s.buf.sent := List.append_nil _
    exact .took _ _ _ _ hen (by rw [TxRawBuf.clearPktStatus_sent, hnil])
  | insertFeedback who clock =>
    simp only [execFeedback] at hexec
    split at hexec
    · rename_i hnil
      exact absurd hnil hen
    · rename_i r rest htodo
      split at hexec
      · cases hexec
      · rename_i b records hins
        cases hexec
        exact .inserted who clock r rest b records htodo hins

/-- The step lemma. -/
theorem FeedOnce.step (h : FeedOnce s) (heff : FeedbackEffect s input s') : FeedOnce s' := by
  cases heff with
  | batch n => exact ⟨fun _ => rfl, h.tracked_le, h.numbered, h.rawSeq_eq⟩
  | pushed rate len sendTime out rest s' hidle hout hview hlog hseq _ hvec =>
    have hheld : s.view.held .sendCodedBatch = [] := congrArg (List.map _) hidle
    refine ⟨hvec, ?_, ?_, ?_⟩
    · rw [hview, hlog, TakeQueue.tracked_push, ← Multiset.coe_add, Multiset.coe_singleton]
      exact add_le_add_left ((TakeQueue.tracked_take hheld hout).trans h.tracked_le) _
    · rw [hlog]
      exact h.numbered.snoc (h.rawSeq_eq.trans (Nat.add_comm _ _))
    · rw [hseq, hlog, List.length_append, h.rawSeq_eq]
      rfl
  | took input who out buf hidle hout =>
    have hheld : s.view.held who = [] := congrArg (List.map _) hidle
    refine ⟨h.statusVec, ?_, h.numbered, h.rawSeq_eq⟩
    rw [view_take]
    exact (TakeQueue.tracked_take hheld hout).trans h.tracked_le
  | inserted who clock r rest b records htodo _ =>
    have hheld : s.view.held who = r.asSent :: rest.map RawPktSendStatus.asSent :=
      congrArg (List.map _) htodo
    refine ⟨h.statusVec, ?_, h.numbered, h.rawSeq_eq⟩
    rw [view_finish, TakeQueue.tracked_finish hheld]
    exact h.tracked_le

theorem feedOnce_init (duration : MonotonicTimer) : FeedOnce (.init duration) :=
  ⟨fun _ => rfl, Multiset.zero_le _, .nil _ _, rfl⟩

/-- The run lemma. -/
theorem feedOnce_of_reachable {P : FeedbackState → FeedbackInput → Prop}
    (hP : ∀ s input, P s input → s.FillsAtEnd input)
    (h : (feedbackMachine.restrict P).Reachable s) : FeedOnce s := by
  refine h.invariant ?_ fun s input s' _ hs hen hexec =>
    hs.step (hs.effect (hP _ _ hen.2) hen.1 hexec)
  rintro s ⟨duration, rfl⟩
  exact feedOnce_init duration

/-! ### Runs -/

variable {P : FeedbackState → FeedbackInput → Prop}

theorem feedback_batch (h : (feedbackMachine.restrict P).Reachable s) (n : Nat) (hleft : s.left = 0)
    (hidle : s.todo .sendCodedBatch = []) (hP : P s (.sendCodedBatch n)) :
    (feedbackMachine.restrict P).Reachable { s with left := n, statusVec := [] } :=
  .step (i := .sendCodedBatch n) h ⟨⟨hleft, hidle⟩, hP⟩ rfl

/-- A push that finds room inserts what an earlier push of the batch has left in the vector. -/
theorem feedback_push (h : (feedbackMachine.restrict P).Reachable s) (rate len : Nat)
    (sendTime : MonotonicTimer) (hleft : 0 < s.left) (hidle : s.todo .sendCodedBatch = [])
    (hroom : s.buf.infoDeq.length < kMaxRawBufSize) (hP : P s (.pushPktStatus rate len sendTime)) :
    (feedbackMachine.restrict P).Reachable { s with
      rawSeq := uint32 (s.rawSeq + 1)
      buf := ⟨s.buf.infoDeq ++ [s.next rate len sendTime]⟩
      left := s.left - 1
      todo := Function.update s.todo .sendCodedBatch s.statusVec
      sentLog := s.sentLog ++ [s.next rate len sendTime] } := by
  have hnot : ¬s.buf.isFull = true := by simpa [TxRawBuf.isFull] using hroom
  refine .step (i := .pushPktStatus rate len sendTime) h ⟨⟨hleft, hidle⟩, hP⟩ ?_
  simp only [feedbackMachine, Machine.restrict, execFeedback, TxRawBuf.pushPktStatus, if_neg hnot]
  rfl

theorem feedback_push_full (h : (feedbackMachine.restrict P).Reachable s) (rate len : Nat)
    (sendTime : MonotonicTimer) (hleft : 0 < s.left) (hidle : s.todo .sendCodedBatch = [])
    (hfull : kMaxRawBufSize ≤ s.buf.infoDeq.length) (hP : P s (.pushPktStatus rate len sendTime)) :
    (feedbackMachine.restrict P).Reachable { s with
      rawSeq := uint32 (s.rawSeq + 1)
      buf := ⟨[s.next rate len sendTime]⟩
      left := s.left - 1
      statusVec := s.buf.clearPktStatus.1
      todo := Function.update s.todo .sendCodedBatch s.buf.clearPktStatus.1
      sentLog := s.sentLog ++ [s.next rate len sendTime] } := by
  have hyes : s.buf.isFull = true := by simpa [TxRawBuf.isFull] using hfull
  refine .step (i := .pushPktStatus rate len sendTime) h ⟨⟨hleft, hidle⟩, hP⟩ ?_
  simp only [feedbackMachine, Machine.restrict, execFeedback, TxRawBuf.pushPktStatus, if_pos hyes]
  rfl

theorem feedback_clear (h : (feedbackMachine.restrict P).Reachable s)
    (hidle : s.todo .handleTimeOut = []) (hP : P s .clearPktStatus) :
    (feedbackMachine.restrict P).Reachable { s with
      buf := ⟨[]⟩
      todo := Function.update s.todo .handleTimeOut s.buf.clearPktStatus.1 } :=
  .step (i := .clearPktStatus) h ⟨hidle, hP⟩ rfl

theorem feedback_pop (h : (feedbackMachine.restrict P).Reachable s) (ack : RawAck)
    {out : List RawPktSendStatus} {buf : TxRawBuf} (hidle : s.todo .txHandleRawAck = [])
    (hpop : s.buf.popPktStatus ack = .ok (out, buf)) (hP : P s (.popPktStatus ack)) :
    (feedbackMachine.restrict P).Reachable { s with
      buf := buf
      todo := Function.update s.todo .txHandleRawAck out } := by
  refine .step (i := .popPktStatus ack) h ⟨hidle, hP⟩ ?_
  simp only [feedbackMachine, Machine.restrict, execFeedback, hpop]

theorem feedback_insert (h : (feedbackMachine.restrict P).Reachable s) (who : Feeder)
    {r : RawPktSendStatus} {rest : List RawPktSendStatus} (clock : MonotonicTimer)
    (htodo : s.todo who = r :: rest) (hknown : r.status ≠ .unknown)
    (hP : P s (.insertFeedback who clock)) :
    ∃ b records, s.records.insertPacket r.seq r.status.toPacketStatus r.rate r.sendTime clock =
      .ok (b, records) ∧ (feedbackMachine.restrict P).Reachable { s with
        todo := Function.update s.todo who rest
        records := records
        inserted := s.inserted ++ [r] } := by
  obtain ⟨⟨b, records⟩, hins⟩ := s.records.insertPacket_legal r.seq r.rate r.sendTime clock
    (RawStatus.toPacketStatus_isLegal hknown)
  refine ⟨b, records, hins, .step (i := .insertFeedback who clock) h ⟨?_, hP⟩ ?_⟩
  · change s.todo who ≠ []
    rw [htodo]
    exact List.cons_ne_nil _ _
  · simp only [feedbackMachine, Machine.restrict, execFeedback, htodo, hins]

/-- A thread inserts all that it has. -/
theorem feedback_insert_all {l : List RawPktSendStatus}
    (h : (feedbackMachine.restrict P).Reachable s) (who : Feeder) (htodo : s.todo who = l)
    (hknown : ∀ r ∈ l, r.status ≠ .unknown) (hP : ∀ s clock, P s (.insertFeedback who clock)) :
    ∃ records, (feedbackMachine.restrict P).Reachable { s with
      todo := Function.update s.todo who []
      records := records
      inserted := s.inserted ++ l } := by
  induction l generalizing s with
  | nil =>
    have hsame : Function.update s.todo who [] = s.todo :=
      htodo ▸ Function.update_eq_self who s.todo
    refine ⟨s.records, ?_⟩
    rwa [hsame, List.append_nil]
  | cons r rest ih =>
    obtain ⟨_, records, -, hr⟩ :=
      feedback_insert h who ⟨0, 0⟩ htodo (hknown r List.mem_cons_self) (hP _ _)
    obtain ⟨records', hrest⟩ := ih hr (Function.update_self who rest s.todo)
      fun r hr => hknown r (List.mem_cons_of_mem _ hr)
    refine ⟨records', ?_⟩
    simpa only [Function.update_idem, List.append_assoc, List.singleton_append] using hrest

/-! ### A full buffer -/

/-- A restriction that lets batches fill the buffer and lets threads insert. -/
structure LetsFill (P : FeedbackState → FeedbackInput → Prop) : Prop where
  batch : ∀ s n, P s (.sendCodedBatch n)
  push : ∀ s rate len sendTime, s.rawSeq < 4294967295 → s.buf.infoDeq.length < kMaxRawBufSize →
    P s (.pushPktStatus rate len sendTime)
  insert : ∀ s who clock, P s (.insertFeedback who clock)

/-- Nothing has been inserted, all `n` packets sent so far are in the buffer, and `left` more
belong to the batch. -/
structure RawFilled (left n : Nat) (s : FeedbackState) : Prop where
  left : s.left = left
  statusVec : s.statusVec = []
  todo : ∀ who, s.todo who = []
  inserted : s.inserted = []
  rawSeq : s.rawSeq = n + 1
  length : s.buf.infoDeq.length = n

/-- A push has taken the full buffer, all of it is inserted, and `left` more packets belong to the
batch. -/
structure RawFlushed (left : Nat) (s : FeedbackState) : Prop where
  left : s.left = left
  statusVec : s.statusVec = s.inserted
  todo : s.todo .sendCodedBatch = []
  rawSeq : s.rawSeq = kMaxRawBufSize + 2
  inserted : s.inserted.length = kMaxRawBufSize
  known : ∀ r ∈ s.inserted, r.status ≠ .unknown
  length : s.buf.infoDeq.length = 1

theorem rawFilled_push {left n : Nat} (hP : LetsFill P)
    (h : (feedbackMachine.restrict P).Reachable s) (hs : RawFilled (left + 1) n s)
    (hn : n < kMaxRawBufSize) :
    ∃ s', (feedbackMachine.restrict P).Reachable s' ∧ RawFilled left (n + 1) s' := by
  have hmax : kMaxRawBufSize = 4000 := rfl
  have hroom : s.buf.infoDeq.length < kMaxRawBufSize := by rw [hs.length]; exact hn
  have hr := feedback_push h 110 100 ⟨s.rawSeq, 0⟩ (by rw [hs.left]; omega) (hs.todo _) hroom
    (hP.push _ _ _ _ (by rw [hs.rawSeq]; omega) hroom)
  refine ⟨_, hr, ?_, hs.statusVec, fun who => ?_, hs.inserted, ?_, ?_⟩
  · change s.left - 1 = left
    rw [hs.left]
    rfl
  · change Function.update s.todo .sendCodedBatch s.statusVec who = []
    rw [hs.statusVec, ← hs.todo .sendCodedBatch, Function.update_eq_self]
    exact (hs.todo who).trans (hs.todo _).symm
  · change uint32 (s.rawSeq + 1) = n + 1 + 1
    rw [hs.rawSeq, uint32_of_lt (by omega)]
  · rw [List.length_append, hs.length]
    rfl

/-- Batches of two fill the buffer. -/
theorem rawFilled_batches {m : Nat} (hP : LetsFill P) (hm : 2 * m ≤ kMaxRawBufSize) :
    ∃ s, (feedbackMachine.restrict P).Reachable s ∧ RawFilled 0 (2 * m) s := by
  induction m with
  | zero =>
    exact ⟨.init ⟨2, 0⟩, .init ⟨_, rfl⟩, rfl, rfl, fun _ => rfl, rfl, rfl, rfl⟩
  | succ m ih =>
    obtain ⟨s, hr, hs⟩ := ih (by omega)
    have hb := feedback_batch hr 2 hs.left (hs.todo _) (hP.batch s 2)
    have hbs : RawFilled 2 (2 * m) { s with left := 2, statusVec := [] } :=
      ⟨rfl, rfl, hs.todo, hs.inserted, hs.rawSeq, hs.length⟩
    obtain ⟨s1, hr1, hs1⟩ := rawFilled_push hP hb hbs (by omega)
    obtain ⟨s2, hr2, hs2⟩ := rawFilled_push hP hr1 hs1 (by omega)
    exact ⟨s2, hr2, hs2⟩

/-- No ack comes while batches of two fill the buffer, and the first packet of the next batch
clears it. -/
theorem rawFlushed_batch (left : Nat) (hP : LetsFill P)
    (hfull : ∀ s rate len sendTime, s.rawSeq < 4294967295 → s.left = left + 1 →
      P s (.pushPktStatus rate len sendTime)) :
    ∃ s, (feedbackMachine.restrict P).Reachable s ∧ RawFlushed left s := by
  obtain ⟨s, hr, hs⟩ := rawFilled_batches hP (show 2 * 2000 ≤ kMaxRawBufSize by decide)
  have h1 := feedback_batch hr (left + 1) hs.left (hs.todo _) (hP.batch s _)
  have h2 := feedback_push_full h1 110 100 ⟨4001, 0⟩ left.succ_pos (hs.todo _)
    (Nat.le_of_eq hs.length.symm) (hfull _ _ _ _ (by
      change s.rawSeq < _
      rw [hs.rawSeq]
      decide) rfl)
  have hknown : ∀ r ∈ s.buf.clearPktStatus.1, r.status ≠ .unknown := fun r hr => by
    obtain ⟨_, -, rfl⟩ := List.mem_map.mp hr
    intro hst
    cases hst
  obtain ⟨records, h3⟩ := feedback_insert_all (l := s.buf.clearPktStatus.1) h2 .sendCodedBatch rfl
    hknown fun _ => hP.insert _ _
  have hins : s.inserted ++ s.buf.clearPktStatus.1 = s.buf.clearPktStatus.1 := by
    rw [hs.inserted, List.nil_append]
  refine ⟨_, h3, rfl, hins.symm, rfl, ?_, ?_, ?_, rfl⟩
  · change uint32 (s.rawSeq + 1) = kMaxRawBufSize + 2
    rw [hs.rawSeq]
    rfl
  · change (s.inserted ++ s.buf.clearPktStatus.1).length = kMaxRawBufSize
    rw [hins, TxRawBuf.clearPktStatus, List.length_map, hs.length]
    rfl
  · exact hins.symm ▸ hknown

theorem letsFill_fillsAtEnd : LetsFill FeedbackState.FillsAtEnd where
  batch _ _ _ _ _ h := by cases h
  push s _ _ _ hseq hroom _ _ _ _ := by
    refine ⟨hseq, fun hfull => absurd hroom (Nat.not_lt.mpr ?_)⟩
    simpa [TxRawBuf.isFull] using hfull
  insert _ _ _ _ _ _ h := by cases h

/-! ### At most one insertion -/

/-- In a run in which the buffer is full only when the last packet of a batch is pushed, each raw
sequence number is inserted at most once. -/
theorem feedbackMachine_once
    (h : (feedbackMachine.restrict FeedbackState.FillsAtEnd).Reachable s) :
    (s.inserted.map RawPktSendStatus.seq).Nodup := by
  have hs := feedOnce_of_reachable (fun _ _ hP => hP) h
  have hle : (s.inserted.map RawPktSendStatus.asSent : Multiset _) ≤
      (s.sentLog : Multiset RawPktSendStatus) := s.view.done_le_tracked.trans hs.tracked_le
  have hseq : (s.inserted.map RawPktSendStatus.seq : Multiset Nat) ≤
      (s.sentLog.map RawPktSendStatus.seq : Multiset Nat) := by
    have hmap := Multiset.map_le_map (f := RawPktSendStatus.seq) hle
    rwa [Multiset.map_coe, Multiset.map_coe, List.map_map] at hmap
  have hsent : (s.sentLog.map RawPktSendStatus.seq).Nodup := by
    rw [hs.numbered]
    exact List.nodup_range'
  exact Multiset.coe_nodup.mp (Multiset.nodup_of_le hseq (Multiset.coe_nodup.mpr hsent))

/-- The single packet of a batch finds the buffer full. -/
theorem feedbackMachine_once_full :
    ∃ s, (feedbackMachine.restrict FeedbackState.FillsAtEnd).Reachable s ∧
      s.inserted.length = kMaxRawBufSize ∧ (s.inserted.map RawPktSendStatus.seq).Nodup := by
  obtain ⟨s, hr, hs⟩ := rawFlushed_batch 0 letsFill_fillsAtEnd
    fun _ _ _ _ hseq hleft _ _ _ _ => ⟨hseq, fun _ => hleft⟩
  exact ⟨s, hr, hs.inserted, feedbackMachine_once hr⟩

/-- The buffer is full when the first packet of a batch of two is pushed, and the second one
inserts the same statuses again. -/
theorem feedbackMachine_once_refilled :
    ∃ s, feedbackMachine.Reachable s ∧ s.rawSeq = 4003 ∧
      ¬(s.inserted.map RawPktSendStatus.seq).Nodup := by
  obtain ⟨s, hr, hs⟩ := rawFlushed_batch (P := fun _ _ => True) 1
    ⟨fun _ _ => trivial, fun _ _ _ _ _ _ => trivial, fun _ _ _ => trivial⟩
    fun _ _ _ _ _ _ => trivial
  obtain ⟨v, rest, hvec⟩ := List.exists_cons_of_length_pos (l := s.inserted) (by
    rw [hs.inserted]
    decide)
  -- `status_vec` still holds the statuses when the second packet is pushed
  have h1 := feedback_push hr 110 100 ⟨4002, 0⟩ (by rw [hs.left]; decide) hs.todo
    (by rw [hs.length]; decide) trivial
  obtain ⟨_, records, -, h2⟩ := feedback_insert h1 .sendCodedBatch ⟨0, 0⟩
    (show s.statusVec = v :: rest from hs.statusVec.trans hvec)
    (hs.known v (hvec ▸ List.mem_cons_self)) trivial
  refine ⟨_, h2.of_restrict, ?_, ?_⟩
  · change uint32 (s.rawSeq + 1) = 4003
    rw [hs.rawSeq]
    rfl
  · change ¬((s.inserted ++ [v]).map RawPktSendStatus.seq).Nodup
    rw [hvec]
    simp

end Steps

end WspaceScout
