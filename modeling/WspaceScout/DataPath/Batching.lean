import WspaceScout.DataPath.TxSendAth

/-!
# Every packet goes out in exactly one batch

The invariant `SendInv` of the sending thread: what has been handed out is what has gone out in
batches, followed by what is pending in the encoder, followed by the packet still to be pushed. The
pending packets are new and end at the highest sequence number handed out, so they are contiguous
even while other threads move the cursor of the buffer back.

## Main results

- `sendInv_of_reachable` — the run lemma
- `sendMachine_batches` — hand-outs, batches and labels, and the assertions of the thread
-/

namespace WspaceScout

open Foundation

/-! ### The invariant of the thread -/

/-- The packet at position `i` has number `startSeq + i`. -/
def Labelled (startSeq : Nat) (pkts : List Pushed) : Prop :=
  ∀ (i : Nat) (p : Pushed), pkts[i]? = some p → p.handOut.seqNum = startSeq + i

/-- A batch whose frames say which packets it carries; a retransmission travels alone. -/
structure SentBatch.Ok (b : SentBatch) : Prop where
  labelled : ∀ f ∈ b.frames, Labelled f.frame.hdr.startSeq b.pkts
  size : ∀ f ∈ b.frames, f.frame.hdr.k = b.pkts.length
  nonempty : b.pkts ≠ [] ∧ b.frames ≠ []
  alone : ∀ p ∈ b.pkts, p.handOut.status = .occupiedRetrans → b.pkts.length = 1

/-- The pending packets leave room for more; `next` is the number of the next new packet. -/
structure Filling (kLocal : Nat) (rateArr : List Nat) (c : CodeInfo) (pending : List Pushed)
    (next : Nat) : Prop where
  lt : pending.length < kLocal
  le : kLocal ≤ MAX_BATCH_SIZE
  k : c.k = kLocal
  n : c.n = rateArr.length
  kn : kLocal ≤ rateArr.length
  next : c.startSeq + pending.length = next
  labelled : Labelled c.startSeq pending
  new : ∀ p ∈ pending, p.handOut.status = .occupiedNew

/-- The pending packets are ready to be encoded. -/
structure Complete (rateArr : List Nat) (c : CodeInfo) (pending : List Pushed) : Prop where
  nonempty : pending ≠ []
  le : pending.length ≤ MAX_BATCH_SIZE
  k : c.k = pending.length
  n : c.n = rateArr.length
  kn : c.k ≤ rateArr.length
  labelled : Labelled c.startSeq pending
  alone : ∀ p ∈ pending, p.handOut.status = .occupiedRetrans → pending.length = 1

namespace SendAth

/-- The pending packets leave room for more new packets, if there are any. -/
abbrev Open (s : SendAth) (next : Nat) : Prop :=
  s.pending = [] ∨ Filling s.kLocal s.rateArr s.encoder s.pending next

/-- What has been handed out but not pushed yet. -/
def unpushed (s : SendAth) : List HandOut :=
  if s.state = .pushNew ∨ s.handleRetransmission = true then [s.lastOut] else []

/-- What holds in each state of the loop. -/
def StateInv (s : SendAth) : SendState → Prop
  | .handleNewPkt => s.handleRetransmission = false ∧ s.Open (s.tx.history.highest + 1)
  | .pushNew => s.handleRetransmission = false ∧ s.out.status = .occupiedNew ∧ 0 < s.out.len ∧
      0 < s.out.seqNum ∧ s.out.seqNum = s.tx.history.highest ∧ s.Open s.out.seqNum
  | .handlePartialBatch => s.Open (s.tx.history.highest + 1)
  | .handleRetransmission => s.handleRetransmission = true ∧ s.pending = []
  | .handleEncoding => Complete s.rateArr s.encoder s.pending

/-- The invariant of the thread. -/
structure SendInv (s : SendAth) : Prop where
  log : s.tx.history.handedOut =
    s.batches.flatMap SentBatch.handOuts ++ s.pending.map Pushed.handOut ++ s.unpushed
  cnt : s.codingPktCnt = s.pending.length
  codec : s.encoder.codecType = .encoder
  cur : s.encoder.curInd = s.pending.length
  sent : ∀ b ∈ s.batches, b.Ok
  held : s.handleRetransmission = true →
    s.out.status = .occupiedRetrans ∧ 0 < s.out.len ∧ 0 < s.out.seqNum
  stateInv : s.StateInv s.state

theorem SendInv.inState {s : SendAth} (hs : s.SendInv) {st : SendState} (hst : s.state = st) :
    s.StateInv st :=
  hst ▸ hs.stateInv

end SendAth

section Steps

open SendAth

variable {ap : WspaceAP} {fec : Fec} {R : Nat} {s s' : SendAth} {d : Decision} {scratch : Frame}

theorem Effect.handedOut_eq {t t' : TxState} {input : TxInput} (h : Effect ap t input t')
    (hne : ∀ now, input ≠ .dequeue now) : t'.history.handedOut = t.history.handedOut := by
  cases h with
  | dropped pkt _ => rfl
  | stored pkt _ _ _ _ => rfl
  | skipped now _ _ => exact absurd rfl (hne now)
  | sent now _ _ => exact absurd rfl (hne now)
  | refused now ack s' _ _ hhist => rw [hhist]
  | acked now ack s' _ _ _ _ hhist => rw [hhist]
  | timedOut now s' _ hhist => rw [hhist]

/-- Operations that hand out nothing do not concern the thread. -/
theorem sendInv_tx (hs : s.SendInv) {t : TxState}
    (ht : t.history.handedOut = s.tx.history.handedOut) : SendInv { s with tx := t } := by
  have hhigh : t.history.highest = s.tx.history.highest := by
    unfold History.highest
    rw [ht]
  have hstate := hs.stateInv
  refine ⟨ht.trans hs.log, hs.cnt, hs.codec, hs.cur, hs.sent, hs.held, ?_⟩
  change SendAth.StateInv { s with tx := t } s.state
  cases hst : s.state <;> rw [hst] at hstate <;>
    simpa only [SendAth.StateInv, SendAth.Open, hhigh] using hstate

/-- What a pass through `DequeuePkt` can do to the thread. -/
inductive DequeueEffect (s : SendAth) (now : TIME) : SendAth → Prop where
  | skipped : (s.tx.buf.slot s.tx.buf.currPt).status.isPkt = false →
      DequeueEffect s now { s with
        tx := s.tx.skipped
        out := s.tx.buf.dequeued now
        state := .handleNewPkt }
  | new : (s.tx.buf.slot s.tx.buf.currPt).status = .occupiedNew →
      s.tx.buf.currPt = s.tx.history.highest →
      DequeueEffect s now { s with
        tx := s.tx.sent now
        out := s.tx.buf.dequeued now
        state := .pushNew }
  | retrans : (s.tx.buf.slot s.tx.buf.currPt).status = .occupiedRetrans →
      s.tx.buf.currPt < s.tx.history.highest →
      DequeueEffect s now { s with
        tx := s.tx.sent now
        out := s.tx.buf.dequeued now
        handleRetransmission := true
        state := .handlePartialBatch }

theorem dequeue_effect (hs : s.tx.WindowInv) {now : TIME} (hen : enabledTx s.tx (.dequeue now)) :
    ∃ s', s.dequeue now = .ok s' ∧ DequeueEffect s now s' := by
  have hlt := hs.curr_lt hen
  have hcurr := hs.curr_le
  have hok := hs.slot s.tx.buf.currPt hs.head_le_curr hlt
  unfold SendAth.dequeue
  cases hst : (s.tx.buf.slot s.tx.buf.currPt).status with
  | empty | occupiedOutbound =>
    have hpkt : (s.tx.buf.slot s.tx.buf.currPt).status.isPkt = false := by rw [hst]; rfl
    obtain ⟨b, hdeq, hrec⟩ := hs.dequeue_skipped now hlt hpkt
    have hout : (s.tx.buf.dequeued now).status = _ := hst
    refine ⟨_, ?_, .skipped hpkt⟩
    simp only [hdeq, hout, hrec]
  | occupiedNew =>
    have hpkt : (s.tx.buf.slot s.tx.buf.currPt).status.isPkt = true := by rw [hst]; rfl
    obtain ⟨b, hdeq, hrec, -⟩ := hs.dequeue_sent now hlt hpkt
    have hout : (s.tx.buf.dequeued now).status = .occupiedNew := hst
    refine ⟨_, ?_, .new hst (Nat.le_antisymm hcurr (hok.new.mp hst))⟩
    simp only [hdeq, hout, hrec]
  | occupiedRetrans =>
    have hpkt : (s.tx.buf.slot s.tx.buf.currPt).status.isPkt = true := by rw [hst]; rfl
    obtain ⟨b, hdeq, hrec, -⟩ := hs.dequeue_sent now hlt hpkt
    have hout : (s.tx.buf.dequeued now).status = .occupiedRetrans := hst
    refine ⟨_, ?_, .retrans hst ?_⟩
    · simp only [hdeq, hout, hrec]
    · -- the slot after all that was handed out is new
      refine Nat.lt_of_le_of_ne hcurr fun heq => ?_
      have hnew := hok.new.mpr (Nat.le_of_eq heq.symm)
      rw [hst] at hnew
      cases hnew

theorem sendInv_dequeue (hw : s.tx.WindowInv) (hs : s.SendInv) {now : TIME}
    (hen : enabledTx s.tx (.dequeue now)) (hst : s.state = .handleNewPkt)
    (h : DequeueEffect s now s') : s'.SendInv := by
  obtain ⟨hret, hopen⟩ := hs.inState hst
  have hlt := hw.curr_lt hen
  have hlog : s.tx.history.handedOut =
      s.batches.flatMap SentBatch.handOuts ++ s.pending.map Pushed.handOut := by
    rw [hs.log, show s.unpushed = [] by simp [SendAth.unpushed, hst, hret], List.append_nil]
  have hhigh : (s.tx.sent now).history.highest = max s.tx.history.highest (s.tx.buf.currPt + 1) :=
    s.tx.history.highest_append _ _
  cases h with
  | skipped hpkt =>
    -- nothing was handed out
    refine ⟨?_, hs.cnt, hs.codec, hs.cur, hs.sent, fun h => absurd (hret.symm.trans h) (by simp),
      ⟨hret, hopen⟩⟩
    refine hlog.trans ?_
    simp [SendAth.unpushed, hret]
  | new hnew hcurr =>
    have hpkt : (s.tx.buf.slot s.tx.buf.currPt).status.isPkt = true := by rw [hnew]; rfl
    obtain ⟨-, -, -, hseq, hlen, -⟩ := hw.dequeue_sent now hlt hpkt
    have hpos : 0 < (s.tx.buf.dequeued now).seqNum := by omega
    refine ⟨?_, hs.cnt, hs.codec, hs.cur, hs.sent, fun h => absurd (hret.symm.trans h) (by simp),
      ⟨hret, hnew, hlen, hpos, ?_, ?_⟩⟩
    · simp only [SendAth.unpushed, true_or, if_true, SendAth.lastOut, hseq]
      rw [← hlog]
      rfl
    · rw [hhigh, hseq]
      omega
    · rw [hseq, hcurr]
      exact hopen
  | retrans hretrans hcurr =>
    have hpkt : (s.tx.buf.slot s.tx.buf.currPt).status.isPkt = true := by rw [hretrans]; rfl
    obtain ⟨-, -, -, hseq, hlen, -⟩ := hw.dequeue_sent now hlt hpkt
    have hpos : 0 < (s.tx.buf.dequeued now).seqNum := by omega
    refine ⟨?_, hs.cnt, hs.codec, hs.cur, hs.sent, fun _ => ⟨hretrans, hlen, hpos⟩, ?_⟩
    · simp only [SendAth.unpushed, or_true, if_true, SendAth.lastOut, hseq]
      rw [← hlog]
      rfl
    · have hsame : (s.tx.sent now).history.highest = s.tx.history.highest := by
        rw [hhigh, Nat.max_eq_left hcurr]
      change s.Open ((s.tx.sent now).history.highest + 1)
      rw [hsame]
      exact hopen

/-! ### The passes of the loop -/

theorem Labelled.append {startSeq : Nat} {pkts : List Pushed} {p : Pushed}
    (h : Labelled startSeq pkts) (hp : p.handOut.seqNum = startSeq + pkts.length) :
    Labelled startSeq (pkts ++ [p]) := by
  intro i q hq
  obtain ⟨-, hq⟩ | ⟨rfl, rfl⟩ := getElem?_snoc hq
  · exact h i q hq
  · exact hp

theorem Labelled.nil (startSeq : Nat) : Labelled startSeq [] := fun i p h => by simp at h

/-- The state after `PushPkt` has copied the packet of the locals. -/
def SendAth.pushedLocal (s : SendAth) : SendAth :=
  { s with
    encoder := s.encoder.pushed s.srcBytes
    codingPktCnt := s.codingPktCnt + 1
    pending := s.pending ++ [⟨s.lastOut, s.srcBytes⟩] }

theorem pushPkt_ok (hcodec : s.encoder.codecType = .encoder) (hlen : 0 < s.out.len)
    (hcur : s.encoder.curInd < s.encoder.k) : s.pushPkt = .ok s.pushedLocal := by
  have hsrc : 0 < s.srcBytes.length := by
    simpa [SendAth.srcBytes] using hlen
  unfold SendAth.pushPkt
  rw [CodeInfo.pushPkt_encoder hcodec hsrc hcur]
  rfl

/-- The batch that takes the new packet. -/
theorem openBatch_filling (hs : s.SendInv) (hst : s.state = .pushNew)
    (hd : s.codingPktCnt = 0 → d.Answers .data s.kLocal) :
    Filling (s.openBatch d).kLocal (s.openBatch d).rateArr (s.openBatch d).encoder s.pending
      s.out.seqNum := by
  obtain ⟨-, -, -, hpos, -, hopen⟩ := hs.inState hst
  unfold SendAth.openBatch
  by_cases hcnt : s.codingPktCnt = 0
  · obtain ⟨hk1, hkmax, hkn⟩ := hd hcnt
    have hnil : s.pending = [] := List.eq_nil_of_length_eq_zero (hs.cnt.symm.trans hcnt)
    rw [if_pos hcnt, hnil]
    exact ⟨hk1, hkmax, rfl, rfl, hkn, if_pos hpos, Labelled.nil _, fun p hp => by simp at hp⟩
  · rw [if_neg hcnt]
    refine hopen.resolve_left fun hnil => ?_
    rw [hs.cnt, hnil] at hcnt
    exact hcnt rfl

/-- Copying the packet of the locals moves it from `unpushed` to `pending`. -/
theorem sendInv_pushed {st : SendState}
    (hlog : s.tx.history.handedOut = s.batches.flatMap SentBatch.handOuts ++
      s.pending.map Pushed.handOut ++ [s.lastOut])
    (hcnt : s.codingPktCnt = s.pending.length) (hcodec : s.encoder.codecType = .encoder)
    (hcur : s.encoder.curInd = s.pending.length) (hsent : ∀ b ∈ s.batches, b.Ok)
    (hret : s.handleRetransmission = false)
    (hst : st = .handleNewPkt ∧ Filling s.kLocal s.rateArr s.pushedLocal.encoder
        s.pushedLocal.pending (s.tx.history.highest + 1) ∨
      st = .handleEncoding ∧ Complete s.rateArr s.pushedLocal.encoder s.pushedLocal.pending) :
    SendAth.SendInv { s.pushedLocal with state := st } := by
  have hlen : s.pushedLocal.pending.length = s.pending.length + 1 := by
    simp [SendAth.pushedLocal]
  have hlog' : s.tx.history.handedOut = s.batches.flatMap SentBatch.handOuts ++
      s.pushedLocal.pending.map Pushed.handOut := by
    rw [hlog, SendAth.pushedLocal, List.map_append, List.append_assoc]
    rfl
  have hcnt' : s.codingPktCnt + 1 = s.pushedLocal.pending.length := by rw [hlen, hcnt]
  have hcur' : s.encoder.curInd + 1 = s.pushedLocal.pending.length := by rw [hlen, hcur]
  have hheld : ¬s.handleRetransmission = true := by simp [hret]
  obtain ⟨rfl, hfill⟩ | ⟨rfl, hcomplete⟩ := hst
  · refine ⟨?_, hcnt', hcodec, hcur', hsent, fun h => absurd h hheld, hret, .inr hfill⟩
    refine hlog'.trans ?_
    simp [SendAth.unpushed, SendAth.pushedLocal, hret]
  · refine ⟨?_, hcnt', hcodec, hcur', hsent, fun h => absurd h hheld, hcomplete⟩
    refine hlog'.trans ?_
    simp [SendAth.unpushed, SendAth.pushedLocal, hret]

theorem sendInv_pushNew (hs : s.SendInv) (hst : s.state = .pushNew)
    (hd : s.codingPktCnt = 0 → d.Answers .data s.kLocal) :
    Ends SendAth.SendInv Fault.isHeader (s.pushNew d) := by
  obtain ⟨hret, hnew, hlen, hpos, hhigh, -⟩ := hs.inState hst
  obtain ⟨htx, hout, hpend, hbatch, hcnt, hret', hcodec, hcur⟩ := SendAth.openBatch_frame s d
  have hfill := openBatch_filling hs hst hd
  have hlt := hfill.lt
  have hlast : (s.openBatch d).lastOut = s.lastOut := by simp only [SendAth.lastOut, hout]
  have hlog := hs.log
  rw [show s.unpushed = [s.lastOut] by simp [SendAth.unpushed, hst], ← htx, ← hbatch, ← hlast]
    at hlog
  have hpush : (s.openBatch d).pushPkt = .ok (s.openBatch d).pushedLocal :=
    pushPkt_ok (hcodec.trans hs.codec) (by rw [hout]; exact hlen)
      (by rw [hcur, hs.cur, hfill.k]; exact hlt)
  rw [← hpend] at hfill hlog hlt
  have hlen' : (s.openBatch d).pushedLocal.pending.length = (s.openBatch d).pending.length + 1 := by
    simp [SendAth.pushedLocal]
  have hcnt' : (s.openBatch d).pushedLocal.codingPktCnt =
      (s.openBatch d).pushedLocal.pending.length := by
    rw [hlen', hpend, ← hs.cnt, ← hcnt]
    rfl
  have hlabel : Labelled (s.openBatch d).encoder.startSeq (s.openBatch d).pushedLocal.pending :=
    hfill.labelled.append (by rw [hlast]; exact hfill.next.symm)
  have hallNew : ∀ p ∈ (s.openBatch d).pushedLocal.pending,
      p.handOut.status = .occupiedNew := fun p hp => by
    obtain hp | hp := List.mem_append.mp hp
    · exact hfill.new p hp
    · rw [List.mem_singleton.mp hp, hlast]
      exact hnew
  unfold SendAth.pushNew
  rw [hpush]
  refine sendInv_pushed hlog ?_ (hcodec.trans hs.codec) ?_ (hbatch ▸ hs.sent) (hret'.trans hret) ?_
  · rw [hcnt, hpend, hs.cnt]
  · rw [hcur, hpend, hs.cur]
  · by_cases hfull : (s.openBatch d).pushedLocal.codingPktCnt = (s.openBatch d).pushedLocal.kLocal
    · -- the batch has all its packets
      refine .inr ⟨if_pos hfull, ?_⟩
      rw [hcnt'] at hfull
      have hfull' : (s.openBatch d).pushedLocal.pending.length = (s.openBatch d).kLocal := hfull
      refine ⟨fun hnil => by rw [hnil] at hlen'; simp at hlen', hfull' ▸ hfill.le,
        hfill.k.trans hfull'.symm, hfill.n, hfill.k.symm ▸ hfill.kn, hlabel, fun p hp hretr => ?_⟩
      rw [hallNew p hp] at hretr
      cases hretr
    · -- the batch stays open for the next new packet
      refine .inl ⟨if_neg hfull, ?_⟩
      rw [hcnt'] at hfull
      have hne : (s.openBatch d).pushedLocal.pending.length ≠ (s.openBatch d).kLocal := hfull
      have hnext := hfill.next
      refine ⟨by omega, hfill.le, hfill.k, hfill.n, hfill.kn, ?_, hlabel, hallNew⟩
      rw [htx, ← hhigh, hlen', ← Nat.add_assoc]
      exact congrArg (· + 1) hnext

theorem sendInv_partialBatch (hs : s.SendInv) (hst : s.state = .handlePartialBatch)
    (hd : s.codingPktCnt > 0 → d.Answers .timeOut s.codingPktCnt) :
    Ends SendAth.SendInv Fault.isHeader (s.partialBatch d) := by
  have hopen := hs.inState hst
  have hlog : s.tx.history.handedOut =
      s.batches.flatMap SentBatch.handOuts ++ s.pending.map Pushed.handOut ++
        if s.handleRetransmission = true then [s.lastOut] else [] := by
    refine hs.log.trans ?_
    simp [SendAth.unpushed, hst]
  unfold SendAth.partialBatch
  by_cases hcnt : s.codingPktCnt > 0
  · have hfill := hopen.resolve_left fun hnil => by
      rw [hs.cnt, hnil] at hcnt
      exact Nat.lt_irrefl 0 hcnt
    obtain ⟨hdk, hdn⟩ := hd hcnt
    have hlt := hfill.lt
    have hle := hfill.le
    have hcount := hs.cnt
    have hmax : s.pending.length ≤ MAX_BATCH_SIZE := by omega
    -- a partial batch lacks a packet, so that the assertion `k < kMaxK` holds
    have hcheck : applyFECForTimeOut s.codingPktCnt = .ok () := if_pos ⟨hcnt, by omega⟩
    rw [if_pos hcnt, hcheck]
    refine ⟨?_, hs.cnt, hs.codec, hs.cur, hs.sent, hs.held, ?_⟩
    · refine hlog.trans ?_
      simp [SendAth.unpushed, SendAth.setCode, SendAth.lastOut]
    · have hne : s.pending ≠ [] := fun hnil => by
        rw [hnil] at hcount
        simp at hcount
        omega
      refine ⟨hne, hmax, hdk.trans hs.cnt, rfl, hdn, hfill.labelled, fun p hp hretr => ?_⟩
      rw [hfill.new p hp] at hretr
      cases hretr
  · have hnil : s.pending = [] := List.eq_nil_of_length_eq_zero (by have := hs.cnt; omega)
    rw [if_neg hcnt]
    by_cases hret : s.handleRetransmission = true
    · rw [if_pos hret]
      rw [if_pos hret] at hlog
      refine ⟨?_, hs.cnt, hs.codec, hs.cur, hs.sent, hs.held, hret, hnil⟩
      refine hlog.trans ?_
      simp [SendAth.unpushed, SendAth.lastOut, hret]
    · rw [if_neg hret]
      rw [if_neg hret] at hlog
      refine ⟨?_, hs.cnt, hs.codec, hs.cur, hs.sent, hs.held, Bool.not_eq_true _ ▸ hret,
        .inl hnil⟩
      refine hlog.trans ?_
      simp [SendAth.unpushed, hret]

theorem sendInv_retransmission (hs : s.SendInv) (hst : s.state = .handleRetransmission)
    (hd : d.Answers .retrans 1) : Ends SendAth.SendInv Fault.isHeader (s.retransmission d) := by
  obtain ⟨hret, hnil⟩ := hs.inState hst
  obtain ⟨hstatus, hlen, hpos⟩ := hs.held hret
  obtain ⟨hdk, hdn⟩ := hd
  have hcur := hs.cur
  rw [hnil, List.length_nil] at hcur
  have hlog := hs.log
  rw [show s.unpushed = [s.lastOut] by simp [SendAth.unpushed, hret]] at hlog
  have hpush : ({ s with handleRetransmission := false }.setCode d s.out.seqNum).pushPkt =
      .ok ({ s with handleRetransmission := false }.setCode d s.out.seqNum).pushedLocal := by
    refine pushPkt_ok hs.codec hlen ?_
    change s.encoder.curInd < d.k
    omega
  unfold SendAth.retransmission
  rw [hpush]
  refine sendInv_pushed hlog hs.cnt hs.codec hs.cur hs.sent rfl (.inr ⟨rfl, ?_⟩)
  have hpend :
      ({ s with handleRetransmission := false }.setCode d s.out.seqNum).pushedLocal.pending =
        [⟨s.lastOut, s.srcBytes⟩] := by
    simp [SendAth.pushedLocal, SendAth.setCode, hnil, SendAth.lastOut, SendAth.srcBytes]
  have hstart : ({ s with handleRetransmission := false }.setCode d
      s.out.seqNum).pushedLocal.encoder.startSeq = s.out.seqNum := if_pos hpos
  rw [hpend]
  -- a batch of its own, labelled with its own number
  refine ⟨by simp, (by decide : 1 ≤ MAX_BATCH_SIZE), hdk, rfl, hdn, ?_, fun _ _ _ => rfl⟩
  rw [hstart]
  exact (Labelled.nil _).append rfl

/-- The frames of a complete batch say which packets it carries. -/
theorem batch_ok {ids : BatchIds} {c : CodeInfo} {rateArr : List Nat} {pkts : List Pushed}
    {frames : List SentFrame} (hc : Complete rateArr c pkts)
    (hlen : frames.length = (c.encodeBatch fec).n)
    (hblock : ∀ (j : Nat) (f : SentFrame), frames[j]? = some f →
      f.IsBlock ids (c.encodeBatch fec) rateArr j) :
    SentBatch.Ok ⟨frames, pkts⟩ := by
  have hpos := List.length_pos_iff.mpr hc.nonempty
  have hle := hc.le
  have hk := hc.k
  have hframe : ∀ f ∈ frames, f.frame.hdr.startSeq = c.startSeq ∧
      f.frame.hdr.k = pkts.length := fun f hf => by
    obtain ⟨j, hj⟩ := List.mem_iff_getElem?.mp hf
    obtain ⟨scratch, rawSeq, hdr, hhdr, rfl⟩ := hblock j f hj
    obtain ⟨-, -, hstart, -, hkk, -⟩ := buildHeader_hdr hhdr
    refine ⟨hstart, hkk.trans ?_⟩
    -- `k` survives the eight bits of the header
    have hsmall : MAX_BATCH_SIZE < 256 := by decide
    change uint8 c.k = pkts.length
    rw [hk]
    exact Nat.mod_eq_of_lt (by omega)
  have hn : frames.length = rateArr.length := hlen.trans hc.n
  have hkn := hc.kn
  refine ⟨fun f hf => ?_, fun f hf => (hframe f hf).2, ⟨hc.nonempty, fun hnil => ?_⟩, hc.alone⟩
  · rw [(hframe f hf).1]
    exact hc.labelled
  · have hnil' : frames = [] := hnil
    rw [hnil', List.length_nil] at hn
    omega

theorem sendInv_encoding (hs : s.SendInv) (hst : s.state = .handleEncoding) :
    Ends SendAth.SendInv Fault.isHeader (s.encoding fec scratch) := by
  have hc := hs.inState hst
  have hcnt : s.codingPktCnt > 0 := by
    rw [hs.cnt]
    exact List.length_pos_iff.mpr hc.nonempty
  have hrate : s.rateArr.length = (s.encoder.encodeBatch fec).n := hc.n.symm
  have hends := sendCodedBatch_ends s.ids scratch hrate hs.codec rfl
  unfold SendAth.encoding
  rw [if_pos hcnt]
  cases hres : sendCodedBatch s.ids scratch (s.encoder.encodeBatch fec) s.rateArr with
  | error e =>
    rw [hres] at hends
    exact hends
  | ok r =>
    obtain ⟨ids, encoder, frames⟩ := r
    rw [hres] at hends
    obtain ⟨henc, hlen, hblock⟩ := hends
    have hbatch := batch_ok hc hlen hblock
    have hlog : s.tx.history.handedOut =
        (s.batches ++ [(⟨frames, s.pending⟩ : SentBatch)]).flatMap SentBatch.handOuts ++
          if s.handleRetransmission = true then [s.lastOut] else [] := by
      refine hs.log.trans ?_
      simp [SendAth.unpushed, hst, SentBatch.handOuts]
    have hsent : ∀ b ∈ s.batches ++ [⟨frames, s.pending⟩], b.Ok := fun b hb => by
      obtain hb | hb := List.mem_append.mp hb
      · exact hs.sent b hb
      · rw [List.mem_singleton.mp hb]
        exact hbatch
    have hcodec : encoder.codecType = .encoder := (congrArg CodeInfo.codecType henc).trans hs.codec
    by_cases hret : s.handleRetransmission = true
    · -- the packet of the locals has waited for the partial batch
      simp only [if_pos hret]
      rw [if_pos hret] at hlog
      refine ⟨?_, rfl, hcodec, rfl, hsent, hs.held, hret, rfl⟩
      refine hlog.trans ?_
      simp [SendAth.unpushed, SendAth.lastOut, hret]
    · simp only [if_neg hret]
      rw [if_neg hret] at hlog
      refine ⟨?_, rfl, hcodec, rfl, hsent, hs.held, Bool.not_eq_true _ ▸ hret, .inl rfl⟩
      refine hlog.trans ?_
      simp [SendAth.unpushed, hret]

/-- The step lemma: the thread fails on header checks only. -/
theorem sendInv_step (ap : WspaceAP) (fec : Fec) (hw : s.tx.WindowInv) (hs : s.SendInv)
    {input : SendInput} (hen : enabledSend s input) :
    Ends SendAth.SendInv Fault.isHeader (execSend ap fec s input) := by
  cases input with
  | env input =>
    obtain ⟨t, hexec, heff⟩ := exec_effect ap hw hen.2
    simp only [execSend, hexec]
    exact sendInv_tx hs (heff.handedOut_eq hen.1)
  | dequeue now =>
    obtain ⟨s', hexec, heff⟩ := dequeue_effect hw hen.2
    simp only [execSend, hexec]
    exact sendInv_dequeue hw hs hen.2 hen.1 heff
  | batchTimeOut =>
    have hst : s.state = .handleNewPkt := hen
    obtain ⟨hret, hopen⟩ := hs.inState hst
    refine ⟨?_, hs.cnt, hs.codec, hs.cur, hs.sent, hs.held, hopen⟩
    refine hs.log.trans ?_
    simp [SendAth.unpushed, hst, hret]
  | pass d scratch =>
    unfold execSend
    unfold enabledSend enabledLoop at hen
    cases hst : s.state with
    | handleNewPkt =>
      rw [hst] at hen
      exact hen.elim
    | pushNew =>
      rw [hst] at hen
      exact sendInv_pushNew hs hst hen
    | handlePartialBatch =>
      rw [hst] at hen
      exact sendInv_partialBatch hs hst hen
    | handleRetransmission =>
      rw [hst] at hen
      exact sendInv_retransmission hs hst hen
    | handleEncoding => exact sendInv_encoding hs hst

theorem sendInv_init (h : SendAth.IsInit R s) : s.SendInv := by
  obtain ⟨⟨boot, htx⟩, hst, hret, hcnt, ⟨inds, lens, rows, coded, henc⟩, -, -, hpend, hbatch⟩ := h
  refine ⟨?_, by rw [hcnt, hpend]; rfl, by rw [henc]; rfl, by rw [henc, hpend]; rfl, fun b hb => ?_,
    fun h => ?_, ?_⟩
  · rw [htx, hpend, hbatch]
    simp [SendAth.unpushed, hst, hret, TxState.init]
  · rw [hbatch] at hb
    simp at hb
  · rw [hret] at h
    cases h
  · rw [hst]
    exact ⟨hret, .inl hpend⟩

/-- The run lemma. -/
theorem sendInv_of_reachable (h : (sendMachine ap fec R).Reachable s) : s.SendInv := by
  refine h.invariant (fun s hs => sendInv_init hs) fun s input s' hr hs hen hexec => ?_
  have hends := sendInv_step ap fec (windowInv_of_reachable (tx_reachable hr)) hs hen
  rw [show execSend ap fec s input = .ok s' from hexec] at hends
  exact hends

/-! ### Runs -/

variable {P : SendAth → SendInput → Prop}

/-- The other threads may run at any time. -/
theorem send_env (h : ((sendMachine ap fec R).restrict P).Reachable s) {input : TxInput}
    {t : TxState} (hne : ∀ now, input ≠ .dequeue now) (hen : enabledTx s.tx input)
    (hP : P s (.env input)) (hexec : execTx ap s.tx input = .ok t) :
    ((sendMachine ap fec R).restrict P).Reachable { s with tx := t } := by
  refine .step h (i := .env input) ⟨⟨hne, hen⟩, hP⟩ ?_
  change execSend ap fec s (.env input) = _
  simp only [execSend, hexec]

theorem send_stored (h : ((sendMachine ap fec R).restrict P).Reachable s) (pkt : List UInt8)
    (hpos : 0 < pkt.length) (hlen : pkt.length ≤ PKT_SIZE)
    (hroom : s.tx.buf.tailPt < s.tx.buf.headPt + BUF_SIZE)
    (hcnt : s.tx.history.enqueued.length + 1 < 4294967295) (hP : P s (.env (.enqueue pkt))) :
    ((sendMachine ap fec R).restrict P).Reachable { s with tx := s.tx.stored pkt } := by
  have hen : enabledTx s.tx (.enqueue pkt) := ⟨hpos, hlen, fun _ => hcnt⟩
  exact send_env h (fun _ h => by cases h) hen hP
    ((windowInv_of_reachable (tx_reachable h.of_restrict)).exec_stored hroom)

/-- The thread takes the new packet at the cursor. -/
theorem send_dequeue (h : ((sendMachine ap fec R).restrict P).Reachable s) (now : TIME)
    (hst : s.state = .handleNewPkt) (hlt : s.tx.buf.currPt < s.tx.buf.tailPt)
    (hnew : (s.tx.buf.slot s.tx.buf.currPt).status = .occupiedNew) (hP : P s (.dequeue now)) :
    ((sendMachine ap fec R).restrict P).Reachable { s with
      tx := s.tx.sent now
      out := s.tx.buf.dequeued now
      state := .pushNew } := by
  have hen : enabledTx s.tx (.dequeue now) :=
    decide_eq_false (show ¬s.tx.buf.tailPt = s.tx.buf.currPt by omega)
  have hw := windowInv_of_reachable (tx_reachable h.of_restrict)
  obtain ⟨s', hexec, heff⟩ := dequeue_effect hw hen
  have hr : ((sendMachine ap fec R).restrict P).Reachable s' :=
    .step h (i := .dequeue now) ⟨⟨hst, hen⟩, hP⟩ hexec
  cases heff with
  | skipped hpkt => simp [Status.isPkt, hnew] at hpkt
  | new _ _ => exact hr
  | retrans hretrans _ => rw [hnew] at hretrans; cases hretrans

/-- The packet in hand opens a batch of more than one. -/
theorem send_open (h : ((sendMachine ap fec R).restrict P).Reachable s)
    (hst : s.state = .pushNew) (hcnt : s.codingPktCnt = 0) (hk : 1 < d.k)
    (hd : d.k ≤ MAX_BATCH_SIZE ∧ d.k ≤ d.n) (scratch : Frame) (hP : P s (.pass d scratch)) :
    ((sendMachine ap fec R).restrict P).Reachable
      { (s.setCode d s.out.seqNum).pushedLocal with state := .handleNewPkt } := by
  have hs := sendInv_of_reachable h.of_restrict
  obtain ⟨-, -, hlen, -⟩ := hs.inState hst
  have hcur : s.encoder.curInd = 0 := by rw [hs.cur, ← hs.cnt, hcnt]
  have hen : enabledSend s (.pass d scratch) := by
    simp only [enabledSend, enabledLoop, hst]
    exact fun _ => ⟨Nat.le_of_lt hk, hd⟩
  have hpush : (s.setCode d s.out.seqNum).pushPkt = .ok (s.setCode d s.out.seqNum).pushedLocal :=
    pushPkt_ok hs.codec hlen (show s.encoder.curInd < d.k by omega)
  have hstate : (if (s.setCode d s.out.seqNum).pushedLocal.codingPktCnt =
      (s.setCode d s.out.seqNum).pushedLocal.kLocal then SendState.handleEncoding
      else .handleNewPkt) = .handleNewPkt :=
    if_neg (show ¬s.codingPktCnt + 1 = d.k by omega)
  refine .step h (i := .pass d scratch) ⟨hen, hP⟩ ?_
  change execSend ap fec s (.pass d scratch) = _
  simp only [execSend, hst, SendAth.pushNew, SendAth.openBatch, if_pos hcnt, hpush, hstate]

/-- The thread before its first pass. -/
def SendAth.start (tx : TxState) : SendAth where
  tx := tx
  state := .handleNewPkt
  out := ⟨0, 0, .empty, 0, 0, 0⟩
  handleRetransmission := false
  codingPktCnt := 0
  kLocal := 0
  rateArr := []
  encoder := .init .encoder MAX_BATCH_SIZE TUN_PKT_SIZE (fun _ => 0) (fun _ => 0)
    (fun _ _ => 0) (fun _ _ => 0)
  ids := ⟨1, 1, 1, 2⟩
  pending := []
  batches := []

theorem send_start (boot : Fin BUF_SIZE → TIME) :
    ((sendMachine ap fec R).restrict P).Reachable (SendAth.start (TxState.init boot R)) :=
  .init ⟨⟨_, rfl⟩, rfl, rfl, rfl, ⟨_, _, _, _, rfl⟩, rfl, rfl, rfl, rfl⟩

/-- In every run of the thread, every hand-out is pushed into exactly one batch and batches go out
in hand-out order; whenever `DequeuePkt` is called the open batch, if any, has room; a
retransmission travels alone; frames say which packets they carry; and no assertion fails but those
on the header. -/
theorem sendMachine_batches (h : (sendMachine ap fec R).Reachable s) :
    s.tx.history.handedOut = s.batches.flatMap SentBatch.handOuts ++
      s.pending.map Pushed.handOut ++ s.unpushed ∧
    (s.state = .handleNewPkt → s.unpushed = [] ∧ s.codingPktCnt = s.pending.length ∧
      (s.pending = [] ∨ s.pending.length < s.kLocal)) ∧
    (∀ b ∈ s.batches, ∀ p ∈ b.pkts, p.handOut.status = .occupiedRetrans → b.pkts = [p]) ∧
    (∀ b ∈ s.batches, b.frames ≠ [] ∧ ∀ f ∈ b.frames, f.frame.hdr.k = b.pkts.length ∧
      ∀ i p, b.pkts[i]? = some p → p.handOut.seqNum = f.frame.hdr.startSeq + i) ∧
    (∀ input e, (sendMachine ap fec R).enabled s input →
      (sendMachine ap fec R).exec s input = .error e → e = .setHeader ∨ e = .setRate) := by
  have hs := sendInv_of_reachable h
  have hw := windowInv_of_reachable (tx_reachable h)
  refine ⟨hs.log, fun hst => ?_, fun b hb p hp hretr => ?_, fun b hb => ?_,
    fun input e hen hexec => ?_⟩
  · obtain ⟨hret, hopen⟩ := hs.inState hst
    exact ⟨by simp [SendAth.unpushed, hst, hret], hs.cnt, hopen.imp_right Filling.lt⟩
  · obtain ⟨q, hq⟩ := List.length_eq_one_iff.mp ((hs.sent b hb).alone p hp hretr)
    rw [hq] at hp ⊢
    rw [List.mem_singleton.mp hp]
  · have hok := hs.sent b hb
    exact ⟨hok.nonempty.2, fun f hf => ⟨hok.size f hf, hok.labelled f hf⟩⟩
  · have hends := sendInv_step ap fec hw hs hen
    rw [show execSend ap fec s input = .error e from hexec] at hends
    exact hends

/-- The thread with one packet in hand. -/
def onePkt : SendAth :=
  { SendAth.start oneSent with
    out := ((TxState.init (fun _ => ⟨0, 0⟩) 2).stored [7]).buf.dequeued ⟨1, 0⟩
    state := .pushNew }

theorem onePkt_reachable (hP : ∀ s input, ¬s.HoldsPkt → P s input) :
    ((sendMachine ap fec 2).restrict P).Reachable onePkt := by
  have h0 : ((sendMachine ap fec 2).restrict P).Reachable (SendAth.start _) :=
    send_start fun _ => ⟨0, 0⟩
  have h1 := send_stored h0 [7] (by decide) (by decide) (by decide) (by decide)
    (hP _ _ (by simp [SendAth.HoldsPkt, SendAth.start]))
  exact send_dequeue h1 ⟨1, 0⟩ rfl (by decide) (by decide)
    (hP _ _ (by simp [SendAth.HoldsPkt, SendAth.start]))

/-- A batch of two packets, and the first packet once more when its ack has not come. -/
def resendInputs (scratch : Frame) : List SendInput :=
  [.env (.enqueue [7]), .env (.enqueue [8]),
    .dequeue ⟨1, 0⟩, .pass ⟨2, [10, 10, 20]⟩ scratch, .dequeue ⟨1, 0⟩, .pass ⟨0, []⟩ scratch,
    .pass ⟨0, []⟩ scratch, .env (.timeOut ⟨9, 0⟩),
    .dequeue ⟨10, 0⟩, .pass ⟨0, []⟩ scratch, .pass ⟨1, [10, 10]⟩ scratch, .pass ⟨0, []⟩ scratch]

/-- The retransmission travels alone. -/
theorem sendMachine_batches_resend : ∃ s, (sendMachine ⟨2, 10, 3⟩ Fec.copy 2).Reachable s ∧
    s.batches.map SentBatch.handOuts =
      [[⟨1, .occupiedNew⟩, ⟨2, .occupiedNew⟩], [⟨1, .occupiedRetrans⟩]] ∧
    s.tx.history.handedOut = s.batches.flatMap SentBatch.handOuts ++
      s.pending.map Pushed.handOut ++ s.unpushed ∧
    ∀ b ∈ s.batches, ∀ p ∈ b.pkts, p.handOut.status = .occupiedRetrans → b.pkts = [p] := by
  let scratch : Frame := ⟨⟨0, 0, 0, 0, 0, 0, 0, 0, 0, 0⟩, fun _ => 0⟩
  have hstart : (sendMachine ⟨2, 10, 3⟩ Fec.copy 2).Reachable
      (SendAth.start (.init (fun _ => ⟨0, 0⟩) 2)) :=
    .init ⟨⟨_, rfl⟩, rfl, rfl, rfl, ⟨_, _, _, _, rfl⟩, rfl, rfl, rfl, rfl⟩
  have hrun : ((sendMachine ⟨2, 10, 3⟩ Fec.copy 2).trace (fun s i => decide (enabledSend s i))
      (SendAth.start (.init (fun _ => ⟨0, 0⟩) 2)) (resendInputs scratch)).map
        (fun s => s.batches.map SentBatch.handOuts) =
      some [[⟨1, .occupiedNew⟩, ⟨2, .occupiedNew⟩], [⟨1, .occupiedRetrans⟩]] := by
    decide +kernel
  obtain ⟨s, htrace, hbatches⟩ := Option.map_eq_some_iff.mp hrun
  have hreach := hstart.trace (I := fun _ => True) trivial
    (fun s i _ hi => show enabledSend s i from of_decide_eq_true hi) (fun _ _ _ _ _ => trivial)
    htrace
  obtain ⟨hlog, -, halone, -⟩ := sendMachine_batches hreach
  exact ⟨s, hreach, hbatches, hlog, halone⟩

end Steps

end WspaceScout
