import WspaceScout.DataPath.Batching

/-!
# Sequence numbers that wrap

Sequence numbers have 32 bits and the ring has `BUF_SIZE` slots, which does not divide `2 ^ 32`.
Behind the last number the next packet goes into slot `0`, which is also the slot of number
`4294967001`. If that slot is free while the cursor has yet to pass it, the cursor takes the new
packet for the old one, and two packets with unrelated numbers end up in one batch.

## Main definitions

- `SendAth.Ready` — the thread waits and has no packet
- `Drained R e n m s` — `m` packets have gone out, the first `n` of them are acknowledged
- `Hole n s` — the cursor stands at the free slot behind the outbound packet `n + 1`

## Main results

- `loop_single`, `loop_resend`, `loop_pair` — the thread sends one packet, or two in one batch
- `idle_reachable` — any number of packets can be sent and acknowledged
- `endlessMachine_mislabels` — a run past the last number that mislabels a packet
-/

namespace WspaceScout

open Foundation

/-- The thread waits for a packet and has none pending. -/
structure SendAth.Ready (s : SendAth) : Prop where
  state : s.state = .handleNewPkt
  cnt : s.codingPktCnt = 0
  pending : s.pending = []
  ret : s.handleRetransmission = false
  codec : s.encoder.codecType = .encoder
  cur : s.encoder.curInd = 0
  rawSeq : 0 < s.ids.rawSeq
  batchId : 0 < s.ids.batchId

/-- One coded packet for one data packet. -/
def singly : Decision := ⟨1, [10]⟩

/-- Two coded packets for two data packets. -/
def pairwise : Decision := ⟨2, [10, 10]⟩

/-- A frame buffer. -/
def blank : Frame := ⟨⟨0, 0, 0, 0, 0, 0, 0, 0, 0, 0⟩, fun _ => 0⟩

section Thread

open SendAth

variable {E : TxState → TxInput → Prop} {ap : WspaceAP} {fec : Fec} {R : Nat} {s : SendAth}
  {d : Decision} {now : TIME} {out : Dequeued} {b : TxDataBuf}

theorem loop_env (h : (loopMachine E ap fec R).Reachable s) {input : TxInput} {t : TxState}
    (hne : ∀ now, input ≠ .dequeue now) (hE : E s.tx input) (hexec : execTx ap s.tx input = .ok t) :
    (loopMachine E ap fec R).Reachable { s with tx := t } := by
  refine .step h (i := .env input) ⟨hne, hE⟩ ?_
  change execSend ap fec s (.env input) = _
  simp only [execSend, hexec]

/-- The thread takes a new packet. -/
theorem loop_new (h : (loopMachine E ap fec R).Reachable s) (hst : s.state = .handleNewPkt)
    (hE : E s.tx (.dequeue now)) (hdeq : s.tx.buf.dequeuePkt now = .ok (out, b))
    (hnew : out.status = .occupiedNew) :
    (loopMachine E ap fec R).Reachable
      { s with tx := s.tx.recordDequeue out b, out := out, state := .pushNew } := by
  refine .step h (i := .dequeue now) ⟨hst, hE⟩ ?_
  change execSend ap fec s (.dequeue now) = _
  simp only [execSend, SendAth.dequeue, hdeq, hnew]

/-- The thread copies the packet in hand. -/
theorem loop_push (h : (loopMachine E ap fec R).Reachable s) (hst : s.state = .pushNew)
    (hd : s.codingPktCnt = 0 → d.Answers .data s.kLocal)
    (hpush : (s.openBatch d).pushPkt = .ok (s.openBatch d).pushedLocal) :
    (loopMachine E ap fec R).Reachable { (s.openBatch d).pushedLocal with
      state := if (s.openBatch d).pushedLocal.codingPktCnt = (s.openBatch d).pushedLocal.kLocal then
        .handleEncoding else .handleNewPkt } := by
  have hen : enabledLoop E s (.pass d blank) := by
    simp only [enabledLoop, hst]
    exact hd
  refine .step h (i := .pass d blank) hen ?_
  change execSend ap fec s (.pass d blank) = _
  simp only [execSend, hst, SendAth.pushNew, hpush]

/-- The first packet of a batch. -/
theorem loop_pushFirst (h : (loopMachine E ap fec R).Reachable s) (hst : s.state = .pushNew)
    (hcnt : s.codingPktCnt = 0) (hd : 1 ≤ d.k ∧ d.k ≤ MAX_BATCH_SIZE ∧ d.k ≤ d.n)
    (hcodec : s.encoder.codecType = .encoder) (hlen : 0 < s.out.len) (hcur : s.encoder.curInd = 0) :
    (loopMachine E ap fec R).Reachable { (s.setCode d s.out.seqNum).pushedLocal with
      state := if 1 = d.k then .handleEncoding else .handleNewPkt } := by
  have hopen : s.openBatch d = s.setCode d s.out.seqNum := if_pos hcnt
  have hpush : (s.setCode d s.out.seqNum).pushPkt = .ok (s.setCode d s.out.seqNum).pushedLocal :=
    pushPkt_ok hcodec hlen (Nat.lt_of_le_of_lt (Nat.le_of_eq hcur) hd.1)
  have hr := loop_push (d := d) h hst (fun _ => hd) (by rw [hopen]; exact hpush)
  have hone : (s.setCode d s.out.seqNum).pushedLocal.codingPktCnt = 1 := congrArg (· + 1) hcnt
  rw [hopen, hone] at hr
  exact hr

/-- The last packet of a batch. -/
theorem loop_pushLast (h : (loopMachine E ap fec R).Reachable s) (hst : s.state = .pushNew)
    (hcnt : s.codingPktCnt ≠ 0) (hlast : s.codingPktCnt + 1 = s.kLocal)
    (hcodec : s.encoder.codecType = .encoder) (hlen : 0 < s.out.len)
    (hcur : s.encoder.curInd < s.encoder.k) :
    (loopMachine E ap fec R).Reachable { s.pushedLocal with state := .handleEncoding } := by
  have hopen : s.openBatch singly = s := if_neg hcnt
  have hr := loop_push (d := singly) h hst (fun hzero => absurd hzero hcnt)
    (by rw [hopen]; exact pushPkt_ok hcodec hlen hcur)
  rw [hopen, show s.pushedLocal.codingPktCnt = s.pushedLocal.kLocal from hlast, if_pos rfl] at hr
  exact hr

/-- The thread encodes and sends what is pending. -/
theorem loop_encode (h : (loopMachine E ap fec R).Reachable s) (hst : s.state = .handleEncoding)
    (hcnt : 0 < s.codingPktCnt) (hret : s.handleRetransmission = false)
    (hcodec : s.encoder.codecType = .encoder) (hn : s.rateArr.length = s.encoder.n)
    (hvalid : ∀ r ∈ s.rateArr, (rateCode r).isSome) (hpos : 0 < s.encoder.n)
    (hk : s.encoder.k ≤ s.encoder.n) (hstart : 0 < s.encoder.startSeq) (hraw : 0 < s.ids.rawSeq)
    (hbatch : 0 < s.ids.batchId) (hraw' : s.ids.rawSeq + s.encoder.n < 4294967296)
    (hbatch' : s.ids.batchId + 1 < 4294967296) :
    ∃ s' frames, (loopMachine E ap fec R).Reachable s' ∧ s'.Ready ∧ s'.tx = s.tx ∧
      s'.ids = s.ids.after s.encoder.n ∧ s'.batches = s.batches ++ [⟨frames, s.pending⟩] ∧
      frames ≠ [] ∧ ∀ f ∈ frames, f.frame.hdr.startSeq = s.encoder.startSeq := by
  have hends := sendCodedBatch_ends (c := s.encoder.encodeBatch fec) s.ids blank hn hcodec rfl
  obtain ⟨⟨ids, encoder, frames⟩, hsend, hids⟩ := sendCodedBatch_ok
    (c := s.encoder.encodeBatch fec) blank hn hvalid hcodec rfl hraw (Nat.le_of_lt hraw') hbatch
    hstart hpos hk
  rw [hsend] at hends
  obtain ⟨henc, hlen, hblock⟩ := hends
  have hids' : ids = s.ids.after s.encoder.n := hids
  have henc' : encoder.codecType = .encoder := (congrArg CodeInfo.codecType henc).trans hcodec
  have hlen' : frames.length = s.encoder.n := hlen
  refine ⟨{ s with
    ids := ids
    encoder := encoder.clearInfo
    codingPktCnt := 0
    pending := []
    batches := s.batches ++ [⟨frames, s.pending⟩]
    state := .handleNewPkt }, frames, ?_, ⟨rfl, rfl, rfl, hret, henc', rfl, ?_, ?_⟩, rfl, hids',
    rfl, fun hnil => ?_, fun f hf => ?_⟩
  · -- the answer of the rate adaptation is not asked for in this state
    have hen : enabledLoop E s (.pass singly blank) := by
      simp only [enabledLoop, hst]
    refine .step h (i := .pass singly blank) hen ?_
    change execSend ap fec s (.pass singly blank) = _
    simp only [execSend, hst, SendAth.encoding, hsend, hret, gt_iff_lt, if_pos hcnt,
      Bool.false_eq_true, if_false]
  · rw [hids']
    change 0 < uint32 (s.ids.rawSeq + s.encoder.n)
    rw [uint32_of_lt hraw']
    omega
  · rw [hids']
    change 0 < uint32 (s.ids.batchId + 1)
    rw [uint32_of_lt hbatch']
    omega
  · rw [hnil] at hlen'
    rw [← hlen'] at hpos
    exact Nat.lt_irrefl 0 hpos
  · obtain ⟨j, hj⟩ := List.mem_iff_getElem?.mp hf
    obtain ⟨_, _, _, hhdr, rfl⟩ := hblock j f hj
    obtain ⟨-, -, hseq, -⟩ := buildHeader_hdr hhdr
    exact hseq

/-- The thread takes a packet for retransmission. -/
theorem loop_retrans (h : (loopMachine E ap fec R).Reachable s) (hst : s.state = .handleNewPkt)
    (hE : E s.tx (.dequeue now)) (hdeq : s.tx.buf.dequeuePkt now = .ok (out, b))
    (hretrans : out.status = .occupiedRetrans) :
    (loopMachine E ap fec R).Reachable { s with
      tx := s.tx.recordDequeue out b
      out := out
      handleRetransmission := true
      state := .handlePartialBatch } := by
  refine .step h (i := .dequeue now) ⟨hst, hE⟩ ?_
  change execSend ap fec s (.dequeue now) = _
  simp only [execSend, SendAth.dequeue, hdeq, hretrans]

/-- No partial batch has to go out before the retransmission. -/
theorem loop_skipPartial (h : (loopMachine E ap fec R).Reachable s)
    (hst : s.state = .handlePartialBatch) (hcnt : s.codingPktCnt = 0)
    (hret : s.handleRetransmission = true) :
    (loopMachine E ap fec R).Reachable { s with state := .handleRetransmission } := by
  have hnone : ¬s.codingPktCnt > 0 := by
    rw [hcnt]
    exact Nat.lt_irrefl 0
  have hen : enabledLoop E s (.pass singly blank) := by
    simp only [enabledLoop, hst]
    exact fun hpos => absurd hpos hnone
  refine .step h (i := .pass singly blank) hen ?_
  change execSend ap fec s (.pass singly blank) = _
  simp only [execSend, hst, SendAth.partialBatch, if_neg hnone, if_pos hret]

/-- The thread copies the retransmission. -/
theorem loop_pushRetrans (h : (loopMachine E ap fec R).Reachable s)
    (hst : s.state = .handleRetransmission) (hcodec : s.encoder.codecType = .encoder)
    (hlen : 0 < s.out.len) (hcur : s.encoder.curInd = 0) :
    (loopMachine E ap fec R).Reachable
      { ({ s with handleRetransmission := false }.setCode singly s.out.seqNum).pushedLocal with
        state := .handleEncoding } := by
  have hpush : ({ s with handleRetransmission := false }.setCode singly s.out.seqNum).pushPkt =
      .ok ({ s with handleRetransmission := false }.setCode singly s.out.seqNum).pushedLocal :=
    pushPkt_ok hcodec hlen (Nat.lt_of_le_of_lt (Nat.le_of_eq hcur) Nat.zero_lt_one)
  have hen : enabledLoop E s (.pass singly blank) := by
    simp only [enabledLoop, hst]
    exact ⟨rfl, Nat.le_refl 1⟩
  have hpass : execSend ap fec s (.pass singly blank) = s.retransmission singly := by
    simp only [execSend, hst]
  refine .step h (i := .pass singly blank) hen (hpass.trans ?_)
  unfold SendAth.retransmission
  rw [hpush]

theorem singly_rates : ∀ r ∈ singly.rateArr, (rateCode r).isSome := by decide

theorem pairwise_rates : ∀ r ∈ pairwise.rateArr, (rateCode r).isSome := by decide

/-- A new packet goes out in a batch of its own. -/
theorem loop_single (h : (loopMachine E ap fec R).Reachable s) (hr : s.Ready)
    (hE : E s.tx (.dequeue now)) (hdeq : s.tx.buf.dequeuePkt now = .ok (out, b))
    (hnew : out.status = .occupiedNew) (hlen : 0 < out.len) (hseq : 0 < out.seqNum)
    (hraw : s.ids.rawSeq + 1 < 4294967296) (hbatch : s.ids.batchId + 1 < 4294967296) :
    ∃ s', (loopMachine E ap fec R).Reachable s' ∧ s'.Ready ∧ s'.tx = s.tx.recordDequeue out b ∧
      s'.ids = s.ids.after 1 := by
  have h1 := loop_new h hr.state hE hdeq hnew
  have h2 := loop_pushFirst (d := singly) h1 rfl hr.cnt (by decide) hr.codec hlen hr.cur
  have hstart : 0 < if out.seqNum > 0 then out.seqNum else s.encoder.startSeq := by
    rw [if_pos hseq]
    exact hseq
  obtain ⟨s', _, h3, hr', htx, hids, -⟩ := loop_encode h2 rfl (Nat.succ_pos _) hr.ret hr.codec rfl
    singly_rates Nat.zero_lt_one (Nat.le_refl 1) hstart hr.rawSeq hr.batchId hraw hbatch
  exact ⟨s', h3, hr', htx, hids⟩

/-- So does a retransmission. -/
theorem loop_resend (h : (loopMachine E ap fec R).Reachable s) (hr : s.Ready)
    (hE : E s.tx (.dequeue now)) (hdeq : s.tx.buf.dequeuePkt now = .ok (out, b))
    (hretrans : out.status = .occupiedRetrans) (hlen : 0 < out.len) (hseq : 0 < out.seqNum)
    (hraw : s.ids.rawSeq + 1 < 4294967296) (hbatch : s.ids.batchId + 1 < 4294967296) :
    ∃ s', (loopMachine E ap fec R).Reachable s' ∧ s'.Ready ∧ s'.tx = s.tx.recordDequeue out b ∧
      s'.ids = s.ids.after 1 := by
  have h1 := loop_retrans h hr.state hE hdeq hretrans
  have h2 := loop_skipPartial h1 rfl hr.cnt rfl
  have h3 := loop_pushRetrans h2 rfl hr.codec hlen hr.cur
  have hstart : 0 < if out.seqNum > 0 then out.seqNum else s.encoder.startSeq := by
    rw [if_pos hseq]
    exact hseq
  obtain ⟨s', _, h4, hr', htx, hids, -⟩ := loop_encode h3 rfl (Nat.succ_pos _) rfl hr.codec rfl
    singly_rates Nat.zero_lt_one (Nat.le_refl 1) hstart hr.rawSeq hr.batchId hraw hbatch
  exact ⟨s', h4, hr', htx, hids⟩

/-- Two new packets go out in one batch, under the number of the first one. -/
theorem loop_pair (h : (loopMachine E ap fec R).Reachable s) (hr : s.Ready)
    (hE : E s.tx (.dequeue now)) (hdeq : s.tx.buf.dequeuePkt now = .ok (out, b))
    (hnew : out.status = .occupiedNew) (hlen : 0 < out.len) (hseq : 0 < out.seqNum)
    {out' : Dequeued} {b' : TxDataBuf} (hE' : E (s.tx.recordDequeue out b) (.dequeue now))
    (hdeq' : b.dequeuePkt now = .ok (out', b')) (hnew' : out'.status = .occupiedNew)
    (hlen' : 0 < out'.len) (hraw : s.ids.rawSeq + 2 < 4294967296)
    (hbatch : s.ids.batchId + 1 < 4294967296) :
    ∃ s' batch, (loopMachine E ap fec R).Reachable s' ∧ batch ∈ s'.batches ∧ batch.frames ≠ [] ∧
      (∀ f ∈ batch.frames, f.frame.hdr.startSeq = out.seqNum) ∧
      batch.handOuts = [⟨out.seqNum, out.status⟩, ⟨out'.seqNum, out'.status⟩] := by
  -- the first packet opens a batch of two, the second one completes it
  have h1 := loop_new h hr.state hE hdeq hnew
  have h2 := loop_pushFirst (d := pairwise) h1 rfl hr.cnt (by decide) hr.codec hlen hr.cur
  have h3 := loop_new h2 rfl hE' hdeq' hnew'
  have hcnt : s.codingPktCnt + 1 + 1 = 2 := by rw [hr.cnt]
  have hcur : s.encoder.curInd + 1 < 2 := by rw [hr.cur]; decide
  have h4 := loop_pushLast h3 rfl (Nat.succ_ne_zero _) hcnt hr.codec hlen' hcur
  have hstart : 0 < if out.seqNum > 0 then out.seqNum else s.encoder.startSeq := by
    rw [if_pos hseq]
    exact hseq
  obtain ⟨s', frames, h5, -, -, -, hbatches, hne, hframes⟩ := loop_encode h4 rfl (Nat.succ_pos _)
    hr.ret hr.codec rfl pairwise_rates Nat.zero_lt_two (Nat.le_refl 2) hstart hr.rawSeq hr.batchId
    hraw hbatch
  refine ⟨s', _, h5, hbatches ▸ List.mem_append_right _ List.mem_cons_self, hne,
    fun f hf => (hframes f hf).trans (if_pos hseq), ?_⟩
  simp [SentBatch.handOuts, SendAth.pushedLocal, SendAth.setCode, SendAth.lastOut, hr.pending]

end Thread

section Idle

variable {ap : WspaceAP} {fec : Fec} {R e n m : Nat} {s : SendAth}

theorem SendAth.Ready.withTx (hr : s.Ready) (t : TxState) : SendAth.Ready { s with tx := t } :=
  ⟨hr.state, hr.cnt, hr.pending, hr.ret, hr.codec, hr.cur, hr.rawSeq, hr.batchId⟩

theorem slot_sent_stored {t : TxState} (hcurr : t.buf.currPt = t.buf.tailPt) (pkt : List UInt8)
    (now : TIME) : ((t.stored pkt).sent now).buf.slot t.buf.tailPt =
      ((t.buf.slot t.buf.tailPt).update (t.buf.tailPt + 1) .occupiedNew pkt.length
        t.buf.numRetrans).sent now := by
  have hself : (t.stored pkt).buf.slot t.buf.tailPt =
      (t.buf.slot t.buf.tailPt).update (t.buf.tailPt + 1) .occupiedNew pkt.length
        t.buf.numRetrans := TxDataBuf.slot_setSlot_self
  have hsent : ((t.stored pkt).sent now).buf.slot t.buf.currPt =
      ((t.stored pkt).buf.slot t.buf.currPt).sent now := TxDataBuf.slot_setSlot_self
  rw [hcurr, hself] at hsent
  exact hsent

theorem slot_sent_stored_of_ne {t : TxState} (hcurr : t.buf.currPt = t.buf.tailPt)
    (pkt : List UInt8) (now : TIME) {i : Nat} (hne : i % BUF_SIZE ≠ t.buf.tailPt % BUF_SIZE) :
    ((t.stored pkt).sent now).buf.slot i = t.buf.slot i := by
  have hsent : ((t.stored pkt).sent now).buf.slot i = (t.stored pkt).buf.slot i :=
    TxDataBuf.slot_setSlot_of_ne (hcurr ▸ hne)
  exact hsent.trans (TxDataBuf.slot_setSlot_of_ne hne)

/-- Every packet so far has gone out in a batch of its own: `m` packets, of which the last `m - n`
are not acknowledged; `e` is the number that the next ack should have. -/
structure Drained (R e n m : Nat) (s : SendAth) : Prop where
  ready : s.Ready
  head : s.tx.buf.headPt = n
  curr : s.tx.buf.currPt = m
  tail : s.tx.buf.tailPt = m
  numRetrans : s.tx.buf.numRetrans = R
  expect : s.tx.client.expectDataAckSeq = e
  rawSeq : s.ids.rawSeq = m + 1
  batchId : s.ids.batchId = m + 1

/-- The next packet goes out at once. -/
theorem drained_succ (h : (sendMachine ap fec R).Reachable s) (hd : Drained R e n m s)
    (hroom : m < n + BUF_SIZE) (hm : m + 1 < 4294967295) :
    ∃ s', (sendMachine ap fec R).Reachable s' ∧ Drained R e n (m + 1) s' ∧
      ((s'.tx.buf.slot m).status = .occupiedOutbound ∧ (s'.tx.buf.slot m).numRetrans = R) ∧
      ∀ i, i % BUF_SIZE ≠ m % BUF_SIZE → s'.tx.buf.slot i = s.tx.buf.slot i := by
  obtain ⟨hr, rfl, hcurr, rfl, rfl, rfl, hraw, hbatch⟩ := hd
  have hnext : s.tx.buf.tailPt + 1 + 1 < 4294967296 := by omega
  have hw := windowInv_of_reachable (tx_reachable h)
  have hen : enabledTx s.tx (.enqueue [1]) :=
    ⟨by decide, by decide, fun _ => hw.tail_eq ▸ hm⟩
  have h1 := loop_env h (fun _ hc => by cases hc) hen (hw.exec_stored hroom)
  have hw1 : (s.tx.stored [1]).WindowInv := windowInv_of_reachable (tx_reachable h1)
  have hlt : (s.tx.stored [1]).buf.currPt < (s.tx.stored [1]).buf.tailPt :=
    Nat.lt_succ_of_le (Nat.le_of_eq hcurr)
  have hnew : ((s.tx.stored [1]).buf.slot (s.tx.stored [1]).buf.currPt).status = .occupiedNew := by
    change ((s.tx.stored [1]).buf.slot s.tx.buf.currPt).status = _
    rw [hcurr]
    exact congrArg BookKeeping.status TxDataBuf.slot_setSlot_self
  obtain ⟨b, hdeq, hrec, hseq, hlen, -⟩ := hw1.dequeue_sent ⟨0, 0⟩ hlt (by rw [hnew]; rfl)
  obtain ⟨s', h2, hr', htx, hids⟩ := loop_single h1 (hr.withTx _)
    (decide_eq_false (Nat.ne_of_gt hlt)) hdeq hnew hlen (hseq ▸ Nat.succ_pos _)
    (by rw [hraw]; exact hnext) (by rw [hbatch]; exact hnext)
  -- all in all the packet has been stored and handed out
  have htx' : s'.tx = (s.tx.stored [1]).sent ⟨0, 0⟩ := htx.trans hrec
  have hslot := slot_sent_stored hcurr [1] ⟨0, 0⟩
  have hother := fun i hne => slot_sent_stored_of_ne (i := i) hcurr [1] ⟨0, 0⟩ hne
  rw [← htx'] at hslot hother
  refine ⟨s', h2, ⟨hr', ?_, ?_, ?_, ?_, ?_, ?_, ?_⟩, ⟨?_, ?_⟩, hother⟩
  · rw [htx']
    rfl
  · rw [htx', ← hcurr]
    rfl
  · rw [htx']
    rfl
  · rw [htx']
    rfl
  · rw [htx']
    rfl
  · rw [hids, ← hraw]
    exact uint32_of_lt (hraw ▸ hnext)
  · rw [hids, ← hbatch]
    exact uint32_of_lt (hbatch ▸ hnext)
  · rw [hslot]
    rfl
  · rw [hslot]
    rfl

theorem accepts_of {c : ClientContext} {ack : DataAck} (hseq : c.expectDataAckSeq ≤ ack.ackSeq)
    (hnew : c.dataPktBuf.headPt < ack.endSeq) (hend : ack.endSeq < 4294967296) :
    c.accepts ack = true := by
  simp only [ClientContext.accepts, decide_eq_true_eq]
  rw [uint32Sub_of_le (by omega) hend]
  omega

/-- The handler takes an ack. -/
theorem send_acked (h : (sendMachine ap fec R).Reachable s) (hr : s.Ready) {ack : DataAck}
    (hacc : s.tx.client.accepts ack = true) (hwf : ack.WellFormed s.tx.history.highest) :
    ∃ s', (sendMachine ap fec R).Reachable s' ∧ s'.Ready ∧ s'.ids = s.ids ∧
      s'.tx.buf = applyDataAck ap ⟨0, 0⟩ s.tx.buf ack ∧
      s'.tx.client.expectDataAckSeq = uint32 (ack.ackSeq + 1) := by
  have hen : enabledTx s.tx (.dataAck ⟨0, 0⟩ ack) := hwf
  have h1 := loop_env h (fun _ hc => by cases hc) hen rfl
  refine ⟨_, h1, hr.withTx _, rfl, ?_, ?_⟩
  · exact congrArg (fun r => r.2.dataPktBuf) (handleDataAck_accepted hacc)
  · exact congrArg (fun r => r.2.expectDataAckSeq) (handleDataAck_accepted hacc)

/-- An ack for everything empties the buffer. -/
theorem applyDataAck_all (ap : WspaceAP) {b : TxDataBuf} (now : TIME) (ackSeq : Nat) {endSeq : Nat}
    (hlt : b.headPt < endSeq) (hcurr : b.currPt = endSeq) :
    (applyDataAck ap now b ⟨ackSeq, endSeq, []⟩).headPt = endSeq ∧
      (applyDataAck ap now b ⟨ackSeq, endSeq, []⟩).currPt = endSeq := by
  simp only [applyDataAck, bulkHead, moveCursors, if_pos, hcurr, Nat.lt_irrefl, if_false, gt_iff_lt,
    hlt, and_self]

/-- One packet is sent and acknowledged. -/
theorem idle_succ (h : (sendMachine ap fec R).Reachable s) (hd : Drained R (n + 1) n n s)
    (hn : n + 2 < 4294967295) :
    ∃ s', (sendMachine ap fec R).Reachable s' ∧ Drained R (n + 2) (n + 1) (n + 1) s' := by
  obtain ⟨s', h1, ⟨hr, hhead, hcurr, htail, hnum, hexp, hraw, hbatch⟩, -⟩ := drained_succ h hd
    (Nat.lt_add_of_pos_right (by decide)) (Nat.lt_of_succ_lt hn)
  have hlt : s'.tx.buf.headPt < n + 1 := by omega
  have hnext : n + 2 < 4294967296 := by omega
  have hhigh := (windowInv_of_reachable (tx_reachable h1)).curr_le
  have hacc : s'.tx.client.accepts ⟨n + 1, n + 1, []⟩ = true :=
    accepts_of (Nat.le_of_eq hexp) hlt (Nat.lt_of_succ_lt hnext)
  obtain ⟨t, h2, hr2, hids, hbuf, hexp2⟩ := send_acked h1 hr hacc
    ⟨List.Pairwise.nil, nofun, hcurr ▸ hhigh⟩
  obtain ⟨hhead2, hcurr2⟩ := applyDataAck_all ap ⟨0, 0⟩ (n + 1) hlt hcurr
  rw [← hbuf] at hhead2 hcurr2
  refine ⟨t, h2, hr2, hhead2, hcurr2, ?_, ?_, hexp2.trans (uint32_of_lt hnext), ?_, ?_⟩
  · rw [hbuf]
    exact htail
  · rw [hbuf]
    exact hnum
  · rw [hids]
    exact hraw
  · rw [hids]
    exact hbatch

/-- Any number of packets may have been sent and acknowledged. -/
theorem idle_reachable (n : Nat) (hn : n + 1 < 4294967295) :
    ∃ s, (sendMachine ap fec R).Reachable s ∧ Drained R (n + 1) n n s := by
  induction n with
  | zero =>
    refine ⟨SendAth.start (TxState.init (fun _ => ⟨0, 0⟩) R), ?_, ?_⟩
    · exact .init ⟨⟨_, rfl⟩, rfl, rfl, rfl, ⟨_, _, _, _, rfl⟩, rfl, rfl, rfl, rfl⟩
    · exact ⟨⟨rfl, rfl, rfl, rfl, rfl, rfl, Nat.zero_lt_one, Nat.zero_lt_one⟩, rfl, rfl, rfl, rfl,
        rfl, rfl, rfl⟩
  | succ n ih =>
    obtain ⟨s, h, hd⟩ := ih (Nat.lt_of_succ_lt hn)
    exact idle_succ h hd hn

/-! ### A hole at the cursor -/

/-- The oldest packet `n + 1` is outbound again, its successor has been acknowledged, and the cursor
stands at the hole that the successor has left. -/
structure Hole (n : Nat) (s : SendAth) : Prop where
  ready : s.Ready
  head : s.tx.buf.headPt = n
  curr : s.tx.buf.currPt = n + 1
  hole : (s.tx.buf.slot (n + 1)).IsFree
  highest : s.tx.history.highest ≤ n + 2
  rawSeq : s.ids.rawSeq + 2 < 4294967296
  batchId : s.ids.batchId + 1 < 4294967296

theorem bulkHead_first (n ackSeq endSeq : Nat) (hn : n + 1 < 4294967296) :
    bulkHead n ⟨ackSeq, endSeq, [n + 1]⟩ = n := by
  have hsub : uint32Sub (n + 1) 1 = n := uint32Sub_of_le (by omega) hn
  have hskip : skipStale n [n + 1] = [n + 1] := by
    refine List.dropWhile_cons_of_neg ?_
    rw [decide_eq_true_eq, hsub]
    exact Nat.lt_irrefl n
  have hne : [n + 1] ≠ [] := List.cons_ne_nil _ _
  simp only [bulkHead, if_neg hne, hskip, hsub, gt_iff_lt, Nat.lt_irrefl, if_false]

/-- An ack frees every slot that it does not nack. -/
theorem BookKeeping.afterAck_acked {now : TIME} (bk : BookKeeping) :
    (bk.afterAck ap now false).IsFree := by
  cases hst : bk.status <;> simp [afterAck, hst, IsFree]

/-- An ack of two packets that nacks the first one marks it and frees the other. -/
theorem applyDataAck_first {b : TxDataBuf} (now : TIME) {ackSeq : Nat}
    (hfits : AckFits b ⟨ackSeq, n + 2, [n + 1]⟩) (hhead : b.headPt = n)
    (hst : (b.slot n).status = .occupiedOutbound) (hnum : (b.slot n).numRetrans = ap.numRetrans)
    (hpos : (b.slot n).numRetrans ≠ 0) :
    (applyDataAck ap now b ⟨ackSeq, n + 2, [n + 1]⟩).headPt = n ∧
      (applyDataAck ap now b ⟨ackSeq, n + 2, [n + 1]⟩).currPt = n ∧
      ((applyDataAck ap now b ⟨ackSeq, n + 2, [n + 1]⟩).slot n).IsRetrans ∧
      ((applyDataAck ap now b ⟨ackSeq, n + 2, [n + 1]⟩).slot (n + 1)).IsFree := by
  have hsweep : HandlerSweep b (applyDataAck ap now b _) _ _ := applyDataAck_sweep hfits
  have hbulk : bulkHead b.headPt ⟨ackSeq, n + 2, [n + 1]⟩ = n := by
    have hend : n + 2 < 4294967296 := hfits.end_lt
    rw [hhead]
    exact bulkHead_first n ackSeq _ (by omega)
  rw [hbulk] at hsweep
  obtain ⟨hslot, -, hlow, ⟨r, hr, hcurr⟩, -, -, -⟩ := hsweep
  rw [hhead] at hslot hlow hr
  have hlt : n < n + 2 := by omega
  have hlt' : n + 1 < n + 2 := by omega
  have hpos' : ap.numRetrans ≠ 0 := hnum ▸ hpos
  have hmarked : ((applyDataAck ap now b ⟨ackSeq, n + 2, [n + 1]⟩).slot n).IsRetrans := by
    rw [hslot n (Nat.le_refl n) hlt]
    simp [ackImage, BookKeeping.afterAck, BookKeeping.IsRetrans, hst, hnum, hpos']
  have hfree : ((applyDataAck ap now b ⟨ackSeq, n + 2, [n + 1]⟩).slot (n + 1)).IsFree := by
    rw [hslot (n + 1) (Nat.le_succ n) hlt']
    have hnot : decide (n + 1 + 1 ∈ [n + 1]) = false := by simp
    rw [ackImage, if_neg (by simp), hnot]
    exact BookKeeping.afterAck_acked _
  -- the nacked slot is both the first in use and the first marked
  have hheadn := hlow.unique ⟨Nat.le_refl n, Nat.le_of_lt hlt,
    fun j h1 h2 => absurd h1 (Nat.not_le_of_lt h2), fun _ => hmarked.not_isFree⟩
  have hrn := hr.unique ⟨Nat.le_refl n, Nat.le_of_lt hlt,
    fun j h1 h2 => absurd h1 (Nat.not_le_of_lt h2), fun _ => hmarked⟩
  refine ⟨hheadn, ?_, hmarked, hfree⟩
  rw [hcurr, hrn]
  exact if_pos hlt

theorem mod_ne_succ (n : Nat) : n % BUF_SIZE ≠ (n + 1) % BUF_SIZE := by
  have hsize : BUF_SIZE = 500 := rfl
  rw [hsize]
  omega

/-- Two packets are sent and the first one is nacked. -/
theorem nacked_reachable (h : (sendMachine ap fec R).Reachable s) (hd : Drained R (n + 1) n n s)
    (hnum : R = ap.numRetrans) (hpos : R ≠ 0) (hn : n + 2 < 4294967295) :
    ∃ s', (sendMachine ap fec R).Reachable s' ∧ s'.Ready ∧ s'.tx.buf.headPt = n ∧
      s'.tx.buf.currPt = n ∧ (s'.tx.buf.slot n).IsRetrans ∧
      (s'.tx.buf.slot (n + 1)).IsFree ∧ s'.tx.buf.tailPt = n + 2 ∧
      s'.ids.rawSeq = n + 3 ∧ s'.ids.batchId = n + 3 := by
  have hsize : BUF_SIZE = 500 := rfl
  obtain ⟨s1, h1, hd1, ⟨hst, hnum1⟩, -⟩ := drained_succ h hd (by omega) (Nat.lt_of_succ_lt hn)
  obtain ⟨s2, h2, ⟨hr, hhead, hcurr, htail, -, hexp, hraw, hbatch⟩, -, hother⟩ :=
    drained_succ h1 hd1 (by omega) hn
  -- both packets are in flight, and the ack is for them
  have hslot := hother n (mod_ne_succ n)
  have hlt : s2.tx.buf.headPt < n + 2 := by omega
  have hw := windowInv_of_reachable (tx_reachable h2)
  have hacc : s2.tx.client.accepts ⟨n + 1, n + 2, [n + 1]⟩ = true :=
    accepts_of (Nat.le_of_eq hexp) hlt (by change n + 2 < _; omega)
  have hwf : DataAck.WellFormed ⟨n + 1, n + 2, [n + 1]⟩ s2.tx.history.highest := by
    have hhigh := hw.curr_le
    refine ⟨List.pairwise_singleton _ _, fun m hm => ?_, by change n + 2 ≤ _; omega⟩
    rw [List.mem_singleton.mp hm]
    exact ⟨Nat.succ_pos n, Nat.le_succ _⟩
  obtain ⟨hhead', hcurr', hret, hfree⟩ := applyDataAck_first ⟨0, 0⟩
    (hw.ackFits hacc hwf) hhead (by rw [hslot, hst]) (by rw [hslot, hnum1, hnum])
    (by rw [hslot, hnum1]; exact hpos)
  obtain ⟨t, h3, hr3, hids, hbuf, -⟩ := send_acked h2 hr hacc hwf
  have htail' : (applyDataAck ap ⟨0, 0⟩ s2.tx.buf ⟨n + 1, n + 2, [n + 1]⟩).tailPt = n + 2 :=
    (applyDataAck_sweep (hw.ackFits hacc hwf)).tail.trans htail
  rw [← hbuf] at hhead' hcurr' hret hfree htail'
  exact ⟨t, h3, hr3, hhead', hcurr', hret, hfree, htail', hids ▸ hraw, hids ▸ hbatch⟩

/-- The nacked packet is sent again, which takes the cursor to the hole behind it. -/
theorem hole_reachable (h : (sendMachine ap fec R).Reachable s) (hd : Drained R (n + 1) n n s)
    (hnum : R = ap.numRetrans) (hpos : R ≠ 0) (hn : n + 6 < 4294967295) :
    ∃ s', (sendMachine ap fec R).Reachable s' ∧ Hole n s' ∧ s'.tx.buf.tailPt = n + 2 := by
  obtain ⟨t, h1, hr, hhead, hcurr, hret, hfree, htail, hraw, hbatch⟩ :=
    nacked_reachable h hd hnum hpos (by omega)
  have hw := windowInv_of_reachable (tx_reachable h1)
  have hhigh := hw.highest_le
  have hlt : t.tx.buf.currPt < t.tx.buf.tailPt := by omega
  have hretrans : (t.tx.buf.slot t.tx.buf.currPt).status = .occupiedRetrans := by
    rw [hcurr]
    exact hret
  obtain ⟨b, hdeq, hrec, hseq, hlen, -⟩ := hw.dequeue_sent ⟨0, 0⟩ hlt (by rw [hretrans]; rfl)
  obtain ⟨s', h2, hr', htx, hids⟩ := loop_resend h1 hr (decide_eq_false (Nat.ne_of_gt hlt)) hdeq
    hretrans hlen (hseq ▸ Nat.succ_pos _) (by omega) (by omega)
  rw [hrec] at htx
  have hslot : (t.tx.sent ⟨0, 0⟩).buf.slot (n + 1) = t.tx.buf.slot (n + 1) := by
    refine TxDataBuf.slot_setSlot_of_ne ?_
    rw [hcurr]
    exact (mod_ne_succ n).symm
  have hhigh' : (t.tx.sent ⟨0, 0⟩).history.highest = max t.tx.history.highest (n + 1) := by
    rw [← hcurr]
    exact t.tx.history.highest_append _ _
  refine ⟨s', h2, ⟨hr', ?_, ?_, ?_, ?_, ?_, ?_⟩, ?_⟩
  · rw [htx]
    exact hhead
  · rw [htx]
    exact congrArg (· + 1) hcurr
  · rw [htx, hslot]
    exact hfree
  · rw [htx, hhigh']
    omega
  · rw [hids]
    change uint32 (t.ids.rawSeq + 1) + 2 < 4294967296
    rw [uint32_of_lt (by omega)]
    omega
  · rw [hids]
    change uint32 (t.ids.batchId + 1) + 1 < 4294967296
    rw [uint32_of_lt (by omega)]
    omega
  · rw [htx]
    exact htail

/-- More packets are enqueued behind the hole. -/
theorem hole_filled (h : (sendMachine ap fec R).Reachable s) (hh : Hole n s)
    (hlt : n + 1 < s.tx.buf.tailPt) (k : Nat) (hroom : s.tx.buf.tailPt + k ≤ n + BUF_SIZE)
    (hcnt : s.tx.buf.tailPt + k < 4294967295) :
    ∃ s', (sendMachine ap fec R).Reachable s' ∧ Hole n s' ∧
      s'.tx.buf.tailPt = s.tx.buf.tailPt + k := by
  induction k with
  | zero => exact ⟨s, h, hh, rfl⟩
  | succ k ih =>
    obtain ⟨t, h1, ⟨hr, hhead, hcurr, hhole, hhigh, hraw, hbatch⟩, htail⟩ :=
      ih (by omega) (by omega)
    have hw := windowInv_of_reachable (tx_reachable h1)
    have hen : enabledTx t.tx (.enqueue [1]) := by
      refine ⟨by decide, by decide, fun _ => ?_⟩
      rw [← hw.tail_eq]
      omega
    have h2 := loop_env h1 (fun _ hc => by cases hc) hen (hw.exec_stored (by omega))
    -- the new packet does not go to the hole, which lies within the window
    have hslot : (t.tx.stored [1]).buf.slot (n + 1) = t.tx.buf.slot (n + 1) :=
      TxDataBuf.slot_setSlot_window n ⟨by omega, by omega⟩ ⟨by omega, by omega⟩ (by omega)
    refine ⟨_, h2, ⟨hr.withTx _, hhead, hcurr, ?_, hhigh, hraw, hbatch⟩, congrArg (· + 1) htail⟩
    change ((t.tx.stored [1]).buf.slot (n + 1)).IsFree
    rw [hslot]
    exact hhole

theorem exec_enqueued (ap : WspaceAP) {t : TxState} {pkt : List UInt8} {b : TxDataBuf}
    (h : t.buf.enqueuePkt pkt = .ok b) :
    ∃ t', execTx ap t (.enqueue pkt) = .ok t' ∧ t'.buf = b := by
  unfold execTx
  simp only [h]
  exact ⟨_, rfl, rfl⟩

/-- Without a bound on their number packets are enqueued past the last number. -/
theorem endless_enqueue (h : (endlessMachine ap fec R).Reachable s) (hr : s.Ready)
    (hroom : s.tx.buf.isFull = false) (hfree : (s.tx.buf.slot s.tx.buf.tailPt).IsFree) :
    ∃ s', (endlessMachine ap fec R).Reachable s' ∧ s'.Ready ∧ s'.ids = s.ids ∧
      s'.tx.buf.headPt = s.tx.buf.headPt ∧ s'.tx.buf.currPt = s.tx.buf.currPt ∧
      s'.tx.buf.tailPt = uint32 (s.tx.buf.tailPt + 1) ∧
      s'.tx.buf.slot s.tx.buf.tailPt = (s.tx.buf.slot s.tx.buf.tailPt).update
        (uint32 (s.tx.buf.tailPt + 1)) .occupiedNew 1 s.tx.buf.numRetrans ∧
      ∀ i, i % BUF_SIZE ≠ s.tx.buf.tailPt % BUF_SIZE → s'.tx.buf.slot i = s.tx.buf.slot i := by
  have hen : possibleTx s.tx (.enqueue [1]) := ⟨by decide, by decide⟩
  obtain ⟨t, hexec, hbuf⟩ := exec_enqueued ap (TxDataBuf.enqueuePkt_room [1] hroom hfree)
  refine ⟨_, loop_env h (fun _ hc => by cases hc) hen hexec, hr.withTx _, rfl, ?_, ?_, ?_, ?_,
    fun i hi => ?_⟩
  · exact (congrArg TxDataBuf.headPt hbuf).trans rfl
  · exact (congrArg TxDataBuf.currPt hbuf).trans rfl
  · exact (congrArg TxDataBuf.tailPt hbuf).trans rfl
  · change t.buf.slot _ = _
    rw [hbuf]
    exact TxDataBuf.slot_setSlot_self
  · change t.buf.slot _ = _
    rw [hbuf]
    exact TxDataBuf.slot_setSlot_of_ne hi

/-- A slot with a new packet. -/
structure BookKeeping.IsNew (bk : BookKeeping) : Prop where
  status : bk.status = .occupiedNew
  len : 0 < bk.len ∧ bk.len ≤ PKT_SIZE
  seqNum : 0 < bk.seqNum

theorem dequeuePkt_new {b : TxDataBuf} (now : TIME) (hn : b.currPt + 1 < 4294967296)
    (hnew : (b.slot b.currPt).IsNew) :
    ∃ b', b.dequeuePkt now = .ok (b.dequeued now, b') ∧ b'.currPt = b.currPt + 1 ∧
      b'.tailPt = b.tailPt ∧
      ∀ i, i % BUF_SIZE ≠ b.currPt % BUF_SIZE → b'.slot i = b.slot i := by
  obtain ⟨hst, hlen, hseq⟩ := hnew
  refine ⟨_, TxDataBuf.dequeuePkt_sent hn (by rw [hst]; rfl) hlen hseq ?_, rfl, rfl,
    fun i hi => TxDataBuf.slot_setSlot_of_ne hi⟩
  rw [hst]
  exact nofun

/-- Two slots with new packets from the cursor on go out as one batch. -/
theorem endless_pair (h : (endlessMachine ap fec R).Reachable s) (hr : s.Ready)
    (hcurr : s.tx.buf.currPt = n) (htail : s.tx.buf.tailPt < n) (hn : n + 2 < 4294967296)
    (hnew : (s.tx.buf.slot n).IsNew) (hnew' : (s.tx.buf.slot (n + 1)).IsNew)
    (hraw : s.ids.rawSeq + 2 < 4294967296) (hbatch : s.ids.batchId + 1 < 4294967296) :
    ∃ s' batch, (endlessMachine ap fec R).Reachable s' ∧ batch ∈ s'.batches ∧
      batch.frames ≠ [] ∧
      (∀ f ∈ batch.frames, f.frame.hdr.startSeq = (s.tx.buf.slot n).seqNum) ∧
      batch.handOuts.map HandOut.seqNum =
        [(s.tx.buf.slot n).seqNum, (s.tx.buf.slot (n + 1)).seqNum] := by
  subst hcurr
  obtain ⟨b, hdeq, hcurrb, htailb, hother⟩ := dequeuePkt_new ⟨0, 0⟩ (by omega) hnew
  have hslot : b.slot b.currPt = s.tx.buf.slot (s.tx.buf.currPt + 1) := by
    rw [hcurrb]
    exact hother _ (mod_ne_succ _).symm
  have hnewb : (b.slot b.currPt).IsNew := hslot ▸ hnew'
  obtain ⟨b', hdeq', -⟩ := dequeuePkt_new ⟨0, 0⟩ (by omega) hnewb
  have hE : possibleTx s.tx (.dequeue ⟨0, 0⟩) := decide_eq_false (Nat.ne_of_lt htail)
  have hE' : possibleTx (s.tx.recordDequeue (s.tx.buf.dequeued ⟨0, 0⟩) b) (.dequeue ⟨0, 0⟩) := by
    refine decide_eq_false ?_
    change b.tailPt ≠ b.currPt
    omega
  obtain ⟨s', batch, h1, hmem, hne, hframes, houts⟩ := loop_pair h hr hE hdeq hnew.status
    hnew.len.1 hnew.seqNum hE' hdeq' hnewb.status hnewb.len.1 hraw hbatch
  refine ⟨s', batch, h1, hmem, hne, hframes, ?_⟩
  rw [houts, ← hslot]
  rfl

/-- A run past the last number. Slot `0` has been empty since number `4294967001` was acknowledged,
and receives number `1` before the cursor has passed it; the batch that starts with `1` goes on with
`4294967002`. -/
theorem endlessMachine_mislabels :
    ∃ s, (endlessMachine ⟨2, 10, 3⟩ Fec.copy 2).Reachable s ∧ ∃ b ∈ s.batches, b.frames ≠ [] ∧
      (∀ f ∈ b.frames, f.frame.hdr.startSeq = 1) ∧
      b.handOuts.map HandOut.seqNum = [1, 4294967002] := by
  obtain ⟨s0, h0, hd⟩ : ∃ s, (sendMachine ⟨2, 10, 3⟩ Fec.copy 2).Reachable s ∧
      Drained 2 (4294966999 + 1) 4294966999 4294966999 s := idle_reachable 4294966999 (by decide)
  obtain ⟨s1, h1, hh1, htail1⟩ := hole_reachable h0 hd rfl (by decide) (by decide)
  -- the tail moves up to the last number
  obtain ⟨s2, h2, ⟨hr2, hhead2, hcurr2, hhole, hhigh, hraw, hbatch⟩, htail2⟩ :=
    hole_filled h1 hh1 (by omega) 293 (by rw [htail1]; decide) (by rw [htail1]; decide)
  have htail2 : s2.tx.buf.tailPt = 4294967294 := htail2.trans (congrArg (· + 293) htail1)
  have hw := windowInv_of_reachable (tx_reachable h2)
  have hfree : ∀ i, 4294967294 ≤ i → i < 4294967499 → (s2.tx.buf.slot i).IsFree := fun i hi1 hi2 =>
    hw.unused i (by omega) (by rw [hhead2]; exact hi2)
  have hnext : (s2.tx.buf.slot 4294967001).IsNew ∧
      (s2.tx.buf.slot 4294967001).seqNum = 4294967002 := by
    have hok := hw.slot 4294967001 (by omega) (by omega)
    have hst := hok.new.mpr hhigh
    obtain ⟨hseq, hlen⟩ := hok.used (by rw [BookKeeping.IsFree, hst]; decide)
    exact ⟨⟨hst, hlen, by omega⟩, hseq⟩
  -- slot `0` is the hole, as the numbers wrap in the middle of the ring
  have hzero : (s2.tx.buf.slot 0).IsFree := by
    rw [TxDataBuf.slot_congr (show 0 % BUF_SIZE = (4294966999 + 1) % BUF_SIZE by decide)]
    exact hhole
  obtain ⟨s3, h3, hr3, hids3, hhead3, hcurr3, htail3, -, hother3⟩ := endless_enqueue
    (endless_of_send h2) hr2 (decide_eq_false (by rw [hhead2, htail2]; decide))
    (by rw [htail2]; exact hfree _ (by decide) (by decide))
  rw [htail2] at htail3 hother3
  obtain ⟨s4, h4, hr4, hids4, hhead4, hcurr4, htail4, -, hother4⟩ := endless_enqueue h3 hr3
    (decide_eq_false (by rw [hhead3, hhead2, htail3]; decide)) (by
      rw [htail3, hother3 _ (by decide)]
      exact hfree _ (by decide) (by decide))
  rw [htail3] at htail4 hother4
  obtain ⟨s5, h5, hr5, hids5, hhead5, hcurr5, htail5, hslot5, hother5⟩ := endless_enqueue h4 hr4
    (decide_eq_false (by rw [hhead4, hhead3, hhead2, htail4]; decide)) (by
      rw [htail4, hother4 _ (by decide), hother3 _ (by decide)]
      exact hzero)
  rw [htail4] at htail5 hslot5 hother5
  -- the cursor stands at the hole, which holds packet `1` now
  have hslot : s5.tx.buf.slot 4294967000 = (s4.tx.buf.slot 0).update 1 .occupiedNew 1
      s4.tx.buf.numRetrans := by
    rw [TxDataBuf.slot_congr (show 4294967000 % BUF_SIZE = 0 % BUF_SIZE by decide)]
    exact hslot5
  have hslot' : s5.tx.buf.slot 4294967001 = s2.tx.buf.slot 4294967001 := by
    rw [hother5 _ (by decide), hother4 _ (by decide), hother3 _ (by decide)]
  have hids : s5.ids = s2.ids := by rw [hids5, hids4, hids3]
  have hcurr : s5.tx.buf.currPt = 4294967000 := by rw [hcurr5, hcurr4, hcurr3, hcurr2]
  obtain ⟨s, b, h6, hb, hne, hframes, houts⟩ := endless_pair h5 hr5 hcurr
    (by rw [htail5]; decide) (by decide)
    (by rw [hslot]; exact ⟨rfl, by change 0 < 1 ∧ 1 ≤ PKT_SIZE; decide, Nat.one_pos⟩)
    (hslot'.symm ▸ hnext.1) (hids ▸ hraw) (hids ▸ hbatch)
  rw [hslot] at hframes houts
  rw [hslot', hnext.2] at houts
  exact ⟨s, h6, b, hb, hne, hframes, houts⟩

end Idle

end WspaceScout
