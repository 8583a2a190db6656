import WspaceScout.DataPath.Batching

/-!
# The payload that goes out under a sequence number

`DequeuePkt` hands out a pointer into the ring, and the packet is copied later. The slot behind the
pointer may be freed and reused before that, so a payload can go out under the sequence number of
another packet. As long as no packet is stored into the slot that the thread still points to, every
packet goes out with its own payload.

## Main definitions

- `TxState.ContentInv` — every slot in use stores what was enqueued under its number
- `SendAth.Spares` — the side condition on stores

## Main results

- `Effect.contentInv` — the step lemma of the buffer
- `payloadInv_of_reachable` — the run lemma of the thread
- `sendMachine_payload` — payloads in runs that meet the side condition
- `sendMachine_payload_reused` — a run that does not
-/

namespace WspaceScout

open Foundation

/-- Every slot in use stores the payload that was enqueued under its sequence number. -/
def TxState.ContentInv (s : TxState) : Prop :=
  ∀ i, s.buf.headPt ≤ i → i < s.buf.tailPt → ¬(s.buf.slot i).IsFree →
    (i + 1, s.buf.pktBuf.read (TxDataBuf.getPktBufAddr i) (s.buf.slot i).len) ∈ s.history.enqueued

namespace SendAth

/-- The input does not store a packet into the slot that the thread has yet to copy from. -/
def Spares (s : SendAth) (input : SendInput) : Prop :=
  ∀ pkt, input = .env (.enqueue pkt) → s.HoldsPkt →
    s.tx.buf.isFull = true ∨ TxDataBuf.getPktBufAddr s.tx.buf.tailPt ≠ s.out.buf

/-- The thread points to a slot that still stores what it was handed. -/
structure HeldInv (s : SendAth) : Prop where
  buf : ∃ j, s.out.buf = TxDataBuf.getPktBufAddr j
  len : s.out.len ≤ PKT_SIZE
  content : (s.out.seqNum, s.srcBytes) ∈ s.tx.history.enqueued

/-- Buffer, pointer and copies agree with what was enqueued. -/
structure PayloadInv (s : SendAth) : Prop where
  content : s.tx.ContentInv
  held : s.HoldsPkt → s.HeldInv
  pushed : ∀ p ∈ s.pkts, (p.handOut.seqNum, p.bytes) ∈ s.tx.history.enqueued

end SendAth

/-! ### The buffer -/

section Buffer

variable {ap : WspaceAP} {s s' : TxState} {input : TxInput}

/-- A block is not touched by a store into another block. -/
theorem TxDataBuf.read_write_block (m : Memory) {i j len : Nat} {pkt : List UInt8}
    (hne : TxDataBuf.getPktBufAddr i ≠ TxDataBuf.getPktBufAddr j) (hpkt : pkt.length ≤ PKT_SIZE)
    (hlen : len ≤ PKT_SIZE) :
    (m.write (TxDataBuf.getPktBufAddr i) pkt).read (TxDataBuf.getPktBufAddr j) len =
      m.read (TxDataBuf.getPktBufAddr j) len := by
  refine m.read_write_of_disjoint pkt ?_
  have hsize : PKT_SIZE = 1472 := rfl
  rw [hsize] at hpkt hlen
  unfold TxDataBuf.getPktBufAddr at hne ⊢
  rw [hsize] at hne ⊢
  omega

theorem TxDataBuf.getPktBufAddr_window (lo : Nat) {i j : Nat} (hi : lo ≤ i ∧ i < lo + BUF_SIZE)
    (hj : lo ≤ j ∧ j < lo + BUF_SIZE) (hne : i ≠ j) :
    TxDataBuf.getPktBufAddr i ≠ TxDataBuf.getPktBufAddr j := fun heq => by
  have hmod : i % BUF_SIZE = j % BUF_SIZE :=
    Nat.eq_of_mul_eq_mul_right (by decide : 0 < PKT_SIZE) heq
  exact hne (CellRing.eq_of_mod_eq hi hj hmod)

/-- No operation forgets what has been enqueued. -/
theorem Effect.enqueued_mono (h : Effect ap s input s') {e : Nat × List UInt8}
    (he : e ∈ s.history.enqueued) : e ∈ s'.history.enqueued := by
  cases h with
  | dropped pkt _ => exact he
  | stored pkt _ _ _ _ => exact List.mem_append_left _ he
  | skipped now _ _ => exact he
  | sent now _ _ => exact he
  | refused now ack s' _ _ hhist => rwa [hhist]
  | acked now ack s' _ _ _ _ hhist => rwa [hhist]
  | timedOut now s' _ hhist => rwa [hhist]

/-- A block keeps its bytes unless a packet is stored into it. -/
theorem Effect.read_block (h : Effect ap s input s') (hs : s.WindowInv) {j len : Nat}
    (hlen : len ≤ PKT_SIZE)
    (hspare : ∀ pkt, input = .enqueue pkt → s.buf.isFull = true ∨
      TxDataBuf.getPktBufAddr s.buf.tailPt ≠ TxDataBuf.getPktBufAddr j) :
    s'.buf.pktBuf.read (TxDataBuf.getPktBufAddr j) len =
      s.buf.pktBuf.read (TxDataBuf.getPktBufAddr j) len := by
  cases h with
  | dropped pkt _ => rfl
  | stored pkt hroom _ _ hpkt =>
    obtain hfull | hne := hspare pkt rfl
    · have := hs.isFull_iff.mp hfull
      omega
    · exact TxDataBuf.read_write_block _ hne hpkt hlen
  | skipped now _ _ => rfl
  | sent now _ _ => rfl
  | refused now ack s' _ hbuf _ => rw [hbuf]
  | acked now ack s' _ hfits _ hbuf _ => rw [hbuf, (applyDataAck_sweep hfits).pktBuf]
  | timedOut now s' hsw _ => rw [hsw.pktBuf]

theorem contentInv_sweep {hi : Nat} {f : Nat → BookKeeping → BookKeeping} (hs : s.WindowInv)
    (hc : s.ContentInv) (hsw : HandlerSweep s.buf s'.buf hi f)
    (henq : s'.history.enqueued = s.history.enqueued)
    (hmove : ∀ i, s.buf.headPt ≤ i → i < hi →
      ∃ acked, SlotMove acked (s.buf.slot i) (f i (s.buf.slot i))) : s'.ContentInv := by
  intro i h1 h2 hused
  have hhead := hsw.head.lo_le
  have htail := hs.tail_le
  rw [hsw.tail] at h2
  rw [henq, hsw.pktBuf]
  by_cases hlt : i < hi
  · obtain ⟨acked, hm⟩ := hmove i (by omega) hlt
    rw [hsw.slot_lt i (by omega) hlt] at hused ⊢
    obtain ⟨hused, -, hlen⟩ := hm.used hused
    rw [hlen]
    exact hc i (by omega) h2 hused
  · rw [hsw.slot_ge i (by omega) (by omega)] at hused ⊢
    exact hc i (by omega) h2 hused

theorem contentInv_stored (hs : s.WindowInv) (hc : s.ContentInv) {pkt : List UInt8}
    (hroom : s.buf.tailPt < s.buf.headPt + BUF_SIZE) (hpkt : pkt.length ≤ PKT_SIZE) :
    (s.stored pkt).ContentInv := by
  intro i h1 h2 hused
  have hhead := hs.head_le
  have hhigh := hs.highest_le
  change s.buf.headPt ≤ i at h1
  change i < s.buf.tailPt + 1 at h2
  by_cases heq : i = s.buf.tailPt
  · subst heq
    have hself : ((s.stored pkt).buf.slot s.buf.tailPt).len = pkt.length :=
      congrArg BookKeeping.len TxDataBuf.slot_setSlot_self
    have hread : (s.stored pkt).buf.pktBuf.read (TxDataBuf.getPktBufAddr s.buf.tailPt)
        pkt.length = pkt := s.buf.pktBuf.read_write_self _ pkt
    rw [hself, hread]
    exact List.mem_append_right _ (List.mem_singleton.mpr rfl)
  · -- neither the book keeping nor the bytes of another slot change
    have hother : (s.stored pkt).buf.slot i = s.buf.slot i :=
      TxDataBuf.slot_setSlot_window s.buf.headPt ⟨by omega, hroom⟩ ⟨h1, by omega⟩ heq
    rw [hother] at hused ⊢
    have hlen := ((hs.slot i h1 (by omega)).used hused).2.2
    have hread : (s.stored pkt).buf.pktBuf.read (TxDataBuf.getPktBufAddr i) (s.buf.slot i).len =
        s.buf.pktBuf.read (TxDataBuf.getPktBufAddr i) (s.buf.slot i).len :=
      TxDataBuf.read_write_block _ (TxDataBuf.getPktBufAddr_window s.buf.headPt
        ⟨by omega, hroom⟩ ⟨h1, by omega⟩ (Ne.symm heq)) hpkt hlen
    rw [hread]
    exact List.mem_append_left _ (hc i h1 (by omega) hused)

theorem contentInv_sent (hs : s.WindowInv) (hc : s.ContentInv) (now : TIME)
    (hlt : s.buf.currPt < s.buf.tailPt)
    (hpkt : (s.buf.slot s.buf.currPt).status.isPkt = true) : (s.sent now).ContentInv := by
  intro i h1 h2 hused
  have hhead := hs.head_le_curr
  have htail := hs.tail_le
  change s.buf.headPt ≤ i at h1
  change i < s.buf.tailPt at h2
  by_cases heq : i = s.buf.currPt
  · subst heq
    have hself : (s.sent now).buf.slot s.buf.currPt = (s.buf.slot s.buf.currPt).sent now :=
      TxDataBuf.slot_setSlot_self
    rw [hself]
    exact hc _ h1 h2 fun hfree => by simp [Status.isPkt, hfree] at hpkt
  · have hother : (s.sent now).buf.slot i = s.buf.slot i :=
      TxDataBuf.slot_setSlot_window s.buf.headPt ⟨by omega, by omega⟩ ⟨h1, by omega⟩ heq
    rw [hother] at hused ⊢
    exact hc i h1 h2 hused

/-- The step lemma of the buffer. -/
theorem Effect.contentInv (h : Effect ap s input s') (hs : s.WindowInv) (hc : s.ContentInv) :
    s'.ContentInv := by
  cases h with
  | dropped pkt _ => exact hc
  | stored pkt hroom _ _ hpkt => exact contentInv_stored hs hc hroom hpkt
  | skipped now _ _ => exact hc
  | sent now hlt hpkt => exact contentInv_sent hs hc now hlt hpkt
  | refused now ack s' _ hbuf hhist =>
    intro i
    rw [hbuf, hhist]
    exact hc i
  | acked now ack s' _ hfits _ hbuf hhist =>
    obtain ⟨-, -, hbulk, -⟩ := hfits.bulkHead_spec
    exact contentInv_sweep hs hc (hbuf ▸ applyDataAck_sweep hfits) (by rw [hhist])
      fun i h1 _ => ⟨_, ackImage_move now ack (s.buf.slot i) (hbulk i h1)⟩
  | timedOut now s' hsw hhist =>
    exact contentInv_sweep hs hc hsw (by rw [hhist])
      fun i _ _ => ⟨_, (s.buf.slot i).afterTimeOut_move ap now⟩

/-- Sequence numbers are assigned in order, so a number determines its payload. -/
def History.Numbered (h : History) : Prop :=
  ∀ (i : Nat) (e : Nat × List UInt8), h.enqueued[i]? = some e → e.1 = i + 1

theorem History.Numbered.unique {h : History} (hn : h.Numbered) {n : Nat} {pkt pkt' : List UInt8}
    (h1 : (n, pkt) ∈ h.enqueued) (h2 : (n, pkt') ∈ h.enqueued) : pkt' = pkt := by
  obtain ⟨i, hi⟩ := List.mem_iff_getElem?.mp h1
  obtain ⟨j, hj⟩ := List.mem_iff_getElem?.mp h2
  have hij : n = i + 1 := hn i _ hi
  have hjn : n = j + 1 := hn j _ hj
  have heq : j = i := by omega
  rw [heq, hi] at hj
  cases hj
  rfl

theorem numbered_stored (hs : s.WindowInv) (hn : s.history.Numbered) (pkt : List UInt8) :
    (s.stored pkt).history.Numbered := by
  intro i e he
  change (s.history.enqueued ++ [(s.buf.tailPt + 1, pkt)])[i]? = some e at he
  obtain ⟨-, he⟩ | ⟨hi, rfl⟩ := getElem?_snoc he
  · exact hn i e he
  · rw [hi, hs.tail_eq]

theorem Effect.numbered (h : Effect ap s input s') (hs : s.WindowInv) (hn : s.history.Numbered) :
    s'.history.Numbered := by
  cases h with
  | dropped pkt _ => exact hn
  | stored pkt _ _ _ _ => exact numbered_stored hs hn pkt
  | skipped now _ _ => exact hn
  | sent now _ _ => exact hn
  | refused now ack s' _ _ hhist => rwa [hhist]
  | acked now ack s' _ _ _ _ hhist => rwa [hhist]
  | timedOut now s' _ hhist => rwa [hhist]

theorem numbered_of_reachable {R : Nat} (h : (txMachine ap R).Reachable s) :
    s.history.Numbered := by
  refine h.invariant (I := fun s => s.history.Numbered) ?_ ?_
  · rintro s ⟨boot, rfl⟩ i e he
    simp [TxState.init] at he
  · intro s input s' hr hn hen hexec
    have hs := windowInv_of_reachable hr
    exact (effect_of_exec hs hen hexec).numbered hs hn

end Buffer

/-! ### The thread -/

section Thread

open SendAth

variable {ap : WspaceAP} {fec : Fec} {R : Nat} {s s' : SendAth} {input : SendInput}

/-- An operation of another thread that spares the slot in hand. -/
theorem payloadInv_tx (hw : s.tx.WindowInv) (hp : s.PayloadInv) {i : TxInput} {t : TxState}
    (heff : Effect ap s.tx i t) (hspare : s.Spares (.env i)) : PayloadInv { s with tx := t } := by
  refine ⟨heff.contentInv hw hp.content, fun hheld => ?_,
    fun p hmem => heff.enqueued_mono (hp.pushed p hmem)⟩
  have hin := hp.held hheld
  obtain ⟨j, hj⟩ := hin.buf
  have hread : srcBytes { s with tx := t } = s.srcBytes := by
    unfold srcBytes
    rw [hj]
    refine heff.read_block hw hin.len fun pkt hi => ?_
    rw [← hj]
    exact hspare pkt (congrArg _ hi) hheld
  refine ⟨hin.buf, hin.len, ?_⟩
  rw [hread]
  exact heff.enqueued_mono hin.content

/-- The slot that `DequeuePkt` points to stores the packet that it reports. -/
theorem heldInv_dequeue (hw : s.tx.WindowInv) (hc : s.tx.ContentInv) {now : TIME}
    (hlt : s.tx.buf.currPt < s.tx.buf.tailPt)
    (hpkt : (s.tx.buf.slot s.tx.buf.currPt).status.isPkt = true)
    (htx : s'.tx = s.tx.sent now) (hout : s'.out = s.tx.buf.dequeued now) : s'.HeldInv := by
  obtain ⟨-, -, -, hseq, -, hlen⟩ := hw.dequeue_sent now hlt hpkt
  have hused : ¬(s.tx.buf.slot s.tx.buf.currPt).IsFree := fun hfree => by
    simp [Status.isPkt, hfree] at hpkt
  refine ⟨⟨s.tx.buf.currPt, by rw [hout]; rfl⟩, by rw [hout]; exact hlen, ?_⟩
  unfold srcBytes
  rw [htx, hout, hseq]
  exact hc _ hw.head_le_curr hlt hused

theorem payloadInv_dequeue (ap : WspaceAP) (hw : s.tx.WindowInv) (hs : s.SendInv)
    (hp : s.PayloadInv) {now : TIME} (hst : s.state = .handleNewPkt)
    (hen : enabledTx s.tx (.dequeue now)) (hexec : s.dequeue now = .ok s') : s'.PayloadInv := by
  have hlt := hw.curr_lt hen
  have htx := effect_of_exec hw hen (dequeue_tx ap hexec)
  obtain ⟨t, ht, heff⟩ := dequeue_effect hw hen
  rw [hexec] at ht
  cases ht
  refine ⟨htx.contentInv hw hp.content, fun hheld => ?_, fun p hmem => ?_⟩
  · cases heff with
    | skipped _ =>
      have hret := (hs.inState hst).1
      exact absurd (hheld.retrans (by simp)) (by simp [hret])
    | new hnew _ => exact heldInv_dequeue hw hp.content hlt (by rw [hnew]; rfl) rfl rfl
    | retrans hretrans _ => exact heldInv_dequeue hw hp.content hlt (by rw [hretrans]; rfl) rfl rfl
  · refine htx.enqueued_mono (hp.pushed p ?_)
    cases heff with
    | skipped _ => exact hmem
    | new _ _ => exact hmem
    | retrans _ _ => exact hmem

theorem payloadInv_pass (hs : s.SendInv) (hp : s.PayloadInv) (heff : PassEffect s s') :
    s'.PayloadInv := by
  obtain ⟨htx, hout, hheld, hpkts⟩ := heff
  have hsrc : s'.srcBytes = s.srcBytes := by
    unfold srcBytes
    rw [htx, hout]
  refine ⟨htx ▸ hp.content, fun h => ?_, fun p hmem => ?_⟩
  · obtain ⟨hbuf, hlen, hcontent⟩ := hp.held (.inr (hheld h))
    exact ⟨hout ▸ hbuf, hout ▸ hlen, by rwa [hsrc, htx, hout]⟩
  · rw [htx]
    obtain hsame | ⟨hst, hpush⟩ := hpkts
    · exact hp.pushed p (hsame ▸ hmem)
    · rw [hpush] at hmem
      obtain hmem | hmem := List.mem_append.mp hmem
      · exact hp.pushed p hmem
      · rw [List.mem_singleton.mp hmem]
        have hheld : s.HoldsPkt := hst.imp_right fun hst => (hs.inState hst : _ ∧ _).1
        exact (hp.held hheld).content

/-- The step lemma of the thread. -/
theorem payloadInv_step (hw : s.tx.WindowInv) (hs : s.SendInv) (hp : s.PayloadInv)
    (hen : enabledSend s input) (hspare : s.Spares input)
    (hexec : execSend ap fec s input = .ok s') : s'.PayloadInv := by
  cases input with
  | env input =>
    simp only [execSend] at hexec
    split at hexec
    · cases hexec
    · rename_i t ht
      cases hexec
      exact payloadInv_tx hw hp (effect_of_exec hw hen.2 ht) hspare
  | dequeue now => exact payloadInv_dequeue ap hw hs hp hen.1 hen.2 hexec
  | batchTimeOut =>
    cases hexec
    refine ⟨hp.content, fun hheld => ?_, hp.pushed⟩
    obtain ⟨hbuf, hlen, hcontent⟩ := hp.held (.inr (hheld.retrans (by simp)))
    exact ⟨hbuf, hlen, hcontent⟩
  | pass d scratch =>
    obtain ⟨-, rfl⟩ | heff := pass_effect ap hexec
    · exact hp
    · exact payloadInv_pass hs hp heff

theorem payloadInv_init (h : SendAth.IsInit R s) : s.PayloadInv := by
  obtain ⟨⟨boot, htx⟩, hst, hret, -, -, -, -, hpend, hbatch⟩ := h
  refine ⟨fun i h1 h2 => ?_, fun hheld => ?_, fun p hmem => ?_⟩
  · rw [htx] at h2
    exact absurd h2 (Nat.not_lt_zero i)
  · obtain h | h := hheld
    · rw [hst] at h
      cases h
    · rw [hret] at h
      cases h
  · rw [SendAth.pkts, hpend, hbatch] at hmem
    simp at hmem

/-- The run lemma. -/
theorem payloadInv_of_reachable (h : ((sendMachine ap fec R).restrict SendAth.Spares).Reachable s) :
    s.PayloadInv := by
  refine h.invariant (fun s hs => payloadInv_init hs) fun s input s' hr hp hen hexec => ?_
  have hr' := hr.of_restrict
  exact payloadInv_step (windowInv_of_reachable (tx_reachable hr')) (sendInv_of_reachable hr') hp
    hen.1 hen.2 hexec

/-- In a run in which no packet is stored into a slot that the thread has yet to copy from, every
packet is copied with the payload that was enqueued under its sequence number. -/
theorem sendMachine_payload
    (h : ((sendMachine ap fec R).restrict SendAth.Spares).Reachable s) :
    ∀ p ∈ s.pkts, (p.handOut.seqNum, p.bytes) ∈ s.tx.history.enqueued ∧
      ∀ pkt, (p.handOut.seqNum, pkt) ∈ s.tx.history.enqueued → p.bytes = pkt := fun p hmem => by
  have hin := (payloadInv_of_reachable h).pushed p hmem
  have hnum := numbered_of_reachable (tx_reachable h.of_restrict)
  exact ⟨hin, fun pkt hpkt => hnum.unique hpkt hin⟩

/-- The thread of `onePkt` after its packet has been copied into a batch of two. -/
def oneCopied : SendAth :=
  { (onePkt.setCode ⟨2, [10, 10]⟩ 1).pushedLocal with state := .handleNewPkt }

theorem sendMachine_payload_oneCopied :
    (1, [7]) ∈ oneCopied.tx.history.enqueued := by
  have h1 : ((sendMachine ⟨2, 10, 3⟩ Fec.copy 2).restrict SendAth.Spares).Reachable onePkt :=
    onePkt_reachable fun s input hn pkt _ hheld => absurd hheld hn
  have h2 : ((sendMachine ⟨2, 10, 3⟩ Fec.copy 2).restrict SendAth.Spares).Reachable oneCopied :=
    send_open h1 rfl rfl (by decide) (by decide) ⟨⟨0, 0, 0, 0, 0, 0, 0, 0, 0, 0⟩, fun _ => 0⟩
      fun pkt hinput => by cases hinput
  exact (sendMachine_payload h2 ⟨⟨1, .occupiedNew⟩, [7]⟩ (by decide +kernel)).1

/-! ### A slot that is reused too early -/

/-- A buffer without retransmissions after `n` packets with the payload `[1]` have come in. -/
def fillTx : Nat → TxState
  | 0 => .init (fun _ => ⟨0, 0⟩) 0
  | n + 1 => (fillTx n).stored [1]

/-- What the buffer looks like then. -/
structure Filled (n : Nat) (t : TxState) : Prop where
  head : t.buf.headPt = 0
  curr : t.buf.currPt = 0
  tail : t.buf.tailPt = n
  numRetrans : t.buf.numRetrans = 0
  handedOut : t.history.handedOut = []
  payload : ∀ e ∈ t.history.enqueued, e.2 = [1]
  first : 0 < n → t.buf.slot 0 = ⟨1, .occupiedNew, 1, 0, ⟨0, 0⟩, none⟩ ∧
    (1, [1]) ∈ t.history.enqueued

theorem filled_fillTx {n : Nat} (hn : n ≤ BUF_SIZE) : Filled n (fillTx n) := by
  induction n with
  | zero => exact ⟨rfl, rfl, rfl, rfl, rfl, fun e he => by simp [fillTx, TxState.init] at he,
      fun h => absurd h (Nat.lt_irrefl 0)⟩
  | succ n ih =>
    have hf := ih (by omega)
    refine ⟨hf.head, hf.curr, congrArg (· + 1) hf.tail, hf.numRetrans, hf.handedOut,
      fun e he => ?_, fun _ => ?_⟩
    · obtain he | he := List.mem_append.mp he
      · exact hf.payload e he
      · rw [List.mem_singleton.mp he]
    · by_cases hzero : n = 0
      · subst hzero
        exact ⟨rfl, by decide⟩
      · obtain ⟨hslot, hmem⟩ := hf.first (Nat.pos_of_ne_zero hzero)
        have hother : ((fillTx n).stored [1]).buf.slot 0 = (fillTx n).buf.slot 0 :=
          TxDataBuf.slot_setSlot_window 0 (by rw [hf.tail]; omega) ⟨Nat.le_refl 0, by decide⟩
            (by rw [hf.tail]; omega)
        exact ⟨hother.trans hslot, List.mem_append_left _ hmem⟩

theorem fill_reachable (ap : WspaceAP) (fec : Fec) {n : Nat} (hn : n ≤ BUF_SIZE) :
    ((sendMachine ap fec 0).restrict fun _ _ => True).Reachable (SendAth.start (fillTx n)) := by
  induction n with
  | zero => exact send_start _
  | succ n ih =>
    have hr := ih (by omega)
    have hf := filled_fillTx (n := n) (by omega)
    have htail := (windowInv_of_reachable (tx_reachable hr.of_restrict)).tail_eq
    have hsize : BUF_SIZE = 500 := rfl
    have hcnt : (fillTx n).history.enqueued.length = n := htail.symm.trans hf.tail
    refine send_stored hr [1] (by decide) (by decide) ?_ ?_ trivial
    · change (fillTx n).buf.tailPt < (fillTx n).buf.headPt + BUF_SIZE
      rw [hf.head, hf.tail]
      omega
    · change (fillTx n).history.enqueued.length + 1 < _
      omega

/-- The full buffer with its first packet handed out: the next timeout gives up on that packet,
which leaves room for one more. -/
theorem Filled.timeOut {t : TxState} (hf : Filled BUF_SIZE t) (ap : WspaceAP) (now : TIME)
    (hr : (txMachine ap 0).Reachable (t.sent ⟨1, 0⟩)) :
    ∃ t', execTx ap (t.sent ⟨1, 0⟩) (.timeOut now) = .ok t' ∧ t'.buf.headPt = 1 ∧
      t'.buf.tailPt = BUF_SIZE ∧ t'.history = (t.sent ⟨1, 0⟩).history := by
  have hslot := (hf.first (by decide)).1
  obtain ⟨t', hexec, heff⟩ : ∃ t', execTx ap (t.sent ⟨1, 0⟩) (.timeOut now) = .ok t' ∧
      Effect ap (t.sent ⟨1, 0⟩) (.timeOut now) t' := (windowInv_of_reachable hr).exec_timeOut now
  cases heff with
  | timedOut _ _ hsw hhist =>
    refine ⟨t', hexec, ?_, hsw.tail.trans hf.tail, hhist⟩
    have hself : (t.sent ⟨1, 0⟩).buf.slot 0 = (t.buf.slot 0).sent ⟨1, 0⟩ := by
      rw [← hf.curr]
      exact TxDataBuf.slot_setSlot_self
    have hhigh : (t.sent ⟨1, 0⟩).history.highest = 1 := by
      refine (t.history.highest_append _ _).trans ?_
      rw [History.highest, hf.handedOut, hf.curr]
      rfl
    have hhead : (t.sent ⟨1, 0⟩).buf.headPt = 0 := hf.head
    have hfree : (t'.buf.slot 0).IsFree := by
      rw [hsw.slot_lt 0 (Nat.le_of_eq hhead) (by omega), hself, hslot]
      rfl
    -- the sweep has freed the only slot that it visited, so that the head moves on
    have hfirst := hsw.head
    rw [hhead, hhigh] at hfirst
    by_contra hne
    have hzero : t'.buf.headPt = 0 := by
      have := hfirst.le_hi
      omega
    have hhit := hfirst.hit (by omega)
    rw [hzero] at hhit
    exact hhit hfree

/-- Without retransmissions, a timeout between `DequeuePkt` and `PushPkt` gives up on the packet in
hand; if the buffer was full, the next packet is stored into its slot and goes out as packet `1`. -/
theorem sendMachine_payload_reused :
    ∃ s : SendAth, (sendMachine ⟨0, 10, 3⟩ Fec.copy 0).Reachable s ∧
      ⟨⟨1, .occupiedNew⟩, [2]⟩ ∈ s.pkts ∧ (1, [1]) ∈ s.tx.history.enqueued ∧
      (1, [2]) ∉ s.tx.history.enqueued := by
  obtain ⟨t, hf, h1⟩ : ∃ t, Filled BUF_SIZE t ∧
      ((sendMachine ⟨0, 10, 3⟩ Fec.copy 0).restrict fun _ _ => True).Reachable (.start t) :=
    ⟨fillTx BUF_SIZE, filled_fillTx (Nat.le_refl _), fill_reachable _ _ (Nat.le_refl _)⟩
  obtain ⟨hslot, hmem⟩ := hf.first (by decide)
  have hcurr : t.buf.slot t.buf.currPt = ⟨1, .occupiedNew, 1, 0, ⟨0, 0⟩, none⟩ := by
    rw [hf.curr, hslot]
  have hlt : t.buf.currPt < t.buf.tailPt := by
    rw [hf.curr, hf.tail]
    decide
  have h2 := send_dequeue h1 ⟨1, 0⟩ rfl hlt (congrArg BookKeeping.status hcurr) trivial
  obtain ⟨t', hexec, hhead, htail, hhist⟩ := hf.timeOut _ ⟨2, 0⟩ (tx_reachable h2.of_restrict)
  have hen : enabledTx (t.sent ⟨1, 0⟩) (.timeOut ⟨2, 0⟩) := trivial
  have h3 := send_env h2 (fun _ h => by cases h) hen trivial hexec
  have hcnt : t'.history.enqueued.length = BUF_SIZE :=
    (windowInv_of_reachable (tx_reachable h3.of_restrict)).tail_eq.symm.trans htail
  have h4 := send_stored h3 [2] (by decide) (by decide)
    (show t'.buf.tailPt < t'.buf.headPt + BUF_SIZE by omega)
    (show t'.history.enqueued.length + 1 < 4294967295 by rw [hcnt]; decide) trivial
  have h5 := send_open (d := ⟨2, [10, 10]⟩) h4 rfl rfl (by decide) (by decide)
    ⟨⟨0, 0, 0, 0, 0, 0, 0, 0, 0, 0⟩, fun _ => 0⟩ trivial
  have henq : (t'.stored [2]).history.enqueued = t.history.enqueued ++ [(BUF_SIZE + 1, [2])] := by
    have hsame : t'.history.enqueued = t.history.enqueued := by
      rw [hhist]
      rfl
    rw [← hsame, ← htail]
    rfl
  -- the slot of packet `1` is the slot of packet `BUF_SIZE + 1`
  have hread : (t'.stored [2]).buf.pktBuf.read (t.buf.dequeued ⟨1, 0⟩).buf
      (t.buf.dequeued ⟨1, 0⟩).len = [2] := by
    have hbuf : (t.buf.dequeued ⟨1, 0⟩).buf = TxDataBuf.getPktBufAddr t'.buf.tailPt := by
      change TxDataBuf.getPktBufAddr t.buf.currPt = _
      rw [htail, hf.curr]
      decide
    have hlen : (t.buf.dequeued ⟨1, 0⟩).len = 1 := congrArg BookKeeping.len hcurr
    rw [hbuf, hlen]
    exact t'.buf.pktBuf.read_write_self _ [2]
  refine ⟨_, h5.of_restrict, ?_, ?_, ?_⟩
  · refine List.mem_append_right _ (List.mem_append_right _ (List.mem_singleton.mpr ?_))
    refine congrArg₂ Pushed.mk (congrArg₂ HandOut.mk ?_ ?_) hread.symm
    · exact (congrArg BookKeeping.seqNum hcurr).symm
    · exact (congrArg BookKeeping.status hcurr).symm
  · exact henq ▸ List.mem_append_left _ hmem
  · change (1, [2]) ∉ (t'.stored [2]).history.enqueued
    rw [henq]
    intro hin
    obtain hin | hin := List.mem_append.mp hin
    · have := hf.payload _ hin
      simp at this
    · have := List.mem_singleton.mp hin
      simp [BUF_SIZE] at this

end Thread

end WspaceScout
