import WspaceScout.DataPath.SendCodedBatch
import WspaceScout.Fec.Batch

/-!
# The length of a packet on its way to the radio

A packet is stored in a slot of `pkt_buf_`, copied to a row of the encoder, and sent in a frame with
the lengths of its batch. The slots have `PKT_SIZE` bytes; the buffer of `TxRcvCell`, the probe
buffer, the rows and the frames have `TUN_PKT_SIZE` bytes, because `tun.h` defines the macro anew.

## Main definitions

- `tunRead`, `probePkt` — where the packets come from
- `PacketBudget` — what a packet must respect at each step

## Main results

- `packetBudget_iff` — the packets that respect all of it
-/

namespace WspaceScout

open Foundation

/-! ### The sources of packets -/

/-- `Tun::Read` on the cellular socket: `recvfrom` cuts the datagram at `len`, and `none` is the
failed assertion on an empty one. -/
def tunRead (datagram : List UInt8) (len : Nat) : Option (List UInt8) :=
  if (datagram.take len).length > 0 then some (datagram.take len) else none

/-- The first byte of a probe. -/
def ATH_PROBE : UInt8 := 4

/-- The assertion of the constructor of `WspaceAP` on its option for the size of a probe. -/
def probeSizeOk (probePktSize : Nat) : Bool := probePktSize < TUN_PKT_SIZE

/-- The packet of `TxSendProbe`; `pktContent` are the `probe_pkt_size_` bytes behind the type. -/
def probePkt (pktContent : List UInt8) : List UInt8 := ATH_PROBE :: pktContent

/-! ### The budget -/

/-- The encoder of a client as the constructor of `ClientContext` sizes it. -/
structure ClientEncoder (c : CodeInfo) : Prop where
  codecType : c.codecType = .encoder
  maxBatchSize : c.maxBatchSize = MAX_BATCH_SIZE
  pktSize : c.pktSize = TUN_PKT_SIZE

/-- The slot at the cursor holds `pkt` and is about to be handed out. -/
structure AtCursor (b : TxDataBuf) (pkt : List UInt8) : Prop where
  isPkt : (b.slot b.currPt).status.isPkt = true
  len : (b.slot b.currPt).len = pkt.length
  seqNum : 0 < (b.slot b.currPt).seqNum

/-- A packet stays inside every buffer on its way. -/
structure PacketBudget (pkt : List UInt8) : Prop where
  /-- `EnqueuePkt` writes to its own slot of `pkt_buf_` only. -/
  slot : ∀ b b' : TxDataBuf, b.enqueuePkt pkt = .ok b' →
    ∀ a, a < TxDataBuf.getPktBufAddr b.tailPt ∨ TxDataBuf.getPktBufAddr b.tailPt + PKT_SIZE ≤ a →
      b'.pktBuf a = b.pktBuf a
  /-- The assertion of `DequeuePkt` on the length holds. -/
  handOut : ∀ b : TxDataBuf, AtCursor b pkt → ∀ now, b.dequeuePkt now ≠ .error .dequeueBadPkt
  /-- `PushPkt` writes to the row at the cursor of the encoder only. -/
  row : ∀ c c' : CodeInfo, ClientEncoder c → c.pushPkt pkt 0 = some c' →
    ∀ i x, i ≠ c.curInd ∨ c.pktSize ≤ x → c'.originalBatch i x = c.originalBatch i x
  /-- The frames of a batch in which no packet is longer end inside the frame buffer. -/
  frame : ∀ (c : CodeInfo) (pkts : List (List UInt8)), ClientEncoder c → c.Holds pkts →
    c.k = pkts.length → pkts.length ≤ MAX_BATCH_SIZE → (∀ q ∈ pkts, q.length ≤ pkt.length) →
    ∀ fec ids scratch rateArr r, sendCodedBatch ids scratch (c.encodeBatch fec) rateArr = .ok r →
      ∀ f ∈ r.2.2, f.frame.payloadStart + c.sz ≤ TUN_PKT_SIZE ∧ f.len = f.frame.payloadStart + c.sz

variable {pkt : List UInt8} {b b' : TxDataBuf} {c c' : CodeInfo}

/-- A stored packet is written from the start of its slot on. -/
theorem enqueuePkt_pktBuf (h : b.enqueuePkt pkt = .ok b') :
    b'.pktBuf = b.pktBuf ∨
      b'.pktBuf = b.pktBuf.write (TxDataBuf.getPktBufAddr b.tailPt) pkt := by
  cases hfull : b.isFull with
  | true =>
    rw [TxDataBuf.enqueuePkt_full hfull, Except.ok.injEq] at h
    rw [← h]
    exact .inl rfl
  | false =>
    unfold TxDataBuf.enqueuePkt at h
    rw [TxDataBuf.acquireTailLock_room hfull] at h
    simp only [TxDataBuf.storePkt] at h
    split at h
    · rw [Except.ok.injEq] at h
      rw [← h, ← TxDataBuf.getPktBufAddr_mod b.tailPt]
      exact .inr rfl
    · cases h

/-- The assertion of `DequeuePkt` bounds the length by the size of a slot. -/
theorem dequeuePkt_bad_iff (h : AtCursor b pkt) (hpos : 0 < pkt.length) (now : TIME) :
    b.dequeuePkt now = .error .dequeueBadPkt ↔ PKT_SIZE < pkt.length := by
  have hslot : b.acquireCurrLock.2.slot b.acquireCurrLock.1 = b.slot b.currPt := b.slot_mod b.currPt
  have hisPkt := h.isPkt
  have hlen := h.len
  have hseq := h.seqNum
  simp only [TxDataBuf.dequeuePkt, TxDataBuf.handOut, hslot]
  cases hst : (b.slot b.currPt).status with
  | empty => simp [Status.isPkt, hst] at hisPkt
  | occupiedOutbound => simp [Status.isPkt, hst] at hisPkt
  | occupiedNew => simp [hlen, hpos, hseq]
  | occupiedRetrans =>
    by_cases hle : pkt.length ≤ PKT_SIZE
    · have hnot : ¬PKT_SIZE < pkt.length := by omega
      simp only [hlen, hpos, hseq, hle, hnot, and_self, decide_true, if_true, iff_false]
      split <;> simp
    · have hlt : PKT_SIZE < pkt.length := by omega
      simp [hlen, hpos, hseq, hle, hlt]

/-- A pushed packet is written from the start of the row at the cursor on. -/
theorem pushPkt_originalBatch (hc : ClientEncoder c) (h : c.pushPkt pkt 0 = some c') :
    c'.originalBatch =
      Function.update c.originalBatch c.curInd ((c.originalBatch c.curInd).write 0 pkt) := by
  simp only [CodeInfo.pushPkt, hc.codecType] at h
  split at h
  · cases h
  · split at h
    · cases h
    · rw [Option.some.injEq] at h
      rw [← h]

/-- The header of a frame of a batch of at most `MAX_BATCH_SIZE` packets. -/
theorem payloadStart_le {ids : BatchIds} {rateArr : List Nat} {j : Nat} {f : SentFrame}
    (hk : c.k ≤ MAX_BATCH_SIZE) (h : f.IsBlock ids c rateArr j) :
    f.frame.payloadStart ≤ ATH_CODE_HEADER_SIZE + 2 * MAX_BATCH_SIZE ∧
      f.len = uint16 (c.sz + f.frame.payloadStart) := by
  obtain ⟨scratch, rawSeq, hdr, hhdr, rfl⟩ := h
  obtain ⟨-, -, -, -, hkHdr, -⟩ := buildHeader_hdr hhdr
  have hle : hdr.hdr.k ≤ c.k := by
    rw [hkHdr]
    exact Nat.mod_le _ _
  refine ⟨?_, rfl⟩
  simp only [Frame.payloadStart, Frame.withPayload]
  omega

/-- A packet that fits a slot respects the whole budget. -/
theorem PacketBudget.of_le (hpos : 0 < pkt.length) (hle : pkt.length ≤ PKT_SIZE) :
    PacketBudget pkt where
  slot b b' h a ha := by
    obtain heq | heq := enqueuePkt_pktBuf h
    · rw [heq]
    · rw [heq]
      apply Memory.write_outside
      omega
  handOut b hcur now h := by
    have := (dequeuePkt_bad_iff hcur hpos now).mp h
    omega
  row c c' hc hpush i x hix := by
    have hsize : PKT_SIZE ≤ c.pktSize := by
      rw [hc.pktSize]
      decide
    rw [pushPkt_originalBatch hc hpush]
    by_cases hi : i = c.curInd
    · -- behind the end of the row that takes the packet
      subst hi
      rw [Function.update_self]
      apply Memory.write_outside
      right
      have hx : c.pktSize ≤ x := hix.resolve_left fun hne => hne rfl
      omega
    · rw [Function.update_of_ne hi]
  frame c pkts hc hholds hk hbatch hlongest fec ids scratch rateArr r hsend f hf := by
    have hrate : rateArr.length = (c.encodeBatch fec).n := by
      by_contra hne
      rw [sendCodedBatch, if_neg hne] at hsend
      cases hsend
    have hends := sendCodedBatch_ends ids scratch hrate (c := c.encodeBatch fec) hc.codecType rfl
    rw [hsend] at hends
    obtain ⟨-, -, hblocks⟩ := hends
    obtain ⟨j, hj⟩ := List.getElem?_of_mem hf
    have hkle : (c.encodeBatch fec).k ≤ MAX_BATCH_SIZE := by
      rw [← hk] at hbatch
      exact hbatch
    obtain ⟨hstart, hlen⟩ := payloadStart_le hkle (hblocks j f hj)
    have hsz : c.sz ≤ PKT_SIZE := (hholds.sz_le _ hlongest).trans hle
    -- the one place where the larger `PKT_SIZE` is of use
    have hroom : ATH_CODE_HEADER_SIZE + 2 * MAX_BATCH_SIZE + PKT_SIZE ≤ TUN_PKT_SIZE := by decide
    have hfit : f.frame.payloadStart + c.sz ≤ TUN_PKT_SIZE := by omega
    have hword : f.frame.payloadStart + c.sz < 65536 :=
      hfit.trans_lt (by decide)
    refine ⟨hfit, ?_⟩
    rw [hlen, Nat.add_comm]
    exact Nat.mod_eq_of_lt hword

theorem atCursor_setSlot {i : Nat} {bk : BookKeeping} (hi : b.currPt = i)
    (hpkt : bk.status.isPkt = true) (hlen : bk.len = pkt.length) (hseq : 0 < bk.seqNum) :
    AtCursor (b.setSlot i bk) pkt := by
  have hslot : (b.setSlot i bk).slot (b.setSlot i bk).currPt = bk := by
    rw [← hi]
    exact TxDataBuf.slot_setSlot_self
  constructor
  · rwa [hslot]
  · rwa [hslot]
  · rwa [hslot]

/-- A packet that is enqueued at the cursor is the first to be handed out. -/
theorem enqueuePkt_atCursor (hroom : b.isFull = false) (hfree : (b.slot b.tailPt).status = .empty)
    (hcur : b.currPt = b.tailPt) (hseq : 0 < uint32 (b.tailPt + 1)) (pkt : List UInt8) :
    ∃ b', b.enqueuePkt pkt = .ok b' ∧ AtCursor b' pkt ∧
      b'.pktBuf = b.pktBuf.write (TxDataBuf.getPktBufAddr b.tailPt) pkt := by
  refine ⟨_, TxDataBuf.enqueuePkt_room pkt hroom hfree, ?_, rfl⟩
  generalize uint32 (b.tailPt + 1) = next at hseq ⊢
  exact atCursor_setSlot hcur rfl rfl hseq

/-- The first packet of a new buffer. -/
theorem enqueuePkt_init (pkt : List UInt8) :
    ∃ b', (TxDataBuf.init (fun _ => ⟨0, 0⟩) 0).enqueuePkt pkt = .ok b' ∧ AtCursor b' pkt ∧
      b'.pktBuf = Memory.write (fun _ => 0) 0 pkt :=
  enqueuePkt_atCursor (by simp [TxDataBuf.isFull, TxDataBuf.init, uint32, BUF_SIZE]) rfl rfl
    (by decide : 0 < uint32 1) pkt

/-- The assertion at the hand-out rejects a packet that does not fit a slot. -/
theorem PacketBudget.le (h : PacketBudget pkt) (hpos : 0 < pkt.length) : pkt.length ≤ PKT_SIZE := by
  obtain ⟨b', -, hcur, -⟩ := enqueuePkt_init pkt
  by_contra hlong
  exact h.handOut b' hcur ⟨0, 0⟩ ((dequeuePkt_bad_iff hcur hpos _).mpr (by omega))

/-- The packets of `TxRcvCell` and of `TxSendProbe` respect the budget exactly if they fit a slot of
`pkt_buf_`. -/
theorem packetBudget_iff (datagram pktContent : List UInt8) :
    (∀ pkt, tunRead datagram TUN_PKT_SIZE = some pkt →
      (PacketBudget pkt ↔ datagram.length ≤ PKT_SIZE)) ∧
    (probeSizeOk pktContent.length = true →
      (PacketBudget (probePkt pktContent) ↔ pktContent.length < PKT_SIZE)) := by
  have hiff : ∀ pkt : List UInt8, 0 < pkt.length → (PacketBudget pkt ↔ pkt.length ≤ PKT_SIZE) :=
    fun pkt hpos => ⟨fun h => h.le hpos, PacketBudget.of_le hpos⟩
  constructor
  · intro pkt hread
    simp only [tunRead] at hread
    split at hread
    · rename_i hpos
      cases hread
      have hroom : PKT_SIZE < TUN_PKT_SIZE := by decide
      rw [hiff _ hpos, List.length_take]
      omega
    · cases hread
  · intro _
    rw [hiff _ (by simp [probePkt]), probePkt, List.length_cons]
    omega

/-- A short datagram and the default probe. -/
theorem packetBudget_iff_short :
    (PacketBudget [9, 0, 1] ↔ 3 ≤ PKT_SIZE) ∧
      (PacketBudget (probePkt [0, 0]) ↔ 2 < PKT_SIZE) :=
  ⟨(packetBudget_iff [9, 0, 1] [0, 0]).1 [9, 0, 1] rfl, (packetBudget_iff [9, 0, 1] [0, 0]).2 rfl⟩

/-- A datagram one byte longer than a slot: `EnqueuePkt` writes to the first byte of the next slot,
and the assertion of `DequeuePkt` stops the program. -/
theorem packetBudget_overrun :
    tunRead (List.replicate 1473 9) TUN_PKT_SIZE = some (List.replicate 1473 9) ∧
      ∃ b', (TxDataBuf.init (fun _ => ⟨0, 0⟩) 0).enqueuePkt (List.replicate 1473 9) = .ok b' ∧
        TxDataBuf.getPktBufAddr 1 = 1472 ∧ b'.pktBuf 1472 = 9 ∧
        ∀ now, b'.dequeuePkt now = .error .dequeueBadPkt := by
  have hlen : (List.replicate 1473 (9 : UInt8)).length = 1473 := List.length_replicate
  constructor
  · have htake : (List.replicate 1473 (9 : UInt8)).take TUN_PKT_SIZE = List.replicate 1473 9 :=
      List.take_of_length_le (by rw [hlen]; decide)
    rw [tunRead, htake, hlen]
    rfl
  · obtain ⟨b', hrun, hcur, hmem⟩ :=
      enqueuePkt_init (List.replicate 1473 9)
    refine ⟨b', hrun, rfl, ?_, ?_⟩
    · have hin := Memory.write_inside (fun _ => 0) 0 (List.replicate 1473 (9 : UInt8)) (i := 1472)
        (by rw [hlen]; decide)
      rw [hmem, ← Nat.zero_add 1472, hin, List.getElem_replicate]
    · intro now
      apply (dequeuePkt_bad_iff hcur (by rw [hlen]; decide) now).mpr
      rw [hlen]
      decide

end WspaceScout
