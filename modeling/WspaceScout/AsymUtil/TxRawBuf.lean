import WspaceScout.AsymUtil.MonotonicTimer
import WspaceScout.Foundation.Word

/-!
# The buffer of raw packet statuses

`TxRawBuf` is a deque with one record for every coded frame on the air. A raw ack marks records as
good or bad, and the records in front of the first one of unknown status are taken out.

## Main definitions

- `TxRawBuf.pushPktStatus`, `TxRawBuf.popPktStatus`, `TxRawBuf.clearPktStatus`
- `TxRawBuf.sent` — the records as they were pushed

## Main results

- `TxRawBuf.popPktStatus_sent` — a raw ack drops a prefix, returns what follows and keeps the rest
-/

namespace WspaceScout

open Foundation

/-- Records that the buffer holds at most. -/
def kMaxRawBufSize : Nat := 4000

/-- The assertions on the way of a status from the buffer to the feedback records. -/
inductive RawFault where
  | statusKnown
  | packetStatus
  deriving DecidableEq, Repr

/-- The fate of a raw packet, `RawPktSendStatus::Status`. -/
inductive RawStatus where
  | bad
  | unknown
  | good
  deriving DecidableEq, Repr

/-- `RawPktSendStatus`: one frame on the air. -/
structure RawPktSendStatus where
  seq : Nat
  rate : Nat
  len : Nat
  status : RawStatus
  sendTime : MonotonicTimer
  deriving DecidableEq, Repr

/-- A parsed `RAW_ACK`: the packets of `[end_seq - num_pkts + 1, end_seq]` without the nacked ones
have arrived. -/
structure RawAck where
  endSeq : Nat
  numPkts : Nat
  nackArr : List Nat
  deriving DecidableEq, Repr

/-- The deque `info_deq_`. -/
structure TxRawBuf where
  infoDeq : List RawPktSendStatus

/-- The value of a 32-bit word as an `int`. -/
def int32 (n : Nat) : Int := if n < 2147483648 then n else (n : Int) - 4294967296

/-- The value of an `int` in a comparison with a `size_t`. -/
def sizeT (i : Int) : Nat := (i % 18446744073709551616).toNat

namespace TxRawBuf

/-- `GetInd`: the position of a record, or `-1`. -/
def getInd (b : TxRawBuf) (seq : Nat) : Int :=
  match b.infoDeq with
  | [] => -1
  | front :: _ =>
    let ind := int32 (uint32Sub seq front.seq)
    if sizeT ind ≥ b.infoDeq.length then -1 else ind

/-- `info_deq_[ind].status_ = status`. -/
def setStatus (b : TxRawBuf) (ind : Nat) (status : RawStatus) : TxRawBuf :=
  ⟨b.infoDeq.modify ind fun r => { r with status := status }⟩

/-- The loop over the nacks. The flag says whether all of them were found. -/
def markNacks (b : TxRawBuf) : List Nat → Except RawFault (TxRawBuf × Bool)
  | [] => .ok (b, true)
  | nack :: nacks =>
    let ind := b.getInd nack
    if ind < 0 then .ok (b, false)
    else if (b.infoDeq[ind.toNat]?).map RawPktSendStatus.status = some .unknown then
      (b.setStatus ind.toNat .bad).markNacks nacks
    else .error .statusKnown

/-- The pass over the window of the ack. -/
def markGood (b : TxRawBuf) (ind : Nat) : TxRawBuf :=
  ⟨b.infoDeq.modify ind fun r => if r.status = .unknown then { r with status := .good } else r⟩

/-- `PushPkts`. -/
def pushPkts (b : TxRawBuf) (ack : RawAck) : Except RawFault TxRawBuf :=
  match b.markNacks ack.nackArr with
  | .error e => .error e
  | .ok (b, false) => .ok b
  | .ok (b, true) =>
    let beginInd := b.getInd (uint32 (uint32Sub ack.endSeq ack.numPkts + 1))
    let endInd := b.getInd ack.endSeq
    if beginInd < 0 ∨ endInd < 0 then .ok b
    else
      let b := (List.range' beginInd.toNat (endInd + 1 - beginInd).toNat).foldl markGood b
      .ok ⟨b.infoDeq.drop beginInd.toNat⟩

/-- `PopPktStatus(pkt_status_vec)`: the records in front of the first unknown one. -/
def popKnown (b : TxRawBuf) : List RawPktSendStatus × TxRawBuf :=
  (b.infoDeq.takeWhile (·.status ≠ .unknown), ⟨b.infoDeq.dropWhile (·.status ≠ .unknown)⟩)

/-- `PopPktStatus`. -/
def popPktStatus (b : TxRawBuf) (ack : RawAck) :
    Except RawFault (List RawPktSendStatus × TxRawBuf) :=
  match b.pushPkts ack with
  | .error e => .error e
  | .ok b => .ok b.popKnown

/-- `ClearPktStatus`. -/
def clearPktStatus (b : TxRawBuf) : List RawPktSendStatus × TxRawBuf :=
  (b.infoDeq.map fun r => { r with status := .bad }, ⟨[]⟩)

/-- The test of `PushPktStatus`. -/
def isFull (b : TxRawBuf) : Bool := b.infoDeq.length ≥ kMaxRawBufSize

/-- `PushPktStatus`. It writes to `status_vec` only if the buffer is full. -/
def pushPktStatus (b : TxRawBuf) (statusVec : List RawPktSendStatus) (r : RawPktSendStatus) :
    List RawPktSendStatus × TxRawBuf :=
  let (statusVec, b) := if b.isFull then b.clearPktStatus else (statusVec, b)
  (statusVec, ⟨b.infoDeq ++ [r]⟩)

end TxRawBuf

/-! ### What the operations keep -/

/-- The record as it was pushed. -/
def RawPktSendStatus.asSent (r : RawPktSendStatus) : RawPktSendStatus :=
  { r with status := .unknown }

namespace TxRawBuf

/-- The records as they were pushed. -/
def sent (b : TxRawBuf) : List RawPktSendStatus := b.infoDeq.map RawPktSendStatus.asSent

variable {b b' : TxRawBuf} {ack : RawAck} {out : List RawPktSendStatus}

theorem sent_modify (b : TxRawBuf) (ind : Nat) {f : RawPktSendStatus → RawPktSendStatus}
    (hf : ∀ r, (f r).asSent = r.asSent) : sent ⟨b.infoDeq.modify ind f⟩ = b.sent := by
  refine List.ext_getElem? fun i => ?_
  rw [sent, sent, List.getElem?_map, List.getElem?_map, List.getElem?_modify]
  cases b.infoDeq[i]? with
  | none => rfl
  | some r => by_cases hi : ind = i <;> simp [hi, hf]

@[simp]
theorem sent_setStatus (b : TxRawBuf) (ind : Nat) (status : RawStatus) :
    (b.setStatus ind status).sent = b.sent := b.sent_modify ind fun _ => rfl

@[simp]
theorem sent_markGood (b : TxRawBuf) (ind : Nat) : (b.markGood ind).sent = b.sent :=
  b.sent_modify ind fun r => by split <;> rfl

theorem markNacks_sent {nacks : List Nat} {full : Bool} (h : b.markNacks nacks = .ok (b', full)) :
    b'.sent = b.sent := by
  induction nacks generalizing b with
  | nil =>
    cases h
    rfl
  | cons nack nacks ih =>
    simp only [markNacks] at h
    split at h
    · cases h
      rfl
    · split at h
      · exact (ih h).trans (b.sent_setStatus _ _)
      · cases h

theorem sent_foldl_markGood (b : TxRawBuf) (inds : List Nat) :
    (inds.foldl markGood b).sent = b.sent := by
  induction inds generalizing b with
  | nil => rfl
  | cons ind inds ih => exact (ih (b.markGood ind)).trans (b.sent_markGood ind)

/-- A raw ack drops a prefix of the buffer at most. -/
theorem pushPkts_sent (h : b.pushPkts ack = .ok b') : ∃ k, b'.sent = b.sent.drop k := by
  simp only [pushPkts] at h
  split at h
  · cases h
  · rename_i b1 hmark
    cases h
    exact ⟨0, markNacks_sent hmark⟩
  · rename_i b1 hmark
    split at h
    · cases h
      exact ⟨0, markNacks_sent hmark⟩
    · cases h
      refine ⟨(b1.getInd (uint32 (uint32Sub ack.endSeq ack.numPkts + 1))).toNat, ?_⟩
      rw [← markNacks_sent hmark, ← b1.sent_foldl_markGood, sent, List.map_drop]
      rfl

theorem popKnown_append (b : TxRawBuf) : b.popKnown.1 ++ b.popKnown.2.infoDeq = b.infoDeq :=
  List.takeWhile_append_dropWhile

/-- A raw ack drops a prefix, returns what follows and keeps the rest. -/
theorem popPktStatus_sent (h : b.popPktStatus ack = .ok (out, b')) :
    ∃ k, out.map RawPktSendStatus.asSent ++ b'.sent = b.sent.drop k := by
  simp only [popPktStatus] at h
  split at h
  · cases h
  · rename_i b1 hpush
    obtain ⟨k, hk⟩ := pushPkts_sent hpush
    cases h
    refine ⟨k, ?_⟩
    rw [← hk, sent, sent, ← List.map_append]
    exact congrArg _ b1.popKnown_append

theorem clearPktStatus_sent (b : TxRawBuf) :
    b.clearPktStatus.1.map RawPktSendStatus.asSent = b.sent := by
  rw [clearPktStatus, List.map_map]
  rfl

end TxRawBuf

end WspaceScout
