import Mathlib.Algebra.Order.Ring.Rat
import WspaceScout.Foundation.CellRing
import WspaceScout.Foundation.Memory
import WspaceScout.Foundation.Word

/-!
# The transmit buffer of data packets

`TxDataBuf` is a ring of `BUF_SIZE` slots with three unbounded cursors: `headPt` (oldest slot
still in use), `currPt` (next slot to hand to the sender) and `tailPt` (next free slot). Slot
`i % BUF_SIZE` holds the bookkeeping of index `i`, whose packet has sequence number `i + 1`.

Locks and condition variables are not part of the state: each operation below is the section that
the source runs under the queue and element locks. A failed `assert` is a `Fault`.

## Main definitions

- `TxDataBuf.enqueuePkt` — composed of `tailPt + 1`, `acquireTailLock` and `storePkt`
- `TxDataBuf.dequeuePkt` — composed of `acquireCurrLock` and `handOut`
-/

namespace WspaceScout

open Foundation

/-- Number of slots of a packet buffer. -/
def BUF_SIZE : Nat := 500

/-- Bytes of a slot of `pkt_buf_`: the value of the macro where `BasicBuf` is compiled. -/
def PKT_SIZE : Nat := 1472

/-- Largest number of data packets in a batch. -/
def MAX_BATCH_SIZE : Nat := 10

instance : NeZero BUF_SIZE := ⟨by decide⟩

/-- The assertions and fatal checks of the transmit path. -/
inductive Fault where
  | enqueueSlotNotEmpty
  | dequeueBadPkt
  | dequeueNoRetrans
  | timeOutBadSeq
  | sendRateArrSize
  | setHeader
  | setRate
  | popPkt
  | pushPkt
  | codingPktCnt
  | timeOutBatchSize
  deriving DecidableEq, Repr

/-- Wall-clock time, `struct timeval`. -/
structure TIME where
  tvSec : Int
  tvUsec : Int
  deriving DecidableEq, Repr

/-- `end - start` in microseconds; the doubles of the source are read as exact rationals. -/
def TIME.sub (finish start : TIME) : ℚ :=
  (finish.tvSec - start.tvSec) * 1000000 + (finish.tvUsec - start.tvUsec)

/-- Status of a slot. -/
inductive Status where
  | empty
  | occupiedNew
  | occupiedRetrans
  | occupiedOutbound
  deriving DecidableEq, Repr

/-- Bookkeeping of one slot. `batchDuration` is `none` until it is first written. -/
structure BookKeeping where
  seqNum : Nat
  status : Status
  len : Nat
  numRetrans : Nat
  timestamp : TIME
  batchDuration : Option ℚ
  deriving DecidableEq

/-- `UpdateBookKeeping(index, seq_num, status, len, num_retrans, false)`: the timestamp stays. -/
def BookKeeping.update (bk : BookKeeping) (seqNum : Nat) (status : Status) (len numRetrans : Nat) :
    BookKeeping :=
  { bk with seqNum := seqNum, status := status, len := len, numRetrans := numRetrans }

/-- `UpdateBookKeeping(index, 0, kEmpty, 0, 0, false)`, the way every handler frees a slot. -/
def BookKeeping.free (bk : BookKeeping) : BookKeeping := bk.update 0 .empty 0 0

/-- The status of a packet that `DequeuePkt` hands to the sender. -/
def Status.isPkt (st : Status) : Bool := st = .occupiedNew ∨ st = .occupiedRetrans

/-- The bookkeeping of a packet once `DequeuePkt` has handed it out. -/
def BookKeeping.sent (bk : BookKeeping) (now : TIME) : BookKeeping :=
  { bk with
    status := .occupiedOutbound
    timestamp := now
    batchDuration := some 0
    numRetrans := if bk.status = .occupiedRetrans then bk.numRetrans - 1 else bk.numRetrans }

/-- `BasicBuf` together with the members of `TxDataBuf`. `pktBuf` is the whole array `pkt_buf_`. -/
structure TxDataBuf where
  headPt : Nat
  currPt : Nat
  tailPt : Nat
  bookKeepArr : CellRing BUF_SIZE BookKeeping
  pktBuf : Memory
  numRetrans : Nat

/-- What `DequeuePkt` writes to its out-parameters. `buf` is the address of the packet. -/
structure Dequeued where
  seqNum : Nat
  len : Nat
  status : Status
  numRetrans : Nat
  index : Fin BUF_SIZE
  buf : Nat
  deriving DecidableEq

namespace TxDataBuf

/-- The constructor: all slots empty, packet bytes zero. `boot` gives the clock readings. -/
def init (boot : Fin BUF_SIZE → TIME) (numRetrans : Nat) : TxDataBuf where
  headPt := 0
  currPt := 0
  tailPt := 0
  bookKeepArr := fun i => ⟨0, .empty, 0, 0, boot i, none⟩
  pktBuf := fun _ => 0
  numRetrans := numRetrans

/-- The bookkeeping of index `i`. -/
def slot (b : TxDataBuf) (i : Nat) : BookKeeping := b.bookKeepArr.get i

/-- `BasicBuf::IsFull`. -/
def isFull (b : TxDataBuf) : Bool := uint32 (b.headPt + BUF_SIZE) = b.tailPt

/-- `TxDataBuf::IsEmpty`: nothing left to hand out. -/
def isEmpty (b : TxDataBuf) : Bool := b.tailPt = b.currPt

/-- The address of the slot of index `i` in `pkt_buf_`. -/
def getPktBufAddr (i : Nat) : Nat := i % BUF_SIZE * PKT_SIZE

/-- Overwrite the bookkeeping of index `i`. -/
def setSlot (b : TxDataBuf) (i : Nat) (bk : BookKeeping) : TxDataBuf :=
  { b with bookKeepArr := b.bookKeepArr.set i bk }

/-- `BasicBuf::AcquireTailLock`: reserve the slot at the tail, `none` if the buffer is full. -/
def acquireTailLock (b : TxDataBuf) : Option (Nat × TxDataBuf) :=
  if b.isFull then none
  else some (b.tailPt % BUF_SIZE, { b with tailPt := uint32 (b.tailPt + 1) })

/-- The store into the reserved slot, ended by `UpdateBookKeeping`. -/
def storePkt (b : TxDataBuf) (index seqNum : Nat) (pkt : List UInt8) : Except Fault TxDataBuf :=
  let b := { b with pktBuf := b.pktBuf.write (getPktBufAddr index) pkt }
  if (b.slot index).status = .empty then
    .ok (b.setSlot index ((b.slot index).update seqNum .occupiedNew pkt.length b.numRetrans))
  else .error .enqueueSlotNotEmpty

/-- `TxDataBuf::EnqueuePkt`. The packet is dropped if the buffer is full. -/
def enqueuePkt (b : TxDataBuf) (pkt : List UInt8) : Except Fault TxDataBuf :=
  let seqNum := uint32 (b.tailPt + 1)
  match b.acquireTailLock with
  | none => .ok b
  | some (index, b) => b.storePkt index seqNum pkt

/-- The part of `TxDataBuf::AcquireCurrLock` after its wait has ended with the buffer not empty. -/
def acquireCurrLock (b : TxDataBuf) : Nat × TxDataBuf :=
  (b.currPt % BUF_SIZE, { b with currPt := uint32 (b.currPt + 1) })

/-- The part of `DequeuePkt` under the element lock. Slots that are empty or outbound are only
reported; a new packet or a retransmission leaves the slot outbound. -/
def handOut (b : TxDataBuf) (index : Nat) (now : TIME) : Except Fault (Dequeued × TxDataBuf) :=
  let bk := b.slot index
  let out : Dequeued := ⟨bk.seqNum, bk.len, bk.status, bk.numRetrans, Fin.ofNat BUF_SIZE index,
    getPktBufAddr index⟩
  let sent : BookKeeping :=
    { bk with status := .occupiedOutbound, timestamp := now, batchDuration := some 0 }
  let isPkt : Bool := bk.len > 0 ∧ bk.len ≤ PKT_SIZE ∧ bk.seqNum > 0
  match bk.status with
  | .occupiedNew => if isPkt then .ok (out, b.setSlot index sent) else .error .dequeueBadPkt
  | .occupiedRetrans =>
    if isPkt then
      if bk.numRetrans > 0 then
        .ok ({ out with numRetrans := bk.numRetrans - 1 },
          b.setSlot index { sent with numRetrans := bk.numRetrans - 1 })
      else .error .dequeueNoRetrans
    else .error .dequeueBadPkt
  | _ => .ok (out, b)

/-- `TxDataBuf::DequeuePkt` on a buffer that is not empty. -/
def dequeuePkt (b : TxDataBuf) (now : TIME) : Except Fault (Dequeued × TxDataBuf) :=
  let (index, b) := b.acquireCurrLock
  b.handOut index now

/-! ### Reading slots -/

variable {b : TxDataBuf} {i j : Nat} {bk : BookKeeping}

/-- Indices that are equal modulo the size share a slot. -/
theorem slot_congr (h : i % BUF_SIZE = j % BUF_SIZE) : b.slot i = b.slot j :=
  congrArg b.bookKeepArr (CellRing.ofNat_eq_iff.mpr h)

theorem slot_add_BUF_SIZE (b : TxDataBuf) (i : Nat) : b.slot (i + BUF_SIZE) = b.slot i :=
  slot_congr (Nat.add_mod_right i BUF_SIZE)

theorem slot_mod (b : TxDataBuf) (i : Nat) : b.slot (i % BUF_SIZE) = b.slot i :=
  slot_congr (Nat.mod_mod i BUF_SIZE)

theorem setSlot_mod (b : TxDataBuf) (i : Nat) (bk : BookKeeping) :
    b.setSlot (i % BUF_SIZE) bk = b.setSlot i bk := by
  have heq : Fin.ofNat BUF_SIZE (i % BUF_SIZE) = Fin.ofNat BUF_SIZE i :=
    CellRing.ofNat_eq_iff.mpr (Nat.mod_mod i BUF_SIZE)
  simp only [setSlot, CellRing.set, heq]

@[simp]
theorem slot_setSlot_self : (b.setSlot i bk).slot i = bk :=
  b.bookKeepArr.get_set_self i bk

theorem slot_setSlot_window (lo : Nat) (hi : lo ≤ i ∧ i < lo + BUF_SIZE)
    (hj : lo ≤ j ∧ j < lo + BUF_SIZE) (hne : j ≠ i) : (b.setSlot i bk).slot j = b.slot j :=
  b.bookKeepArr.get_set_window bk hi hj hne

theorem slot_setSlot_of_ne (h : j % BUF_SIZE ≠ i % BUF_SIZE) :
    (b.setSlot i bk).slot j = b.slot j :=
  b.bookKeepArr.get_set_of_ne bk h

/-! ### The operations on the ring -/

theorem getPktBufAddr_mod (i : Nat) : getPktBufAddr (i % BUF_SIZE) = getPktBufAddr i := by
  unfold getPktBufAddr
  rw [Nat.mod_mod]

theorem enqueuePkt_full {pkt : List UInt8} (hfull : b.isFull = true) :
    b.enqueuePkt pkt = .ok b := by
  have hlock : b.acquireTailLock = none := if_pos hfull
  unfold enqueuePkt
  rw [hlock]

theorem acquireTailLock_room (hroom : b.isFull = false) : b.acquireTailLock =
    some (b.tailPt % BUF_SIZE, { b with tailPt := uint32 (b.tailPt + 1) }) := by
  unfold acquireTailLock
  rw [if_neg (by simp [hroom])]

/-- `EnqueuePkt` with room in the buffer and an empty slot at the tail. -/
theorem enqueuePkt_room (pkt : List UInt8) (hroom : b.isFull = false)
    (hfree : (b.slot b.tailPt).status = .empty) :
    b.enqueuePkt pkt = .ok (({ b with
      tailPt := uint32 (b.tailPt + 1)
      pktBuf := b.pktBuf.write (getPktBufAddr b.tailPt) pkt } : TxDataBuf).setSlot b.tailPt
      ((b.slot b.tailPt).update (uint32 (b.tailPt + 1)) .occupiedNew pkt.length
        b.numRetrans)) := by
  unfold enqueuePkt
  rw [acquireTailLock_room hroom]
  simp only [storePkt, slot_mod, setSlot_mod, getPktBufAddr_mod]
  exact if_pos hfree

/-- What `DequeuePkt` reports about the slot at the cursor. -/
def dequeued (b : TxDataBuf) (now : TIME) : Dequeued :=
  let bk := b.slot b.currPt
  { seqNum := bk.seqNum
    len := bk.len
    status := bk.status
    numRetrans := (bk.sent now).numRetrans
    index := Fin.ofNat BUF_SIZE b.currPt
    buf := getPktBufAddr b.currPt }

/-- `DequeuePkt` acts on the slot at the cursor, under the unbounded index. -/
theorem dequeuePkt_eq (b : TxDataBuf) (now : TIME) (hcurr : b.currPt + 1 < 4294967296) :
    b.dequeuePkt now = ({ b with currPt := b.currPt + 1 } : TxDataBuf).handOut b.currPt now := by
  have hnext : uint32 (b.currPt + 1) = b.currPt + 1 := uint32_of_lt hcurr
  have hfin : Fin.ofNat BUF_SIZE (b.currPt % BUF_SIZE) = Fin.ofNat BUF_SIZE b.currPt :=
    CellRing.ofNat_eq_iff.mpr (Nat.mod_mod _ _)
  unfold dequeuePkt acquireCurrLock
  simp only [hnext, handOut, slot_mod, setSlot_mod, getPktBufAddr_mod, hfin]

/-- `DequeuePkt` on a slot that is empty or outbound. -/
theorem dequeuePkt_skip {now : TIME} (hcurr : b.currPt + 1 < 4294967296)
    (hpkt : (b.slot b.currPt).status.isPkt = false) :
    b.dequeuePkt now = .ok (b.dequeued now, { b with currPt := b.currPt + 1 }) := by
  have hslot : ({ b with currPt := b.currPt + 1 } : TxDataBuf).slot b.currPt = b.slot b.currPt :=
    rfl
  rw [dequeuePkt_eq b now hcurr]
  cases hst : (b.slot b.currPt).status with
  | empty => simp [handOut, dequeued, BookKeeping.sent, hslot, hst]
  | occupiedOutbound => simp [handOut, dequeued, BookKeeping.sent, hslot, hst]
  | occupiedNew => simp [Status.isPkt, hst] at hpkt
  | occupiedRetrans => simp [Status.isPkt, hst] at hpkt

/-- `DequeuePkt` on a slot that is new or to be retransmitted. -/
theorem dequeuePkt_sent {now : TIME} (hcurr : b.currPt + 1 < 4294967296)
    (hpkt : (b.slot b.currPt).status.isPkt = true)
    (hlen : 0 < (b.slot b.currPt).len ∧ (b.slot b.currPt).len ≤ PKT_SIZE)
    (hseq : 0 < (b.slot b.currPt).seqNum)
    (hretrans : (b.slot b.currPt).status = .occupiedRetrans → 0 < (b.slot b.currPt).numRetrans) :
    b.dequeuePkt now = .ok (b.dequeued now, ({ b with currPt := b.currPt + 1 } :
      TxDataBuf).setSlot b.currPt ((b.slot b.currPt).sent now)) := by
  have hslot : ({ b with currPt := b.currPt + 1 } : TxDataBuf).slot b.currPt = b.slot b.currPt :=
    rfl
  rw [dequeuePkt_eq b now hcurr]
  cases hst : (b.slot b.currPt).status with
  | empty => simp [Status.isPkt, hst] at hpkt
  | occupiedOutbound => simp [Status.isPkt, hst] at hpkt
  | occupiedNew => simp [handOut, hslot, hlen, hseq, dequeued, BookKeeping.sent, hst]
  | occupiedRetrans =>
    simp [handOut, hslot, hlen, hseq, dequeued, BookKeeping.sent, hst, hretrans hst]

end TxDataBuf

end WspaceScout
