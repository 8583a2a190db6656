import WspaceScout.AsymUtil.TxRawBuf
import WspaceScout.Foundation.SlidingWindow

/-!
# The feedback history

`FeedbackRecords` keeps what is known about the packets sent within a time window, in the order in
which it was inserted.

## Main definitions

- `FeedbackRecords.insertPacket`
-/

namespace WspaceScout

open Foundation

/-- The fate of a packet, `PacketStatus`. -/
inductive PacketStatus where
  | inValid
  | timeOut
  | naked
  | sent
  | acked
  deriving DecidableEq, Repr

/-- `PacketStatus(status)`: the two enumerations share their values. -/
def RawStatus.toPacketStatus : RawStatus → PacketStatus
  | .bad => .naked
  | .unknown => .sent
  | .good => .acked

/-- What `InsertPacket` asserts about the status. -/
def PacketStatus.isLegal (status : PacketStatus) : Bool :=
  status = .acked ∨ status = .naked ∨ status = .timeOut

theorem RawStatus.toPacketStatus_isLegal {status : RawStatus} (h : status ≠ .unknown) :
    status.toPacketStatus.isLegal = true := by
  cases status with
  | bad => rfl
  | unknown => exact absurd rfl h
  | good => rfl

/-- One record of the history. -/
structure PacketInfo where
  timer : MonotonicTimer
  seqNum : Nat
  rate : Nat
  length : Nat
  status : PacketStatus
  deriving DecidableEq, Repr

/-- The window size and the records. -/
structure FeedbackRecords where
  duration : MonotonicTimer
  records : List PacketInfo

namespace FeedbackRecords

/-- The record does not reach into the window that ends at `now`. -/
def isOld (f : FeedbackRecords) (now : MonotonicTimer) (pkt : PacketInfo) : Bool :=
  ¬now ≤ pkt.timer.add f.duration

/-- `InsertPacket`; `clock` is the reading that it makes first and uses if `time` is zero. Returns
whether it has removed a record. -/
def insertPacket (f : FeedbackRecords) (seq : Nat) (status : PacketStatus) (rate : Nat)
    (time clock : MonotonicTimer) : Except RawFault (Bool × FeedbackRecords) :=
  if status.isLegal then
    let now := if time.getMSec ≠ 0 then time else clock
    let records := f.records ++ [⟨now, seq, rate, 0, status⟩]
    .ok (records.head?.any (f.isOld now), { f with records := records.dropWhile (f.isOld now) })
  else .error .packetStatus

/-- Of increasing times, the front is cleaned of exactly the records that are old. -/
theorem dropWhile_isOld (f : FeedbackRecords) {records : List PacketInfo} (now : MonotonicTimer)
    (hincreasing : records.Pairwise fun p q => p.timer < q.timer)
    (hnormal : ∀ p ∈ records, p.timer.Normal) :
    records.dropWhile (f.isOld now) = records.filter fun p => now ≤ p.timer.add f.duration := by
  have hlive : records.Pairwise fun p q =>
      decide (now ≤ p.timer.add f.duration) = true →
        decide (now ≤ q.timer.add f.duration) = true := by
    apply hincreasing.imp_of_mem
    intro p q hp hq hpq
    simpa using fun hle =>
      le_trans hle (MonotonicTimer.add_le_add (hnormal p hp) (hnormal q hq) hpq.le)
  rw [← dropWhile_eq_filter hlive]
  congr 1
  funext p
  exact decide_not

theorem insertPacket_legal (f : FeedbackRecords) (seq rate : Nat) {status : PacketStatus}
    (time clock : MonotonicTimer) (h : status.isLegal = true) :
    ∃ r, f.insertPacket seq status rate time clock = .ok r := by
  rw [insertPacket, if_pos h]
  exact ⟨_, rfl⟩

/-- With a send time, the clock is not used. -/
theorem insertPacket_eq {f f' : FeedbackRecords} {seq rate : Nat} {status : PacketStatus}
    {time clock : MonotonicTimer} {removed : Bool}
    (h : f.insertPacket seq status rate time clock = .ok (removed, f')) (htime : time.getMSec ≠ 0) :
    f' = { f with
      records := List.dropWhile (f.isOld time) (f.records ++ [⟨time, seq, rate, 0, status⟩]) } := by
  simp only [insertPacket, if_pos htime] at h
  split at h
  · cases h
    rfl
  · cases h

end FeedbackRecords

end WspaceScout
