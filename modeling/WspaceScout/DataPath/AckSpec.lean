import WspaceScout.DataPath.Window

/-!
# The reference specification of `HandleDataAck`

`AckSpec` says slot by slot what an accepted acknowledgement has to do to a buffer: which slots it
empties, which it marks for retransmission, which it leaves alone, and where the cursors go. It
mentions neither the nack cursor nor the two loops of the handler.

## Main results

- `ackImage_empty_iff`, `ackImage_retrans_iff` — when a visited slot is emptied or marked
- `handleDataAck_spec` — the handler meets the specification in every reachable state
-/

namespace WspaceScout

open Foundation

/-- The packet with index `i` is nacked. -/
abbrev DataAck.Nacked (ack : DataAck) (i : Nat) : Prop := i + 1 ∈ ack.nackArr

/-- A nacked packet in flight is sent again: it timed out, or this is its first retransmission. -/
def BookKeeping.Resend (ap : WspaceAP) (now : TIME) (bk : BookKeeping) : Prop :=
  0 < bk.numRetrans ∧
    (now.sub bk.timestamp / 1000 > ap.rtt ∨ bk.numRetrans = ap.numRetrans)

/-- What an accepted acknowledgement does to the state of a client. -/
structure AckSpec (ap : WspaceAP) (now : TIME) (ack : DataAck) (c c' : ClientContext) : Prop where
  empty_iff : ∀ i, c.dataPktBuf.headPt ≤ i → i < ack.endSeq →
    ((c'.dataPktBuf.slot i).status = .empty ↔
      (c.dataPktBuf.slot i).status = .empty ∨ ¬ack.Nacked i ∨
        (c.dataPktBuf.slot i).status = .occupiedOutbound ∧ ack.Nacked i ∧
          (c.dataPktBuf.slot i).numRetrans = 0)
  retrans_iff : ∀ i, c.dataPktBuf.headPt ≤ i → i < ack.endSeq →
    ((c'.dataPktBuf.slot i).status = .occupiedRetrans ↔
      ack.Nacked i ∧ ((c.dataPktBuf.slot i).status = .occupiedRetrans ∨
        (c.dataPktBuf.slot i).status = .occupiedOutbound ∧
          (c.dataPktBuf.slot i).Resend ap now))
  otherwise : ∀ i, c.dataPktBuf.headPt ≤ i → i < ack.endSeq →
    (c.dataPktBuf.slot i).status = .occupiedOutbound → ack.Nacked i →
    0 < (c.dataPktBuf.slot i).numRetrans → ¬(c.dataPktBuf.slot i).Resend ap now →
    c'.dataPktBuf.slot i = c.dataPktBuf.slot i
  behind : ∀ i, ack.endSeq ≤ i → i < c.dataPktBuf.tailPt →
    c'.dataPktBuf.slot i = c.dataPktBuf.slot i
  tail : c'.dataPktBuf.tailPt = c.dataPktBuf.tailPt
  head : IsFirst (fun i => (c'.dataPktBuf.slot i).status ≠ .empty) c.dataPktBuf.headPt ack.endSeq
    c'.dataPktBuf.headPt
  curr : ∃ r, IsFirst (fun i => (c'.dataPktBuf.slot i).status = .occupiedRetrans)
      c.dataPktBuf.headPt ack.endSeq r ∧
    c'.dataPktBuf.currPt =
      if r < ack.endSeq then r else max c.dataPktBuf.currPt c'.dataPktBuf.headPt
  pktBuf : c'.dataPktBuf.pktBuf = c.dataPktBuf.pktBuf
  expect : c'.expectDataAckSeq = uint32 (ack.ackSeq + 1)
  dupCnt : c'.dupDataAckCnt = 0
  timeOutCnt : c'.contiguousTimeOut = 0

section Image

variable {ap : WspaceAP} {now : TIME} {ack : DataAck} {bulk i : Nat} {bk : BookKeeping}

theorem ackImage_empty_iff (hbulk : i < bulk → ¬ack.Nacked i) :
    (ackImage ap now ack bulk i bk).status = .empty ↔
      bk.status = .empty ∨ ¬ack.Nacked i ∨
        bk.status = .occupiedOutbound ∧ ack.Nacked i ∧ bk.numRetrans = 0 := by
  unfold ackImage BookKeeping.afterAck
  by_cases hlt : i < bulk
  · simp [hlt, hbulk hlt]
  · rw [if_neg hlt]
    by_cases hnack : ack.Nacked i
    · cases hst : bk.status with
      | occupiedOutbound =>
        simp only [decide_eq_true hnack, if_true]
        split_ifs <;> simp_all
      | _ => simp [hst, hnack]
    · cases hst : bk.status <;> simp [hst, hnack]

theorem ackImage_retrans_iff (hbulk : i < bulk → ¬ack.Nacked i) :
    (ackImage ap now ack bulk i bk).status = .occupiedRetrans ↔
      ack.Nacked i ∧ (bk.status = .occupiedRetrans ∨
        bk.status = .occupiedOutbound ∧ bk.Resend ap now) := by
  unfold ackImage BookKeeping.afterAck
  by_cases hlt : i < bulk
  · simp [hlt, hbulk hlt]
  · rw [if_neg hlt]
    by_cases hnack : ack.Nacked i
    · cases hst : bk.status with
      | occupiedOutbound =>
        simp only [decide_eq_true hnack, if_true, BookKeeping.Resend]
        split_ifs <;> simp_all [Nat.pos_iff_ne_zero]
      | _ => simp [hst, hnack]
    · cases hst : bk.status <;> simp [hst, hnack]

theorem ackImage_keep (hbulk : i < bulk → ¬ack.Nacked i) (hst : bk.status = .occupiedOutbound)
    (hnack : ack.Nacked i) (hpos : 0 < bk.numRetrans) (hresend : ¬bk.Resend ap now) :
    ackImage ap now ack bulk i bk = bk := by
  have hlost : ¬(now.sub bk.timestamp / 1000 > ap.rtt ∨ bk.numRetrans = ap.numRetrans) :=
    fun h => hresend ⟨hpos, h⟩
  unfold ackImage BookKeeping.afterAck
  rw [if_neg fun hlt => hbulk hlt hnack]
  simp only [hst, decide_eq_true hnack, if_true, if_neg (Nat.ne_of_gt hpos), if_neg hlost]

end Image

/-- `HandleDataAck` meets its specification, and asks for no timeout. -/
theorem handleDataAck_spec {ap : WspaceAP} {R : Nat} {s : TxState} {now : TIME} {ack : DataAck}
    (h : (txMachine ap R).Reachable s) (hacc : s.client.accepts ack = true)
    (hwf : ack.WellFormed s.history.highest) :
    (handleDataAck ap now s.client ack).1 = false ∧
      AckSpec ap now ack s.client (handleDataAck ap now s.client ack).2 := by
  have hs := windowInv_of_reachable h
  have hfits := hs.ackFits hacc hwf
  have htail := hs.tail_le
  obtain ⟨-, -, hbulk, -⟩ := hfits.bulkHead_spec
  have hsw : HandlerSweep s.buf (applyDataAck ap now s.buf ack) ack.endSeq _ :=
    applyDataAck_sweep hfits
  rw [handleDataAck_accepted hacc]
  refine ⟨rfl, ⟨fun i h1 h2 => ?_, fun i h1 h2 => ?_, fun i h1 h2 hst hnack hpos hresend => ?_,
    fun i h1 h2 => ?_, hsw.tail, hsw.head, hsw.curr, hsw.pktBuf, rfl, rfl, rfl⟩⟩
  · rw [hsw.slot_lt i h1 h2]
    exact ackImage_empty_iff (hbulk i h1)
  · rw [hsw.slot_lt i h1 h2]
    exact ackImage_retrans_iff (hbulk i h1)
  · exact (hsw.slot_lt i h1 h2).trans (ackImage_keep (hbulk i h1) hst hnack hpos hresend)
  · change i < s.buf.tailPt at h2
    exact hsw.slot_ge i h1 (by omega)

theorem handleDataAck_spec_oneSent :
    AckSpec ⟨2, 10, 3⟩ ⟨2, 0⟩ ⟨1, 1, [1]⟩ oneSent.client
      (handleDataAck ⟨2, 10, 3⟩ ⟨2, 0⟩ oneSent.client ⟨1, 1, [1]⟩).2 :=
  (handleDataAck_spec (oneSent_reachable ⟨2, 10, 3⟩) (by decide)
    ⟨by decide, by decide, by decide⟩).2

end WspaceScout
