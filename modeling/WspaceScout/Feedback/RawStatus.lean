import Mathlib.Data.List.TakeWhile
import WspaceScout.Feedback.FeedbackRecords
import WspaceScout.Foundation.Consecutive
import WspaceScout.Foundation.CountedLoop
import WspaceScout.Foundation.Machine

/-!
# What the raw buffer says about a packet

Raw packets enter the buffer in the order of their sequence numbers. Raw acks, of which any may be
lost or may come before the packets that they cover, mark them; timeouts and a full buffer clear
it. Whatever leaves the buffer with a verdict has earned it.

## Main definitions

- `rawMachine` — one buffer under pushes, raw acks and clears
- `RawInv` — the invariant of its runs

## Main results

- `TxRawBuf.getInd_eq` — lookup by subtraction
- `TxRawBuf.pushPkts_classified` — what a raw ack does to the buffer
- `rawMachine_sound` — soundness of the verdicts over whole runs
-/

namespace WspaceScout

open Foundation

/-- The window of the ack contains the packet. -/
def RawAck.Covers (ack : RawAck) (seq : Nat) : Prop :=
  ack.endSeq + 1 - ack.numPkts ≤ seq ∧ seq ≤ ack.endSeq

instance (ack : RawAck) (seq : Nat) : Decidable (ack.Covers seq) :=
  inferInstanceAs (Decidable (_ ∧ _))

/-- A window of at least one packet, with increasing nacks in it. -/
structure RawAck.WellFormed (ack : RawAck) : Prop where
  numPkts_pos : 1 ≤ ack.numPkts
  numPkts_le : ack.numPkts ≤ ack.endSeq + 1
  endSeq_lt : ack.endSeq < 4294967296
  nacks_sorted : ack.nackArr.Pairwise (· < ·)
  nacks_covered : ∀ nack ∈ ack.nackArr, ack.Covers nack

namespace TxRawBuf

variable {b : TxRawBuf} {lo : Nat} {ack : RawAck}

/-! ### Lookup -/

/-- The subtraction may wrap, but then its value lies outside the buffer. -/
theorem getInd_eq (h : Consecutive RawPktSendStatus.seq lo b.infoDeq)
    (hlen : b.infoDeq.length ≤ kMaxRawBufSize) (hlast : lo + b.infoDeq.length < 4294967296)
    {seq : Nat} (hseq : seq < 4294967296) :
    b.getInd seq =
      if lo ≤ seq ∧ seq < lo + b.infoDeq.length then (seq : Int) - lo else -1 := by
  have hmax : kMaxRawBufSize = 4000 := rfl
  cases hb : b.infoDeq with
  | nil =>
    have hne : ¬(lo ≤ seq ∧ seq < lo + ([] : List RawPktSendStatus).length) := by
      rw [List.length_nil]
      omega
    rw [getInd, hb, if_neg hne]
  | cons front rest =>
    have hfront : front.seq = lo := h.key_eq (i := 0) (by rw [hb]; rfl)
    rw [hb] at hlen hlast
    have hwrap : uint32Sub seq lo = if lo ≤ seq then seq - lo else seq + (4294967296 - lo) := by
      unfold uint32Sub
      split <;> omega
    rw [getInd, hb]
    simp only [hfront, hwrap, int32, sizeT]
    split <;> split <;> split <;> split <;> omega

/-- A packet in the buffer is found at its position. -/
theorem getInd_mem (h : Consecutive RawPktSendStatus.seq lo b.infoDeq)
    (hlen : b.infoDeq.length ≤ kMaxRawBufSize) (hlast : lo + b.infoDeq.length < 4294967296)
    {seq : Nat} (hseq : seq < 4294967296) :
    (b.getInd seq = -1 ∧ ∀ r ∈ b.infoDeq, r.seq ≠ seq) ∨
      ∃ i : Nat, b.getInd seq = i ∧ seq = lo + i ∧ ∃ r, b.infoDeq[i]? = some r ∧ r.seq = seq := by
  rw [getInd_eq h hlen hlast hseq]
  by_cases hin : lo ≤ seq ∧ seq < lo + b.infoDeq.length
  · have hi : seq - lo < b.infoDeq.length := by omega
    refine .inr ⟨seq - lo, by rw [if_pos hin]; omega, by omega, _, List.getElem?_eq_getElem hi, ?_⟩
    rw [h.key_eq (List.getElem?_eq_getElem hi)]
    omega
  · refine .inl ⟨if_neg hin, fun r hr heq => hin ?_⟩
    have := h.bounds hr
    omega

/-! ### One raw ack -/

/-- The effect of the nacks `done` on a record. -/
def nacked (done : List Nat) (r : RawPktSendStatus) : RawPktSendStatus :=
  if r.seq ∈ done then { r with status := .bad } else r

/-- The effect of the pass over the packets `lo, lo + 1, …, hi - 1` on a record. -/
def cleared (lo hi : Nat) (r : RawPktSendStatus) : RawPktSendStatus :=
  if lo ≤ r.seq ∧ r.seq < hi then
    if r.status = .unknown then { r with status := .good } else r
  else r

theorem nacked_seq (done : List Nat) (r : RawPktSendStatus) : (nacked done r).seq = r.seq := by
  unfold nacked
  split <;> rfl

theorem cleared_seq (lo hi : Nat) (r : RawPktSendStatus) : (cleared lo hi r).seq = r.seq := by
  unfold cleared
  split
  · split <;> rfl
  · rfl

/-- The loop over the nacks marks those up to the first one that is not in the buffer. -/
theorem markNacks_spec (h : Consecutive RawPktSendStatus.seq lo b.infoDeq)
    (hlen : b.infoDeq.length ≤ kMaxRawBufSize) (hlast : lo + b.infoDeq.length < 4294967296)
    {nacks : List Nat} (hsorted : nacks.Pairwise (· < ·)) (hlt : ∀ nack ∈ nacks, nack < 4294967296)
    (hunknown : ∀ r ∈ b.infoDeq, r.seq ∈ nacks → r.status = .unknown) :
    ∃ done full, b.markNacks nacks = .ok (⟨b.infoDeq.map (nacked done)⟩, full) ∧
      (∀ nack ∈ done, nack ∈ nacks) ∧ (full = true → done = nacks) := by
  induction nacks generalizing b with
  | nil =>
    have hnil : b.infoDeq.map (nacked []) = b.infoDeq := List.map_id'' (fun _ => rfl) _
    exact ⟨[], true, by rw [hnil]; rfl, fun _ hmem => hmem, fun _ => rfl⟩
  | cons nack nacks ih =>
    rw [List.pairwise_cons] at hsorted
    obtain ⟨habsent, -⟩ | ⟨i, hind, hi, r, hr, hrseq⟩ :=
      getInd_mem h hlen hlast (hlt nack List.mem_cons_self)
    · -- the loop ends here
      have hnil : b.infoDeq.map (nacked []) = b.infoDeq := List.map_id'' (fun _ => rfl) _
      refine ⟨[], false, ?_, fun n hn => absurd hn List.not_mem_nil, fun hf => by cases hf⟩
      rw [markNacks, habsent, if_pos (by decide), hnil]
    · -- an update of one position is an update of one number
      have hmark : b.setStatus i .bad = ⟨b.infoDeq.map (nacked [nack])⟩ := by
        rw [setStatus, h.modify_eq_map, ← hi]
        exact congrArg TxRawBuf.mk (List.map_congr_left fun r _ => by simp [nacked])
      have hstatus : (b.infoDeq[i]?).map RawPktSendStatus.status = some .unknown := by
        rw [hr, Option.map_some,
          hunknown r (List.mem_of_getElem? hr) (hrseq ▸ List.mem_cons_self)]
      obtain ⟨done, full, hexec, hdone, hfull⟩ := ih (b := b.setStatus i .bad)
        (by rw [hmark]; exact h.map fun r _ => nacked_seq _ r)
        (by rw [hmark, List.length_map]; exact hlen)
        (by rw [hmark, List.length_map]; exact hlast)
        hsorted.2 (fun n hn => hlt n (List.mem_cons_of_mem _ hn))
        (fun r' hr' hmem => by
          rw [hmark] at hr'
          obtain ⟨r, hr, rfl⟩ := List.mem_map.mp hr'
          rw [nacked_seq] at hmem
          have hne : r.seq ≠ nack := fun heq => absurd (hsorted.1 _ hmem) (by omega)
          rw [nacked, if_neg (by simpa using hne)]
          exact hunknown r hr (List.mem_cons_of_mem _ hmem))
      refine ⟨nack :: done, full, ?_, fun n hn => ?_, fun hf => by rw [hfull hf]⟩
      · have hcomp : nacked done ∘ nacked [nack] = nacked (nack :: done) := by
          funext r
          by_cases hr : r.seq = nack <;> simp [nacked, hr]
        rw [markNacks, hind, Int.toNat_natCast, if_neg (by omega), if_pos hstatus, hexec, hmark,
          List.map_map, hcomp]
      · obtain rfl | hn := List.mem_cons.mp hn
        · exact List.mem_cons_self
        · exact List.mem_cons_of_mem _ (hdone n hn)

theorem foldl_markGood (h : Consecutive RawPktSendStatus.seq lo b.infoDeq) (ind n : Nat) :
    (List.range' ind n).foldl markGood b =
      ⟨b.infoDeq.map (cleared (lo + ind) (lo + (ind + n)))⟩ := by
  refine foldl_range'_invariant (I := fun i c =>
    c = ⟨b.infoDeq.map (cleared (lo + ind) (lo + i))⟩) markGood ind n b ?_ ?_
  · have hid : ∀ r, cleared (lo + ind) (lo + ind) r = r := fun r => if_neg (by omega)
    rw [List.map_id'' hid]
  · rintro i c hlo - rfl
    have hc := h.map (f := cleared (lo + ind) (lo + i)) fun r _ => cleared_seq _ _ r
    rw [markGood, hc.modify_eq_map, List.map_map]
    refine congrArg TxRawBuf.mk (List.map_congr_left fun r _ => ?_)
    rw [Function.comp_apply, cleared_seq]
    by_cases hri : r.seq = lo + i
    · have hsame : cleared (lo + ind) (lo + i) r = r := if_neg (by omega)
      have hnow : cleared (lo + ind) (lo + (i + 1)) r =
          if r.status = .unknown then { r with status := .good } else r := if_pos (by omega)
      rw [if_pos hri, hsame, hnow]
    · rw [if_neg hri, cleared, cleared]
      exact if_congr (by omega) rfl rfl

end TxRawBuf

/-- What a raw ack may make of a record. -/
inductive Classified (ack : RawAck) (r : RawPktSendStatus) : RawPktSendStatus → Prop where
  | same : Classified ack r r
  | bad : r.status = .unknown → r.seq ∈ ack.nackArr → Classified ack r { r with status := .bad }
  | good : r.status = .unknown → ack.Covers r.seq → r.seq ∉ ack.nackArr →
      Classified ack r { r with status := .good }

theorem Classified.seq_eq {ack : RawAck} {r r' : RawPktSendStatus} (h : Classified ack r r') :
    r'.seq = r.seq := by
  cases h <;> rfl

namespace TxRawBuf

variable {b : TxRawBuf} {lo : Nat} {ack : RawAck}

theorem classified_nacked (hw : ack.WellFormed)
    (hunknown : ∀ r ∈ b.infoDeq, ack.Covers r.seq → r.status = .unknown) {done : List Nat}
    (hdone : ∀ nack ∈ done, nack ∈ ack.nackArr) {r : RawPktSendStatus} (hr : r ∈ b.infoDeq) :
    Classified ack r (nacked done r) := by
  unfold nacked
  split
  · rename_i hmem
    have hnack := hdone _ hmem
    exact .bad (hunknown r hr (hw.nacks_covered _ hnack)) hnack
  · exact .same

/-- A record in the window, after all nacks have been marked. -/
theorem classified_cleared (hw : ack.WellFormed)
    (hunknown : ∀ r ∈ b.infoDeq, ack.Covers r.seq → r.status = .unknown)
    {r : RawPktSendStatus} (hr : r ∈ b.infoDeq) :
    Classified ack r
      (cleared (ack.endSeq + 1 - ack.numPkts) (ack.endSeq + 1) (nacked ack.nackArr r)) := by
  unfold nacked
  split
  · rename_i hmem
    have hbad : Classified ack r { r with status := .bad } :=
      .bad (hunknown r hr (hw.nacks_covered _ hmem)) hmem
    unfold cleared
    split <;> exact hbad
  · rename_i hmem
    unfold cleared
    split
    · rename_i hin
      have hcov : ack.Covers r.seq := ⟨hin.1, by omega⟩
      rw [if_pos (hunknown r hr hcov)]
      exact .good (hunknown r hr hcov) hcov hmem
    · exact .same

/-- A raw ack marks records and drops a prefix. -/
theorem pushPkts_classified (h : Consecutive RawPktSendStatus.seq lo b.infoDeq)
    (hlen : b.infoDeq.length ≤ kMaxRawBufSize) (hlast : lo + b.infoDeq.length < 4294967296)
    (hw : ack.WellFormed) (hunknown : ∀ r ∈ b.infoDeq, ack.Covers r.seq → r.status = .unknown) :
    ∃ f k, b.pushPkts ack = .ok ⟨(b.infoDeq.map f).drop k⟩ ∧
      ∀ r ∈ b.infoDeq, Classified ack r (f r) := by
  have hpos := hw.numPkts_pos
  have hle := hw.numPkts_le
  have hend := hw.endSeq_lt
  obtain ⟨done, full, hexec, hdone, hfull⟩ := markNacks_spec h hlen hlast hw.nacks_sorted
    (fun nack hn => by have := (hw.nacks_covered nack hn).2; omega)
    (fun r hr hn => hunknown r hr (hw.nacks_covered _ hn))
  cases full with
  | false =>
    refine ⟨nacked done, 0, ?_, fun r hr => classified_nacked hw hunknown hdone hr⟩
    rw [pushPkts, hexec]
    rfl
  | true =>
    have hmarked := h.map fun r _ => nacked_seq done r
    have hbegin : uint32 (uint32Sub ack.endSeq ack.numPkts + 1) = ack.endSeq + 1 - ack.numPkts := by
      unfold uint32 uint32Sub
      omega
    have hfind := fun (seq : Nat) (hseq : seq < 4294967296) =>
      getInd_mem (b := ⟨b.infoDeq.map (nacked done)⟩) hmarked
        (by rw [List.length_map]; exact hlen) (by rw [List.length_map]; exact hlast) hseq
    -- if either end of the range is not in the buffer, only the nacks count
    obtain ⟨hb, -⟩ | ⟨i, hi, hiseq, -⟩ :=
      hfind (ack.endSeq + 1 - ack.numPkts) (by omega)
    · refine ⟨nacked done, 0, ?_, fun r hr => classified_nacked hw hunknown hdone hr⟩
      rw [pushPkts, hexec]
      simp only [hbegin, hb]
      rfl
    · obtain ⟨he, -⟩ | ⟨j, hj, hjseq, -⟩ := hfind ack.endSeq hend
      · refine ⟨nacked done, 0, ?_, fun r hr => classified_nacked hw hunknown hdone hr⟩
        rw [pushPkts, hexec]
        simp only [hbegin, hi, he]
        exact if_pos (.inr (by decide))
      · have hi0 : ¬((i : Int) < 0 ∨ (j : Int) < 0) := by omega
        have hn : ((j : Int) + 1 - i).toNat = j + 1 - i := by omega
        refine ⟨cleared (ack.endSeq + 1 - ack.numPkts) (ack.endSeq + 1) ∘ nacked ack.nackArr, i,
          ?_, fun r hr => classified_cleared hw hunknown hr⟩
        rw [pushPkts, hexec]
        simp only [hbegin, hi, hj, if_neg hi0, Int.toNat_natCast, hn]
        rw [foldl_markGood hmarked, List.map_map, hfull rfl, ← hiseq,
          show lo + (i + (j + 1 - i)) = ack.endSeq + 1 by omega]

end TxRawBuf

/-! ### Runs -/

/-- What the threads do to the buffer. -/
inductive RawInput where
  | push (rate len : Nat) (sendTime : MonotonicTimer)
  | ack (ack : RawAck)
  | clear

/-- A record that was taken out of the buffer; `flushed` says that a clear took it out. -/
structure Returned where
  record : RawPktSendStatus
  flushed : Bool
  deriving DecidableEq

/-- The buffer, the next raw sequence number, the raw acks so far and the records returned so
far. -/
structure RawState where
  buf : TxRawBuf
  rawSeq : Nat
  acks : List RawAck
  returned : List Returned

namespace RawState

/-- The state of a fresh client context. -/
def init : RawState := ⟨⟨[]⟩, 1, [], []⟩

/-- Hand out the whole buffer. -/
def flushed (s : RawState) : RawState :=
  { s with
    buf := s.buf.clearPktStatus.2
    returned := s.returned ++ s.buf.clearPktStatus.1.map (⟨·, true⟩) }

/-- Append the record of the next packet. -/
def appended (s : RawState) (rate len : Nat) (sendTime : MonotonicTimer) : RawState :=
  { s with
    buf := ⟨s.buf.infoDeq ++ [⟨s.rawSeq, rate, len, .unknown, sendTime⟩]⟩
    rawSeq := s.rawSeq + 1 }

/-- The sequence numbers of all records returned or still in the buffer. -/
def seqs (s : RawState) : List Nat :=
  s.returned.map (·.record.seq) ++ s.buf.infoDeq.map RawPktSendStatus.seq

end RawState

/-- Fewer than `2 ^ 32 - 1` packets, and acks whose windows follow each other. -/
def enabledRaw (s : RawState) : RawInput → Prop
  | .push _ _ _ => s.rawSeq < 4294967295
  | .ack ack => ack.WellFormed ∧ ∀ a ∈ s.acks, a.endSeq < ack.endSeq + 1 - ack.numPkts
  | .clear => True

/-- One call. A push reports what it took out of a full buffer. -/
def execRaw (s : RawState) : RawInput → Except RawFault RawState
  | .push rate len sendTime =>
    let (out, buf) := s.buf.pushPktStatus [] ⟨s.rawSeq, rate, len, .unknown, sendTime⟩
    .ok { s with
      buf := buf
      rawSeq := s.rawSeq + 1
      returned := s.returned ++ out.map (⟨·, true⟩) }
  | .ack ack =>
    match s.buf.popPktStatus ack with
    | .error e => .error e
    | .ok (out, buf) =>
      .ok { s with
        buf := buf
        acks := s.acks ++ [ack]
        returned := s.returned ++ out.map (⟨·, false⟩) }
  | .clear => .ok s.flushed

/-- The buffer of one client over a whole run. -/
def rawMachine : Machine RawState RawInput RawFault where
  init s := s = .init
  enabled := enabledRaw
  exec := execRaw

/-- An ack has earned the record its verdict. -/
inductive Earned (acks : List RawAck) (r : RawPktSendStatus) : Prop where
  | good (ack : RawAck) : r.status = .good → ack ∈ acks → ack.Covers r.seq →
      r.seq ∉ ack.nackArr → Earned acks r
  | bad (ack : RawAck) : r.status = .bad → ack ∈ acks → r.seq ∈ ack.nackArr → Earned acks r

/-- The invariant of a run. -/
structure RawInv (s : RawState) : Prop where
  length_lt : s.buf.infoDeq.length < s.rawSeq
  rawSeq_lt : s.rawSeq < 4294967296
  length_le : s.buf.infoDeq.length ≤ kMaxRawBufSize
  consecutive : Consecutive RawPktSendStatus.seq (s.rawSeq - s.buf.infoDeq.length) s.buf.infoDeq
  fresh : ∀ r ∈ s.buf.infoDeq, (∀ ack ∈ s.acks, ack.endSeq < r.seq) → r.status = .unknown
  marked : ∀ r ∈ s.buf.infoDeq, r.status = .unknown ∨ Earned s.acks r
  sorted : s.seqs.Pairwise (· < ·)
  lt_rawSeq : ∀ seq ∈ s.seqs, seq < s.rawSeq
  returned : ∀ x ∈ s.returned,
    Earned s.acks x.record ∨ x.record.status = .bad ∧ x.flushed = true

section Steps

variable {s s' : RawState} {input : RawInput} {ack : RawAck}

theorem Earned.mono {acks acks' : List RawAck} {r : RawPktSendStatus} (h : Earned acks r)
    (hsub : ∀ a ∈ acks, a ∈ acks') : Earned acks' r := by
  cases h with
  | good ack hstatus hmem hcov hnack => exact .good ack hstatus (hsub _ hmem) hcov hnack
  | bad ack hstatus hmem hnack => exact .bad ack hstatus (hsub _ hmem) hnack

theorem RawState.seqs_flushed (s : RawState) : s.flushed.seqs = s.seqs := by
  have hseq : s.buf.clearPktStatus.1.map RawPktSendStatus.seq =
      s.buf.infoDeq.map RawPktSendStatus.seq := List.map_map
  simp only [seqs, flushed, List.map_append, List.map_map]
  rw [← hseq]
  exact List.append_nil _

theorem RawInv.flushed (h : RawInv s) : RawInv s.flushed := by
  refine ⟨?_, h.rawSeq_lt, Nat.zero_le _, .nil _ _, fun r hr => (List.not_mem_nil hr).elim,
    fun r hr => (List.not_mem_nil hr).elim, ?_, ?_, fun x hx => ?_⟩
  · exact Nat.lt_of_le_of_lt (Nat.zero_le _) h.length_lt
  · rw [RawState.seqs_flushed]
    exact h.sorted
  · rw [RawState.seqs_flushed]
    exact h.lt_rawSeq
  · obtain hx | hx := List.mem_append.mp hx
    · exact h.returned x hx
    · obtain ⟨r, hr, rfl⟩ := List.mem_map.mp hx
      obtain ⟨r, -, rfl⟩ := List.mem_map.mp hr
      exact .inr ⟨rfl, rfl⟩

theorem RawInv.appended (h : RawInv s) (hroom : s.buf.infoDeq.length < kMaxRawBufSize)
    (hseq : s.rawSeq < 4294967295) (rate len : Nat) (sendTime : MonotonicTimer) :
    RawInv (s.appended rate len sendTime) := by
  have hlt := h.length_lt
  have hlen : (s.appended rate len sendTime).buf.infoDeq.length = s.buf.infoDeq.length + 1 :=
    List.length_append
  have hnext : (s.appended rate len sendTime).rawSeq = s.rawSeq + 1 := rfl
  have hseqs : (s.appended rate len sendTime).seqs = s.seqs ++ [s.rawSeq] := by
    simp [RawState.seqs, RawState.appended]
  refine ⟨by omega, by omega, by omega, ?_, ?_, ?_, ?_, ?_, h.returned⟩
  · rw [hlen, hnext, Nat.add_sub_add_right]
    exact h.consecutive.snoc (by show s.rawSeq = _; omega)
  · intro r hr hack
    obtain hr | hr := List.mem_append.mp hr
    · exact h.fresh r hr hack
    · rw [List.mem_singleton.mp hr]
  · intro r hr
    obtain hr | hr := List.mem_append.mp hr
    · exact h.marked r hr
    · rw [List.mem_singleton.mp hr]
      exact .inl rfl
  · rw [hseqs, List.pairwise_append]
    refine ⟨h.sorted, List.pairwise_singleton _ _, fun n hn m hm => ?_⟩
    rw [List.mem_singleton.mp hm]
    exact h.lt_rawSeq n hn
  · intro seq hmem
    rw [hseqs] at hmem
    obtain hmem | hmem := List.mem_append.mp hmem
    · have := h.lt_rawSeq seq hmem
      omega
    · rw [List.mem_singleton.mp hmem]
      omega

/-- The window of a later ack contains no record that has been marked. -/
theorem RawInv.covered (h : RawInv s)
    (hafter : ∀ a ∈ s.acks, a.endSeq < ack.endSeq + 1 - ack.numPkts) :
    ∀ r ∈ s.buf.infoDeq, ack.Covers r.seq → r.status = .unknown := fun r hr hcov =>
  h.fresh r hr fun a ha => Nat.lt_of_lt_of_le (hafter a ha) hcov.1

theorem Classified.earned {acks : List RawAck} {r r' : RawPktSendStatus}
    (h : Classified ack r r') (hr : r.status = .unknown ∨ Earned acks r) :
    r'.status = .unknown ∨ Earned (acks ++ [ack]) r' := by
  have hlast : ack ∈ acks ++ [ack] := List.mem_append_right _ List.mem_cons_self
  cases h with
  | same => exact hr.imp_right fun he => he.mono fun a ha => List.mem_append_left _ ha
  | bad _ hnack => exact .inr (.bad ack rfl hlast hnack)
  | good _ hcov hnack => exact .inr (.good ack rfl hlast hcov hnack)

theorem Classified.unknown {r r' : RawPktSendStatus} (h : Classified ack r r')
    (hw : ack.WellFormed) (hafter : ack.endSeq < r'.seq) : r' = r := by
  cases h with
  | same => rfl
  | bad _ hnack => exact absurd hafter (Nat.not_lt.mpr (hw.nacks_covered _ hnack).2)
  | good _ hcov _ => exact absurd hafter (Nat.not_lt.mpr hcov.2)

/-- A raw ack does not fault and keeps the invariant. -/
theorem RawInv.acked (h : RawInv s) (hw : ack.WellFormed)
    (hafter : ∀ a ∈ s.acks, a.endSeq < ack.endSeq + 1 - ack.numPkts) :
    ∃ s', execRaw s (.ack ack) = .ok s' ∧ RawInv s' := by
  have hlt := h.length_lt
  have hbound := h.rawSeq_lt
  obtain ⟨f, k, hexec, hclass⟩ := TxRawBuf.pushPkts_classified h.consecutive h.length_le
    (by omega) hw (h.covered hafter)
  have hcons := h.consecutive.map (f := f) fun r hr => (hclass r hr).seq_eq
  have hold : ∀ r' ∈ s.buf.infoDeq.map f, ∃ r ∈ s.buf.infoDeq, Classified ack r r' := by
    intro r' hr'
    obtain ⟨r, hr, rfl⟩ := List.mem_map.mp hr'
    exact ⟨r, hr, hclass r hr⟩
  have hmarked : ∀ r' ∈ s.buf.infoDeq.map f,
      r'.status = .unknown ∨ Earned (s.acks ++ [ack]) r' := by
    intro r' hr'
    obtain ⟨r, hr, hrr'⟩ := hold r' hr'
    exact hrr'.earned (h.marked r hr)
  have happend := TxRawBuf.popKnown_append ⟨(s.buf.infoDeq.map f).drop k⟩
  refine ⟨{ s with
    buf := (TxRawBuf.popKnown ⟨(s.buf.infoDeq.map f).drop k⟩).2
    acks := s.acks ++ [ack]
    returned := s.returned ++
      (TxRawBuf.popKnown ⟨(s.buf.infoDeq.map f).drop k⟩).1.map (⟨·, false⟩) }, ?_, ?_⟩
  · simp only [execRaw, TxRawBuf.popPktStatus, hexec]
  generalize hpop : TxRawBuf.popKnown ⟨(s.buf.infoDeq.map f).drop k⟩ = p at happend ⊢
  obtain ⟨out, rest⟩ := p
  have hsuffix : rest.infoDeq <:+ s.buf.infoDeq.map f :=
    (happend ▸ List.suffix_append out rest.infoDeq).trans (List.drop_suffix k _)
  have hout : ∀ r ∈ out, r ∈ s.buf.infoDeq.map f ∧ r.status ≠ .unknown := by
    intro r hr
    refine ⟨List.mem_of_mem_drop (happend ▸ List.mem_append_left _ hr), ?_⟩
    have htake : out = ((s.buf.infoDeq.map f).drop k).takeWhile (·.status ≠ .unknown) :=
      (congrArg Prod.fst hpop).symm
    rw [htake] at hr
    simpa using List.mem_takeWhile_imp hr
  have hle := hsuffix.length_le
  rw [List.length_map] at hle
  -- the records that stay or are returned are some of those that were there
  have hsub : (RawState.seqs { s with
      buf := rest
      acks := s.acks ++ [ack]
      returned := s.returned ++ out.map (⟨·, false⟩) }).Sublist s.seqs := by
    have hseq : (out ++ rest.infoDeq).map RawPktSendStatus.seq =
        (s.buf.infoDeq.map RawPktSendStatus.seq).drop k := by
      rw [happend, List.map_drop, List.map_map]
      exact congrArg _ (List.map_congr_left fun r hr => (hclass r hr).seq_eq)
    simp only [RawState.seqs, List.map_append, List.map_map, List.append_assoc] at hseq ⊢
    refine (List.Sublist.refl _).append ?_
    exact hseq ▸ List.drop_sublist k _
  refine ⟨Nat.lt_of_le_of_lt hle hlt, hbound, hle.trans h.length_le, ?_, fun r hr hack => ?_,
    fun r hr => hmarked r (hsuffix.subset hr), h.sorted.sublist hsub,
    fun seq hmem => h.lt_rawSeq seq (hsub.subset hmem), fun x hx => ?_⟩
  · have hrest := hcons.suffix hsuffix
    rwa [List.length_map, show s.rawSeq - s.buf.infoDeq.length +
      (s.buf.infoDeq.length - rest.infoDeq.length) = s.rawSeq - rest.infoDeq.length by omega]
      at hrest
  · obtain ⟨r0, hr0, hrr⟩ := hold r (hsuffix.subset hr)
    have heq := hrr.unknown hw (hack ack (List.mem_append_right _ List.mem_cons_self))
    rw [heq] at hack ⊢
    exact h.fresh r0 hr0 fun a ha => hack a (List.mem_append_left _ ha)
  · obtain hx | hx := List.mem_append.mp hx
    · exact (h.returned x hx).imp_left fun he => he.mono fun a ha => List.mem_append_left _ ha
    · obtain ⟨r, hr, rfl⟩ := List.mem_map.mp hx
      obtain ⟨hin, hknown⟩ := hout r hr
      exact .inl ((hmarked r hin).resolve_left hknown)

/-- The step lemma: an enabled call does not fault and keeps the invariant. -/
theorem RawInv.step (h : RawInv s) (hen : enabledRaw s input) :
    ∃ s', execRaw s input = .ok s' ∧ RawInv s' := by
  have hmax : kMaxRawBufSize = 4000 := rfl
  cases input with
  | push rate len sendTime =>
    by_cases hfull : s.buf.isFull = true
    · refine ⟨s.flushed.appended rate len sendTime, ?_, ?_⟩
      · simp only [execRaw, TxRawBuf.pushPktStatus, if_pos hfull]
        rfl
      · exact h.flushed.appended (by rw [hmax]; exact Nat.succ_pos _) hen rate len sendTime
    · refine ⟨s.appended rate len sendTime, ?_, ?_⟩
      · simp only [execRaw, TxRawBuf.pushPktStatus, if_neg hfull, List.map_nil, List.append_nil]
        rfl
      · have hroom : ¬kMaxRawBufSize ≤ s.buf.infoDeq.length := by
          simpa [TxRawBuf.isFull] using hfull
        exact h.appended (by omega) hen rate len sendTime
  | ack ack => exact h.acked hen.1 hen.2
  | clear => exact ⟨_, rfl, h.flushed⟩

theorem rawInv_init : RawInv .init :=
  ⟨by decide, by decide, by decide, .nil _ _, fun r hr => (List.not_mem_nil hr).elim,
    fun r hr => (List.not_mem_nil hr).elim, .nil, fun n hn => (List.not_mem_nil hn).elim,
    fun x hx => (List.not_mem_nil hx).elim⟩

/-- The run lemma. -/
theorem rawInv_of_reachable (h : rawMachine.Reachable s) : RawInv s := by
  refine h.invariant (fun s hs => ?_) fun s input s' _ hs hen hexec => ?_
  · rw [show s = .init from hs]
    exact rawInv_init
  · obtain ⟨t, ht, hinv⟩ := hs.step hen
    have heq : Except.ok t = Except.ok s' := ht.symm.trans hexec
    cases heq
    exact hinv

/-- The buffer holds consecutive packets, at most `kMaxRawBufSize`, and lookup finds each; no call
faults; records are returned in the order of their numbers, each with a verdict that an ack has
earned it or as bad by a clear, and the feedback history accepts all of them. -/
theorem rawMachine_sound (h : rawMachine.Reachable s) :
    (∃ lo, s.buf.infoDeq.map RawPktSendStatus.seq = List.range' lo s.buf.infoDeq.length) ∧
    s.buf.infoDeq.length ≤ kMaxRawBufSize ∧
    (∀ seq, seq < 4294967296 →
      (s.buf.getInd seq = -1 ∧ ∀ r ∈ s.buf.infoDeq, r.seq ≠ seq) ∨
      ∃ i : Nat, s.buf.getInd seq = i ∧ ∃ r, s.buf.infoDeq[i]? = some r ∧ r.seq = seq) ∧
    (∀ input, rawMachine.enabled s input → ∃ s', rawMachine.exec s input = .ok s') ∧
    (s.returned.map (·.record.seq)).Pairwise (· < ·) ∧
    (∀ x ∈ s.returned, x.record.status = .good →
      ∃ ack ∈ s.acks, ack.Covers x.record.seq ∧ x.record.seq ∉ ack.nackArr) ∧
    (∀ x ∈ s.returned, x.record.status = .bad →
      x.flushed = true ∨ ∃ ack ∈ s.acks, x.record.seq ∈ ack.nackArr) ∧
    (∀ x ∈ s.returned, x.record.status ≠ .unknown ∧
      ∀ (f : FeedbackRecords) (clock : MonotonicTimer),
        ∃ r, f.insertPacket x.record.seq x.record.status.toPacketStatus x.record.rate
          x.record.sendTime clock = .ok r) := by
  have hs := rawInv_of_reachable h
  have hlt := hs.length_lt
  have hbound := hs.rawSeq_lt
  refine ⟨⟨_, hs.consecutive⟩, hs.length_le, ?_, ?_, ?_, ?_, ?_, ?_⟩
  · intro seq hseq
    refine (TxRawBuf.getInd_mem hs.consecutive hs.length_le (by omega) hseq).imp_right ?_
    exact fun ⟨i, hi, _, r, hr, hrseq⟩ => ⟨i, hi, r, hr, hrseq⟩
  · intro input hen
    obtain ⟨s', hexec, -⟩ := hs.step hen
    exact ⟨s', hexec⟩
  · exact (List.pairwise_append.mp hs.sorted).1
  · intro x hx hgood
    obtain (⟨ack, -, hmem, hcov, hnack⟩ | ⟨ack, hbad, -⟩) | ⟨hbad, -⟩ := hs.returned x hx
    · exact ⟨ack, hmem, hcov, hnack⟩
    · rw [hgood] at hbad
      cases hbad
    · rw [hgood] at hbad
      cases hbad
  · intro x hx hbad
    obtain (⟨ack, hgood, -⟩ | ⟨ack, -, hmem, hnack⟩) | ⟨-, hflushed⟩ := hs.returned x hx
    · rw [hbad] at hgood
      cases hgood
    · exact .inr ⟨ack, hmem, hnack⟩
    · exact .inl hflushed
  · -- a record leaves the buffer with a verdict, which is what `InsertPacket` asserts
    intro x hx
    have hknown : x.record.status ≠ .unknown := fun hunknown => by
      obtain (⟨ack, hst, -⟩ | ⟨ack, hst, -⟩) | ⟨hst, -⟩ := hs.returned x hx <;>
        (rw [hunknown] at hst; cases hst)
    exact ⟨hknown, fun f clock =>
      f.insertPacket_legal _ _ _ clock (RawStatus.toPacketStatus_isLegal hknown)⟩

/-- Three packets, then an ack for the first two that nacks the first one. -/
def ackedTwo : RawState :=
  { buf := ⟨[⟨3, 110, 100, .unknown, ⟨1, 30⟩⟩]⟩
    rawSeq := 4
    acks := [⟨2, 2, [1]⟩]
    returned := [⟨⟨1, 110, 100, .bad, ⟨1, 10⟩⟩, false⟩, ⟨⟨2, 110, 100, .good, ⟨1, 20⟩⟩, false⟩] }

theorem ackedTwo_reachable : rawMachine.Reachable ackedTwo := by
  have hpush : ∀ {s : RawState} (time : MonotonicTimer), rawMachine.Reachable s →
      s.rawSeq < 4294967295 → s.buf.isFull = false →
      rawMachine.Reachable (s.appended 110 100 time) := fun {s} time h hseq hroom => by
    refine .step (i := .push 110 100 time) h hseq ?_
    simp only [rawMachine, execRaw, TxRawBuf.pushPktStatus, hroom, Bool.false_eq_true, if_false,
      List.map_nil, List.append_nil]
    rfl
  have h1 := hpush ⟨1, 10⟩ (.init rfl) (by decide) rfl
  have h2 := hpush ⟨1, 20⟩ h1 (by decide) rfl
  have h3 := hpush ⟨1, 30⟩ h2 (by decide) rfl
  have hw : RawAck.WellFormed ⟨2, 2, [1]⟩ :=
    ⟨by decide, by decide, by decide, List.pairwise_singleton _ _, by decide⟩
  exact .step (i := .ack ⟨2, 2, [1]⟩) h3 ⟨hw, fun a ha => (List.not_mem_nil ha).elim⟩ rfl

theorem rawMachine_sound_ackedTwo :
    ∃ ack ∈ ackedTwo.acks, ack.Covers 2 ∧ 2 ∉ ack.nackArr := by
  obtain ⟨-, -, -, -, -, hgood, -⟩ := rawMachine_sound ackedTwo_reachable
  exact hgood ⟨⟨2, 110, 100, .good, ⟨1, 20⟩⟩, false⟩ (by decide) rfl

end Steps

end WspaceScout
