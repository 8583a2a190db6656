import Mathlib.Tactic
import WspaceScout.DataPath.Handlers
import WspaceScout.Foundation.Sweep

/-!
# Both handlers are sweeps over the slots from the head

`HandlerSweep b b' hi f` says that a handler visited the slots of `[headPt, hi)`, replaced the
slot of index `i` by its image under `f i`, moved `headPt` to the first visited slot left in use
and moved `currPt` to the first visited slot left for retransmission.

## Main results

- `applyDataAck_sweep` — `HandleDataAck` sweeps up to `end_seq` with `ackImage`
- `applyTimeOut_sweep` — `HandleTimeOut` sweeps up to the first new packet with `afterTimeOut`
-/

namespace WspaceScout

open Foundation

/-- A slot that stores nothing. -/
abbrev BookKeeping.IsFree (bk : BookKeeping) : Prop := bk.status = .empty

/-- A slot whose packet is to be sent again. -/
abbrev BookKeeping.IsRetrans (bk : BookKeeping) : Prop := bk.status = .occupiedRetrans

@[simp] theorem BookKeeping.free_status (bk : BookKeeping) : bk.free.status = .empty := rfl

theorem BookKeeping.IsRetrans.not_isFree {bk : BookKeeping} (h : bk.IsRetrans) : ¬bk.IsFree := by
  rw [BookKeeping.IsFree, h]
  decide

/-- What `HandleDataAck` leaves in a slot at or before `end_seq`. -/
def BookKeeping.afterAck (ap : WspaceAP) (now : TIME) (nacked : Bool) (bk : BookKeeping) :
    BookKeeping :=
  match bk.status with
  | .empty => bk
  | .occupiedOutbound =>
    if nacked then
      if bk.numRetrans = 0 then bk.free
      else if now.sub bk.timestamp / 1000 > ap.rtt ∨ bk.numRetrans = ap.numRetrans then
        { bk with status := .occupiedRetrans }
      else bk
    else bk.free
  | _ => if nacked then bk else bk.free

/-- What `HandleTimeOut` leaves in a slot before the first new packet. -/
def BookKeeping.afterTimeOut (ap : WspaceAP) (now : TIME) (bk : BookKeeping) : BookKeeping :=
  match bk.status with
  | .occupiedOutbound =>
    if bk.numRetrans = 0 then bk.free
    else if now.sub bk.timestamp / 1000 > ap.rtt * (12 / 10) then
      { bk with status := .occupiedRetrans }
    else bk
  | _ => bk

/-- The image of slot `i` under an ack: the bulk release frees all slots before `bulk`. -/
def ackImage (ap : WspaceAP) (now : TIME) (ack : DataAck) (bulk i : Nat) (bk : BookKeeping) :
    BookKeeping :=
  if i < bulk then bk.free else bk.afterAck ap now (decide (i + 1 ∈ ack.nackArr))

/-- The effect of a handler on the buffer. -/
structure HandlerSweep (b b' : TxDataBuf) (hi : Nat) (f : Nat → BookKeeping → BookKeeping) :
    Prop where
  slot_lt : ∀ i, b.headPt ≤ i → i < hi → b'.slot i = f i (b.slot i)
  slot_ge : ∀ i, hi ≤ i → i < b.headPt + BUF_SIZE → b'.slot i = b.slot i
  head : IsFirst (fun i => ¬(b'.slot i).IsFree) b.headPt hi b'.headPt
  curr : ∃ r, IsFirst (fun i => (b'.slot i).IsRetrans) b.headPt hi r ∧
    b'.currPt = if r < hi then r else max b.currPt b'.headPt
  tail : b'.tailPt = b.tailPt
  pktBuf : b'.pktBuf = b.pktBuf
  numRetrans : b'.numRetrans = b.numRetrans

/-- The cursors that a finished sweep leaves are those that the handlers write back. -/
theorem HandlerSweep.of_swept {b : TxDataBuf} {hi : Nat} {f : Nat → BookKeeping → BookKeeping}
    {s : Sweep BUF_SIZE BookKeeping}
    (h : Swept BookKeeping.IsFree BookKeeping.IsRetrans b.bookKeepArr f b.headPt b.currPt hi s) :
    HandlerSweep b (moveCursors b s.ring s.low s.mark) hi f := by
  have hlo := h.low.lo_le
  have hhead : (moveCursors b s.ring s.low s.mark).headPt = s.low := by
    simp only [moveCursors]
    split <;> omega
  refine ⟨h.visited, h.ahead, by rw [hhead]; exact h.low, ?_, rfl, rfl, rfl⟩
  cases hfresh : s.fresh with
  | true =>
    obtain ⟨hmark, hnone⟩ := h.unmarked hfresh
    refine ⟨hi, IsFirst.none (hlo.trans h.low.le_hi) hnone, ?_⟩
    rw [if_neg (Nat.lt_irrefl hi), hhead]
    simp only [moveCursors, hmark]
    split <;> omega
  | false =>
    obtain ⟨hlt, hfirst⟩ := h.first hfresh
    have hle := h.low_le_mark hfresh fun _ => BookKeeping.IsRetrans.not_isFree
    refine ⟨s.mark, hfirst, ?_⟩
    rw [if_pos hlt]
    exact if_neg (by omega)

/-! ### The nack cursor -/

/-- `nacks` is the part of `all` that is still to be matched when the loop stands at `i`. -/
structure NackCursor (all : List Nat) (i : Nat) (nacks : List Nat) : Prop where
  sorted : nacks.Pairwise (· < ·)
  mem : ∀ n, n ∈ nacks ↔ n ∈ all ∧ i < n

namespace NackCursor

variable {all nacks : List Nat} {i n : Nat}

theorem nil (h : NackCursor all i []) : i + 1 ∉ all ∧ NackCursor all (i + 1) [] := by
  have hnone : ∀ m, m ∈ all → ¬i < m := fun m hm hlt => by
    have := (h.mem m).mpr ⟨hm, hlt⟩
    simp at this
  refine ⟨fun hm => hnone _ hm (by omega), h.sorted, fun m => ?_⟩
  have := hnone m
  constructor
  · simp
  · rintro ⟨hm, hlt⟩
    exact absurd (by omega) (this hm)

/-- The next nack names this slot: consume it. -/
theorem take (h : NackCursor all i ((i + 1) :: nacks)) :
    i + 1 ∈ all ∧ NackCursor all (i + 1) nacks := by
  obtain ⟨hlt, hsorted⟩ := List.pairwise_cons.mp h.sorted
  refine ⟨((h.mem _).mp (List.mem_cons_self ..)).1, hsorted, fun m => ?_⟩
  have hm := h.mem m
  rw [List.mem_cons] at hm
  constructor
  · intro hin
    exact ⟨(hm.mp (.inr hin)).1, hlt m hin⟩
  · rintro ⟨hall, hgt⟩
    obtain heq | hin := hm.mpr ⟨hall, by omega⟩
    · omega
    · exact hin

/-- The next nack names a later slot: keep it. -/
theorem keep (h : NackCursor all i (n :: nacks)) (hne : n ≠ i + 1) :
    i + 1 < n ∧ i + 1 ∉ all ∧ NackCursor all (i + 1) (n :: nacks) := by
  have hn := ((h.mem n).mp (List.mem_cons_self ..)).2
  obtain ⟨hlt, -⟩ := List.pairwise_cons.mp h.sorted
  have hbig : ∀ m, m ∈ n :: nacks → i + 1 < m := fun m hm => by
    obtain rfl | hin := List.mem_cons.mp hm
    · omega
    · have := hlt m hin
      omega
  refine ⟨by omega, fun hin => ?_, h.sorted, fun m => ⟨fun hm => ?_, fun hm => ?_⟩⟩
  · exact absurd (hbig _ ((h.mem _).mpr ⟨hin, by omega⟩)) (Nat.lt_irrefl _)
  · exact ⟨((h.mem m).mp hm).1, hbig m hm⟩
  · exact (h.mem m).mpr ⟨hm.1, by omega⟩

/-- Every nack still to come names this slot or a later one. -/
theorem skipped (h : NackCursor all i (n :: nacks)) : NackCursor all (n - 1) (n :: nacks) := by
  have hn := ((h.mem n).mp (List.mem_cons_self ..)).2
  obtain ⟨hlt, -⟩ := List.pairwise_cons.mp h.sorted
  refine ⟨h.sorted, fun m => ⟨fun hm => ⟨((h.mem m).mp hm).1, ?_⟩, fun hm => ?_⟩⟩
  · obtain rfl | hin := List.mem_cons.mp hm
    · omega
    · have := hlt m hin
      omega
  · exact (h.mem m).mpr ⟨hm.1, by omega⟩

end NackCursor

/-- Stepping over stale nacks leaves exactly those behind the head. -/
theorem skipStale_cursor {all : List Nat} {headPt : Nat} (hsorted : all.Pairwise (· < ·))
    (hrange : ∀ n ∈ all, 1 ≤ n ∧ n < 4294967296) :
    NackCursor all headPt (skipStale headPt all) := by
  induction all with
  | nil => exact ⟨List.Pairwise.nil, fun n => by simp [skipStale]⟩
  | cons n all ih =>
    obtain ⟨hlt, hrest⟩ := List.pairwise_cons.mp hsorted
    have hn := hrange n (List.mem_cons_self ..)
    have hsub : uint32Sub n 1 = n - 1 := uint32Sub_of_le hn.1 hn.2
    have ih := ih hrest fun m hm => hrange m (List.mem_cons_of_mem _ hm)
    by_cases hstale : n - 1 < headPt
    · have heq : skipStale headPt (n :: all) = skipStale headPt all := by
        simp [skipStale, hsub, hstale]
      rw [heq]
      refine ⟨ih.sorted, fun m => ?_⟩
      rw [ih.mem m, List.mem_cons]
      constructor
      · exact fun hm => ⟨.inr hm.1, hm.2⟩
      · rintro ⟨rfl | hin, hgt⟩
        · omega
        · exact ⟨hin, hgt⟩
    · have heq : skipStale headPt (n :: all) = n :: all := by
        simp [skipStale, hsub, hstale]
      rw [heq]
      refine ⟨hsorted, fun m => ⟨fun hm => ⟨hm, ?_⟩, fun hm => hm.1⟩⟩
      obtain rfl | hin := List.mem_cons.mp hm
      · omega
      · have := hlt m hin
        omega

/-! ### The ack handler -/

section DataAck

variable {ap : WspaceAP} {now : TIME} {ack : DataAck} {b : TxDataBuf} {bulk : Nat}

/-- The part of the loop state that a sweep describes. -/
def AckLoop.sweep (s : AckLoop) : Sweep BUF_SIZE BookKeeping :=
  ⟨s.bookKeepArr, s.headPtFinal, s.currPtFinal, s.isFirstUpdate⟩

/-- One visit of a sweep over slots. -/
abbrev visitSlot (s : Sweep BUF_SIZE BookKeeping) (i : Nat) (bk : BookKeeping) :
    Sweep BUF_SIZE BookKeeping :=
  s.visit BookKeeping.IsFree BookKeeping.IsRetrans i bk

theorem AckLoop.sweep_release {s : AckLoop} {i : Nat} (hi : i + 1 < 4294967296) :
    (s.release i).sweep = visitSlot s.sweep i (s.bookKeepArr.get i).free := by
  by_cases hhead : s.headPtFinal = i
  · simp [release, sweep, visitSlot, Sweep.visit, hhead, uint32_of_lt hi]
  · simp [release, sweep, visitSlot, Sweep.visit, hhead, BookKeeping.IsRetrans]

/-- A slot that is neither free nor marked and keeps its content does not change the sweep. -/
theorem visitSlot_same {s : Sweep BUF_SIZE BookKeeping} {i : Nat}
    (hfree : ¬(s.ring.get i).IsFree) (hretrans : ¬(s.ring.get i).IsRetrans) :
    visitSlot s i (s.ring.get i) = s := by
  cases s
  simp [visitSlot, Sweep.visit, hfree, hretrans]

/-- A free slot only moves the low cursor. -/
theorem AckLoop.sweep_skip {s : AckLoop} {i : Nat} (hi : i + 1 < 4294967296)
    (hfree : (s.bookKeepArr.get i).IsFree) (nacks : List Nat) :
    ({ s with
      nacks := nacks
      headPtFinal := if s.headPtFinal = i then uint32 (s.headPtFinal + 1) else s.headPtFinal } :
      AckLoop).sweep = visitSlot s.sweep i (s.bookKeepArr.get i) := by
  have hretrans : ¬(s.bookKeepArr.get i).IsRetrans := fun h => h.not_isFree hfree
  by_cases hhead : s.headPtFinal = i
  · simp [sweep, visitSlot, Sweep.visit, hhead, hfree, hretrans, uint32_of_lt hi]
  · simp [sweep, visitSlot, Sweep.visit, hhead, hretrans]

/-- A slot left for retransmission is where sending resumes, if it is the first one. -/
theorem AckLoop.sweep_resume {s : AckLoop} {i : Nat} {bk : BookKeeping} (hbk : bk.IsRetrans)
    (nacks : List Nat) :
    ({ ({ s with bookKeepArr := s.bookKeepArr.set i bk } : AckLoop).resumeHere i with
      nacks := nacks } : AckLoop).sweep = visitSlot s.sweep i bk := by
  have hst : bk.status = .occupiedRetrans := hbk
  cases hfirst : s.isFirstUpdate <;>
    simp [resumeHere, sweep, visitSlot, Sweep.visit, hfirst, hst, BookKeeping.IsFree,
      BookKeeping.IsRetrans]

/-- One pass of the loop is one visit of the sweep and one step of the nack cursor. -/
structure AckLoop.Visits (ap : WspaceAP) (now : TIME) (ack : DataAck) (s : AckLoop) (i : Nat) :
    Prop where
  sweep : (s.visit ap now i).sweep = visitSlot s.sweep i
    ((s.bookKeepArr.get i).afterAck ap now (decide (i + 1 ∈ ack.nackArr)))
  nacks : NackCursor ack.nackArr (i + 1) (s.visit ap now i).nacks

section Visit

variable {s : AckLoop} {i : Nat}

/-- A used slot that no nack names is released, and the nack cursor stays where it is. -/
theorem AckLoop.visits_release (hvisit : s.visit ap now i = s.release i)
    (hused : ¬(s.bookKeepArr.get i).IsFree) (hi : i + 1 < 4294967296) (hnot : i + 1 ∉ ack.nackArr)
    (hnext : NackCursor ack.nackArr (i + 1) s.nacks) : s.Visits ap now ack i := by
  have hfree : (s.bookKeepArr.get i).afterAck ap now (decide (i + 1 ∈ ack.nackArr)) =
      (s.bookKeepArr.get i).free := by
    cases hst : (s.bookKeepArr.get i).status with
    | empty => exact absurd hst hused
    | occupiedOutbound | occupiedNew | occupiedRetrans =>
      simp [BookKeeping.afterAck, hst, hnot]
  constructor
  · rw [hvisit, hfree]
    exact sweep_release hi
  · rw [hvisit]
    exact hnext

/-- A packet in flight is confirmed, given up, marked, or left in flight. -/
theorem AckLoop.visits_outbound (hcur : NackCursor ack.nackArr i s.nacks)
    (hi : i + 1 < 4294967296) (hst : (s.bookKeepArr.get i).status = .occupiedOutbound) :
    s.Visits ap now ack i := by
  have hi' : uint32 (i + 1) = i + 1 := uint32_of_lt hi
  have hused : ¬(s.bookKeepArr.get i).IsFree := by simp [BookKeeping.IsFree, hst]
  cases hn : s.nacks with
  | nil =>
    -- no nack is left, so that all other slots of the ack are confirmed
    obtain ⟨hnot, hnext⟩ := (hn ▸ hcur).nil
    have hvisit : s.visit ap now i = s.release i := by simp only [visit, hst, hn]
    exact visits_release hvisit hused hi hnot (hn ▸ hnext)
  | cons n rest =>
    by_cases heq : n = i + 1
    · subst heq
      obtain ⟨hin, hnext⟩ := (hn ▸ hcur).take
      by_cases hzero : (s.bookKeepArr.get i).numRetrans = 0
      · -- no retransmission is left
        have hvisit : s.visit ap now i = { s.release i with nacks := rest } := by
          simp only [visit, hst, hn, hi', hzero, if_true]
        have hrelease : ({ s.release i with nacks := rest } : AckLoop).sweep =
            (s.release i).sweep := rfl
        constructor
        · rw [hvisit, hrelease, sweep_release hi]
          simp [BookKeeping.afterAck, hst, hin, hzero]
        · rw [hvisit]
          exact hnext
      · by_cases hlost : now.sub (s.bookKeepArr.get i).timestamp / 1000 > ap.rtt ∨
            (s.bookKeepArr.get i).numRetrans = ap.numRetrans
        · have hvisit : s.visit ap now i = { ({ s with
              bookKeepArr := s.bookKeepArr.set i
                { s.bookKeepArr.get i with status := .occupiedRetrans } } :
              AckLoop).resumeHere i with nacks := rest } := by
            simp only [visit, hst, hn, hi', hzero, hlost, if_true, if_false]
          constructor
          · rw [hvisit, sweep_resume rfl]
            simp only [BookKeeping.afterAck, hst, hin, decide_true, if_true, hzero, if_false, hlost]
          · rw [hvisit]
            exact hnext
        · -- the nack may be older than the last transmission
          have hvisit : s.visit ap now i = { s with nacks := rest } := by
            simp only [visit, hst, hn, hi', hzero, hlost, if_true, if_false]
          have hkeep : (s.bookKeepArr.get i).afterAck ap now (decide (i + 1 ∈ ack.nackArr)) =
              s.bookKeepArr.get i := by
            simp only [BookKeeping.afterAck, hst, hin, decide_true, if_true, hzero, if_false,
              hlost]
          constructor
          · rw [hvisit, hkeep]
            exact (visitSlot_same (s := s.sweep) hused
              (by simp [sweep, BookKeeping.IsRetrans, hst])).symm
          · rw [hvisit]
            exact hnext
    · obtain ⟨-, hnot, hnext⟩ := (hn ▸ hcur).keep heq
      have hvisit : s.visit ap now i = s.release i := by
        simp only [visit, hst, hn, hi', if_neg (Ne.symm heq)]
      exact visits_release hvisit hused hi hnot (hn ▸ hnext)

/-- A free slot stays free; a nack of it is passed over. -/
theorem AckLoop.visits_empty (hcur : NackCursor ack.nackArr i s.nacks) (hi : i + 1 < 4294967296)
    (hst : (s.bookKeepArr.get i).status = .empty)
    (hnear : ∀ n ∈ s.nacks, n < 4294967296 ∧ n - 1 < i + BUF_SIZE) : s.Visits ap now ack i := by
  have hkeep : (s.bookKeepArr.get i).afterAck ap now (decide (i + 1 ∈ ack.nackArr)) =
      s.bookKeepArr.get i := by
    simp only [BookKeeping.afterAck, hst]
  -- it is left to say which nacks remain
  suffices h : ∃ nacks, NackCursor ack.nackArr (i + 1) nacks ∧
      s.visit ap now i = { s with
        nacks := nacks
        headPtFinal := if s.headPtFinal = i then uint32 (s.headPtFinal + 1)
          else s.headPtFinal } by
    obtain ⟨nacks, hnext, hvisit⟩ := h
    constructor
    · rw [hvisit, hkeep]
      exact sweep_skip hi hst nacks
    · rw [hvisit]
      exact hnext
  cases hn : s.nacks with
  | nil =>
    obtain ⟨-, hnext⟩ := (hn ▸ hcur).nil
    refine ⟨[], hnext, ?_⟩
    simp only [visit, hst, hn]
    split <;> simp [← hn]
  | cons n rest =>
    have hlt := ((hn ▸ hcur).mem n).mp (List.mem_cons_self ..)
    obtain ⟨hn32, hnwin⟩ := hnear n (hn ▸ List.mem_cons_self ..)
    have hsub : uint32Sub n 1 = n - 1 := uint32Sub_of_le (by omega) hn32
    by_cases heq : n = i + 1
    · subst heq
      obtain ⟨-, hnext⟩ := (hn ▸ hcur).take
      refine ⟨rest, hnext, ?_⟩
      simp only [visit, hst, hn, hsub, Nat.add_sub_cancel, if_true]
      split <;> rfl
    · obtain ⟨hgt, -, hnext⟩ := (hn ▸ hcur).keep heq
      -- one window holds no two indices of the same slot
      have hmod : ¬(n - 1) % BUF_SIZE = i % BUF_SIZE := by
        intro hm
        have hsame : n - 1 = i :=
          CellRing.eq_of_mod_eq ⟨by omega, hnwin⟩ ⟨Nat.le_refl i, by omega⟩ hm
        omega
      refine ⟨n :: rest, hnext, ?_⟩
      simp only [visit, hst, hn, hsub, hmod, if_false]
      split <;> simp [← hn]

/-- A packet that is to be sent again is confirmed or stays as it is. -/
theorem AckLoop.visits_retrans (hcur : NackCursor ack.nackArr i s.nacks) (hi : i + 1 < 4294967296)
    (hst : (s.bookKeepArr.get i).status = .occupiedRetrans)
    (hseq : (s.bookKeepArr.get i).seqNum = i + 1) : s.Visits ap now ack i := by
  have hused : ¬(s.bookKeepArr.get i).IsFree := by simp [BookKeeping.IsFree, hst]
  cases hn : s.nacks with
  | nil =>
    obtain ⟨hnot, hnext⟩ := (hn ▸ hcur).nil
    have hvisit : s.visit ap now i = s.release i := by simp only [visit, hst, hn]
    exact visits_release hvisit hused hi hnot (hn ▸ hnext)
  | cons n rest =>
    by_cases heq : n = i + 1
    · subst heq
      obtain ⟨hin, hnext⟩ := (hn ▸ hcur).take
      have hvisit : s.visit ap now i = { ({ s with
          bookKeepArr := s.bookKeepArr.set i (s.bookKeepArr.get i) } :
          AckLoop).resumeHere i with nacks := rest } := by
        simp only [visit, hst, hn, hseq, if_true, CellRing.set_get_self, resumeHere]
        split <;> rfl
      constructor
      · rw [hvisit, sweep_resume hst]
        simp [BookKeeping.afterAck, hst, hin]
      · rw [hvisit]
        exact hnext
    · obtain ⟨-, hnot, hnext⟩ := (hn ▸ hcur).keep heq
      have hvisit : s.visit ap now i = s.release i := by
        simp only [visit, hst, hn, hseq, heq, if_false]
      exact visits_release hvisit hused hi hnot (hn ▸ hnext)

/-- The step lemma of the loop. -/
theorem AckLoop.visits (ap : WspaceAP) (now : TIME) (hcur : NackCursor ack.nackArr i s.nacks)
    (hi : i + 1 < 4294967296) (hnew : (s.bookKeepArr.get i).status ≠ .occupiedNew)
    (hseq : (s.bookKeepArr.get i).IsRetrans → (s.bookKeepArr.get i).seqNum = i + 1)
    (hnear : ∀ n ∈ s.nacks, n < 4294967296 ∧ n - 1 < i + BUF_SIZE) : s.Visits ap now ack i := by
  cases hst : (s.bookKeepArr.get i).status with
  | empty => exact visits_empty hcur hi hst hnear
  | occupiedNew => exact absurd hst hnew
  | occupiedOutbound => exact visits_outbound hcur hi hst
  | occupiedRetrans => exact visits_retrans hcur hi hst (hseq hst)

end Visit

/-- What `HandleDataAck` relies on when it walks the slots up to `end_seq`. -/
structure AckFits (b : TxDataBuf) (ack : DataAck) : Prop where
  sorted : ack.nackArr.Pairwise (· < ·)
  range : ∀ n ∈ ack.nackArr, 1 ≤ n ∧ n ≤ ack.endSeq
  head_lt : b.headPt < ack.endSeq
  end_le : ack.endSeq ≤ b.headPt + BUF_SIZE
  end_lt : ack.endSeq < 4294967296
  not_new : ∀ i, b.headPt ≤ i → i < ack.endSeq → (b.slot i).status ≠ .occupiedNew
  seq : ∀ i, b.headPt ≤ i → i < ack.endSeq → (b.slot i).IsRetrans → (b.slot i).seqNum = i + 1

/-- The bulk release stops at or before `end_seq`, passes no nacked slot, and leaves the nack
cursor at the first slot it has not released. -/
theorem AckFits.bulkHead_spec (h : AckFits b ack) :
    b.headPt ≤ bulkHead b.headPt ack ∧ bulkHead b.headPt ack ≤ ack.endSeq ∧
      (∀ i, b.headPt ≤ i → i < bulkHead b.headPt ack → i + 1 ∉ ack.nackArr) ∧
      (ack.nackArr ≠ [] →
        NackCursor ack.nackArr (bulkHead b.headPt ack) (skipStale b.headPt ack.nackArr)) := by
  have hhead := h.head_lt
  have hend := h.end_lt
  have hcur : NackCursor ack.nackArr b.headPt (skipStale b.headPt ack.nackArr) :=
    skipStale_cursor h.sorted fun n hn => ⟨(h.range n hn).1, by have := (h.range n hn).2; omega⟩
  by_cases hnil : ack.nackArr = []
  · have hbulk : bulkHead b.headPt ack = ack.endSeq := if_pos hnil
    rw [hbulk]
    exact ⟨by omega, Nat.le_refl _, fun i _ _ => by simp [hnil], fun hne => absurd hnil hne⟩
  · cases hs : skipStale b.headPt ack.nackArr with
    | nil =>
      have hbulk : bulkHead b.headPt ack = b.headPt := by simp [bulkHead, hnil, hs]
      rw [hbulk]
      exact ⟨Nat.le_refl _, by omega, fun i h1 h2 => absurd h1 (by omega), fun _ => hs ▸ hcur⟩
    | cons n rest =>
      have hn := ((hs ▸ hcur).mem n).mp (List.mem_cons_self ..)
      have hrange := h.range n hn.1
      have hsub : uint32Sub n 1 = n - 1 := uint32Sub_of_le hrange.1 (by omega)
      have hbulk : bulkHead b.headPt ack = n - 1 := by
        simp only [bulkHead, hnil, if_false, hs, hsub]
        split <;> omega
      have hskip := (hs ▸ hcur).skipped
      rw [hbulk]
      refine ⟨by omega, by omega, fun i h1 h2 hin => ?_, fun _ => hskip⟩
      -- a nack at or behind the head would have been the next one
      have hmem := ((hs ▸ hcur).mem (i + 1)).mpr ⟨hin, by omega⟩
      have := ((hskip.mem (i + 1)).mp hmem).2
      omega

theorem bulkRelease_swept {f : Nat → BookKeeping → BookKeeping}
    (hf : ∀ i bk, i < bulk → f i bk = bk.free) (hlo : b.headPt ≤ bulk)
    (hhi : bulk ≤ b.headPt + BUF_SIZE) :
    Swept BookKeeping.IsFree BookKeeping.IsRetrans b.bookKeepArr f b.headPt b.currPt bulk
      ⟨bulkRelease b.bookKeepArr b.headPt bulk, bulk, b.currPt, true⟩ := by
  have hrun := foldl_range'_invariant
    (I := fun i arr => Swept BookKeeping.IsFree BookKeeping.IsRetrans b.bookKeepArr f b.headPt
      b.currPt i ⟨arr, i, b.currPt, true⟩)
    (fun arr i => arr.set i (arr.get i).free) b.headPt (bulk - b.headPt) b.bookKeepArr
    ⟨fun j h1 h2 => absurd h1 (by omega), fun _ _ _ => rfl, IsFirst.refl _ _,
      fun _ => ⟨rfl, fun j h1 h2 => absurd h1 (by omega)⟩, fun hc => absurd hc (by simp)⟩
    (fun i arr h1 h2 hs => ?_)
  · rwa [show b.headPt + (bulk - b.headPt) = bulk by omega] at hrun
  · have hold : arr.get i = b.bookKeepArr.get i := hs.ahead i (Nat.le_refl i) (by omega)
    have hvisit := hs.visit h1 (by omega)
    rw [hf i _ (by omega)] at hvisit
    rw [hold]
    simpa [Sweep.visit, BookKeeping.IsFree, BookKeeping.IsRetrans] using hvisit

/-- The rule of the loop of `HandleDataAck`: `I i` holds when it stands at slot `i`. -/
theorem applyDataAck_loop (ap : WspaceAP) (now : TIME) (I : Nat → AckLoop → Prop)
    (hpos : 0 < ack.endSeq) (hend : ack.endSeq < 4294967296)
    (hstart : I (bulkHead b.headPt ack)
      ⟨bulkRelease b.bookKeepArr b.headPt (bulkHead b.headPt ack), bulkHead b.headPt ack,
        b.currPt, true, skipStale b.headPt ack.nackArr⟩)
    (hstep : ∀ i l, bulkHead b.headPt ack ≤ i → i < ack.endSeq → I i l →
      I (i + 1) (l.visit ap now i)) :
    ∃ l, I (max (bulkHead b.headPt ack) ack.endSeq) l ∧
      applyDataAck ap now b ack = moveCursors b l.bookKeepArr l.headPtFinal l.currPtFinal := by
  by_cases hnil : ack.nackArr = []
  · have hbulk : bulkHead b.headPt ack = ack.endSeq := if_pos hnil
    have hmax : max (bulkHead b.headPt ack) ack.endSeq = bulkHead b.headPt ack := by
      rw [hbulk, Nat.max_self]
    rw [hmax]
    exact ⟨_, hstart, by simp only [applyDataAck, hnil, if_true]⟩
  · have hsub : uint32Sub ack.endSeq 1 + 1 = ack.endSeq := by
      rw [uint32Sub_of_le hpos hend]
      omega
    have hrun := foldl_range'_invariant (AckLoop.visit ap now) (bulkHead b.headPt ack)
      (ack.endSeq - bulkHead b.headPt ack) _ hstart
      fun i l h1 h2 hl => hstep i l h1 (by omega) hl
    rw [show bulkHead b.headPt ack + (ack.endSeq - bulkHead b.headPt ack) =
      max (bulkHead b.headPt ack) ack.endSeq by omega] at hrun
    exact ⟨_, hrun, by simp only [applyDataAck, hnil, if_false, hsub]⟩

/-- `HandleDataAck` sweeps the slots up to `end_seq`. -/
theorem applyDataAck_sweep (h : AckFits b ack) :
    HandlerSweep b (applyDataAck ap now b ack) ack.endSeq
      (ackImage ap now ack (bulkHead b.headPt ack)) := by
  obtain ⟨hlo, hhi, -, hcur⟩ := h.bulkHead_spec
  have hhead := h.head_lt
  have hend := h.end_lt
  have hwin := h.end_le
  -- the loop keeps the sweep and the nack cursor together
  have hloop := applyDataAck_loop ap now
    (fun i l => Swept BookKeeping.IsFree BookKeeping.IsRetrans b.bookKeepArr
      (ackImage ap now ack (bulkHead b.headPt ack)) b.headPt b.currPt i l.sweep ∧
      (ack.nackArr ≠ [] → NackCursor ack.nackArr i l.nacks))
    (by omega) hend ⟨bulkRelease_swept (fun i bk hi => if_pos hi) hlo (by omega), hcur⟩
    (fun i l h1 h2 hl => ?_)
  · obtain ⟨l, ⟨hswept, -⟩, happ⟩ := hloop
    rw [show max (bulkHead b.headPt ack) ack.endSeq = ack.endSeq by omega] at hswept
    rw [happ]
    exact HandlerSweep.of_swept hswept
  · obtain ⟨hswept, hnacks⟩ := hl
    have hnacks := hnacks fun hnil => by
      -- without nacks the loop is empty
      have hbulk : bulkHead b.headPt ack = ack.endSeq := if_pos hnil
      omega
    have hold : l.bookKeepArr.get i = b.slot i := hswept.ahead i (Nat.le_refl i) (by omega)
    have hstep := AckLoop.visits ap now hnacks (by omega)
      (by rw [hold]; exact h.not_new i (by omega) (by omega))
      (by rw [hold]; exact h.seq i (by omega) (by omega))
      (fun n hn => by
        have := h.range n ((hnacks.mem n).mp hn).1
        constructor <;> omega)
    refine ⟨?_, fun _ => hstep.nacks⟩
    rw [hstep.sweep, hold]
    have hvisit := hswept.visit (by omega) (by omega)
    rwa [show ackImage ap now ack (bulkHead b.headPt ack) i (b.bookKeepArr.get i) =
      (b.slot i).afterAck ap now (decide (i + 1 ∈ ack.nackArr)) from if_neg (by omega)] at hvisit

end DataAck

/-! ### The timeout handler -/

section TimeOut

variable {ap : WspaceAP} {now : TIME} {b : TxDataBuf} {hi : Nat}

/-- What `HandleTimeOut` relies on: `hi` is the index of the first new packet, or the tail. -/
structure TimeOutFits (b : TxDataBuf) (hi : Nat) : Prop where
  head_le : b.headPt ≤ hi
  le_tail : hi ≤ b.tailPt
  tail_le : b.tailPt ≤ b.headPt + BUF_SIZE
  tail_lt : b.tailPt < 4294967296
  not_new : ∀ i, b.headPt ≤ i → i < hi → (b.slot i).status ≠ .occupiedNew
  seq : ∀ i, b.headPt ≤ i → i < hi → ¬(b.slot i).IsFree → (b.slot i).seqNum = i + 1
  stop : hi < b.tailPt → (b.slot hi).status = .occupiedNew

/-- The part of the loop state that a sweep describes. -/
def TimeOutLoop.sweep (s : TimeOutLoop) : Sweep BUF_SIZE BookKeeping :=
  ⟨s.bookKeepArr, s.headPtFinal, s.currPtFinal, s.isFirstUpdate⟩

/-- Leaving `bk` for retransmission in slot `i` is one visit of the sweep. -/
theorem TimeOutLoop.resumeAt_sweep (s : TimeOutLoop) (i : Nat) {bk : BookKeeping}
    (hbk : bk.IsRetrans) :
    ∃ t, s.resumeAt (i + 1) = .ok t ∧ t.bookKeepArr = s.bookKeepArr ∧
      ({ t with bookKeepArr := t.bookKeepArr.set i bk } : TimeOutLoop).sweep =
        visitSlot s.sweep i bk := by
  have hst : bk.status = .occupiedRetrans := hbk
  cases hfirst : s.isFirstUpdate
  · refine ⟨s, by simp [resumeAt, hfirst], rfl, ?_⟩
    simp [sweep, visitSlot, Sweep.visit, hfirst, hst, BookKeeping.IsFree]
  · refine ⟨{ s with currPtFinal := i, isFirstUpdate := false }, by simp [resumeAt, hfirst], rfl,
      ?_⟩
    simp [sweep, visitSlot, Sweep.visit, hfirst, hst, BookKeeping.IsFree, BookKeeping.IsRetrans]

/-- One pass of the loop over a slot that is not new is one visit of the sweep. -/
theorem TimeOutLoop.visit_sweep (ap : WspaceAP) (now : TIME) {s : TimeOutLoop} {i : Nat}
    (hi : i + 1 < 4294967296)
    (hnew : (s.bookKeepArr.get i).status ≠ .occupiedNew)
    (hseq : ¬(s.bookKeepArr.get i).IsFree → (s.bookKeepArr.get i).seqNum = i + 1) :
    ∃ t, s.visit ap now i = .ok (t, false) ∧
      t.sweep = visitSlot s.sweep i ((s.bookKeepArr.get i).afterTimeOut ap now) := by
  cases hst : (s.bookKeepArr.get i).status with
  | occupiedNew => exact absurd hst hnew
  | empty =>
    refine ⟨_, by simp only [visit, hst]; rfl, ?_⟩
    by_cases hhead : s.headPtFinal = i
    · simp [sweep, visitSlot, Sweep.visit, BookKeeping.afterTimeOut, hst, hhead,
        BookKeeping.IsFree, BookKeeping.IsRetrans, uint32_of_lt hi]
    · simp [sweep, visitSlot, Sweep.visit, BookKeeping.afterTimeOut, hst, hhead,
        BookKeeping.IsRetrans]
  | occupiedRetrans =>
    have hnum := hseq (by simp [BookKeeping.IsFree, hst])
    obtain ⟨t, hres, harr, hsweep⟩ := s.resumeAt_sweep i hst
    refine ⟨t, by simp only [visit, hst, hnum, hres]; rfl, ?_⟩
    have hkeep : (s.bookKeepArr.get i).afterTimeOut ap now = s.bookKeepArr.get i := by
      simp only [BookKeeping.afterTimeOut, hst]
    rw [hkeep, ← hsweep, harr, CellRing.set_get_self, ← harr]
  | occupiedOutbound =>
    have hnum := hseq (by simp [BookKeeping.IsFree, hst])
    by_cases hzero : (s.bookKeepArr.get i).numRetrans = 0
    · refine ⟨_, by simp only [visit, hst, hzero, if_true]; rfl, ?_⟩
      have hsub : uint32Sub (i + 1) 1 = i := uint32Sub_of_le (by omega) hi
      by_cases hhead : s.headPtFinal = i
      · simp [sweep, visitSlot, Sweep.visit, BookKeeping.afterTimeOut, hst, hzero, hhead, hnum,
          hsub, BookKeeping.IsFree, BookKeeping.IsRetrans, uint32_of_lt hi]
      · simp [sweep, visitSlot, Sweep.visit, BookKeeping.afterTimeOut, hst, hzero, hhead, hnum,
          hsub, BookKeeping.IsRetrans]
    · by_cases hlate : now.sub (s.bookKeepArr.get i).timestamp / 1000 > ap.rtt * (12 / 10)
      · have hretrans : BookKeeping.IsRetrans
            { s.bookKeepArr.get i with status := .occupiedRetrans } := rfl
        obtain ⟨t, hres, harr, hsweep⟩ := resumeAt_sweep { s with incrementTimeOut := true } i
          hretrans
        rw [← hnum] at hres
        refine ⟨_, by simp only [visit, hst, hzero, hlate, if_true, if_false, hres]; rfl, ?_⟩
        have hmark : (s.bookKeepArr.get i).afterTimeOut ap now =
            { s.bookKeepArr.get i with status := .occupiedRetrans } := by
          simp only [BookKeeping.afterTimeOut, hst, hzero, hlate, if_true, if_false]
        rw [hmark]
        exact hsweep
      · refine ⟨s, by simp only [visit, hst, hzero, hlate, if_false], ?_⟩
        have hkeep : (s.bookKeepArr.get i).afterTimeOut ap now = s.bookKeepArr.get i := by
          simp only [BookKeeping.afterTimeOut, hst, hzero, hlate, if_false]
        rw [hkeep]
        exact (visitSlot_same (s := s.sweep) (by simp [sweep, BookKeeping.IsFree, hst])
          (by simp [sweep, BookKeeping.IsRetrans, hst])).symm

/-- `HandleTimeOut` sweeps the slots up to the first new packet, and its assertions hold. -/
theorem applyTimeOut_sweep (ap : WspaceAP) (now : TIME) (h : TimeOutFits b hi) :
    ∃ inc b', applyTimeOut ap now b = .ok (inc, b') ∧
      HandlerSweep b b' hi (fun _ bk => bk.afterTimeOut ap now) := by
  have hhead := h.head_le
  have htail := h.le_tail
  have hwin := h.tail_le
  have hlt := h.tail_lt
  have hloop := countUp_rule
    (I := fun i (s : TimeOutLoop) => i ≤ hi ∧ Swept BookKeeping.IsFree BookKeeping.IsRetrans
      b.bookKeepArr (fun _ bk => bk.afterTimeOut ap now) b.headPt b.currPt i s.sweep)
    (Q := fun s => Swept BookKeeping.IsFree BookKeeping.IsRetrans
      b.bookKeepArr (fun _ bk => bk.afterTimeOut ap now) b.headPt b.currPt hi s.sweep)
    (TimeOutLoop.visit ap now) b.headPt (b.tailPt - b.headPt)
    ⟨b.bookKeepArr, b.headPt, b.currPt, true, false⟩
    ⟨hhead, fun j h1 h2 => absurd h1 (by omega), fun _ _ _ => rfl, IsFirst.refl _ _,
      fun _ => ⟨rfl, fun j h1 h2 => absurd h1 (by omega)⟩,
      fun hc => absurd hc (by simp [TimeOutLoop.sweep])⟩
    (fun i s h1 h2 hs => ?_)
    (fun s hs => by
      have heq : b.headPt + (b.tailPt - b.headPt) = hi := by have := hs.1; omega
      exact heq ▸ hs.2)
  · obtain ⟨s, hrun, hswept⟩ := hloop
    exact ⟨s.incrementTimeOut, _, by simp only [applyTimeOut, hrun]; rfl,
      HandlerSweep.of_swept hswept⟩
  · obtain ⟨hle, hswept⟩ := hs
    have hold : s.bookKeepArr.get i = b.slot i := hswept.ahead i (Nat.le_refl i) (by omega)
    obtain hbefore | heq := Nat.lt_or_eq_of_le hle
    · obtain ⟨t, hvisit, hsweep⟩ := TimeOutLoop.visit_sweep ap now (s := s) (i := i)
        (by omega) (by rw [hold]; exact h.not_new i h1 hbefore)
        (by rw [hold]; exact h.seq i h1 hbefore)
      refine ⟨t, false, hvisit, fun _ => ⟨by omega, ?_⟩, fun hc => absurd hc (by simp)⟩
      rw [hsweep, hold]
      exact hswept.visit h1 (by omega)
    · -- the first new packet ends the loop
      subst heq
      have hnew := h.stop (by omega)
      refine ⟨s, true, ?_, fun hc => absurd hc (by simp), fun _ => hswept⟩
      simp only [TimeOutLoop.visit, hold, hnew]

end TimeOut

end WspaceScout
