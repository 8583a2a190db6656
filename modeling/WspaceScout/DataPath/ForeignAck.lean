import Mathlib.Data.List.TakeWhile
import WspaceScout.DataPath.Window

/-!
# Acks that name packets which were not sent

`HandleDataAck` refuses an ack that ends before the head of the buffer. It compares neither the end
of an ack nor its nacks with what has been handed out, so an ack of an earlier session releases
packets that are still waiting for their first transmission.

## Main definitions

- `SentOnly` — what an ack must not do
- `DataAck.NamesSent` — the ack names packets that were handed out
- `AckLoop.Visited` — everything one pass of the loop can do, whatever the ack says
- `anyAckMachine` — the buffer with acks that may say anything; `SafeInput` restricts its runs

## Main results

- `AckLoop.visit_visited` — the inversion lemma of the loop
- `windowInv_of_safeInputs` — runs whose acks name packets which were sent keep the invariant of the
  window, whatever their other nacks are
- `handleDataAck_sentOnly` — such acks are safe in every run of them; an ack beyond is not, unless it
  nacks every waiting packet that it covers
-/

namespace WspaceScout

open Foundation

/-- The cursors stay in order and no packet that was never handed out is dropped. -/
structure SentOnly (c c' : ClientContext) : Prop where
  head_le_curr : c'.dataPktBuf.headPt ≤ c'.dataPktBuf.currPt
  curr_le_tail : c'.dataPktBuf.currPt ≤ c'.dataPktBuf.tailPt
  tail_le : c'.dataPktBuf.tailPt ≤ c'.dataPktBuf.headPt + BUF_SIZE
  kept : ∀ i, (c.dataPktBuf.slot i).status = .occupiedNew →
    (c'.dataPktBuf.slot i).status ≠ .empty

/-- The first nack of a slot that is not before the head. -/
def DataAck.firstFresh (ack : DataAck) (headPt : Nat) : Option Nat :=
  ack.nackArr.find? fun nack => headPt ≤ uint32Sub nack 1

/-- The first fresh nack names a packet that was handed out, or the one after these. -/
def DataAck.NackSent (ack : DataAck) (headPt highest : Nat) : Prop :=
  ∀ nack, ack.firstFresh headPt = some nack → uint32Sub nack 1 ≤ highest

/-- The ack ends at a packet that was handed out, and so does what its first fresh nack
confirms. -/
def DataAck.NamesSent (ack : DataAck) (headPt highest : Nat) : Prop :=
  ack.endSeq ≤ highest ∧ ack.NackSent headPt highest

/-! ### One pass of the loop -/

/-- Everything that a pass of the loop over slot `index` can do. -/
structure AckLoop.Visited (s : AckLoop) (index : Nat) (s' : AckLoop) : Prop where
  nacks : s'.nacks <:+ s.nacks
  head : s.headPtFinal ≤ s'.headPtFinal
  slot : ∃ bk, s'.bookKeepArr = s.bookKeepArr.set index bk ∧
    (∃ acked, SlotMove acked (s.bookKeepArr.get index) bk) ∧
    ((s.bookKeepArr.get index).status = .occupiedNew →
      (s.bookKeepArr.get index).seqNum ∈ s.nacks ∨ bk.IsFree) ∧
    ((s.bookKeepArr.get index).status ≠ .occupiedNew →
      s'.sweep = visitSlot s.sweep index bk)

namespace AckLoop

variable {s s' : AckLoop} {index : Nat} {rest : List Nat}

theorem release_visited (s : AckLoop) (hi : index + 1 < 4294967296) (h : rest <:+ s.nacks) :
    s.Visited index { s.release index with nacks := rest } := by
  refine ⟨h, ?_, _, rfl, ⟨True, .release trivial⟩, fun _ => .inr rfl, fun _ => sweep_release hi⟩
  have hnext : uint32 (index + 1) = index + 1 := uint32_of_lt hi
  simp only [release]
  split
  · rename_i hhead
    rw [hhead]
    omega
  · exact Nat.le_refl _

/-- A pass that leaves a packet in flight. -/
theorem skip_visited (s : AckLoop) (h : rest <:+ s.nacks)
    (hst : (s.bookKeepArr.get index).status = .occupiedOutbound) :
    s.Visited index { s with nacks := rest } := by
  have hused : ¬(s.bookKeepArr.get index).IsFree := by simp [BookKeeping.IsFree, hst]
  have hmarked : ¬(s.bookKeepArr.get index).IsRetrans := by simp [BookKeeping.IsRetrans, hst]
  refine ⟨h, Nat.le_refl _, _, (s.bookKeepArr.set_get_self index).symm, ⟨True, .stay⟩,
    fun hnew => ?_, fun _ => ?_⟩
  · rw [hst] at hnew
    cases hnew
  · exact (visitSlot_same (s := s.sweep) hused hmarked).symm

/-- A pass that leaves a slot for retransmission. -/
theorem resume_visited (s : AckLoop) (index : Nat) {bk : BookKeeping} (h : rest <:+ s.nacks)
    (hmove : SlotMove False (s.bookKeepArr.get index) bk)
    (hnew : (s.bookKeepArr.get index).status = .occupiedNew →
      (s.bookKeepArr.get index).seqNum ∈ s.nacks)
    (hmarked : (s.bookKeepArr.get index).status ≠ .occupiedNew → bk.IsRetrans) :
    s.Visited index { ({ s with bookKeepArr := s.bookKeepArr.set index bk } : AckLoop).resumeHere
      index with nacks := rest } := by
  refine ⟨h, ?_, bk, ?_, ⟨False, hmove⟩, fun hst => .inl (hnew hst),
    fun hst => sweep_resume (hmarked hst) rest⟩
  · simp only [resumeHere]
    split <;> exact Nat.le_refl _
  · simp only [resumeHere]
    split <;> rfl

/-- A pass over a free slot. -/
theorem free_visited (s : AckLoop) (hi : index + 1 < 4294967296) (h : rest <:+ s.nacks)
    (hfree : (s.bookKeepArr.get index).IsFree) :
    s.Visited index { s with
      nacks := rest
      headPtFinal := if s.headPtFinal = index then uint32 (s.headPtFinal + 1)
        else s.headPtFinal } := by
  have hnext : uint32 (index + 1) = index + 1 := uint32_of_lt hi
  refine ⟨h, ?_, _, (s.bookKeepArr.set_get_self index).symm, ⟨True, .stay⟩,
    fun _ => .inr hfree, fun _ => sweep_skip hi hfree rest⟩
  show s.headPtFinal ≤ if s.headPtFinal = index then uint32 (s.headPtFinal + 1) else s.headPtFinal
  split
  · rename_i hhead
    rw [hhead]
    omega
  · exact Nat.le_refl _

/-- The inversion lemma of the loop of `HandleDataAck`. -/
theorem visit_visited (ap : WspaceAP) (now : TIME) (s : AckLoop) (hi : index + 1 < 4294967296) :
    s.Visited index (s.visit ap now index) := by
  obtain ⟨arr, headPtFinal, currPtFinal, isFirstUpdate, nacks⟩ := s
  cases hst : (arr.get index).status with
  | occupiedOutbound =>
    have hnew : ¬(arr.get index).status = .occupiedNew := by
      rw [hst]
      decide
    cases nacks with
    | nil =>
      simp only [visit, hst]
      exact release_visited _ hi (List.suffix_refl _)
    | cons nack rest =>
      have hrest : rest <:+ nack :: rest := List.suffix_cons nack rest
      simp only [visit, hst]
      split
      · -- nacked: given up, marked, or left in flight
        split
        · exact release_visited _ hi hrest
        · rename_i hzero
          split
          · exact resume_visited _ index hrest (.retry hst hzero) (fun h => absurd h hnew)
              fun _ => rfl
          · exact skip_visited _ hrest hst
      · exact release_visited _ hi (List.suffix_refl _)
  | empty =>
    cases nacks with
    | nil =>
      have h := free_visited ⟨arr, headPtFinal, currPtFinal, isFirstUpdate, []⟩ hi
        (List.suffix_refl _) hst
      simp only [visit, hst]
      split <;> simp_all
    | cons nack rest =>
      have h := free_visited ⟨arr, headPtFinal, currPtFinal, isFirstUpdate, nack :: rest⟩ hi
        (List.suffix_refl _) hst
      have h' := free_visited ⟨arr, headPtFinal, currPtFinal, isFirstUpdate, nack :: rest⟩ hi
        (List.suffix_cons nack rest) hst
      simp only [visit, hst]
      split <;> split <;> simp_all
  | occupiedNew | occupiedRetrans =>
    -- the source has one branch for both: it compares the nack with the number in the slot
    cases nacks with
    | nil =>
      simp only [visit, hst]
      exact release_visited _ hi (List.suffix_refl _)
    | cons nack rest =>
      simp only [visit, hst]
      split
      · rename_i hnack
        have h := resume_visited ⟨arr, headPtFinal, currPtFinal, isFirstUpdate, nack :: rest⟩ index
          (List.suffix_cons nack rest) .stay (fun _ => hnack ▸ List.mem_cons_self ..)
          fun hnew => by simp_all [BookKeeping.IsRetrans]
        simp only [CellRing.set_get_self] at h
        exact h
      · exact release_visited _ hi (List.suffix_refl _)

/-- A freed slot stays free. -/
theorem Visited.free (h : s.Visited index s') {j : Nat} (hj : (s.bookKeepArr.get j).IsFree) :
    (s'.bookKeepArr.get j).IsFree := by
  obtain ⟨bk, harr, ⟨acked, hmove⟩, -⟩ := h.slot
  rw [harr]
  by_cases hcell : j % BUF_SIZE = index % BUF_SIZE
  · have hsame : ∀ arr : CellRing BUF_SIZE BookKeeping, arr.get j = arr.get index :=
      fun arr => congrArg arr (CellRing.ofNat_eq_iff.mpr hcell)
    rw [hsame, CellRing.get_set_self]
    rw [hsame] at hj
    by_contra hused
    exact (hmove.used hused).1 hj
  · rwa [CellRing.get_set_of_ne _ _ hcell]

end AckLoop

/-! ### The whole loop -/

variable {ap : WspaceAP} {now : TIME} {b : TxDataBuf} {ack : DataAck} {s : TxState}

/-- The bulk release frees the slots of its range and leaves the rest of the window alone. -/
theorem bulkRelease_free (b : TxDataBuf) (n : Nat) :
    (∀ j, b.headPt ≤ j → j < b.headPt + n →
      ((bulkRelease b.bookKeepArr b.headPt (b.headPt + n)).get j).IsFree) ∧
    ∀ j, b.headPt + n ≤ j → j < b.headPt + BUF_SIZE →
      (bulkRelease b.bookKeepArr b.headPt (b.headPt + n)).get j = b.slot j := by
  have hrun := foldl_range'_invariant
    (I := fun i (arr : CellRing BUF_SIZE BookKeeping) =>
      (∀ j, b.headPt ≤ j → j < i → (arr.get j).IsFree) ∧
        ∀ j, i ≤ j → j < b.headPt + BUF_SIZE → arr.get j = b.slot j)
    (fun arr i => arr.set i (arr.get i).free) b.headPt n b.bookKeepArr
    ⟨fun j h1 h2 => absurd h1 (by omega), fun j _ _ => rfl⟩ ?_
  · rw [bulkRelease, Nat.add_sub_cancel_left]
    exact hrun
  · intro i arr hlo _ ⟨hfree, hahead⟩
    refine ⟨?_, ?_⟩
    · intro j hj hji
      by_cases hcell : j % BUF_SIZE = i % BUF_SIZE
      · -- the ack may span more than one turn of the ring
        have hsame : (arr.set i (arr.get i).free).get j = (arr.get i).free :=
          (congrArg (arr.set i (arr.get i).free) (CellRing.ofNat_eq_iff.mpr hcell)).trans
            (arr.get_set_self i _)
        rw [hsame]
        rfl
      · rw [CellRing.get_set_of_ne _ _ hcell]
        apply hfree j hj
        by_contra hge
        exact hcell (by rw [show j = i by omega])
    · intro j hj hwin
      have hi : b.headPt ≤ i ∧ i < b.headPt + BUF_SIZE := ⟨hlo, by omega⟩
      rw [arr.get_set_window _ hi ⟨by omega, hwin⟩ (by omega)]
      exact hahead j (by omega) hwin

/-- What holds when the loop stands at index `i`, whatever the ack says. -/
structure AckRun (b : TxDataBuf) (ack : DataAck) (i : Nat) (s : AckLoop) : Prop where
  nacks : ∀ n ∈ s.nacks, n ∈ ack.nackArr
  bulk_le : bulkHead b.headPt ack ≤ s.headPtFinal
  ahead : ∀ j, i ≤ j → j < b.headPt + BUF_SIZE → s.bookKeepArr.get j = b.slot j
  dropped : ∀ j, b.headPt ≤ j → j < i → j < b.headPt + BUF_SIZE →
    (j < bulkHead b.headPt ack ∨
      (b.slot j).status = .occupiedNew ∧ (b.slot j).seqNum ∉ ack.nackArr) →
    (s.bookKeepArr.get j).IsFree

/-- The loop starts behind the bulk release. -/
theorem AckRun.start (hlo : b.headPt ≤ bulkHead b.headPt ack) (nacks : List Nat)
    (hnacks : ∀ n ∈ nacks, n ∈ ack.nackArr) :
    AckRun b ack (bulkHead b.headPt ack)
      ⟨bulkRelease b.bookKeepArr b.headPt (bulkHead b.headPt ack), bulkHead b.headPt ack, b.currPt,
        true, nacks⟩ := by
  have hsum : b.headPt + (bulkHead b.headPt ack - b.headPt) = bulkHead b.headPt ack := by omega
  obtain ⟨hfree, hahead⟩ := bulkRelease_free b (bulkHead b.headPt ack - b.headPt)
  rw [hsum] at hfree hahead
  exact ⟨hnacks, Nat.le_refl _, hahead, fun j h1 h2 _ _ => hfree j h1 h2⟩

/-- A pass of the loop. -/
theorem AckRun.visit {i : Nat} {l : AckLoop} (h : AckRun b ack i l)
    (hlo : b.headPt ≤ bulkHead b.headPt ack) (hbulk : bulkHead b.headPt ack ≤ i)
    (hi : i + 1 < 4294967296) : AckRun b ack (i + 1) (l.visit ap now i) := by
  have hv := l.visit_visited ap now hi
  obtain ⟨bk, harr, -, hnew, -⟩ := hv.slot
  refine ⟨?_, h.bulk_le.trans hv.head, ?_, ?_⟩
  · intro n hn
    exact h.nacks n (hv.nacks.subset hn)
  · intro j hj hwin
    have hwindow : b.headPt ≤ i ∧ i < b.headPt + BUF_SIZE := ⟨by omega, by omega⟩
    rw [harr, CellRing.get_set_window _ _ hwindow ⟨by omega, hwin⟩ (by omega)]
    exact h.ahead j (by omega) hwin
  · intro j hj hji hwin hdrop
    obtain hlt | rfl : j < i ∨ j = i := by omega
    · exact hv.free (h.dropped j hj hlt hwin hdrop)
    · -- slot `j` is visited for the first time
      obtain hearly | ⟨hst, hnot⟩ := hdrop
      · omega
      · have hold := h.ahead j (Nat.le_refl j) hwin
        rw [harr, CellRing.get_set_self]
        rw [hold] at hnew
        exact (hnew hst).resolve_left fun hin => hnot (h.nacks _ hin)

/-- The handler writes back what the loop leaves. -/
theorem applyDataAck_run (ap : WspaceAP) (now : TIME) (hlo : b.headPt ≤ bulkHead b.headPt ack)
    (hpos : 0 < ack.endSeq) (hend : ack.endSeq < 4294967296) :
    ∃ l, AckRun b ack (max (bulkHead b.headPt ack) ack.endSeq) l ∧
      applyDataAck ap now b ack = moveCursors b l.bookKeepArr l.headPtFinal l.currPtFinal :=
  applyDataAck_loop ap now (AckRun b ack) hpos hend
    (AckRun.start hlo _ fun n hn => (List.dropWhile_suffix _).subset hn)
    fun i l h1 h2 hl => hl.visit hlo h1 (by omega)

/-- The loop as a sweep over slots that are not new: each of them is released, marked or kept. -/
def AckWalk (b : TxDataBuf) (i : Nat) (s : AckLoop) : Prop :=
  ∃ f, Swept BookKeeping.IsFree BookKeeping.IsRetrans b.bookKeepArr f b.headPt b.currPt i s.sweep ∧
    ∀ j, b.headPt ≤ j → j < i → ∃ acked, SlotMove acked (b.slot j) (f j (b.slot j))

theorem AckWalk.start (hlo : b.headPt ≤ bulkHead b.headPt ack)
    (hhi : bulkHead b.headPt ack ≤ b.headPt + BUF_SIZE) (nacks : List Nat) :
    AckWalk b (bulkHead b.headPt ack)
      ⟨bulkRelease b.bookKeepArr b.headPt (bulkHead b.headPt ack), bulkHead b.headPt ack, b.currPt,
        true, nacks⟩ :=
  ⟨fun _ bk => bk.free, bulkRelease_swept (fun _ _ _ => rfl) hlo hhi,
    fun _ _ _ => ⟨True, .release trivial⟩⟩

theorem AckWalk.visit {i : Nat} {l : AckLoop} (h : AckWalk b i l) (hlo : b.headPt ≤ i)
    (hhi : i < b.headPt + BUF_SIZE) (hi : i + 1 < 4294967296)
    (hnew : (b.slot i).status ≠ .occupiedNew) : AckWalk b (i + 1) (l.visit ap now i) := by
  obtain ⟨f, hswept, hmoved⟩ := h
  have hold : l.bookKeepArr.get i = b.slot i := hswept.ahead i (Nat.le_refl i) hhi
  obtain ⟨bk, -, ⟨acked, hmove⟩, -, hsweep⟩ := (l.visit_visited ap now hi).slot
  rw [hold] at hmove hsweep
  -- the image of slot `i` is whatever the pass has left there
  refine ⟨Function.update f i fun _ => bk, ?_, ?_⟩
  · have hbefore := hswept.congr (g := Function.update f i fun _ => bk) fun j h1 h2 => by
      rw [Function.update_of_ne (by omega)]
    have hvisit := hbefore.visit hlo hhi
    rw [Function.update_self] at hvisit
    rw [hsweep hnew]
    exact hvisit
  · intro j h1 h2
    by_cases hji : j = i
    · subst j
      rw [Function.update_self]
      exact ⟨acked, hmove⟩
    · rw [Function.update_of_ne hji]
      exact hmoved j h1 (by omega)

/-- An ack that stays in front of the new packets sweeps the slots that it covers, whatever its
nacks are. -/
theorem applyDataAck_walk (ap : WspaceAP) (now : TIME) {hi : Nat}
    (hlo : b.headPt ≤ bulkHead b.headPt ack) (hbulk : bulkHead b.headPt ack ≤ hi)
    (hhi : hi ≤ b.headPt + BUF_SIZE) (hpos : 0 < ack.endSeq) (hend : ack.endSeq ≤ hi)
    (hlt : hi < 4294967296)
    (hnew : ∀ i, b.headPt ≤ i → i < hi → (b.slot i).status ≠ .occupiedNew) :
    ∃ f, HandlerSweep b (applyDataAck ap now b ack) (max (bulkHead b.headPt ack) ack.endSeq) f ∧
      ∀ i, b.headPt ≤ i → i < max (bulkHead b.headPt ack) ack.endSeq →
        ∃ acked, SlotMove acked (b.slot i) (f i (b.slot i)) := by
  obtain ⟨l, ⟨f, hswept, hmoved⟩, happ⟩ := applyDataAck_loop ap now (AckWalk b) hpos (by omega)
    (AckWalk.start hlo (by omega) (skipStale b.headPt ack.nackArr))
    fun i l h1 h2 hl => hl.visit (by omega) (by omega) (by omega) (hnew i (by omega) (by omega))
  rw [happ]
  exact ⟨f, HandlerSweep.of_swept hswept, hmoved⟩

/-! ### Which acks are safe -/

/-- The bulk release stops at the first fresh nack, or at the end of an ack without nacks. -/
theorem bulkHead_le_iff {headPt highest : Nat} (hhead : headPt ≤ highest) :
    bulkHead headPt ack ≤ highest ↔
      (ack.nackArr = [] → ack.endSeq ≤ highest) ∧ ack.NackSent headPt highest := by
  have hfresh : (skipStale headPt ack.nackArr).head? = ack.firstFresh headPt := by
    have hneg : ∀ nack : Nat, decide (uint32Sub nack 1 < headPt) =
        !decide (headPt ≤ uint32Sub nack 1) := by
      intro nack
      by_cases h : headPt ≤ uint32Sub nack 1
      · simp [h, Nat.not_lt.mpr h]
      · simp [h, Nat.not_le.mp h]
    simp only [skipStale, DataAck.firstFresh, List.find?_eq_head?_dropWhile_not, hneg]
  unfold bulkHead DataAck.NackSent
  rw [← hfresh]
  by_cases hnil : ack.nackArr = []
  · simp [hnil, skipStale]
  · rw [if_neg hnil]
    cases hskip : skipStale headPt ack.nackArr with
    | nil => simp [hnil, hhead]
    | cons nack rest =>
      simp only [hnil, List.head?_cons, Option.some.injEq, false_implies, true_and,
        forall_eq']
      split <;> omega

theorem le_bulkHead {headPt : Nat} (hend : headPt < ack.endSeq) : headPt ≤ bulkHead headPt ack := by
  unfold bulkHead
  split
  · omega
  · split
    · split <;> omega
    · exact Nat.le_refl _

/-- A waiting packet lies in the window behind all that was handed out. -/
theorem TxState.WindowInv.waiting (hs : s.WindowInv) {i : Nat}
    (hnew : (s.buf.slot i).status = .occupiedNew) :
    ∃ j, s.history.highest ≤ j ∧ j < s.buf.tailPt ∧ ∀ b : TxDataBuf, b.slot i = b.slot j := by
  obtain ⟨j, hlo, hhi, hcell⟩ := CellRing.exists_index (Fin.ofNat BUF_SIZE i) s.buf.headPt
  have hsame : ∀ b : TxDataBuf, b.slot i = b.slot j := fun b => congrArg b.bookKeepArr hcell.symm
  rw [hsame] at hnew
  have htail : j < s.buf.tailPt := by
    by_contra hge
    have hfree := hs.unused j (by omega) hhi
    rw [BookKeeping.IsFree, hnew] at hfree
    cases hfree
  exact ⟨j, (hs.slot j hlo htail).new.mp hnew, htail, hsame⟩

/-- An accepted ack ends behind the head. -/
theorem TxState.accepts_head_lt (hacc : s.client.accepts ack = true)
    (hend : ack.endSeq < 4294967296) : s.buf.headPt < ack.endSeq := by
  simp only [ClientContext.accepts, decide_eq_true_eq] at hacc
  obtain ⟨-, hzero, hnew⟩ := hacc
  have hpos := Nat.pos_of_ne_zero hzero
  rw [uint32Sub_of_le hpos hend] at hnew
  show s.client.dataPktBuf.headPt < ack.endSeq
  omega

theorem moveCursors_tailPt (b : TxDataBuf) (arr : CellRing BUF_SIZE BookKeeping)
    (headPtFinal currPtFinal : Nat) :
    (moveCursors b arr headPtFinal currPtFinal).tailPt = b.tailPt := rfl

/-- What an accepted ack leaves, in terms of the loop. -/
theorem handleDataAck_run (ap : WspaceAP) (now : TIME) (hacc : s.client.accepts ack = true)
    (hend : ack.endSeq < 4294967296) :
    ∃ l, AckRun s.buf ack (max (bulkHead s.buf.headPt ack) ack.endSeq) l ∧
      (handleDataAck ap now s.client ack).2.dataPktBuf.bookKeepArr = l.bookKeepArr ∧
      l.headPtFinal ≤ (handleDataAck ap now s.client ack).2.dataPktBuf.headPt ∧
      (handleDataAck ap now s.client ack).2.dataPktBuf.tailPt = s.buf.tailPt := by
  have hlt := TxState.accepts_head_lt hacc hend
  obtain ⟨l, hl, happ⟩ := applyDataAck_run ap now (le_bulkHead hlt) (by omega) hend
  rw [handleDataAck_accepted hacc]
  simp only [happ]
  refine ⟨l, hl, rfl, ?_, rfl⟩
  simp only [moveCursors]
  split <;> omega

namespace TxState

/-- The state after `HandleDataAck`, with its history. -/
def acked (ap : WspaceAP) (now : TIME) (s : TxState) (ack : DataAck) : TxState :=
  let new := if s.client.accepts ack then [ack] else []
  ⟨(handleDataAck ap now s.client ack).2,
    { s.history with acked := s.history.acked ++ new }⟩

theorem acked_exec (ap : WspaceAP) (now : TIME) (s : TxState) (ack : DataAck) :
    execTx ap s (.dataAck now ack) = .ok (s.acked ap now ack) := rfl

theorem acked_highest (ap : WspaceAP) (now : TIME) (s : TxState) (ack : DataAck) :
    (s.acked ap now ack).history.highest = s.history.highest := by
  simp only [TxState.acked, History.highest]

theorem acked_enqueued (ap : WspaceAP) (now : TIME) (s : TxState) (ack : DataAck) :
    (s.acked ap now ack).history.enqueued = s.history.enqueued := by
  simp only [TxState.acked]

theorem acked_tailPt (ap : WspaceAP) (now : TIME) (s : TxState) (ack : DataAck) :
    (s.acked ap now ack).buf.tailPt = s.buf.tailPt := by
  cases hacc : s.client.accepts ack with
  | false => simp only [TxState.buf, TxState.acked, handleDataAck_refused hacc]
  | true =>
    simp only [TxState.buf, TxState.acked, handleDataAck_accepted hacc, applyDataAck]
    split <;> exact moveCursors_tailPt ..

/-- An ack is refused, or it names packets that were handed out. -/
def AckSafe (s : TxState) (ack : DataAck) : Prop :=
  s.client.accepts ack = false ∨ ack.NamesSent s.buf.headPt s.history.highest

/-- What a correct receiver sends is safe. -/
theorem WindowInv.ackSafe (hs : s.WindowInv) (hwf : ack.WellFormed s.history.highest) :
    s.AckSafe ack := by
  have hhigh := hs.highest_le
  have htail := hs.tail_lt
  have hend := hwf.end_le
  refine .inr ⟨hend, fun nack hfresh => ?_⟩
  obtain ⟨hpos, hle⟩ := hwf.range nack (List.mem_of_find?_eq_some hfresh)
  rw [uint32Sub_of_le hpos (by omega)]
  omega

/-- A safe ack keeps the invariant. -/
theorem WindowInv.acked (hs : s.WindowInv) (now : TIME) (hsafe : s.AckSafe ack) :
    (s.acked ap now ack).WindowInv := by
  cases hacc : s.client.accepts ack with
  | false =>
    refine hs.congr (handleDataAck_refused hacc) ?_
    simp only [TxState.acked, hacc, Bool.false_eq_true, if_false, List.append_nil]
  | true =>
    obtain ⟨hend, hnack⟩ := hsafe.resolve_left (by rw [hacc]; decide)
    have hhigh := hs.highest_le
    have htail := hs.tail_le
    have htail32 := hs.tail_lt
    have hhead := accepts_head_lt hacc (by omega)
    have hbulk := (bulkHead_le_iff hs.head_le).mpr ⟨fun _ => hend, hnack⟩
    have hlo := le_bulkHead hhead
    obtain ⟨f, hsweep, hmoved⟩ := applyDataAck_walk ap now hlo hbulk (by omega) (by omega) hend
      (by omega) fun i h1 h2 hnew => absurd ((hs.slot i h1 (by omega)).new.mp hnew) (by omega)
    have hbuf : (s.acked ap now ack).buf = applyDataAck ap now s.buf ack := by
      simp only [TxState.buf, TxState.acked, handleDataAck_accepted hacc]
    rw [← hbuf] at hsweep
    exact windowInv_sweep hs hsweep (by omega) (by omega) (acked_highest ap now s ack)
      (acked_enqueued ap now s ack) hmoved

/-- Under the invariant before and after, an ack has kept the waiting packets. -/
theorem WindowInv.sentOnly (hs : s.WindowInv) (hs' : (s.acked ap now ack).WindowInv) :
    SentOnly s.client (handleDataAck ap now s.client ack).2 := by
  have htail := acked_tailPt ap now s ack
  have hcurr := hs'.curr_le.trans hs'.highest_le
  refine ⟨hs'.head_le_curr, hcurr, hs'.tail_le, fun i hnew hempty => ?_⟩
  obtain ⟨j, hj, hjt, hsame⟩ := hs.waiting hnew
  have hhead := hs'.head_le
  have hhigh := acked_highest ap now s ack
  have hslot := (hs'.slot j (by omega) (by omega)).new.mpr (by omega)
  rw [TxState.buf, ← hsame] at hslot
  rw [show (s.acked ap now ack).client = (handleDataAck ap now s.client ack).2 from rfl,
    hempty] at hslot
  cases hslot

end TxState

namespace TxState.WindowInv

/-- A safe ack frees no waiting packet in its bulk release, and it nacks those that it covers. -/
theorem covered_of_sentOnly (hs : s.WindowInv) (hacc : s.client.accepts ack = true)
    (hend : ack.endSeq < 4294967296)
    (hsafe : SentOnly s.client (handleDataAck ap now s.client ack).2) :
    bulkHead s.buf.headPt ack ≤ s.history.highest ∧
      ∀ i, s.history.highest ≤ i → i < ack.endSeq → i < s.buf.tailPt → i + 1 ∈ ack.nackArr := by
  have hhead := hs.head_le_curr
  have hcurr := hs.curr_le
  have htail := hs.tail_le
  obtain ⟨l, hl, harr, hhead', htail'⟩ := handleDataAck_run ap now hacc hend
  -- a waiting packet is not dropped
  have hkept : ∀ i, s.history.highest ≤ i → i < s.buf.tailPt → ¬(l.bookKeepArr.get i).IsFree := by
    intro i h1 h2 hfree
    apply hsafe.kept i ((hs.slot i (by omega) h2).new.mpr h1)
    rw [TxDataBuf.slot, harr]
    exact hfree
  constructor
  · -- otherwise the bulk release would drop the first waiting packet, or pass the tail
    by_contra hgt
    have hbl := hl.bulk_le
    have hle := hsafe.head_le_curr.trans hsafe.curr_le_tail
    rw [htail'] at hle
    exact hkept _ (Nat.le_refl _) (by omega)
      (hl.dropped _ (by omega) (by omega) (by omega) (.inl (by omega)))
  · intro i h1 h2 h3
    by_contra hnot
    have hslot := hs.slot i (by omega) h3
    have hnew := hslot.new.mpr h1
    have hused : ¬(s.buf.slot i).IsFree := by
      rw [BookKeeping.IsFree, hnew]
      decide
    apply hkept i h1 h3
    apply hl.dropped i (by omega) (by omega) (by omega)
    exact .inr ⟨hnew, by rwa [(hslot.used hused).1]⟩

end TxState.WindowInv

/-! ### Runs -/

/-- The transmit buffer of one client, if acks may say anything. -/
def anyAckMachine (ap : WspaceAP) (R : Nat) : Machine TxState TxInput Fault where
  init s := ∃ boot, s = TxState.init boot R
  enabled s
    | .dataAck _ ack => ack.endSeq < 4294967296
    | input => enabledTx s input
  exec := execTx ap

/-- Every ack is safe where it arrives. -/
def SafeInput (s : TxState) : TxInput → Prop
  | .dataAck _ ack => s.AckSafe ack
  | _ => True

/-- The step lemma: a safe input keeps the invariant of the window. -/
theorem SafeInput.windowInv {R : Nat} {s' : TxState} {input : TxInput}
    (hsafe : SafeInput s input) (hs : s.WindowInv) (hen : (anyAckMachine ap R).enabled s input)
    (hexec : execTx ap s input = .ok s') : s'.WindowInv := by
  cases input with
  | dataAck now ack =>
    rw [TxState.acked_exec, Except.ok.injEq] at hexec
    rw [← hexec]
    exact hs.acked now hsafe
  | enqueue pkt =>
    have hen : enabledTx s (.enqueue pkt) := hen
    exact (effect_of_exec hs hen hexec).windowInv hs
  | dequeue now =>
    have hen : enabledTx s (.dequeue now) := hen
    exact (effect_of_exec hs hen hexec).windowInv hs
  | timeOut now =>
    have hen : enabledTx s (.timeOut now) := hen
    exact (effect_of_exec hs hen hexec).windowInv hs

/-- The run lemma. -/
theorem windowInv_of_safeInputs {R : Nat}
    (h : ((anyAckMachine ap R).restrict SafeInput).Reachable s) : s.WindowInv := by
  refine h.invariant ?_ ?_
  · rintro s ⟨boot, rfl⟩
    exact windowInv_init boot R
  · intro s input s' _ hs hen hexec
    exact hen.2.windowInv hs hen.1 hexec

/-- Runs with a correct receiver are among those whose acks are safe. -/
theorem safeInputs_of_reachable {R : Nat} (h : (txMachine ap R).Reachable s) :
    ((anyAckMachine ap R).restrict SafeInput).Reachable s := by
  induction h with
  | init h0 => exact .init h0
  | @step s s' input hr hen hexec ih =>
    have hs := windowInv_of_reachable hr
    refine .step ih ?_ hexec
    cases input with
    | dataAck now ack =>
      have hhigh := hs.highest_le
      have htail := hs.tail_lt
      have hend : ack.endSeq ≤ s.history.highest := DataAck.WellFormed.end_le hen
      have hlt : ack.endSeq < 4294967296 := by omega
      exact ⟨hlt, hs.ackSafe hen⟩
    | enqueue _ | dequeue _ | timeOut _ => exact ⟨hen, trivial⟩

/-- In every run of safe acks the cursors are in order, and one more safe ack keeps them so and drops
no waiting packet. Conversely, an accepted ack that does no harm confirms no waiting packet with its
first nack, and it nacks every waiting packet that it covers. -/
theorem handleDataAck_sentOnly (ap : WspaceAP) (R : Nat) :
    (∀ s, (txMachine ap R).Reachable s → ((anyAckMachine ap R).restrict SafeInput).Reachable s) ∧
    ∀ s, ((anyAckMachine ap R).restrict SafeInput).Reachable s →
      (s.buf.headPt ≤ s.buf.currPt ∧ s.buf.currPt ≤ s.buf.tailPt ∧
        s.buf.tailPt ≤ s.buf.headPt + BUF_SIZE) ∧
      ∀ now ack, ack.endSeq < 4294967296 →
        (s.AckSafe ack → SentOnly s.client (handleDataAck ap now s.client ack).2) ∧
        (s.client.accepts ack = true ∧ SentOnly s.client (handleDataAck ap now s.client ack).2 →
          ack.NackSent s.buf.headPt s.history.highest ∧
          (s.history.highest < ack.endSeq → ack.nackArr ≠ [] ∧
            ∀ i, s.history.highest ≤ i → i < ack.endSeq → i < s.buf.tailPt →
              i + 1 ∈ ack.nackArr)) := by
  refine ⟨fun s h => safeInputs_of_reachable h, fun s h => ?_⟩
  have hs := windowInv_of_safeInputs h
  refine ⟨⟨hs.head_le_curr, hs.curr_le.trans hs.highest_le, hs.tail_le⟩, fun now ack hend => ?_⟩
  constructor
  · intro hsafe
    exact hs.sentOnly (hs.acked now hsafe)
  · rintro ⟨hacc, hkept⟩
    obtain ⟨hbulk, hcover⟩ := hs.covered_of_sentOnly hacc hend hkept
    obtain ⟨hnil, hnack⟩ := (bulkHead_le_iff hs.head_le).mp hbulk
    refine ⟨hnack, fun hlt => ⟨fun hempty => ?_, hcover⟩⟩
    exact absurd (hnil hempty) (by omega)

/-- The receiver lost the only packet handed out. -/
theorem handleDataAck_sentOnly_nacked :
    SentOnly oneSent.client (handleDataAck ⟨2, 10, 3⟩ ⟨2, 0⟩ oneSent.client ⟨1, 1, [1]⟩).2 := by
  obtain ⟨hruns, hacks⟩ := handleDataAck_sentOnly ⟨2, 10, 3⟩ 2
  have hr := hruns oneSent (oneSent_reachable ⟨2, 10, 3⟩)
  refine ((hacks oneSent hr).2 ⟨2, 0⟩ ⟨1, 1, [1]⟩ (by decide)).1 (.inr ⟨by decide, ?_⟩)
  intro nack hfresh
  have hnack : nack = 1 := by
    have hfind : DataAck.firstFresh ⟨1, 1, [1]⟩ oneSent.buf.headPt = some 1 := by decide
    rw [hfind] at hfresh
    exact (Option.some.inj hfresh).symm
  rw [hnack]
  decide

/-- One packet waits for its first transmission. -/
def oneWaiting : TxState := (TxState.init (fun _ => ⟨0, 0⟩) 2).stored [7]

theorem oneWaiting_reachable (ap : WspaceAP) : (txMachine ap 2).Reachable oneWaiting :=
  reachable_stored (.init ⟨_, rfl⟩) [7] (by decide) (by decide) (by decide) (by decide)

/-- An ack of an earlier session for five packets drops a packet that was never sent and moves both
cursors past the tail. -/
theorem handleDataAck_drops_unsent :
    ∃ s : TxState, (txMachine ⟨2, 10, 3⟩ 2).Reachable s ∧
      (s.buf.slot 0).status = .occupiedNew ∧
      ((handleDataAck ⟨2, 10, 3⟩ ⟨2, 0⟩ s.client ⟨1, 5, []⟩).2.dataPktBuf.slot 0).status = .empty ∧
      (handleDataAck ⟨2, 10, 3⟩ ⟨2, 0⟩ s.client ⟨1, 5, []⟩).2.dataPktBuf.tailPt <
        (handleDataAck ⟨2, 10, 3⟩ ⟨2, 0⟩ s.client ⟨1, 5, []⟩).2.dataPktBuf.headPt ∧
      ¬SentOnly s.client (handleDataAck ⟨2, 10, 3⟩ ⟨2, 0⟩ s.client ⟨1, 5, []⟩).2 := by
  refine ⟨oneWaiting, oneWaiting_reachable _, by decide, by decide, by decide, ?_⟩
  intro hsafe
  exact hsafe.kept 0 (by decide) (by decide)

end WspaceScout
