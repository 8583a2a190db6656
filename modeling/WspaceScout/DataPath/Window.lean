import WspaceScout.DataPath.System

/-!
# The window of the transmit buffer

Every operation keeps `TxState.WindowInv`: the cursors are ordered, a slot of the window is empty
or holds its own packet, and whatever is still to be sent lies at or behind `currPt`.

## Main results

- `windowInv_sweep` — one lemma for both handlers, from what they can leave in a visited slot
- `Effect.windowInv` — the step lemma
- `windowInv_of_reachable` — the run lemma
- `txMachine_window` — cursors, slots and assertions of the buffer in every reachable state
-/

namespace WspaceScout

open Foundation

section Step

variable {ap : WspaceAP} {R : Nat} {s s' : TxState} {hi : Nat} {f : Nat → BookKeeping → BookKeeping}

/-- A slot of a packet that has been handed out before. -/
structure SlotOld (i : Nat) (bk : BookKeeping) : Prop where
  used : ¬bk.IsFree → bk.seqNum = i + 1 ∧ 0 < bk.len ∧ bk.len ≤ PKT_SIZE
  not_new : bk.status ≠ .occupiedNew
  retrans : bk.IsRetrans → 0 < bk.numRetrans

/-- However a handler leaves the slot of a packet handed out before, it stays one. -/
theorem SlotMove.slotOld {acked : Prop} {curr highest i : Nat} {bk bk' : BookKeeping}
    (h : SlotMove acked bk bk') (hok : SlotOk curr highest i bk) (hi : i < highest) :
    SlotOld i bk' := by
  have hnew : bk.status ≠ .occupiedNew := fun hst => absurd (hok.new.mp hst) (by omega)
  cases h with
  | stay => exact ⟨hok.used, hnew, fun hr => (hok.retrans hr).2⟩
  | release _ => exact ⟨fun hn => absurd rfl hn, by simp, fun hr => nomatch hr⟩
  | giveUp _ _ => exact ⟨fun hn => absurd rfl hn, by simp, fun hr => nomatch hr⟩
  | retry hst hnum =>
    refine ⟨fun _ => hok.used ?_, by simp, fun _ => Nat.pos_of_ne_zero hnum⟩
    simp [hst]

/-- The invariant is about the buffer and the history only. -/
theorem TxState.WindowInv.congr (hs : s.WindowInv) (hbuf : s'.buf = s.buf)
    (hhist : s'.history = s.history) : s'.WindowInv := by
  constructor <;> simp only [hbuf, hhist]
  exacts [hs.head_le_curr, hs.curr_le, hs.highest_le, hs.tail_le, hs.tail_eq, hs.tail_lt, hs.slot,
    hs.unused]

/-- A sweep over slots in front of the new packets keeps the invariant. -/
theorem windowInv_sweep (hs : s.WindowInv) (hsw : HandlerSweep s.buf s'.buf hi f)
    (hlo : s.buf.headPt ≤ hi) (hhi : hi ≤ s.history.highest)
    (hhigh : s'.history.highest = s.history.highest)
    (henq : s'.history.enqueued = s.history.enqueued)
    (hmove : ∀ i, s.buf.headPt ≤ i → i < hi →
      ∃ acked, SlotMove acked (s.buf.slot i) (f i (s.buf.slot i))) : s'.WindowInv := by
  have hle := hs.highest_le
  have htail := hs.tail_le
  have hhead := hsw.head
  have hheadle := hhead.le_hi
  have hheadge := hhead.lo_le
  obtain ⟨r, hr, hcurr⟩ := hsw.curr
  -- what the visited slots hold now
  have hvisited : ∀ i, s.buf.headPt ≤ i → i < hi → SlotOld i (s'.buf.slot i) := fun i h1 h2 => by
    obtain ⟨acked, hm⟩ := hmove i h1 h2
    rw [hsw.slot_lt i h1 h2]
    exact hm.slotOld (hs.slot i h1 (by omega)) (by omega)
  -- nothing marked is left behind the new cursor
  have hmarked : ∀ i, s'.buf.headPt ≤ i → i < hi → (s'.buf.slot i).IsRetrans →
      s'.buf.currPt ≤ i := fun i h1 h2 hret => by
    have hri : r ≤ i := Nat.not_lt.mp fun hlt => hr.before i (by omega) hlt hret
    rw [hcurr, if_pos (by omega)]
    exact hri
  have hheadcurr : s'.buf.headPt ≤ s'.buf.currPt := by
    rw [hcurr]
    split
    · rename_i hlt
      exact Nat.not_lt.mp fun h => absurd (hr.hit hlt).not_isFree (hhead.before r hr.lo_le h)
    · exact Nat.le_max_right _ _
  have hcurrle : s'.buf.currPt ≤ s.history.highest := by
    have := hs.curr_le
    rw [hcurr]
    split <;> omega
  constructor
  · exact hheadcurr
  · rw [hhigh]
    exact hcurrle
  · rw [hhigh, hsw.tail]
    exact hle
  · rw [hsw.tail]
    omega
  · rw [hsw.tail, henq]
    exact hs.tail_eq
  · rw [hsw.tail]
    exact hs.tail_lt
  · intro i h1 h2
    rw [hsw.tail] at h2
    rw [hhigh]
    by_cases hlt : i < hi
    · have hold := hvisited i (by omega) hlt
      refine ⟨hold.used, ⟨fun hst => absurd hst hold.not_new, fun hge => by omega⟩, fun h => ?_⟩
      exact ⟨hmarked i h1 hlt h, hold.retrans h⟩
    · have hok := hs.slot i (by omega) h2
      rw [hsw.slot_ge i (by omega) (by omega)]
      refine ⟨hok.used, hok.new, fun h => ⟨?_, (hok.retrans h).2⟩⟩
      have := (hok.retrans h).1
      rw [hcurr]
      split <;> omega
  · intro i h1 h2
    rw [hsw.tail] at h1
    by_cases hlt : i < s.buf.headPt + BUF_SIZE
    · rw [hsw.slot_ge i (by omega) hlt]
      exact hs.unused i h1 hlt
    · -- the slot of a reclaimed index
      obtain ⟨j, rfl⟩ : ∃ j, i = j + BUF_SIZE := ⟨i - BUF_SIZE, by omega⟩
      rw [s'.buf.slot_add_BUF_SIZE]
      exact not_not.mp (hhead.before j (by omega) (by omega))

theorem windowInv_stored (hs : s.WindowInv) {pkt : List UInt8}
    (hroom : s.buf.tailPt < s.buf.headPt + BUF_SIZE) (hlt : s.buf.tailPt + 1 < 4294967295)
    (hpos : 0 < pkt.length) (hlen : pkt.length ≤ PKT_SIZE) : (s.stored pkt).WindowInv := by
  have hhead := hs.head_le
  have hhigh := hs.highest_le
  have hself : (s.stored pkt).buf.slot s.buf.tailPt =
      (s.buf.slot s.buf.tailPt).update (s.buf.tailPt + 1) .occupiedNew pkt.length
        s.buf.numRetrans := TxDataBuf.slot_setSlot_self
  have hother : ∀ i, s.buf.headPt ≤ i → i < s.buf.headPt + BUF_SIZE → i ≠ s.buf.tailPt →
      (s.stored pkt).buf.slot i = s.buf.slot i := fun i h1 h2 hne =>
    TxDataBuf.slot_setSlot_window _ ⟨by omega, hroom⟩ ⟨h1, h2⟩ hne
  have htail : (s.stored pkt).buf.tailPt = s.buf.tailPt + 1 := rfl
  constructor
  · exact hs.head_le_curr
  · exact hs.curr_le
  · exact Nat.le_succ_of_le hhigh
  · exact hroom
  · rw [htail, hs.tail_eq]
    simp [TxState.stored]
  · exact hlt
  · -- the slots in use, with the new one behind them
    intro i h1 h2
    change SlotOk s.buf.currPt s.history.highest i _
    by_cases heq : i = s.buf.tailPt
    · subst heq
      rw [hself]
      exact ⟨fun _ => ⟨rfl, hpos, hlen⟩, ⟨fun _ => hhigh, fun _ => rfl⟩, fun h => nomatch h⟩
    · rw [hother i h1 (by omega) heq]
      exact hs.slot i h1 (by omega)
  · intro i h1 h2
    change i < s.buf.headPt + BUF_SIZE at h2
    rw [hother i (by omega) h2 (by omega)]
    exact hs.unused i (by omega) h2

theorem windowInv_skipped (hs : s.WindowInv) (hlt : s.buf.currPt < s.buf.tailPt)
    (hpkt : (s.buf.slot s.buf.currPt).status.isPkt = false) : s.skipped.WindowInv := by
  have hok := hs.slot s.buf.currPt hs.head_le_curr hlt
  have hnone : (s.buf.slot s.buf.currPt).status ≠ .occupiedNew ∧
      (s.buf.slot s.buf.currPt).status ≠ .occupiedRetrans := by
    simpa [Status.isPkt] using hpkt
  have hcurr : s.buf.currPt < s.history.highest :=
    Nat.not_le.mp fun hge => hnone.1 (hok.new.mpr hge)
  refine ⟨Nat.le_succ_of_le hs.head_le_curr, hcurr, hs.highest_le, hs.tail_le, hs.tail_eq,
    hs.tail_lt, fun i h1 h2 => ?_, hs.unused⟩
  have hi := hs.slot i h1 h2
  refine ⟨hi.used, hi.new, fun hret => ⟨?_, (hi.retrans hret).2⟩⟩
  -- the skipped slot was not marked, so that no marked slot is left behind
  have hne : s.buf.currPt ≠ i := fun heq => hnone.2 (heq ▸ hret)
  exact Nat.lt_of_le_of_ne (hi.retrans hret).1 hne

theorem windowInv_sent (hs : s.WindowInv) (now : TIME) (hlt : s.buf.currPt < s.buf.tailPt)
    (hpkt : (s.buf.slot s.buf.currPt).status.isPkt = true) : (s.sent now).WindowInv := by
  have hok := hs.slot s.buf.currPt hs.head_le_curr hlt
  have hused : ¬(s.buf.slot s.buf.currPt).IsFree := fun hfree => by
    simp [Status.isPkt, hfree] at hpkt
  have hhead := hs.head_le_curr
  have hcurr := hs.curr_le
  have hle := hs.highest_le
  have htail := hs.tail_le
  have hhigh : (s.sent now).history.highest = max s.history.highest (s.buf.currPt + 1) :=
    s.history.highest_append _ _
  have hself : (s.sent now).buf.slot s.buf.currPt = (s.buf.slot s.buf.currPt).sent now :=
    TxDataBuf.slot_setSlot_self
  have hother : ∀ i, s.buf.headPt ≤ i → i < s.buf.headPt + BUF_SIZE → i ≠ s.buf.currPt →
      (s.sent now).buf.slot i = s.buf.slot i := fun i h1 h2 hne =>
    TxDataBuf.slot_setSlot_window _ ⟨by omega, by omega⟩ ⟨h1, h2⟩ hne
  constructor
  · exact Nat.le_succ_of_le hhead
  · rw [hhigh]
    exact Nat.le_max_right _ _
  · rw [hhigh]
    exact Nat.max_le.mpr ⟨hle, hlt⟩
  · exact htail
  · exact hs.tail_eq
  · exact hs.tail_lt
  · -- the slot that was sent is in flight now, the others are as before
    intro i h1 h2
    change i < s.buf.tailPt at h2
    change SlotOk (s.buf.currPt + 1) _ i _
    rw [hhigh]
    by_cases heq : i = s.buf.currPt
    · subst heq
      rw [hself]
      refine ⟨fun _ => hok.used hused, ⟨fun hst => ?_, fun h => by omega⟩, fun hret => ?_⟩
      · cases hst
      · cases hret
    · have hi := hs.slot i h1 h2
      rw [hother i h1 (by omega) heq]
      refine ⟨hi.used, ?_, fun h => ⟨?_, (hi.retrans h).2⟩⟩
      · rw [hi.new]
        omega
      · have := (hi.retrans h).1
        omega
  · intro i h1 h2
    change s.buf.tailPt ≤ i at h1
    change i < s.buf.headPt + BUF_SIZE at h2
    rw [hother i (by omega) h2 (by omega)]
    exact hs.unused i h1 h2

theorem ackImage_move (now : TIME) (ack : DataAck) {i : Nat} (bk : BookKeeping)
    (hbulk : i < bulkHead s.buf.headPt ack → i + 1 ∉ ack.nackArr) :
    SlotMove (i + 1 ∉ ack.nackArr) bk (ackImage ap now ack (bulkHead s.buf.headPt ack) i bk) := by
  unfold ackImage
  split
  · rename_i hlt
    exact .release (hbulk hlt)
  · have hmove := bk.afterAck_move ap now (decide (i + 1 ∈ ack.nackArr))
    simpa using hmove

/-- The step lemma. -/
theorem Effect.windowInv {input : TxInput} (hs : s.WindowInv) (h : Effect ap s input s') :
    s'.WindowInv := by
  cases h with
  | dropped pkt _ => exact hs
  | stored pkt hroom hlt hpos hlen => exact windowInv_stored hs hroom hlt hpos hlen
  | skipped now hlt hpkt => exact windowInv_skipped hs hlt hpkt
  | sent now hlt hpkt => exact windowInv_sent hs now hlt hpkt
  | refused now ack s' hacc hbuf hhist => exact hs.congr hbuf hhist
  | acked now ack s' hacc hfits hwf hbuf hhist =>
    obtain ⟨-, -, hbulk, -⟩ := hfits.bulkHead_spec
    exact windowInv_sweep hs (hbuf ▸ applyDataAck_sweep hfits) (Nat.le_of_lt hfits.head_lt)
      hwf.end_le (by rw [hhist]; rfl) (by rw [hhist])
      fun i h1 _ => ⟨_, ackImage_move now ack (s.buf.slot i) (hbulk i h1)⟩
  | timedOut now s' hsw hhist =>
    exact windowInv_sweep hs hsw hs.head_le (Nat.le_refl _) (by rw [hhist]) (by rw [hhist])
      fun i _ _ => ⟨_, (s.buf.slot i).afterTimeOut_move ap now⟩

end Step

section Runs

variable {ap : WspaceAP} {R : Nat} {s : TxState}

theorem windowInv_init (boot : Fin BUF_SIZE → TIME) (R : Nat) : (TxState.init boot R).WindowInv :=
  ⟨Nat.le_refl _, Nat.le_refl _, Nat.le_refl _, Nat.zero_le _, rfl,
    (by decide : 0 < 4294967295),
    fun i _ h => absurd h (Nat.not_lt_zero i), fun _ _ _ => rfl⟩

/-- The run lemma. -/
theorem windowInv_of_reachable (h : (txMachine ap R).Reachable s) : s.WindowInv := by
  refine h.invariant ?_ ?_
  · rintro s ⟨boot, rfl⟩
    exact windowInv_init boot R
  · intro s input s' _ hs hen hexec
    exact (effect_of_exec hs hen hexec).windowInv hs

/-- A packet can be enqueued wherever there is room. -/
theorem reachable_stored (h : (txMachine ap R).Reachable s) (pkt : List UInt8)
    (hpos : 0 < pkt.length) (hlen : pkt.length ≤ PKT_SIZE)
    (hroom : s.buf.tailPt < s.buf.headPt + BUF_SIZE)
    (hcnt : s.history.enqueued.length + 1 < 4294967295) :
    (txMachine ap R).Reachable (s.stored pkt) := by
  have hexec : (txMachine ap R).exec s (.enqueue pkt) = .ok (s.stored pkt) := by
    rw [txMachine_exec]
    exact (windowInv_of_reachable h).exec_stored hroom
  exact .step h (i := .enqueue pkt) ⟨hpos, hlen, fun _ => hcnt⟩ hexec

/-- The packet at the cursor can be handed out. -/
theorem reachable_sent (h : (txMachine ap R).Reachable s) (now : TIME)
    (hlt : s.buf.currPt < s.buf.tailPt)
    (hpkt : (s.buf.slot s.buf.currPt).status.isPkt = true) :
    (txMachine ap R).Reachable (s.sent now) := by
  have hexec : (txMachine ap R).exec s (.dequeue now) = .ok (s.sent now) := by
    rw [txMachine_exec]
    exact (windowInv_of_reachable h).exec_sent hlt hpkt
  have hen : s.buf.isEmpty = false := decide_eq_false (by omega)
  exact .step h (i := .dequeue now) hen hexec

/-- Outside the window every slot is empty. -/
theorem TxState.WindowInv.outside (hs : s.WindowInv) (k : Fin BUF_SIZE)
    (hout : ∀ i, s.buf.headPt ≤ i → i < s.buf.tailPt → Fin.ofNat BUF_SIZE i ≠ k) :
    (s.buf.bookKeepArr k).status = .empty := by
  obtain ⟨i, h1, h2, rfl⟩ := CellRing.exists_index k s.buf.headPt
  exact hs.unused i (Nat.not_lt.mp fun hlt => hout i h1 hlt rfl) h2

/-- What still has to be sent is in the window and at or behind the cursor. -/
theorem TxState.WindowInv.pending (hs : s.WindowInv) {i : Nat} (h1 : s.buf.headPt ≤ i)
    (h2 : i < s.buf.tailPt) (hpkt : (s.buf.slot i).status.isPkt = true) : s.buf.currPt ≤ i := by
  have hok := hs.slot i h1 h2
  have hcurr := hs.curr_le
  obtain hnew | hret : (s.buf.slot i).status = .occupiedNew ∨ (s.buf.slot i).IsRetrans := by
    simpa [Status.isPkt] using hpkt
  · exact hcurr.trans (hok.new.mp hnew)
  · exact (hok.retrans hret).1

/-- A slot marked for retransmission has one left. -/
theorem TxState.WindowInv.retrans_pos (hs : s.WindowInv) (k : Fin BUF_SIZE)
    (hret : (s.buf.bookKeepArr k).status = .occupiedRetrans) :
    0 < (s.buf.bookKeepArr k).numRetrans := by
  obtain ⟨i, h1, h2, rfl⟩ := CellRing.exists_index k s.buf.headPt
  by_cases hlt : i < s.buf.tailPt
  · exact ((hs.slot i h1 hlt).retrans hret).2
  · have hfree := hs.unused i (Nat.not_lt.mp hlt) h2
    exact absurd hfree (BookKeeping.IsRetrans.not_isFree hret)

/-- The cursors and slots of the buffer in every reachable state; no enabled operation fails an
assertion there. -/
theorem txMachine_window (h : (txMachine ap R).Reachable s) :
    (s.buf.headPt ≤ s.buf.currPt ∧ s.buf.currPt ≤ s.buf.tailPt ∧
      s.buf.tailPt ≤ s.buf.headPt + BUF_SIZE) ∧
    (∀ i, s.buf.headPt ≤ i → i < s.buf.tailPt →
      (s.buf.slot i).status = .empty ∨ (s.buf.slot i).seqNum = i + 1) ∧
    (∀ k : Fin BUF_SIZE,
      (∀ i, s.buf.headPt ≤ i → i < s.buf.tailPt → Fin.ofNat BUF_SIZE i ≠ k) →
      (s.buf.bookKeepArr k).status = .empty) ∧
    (∀ i, s.buf.headPt ≤ i → i < s.buf.tailPt →
      (s.buf.slot i).status = .occupiedNew ∨ (s.buf.slot i).status = .occupiedRetrans →
      s.buf.currPt ≤ i) ∧
    (∀ k : Fin BUF_SIZE, (s.buf.bookKeepArr k).status = .occupiedRetrans →
      0 < (s.buf.bookKeepArr k).numRetrans) ∧
    (∀ input, (txMachine ap R).enabled s input → ∃ s', (txMachine ap R).exec s input = .ok s') := by
  have hs := windowInv_of_reachable h
  refine ⟨⟨hs.head_le_curr, hs.curr_le.trans hs.highest_le, hs.tail_le⟩, fun i h1 h2 => ?_,
    hs.outside, fun i h1 h2 hpkt => ?_, hs.retrans_pos, fun input hen => ?_⟩
  · by_cases hfree : (s.buf.slot i).IsFree
    · exact .inl hfree
    · exact .inr ((hs.slot i h1 h2).used hfree).1
  · exact hs.pending h1 h2 (by simpa [Status.isPkt] using hpkt)
  · obtain ⟨s', hexec, -⟩ := exec_effect ap hs hen
    exact ⟨s', hexec⟩

/-- The state after one packet has been enqueued and handed out. -/
def oneSent : TxState := ((TxState.init (fun _ => ⟨0, 0⟩) 2).stored [7]).sent ⟨1, 0⟩

theorem oneSent_reachable (ap : WspaceAP) : (txMachine ap 2).Reachable oneSent := by
  have h0 : (txMachine ap 2).Reachable (TxState.init (fun _ => ⟨0, 0⟩) 2) := .init ⟨_, rfl⟩
  have h1 := reachable_stored h0 [7] (by decide) (by decide) (by decide) (by decide)
  exact reachable_sent h1 ⟨1, 0⟩ (by decide) (by decide)

theorem txMachine_window_oneSent :
    (oneSent.buf.headPt ≤ oneSent.buf.currPt ∧ oneSent.buf.currPt ≤ oneSent.buf.tailPt ∧
      oneSent.buf.tailPt ≤ oneSent.buf.headPt + BUF_SIZE) ∧
    ((oneSent.buf.slot 0).status = .empty ∨ (oneSent.buf.slot 0).seqNum = 1) := by
  obtain ⟨hcursors, hslots, -⟩ := txMachine_window (oneSent_reachable ⟨2, 10, 3⟩)
  exact ⟨hcursors, hslots 0 (by decide) (by decide)⟩

end Runs

end WspaceScout
