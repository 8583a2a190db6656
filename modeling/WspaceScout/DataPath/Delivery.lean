import WspaceScout.DataPath.Window
import WspaceScout.Foundation.RetryBudget

/-!
# Reliable delivery through the transmit buffer

Seen through `TxState.phase`, every packet of the buffer lives the life of a `Packet` with a retry
budget: the buffer simulates `Packet.Move`, so no packet is dropped while it still has a
retransmission left and has not been acknowledged.

## Main definitions

- `TxState.phase` — the stage of the packet with a given index
- `TxState.stores` — some slot holds the packet with a given sequence number

## Main results

- `Effect.phase_move` — every operation moves every packet by one event of its life, or not at all
- `txMachine_delivery` — at most `1 + R` hand-outs, and no early loss
-/

namespace WspaceScout

open Foundation

/-- An accepted ack covered sequence number `n` and did not nack it. -/
def History.Acked (h : History) (n : Nat) : Prop :=
  ∃ ack ∈ h.acked, n ≤ ack.endSeq ∧ n ∉ ack.nackArr

/-- Some slot that is not empty holds sequence number `n`. -/
def TxState.stores (s : TxState) (n : Nat) : Prop :=
  ∃ k : Fin BUF_SIZE, (s.buf.bookKeepArr k).status ≠ .empty ∧ (s.buf.bookKeepArr k).seqNum = n

/-- The stage of the packet that a slot holds. -/
def BookKeeping.phase (bk : BookKeeping) : Packet :=
  match bk.status with
  | .empty => .gone
  | .occupiedNew => .fresh bk.numRetrans
  | .occupiedRetrans => .waiting bk.numRetrans
  | .occupiedOutbound => .inFlight bk.numRetrans

/-- The stage of the packet with index `i`. -/
def TxState.phase (s : TxState) (i : Nat) : Packet :=
  if s.buf.tailPt ≤ i then .absent
  else if i < s.buf.headPt then .gone
  else (s.buf.slot i).phase

section Phase

variable {ap : WspaceAP} {R : Nat} {s s' : TxState} {i : Nat}

theorem TxState.phase_absent (h : s.buf.tailPt ≤ i) : s.phase i = .absent := if_pos h

theorem TxState.phase_window (h1 : s.buf.headPt ≤ i) (h2 : i < s.buf.tailPt) :
    s.phase i = (s.buf.slot i).phase := by
  unfold phase
  rw [if_neg (by omega), if_neg (by omega)]

theorem TxState.phase_reclaimed (h1 : i < s.buf.headPt) (h2 : i < s.buf.tailPt) :
    s.phase i = .gone := by
  unfold phase
  rw [if_neg (by omega), if_pos h1]

/-- A packet whose slot is untouched stays where it is. -/
theorem TxState.phase_congr (htail : s'.buf.tailPt ≤ i ↔ s.buf.tailPt ≤ i)
    (hhead : s'.buf.headPt = s.buf.headPt)
    (hslot : s.buf.headPt ≤ i → i < s.buf.tailPt → s'.buf.slot i = s.buf.slot i) :
    s'.phase i = s.phase i := by
  unfold phase
  by_cases h1 : s.buf.tailPt ≤ i
  · rw [if_pos (htail.mpr h1), if_pos h1]
  · rw [if_neg (fun h => h1 (htail.mp h)), if_neg h1, hhead]
    by_cases h2 : i < s.buf.headPt
    · rw [if_pos h2, if_pos h2]
    · rw [if_neg h2, if_neg h2, hslot (by omega) (by omega)]

theorem BookKeeping.phase_of_isFree {bk : BookKeeping} (h : bk.IsFree) : bk.phase = .gone := by
  rw [phase, h]

theorem BookKeeping.phase_held {bk : BookKeeping} : bk.phase.Held ↔ ¬bk.IsFree := by
  unfold phase
  cases hst : bk.status <;> simp [Packet.Held, IsFree, hst]

theorem TxState.phase_gone_of_not_held (s : TxState) (h : i < s.buf.tailPt)
    (hheld : ¬(s.phase i).Held) : s.phase i = .gone := by
  by_cases hlt : i < s.buf.headPt
  · exact phase_reclaimed hlt h
  · rw [phase_window (by omega) h] at hheld ⊢
    exact BookKeeping.phase_of_isFree (not_not.mp fun hn => hheld (BookKeeping.phase_held.mpr hn))

/-- A packet is held exactly while some slot stores it. -/
theorem TxState.WindowInv.stores_iff (hs : s.WindowInv) :
    s.stores (i + 1) ↔ (s.phase i).Held := by
  constructor
  · rintro ⟨k, hused, hseq⟩
    obtain ⟨j, h1, h2, rfl⟩ := CellRing.exists_index k s.buf.headPt
    have hlt : j < s.buf.tailPt :=
      Nat.not_le.mp fun hge => hused (hs.unused j hge h2)
    have hj : (s.buf.slot j).seqNum = j + 1 := ((hs.slot j h1 hlt).used hused).1
    have heq : j = i := by
      have : (s.buf.slot j).seqNum = i + 1 := hseq
      omega
    subst heq
    rw [phase_window h1 hlt]
    exact BookKeeping.phase_held.mpr hused
  · intro hheld
    have hlt : i < s.buf.tailPt := Nat.not_le.mp fun hge => by
      rw [phase_absent hge] at hheld
      exact hheld
    have hge : s.buf.headPt ≤ i := Nat.not_lt.mp fun h => by
      rw [phase_reclaimed h hlt] at hheld
      exact hheld
    rw [phase_window hge hlt] at hheld
    have hused := BookKeeping.phase_held.mp hheld
    exact ⟨Fin.ofNat BUF_SIZE i, hused, ((hs.slot i hge hlt).used hused).1⟩

/-- What a handler leaves in a slot is one event in the life of its packet. -/
theorem SlotMove.phase_move {acked confirmed : Prop} {bk bk' : BookKeeping}
    (h : SlotMove acked bk bk') (hconf : acked → confirmed) :
    Packet.Move R confirmed 0 bk.phase bk'.phase := by
  have hne : bk.phase ≠ .absent := by
    unfold BookKeeping.phase
    split <;> simp
  cases h with
  | stay => exact .stay _
  | release hacked => exact .confirm _ (hconf hacked) hne
  | giveUp hst hzero =>
    have hphase : bk.phase = .inFlight 0 := by rw [BookKeeping.phase, hst, hzero]
    rw [hphase]
    exact .giveUp
  | retry hst hpos =>
    obtain ⟨l, hl⟩ := Nat.exists_eq_succ_of_ne_zero hpos
    have hphase : bk.phase = .inFlight (l + 1) := by rw [BookKeeping.phase, hst, hl]
    have hphase' : ({ bk with status := .occupiedRetrans } : BookKeeping).phase =
        .waiting (l + 1) := congrArg Packet.waiting hl
    rw [hphase, hphase']
    exact .lost l

/-- The stages after a sweep. -/
theorem HandlerSweep.phase_eq {hi : Nat} {f : Nat → BookKeeping → BookKeeping}
    (h : HandlerSweep s.buf s'.buf hi f) (h1 : s.buf.headPt ≤ i) (h2 : i < s.buf.tailPt) :
    s'.phase i = (s'.buf.slot i).phase := by
  have hlt : i < s'.buf.tailPt := by rwa [h.tail]
  by_cases hgone : i < s'.buf.headPt
  · rw [TxState.phase_reclaimed hgone hlt]
    have hfree := not_not.mp (h.head.before i h1 hgone)
    exact (BookKeeping.phase_of_isFree hfree).symm
  · exact TxState.phase_window (Nat.not_lt.mp hgone) hlt

theorem HandlerSweep.phase_move {hi : Nat} {f : Nat → BookKeeping → BookKeeping}
    {acked : Prop} (hs : s.WindowInv) (h : HandlerSweep s.buf s'.buf hi f)
    (hmove : s.buf.headPt ≤ i → i < hi →
      Packet.Move R acked 0 (s.buf.slot i).phase (f i (s.buf.slot i)).phase) :
    Packet.Move R acked 0 (s.phase i) (s'.phase i) := by
  have hhead := h.head.lo_le
  have htail := hs.tail_le
  by_cases hwin : s.buf.headPt ≤ i ∧ i < s.buf.tailPt
  · obtain ⟨h1, h2⟩ := hwin
    rw [TxState.phase_window h1 h2, h.phase_eq h1 h2]
    by_cases hlt : i < hi
    · rw [h.slot_lt i h1 hlt]
      exact hmove h1 hlt
    · rw [h.slot_ge i (by omega) (by omega)]
      exact .stay _
  · by_cases hlate : s.buf.tailPt ≤ i
    · rw [TxState.phase_absent hlate, TxState.phase_absent (by rw [h.tail]; exact hlate)]
      exact .stay _
    · rw [TxState.phase_reclaimed (by omega) (by omega),
        TxState.phase_reclaimed (by omega) (by rw [h.tail]; omega)]
      exact .stay _

theorem stored_phase_move (hs : s.WindowInv) (pkt : List UInt8) (hR : s.buf.numRetrans = R)
    (hroom : s.buf.tailPt < s.buf.headPt + BUF_SIZE) (acked : Prop) (i : Nat) :
    Packet.Move R acked 0 (s.phase i) ((s.stored pkt).phase i) := by
  have hlo := hs.head_le.trans hs.highest_le
  have htail : (s.stored pkt).buf.tailPt = s.buf.tailPt + 1 := rfl
  by_cases heq : i = s.buf.tailPt
  · subst heq
    have hslot : ((s.stored pkt).buf.slot s.buf.tailPt).phase = .fresh s.buf.numRetrans :=
      congrArg BookKeeping.phase TxDataBuf.slot_setSlot_self
    have hphase : (s.stored pkt).phase s.buf.tailPt = .fresh R := by
      rw [TxState.phase_window (s := s.stored pkt) hlo (by omega), hslot, hR]
    rw [TxState.phase_absent (Nat.le_refl _), hphase]
    exact .enter
  · have hphase : (s.stored pkt).phase i = s.phase i :=
      TxState.phase_congr (by omega) rfl fun h1 h2 =>
        TxDataBuf.slot_setSlot_window _ ⟨hlo, hroom⟩ ⟨h1, by omega⟩ heq
    rw [hphase]
    exact .stay _

theorem sent_phase_move (hs : s.WindowInv) (now : TIME) (hlt : s.buf.currPt < s.buf.tailPt)
    (hpkt : (s.buf.slot s.buf.currPt).status.isPkt = true) (acked : Prop) (i : Nat) :
    Packet.Move R acked (if i = s.buf.currPt then 1 else 0) (s.phase i)
      ((s.sent now).phase i) := by
  have hok := hs.slot s.buf.currPt hs.head_le_curr hlt
  have hcurr := hs.head_le_curr
  have htail := hs.tail_le
  by_cases heq : i = s.buf.currPt
  · subst heq
    have hslot : (s.sent now).buf.slot s.buf.currPt = (s.buf.slot s.buf.currPt).sent now :=
      TxDataBuf.slot_setSlot_self
    have hphase : (s.sent now).phase s.buf.currPt =
        .inFlight ((s.buf.slot s.buf.currPt).sent now).numRetrans := by
      rw [TxState.phase_window (s := s.sent now) hcurr hlt, hslot]
      rfl
    rw [if_pos rfl, TxState.phase_window hcurr hlt, hphase]
    cases hst : (s.buf.slot s.buf.currPt).status with
    | empty => simp [Status.isPkt, hst] at hpkt
    | occupiedOutbound => simp [Status.isPkt, hst] at hpkt
    | occupiedNew =>
      rw [BookKeeping.phase, hst, BookKeeping.sent, hst]
      exact .first _
    | occupiedRetrans =>
      -- a marked packet has a retransmission left
      obtain ⟨l, hl⟩ := Nat.exists_eq_add_of_lt (hok.retrans hst).2
      rw [BookKeeping.phase, hst, BookKeeping.sent, hst, hl, Nat.zero_add]
      exact .again l
  · have hphase : (s.sent now).phase i = s.phase i :=
      TxState.phase_congr Iff.rfl rfl fun h1 h2 =>
        TxDataBuf.slot_setSlot_window _ ⟨hcurr, by omega⟩ ⟨h1, by omega⟩ heq
    rw [if_neg heq, hphase]
    exact .stay _

theorem History.handOuts_append (h : History) (n m : Nat) (st : Status) :
    History.handOuts { h with handedOut := h.handedOut ++ [⟨n, st⟩] } m =
      h.handOuts m + if n = m then 1 else 0 := by
  simp [handOuts, List.count_singleton]

/-- Every operation moves every packet by one event of its life, or not at all. -/
theorem Effect.phase_move {input : TxInput} (hs : s.WindowInv) (hR : s.buf.numRetrans = R)
    (h : Effect ap s input s') (i : Nat) :
    ∃ k, Packet.Move R (s'.history.Acked (i + 1)) k (s.phase i) (s'.phase i) ∧
      s'.history.handOuts (i + 1) = s.history.handOuts (i + 1) + k := by
  cases h with
  | dropped pkt _ => exact ⟨0, .stay _, rfl⟩
  | stored pkt hroom _ _ _ => exact ⟨0, stored_phase_move hs pkt hR hroom _ i, rfl⟩
  | skipped now hlt hpkt => exact ⟨0, .stay _, rfl⟩
  | sent now hlt hpkt =>
    refine ⟨_, sent_phase_move hs now hlt hpkt _ i, ?_⟩
    refine (s.history.handOuts_append _ (i + 1) _).trans ?_
    simp [eq_comm]
  | refused now ack s' hacc hbuf hhist =>
    refine ⟨0, ?_, by rw [hhist]; rfl⟩
    have hphase : s'.phase i = s.phase i := by simp only [TxState.phase, hbuf]
    rw [hphase]
    exact .stay _
  | acked now ack s' hacc hfits hwf hbuf hhist =>
    obtain ⟨-, -, hbulk, -⟩ := hfits.bulkHead_spec
    have hsw : HandlerSweep s.buf s'.buf ack.endSeq _ := hbuf ▸ applyDataAck_sweep hfits
    refine ⟨0, hsw.phase_move hs fun h1 h2 => ?_, by rw [hhist]; rfl⟩
    -- a slot that is not nacked is released by this ack
    refine (ackImage_move now ack (s.buf.slot i) (hbulk i h1)).phase_move fun hnot => ?_
    rw [hhist]
    exact ⟨ack, List.mem_append_right _ (List.mem_singleton_self ack), h2, hnot⟩
  | timedOut now s' hsw hhist =>
    refine ⟨0, hsw.phase_move hs fun _ _ => ?_, by rw [hhist]; rfl⟩
    exact ((s.buf.slot i).afterTimeOut_move ap now).phase_move False.elim

/-- An accepted ack stays in the history. -/
theorem Effect.acked_mono {input : TxInput} (h : Effect ap s input s') (n : Nat)
    (hacked : s.history.Acked n) : s'.history.Acked n := by
  cases h with
  | dropped pkt _ => exact hacked
  | stored pkt _ _ _ _ => exact hacked
  | skipped now _ _ => exact hacked
  | sent now _ _ => exact hacked
  | refused now ack s' _ _ hhist => rwa [hhist]
  | acked now ack s' _ _ _ _ hhist =>
    obtain ⟨a, ha, hn⟩ := hacked
    rw [hhist]
    exact ⟨a, List.mem_append_left _ ha, hn⟩
  | timedOut now s' _ hhist => rwa [hhist]

theorem Effect.numRetrans_eq {input : TxInput} (h : Effect ap s input s') :
    s'.buf.numRetrans = s.buf.numRetrans := by
  cases h with
  | dropped pkt _ => rfl
  | stored pkt _ _ _ _ => rfl
  | skipped now _ _ => rfl
  | sent now _ _ => rfl
  | refused now ack s' _ hbuf _ => rw [hbuf]
  | acked now ack s' _ hfits _ hbuf _ => rw [hbuf, (applyDataAck_sweep hfits).numRetrans]
  | timedOut now s' hsw _ => rw [hsw.numRetrans]

theorem Effect.enqueued_eq {input : TxInput} (h : Effect ap s input s') :
    s'.history.enqueued = s.history.enqueued ∨
      ∃ pkt, s'.history.enqueued = s.history.enqueued ++ [(s.buf.tailPt + 1, pkt)] := by
  cases h with
  | dropped pkt _ => exact .inl rfl
  | stored pkt _ _ _ _ => exact .inr ⟨pkt, rfl⟩
  | skipped now _ _ => exact .inl rfl
  | sent now _ _ => exact .inl rfl
  | refused now ack s' _ _ hhist => exact .inl (by rw [hhist])
  | acked now ack s' _ _ _ _ hhist => exact .inl (by rw [hhist])
  | timedOut now s' _ hhist => exact .inl (by rw [hhist])

/-- What is known of every packet in every reachable state. -/
structure TxState.DeliveryInv (R : Nat) (s : TxState) : Prop where
  numRetrans : s.buf.numRetrans = R
  accounts : ∀ i, (s.phase i).Accounts R (s.history.handOuts (i + 1)) (s.history.Acked (i + 1))
  enqueued : ∀ n pkt, (n, pkt) ∈ s.history.enqueued → 1 ≤ n ∧ n ≤ s.history.enqueued.length

theorem deliveryInv_of_reachable (h : (txMachine ap R).Reachable s) : s.DeliveryInv R := by
  refine h.invariant ?_ ?_
  · rintro s ⟨boot, rfl⟩
    refine ⟨rfl, fun i => ?_, fun n pkt h => absurd h (List.not_mem_nil)⟩
    rw [TxState.phase_absent (Nat.zero_le i)]
    rfl
  · intro s input s' hr hs hen hexec
    have hinv := windowInv_of_reachable hr
    have heff := effect_of_exec hinv hen hexec
    refine ⟨heff.numRetrans_eq.trans hs.numRetrans, fun i => ?_, fun n pkt hmem => ?_⟩
    · obtain ⟨k, hmove, hcount⟩ := heff.phase_move hinv hs.numRetrans i
      rw [hcount]
      exact hmove.accounts (hs.accounts i) (heff.acked_mono (i + 1))
    · obtain heq | ⟨new, heq⟩ := heff.enqueued_eq
      · rw [heq] at hmem ⊢
        exact hs.enqueued n pkt hmem
      · rw [heq, List.mem_append, List.mem_singleton] at hmem
        rw [heq, List.length_append, List.length_singleton]
        obtain hold | hnew := hmem
        · have := hs.enqueued n pkt hold
          omega
        · have htail := hinv.tail_eq
          cases hnew
          omega

/-- Every enqueued packet is handed out at most `1 + R` times; a slot lets go of it only when an
accepted ack confirms it or when it has been handed out exactly `1 + R` times, and a packet that no
slot stores any more was lost to nothing else. -/
theorem txMachine_delivery (h : (txMachine ap R).Reachable s) {n : Nat} {pkt : List UInt8}
    (hn : (n, pkt) ∈ s.history.enqueued) :
    s.history.handOuts n ≤ 1 + R ∧
    (s.stores n ∨ s.history.Acked n ∨ s.history.handOuts n = 1 + R) ∧
    (∀ input s', (txMachine ap R).enabled s input → (txMachine ap R).exec s input = .ok s' →
      s.stores n → ¬s'.stores n → s'.history.Acked n ∨ s.history.handOuts n = 1 + R) := by
  have hinv := windowInv_of_reachable h
  have hdel := deliveryInv_of_reachable h
  have hrange := hdel.enqueued n pkt hn
  obtain ⟨i, rfl⟩ : ∃ i, n = i + 1 := ⟨n - 1, by omega⟩
  have hacc := hdel.accounts i
  refine ⟨hacc.sends_le, ?_, fun input s' hen hexec hheld hlost => ?_⟩
  · by_cases hheld : (s.phase i).Held
    · exact .inl (hinv.stores_iff.mpr hheld)
    · have htail := hinv.tail_eq
      exact .inr (hacc.gone (s.phase_gone_of_not_held (by omega) hheld))
  · have heff := effect_of_exec hinv hen hexec
    obtain ⟨k, hmove, -⟩ := heff.phase_move hinv hdel.numRetrans i
    exact hmove.of_lost hacc (hinv.stores_iff.mp hheld)
      fun hc => hlost ((heff.windowInv hinv).stores_iff.mpr hc)

theorem txMachine_delivery_oneSent :
    oneSent.history.handOuts 1 ≤ 1 + 2 ∧
      (oneSent.stores 1 ∨ oneSent.history.Acked 1 ∨ oneSent.history.handOuts 1 = 1 + 2) := by
  have hmem : (1, [7]) ∈ oneSent.history.enqueued := by decide
  obtain ⟨hle, hkept, -⟩ := txMachine_delivery (oneSent_reachable ⟨2, 10, 3⟩) hmem
  exact ⟨hle, hkept⟩

end Phase

end WspaceScout
