import WspaceScout.AsymUtil.TxRawBuf
import WspaceScout.Foundation.Consecutive

/-!
# Raw acks that the buffer rejects

`PushPkts` marks the nacks one by one and looks up the window of the ack afterwards. An ack that it
rejects with a warning may have marked records by then.

## Main definitions

- `TxRawBuf.Warns` — the call ends in one of the two warnings
- `TxRawBuf.markedInds` — the records that the loop over the nacks reaches
- `TxRawBuf.Markable` — no assertion of the loop fails

## Main results

- `TxRawBuf.pushPkts_unchanged_iff` — when a rejected ack leaves the buffer alone
-/

namespace WspaceScout

open Foundation

namespace TxRawBuf

variable {b b' : TxRawBuf} {ack : RawAck} {nacks : List Nat}

/-- `begin_seq`. -/
def beginSeq (ack : RawAck) : Nat := uint32 (uint32Sub ack.endSeq ack.numPkts + 1)

/-- One of the two early returns of `PushPkts` is taken. -/
def Warns (b : TxRawBuf) (ack : RawAck) : Prop :=
  ∃ marked full, b.markNacks ack.nackArr = .ok (marked, full) ∧
    (full = true → marked.getInd (beginSeq ack) < 0 ∨ marked.getInd ack.endSeq < 0)

/-- The status of the record at a position. -/
def statusAt (b : TxRawBuf) (i : Nat) : Option RawStatus :=
  (b.infoDeq[i]?).map RawPktSendStatus.status

/-- The positions of the nacks in front of the first one that is not in the deque. -/
def markedInds (b : TxRawBuf) (nacks : List Nat) : List Nat :=
  (nacks.takeWhile fun nack => 0 ≤ b.getInd nack).map fun nack => (b.getInd nack).toNat

/-- The loop over the nacks reaches each record once and finds it unknown. -/
def Markable (b : TxRawBuf) (nacks : List Nat) : Prop :=
  (b.markedInds nacks).Nodup ∧ ∀ i ∈ b.markedInds nacks, b.statusAt i = some .unknown

/-- All that the ack names is in the deque. -/
def Names (b : TxRawBuf) (ack : RawAck) : Prop :=
  (∀ nack ∈ ack.nackArr, 0 ≤ b.getInd nack) ∧ 0 ≤ b.getInd (beginSeq ack) ∧
    0 ≤ b.getInd ack.endSeq

/-! ### The loop over the nacks -/

/-- Lookup reads the length and the first number only. -/
theorem getInd_congr (h : b'.sent = b.sent) (seq : Nat) : b'.getInd seq = b.getInd seq := by
  have hlen : b'.infoDeq.length = b.infoDeq.length := by
    have := congrArg List.length h
    rwa [sent, sent, List.length_map, List.length_map] at this
  have hhead := congrArg (fun l => l.head?.map RawPktSendStatus.seq) h
  simp only [sent, List.head?_map] at hhead
  unfold getInd
  cases hb : b.infoDeq with
  | nil =>
    rw [hb] at hlen
    rw [List.length_eq_zero_iff.mp hlen]
  | cons front rest =>
    cases hb' : b'.infoDeq with
    | nil => simp [hb, hb'] at hlen
    | cons front' rest' =>
      have hfront : front'.seq = front.seq := by
        simpa [hb, hb', RawPktSendStatus.asSent] using hhead
      rw [hb, hb'] at hlen
      simp only [hfront, hlen]

@[simp]
theorem getInd_setStatus (b : TxRawBuf) (ind : Nat) (status : RawStatus) (seq : Nat) :
    (b.setStatus ind status).getInd seq = b.getInd seq :=
  getInd_congr (b.sent_setStatus ind status) seq

@[simp]
theorem markedInds_setStatus (b : TxRawBuf) (ind : Nat) (status : RawStatus) (nacks : List Nat) :
    (b.setStatus ind status).markedInds nacks = b.markedInds nacks := by
  unfold markedInds
  simp only [getInd_setStatus]

theorem statusAt_setStatus (b : TxRawBuf) (ind : Nat) (status : RawStatus) (i : Nat) :
    (b.setStatus ind status).statusAt i =
      if ind = i then (b.statusAt i).map fun _ => status else b.statusAt i := by
  rw [statusAt, setStatus, statusAt, List.getElem?_modify]
  cases b.infoDeq[i]? with
  | none => simp
  | some r => by_cases hi : ind = i <;> simp [hi]

@[simp]
theorem markedInds_nil (b : TxRawBuf) : b.markedInds [] = [] := rfl

theorem markedInds_cons_of_neg {nack : Nat} (h : b.getInd nack < 0) :
    b.markedInds (nack :: nacks) = [] := by
  have hneg : ¬(0 ≤ b.getInd nack) := by omega
  simp [markedInds, hneg]

theorem markedInds_cons_of_nonneg {nack : Nat} (h : 0 ≤ b.getInd nack) :
    b.markedInds (nack :: nacks) = (b.getInd nack).toNat :: b.markedInds nacks := by
  simp [markedInds, h]

/-- Marking a record takes it out of the ones that may be marked. -/
theorem markable_setStatus {ind : Nat} (hind : b.statusAt ind = some .unknown) :
    (b.setStatus ind .bad).Markable nacks ↔ ind ∉ b.markedInds nacks ∧ b.Markable nacks := by
  simp only [Markable, markedInds_setStatus, statusAt_setStatus]
  constructor
  · intro ⟨hnodup, hall⟩
    have hnot : ind ∉ b.markedInds nacks := by
      intro hmem
      have := hall ind hmem
      simp [hind] at this
    refine ⟨hnot, hnodup, ?_⟩
    intro i hi
    have hne : ind ≠ i := fun heq => hnot (heq ▸ hi)
    simpa only [if_neg hne] using hall i hi
  · intro ⟨hnot, hnodup, hall⟩
    refine ⟨hnodup, ?_⟩
    intro i hi
    have hne : ind ≠ i := fun heq => hnot (heq ▸ hi)
    rw [if_neg hne]
    exact hall i hi

/-- The loop runs to its end or to the first absent nack exactly if its assertions hold. -/
theorem markNacks_ok_iff :
    (∃ marked full, b.markNacks nacks = .ok (marked, full)) ↔ b.Markable nacks := by
  induction nacks generalizing b with
  | nil => simp [markNacks, Markable]
  | cons nack nacks ih =>
    by_cases hneg : b.getInd nack < 0
    · simp [markNacks, hneg, Markable, markedInds_cons_of_neg hneg]
    · have hcons : b.markedInds (nack :: nacks) = (b.getInd nack).toNat :: b.markedInds nacks :=
        markedInds_cons_of_nonneg (Int.not_lt.mp hneg)
      by_cases hunknown : b.statusAt (b.getInd nack).toNat = some .unknown
      · have hstep : b.markNacks (nack :: nacks) =
            (b.setStatus (b.getInd nack).toNat .bad).markNacks nacks := by
          rw [statusAt] at hunknown
          simp only [markNacks, if_neg hneg, if_pos hunknown]
        rw [hstep, ih, markable_setStatus hunknown]
        simp only [Markable, hcons, List.nodup_cons, List.forall_mem_cons, hunknown, true_and]
        tauto
      · have hstep : b.markNacks (nack :: nacks) = .error .statusKnown := by
          rw [statusAt] at hunknown
          simp only [markNacks, if_neg hneg, if_neg hunknown]
        simp [hstep, Markable, hcons, hunknown]

/-- The flag says whether all nacks were found. -/
theorem markNacks_full {full : Bool} (h : b.markNacks nacks = .ok (b', full)) :
    full = true ↔ ∀ nack ∈ nacks, 0 ≤ b.getInd nack := by
  induction nacks generalizing b with
  | nil =>
    cases h
    simp
  | cons nack nacks ih =>
    simp only [markNacks] at h
    split at h
    · rename_i hneg
      cases h
      simp only [Bool.false_eq_true, List.forall_mem_cons, false_iff]
      omega
    · rename_i hneg
      split at h
      · rw [ih h, List.forall_mem_cons]
        simp only [getInd_setStatus]
        exact ⟨fun hnacks => ⟨Int.not_lt.mp hneg, hnacks⟩, fun hnacks => hnacks.2⟩
      · cases h

/-- A mark stays. -/
theorem markNacks_bad {full : Bool} {i : Nat} (h : b.markNacks nacks = .ok (b', full))
    (hbad : b.statusAt i = some .bad) : b'.statusAt i = some .bad := by
  induction nacks generalizing b with
  | nil =>
    cases h
    exact hbad
  | cons nack nacks ih =>
    simp only [markNacks] at h
    split at h
    · cases h
      exact hbad
    · split at h
      · apply ih h
        rw [statusAt_setStatus, hbad]
        simp
      · cases h

/-- Every record that the loop reaches is marked. -/
theorem markNacks_marks {full : Bool} (h : b.markNacks nacks = .ok (b', full)) :
    ∀ i ∈ b.markedInds nacks, b'.statusAt i = some .bad := by
  induction nacks generalizing b with
  | nil => simp
  | cons nack nacks ih =>
    simp only [markNacks] at h
    split at h
    · rename_i hneg
      simp [markedInds_cons_of_neg hneg]
    · rename_i hneg
      split at h
      · rename_i hunknown
        rw [markedInds_cons_of_nonneg (Int.not_lt.mp hneg), List.forall_mem_cons]
        refine ⟨?_, ?_⟩
        · apply markNacks_bad h
          rw [statusAt_setStatus, if_pos rfl, statusAt, hunknown]
          rfl
        · simpa using ih h
      · cases h

/-- A loop that reaches no record changes nothing. -/
theorem markNacks_none {full : Bool} (h : b.markNacks nacks = .ok (b', full))
    (hnone : b.markedInds nacks = []) : b' = b := by
  cases nacks with
  | nil =>
    cases h
    rfl
  | cons nack nacks =>
    by_cases hneg : b.getInd nack < 0
    · simp only [markNacks, if_pos hneg] at h
      cases h
      rfl
    · rw [markedInds_cons_of_nonneg (Int.not_lt.mp hneg)] at hnone
      cases hnone

/-! ### The whole call -/

/-- A call that warns returns the buffer as the loop left it. -/
theorem pushPkts_warned {full : Bool} (hmark : b.markNacks ack.nackArr = .ok (b', full))
    (hwarn : full = true → b'.getInd (beginSeq ack) < 0 ∨ b'.getInd ack.endSeq < 0) :
    b.pushPkts ack = .ok b' := by
  rw [pushPkts, hmark]
  cases full with
  | false => rfl
  | true => exact if_pos (hwarn rfl)

/-- A call warns exactly if its assertions hold and it names what is not in the deque. -/
theorem warns_iff : b.Warns ack ↔ b.Markable ack.nackArr ∧ ¬b.Names ack := by
  constructor
  · intro ⟨marked, full, hmark, hwarn⟩
    refine ⟨markNacks_ok_iff.mp ⟨marked, full, hmark⟩, ?_⟩
    intro ⟨hnacks, hbegin, hend⟩
    have hfull := (markNacks_full hmark).mpr hnacks
    have hind := getInd_congr (markNacks_sent hmark)
    have := hwarn hfull
    rw [hind, hind] at this
    omega
  · intro ⟨hmarkable, hnames⟩
    obtain ⟨marked, full, hmark⟩ := markNacks_ok_iff.mpr hmarkable
    refine ⟨marked, full, hmark, ?_⟩
    intro hfull
    have hind := getInd_congr (markNacks_sent hmark)
    have hnacks := (markNacks_full hmark).mp hfull
    rw [hind, hind]
    by_contra hcon
    exact hnames ⟨hnacks, by omega, by omega⟩

/-- A rejected ack leaves the buffer as it was exactly if its loop reaches no record, or there is no
rejection: the ack names records of the deque only, or an assertion stops the loop. -/
theorem pushPkts_unchanged_iff (b : TxRawBuf) (ack : RawAck) :
    (b.Warns ack → b.pushPkts ack = .ok b) ↔
      b.markedInds ack.nackArr = [] ∨ b.Names ack ∨ ¬b.Markable ack.nackArr := by
  constructor
  · intro h
    by_contra hcon
    obtain ⟨hsome, hnames, hmarkable⟩ : b.markedInds ack.nackArr ≠ [] ∧ ¬b.Names ack ∧
        b.Markable ack.nackArr := by tauto
    have hwarns := warns_iff.mpr ⟨hmarkable, hnames⟩
    obtain ⟨marked, full, hmark, hwarn⟩ := hwarns
    obtain ⟨i, hi⟩ := List.exists_mem_of_ne_nil _ hsome
    -- the record at `i` was unknown and is bad now
    have hbad := markNacks_marks hmark i hi
    have hsame : Except.ok marked = (Except.ok b : Except RawFault TxRawBuf) :=
      (pushPkts_warned hmark hwarn).symm.trans (h ⟨marked, full, hmark, hwarn⟩)
    cases hsame
    rw [hmarkable.2 i hi] at hbad
    cases hbad
  · rintro hcond ⟨marked, full, hmark, hwarn⟩
    rw [pushPkts_warned hmark hwarn]
    rcases hcond with hnone | hnames | hmarkable
    · rw [markNacks_none hmark hnone]
    · exact absurd hnames (warns_iff.mp ⟨marked, full, hmark, hwarn⟩).2
    · exact absurd (markNacks_ok_iff.mp ⟨marked, full, hmark⟩) hmarkable

/-- Three records on the air. -/
def threeUnknown : TxRawBuf :=
  ⟨[⟨5, 60, 100, .unknown, ⟨0, 0⟩⟩, ⟨6, 60, 100, .unknown, ⟨0, 1⟩⟩, ⟨7, 60, 100, .unknown, ⟨0, 2⟩⟩]⟩

/-- A late ack: the records 3 and 4 of its window have left the deque. -/
def lateAck : RawAck := ⟨6, 4, [5]⟩

/-- The late ack is rejected and marks record 5 all the same, and the next ack that names the
record stops the program. -/
theorem pushPkts_lateAck_marks :
    Consecutive RawPktSendStatus.seq 5 threeUnknown.infoDeq ∧ threeUnknown.Warns lateAck ∧
      threeUnknown.pushPkts lateAck = .ok (threeUnknown.setStatus 0 .bad) ∧
      threeUnknown.pushPkts lateAck ≠ .ok threeUnknown ∧
      (threeUnknown.setStatus 0 .bad).pushPkts ⟨7, 3, [5]⟩ = .error .statusKnown := by
  have hmark : threeUnknown.markNacks lateAck.nackArr = .ok (threeUnknown.setStatus 0 .bad, true) :=
    rfl
  have hwarn : (threeUnknown.setStatus 0 .bad).getInd (beginSeq lateAck) < 0 := by decide
  refine ⟨rfl, ⟨_, _, hmark, fun _ => .inl hwarn⟩, rfl, ?_, rfl⟩
  intro h
  cases h

end TxRawBuf

end WspaceScout
