import WspaceScout.DataPath.Window

/-!
# Two producers on one buffer

`TxRcvCell` and `TxSendProbe` both call `EnqueuePkt`. The sequence number is read from `tail_pt`
before the queue lock is taken, so a call that is overtaken by another one stores its packet under a
number that does not belong to its slot.

`producerMachine` splits each call into reading `tail_pt`, the section under the queue lock and the
store under the element lock. The other threads appear as `Serves` steps, which may free slots, hand
packets out and move the cursors `headPt` and `currPt`.

## Main definitions

- `producerMachine` — the machine
- `ProducerState.NotOvertaken` — the side condition on `AcquireTailLock`

## Main results

- `Effect.serves` — the operations of the other threads are `Serves` steps
- `producerMachine_seqNum` — numbers and slots agree while no call is overtaken
- `producerMachine_overtaken` — a run in which one is
-/

namespace WspaceScout

open Foundation

/-- The threads that call `EnqueuePkt`. -/
inductive Producer where
  | txRcvCell
  | txSendProbe
  deriving DecidableEq, Repr

/-- Where a producer is in `EnqueuePkt`. `overtaken` records whether another call has reserved a
slot since `seqNum` was read. The source keeps the reserved `index` modulo `BUF_SIZE`. -/
inductive EnqueueCall where
  | idle
  | read (seqNum : Nat) (pkt : List UInt8) (overtaken : Bool)
  | reserved (index seqNum : Nat) (pkt : List UInt8)
  deriving DecidableEq, Repr

/-- The buffer, the producers, and the index and sequence number of every packet stored so far. -/
structure ProducerState where
  buf : TxDataBuf
  call : Producer → EnqueueCall
  stored : List (Nat × Nat)

/-- The steps of a call, and a step of the other threads that leaves the buffer `b`. -/
inductive ProducerInput where
  | readTail (p : Producer) (pkt : List UInt8)
  | acquireTailLock (p : Producer)
  | storePkt (p : Producer)
  | serve (b : TxDataBuf)

/-- What the other threads do to the buffer: a slot in use stays as it is numbered, or is freed. -/
structure TxDataBuf.Serves (b b' : TxDataBuf) : Prop where
  tail : b'.tailPt = b.tailPt
  cell : ∀ k : Fin BUF_SIZE, (b'.bookKeepArr k).status ≠ .empty →
    (b.bookKeepArr k).status ≠ .empty ∧ (b'.bookKeepArr k).seqNum = (b.bookKeepArr k).seqNum

namespace EnqueueCall

/-- Another call has reserved a slot. -/
def overtake : EnqueueCall → EnqueueCall
  | .read seqNum pkt _ => .read seqNum pkt true
  | c => c

variable {c : EnqueueCall} {i n : Nat} {pkt : List UInt8} {overtaken : Bool}

theorem overtake_eq_reserved : c.overtake = .reserved i n pkt ↔ c = .reserved i n pkt := by
  cases c <;> simp [overtake]

theorem overtake_eq_read (h : c.overtake = .read n pkt overtaken) :
    overtaken = true ∧ ∃ before, c = .read n pkt before := by
  cases c with
  | idle | reserved => cases h
  | read n' pkt' before =>
    cases h
    exact ⟨rfl, before, rfl⟩

end EnqueueCall

namespace ProducerState

/-- Producer `p` goes on with `c`. -/
def setCall (s : ProducerState) (p : Producer) (c : EnqueueCall) : ProducerState :=
  { s with call := Function.update s.call p c }

/-- The section of `AcquireTailLock`; the packet is dropped if the buffer is full. -/
def acquire (s : ProducerState) (p : Producer) (seqNum : Nat) (pkt : List UInt8) :
    ProducerState :=
  match s.buf.acquireTailLock with
  | none => s.setCall p .idle
  | some (_, b) =>
    { s with
      buf := b
      call := Function.update (fun q => (s.call q).overtake) p
        (.reserved s.buf.tailPt seqNum pkt) }

end ProducerState

def execProducer (s : ProducerState) : ProducerInput → Except Fault ProducerState
  | .readTail p pkt => .ok (s.setCall p (.read (uint32 (s.buf.tailPt + 1)) pkt false))
  | .acquireTailLock p =>
    match s.call p with
    | .read seqNum pkt _ => .ok (s.acquire p seqNum pkt)
    | _ => .ok s
  | .storePkt p =>
    match s.call p with
    | .reserved index seqNum pkt =>
      match s.buf.storePkt (index % BUF_SIZE) seqNum pkt with
      | .error e => .error e
      | .ok b => .ok { s.setCall p .idle with
          buf := b
          stored := s.stored ++ [(index, seqNum)] }
    | _ => .ok s
  | .serve b => .ok { s with buf := b }

/-- A call goes through its steps in order; the lock of a reserved slot is held until the packet is
stored. -/
def enabledProducer (s : ProducerState) : ProducerInput → Prop
  | .readTail p _ => s.call p = .idle
  | .acquireTailLock p => (∃ n pkt overtaken, s.call p = .read n pkt overtaken) ∧
      ∀ q i n pkt, s.call q = .reserved i n pkt → i % BUF_SIZE ≠ s.buf.tailPt % BUF_SIZE
  | .storePkt p => ∃ i n pkt, s.call p = .reserved i n pkt
  | .serve b => s.buf.Serves b

/-- The two producers with the other threads. -/
def producerMachine (R : Nat) : Machine ProducerState ProducerInput Fault where
  init s := ∃ boot, s = ⟨.init boot R, fun _ => .idle, []⟩
  enabled := enabledProducer
  exec := execProducer

/-- A slot is reserved only for a call that has not been overtaken, and before `tail_pt` wraps. -/
def ProducerState.NotOvertaken (s : ProducerState) : ProducerInput → Prop
  | .acquireTailLock p => s.buf.isFull = false →
      s.buf.tailPt + 1 < 4294967296 ∧ ∀ n pkt, s.call p ≠ .read n pkt true
  | _ => True

theorem ProducerState.acquire_full {s : ProducerState} {p : Producer} {n : Nat} {pkt : List UInt8}
    (hfull : s.buf.isFull = true) : s.acquire p n pkt = s.setCall p .idle := by
  unfold acquire TxDataBuf.acquireTailLock
  rw [if_pos hfull]

theorem ProducerState.acquire_room {s : ProducerState} {p : Producer} {n : Nat} {pkt : List UInt8}
    (hroom : s.buf.isFull = false) : s.acquire p n pkt =
      { s with
        buf := { s.buf with tailPt := uint32 (s.buf.tailPt + 1) }
        call := Function.update (fun q => (s.call q).overtake) p
          (.reserved s.buf.tailPt n pkt) } := by
  unfold acquire TxDataBuf.acquireTailLock
  rw [if_neg (by simp [hroom])]

/-- A call that nothing comes in between of is `EnqueuePkt`. -/
theorem execProducer_call (s : ProducerState) (p : Producer) (pkt : List UInt8) :
    (do
      let s ← execProducer s (.readTail p pkt)
      let s ← execProducer s (.acquireTailLock p)
      let s ← execProducer s (.storePkt p)
      .ok s.buf) = s.buf.enqueuePkt pkt := by
  have hread : (s.setCall p (.read (uint32 (s.buf.tailPt + 1)) pkt false)).call p =
      .read (uint32 (s.buf.tailPt + 1)) pkt false := Function.update_self _ _ _
  have hbuf : ∀ c, (s.setCall p c).buf = s.buf := fun _ => rfl
  unfold TxDataBuf.enqueuePkt TxDataBuf.acquireTailLock
  simp only [bind, Except.bind, execProducer, hread]
  cases hfull : s.buf.isFull with
  | true =>
    rw [ProducerState.acquire_full (by rw [hbuf, hfull])]
    simp [ProducerState.setCall]
  | false =>
    rw [ProducerState.acquire_room (by rw [hbuf, hfull])]
    simp only [Function.update_self, hbuf, Bool.false_eq_true, if_false]
    cases TxDataBuf.storePkt { s.buf with tailPt := uint32 (s.buf.tailPt + 1) }
      (s.buf.tailPt % BUF_SIZE) (uint32 (s.buf.tailPt + 1)) pkt <;> rfl

/-- The operations of the other threads are `Serves` steps. -/
theorem Effect.serves {ap : WspaceAP} {t t' : TxState} {input : TxInput} (h : Effect ap t input t')
    (hne : ∀ pkt, input ≠ .enqueue pkt) : t.buf.Serves t'.buf := by
  have hsweep : ∀ {hi f}, HandlerSweep t.buf t'.buf hi f →
      (∀ i, t.buf.headPt ≤ i → i < hi →
        ∃ acked, SlotMove acked (t.buf.slot i) (f i (t.buf.slot i))) → t.buf.Serves t'.buf :=
    fun {hi f} hsw hmove => ⟨hsw.tail, fun k hk => by
      obtain ⟨i, h1, h2, rfl⟩ := CellRing.exists_index k t.buf.headPt
      by_cases hlt : i < hi
      · obtain ⟨acked, hm⟩ := hmove i h1 hlt
        rw [← hsw.slot_lt i h1 hlt] at hm
        obtain ⟨hused, hseq, -⟩ := hm.used hk
        exact ⟨hused, hseq⟩
      · have heq : t'.buf.slot i = t.buf.slot i := hsw.slot_ge i (by omega) h2
        have hk' : (t'.buf.slot i).status ≠ .empty := hk
        rw [heq] at hk'
        exact ⟨hk', congrArg BookKeeping.seqNum heq⟩⟩
  cases h with
  | dropped pkt _ => exact absurd rfl (hne pkt)
  | stored pkt _ _ _ _ => exact absurd rfl (hne pkt)
  | skipped now _ _ => exact ⟨rfl, fun k hk => ⟨hk, rfl⟩⟩
  | sent now hlt hpkt =>
    refine ⟨rfl, fun k hk => ?_⟩
    by_cases heq : k = Fin.ofNat BUF_SIZE t.buf.currPt
    · subst heq
      refine ⟨fun hfree => ?_, ?_⟩
      · have hst : (t.buf.slot t.buf.currPt).status = .empty := hfree
        simp [Status.isPkt, hst] at hpkt
      · have hself : (t.sent now).buf.slot t.buf.currPt = (t.buf.slot t.buf.currPt).sent now :=
          TxDataBuf.slot_setSlot_self
        have hseq := congrArg BookKeeping.seqNum hself
        exact hseq
    · have hcell : (t.sent now).buf.bookKeepArr k = t.buf.bookKeepArr k :=
        Function.update_of_ne heq _ _
      rw [hcell] at hk ⊢
      exact ⟨hk, rfl⟩
  | refused now ack _ _ hbuf _ =>
    rw [hbuf]
    exact ⟨rfl, fun k hk => ⟨hk, rfl⟩⟩
  | acked now ack _ _ hfits _ hbuf _ =>
    obtain ⟨-, -, hbulk, -⟩ := hfits.bulkHead_spec
    exact hsweep (hbuf ▸ applyDataAck_sweep hfits)
      fun i h1 _ => ⟨_, ackImage_move now ack (t.buf.slot i) (hbulk i h1)⟩
  | timedOut now _ hsw _ =>
    exact hsweep hsw fun i _ _ => ⟨_, (t.buf.slot i).afterTimeOut_move ap now⟩

/-! ### The invariant -/

/-- Numbers, reservations and slots agree. -/
structure ProducerState.NumberInv (s : ProducerState) : Prop where
  tail_lt : s.buf.tailPt < 4294967296
  read : ∀ p n pkt, s.call p = .read n pkt false → n = uint32 (s.buf.tailPt + 1)
  late : ∀ p n pkt, s.call p = .read n pkt true → n ≤ s.buf.tailPt
  reserved : ∀ p i n pkt, s.call p = .reserved i n pkt →
    n = i + 1 ∧ i < s.buf.tailPt ∧ s.buf.tailPt ≤ i + BUF_SIZE
  stored : ∀ e ∈ s.stored, e.2 = e.1 + 1
  complete : ∀ i, i < s.buf.tailPt →
    i ∈ s.stored.map Prod.fst ∨ ∃ p n pkt, s.call p = .reserved i n pkt
  slot : ∀ i, i < s.buf.tailPt → s.buf.tailPt ≤ i + BUF_SIZE →
    (∀ p n pkt, s.call p ≠ .reserved i n pkt) →
    (s.buf.slot i).status = .empty ∨ (s.buf.slot i).seqNum = i + 1
  cell : ∀ k : Fin BUF_SIZE, (s.buf.bookKeepArr k).status ≠ .empty →
    ∃ i, Fin.ofNat BUF_SIZE i = k ∧ (s.buf.bookKeepArr k).seqNum = i + 1

section Steps

variable {s s' : ProducerState} {p q : Producer} {c c' : EnqueueCall} {i n : Nat}
  {pkt : List UInt8}

/-- A call after producer `p` went on with `c` is this one, or one of the other producer. -/
theorem updated_call {f : Producer → EnqueueCall} (h : Function.update f p c q = c') :
    q = p ∧ c = c' ∨ q ≠ p ∧ f q = c' := by
  by_cases heq : q = p
  · rw [heq, Function.update_self] at h
    exact .inl ⟨heq, h⟩
  · rw [Function.update_of_ne heq] at h
    exact .inr ⟨heq, h⟩

namespace ProducerState

theorem setCall_of_ne (h : q ≠ p) : (s.setCall p c).call q = s.call q :=
  Function.update_of_ne h _ _

/-- A call that is dropped or begins anew concerns no reservation. -/
theorem numberInv_setCall (hs : s.NumberInv) (hold : ∀ i n pkt, s.call p ≠ .reserved i n pkt)
    (hnew : ∀ i n pkt, c ≠ .reserved i n pkt)
    (hread : ∀ n pkt o, c = .read n pkt o → o = false ∧ n = uint32 (s.buf.tailPt + 1)) :
    (s.setCall p c).NumberInv := by
  have hkept : ∀ q i n pkt, s.call q = .reserved i n pkt →
      (s.setCall p c).call q = .reserved i n pkt := by
    intro q i n pkt hq
    have hqp : q ≠ p := fun h => hold i n pkt (h ▸ hq)
    rw [setCall_of_ne hqp, hq]
  constructor
  · exact hs.tail_lt
  · intro q n pkt hq
    obtain ⟨-, hc⟩ | ⟨-, hq⟩ := updated_call hq
    · exact (hread n pkt false hc).2
    · exact hs.read q n pkt hq
  · intro q n pkt hq
    obtain ⟨-, hc⟩ | ⟨-, hq⟩ := updated_call hq
    · exact absurd (hread n pkt true hc).1 (by decide)
    · exact hs.late q n pkt hq
  · intro q i n pkt hq
    obtain ⟨-, hc⟩ | ⟨-, hq⟩ := updated_call hq
    · exact absurd hc (hnew i n pkt)
    · exact hs.reserved q i n pkt hq
  · exact hs.stored
  · intro i hi
    obtain hin | ⟨q, n, pkt, hq⟩ := hs.complete i hi
    · exact .inl hin
    · exact .inr ⟨q, n, pkt, hkept q i n pkt hq⟩
  · intro i h1 h2 hnone
    exact hs.slot i h1 h2 fun q n pkt hq => hnone q n pkt (hkept q i n pkt hq)
  · exact hs.cell

theorem numberInv_serve (hs : s.NumberInv) {b : TxDataBuf} (hb : s.buf.Serves b) :
    NumberInv { s with buf := b } := by
  have htail := hb.tail
  refine ⟨htail ▸ hs.tail_lt, fun q n pkt hq => ?_, fun q n pkt hq => ?_,
    fun q i n pkt hq => ?_, hs.stored, fun i hi => ?_, fun i h1 h2 hnone => ?_, fun k hk => ?_⟩
  · exact htail ▸ hs.read q n pkt hq
  · exact htail ▸ hs.late q n pkt hq
  · exact htail ▸ hs.reserved q i n pkt hq
  · exact hs.complete i (htail ▸ hi)
  · by_cases hfree : (b.slot i).status = .empty
    · exact .inl hfree
    · obtain ⟨hused, hseq⟩ := hb.cell (Fin.ofNat BUF_SIZE i) hfree
      have hold := hs.slot i (htail ▸ h1) (htail ▸ h2) hnone
      exact .inr (hseq.trans (hold.resolve_left hused))
  · obtain ⟨hused, hseq⟩ := hb.cell k hk
    obtain ⟨i, hi, hn⟩ := hs.cell k hused
    exact ⟨i, hi, hseq.trans hn⟩

/-- A packet that finds the buffer full is dropped, overtaken or not. -/
theorem numberInv_drop {overtaken : Bool} (hs : s.NumberInv)
    (hcall : s.call p = .read n pkt overtaken) (hfull : s.buf.isFull = true) :
    (s.acquire p n pkt).NumberInv := by
  rw [acquire_full hfull]
  refine numberInv_setCall hs ?_ (fun i n pkt h => by cases h) (fun n pkt o h => by cases h)
  intro i m pkt' hq
  rw [hcall] at hq
  cases hq

/-- A reservation by a call that has not been overtaken. -/
theorem numberInv_acquire (hs : s.NumberInv) (hcall : s.call p = .read n pkt false)
    (hlock : ∀ q i n pkt, s.call q = .reserved i n pkt → i % BUF_SIZE ≠ s.buf.tailPt % BUF_SIZE)
    (hlt : s.buf.isFull = false → s.buf.tailPt + 1 < 4294967296) :
    (s.acquire p n pkt).NumberInv := by
  cases hfull : s.buf.isFull with
  | true => exact numberInv_drop hs hcall hfull
  | false =>
    have hnext : uint32 (s.buf.tailPt + 1) = s.buf.tailPt + 1 := uint32_of_lt (hlt hfull)
    have hn : n = s.buf.tailPt + 1 := (hs.read p n pkt hcall).trans hnext
    rw [acquire_room hfull, hnext]
    -- the other producer keeps its reservation
    have hkept : ∀ q i m pkt', s.call q = .reserved i m pkt' →
        Function.update (fun q => (s.call q).overtake) p (.reserved s.buf.tailPt n pkt) q =
          .reserved i m pkt' := by
      intro q i m pkt' hq
      have hqp : q ≠ p := by
        rintro rfl
        rw [hcall] at hq
        cases hq
      rw [Function.update_of_ne hqp]
      exact EnqueueCall.overtake_eq_reserved.mpr hq
    constructor
    · exact hlt hfull
    · intro q m pkt' hq
      obtain ⟨-, hc⟩ | ⟨-, hq⟩ := updated_call (f := fun r => (s.call r).overtake) hq
      · cases hc
      · exact absurd (EnqueueCall.overtake_eq_read hq).1 (by decide)
    · intro q m pkt' hq
      show m ≤ s.buf.tailPt + 1
      obtain ⟨-, hc⟩ | ⟨-, hq⟩ := updated_call (f := fun r => (s.call r).overtake) hq
      · cases hc
      · obtain ⟨-, before, hbefore⟩ := EnqueueCall.overtake_eq_read hq
        cases before with
        | false =>
          have hread := hs.read q m pkt' hbefore
          omega
        | true =>
          have hlate := hs.late q m pkt' hbefore
          omega
    · intro q i m pkt' hq
      obtain ⟨-, hc⟩ | ⟨-, hq⟩ := updated_call (f := fun r => (s.call r).overtake) hq
      · cases hc
        exact ⟨hn, Nat.lt_succ_self _, Nat.add_le_add_left (by decide) _⟩
      · have hq := EnqueueCall.overtake_eq_reserved.mp hq
        obtain ⟨hm, hi, hwin⟩ := hs.reserved q i m pkt' hq
        -- the lock of the slot at the tail is free, so that it is not the slot of `i`
        have hne : s.buf.tailPt ≠ i + BUF_SIZE := by
          intro h
          apply hlock q i m pkt' hq
          rw [h, Nat.add_mod_right]
        exact ⟨hm, Nat.lt_succ_of_lt hi, by dsimp only; omega⟩
    · exact hs.stored
    · intro i hi
      have hi' : i < s.buf.tailPt + 1 := hi
      by_cases heq : i = s.buf.tailPt
      · exact .inr ⟨p, n, pkt, by simp only [Function.update_self, heq]⟩
      · obtain hin | ⟨q, m, pkt', hq⟩ := hs.complete i (by omega)
        · exact .inl hin
        · exact .inr ⟨q, m, pkt', hkept q i m pkt' hq⟩
    · intro i h1 h2 hnone
      have h1' : i < s.buf.tailPt + 1 := h1
      have h2' : s.buf.tailPt + 1 ≤ i + BUF_SIZE := h2
      have hne : i ≠ s.buf.tailPt := fun heq =>
        hnone p n pkt (by simp only [Function.update_self, heq])
      exact hs.slot i (by omega) (by omega) fun q m pkt' hq =>
        hnone q m pkt' (hkept q i m pkt' hq)
    · exact hs.cell

/-- What `storePkt` leaves, under the unbounded index. -/
theorem storePkt_ok {b b' : TxDataBuf} (h : b.storePkt (i % BUF_SIZE) n pkt = .ok b') :
    b' = ({ b with pktBuf := b.pktBuf.write (TxDataBuf.getPktBufAddr i) pkt } :
      TxDataBuf).setSlot i ((b.slot i).update n .occupiedNew pkt.length b.numRetrans) := by
  unfold TxDataBuf.storePkt at h
  simp only [TxDataBuf.slot_mod, TxDataBuf.setSlot_mod, TxDataBuf.getPktBufAddr_mod] at h
  split at h
  · cases h
    rfl
  · cases h

/-- The store into a reserved slot. -/
theorem numberInv_store (hs : s.NumberInv) (hcall : s.call p = .reserved i n pkt) {b : TxDataBuf}
    (hstore : s.buf.storePkt (i % BUF_SIZE) n pkt = .ok b) :
    NumberInv { s.setCall p .idle with buf := b, stored := s.stored ++ [(i, n)] } := by
  obtain ⟨hn, hlt, hwin⟩ := hs.reserved p i n pkt hcall
  have htail : b.tailPt = s.buf.tailPt := by rw [storePkt_ok hstore]; rfl
  have hself : b.slot i = (s.buf.slot i).update n .occupiedNew pkt.length s.buf.numRetrans := by
    rw [storePkt_ok hstore]
    exact TxDataBuf.slot_setSlot_self
  have hother : ∀ j, j < s.buf.tailPt → s.buf.tailPt ≤ j + BUF_SIZE → j ≠ i →
      b.slot j = s.buf.slot j := fun j h1 h2 hne => by
    rw [storePkt_ok hstore]
    exact TxDataBuf.slot_setSlot_window (s.buf.tailPt - BUF_SIZE) (by omega) (by omega) hne
  -- only the reservation of `i` is gone
  have hkept : ∀ q j m pkt', j ≠ i → s.call q = .reserved j m pkt' →
      (s.setCall p .idle).call q = .reserved j m pkt' := by
    intro q j m pkt' hne hq
    have hqp : q ≠ p := by
      rintro rfl
      rw [hcall] at hq
      cases hq
      exact hne rfl
    rw [setCall_of_ne hqp, hq]
  constructor
  · exact htail ▸ hs.tail_lt
  · intro q m pkt' hq
    obtain ⟨-, hc⟩ | ⟨-, hq⟩ := updated_call hq
    · cases hc
    · exact htail ▸ hs.read q m pkt' hq
  · intro q m pkt' hq
    obtain ⟨-, hc⟩ | ⟨-, hq⟩ := updated_call hq
    · cases hc
    · exact htail ▸ hs.late q m pkt' hq
  · intro q j m pkt' hq
    obtain ⟨-, hc⟩ | ⟨-, hq⟩ := updated_call hq
    · cases hc
    · exact htail ▸ hs.reserved q j m pkt' hq
  · intro e he
    obtain he | he := List.mem_append.mp he
    · exact hs.stored e he
    · rw [List.mem_singleton.mp he]
      exact hn
  · intro j hj
    rw [htail] at hj
    by_cases heq : j = i
    · exact .inl (by simp [heq])
    · obtain hin | ⟨q, m, pkt', hq⟩ := hs.complete j hj
      · left
        rw [List.map_append]
        exact List.mem_append_left _ hin
      · exact .inr ⟨q, m, pkt', hkept q j m pkt' heq hq⟩
  · intro j h1 h2 hnone
    rw [htail] at h1 h2
    by_cases heq : j = i
    · subst heq
      right
      rw [hself]
      exact hn
    · rw [hother j h1 h2 heq]
      exact hs.slot j h1 h2 fun q m pkt' hq => hnone q m pkt' (hkept q j m pkt' heq hq)
  · intro k hk
    by_cases heq : Fin.ofNat BUF_SIZE i = k
    · subst heq
      exact ⟨i, rfl, (congrArg BookKeeping.seqNum hself).trans hn⟩
    · have hcell : b.bookKeepArr k = s.buf.bookKeepArr k := by
        rw [storePkt_ok hstore]
        exact Function.update_of_ne (Ne.symm heq) _ _
      have hk' : (b.bookKeepArr k).status ≠ .empty := hk
      rw [hcell] at hk'
      obtain ⟨j, hj, hseq⟩ := hs.cell k hk'
      exact ⟨j, hj, (congrArg BookKeeping.seqNum hcell).trans hseq⟩

/-- The step lemma. -/
theorem numberInv_step (hs : s.NumberInv) {input : ProducerInput} (hen : enabledProducer s input)
    (hok : s.NotOvertaken input) (hexec : execProducer s input = .ok s') : s'.NumberInv := by
  cases input with
  | readTail p pkt =>
    cases hexec
    have hidle : s.call p = .idle := hen
    refine numberInv_setCall hs (fun i n pkt h => by rw [hidle] at h; cases h)
      (fun i n pkt h => by cases h) fun n pkt o h => ?_
    cases h
    exact ⟨rfl, rfl⟩
  | acquireTailLock p =>
    obtain ⟨⟨n, pkt, overtaken, hcall⟩, hlock⟩ := hen
    simp only [execProducer, hcall, Except.ok.injEq] at hexec
    subst hexec
    cases overtaken with
    | false => exact numberInv_acquire hs hcall hlock fun hroom => (hok hroom).1
    | true =>
      have hfull : s.buf.isFull = true := by
        by_contra hroom
        exact (hok (Bool.not_eq_true _ ▸ hroom)).2 n pkt hcall
      exact numberInv_drop hs hcall hfull
  | storePkt p =>
    obtain ⟨i, n, pkt, hcall⟩ := hen
    simp only [execProducer, hcall] at hexec
    split at hexec
    · cases hexec
    · rename_i b hstore
      cases hexec
      exact numberInv_store hs hcall hstore
  | serve b =>
    cases hexec
    exact numberInv_serve hs hen

theorem numberInv_init (boot : Fin BUF_SIZE → TIME) (R : Nat) :
    NumberInv ⟨.init boot R, fun _ => .idle, []⟩ := by
  refine ⟨(by decide : 0 < 4294967296), fun p n pkt h => ?_, fun p n pkt h => ?_,
    fun p i n pkt h => ?_, fun e he => absurd he List.not_mem_nil,
    fun i hi => absurd hi (Nat.not_lt_zero i), fun i hi => absurd hi (Nat.not_lt_zero i),
    fun k hk => absurd rfl hk⟩
  · cases h
  · cases h
  · cases h

/-- The run lemma. -/
theorem numberInv_of_reachable {R : Nat}
    (h : ((producerMachine R).restrict NotOvertaken).Reachable s) : s.NumberInv := by
  refine h.invariant ?_ fun s input s' _ hs hen hexec => numberInv_step hs hen.1 hen.2 hexec
  rintro s ⟨boot, rfl⟩
  exact numberInv_init boot R

end ProducerState

theorem producer_step {R : Nat} {P : ProducerState → ProducerInput → Prop}
    (h : ((producerMachine R).restrict P).Reachable s) (input : ProducerInput)
    (hen : enabledProducer s input) (hP : P s input) (hexec : execProducer s input = .ok s') :
    ((producerMachine R).restrict P).Reachable s' :=
  .step h ⟨hen, hP⟩ hexec

/-- While no call is overtaken between reading `tail_pt` and reserving its slot, the packet stored
for index `i` has number `i + 1`, no two slots in use share a number, and no number is left out. -/
theorem producerMachine_seqNum {R : Nat}
    (h : ((producerMachine R).restrict ProducerState.NotOvertaken).Reachable s) :
    (∀ e ∈ s.stored, e.2 = e.1 + 1) ∧
    (∀ i, i < s.buf.tailPt → s.buf.tailPt ≤ i + BUF_SIZE →
      (∀ p n pkt, s.call p ≠ .reserved i n pkt) →
      (s.buf.slot i).status = .empty ∨ (s.buf.slot i).seqNum = i + 1) ∧
    (∀ k k' : Fin BUF_SIZE, (s.buf.bookKeepArr k).status ≠ .empty →
      (s.buf.bookKeepArr k').status ≠ .empty →
      (s.buf.bookKeepArr k).seqNum = (s.buf.bookKeepArr k').seqNum → k = k') ∧
    (∀ n, 1 ≤ n → n ≤ s.buf.tailPt →
      n ∈ s.stored.map Prod.snd ∨ ∃ p pkt, s.call p = .reserved (n - 1) n pkt) := by
  have hs := ProducerState.numberInv_of_reachable h
  refine ⟨hs.stored, hs.slot, fun k k' hk hk' heq => ?_, fun n h1 h2 => ?_⟩
  · obtain ⟨i, rfl, hi⟩ := hs.cell k hk
    obtain ⟨j, rfl, hj⟩ := hs.cell k' hk'
    have hij : i = j := by omega
    rw [hij]
  · obtain hin | ⟨p, m, pkt, hp⟩ := hs.complete (n - 1) (by omega)
    · obtain ⟨e, he, hfst⟩ := List.mem_map.mp hin
      have hsnd := hs.stored e he
      exact .inl (List.mem_map.mpr ⟨e, he, by omega⟩)
    · have hm := (hs.reserved p _ m pkt hp).1
      have hmn : m = n := by omega
      exact .inr ⟨p, pkt, hmn ▸ hp⟩

/-- Two calls, one after the other. -/
theorem producerMachine_seqNum_inTurn : ∃ s : ProducerState, s.buf.tailPt = 2 ∧
    (∀ e ∈ s.stored, e.2 = e.1 + 1) ∧ s.stored = [(0, 1), (1, 2)] := by
  have h0 : ((producerMachine 2).restrict ProducerState.NotOvertaken).Reachable
      ⟨.init (fun _ => ⟨0, 0⟩) 2, fun _ => .idle, []⟩ := .init ⟨_, rfl⟩
  have h1 := producer_step h0 (.readTail .txRcvCell [7]) rfl trivial rfl
  have h2 := producer_step h1 (.acquireTailLock .txRcvCell) ⟨⟨1, [7], false, rfl⟩,
    fun q i n pkt hq => by cases q <;> cases hq⟩
    (fun _ => ⟨by decide, fun n pkt hq => by cases hq⟩) rfl
  have h3 := producer_step h2 (.storePkt .txRcvCell) ⟨0, 1, [7], rfl⟩ trivial rfl
  have h4 := producer_step h3 (.readTail .txSendProbe [8]) rfl trivial rfl
  have h5 := producer_step h4 (.acquireTailLock .txSendProbe) ⟨⟨2, [8], false, rfl⟩,
    fun q i n pkt hq => by cases q <;> cases hq⟩
    (fun _ => ⟨by decide, fun n pkt hq => by cases hq⟩) rfl
  have h6 := producer_step h5 (.storePkt .txSendProbe) ⟨1, 2, [8], rfl⟩ trivial rfl
  exact ⟨_, rfl, (producerMachine_seqNum h6).1, rfl⟩

/-- The first slot that is reserved for an overtaken call gets a number that is not its own. -/
theorem reserved_overtaken {R : Nat}
    (h : ((producerMachine R).restrict ProducerState.NotOvertaken).Reachable s)
    (hcall : s.call p = .read n pkt true) (hroom : s.buf.isFull = false) :
    (s.acquire p n pkt).call p = .reserved s.buf.tailPt n pkt ∧ n ≠ s.buf.tailPt + 1 := by
  have hlate := (ProducerState.numberInv_of_reachable h).late p n pkt hcall
  rw [ProducerState.acquire_room hroom]
  refine ⟨?_, by omega⟩
  exact Function.update_self p _ fun q => (s.call q).overtake

/-- Both producers read `tail_pt` before either takes the lock: two packets with number `1`. -/
theorem producerMachine_overtaken : ∃ s : ProducerState, (producerMachine 2).Reachable s ∧
    s.stored = [(0, 1), (1, 1)] ∧
    (s.buf.slot 0).status = .occupiedNew ∧ (s.buf.slot 0).seqNum = 1 ∧
    (s.buf.slot 1).status = .occupiedNew ∧ (s.buf.slot 1).seqNum = 1 := by
  have h0 : ((producerMachine 2).restrict fun _ _ => True).Reachable
      ⟨.init (fun _ => ⟨0, 0⟩) 2, fun _ => .idle, []⟩ := .init ⟨_, rfl⟩
  have h1 := producer_step h0 (.readTail .txRcvCell [7]) rfl trivial rfl
  have h2 := producer_step h1 (.readTail .txSendProbe [8]) rfl trivial rfl
  have h3 := producer_step h2 (.acquireTailLock .txRcvCell) ⟨⟨1, [7], false, rfl⟩,
    fun q i n pkt hq => by cases q <;> cases hq⟩ trivial rfl
  have h4 := producer_step h3 (.acquireTailLock .txSendProbe) ⟨⟨1, [8], true, rfl⟩,
    fun q i n pkt hq => by cases q <;> cases hq; decide⟩ trivial rfl
  have h5 := producer_step h4 (.storePkt .txRcvCell) ⟨0, 1, [7], rfl⟩ trivial rfl
  have h6 := producer_step h5 (.storePkt .txSendProbe) ⟨1, 1, [8], rfl⟩ trivial rfl
  exact ⟨_, h6.of_restrict, rfl, rfl, rfl, rfl, rfl⟩

end Steps

end WspaceScout
