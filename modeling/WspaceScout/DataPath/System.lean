import WspaceScout.DataPath.Sweeps
import WspaceScout.Foundation.Machine

/-!
# The transmit buffer as a machine

`txMachine` takes `EnqueuePkt`, `DequeuePkt`, `HandleDataAck` and `HandleTimeOut` as atomic inputs
in any order. Next to the client's state it keeps a `History` of what has been enqueued, handed out
and acknowledged, which no operation reads.

## Main definitions

- `txMachine` — the machine; `R` is the buffer's `num_retrans`
- `TxState.WindowInv` — the invariant of cursors and slots
- `Effect` — everything an input can do to a state that satisfies the invariant

## Main results

- `exec_effect` — an enabled input neither fails an assertion nor does anything but its effect
- `windowInv_of_reachable` — the invariant holds in every reachable state
-/

namespace WspaceScout

open Foundation

/-- A packet that `DequeuePkt` returned as new or for retransmission. -/
structure HandOut where
  seqNum : Nat
  status : Status
  deriving DecidableEq, Repr

/-- What has happened so far, oldest first. -/
structure History where
  enqueued : List (Nat × List UInt8)
  handedOut : List HandOut
  acked : List DataAck

/-- The highest sequence number handed out so far. -/
def History.highest (h : History) : Nat := (h.handedOut.map HandOut.seqNum).foldl max 0

/-- How often sequence number `n` has been handed out. -/
def History.handOuts (h : History) (n : Nat) : Nat := (h.handedOut.map HandOut.seqNum).count n

/-- One client and its history. -/
structure TxState where
  client : ClientContext
  history : History

namespace TxState

/-- The buffer of the client. -/
abbrev buf (s : TxState) : TxDataBuf := s.client.dataPktBuf

/-- The state with another buffer. -/
def setBuf (s : TxState) (b : TxDataBuf) : TxState :=
  { s with client := { s.client with dataPktBuf := b } }

def init (boot : Fin BUF_SIZE → TIME) (R : Nat) : TxState := ⟨.init boot R, ⟨[], [], []⟩⟩

end TxState

/-- The atomic operations on the buffer; `now` is the reading of the clock. -/
inductive TxInput where
  | enqueue (pkt : List UInt8)
  | dequeue (now : TIME)
  | dataAck (now : TIME) (ack : DataAck)
  | timeOut (now : TIME)

/-- An ack that a correct receiver can send: `highest` is the last packet it may have seen. -/
structure DataAck.WellFormed (ack : DataAck) (highest : Nat) : Prop where
  sorted : ack.nackArr.Pairwise (· < ·)
  range : ∀ n ∈ ack.nackArr, 1 ≤ n ∧ n ≤ ack.endSeq
  end_le : ack.endSeq ≤ highest

/-- `HandleDataAck` works on the buffer: the ack is neither old, nor empty, nor a duplicate. -/
def ClientContext.accepts (c : ClientContext) (ack : DataAck) : Bool :=
  ¬ack.ackSeq < c.expectDataAckSeq ∧ ack.endSeq ≠ 0 ∧
    ¬uint32Sub ack.endSeq 1 < c.dataPktBuf.headPt

/-- The state after `DequeuePkt` has reported `out` and left the buffer `b`. -/
def TxState.recordDequeue (s : TxState) (out : Dequeued) (b : TxDataBuf) : TxState :=
  let h := s.history
  let new := if out.status.isPkt then [⟨out.seqNum, out.status⟩] else []
  { s.setBuf b with history := { h with handedOut := h.handedOut ++ new } }

/-- Execute an operation and record it. -/
def execTx (ap : WspaceAP) (s : TxState) : TxInput → Except Fault TxState
  | .enqueue pkt =>
    match s.buf.enqueuePkt pkt with
    | .error e => .error e
    | .ok b =>
      let h := s.history
      let new := if s.buf.isFull then [] else [(uint32 (s.buf.tailPt + 1), pkt)]
      .ok { s.setBuf b with history := { h with enqueued := h.enqueued ++ new } }
  | .dequeue now =>
    match s.buf.dequeuePkt now with
    | .error e => .error e
    | .ok (out, b) => .ok (s.recordDequeue out b)
  | .dataAck now ack =>
    let h := s.history
    let new := if s.client.accepts ack then [ack] else []
    .ok ⟨(handleDataAck ap now s.client ack).2, { h with acked := h.acked ++ new }⟩
  | .timeOut now =>
    match handleTimeOut ap now s.client with
    | .error e => .error e
    | .ok (_, c) => .ok { s with client := c }

/-- The inputs that can occur if the number of packets is not bounded. -/
def possibleTx (s : TxState) : TxInput → Prop
  | .enqueue pkt => 0 < pkt.length ∧ pkt.length ≤ PKT_SIZE
  | .dequeue _ => s.buf.isEmpty = false
  | .dataAck _ ack => ack.WellFormed s.history.highest
  | .timeOut _ => True

/-- The inputs that can occur: `DequeuePkt` waits while nothing is left to hand out, acks are well
formed, and fewer than `2 ^ 32 - 1` packets are ever enqueued. -/
def enabledTx (s : TxState) : TxInput → Prop
  | .enqueue pkt => 0 < pkt.length ∧ pkt.length ≤ PKT_SIZE ∧
      (s.buf.isFull = false → s.history.enqueued.length + 1 < 4294967295)
  | .dequeue _ => s.buf.isEmpty = false
  | .dataAck _ ack => ack.WellFormed s.history.highest
  | .timeOut _ => True

instance (ack : DataAck) (highest : Nat) : Decidable (ack.WellFormed highest) :=
  decidable_of_iff (ack.nackArr.Pairwise (· < ·) ∧
      (∀ n ∈ ack.nackArr, 1 ≤ n ∧ n ≤ ack.endSeq) ∧ ack.endSeq ≤ highest)
    ⟨fun h => ⟨h.1, h.2.1, h.2.2⟩, fun h => ⟨h.sorted, h.range, h.end_le⟩⟩

instance (s : TxState) : ∀ input, Decidable (enabledTx s input)
  | .enqueue pkt => inferInstanceAs (Decidable (0 < pkt.length ∧ pkt.length ≤ PKT_SIZE ∧
      (s.buf.isFull = false → s.history.enqueued.length + 1 < 4294967295)))
  | .dequeue _ => inferInstanceAs (Decidable (s.buf.isEmpty = false))
  | .dataAck _ ack => inferInstanceAs (Decidable (ack.WellFormed s.history.highest))
  | .timeOut _ => inferInstanceAs (Decidable True)

/-- The transmit buffer of one client. -/
def txMachine (ap : WspaceAP) (R : Nat) : Machine TxState TxInput Fault where
  init s := ∃ boot, s = TxState.init boot R
  enabled := enabledTx
  exec := execTx ap

theorem enabledTx.possible {s : TxState} {input : TxInput} (h : enabledTx s input) :
    possibleTx s input := by
  cases input with
  | enqueue pkt => exact ⟨h.1, h.2.1⟩
  | dequeue now => exact h
  | dataAck now ack => exact h
  | timeOut now => exact h

@[simp]
theorem txMachine_exec (ap : WspaceAP) (R : Nat) : (txMachine ap R).exec = execTx ap := rfl

@[simp]
theorem txMachine_enabled (ap : WspaceAP) (R : Nat) : (txMachine ap R).enabled = enabledTx := rfl

/-! ### The invariant -/

/-- A slot of the window `[head, tail)`, given `curr` and the number of packets handed out. -/
structure SlotOk (curr highest i : Nat) (bk : BookKeeping) : Prop where
  used : ¬bk.IsFree → bk.seqNum = i + 1 ∧ 0 < bk.len ∧ bk.len ≤ PKT_SIZE
  new : bk.status = .occupiedNew ↔ highest ≤ i
  retrans : bk.IsRetrans → curr ≤ i ∧ 0 < bk.numRetrans

/-- Cursors and slots of the buffer. The packets at and behind `highest` are the new ones. -/
structure TxState.WindowInv (s : TxState) : Prop where
  head_le_curr : s.buf.headPt ≤ s.buf.currPt
  curr_le : s.buf.currPt ≤ s.history.highest
  highest_le : s.history.highest ≤ s.buf.tailPt
  tail_le : s.buf.tailPt ≤ s.buf.headPt + BUF_SIZE
  tail_eq : s.buf.tailPt = s.history.enqueued.length
  tail_lt : s.buf.tailPt < 4294967295
  slot : ∀ i, s.buf.headPt ≤ i → i < s.buf.tailPt →
    SlotOk s.buf.currPt s.history.highest i (s.buf.slot i)
  unused : ∀ i, s.buf.tailPt ≤ i → i < s.buf.headPt + BUF_SIZE → (s.buf.slot i).IsFree

/-! ### What an input does -/

/-- `EnqueuePkt` with room in the buffer. -/
def TxState.stored (s : TxState) (pkt : List UInt8) : TxState :=
  let b := s.buf
  let index := b.tailPt
  let bk := (b.slot index).update (index + 1) .occupiedNew pkt.length b.numRetrans
  let b' := { b with
    tailPt := index + 1
    pktBuf := b.pktBuf.write (TxDataBuf.getPktBufAddr index) pkt }
  { s.setBuf (b'.setSlot index bk) with
    history := { s.history with enqueued := s.history.enqueued ++ [(index + 1, pkt)] } }

/-- `DequeuePkt` on a slot that is empty or outbound. -/
def TxState.skipped (s : TxState) : TxState :=
  s.setBuf { s.buf with currPt := s.buf.currPt + 1 }

/-- `DequeuePkt` on a slot that is new or to be retransmitted. -/
def TxState.sent (s : TxState) (now : TIME) : TxState :=
  let b := { s.buf with currPt := s.buf.currPt + 1 }
  let bk := s.buf.slot s.buf.currPt
  { s.setBuf (b.setSlot s.buf.currPt (bk.sent now)) with
    history := { s.history with
      handedOut := s.history.handedOut ++ [⟨s.buf.currPt + 1, bk.status⟩] } }

/-- Everything an input can do to a state that satisfies the invariant. -/
inductive Effect (ap : WspaceAP) (s : TxState) : TxInput → TxState → Prop where
  | dropped (pkt : List UInt8) :
      s.buf.tailPt = s.buf.headPt + BUF_SIZE → Effect ap s (.enqueue pkt) s
  | stored (pkt : List UInt8) :
      s.buf.tailPt < s.buf.headPt + BUF_SIZE → s.buf.tailPt + 1 < 4294967295 →
      0 < pkt.length → pkt.length ≤ PKT_SIZE → Effect ap s (.enqueue pkt) (s.stored pkt)
  | skipped (now : TIME) :
      s.buf.currPt < s.buf.tailPt → (s.buf.slot s.buf.currPt).status.isPkt = false →
      Effect ap s (.dequeue now) s.skipped
  | sent (now : TIME) :
      s.buf.currPt < s.buf.tailPt → (s.buf.slot s.buf.currPt).status.isPkt = true →
      Effect ap s (.dequeue now) (s.sent now)
  | refused (now : TIME) (ack : DataAck) (s' : TxState) :
      s.client.accepts ack = false → s'.buf = s.buf → s'.history = s.history →
      Effect ap s (.dataAck now ack) s'
  | acked (now : TIME) (ack : DataAck) (s' : TxState) :
      s.client.accepts ack = true → AckFits s.buf ack → ack.WellFormed s.history.highest →
      s'.buf = applyDataAck ap now s.buf ack →
      s'.history = { s.history with acked := s.history.acked ++ [ack] } →
      Effect ap s (.dataAck now ack) s'
  | timedOut (now : TIME) (s' : TxState) :
      HandlerSweep s.buf s'.buf s.history.highest (fun _ bk => bk.afterTimeOut ap now) →
      s'.history = s.history → Effect ap s (.timeOut now) s'

/-- What a handler can leave in a slot that it visits. -/
inductive SlotMove (acked : Prop) (bk : BookKeeping) : BookKeeping → Prop where
  | stay : SlotMove acked bk bk
  | release : acked → SlotMove acked bk bk.free
  | giveUp : bk.status = .occupiedOutbound → bk.numRetrans = 0 → SlotMove acked bk bk.free
  | retry : bk.status = .occupiedOutbound → bk.numRetrans ≠ 0 →
      SlotMove acked bk { bk with status := .occupiedRetrans }

/-- What a handler leaves in use was in use, for the same packet. -/
theorem SlotMove.used {acked : Prop} {bk bk' : BookKeeping} (h : SlotMove acked bk bk')
    (hused : ¬bk'.IsFree) : ¬bk.IsFree ∧ bk'.seqNum = bk.seqNum ∧ bk'.len = bk.len := by
  cases h with
  | stay => exact ⟨hused, rfl, rfl⟩
  | release _ => exact absurd rfl hused
  | giveUp _ _ => exact absurd rfl hused
  | retry hst _ => exact ⟨by simp [hst], rfl, rfl⟩

theorem BookKeeping.afterTimeOut_move (ap : WspaceAP) (now : TIME) (bk : BookKeeping) :
    SlotMove False bk (bk.afterTimeOut ap now) := by
  unfold afterTimeOut
  split
  · rename_i hst
    split_ifs with hzero hlate
    · exact .giveUp hst hzero
    · exact .retry hst hzero
    · exact .stay
  · exact .stay

theorem BookKeeping.afterAck_move (ap : WspaceAP) (now : TIME) (nacked : Bool)
    (bk : BookKeeping) : SlotMove (nacked = false) bk (bk.afterAck ap now nacked) := by
  unfold afterAck
  cases nacked
  · split
    · exact .stay
    · exact .release rfl
    · exact .release rfl
  · split
    · exact .stay
    · rename_i hst
      simp only [if_true]
      split_ifs with hzero hlost
      · exact .giveUp hst hzero
      · exact .retry hst hzero
      · exact .stay
    · exact .stay

/-! ### An enabled input has its effect -/

section Effects

variable {ap : WspaceAP} {s : TxState}

theorem History.highest_append (h : History) (n : Nat) (st : Status) :
    History.highest { h with handedOut := h.handedOut ++ [⟨n, st⟩] } = max h.highest n := by
  simp [highest]

/-- An ack that is old, empty or a duplicate leaves the buffer alone. -/
theorem handleDataAck_refused {now : TIME} {c : ClientContext} {ack : DataAck}
    (h : c.accepts ack = false) : (handleDataAck ap now c ack).2.dataPktBuf = c.dataPktBuf := by
  simp only [ClientContext.accepts, decide_eq_false_iff_not] at h
  unfold handleDataAck
  by_cases hold : ack.ackSeq < c.expectDataAckSeq
  · rw [if_pos hold]
  · rw [if_neg hold]
    by_cases hzero : ack.endSeq = 0
    · rw [if_pos hzero]
    · rw [if_neg hzero]
      have hdup : uint32Sub ack.endSeq 1 < c.dataPktBuf.headPt := by
        by_contra hn
        exact h ⟨hold, hzero, hn⟩
      simp only [if_pos hdup]
      split <;> rfl

theorem handleDataAck_accepted {now : TIME} {c : ClientContext} {ack : DataAck}
    (h : c.accepts ack = true) : handleDataAck ap now c ack = (false, {
      dataPktBuf := applyDataAck ap now c.dataPktBuf ack
      expectDataAckSeq := uint32 (ack.ackSeq + 1)
      dupDataAckCnt := 0
      contiguousTimeOut := 0 }) := by
  simp only [ClientContext.accepts, decide_eq_true_eq] at h
  obtain ⟨hold, hzero, hnew⟩ := h
  unfold handleDataAck
  rw [if_neg hold, if_neg hzero, if_neg hnew]

/-- Whatever `HandleTimeOut` does with its counters, the buffer is the swept one. -/
theorem handleTimeOut_of_apply {now : TIME} {c : ClientContext} {inc : Bool} {b : TxDataBuf}
    (h : applyTimeOut ap now c.dataPktBuf = .ok (inc, b)) :
    ∃ loss c', handleTimeOut ap now c = .ok (loss, c') ∧ c'.dataPktBuf = b := by
  unfold handleTimeOut
  rw [h]
  simp only [bind, Except.bind]
  split_ifs <;> exact ⟨_, _, rfl, rfl⟩

namespace TxState.WindowInv

theorem head_le (hs : s.WindowInv) : s.buf.headPt ≤ s.history.highest :=
  hs.head_le_curr.trans hs.curr_le

/-- Under the invariant the buffer is full exactly when the window is. -/
theorem isFull_iff (hs : s.WindowInv) :
    s.buf.isFull = true ↔ s.buf.tailPt = s.buf.headPt + BUF_SIZE := by
  have hlo := hs.head_le.trans hs.highest_le
  have htail := hs.tail_lt
  have hle := hs.tail_le
  have hiff : s.buf.isFull = true ↔ uint32 (s.buf.headPt + BUF_SIZE) = s.buf.tailPt := by
    simp [TxDataBuf.isFull]
  have hsize : BUF_SIZE = 500 := rfl
  rw [hiff]
  unfold uint32
  omega

theorem exec_stored (hs : s.WindowInv) {pkt : List UInt8}
    (hroom : s.buf.tailPt < s.buf.headPt + BUF_SIZE) :
    execTx ap s (.enqueue pkt) = .ok (s.stored pkt) := by
  have hlt := hs.tail_lt
  have hfull : ¬s.buf.isFull = true := fun h => by
    have := hs.isFull_iff.mp h
    omega
  have hnext : uint32 (s.buf.tailPt + 1) = s.buf.tailPt + 1 := uint32_of_lt (by omega)
  have hfree := hs.unused _ (Nat.le_refl _) hroom
  unfold execTx
  simp only [TxDataBuf.enqueuePkt_room pkt (Bool.not_eq_true _ ▸ hfull) hfree,
    if_neg hfull, hnext]
  rfl

theorem exec_enqueue (hs : s.WindowInv) {pkt : List UInt8} (h : enabledTx s (.enqueue pkt)) :
    ∃ s', execTx ap s (.enqueue pkt) = .ok s' ∧ Effect ap s (.enqueue pkt) s' := by
  obtain ⟨hpos, hlen, hroom⟩ := h
  have hle := hs.tail_le
  have htail := hs.tail_eq
  by_cases hfull : s.buf.isFull = true
  · refine ⟨s, ?_, .dropped pkt (hs.isFull_iff.mp hfull)⟩
    unfold execTx
    simp only [TxDataBuf.enqueuePkt_full hfull, if_pos hfull, List.append_nil]
    rfl
  · have hne : s.buf.tailPt ≠ s.buf.headPt + BUF_SIZE := fun heq => hfull (hs.isFull_iff.mpr heq)
    have hcnt := hroom (Bool.not_eq_true _ ▸ hfull)
    exact ⟨s.stored pkt, hs.exec_stored (by omega),
      .stored pkt (by omega) (by omega) hpos hlen⟩

/-- `DequeuePkt` on a slot that is empty or outbound. -/
theorem dequeue_skipped (hs : s.WindowInv) (now : TIME) (hlt : s.buf.currPt < s.buf.tailPt)
    (hpkt : (s.buf.slot s.buf.currPt).status.isPkt = false) :
    ∃ b, s.buf.dequeuePkt now = .ok (s.buf.dequeued now, b) ∧
      s.recordDequeue (s.buf.dequeued now) b = s.skipped := by
  have htail := hs.tail_lt
  refine ⟨_, TxDataBuf.dequeuePkt_skip (by omega) hpkt, ?_⟩
  have hstatus : (s.buf.dequeued now).status.isPkt = false := hpkt
  simp only [TxState.recordDequeue, hstatus, Bool.false_eq_true, if_false, List.append_nil]
  rfl

/-- `DequeuePkt` on a slot that is new or to be retransmitted. -/
theorem dequeue_sent (hs : s.WindowInv) (now : TIME) (hlt : s.buf.currPt < s.buf.tailPt)
    (hpkt : (s.buf.slot s.buf.currPt).status.isPkt = true) :
    ∃ b, s.buf.dequeuePkt now = .ok (s.buf.dequeued now, b) ∧
      s.recordDequeue (s.buf.dequeued now) b = s.sent now ∧
      (s.buf.dequeued now).seqNum = s.buf.currPt + 1 ∧ 0 < (s.buf.dequeued now).len ∧
      (s.buf.dequeued now).len ≤ PKT_SIZE := by
  have htail := hs.tail_lt
  have hok := hs.slot s.buf.currPt hs.head_le_curr hlt
  have hused : ¬(s.buf.slot s.buf.currPt).IsFree := fun hfree => by
    simp [Status.isPkt, hfree] at hpkt
  obtain ⟨hseq, hlen⟩ := hok.used hused
  refine ⟨_, TxDataBuf.dequeuePkt_sent (by omega) hpkt hlen (by omega)
    fun hst => (hok.retrans hst).2, ?_, hseq, hlen⟩
  have hstatus : (s.buf.dequeued now).status.isPkt = true := hpkt
  have hseq' : (s.buf.dequeued now).seqNum = s.buf.currPt + 1 := hseq
  simp only [TxState.recordDequeue, hstatus, if_true, hseq']
  rfl

theorem exec_skipped (hs : s.WindowInv) {now : TIME} (hlt : s.buf.currPt < s.buf.tailPt)
    (hpkt : (s.buf.slot s.buf.currPt).status.isPkt = false) :
    execTx ap s (.dequeue now) = .ok s.skipped := by
  obtain ⟨b, hdeq, hrec⟩ := hs.dequeue_skipped now hlt hpkt
  unfold execTx
  simp only [hdeq, hrec]

theorem exec_sent (hs : s.WindowInv) {now : TIME} (hlt : s.buf.currPt < s.buf.tailPt)
    (hpkt : (s.buf.slot s.buf.currPt).status.isPkt = true) :
    execTx ap s (.dequeue now) = .ok (s.sent now) := by
  obtain ⟨b, hdeq, hrec, -⟩ := hs.dequeue_sent now hlt hpkt
  unfold execTx
  simp only [hdeq, hrec]

/-- While the buffer is not empty the cursor is in the window. -/
theorem curr_lt (hs : s.WindowInv) {now : TIME} (h : enabledTx s (.dequeue now)) :
    s.buf.currPt < s.buf.tailPt := by
  have hcurr := hs.curr_le
  have hhigh := hs.highest_le
  have hempty : s.buf.isEmpty = false := h
  have hne : s.buf.tailPt ≠ s.buf.currPt := by simpa [TxDataBuf.isEmpty] using hempty
  omega

theorem exec_dequeue (hs : s.WindowInv) {now : TIME} (h : enabledTx s (.dequeue now)) :
    ∃ s', execTx ap s (.dequeue now) = .ok s' ∧ Effect ap s (.dequeue now) s' := by
  have hlt := hs.curr_lt h
  cases hpkt : (s.buf.slot s.buf.currPt).status.isPkt with
  | false => exact ⟨s.skipped, hs.exec_skipped hlt hpkt, .skipped now hlt hpkt⟩
  | true => exact ⟨s.sent now, hs.exec_sent hlt hpkt, .sent now hlt hpkt⟩

/-- An accepted ack meets what the handler relies on. -/
theorem ackFits (hs : s.WindowInv) {ack : DataAck} (hacc : s.client.accepts ack = true)
    (hwf : ack.WellFormed s.history.highest) : AckFits s.buf ack := by
  obtain ⟨-, hpos, hnew⟩ : ¬ack.ackSeq < s.client.expectDataAckSeq ∧ ack.endSeq ≠ 0 ∧
      ¬uint32Sub ack.endSeq 1 < s.buf.headPt := by
    simpa only [ClientContext.accepts, decide_eq_true_eq] using hacc
  have hend := hwf.end_le
  have hhigh := hs.highest_le
  have htail := hs.tail_le
  have hlt := hs.tail_lt
  rw [uint32Sub_of_le (by omega) (by omega)] at hnew
  refine ⟨hwf.sorted, hwf.range, by omega, by omega, by omega, fun i h1 h2 => ?_,
    fun i h1 h2 hret => ?_⟩
  · exact fun hst => absurd ((hs.slot i h1 (by omega)).new.mp hst) (by omega)
  · exact ((hs.slot i h1 (by omega)).used hret.not_isFree).1

theorem exec_dataAck (hs : s.WindowInv) {now : TIME} {ack : DataAck}
    (h : enabledTx s (.dataAck now ack)) :
    ∃ s', execTx ap s (.dataAck now ack) = .ok s' ∧ Effect ap s (.dataAck now ack) s' := by
  refine ⟨_, rfl, ?_⟩
  cases hacc : s.client.accepts ack with
  | false =>
    refine .refused now ack _ hacc (handleDataAck_refused hacc) ?_
    simp only [Bool.false_eq_true, if_false, List.append_nil]
  | true =>
    refine .acked now ack _ hacc (hs.ackFits hacc h) h ?_ rfl
    rw [handleDataAck_accepted hacc]

/-- The first new packet, if any, is the one with number `highest + 1`. -/
theorem timeOutFits (hs : s.WindowInv) : TimeOutFits s.buf s.history.highest := by
  have hhigh := hs.highest_le
  have hlt := hs.tail_lt
  refine ⟨hs.head_le, hhigh, hs.tail_le, by omega, fun i h1 h2 => ?_, fun i h1 h2 hused => ?_,
    fun hstop => ?_⟩
  · exact fun hst => absurd ((hs.slot i h1 (by omega)).new.mp hst) (by omega)
  · exact ((hs.slot i h1 (by omega)).used hused).1
  · exact (hs.slot _ hs.head_le hstop).new.mpr (Nat.le_refl _)

theorem exec_timeOut (hs : s.WindowInv) (now : TIME) :
    ∃ s', execTx ap s (.timeOut now) = .ok s' ∧ Effect ap s (.timeOut now) s' := by
  obtain ⟨inc, b, happ, hsweep⟩ := applyTimeOut_sweep ap now hs.timeOutFits
  obtain ⟨loss, c, hrun, hbuf⟩ := handleTimeOut_of_apply happ
  refine ⟨{ s with client := c }, ?_, .timedOut now _ ?_ rfl⟩
  · unfold execTx
    simp only [hrun]
  · rw [show TxState.buf { s with client := c } = b from hbuf]
    exact hsweep

end TxState.WindowInv

/-- An enabled input does not fault, and has its effect. -/
theorem exec_effect (ap : WspaceAP) (hs : s.WindowInv) {input : TxInput} (h : enabledTx s input) :
    ∃ s', execTx ap s input = .ok s' ∧ Effect ap s input s' := by
  cases input with
  | enqueue pkt => exact hs.exec_enqueue h
  | dequeue now => exact hs.exec_dequeue h
  | dataAck now ack => exact hs.exec_dataAck h
  | timeOut now => exact hs.exec_timeOut now

/-- The successor of a step is the one that the effect describes. -/
theorem effect_of_exec (hs : s.WindowInv) {input : TxInput} {s' : TxState}
    (h : enabledTx s input) (hexec : execTx ap s input = .ok s') : Effect ap s input s' := by
  obtain ⟨t, ht, heff⟩ := exec_effect ap hs h
  rw [hexec] at ht
  cases ht
  exact heff

end Effects

end WspaceScout
