import WspaceScout.DataPath.SendCodedBatch
import WspaceScout.DataPath.Window
import WspaceScout.Rate.ScoutRate

/-!
# The thread that batches and sends packets

`sendMachine` is the loop of `TxSendAth`, one section of its `switch` at a time, with the other
operations on the transmit buffer in between. The case `kHandleNewPkt` is split in two: `dequeue`
is `DequeuePkt`, and the pass that starts in `pushNew` copies the packet out of the buffer, which
happens after `DequeuePkt` has released its locks.

What `MakeDecision` answers is an input. It returns `k` as passed in except for `kData`, since the
functions behind the other two modes take `k` by value.

## Main definitions

- `SendAth` — the thread's locals, the encoder and the buffer, with a log of pushed packets
- `sendMachine` — the machine
-/

namespace WspaceScout

open Foundation

/-- What `MakeDecision` writes to its out-parameters; it sets `n` to the size of `rateArr`. Whether
data frames go out over the cellular link as well is left out. -/
structure Decision where
  k : Nat
  rateArr : List Nat

/-- The number of coded packets. -/
def Decision.n (d : Decision) : Nat := d.rateArr.length

/-- An answer of `MakeDecision` to a call with `k`. -/
def Decision.Answers (d : Decision) (mode : TransmitMode) (k : Nat) : Prop :=
  match mode with
  | .data => 1 ≤ d.k ∧ d.k ≤ MAX_BATCH_SIZE ∧ d.k ≤ d.n
  | _ => d.k = k ∧ d.k ≤ d.n

/-- The assertion of `ApplyFECForTimeOut` on `k`; `kMaxK` is `MAX_BATCH_SIZE`. -/
def applyFECForTimeOut (k : Nat) : Except Fault Unit :=
  if 0 < k ∧ k < MAX_BATCH_SIZE then .ok () else .error .timeOutBatchSize

/-- The states of the loop; `pushNew` is the second half of `handleNewPkt`. -/
inductive SendState where
  | handleNewPkt
  | pushNew
  | handlePartialBatch
  | handleRetransmission
  | handleEncoding
  deriving DecidableEq, Repr

/-- A packet that has been copied into the encoder, under the sequence number and status with which
it was handed out. -/
structure Pushed where
  handOut : HandOut
  bytes : List UInt8
  deriving DecidableEq, Repr

/-- A batch on the air and the packets that were pushed into it. -/
structure SentBatch where
  frames : List SentFrame
  pkts : List Pushed

/-- The hand-outs that a batch carries, in order. -/
def SentBatch.handOuts (b : SentBatch) : List HandOut := b.pkts.map Pushed.handOut

/-- The state of the thread and of what it works on. `out` are the locals that `DequeuePkt` writes;
`pending` and `batches` only record. -/
structure SendAth where
  tx : TxState
  state : SendState
  out : Dequeued
  handleRetransmission : Bool
  codingPktCnt : Nat
  kLocal : Nat
  rateArr : List Nat
  encoder : CodeInfo
  ids : BatchIds
  pending : List Pushed
  batches : List SentBatch

namespace SendAth

/-- The hand-out that the locals describe. -/
def lastOut (s : SendAth) : HandOut := ⟨s.out.seqNum, s.out.status⟩

/-- `DequeuePkt`, and the branch of `kHandleNewPkt` that its result selects. -/
def dequeue (s : SendAth) (now : TIME) : Except Fault SendAth :=
  match s.tx.buf.dequeuePkt now with
  | .error e => .error e
  | .ok (out, b) =>
    let s := { s with tx := s.tx.recordDequeue out b, out := out }
    match out.status with
    | .occupiedNew => .ok { s with state := .pushNew }
    | .occupiedRetrans =>
      .ok { s with handleRetransmission := true, state := .handlePartialBatch }
    | _ => .ok { s with state := .handleNewPkt }

/-- Store a decision in the locals and in the encoder. -/
def setCode (s : SendAth) (d : Decision) (startSeq : Nat) : SendAth :=
  { s with
    kLocal := d.k
    rateArr := d.rateArr
    encoder := s.encoder.setCodeInfo d.k d.n startSeq }

/-- The `len` bytes at `buf_addr`, as they are when they are copied. -/
def srcBytes (s : SendAth) : List UInt8 := s.tx.buf.pktBuf.read s.out.buf s.out.len

/-- `PushPkt(len, buf_addr)` with its assertion, and `coding_pkt_cnt++`. -/
def pushPkt (s : SendAth) : Except Fault SendAth :=
  match s.encoder.pushPkt s.srcBytes 0 with
  | none => .error .pushPkt
  | some encoder => .ok { s with
      encoder := encoder
      codingPktCnt := s.codingPktCnt + 1
      pending := s.pending ++ [⟨s.lastOut, s.srcBytes⟩] }

/-- The first packet of a batch fixes its parameters. -/
def openBatch (s : SendAth) (d : Decision) : SendAth :=
  if s.codingPktCnt = 0 then s.setCode d s.out.seqNum else s

/-- The second half of `kHandleNewPkt`, for a new packet. -/
def pushNew (s : SendAth) (d : Decision) : Except Fault SendAth :=
  match (s.openBatch d).pushPkt with
  | .error e => .error e
  | .ok s => .ok { s with
      state := if s.codingPktCnt = s.kLocal then .handleEncoding else .handleNewPkt }

/-- The case `kHandlePartialBatch`. -/
def partialBatch (s : SendAth) (d : Decision) : Except Fault SendAth :=
  if s.codingPktCnt > 0 then
    match applyFECForTimeOut s.codingPktCnt with
    | .error e => .error e
    | .ok () => .ok { s.setCode d 0 with state := .handleEncoding }
  else .ok { s with
    state := if s.handleRetransmission then .handleRetransmission else .handleNewPkt }

/-- The case `kHandleRetransmission`. -/
def retransmission (s : SendAth) (d : Decision) : Except Fault SendAth :=
  match ({ s with handleRetransmission := false }.setCode d s.out.seqNum).pushPkt with
  | .error e => .error e
  | .ok s => .ok { s with state := .handleEncoding }

/-- The case `kHandleEncoding`. -/
def encoding (fec : Fec) (s : SendAth) (scratch : Frame) : Except Fault SendAth :=
  if s.codingPktCnt > 0 then
    match sendCodedBatch s.ids scratch (s.encoder.encodeBatch fec) s.rateArr with
    | .error e => .error e
    | .ok (ids, encoder, frames) => .ok { s with
        ids := ids
        encoder := encoder.clearInfo
        codingPktCnt := 0
        pending := []
        batches := s.batches ++ [⟨frames, s.pending⟩]
        state := if s.handleRetransmission then .handleRetransmission else .handleNewPkt }
  else .error .codingPktCnt

end SendAth

/-- The other threads' operations on the buffer, `DequeuePkt` with and without a packet, and the
pass through the current state with the answer of `MakeDecision`. -/
inductive SendInput where
  | env (input : TxInput)
  | dequeue (now : TIME)
  | batchTimeOut
  | pass (d : Decision) (scratch : Frame)

def execSend (ap : WspaceAP) (fec : Fec) (s : SendAth) : SendInput → Except Fault SendAth
  | .env input =>
    match execTx ap s.tx input with
    | .error e => .error e
    | .ok tx => .ok { s with tx := tx }
  | .dequeue now => s.dequeue now
  | .batchTimeOut => .ok { s with state := .handlePartialBatch }
  | .pass d scratch =>
    match s.state with
    | .handleNewPkt => .ok s
    | .pushNew => s.pushNew d
    | .handlePartialBatch => s.partialBatch d
    | .handleRetransmission => s.retransmission d
    | .handleEncoding => s.encoding fec scratch

/-- `DequeuePkt` is called in `handleNewPkt` only, by this thread only; it may time out whether or
not a packet has come in by the time it wakes up. `E` are the inputs that the buffer takes. -/
def enabledLoop (E : TxState → TxInput → Prop) (s : SendAth) : SendInput → Prop
  | .env input => (∀ now, input ≠ .dequeue now) ∧ E s.tx input
  | .dequeue now => s.state = .handleNewPkt ∧ E s.tx (.dequeue now)
  | .batchTimeOut => s.state = .handleNewPkt
  | .pass d _ =>
    match s.state with
    | .handleNewPkt => False
    | .pushNew => s.codingPktCnt = 0 → d.Answers .data s.kLocal
    | .handlePartialBatch => s.codingPktCnt > 0 → d.Answers .timeOut s.codingPktCnt
    | .handleRetransmission => d.Answers .retrans 1
    | .handleEncoding => True

/-- The inputs of the thread for a bounded number of packets. -/
def enabledSend (s : SendAth) : SendInput → Prop := enabledLoop enabledTx s

instance (d : Decision) (k : Nat) : ∀ mode, Decidable (d.Answers mode k)
  | .data => inferInstanceAs (Decidable (1 ≤ d.k ∧ d.k ≤ MAX_BATCH_SIZE ∧ d.k ≤ d.n))
  | .timeOut | .retrans => inferInstanceAs (Decidable (d.k = k ∧ d.k ≤ d.n))

instance : ∀ input : TxInput, Decidable (∀ now, input ≠ .dequeue now)
  | .dequeue now => isFalse fun h => h now rfl
  | .enqueue _ | .dataAck _ _ | .timeOut _ => isTrue nofun

instance (s : SendAth) : ∀ input, Decidable (enabledSend s input)
  | .env input => inferInstanceAs (Decidable ((∀ now, input ≠ .dequeue now) ∧ enabledTx s.tx input))
  | .dequeue now => inferInstanceAs (Decidable (s.state = .handleNewPkt ∧
      enabledTx s.tx (.dequeue now)))
  | .batchTimeOut => inferInstanceAs (Decidable (s.state = .handleNewPkt))
  | .pass d scratch =>
    match hst : s.state with
    | .handleNewPkt => isFalse (by simp [enabledSend, enabledLoop, hst])
    | .pushNew => decidable_of_iff (s.codingPktCnt = 0 → d.Answers .data s.kLocal)
        (by simp [enabledSend, enabledLoop, hst])
    | .handlePartialBatch => decidable_of_iff
        (s.codingPktCnt > 0 → d.Answers .timeOut s.codingPktCnt)
        (by simp [enabledSend, enabledLoop, hst])
    | .handleRetransmission => decidable_of_iff (d.Answers .retrans 1)
        (by simp [enabledSend, enabledLoop, hst])
    | .handleEncoding => isTrue (by simp [enabledSend, enabledLoop, hst])

/-- The thread before its first pass; uninitialised locals and arrays hold anything. -/
def SendAth.IsInit (R : Nat) (s : SendAth) : Prop :=
  (∃ boot, s.tx = TxState.init boot R) ∧ s.state = .handleNewPkt ∧
    s.handleRetransmission = false ∧ s.codingPktCnt = 0 ∧
    (∃ inds lens rows coded,
      s.encoder = .init .encoder MAX_BATCH_SIZE TUN_PKT_SIZE inds lens rows coded) ∧
    s.ids.rawSeq = 1 ∧ s.ids.batchId = 1 ∧ s.pending = [] ∧ s.batches = []

/-- `TxSendAth` with the other threads. -/
def loopMachine (E : TxState → TxInput → Prop) (ap : WspaceAP) (fec : Fec) (R : Nat) :
    Machine SendAth SendInput Fault where
  init := SendAth.IsInit R
  enabled := enabledLoop E
  exec := execSend ap fec

/-- The thread in runs of fewer than `2 ^ 32 - 1` packets. -/
def sendMachine (ap : WspaceAP) (fec : Fec) (R : Nat) : Machine SendAth SendInput Fault :=
  loopMachine enabledTx ap fec R

/-- The thread in runs of any number of packets. -/
def endlessMachine (ap : WspaceAP) (fec : Fec) (R : Nat) : Machine SendAth SendInput Fault :=
  loopMachine possibleTx ap fec R

theorem endless_of_send {ap : WspaceAP} {fec : Fec} {R : Nat} {s : SendAth}
    (h : (sendMachine ap fec R).Reachable s) : (endlessMachine ap fec R).Reachable s := by
  refine h.project id (fun s hs => hs) fun s input s' _ hen hexec => .inr ⟨input, ?_, hexec⟩
  cases input with
  | env input => exact ⟨hen.1, hen.2.possible⟩
  | dequeue now => exact ⟨hen.1, hen.2⟩
  | batchTimeOut => exact hen
  | pass d scratch => exact hen

/-! ### What a pass through the loop does -/

namespace SendAth

/-- Every packet that has been pushed, in order. -/
def pkts (s : SendAth) : List Pushed := s.batches.flatMap SentBatch.pkts ++ s.pending

/-- The thread has a packet of `DequeuePkt` that it has not copied yet. -/
def HoldsPkt (s : SendAth) : Prop := s.state = .pushNew ∨ s.handleRetransmission = true

theorem HoldsPkt.retrans {s : SendAth} (h : s.HoldsPkt) (hst : s.state ≠ .pushNew) :
    s.handleRetransmission = true :=
  h.resolve_left hst

/-- The effect of a pass on the buffer and on the log of pushed packets. -/
structure PassEffect (s s' : SendAth) : Prop where
  tx : s'.tx = s.tx
  out : s'.out = s.out
  held : s'.HoldsPkt → s.handleRetransmission = true
  pkts : s'.pkts = s.pkts ∨ (s.state = .pushNew ∨ s.state = .handleRetransmission) ∧
    s'.pkts = s.pkts ++ [⟨s.lastOut, s.srcBytes⟩]

variable {fec : Fec} {s s' : SendAth} {d : Decision} {scratch : Frame}

theorem pushPkt_eq (h : s.pushPkt = .ok s') : ∃ c, s.encoder.pushPkt s.srcBytes 0 = some c ∧
    s' = { s with
      encoder := c
      codingPktCnt := s.codingPktCnt + 1
      pending := s.pending ++ [⟨s.lastOut, s.srcBytes⟩] } := by
  unfold pushPkt at h
  split at h
  · cases h
  · rename_i c hc
    cases h
    exact ⟨c, hc, rfl⟩

/-- Opening a batch changes its parameters only. -/
theorem openBatch_frame (s : SendAth) (d : Decision) :
    (s.openBatch d).tx = s.tx ∧ (s.openBatch d).out = s.out ∧
      (s.openBatch d).pending = s.pending ∧ (s.openBatch d).batches = s.batches ∧
      (s.openBatch d).codingPktCnt = s.codingPktCnt ∧
      (s.openBatch d).handleRetransmission = s.handleRetransmission ∧
      (s.openBatch d).encoder.codecType = s.encoder.codecType ∧
      (s.openBatch d).encoder.curInd = s.encoder.curInd := by
  unfold openBatch
  split
  · exact ⟨rfl, rfl, rfl, rfl, rfl, rfl, rfl, rfl⟩
  · exact ⟨rfl, rfl, rfl, rfl, rfl, rfl, rfl, rfl⟩

theorem pushNew_effect (hst : s.state = .pushNew) (h : s.pushNew d = .ok s') : PassEffect s s' := by
  obtain ⟨htx, hout, hpend, hbatch, -, hret, -, -⟩ := openBatch_frame s d
  unfold pushNew at h
  split at h
  · cases h
  · rename_i t ht
    obtain ⟨c, -, rfl⟩ := pushPkt_eq ht
    cases h
    refine ⟨htx, hout, fun hheld => ?_, .inr ⟨.inl hst, ?_⟩⟩
    · obtain hstate | hheld := hheld
      · simp only at hstate
        split at hstate <;> cases hstate
      · exact hret ▸ hheld
    · simp only [pkts, hpend, hbatch, lastOut, srcBytes, hout, htx, List.append_assoc]

theorem partialBatch_effect (h : s.partialBatch d = .ok s') : PassEffect s s' := by
  unfold partialBatch at h
  by_cases hcnt : s.codingPktCnt > 0
  · rw [if_pos hcnt] at h
    split at h
    · cases h
    · cases h
      exact ⟨rfl, rfl, fun hheld => hheld.retrans (by simp), .inl rfl⟩
  · rw [if_neg hcnt] at h
    cases h
    refine ⟨rfl, rfl, fun hheld => hheld.resolve_left fun hstate => ?_, .inl rfl⟩
    simp only at hstate
    split at hstate <;> cases hstate

theorem retransmission_effect (hst : s.state = .handleRetransmission)
    (h : s.retransmission d = .ok s') : PassEffect s s' := by
  unfold retransmission at h
  split at h
  · cases h
  · rename_i t ht
    obtain ⟨c, -, rfl⟩ := pushPkt_eq ht
    cases h
    refine ⟨rfl, rfl, fun hheld => ?_, .inr ⟨.inr hst, ?_⟩⟩
    · obtain hstate | hheld := hheld
      · cases hstate
      · cases hheld
    · exact (List.append_assoc _ _ _).symm

theorem encoding_effect (h : s.encoding fec scratch = .ok s') : PassEffect s s' := by
  unfold encoding at h
  by_cases hcnt : s.codingPktCnt > 0
  · rw [if_pos hcnt] at h
    split at h
    · cases h
    · cases h
      refine ⟨rfl, rfl, fun hheld => hheld.resolve_left fun hstate => ?_, .inl ?_⟩
      · simp only at hstate
        split at hstate <;> cases hstate
      · simp [pkts]
  · rw [if_neg hcnt] at h
    cases h

/-- The inversion lemma for passes. -/
theorem pass_effect (ap : WspaceAP) (h : execSend ap fec s (.pass d scratch) = .ok s') :
    s.state = .handleNewPkt ∧ s' = s ∨ PassEffect s s' := by
  unfold execSend at h
  cases hst : s.state with
  | handleNewPkt =>
    rw [hst] at h
    cases h
    exact .inl ⟨rfl, rfl⟩
  | pushNew =>
    rw [hst] at h
    exact .inr (pushNew_effect hst h)
  | handlePartialBatch =>
    rw [hst] at h
    exact .inr (partialBatch_effect h)
  | handleRetransmission =>
    rw [hst] at h
    exact .inr (retransmission_effect hst h)
  | handleEncoding =>
    rw [hst] at h
    exact .inr (encoding_effect h)

theorem dequeue_tx (ap : WspaceAP) {now : TIME} (h : s.dequeue now = .ok s') :
    execTx ap s.tx (.dequeue now) = .ok s'.tx := by
  unfold dequeue at h
  unfold execTx
  cases hdeq : s.tx.buf.dequeuePkt now with
  | error e =>
    rw [hdeq] at h
    cases h
  | ok r =>
    rw [hdeq] at h
    obtain ⟨out, b⟩ := r
    simp only [hdeq]
    cases hst : out.status <;> simp only [hst] at h <;> cases h <;> rfl

end SendAth

/-- The buffer's part of a run is a run of the buffer. -/
theorem tx_reachable {ap : WspaceAP} {fec : Fec} {R : Nat} {s : SendAth}
    (h : (sendMachine ap fec R).Reachable s) : (txMachine ap R).Reachable s.tx := by
  refine h.project SendAth.tx (fun s hs => hs.1) fun s input s' _ hen hexec => ?_
  rw [txMachine_enabled, txMachine_exec]
  cases input with
  | env input =>
    have henv : execSend ap fec s (.env input) = .ok s' := hexec
    simp only [execSend] at henv
    split at henv
    · cases henv
    · rename_i tx htx
      cases henv
      exact .inr ⟨input, hen.2, htx⟩
  | dequeue now => exact .inr ⟨.dequeue now, hen.2, SendAth.dequeue_tx ap hexec⟩
  | batchTimeOut =>
    left
    cases hexec
    rfl
  | pass d scratch =>
    left
    obtain ⟨-, rfl⟩ | heff := SendAth.pass_effect ap hexec
    · rfl
    · exact heff.tx

end WspaceScout
