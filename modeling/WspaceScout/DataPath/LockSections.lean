import WspaceScout.DataPath.Producers
import WspaceScout.Foundation.InFlight

/-!
# The transmit buffer under its locks

`qlock_` guards the cursors, `lock_arr_[k]` the slot `k`. `EnqueuePkt` and `DequeuePkt` take the
element lock while they have the queue lock, move a cursor, release the queue lock and only then
work on the slot; the handlers keep the queue lock and take the element locks one after the other.

`lockMachine` has a step for every stretch of a thread between two points at which another thread
can come in. A lock that is taken holds the section that runs under it, with the locals of that
section, so two sections can never run under one lock.

## Main definitions

- `ElementSection`, `QueueSection` — what runs under the two kinds of locks
- `LockState.runElement`, `LockState.runQueue` — the steps of the threads that hold a lock
- `lockMachine` — `TxRcvCell`, `TxSendProbe`, `TxSendAth` and `TxHandleDataAck` on one buffer
-/

namespace WspaceScout

open Foundation

/-- What runs under an element lock. `index` is the cursor from which the slot was taken. -/
inductive ElementSection where
  | storePkt (p : Producer) (index seqNum : Nat) (pkt : List UInt8)
  | handOut (index : Nat)

/-- The locals of the main loop of `HandleDataAck` next to the slots. -/
structure AckLocals where
  headPtFinal : Nat
  currPtFinal : Nat
  isFirstUpdate : Bool
  nacks : List Nat

/-- The loop over the slots `arr`. -/
def AckLocals.on (l : AckLocals) (arr : CellRing BUF_SIZE BookKeeping) : AckLoop :=
  ⟨arr, l.headPtFinal, l.currPtFinal, l.isFirstUpdate, l.nacks⟩

def AckLoop.locals (s : AckLoop) : AckLocals :=
  ⟨s.headPtFinal, s.currPtFinal, s.isFirstUpdate, s.nacks⟩

/-- The locals of the loop of `HandleTimeOut` next to the slots. -/
structure TimeOutLocals where
  headPtFinal : Nat
  currPtFinal : Nat
  isFirstUpdate : Bool
  incrementTimeOut : Bool

/-- The loop over the slots `arr`. -/
def TimeOutLocals.on (l : TimeOutLocals) (arr : CellRing BUF_SIZE BookKeeping) : TimeOutLoop :=
  ⟨arr, l.headPtFinal, l.currPtFinal, l.isFirstUpdate, l.incrementTimeOut⟩

def TimeOutLoop.locals (s : TimeOutLoop) : TimeOutLocals :=
  ⟨s.headPtFinal, s.currPtFinal, s.isFirstUpdate, s.incrementTimeOut⟩

/-- What runs under the queue lock. `index` is the counter of a loop and `n` the number of passes
that are left. -/
inductive QueueSection where
  | acquireTailLock (p : Producer) (seqNum : Nat) (pkt : List UInt8)
  | acquireCurrLock
  | bulkRelease (ack : DataAck) (index headPtFinal : Nat)
  | ackLoop (ack : DataAck) (now : TIME) (index : Nat) (l : AckLocals)
  | timeOutLoop (now : TIME) (index n : Nat) (l : TimeOutLocals)

/-- Where a producer is; `locked` when one of its sections holds a lock. -/
inductive ProducerPc where
  | idle
  | read (seqNum : Nat) (pkt : List UInt8)
  | locked

/-- Where `TxSendAth` is; a wait may have been signalled. -/
inductive SenderPc where
  | idle
  | waiting (signalled : Bool)
  | locked
  deriving DecidableEq

/-- `SignalFill`: only a thread that waits notices. -/
def SenderPc.signalFill : SenderPc → SenderPc
  | .waiting _ => .waiting true
  | pc => pc

/-- One client with the locks of its buffer. The history is for the proofs. -/
structure LockState where
  client : ClientContext
  history : History
  qlock : Option QueueSection
  lockArr : Fin BUF_SIZE → Option ElementSection
  producer : Producer → ProducerPc
  sender : SenderPc

/-- A step of a thread. `queueStep` and `elementStep` belong to the threads that hold a lock, and
`wake` ends a wait, which may be spurious. -/
inductive LockInput where
  | enqueuePkt (p : Producer) (pkt : List UInt8)
  | lockTail (p : Producer)
  | lockCurr
  | wake (timedOut : Bool)
  | dataAck (ack : DataAck)
  | timeOut (now : TIME)
  | queueStep (now : TIME)
  | elementStep (k : Fin BUF_SIZE) (now : TIME)

namespace LockState

abbrev buf (s : LockState) : TxDataBuf := s.client.dataPktBuf

def setBuf (s : LockState) (b : TxDataBuf) : LockState :=
  { s with client := { s.client with dataPktBuf := b } }

def setArr (s : LockState) (arr : CellRing BUF_SIZE BookKeeping) : LockState :=
  s.setBuf { s.buf with bookKeepArr := arr }

def setProducer (s : LockState) (p : Producer) (pc : ProducerPc) : LockState :=
  { s with producer := Function.update s.producer p pc }

/-- Take or release `lock_arr_[k]`. -/
def setElement (s : LockState) (k : Fin BUF_SIZE) (sec : Option ElementSection) : LockState :=
  { s with lockArr := Function.update s.lockArr k sec }

def setQueue (s : LockState) (sec : Option QueueSection) : LockState := { s with qlock := sec }

def init (boot : Fin BUF_SIZE → TIME) (R : Nat) : LockState :=
  ⟨.init boot R, ⟨[], [], []⟩, none, fun _ => none, fun _ => .idle, .idle⟩

/-- The section under `lock_arr_[k]` runs to its end and releases the lock. -/
def runElement (s : LockState) (k : Fin BUF_SIZE) (now : TIME) :
    ElementSection → Except Fault LockState
  | .storePkt p index seqNum pkt =>
    match s.buf.storePkt index seqNum pkt with
    | .error e => .error e
    | .ok b => .ok (((s.setBuf b).setElement k none).setProducer p .idle)
  | .handOut index =>
    match s.buf.handOut index now with
    | .error e => .error e
    | .ok (_, b) => .ok { (s.setBuf b).setElement k none with sender := .idle }

/-- The end of both handlers: write the cursors back, signal, release the queue lock. Nobody waits
for `empty_cond_`. -/
def commit (s : LockState) (headPtFinal currPtFinal : Nat) : LockState :=
  let b := moveCursors s.buf s.buf.bookKeepArr headPtFinal currPtFinal
  { s.setBuf b with
    qlock := none
    sender := if b.currPt ≠ s.buf.currPt then s.sender.signalFill else s.sender }

/-- The end of an accepted ack. -/
def commitAck (s : LockState) (ack : DataAck) (headPtFinal currPtFinal : Nat) : LockState :=
  { s.commit headPtFinal currPtFinal with
    history := { s.history with acked := s.history.acked ++ [ack] } }

/-- The counters that `HandleTimeOut` updates after the queue lock has been released. -/
def commitTimeOut (ap : WspaceAP) (s : LockState) (l : TimeOutLocals) : LockState :=
  let s := s.commit l.headPtFinal l.currPtFinal
  let cnt :=
    if l.incrementTimeOut then wrapInt32 (s.client.contiguousTimeOut + 1)
    else if s.client.contiguousTimeOut < ap.maxContiguousTimeOut then 0
    else s.client.contiguousTimeOut
  { s with client := { s.client with
      contiguousTimeOut := if cnt ≥ ap.maxContiguousTimeOut then 0 else cnt } }

/-- `AcquireTailLock` leaves the buffer `b` and takes the element lock of the slot it reserved. -/
def lockTail (s : LockState) (p : Producer) (seqNum : Nat) (pkt : List UInt8) (b : TxDataBuf) :
    LockState :=
  { ((s.setBuf b).setQueue none).setElement (Fin.ofNat BUF_SIZE s.buf.tailPt)
      (some (.storePkt p s.buf.tailPt seqNum pkt)) with
    sender := s.sender.signalFill
    history := { s.history with enqueued := s.history.enqueued ++ [(seqNum, pkt)] } }

/-- `AcquireCurrLock` takes the element lock of the slot at the cursor. -/
def lockCurr (s : LockState) : LockState :=
  let bk := s.buf.slot s.buf.currPt
  let new := if bk.status.isPkt then [⟨bk.seqNum, bk.status⟩] else []
  { ((s.setBuf s.buf.acquireCurrLock.2).setQueue none).setElement
      (Fin.ofNat BUF_SIZE s.buf.currPt) (some (.handOut s.buf.currPt)) with
    history := { s.history with handedOut := s.history.handedOut ++ new } }

/-- The section under the queue lock goes on until it takes another element lock or releases the
queue lock. -/
def runQueue (ap : WspaceAP) (now : TIME) (s : LockState) : QueueSection → Except Fault LockState
  | .acquireTailLock p seqNum pkt =>
    match s.buf.acquireTailLock with
    | none => .ok ((s.setQueue none).setProducer p .idle)
    | some (_, b) => .ok (s.lockTail p seqNum pkt b)
  | .acquireCurrLock =>
    if s.buf.isEmpty then .ok { s.setQueue none with sender := .waiting false }
    else .ok s.lockCurr
  | .bulkRelease ack index headPtFinal =>
    let arr := s.buf.bookKeepArr
    if index < headPtFinal then
      .ok ((s.setArr (arr.set index (arr.get index).free)).setQueue
        (some (.bulkRelease ack (index + 1) headPtFinal)))
    else if ack.nackArr = [] then .ok (s.commitAck ack headPtFinal s.buf.currPt)
    else
      .ok (s.setQueue (some (.ackLoop ack now headPtFinal
        ⟨headPtFinal, s.buf.currPt, true, skipStale s.buf.headPt ack.nackArr⟩)))
  | .ackLoop ack now index l =>
    if index ≤ uint32Sub ack.endSeq 1 then
      let r := AckLoop.visit ap now (l.on s.buf.bookKeepArr) index
      .ok ((s.setArr r.bookKeepArr).setQueue (some (.ackLoop ack now (index + 1) r.locals)))
    else .ok (s.commitAck ack l.headPtFinal l.currPtFinal)
  | .timeOutLoop now index n l =>
    match n with
    | 0 => .ok (s.commitTimeOut ap l)
    | n + 1 =>
      match TimeOutLoop.visit ap now (l.on s.buf.bookKeepArr) index with
      | .error e => .error e
      | .ok (r, leave) =>
        .ok ((s.setArr r.bookKeepArr).setQueue
          (some (.timeOutLoop now (index + 1) (if leave then 0 else n) r.locals)))

end LockState

/-- The element lock that a section under the queue lock takes in its next step. -/
def QueueSection.next (b : TxDataBuf) : QueueSection → Option (Fin BUF_SIZE)
  | .acquireTailLock _ _ _ => if b.isFull then none else some (Fin.ofNat BUF_SIZE b.tailPt)
  | .acquireCurrLock => if b.isEmpty then none else some (Fin.ofNat BUF_SIZE b.currPt)
  | .bulkRelease _ index headPtFinal =>
    if index < headPtFinal then some (Fin.ofNat BUF_SIZE index) else none
  | .ackLoop ack _ index _ =>
    if index ≤ uint32Sub ack.endSeq 1 then some (Fin.ofNat BUF_SIZE index) else none
  | .timeOutLoop _ index n _ => if n = 0 then none else some (Fin.ofNat BUF_SIZE index)

/-- The section belongs to one of the two handlers. -/
def QueueSection.isHandler : QueueSection → Bool
  | .acquireTailLock _ _ _ | .acquireCurrLock => false
  | _ => true

/-- `HandleDataAck` returns before it takes the queue lock. -/
def ClientContext.ignores (c : ClientContext) (ack : DataAck) : Bool :=
  ack.ackSeq < c.expectDataAckSeq ∨ ack.endSeq = 0

/-- Execute a step. A duplicate ack is counted without touching a slot. -/
def execLock (ap : WspaceAP) (s : LockState) : LockInput → Except Fault LockState
  | .enqueuePkt p pkt => .ok (s.setProducer p (.read (uint32 (s.buf.tailPt + 1)) pkt))
  | .lockTail p =>
    match s.producer p with
    | .read seqNum pkt =>
      .ok ((s.setQueue (some (.acquireTailLock p seqNum pkt))).setProducer p .locked)
    | _ => .ok s
  | .lockCurr => .ok { s.setQueue (some .acquireCurrLock) with sender := .locked }
  | .wake timedOut =>
    if timedOut then .ok { s with sender := .idle }
    else .ok { s.setQueue (some .acquireCurrLock) with sender := .locked }
  | .dataAck ack =>
    if s.client.accepts ack then
      .ok { s.setQueue (some (.bulkRelease ack s.buf.headPt (bulkHead s.buf.headPt ack))) with
        client := { s.client with
          expectDataAckSeq := uint32 (ack.ackSeq + 1)
          dupDataAckCnt := 0
          contiguousTimeOut := 0 } }
    else .ok { s with client := (handleDataAck ap ⟨0, 0⟩ s.client ack).2 }
  | .timeOut now =>
    .ok (s.setQueue (some (.timeOutLoop now s.buf.headPt (s.buf.tailPt - s.buf.headPt)
      ⟨s.buf.headPt, s.buf.currPt, true, false⟩)))
  | .queueStep now =>
    match s.qlock with
    | some sec => s.runQueue ap now sec
    | none => .ok s
  | .elementStep k now =>
    match s.lockArr k with
    | some sec => s.runElement k now sec
    | none => .ok s

/-- The steps that the threads can take: a lock is taken only while nobody has it, packets have at
least one byte and fit a slot, and acks of data packets are well-formed. -/
def enabledLock (s : LockState) : LockInput → Prop
  | .enqueuePkt p pkt => s.producer p = .idle ∧ 0 < pkt.length ∧ pkt.length ≤ PKT_SIZE
  | .lockTail p => s.qlock = none ∧ ∃ seqNum pkt, s.producer p = .read seqNum pkt
  | .lockCurr => s.qlock = none ∧ s.sender = .idle
  | .wake _ => s.qlock = none ∧ ∃ signalled, s.sender = .waiting signalled
  | .dataAck ack => ack.WellFormed s.history.highest ∧
      (s.qlock = none ∨ s.client.ignores ack = true ∧ ∀ sec ∈ s.qlock, sec.isHandler = false)
  | .timeOut _ => s.qlock = none
  | .queueStep _ => ∃ sec, s.qlock = some sec ∧ ∀ k ∈ sec.next s.buf, s.lockArr k = none
  | .elementStep k _ => ∃ sec, s.lockArr k = some sec

/-- The threads of one client that work on its transmit buffer. -/
def lockMachine (ap : WspaceAP) (R : Nat) : Machine LockState LockInput Fault where
  init s := ∃ boot, s = LockState.init boot R
  enabled := enabledLock
  exec := execLock ap

/-- The number that a call has read is still the next one when it gets the queue lock with room in
the buffer, and fewer than `2 ^ 32 - 1` packets are ever enqueued. -/
def LockState.InTurn (s : LockState) : LockInput → Prop
  | .lockTail p => s.buf.isFull = false → s.history.enqueued.length + 1 < 4294967295 ∧
      ∀ seqNum pkt, s.producer p = .read seqNum pkt → seqNum = uint32 (s.buf.tailPt + 1)
  | _ => True

end WspaceScout
