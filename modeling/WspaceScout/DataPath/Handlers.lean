import WspaceScout.AsymUtil.TxDataBuf
import WspaceScout.Foundation.CountedLoop

/-!
# The handlers of data acknowledgements and of ack timeouts

`handleDataAck` and `handleTimeOut` are the two functions of the data-ack thread that free slots,
mark packets for retransmission and move the cursors `headPt` and `currPt`. Both take the reading
`now` of the clock that they make once at their start.

The nack array is a list; where the source keeps a cursor `nack_cnt` into it, the model keeps the
unread rest of the list.
-/

namespace WspaceScout

open Foundation

/-- Duplicate acks after which the handler asks for a timeout. -/
def kMaxDupAckCnt : Int := 10

/-- The settings of the access point that the handlers read (`rtt` in milliseconds). -/
structure WspaceAP where
  numRetrans : Nat
  rtt : Int
  maxContiguousTimeOut : Int

/-- The members of `ClientContext` that the handlers read and write. -/
structure ClientContext where
  dataPktBuf : TxDataBuf
  expectDataAckSeq : Nat
  dupDataAckCnt : Int
  contiguousTimeOut : Int

/-- The constructor of `ClientContext`. -/
def ClientContext.init (boot : Fin BUF_SIZE → TIME) (numRetrans : Nat) : ClientContext where
  dataPktBuf := .init boot numRetrans
  expectDataAckSeq := 1
  dupDataAckCnt := 0
  contiguousTimeOut := 0

/-- A parsed `DATA_ACK`: `nackArr` are the first `num_nacks` entries of the nack array. -/
structure DataAck where
  ackSeq : Nat
  endSeq : Nat
  nackArr : List Nat
  deriving DecidableEq, Repr

/-- The locals of the main loop of `HandleDataAck`; `nacks` is `nack_arr` from `nack_cnt` on. -/
structure AckLoop where
  bookKeepArr : CellRing BUF_SIZE BookKeeping
  headPtFinal : Nat
  currPtFinal : Nat
  isFirstUpdate : Bool
  nacks : List Nat

namespace AckLoop

/-- `UpdateBookKeeping(index_mod, 0, kEmpty, 0, 0, false)`, then reclaim the slot if it is the
oldest one. The source does these two in either order. -/
def release (s : AckLoop) (index : Nat) : AckLoop :=
  { s with
    bookKeepArr := s.bookKeepArr.set index (s.bookKeepArr.get index).free
    headPtFinal := if s.headPtFinal = index then uint32 (s.headPtFinal + 1) else s.headPtFinal }

/-- The first slot left for retransmission is where sending resumes. -/
def resumeHere (s : AckLoop) (index : Nat) : AckLoop :=
  if s.isFirstUpdate then { s with isFirstUpdate := false, currPtFinal := index } else s

/-- One pass of the main loop of `HandleDataAck`. -/
def visit (ap : WspaceAP) (now : TIME) (s : AckLoop) (index : Nat) : AckLoop :=
  let bk := s.bookKeepArr.get index
  match bk.status with
  | .occupiedOutbound =>
    match s.nacks with
    | nack :: rest =>
      if uint32 (index + 1) = nack then
        let interval := now.sub bk.timestamp / 1000
        let s' :=
          if bk.numRetrans = 0 then s.release index
          else if interval > ap.rtt ∨ bk.numRetrans = ap.numRetrans then
            { s with
              bookKeepArr := s.bookKeepArr.set index { bk with status := .occupiedRetrans } }
              |>.resumeHere index
          else s
        { s' with nacks := rest }
      else s.release index
    | [] => s.release index
  | .empty =>
    let s := match s.nacks with
      | nack :: rest =>
        if uint32Sub nack 1 % BUF_SIZE = index % BUF_SIZE then { s with nacks := rest } else s
      | [] => s
    if s.headPtFinal = index then { s with headPtFinal := uint32 (s.headPtFinal + 1) } else s
  | _ =>
    match s.nacks with
    | nack :: rest =>
      if nack = bk.seqNum then { s.resumeHere index with nacks := rest } else s.release index
    | [] => s.release index

end AckLoop

/-- The `while` loop that steps over nacks of slots before the head. -/
def skipStale (headPt : Nat) (nacks : List Nat) : List Nat :=
  nacks.dropWhile fun nack => uint32Sub nack 1 < headPt

/-- The head after the bulk release: everything before the first nack that is not stale. -/
def bulkHead (headPt : Nat) (ack : DataAck) : Nat :=
  if ack.nackArr = [] then ack.endSeq
  else
    match skipStale headPt ack.nackArr with
    | nack :: _ => if uint32Sub nack 1 > headPt then uint32Sub nack 1 else headPt
    | [] => headPt

/-- The loop that frees the slots of `[headPt, headPtFinal)`. -/
def bulkRelease (arr : CellRing BUF_SIZE BookKeeping) (headPt headPtFinal : Nat) :
    CellRing BUF_SIZE BookKeeping :=
  (List.range' headPt (headPtFinal - headPt)).foldl (fun arr i => arr.set i (arr.get i).free) arr

/-- Write the new cursors back: the tail of both handlers. -/
def moveCursors (b : TxDataBuf) (arr : CellRing BUF_SIZE BookKeeping)
    (headPtFinal currPtFinal : Nat) : TxDataBuf :=
  { b with
    bookKeepArr := arr
    headPt := if headPtFinal > b.headPt then headPtFinal else b.headPt
    currPt := if currPtFinal < headPtFinal then headPtFinal else currPtFinal }

/-- The part of `HandleDataAck` that works on the buffer, once the ack has been accepted. -/
def applyDataAck (ap : WspaceAP) (now : TIME) (b : TxDataBuf) (ack : DataAck) : TxDataBuf :=
  let headPtFinal := bulkHead b.headPt ack
  let arr := bulkRelease b.bookKeepArr b.headPt headPtFinal
  if ack.nackArr = [] then moveCursors b arr headPtFinal b.currPt
  else
    let nacks := skipStale b.headPt ack.nackArr
    let s : AckLoop := ⟨arr, headPtFinal, b.currPt, true, nacks⟩
    let s := (List.range' headPtFinal (uint32Sub ack.endSeq 1 + 1 - headPtFinal)).foldl
      (AckLoop.visit ap now) s
    moveCursors b s.bookKeepArr s.headPtFinal s.currPtFinal

/-- `WspaceAP::HandleDataAck`. The result says whether to handle a timeout next. -/
def handleDataAck (ap : WspaceAP) (now : TIME) (c : ClientContext) (ack : DataAck) :
    Bool × ClientContext :=
  if ack.ackSeq < c.expectDataAckSeq then (false, c)  -- out of order
  else
    let c := { c with expectDataAckSeq := uint32 (ack.ackSeq + 1) }
    if ack.endSeq = 0 then (false, c)
    else if uint32Sub ack.endSeq 1 < c.dataPktBuf.headPt then  -- duplicate
      let c := { c with dupDataAckCnt := c.dupDataAckCnt + 1 }
      if c.dupDataAckCnt ≥ kMaxDupAckCnt then
        (true, { c with dupDataAckCnt := 0, contiguousTimeOut := ap.maxContiguousTimeOut })
      else (false, c)
    else
      (false, { c with
        dupDataAckCnt := 0
        contiguousTimeOut := 0
        dataPktBuf := applyDataAck ap now c.dataPktBuf ack })

/-- The locals of the loop of `HandleTimeOut`. -/
structure TimeOutLoop where
  bookKeepArr : CellRing BUF_SIZE BookKeeping
  headPtFinal : Nat
  currPtFinal : Nat
  isFirstUpdate : Bool
  incrementTimeOut : Bool

/-- `if (IsFirstUpdate) { assert(seq_num>=1); curr_pt_final = seq_num - 1; … }`. -/
def TimeOutLoop.resumeAt (s : TimeOutLoop) (seqNum : Nat) : Except Fault TimeOutLoop :=
  if s.isFirstUpdate then
    if seqNum ≥ 1 then .ok { s with currPtFinal := seqNum - 1, isFirstUpdate := false }
    else .error .timeOutBadSeq
  else .ok s

/-- One pass of the loop of `HandleTimeOut`; the flag leaves the loop at the first new packet. -/
def TimeOutLoop.visit (ap : WspaceAP) (now : TIME) (s : TimeOutLoop) (index : Nat) :
    Except Fault (TimeOutLoop × Bool) :=
  let bk := s.bookKeepArr.get index
  match bk.status with
  | .occupiedRetrans => do
    let s ← s.resumeAt bk.seqNum
    .ok (s, false)
  | .occupiedOutbound =>
    let interval := now.sub bk.timestamp / 1000
    if bk.numRetrans = 0 then
      .ok ({ s with
        headPtFinal :=
          if s.headPtFinal = uint32Sub bk.seqNum 1 then uint32 (s.headPtFinal + 1)
          else s.headPtFinal
        bookKeepArr := s.bookKeepArr.set index bk.free }, false)
    else if interval > ap.rtt * (12 / 10) then do
      let s ← { s with incrementTimeOut := true }.resumeAt bk.seqNum
      .ok ({ s with
        bookKeepArr := s.bookKeepArr.set index { bk with status := .occupiedRetrans } }, false)
    else .ok (s, false)
  | .empty =>
    .ok ({ s with
      headPtFinal :=
        if s.headPtFinal = index then uint32 (s.headPtFinal + 1) else s.headPtFinal }, false)
  | .occupiedNew => .ok (s, true)

/-- The part of `HandleTimeOut` that works on the buffer; also returns `increment_time_out`. -/
def applyTimeOut (ap : WspaceAP) (now : TIME) (b : TxDataBuf) :
    Except Fault (Bool × TxDataBuf) := do
  let s ← countUp (TimeOutLoop.visit ap now) b.headPt (b.tailPt - b.headPt)
    ⟨b.bookKeepArr, b.headPt, b.currPt, true, false⟩
  .ok (s.incrementTimeOut, moveCursors b s.bookKeepArr s.headPtFinal s.currPtFinal)

/-- `WspaceAP::HandleTimeOut`. The flag says whether it calls `SetHighLoss` and flushes the raw
packet buffer. -/
def handleTimeOut (ap : WspaceAP) (now : TIME) (c : ClientContext) :
    Except Fault (Bool × ClientContext) := do
  let (incrementTimeOut, b) ← applyTimeOut ap now c.dataPktBuf
  let cnt :=
    if incrementTimeOut then wrapInt32 (c.contiguousTimeOut + 1)
    else if c.contiguousTimeOut < ap.maxContiguousTimeOut then 0
    else c.contiguousTimeOut
  if cnt ≥ ap.maxContiguousTimeOut then
    .ok (true, { c with dataPktBuf := b, contiguousTimeOut := 0 })
  else .ok (false, { c with dataPktBuf := b, contiguousTimeOut := cnt })

end WspaceScout
