import WspaceScout.AccessPoint.Datagrams
import WspaceScout.DataPath.PacketBudget
import WspaceScout.DataPath.Window

/-!
# The access point and its clients

`client_context_tbl_` has a context for every client. One thread, `TxRcvCell`, takes datagrams from
the cellular link to the contexts; each client has its own threads that handle data acks, raw acks
and packets to send. Datagrams may be lost, delayed, reordered and duplicated.

Each call of `EnqueuePkt`, `DequeuePkt`, `RcvAck` and `RcvGPS` is one step, so no call of
`EnqueuePkt` overtakes another one. A turn of a thread that waits for acks is one step too: with a
data ack `TxHandleAck`, `HandleDataAck` and, if it asks for that, `HandleTimeOut`; without one
`HandleTimeOut`; with a raw ack `TxHandleAck` and the check of the ack number. A GPS log file is
configured: without one `fp_` is `NULL`.

## Main definitions

- `ApState.rcvCell` — `TxRcvCell` on one datagram
- `ClientState.handleAck`, `ClientState.handleRawAck` — the threads that wait for acks
- `Honest` — what the clients and the controller send
- `apMachine` — the access point on its network
-/

namespace WspaceScout

open Foundation

/-- What stops the program. -/
inductive ApFault where
  | read
  | invalidType
  | nullClient
  | gpsLength
  | gpsSeq
  | gpsLog
  | wrongAck
  | buffer (fault : Fault)
  deriving DecidableEq, Repr

/-- The flag and the packet of an `AckContext`. -/
structure AckSlot where
  ackAvailable : Bool
  pkt : AckPkt

/-- A line of the GPS log, the four readings as the words of the `double`s. -/
structure GPSRecord where
  seq : Nat
  time : Nat
  latitude : Nat
  longitude : Nat
  speed : Nat
  clientId : Int
  deriving DecidableEq, Repr

/-- The part of a `ClientContext` that datagrams reach. `gpsLog` is `none` as long as no log file
has been configured; `rawAcks` are the acks passed on to `PopPktStatus`, with their numbers. -/
structure ClientState where
  tx : TxState
  dataAck : AckSlot
  rawAck : AckSlot
  expectRawAckSeq : Nat
  rawAcks : List (Nat × RawAck)
  prevGPSSeq : Nat
  speed : ℚ
  gpsLog : Option (List GPSRecord)

/-- The access point. `buf` is the buffer of `TxRcvCell`, `control` what has been written to the
controller, and `net` what has been sent to the access point so far. -/
structure ApState where
  clients : Int → Option ClientState
  buf : Memory
  control : List (List UInt8)
  net : List (List UInt8)

/-- The settings that matter here. -/
structure ApConfig where
  ap : WspaceAP
  bsId : Int
  probePktSize : Nat

namespace ClientState

/-- The mailbox of a type of acks. -/
def slot (c : ClientState) : AckType → AckSlot
  | .dataAck => c.dataAck
  | .rawAck => c.rawAck

def setSlot (c : ClientState) (a : AckSlot) : AckType → ClientState
  | .dataAck => { c with dataAck := a }
  | .rawAck => { c with rawAck := a }

/-- A call on the transmit buffer. -/
def run (ap : WspaceAP) (c : ClientState) (input : TxInput) : Except ApFault ClientState :=
  match execTx ap c.tx input with
  | .error e => .error (.buffer e)
  | .ok t => .ok { c with tx := t }

/-- `RcvAck`, once the mailbox is empty. -/
def rcvAck (c : ClientState) (type : AckType) (pkt : List UInt8) : ClientState :=
  c.setSlot ⟨true, (c.slot type).pkt.rcvAck pkt⟩ type

/-- The line that `LogGPSInfo` writes. -/
def gpsRecord (buf : Memory) : GPSRecord where
  seq := GPSHeader.seq.get buf
  time := GPSHeader.time.get buf
  latitude := GPSHeader.latitude.get buf
  longitude := GPSHeader.longitude.get buf
  speed := GPSHeader.speed.get buf
  clientId := intAt GPSHeader.clientId buf

/-- `RcvGPS` on a datagram of the right length. The speed is set to zero, whatever it is. -/
def rcvGPS (c : ClientState) (buf : Memory) : Except ApFault ClientState :=
  if GPSHeader.seq.get buf = 0 then .error .gpsSeq
  else if GPSHeader.seq.get buf > c.prevGPSSeq then
    match c.gpsLog with
    | none => .error .gpsLog
    | some log =>
      .ok { c with
        prevGPSSeq := GPSHeader.seq.get buf
        speed := 0
        gpsLog := some (log ++ [gpsRecord buf]) }
  else .ok c

/-- `TxHandleAck` with an ack in the mailbox: what it parses, and the assertions on it. -/
def takeAck (c : ClientState) (ctx : AckContext) : Except ApFault (AckPkt.Parsed × ClientState) :=
  let r := ctx.parse (c.slot ctx.type).pkt
  if ctx.accepts r then .ok (r, c.setSlot ⟨false, (c.slot ctx.type).pkt⟩ ctx.type)
  else .error .wrongAck

/-- `TxHandleDataAck` with an ack in the mailbox; `later` is the clock in `HandleTimeOut`. -/
def handleAck (cfg : ApConfig) (id : Int) (now later : TIME) (c : ClientState) :
    Except ApFault ClientState :=
  match c.takeAck ⟨.dataAck, id, cfg.bsId⟩ with
  | .error e => .error e
  | .ok (r, c) =>
    let ack : DataAck := ⟨r.ackSeq, r.endSeq, r.seqArr⟩
    match c.run cfg.ap (.dataAck now ack) with
    | .error e => .error e
    | .ok c' =>
      if (handleDataAck cfg.ap now c.tx.client ack).1 then c'.run cfg.ap (.timeOut later) else .ok c'

/-- `TxHandleRawAck` with an ack in the mailbox. -/
def handleRawAck (cfg : ApConfig) (id : Int) (c : ClientState) : Except ApFault ClientState :=
  match c.takeAck ⟨.rawAck, id, cfg.bsId⟩ with
  | .error e => .error e
  | .ok (r, c) =>
    if r.ackSeq ≥ c.expectRawAckSeq then
      .ok { c with
        expectRawAckSeq := uint32 (r.ackSeq + 1)
        rawAcks := c.rawAcks ++ [(r.ackSeq, ⟨r.endSeq, r.numPkts.getD 0, r.seqArr⟩)] }
    else .ok c

/-- A new context whose log file is configured. -/
def init (boot : Fin BUF_SIZE → TIME) (R : Nat) (pkt : AckPkt) : ClientState where
  tx := .init boot R
  dataAck := ⟨false, pkt⟩
  rawAck := ⟨false, pkt⟩
  expectRawAckSeq := 1
  rawAcks := []
  prevGPSSeq := 0
  speed := -1
  gpsLog := some []

end ClientState

namespace ApState

def setClient (s : ApState) (id : Int) (c : ClientState) : ApState :=
  { s with clients := Function.update s.clients id (some c) }

/-- `client_context_tbl_[id]->…`; the entry of an id that is not in the table is a null pointer. -/
def withClient (s : ApState) (id : Int) (f : ClientState → Except ApFault ClientState) :
    Except ApFault ApState :=
  match s.clients id with
  | none => .error .nullClient
  | some c => (f c).map (s.setClient id)

/-- `TxRcvCell` has read `pkt` into its buffer. -/
def received (s : ApState) (pkt : List UInt8) : ApState := { s with buf := s.buf.write 0 pkt }

/-- `TxRcvCell` on one datagram. -/
def rcvCell (cfg : ApConfig) (s : ApState) (d : List UInt8) : Except ApFault ApState :=
  match tunRead d TUN_PKT_SIZE with
  | none => .error .read
  | some pkt =>
    let s := s.received pkt
    match dispatch s.buf with
    | .cellData => .ok { s with control := s.control ++ [pkt] }
    | .ack type id => s.withClient id fun c => .ok (c.rcvAck type pkt)
    | .gps id =>
      if pkt.length ≠ GPSHeader.size then .error .gpsLength
      else s.withClient id fun c => c.rcvGPS s.buf
    | .packet id => s.withClient id fun c => c.run cfg.ap (.enqueue pkt)
    | .invalid => .error .invalidType

/-- `RcvAck` would wait: the last ack of that type has not been taken yet. -/
def Blocked (s : ApState) (d : List UInt8) : Prop :=
  ∃ type id c, dispatch (s.buf.write 0 (d.take TUN_PKT_SIZE)) = .ack type id ∧
    s.clients id = some c ∧ (c.slot type).ackAvailable = true

end ApState

/-- A step of the network, of `TxRcvCell`, `TxSendProbe` or of a thread of client `id`. -/
inductive ApInput where
  | send (d : List UInt8)
  | rcvCell (d : List UInt8)
  | sendProbe (id : Int) (pktContent : List UInt8)
  | sendAth (id : Int) (now : TIME)
  | handleAck (id : Int) (now later : TIME)
  | timeOut (id : Int) (now : TIME)
  | handleRawAck (id : Int)

/-- The effect of a step. -/
def execAp (cfg : ApConfig) (s : ApState) : ApInput → Except ApFault ApState
  | .send d => .ok { s with net := s.net ++ [d] }
  | .rcvCell d => s.rcvCell cfg d
  | .sendProbe id pktContent =>
    s.withClient id fun c => c.run cfg.ap (.enqueue (probePkt pktContent))
  | .sendAth id now => s.withClient id fun c => c.run cfg.ap (.dequeue now)
  | .handleAck id now later => s.withClient id (ClientState.handleAck cfg id now later)
  | .timeOut id now => s.withClient id fun c => c.run cfg.ap (.timeOut now)
  | .handleRawAck id => s.withClient id (ClientState.handleRawAck cfg id)

/-- What the clients of this access point and the controller send. An ack of data packets names
packets that have been handed out, and ack numbers do not reach the end of their range. -/
inductive Honest (bsId : Int) (clients : Int → Option ClientState) (d : List UInt8) : Prop where
  | dataAck {id : Int} {c : ClientState} {args : AckPkt.Args} {nacks : List Nat} {ackSeq : Nat} :
      clients id = some c → IsAck bsId .dataAck id args nacks ackSeq d → ackSeq < 4294967295 →
      DataAck.WellFormed ⟨ackSeq, args.endSeq, nacks⟩ c.tx.history.highest →
      Honest bsId clients d
  | rawAck {id : Int} {c : ClientState} {args : AckPkt.Args} {nacks : List Nat} {ackSeq : Nat} :
      clients id = some c → IsAck bsId .rawAck id args nacks ackSeq d → ackSeq < 4294967295 →
      Honest bsId clients d
  | packet {id : Int} {c : ClientState} :
      clients id = some c → IsPacket id d → Honest bsId clients d
  | gps {id : Int} {c : ClientState} : clients id = some c → IsGPS id d → Honest bsId clients d
  | cellData : IsCellData d → Honest bsId clients d

/-- The steps that can be taken. -/
def enabledAp (cfg : ApConfig) (s : ApState) : ApInput → Prop
  | .send d => Honest cfg.bsId s.clients d
  | .rcvCell d => d ∈ s.net ∧ ¬s.Blocked d
  | .sendProbe id pktContent => (s.clients id).isSome = true ∧ pktContent.length = cfg.probePktSize
  | .sendAth id _ => ∃ c, s.clients id = some c ∧ c.tx.buf.isEmpty = false
  | .handleAck id _ _ => ∃ c, s.clients id = some c ∧ c.dataAck.ackAvailable = true
  | .timeOut id _ => ∃ c, s.clients id = some c ∧ c.dataAck.ackAvailable = false
  | .handleRawAck id => ∃ c, s.clients id = some c ∧ c.rawAck.ackAvailable = true

/-- The access point before the first datagram; the contexts are those of the clients `ids`. -/
def ApState.init (ids : List Int) (boot : Int → Fin BUF_SIZE → TIME) (R : Nat) (pkt : Int → AckPkt)
    (buf : Memory) : ApState where
  clients id := if id ∈ ids then some (.init (boot id) R (pkt id)) else none
  buf := buf
  control := []
  net := []

/-- The access point on its network. -/
def apMachine (cfg : ApConfig) (R : Nat) : Machine ApState ApInput ApFault where
  init s := ∃ ids boot pkt buf, s = .init ids boot R pkt buf
  enabled := enabledAp cfg
  exec := execAp cfg

/-- Fewer than `2 ^ 32 - 1` packets are enqueued for a client. -/
def ApState.Counted (s : ApState) (_ : ApInput) : Prop :=
  ∀ id c, s.clients id = some c → c.tx.history.enqueued.length + 1 < 4294967295

end WspaceScout
