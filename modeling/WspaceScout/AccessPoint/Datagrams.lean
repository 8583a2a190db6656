import WspaceScout.AsymUtil.AckContext
import WspaceScout.AsymUtil.AckDatagram

/-!
# Datagrams on the cellular link

`TxRcvCell` reads every datagram into the same buffer and finds the type in its first byte. Acks,
GPS readings and packets of the controller name their client, each type of header at its own
offset.

## Main definitions

- `dispatch` — what `TxRcvCell` does with a datagram
- `IsAck`, `IsPacket`, `IsGPS`, `IsCellData` — the datagrams that clients and the controller send

## Main results

- `IsAck.dispatch`, `IsAck.parse` — an ack reaches the client that it names, with its content
-/

namespace WspaceScout

open Foundation

/-! ### Packet types and headers -/

def CELL_DATA : Nat := 6

def GPS : Nat := 7

def CONTROLLER_TO_CLIENT : Nat := 9

/-- The first byte of every header. -/
def typeField : Field := ⟨0, 1⟩

namespace ControllerToClientHeader

def clientId : Field := ⟨4, 4⟩

/-- `sizeof(ControllerToClientHeader)`. -/
def size : Nat := 12

end ControllerToClientHeader

namespace GPSHeader

def seq : Field := ⟨4, 4⟩

def time : Field := ⟨8, 8⟩

def latitude : Field := ⟨16, 8⟩

def longitude : Field := ⟨24, 8⟩

def speed : Field := ⟨32, 8⟩

def clientId : Field := ⟨40, 4⟩

/-- `GPS_HEADER_SIZE`. -/
def size : Nat := 48

end GPSHeader

/-- The `int` of a header in memory. -/
def intAt (f : Field) (buf : Memory) : Int := int32 (f.get buf)

/-- What `TxRcvCell` does with a datagram. -/
inductive Dispatch where
  | cellData
  | ack (type : AckType) (clientId : Int)
  | gps (clientId : Int)
  | packet (clientId : Int)
  | invalid
  deriving DecidableEq, Repr

/-- The branches of `TxRcvCell` over its buffer. -/
def dispatch (buf : Memory) : Dispatch :=
  let type := typeField.get buf
  if type = CELL_DATA then .cellData
  else if type = DATA_ACK then .ack .dataAck (intAt AckHeader.clientId buf)
  else if type = RAW_ACK then .ack .rawAck (intAt AckHeader.clientId buf)
  else if type = GPS then .gps (intAt GPSHeader.clientId buf)
  else if type = CONTROLLER_TO_CLIENT then .packet (intAt ControllerToClientHeader.clientId buf)
  else .invalid

/-! ### What is sent to the access point -/

/-- Zeros behind a datagram. -/
def fresh (d : List UInt8) : Memory := Memory.write (fun _ => 0) 0 d

/-- An ack of client `id`, numbered `ackSeq`. -/
structure IsAck (bsId : Int) (type : AckType) (id : Int) (args : AckPkt.Args) (nacks : List Nat)
    (ackSeq : Nat) (d : List UInt8) : Prop where
  type_eq : args.type = type.toByte
  clientId_eq : args.clientId = id
  bsId_eq : args.bsId = bsId
  fits : AckPkt.Fits nacks
  built : ∃ p q, AckPkt.build p args nacks = .ok q ∧
    ackSeq = uint32 (p.get AckHeader.ackSeq + 1) ∧
    ∃ len, q.getLen = .ok len ∧ d = q.mem.read 0 len

/-- A packet of the controller for client `id`. -/
structure IsPacket (id : Int) (d : List UInt8) : Prop where
  size_le : ControllerToClientHeader.size ≤ d.length
  le_size : d.length ≤ PKT_SIZE
  type_eq : typeField.get (fresh d) = CONTROLLER_TO_CLIENT
  clientId_eq : intAt ControllerToClientHeader.clientId (fresh d) = id

/-- A GPS reading of client `id`. -/
structure IsGPS (id : Int) (d : List UInt8) : Prop where
  size_eq : d.length = GPSHeader.size
  type_eq : typeField.get (fresh d) = GPS
  clientId_eq : intAt GPSHeader.clientId (fresh d) = id
  seq_pos : 0 < GPSHeader.seq.get (fresh d)

/-- A packet of a client for the controller. -/
structure IsCellData (d : List UInt8) : Prop where
  pos : 0 < d.length
  le_size : d.length ≤ PKT_SIZE
  type_eq : typeField.get (fresh d) = CELL_DATA

section Dispatch

variable {d : List UInt8} {id bsId : Int} {type : AckType} {args : AckPkt.Args} {nacks : List Nat}
  {ackSeq : Nat}

/-- A member inside a datagram does not depend on what the buffer held before. -/
theorem get_fresh {f : Field} (h : f.offset + f.width ≤ d.length) (buf : Memory) :
    f.get (buf.write 0 d) = f.get (fresh d) := Field.get_write_prefix h _ _

theorem intAt_fresh {f : Field} (h : f.offset + f.width ≤ d.length) (buf : Memory) :
    intAt f (buf.write 0 d) = intAt f (fresh d) := congrArg int32 (get_fresh h buf)

theorem IsPacket.dispatch (h : IsPacket id d) (buf : Memory) :
    dispatch (buf.write 0 d) = .packet id := by
  have hsize := h.size_le
  have htype := (get_fresh (f := typeField) (le_trans (by decide) hsize) buf).trans h.type_eq
  have hclient := (intAt_fresh (f := ControllerToClientHeader.clientId)
    (le_trans (by decide) hsize) buf).trans h.clientId_eq
  simp [WspaceScout.dispatch, htype, hclient, CONTROLLER_TO_CLIENT, CELL_DATA, DATA_ACK, RAW_ACK,
    GPS]

theorem IsGPS.dispatch (h : IsGPS id d) (buf : Memory) : dispatch (buf.write 0 d) = .gps id := by
  have hsize := h.size_eq.ge
  have htype := (get_fresh (f := typeField) (le_trans (by decide) hsize) buf).trans h.type_eq
  have hclient := (intAt_fresh (f := GPSHeader.clientId)
    (le_trans (by decide) hsize) buf).trans h.clientId_eq
  simp [WspaceScout.dispatch, htype, hclient, CELL_DATA, DATA_ACK, RAW_ACK, GPS]

theorem IsCellData.dispatch (h : IsCellData d) (buf : Memory) :
    dispatch (buf.write 0 d) = .cellData := by
  have htype := (get_fresh (f := typeField) h.pos buf).trans h.type_eq
  simp [WspaceScout.dispatch, htype]

/-- An ack has at least its header and at most as much as a slot. -/
theorem IsAck.length (h : IsAck bsId type id args nacks ackSeq d) :
    AckHeader.size ≤ d.length ∧ d.length ≤ PKT_SIZE := by
  obtain ⟨p, q, hbuild, -, len, hlen, rfl⟩ := h.built
  obtain ⟨q', hbuild', hq⟩ := p.build_built args h.fits
  cases hbuild.symm.trans hbuild'
  obtain ⟨hget, hle⟩ := hq.getLen h.fits
  cases hlen.symm.trans hget
  rw [Memory.length_read]
  exact ⟨Nat.le_add_right _ _, hle⟩

/-- A member of the header of an ack, in whatever buffer it has been copied to. -/
theorem IsAck.get (h : IsAck bsId type id args nacks ackSeq d) :
    ∃ q : AckPkt, q.Built args ackSeq nacks ∧
      ∀ f, AckPkt.InHeader f → ∀ buf : Memory, f.get (buf.write 0 d) = q.get f := by
  have hsize := h.length.1
  obtain ⟨p, q, hbuild, rfl, len, -, rfl⟩ := h.built
  obtain ⟨q', hbuild', hq⟩ := p.build_built args h.fits
  cases hbuild.symm.trans hbuild'
  refine ⟨q, hq, fun f hf buf => ?_⟩
  rw [Memory.length_read] at hsize
  exact AckPkt.get_rcvAck_read (Nat.le_trans hf hsize) q ⟨buf⟩

/-- An ack is taken to the client that it names. -/
theorem IsAck.dispatch (h : IsAck bsId type id args nacks ackSeq d) (buf : Memory) :
    dispatch (buf.write 0 d) = .ack type id := by
  obtain ⟨q, hq, hget⟩ := h.get
  have htype : typeField.get (buf.write 0 d) = type.toByte := by
    rw [← h.type_eq, ← hq.type]
    exact hget AckHeader.type (by decide) buf
  have hclient : intAt AckHeader.clientId (buf.write 0 d) = id := by
    unfold intAt
    rw [hget _ (by decide), hq.clientId, AckPkt.int32_intWord args.clientId_int, h.clientId_eq]
  cases type with
  | dataAck =>
    simp [WspaceScout.dispatch, htype, hclient, AckType.toByte, DATA_ACK, CELL_DATA]
  | rawAck =>
    simp [WspaceScout.dispatch, htype, hclient, AckType.toByte, DATA_ACK, CELL_DATA, RAW_ACK]

/-- `ParseNack` reads what the client has written, whatever ack came before. -/
theorem IsAck.parse (h : IsAck bsId type id args nacks ackSeq d) (old : AckPkt)
    (wantNumPkts : Bool) :
    (old.rcvAck d).parseNack wantNumPkts = args.parsed ackSeq nacks wantNumPkts := by
  obtain ⟨p, q, hbuild, rfl, len, hlen, rfl⟩ := h.built
  obtain ⟨q', hbuild', hq⟩ := p.build_built args h.fits
  cases hbuild.symm.trans hbuild'
  cases hlen.symm.trans (hq.getLen h.fits).1
  exact hq.parse h.fits old wantNumPkts

/-- The assertions of `TxHandleAck` hold of it. -/
theorem IsAck.accepts (h : IsAck bsId type id args nacks ackSeq d) (old : AckPkt) :
    AckContext.accepts ⟨type, id, bsId⟩ (AckContext.parse ⟨type, id, bsId⟩ (old.rcvAck d)) =
      true := by
  unfold AckContext.parse
  rw [h.parse]
  simp [AckContext.accepts, AckPkt.Args.parsed, h.type_eq, h.clientId_eq, h.bsId_eq]

end Dispatch

end WspaceScout
