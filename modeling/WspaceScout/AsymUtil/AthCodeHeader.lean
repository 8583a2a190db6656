import WspaceScout.AsymUtil.TxDataBuf

/-!
# The header of coded frames

A frame starts with the members of `AthCodeHeader`, followed by the lengths of the `k` packets of
its batch as 16-bit words and by the coded block. `Frame.mem` is the memory behind `this`, so the
lengths begin at address `ATH_CODE_HEADER_SIZE`.

## Main definitions

- `Frame.setHeader`, `Frame.parseHeader`, `Frame.getLenArr`, `Frame.payloadStart`
-/

namespace WspaceScout

open Foundation

/-- `sizeof(AthCodeHeader)`. -/
def ATH_CODE_HEADER_SIZE : Nat := 36

/-- The packet type of coded frames. -/
def ATH_CODE : Nat := 2

/-- The value that an 8-bit unsigned variable keeps of `n`. -/
def uint8 (n : Nat) : Nat := n % 256

/-- The members of `AthCodeHeader` and of its base class. -/
structure AthCodeHeader where
  type : Nat
  rawSeq : Nat
  rate : Nat
  bsId : Int
  clientId : Int
  batchId : Nat
  startSeq : Nat
  ind : Nat
  k : Nat
  n : Nat
  deriving DecidableEq, Repr

/-- A frame under construction or received. -/
structure Frame where
  hdr : AthCodeHeader
  mem : Memory

/-- The hardware code of a rate in units of 100 kbit/s, `AthHeader::SetRate`. -/
def rateCode : Nat → Option Nat
  | 10 => some 0x1B
  | 20 => some 0x1A
  | 55 => some 0x19
  | 110 => some 0x18
  | 60 => some 0x0B
  | 90 => some 0x0F
  | 120 => some 0x0A
  | 180 => some 0x0E
  | 240 => some 0x09
  | 360 => some 0x0D
  | 480 => some 0x08
  | 540 => some 0x0C
  | _ => none

/-- The two bytes of a 16-bit word in memory, low byte first. -/
def uint16Bytes (w : Nat) : List UInt8 := [UInt8.ofNat w, UInt8.ofNat (w / 256)]

/-- The 16-bit word at address `a`. -/
def readUint16 (m : Memory) (a : Nat) : Nat := (m a).toNat + 256 * (m (a + 1)).toNat

namespace Frame

/-- `SetHeader`. The length array is copied for the narrowed `k`. -/
def setHeader (f : Frame) (rawSeq batchId startSeq type ind k n : Nat) (lenArr : Nat → Nat)
    (bsId clientId : Int) : Except Fault Frame :=
  if rawSeq > 0 ∧ batchId > 0 ∧ startSeq > 0 ∧ ind < n ∧ k ≤ n then
    .ok {
      hdr := { f.hdr with
        type := type
        rawSeq := rawSeq
        bsId := bsId
        clientId := clientId
        batchId := batchId
        startSeq := startSeq
        ind := uint8 ind
        k := uint8 k
        n := uint8 n }
      mem := f.mem.write ATH_CODE_HEADER_SIZE
        ((List.range (uint8 k)).flatMap fun i => uint16Bytes (lenArr i)) }
  else .error .setHeader

/-- `SetRate`. -/
def setRate (f : Frame) (rate : Nat) : Except Fault Frame :=
  match rateCode rate with
  | some code => .ok { f with hdr := { f.hdr with rate := code } }
  | none => .error .setRate

/-- `GetFullHdrLen`. -/
def fullHdrLen (f : Frame) : Nat := ATH_CODE_HEADER_SIZE + f.hdr.k * 2

/-- `GetPayloadStart`, relative to `this`. -/
def payloadStart (f : Frame) : Nat := ATH_CODE_HEADER_SIZE + f.hdr.k * 2

/-- `GetLenArr`. -/
def getLenArr (f : Frame) : List Nat :=
  (List.range f.hdr.k).map fun i => readUint16 f.mem (ATH_CODE_HEADER_SIZE + i * 2)

/-- The assertion of `ParseHeader`; what it returns are the members themselves. -/
def parses (f : Frame) : Bool :=
  f.hdr.batchId > 0 ∧ f.hdr.startSeq > 0 ∧ f.hdr.ind < f.hdr.n ∧ f.hdr.k ≤ f.hdr.n ∧
    f.hdr.k > 0 ∧ f.hdr.k ≤ MAX_BATCH_SIZE

end Frame

end WspaceScout
