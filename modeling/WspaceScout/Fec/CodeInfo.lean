import WspaceScout.Foundation.Memory

/-!
# Batches of packets for the erasure code

`CodeInfo` holds the packets of one batch and their coded blocks. The same class serves the
encoder, which fills `originalBatch` and pops coded blocks, and the decoder, which fills
`codedBatch` and pops data packets; `curInd` is the cursor of both pushing and popping.

The functions of the vendored erasure code are a parameter of type `Fec`.

## Main definitions

- `CodeInfo.pushPkt`, `CodeInfo.popPkt` — `none` stands for the result `false`
- `CodeInfo.encodeBatch`, `CodeInfo.decodeBatch`
-/

namespace WspaceScout

open Foundation

/-- Number of nonzero elements of the field of the erasure code. -/
def GF_SIZE : Nat := 255

/-- The check of `fec_new` on its parameters. -/
def fecNewAccepts (k n : Nat) : Bool := ¬(k > GF_SIZE + 1 ∨ n > GF_SIZE + 1 ∨ k > n)

/-- `fec_encode` and `fec_decode` for a code made by `fec_new(k, n)`: the `sz` bytes written for
one index, and the rows and indices that decoding leaves. -/
structure Fec where
  encode : (k n : Nat) → (src : Nat → Memory) → (index sz : Nat) → List UInt8
  decode : (k n : Nat) → (pkt : Nat → Memory) → (index : Nat → Nat) → (sz : Nat) →
    (Nat → Memory) × (Nat → Nat)

/-- A code without parity blocks: block `i` is packet `i`, and decoding moves it to row `i`. -/
def Fec.copy : Fec where
  encode _ _ src index sz := (src index).read 0 sz
  decode k _ pkt index _ :=
    (fun i => if i < k then pkt ((List.range k).findIdx (index · = i)) else pkt i,
      fun i => if i < k then i else index i)

/-- Server or client. -/
inductive Codec where
  | encoder
  | decoder
  deriving DecidableEq, Repr

/-- The members of `CodeInfo`; rows and arrays are addressed from zero. -/
structure CodeInfo where
  maxBatchSize : Nat
  pktSize : Nat
  codecType : Codec
  k : Nat
  n : Nat
  sz : Nat
  startSeq : Nat
  inds : Nat → Nat
  lens : Nat → Nat
  curInd : Nat
  originalBatch : Nat → Memory
  codedBatch : Nat → Memory

namespace CodeInfo

/-- The constructor; the arrays hold whatever the allocator left in them. -/
def init (codecType : Codec) (maxBatchSize pktSize : Nat) (inds lens : Nat → Nat)
    (originalBatch codedBatch : Nat → Memory) : CodeInfo :=
  ⟨maxBatchSize, pktSize, codecType, 0, 0, 0, 0, inds, lens, 0, originalBatch, codedBatch⟩

/-- The first `k` rows with their first `sz` bytes set to zero. -/
def zeroBatch (batch : Nat → Memory) (k sz : Nat) : Nat → Memory := fun i =>
  if i < k then (batch i).write 0 (List.replicate sz 0) else batch i

/-- `ClearInfo`. -/
def clearInfo (c : CodeInfo) : CodeInfo :=
  { c with
    k := 0
    n := 0
    sz := 0
    startSeq := 0
    curInd := 0
    originalBatch :=
      if c.codecType = .encoder then zeroBatch c.originalBatch c.maxBatchSize c.pktSize
      else c.originalBatch
    codedBatch := zeroBatch c.codedBatch (GF_SIZE + 1) c.pktSize
    inds := fun i => if i < GF_SIZE + 1 then 0 else c.inds i
    lens := fun i => if i < c.maxBatchSize then 0 else c.lens i }

/-- `SetCodeInfo`; the default of its last argument is zero, which keeps the start sequence. -/
def setCodeInfo (c : CodeInfo) (k n startSeq : Nat) : CodeInfo :=
  { c with k := k, n := n, startSeq := if startSeq > 0 then startSeq else c.startSeq }

/-- `PushPkt`; `src` are the `len` bytes to copy. -/
def pushPkt (c : CodeInfo) (src : List UInt8) (ind : Nat) : Option CodeInfo :=
  let len := src.length
  let sz := if c.sz < len then len else c.sz
  if len = 0 then none
  else
    match c.codecType with
    | .encoder =>
      if ind ≠ 0 ∨ c.curInd ≥ c.k then none
      else some { c with
        lens := Function.update c.lens c.curInd len
        originalBatch := Function.update c.originalBatch c.curInd
          ((c.originalBatch c.curInd).write 0 src)
        sz := sz
        curInd := c.curInd + 1 }
    | .decoder =>
      if ind ≥ c.n ∨ c.curInd ≥ c.n then none
      else some { c with
        inds := Function.update c.inds c.curInd ind
        codedBatch := Function.update c.codedBatch c.curInd
          ((c.codedBatch c.curInd).write 0 src)
        sz := sz
        curInd := c.curInd + 1 }

/-- `PopPkt`: the row, the number of bytes reported for it, and the next state. -/
def popPkt (c : CodeInfo) : Option (Memory × Nat × CodeInfo) :=
  match c.codecType with
  | .encoder =>
    if c.curInd ≥ c.n then none
    else some (c.codedBatch c.curInd, c.sz, { c with curInd := c.curInd + 1 })
  | .decoder =>
    if c.curInd ≥ c.k then none
    else some (c.codedBatch c.curInd, c.lens c.curInd, { c with curInd := c.curInd + 1 })

/-! `PopPkt` succeeds at every row but those behind the last one. -/

theorem popPkt_encoder {c : CodeInfo} {j : Nat} (hcodec : c.codecType = .encoder) (hj : j < c.n) :
    popPkt { c with curInd := j } = some (c.codedBatch j, c.sz, { c with curInd := j + 1 }) := by
  simp only [popPkt, hcodec]
  exact if_neg (Nat.not_le.mpr hj)

theorem popPkt_decoder {c : CodeInfo} {j : Nat} (hcodec : c.codecType = .decoder) (hj : j < c.k) :
    popPkt { c with curInd := j } =
      some (c.codedBatch j, c.lens j, { c with curInd := j + 1 }) := by
  simp only [popPkt, hcodec]
  exact if_neg (Nat.not_le.mpr hj)

/-- `EncodeBatch`. -/
def encodeBatch (fec : Fec) (c : CodeInfo) : CodeInfo :=
  { c with
    inds := fun i => if i < c.n then i else c.inds i
    codedBatch := fun i =>
      if i < c.n then (c.codedBatch i).write 0 (fec.encode c.k c.n c.originalBatch i c.sz)
      else c.codedBatch i
    curInd := 0 }

/-- `DecodeBatch`. -/
def decodeBatch (fec : Fec) (c : CodeInfo) : CodeInfo :=
  let (codedBatch, inds) := fec.decode c.k c.n c.codedBatch c.inds c.sz
  { c with codedBatch := codedBatch, inds := inds, curInd := 0 }

/-- `CopyLens`; its assertion on `k` holds by the parser's. -/
def copyLens (c : CodeInfo) (lens : List Nat) : CodeInfo :=
  { c with lens := fun i => if i < c.k then lens.getD i 0 else c.lens i }

/-! ### Pushing at the encoder -/

variable {c : CodeInfo} {src : List UInt8}

/-- The encoder with one more packet. -/
def pushed (c : CodeInfo) (src : List UInt8) : CodeInfo :=
  { c with
    lens := Function.update c.lens c.curInd src.length
    originalBatch := Function.update c.originalBatch c.curInd
      ((c.originalBatch c.curInd).write 0 src)
    sz := if c.sz < src.length then src.length else c.sz
    curInd := c.curInd + 1 }

theorem pushPkt_encoder (hcodec : c.codecType = .encoder) (hlen : 0 < src.length)
    (hcur : c.curInd < c.k) : c.pushPkt src 0 = some (c.pushed src) := by
  have hcheck : ¬((0 : Nat) ≠ 0 ∨ c.curInd ≥ c.k) := by omega
  simp only [pushPkt, pushed, hcodec, if_neg (Nat.ne_of_gt hlen), if_neg hcheck]

end CodeInfo

end WspaceScout
