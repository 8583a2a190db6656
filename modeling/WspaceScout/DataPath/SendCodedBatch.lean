import Mathlib.Tactic
import WspaceScout.AsymUtil.AthCodeHeader
import WspaceScout.Fec.CodeInfo
import WspaceScout.Foundation.Consecutive
import WspaceScout.Foundation.CountedLoop

/-!
# Sending a coded batch

`sendCodedBatch` writes one frame for each coded block of the encoder: the header with the lengths
of all packets of the batch, then the block. What the source reports to the rate adaptation about
each frame is modelled with the raw packet buffer.

## Main results

- `sendCodedBatch_ends` — the only assertions that can fail are those on the header; all frames
  carry the start sequence and the parameters of the encoder
- `sendCodedBatch_ok` — a batch goes out unless the raw sequence number wraps
-/

namespace WspaceScout

open Foundation

/-- The value that a 16-bit unsigned variable keeps of `n`. -/
def uint16 (n : Nat) : Nat := n % 65536

/-- Bytes of a frame buffer and of the rows of the encoder: the value of the macro `PKT_SIZE` where
these are allocated. -/
def TUN_PKT_SIZE : Nat := 2000

/-- A frame handed to the radio with its length in bytes. -/
structure SentFrame where
  frame : Frame
  len : Nat

/-- The members of `ClientContext` and `WspaceAP` that `SendCodedBatch` writes to the header. -/
structure BatchIds where
  rawSeq : Nat
  batchId : Nat
  bsId : Int
  clientId : Int

/-- The ids after a batch of `n` frames. -/
def BatchIds.after (ids : BatchIds) (n : Nat) : BatchIds :=
  { ids with rawSeq := uint32 (ids.rawSeq + n), batchId := uint32 (ids.batchId + 1) }

/-- The header of coded block `j`; `scratch` is the reused frame buffer. -/
def buildHeader (ids : BatchIds) (scratch : Frame) (c : CodeInfo) (rate j : Nat) :
    Except Fault Frame :=
  match scratch.setHeader ids.rawSeq ids.batchId c.startSeq ATH_CODE j c.k c.n c.lens ids.bsId
    ids.clientId with
  | .error e => .error e
  | .ok f => f.setRate rate

/-- The frame with `sendLen` bytes of payload. -/
def Frame.withPayload (f : Frame) (payload : Memory) (sendLen : Nat) : SentFrame where
  frame := { f with mem := f.mem.write f.payloadStart (payload.read 0 sendLen) }
  len := uint16 (sendLen + f.fullHdrLen)

/-- The locals and members that change in the loop of `SendCodedBatch`. -/
structure SendLoop where
  ids : BatchIds
  encoder : CodeInfo
  scratch : Frame
  sent : List SentFrame

/-- One pass of the loop. -/
def SendLoop.visit (rateArr : List Nat) (s : SendLoop) (j : Nat) :
    Except Fault (SendLoop × Bool) :=
  match buildHeader s.ids s.scratch s.encoder (rateArr.getD j 0) j with
  | .error e => .error e
  | .ok f =>
    match s.encoder.popPkt with
    | none => .error .popPkt
    | some (payload, sendLen, encoder) =>
      let f := f.withPayload payload sendLen
      .ok (⟨{ s.ids with rawSeq := uint32 (s.ids.rawSeq + 1) }, encoder, f.frame, s.sent ++ [f]⟩,
        false)

/-- `WspaceAP::SendCodedBatch`. -/
def sendCodedBatch (ids : BatchIds) (scratch : Frame) (encoder : CodeInfo) (rateArr : List Nat) :
    Except Fault (BatchIds × CodeInfo × List SentFrame) :=
  if rateArr.length = encoder.n then
    match countUp (SendLoop.visit rateArr) 0 encoder.n ⟨ids, encoder, scratch, []⟩ with
    | .error e => .error e
    | .ok s => .ok ({ s.ids with batchId := uint32 (s.ids.batchId + 1) }, s.encoder, s.sent)
  else .error .sendRateArrSize

/-- The faults of the header checks: a wrapped counter, or a rate without a code. -/
def Fault.isHeader (e : Fault) : Prop := e = .setHeader ∨ e = .setRate

/-- `f` is the frame of coded block `j` of the batch in `c`. -/
def SentFrame.IsBlock (f : SentFrame) (ids : BatchIds) (c : CodeInfo) (rateArr : List Nat)
    (j : Nat) : Prop :=
  ∃ scratch rawSeq hdr, buildHeader { ids with rawSeq := rawSeq } scratch c (rateArr.getD j 0) j =
    .ok hdr ∧ f = hdr.withPayload (c.codedBatch j) c.sz

section

variable {ids : BatchIds} {scratch hdr : Frame} {c : CodeInfo} {rate j : Nat} {e : Fault}

theorem buildHeader_error (h : buildHeader ids scratch c rate j = .error e) : e.isHeader := by
  unfold buildHeader Frame.setHeader Frame.setRate at h
  split at h
  · rename_i heq
    split at heq
    · cases heq
    · cases heq
      cases h
      exact .inl rfl
  · split at h
    · cases h
    · cases h
      exact .inr rfl

/-- What `SetHeader` checked and stored. -/
theorem buildHeader_hdr (h : buildHeader ids scratch c rate j = .ok hdr) :
    (0 < c.startSeq ∧ j < c.n ∧ c.k ≤ c.n) ∧ hdr.hdr.batchId = ids.batchId ∧
      hdr.hdr.startSeq = c.startSeq ∧ hdr.hdr.ind = uint8 j ∧ hdr.hdr.k = uint8 c.k ∧
      hdr.hdr.n = uint8 c.n ∧ hdr.hdr.bsId = ids.bsId ∧ hdr.hdr.clientId = ids.clientId := by
  unfold buildHeader Frame.setHeader Frame.setRate at h
  split at h
  · cases h
  · rename_i heq
    split at heq
    · rename_i hcheck
      cases heq
      split at h
      · cases h
        exact ⟨hcheck.2.2, rfl, rfl, rfl, rfl, rfl, rfl, rfl⟩
      · cases h
    · cases heq

theorem buildHeader_ok (hraw : 0 < ids.rawSeq) (hbatch : 0 < ids.batchId) (hstart : 0 < c.startSeq)
    (hj : j < c.n) (hk : c.k ≤ c.n) (hrate : (rateCode rate).isSome) :
    ∃ hdr, buildHeader ids scratch c rate j = .ok hdr := by
  obtain ⟨code, hcode⟩ := Option.isSome_iff_exists.mp hrate
  unfold buildHeader Frame.setHeader Frame.setRate
  rw [if_pos ⟨hraw, hbatch, hstart, hj, hk⟩]
  simp only [hcode]
  exact ⟨_, rfl⟩

end

/-- Sending a batch that has just been encoded fails on header checks only, and sends one frame for
each coded block. -/
theorem sendCodedBatch_ends (ids : BatchIds) (scratch : Frame) {c : CodeInfo} {rateArr : List Nat}
    (hrate : rateArr.length = c.n) (hcodec : c.codecType = .encoder) (hcur : c.curInd = 0) :
    Ends (fun r => r.2.1 = { c with curInd := c.n } ∧ r.2.2.length = c.n ∧
        ∀ (j : Nat) (f : SentFrame), r.2.2[j]? = some f → f.IsBlock ids c rateArr j) Fault.isHeader
      (sendCodedBatch ids scratch c rateArr) := by
  have hloop := countUp_ends
    (I := fun j (s : SendLoop) => s.encoder = { c with curInd := j } ∧ s.sent.length = j ∧
      (∃ rawSeq, s.ids = { ids with rawSeq := rawSeq }) ∧
      ∀ (i : Nat) (f : SentFrame), s.sent[i]? = some f → f.IsBlock ids c rateArr i)
    (Q := fun s => s.encoder = { c with curInd := c.n } ∧ s.sent.length = c.n ∧
      ∀ (i : Nat) (f : SentFrame), s.sent[i]? = some f → f.IsBlock ids c rateArr i)
    (F := Fault.isHeader) (SendLoop.visit rateArr) 0 c.n ⟨ids, c, scratch, []⟩
    ⟨by rw [← hcur], rfl, ⟨ids.rawSeq, rfl⟩, fun i f h => by simp at h⟩
    (fun j s _ hj hs => ?_)
    (fun s hs => by
      rw [Nat.zero_add] at hs
      exact ⟨hs.1, hs.2.1, hs.2.2.2⟩)
  · unfold sendCodedBatch
    rw [if_pos hrate]
    cases hres : countUp (SendLoop.visit rateArr) 0 c.n ⟨ids, c, scratch, []⟩ with
    | error e =>
      rw [hres] at hloop
      exact hloop
    | ok s =>
      rw [hres] at hloop
      exact hloop
  · obtain ⟨henc, hlen, ⟨rawSeq, hids⟩, hsent⟩ := hs
    unfold SendLoop.visit
    cases hhdr : buildHeader s.ids s.scratch s.encoder (rateArr.getD j 0) j with
    | error e => exact buildHeader_error hhdr
    | ok hdr =>
      have hpop : s.encoder.popPkt =
          some (c.codedBatch j, c.sz, { c with curInd := j + 1 }) := by
        rw [henc]
        exact CodeInfo.popPkt_encoder hcodec (by omega)
      rw [hpop]
      refine ⟨fun _ => ⟨rfl, ?_, ⟨uint32 (s.ids.rawSeq + 1), by rw [hids]⟩, fun i f hf => ?_⟩,
        fun h => absurd h (by simp)⟩
      · simp [hlen]
      · obtain ⟨-, hf⟩ | ⟨hi, rfl⟩ := getElem?_snoc hf
        · exact hsent i f hf
        · -- the frame just sent is the one of block `j`
          obtain rfl : i = j := hi.trans hlen
          rw [henc, hids] at hhdr
          exact ⟨s.scratch, rawSeq, hdr, hhdr, rfl⟩

/-- A batch goes out unless the raw sequence number wraps within it. -/
theorem sendCodedBatch_ok {ids : BatchIds} {c : CodeInfo} {rateArr : List Nat} (scratch : Frame)
    (hrate : rateArr.length = c.n) (hvalid : ∀ r ∈ rateArr, (rateCode r).isSome)
    (hcodec : c.codecType = .encoder) (hcur : c.curInd = 0) (hraw : 0 < ids.rawSeq)
    (hwrap : ids.rawSeq + c.n ≤ 4294967296) (hbatch : 0 < ids.batchId) (hstart : 0 < c.startSeq)
    (hn : 0 < c.n) (hk : c.k ≤ c.n) :
    ∃ r, sendCodedBatch ids scratch c rateArr = .ok r ∧ r.1 = ids.after c.n := by
  have hloop := countUp_rule
    (I := fun j (s : SendLoop) => s.encoder = { c with curInd := j } ∧
      s.ids = { ids with rawSeq := uint32 (ids.rawSeq + j) })
    (Q := fun s => s.ids = { ids with rawSeq := uint32 (ids.rawSeq + c.n) })
    (SendLoop.visit rateArr) 0 c.n ⟨ids, c, scratch, []⟩
    ⟨by rw [← hcur], by rw [Nat.add_zero, uint32_of_lt (by omega)]⟩ (fun j s _ hj hs => ?_)
    (fun s hs => by rw [← Nat.zero_add c.n]; exact hs.2)
  · obtain ⟨s, hrun, hids⟩ := hloop
    refine ⟨({ s.ids with batchId := uint32 (s.ids.batchId + 1) }, s.encoder, s.sent), ?_, ?_⟩
    · unfold sendCodedBatch
      rw [if_pos hrate, hrun]
    · rw [hids]
      rfl
  · obtain ⟨henc, hids⟩ := hs
    have hj' : j < c.n := by omega
    -- the raw sequence number has not wrapped yet
    have hseq : s.ids.rawSeq = ids.rawSeq + j := by
      rw [hids]
      exact uint32_of_lt (by omega)
    have hget : rateArr.getD j 0 ∈ rateArr := by
      rw [List.getD_eq_getElem?_getD, List.getElem?_eq_getElem (by omega), Option.getD_some]
      exact List.getElem_mem _
    obtain ⟨hdr, hhdr⟩ : ∃ hdr, buildHeader s.ids s.scratch s.encoder (rateArr.getD j 0) j =
        .ok hdr := by
      rw [henc]
      exact buildHeader_ok (by rw [hseq]; omega) (by rw [hids]; exact hbatch) hstart hj' hk
        (hvalid _ hget)
    have hpop : s.encoder.popPkt = some (c.codedBatch j, c.sz, { c with curInd := j + 1 }) := by
      rw [henc]
      exact CodeInfo.popPkt_encoder hcodec hj'
    have hvisit := SendLoop.visit.eq_1 rateArr s j
    rw [hhdr] at hvisit
    dsimp only at hvisit
    rw [hpop] at hvisit
    refine ⟨_, false, hvisit, fun _ => ⟨rfl, ?_⟩, fun h => nomatch h⟩
    have hj32 : uint32 (ids.rawSeq + j) = ids.rawSeq + j := uint32_of_lt (by omega)
    simp only [hids, hj32, Nat.add_assoc]

end WspaceScout
