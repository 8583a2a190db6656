import WspaceScout.DataPath.SendCodedBatch
import WspaceScout.Fec.Batch

/-!
# Coded frames round trip

The frames of `sendCodedBatch`, parsed with the accessors of `AthCodeHeader` and decoded, give back
the packets of the batch. The receiver is not part of the repository; `receiveBatch` is the use of
`AthCodeHeader` and of a `CodeInfo` of type `kDecoder` that their interfaces provide for.

## Main definitions

- `receiveBatch` — from frames to a decoder that is ready to pop
- `SentFrame.Reads` — what a receiver reads from the frame of a block

## Main results

- `SentFrame.IsBlock.reads` — every frame of a batch says what it carries
- `sendCodedBatch_roundTrip` — any `k` frames of a batch restore its packets
-/

namespace WspaceScout

open Foundation

/-- The bytes behind the header; a receiver knows the length of the frame. -/
def SentFrame.payload (f : SentFrame) : List UInt8 :=
  f.frame.mem.read f.frame.payloadStart (f.len - f.frame.fullHdrLen)

/-- `SetCodeInfo` and `CopyLens` for the batch of the first frame, `PushPkt` for every frame, and
`DecodeBatch`. -/
def receiveBatch (fec : Fec) (dec : CodeInfo) (frames : List SentFrame) : Option CodeInfo :=
  match frames with
  | [] => none
  | f :: _ =>
    let hdr := f.frame.hdr
    let dec := (dec.setCodeInfo hdr.k hdr.n hdr.startSeq).copyLens f.frame.getLenArr
    (dec.pushPkts (frames.map fun f => (f.payload, f.frame.hdr.ind))).map (CodeInfo.decodeBatch fec)

/-- What a receiver reads from the frame of block `j` of the batch in `c`. -/
structure SentFrame.Reads (f : SentFrame) (ids : BatchIds) (c : CodeInfo) (j : Nat) : Prop where
  parses : f.frame.parses = true
  batchId : f.frame.hdr.batchId = ids.batchId
  startSeq : f.frame.hdr.startSeq = c.startSeq
  ind : f.frame.hdr.ind = j
  k : f.frame.hdr.k = c.k
  n : f.frame.hdr.n = c.n
  bsId : f.frame.hdr.bsId = ids.bsId
  clientId : f.frame.hdr.clientId = ids.clientId
  lens : f.frame.getLenArr = (List.range c.k).map c.lens
  payload : f.payload = (c.codedBatch j).read 0 c.sz

/-! ### One frame -/

section Frames

variable {ids : BatchIds} {scratch hdr : Frame} {c : CodeInfo} {rateArr : List Nat} {rate j : Nat}
  {f : SentFrame}

theorem lensBytes_getElem? (lens : Nat → Nat) {k i : Nat} (hi : i < k) :
    ((List.range k).flatMap fun i => uint16Bytes (lens i))[2 * i]? = some (UInt8.ofNat (lens i)) ∧
    ((List.range k).flatMap fun i => uint16Bytes (lens i))[2 * i + 1]? =
      some (UInt8.ofNat (lens i / 256)) := by
  induction k with
  | zero => omega
  | succ k ih =>
    have hlen : ((List.range k).flatMap fun i => uint16Bytes (lens i)).length = 2 * k := by
      simp [List.length_flatMap, uint16Bytes, Nat.mul_comm]
    rw [List.range_succ, List.flatMap_append, List.flatMap_singleton]
    by_cases hlt : i < k
    · rw [List.getElem?_append_left (by omega), List.getElem?_append_left (by omega)]
      exact ih hlt
    · have heq : i = k := by omega
      subst heq
      rw [List.getElem?_append_right (by omega), List.getElem?_append_right (by omega), hlen,
        Nat.sub_self, show 2 * i + 1 - 2 * i = 1 by omega]
      exact ⟨rfl, rfl⟩

/-- A length is read back from its two bytes. -/
theorem readUint16_lens (m : Memory) (a : Nat) (lens : Nat → Nat) {k i : Nat} (hi : i < k)
    (hlt : lens i < 65536) :
    readUint16 (m.write a ((List.range k).flatMap fun i => uint16Bytes (lens i))) (a + i * 2) =
      lens i := by
  obtain ⟨hlo, hhi⟩ := lensBytes_getElem? lens hi
  obtain ⟨hlo', hloeq⟩ := List.getElem?_eq_some_iff.mp hlo
  obtain ⟨hhi', hhieq⟩ := List.getElem?_eq_some_iff.mp hhi
  unfold readUint16
  rw [show a + i * 2 = a + 2 * i by omega, show a + 2 * i + 1 = a + (2 * i + 1) by omega,
    Memory.write_inside _ _ _ hlo', Memory.write_inside _ _ _ hhi', hloeq, hhieq,
    UInt8.toNat_ofNat', UInt8.toNat_ofNat']
  omega

/-- What `SetHeader` checked of the ids, and where it wrote the lengths. -/
theorem buildHeader_mem (h : buildHeader ids scratch c rate j = .ok hdr) :
    0 < ids.rawSeq ∧ 0 < ids.batchId ∧ hdr.hdr.k = uint8 c.k ∧
      hdr.mem = scratch.mem.write ATH_CODE_HEADER_SIZE
        ((List.range (uint8 c.k)).flatMap fun i => uint16Bytes (c.lens i)) := by
  unfold buildHeader Frame.setHeader Frame.setRate at h
  split at h
  · cases h
  · rename_i heq
    split at heq
    · rename_i hcheck
      cases heq
      split at h
      · cases h
        exact ⟨hcheck.1, hcheck.2.1, rfl, rfl⟩
      · cases h
    · cases heq

/-- Every frame of a batch says what it carries. -/
theorem SentFrame.IsBlock.reads (h : f.IsBlock ids c rateArr j)
    (hk : 1 ≤ c.k ∧ c.k ≤ MAX_BATCH_SIZE) (hn : c.n ≤ 255) (hlens : ∀ i, i < c.k → c.lens i < 65536)
    (hsz : c.sz ≤ PKT_SIZE) : f.Reads ids c j := by
  obtain ⟨scratch, rawSeq, hdr, hhdr, rfl⟩ := h
  obtain ⟨⟨hstart, hj, hkn⟩, hb, hs, hi, hkk, hnn, hbs, hcl⟩ := buildHeader_hdr hhdr
  obtain ⟨-, hbatch, -, hmem⟩ := buildHeader_mem hhdr
  have hmax : MAX_BATCH_SIZE = 10 := rfl
  have hsize : PKT_SIZE = 1472 := rfl
  rw [hmax] at hk
  have hi' : hdr.hdr.ind = j := hi.trans (Nat.mod_eq_of_lt (by omega))
  have hk' : hdr.hdr.k = c.k := hkk.trans (Nat.mod_eq_of_lt (by omega))
  have hn' : hdr.hdr.n = c.n := hnn.trans (Nat.mod_eq_of_lt (by omega))
  have hk8 : uint8 c.k = c.k := Nat.mod_eq_of_lt (by omega)
  rw [hk8] at hmem
  have hfull : hdr.fullHdrLen = ATH_CODE_HEADER_SIZE + c.k * 2 := by rw [Frame.fullHdrLen, hk']
  have hpay : hdr.payloadStart = ATH_CODE_HEADER_SIZE + c.k * 2 := by rw [Frame.payloadStart, hk']
  refine ⟨?_, hb, hs, hi', hk', hn', hbs, hcl, ?_, ?_⟩
  · simp only [Frame.parses, Frame.withPayload, hb, hs, hi', hk', hn', hmax, decide_eq_true_eq]
    exact ⟨hbatch, hstart, hj, hkn, by omega, by omega⟩
  · change (List.range hdr.hdr.k).map (fun i => readUint16
      (hdr.mem.write hdr.payloadStart ((c.codedBatch j).read 0 c.sz))
      (ATH_CODE_HEADER_SIZE + i * 2)) = _
    rw [hk', hpay]
    refine List.map_congr_left fun i hi => ?_
    have hlt := List.mem_range.mp hi
    -- the payload is written behind the lengths
    have hlo := hdr.mem.write_outside (ATH_CODE_HEADER_SIZE + c.k * 2)
      ((c.codedBatch j).read 0 c.sz) (x := ATH_CODE_HEADER_SIZE + i * 2) (.inl (by omega))
    have hhi := hdr.mem.write_outside (ATH_CODE_HEADER_SIZE + c.k * 2)
      ((c.codedBatch j).read 0 c.sz) (x := ATH_CODE_HEADER_SIZE + i * 2 + 1) (.inl (by omega))
    rw [readUint16, hlo, hhi, hmem]
    exact readUint16_lens scratch.mem ATH_CODE_HEADER_SIZE c.lens hlt (hlens i hlt)
  · have hlen : uint16 (c.sz + hdr.fullHdrLen) = c.sz + hdr.fullHdrLen := by
      have : ATH_CODE_HEADER_SIZE = 36 := rfl
      exact Nat.mod_eq_of_lt (by omega)
    change (hdr.mem.write hdr.payloadStart ((c.codedBatch j).read 0 c.sz)).read hdr.payloadStart
      (uint16 (c.sz + hdr.fullHdrLen) - hdr.fullHdrLen) = _
    rw [hlen, Nat.add_sub_cancel]
    have hself := hdr.mem.read_write_self hdr.payloadStart ((c.codedBatch j).read 0 c.sz)
    rwa [Memory.length_read] at hself

/-! ### The batch -/

/-- The frames of a batch, taken in any order, give the decoder the blocks with their indices. -/
theorem received_blocks {frames : List SentFrame} (hlen : frames.length = c.n)
    (hreads : ∀ (j : Nat) (f : SentFrame), frames[j]? = some f → f.Reads ids c j) {inds : List Nat}
    (hinds : ∀ j ∈ inds, j < c.n) :
    (inds.filterMap (frames[·]?)).map (fun f => (f.payload, f.frame.hdr.ind)) =
      inds.map fun j => ((c.codedBatch j).read 0 c.sz, j) := by
  induction inds with
  | nil => rfl
  | cons j inds ih =>
    have hj := hinds j (List.mem_cons_self ..)
    have hget : frames[j]? = some frames[j] := List.getElem?_eq_getElem (by omega)
    have hr := hreads j _ hget
    have hrest := ih fun i hi => hinds i (List.mem_cons_of_mem _ hi)
    rw [List.filterMap_cons_some hget, List.map_cons, List.map_cons, hrest, hr.payload, hr.ind]

/-- Any `k` frames of a batch restore its packets. -/
theorem receiveBatch_restores {fec : Fec} {enc dec : CodeInfo} {pkts : List (List UInt8)}
    {frames : List SentFrame} {inds : List Nat} (hfec : fec.Restores pkts.length enc.n)
    (henc : enc.Holds pkts) (hne : pkts ≠ []) (hpos : 0 < enc.sz) (hk : enc.k = pkts.length)
    (hkn : enc.k ≤ enc.n) (hdec : dec.IsClear .decoder) (hlen : frames.length = enc.n)
    (hreads : ∀ (j : Nat) (f : SentFrame), frames[j]? = some f →
      f.Reads ids (enc.encodeBatch fec) j)
    (hnodup : inds.Nodup) (hcount : inds.length = pkts.length) (hinds : ∀ j ∈ inds, j < enc.n) :
    ∃ dec', receiveBatch fec dec (inds.filterMap (frames[·]?)) = some dec' ∧
      ∃ rest, dec'.popPkts pkts.length = some (pkts, rest) := by
  have hblocks := received_blocks (c := enc.encodeBatch fec) hlen hreads hinds
  have hlenpos := List.length_pos_iff.mpr hne
  obtain ⟨j, js, rfl⟩ : ∃ j js, inds = j :: js := List.exists_cons_of_length_pos (by omega)
  have hj := hinds j (List.mem_cons_self ..)
  have hget : frames[j]? = some frames[j] := List.getElem?_eq_getElem (by omega)
  have hr := hreads j _ hget
  -- the decoder once the parameters and lengths of the batch are set
  let ready := (dec.setCodeInfo frames[j].frame.hdr.k frames[j].frame.hdr.n
    frames[j].frame.hdr.startSeq).copyLens frames[j].frame.getLenArr
  have hreadyk : ready.k = pkts.length := hr.k.trans hk
  have hreadyn : ready.n = enc.n := hr.n
  have hclear : ready.IsClear .decoder := ⟨hdec.codec, hdec.cur, hdec.sz⟩
  let blocks := (j :: js).map fun j => (((enc.encodeBatch fec).codedBatch j).read 0 enc.sz, j)
  have hblocklen : ∀ b ∈ blocks, b.1.length = enc.sz := fun b hb => by
    obtain ⟨i, -, rfl⟩ := List.mem_map.mp hb
    exact Memory.length_read _ _ _
  have hblockind : ∀ b ∈ blocks, b.2 < ready.n := fun b hb => by
    obtain ⟨i, hi, rfl⟩ := List.mem_map.mp hb
    rw [hreadyn]
    exact hinds i hi
  have hblockcnt : blocks.length = pkts.length := (List.length_map _).trans hcount
  obtain ⟨dec', hrun, hrec, hk', hn', hlens'⟩ := (hclear.received enc.sz).pushPkts hpos hblocklen
    hblockind (by rw [hblockcnt, hreadyn, List.length_nil]; omega)
  have hlens : ∀ (i : Nat) (p : List UInt8), pkts[i]? = some p → dec'.lens i = p.length :=
    fun i p hp => by
      obtain ⟨hi, -⟩ := List.getElem?_eq_some_iff.mp hp
      have hi' : i < ready.k := by rw [hreadyk]; exact hi
      rw [hlens', ← henc.len i p hp]
      change (if i < ready.k then frames[j].frame.getLenArr.getD i 0 else dec.lens i) = enc.lens i
      have hrange : (List.range (enc.encodeBatch fec).k)[i]? = some i :=
        List.getElem?_range (show i < enc.k by omega)
      rw [if_pos hi', hr.lens, List.getD_eq_getElem?_getD, List.getElem?_map, hrange]
      rfl
  refine ⟨dec'.decodeBatch fec, ?_, ?_⟩
  · have hcons : (j :: js).filterMap (frames[·]?) = frames[j] :: js.filterMap (frames[·]?) :=
      List.filterMap_cons_some hget
    rw [hcons] at hblocks ⊢
    unfold receiveBatch
    dsimp only
    rw [hblocks]
    exact congrArg (Option.map (CodeInfo.decodeBatch fec)) hrun
  · refine CodeInfo.popPkts_decoded ?_ henc rfl hne hrec hblockcnt (hk'.trans hreadyk)
      hlens (fun b hb => hn' ▸ hblockind b hb) ?_ fun b hb => ?_
    · rw [hn', hreadyn]
      exact hfec
    · have hsnd : ([] ++ blocks).map Prod.snd = j :: js := by
        simp [blocks, Function.comp_def]
      rw [hsnd]
      exact hnodup
    · obtain ⟨i, hi, rfl⟩ := List.mem_map.mp hb
      have hin := hinds i hi
      have hself := (enc.codedBatch i).read_write_self 0
        (fec.encode pkts.length enc.n enc.originalBatch i enc.sz)
      rw [hfec.length] at hself
      rw [hn', hreadyn]
      change ((if i < enc.n then _ else enc.codedBatch i) : Memory).read 0 enc.sz = _
      rw [if_pos hin, hk]
      exact hself

/-- Any `k` frames of a batch, in any order, restore its packets: bytes, lengths and order. A batch
that does not go out is one in which the raw sequence number wraps. -/
theorem sendCodedBatch_roundTrip (fec : Fec) (enc dec : CodeInfo) (pkts : List (List UInt8))
    (n startSeq : Nat) (ids : BatchIds) (scratch : Frame) (rateArr : List Nat)
    (hfec : fec.Restores pkts.length n)
    (henc : enc.IsClear .encoder) (hdec : dec.IsClear .decoder)
    (hk : 1 ≤ pkts.length ∧ pkts.length ≤ MAX_BATCH_SIZE)
    (hlen : ∀ p ∈ pkts, 1 ≤ p.length ∧ p.length ≤ PKT_SIZE) (hn : pkts.length ≤ n ∧ n ≤ 255)
    (hraw : 0 < ids.rawSeq) (hbatch : 0 < ids.batchId) (hstart : 0 < startSeq)
    (hrate : rateArr.length = n ∧ ∀ r ∈ rateArr, (rateCode r).isSome) :
    ∃ c, (enc.setCodeInfo pkts.length n startSeq).pushPkts (pkts.map fun p => (p, 0)) = some c ∧
      match sendCodedBatch ids scratch (c.encodeBatch fec) rateArr with
      | .error _ => 4294967296 < ids.rawSeq + n
      | .ok (_, _, frames) => frames.length = n ∧
          (∀ (j : Nat) (f : SentFrame), frames[j]? = some f → f.frame.parses = true ∧
            f.frame.hdr.startSeq = startSeq ∧ f.frame.hdr.ind = j ∧
            f.frame.hdr.k = pkts.length ∧ f.frame.hdr.n = n ∧ f.frame.hdr.batchId = ids.batchId ∧
            f.frame.hdr.bsId = ids.bsId ∧ f.frame.hdr.clientId = ids.clientId ∧
            f.frame.getLenArr = pkts.map List.length) ∧
          ∀ inds : List Nat, inds.Nodup → inds.length = pkts.length → (∀ j ∈ inds, j < n) →
            ∃ dec', receiveBatch fec dec (inds.filterMap (frames[·]?)) = some dec' ∧
              ∃ rest, dec'.popPkts pkts.length = some (pkts, rest) := by
  have hne : pkts ≠ [] := List.length_pos_iff.mp hk.1
  have hclear : (enc.setCodeInfo pkts.length n startSeq).IsClear .encoder :=
    ⟨henc.codec, henc.cur, henc.sz⟩
  obtain ⟨c, hpush, hholds, hck, hcn, hcs⟩ := hclear.holds.pushPkts (fun p hp => (hlen p hp).1)
    (by rw [List.length_nil, Nat.zero_add]; exact Nat.le_refl _)
  rw [List.nil_append] at hholds
  have hck' : c.k = pkts.length := hck
  have hcn' : c.n = n := hcn
  have hcs' : c.startSeq = startSeq := hcs.trans (if_pos hstart)
  have hszle : c.sz ≤ PKT_SIZE := hholds.sz_le _ fun p hp => (hlen p hp).2
  have hszpos : 0 < c.sz := by
    have hmem := List.getElem_mem (l := pkts) (n := 0) hk.1
    exact Nat.lt_of_lt_of_le (hlen _ hmem).1 (hholds.le_sz _ hmem)
  have hlens : ∀ i, i < c.k → c.lens i < 65536 := fun i hi => by
    rw [hck'] at hi
    have hp : pkts[i]? = some pkts[i] := List.getElem?_eq_getElem hi
    have hsize : PKT_SIZE = 1472 := rfl
    have hle := (hlen _ (List.getElem_mem hi)).2
    rw [hholds.len i _ hp]
    omega
  refine ⟨c, hpush, ?_⟩
  have hends := sendCodedBatch_ends ids scratch (c := c.encodeBatch fec) (hrate.1.trans hcn'.symm)
    hholds.codec rfl
  cases hres : sendCodedBatch ids scratch (c.encodeBatch fec) rateArr with
  | error e =>
    by_contra hwrap
    obtain ⟨r, hr, -⟩ := sendCodedBatch_ok (c := c.encodeBatch fec) scratch
      (hrate.1.trans hcn'.symm) hrate.2 hholds.codec rfl hraw
      (show ids.rawSeq + c.n ≤ 4294967296 by omega) hbatch (show 0 < c.startSeq by omega)
      (show 0 < c.n by omega) (show c.k ≤ c.n by omega)
    rw [hres] at hr
    cases hr
  | ok r =>
    obtain ⟨ids', enc', frames⟩ := r
    rw [hres] at hends
    obtain ⟨-, hcount, hblock⟩ := hends
    have hreads : ∀ (j : Nat) (f : SentFrame), frames[j]? = some f →
        f.Reads ids (c.encodeBatch fec) j := fun j f hf =>
      (hblock j f hf).reads (hck'.symm ▸ hk) (show c.n ≤ 255 by omega) hlens hszle
    refine ⟨hcount.trans hcn', fun j f hf => ?_, fun inds hnodup hlen' hinds => ?_⟩
    · have hr := hreads j f hf
      refine ⟨hr.parses, hr.startSeq.trans hcs', hr.ind, hr.k.trans hck', hr.n.trans hcn',
        hr.batchId, hr.bsId, hr.clientId, hr.lens.trans ?_⟩
      refine List.ext_getElem (by simp [CodeInfo.encodeBatch, hck']) fun i _ hi => ?_
      rw [List.length_map] at hi
      rw [List.getElem_map, List.getElem_range, List.getElem_map]
      exact hholds.len i _ (List.getElem?_eq_getElem hi)
    · exact receiveBatch_restores (hcn'.symm ▸ hfec) hholds hne hszpos hck'
        (show c.k ≤ c.n by omega) hdec hcount hreads hnodup hlen'
        fun j hj => hcn'.symm ▸ hinds j hj

/-- Two packets of different lengths, received in the opposite order by a used decoder. -/
theorem sendCodedBatch_roundTrip_two :
    ∃ (frames : List SentFrame) (dec dec' rest : CodeInfo), frames.length = 2 ∧
      receiveBatch Fec.copy dec ([1, 0].filterMap (frames[·]?)) = some dec' ∧
      dec'.popPkts 2 = some ([[1, 2, 3], [4]], rest) := by
  let rows : Nat → Memory := fun _ _ => 7
  let enc : CodeInfo :=
    .init .encoder MAX_BATCH_SIZE TUN_PKT_SIZE (fun _ => 0) (fun _ => 0) rows rows
  let dec : CodeInfo :=
    .init .decoder MAX_BATCH_SIZE TUN_PKT_SIZE (fun _ => 0) (fun _ => 0) rows rows
  obtain ⟨c, -, hbatch⟩ := sendCodedBatch_roundTrip Fec.copy enc dec.clearInfo [[1, 2, 3], [4]] 2 9
    ⟨5, 1, 1, 2⟩ ⟨⟨0, 0, 0, 0, 0, 0, 0, 0, 0, 0⟩, fun _ => 0⟩ [60, 540] (Fec.copy_restores 2)
    (CodeInfo.isClear_init ..) (CodeInfo.isClear_clearInfo dec) (by decide) (by decide) (by decide)
    (by decide) (by decide) (by decide) (by decide)
  split at hbatch
  · exact absurd hbatch (by decide)
  · rename_i frames _
    obtain ⟨hcount, -, hrestore⟩ := hbatch
    obtain ⟨dec', hrec, rest, hpop⟩ := hrestore [1, 0] (by decide) rfl (by decide)
    exact ⟨frames, dec.clearInfo, dec', rest, hcount, hrec, hpop⟩

end Frames

end WspaceScout
