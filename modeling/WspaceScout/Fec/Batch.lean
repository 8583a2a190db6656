import Mathlib.Data.Fintype.EquivFin
import Mathlib.Tactic
import WspaceScout.Fec.CodeInfo
import WspaceScout.Foundation.Consecutive

/-!
# Whole batches at the encoder and at the decoder

What a sequence of pushes leaves in a `CodeInfo` and what a sequence of pops takes out of it, and
the contract of the erasure code between the two.

## Main definitions

- `Fec.Restores` — the contract of the code for given `k` and `n`
- `CodeInfo.Holds` — the packets that an encoder holds
- `CodeInfo.Received` — the blocks that a decoder holds

## Main results

- `CodeInfo.Holds.pushPkts`, `CodeInfo.Received.pushPkts` — pushing extends what is held
- `CodeInfo.popPkts_decoded` — a decoder with `k` distinct blocks pops the packets of the encoder
-/

namespace WspaceScout

open Foundation

/-- Any `k` blocks with distinct indices restore the `k` packets in place. -/
structure Fec.Restores (fec : Fec) (k n : Nat) : Prop where
  length : ∀ src index sz, (fec.encode k n src index sz).length = sz
  decode : ∀ (src pkt : Nat → Memory) (index : Nat → Nat) (sz : Nat),
    (∀ r, r < k → index r < n) →
    (∀ r r', r < k → r' < k → index r = index r' → r = r') →
    (∀ r, r < k → (pkt r).read 0 sz = fec.encode k n src (index r) sz) →
    ∀ i, i < k → ((fec.decode k n pkt index sz).1 i).read 0 sz = (src i).read 0 sz

/-- The code without parity blocks restores a batch of which all blocks arrive. -/
theorem Fec.copy_restores (k : Nat) : Fec.copy.Restores k k := by
  refine ⟨fun src index sz => Memory.length_read _ _ _, ?_⟩
  intro src pkt index sz hlt hinj hpkt i hi
  obtain ⟨⟨r, hr⟩, hri⟩ : ∃ r : Fin k, (⟨index r.1, hlt r.1 r.2⟩ : Fin k) = ⟨i, hi⟩ :=
    (Finite.injective_iff_surjective (f := fun r : Fin k => (⟨index r.1, hlt r.1 r.2⟩ : Fin k))).mp
      (fun a b hab => Fin.ext (hinj a b a.2 b.2 (Fin.mk.inj hab))) ⟨i, hi⟩
  have hri : index r = i := Fin.mk.inj hri
  have hfind : (List.range k).findIdx (index · = i) = r := by
    have hex : ∃ x ∈ List.range k, decide (index x = i) = true :=
      ⟨r, List.mem_range.mpr hr, by simp [hri]⟩
    have hidx := List.findIdx_lt_length_of_exists hex
    have hval := List.findIdx_getElem (w := hidx)
    rw [List.length_range] at hidx
    simp only [List.getElem_range, decide_eq_true_eq] at hval
    exact hinj _ _ hidx hr (hval.trans hri.symm)
  have hrow : (Fec.copy.decode k k pkt index sz).1 i = pkt r := by
    simp only [Fec.copy, if_pos hi, hfind]
  rw [hrow, hpkt r hr, hri]
  rfl

namespace CodeInfo

/-- A `CodeInfo` that holds nothing. -/
structure IsClear (c : CodeInfo) (codecType : Codec) : Prop where
  codec : c.codecType = codecType
  cur : c.curInd = 0
  sz : c.sz = 0

theorem isClear_init (codecType : Codec) (maxBatchSize pktSize : Nat) (inds lens : Nat → Nat)
    (originalBatch codedBatch : Nat → Memory) :
    (init codecType maxBatchSize pktSize inds lens originalBatch codedBatch).IsClear codecType :=
  ⟨rfl, rfl, rfl⟩

theorem isClear_clearInfo (c : CodeInfo) : c.clearInfo.IsClear c.codecType := ⟨rfl, rfl, rfl⟩

/-- A sequence of calls of `PushPkt`, with bytes and index of each packet. -/
def pushPkts (c : CodeInfo) : List (List UInt8 × Nat) → Option CodeInfo
  | [] => some c
  | (src, ind) :: rest =>
    match c.pushPkt src ind with
    | none => none
    | some c => c.pushPkts rest

/-- A sequence of `m` calls of `PopPkt`, and the bytes of the packets. -/
def popPkts (c : CodeInfo) : Nat → Option (List (List UInt8) × CodeInfo)
  | 0 => some ([], c)
  | m + 1 =>
    match c.popPkt with
    | none => none
    | some (row, len, c) =>
      match c.popPkts m with
      | none => none
      | some (pkts, c) => some (row.read 0 len :: pkts, c)

/-! ### The encoder -/

/-- The encoder holds `pkts`; `sz` is their largest length. -/
structure Holds (c : CodeInfo) (pkts : List (List UInt8)) : Prop where
  codec : c.codecType = .encoder
  cur : c.curInd = pkts.length
  len : ∀ (i : Nat) (p : List UInt8), pkts[i]? = some p → c.lens i = p.length
  row : ∀ (i : Nat) (p : List UInt8), pkts[i]? = some p → (c.originalBatch i).read 0 p.length = p
  le_sz : ∀ p ∈ pkts, p.length ≤ c.sz
  sz_le : ∀ b, (∀ p ∈ pkts, p.length ≤ b) → c.sz ≤ b

variable {c c' : CodeInfo} {pkts rest : List (List UInt8)} {p : List UInt8}

theorem IsClear.holds (h : c.IsClear .encoder) : c.Holds [] :=
  ⟨h.codec, h.cur, fun i p hp => by simp at hp, fun i p hp => by simp at hp,
    fun p hp => by simp at hp, fun b _ => h.sz ▸ Nat.zero_le b⟩

theorem Holds.pushed (h : c.Holds pkts) (p : List UInt8) : (c.pushed p).Holds (pkts ++ [p]) := by
  have hcur := h.cur
  refine ⟨h.codec, by simp [CodeInfo.pushed, hcur], fun i q hq => ?_, fun i q hq => ?_,
    fun q hq => ?_, fun b hb => ?_⟩
  · obtain ⟨hlt, hq⟩ | ⟨rfl, rfl⟩ := getElem?_snoc hq
    · have hne : i ≠ c.curInd := by omega
      simp only [CodeInfo.pushed, Function.update_of_ne hne]
      exact h.len i q hq
    · simp only [CodeInfo.pushed, hcur, Function.update_self]
  · obtain ⟨hlt, hq⟩ | ⟨rfl, rfl⟩ := getElem?_snoc hq
    · have hne : i ≠ c.curInd := by omega
      simp only [CodeInfo.pushed, Function.update_of_ne hne]
      exact h.row i q hq
    · simp only [CodeInfo.pushed, hcur, Function.update_self]
      exact Memory.read_write_self _ 0 q
  · simp only [CodeInfo.pushed]
    obtain hq | hq := List.mem_append.mp hq
    · have := h.le_sz q hq
      split <;> omega
    · rw [List.mem_singleton.mp hq]
      split <;> omega
  · have hle := h.sz_le b fun q hq => hb q (List.mem_append_left _ hq)
    have hp := hb p (List.mem_append_right _ (List.mem_singleton.mpr rfl))
    simp only [CodeInfo.pushed]
    split
    · exact hp
    · exact hle

/-- Pushing at the encoder extends what it holds. -/
theorem Holds.pushPkts (h : c.Holds pkts) (hpos : ∀ p ∈ rest, 0 < p.length)
    (hk : pkts.length + rest.length ≤ c.k) :
    ∃ c', c.pushPkts (rest.map fun p => (p, 0)) = some c' ∧ c'.Holds (pkts ++ rest) ∧
      c'.k = c.k ∧ c'.n = c.n ∧ c'.startSeq = c.startSeq := by
  induction rest generalizing c pkts with
  | nil => exact ⟨c, rfl, by rwa [List.append_nil], rfl, rfl, rfl⟩
  | cons p rest ih =>
    rw [List.length_cons] at hk
    have hp := hpos p (List.mem_cons_self ..)
    have hcur := h.cur
    have hpush := pushPkt_encoder h.codec hp (show c.curInd < c.k by omega)
    obtain ⟨c', hrun, hholds, hkn⟩ := ih (h.pushed p)
      (fun q hq => hpos q (List.mem_cons_of_mem _ hq))
      (show (pkts ++ [p]).length + rest.length ≤ c.k by
        rw [List.length_append, List.length_singleton]; omega)
    refine ⟨c', ?_, by rwa [List.append_assoc] at hholds, hkn⟩
    simp only [List.map_cons, CodeInfo.pushPkts, hpush]
    exact hrun

/-! ### The decoder -/

/-- The decoder holds `blocks`, each with its index, all of length `sz`. -/
structure Received (c : CodeInfo) (sz : Nat) (blocks : List (List UInt8 × Nat)) : Prop where
  codec : c.codecType = .decoder
  cur : c.curInd = blocks.length
  ind : ∀ (r : Nat) (b : List UInt8 × Nat), blocks[r]? = some b → c.inds r = b.2
  row : ∀ (r : Nat) (b : List UInt8 × Nat), blocks[r]? = some b → (c.codedBatch r).read 0 sz = b.1
  sz : c.sz = if blocks = [] then 0 else sz

theorem IsClear.received (h : c.IsClear .decoder) (sz : Nat) : c.Received sz [] :=
  ⟨h.codec, h.cur, fun i p hp => by simp at hp, fun i p hp => by simp at hp, h.sz⟩

/-- The decoder with one more block. -/
def receivedOne (c : CodeInfo) (src : List UInt8) (ind : Nat) : CodeInfo :=
  { c with
    inds := Function.update c.inds c.curInd ind
    codedBatch := Function.update c.codedBatch c.curInd ((c.codedBatch c.curInd).write 0 src)
    sz := if c.sz < src.length then src.length else c.sz
    curInd := c.curInd + 1 }

theorem pushPkt_decoder {src : List UInt8} {ind : Nat} (hcodec : c.codecType = .decoder)
    (hlen : 0 < src.length) (hind : ind < c.n) (hcur : c.curInd < c.n) :
    c.pushPkt src ind = some (c.receivedOne src ind) := by
  have hcheck : ¬(ind ≥ c.n ∨ c.curInd ≥ c.n) := by omega
  simp only [pushPkt, receivedOne, hcodec, if_neg (Nat.ne_of_gt hlen), if_neg hcheck]

theorem Received.one {sz : Nat} {blocks : List (List UInt8 × Nat)} (h : c.Received sz blocks)
    (b : List UInt8 × Nat) (hb : b.1.length = sz) :
    (c.receivedOne b.1 b.2).Received sz (blocks ++ [b]) := by
  have hcur := h.cur
  have hsz := h.sz
  refine ⟨h.codec, by simp [receivedOne, hcur], fun r q hq => ?_, fun r q hq => ?_, ?_⟩
  · obtain ⟨hlt, hq⟩ | ⟨rfl, rfl⟩ := getElem?_snoc hq
    · have hne : r ≠ c.curInd := by omega
      simp only [receivedOne, Function.update_of_ne hne]
      exact h.ind r q hq
    · simp only [receivedOne, hcur, Function.update_self]
  · obtain ⟨hlt, hq⟩ | ⟨rfl, rfl⟩ := getElem?_snoc hq
    · have hne : r ≠ c.curInd := by omega
      simp only [receivedOne, Function.update_of_ne hne]
      exact h.row r q hq
    · simp only [receivedOne, hcur, Function.update_self]
      rw [← hb]
      exact Memory.read_write_self _ 0 q.1
  · rw [if_neg (by simp)]
    simp only [receivedOne, hb]
    split at hsz <;> split <;> omega

/-- Pushing at the decoder extends what it holds. -/
theorem Received.pushPkts {sz : Nat} {blocks more : List (List UInt8 × Nat)}
    (h : c.Received sz blocks) (hsz : 0 < sz) (hlen : ∀ b ∈ more, b.1.length = sz)
    (hind : ∀ b ∈ more, b.2 < c.n) (hn : blocks.length + more.length ≤ c.n) :
    ∃ c', c.pushPkts more = some c' ∧ c'.Received sz (blocks ++ more) ∧
      c'.k = c.k ∧ c'.n = c.n ∧ c'.lens = c.lens := by
  induction more generalizing c blocks with
  | nil => exact ⟨c, rfl, by rwa [List.append_nil], rfl, rfl, rfl⟩
  | cons b more ih =>
    rw [List.length_cons] at hn
    have hb := hlen b (List.mem_cons_self ..)
    have hcur := h.cur
    have hpush := pushPkt_decoder h.codec (show 0 < b.1.length by omega)
      (hind b (List.mem_cons_self ..)) (show c.curInd < c.n by omega)
    obtain ⟨c', hrun, hrec, hkn⟩ := ih (h.one b hb)
      (fun q hq => hlen q (List.mem_cons_of_mem _ hq))
      (fun q hq => hind q (List.mem_cons_of_mem _ hq))
      (show (blocks ++ [b]).length + more.length ≤ c.n by
        rw [List.length_append, List.length_singleton]; omega)
    refine ⟨c', ?_, by rwa [List.append_assoc] at hrec, hkn⟩
    simp only [CodeInfo.pushPkts, hpush]
    exact hrun

/-- Calls of `PopPkt` that all succeed walk through the rows. -/
theorem popPkts_walk {m : Nat} (len : Nat → Nat)
    (hpop : ∀ j, c.curInd ≤ j → j < c.curInd + m →
      popPkt { c with curInd := j } =
        some (c.codedBatch j, len j, { c with curInd := j + 1 })) :
    c.popPkts m = some ((List.range' c.curInd m).map fun i => (c.codedBatch i).read 0 (len i),
      { c with curInd := c.curInd + m }) := by
  induction m generalizing c with
  | zero => rfl
  | succ m ih =>
    have hfirst : c.popPkt =
        some (c.codedBatch c.curInd, len c.curInd, { c with curInd := c.curInd + 1 }) :=
      hpop c.curInd (Nat.le_refl _) (by omega)
    have hrest := ih (c := { c with curInd := c.curInd + 1 }) fun j h1 h2 =>
      hpop j (Nat.le_of_succ_le h1) (by change j < c.curInd + 1 + m at h2; omega)
    simp only [popPkts, hfirst, hrest, List.range'_succ, List.map_cons]
    rw [show c.curInd + 1 + m = c.curInd + (m + 1) by omega]

/-- Popping at the decoder. -/
theorem popPkts_decoder {m : Nat} (hcodec : c.codecType = .decoder) (hk : c.curInd + m ≤ c.k) :
    c.popPkts m = some ((List.range' c.curInd m).map fun i => (c.codedBatch i).read 0 (c.lens i),
      { c with curInd := c.curInd + m }) :=
  popPkts_walk c.lens fun _ _ hj => popPkt_decoder hcodec (by omega)

/-- A decoder with `k` distinct blocks of a batch pops the packets of the batch. -/
theorem popPkts_decoded {fec : Fec} {enc : CodeInfo} {sz : Nat}
    {blocks : List (List UInt8 × Nat)} (hfec : fec.Restores pkts.length c.n)
    (henc : enc.Holds pkts) (hsz : enc.sz = sz) (hne : pkts ≠ [])
    (hrec : c.Received sz blocks) (hcount : blocks.length = pkts.length)
    (hk : c.k = pkts.length) (hlens : ∀ i p, pkts[i]? = some p → c.lens i = p.length)
    (hind : ∀ b ∈ blocks, b.2 < c.n) (hnodup : (blocks.map Prod.snd).Nodup)
    (hblock : ∀ b ∈ blocks, b.1 = fec.encode pkts.length c.n enc.originalBatch b.2 sz) :
    ∃ c', (c.decodeBatch fec).popPkts pkts.length = some (pkts, c') := by
  have hget : ∀ r, r < pkts.length → ∃ b, blocks[r]? = some b ∧ b ∈ blocks := fun r hr =>
    ⟨blocks[r], List.getElem?_eq_getElem (by omega), List.getElem_mem _⟩
  have hcsz : c.sz = sz := by
    refine hrec.sz.trans (if_neg fun hnil => hne ?_)
    rw [hnil] at hcount
    exact List.eq_nil_of_length_eq_zero hcount.symm
  -- the blocks in the rows are distinct blocks of the batch, so the decoder restores its rows
  have hrows := hfec.decode enc.originalBatch c.codedBatch c.inds sz
    (fun r hr => by
      obtain ⟨b, hb, hmem⟩ := hget r hr
      rw [hrec.ind r b hb]
      exact hind b hmem)
    (fun r r' hr hr' heq => by
      obtain ⟨b, hb, -⟩ := hget r hr
      obtain ⟨b', hb', -⟩ := hget r' hr'
      rw [hrec.ind r b hb, hrec.ind r' b' hb'] at heq
      have h1 : (blocks.map Prod.snd)[r]? = some b.2 := by rw [List.getElem?_map, hb]; rfl
      have h2 : (blocks.map Prod.snd)[r']? = some b.2 := by rw [List.getElem?_map, hb', heq]; rfl
      exact (List.getElem?_inj (by rw [List.length_map]; omega) hnodup).mp (h1.trans h2.symm))
    (fun r hr => by
      obtain ⟨b, hb, hmem⟩ := hget r hr
      rw [hrec.row r b hb, hrec.ind r b hb]
      exact hblock b hmem)
  have hpop := popPkts_decoder (c := c.decodeBatch fec) (m := pkts.length) hrec.codec
    (show 0 + pkts.length ≤ c.k by omega)
  -- and each packet is a row cut to its length
  have hlist : (List.range' 0 pkts.length).map (fun i =>
      ((c.decodeBatch fec).codedBatch i).read 0 ((c.decodeBatch fec).lens i)) = pkts := by
    refine List.ext_getElem (by simp) fun i _ hi => ?_
    have hp : pkts[i]? = some pkts[i] := List.getElem?_eq_getElem hi
    have hle : pkts[i].length ≤ sz := hsz ▸ henc.le_sz _ (List.getElem_mem hi)
    have hrow : ((c.decodeBatch fec).codedBatch i).read 0 sz = (enc.originalBatch i).read 0 sz := by
      simp only [decodeBatch, hk, hcsz]
      exact hrows i hi
    have hlen : (c.decodeBatch fec).lens i = pkts[i].length := hlens i _ hp
    rw [List.getElem_map, List.getElem_range', Nat.zero_add, Nat.one_mul, hlen,
      ← Memory.take_read _ _ hle, hrow, Memory.take_read _ _ hle]
    exact henc.row i _ hp
  exact ⟨_, hpop.trans (congrArg (fun l => some (l, _)) hlist)⟩

end CodeInfo

end WspaceScout
