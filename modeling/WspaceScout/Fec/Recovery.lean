import WspaceScout.Fec.FecDecode
import WspaceScout.Fec.Isolation

/-!
# The erasure code keeps its contract

What the sender and the receiver rely on (`Fec.Encodes`, `Fec.Restores`) is stated for any code.
Here the functions of `fec.c` are put in its place, so that nothing about the code is left to
assume.

## Main definitions

- `Fec.vandermonde` — `fec_new`, `fec_encode` and `fec_decode` as a code

## Main results

- `Fec.vandermonde_encodes`, `Fec.vandermonde_restores` — the contract
- `CodeInfo.encodeBatch_vandermonde` — `EncodeBatch` writes what `fec_encode` writes
- `vandermonde_recovers` — any `k` of the `n` blocks are enough
-/

namespace WspaceScout

open Foundation

/-- The functions of `fec.c`. For parameters that `fec_new` refuses the source goes on with `NULL`;
what is said of them here means nothing. -/
def Fec.vandermonde : Fec where
  encode k n src index sz :=
    match fecNew k n with
    | none => List.replicate sz 0
    | some code => Memory.read (fecEncode code src (fun _ => 0) index sz) 0 sz
  decode k n pkt index sz :=
    match fecNew k n with
    | none => (pkt, index)
    | some code => ((fecDecode code pkt index sz).pkt, (fecDecode code pkt index sz).index)

variable {k n : Nat}

theorem vandermonde_encode {code : FecParms} (hcode : fecNew k n = some code) (src : Nat → Memory)
    (index sz : Nat) : Fec.vandermonde.encode k n src index sz =
      Memory.read (fecEncode code src (fun _ => 0) index sz) 0 sz := by
  simp only [Fec.vandermonde, hcode]

/-- `fec_encode` depends on the first bytes of the packets only, and copies a packet for its own
index. -/
theorem Fec.vandermonde_encodes (hk : 0 < k) (hkn : k ≤ n) (hn : n ≤ GF_SIZE + 1) :
    Fec.vandermonde.Encodes k n := by
  obtain ⟨code, hcode⟩ := fecNew_some hkn hn
  have hsys := fecNew_systematic hk hcode
  refine ⟨fun src index sz _ => ?_, fun src src' index sz hindex hrows => ?_,
    fun src index sz hindex => ?_⟩
  · rw [vandermonde_encode hcode, Memory.length_read]
  · rw [vandermonde_encode hcode, vandermonde_encode hcode]
    apply Memory.read_congr
    intro x hx
    rw [Nat.zero_add]
    have hbytes : ∀ i : Fin k, src i x = src' i x := by
      intro i
      have h := Memory.byte_of_read_eq (hrows i i.isLt) hx
      rwa [Nat.zero_add] at h
    have hsum : ∑ i : Fin k, (⟨code.encMatrix index i⟩ : Gf) * ⟨src i x⟩ =
        ∑ i : Fin k, (⟨code.encMatrix index i⟩ : Gf) * ⟨src' i x⟩ :=
      Finset.sum_congr rfl fun i _ => congrArg (fun b => _ * (⟨b⟩ : Gf)) (hbytes i)
    exact congrArg Gf.byte ((fecEncode_byte hsys src _ hindex hx).trans
      (hsum.trans (fecEncode_byte hsys src' _ hindex hx).symm))
  · rw [vandermonde_encode hcode]
    apply Memory.read_congr
    intro x hx
    rw [Nat.zero_add]
    exact congrArg Gf.byte ((fecEncode_byte hsys src _ (by omega) hx).trans
      (hsys.sum_top src hindex x))

/-- Any `k` blocks with distinct indices give the packets back, wherever the parameters are such
that `fec_new` makes a code. -/
theorem Fec.vandermonde_restores (hk : 0 < k) (hkn : k ≤ n) (hn : n ≤ GF_SIZE + 1) :
    Fec.vandermonde.Restores k n := by
  obtain ⟨code, hcode⟩ := fecNew_some hkn hn
  have hsys := fecNew_systematic hk hcode
  refine ⟨fun src index sz => ?_, fun src pkt index sz hlt hinj hpkt i hi => ?_⟩
  · rw [vandermonde_encode hcode, Memory.length_read]
  · apply Memory.read_congr
    intro x hx
    rw [Nat.zero_add]
    have hdecode : (Fec.vandermonde.decode k n pkt index sz).1 =
        (fecDecode code pkt index sz).pkt := by
      simp only [Fec.vandermonde, hcode]
    rw [hdecode]
    refine fecDecode_restores hsys hlt hinj (fun r x hr hx => ?_) hi hx
    have hread := hpkt r hr
    rw [vandermonde_encode hcode] at hread
    have h := Memory.byte_of_read_eq hread hx
    rw [Nat.zero_add] at h
    rw [h]
    exact fecEncode_byte hsys src _ (hlt r hr) hx

/-- `EncodeBatch` leaves in each row of the coded batch what `fec_encode` makes of it. -/
theorem CodeInfo.encodeBatch_vandermonde {c : CodeInfo} {code : FecParms} (hk : 0 < c.k)
    (hcode : fecNew c.k c.n = some code) {i : Nat} (hi : i < c.n) :
    (c.encodeBatch .vandermonde).codedBatch i =
      fecEncode code c.originalBatch (c.codedBatch i) i c.sz := by
  have hsys := fecNew_systematic hk hcode
  have hrow : (c.encodeBatch .vandermonde).codedBatch i = (c.codedBatch i).write 0
      (Memory.read (fecEncode code c.originalBatch (fun _ => 0) i c.sz) 0 c.sz) := by
    rw [← vandermonde_encode hcode]
    exact if_pos hi
  rw [hrow]
  funext x
  by_cases hx : x < c.sz
  · have hin := (c.codedBatch i).write_inside 0 (Memory.read
      (fecEncode code c.originalBatch (fun _ => 0) i c.sz) 0 c.sz) (i := x)
      (by rwa [Memory.length_read])
    rw [Nat.zero_add, Memory.getElem_read, Nat.zero_add] at hin
    exact hin.trans (congrArg Gf.byte ((fecEncode_byte hsys c.originalBatch _ hi hx).trans
      (fecEncode_byte hsys c.originalBatch _ hi hx).symm))
  · rw [fecEncode_outside code _ _ (by omega)]
    exact (c.codedBatch i).write_outside 0 _ (.inr (by rw [Memory.length_read]; omega))

/-! ### From the encoder to the decoder -/

/-- Rows behind the first `k` do not matter: the decoder may hold more blocks than it needs. -/
theorem CodeInfo.Received.take {c : CodeInfo} {sz m : Nat} {blocks : List (List UInt8 × Nat)}
    (h : c.Received sz blocks) (hm : 0 < m) (hle : m ≤ blocks.length) :
    { c with curInd := m }.Received sz (blocks.take m) := by
  have hget : ∀ (r : Nat) (b : List UInt8 × Nat), (blocks.take m)[r]? = some b →
      blocks[r]? = some b := by
    intro r b hb
    have hr : r < (blocks.take m).length := (List.getElem?_eq_some_iff.mp hb).1
    rw [List.length_take] at hr
    rwa [List.getElem?_take_of_lt (by omega)] at hb
  have hne : blocks ≠ [] := List.length_pos_iff.mp (by omega)
  have hne' : blocks.take m ≠ [] :=
    List.length_pos_iff.mp (by rw [List.length_take]; omega)
  refine ⟨h.codec, ?_, fun r b hb => h.ind r b (hget r b hb), fun r b hb => h.row r b (hget r b hb),
    ?_⟩
  · rw [List.length_take]
    exact (Nat.min_eq_left hle).symm
  · rw [if_neg hne']
    exact h.sz.trans (if_neg hne)

/-- With the functions of `fec.c`, any blocks with at least `k` distinct indices, pushed in any
order, let the decoder pop the packets of the batch. Rows and lengths are unbounded here; the program
passes at most `max_batch_size` packets that fit a row and a `uint16_t`. -/
theorem vandermonde_recovers {enc dec : CodeInfo} {pkts : List (List UInt8)} {n startSeq : Nat}
    {inds : List Nat} (henc : enc.IsClear .encoder) (hdec : dec.IsClear .decoder)
    (hne : pkts ≠ []) (hpos : ∀ p ∈ pkts, 0 < p.length) (hkn : pkts.length ≤ n)
    (hn : n ≤ GF_SIZE + 1) (hnodup : inds.Nodup) (hinds : ∀ j ∈ inds, j < n)
    (henough : pkts.length ≤ inds.length) :
    ∃ frames, CodeInfo.codedFrames .vandermonde enc n startSeq pkts = some frames ∧
      frames.length = n ∧
      ∃ got, (((dec.setCodeInfo pkts.length n startSeq).copyLens
          (pkts.map List.length)).pushPkts (inds.map fun j => (frames.getD j [], j))) = some got ∧
        ∃ rest, (got.decodeBatch .vandermonde).popPkts pkts.length = some (pkts, rest) := by
  have hlenpos := List.length_pos_iff.mpr hne
  have hencodes := Fec.vandermonde_encodes hlenpos hkn hn
  have hrestores := Fec.vandermonde_restores hlenpos hkn hn
  have hlargest : 0 < CodeInfo.largest pkts := by
    have hmem := List.getElem_mem (l := pkts) (n := 0) hlenpos
    exact Nat.lt_of_lt_of_le (hpos _ hmem) (CodeInfo.le_largest hmem)
  -- the encoder with the packets of the batch
  have hclear : (enc.setCodeInfo pkts.length n startSeq).IsClear .encoder :=
    ⟨henc.codec, henc.cur, henc.sz⟩
  obtain ⟨e, hpush, hholds, -, hen, -⟩ := hclear.holds.pushPkts hpos
    (show ([] : List (List UInt8)).length + pkts.length ≤ pkts.length by simp)
  have hrows : e.originalBatch = CodeInfo.laid enc.originalBatch pkts := by
    refine hclear.holds.pushPkts_rows ?_ hpos (by simp [CodeInfo.setCodeInfo]) hpush
    funext i
    simp [CodeInfo.laid, CodeInfo.setCodeInfo]
  rw [List.nil_append] at hholds
  have hsz : e.sz = CodeInfo.largest pkts := le_antisymm
    (hholds.sz_le _ fun p hp => CodeInfo.le_largest hp) (CodeInfo.largest_le hholds.le_sz)
  refine ⟨_, CodeInfo.codedFrames_eq hencodes henc hpos startSeq, by simp, ?_⟩
  have hframe : ∀ j, j < n → ((List.range n).map fun i => Fec.vandermonde.encode pkts.length n
      (CodeInfo.laid enc.originalBatch pkts) i (CodeInfo.largest pkts)).getD j [] =
        Fec.vandermonde.encode pkts.length n e.originalBatch j (CodeInfo.largest pkts) := by
    intro j hj
    rw [List.getD_eq_getElem?_getD, List.getElem?_map, List.getElem?_range hj, hrows]
    rfl
  have hblocks : (inds.map fun j => (((List.range n).map fun i =>
      Fec.vandermonde.encode pkts.length n (CodeInfo.laid enc.originalBatch pkts) i
        (CodeInfo.largest pkts)).getD j [], j)) = inds.map fun j =>
          (Fec.vandermonde.encode pkts.length n e.originalBatch j (CodeInfo.largest pkts), j) :=
    List.map_congr_left fun j hj => by rw [hframe j (hinds j hj)]
  rw [hblocks]
  -- the decoder with all blocks, of which it uses the first `k`
  have hready : ((dec.setCodeInfo pkts.length n startSeq).copyLens
      (pkts.map List.length)).IsClear .decoder := ⟨hdec.codec, hdec.cur, hdec.sz⟩
  have hblockLen : ∀ b ∈ inds.map fun j =>
      (Fec.vandermonde.encode pkts.length n e.originalBatch j (CodeInfo.largest pkts), j),
        b.1.length = CodeInfo.largest pkts := by
    intro b hb
    obtain ⟨j, -, rfl⟩ := List.mem_map.mp hb
    exact hrestores.length _ _ _
  obtain ⟨got, hrun, hrec, hgotk, hgotn, hgotlens⟩ :=
    (hready.received (CodeInfo.largest pkts)).pushPkts hlargest hblockLen
      (fun b hb => by
        obtain ⟨j, hj, rfl⟩ := List.mem_map.mp hb
        exact hinds j hj)
      (by
        have hsub : inds ⊆ List.range n := fun j hj => List.mem_range.mpr (hinds j hj)
        have hle := (hnodup.subperm hsub).length_le
        rw [List.length_range] at hle
        simpa [CodeInfo.copyLens, CodeInfo.setCodeInfo] using hle)
  refine ⟨got, hrun, ?_⟩
  have hgotn : got.n = n := hgotn
  have htake := hrec.take hlenpos (by rw [List.nil_append, List.length_map]; exact henough)
  have hfec : Fec.vandermonde.Restores pkts.length { got with curInd := pkts.length }.n := by
    rw [hgotn]
    exact hrestores
  obtain ⟨rest, hpop⟩ := CodeInfo.popPkts_decoded hfec hholds hsz hne htake
    (by simp [henough]) hgotk
    (fun i p hp => by
      obtain ⟨hi, -⟩ := List.getElem?_eq_some_iff.mp hp
      have hlens : got.lens i = (pkts.map List.length).getD i 0 := by
        rw [hgotlens]
        exact if_pos hi
      rw [hlens, List.getD_eq_getElem?_getD, List.getElem?_map, hp]
      rfl)
    (fun b hb => by
      obtain ⟨j, hj, rfl⟩ := List.mem_map.mp (List.mem_of_mem_take hb)
      rw [hgotn]
      exact hinds j hj)
    (by
      rw [List.nil_append, List.map_take, List.map_map]
      have hid : inds.map (Prod.snd ∘ fun j => (Fec.vandermonde.encode pkts.length n
          e.originalBatch j (CodeInfo.largest pkts), j)) = inds := by
        simp [Function.comp_def]
      rw [hid]
      exact hnodup.sublist (List.take_sublist _ _))
    (fun b hb => by
      obtain ⟨j, -, rfl⟩ := List.mem_map.mp (List.mem_of_mem_take hb)
      rw [hgotn])
  exact ⟨rest, hpop⟩

/-- Two packets from a parity block and the second packet, in this order. -/
theorem vandermonde_recovers_two :
    ∃ frames, CodeInfo.codedFrames .vandermonde
        (.init .encoder 10 2000 (fun _ => 0) (fun _ => 0) (fun _ _ => 0) fun _ _ => 0) 3 5
        [[1, 2, 3], [4]] = some frames ∧ frames.length = 3 ∧
      ∃ got, ((((CodeInfo.init .decoder 10 2000 (fun _ => 0) (fun _ => 0) (fun _ _ => 0)
          fun _ _ => 0).setCodeInfo 2 3 5).copyLens [3, 1]).pushPkts
            ([2, 1].map fun j => (frames.getD j [], j))) = some got ∧
        ∃ rest, (got.decodeBatch .vandermonde).popPkts 2 = some ([[1, 2, 3], [4]], rest) :=
  vandermonde_recovers (CodeInfo.isClear_init ..) (CodeInfo.isClear_init ..) (by decide)
    (by decide) (by decide) (by decide) (by decide) (by decide) (by decide)

end WspaceScout
