import WspaceScout.Fec.Batch

/-!
# What the frames of a batch depend on

The encoder pads the packets of a batch to the largest length with what its rows hold. `ClearInfo`
leaves zeros there; the constructor leaves what the allocator put there.

## Main definitions

- `Fec.Encodes` — the part of the erasure code that the sender relies on
- `Encoder.afterBatches` — an encoder with a history of batches, each ended by `ClearInfo`
- `CodeInfo.codedFrames` — the frames of one batch

## Main results

- `CodeInfo.codedFrames_agree_iff` — when two encoders send the same frames for the same batch
-/

namespace WspaceScout

open Foundation

/-- `fec_encode` writes `sz` bytes that depend on the first `sz` bytes of the `k` source rows, and
copies the row for an index below `k`. -/
structure Fec.Encodes (fec : Fec) (k n : Nat) : Prop where
  length : ∀ src index sz, index < n → (fec.encode k n src index sz).length = sz
  congr : ∀ (src src' : Nat → Memory) (index sz : Nat), index < n →
    (∀ i, i < k → (src i).read 0 sz = (src' i).read 0 sz) →
    fec.encode k n src index sz = fec.encode k n src' index sz
  copy : ∀ src index sz, index < k → fec.encode k n src index sz = (src index).read 0 sz

/-- The code without parity blocks. -/
theorem Fec.copy_encodes (k : Nat) : Fec.copy.Encodes k k where
  length _ _ _ _ := Memory.length_read _ _ _
  congr _ _ index _ hindex hrows := hrows index hindex
  copy _ _ _ _ := rfl

namespace CodeInfo

variable {fec : Fec} {c c' c₁ c₂ : CodeInfo} {pkts rest : List (List UInt8)}

/-! ### Objects and their histories -/

/-- A call of a member function by the sender. -/
inductive Call where
  | setCodeInfo (k n startSeq : Nat)
  | pushPkt (src : List UInt8) (ind : Nat)
  | encodeBatch
  | popPkt

/-- The object after a call; a `PushPkt` or `PopPkt` that returns `false` changes nothing. -/
def call (fec : Fec) (c : CodeInfo) : Call → CodeInfo
  | .setCodeInfo k n startSeq => c.setCodeInfo k n startSeq
  | .pushPkt src ind => (c.pushPkt src ind).getD c
  | .encodeBatch => c.encodeBatch fec
  | .popPkt => (c.popPkt.map fun r => r.2.2).getD c

/-- A batch: any calls, and `ClearInfo` at its end. -/
def batch (fec : Fec) (c : CodeInfo) (calls : List Call) : CodeInfo :=
  (calls.foldl (call fec) c).clearInfo

/-- The frames of one batch: `SetCodeInfo`, a `PushPkt` for each packet, `EncodeBatch` and `n` times
`PopPkt`. -/
def codedFrames (fec : Fec) (c : CodeInfo) (n startSeq : Nat) (pkts : List (List UInt8)) :
    Option (List (List UInt8)) :=
  match (c.setCodeInfo pkts.length n startSeq).pushPkts (pkts.map fun p => (p, 0)) with
  | none => none
  | some c => ((c.encodeBatch fec).popPkts n).map Prod.fst

end CodeInfo

/-- What the allocator leaves in the arrays of a new object. -/
structure Allocation where
  inds : Nat → Nat
  lens : Nat → Nat
  originalBatch : Nat → Memory
  codedBatch : Nat → Memory

/-- An encoder with the given sizes after its earlier batches. -/
def Encoder.afterBatches (fec : Fec) (maxBatchSize pktSize : Nat) (a : Allocation)
    (batches : List (List CodeInfo.Call)) : CodeInfo :=
  batches.foldl (CodeInfo.batch fec)
    (.init .encoder maxBatchSize pktSize a.inds a.lens a.originalBatch a.codedBatch)

namespace CodeInfo

variable {fec : Fec} {c c' c₁ c₂ : CodeInfo} {pkts rest : List (List UInt8)}

/-- The rows are zero. -/
def Zeroed (c : CodeInfo) : Prop :=
  ∀ i x, i < c.maxBatchSize → x < c.pktSize → c.originalBatch i x = 0

/-- The sizes and the type of an object never change. -/
structure SameShape (c c' : CodeInfo) : Prop where
  maxBatchSize : c'.maxBatchSize = c.maxBatchSize
  pktSize : c'.pktSize = c.pktSize
  codecType : c'.codecType = c.codecType

theorem SameShape.trans {c'' : CodeInfo} (h : c.SameShape c') (h' : c'.SameShape c'') :
    c.SameShape c'' :=
  ⟨h'.1.trans h.1, h'.2.trans h.2, h'.3.trans h.3⟩

theorem pushPkt_shape {src : List UInt8} {ind : Nat} (h : c.pushPkt src ind = some c') :
    c.SameShape c' := by
  simp only [pushPkt] at h
  split at h
  · cases h
  · split at h <;> split at h <;> cases h <;> exact ⟨rfl, rfl, rfl⟩

theorem popPkt_shape {row : Memory} {len : Nat} (h : c.popPkt = some (row, len, c')) :
    c.SameShape c' := by
  simp only [popPkt] at h
  split at h <;> split at h <;> cases h <;> exact ⟨rfl, rfl, rfl⟩

theorem call_shape (fec : Fec) (c : CodeInfo) (a : Call) : c.SameShape (call fec c a) := by
  cases a with
  | setCodeInfo k n startSeq => exact ⟨rfl, rfl, rfl⟩
  | encodeBatch => exact ⟨rfl, rfl, rfl⟩
  | pushPkt src ind =>
    simp only [call]
    cases hpush : c.pushPkt src ind with
    | none => exact ⟨rfl, rfl, rfl⟩
    | some c' => exact pushPkt_shape hpush
  | popPkt =>
    simp only [call]
    cases hpop : c.popPkt with
    | none => exact ⟨rfl, rfl, rfl⟩
    | some r => exact popPkt_shape hpop

theorem calls_shape (fec : Fec) (c : CodeInfo) (calls : List Call) :
    c.SameShape (calls.foldl (call fec) c) := by
  induction calls generalizing c with
  | nil => exact ⟨rfl, rfl, rfl⟩
  | cons a calls ih => exact (call_shape fec c a).trans (ih (call fec c a))

theorem zeroed_clearInfo (h : c.codecType = .encoder) : c.clearInfo.Zeroed := by
  intro i x hi hx
  have hrow : c.clearInfo.originalBatch i =
      (c.originalBatch i).write 0 (List.replicate c.pktSize 0) := by
    simp only [clearInfo, if_pos h, zeroBatch]
    exact if_pos hi
  have hin := Memory.write_inside (c.originalBatch i) 0 (List.replicate c.pktSize (0 : UInt8))
    (i := x) (by rw [List.length_replicate]; exact hx)
  rw [Nat.zero_add] at hin
  rw [hrow, hin, List.getElem_replicate]

/-- Between two batches the encoder holds nothing, and its rows are zero once it has been
cleared. -/
structure Ready (c : CodeInfo) (maxBatchSize pktSize : Nat) (cleared : Prop) : Prop where
  clear : c.IsClear .encoder
  maxBatchSize : c.maxBatchSize = maxBatchSize
  pktSize : c.pktSize = pktSize
  zeroed : cleared → c.Zeroed

theorem Ready.batch {m s : Nat} {cleared : Prop} (h : c.Ready m s cleared) (fec : Fec)
    (calls : List Call) : (batch fec c calls).Ready m s True := by
  have hshape := calls_shape fec c calls
  have hcodec := hshape.codecType.trans h.clear.codec
  refine ⟨⟨hcodec, rfl, rfl⟩, hshape.maxBatchSize.trans h.maxBatchSize,
    hshape.pktSize.trans h.pktSize, fun _ => zeroed_clearInfo hcodec⟩

theorem Ready.batches {m s : Nat} {cleared : Prop} (h : c.Ready m s cleared) (fec : Fec)
    (batches : List (List Call)) :
    (batches.foldl (CodeInfo.batch fec) c).Ready m s (cleared ∨ batches ≠ []) := by
  induction batches generalizing c cleared with
  | nil =>
    refine ⟨h.clear, h.maxBatchSize, h.pktSize, ?_⟩
    rintro (hc | hne)
    · exact h.zeroed hc
    · exact absurd rfl hne
  | cons calls batches ih =>
    have hrest := ih (h.batch fec calls)
    exact ⟨hrest.clear, hrest.maxBatchSize, hrest.pktSize, fun _ => hrest.zeroed (.inl trivial)⟩

theorem ready_afterBatches (fec : Fec) (m s : Nat) (a : Allocation) (batches : List (List Call)) :
    (Encoder.afterBatches fec m s a batches).Ready m s (batches ≠ []) := by
  have hinit : (init .encoder m s a.inds a.lens a.originalBatch a.codedBatch).Ready m s False :=
    ⟨isClear_init .encoder m s _ _ _ _, rfl, rfl, False.elim⟩
  have h := hinit.batches fec batches
  exact ⟨h.clear, h.maxBatchSize, h.pktSize, fun hne => h.zeroed (.inr hne)⟩

/-! ### The frames of a batch -/

/-- The largest length in a batch. -/
def largest (pkts : List (List UInt8)) : Nat := (pkts.map List.length).foldr max 0

theorem le_largest {p : List UInt8} (h : p ∈ pkts) : p.length ≤ largest pkts := by
  induction pkts with
  | nil => simp at h
  | cons q pkts ih =>
    obtain rfl | h := List.mem_cons.mp h
    · exact Nat.le_max_left _ _
    · exact (ih h).trans (Nat.le_max_right _ _)

theorem largest_le {b : Nat} (h : ∀ p ∈ pkts, p.length ≤ b) : largest pkts ≤ b := by
  induction pkts with
  | nil => exact Nat.zero_le b
  | cons p pkts ih =>
    rw [List.forall_mem_cons] at h
    exact Nat.max_le.mpr ⟨h.1, ih h.2⟩

/-- The rows `batch` with the packets written over them. -/
def laid (batch : Nat → Memory) (pkts : List (List UInt8)) : Nat → Memory := fun i =>
  (batch i).write 0 ((pkts[i]?).getD [])

theorem laid_snoc (batch : Nat → Memory) (pkts : List (List UInt8)) (p : List UInt8) :
    laid batch (pkts ++ [p]) =
      Function.update (laid batch pkts) pkts.length ((laid batch pkts pkts.length).write 0 p) := by
  funext i
  rcases lt_trichotomy i pkts.length with hlt | rfl | hgt
  · rw [Function.update_of_ne (Nat.ne_of_lt hlt), laid, laid, List.getElem?_append_left hlt]
  · simp [laid]
  · rw [Function.update_of_ne (Nat.ne_of_gt hgt), laid, laid,
      List.getElem?_eq_none (by simp; omega), List.getElem?_eq_none (Nat.le_of_lt hgt)]

/-- Pushing writes the packets over the rows. -/
theorem Holds.pushPkts_rows {batch : Nat → Memory} (h : c.Holds pkts)
    (hrows : c.originalBatch = laid batch pkts) (hpos : ∀ p ∈ rest, 0 < p.length)
    (hk : pkts.length + rest.length ≤ c.k)
    (hrun : c.pushPkts (rest.map fun p => (p, 0)) = some c') :
    c'.originalBatch = laid batch (pkts ++ rest) := by
  induction rest generalizing c pkts with
  | nil =>
    cases hrun
    rw [List.append_nil, hrows]
  | cons p rest ih =>
    rw [List.length_cons] at hk
    have hp := hpos p (List.mem_cons_self ..)
    have hcur := h.cur
    have hpush := pushPkt_encoder h.codec hp (show c.curInd < c.k by omega)
    simp only [List.map_cons, CodeInfo.pushPkts, hpush] at hrun
    rw [List.append_cons]
    apply ih (h.pushed p) _ (fun q hq => hpos q (List.mem_cons_of_mem _ hq)) _ hrun
    · rw [laid_snoc, ← hrows, ← hcur]
      rfl
    · rw [List.length_append, List.length_singleton]
      exact (by omega : pkts.length + 1 + rest.length ≤ c.k)

/-- Popping at the encoder. -/
theorem popPkts_encoder {m : Nat} (hcodec : c.codecType = .encoder) (hn : c.curInd + m ≤ c.n) :
    c.popPkts m = some ((List.range' c.curInd m).map fun i => (c.codedBatch i).read 0 c.sz,
      { c with curInd := c.curInd + m }) :=
  popPkts_walk (fun _ => c.sz) fun _ _ hj => popPkt_encoder hcodec (by omega)

/-- The frames are the blocks of the packets written over the rows. -/
theorem codedFrames_eq {n : Nat} (hfec : fec.Encodes pkts.length n) (hc : c.IsClear .encoder)
    (hpos : ∀ p ∈ pkts, 0 < p.length) (startSeq : Nat) :
    codedFrames fec c n startSeq pkts = some ((List.range n).map fun i =>
      fec.encode pkts.length n (laid c.originalBatch pkts) i (largest pkts)) := by
  have hclear : (c.setCodeInfo pkts.length n startSeq).IsClear .encoder := ⟨hc.codec, hc.cur, hc.sz⟩
  obtain ⟨e, hrun, hholds, hk, hn, -⟩ := hclear.holds.pushPkts hpos
    (show ([] : List (List UInt8)).length + pkts.length ≤ pkts.length by simp)
  have hrows : e.originalBatch = laid c.originalBatch pkts := by
    refine hclear.holds.pushPkts_rows ?_ hpos (by simp [setCodeInfo]) hrun
    funext i
    simp [laid, setCodeInfo]
  have hsz : e.sz = largest pkts :=
    le_antisymm (hholds.sz_le _ fun p hp => le_largest hp) (largest_le hholds.le_sz)
  have hk : e.k = pkts.length := hk
  have hn : e.n = n := hn
  have hpop := popPkts_encoder (c := e.encodeBatch fec) (m := n) hholds.codec
    (show 0 + n ≤ e.n by omega)
  simp only [codedFrames, hrun, hpop, Option.map_some]
  -- position by position: the block that was encoded is the block that is read
  refine congrArg some (List.ext_getElem (by simp) ?_)
  intro i hi hi'
  have hin : i < n := by simpa using hi
  have hlen := hfec.length (laid c.originalBatch pkts) i (largest pkts) hin
  have hrow : (e.encodeBatch fec).codedBatch i = (e.codedBatch i).write 0
      (fec.encode pkts.length n (laid c.originalBatch pkts) i (largest pkts)) := by
    simp only [encodeBatch, hk, hn, hrows, hsz]
    exact if_pos hin
  simp only [List.getElem_map, List.getElem_range', List.getElem_range]
  have hself := Memory.read_write_self (e.codedBatch i) 0
    (fec.encode pkts.length n (laid c.originalBatch pkts) i (largest pkts))
  rw [hlen] at hself
  rw [show (e.encodeBatch fec).curInd + 1 * i = i from by simp [encodeBatch],
    show (e.encodeBatch fec).sz = largest pkts from hsz, hrow, hself]

/-- Two encoders send the same frames if the rows under the packets agree up to the largest
length. -/
theorem codedFrames_congr {n : Nat} (hfec : fec.Encodes pkts.length n)
    (h₁ : c₁.IsClear .encoder) (h₂ : c₂.IsClear .encoder) (hpos : ∀ p ∈ pkts, 0 < p.length)
    (hrows : ∀ (i : Nat) (p : List UInt8), pkts[i]? = some p → ∀ x, p.length ≤ x →
      x < largest pkts → c₁.originalBatch i x = c₂.originalBatch i x) (startSeq : Nat) :
    codedFrames fec c₁ n startSeq pkts = codedFrames fec c₂ n startSeq pkts := by
  rw [codedFrames_eq hfec h₁ hpos, codedFrames_eq hfec h₂ hpos]
  refine congrArg some (List.map_congr_left ?_)
  intro index hindex
  apply hfec.congr _ _ index _ (List.mem_range.mp hindex)
  intro i hi
  apply Memory.read_congr
  intro x hx
  have hp : pkts[i]? = some pkts[i] := List.getElem?_eq_getElem hi
  rw [Nat.zero_add, laid, laid, hp, Option.getD_some]
  -- inside the packet the row is the packet, behind it the old row shows
  by_cases hin : x < pkts[i].length
  · have hw₁ := (c₁.originalBatch i).write_inside 0 pkts[i] hin
    have hw₂ := (c₂.originalBatch i).write_inside 0 pkts[i] hin
    rw [Nat.zero_add] at hw₁ hw₂
    rw [hw₁, hw₂]
  · have hout : x < 0 ∨ 0 + pkts[i].length ≤ x := .inr (by omega)
    rw [Memory.write_outside _ _ _ hout, Memory.write_outside _ _ _ hout]
    exact hrows i _ hp x (by omega) hx

/-- Behind a packet that is shorter than the largest, the frame of that packet shows the row. -/
theorem codedFrames_shows {n : Nat} (hfec : fec.Encodes pkts.length n) (hn : pkts.length ≤ n)
    (h₁ : c₁.IsClear .encoder) (h₂ : c₂.IsClear .encoder) (hpos : ∀ p ∈ pkts, 0 < p.length)
    {startSeq i : Nat} {p : List UInt8} (hp : pkts[i]? = some p) (hshort : p.length < largest pkts)
    (h : codedFrames fec c₁ n startSeq pkts = codedFrames fec c₂ n startSeq pkts) :
    c₁.originalBatch i p.length = c₂.originalBatch i p.length := by
  obtain ⟨hi, rfl⟩ := List.getElem?_eq_some_iff.mp hp
  rw [codedFrames_eq hfec h₁ hpos, codedFrames_eq hfec h₂ hpos, Option.some.injEq] at h
  have hframe := List.map_inj_left.mp h i (List.mem_range.mpr (by omega))
  rw [hfec.copy _ _ _ hi, hfec.copy _ _ _ hi] at hframe
  have hbyte := congrArg (fun l => l[pkts[i].length]?) hframe
  simp only [Memory.read, List.getElem?_map, List.getElem?_range hshort, Option.map_some,
    Option.some.injEq, Nat.zero_add, laid, hp, Option.getD_some] at hbyte
  have hout : pkts[i].length < 0 ∨ 0 + pkts[i].length ≤ pkts[i].length := .inr (by omega)
  rwa [Memory.write_outside _ _ _ hout, Memory.write_outside _ _ _ hout] at hbyte

/-- A batch of packets with different lengths has one that needs padding. -/
theorem exists_short (h : ¬∀ p ∈ pkts, ∀ q ∈ pkts, p.length = q.length) :
    ∃ (i : Nat) (p : List UInt8), pkts[i]? = some p ∧ p.length < largest pkts := by
  push Not at h
  obtain ⟨p, hp, q, hq, hne⟩ := h
  have hple := le_largest hp
  have hqle := le_largest hq
  rcases Nat.lt_or_gt_of_ne hne with hlt | hlt
  · obtain ⟨i, hi⟩ := List.getElem?_of_mem hp
    exact ⟨i, p, hi, by omega⟩
  · obtain ⟨i, hi⟩ := List.getElem?_of_mem hq
    exact ⟨i, q, hi, by omega⟩

end CodeInfo

/-- Memory full of one byte. -/
def Allocation.filled (b : UInt8) : Allocation :=
  ⟨fun _ => 0, fun _ => 0, fun _ _ => b, fun _ _ => b⟩

open CodeInfo in
/-- Whatever the allocator left in them, two encoders send the same frames for a batch exactly if
both have been cleared after an earlier batch, or no packet of the batch needs padding. -/
theorem codedFrames_agree_iff {fec : Fec} {pkts : List (List UInt8)} {n m₁ s₁ m₂ s₂ : Nat}
    (hfec : fec.Encodes pkts.length n) (hn : pkts.length ≤ n) (hpos : ∀ p ∈ pkts, 0 < p.length)
    (hm₁ : pkts.length ≤ m₁) (hs₁ : ∀ p ∈ pkts, p.length ≤ s₁) (hm₂ : pkts.length ≤ m₂)
    (hs₂ : ∀ p ∈ pkts, p.length ≤ s₂) (batches₁ batches₂ : List (List Call)) (startSeq : Nat) :
    (∀ a₁ a₂, codedFrames fec (Encoder.afterBatches fec m₁ s₁ a₁ batches₁) n startSeq pkts =
        codedFrames fec (Encoder.afterBatches fec m₂ s₂ a₂ batches₂) n startSeq pkts) ↔
      batches₁ ≠ [] ∧ batches₂ ≠ [] ∨ ∀ p ∈ pkts, ∀ q ∈ pkts, p.length = q.length := by
  constructor
  · intro h
    by_contra hcon
    push Not at hcon
    obtain ⟨hfresh, hdiff⟩ := hcon
    have hdiff' : ¬∀ p ∈ pkts, ∀ q ∈ pkts, p.length = q.length := by
      push Not
      exact hdiff
    obtain ⟨i, p, hp, hshort⟩ := exists_short hdiff'
    have hshows : ∀ a₁ a₂, (Encoder.afterBatches fec m₁ s₁ a₁ batches₁).originalBatch i p.length =
        (Encoder.afterBatches fec m₂ s₂ a₂ batches₂).originalBatch i p.length := fun a₁ a₂ =>
      codedFrames_shows hfec hn (ready_afterBatches fec m₁ s₁ a₁ batches₁).clear
        (ready_afterBatches fec m₂ s₂ a₂ batches₂).clear hpos hp hshort (h a₁ a₂)
    -- a new encoder shows what the allocator left, so two fillings cannot both agree
    by_cases hnil : batches₁ = []
    · subst hnil
      have heq := (hshows (.filled 0) (.filled 0)).trans (hshows (.filled 1) (.filled 0)).symm
      exact absurd (show (0 : UInt8) = 1 from heq) (by decide)
    · have hnil₂ := hfresh hnil
      subst hnil₂
      have heq := (hshows (.filled 0) (.filled 0)).symm.trans (hshows (.filled 0) (.filled 1))
      exact absurd (show (0 : UInt8) = 1 from heq) (by decide)
  · rintro hcond a₁ a₂
    have hr₁ := ready_afterBatches fec m₁ s₁ a₁ batches₁
    have hr₂ := ready_afterBatches fec m₂ s₂ a₂ batches₂
    apply codedFrames_congr hfec hr₁.clear hr₂.clear hpos
    intro i p hp x hle hlt
    obtain ⟨hi, rfl⟩ := List.getElem?_eq_some_iff.mp hp
    rcases hcond with ⟨hne₁, hne₂⟩ | hsame
    · have hx₁ : x < s₁ := hlt.trans_le (largest_le hs₁)
      have hx₂ : x < s₂ := hlt.trans_le (largest_le hs₂)
      rw [hr₁.zeroed hne₁ i x (by rw [hr₁.maxBatchSize]; omega) (by rwa [hr₁.pktSize]),
        hr₂.zeroed hne₂ i x (by rw [hr₂.maxBatchSize]; omega) (by rwa [hr₂.pktSize])]
    · have hlargest : largest pkts ≤ pkts[i].length :=
        largest_le fun q hq => (hsame q hq _ (List.getElem_mem hi)).le
      omega

/-- A batch of a longer and a shorter packet at two encoders with one earlier batch each. -/
theorem codedFrames_agree_iff_two :
    (∀ a₁ a₂, CodeInfo.codedFrames .copy (Encoder.afterBatches .copy 10 2000 a₁ [[]]) 2 5
          [[1, 2], [3]] =
        CodeInfo.codedFrames .copy
          (Encoder.afterBatches .copy 10 2000 a₂ [[.setCodeInfo 1 1 4, .pushPkt [7, 8, 9] 0]]) 2 5
          [[1, 2], [3]]) ↔
      ([[]] : List (List CodeInfo.Call)) ≠ [] ∧
          [[CodeInfo.Call.setCodeInfo 1 1 4, .pushPkt [7, 8, 9] 0]] ≠ [] ∨
        ∀ p ∈ [[1, 2], [(3 : UInt8)]], ∀ q ∈ [[1, 2], [(3 : UInt8)]], p.length = q.length :=
  codedFrames_agree_iff (Fec.copy_encodes 2) (by decide) (by decide) (by decide) (by decide)
    (by decide) (by decide) _ _ _

/-- Two new encoders send the byte behind the shorter packet as the allocator left it. -/
theorem codedFrames_new_differ :
    CodeInfo.codedFrames .copy (Encoder.afterBatches .copy 10 2000 (.filled 0) []) 2 5
        [[1, 2], [3]] = some [[1, 2], [3, 0]] ∧
      CodeInfo.codedFrames .copy (Encoder.afterBatches .copy 10 2000 (.filled 1) []) 2 5
        [[1, 2], [3]] = some [[1, 2], [3, 1]] :=
  ⟨rfl, rfl⟩

end WspaceScout
