import WspaceScout.Fec.FecNew
import WspaceScout.Fec.InvertMat

/-!
# The decoder

`fec_decode` first moves every packet that arrived as it was to its own row, builds the matrix of
the rows that the received blocks belong to, inverts it, and computes the missing packets. It
returns an error for repeated or invalid indices only.

## Main definitions

- `shuffle`, `buildDecodeMatrix`, `fecDecode` — the functions of `fec.c`

## Main results

- `shuffle_exact` — a permutation that puts the packets in place, or a repeated index
- `fecDecode_exact` — when decoding fails, and what it leaves otherwise
-/

namespace WspaceScout

open Foundation

/-- The positions below `k` that do not hold their own packet. -/
def misplaced (k : Nat) (index : Nat → Nat) : Finset Nat :=
  (Finset.range k).filter fun j => index j ≠ j

theorem misplaced_swap {k i : Nat} {index : Nat → Nat} (hc : index i < k)
    (hne : index i ≠ i) (hfree : index (index i) ≠ index i) :
    (misplaced k (index ∘ Equiv.swap i (index i))).card < (misplaced k index).card := by
  apply Finset.card_lt_card
  rw [Finset.ssubset_iff_of_subset]
  · refine ⟨index i, Finset.mem_filter.mpr ⟨Finset.mem_range.mpr hc, hfree⟩, fun hmem => ?_⟩
    have hplaced := (Finset.mem_filter.mp hmem).2
    rw [Function.comp_apply, Equiv.swap_apply_right] at hplaced
    exact hplaced rfl
  · intro j hj
    obtain ⟨hjk, hj⟩ := Finset.mem_filter.mp hj
    refine Finset.mem_filter.mpr ⟨hjk, ?_⟩
    by_cases hji : j = i
    · rwa [hji]
    · by_cases hjc : j = index i
      · rwa [hjc]
      · rwa [Function.comp_apply, Equiv.swap_apply_of_ne_of_ne hji hjc] at hj

/-- A result, the rows and the indices of `shuffle` and `fec_decode`. -/
structure Decoding where
  error : Bool
  pkt : Nat → Memory
  index : Nat → Nat

/-- `shuffle` from position `i` on. -/
def shuffleFrom (k : Nat) (pkt : Nat → Memory) (index : Nat → Nat) (i : Nat) : Decoding :=
  if i < k then
    if index i ≥ k ∨ index i = i then shuffleFrom k pkt index (i + 1)
    else if index (index i) = index i then ⟨true, pkt, index⟩
    else shuffleFrom k (pkt ∘ Equiv.swap i (index i)) (index ∘ Equiv.swap i (index i)) i
  else ⟨false, pkt, index⟩
termination_by ((misplaced k index).card, k - i)
decreasing_by
  · exact .right _ (by omega)
  · exact .left _ _ (misplaced_swap (by omega) (by omega) (by omega))

/-- `shuffle`. -/
def shuffle (pkt : Nat → Memory) (index : Nat → Nat) (k : Nat) : Decoding :=
  shuffleFrom k pkt index 0

/-- `build_decode_matrix`; `none` stands for `NULL`. -/
def buildDecodeMatrix (code : FecParms) (index : Nat → Nat) : Option (Nat → Memory) :=
  if (List.range code.k).any fun i => index i ≥ code.k ∧ index i ≥ code.n then none
  else invertMat (fun i =>
    if index i < code.k then fun col => if col = i then 1 else 0
    else code.encMatrix (index i)) code.k

/-- A row after the decoding: a missing packet is computed in `new_pkt` and copied. -/
def decodedRow (code : FecParms) (s : Decoding) (mDec : Nat → Memory) (sz row : Nat) : Memory :=
  if row < code.k ∧ s.index row ≥ code.k then
    let newPkt := (List.range code.k).foldl
      (fun dst col => addmul dst (s.pkt col) (mDec row col) sz) (fun _ => 0)
    (s.pkt row).write 0 (Memory.read newPkt 0 sz)
  else s.pkt row

/-- `fec_decode`. -/
def fecDecode (code : FecParms) (pkt : Nat → Memory) (index : Nat → Nat) (sz : Nat) : Decoding :=
  let s := shuffle pkt index code.k
  if s.error then s
  else
    match buildDecodeMatrix code s.index with
    | none => { s with error := true }
    | some mDec => { s with pkt := decodedRow code s mDec sz }

/-! ### Moving the packets to their rows -/

/-- What a shuffle of the rows below `k` leaves. -/
structure Shuffled (k : Nat) (pkt : Nat → Memory) (index : Nat → Nat) (s : Decoding) : Prop where
  perm : ∃ σ : Equiv.Perm Nat, (∀ j, σ j < k ↔ j < k) ∧ s.pkt = pkt ∘ σ ∧ s.index = index ∘ σ
  placed : s.error = false → ∀ j, j < k → s.index j < k → s.index j = j
  repeated : s.error = true →
    ∃ a b, a < k ∧ b < k ∧ a ≠ b ∧ index a < k ∧ index a = index b

theorem swap_lt_iff {k i c : Nat} (hi : i < k) (hc : c < k) (j : Nat) :
    Equiv.swap i c j < k ↔ j < k := by
  rw [Equiv.swap_apply_def]
  split
  · omega
  · split <;> omega

theorem shuffleFrom_spec (k : Nat) (pkt : Nat → Memory) (index : Nat → Nat) (i : Nat)
    (hplaced : ∀ j, j < i → j < k → index j < k → index j = j) :
    Shuffled k pkt index (shuffleFrom k pkt index i) := by
  fun_induction shuffleFrom k pkt index i with
  | case1 pkt index i hi hskip ih =>
    apply ih
    intro j hj hjk hindex
    by_cases hji : j = i
    · subst hji
      omega
    · exact hplaced j (by omega) hjk hindex
  | case2 pkt index i hi hmove hconflict =>
    refine ⟨⟨1, fun j => Iff.rfl, rfl, rfl⟩, Bool.noConfusion, fun _ => ?_⟩
    exact ⟨i, index i, hi, by omega, by omega, by omega, hconflict.symm⟩
  | case3 pkt index i hi hmove hfree ih =>
    have hc : index i < k := by omega
    obtain ⟨⟨σ, hσ, hpkt, hindex⟩, hdone, hrep⟩ := ih (by
      intro j hj hjk hlt
      rw [Function.comp_apply] at hlt ⊢
      by_cases hjc : j = index i
      · rw [hjc, Equiv.swap_apply_right]
      · rw [Equiv.swap_apply_of_ne_of_ne (by omega) hjc] at hlt ⊢
        exact hplaced j hj hjk hlt)
    refine ⟨⟨Equiv.swap i (index i) * σ, fun j => ?_, ?_, ?_⟩, hdone, fun herr => ?_⟩
    · rw [Equiv.Perm.mul_apply, swap_lt_iff hi hc, hσ]
    · rw [hpkt]
      rfl
    · rw [hindex]
      rfl
    · obtain ⟨a, b, ha, hb, hab, heq⟩ := hrep herr
      exact ⟨Equiv.swap i (index i) a, Equiv.swap i (index i) b, (swap_lt_iff hi hc a).mpr ha,
        (swap_lt_iff hi hc b).mpr hb, fun h => hab ((Equiv.swap i (index i)).injective h), heq⟩
  | case4 pkt index i hi =>
    refine ⟨⟨1, fun j => Iff.rfl, rfl, rfl⟩, fun _ j hj hindex => hplaced j (by omega) hj hindex,
      Bool.noConfusion⟩

theorem shuffle_shuffled (pkt : Nat → Memory) (index : Nat → Nat) (k : Nat) :
    Shuffled k pkt index (shuffle pkt index k) :=
  shuffleFrom_spec k pkt index 0 fun j hj => absurd hj (Nat.not_lt_zero j)

/-- Below `k`, equal indices in the shuffled rows are equal indices in the rows. -/
theorem Shuffled.index_inj {k : Nat} {pkt : Nat → Memory} {index : Nat → Nat} {s : Decoding}
    (h : Shuffled k pkt index s)
    (hinj : ∀ r r', r < k → r' < k → index r = index r' → r = r') :
    ∀ r r', r < k → r' < k → s.index r = s.index r' → r = r' := by
  obtain ⟨⟨σ, hσ, -, hindex⟩, -, -⟩ := h
  intro r r' hr hr' heq
  rw [hindex] at heq
  exact σ.injective (hinj (σ r) (σ r') ((hσ r).mpr hr) ((hσ r').mpr hr') heq)

/-- `shuffle` reports an error exactly if two positions hold the index of one data packet. -/
theorem shuffle_error_iff (pkt : Nat → Memory) (index : Nat → Nat) (k : Nat) :
    (shuffle pkt index k).error = true ↔
      ∃ a b, a < k ∧ b < k ∧ a ≠ b ∧ index a < k ∧ index a = index b := by
  obtain ⟨⟨σ, hσ, -, hindex⟩, hplaced, hrep⟩ := shuffle_shuffled pkt index k
  constructor
  · exact hrep
  · rintro ⟨a, b, ha, hb, hab, halt, heq⟩
    by_contra herr
    have hplaced := hplaced (Bool.not_eq_true _ ▸ herr)
    rw [hindex] at hplaced
    -- both positions would have to be the one that the index names
    have hpos : ∀ c, c < k → index c < k → σ.symm c = index c := by
      intro c hc hclt
      have hself : σ (σ.symm c) = c := σ.apply_symm_apply c
      have hlt : σ.symm c < k := by rwa [← hσ, hself]
      have h := hplaced (σ.symm c) hlt
      rw [Function.comp_apply, hself] at h
      exact (h hclt).symm
    have h1 := hpos a ha halt
    have h2 := hpos b hb (heq ▸ halt)
    exact hab (σ.symm.injective (h1.trans (heq.trans h2.symm)))

/-- Whatever the indices are, `shuffle` ends; it permutes the first `k` rows with their indices,
reports an error exactly if two of them hold the index of one data packet, and otherwise leaves
every data packet in its own row. -/
theorem shuffle_exact (pkt : Nat → Memory) (index : Nat → Nat) (k : Nat) :
    (∃ σ : Equiv.Perm Nat, (∀ j, σ j < k ↔ j < k) ∧ (shuffle pkt index k).pkt = pkt ∘ σ ∧
      (shuffle pkt index k).index = index ∘ σ) ∧
    ((shuffle pkt index k).error = true ↔
      ∃ a b, a < k ∧ b < k ∧ a ≠ b ∧ index a < k ∧ index a = index b) ∧
    ((shuffle pkt index k).error = false → ∀ j, j < k → (shuffle pkt index k).index j < k →
      (shuffle pkt index k).index j = j) :=
  ⟨(shuffle_shuffled pkt index k).perm, shuffle_error_iff pkt index k,
    (shuffle_shuffled pkt index k).placed⟩

/-! ### Decoding -/

variable {code : FecParms} {k n : Nat} {pkt src : Nat → Memory} {index : Nat → Nat} {sz : Nat}

/-- The matrix that is inverted: the rows of the generator matrix that belong to the blocks. -/
theorem toMatrix_decode (h : code.Systematic k n)
    (hplaced : ∀ j, j < k → index j < k → index j = j) :
    toMatrix k (fun i => if index i < k then fun col => if col = i then 1 else 0
      else code.encMatrix (index i)) = toMatrix k fun i => code.encMatrix (index i) := by
  refine Matrix.ext fun i j => ?_
  by_cases hi : index i < k
  · have hrow : (if index i < k then (fun col => if col = (i : Nat) then 1 else 0 : Memory)
        else code.encMatrix (index i)) = fun col => if col = (i : Nat) then 1 else 0 := if_pos hi
    have htop : code.encMatrix (index i) j = if (j : Nat) = i then 1 else 0 := by
      rw [hplaced i i.isLt hi, h.top i j i.isLt j.isLt]
    exact congrArg Gf.mk ((congrFun hrow j).trans htop.symm)
  · have hrow : (if index i < k then (fun col => if col = (i : Nat) then 1 else 0 : Memory)
        else code.encMatrix (index i)) = code.encMatrix (index i) := if_neg hi
    exact congrArg Gf.mk (congrFun hrow j)

/-- For valid and distinct indices the matrix of the decoder exists and inverts their rows. -/
theorem buildDecodeMatrix_some (h : code.Systematic k n) (hlt : ∀ r, r < k → index r < n)
    (hinj : ∀ r r', r < k → r' < k → index r = index r' → r = r')
    (hplaced : ∀ j, j < k → index j < k → index j = j) :
    ∃ mDec, buildDecodeMatrix code index = some mDec ∧
      toMatrix k mDec * (toMatrix k fun i => code.encMatrix (index i)) = 1 := by
  have hvalid : ((List.range k).any fun i => index i ≥ k ∧ index i ≥ n) = false := by
    rw [List.any_eq_false]
    intro i hi
    have := hlt i (List.mem_range.mp hi)
    rw [decide_eq_true_iff]
    omega
  have hspec := invertMat_spec (fun i => if index i < k then fun col => if col = i then 1 else 0
    else code.encMatrix (index i)) k
  rw [toMatrix_decode h hplaced] at hspec
  rw [buildDecodeMatrix, h.k_eq, h.n_eq, hvalid, if_neg Bool.false_ne_true]
  split at hspec
  · exact absurd hspec (fecNew_mds h hlt hinj)
  · rename_i inv hinv
    exact ⟨inv, hinv, hspec.1⟩

/-- The matrix of the decoder exists for valid and distinct indices only. -/
theorem buildDecodeMatrix_valid (h : code.Systematic k n)
    (hplaced : ∀ j, j < k → index j < k → index j = j) {mDec : Nat → Memory}
    (hm : buildDecodeMatrix code index = some mDec) :
    (∀ r, r < k → index r < n) ∧
      ∀ r r', r < k → r' < k → index r = index r' → r = r' := by
  have hkn := h.le
  rw [buildDecodeMatrix, h.k_eq, h.n_eq] at hm
  split at hm
  case isTrue => cases hm
  case isFalse hvalid =>
    have hspec := invertMat_spec (fun i => if index i < k then fun col => if col = i then 1 else 0
      else code.encMatrix (index i)) k
    rw [hm, toMatrix_decode h hplaced] at hspec
    refine ⟨fun r hr => ?_, fun r r' hr hr' heq => ?_⟩
    · by_contra hge
      refine hvalid (List.any_eq_true.mpr ⟨r, List.mem_range.mpr hr, ?_⟩)
      rw [decide_eq_true_iff]
      omega
    · -- two equal rows cannot be inverted
      by_contra hne
      have hrow : (toMatrix k fun i => code.encMatrix (index i)) ⟨r, hr⟩ =
          (toMatrix k fun i => code.encMatrix (index i)) ⟨r', hr'⟩ := by
        funext j
        rw [toMatrix_apply, toMatrix_apply]
        exact congrArg (fun i => (⟨code.encMatrix i j⟩ : Gf)) heq
      have hdet := Matrix.det_zero_of_row_eq (fun hij => hne (Fin.mk.inj hij)) hrow
      have hprod := congrArg Matrix.det hspec.1
      rw [Matrix.det_mul, hdet, mul_zero, Matrix.det_one] at hprod
      exact zero_ne_one hprod

/-- Decoding fails exactly for invalid or repeated indices. -/
theorem fecDecode_error_iff (h : code.Systematic k n) (pkt : Nat → Memory) (index : Nat → Nat)
    (sz : Nat) : (fecDecode code pkt index sz).error = true ↔
      ¬((∀ r, r < k → index r < n) ∧
        ∀ r r', r < k → r' < k → index r = index r' → r = r') := by
  have hshuffled := shuffle_shuffled pkt index k
  have hiff := shuffle_error_iff pkt index k
  obtain ⟨σ, hσ, -, hindex⟩ := hshuffled.perm
  rw [fecDecode, h.k_eq]
  by_cases herr : (shuffle pkt index k).error = true
  · simp only [herr, if_true]
    obtain ⟨a, b, ha, hb, hab, -, heq⟩ := hiff.mp herr
    exact iff_of_true trivial fun hgood => hab (hgood.2 a b ha hb heq)
  · have hplaced := hshuffled.placed (Bool.not_eq_true _ ▸ herr)
    simp only [if_neg herr]
    cases hm : buildDecodeMatrix code (shuffle pkt index k).index with
    | none =>
      refine iff_of_true rfl fun hgood => ?_
      have hlt : ∀ r, r < k → (shuffle pkt index k).index r < n := fun r hr => by
        rw [hindex]
        exact hgood.1 (σ r) ((hσ r).mpr hr)
      obtain ⟨mDec, hsome, -⟩ := buildDecodeMatrix_some h hlt (hshuffled.index_inj hgood.2) hplaced
      rw [hm] at hsome
      cases hsome
    | some mDec =>
      refine iff_of_false herr (not_not.mpr ?_)
      have hgood := buildDecodeMatrix_valid h hplaced hm
      rw [hindex] at hgood
      have hback : ∀ r, r < k → σ.symm r < k := fun r hr => by
        rwa [← hσ, σ.apply_symm_apply]
      refine ⟨fun r hr => ?_, fun r r' hr hr' heq => ?_⟩
      · have hlt := hgood.1 (σ.symm r) (hback r hr)
        rwa [Function.comp_apply, σ.apply_symm_apply] at hlt
      · apply σ.symm.injective
        apply hgood.2 _ _ (hback r hr) (hback r' hr')
        rwa [Function.comp_apply, Function.comp_apply, σ.apply_symm_apply, σ.apply_symm_apply]

/-- A computed row: the row of the inverse picks the packet out of the blocks. -/
theorem decodedRow_parity (h : code.Systematic k n) {s : Decoding} {mDec : Nat → Memory}
    {row x : Nat} (hrow : row < k) (hx : x < sz) (hparity : k ≤ s.index row)
    (hinv : toMatrix k mDec * (toMatrix k fun i => code.encMatrix (s.index i)) = 1)
    (hblock : ∀ r, r < k → (⟨s.pkt r x⟩ : Gf) =
      ∑ i : Fin k, (⟨code.encMatrix (s.index r) i⟩ : Gf) * ⟨src i x⟩) :
    decodedRow code s mDec sz row x = src row x := by
  have hif : decodedRow code s mDec sz row = (s.pkt row).write 0 (Memory.read
      ((List.range k).foldl (fun dst col => addmul dst (s.pkt col) (mDec row col) sz)
        (fun _ => 0)) 0 sz) := by
    rw [decodedRow, h.k_eq]
    exact if_pos ⟨hrow, hparity⟩
  have hbyte := (s.pkt row).write_inside 0 (Memory.read ((List.range k).foldl
    (fun dst col => addmul dst (s.pkt col) (mDec row col) sz) (fun _ => 0)) 0 sz) (i := x)
    (by rwa [Memory.length_read])
  rw [Nat.zero_add, Memory.getElem_read, Nat.zero_add] at hbyte
  have hfold := foldl_addmul s.pkt (mDec row) (fun _ => 0) k sz x
  rw [if_pos hx, Finset.sum_range] at hfold
  have hsum : ∑ i : Fin k, (⟨mDec row i⟩ : Gf) * ⟨s.pkt i x⟩ = ⟨src row x⟩ := by
    have hvec := congrFun (congrArg (fun M => M.mulVec fun i : Fin k => (⟨src i x⟩ : Gf)) hinv)
      ⟨row, hrow⟩
    rw [← Matrix.mulVec_mulVec, Matrix.one_mulVec] at hvec
    refine Eq.trans (Finset.sum_congr rfl fun i _ => ?_) hvec
    rw [hblock i i.isLt]
    rfl
  rw [hif]
  exact hbyte.trans (congrArg Gf.byte (hfold.trans ((zero_add _).trans hsum)))

/-- A row whose packet has arrived. -/
theorem decodedRow_data (h : code.Systematic k n) {s : Decoding} {mDec : Nat → Memory} {row : Nat}
    (hdata : s.index row < k) : decodedRow code s mDec sz row = s.pkt row := by
  rw [decodedRow, h.k_eq]
  exact if_neg fun hc => Nat.not_lt.mpr hc.2 hdata

/-- From blocks with valid and distinct indices the decoder restores every packet in its row. -/
theorem fecDecode_restores (h : code.Systematic k n) (hlt : ∀ r, r < k → index r < n)
    (hinj : ∀ r r', r < k → r' < k → index r = index r' → r = r')
    (hblock : ∀ r x, r < k → x < sz →
      (⟨pkt r x⟩ : Gf) = ∑ i : Fin k, (⟨code.encMatrix (index r) i⟩ : Gf) * ⟨src i x⟩)
    {row x : Nat} (hrow : row < k) (hx : x < sz) :
    (fecDecode code pkt index sz).pkt row x = src row x := by
  have hshuffled := shuffle_shuffled pkt index k
  obtain ⟨σ, hσ, hpkt, hindex⟩ := hshuffled.perm
  have herr : (shuffle pkt index k).error = false := by
    rw [← Bool.not_eq_true, shuffle_error_iff]
    rintro ⟨a, b, ha, hb, hab, -, heq⟩
    exact hab (hinj a b ha hb heq)
  have hplaced := hshuffled.placed herr
  have hlt' : ∀ r, r < k → (shuffle pkt index k).index r < n := fun r hr => by
    rw [hindex]
    exact hlt (σ r) ((hσ r).mpr hr)
  obtain ⟨mDec, hm, hinv⟩ := buildDecodeMatrix_some h hlt' (hshuffled.index_inj hinj) hplaced
  -- the blocks after the shuffle still belong to their indices
  have hblock' : ∀ r, r < k → (⟨(shuffle pkt index k).pkt r x⟩ : Gf) =
      ∑ i : Fin k, (⟨code.encMatrix ((shuffle pkt index k).index r) i⟩ : Gf) * ⟨src i x⟩ := by
    intro r hr
    rw [hpkt, hindex]
    exact hblock (σ r) x ((hσ r).mpr hr) hx
  have hdecode : (fecDecode code pkt index sz).pkt =
      decodedRow code (shuffle pkt index k) mDec sz := by
    simp only [fecDecode, h.k_eq, herr, hm]
    rfl
  rw [hdecode]
  by_cases hparity : k ≤ (shuffle pkt index k).index row
  · exact decodedRow_parity h hrow hx hparity hinv hblock'
  · rw [decodedRow_data h (Nat.lt_of_not_le hparity)]
    have hself := hplaced row hrow (Nat.lt_of_not_le hparity)
    have hrow' := hblock' row hrow
    rw [hself, h.sum_top src hrow] at hrow'
    exact congrArg Gf.byte hrow'

/-- For all parameters that `fec_new` accepts, `fec_decode` fails exactly if one of the first `k`
indices is invalid or repeated; from blocks that `fec_encode` made it otherwise restores every
packet in its row. -/
theorem fecDecode_exact (hk : 0 < k) (hkn : k ≤ n) (hn : n ≤ GF_SIZE + 1) :
    ∃ code, fecNew k n = some code ∧ ∀ (pkt : Nat → Memory) (index : Nat → Nat) (sz : Nat),
      ((fecDecode code pkt index sz).error = true ↔
        ¬((∀ r, r < k → index r < n) ∧
          ∀ r r', r < k → r' < k → index r = index r' → r = r')) ∧
      ∀ src buf : Nat → Memory,
        (∀ r, r < k → (pkt r).read 0 sz =
          Memory.read (fecEncode code src (buf r) (index r) sz) 0 sz) →
        (fecDecode code pkt index sz).error = false →
        ∀ row, row < k →
          ((fecDecode code pkt index sz).pkt row).read 0 sz = (src row).read 0 sz := by
  obtain ⟨code, hcode⟩ := fecNew_some hkn hn
  have hsys := fecNew_systematic hk hcode
  refine ⟨code, hcode, fun pkt index sz => ?_⟩
  have hiff := fecDecode_error_iff hsys pkt index sz
  refine ⟨hiff, fun src buf hblocks hok row hrow => ?_⟩
  rw [← Bool.not_eq_true, hiff, not_not] at hok
  obtain ⟨hlt, hinj⟩ := hok
  apply Memory.read_congr
  intro x hx
  rw [Nat.zero_add]
  refine fecDecode_restores hsys hlt hinj (fun r y hr hy => ?_) hrow hx
  have h := Memory.byte_of_read_eq (hblocks r hr) hy
  rw [Nat.zero_add] at h
  rw [h]
  exact fecEncode_byte hsys src (buf r) (hlt r hr) hy

/-- The code of two packets and one parity block. -/
theorem fecDecode_exact_two :
    ∃ code, fecNew 2 3 = some code ∧ ∀ (pkt : Nat → Memory) (index : Nat → Nat) (sz : Nat),
      ((fecDecode code pkt index sz).error = true ↔
        ¬((∀ r, r < 2 → index r < 3) ∧
          ∀ r r', r < 2 → r' < 2 → index r = index r' → r = r')) ∧
      ∀ src buf : Nat → Memory,
        (∀ r, r < 2 → (pkt r).read 0 sz =
          Memory.read (fecEncode code src (buf r) (index r) sz) 0 sz) →
        (fecDecode code pkt index sz).error = false →
        ∀ row, row < 2 →
          ((fecDecode code pkt index sz).pkt row).read 0 sz = (src row).read 0 sz :=
  fecDecode_exact (by decide) (by decide) (by decide)

end WspaceScout
