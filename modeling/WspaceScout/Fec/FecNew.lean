import Mathlib.LinearAlgebra.Vandermonde
import WspaceScout.Fec.InvertVdm

/-!
# The generator matrix and the encoder

`fec_new` starts from a Vandermonde matrix with distinct points, the first of them zero, and
multiplies it by the inverse of its top, so that the first packets are sent as they are. Whatever
rows of the product are taken, `k` of them are independent.

## Main definitions

- `fecNew` — `fec_new`
- `fecEncode` — `fec_encode`

## Main results

- `FecParms.Systematic` — what `fec_new` leaves in the generator matrix
- `fecNew_mds` — any `k` rows are independent
- `fecEncode_byte` — a block is a combination of the packets
- `fecEncode_separates` — batches that differ have fewer than `k` blocks in common
-/

namespace WspaceScout

open Foundation Matrix

/-- `struct fec_parms`; `magic` only guards `fec_free`. -/
structure FecParms where
  k : Nat
  n : Nat
  encMatrix : Nat → Memory

/-- `tmp_m` as it is filled: the powers of zero, and of all powers of the generator. -/
def powersMatrix : Nat → Memory := fun row col =>
  if row = 0 then if col = 0 then 1 else 0 else gfTables.gfExp (modnn ((row - 1) * col))

/-- `fec_new`; `none` stands for `NULL`. -/
def fecNew (k n : Nat) : Option FecParms :=
  if fecNewAccepts k n then
    let tmpM := invertVdm powersMatrix k
    let bottom := matmul (fun row => tmpM (k + row)) tmpM (fun _ _ => 0) (n - k) k k
    some ⟨k, n, fun row => if row < k then fun col => if col = row then 1 else 0
      else bottom (row - k)⟩
  else none

/-- `fec_encode`: the buffer `fec` after the call. -/
def fecEncode (code : FecParms) (src : Nat → Memory) (fec : Memory) (index sz : Nat) : Memory :=
  if index < code.k then fec.write 0 ((src index).read 0 sz)
  else if index < code.n then
    (List.range code.k).foldl (fun fec i => addmul fec (src i) (code.encMatrix index i) sz)
      (fec.write 0 (List.replicate sz 0))
  else fec

/-! ### The points -/

/-- The point of a row. -/
def point (row : Nat) : UInt8 := if row = 0 then 0 else gfPower (row - 1)

theorem point_injective {i j : Nat} (hi : i < GF_SIZE + 1) (hj : j < GF_SIZE + 1)
    (h : point i = point j) : i = j := by
  have hne : ∀ r, r ≠ 0 → r < GF_SIZE + 1 → gfPower (r - 1) ≠ 0 := fun r _ hr =>
    gfPower_ne_zero (by omega)
  rw [point, point] at h
  by_cases hi0 : i = 0
  · by_cases hj0 : j = 0
    · rw [hi0, hj0]
    · rw [if_pos hi0, if_neg hj0] at h
      exact absurd h.symm (hne j hj0 hj)
  · by_cases hj0 : j = 0
    · rw [if_neg hi0, if_pos hj0] at h
      exact absurd h (hne i hi0 hi)
    · rw [if_neg hi0, if_neg hj0] at h
      have := gfPower_injOn (by omega) (by omega) h
      omega

theorem powersMatrix_eq (row col : Nat) :
    (⟨powersMatrix row col⟩ : Gf) = (⟨point row⟩ : Gf) ^ col := by
  by_cases hrow : row = 0
  · have hentry : powersMatrix row col = if col = 0 then 1 else 0 := if_pos hrow
    have hpoint : (⟨point row⟩ : Gf) = 0 := by
      rw [point, if_pos hrow]
      rfl
    rw [hentry, hpoint]
    by_cases hcol : col = 0
    · rw [if_pos hcol, hcol, pow_zero]
      rfl
    · rw [if_neg hcol, zero_pow hcol]
      rfl
  · have hentry : powersMatrix row col = gfTables.gfExp (modnn ((row - 1) * col)) := if_neg hrow
    have hlt := Nat.mod_lt ((row - 1) * col) (show GF_SIZE > 0 by decide)
    rw [hentry, point, if_neg hrow, Gf.pow_gfPower, modnn_eq, gfTables, initFec_gfExp,
      (generateGf_spec _).exp _ (by omega), Nat.mod_mod, Gf.gfPower_mod]

theorem powersMatrix_one (row : Nat) : powersMatrix row 1 = point row := by
  have h := powersMatrix_eq row 1
  rw [pow_one] at h
  exact congrArg Gf.byte h

theorem isVandermonde_powersMatrix (k : Nat) : IsVandermonde k powersMatrix := by
  intro i j _ _
  rw [powersMatrix_one]
  exact powersMatrix_eq i j

/-! ### The generator matrix -/

/-- The generator matrix: identity above, and every row a combination `V W` with one matrix `W`. -/
structure FecParms.Systematic (code : FecParms) (k n : Nat) : Prop where
  k_eq : code.k = k
  n_eq : code.n = n
  pos : 0 < k
  le : k ≤ n
  n_le : n ≤ GF_SIZE + 1
  top : ∀ row col, row < k → col < k → code.encMatrix row col = if col = row then 1 else 0
  factor : ∃ W : Matrix (Fin k) (Fin k) Gf, W.det ≠ 0 ∧ ∀ row, row < n → ∀ j : Fin k,
    (⟨code.encMatrix row j⟩ : Gf) = ∑ i : Fin k, (⟨point row⟩ : Gf) ^ (i : ℕ) * W i j

theorem fecNewAccepts_iff {k n : Nat} :
    fecNewAccepts k n = true ↔ k ≤ GF_SIZE + 1 ∧ n ≤ GF_SIZE + 1 ∧ k ≤ n := by
  simp only [fecNewAccepts, decide_eq_true_iff]
  omega

theorem fecNew_some {k n : Nat} (hkn : k ≤ n) (hn : n ≤ GF_SIZE + 1) :
    ∃ code, fecNew k n = some code := by
  rw [fecNew, if_pos (fecNewAccepts_iff.mpr ⟨hkn.trans hn, hn, hkn⟩)]
  exact ⟨_, rfl⟩

theorem fecNew_systematic {k n : Nat} {code : FecParms} (hk : 0 < k)
    (h : fecNew k n = some code) : code.Systematic k n := by
  rw [fecNew] at h
  split at h
  case isFalse => cases h
  case isTrue haccept =>
    obtain ⟨hk256, hn256, hkn⟩ := fecNewAccepts_iff.mp haccept
    have hzero : powersMatrix 0 1 = 0 := rfl
    have hinv : toMatrix k powersMatrix * toMatrix k (invertVdm powersMatrix k) = 1 :=
      (invertVdm_inverse_iff hk (isVandermonde_powersMatrix k) fun i j hi hj heq => by
        rw [powersMatrix_one, powersMatrix_one] at heq
        exact point_injective (by omega) (by omega) heq).mpr (.inr (.inl hzero))
    have htop : ∀ row col, row < k → col < k →
        code.encMatrix row col = if col = row then 1 else 0 := by
      intro row col hrow _
      cases h
      have hrow' : (if row < k then fun col => if col = row then (1 : UInt8) else 0 else
          matmul (fun row => invertVdm powersMatrix k (k + row)) (invertVdm powersMatrix k)
            (fun _ _ => 0) (n - k) k k (row - k)) = fun col => if col = row then 1 else 0 :=
        if_pos hrow
      exact congrFun hrow' col
    have hkn' : code.k = k ∧ code.n = n := by
      cases h
      exact ⟨rfl, rfl⟩
    refine ⟨hkn'.1, hkn'.2, hk, hkn, hn256, htop,
      toMatrix k (invertVdm powersMatrix k), ?_, fun row hrow j => ?_⟩
    · intro hdet
      have hprod := congrArg Matrix.det hinv
      rw [Matrix.det_mul, hdet, mul_zero, Matrix.det_one] at hprod
      exact zero_ne_one hprod
    · by_cases hrowk : row < k
      · -- the top rows of the product are those of the identity
        rw [htop row j hrowk j.isLt]
        have hentry := congrFun (congrFun hinv ⟨row, hrowk⟩) j
        rw [Matrix.mul_apply, Matrix.one_apply] at hentry
        simp only [toMatrix_apply, powersMatrix_eq] at hentry
        refine Eq.trans ?_ hentry.symm
        simp only [Fin.ext_iff, eq_comm (a := (j : Nat))]
        split <;> rfl
      · cases h
        have hrow' : (if row < k then fun col => if col = row then (1 : UInt8) else 0 else
            matmul (fun row => invertVdm powersMatrix k (k + row)) (invertVdm powersMatrix k)
              (fun _ _ => 0) (n - k) k k (row - k)) =
            matmul (fun row => invertVdm powersMatrix k (k + row)) (invertVdm powersMatrix k)
              (fun _ _ => 0) (n - k) k k (row - k) := if_neg hrowk
        have hprod := matmul_apply (fun row => invertVdm powersMatrix k (k + row))
          (invertVdm powersMatrix k) (fun _ _ => 0) (k := k)
          (show row - k < n - k by omega) (show (j : Nat) < k from j.isLt)
        refine (congrArg Gf.mk (congrFun hrow' j)).trans (hprod.trans ?_)
        refine Finset.sum_congr rfl fun i _ => ?_
        rw [show k + (row - k) = row by omega, invertVdm_outside powersMatrix (by omega),
          powersMatrix_eq, toMatrix_apply]

/-- Any `k` rows of the generator matrix are independent. -/
theorem fecNew_mds {k n : Nat} {code : FecParms} (h : code.Systematic k n) {rows : Nat → Nat}
    (hlt : ∀ r, r < k → rows r < n)
    (hinj : ∀ r r', r < k → r' < k → rows r = rows r' → r = r') :
    (toMatrix k fun i => code.encMatrix (rows i)).det ≠ 0 := by
  obtain ⟨W, hW, hfactor⟩ := h.factor
  have hn := h.n_le
  have hprod : (toMatrix k fun i => code.encMatrix (rows i)) =
      vandermonde (fun i : Fin k => (⟨point (rows i)⟩ : Gf)) * W := by
    refine Matrix.ext fun i j => ?_
    rw [Matrix.mul_apply]
    exact hfactor (rows i) (hlt i i.isLt) j
  rw [hprod, Matrix.det_mul]
  refine mul_ne_zero (det_vandermonde_ne_zero_iff.mpr fun i j hij => ?_) hW
  have hi := hlt i i.isLt
  have hj := hlt j j.isLt
  exact Fin.ext (hinj i j i.isLt j.isLt
    (point_injective (by omega) (by omega) (congrArg Gf.byte hij)))

/-! ### The encoder -/

variable {code : FecParms} {k n : Nat}

/-- A sum of multiples of rows, byte by byte. -/
theorem foldl_addmul (rows : Nat → Memory) (c : Nat → UInt8) (dst : Memory) (m sz x : Nat) :
    (⟨(List.range m).foldl (fun dst i => addmul dst (rows i) (c i) sz) dst x⟩ : Gf) =
      ⟨dst x⟩ + if x < sz then ∑ i ∈ Finset.range m, (⟨c i⟩ : Gf) * ⟨rows i x⟩ else 0 := by
  induction m with
  | zero =>
    rw [Finset.sum_range_zero, ite_self, add_zero]
    rfl
  | succ m ih =>
    rw [List.range_succ, List.foldl_append, List.foldl_cons, List.foldl_nil, addmul_apply,
      Finset.sum_range_succ]
    by_cases hx : x < sz
    · rw [if_pos hx] at ih
      rw [if_pos hx, if_pos hx, ← add_assoc, ← ih]
      apply Gf.ext
      rw [Gf.byte_add, gfMul_byte]
    · rw [if_neg hx] at ih
      rw [if_neg hx, if_neg hx, ih]

/-- The combination of a top row is the packet itself. -/
theorem FecParms.Systematic.sum_top (h : code.Systematic k n) (src : Nat → Memory) {row : Nat}
    (hrow : row < k) (x : Nat) :
    ∑ i : Fin k, (⟨code.encMatrix row i⟩ : Gf) * ⟨src i x⟩ = ⟨src row x⟩ := by
  have hterm : ∀ i : Fin k, (⟨code.encMatrix row i⟩ : Gf) * ⟨src i x⟩ =
      if i = ⟨row, hrow⟩ then ⟨src i x⟩ else 0 := by
    intro i
    rw [h.top row i hrow i.isLt]
    by_cases hi : (i : Nat) = row
    · rw [if_pos hi, if_pos (Fin.ext hi)]
      exact one_mul _
    · rw [if_neg hi, if_neg fun h => hi (congrArg Fin.val h)]
      exact zero_mul _
  rw [Finset.sum_congr rfl fun i _ => hterm i, Finset.sum_ite_eq' Finset.univ,
    if_pos (Finset.mem_univ _)]

/-- A block is a combination of the packets. -/
theorem fecEncode_byte (h : code.Systematic k n) (src : Nat → Memory) (fec : Memory)
    {index sz x : Nat} (hindex : index < n) (hx : x < sz) :
    (⟨fecEncode code src fec index sz x⟩ : Gf) =
      ∑ i : Fin k, (⟨code.encMatrix index i⟩ : Gf) * ⟨src i x⟩ := by
  by_cases hk : index < k
  · have hbyte : fecEncode code src fec index sz x = src index x := by
      rw [fecEncode, if_pos (by rwa [h.k_eq])]
      have hin := fec.write_inside 0 ((src index).read 0 sz) (i := x) (by rwa [Memory.length_read])
      rw [Nat.zero_add, Memory.getElem_read, Nat.zero_add] at hin
      exact hin
    rw [hbyte, h.sum_top src hk]
  · have hfold := foldl_addmul src (code.encMatrix index) (fec.write 0 (List.replicate sz 0)) k sz x
    have hzero : fec.write 0 (List.replicate sz 0) x = 0 := by
      have hin := fec.write_inside 0 (List.replicate sz (0 : UInt8)) (i := x)
        (by rwa [List.length_replicate])
      rwa [Nat.zero_add, List.getElem_replicate] at hin
    rw [if_pos hx, hzero, Finset.sum_range] at hfold
    rw [fecEncode, if_neg (by rwa [h.k_eq]), if_pos (by rwa [h.n_eq]), h.k_eq]
    exact hfold.trans (zero_add _)

/-- Behind the block the buffer keeps its bytes. -/
theorem fecEncode_outside (code : FecParms) (src : Nat → Memory) (fec : Memory)
    {index sz x : Nat} (hx : sz ≤ x) : fecEncode code src fec index sz x = fec x := by
  rw [fecEncode]
  split
  · exact fec.write_outside 0 _ (.inr (by rw [Memory.length_read]; omega))
  · split
    · have hfold := foldl_addmul src (code.encMatrix index) (fec.write 0 (List.replicate sz 0))
        code.k sz x
      rw [if_neg (by omega), add_zero] at hfold
      exact (congrArg Gf.byte hfold).trans
        (fec.write_outside 0 _ (.inr (by rw [List.length_replicate]; omega)))
    · rfl

/-- Two batches with the same bytes in `k` of their blocks are the same. -/
theorem fecEncode_unique (h : code.Systematic k n) {src src' : Nat → Memory} {buf : Memory}
    {rows : Nat → Nat} {sz : Nat} (hlt : ∀ r, r < k → rows r < n)
    (hinj : ∀ r r', r < k → r' < k → rows r = rows r' → r = r')
    (hsame : ∀ r x, r < k → x < sz →
      fecEncode code src buf (rows r) sz x = fecEncode code src' buf (rows r) sz x)
    {i x : Nat} (hi : i < k) (hx : x < sz) : src i x = src' i x := by
  have hdet := fecNew_mds h hlt hinj
  have hvec : (toMatrix k fun r => code.encMatrix (rows r)) *ᵥ
      ((fun i : Fin k => (⟨src i x⟩ : Gf)) - fun i : Fin k => ⟨src' i x⟩) = 0 := by
    rw [Matrix.mulVec_sub, sub_eq_zero]
    funext r
    have hr := fecEncode_byte h src buf (hlt r r.isLt) hx
    have hr' := fecEncode_byte h src' buf (hlt r r.isLt) hx
    rw [hsame r x r.isLt hx] at hr
    exact hr.symm.trans hr'
  have hzero := congrFun (Matrix.eq_zero_of_mulVec_eq_zero hdet hvec) ⟨i, hi⟩
  exact congrArg Gf.byte (sub_eq_zero.mp hzero)

/-- For all parameters that `fec_new` accepts, batches that differ in a byte have fewer than `k`
blocks in common, so that any `k` blocks tell a batch from all others. -/
theorem fecEncode_separates (hk : 0 < k) (hkn : k ≤ n) (hn : n ≤ GF_SIZE + 1) :
    ∃ code, fecNew k n = some code ∧ ∀ (src src' : Nat → Memory) (buf : Memory) (sz : Nat),
      (∃ i x, i < k ∧ x < sz ∧ src i x ≠ src' i x) →
        ((Finset.range n).filter fun index =>
          Memory.read (fecEncode code src buf index sz) 0 sz =
            Memory.read (fecEncode code src' buf index sz) 0 sz).card < k := by
  obtain ⟨code, hcode⟩ := fecNew_some hkn hn
  refine ⟨code, hcode, fun src src' buf sz hdiff => ?_⟩
  obtain ⟨i, x, hi, hx, hne⟩ := hdiff
  by_contra hcard
  obtain ⟨common, hsub, hcommon⟩ := Finset.exists_subset_card_eq (Nat.le_of_not_lt hcard)
  -- `k` common blocks in ascending order
  let rows : Nat → Nat := fun r => if hr : r < k then common.orderEmbOfFin hcommon ⟨r, hr⟩ else 0
  have hrows : ∀ r (hr : r < k), rows r = common.orderEmbOfFin hcommon ⟨r, hr⟩ := fun r hr =>
    dif_pos hr
  have hmem : ∀ r, r < k → rows r < n ∧ Memory.read (fecEncode code src buf (rows r) sz) 0 sz =
      Memory.read (fecEncode code src' buf (rows r) sz) 0 sz := by
    intro r hr
    have h := Finset.mem_filter.mp (hsub (common.orderEmbOfFin_mem hcommon ⟨r, hr⟩))
    rw [← hrows r hr] at h
    exact ⟨Finset.mem_range.mp h.1, h.2⟩
  refine hne (fecEncode_unique (fecNew_systematic hk hcode)
    (show ∀ r, r < k → rows r < n from fun r hr => (hmem r hr).1) (fun r r' hr hr' heq => ?_)
    (show ∀ r y, r < k → y < sz → fecEncode code src buf (rows r) sz y =
      fecEncode code src' buf (rows r) sz y from fun r y hr hy => ?_) hi hx)
  · rw [hrows r hr, hrows r' hr'] at heq
    exact Fin.mk.inj ((common.orderEmbOfFin hcommon).injective heq)
  · have h := Memory.byte_of_read_eq (hmem r hr).2 hy
    rwa [Nat.zero_add] at h

/-- The code of two packets and one parity block. -/
theorem fecEncode_separates_two :
    ∃ code, fecNew 2 3 = some code ∧ ∀ (src src' : Nat → Memory) (buf : Memory) (sz : Nat),
      (∃ i x, i < 2 ∧ x < sz ∧ src i x ≠ src' i x) →
        ((Finset.range 3).filter fun index =>
          Memory.read (fecEncode code src buf index sz) 0 sz =
            Memory.read (fecEncode code src' buf index sz) 0 sz).card < 2 :=
  fecEncode_separates (by decide) (by decide) (by decide)

end WspaceScout
