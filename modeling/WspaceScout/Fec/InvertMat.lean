import WspaceScout.Fec.Addmul
import WspaceScout.Foundation.PartialInverse

/-!
# Gauss-Jordan elimination in `invert_mat`

`invert_mat` inverts in place. It looks for a pivot on the diagonal first and everywhere else if
that fails, exchanges two rows to bring the pivot to the diagonal, and puts the columns back at the
end. `goto fail` is `none`; the caller frees the matrix there.

## Main definitions

- `Elimination` — the matrix and the arrays of `invert_mat`
- `invertMat` — `invert_mat`
- `Eliminating` — the invariant of its loop

## Main results

- `pivotColumn_spec` — one column
- `invertMat_exact` — the result is the inverse, and there is none exactly for singular matrices
-/

namespace WspaceScout

open Foundation Inversion

/-- The matrix of `invert_mat` and its arrays. -/
structure Elimination where
  src : Nat → Memory
  ipiv : Nat → Nat
  indxr : Nat → Nat
  indxc : Nat → Nat

/-- How the search for a pivot ends. -/
inductive PivotSearch where
  | foundPiv (irow icol : Nat)
  | fail

/-- The search in one row; `none` goes on with the next row. -/
def searchRow (k : Nat) (m : Elimination) (row : Nat) : Option PivotSearch :=
  if m.ipiv row ≠ 1 then
    (List.range k).findSome? fun ix =>
      if m.ipiv ix = 0 then
        if m.src row ix ≠ 0 then some (.foundPiv row ix) else none
      else if m.ipiv ix > 1 then some .fail
      else none
  else none

/-- The search for a pivot, on the diagonal first. -/
def findPivot (k : Nat) (m : Elimination) (col : Nat) : PivotSearch :=
  if m.ipiv col ≠ 1 ∧ m.src col col ≠ 0 then .foundPiv col col
  else ((List.range k).findSome? (searchRow k m)).getD .fail

/-- The pivot row divided by the pivot, with the entry of the inverse in its place. -/
def scaleRow (k : Nat) (pivotRow : Memory) (icol : Nat) : Memory :=
  let c := pivotRow icol
  if c ≠ 1 then
    let c := gfInverse c
    let pivotRow : Memory := fun ix => if ix = icol then 1 else pivotRow ix
    fun ix => if ix < k then gfMul c (pivotRow ix) else pivotRow ix
  else pivotRow

/-- The comparison of the pivot row with `id_row`. -/
def isIdRow (k : Nat) (pivotRow : Memory) (icol : Nat) : Bool :=
  (List.range k).all fun ix => pivotRow ix = if ix = icol then 1 else 0

/-- A row `p` less the multiple of the pivot row that clears its entry. -/
def clearRow (k : Nat) (pivotRow : Memory) (icol : Nat) (p : Memory) : Memory :=
  addmul (fun ix => if ix = icol then 0 else p ix) pivotRow (p icol) k

/-- The pivot row scaled and the other rows cleared, unless the pivot row is one of the
identity. -/
def clearColumn (k : Nat) (src : Nat → Memory) (icol : Nat) : Nat → Memory :=
  let src := Function.update src icol (scaleRow k (src icol) icol)
  if isIdRow k (src icol) icol then src
  else fun ix => if ix < k ∧ ix ≠ icol then clearRow k (src icol) icol (src ix) else src ix

/-- The rest of the loop body, with the pivot found. -/
def pivotColumn (k : Nat) (m : Elimination) (col irow icol : Nat) : Option Elimination :=
  let ipiv := Function.update m.ipiv icol (m.ipiv icol + 1)
  let src := if irow ≠ icol then m.src ∘ Equiv.swap irow icol else m.src
  let indxr := Function.update m.indxr col irow
  let indxc := Function.update m.indxc col icol
  if src icol icol = 0 then none else some ⟨clearColumn k src icol, ipiv, indxr, indxc⟩

/-- The body of the loop over the columns. -/
def eliminate (k : Nat) (m : Elimination) (col : Nat) : Option Elimination :=
  match findPivot k m col with
  | .fail => none
  | .foundPiv irow icol => pivotColumn k m col irow icol

/-- The columns exchanged back. -/
def unscramble (k : Nat) (m : Elimination) (col : Nat) (src : Nat → Memory) : Nat → Memory :=
  if m.indxr col ≥ k then src
  else if m.indxc col ≥ k then src
  else if m.indxr col ≠ m.indxc col then fun row =>
    if row < k then src row ∘ Equiv.swap (m.indxr col) (m.indxc col) else src row
  else src

/-- `invert_mat`. -/
def invertMat (src : Nat → Memory) (k : Nat) : Option (Nat → Memory) :=
  match (List.range k).foldlM (eliminate k) ⟨src, fun _ => 0, fun _ => 0, fun _ => 0⟩ with
  | none => none
  | some m => some ((List.range k).foldr (unscramble k m) m.src)

/-! ### The invariant of the loop -/

variable {k : Nat} {m : Elimination} {A : Matrix (Fin k) (Fin k) Gf} {col irow icol : Nat}

/-- The rows that have been pivots. -/
def pivots (k : Nat) (m : Elimination) : Finset (Fin k) := {j | m.ipiv j = 1}

theorem mem_pivots {j : Fin k} : j ∈ pivots k m ↔ m.ipiv j = 1 := by
  simp [pivots]

/-- An exchange of two indices. -/
def exchange (k a b : Nat) : Equiv.Perm (Fin k) :=
  if h : a < k ∧ b < k then Equiv.swap ⟨a, h.1⟩ ⟨b, h.2⟩ else 1

theorem exchange_of_lt {a b : Nat} (ha : a < k) (hb : b < k) :
    exchange k a b = Equiv.swap ⟨a, ha⟩ ⟨b, hb⟩ := dif_pos ⟨ha, hb⟩

/-- Where the rows come from after the exchanges of the first columns. -/
def rowOrder (k : Nat) (indxr indxc : Nat → Nat) : Nat → Equiv.Perm (Fin k)
  | 0 => 1
  | col + 1 => rowOrder k indxr indxc col * exchange k (indxr col) (indxc col)

theorem rowOrder_congr {r c r' c' : Nat → Nat} {n : Nat}
    (h : ∀ t, t < n → r t = r' t ∧ c t = c' t) : rowOrder k r c n = rowOrder k r' c' n := by
  induction n with
  | zero => rfl
  | succ n ih =>
    obtain ⟨hr, hc⟩ := h n (Nat.lt_succ_self n)
    rw [rowOrder, rowOrder, ih fun t ht => h t (Nat.lt_succ_of_lt ht), hr, hc]

/-- Before the column `col` is done. -/
structure Eliminating (A : Matrix (Fin k) (Fin k) Gf) (col : Nat) (m : Elimination) : Prop where
  ipiv_le : ∀ j, j < k → m.ipiv j ≤ 1
  card : (pivots k m).card = col
  indx_lt : ∀ t, t < col → m.indxr t < k ∧ m.indxc t < k
  partialInverse :
    PartialInverse A (toMatrix k m.src) (pivots k m) (rowOrder k m.indxr m.indxc col)

theorem Eliminating.start (src : Nat → Memory) (k : Nat) (r c : Nat → Nat) :
    Eliminating (toMatrix k src) 0 ⟨src, fun _ => 0, r, c⟩ := by
  have hempty : pivots k ⟨src, fun _ => 0, r, c⟩ = ∅ := by
    ext j
    simp [pivots]
  refine ⟨fun j _ => Nat.zero_le 1, by rw [hempty, Finset.card_empty],
    fun t ht => absurd ht (Nat.not_lt_zero t), ?_⟩
  rw [hempty]
  exact PartialInverse.start _

/-! ### The search -/

theorem Eliminating.findPivot_found (h : Eliminating A col m) (hcol : col < k)
    (hfind : findPivot k m col = .foundPiv irow icol) :
    irow < k ∧ icol < k ∧ m.ipiv irow = 0 ∧ m.ipiv icol = 0 ∧ m.src irow icol ≠ 0 := by
  rw [findPivot] at hfind
  split at hfind
  · rename_i hdiag
    cases hfind
    have hle := h.ipiv_le col hcol
    have hne := hdiag.1
    exact ⟨hcol, hcol, by omega, by omega, hdiag.2⟩
  · cases hrow : (List.range k).findSome? (searchRow k m) with
    | none =>
      rw [hrow] at hfind
      cases hfind
    | some s =>
      rw [hrow, Option.getD_some] at hfind
      subst hfind
      obtain ⟨row, hrow, hs⟩ := List.exists_of_findSome?_eq_some hrow
      rw [searchRow] at hs
      split at hs
      · rename_i hne
        obtain ⟨ix, hix, hs⟩ := List.exists_of_findSome?_eq_some hs
        have hle := h.ipiv_le row (List.mem_range.mp hrow)
        grind
      · cases hs

theorem Eliminating.findPivot_fail (h : Eliminating A col m)
    (hfind : findPivot k m col = .fail) :
    ∀ row ix, row < k → ix < k → m.ipiv row = 0 → m.ipiv ix = 0 → m.src row ix = 0 := by
  rw [findPivot] at hfind
  split at hfind
  · cases hfind
  · cases hrow : (List.range k).findSome? (searchRow k m) with
    | some s =>
      -- no entry of `ipiv` is ever larger than one
      rw [hrow, Option.getD_some] at hfind
      subst hfind
      obtain ⟨row, hrow, hs⟩ := List.exists_of_findSome?_eq_some hrow
      rw [searchRow] at hs
      split at hs
      · obtain ⟨ix, hix, hs⟩ := List.exists_of_findSome?_eq_some hs
        have hle := h.ipiv_le ix (List.mem_range.mp hix)
        grind
      · cases hs
    | none =>
      intro row ix hrowlt hix hr hi
      have hs := List.findSome?_eq_none_iff.mp hrow row (List.mem_range.mpr hrowlt)
      rw [searchRow, if_pos (by omega)] at hs
      have hentry := List.findSome?_eq_none_iff.mp hs ix (List.mem_range.mpr hix)
      rw [if_pos hi] at hentry
      by_contra hne
      rw [if_pos hne] at hentry
      cases hentry

/-! ### One column -/

/-- The scaled pivot row, as the field sees it. -/
theorem scaleRow_byte (row : Memory) {j : Nat} (hj : j < k) :
    (⟨scaleRow k row icol j⟩ : Gf) =
      if j = icol then (⟨row icol⟩ : Gf)⁻¹ else (⟨row icol⟩ : Gf)⁻¹ * ⟨row j⟩ := by
  by_cases hone : row icol = 1
  · have hrow : scaleRow k row icol j = row j := by simp [scaleRow, hone]
    have hinv : (⟨row icol⟩ : Gf)⁻¹ = 1 := by
      rw [hone]
      exact inv_one
    rw [hinv, hrow]
    by_cases hji : j = icol
    · rw [if_pos hji, hji, hone]
      rfl
    · rw [if_neg hji, one_mul]
  · have hrow : scaleRow k row icol j =
        gfMul (gfInverse (row icol)) (if j = icol then 1 else row j) := by
      simp [scaleRow, hone, hj]
    apply Gf.ext
    rw [hrow, gfMul_byte, gfInverse_byte]
    by_cases hji : j = icol
    · rw [if_pos hji, if_pos hji]
      exact congrArg Gf.byte (mul_one (⟨row icol⟩ : Gf)⁻¹)
    · rw [if_neg hji, if_neg hji]

/-- A cleared row, as the field sees it. -/
theorem clearRow_byte (pivotRow p : Memory) {j : Nat} (hj : j < k) :
    (⟨clearRow k pivotRow icol p j⟩ : Gf) =
      (if j = icol then 0 else ⟨p j⟩) + ⟨p icol⟩ * ⟨pivotRow j⟩ := by
  have hrow := addmul_apply (fun ix => if ix = icol then 0 else p ix) pivotRow (p icol) k j
  rw [if_pos hj, gfMul_byte] at hrow
  apply Gf.ext
  refine hrow.trans ?_
  rw [Gf.byte_add]
  congr 1
  split <;> rfl

/-- Clearing with a row of the identity changes nothing. -/
theorem clearRow_idRow {pivotRow p : Memory} (hid : isIdRow k pivotRow icol = true) {j : Nat}
    (hj : j < k) : clearRow k pivotRow icol p j = p j := by
  have hentry : pivotRow j = if j = icol then 1 else 0 :=
    of_decide_eq_true (List.all_eq_true.mp hid j (List.mem_range.mpr hj))
  have hrow : (⟨clearRow k pivotRow icol p j⟩ : Gf) =
      (if j = icol then 0 else ⟨p j⟩) + ⟨p icol⟩ * ⟨pivotRow j⟩ := clearRow_byte pivotRow p hj
  have h := congrArg Gf.byte hrow
  rw [hentry] at h
  refine h.trans ?_
  by_cases hji : j = icol
  · have hone : (⟨p icol⟩ : Gf) * ⟨1⟩ = ⟨p icol⟩ := mul_one _
    rw [if_pos hji, if_pos hji, hone, zero_add, hji]
  · have hzero : (⟨p icol⟩ : Gf) * ⟨0⟩ = 0 := mul_zero _
    rw [if_neg hji, if_neg hji, hzero, add_zero]

/-- The rows after the exchange. -/
theorem toMatrix_swap (src : Nat → Memory) (hr : irow < k) (hc : icol < k) :
    toMatrix k (if irow ≠ icol then src ∘ Equiv.swap irow icol else src) =
      (toMatrix k src).submatrix (Equiv.swap ⟨irow, hr⟩ ⟨icol, hc⟩) id := by
  have hrow : ∀ i : Fin k,
      ((Equiv.swap (⟨irow, hr⟩ : Fin k) ⟨icol, hc⟩ i : Fin k) : Nat) = Equiv.swap irow icol i := by
    intro i
    simp only [Equiv.swap_apply_def, Fin.ext_iff, apply_ite Fin.val]
  ext i j
  rw [Matrix.submatrix_apply, toMatrix_apply, toMatrix_apply, hrow]
  by_cases hne : irow ≠ icol
  · rw [if_pos hne]
    rfl
  · rw [if_neg hne, not_not.mp hne, Equiv.swap_self]
    rfl

theorem clearColumn_pivot (src : Nat → Memory) :
    clearColumn k src icol icol = scaleRow k (src icol) icol := by
  simp only [clearColumn, Function.update_self]
  split
  · exact Function.update_self _ _ _
  · exact (if_neg fun h => h.2 rfl).trans (Function.update_self _ _ _)

theorem clearColumn_other (src : Nat → Memory) {ix j : Nat} (hix : ix < k) (hne : ix ≠ icol)
    (hj : j < k) : clearColumn k src icol ix j =
      clearRow k (scaleRow k (src icol) icol) icol (src ix) j := by
  by_cases hid : isIdRow k (scaleRow k (src icol) icol) icol = true
  · have hrow : clearColumn k src icol ix = src ix := by
      simp only [clearColumn, Function.update_self, if_pos hid]
      exact Function.update_of_ne hne _ _
    rw [hrow, clearRow_idRow hid hj]
  · have hrow : clearColumn k src icol ix =
        clearRow k (scaleRow k (src icol) icol) icol (src ix) := by
      simp only [clearColumn, Function.update_self, if_neg hid]
      rw [if_pos ⟨hix, hne⟩, Function.update_of_ne hne]
    rw [hrow]

/-- Scaling one row and clearing the others is a step of the inversion. -/
theorem toMatrix_clearColumn (src : Nat → Memory) (hc : icol < k) :
    toMatrix k (clearColumn k src icol) = pivot (toMatrix k src) ⟨icol, hc⟩ := by
  refine Matrix.ext fun i j => ?_
  rw [toMatrix_apply, pivot, Matrix.of_apply]
  simp only [Fin.ext_iff, toMatrix_apply]
  by_cases hi : (i : Nat) = icol
  · rw [if_pos hi, hi, clearColumn_pivot, scaleRow_byte _ j.isLt]
  · rw [if_neg hi, clearColumn_other src i.isLt hi j.isLt, clearRow_byte _ _ j.isLt,
      scaleRow_byte _ j.isLt]
    by_cases hj : (j : Nat) = icol
    · rw [if_pos hj, if_pos hj, if_pos hj, zero_add, Gf.neg_eq]
    · rw [if_neg hj, if_neg hj, if_neg hj, Gf.sub_eq_add]

/-- One column: a step of the inversion after an exchange of rows. -/
theorem Eliminating.pivotColumn_spec (h : Eliminating A col m) (hr : irow < k) (hc : icol < k)
    (hrfree : m.ipiv irow = 0) (hcfree : m.ipiv icol = 0) (hne : m.src irow icol ≠ 0) :
    ∃ m', pivotColumn k m col irow icol = some m' ∧ Eliminating A (col + 1) m' := by
  have hswap := toMatrix_swap m.src hr hc
  set src := if irow ≠ icol then m.src ∘ Equiv.swap irow icol else m.src with hsrc
  have hpiv : toMatrix k src ⟨icol, hc⟩ ⟨icol, hc⟩ = ⟨m.src irow icol⟩ := by
    rw [hswap, Matrix.submatrix_apply, Equiv.swap_apply_right]
    rfl
  have hentry : src icol icol = m.src irow icol := congrArg Gf.byte hpiv
  have hrmem : (⟨irow, hr⟩ : Fin k) ∉ pivots k m := by
    rw [mem_pivots, hrfree]
    decide
  have hcmem : (⟨icol, hc⟩ : Fin k) ∉ pivots k m := by
    rw [mem_pivots, hcfree]
    decide
  refine ⟨⟨clearColumn k src icol, Function.update m.ipiv icol (m.ipiv icol + 1),
    Function.update m.indxr col irow, Function.update m.indxc col icol⟩, ?_, ?_⟩
  · rw [pivotColumn, ← hsrc, if_neg (by rwa [hentry])]
  have hpivots : pivots k ⟨clearColumn k src icol,
      Function.update m.ipiv icol (m.ipiv icol + 1), Function.update m.indxr col irow,
      Function.update m.indxc col icol⟩ = insert ⟨icol, hc⟩ (pivots k m) := by
    ext j
    rw [mem_pivots, Finset.mem_insert, mem_pivots, Fin.ext_iff]
    by_cases hj : (j : Nat) = icol
    · simp only [hj, Function.update_self, hcfree, true_or]
    · simp only [Function.update_of_ne hj, hj, false_or]
  have horder : rowOrder k (Function.update m.indxr col irow) (Function.update m.indxc col icol)
      (col + 1) = rowOrder k m.indxr m.indxc col * Equiv.swap ⟨irow, hr⟩ ⟨icol, hc⟩ := by
    rw [rowOrder, Function.update_self, Function.update_self, exchange_of_lt hr hc,
      rowOrder_congr fun t ht => ⟨Function.update_of_ne (Nat.ne_of_lt ht) _ _,
        Function.update_of_ne (Nat.ne_of_lt ht) _ _⟩]
  constructor
  · intro j hj
    have hle := h.ipiv_le j hj
    simp only [Function.update_apply]
    split <;> omega
  · rw [hpivots, Finset.card_insert_of_notMem hcmem, h.card]
  · intro t ht
    simp only [Function.update_apply]
    by_cases htc : t = col
    · rw [if_pos htc, if_pos htc]
      exact ⟨hr, hc⟩
    · rw [if_neg htc, if_neg htc]
      exact h.indx_lt t (by omega)
  · simp only [hpivots, horder, toMatrix_clearColumn src hc]
    refine PartialInverse.pivot ?_ hcmem ?_
    · rw [hswap]
      exact h.partialInverse.swapRows hrmem hcmem
    · rw [hpiv]
      exact fun hzero => hne (congrArg Gf.byte hzero)

/-! ### The whole elimination -/

theorem Eliminating.eliminate_spec (h : Eliminating A col m) (hcol : col < k) :
    (∃ m', eliminate k m col = some m' ∧ Eliminating A (col + 1) m') ∨
      eliminate k m col = none ∧ A.det = 0 := by
  rw [eliminate]
  cases hfind : findPivot k m col with
  | foundPiv irow icol =>
    obtain ⟨hr, hc, hrfree, hcfree, hne⟩ := h.findPivot_found hcol hfind
    exact .inl (h.pivotColumn_spec hr hc hrfree hcfree hne)
  | fail =>
    -- fewer than `k` pivots are done, so a row without a pivot is left
    obtain ⟨i, hi⟩ : ∃ i, i ∉ pivots k m := by
      by_contra hall
      push Not at hall
      have hcard := h.card
      rw [Finset.eq_univ_iff_forall.mpr hall, Finset.card_univ, Fintype.card_fin] at hcard
      omega
    have hfree : ∀ j : Fin k, j ∉ pivots k m → m.ipiv j = 0 := fun j hj => by
      have hle := h.ipiv_le j j.isLt
      have hne := mem_pivots.not.mp hj
      omega
    refine .inr ⟨rfl, h.partialInverse.singular hi fun j hj => ?_⟩
    have hzero := h.findPivot_fail hfind i j i.isLt j.isLt (hfree i hi) (hfree j hj)
    exact Gf.ext hzero

/-- Putting the columns of one exchange back. -/
theorem toMatrix_unscramble (src : Nat → Memory) (hr : m.indxr col < k) (hc : m.indxc col < k) :
    toMatrix k (unscramble k m col src) =
      (toMatrix k src).submatrix id (exchange k (m.indxr col) (m.indxc col)) := by
  refine Matrix.ext fun i j => ?_
  have hcolumn : ((exchange k (m.indxr col) (m.indxc col) j : Fin k) : Nat) =
      Equiv.swap (m.indxr col) (m.indxc col) j := by
    rw [exchange_of_lt hr hc]
    simp only [Equiv.swap_apply_def, Fin.ext_iff, apply_ite Fin.val]
  rw [Matrix.submatrix_apply, toMatrix_apply, toMatrix_apply, hcolumn]
  by_cases hne : m.indxr col ≠ m.indxc col
  · have hrow : unscramble k m col src i = src i ∘ Equiv.swap (m.indxr col) (m.indxc col) := by
      simp only [unscramble, if_neg (Nat.not_le.mpr hr), if_neg (Nat.not_le.mpr hc), if_pos hne]
      exact if_pos i.isLt
    rw [hrow]
    rfl
  · have hsame : unscramble k m col src = src := by
      simp only [unscramble, if_neg (Nat.not_le.mpr hr), if_neg (Nat.not_le.mpr hc), if_neg hne]
    rw [hsame, not_not.mp hne, Equiv.swap_self]
    rfl

theorem Eliminating.unscrambled (h : Eliminating A k m) :
    toMatrix k ((List.range k).foldr (unscramble k m) m.src) * A = 1 := by
  have hall : pivots k m = Finset.univ := by
    rw [← Finset.card_eq_iff_eq_univ, h.card, Fintype.card_fin]
  have hstart := h.partialInverse
  rw [hall] at hstart
  have hloop := foldr_range_invariant
    (I := fun n src => (toMatrix k src).submatrix id (rowOrder k m.indxr m.indxc n).symm * A = 1)
    (unscramble k m) k m.src hstart.inverse (by
      intro n src hn hsrc
      obtain ⟨hr, hc⟩ := h.indx_lt n hn
      rw [toMatrix_unscramble src hr hc, Matrix.submatrix_submatrix]
      rw [rowOrder, exchange_of_lt hr hc] at hsrc
      rw [exchange_of_lt hr hc]
      exact hsrc)
  exact hloop

theorem invertMat_spec (src : Nat → Memory) (k : Nat) :
    match invertMat src k with
    | none => (toMatrix k src).det = 0
    | some inv => toMatrix k inv * toMatrix k src = 1 ∧ toMatrix k src * toMatrix k inv = 1 := by
  have hloop := foldlM_range_invariant (I := fun col m => Eliminating (toMatrix k src) col m)
    (eliminate k) k ⟨src, fun _ => 0, fun _ => 0, fun _ => 0⟩ (Eliminating.start src k _ _)
    (fun col m hcol h => h.eliminate_spec hcol)
  rw [invertMat]
  obtain ⟨m, hrun, hm⟩ | ⟨hrun, hdet⟩ := hloop
  · rw [hrun]
    exact ⟨hm.unscrambled, mul_eq_one_comm.mp hm.unscrambled⟩
  · rw [hrun]
    exact hdet

/-- `invert_mat` fails exactly for singular matrices; otherwise it leaves the inverse. Offsets are
unbounded here; in the source `row * k` is an `int`. -/
theorem invertMat_exact (src : Nat → Memory) (k : Nat) :
    (invertMat src k = none ↔ (toMatrix k src).det = 0) ∧
    ∀ inv, invertMat src k = some inv →
      toMatrix k inv * toMatrix k src = 1 ∧ toMatrix k src * toMatrix k inv = 1 := by
  have hspec := invertMat_spec src k
  cases hrun : invertMat src k with
  | none =>
    rw [hrun] at hspec
    refine ⟨iff_of_true rfl hspec, fun inv hinv => ?_⟩
    cases hinv
  | some inv =>
    rw [hrun] at hspec
    refine ⟨iff_of_false (Option.some_ne_none inv) fun hdet => ?_, fun inv' hinv => ?_⟩
    · have hprod := congrArg Matrix.det hspec.1
      rw [Matrix.det_mul, hdet, mul_zero, Matrix.det_one] at hprod
      exact zero_ne_one hprod
    · cases hinv
      exact hspec

end WspaceScout
