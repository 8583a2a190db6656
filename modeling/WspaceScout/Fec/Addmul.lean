import Mathlib.Algebra.BigOperators.Group.Finset.Basic
import Mathlib.Data.Matrix.Basic
import WspaceScout.Fec.Gf

/-!
# Rows and matrices over the field of the erasure code

A row is a range of bytes, and a matrix in row-major order is a sequence of rows, so that packets
and matrices are alike.

## Main definitions

- `addmul` — add a multiple of a row, with the loop unrolled as in the source
- `matmul` — the product of two matrices

## Main results

- `addmul_eq_plain` — the unrolled loop and the shortcut change nothing
- `foldl_xor` — sums by exclusive or are those of the field
-/

namespace WspaceScout

open Foundation

/-- The static tables, after the call of `init_fec` in the first `fec_new`. -/
def gfTables : GfTables := initFec ⟨fun _ => 0, fun _ => 0, fun _ => 0, fun _ _ => 0⟩

/-- `gf_mul`. -/
def gfMul (x y : UInt8) : UInt8 := gfTables.gfMul x y

/-- `inverse[x]`. -/
def gfInverse (x : UInt8) : UInt8 := gfTables.inverse x.toNat

theorem gfMul_byte (x y : UInt8) : gfMul x y = ((⟨x⟩ : Gf) * ⟨y⟩).byte := gfMul_eq _ x y

theorem gfInverse_byte (x : UInt8) : gfInverse x = ((⟨x⟩ : Gf)⁻¹).byte := inverse_eq _ x

theorem gfMul_zero_left (y : UInt8) : gfMul 0 y = 0 := by
  rw [gfMul_byte]
  exact congrArg Gf.byte (zero_mul (⟨y⟩ : Gf))

/-- `GF_ADDMULC(dst[i], src[i])`. -/
def addMulC (c : UInt8) (src dst : Memory) (i : Nat) : Memory := fun x =>
  if x = i then dst i ^^^ gfMul c (src i) else dst x

/-- `UNROLL`. -/
def UNROLL : Nat := 16

/-- The unrolled loop of `addmul1` from offset `i` on, and the offset at which it ends. -/
def addmulBlocks (c : UInt8) (src : Memory) (sz : Nat) (dst : Memory) (i : Nat) : Memory × Nat :=
  if i + UNROLL ≤ sz then
    addmulBlocks c src sz ((List.range' i UNROLL).foldl (addMulC c src) dst) (i + UNROLL)
  else (dst, i)
termination_by sz - i
decreasing_by
  simp only [UNROLL] at *
  omega

/-- `addmul1`. -/
def addmul1 (dst src : Memory) (c : UInt8) (sz : Nat) : Memory :=
  let (dst, i) := addmulBlocks c src sz dst 0
  (List.range' i (sz - i)).foldl (addMulC c src) dst

/-- `addmul`. -/
def addmul (dst src : Memory) (c : UInt8) (sz : Nat) : Memory :=
  if c ≠ 0 then addmul1 dst src c sz else dst

/-- The bytes from `lo` to `hi` have been added, the others are as they were. -/
def Added (c : UInt8) (src dst : Memory) (lo hi : Nat) : Memory := fun x =>
  if lo ≤ x ∧ x < hi then dst x ^^^ gfMul c (src x) else dst x

theorem foldl_addMulC (c : UInt8) (src dst : Memory) (lo n : Nat) :
    (List.range' lo n).foldl (addMulC c src) dst = Added c src dst lo (lo + n) := by
  refine foldl_range'_invariant (I := fun i d => d = Added c src dst lo i) _ lo n dst ?_ ?_
  · funext x
    exact (if_neg (by omega)).symm
  · rintro i _ hlo - rfl
    funext x
    simp only [addMulC, Added]
    by_cases hx : x = i
    · subst hx
      rw [if_pos rfl, if_neg (by omega), if_pos ⟨hlo, Nat.lt_succ_self x⟩]
    · rw [if_neg hx]
      exact if_congr (by omega) rfl rfl

theorem Added.trans (c : UInt8) (src dst : Memory) {lo mid hi : Nat} (h1 : lo ≤ mid)
    (h2 : mid ≤ hi) : Added c src (Added c src dst lo mid) mid hi = Added c src dst lo hi := by
  funext x
  simp only [Added]
  by_cases hmid : x < mid
  · rw [if_neg (by omega)]
    exact if_congr (by omega) rfl rfl
  · have hout : ¬(lo ≤ x ∧ x < mid) := by omega
    rw [if_neg hout]
    exact if_congr (by omega) rfl rfl

theorem addmulBlocks_spec (c : UInt8) (src : Memory) (sz : Nat) (dst : Memory) (i : Nat)
    (hi : i ≤ sz) : ∃ j, i ≤ j ∧ j ≤ sz ∧
      addmulBlocks c src sz dst i = (Added c src dst i j, j) := by
  fun_induction addmulBlocks c src sz dst i with
  | case1 dst i hblock ih =>
    obtain ⟨j, hij, hj, hrest⟩ := ih hblock
    refine ⟨j, by omega, hj, ?_⟩
    rw [hrest, foldl_addMulC, Added.trans c src dst (Nat.le_add_right i UNROLL) hij]
  | case2 dst i hend =>
    refine ⟨i, Nat.le_refl i, hi, ?_⟩
    congr 1
    funext x
    exact (if_neg (by omega)).symm

/-- The loop that is unrolled and the loop over the rest add in every byte once. -/
theorem addmul1_eq (dst src : Memory) (c : UInt8) (sz : Nat) :
    addmul1 dst src c sz = fun x => if x < sz then dst x ^^^ gfMul c (src x) else dst x := by
  obtain ⟨j, -, hj, hblocks⟩ := addmulBlocks_spec c src sz dst 0 (Nat.zero_le sz)
  simp only [addmul1, hblocks]
  rw [foldl_addMulC, Nat.add_sub_cancel' hj, Added.trans c src dst (Nat.zero_le j) hj]
  funext x
  exact if_congr (by omega) rfl rfl

/-- Leaving out the zero multiple changes nothing. -/
theorem addmul_eq (dst src : Memory) (c : UInt8) (sz : Nat) :
    addmul dst src c sz = fun x => if x < sz then dst x ^^^ gfMul c (src x) else dst x := by
  by_cases hc : c = 0
  · subst hc
    funext x
    simp only [addmul, gfMul_zero_left, UInt8.xor_zero, ite_self]
    rfl
  · rw [addmul, if_pos hc, addmul1_eq]

/-- The unrolled loop and the shortcut for zero compute what one step for every byte would. -/
theorem addmul_eq_plain (dst src : Memory) (c : UInt8) (sz : Nat) :
    addmul dst src c sz = (List.range sz).foldl (addMulC c src) dst := by
  rw [addmul_eq, List.range_eq_range', foldl_addMulC, Nat.zero_add]
  funext x
  exact (if_congr (by omega) rfl rfl)

theorem addmul_apply (dst src : Memory) (c : UInt8) (sz x : Nat) :
    addmul dst src c sz x = if x < sz then dst x ^^^ gfMul c (src x) else dst x :=
  congrFun (addmul_eq dst src c sz) x

/-- `matmul` with `n` rows, `k` columns of the first and `m` of the second factor. -/
def matmul (a b c : Nat → Memory) (n k m : Nat) : Nat → Memory := fun row col =>
  if row < n ∧ col < m then
    (List.range k).foldl (fun acc i => acc ^^^ gfMul (a row i) (b i col)) 0
  else c row col

/-- A matrix as the field sees it. -/
def toMatrix (k : Nat) (m : Nat → Memory) : Matrix (Fin k) (Fin k) Gf :=
  Matrix.of fun i j => ⟨m i j⟩

theorem toMatrix_apply {k : Nat} (m : Nat → Memory) (i j : Fin k) : toMatrix k m i j = ⟨m i j⟩ :=
  rfl

/-- Sums by exclusive or are those of the field. -/
theorem foldl_xor (x : Nat → UInt8) (k : Nat) :
    (List.range k).foldl (fun acc i => acc ^^^ x i) 0 =
      (∑ i ∈ Finset.range k, (⟨x i⟩ : Gf)).byte := by
  induction k with
  | zero => rfl
  | succ k ih =>
    rw [List.range_succ, List.foldl_append, ih, Finset.sum_range_succ]
    rfl

/-- One entry of a product. -/
theorem matmul_apply (a b c : Nat → Memory) {n k m row col : Nat} (hrow : row < n) (hcol : col < m) :
    (⟨matmul a b c n k m row col⟩ : Gf) =
      ∑ i : Fin k, (⟨a row i⟩ : Gf) * ⟨b i col⟩ := by
  apply Gf.ext
  rw [matmul, if_pos ⟨hrow, hcol⟩, foldl_xor, Finset.sum_range]
  simp only [gfMul_byte]

end WspaceScout
