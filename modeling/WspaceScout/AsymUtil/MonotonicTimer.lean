import Mathlib.Algebra.Order.Ring.Rat
import Mathlib.Tactic

/-!
# Monotonic time

`MonotonicTimer` is a `timespec`: seconds and nanoseconds, compared lexicographically.
-/

namespace WspaceScout

/-- Nanoseconds of a second. -/
def BILLION : Int := 1000000000

/-- A reading of the monotonic clock, or an interval. -/
structure MonotonicTimer where
  tvSec : Int
  tvNsec : Int
  deriving DecidableEq, Repr

namespace MonotonicTimer

/-- `operator<`. -/
instance : LT MonotonicTimer where
  lt t u := t.tvSec < u.tvSec ∨ t.tvSec = u.tvSec ∧ t.tvNsec < u.tvNsec

/-- `operator<=`. -/
instance : LE MonotonicTimer where
  le t u := t.tvSec < u.tvSec ∨ t.tvSec = u.tvSec ∧ t.tvNsec ≤ u.tvNsec

instance (t u : MonotonicTimer) : Decidable (t < u) :=
  inferInstanceAs (Decidable (t.tvSec < u.tvSec ∨ t.tvSec = u.tvSec ∧ t.tvNsec < u.tvNsec))

instance (t u : MonotonicTimer) : Decidable (t ≤ u) :=
  inferInstanceAs (Decidable (t.tvSec < u.tvSec ∨ t.tvSec = u.tvSec ∧ t.tvNsec ≤ u.tvNsec))

/-- `operator+`, with its one carry. -/
def add (t u : MonotonicTimer) : MonotonicTimer :=
  let nsec := t.tvNsec + u.tvNsec
  if nsec ≥ BILLION then ⟨t.tvSec + u.tvSec + 1, nsec - BILLION⟩ else ⟨t.tvSec + u.tvSec, nsec⟩

/-- `operator-`, with its one borrow. -/
def sub (t u : MonotonicTimer) : MonotonicTimer :=
  let nsec := t.tvNsec - u.tvNsec
  if nsec < 0 then ⟨t.tvSec - u.tvSec - 1, nsec + BILLION⟩ else ⟨t.tvSec - u.tvSec, nsec⟩

/-- `operator/`. -/
def div (t : MonotonicTimer) (n : Int) : MonotonicTimer :=
  ⟨t.tvSec.tdiv n, t.tvNsec.tdiv n + t.tvSec.tmod n * BILLION.tdiv n⟩

/-- The constructor from nanoseconds. -/
def ofNSec (ns : Int) : MonotonicTimer := ⟨ns.tdiv BILLION, ns.tmod BILLION⟩

/-- A reading of the clock: the nanoseconds are less than a second. -/
def Normal (t : MonotonicTimer) : Prop := 0 ≤ t.tvNsec ∧ t.tvNsec < BILLION

instance (t : MonotonicTimer) : Decidable t.Normal :=
  inferInstanceAs (Decidable (0 ≤ t.tvNsec ∧ t.tvNsec < BILLION))

/-- `GetMSec`; the double is read as an exact rational. -/
def getMSec (t : MonotonicTimer) : ℚ := t.tvSec * 1000 + t.tvNsec / 1000000

variable {t u v : MonotonicTimer}

theorem lt_def : t < u ↔ t.tvSec < u.tvSec ∨ t.tvSec = u.tvSec ∧ t.tvNsec < u.tvNsec := Iff.rfl

theorem le_def : t ≤ u ↔ t.tvSec < u.tvSec ∨ t.tvSec = u.tvSec ∧ t.tvNsec ≤ u.tvNsec := Iff.rfl

theorem le_of_lt (h : t < u) : t ≤ u := by
  rw [lt_def] at h
  rw [le_def]
  omega

theorem lt_trans (h1 : t < u) (h2 : u < v) : t < v := by
  rw [lt_def] at *
  omega

instance : Preorder MonotonicTimer where
  le_refl t := .inr ⟨rfl, Int.le_refl _⟩
  le_trans t u v h1 h2 := by
    rw [le_def] at *
    omega
  lt_iff_le_not_ge t u := by
    rw [lt_def, le_def, le_def]
    omega

instance : LinearOrder MonotonicTimer where
  le_antisymm t u h1 h2 := by
    obtain ⟨ts, tn⟩ := t
    obtain ⟨us, un⟩ := u
    simp only [le_def] at h1 h2
    rw [mk.injEq]
    omega
  le_total t u := by
    rw [le_def, le_def]
    omega
  toDecidableLE := inferInstance
  toDecidableLT := inferInstance
  toDecidableEq := inferInstance

/-- The one carry of an addition keeps the order of two readings. -/
theorem add_le_add (ht : t.Normal) (hu : u.Normal) (h : t ≤ u) : t.add v ≤ u.add v := by
  obtain ⟨ht0, ht1⟩ := ht
  obtain ⟨hu0, hu1⟩ := hu
  simp only [BILLION] at ht1 hu1
  rw [le_def] at h
  simp only [add, BILLION, ge_iff_le]
  split <;> split <;> rw [le_def] <;> dsimp only <;> omega

/-! ### Intervals -/

/-- Half of an interval is an interval. -/
theorem normal_half (ht : t.Normal) (hsec : 0 ≤ t.tvSec) :
    (t.div 2).Normal ∧ 0 ≤ (t.div 2).tvSec := by
  obtain ⟨ht0, ht1⟩ := ht
  simp only [BILLION] at ht1
  simp only [Normal, div, BILLION, Int.tdiv_eq_ediv_of_nonneg ht0,
    Int.tdiv_eq_ediv_of_nonneg hsec, Int.tmod_eq_emod_of_nonneg hsec]
  have hhalf : Int.tdiv 1000000000 2 = 500000000 := by decide
  rw [hhalf]
  omega

/-- An interval leads back from a time. -/
theorem sub_le (hu : u.Normal) (hsec : 0 ≤ u.tvSec) : t.sub u ≤ t := by
  obtain ⟨hu0, hu1⟩ := hu
  simp only [sub]
  split <;> rw [le_def] <;> dsimp only <;> omega

/-- An interval leads on from a time. -/
theorem le_add (hu : u.Normal) (hsec : 0 ≤ u.tvSec) : t ≤ t.add u := by
  obtain ⟨hu0, hu1⟩ := hu
  simp only [add]
  split <;> rw [le_def] <;> dsimp only <;> omega

end MonotonicTimer

end WspaceScout
