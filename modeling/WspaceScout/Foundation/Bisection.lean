import Mathlib.Data.List.TakeWhile
import Mathlib.Tactic

/-!
# Bisection that stops on equality

A search for the first index at which a sequence is not too small usually halves until one index
is left. The variant here leaves early at an index that fits. Then it returns the first fitting
index only if it meets no other one on its way, and its way up to there is that of the plain
search, `probes`.

## Main results

- `bisect_eq_iff` — when the early exit does no harm
- `le_bisect` — the early exit is never too early
- `take_drop_eq_filter` — the records between two such indices
-/

namespace Foundation

/-- Halve `[left, right]` by comparing its middle with what is sought; stop on equality. -/
def bisect (cmp : Nat → Ordering) (left right : Nat) : Nat :=
  if left < right then
    match cmp (left + (right - left) / 2) with
    | .eq => left + (right - left) / 2
    | .gt => bisect cmp left (left + (right - left) / 2)
    | .lt => bisect cmp (left + (right - left) / 2 + 1) right
  else right
termination_by right - left
decreasing_by all_goals omega

/-- The middles that a halving of `[left, right]` visits when it always goes on towards
`target`. -/
def probes (target left right : Nat) : List Nat :=
  if left < right then
    if target ≤ left + (right - left) / 2 then
      (left + (right - left) / 2) :: probes target left (left + (right - left) / 2)
    else (left + (right - left) / 2) :: probes target (left + (right - left) / 2 + 1) right
  else []
termination_by right - left
decreasing_by all_goals omega

variable {cmp : Nat → Ordering} {target left right : Nat}

theorem mem_probes {m : Nat} (h : m ∈ probes target left right) : left ≤ m ∧ m < right := by
  induction left, right using probes.induct target with
  | case1 left right hlt hle ih =>
    rw [probes, if_pos hlt, if_pos hle, List.mem_cons] at h
    obtain rfl | h := h
    · omega
    · have := ih h
      omega
  | case2 left right hlt hgt ih =>
    rw [probes, if_pos hlt, if_neg hgt, List.mem_cons] at h
    obtain rfl | h := h
    · omega
    · have := ih h
      omega
  | case3 left right hge =>
    rw [probes, if_neg hge] at h
    cases h

/-- `target` is the first index that is not too small. The search returns it exactly if the halving
towards it never meets a fitting index behind it. -/
theorem bisect_eq_iff (hleft : left ≤ target) (hright : target ≤ right)
    (hcmp : ∀ k, left ≤ k → k < right → (cmp k = .lt ↔ k < target)) :
    bisect cmp left right = target ↔
      ∀ m ∈ probes target left right, target < m → cmp m ≠ .eq := by
  induction left, right using bisect.induct cmp with
  | case1 left right hlt hmid =>
    -- the early exit
    have hle : target ≤ left + (right - left) / 2 := by
      have hiff := hcmp (left + (right - left) / 2) (by omega) (by omega)
      rw [hmid] at hiff
      simpa using hiff
    rw [bisect, if_pos hlt, probes, if_pos hlt, if_pos hle, hmid]
    simp only [List.mem_cons, forall_eq_or_imp, hmid, ne_eq, not_true_eq_false, imp_false]
    constructor
    · intro heq
      refine ⟨by omega, fun m hm hlt' => ?_⟩
      have := mem_probes hm
      omega
    · intro h
      omega
  | case2 left right hlt hmid ih =>
    have hle : target ≤ left + (right - left) / 2 := by
      have hiff := hcmp (left + (right - left) / 2) (by omega) (by omega)
      rw [hmid] at hiff
      simpa using hiff
    rw [bisect, if_pos hlt, probes, if_pos hlt, if_pos hle, hmid]
    simp only [List.mem_cons, forall_eq_or_imp, hmid, ne_eq, reduceCtorEq, not_false_eq_true,
      implies_true, true_and]
    exact ih hleft hle fun k h1 h2 => hcmp k h1 (by omega)
  | case3 left right hlt hmid ih =>
    have hgt : left + (right - left) / 2 < target :=
      (hcmp (left + (right - left) / 2) (by omega) (by omega)).mp hmid
    rw [bisect, if_pos hlt, probes, if_pos hlt, if_neg (by omega), hmid]
    simp only [List.mem_cons, forall_eq_or_imp, hmid, ne_eq, reduceCtorEq, not_false_eq_true,
      implies_true, true_and]
    exact ih (by omega) hright fun k h1 h2 => hcmp k (by omega) h2
  | case4 left right hge =>
    rw [bisect, if_neg hge, probes, if_neg hge]
    simp only [List.not_mem_nil, false_imp_iff, implies_true, iff_true]
    omega

/-- The search does not leave before the first index that is not too small. -/
theorem le_bisect (hright : target ≤ right)
    (hcmp : ∀ k, left ≤ k → k < right → cmp k ≠ .lt → target ≤ k) :
    target ≤ bisect cmp left right := by
  induction left, right using bisect.induct cmp with
  | case1 left right hlt hmid =>
    have hle : target ≤ left + (right - left) / 2 :=
      hcmp _ (by omega) (by omega) (by simp [hmid])
    rw [bisect, if_pos hlt, hmid]
    exact hle
  | case2 left right hlt hmid ih =>
    have hle : target ≤ left + (right - left) / 2 :=
      hcmp _ (by omega) (by omega) (by simp [hmid])
    rw [bisect, if_pos hlt, hmid]
    exact ih hle fun k h1 h2 => hcmp k h1 (by omega)
  | case3 left right hlt hmid ih =>
    rw [bisect, if_pos hlt, hmid]
    exact ih hright fun k h1 h2 => hcmp k (by omega) h2
  | case4 left right hge =>
    rw [bisect, if_neg hge]
    exact hright

/-! ### The records between two indices -/

variable {α : Type*} {p q : α → Bool} {w : List α}

/-- Up to the first record with `q`, if all records behind it have `q` too. -/
theorem take_findIdx_eq_filter (hq : w.Pairwise fun a b => q a = true → q b = true) :
    w.take (w.findIdx q) = w.filter fun a => !q a := by
  induction hq with
  | nil => rfl
  | @cons a w hfirst _ ih =>
    cases ha : q a with
    | true =>
      have hnone : w.filter (fun b => !q b) = [] := by
        rw [List.filter_eq_nil_iff]
        intro b hb
        simp [hfirst b hb ha]
      simp [List.findIdx_cons, ha, hnone]
    | false => simp [List.findIdx_cons, ha, ih]

/-- From the first record with `p` up to the first with `q`. -/
theorem take_drop_eq_filter (hp : w.Pairwise fun a b => p a = true → p b = true)
    (hq : w.Pairwise fun a b => q a = true → q b = true) (hqp : ∀ a, q a = true → p a = true) :
    (w.take (w.findIdx q)).drop (w.findIdx p) = w.filter fun a => p a && !q a := by
  induction w with
  | nil => rfl
  | cons a w ih =>
    cases ha : p a with
    | true =>
      have hall : ∀ b ∈ a :: w, (p b && !q b) = !q b := by
        intro b hb
        obtain rfl | hb := List.mem_cons.mp hb
        · simp [ha]
        · simp [(List.pairwise_cons.mp hp).1 b hb ha]
      rw [List.filter_congr hall, ← take_findIdx_eq_filter hq]
      simp [List.findIdx_cons, ha]
    | false =>
      have ha' : q a = false := by
        by_contra h
        rw [hqp a (by simpa using h)] at ha
        cases ha
      have htail := ih hp.tail hq.tail
      simpa [List.findIdx_cons, ha, ha'] using htail

end Foundation
