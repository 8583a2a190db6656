import Mathlib.Data.List.Basic
import Mathlib.Order.Basic
import Mathlib.Tactic

/-!
# Scans

Two loops over the records of a list: one that keeps the best record so far, and moves on to a
later one only if that is better, and one that counts the records with a property which only a
front part of the list can have.

## Main definitions

- `IsFirstLeast f l x` — `x` is the first record of `l` with the least value

## Main results

- `IsFirstLeast.scan`, `scan_below` — the loop that keeps the best record, from a first record or
  from a bound
- `take_countP_eq_filter` — the counted records are the first ones
-/

namespace Foundation

variable {α β : Type*}

section LinearOrder

variable [LinearOrder β] {f : α → β} {l : List α} {x y : α} {b : β}

/-- `x` is the first record of `l` at which `f` is least. -/
structure IsFirstLeast (f : α → β) (l : List α) (x : α) : Prop where
  split : ∃ l₁ l₂, l = l₁ ++ x :: l₂ ∧ (∀ y ∈ l₁, f x < f y) ∧ ∀ y ∈ l₂, f x ≤ f y

namespace IsFirstLeast

theorem mem (h : IsFirstLeast f l x) : x ∈ l := by
  obtain ⟨l₁, l₂, rfl, -, -⟩ := h.split
  exact List.mem_append_right l₁ List.mem_cons_self

theorem le (h : IsFirstLeast f l x) (hy : y ∈ l) : f x ≤ f y := by
  obtain ⟨l₁, l₂, rfl, hbefore, hafter⟩ := h.split
  obtain hy | hy := List.mem_append.mp hy
  · exact (hbefore y hy).le
  · obtain rfl | hy := List.mem_cons.mp hy
    · exact le_refl _
    · exact hafter y hy

/-- In an ordered list the earlier records are the smaller ones. -/
theorem lt [LinearOrder α] (h : IsFirstLeast f l x) (hl : l.Pairwise (· < ·)) (hy : y ∈ l)
    (hyx : y < x) : f x < f y := by
  obtain ⟨l₁, l₂, rfl, hbefore, -⟩ := h.split
  obtain hy | hy := List.mem_append.mp hy
  · exact hbefore y hy
  · obtain rfl | hy := List.mem_cons.mp hy
    · exact absurd hyx (lt_irrefl y)
    · have hxy := List.rel_of_pairwise_cons (List.pairwise_append.mp hl).2.1 hy
      exact absurd hyx (not_lt_of_gt hxy)

theorem singleton (f : α → β) (x : α) : IsFirstLeast f [x] x :=
  ⟨[], [], rfl, fun _ h => absurd h List.not_mem_nil, fun _ h => absurd h List.not_mem_nil⟩

/-- A value below a bound on all values before it. -/
theorem of_bound (hbound : ∀ y ∈ l, b ≤ f y) (h : f x < b) : IsFirstLeast f (l ++ [x]) x :=
  ⟨l, [], rfl, fun y hy => h.trans_le (hbound y hy), fun _ h => absurd h List.not_mem_nil⟩

/-- The step rule. -/
theorem step (h : IsFirstLeast f l x) (y : α) :
    IsFirstLeast f (l ++ [y]) (if f y < f x then y else x) := by
  by_cases hlt : f y < f x
  · rw [if_pos hlt]
    exact of_bound (fun _ => h.le) hlt
  · rw [if_neg hlt]
    obtain ⟨l₁, l₂, rfl, hbefore, hafter⟩ := h.split
    refine ⟨l₁, l₂ ++ [y], by simp, hbefore, fun z hz => ?_⟩
    obtain hz | hz := List.mem_append.mp hz
    · exact hafter z hz
    · rw [List.mem_singleton.mp hz]
      exact not_lt.mp hlt

/-- The rule of the loop that starts with a first record. -/
theorem scan (h : IsFirstLeast f l x) (l' : List α) :
    IsFirstLeast f (l ++ l') (l'.foldl (fun x y => if f y < f x then y else x) x) := by
  induction l' generalizing l x with
  | nil => simpa using h
  | cons y l' ih =>
    have hnext := ih (h.step y)
    rwa [List.append_assoc, List.singleton_append] at hnext

end IsFirstLeast

/-- The rule of the loop that starts with a bound: the first least record below the bound, if there
is a record below it. -/
theorem scan_below (f : α → β) (l : List α) (b : β) (x : α) :
    (∀ y ∈ l, b ≤ f y) ∧
        l.foldl (fun best y => if best.1 > f y then (f y, y) else best) (b, x) = (b, x) ∨
      ∃ y, IsFirstLeast f l y ∧ f y < b ∧
        l.foldl (fun best y => if best.1 > f y then (f y, y) else best) (b, x) = (f y, y) := by
  induction l using List.reverseRecOn with
  | nil => exact .inl ⟨fun _ h => absurd h List.not_mem_nil, rfl⟩
  | append_singleton l z ih =>
    rw [List.foldl_append]
    obtain ⟨hnone, heq⟩ | ⟨y, hy, hlt, heq⟩ := ih
    · rw [heq, List.foldl_cons, List.foldl_nil]
      by_cases hz : f z < b
      · exact .inr ⟨z, .of_bound hnone hz, hz, if_pos hz⟩
      · refine .inl ⟨fun y hy => ?_, if_neg hz⟩
        obtain hy | hy := List.mem_append.mp hy
        · exact hnone y hy
        · rw [List.mem_singleton.mp hy]
          exact not_lt.mp hz
    · rw [heq, List.foldl_cons, List.foldl_nil]
      have hstep := hy.step z
      by_cases hz : f z < f y
      · rw [if_pos hz] at hstep
        exact .inr ⟨z, hstep, hz.trans hlt, if_pos hz⟩
      · rw [if_neg hz] at hstep
        exact .inr ⟨y, hstep, hlt, if_neg hz⟩

end LinearOrder

/-- If no record behind one without `p` has `p`, the records with `p` are the first ones. -/
theorem take_countP_eq_filter {p : α → Bool} {l : List α}
    (hl : l.Pairwise fun x y => p y = true → p x = true) : l.take (l.countP p) = l.filter p := by
  induction hl with
  | nil => rfl
  | @cons x l hfirst _ ih =>
    cases hx : p x with
    | true => simp [hx, ih]
    | false =>
      have hnone : ∀ y ∈ l, ¬p y = true := by
        intro y hy hp
        rw [hfirst y hy hp] at hx
        cases hx
      simp [hx, List.filter_eq_nil_iff.mpr hnone, List.countP_eq_zero.mpr hnone]

end Foundation
