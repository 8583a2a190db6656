import Mathlib.Algebra.BigOperators.Group.List.Basic
import Mathlib.Algebra.Order.BigOperators.Group.List
import Mathlib.Tactic

/-!
# Summaries of a sliding window

A queue takes records in at its back and lets go of those at its front that are no longer live.
Beside it a summary is updated with every record that enters or leaves, so that it is never
computed from the whole queue.

## Main definitions

- `Summary.push` — one record enters, then the front of the queue is cleaned
- `Summary.Exact` — a relation of queue and summary that both updates keep
- `total` — the sum of a function over the records with a property

## Main results

- `Summary.Exact.push` — the relation holds after every push
- `Summary.push_fst` — in a queue that ages from the front, exactly the live records remain
-/

namespace Foundation

variable {α β M : Type*}

/-- How a summary follows the records that enter and leave. -/
structure Summary (α β : Type*) where
  insert : β → α → β
  remove : β → α → β

namespace Summary

variable (S : Summary α β) (live : α → Bool) {I : List α → β → Prop} {w : List α} {b : β}

/-- Let go of the records at the front that are no longer live. -/
def evict : List α → β → List α × β
  | [], b => ([], b)
  | a :: w, b => if live a then (a :: w, b) else evict w (S.remove b a)

/-- One record enters, then the front of the queue is cleaned. -/
def push (w : List α) (b : β) (a : α) : List α × β :=
  S.evict live (w ++ [a]) (S.insert b a)

/-- Both updates keep `I`. -/
structure Exact (I : List α → β → Prop) : Prop where
  insert : ∀ {w : List α} {b : β} (a : α), I w b → I (w ++ [a]) (S.insert b a)
  remove : ∀ {w : List α} {b : β} {a : α}, I (a :: w) b → I w (S.remove b a)

theorem evict_fst (w : List α) (b : β) :
    (S.evict live w b).1 = w.dropWhile fun a => !live a := by
  induction w generalizing b with
  | nil => rfl
  | cons a w ih =>
    cases hlive : live a with
    | true => simp [evict, hlive]
    | false => simp [evict, hlive, ih]

variable {S live}

theorem Exact.evict (hS : S.Exact I) (h : I w b) :
    I (S.evict live w b).1 (S.evict live w b).2 := by
  induction w generalizing b with
  | nil => exact h
  | cons a w ih =>
    simp only [Summary.evict]
    split
    · exact h
    · exact ih (hS.remove h)

theorem Exact.push (hS : S.Exact I) (h : I w b) (a : α) :
    I (S.push live w b a).1 (S.push live w b a).2 :=
  hS.evict (hS.insert a h)

end Summary

/-- If every record outlives those in front of it, cleaning the front leaves the live records. -/
theorem dropWhile_eq_filter {live : α → Bool} {w : List α}
    (hw : w.Pairwise fun a a' => live a = true → live a' = true) :
    (w.dropWhile fun a => !live a) = w.filter live := by
  induction hw with
  | nil => rfl
  | @cons a w hfirst _ ih =>
    cases hlive : live a with
    | true =>
      have hall : w.filter live = w := List.filter_eq_self.mpr fun a' ha' => hfirst a' ha' hlive
      simp [hlive, hall]
    | false => simp [hlive, ih]

theorem Summary.push_fst {S : Summary α β} {live : α → Bool} {w : List α} {a : α} (b : β)
    (hw : (w ++ [a]).Pairwise fun a a' => live a = true → live a' = true) :
    (S.push live w b a).1 = (w ++ [a]).filter live := by
  rw [push, evict_fst, dropWhile_eq_filter hw]

/-! ### Totals over the records of a window -/

/-- The sum of `f` over the records with property `p`. -/
def total [AddCommMonoid M] (p : α → Bool) (f : α → M) (w : List α) : M :=
  ((w.filter p).map f).sum

section Total

variable [AddCommMonoid M] (p : α → Bool) (f : α → M) (a : α) (w : List α)

@[simp]
theorem total_nil : total p f [] = 0 := rfl

@[simp]
theorem total_cons : total p f (a :: w) = total p f w + if p a then f a else 0 := by
  cases hp : p a with
  | true => simp [total, hp, add_comm]
  | false => simp [total, hp]

@[simp]
theorem total_snoc : total p f (w ++ [a]) = total p f w + if p a then f a else 0 := by
  cases hp : p a with
  | true => simp [total, hp]
  | false => simp [total, hp]

end Total

/-! Counts and totals of records of one kind depend on these records only. -/

theorem countP_congr_filter {p q : α → Bool} {w w' : List α} (hpq : ∀ a, p a = true → q a = true)
    (hw : w.filter q = w'.filter q) : w.countP p = w'.countP p := by
  have hkind : ∀ v : List α, v.countP p = (v.filter q).countP p := by
    intro v
    rw [List.countP_filter]
    apply List.countP_congr
    intro a _
    simpa using hpq a
  rw [hkind w, hkind w', hw]

theorem total_congr_filter [AddCommMonoid M] {p q : α → Bool} (f : α → M) {w w' : List α}
    (hpq : ∀ a, p a = true → q a = true) (hw : w.filter q = w'.filter q) :
    total p f w = total p f w' := by
  have hkind : ∀ v : List α, total p f v = total p f (v.filter q) := by
    intro v
    rw [total, total, List.filter_filter]
    congr 2
    apply List.filter_congr
    intro a _
    simpa using hpq a
  rw [hkind w, hkind w', hw]

/-- A total of terms of at least `c` is zero or at least `c`. -/
theorem total_eq_zero_or_le {p : α → Bool} {f : α → ℚ} {c : ℚ} {w : List α} (hc : 0 ≤ c)
    (h : ∀ a ∈ w, p a = true → c ≤ f a) :
    w.countP p = 0 ∧ total p f w = 0 ∨ 0 < w.countP p ∧ c ≤ total p f w := by
  induction w with
  | nil => exact .inl ⟨rfl, rfl⟩
  | cons a w ih =>
    have hw := ih fun a' ha' => h a' (List.mem_cons_of_mem a ha')
    cases hp : p a with
    | false => simpa [hp] using hw
    | true =>
      have ha := h a (List.mem_cons_self ..) hp
      have hnonneg : 0 ≤ total p f w := by
        obtain ⟨-, hzero⟩ | ⟨-, hle⟩ := hw
        · exact hzero.ge
        · exact hc.trans hle
      refine .inr ⟨by simp [hp], ?_⟩
      simp only [total_cons, hp, if_true]
      linarith

/-- A property splits a total. -/
theorem total_sub (p q : α → Bool) (f : α → ℚ) (w : List α) :
    total p f w - total (fun a => p a && q a) f w = total (fun a => p a && !q a) f w := by
  induction w with
  | nil => simp
  | cons a w ih =>
    simp only [total_cons, ← ih]
    cases hp : p a with
    | true =>
      cases hq : q a with
      | true => simp
      | false =>
        simp only [Bool.not_false, Bool.and_true, Bool.and_false, if_true, Bool.false_eq_true,
          if_false]
        ring
    | false => simp

end Foundation
