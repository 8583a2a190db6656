import Mathlib.Algebra.BigOperators.Group.Finset.Basic
import Mathlib.Algebra.Order.Group.Multiset
import Mathlib.Data.Fintype.Basic
import Mathlib.Tactic

/-!
# A queue with several takers

Items are pushed at the end of a queue. A taker that holds nothing takes a prefix, of which it may
lose a part, and later finishes its items one at a time. No item is ever duplicated; the items are
finished in the order of the queue if a taker never finishes an item while another taker holds an
earlier one.

## Main definitions

- `TakeQueue` — finished items, items in the hands of the takers, and the queue
- `TakeQueue.tracked` — all items
- `TakeQueue.InOrder R q` — the items of `q` stand in the order `R`

## Main results

- `TakeQueue.tracked_take`, `TakeQueue.tracked_finish` — no operation but a push adds items
- `TakeQueue.InOrder.push`, `TakeQueue.InOrder.take`, `TakeQueue.InOrder.finish`
-/

namespace Foundation

/-- The items finished, the items that each taker holds, and the queue. -/
structure TakeQueue (ι α : Type*) where
  done : List α
  held : ι → List α
  queue : List α

namespace TakeQueue

variable {ι α : Type*}

/-- Append an item to the queue. -/
def push (q : TakeQueue ι α) (a : α) : TakeQueue ι α := { q with queue := q.queue ++ [a] }

/-- The taker `i` holds `out` and leaves `rest` in the queue. -/
def take [DecidableEq ι] (q : TakeQueue ι α) (i : ι) (out rest : List α) : TakeQueue ι α :=
  { q with held := Function.update q.held i out, queue := rest }

/-- The taker `i` finishes `a` and keeps `rest`. -/
def finish [DecidableEq ι] (q : TakeQueue ι α) (i : ι) (a : α) (rest : List α) : TakeQueue ι α :=
  { q with done := q.done ++ [a], held := Function.update q.held i rest }

section Tracked

variable [Fintype ι]

/-- All items. -/
def tracked (q : TakeQueue ι α) : Multiset α :=
  (q.done : Multiset α) + ∑ i, (q.held i : Multiset α) + (q.queue : Multiset α)

theorem done_le_tracked (q : TakeQueue ι α) : (q.done : Multiset α) ≤ q.tracked := by
  rw [tracked, add_assoc]
  exact Multiset.le_add_right _ _

theorem mem_tracked {q : TakeQueue ι α} {i : ι} {a : α} (h : a ∈ q.done ++ q.held i ++ q.queue) :
    a ∈ q.tracked := by
  rw [tracked, Multiset.mem_add, Multiset.mem_add]
  obtain h | h := List.mem_append.mp h
  · obtain h | h := List.mem_append.mp h
    · exact .inl (.inl h)
    · exact .inl (.inr (Multiset.mem_sum.mpr ⟨i, Finset.mem_univ i, h⟩))
  · exact .inr h

theorem tracked_push (q : TakeQueue ι α) (a : α) : (q.push a).tracked = q.tracked + {a} := by
  rw [tracked, tracked, push, ← Multiset.coe_add, Multiset.coe_singleton, ← add_assoc]

variable [DecidableEq ι] {q : TakeQueue ι α} {i : ι} {a : α} {out rest : List α}

theorem sum_update (held : ι → List α) (i : ι) (l : List α) :
    ∑ j, (Function.update held i l j : Multiset α) + (held i : Multiset α) =
      ∑ j, (held j : Multiset α) + (l : Multiset α) := by
  have hcoe : ∀ j, (Function.update held i l j : Multiset α) =
      Function.update (fun j => (held j : Multiset α)) i (l : Multiset α) j := fun j =>
    Function.apply_update (fun _ (l : List α) => (l : Multiset α)) held i l j
  have hrest := Finset.add_sum_erase Finset.univ (fun j => (held j : Multiset α))
    (Finset.mem_univ i)
  simp only [hcoe]
  rw [Finset.sum_update_of_mem (Finset.mem_univ i), Finset.sdiff_singleton_eq_erase, ← hrest]
  simp only [add_comm, add_left_comm]

theorem tracked_take (hidle : q.held i = []) (hout : (out ++ rest).Sublist q.queue) :
    (q.take i out rest).tracked ≤ q.tracked := by
  have hsum := sum_update q.held i out
  rw [hidle, Multiset.coe_nil, add_zero] at hsum
  have hle : ((out : Multiset α) + (rest : Multiset α)) ≤ (q.queue : Multiset α) := by
    rw [Multiset.coe_add]
    exact Multiset.coe_le.mpr hout.subperm
  change (q.done : Multiset α) + ∑ j, (Function.update q.held i out j : Multiset α) +
    (rest : Multiset α) ≤ _
  rw [hsum, ← add_assoc, add_assoc, tracked]
  gcongr

theorem tracked_finish (hheld : q.held i = a :: rest) :
    (q.finish i a rest).tracked = q.tracked := by
  have hsum := sum_update q.held i rest
  rw [hheld, ← Multiset.cons_coe, ← Multiset.singleton_add, ← add_assoc] at hsum
  have hcancel := add_right_cancel hsum
  change ((q.done ++ [a] : List α) : Multiset α) +
    ∑ j, (Function.update q.held i rest j : Multiset α) + (q.queue : Multiset α) = _
  rw [tracked, ← hcancel, ← Multiset.coe_add, Multiset.coe_singleton]
  simp only [add_assoc, add_comm, add_left_comm]

end Tracked

section Order

variable {R : α → α → Prop} {q : TakeQueue ι α} {i : ι} {a : α} {out rest : List α}

/-- Each taker holds items that stand behind all finished ones and before the queue, and of two
takers one holds items that stand before those of the other. -/
structure InOrder (R : α → α → Prop) (q : TakeQueue ι α) : Prop where
  chain : ∀ i, (q.done ++ q.held i ++ q.queue).Pairwise R
  split : ∀ i j, i ≠ j → (∀ x ∈ q.held i, ∀ y ∈ q.held j, R x y) ∨
    ∀ x ∈ q.held i, ∀ y ∈ q.held j, R y x

namespace InOrder

theorem push (h : InOrder R q) (ha : ∀ i, ∀ x ∈ q.done ++ q.held i ++ q.queue, R x a) :
    InOrder R (q.push a) := by
  refine ⟨fun i => ?_, h.split⟩
  change (q.done ++ q.held i ++ (q.queue ++ [a])).Pairwise R
  rw [← List.append_assoc, List.pairwise_append]
  refine ⟨h.chain i, List.pairwise_singleton R a, fun x hx y hy => ?_⟩
  rw [List.mem_singleton.mp hy]
  exact ha i x hx

theorem held_queue (h : InOrder R q) {x y : α} (hx : x ∈ q.held i) (hy : y ∈ q.queue) : R x y :=
  (List.pairwise_append.mp (h.chain i)).2.2 x (List.mem_append_right _ hx) y hy

variable [DecidableEq ι]

/-- What a taker takes stands behind what the others hold. -/
theorem take (h : InOrder R q) (hidle : q.held i = []) (hout : (out ++ rest).Sublist q.queue) :
    InOrder R (q.take i out rest) := by
  have hafter : ∀ j, ∀ x ∈ q.held j, ∀ y ∈ out, R x y := fun j x hx y hy =>
    h.held_queue hx (hout.subset (List.mem_append_left _ hy))
  constructor
  · intro j
    change (q.done ++ Function.update q.held i out j ++ rest).Pairwise R
    by_cases hj : j = i
    · subst hj
      have hchain := h.chain j
      rw [hidle, List.append_nil] at hchain
      rw [Function.update_self, List.append_assoc]
      exact hchain.sublist ((List.Sublist.refl _).append hout)
    · rw [Function.update_of_ne hj]
      exact (h.chain j).sublist
        ((List.Sublist.refl _).append ((List.sublist_append_right out rest).trans hout))
  · intro j k hjk
    change (∀ x ∈ Function.update q.held i out j, ∀ y ∈ Function.update q.held i out k, R x y) ∨
      ∀ x ∈ Function.update q.held i out j, ∀ y ∈ Function.update q.held i out k, R y x
    by_cases hj : j = i
    · -- what `i` takes comes from the queue, behind what `k` holds
      subst hj
      rw [Function.update_self, Function.update_of_ne hjk.symm]
      exact .inr fun x hx y hy => hafter k y hy x hx
    · rw [Function.update_of_ne hj]
      by_cases hk : k = i
      · subst hk
        rw [Function.update_self]
        exact .inl (hafter j)
      · rw [Function.update_of_ne hk]
        exact h.split j k hjk

/-- Finishing an item keeps the order if no other taker holds an earlier one. -/
theorem finish (h : InOrder R q) (hheld : q.held i = a :: rest)
    (hturn : ∀ j, j ≠ i → ∀ y ∈ q.held j, ¬R y a) : InOrder R (q.finish i a rest) := by
  have ha : a ∈ q.held i := hheld ▸ List.mem_cons_self
  have hfirst : ∀ j, j ≠ i → ∀ y ∈ q.held j, R a y := fun j hj y hy => by
    obtain hlt | hgt := h.split i j (Ne.symm hj)
    · exact hlt a ha y hy
    · exact absurd (hgt a ha y hy) (hturn j hj y hy)
  have hrest : ∀ x ∈ rest, x ∈ q.held i := fun x hx => hheld ▸ List.mem_cons_of_mem a hx
  constructor
  · intro j
    change (q.done ++ [a] ++ Function.update q.held i rest j ++ q.queue).Pairwise R
    by_cases hj : j = i
    · subst hj
      rw [Function.update_self, List.append_assoc q.done, List.singleton_append, ← hheld]
      exact h.chain j
    · -- the finished item moves in front of what the other takers hold
      rw [Function.update_of_ne hj]
      have hown := h.chain i
      rw [hheld, List.append_assoc, List.pairwise_append] at hown
      obtain ⟨-, hown, hdone⟩ := hown
      have hother := h.chain j
      rw [List.append_assoc, List.pairwise_append] at hother
      obtain ⟨hpast, hrun, hcross⟩ := hother
      rw [List.append_assoc, List.append_assoc, List.pairwise_append, List.singleton_append,
        List.pairwise_cons]
      refine ⟨hpast, ⟨fun y hy => ?_, hrun⟩, fun x hx y hy => ?_⟩
      · obtain hy | hy := List.mem_append.mp hy
        · exact hfirst j hj y hy
        · exact h.held_queue ha hy
      · obtain rfl | hy := List.mem_cons.mp hy
        · exact hdone x hx y List.mem_cons_self
        · exact hcross x hx y hy
  · intro j k hjk
    change (∀ x ∈ Function.update q.held i rest j, ∀ y ∈ Function.update q.held i rest k, R x y) ∨
      ∀ x ∈ Function.update q.held i rest j, ∀ y ∈ Function.update q.held i rest k, R y x
    have hsub : ∀ j, ∀ x ∈ Function.update q.held i rest j, x ∈ q.held j := fun j x hx => by
      by_cases hj : j = i
      · subst hj
        rw [Function.update_self] at hx
        exact hrest x hx
      · rwa [Function.update_of_ne hj] at hx
    refine (h.split j k hjk).imp ?_ ?_
    · exact fun hlt x hx y hy => hlt x (hsub j x hx) y (hsub k y hy)
    · exact fun hgt x hx y hy => hgt x (hsub j x hx) y (hsub k y hy)

end InOrder

end Order

end TakeQueue

end Foundation
