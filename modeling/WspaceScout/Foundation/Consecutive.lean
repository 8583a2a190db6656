import Mathlib.Data.List.Range
import Mathlib.Tactic

/-!
# Lists with consecutive keys

A queue whose entries carry consecutive numbers stays so under the operations of a queue: append
the next number, drop a prefix, update entries without changing their numbers. The position of an
entry is its number minus the first one, so an update of one position is an update of one number.

## Main definitions

- `Consecutive key lo l` — the keys of `l` are `lo`, `lo + 1`, …
-/

namespace Foundation

variable {α : Type*}

/-- The element at a position of a longer list is the last one or one of the others. -/
theorem getElem?_snoc {xs : List α} {x y : α} {i : Nat}
    (h : (xs ++ [x])[i]? = some y) : i < xs.length ∧ xs[i]? = some y ∨ i = xs.length ∧ y = x := by
  by_cases hlt : i < xs.length
  · rw [List.getElem?_append_left hlt] at h
    exact .inl ⟨hlt, h⟩
  · rw [List.getElem?_append_right (by omega)] at h
    obtain ⟨hidx, heq⟩ := List.getElem?_eq_some_iff.mp h
    rw [List.length_singleton] at hidx
    exact .inr ⟨by omega, by simpa using heq.symm⟩

/-- The keys of the list are `lo`, `lo + 1`, …. -/
def Consecutive (key : α → Nat) (lo : Nat) (l : List α) : Prop :=
  l.map key = List.range' lo l.length

namespace Consecutive

variable {key : α → Nat} {lo : Nat} {l : List α} {a : α}

theorem nil (key : α → Nat) (lo : Nat) : Consecutive key lo ([] : List α) := rfl

theorem key_eq (h : Consecutive key lo l) {i : Nat} (ha : l[i]? = some a) : key a = lo + i := by
  have hmap : (l.map key)[i]? = some (key a) := by rw [List.getElem?_map, ha, Option.map_some]
  obtain ⟨hi, -⟩ := List.getElem?_eq_some_iff.mp ha
  rw [h, List.getElem?_range' hi] at hmap
  have := Option.some.inj hmap
  omega

theorem bounds (h : Consecutive key lo l) (ha : a ∈ l) :
    lo ≤ key a ∧ key a < lo + l.length := by
  have hmem : key a ∈ l.map key := List.mem_map_of_mem ha
  rw [h, List.mem_range'_1] at hmem
  exact hmem

theorem map (h : Consecutive key lo l) {f : α → α} (hf : ∀ a ∈ l, key (f a) = key a) :
    Consecutive key lo (l.map f) := by
  unfold Consecutive
  rw [List.map_map, List.length_map, ← h]
  exact List.map_congr_left hf

theorem snoc (h : Consecutive key lo l) (ha : key a = lo + l.length) :
    Consecutive key lo (l ++ [a]) := by
  unfold Consecutive
  rw [List.map_append, h, List.length_append, List.length_singleton, List.range'_concat,
    Nat.one_mul, ← ha]
  rfl

theorem drop (h : Consecutive key lo l) (k : Nat) : Consecutive key (lo + k) (l.drop k) := by
  unfold Consecutive
  rw [List.map_drop, h, List.length_drop, List.drop_range', Nat.mul_one]

theorem suffix (h : Consecutive key lo l) {l' : List α} (hs : l' <:+ l) :
    Consecutive key (lo + (l.length - l'.length)) l' := by
  obtain ⟨t, rfl⟩ := hs
  have hdrop := h.drop t.length
  rwa [List.drop_left, show t.length = (t ++ l').length - l'.length by
    rw [List.length_append, Nat.add_sub_cancel]] at hdrop

/-- The keys increase along the list. -/
theorem pairwise (h : Consecutive key lo l) : l.Pairwise fun a b => key a < key b := by
  have hrange : (l.map key).Pairwise (· < ·) := h ▸ List.pairwise_lt_range'
  exact List.pairwise_map.mp hrange

/-- The position of an update and the key that it changes. -/
theorem modify_eq_map (h : Consecutive key lo l) (i : Nat) (f : α → α) :
    l.modify i f = l.map fun a => if key a = lo + i then f a else a := by
  refine List.ext_getElem? fun j => ?_
  rw [List.getElem?_modify, List.getElem?_map]
  cases hj : l[j]? with
  | none => rfl
  | some a =>
    have hkey := h.key_eq hj
    by_cases hij : i = j
    · simp [hij, hkey]
    · have hne : ¬key a = lo + i := by omega
      simp [hij, hne]

end Consecutive

end Foundation
