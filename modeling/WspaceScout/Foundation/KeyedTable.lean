import Mathlib.Data.List.Nodup
import Mathlib.Tactic

/-!
# Tables with one row for each key

A table is a function on the positions of its list of keys, so that no row can be missing and no
key can change.
-/

namespace Foundation

variable {κ ρ : Type*}

/-- Row `i` belongs to key `keys[i]`. -/
abbrev KeyedTable (keys : List κ) (ρ : Type*) := Fin keys.length → ρ

variable [DecidableEq κ] {keys : List κ}

/-- Change the first row with key `k`, if there is one. -/
def KeyedTable.modify (t : KeyedTable keys ρ) (k : κ) (f : ρ → ρ) : KeyedTable keys ρ :=
  fun i => if keys.idxOf k = i then f (t i) else t i

/-- Without duplicates the first row with a key is the only one. -/
theorem KeyedTable.modify_apply (hkeys : keys.Nodup) (t : KeyedTable keys ρ) (k : κ) (f : ρ → ρ)
    (i : Fin keys.length) : t.modify k f i = if keys.get i = k then f (t i) else t i := by
  have hiff : keys.idxOf k = i ↔ keys.get i = k := by
    constructor
    · intro h
      have hlt : keys.idxOf k < keys.length := h ▸ i.isLt
      have hget := List.getElem_idxOf hlt
      simpa [h] using hget
    · rintro rfl
      exact hkeys.idxOf_getElem i i.isLt
  by_cases h : keys.get i = k
  · rw [KeyedTable.modify, if_pos h, if_pos (hiff.mpr h)]
  · rw [KeyedTable.modify, if_neg h, if_neg (mt hiff.mp h)]

/-- The rule of `modify`: the row of `k` goes from `P` to `Q` by the change, every other row by
itself. -/
theorem KeyedTable.modify_rule {t : KeyedTable keys ρ} {k : κ} {f : ρ → ρ} {P Q : κ → ρ → Prop}
    (hkeys : keys.Nodup) (h : ∀ i, P (keys.get i) (t i)) (hrow : ∀ r, P k r → Q k (f r))
    (hothers : ∀ k' r, k' ≠ k → P k' r → Q k' r) (i : Fin keys.length) :
    Q (keys.get i) (t.modify k f i) := by
  rw [modify_apply hkeys]
  by_cases hk : keys.get i = k
  · rw [if_pos hk, hk]
    exact hrow (t i) (hk ▸ h i)
  · rw [if_neg hk]
    exact hothers _ (t i) hk (h i)

end Foundation
