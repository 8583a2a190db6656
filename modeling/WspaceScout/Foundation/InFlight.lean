import Mathlib.Data.Fintype.Card
import Mathlib.Logic.Function.Basic
import WspaceScout.Foundation.Memory

/-!
# Cells with updates in flight

Under a lock for each cell, an update can be started and left unfinished while the other cells go
on changing. What the cells will hold once every update has been carried out is `settled`: it
changes when an update is started, and carrying it out leaves it alone. `settledBytes` is the same
for a memory of blocks, with writes to the start of a block.

## Main results

- `settled_begin`, `settledBytes_begin` — starting an update carries it out on the settled cells
- `settled_finish`, `settledBytes_finish` — carrying it out changes nothing
- `settled_set` — a cell without an update in flight may be written at once
- `taken_update_none`, `taken_update_some` — the number of cells in flight
-/

namespace Foundation

variable {ι α : Type*} {N : Nat}

/-- The cells after all updates in flight. -/
def settled (cells : ι → α) (inFlight : ι → Option (α → α)) : ι → α :=
  fun k => (inFlight k).elim (cells k) fun f => f (cells k)

/-- The memory after all writes in flight, each to the start of its block of `w` bytes. -/
def settledBytes (w : Nat) (m : Memory) (inFlight : Fin N → Option (List UInt8)) : Memory :=
  fun x =>
    if h : x / w < N then (inFlight ⟨x / w, h⟩).elim (m x) fun bs => (bs[x % w]?).getD (m x)
    else m x

section Cells

variable [DecidableEq ι] {cells : ι → α} {inFlight : ι → Option (α → α)} {k : ι}

omit [DecidableEq ι] in
/-- A cell without an update in flight is settled. -/
theorem settled_free (h : inFlight k = none) : settled cells inFlight k = cells k := by
  unfold settled
  rw [h]
  rfl

/-- Carrying out an update changes no settled cell. -/
theorem settled_finish {f : α → α} (h : inFlight k = some f) :
    settled (Function.update cells k (f (cells k))) (Function.update inFlight k none) =
      settled cells inFlight := by
  funext j
  unfold settled
  by_cases hj : j = k
  · subst hj
    rw [Function.update_self, Function.update_self, h]
    rfl
  · rw [Function.update_of_ne hj, Function.update_of_ne hj]

/-- Starting an update carries it out on the settled cells. -/
theorem settled_begin (h : inFlight k = none) (f : α → α) :
    settled cells (Function.update inFlight k (some f)) =
      Function.update (settled cells inFlight) k (f (cells k)) := by
  funext j
  by_cases hj : j = k
  · subst hj
    rw [Function.update_self]
    unfold settled
    rw [Function.update_self]
    rfl
  · rw [Function.update_of_ne hj]
    unfold settled
    rw [Function.update_of_ne hj]

/-- A write to a cell without an update in flight. -/
theorem settled_set (h : inFlight k = none) (a : α) :
    settled (Function.update cells k a) inFlight =
      Function.update (settled cells inFlight) k a := by
  funext j
  by_cases hj : j = k
  · subst hj
    rw [Function.update_self, settled_free h, Function.update_self]
  · rw [Function.update_of_ne hj]
    unfold settled
    rw [Function.update_of_ne hj]

end Cells

section Bytes

variable {w : Nat} {m : Memory} {inFlight : Fin N → Option (List UInt8)} {k : Fin N}
  {bs : List UInt8}

/-- Addresses of other blocks are outside of a write that fits its block. -/
theorem outside_block {x : Nat} (hlen : bs.length ≤ w) (hx : x / w ≠ k) :
    x < k * w ∨ k * w + bs.length ≤ x := by
  obtain rfl | hw := Nat.eq_zero_or_pos w
  · right
    omega
  · obtain hlt | hgt := Nat.lt_or_gt_of_ne hx
    · left
      exact (Nat.div_lt_iff_lt_mul hw).mp hlt
    · right
      have hle : (k + 1) * w ≤ x / w * w := Nat.mul_le_mul_right w hgt
      have hdiv := Nat.div_mul_le_self x w
      rw [Nat.add_mul, Nat.one_mul] at hle
      omega

/-- What a write to the start of a block leaves at an address of the block. -/
theorem write_block {x : Nat} (hx : x / w = k) :
    m.write (k * w) bs x = (bs[x % w]?).getD (m x) := by
  have hdiv := Nat.div_mul_le_self x w
  have hmod := Nat.div_add_mod' x w
  rw [hx] at hdiv hmod
  unfold Memory.write
  rw [if_pos hdiv, show x - k * w = x % w by omega]

/-- Carrying out a write changes no settled byte. -/
theorem settledBytes_finish (h : inFlight k = some bs) (hlen : bs.length ≤ w) :
    settledBytes w (m.write (k * w) bs) (Function.update inFlight k none) =
      settledBytes w m inFlight := by
  funext x
  unfold settledBytes
  by_cases hx : x / w = k
  · have hk : (⟨x / w, hx ▸ k.isLt⟩ : Fin N) = k := Fin.ext hx
    rw [dif_pos (hx ▸ k.isLt), dif_pos (hx ▸ k.isLt), hk, Function.update_self, h]
    exact write_block hx
  · rw [m.write_outside (k * w) bs (outside_block hlen hx)]
    by_cases hN : x / w < N
    · rw [dif_pos hN, dif_pos hN, Function.update_of_ne fun heq => hx (congrArg Fin.val heq)]
    · rw [dif_neg hN, dif_neg hN]

/-- Starting a write carries it out on the settled memory. -/
theorem settledBytes_begin (h : inFlight k = none) (hlen : bs.length ≤ w) :
    settledBytes w m (Function.update inFlight k (some bs)) =
      (settledBytes w m inFlight).write (k * w) bs := by
  funext x
  by_cases hx : x / w = k
  · have hk : (⟨x / w, hx ▸ k.isLt⟩ : Fin N) = k := Fin.ext hx
    rw [write_block hx]
    unfold settledBytes
    rw [dif_pos (hx ▸ k.isLt), dif_pos (hx ▸ k.isLt), hk, Function.update_self, h]
    rfl
  · rw [Memory.write_outside _ (k * w) bs (outside_block hlen hx)]
    unfold settledBytes
    by_cases hN : x / w < N
    · rw [dif_pos hN, dif_pos hN, Function.update_of_ne fun heq => hx (congrArg Fin.val heq)]
    · rw [dif_neg hN, dif_neg hN]

end Bytes

section Taken

variable [Fintype ι] [DecidableEq ι] {f : ι → Option α} {k : ι}

/-- The number of cells in flight. -/
def taken (f : ι → Option α) : Nat := (Finset.univ.filter fun k => (f k).isSome = true).card

omit [DecidableEq ι] in
theorem taken_eq_zero : taken f = 0 ↔ ∀ k, f k = none := by
  unfold taken
  rw [Finset.card_eq_zero, Finset.filter_eq_empty_iff]
  simp

theorem taken_update_none (h : f k ≠ none) : taken (Function.update f k none) + 1 = taken f := by
  have hmem : k ∈ Finset.univ.filter fun k => (f k).isSome = true := by
    simpa [Option.isSome_iff_ne_none] using h
  have herase : (Finset.univ.filter fun j => (Function.update f k none j).isSome = true) =
      (Finset.univ.filter fun j => (f j).isSome = true).erase k := by
    ext j
    by_cases hj : j = k <;> simp [hj]
  unfold taken
  rw [herase]
  exact Finset.card_erase_add_one hmem

theorem taken_update_some (h : f k = none) (a : α) :
    taken (Function.update f k (some a)) = taken f + 1 := by
  have hfree : Function.update (Function.update f k (some a)) k none = f := by
    rw [Function.update_idem, ← h, Function.update_eq_self]
  have htaken : Function.update f k (some a) k ≠ none := by simp
  rw [← taken_update_none htaken, hfree]

end Taken

end Foundation
