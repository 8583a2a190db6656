import Mathlib.Data.List.Basic
import Mathlib.Tactic.TypeStar

/-!
# Byte-addressed memory

`Memory` is an unbounded array of bytes. `write` is `memcpy` into it and `read` is `memcpy` out of
it. A write is read back at its own address (`read_write_self`) and leaves every disjoint range
alone (`read_write_of_disjoint`).
-/

namespace Foundation

/-- The content of every address. -/
def Memory := Nat → UInt8

namespace Memory

/-- Copy `bs` to the addresses from `a` on. -/
def write (m : Memory) (a : Nat) (bs : List UInt8) : Memory := fun x =>
  if a ≤ x then (bs[x - a]?).getD (m x) else m x

/-- The `n` bytes from address `a` on. -/
def read (m : Memory) (a n : Nat) : List UInt8 := (List.range n).map fun i => m (a + i)

@[simp]
theorem length_read (m : Memory) (a n : Nat) : (m.read a n).length = n := by
  simp [read]

theorem getElem_read (m : Memory) (a n i : Nat) (h : i < (m.read a n).length) :
    (m.read a n)[i] = m (a + i) := by
  simp [read]

@[simp]
theorem write_nil (m : Memory) (a : Nat) : m.write a [] = m := by
  funext x
  simp [write]

theorem write_inside (m : Memory) (a : Nat) (bs : List UInt8) {i : Nat} (h : i < bs.length) :
    m.write a bs (a + i) = bs[i] := by
  have hle : a ≤ a + i := Nat.le_add_right a i
  simp [write, hle, h]

theorem write_outside (m : Memory) (a : Nat) (bs : List UInt8) {x : Nat}
    (h : x < a ∨ a + bs.length ≤ x) : m.write a bs x = m x := by
  obtain hlt | hge := h
  · exact if_neg (Nat.not_le_of_lt hlt)
  · have hle : a ≤ x := by omega
    have hnone : bs[x - a]? = none := List.getElem?_eq_none (by omega)
    simp [write, hle, hnone]

/-- Ranges with equal bytes read alike. -/
theorem read_congr {m m' : Memory} {a a' n : Nat} (h : ∀ i, i < n → m (a + i) = m' (a' + i)) :
    m.read a n = m'.read a' n :=
  List.map_congr_left fun i hi => h i (List.mem_range.mp hi)

/-- Equal reads have equal bytes. -/
theorem byte_of_read_eq {m m' : Memory} {a a' n i : Nat} (h : m.read a n = m'.read a' n)
    (hi : i < n) : m (a + i) = m' (a' + i) :=
  List.map_inj_left.mp h i (List.mem_range.mpr hi)

theorem read_write_self (m : Memory) (a : Nat) (bs : List UInt8) :
    (m.write a bs).read a bs.length = bs := by
  refine List.ext_getElem (length_read _ _ _) fun i hi hi' => ?_
  rw [getElem_read, m.write_inside a bs hi']

/-- Copying a range over itself changes nothing. -/
theorem write_read_self (m : Memory) (a n : Nat) : m.write a (m.read a n) = m := by
  funext x
  by_cases hin : a ≤ x ∧ x < a + n
  · have hlt : x - a < (m.read a n).length := by
      rw [length_read]
      omega
    have hx : a + (x - a) = x := by omega
    have h := m.write_inside a (m.read a n) hlt
    rwa [getElem_read, hx] at h
  · apply write_outside
    rw [length_read]
    omega

theorem read_write_of_disjoint (m : Memory) {a b n : Nat} (bs : List UInt8)
    (h : b + n ≤ a ∨ a + bs.length ≤ b) : (m.write a bs).read b n = m.read b n :=
  read_congr fun i hi => m.write_outside a bs (by omega)

/-- A shorter read is a prefix of a longer one. -/
theorem take_read (m : Memory) (a : Nat) {k n : Nat} (h : k ≤ n) :
    (m.read a n).take k = m.read a k := by
  refine List.ext_getElem (by simp [h]) fun i hi hi' => ?_
  rw [List.getElem_take, getElem_read, getElem_read]

end Memory

end Foundation
