import Mathlib.Tactic
import WspaceScout.Foundation.Memory

/-!
# Unsigned members of an object in memory

A member is a range of bytes that holds an unsigned number, low byte first. Setting a member is
read back modulo its size (`Field.get_set_self`) and leaves the members beside it alone
(`Field.get_set_of_disjoint`).
-/

namespace Foundation

/-- The `w` bytes of `n`, low byte first. -/
def leBytes : (w n : Nat) → List UInt8
  | 0, _ => []
  | w + 1, n => UInt8.ofNat n :: leBytes w (n / 256)

/-- The number with the given bytes, low byte first. -/
def leValue : List UInt8 → Nat
  | [] => 0
  | b :: bs => b.toNat + 256 * leValue bs

@[simp]
theorem length_leBytes (w n : Nat) : (leBytes w n).length = w := by
  induction w generalizing n with
  | zero => rfl
  | succ w ih => rw [leBytes, List.length_cons, ih]

theorem leValue_leBytes (w n : Nat) : leValue (leBytes w n) = n % 256 ^ w := by
  induction w generalizing n with
  | zero => rw [leBytes, leValue, Nat.pow_zero, Nat.mod_one]
  | succ w ih =>
    have hbyte : (UInt8.ofNat n).toNat = n % 256 := UInt8.toNat_ofNat'
    rw [leBytes, leValue, ih, hbyte, Nat.pow_succ', Nat.mod_mul]

theorem leValue_lt (bs : List UInt8) : leValue bs < 256 ^ bs.length := by
  induction bs with
  | nil => exact Nat.one_pos
  | cons b bs ih =>
    have hb : b.toNat < 256 := b.toNat_lt
    rw [leValue, List.length_cons, Nat.pow_succ']
    omega

/-- Numbers of the same size are equal only if their bytes are. -/
theorem leValue_inj {bs bs' : List UInt8} (hlen : bs.length = bs'.length)
    (h : leValue bs = leValue bs') : bs = bs' := by
  induction bs generalizing bs' with
  | nil => exact (List.length_eq_zero_iff.mp hlen.symm).symm
  | cons b bs ih =>
    cases bs' with
    | nil => cases hlen
    | cons b' bs' =>
      have hb : b.toNat < 256 := b.toNat_lt
      have hb' : b'.toNat < 256 := b'.toNat_lt
      rw [leValue, leValue] at h
      have hbyte : b = b' := UInt8.toNat_inj.mp (by omega)
      rw [hbyte, ih (Nat.succ.inj hlen) (by omega)]

/-- A member of `width` bytes at `offset`. -/
structure Field where
  offset : Nat
  width : Nat
  deriving DecidableEq, Repr

namespace Field

variable {f g : Field} {m m' : Memory}

/-- The value of a member. -/
def get (f : Field) (m : Memory) : Nat := leValue (m.read f.offset f.width)

/-- Assignment to a member. -/
def set (f : Field) (m : Memory) (n : Nat) : Memory := m.write f.offset (leBytes f.width n)

/-- The members share no byte. -/
def Disjoint (f g : Field) : Prop :=
  f.offset + f.width ≤ g.offset ∨ g.offset + g.width ≤ f.offset

instance (f g : Field) : Decidable (f.Disjoint g) := inferInstanceAs (Decidable (_ ∨ _))

theorem get_lt (f : Field) (m : Memory) : f.get m < 256 ^ f.width := by
  have h := leValue_lt (m.read f.offset f.width)
  rwa [Memory.length_read] at h

theorem get_set_self (f : Field) (m : Memory) (n : Nat) :
    f.get (f.set m n) = n % 256 ^ f.width := by
  have hread := m.read_write_self f.offset (leBytes f.width n)
  rw [length_leBytes] at hread
  rw [get, set, hread, leValue_leBytes]

theorem get_set_of_disjoint (h : f.Disjoint g) (m : Memory) (n : Nat) :
    f.get (g.set m n) = f.get m := by
  rw [get, get, set, Memory.read_write_of_disjoint]
  rwa [length_leBytes]

/-- Objects that agree on the bytes of a member agree on its value. -/
theorem get_congr (h : ∀ i, i < f.width → m (f.offset + i) = m' (f.offset + i)) :
    f.get m = f.get m' := congrArg leValue (Memory.read_congr h)

/-- A member that lies in a copied prefix has the value of the source. -/
theorem get_write_prefix {bs : List UInt8} (hin : f.offset + f.width ≤ bs.length)
    (m m' : Memory) : f.get (m.write 0 bs) = f.get (m'.write 0 bs) := by
  apply get_congr
  intro i hi
  have hlt : f.offset + i < bs.length := by omega
  have h := m.write_inside 0 bs hlt
  have h' := m'.write_inside 0 bs hlt
  rw [Nat.zero_add] at h h'
  rw [h, h']

/-- The value of a member changes with any of its bytes. -/
theorem eq_of_get_eq (h : f.get m = f.get m') {i : Nat} (hi : i < f.width) :
    m (f.offset + i) = m' (f.offset + i) := by
  have hread := leValue_inj (by rw [Memory.length_read, Memory.length_read]) h
  have hbyte := congrArg (fun l => l[i]?) hread
  simpa [Memory.read, List.getElem?_range hi] using hbyte

end Field

end Foundation
