import Mathlib.Tactic.TypeStar

/-!
# Wrap-around 32-bit arithmetic

The value of a 32-bit unsigned variable is a natural number below `2 ^ 32`. `uint32` is the
reduction that every assignment makes; `uint32Sub` is unsigned subtraction. The value of a signed
one is an integer, which `wrapInt32` reduces in two's complement.
-/

namespace Foundation

/-- The value that a 32-bit unsigned variable keeps of `n`. -/
def uint32 (n : Nat) : Nat := n % 4294967296

/-- Unsigned 32-bit subtraction. -/
def uint32Sub (a b : Nat) : Nat := (a + (4294967296 - b)) % 4294967296

/-- The value that a 32-bit signed variable keeps of `n`. -/
def wrapInt32 (n : Int) : Int := n.bmod 4294967296

theorem uint32_of_lt {n : Nat} (h : n < 4294967296) : uint32 n = n := Nat.mod_eq_of_lt h

theorem uint32Sub_of_le {a b : Nat} (hb : b ≤ a) (ha : a < 4294967296) :
    uint32Sub a b = a - b := by
  unfold uint32Sub
  omega

theorem wrapInt32_of_fits {n : Int} (h0 : -2147483648 ≤ n) (h1 : n ≤ 2147483647) :
    wrapInt32 n = n :=
  Int.bmod_eq_of_le (by omega) (by omega)

end Foundation
