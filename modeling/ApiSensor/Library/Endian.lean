import Mathlib.Algebra.Ring.Nat
import Mathlib.Logic.Basic

/-!
# Little-endian integers

Fixed-width integers as lists of bytes, least significant byte first.
-/

namespace Library

/-- The lowest `width` bytes of a number. -/
def toLe : Nat → Nat → List UInt8
  | 0, _ => []
  | width + 1, value => UInt8.ofNat value :: toLe width (value / 256)

def fromLe : List UInt8 → Nat
  | [] => 0
  | byte :: rest => byte.toNat + 256 * fromLe rest

@[simp]
theorem length_toLe (width value : Nat) : (toLe width value).length = width := by
  induction width generalizing value with
  | zero => rfl
  | succ width induction => rw [toLe, List.length_cons, induction]

theorem fromLe_toLe (width value : Nat) : fromLe (toLe width value) = value % 256 ^ width := by
  induction width generalizing value with
  | zero => rw [toLe, fromLe, Nat.pow_zero, Nat.mod_one]
  | succ width induction =>
    rw [toLe, fromLe, induction, Nat.pow_succ', Nat.mod_mul, UInt8.toNat_ofNat']

end Library
