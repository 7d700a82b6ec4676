import Mathlib.Algebra.Group.Nat.Defs
import Mathlib.Algebra.Ring.Int.Defs

/-!
# Signed 64-bit arithmetic

Sums and differences of 64-bit integers are those of the integers **up to a multiple of `2 ^ 64`**;
`wrap64` picks the representative a machine holds. Where the exact result fits, nothing happens
(`wrap64_eq`), and a computation on numbers of known size is the one on integers.
-/

namespace Wrapping

/-- What a 64-bit register holds after an operation whose exact result is `x`. -/
def wrap64 (x : Int) : Int := x.bmod (2 ^ 64)

def minInt64 : Int := -2 ^ 63

def maxInt64 : Int := 2 ^ 63 - 1

theorem wrap64_eq {x : Int} (hmin : minInt64 ≤ x) (hmax : x ≤ maxInt64) : wrap64 x = x := by
  unfold minInt64 at hmin
  unfold maxInt64 at hmax
  apply Int.bmod_eq_of_le <;> omega

@[simp] theorem wrap64_wrap64_add (x y : Int) : wrap64 (wrap64 x + y) = wrap64 (x + y) :=
  Int.bmod_add_bmod

@[simp] theorem wrap64_wrap64_sub (x y : Int) : wrap64 (wrap64 x - y) = wrap64 (x - y) :=
  Int.bmod_sub_bmod

end Wrapping
