import Mathlib.Data.UInt

/-!
# Numbers made of bit fields

A record packed into one number is read and written with masks and shifts. In `ℕ` these are
remainders, quotients and multiples of powers of two, and fields that do not overlap are added. Once
a packing is written that way, everything about it is arithmetic.

## Main results

* `Nat.or_mul_two_pow` — a field above another one
* `Nat.and_mul_two_pow` — a mask that clears the low bits
-/

namespace Nat

/-- **A field above another one.** -/
theorem or_mul_two_pow {a k : ℕ} (ha : a < 2 ^ k) (b : ℕ) : a ||| b * 2 ^ k = a + b * 2 ^ k := by
  rw [Nat.or_comm, Nat.mul_comm, ← Nat.two_pow_add_eq_or_of_lt ha, Nat.add_comm]

/-- **A mask that clears the low bits** goes by the quotient. -/
theorem and_mul_two_pow (x m k : ℕ) : x &&& m * 2 ^ k = (x / 2 ^ k &&& m) * 2 ^ k := by
  refine Nat.eq_of_testBit_eq fun i => ?_
  rw [Nat.testBit_and, Nat.testBit_mul_two_pow, Nat.testBit_mul_two_pow, Nat.testBit_and,
    Nat.testBit_div_two_pow]
  by_cases hi : k ≤ i
  · rw [Nat.sub_add_cancel hi]
    cases x.testBit i <;> simp
  · simp [hi]

end Nat
