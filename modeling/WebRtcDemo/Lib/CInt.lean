import Mathlib.Tactic

/-! Two's complement `int` of 32 bits and `size_t` of 64 bits. -/

namespace CInt

/-- The largest `int`. -/
def maxInt : Int := 2 ^ 31 - 1

/-- The result of an `int` operation. -/
def wrap (x : Int) : Int := Int.bmod x (2 ^ 32)

/-- Conversion to `size_t`. -/
def toSize (x : Int) : Nat := (x % 2 ^ 64).toNat

/-- The result of a `size_t` operation. -/
def wrapSize (x : Nat) : Nat := x % 2 ^ 64

/-- A positive value of type `int`. -/
abbrev Positive : Type := { x : Int // 0 < x ∧ x ≤ maxInt }

theorem wrap_of_bounds {x : Int} (low : -2 ^ 31 ≤ x) (high : x < 2 ^ 31) : wrap x = x := by
  unfold wrap
  exact Int.bmod_eq_of_le (by omega) (by omega)

/-- A sum of sizes does not wrap, however it is bracketed, if it is an `int`. -/
theorem wrap_sum {a b c : Int} (first : 0 ≤ a) (second : 0 ≤ b) (third : 0 ≤ c) (total : a + b + c < 2 ^ 31) :
    wrap (wrap (a + wrap b) + wrap c) = a + b + c ∧ wrap (a + wrap (wrap b + wrap c)) = a + (b + c) := by
  rw [wrap_of_bounds (x := b) (by omega) (by omega), wrap_of_bounds (x := c) (by omega) (by omega),
    wrap_of_bounds (x := a + b) (by omega) (by omega), wrap_of_bounds (x := b + c) (by omega) (by omega)]
  exact ⟨wrap_of_bounds (by omega) (by omega), wrap_of_bounds (by omega) (by omega)⟩

theorem cast_toSize (x : Int) : (toSize x : Int) = x % 2 ^ 64 := by
  unfold toSize
  rw [Int.toNat_of_nonneg (Int.emod_nonneg _ (by decide))]

/-- `size_t` arithmetic is that of the integers modulo `2 ^ 64`. -/
theorem cast_wrapSize_mul (a b : Int) : (wrapSize (toSize a * toSize b) : Int) = a * b % 2 ^ 64 := by
  unfold wrapSize
  rw [Int.natCast_emod, Int.natCast_mul, cast_toSize, cast_toSize]
  exact (Int.mul_emod a b (2 ^ 64)).symm

theorem cast_wrapSize_add {m n : Nat} {a b : Int} (left : (m : Int) = a % 2 ^ 64) (right : (n : Int) = b % 2 ^ 64) :
    (wrapSize (m + n) : Int) = (a + b) % 2 ^ 64 := by
  unfold wrapSize
  rw [Int.natCast_emod, Int.natCast_add, left, right]
  exact (Int.add_emod a b (2 ^ 64)).symm

end CInt
