import Mathlib.Tactic

/-! Byte memory and the copies of rows between two of them. The source is
addressed from a base pointer, on both sides of it. -/

namespace Memory

/-- `memcpy` of `n` bytes at `start` of the source to `place` of the destination. -/
def memcpy (src : Int → UInt8) (start : Int) (dst : Nat → UInt8) (place n : Nat) : Nat → UInt8 :=
  fun k => if place ≤ k ∧ k < place + n then src (start + ↑(k - place)) else dst k

/-- A loop of `memcpy` over rows that have another distance on each side. -/
def copyRows (src : Int → UInt8) (start srcStride : Int) (dstStride n : Nat) : Nat → (Nat → UInt8) → Nat → UInt8
  | 0, dst => dst
  | rows + 1, dst =>
    memcpy src (start + rows * srcStride) (copyRows src start srcStride dstStride n rows dst) (rows * dstStride) n

/-- An index that the copy of rows reads. -/
def RowRead (start srcStride : Int) (n rows : Nat) (i : Int) : Prop :=
  ∃ x y : Nat, x < n ∧ y < rows ∧ i = start + y * srcStride + x

variable {src : Int → UInt8} {start srcStride : Int} {dstStride n rows x y : Nat} {dst : Nat → UInt8}

theorem copyRows_inside (fits : n ≤ dstStride) (column : x < n) (row : y < rows) :
    copyRows src start srcStride dstStride n rows dst (y * dstStride + x) = src (start + y * srcStride + x) := by
  induction rows with
  | zero => cases row
  | succ rows ih =>
    rw [copyRows, memcpy]
    rcases Nat.lt_succ_iff_lt_or_eq.mp row with earlier | rfl
    · have below : (y + 1) * dstStride ≤ rows * dstStride := Nat.mul_le_mul_right _ earlier
      rw [Nat.succ_mul] at below
      rw [if_neg (by omega), ih earlier]
    · rw [if_pos (by omega), Nat.add_sub_cancel_left]

/-- What lies between the rows of the destination stays. -/
theorem copyRows_outside (beyond : n ≤ x) (column : x < dstStride) :
    copyRows src start srcStride dstStride n rows dst (y * dstStride + x) = dst (y * dstStride + x) := by
  induction rows with
  | zero => rfl
  | succ rows ih =>
    rw [copyRows, memcpy, if_neg, ih]
    rintro ⟨after, before⟩
    rcases Nat.lt_trichotomy y rows with less | rfl | more
    · have below : (y + 1) * dstStride ≤ rows * dstStride := Nat.mul_le_mul_right _ less
      rw [Nat.succ_mul] at below
      omega
    · omega
    · have above : (rows + 1) * dstStride ≤ y * dstStride := Nat.mul_le_mul_right _ more
      rw [Nat.succ_mul] at above
      omega

theorem RowRead.bounds {i : Int} (ordered : 0 ≤ srcStride) (read : RowRead start srcStride n rows i) :
    start ≤ i ∧ i < start + (rows - 1) * srcStride + n := by
  obtain ⟨x, y, column, row, rfl⟩ := read
  have low : 0 ≤ (y : Int) * srcStride := Int.mul_nonneg (by omega) ordered
  have high : (y : Int) * srcStride ≤ (rows - 1) * srcStride := Int.mul_le_mul_of_nonneg_right (by omega) ordered
  omega

theorem RowRead.inside {i : Int} (fits : n ≤ srcStride) (read : RowRead start srcStride n rows i) :
    start ≤ i ∧ i < start + rows * srcStride := by
  obtain ⟨low, high⟩ := read.bounds (by omega)
  rw [Int.sub_mul, Int.one_mul] at high
  omega

theorem RowRead.last (some : 0 < n) (row : 0 < rows) :
    RowRead start srcStride n rows (start + (rows - 1) * srcStride + (n - 1)) := by
  refine ⟨n - 1, rows - 1, by omega, by omega, ?_⟩
  rw [Nat.cast_sub (by omega), Nat.cast_sub (by omega), Nat.cast_one]

end Memory
