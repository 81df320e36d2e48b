import Mathlib.Algebra.Order.Round
import Mathlib.Data.List.TakeWhile
import Mathlib.Data.Rat.Floor
import Mathlib.Tactic

/-- Texts as sequences of characters. -/
abbrev Text := List Char

/-- The characters of a literal. Irreducible, since to unfold a literal is to
decode its bytes. -/
@[irreducible]
def chars (literal : String) : Text := literal.toList

theorem chars_ofList (s : Text) : chars (String.ofList s) = s := by
  unfold chars
  exact String.toList_ofList

namespace Decimals

/-- The zeros of the runs of ten decimal digits, category Nd of Unicode 14. -/
def zeros : List Nat :=
  [0x30, 0x660, 0x6f0, 0x7c0, 0x966, 0x9e6, 0xa66, 0xae6, 0xb66, 0xbe6, 0xc66, 0xce6, 0xd66, 0xde6, 0xe50,
   0xed0, 0xf20, 0x1040, 0x1090, 0x17e0, 0x1810, 0x1946, 0x19d0, 0x1a80, 0x1a90, 0x1b50, 0x1bb0, 0x1c40,
   0x1c50, 0xa620, 0xa8d0, 0xa900, 0xa9d0, 0xa9f0, 0xaa50, 0xabf0, 0xff10, 0x104a0, 0x10d30, 0x11066, 0x110f0,
   0x11136, 0x111d0, 0x112f0, 0x11450, 0x114d0, 0x11650, 0x116c0, 0x11730, 0x118e0, 0x11950, 0x11c50, 0x11d50,
   0x11da0, 0x16a60, 0x16ac0, 0x16b50, 0x1d7ce, 0x1d7d8, 0x1d7e2, 0x1d7ec, 0x1d7f6, 0x1e140, 0x1e2f0, 0x1e950,
   0x1fbf0]

/-- The zero of the run a decimal digit stands in. -/
def digitZero (c : Char) : Option Nat := zeros.find? fun z => decide (z ≤ c.toNat) && decide (c.toNat < z + 10)

def isDecimal (c : Char) : Bool := (digitZero c).isSome

def digitValue (c : Char) : Nat := (digitZero c).elim 0 (c.toNat - ·)

def digitsValue (s : Text) : Nat := s.foldl (fun n c => 10 * n + digitValue c) 0

/-- The number that digits with an optional point denote. -/
def unsignedValue (s : Text) : ℚ :=
  digitsValue (s.takeWhile (· != '.') ++ (s.dropWhile (· != '.')).drop 1) /
    10 ^ ((s.dropWhile (· != '.')).drop 1).length

/-- The number that a decimal text denotes. -/
def value : Text → ℚ
  | '-' :: s => -unsignedValue s
  | s => unsignedValue s

def natText (n : Nat) : Text := Nat.toDigits 10 n

def intText (z : Int) : Text := if z < 0 then '-' :: natText z.natAbs else natText z.natAbs

/-- The last digits of a number, with leading zeros. -/
def padded : Nat → Nat → Text
  | 0, _ => []
  | places + 1, n => padded places (n / 10) ++ [Nat.digitChar (n % 10)]

/-- A number of units of the last decimal place, written with the point. -/
def pointed (places n : Nat) : Text := natText (n / 10 ^ places) ++ '.' :: padded places n

/-- Fixed-point output with a positive number of decimals, rounded to nearest
with ties away from zero. -/
def fixed (places : Nat) (q : ℚ) : Text :=
  if q < 0 then '-' :: pointed places (round (-q * 10 ^ places)).toNat
  else pointed places (round (q * 10 ^ places)).toNat

/-- A nonempty run of ASCII digits. -/
structure Digits (s : Text) : Prop where
  nonempty : s ≠ []
  all : ∀ c ∈ s, c.isDigit

theorem toNat_of_isDigit {c : Char} (digit : c.isDigit) : 48 ≤ c.toNat ∧ c.toNat ≤ 57 := by
  simp only [Char.isDigit, Bool.and_eq_true, decide_eq_true_eq] at digit
  exact ⟨UInt32.le_iff_toNat_le.mp digit.1, UInt32.le_iff_toNat_le.mp digit.2⟩

theorem digitZero_of_isDigit {c : Char} (digit : c.isDigit) : digitZero c = some 48 := by
  have range := toNat_of_isDigit digit
  have here : (decide (48 ≤ c.toNat) && decide (c.toNat < 48 + 10)) = true := by
    simp only [Bool.and_eq_true, decide_eq_true_eq]
    omega
  exact List.find?_cons_of_pos here

theorem isDecimal_of_isDigit {c : Char} (digit : c.isDigit) : isDecimal c = true := by
  simp [isDecimal, digitZero_of_isDigit digit]

theorem digitsValue_of_digits {s : Text} (digits : ∀ c ∈ s, c.isDigit) :
    digitsValue s = Nat.ofDigitChars 10 s 0 := by
  unfold digitsValue Nat.ofDigitChars
  refine List.foldl_ext _ _ 0 fun n c member => ?_
  simp [digitValue, digitZero_of_isDigit (digits c member)]

theorem digitChar_isDigit (n : Nat) : (Nat.digitChar (n % 10)).isDigit = true := by
  have small : n % 10 < 10 := Nat.mod_lt _ (by decide)
  interval_cases n % 10 <;> rfl

theorem natText_digits (n : Nat) : Digits (natText n) where
  nonempty := Nat.toDigits_ne_nil
  all _ member := Nat.isDigit_of_mem_toDigits (by decide) (by decide) member

theorem padded_isDigit (places n : Nat) : ∀ c ∈ padded places n, c.isDigit := by
  induction places generalizing n with
  | zero => simp [padded]
  | succ places ih =>
    intro c member
    rcases List.mem_append.mp member with before | last
    · exact ih _ c before
    · rw [List.mem_singleton.mp last]
      exact digitChar_isDigit n

theorem padded_length (places n : Nat) : (padded places n).length = places := by
  induction places generalizing n with
  | zero => rfl
  | succ places ih => simp [padded, ih]

theorem padded_digits (places n : Nat) : Digits (padded (places + 1) n) where
  nonempty := by simp [padded]
  all := padded_isDigit _ n

theorem ofDigitChars_padded (places n start : Nat) :
    Nat.ofDigitChars 10 (padded places n) start = start * 10 ^ places + n % 10 ^ places := by
  induction places generalizing n with
  | zero => simp [padded, Nat.mod_one]
  | succ places ih =>
    have small : n % 10 < 10 := Nat.mod_lt _ (by decide)
    rw [padded, Nat.ofDigitChars_append, ih, Nat.ofDigitChars_cons_digitChar_of_lt_ten small, Nat.ofDigitChars_nil,
      pow_succ', Nat.mod_mul]
    ring

theorem value_of_digits {s : Text} (digits : Digits s) (rest : Text) :
    value (s ++ rest) = unsignedValue (s ++ rest) := by
  obtain ⟨nonempty, all⟩ := digits
  cases s with
  | nil => exact absurd rfl nonempty
  | cons c s =>
    have digit := all c (List.mem_cons_self ..)
    unfold value
    split
    · rename_i same
      obtain ⟨rfl, -⟩ := List.cons.inj same
      exact absurd digit (by decide)
    · rfl

theorem point_absent {s : Text} (digits : Digits s) : ∀ c ∈ s, (c != '.') = true := by
  intro c member
  have digit := digits.all c member
  rw [bne_iff_ne]
  rintro rfl
  exact absurd digit (by decide)

theorem value_natText (n : Nat) : value (natText n) = n := by
  have digits := natText_digits n
  have signless := value_of_digits digits []
  have whole := List.takeWhile_eq_self_iff.mpr (point_absent digits)
  have fraction := List.dropWhile_eq_nil_iff.mpr (point_absent digits)
  rw [List.append_nil] at signless
  rw [signless, unsignedValue, whole, fraction, List.drop_nil, List.append_nil, digitsValue_of_digits digits.all,
    natText, Nat.ofDigitChars_ten_toDigits]
  simp

theorem value_pointed (places n : Nat) : value (pointed places n) = n / 10 ^ places := by
  have digits := natText_digits (n / 10 ^ places)
  have all : ∀ c ∈ natText (n / 10 ^ places) ++ padded places n, c.isDigit := by
    intro c member
    exact (List.mem_append.mp member).elim (digits.all c) (padded_isDigit places n c)
  have units : digitsValue (natText (n / 10 ^ places) ++ padded places n) = n := by
    rw [digitsValue_of_digits all, Nat.ofDigitChars_append, natText, Nat.ofDigitChars_ten_toDigits,
      ofDigitChars_padded, Nat.div_add_mod']
  rw [pointed, value_of_digits digits, unsignedValue, List.takeWhile_append_of_pos (point_absent digits),
    List.dropWhile_append_of_pos (point_absent digits)]
  simp only [bne_self_eq_false, Bool.false_eq_true, not_false_eq_true, List.takeWhile_cons_of_neg,
    List.dropWhile_cons_of_neg, List.append_nil, List.drop_succ_cons, List.drop_zero, padded_length, units]

theorem value_fixed {q : ℚ} (nonneg : 0 ≤ q) (places : Nat) :
    value (fixed places q) = round (q * 10 ^ places) / 10 ^ places := by
  have positive : 0 ≤ round (q * 10 ^ places) := by
    rw [round_eq]
    exact Int.floor_nonneg.mpr (by positivity)
  rw [fixed, if_neg (not_lt.mpr nonneg), value_pointed]
  congr 1
  exact_mod_cast Int.toNat_of_nonneg positive

end Decimals
