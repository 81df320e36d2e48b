import Mathlib.Tactic
import Mathlib.Data.Nat.Digits.Defs

/-- Byte strings, as `std::string` and the sockets hold them. -/
abbrev Bytes := List UInt8

namespace ByteText

/-- The bytes of an ASCII literal. -/
def ascii (text : String) : Bytes := text.toList.map fun c => UInt8.ofNat c.toNat

/-- `std::string::find`: the index of the first occurrence of a pattern. -/
def find (pat : Bytes) : Bytes → Option Nat
  | [] => if pat.isEmpty then some 0 else none
  | c :: s => if pat.isPrefixOf (c :: s) then some 0 else (find pat s).map (· + 1)

def contains (pat s : Bytes) : Bool := (find pat s).isSome

/-- What follows the first occurrence of a pattern. -/
def after (pat s : Bytes) : Option Bytes := (find pat s).map fun p => s.drop (p + pat.length)

/-- The C string that starts at the first byte: everything before the first NUL. -/
def cString (s : Bytes) : Bytes := s.takeWhile (· != 0)

/-- The two texts differ at a place where both have a byte, so no
continuation of the second starts with the first. -/
def clash : Bytes → Bytes → Bool
  | p :: pat, c :: s => p != c || clash pat s
  | _, _ => false

theorem not_isPrefixOf_of_head {p c : UInt8} (different : p ≠ c) (pat s : Bytes) :
    (p :: pat).isPrefixOf (c :: s) = false := by
  simp only [List.isPrefixOf_cons_cons, beq_false_of_ne different, Bool.false_and]

theorem not_isPrefixOf_of_clash {pat s : Bytes} (apart : clash pat s = true) (rest : Bytes) :
    pat.isPrefixOf (s ++ rest) = false := by
  induction pat generalizing s with
  | nil => simp [clash] at apart
  | cons p pat ih =>
    cases s with
    | nil => simp [clash] at apart
    | cons c s =>
      simp only [clash, Bool.or_eq_true, bne_iff_ne] at apart
      simp only [List.cons_append, List.isPrefixOf_cons_cons, Bool.and_eq_false_iff, beq_eq_false_iff_ne]
      exact apart.imp_right ih

/-- No occurrence of the pattern starts in the first part, so the search goes
on in the rest. -/
def Passes (pat first rest : Bytes) : Prop :=
  find pat (first ++ rest) = (find pat rest).map (· + first.length)

theorem Passes.contains_eq {pat first rest : Bytes} (pass : Passes pat first rest) :
    contains pat (first ++ rest) = contains pat rest := by
  unfold contains
  rw [pass, Option.isSome_map]

theorem Passes.after_eq {pat first rest : Bytes} (pass : Passes pat first rest) :
    after pat (first ++ rest) = after pat rest := by
  unfold after
  rw [pass, Option.map_map]
  congr 1
  funext p
  rw [Function.comp_apply, show p + first.length + pat.length = first.length + (p + pat.length) by omega,
    List.drop_length_add_append]

theorem Passes.nil (pat rest : Bytes) : Passes pat [] rest := by
  simp [Passes]

/-- A pattern that clashes with every suffix of a literal is found only
after that literal, whatever follows it. -/
theorem Passes.of_clash {pat literal : Bytes}
    (apart : ∀ i < literal.length, clash pat (literal.drop i) = true) (rest : Bytes) :
    Passes pat literal rest := by
  induction literal with
  | nil => exact .nil pat rest
  | cons c literal ih =>
    have here := not_isPrefixOf_of_clash (apart 0 (by simp)) rest
    have there := ih fun i bound => by simpa using apart (i + 1) (by simpa using bound)
    unfold Passes at there ⊢
    simp only [List.drop_zero, List.cons_append] at here
    simp only [List.cons_append, find, here, Bool.false_eq_true, if_false, there, Option.map_map,
      List.length_cons]
    rfl

/-- Bytes that cannot start a pattern are passed over one by one. -/
theorem Passes.of_head {p : UInt8} {pat skipped : Bytes} (absent : p ∉ skipped) (rest : Bytes) :
    Passes (p :: pat) skipped rest := by
  refine .of_clash (fun i bound => ?_) rest
  rw [List.drop_eq_getElem_cons bound]
  have different : p ≠ skipped[i] := fun same => absent (same ▸ List.getElem_mem bound)
  simp [clash, different]

theorem Passes.append {pat first second rest : Bytes} (here : Passes pat first (second ++ rest))
    (there : Passes pat second rest) : Passes pat (first ++ second) rest := by
  unfold Passes at here there ⊢
  rw [List.append_assoc, here, there, Option.map_map, List.length_append]
  congr 1
  funext p
  rw [Function.comp_apply]
  omega

theorem Passes.of_not_isPrefixOf {pat rest : Bytes} {c : UInt8} (apart : pat.isPrefixOf (c :: rest) = false) :
    Passes pat [c] rest := by
  unfold Passes
  simp only [List.singleton_append, find, apart, Bool.false_eq_true, if_false, List.length_singleton]

theorem find_self {pat : Bytes} (nonempty : pat ≠ []) (rest : Bytes) :
    find pat (pat ++ rest) = some 0 := by
  cases pat with
  | nil => exact absurd rfl nonempty
  | cons p pat =>
    have here : (p :: pat).isPrefixOf ((p :: pat) ++ rest) = true :=
      List.isPrefixOf_iff_prefix.mpr (List.prefix_append _ _)
    rw [List.cons_append] at here ⊢
    simp only [find, here, if_true]

theorem contains_self {pat : Bytes} (nonempty : pat ≠ []) (rest : Bytes) :
    contains pat (pat ++ rest) = true := by
  simp [contains, find_self nonempty]

theorem after_self {pat : Bytes} (nonempty : pat ≠ []) (rest : Bytes) :
    after pat (pat ++ rest) = some rest := by
  simp [after, find_self nonempty]

theorem contains_iff_isInfix {pat s : Bytes} : contains pat s = true ↔ pat <:+: s := by
  induction s with
  | nil =>
    rw [List.infix_nil]
    cases pat <;> simp [contains, find]
  | cons c s ih =>
    rw [List.infix_cons_iff, ← ih, ← List.isPrefixOf_iff_prefix]
    unfold contains
    rw [find]
    split
    · rename_i here
      simp [here]
    · rename_i here
      simp [here]

/-- A byte that ends a text is found there. -/
theorem idxOf?_terminator {s : Bytes} {c : UInt8} (absent : c ∉ s) (rest : Bytes) :
    (s ++ c :: rest).idxOf? c = some s.length := by
  refine List.idxOf?_eq_some_iff.mpr ⟨by simp, by simp, fun j before => ?_⟩
  rw [List.getElem_append_left before]
  exact fun same => absent (same ▸ List.getElem_mem before)

theorem cString_append {s t : Bytes} (absent : 0 ∉ s) : cString (s ++ t) = s ++ cString t := by
  induction s with
  | nil => rfl
  | cons c s ih =>
    simp only [List.mem_cons, not_or] at absent
    simp only [cString, List.cons_append, List.takeWhile_cons, bne_iff_ne, ne_eq, Ne.symm absent.1,
      not_false_eq_true, if_true]
    exact congrArg (c :: ·) (ih absent.2)

theorem zero_not_mem_cString (s : Bytes) : 0 ∉ cString s :=
  fun inside => absurd (List.all_eq_true.mp List.all_takeWhile 0 inside) (by decide)

theorem cString_self {s : Bytes} (absent : 0 ∉ s) : cString s = s := by
  simpa [cString] using cString_append (t := []) absent

/-! Decimal output of an integer and its reading by `atoi`. -/

def isSpace (c : UInt8) : Bool := c == 32 || (9 ≤ c && c ≤ 13)

def isDigit (c : UInt8) : Bool := 48 ≤ c && c ≤ 57

/-- The value of the leading decimal digits. -/
def digitsValue (s : Bytes) : Nat :=
  (s.takeWhile isDigit).foldl (fun n c => 10 * n + (c.toNat - 48)) 0

/-- An optional sign and the digits after it. -/
def signedValue : Bytes → Int
  | 45 :: digits => -(digitsValue digits : Int)
  | 43 :: digits => digitsValue digits
  | digits => digitsValue digits

/-- `strtol` in base 10 with a 64-bit `long`: white space, a sign, digits;
values out of range saturate. -/
def strtol (s : Bytes) : Int := max (-2 ^ 63) (min (2 ^ 63 - 1) (signedValue (s.dropWhile isSpace)))

/-- `atoi` as the C libraries implement it, the `int` conversion of `strtol`. -/
def atoi (s : Bytes) : Int32 := Int32.ofInt (strtol s)

def decimalNat (n : Nat) : Bytes :=
  if n = 0 then [48] else (Nat.digits 10 n).reverse.map fun d => UInt8.ofNat (48 + d)

/-- Stream output of an `int`. -/
def decimal (z : Int) : Bytes :=
  if z < 0 then 45 :: decimalNat z.natAbs else decimalNat z.natAbs

theorem decimalNat_digits (n : Nat) : ∀ c ∈ decimalNat n, 48 ≤ c ∧ c ≤ 57 := by
  unfold decimalNat
  split
  · simp
  · intro c member
    obtain ⟨d, inside, rfl⟩ := List.mem_map.mp member
    have small := Nat.digits_lt_base (by norm_num : 1 < 10) (List.mem_reverse.mp inside)
    constructor <;> rw [UInt8.le_iff_toNat_le] <;> simp <;> omega

theorem decimalNat_ne_nil (n : Nat) : decimalNat n ≠ [] := by
  unfold decimalNat
  split
  · simp
  · rename_i positive
    simp [Nat.digits_ne_nil_iff_ne_zero.mpr positive]

theorem foldl_ofDigits (digits : List Nat) (bound : ∀ d ∈ digits, d < 10) :
    ((digits.reverse.map fun d => UInt8.ofNat (48 + d)).foldl
      (fun n c => 10 * n + (c.toNat - 48)) 0) = Nat.ofDigits 10 digits := by
  induction digits with
  | nil => rfl
  | cons d digits ih =>
    have small := bound d (by simp)
    have tail := ih fun x inside => bound x (List.mem_cons_of_mem _ inside)
    simp only [List.reverse_cons, List.map_append, List.map_cons, List.map_nil, List.foldl_append,
      List.foldl_cons, List.foldl_nil, tail, Nat.ofDigits_cons, UInt8.toNat_ofNat']
    omega

/-- The digits end at the first byte that is none. -/
theorem takeWhile_digits {digits : Bytes} (all : ∀ c ∈ digits, 48 ≤ c ∧ c ≤ 57) {d : UInt8}
    (stop : isDigit d = false) (rest : Bytes) : (digits ++ d :: rest).takeWhile isDigit = digits := by
  rw [List.takeWhile_append_of_pos (fun c inside => by simpa [isDigit] using all c inside)]
  simp [stop]

theorem digitsValue_decimalNat (n : Nat) {d : UInt8} (stop : isDigit d = false) (rest : Bytes) :
    digitsValue (decimalNat n ++ d :: rest) = n := by
  unfold digitsValue
  rw [takeWhile_digits (decimalNat_digits n) stop]
  unfold decimalNat
  split
  · rename_i zero
    simp [zero]
  · rw [foldl_ofDigits _ fun d inside => Nat.digits_lt_base (by norm_num) inside, Nat.ofDigits_digits]

/-- Text that begins with a digit has no sign. -/
theorem signedValue_of_digit {c : UInt8} (first : 48 ≤ c) (rest : Bytes) :
    signedValue (c :: rest) = digitsValue (c :: rest) := by
  have notMinus : c ≠ 45 := by rintro rfl; exact absurd first (by decide)
  have notPlus : c ≠ 43 := by rintro rfl; exact absurd first (by decide)
  unfold signedValue
  split
  · rename_i same
    exact absurd (List.cons.inj same).1 notMinus
  · rename_i same
    exact absurd (List.cons.inj same).1 notPlus
  · rfl

theorem isSpace_of_sign_le {c : UInt8} (first : 45 ≤ c) : isSpace c = false := by
  have notBlank : c ≠ 32 := by rintro rfl; exact absurd first (by decide)
  have above : ¬c ≤ 13 := fun below => absurd (UInt8.le_trans first below) (by decide)
  simp [isSpace, notBlank, above]

theorem signedValue_decimalNat (n : Nat) {d : UInt8} (stop : isDigit d = false) (rest : Bytes) :
    signedValue (decimalNat n ++ d :: rest) = n := by
  have value := digitsValue_decimalNat n stop rest
  have digits := decimalNat_digits n
  cases shape : decimalNat n with
  | nil => exact absurd shape (decimalNat_ne_nil n)
  | cons c tail =>
    have first := (digits c (by simp [shape])).1
    rw [shape, List.cons_append] at value
    rw [List.cons_append, signedValue_of_digit first, value]

/-- A numeral: the minus sign may stand before any digits, also before a zero. -/
def numeral (negative : Bool) (magnitude : Nat) : Bytes :=
  if negative then 45 :: decimalNat magnitude else decimalNat magnitude

def numeralValue (negative : Bool) (magnitude : Nat) : Int :=
  if negative then -(magnitude : Int) else magnitude

theorem decimal_eq_numeral (z : Int) : decimal z = numeral (decide (z < 0)) z.natAbs := by
  simp [decimal, numeral]

theorem numeralValue_natAbs (z : Int) : numeralValue (decide (z < 0)) z.natAbs = z := by
  unfold numeralValue
  by_cases negative : z < 0
  · simp only [negative, decide_true, if_true]
    omega
  · simp only [negative, decide_false, Bool.false_eq_true, if_false]
    omega

/-- The bytes of a numeral lie between the sign and the digit nine. -/
theorem mem_numeral {b : UInt8} {negative : Bool} {magnitude : Nat} (member : b ∈ numeral negative magnitude) :
    45 ≤ b ∧ b ≤ 57 := by
  have digit : b ∈ decimalNat magnitude → 45 ≤ b ∧ b ≤ 57 := fun inside =>
    have bounds := decimalNat_digits _ _ inside
    ⟨UInt8.le_trans (by decide) bounds.1, bounds.2⟩
  cases negative with
  | false => exact digit member
  | true =>
    rcases List.mem_cons.mp member with rfl | inside
    · decide
    · exact digit inside

theorem numeral_excludes {b : UInt8} (below : b < 45) (negative : Bool) (magnitude : Nat) :
    b ∉ numeral negative magnitude :=
  fun member => absurd (mem_numeral member).1 (UInt8.not_le.mpr below)

theorem numeral_ne_nil (negative : Bool) (magnitude : Nat) : numeral negative magnitude ≠ [] := by
  cases negative with
  | false => exact decimalNat_ne_nil magnitude
  | true => exact List.cons_ne_nil _ _

/-- A sign or a digit is no white space, so `strtol` starts at the first byte. -/
theorem dropWhile_isSpace_numeral (negative : Bool) (magnitude : Nat) (rest : Bytes) :
    (numeral negative magnitude ++ rest).dropWhile isSpace = numeral negative magnitude ++ rest := by
  cases shape : numeral negative magnitude with
  | nil => exact absurd shape (numeral_ne_nil _ _)
  | cons c tail =>
    have first := (mem_numeral (b := c) (by rw [shape]; exact List.mem_cons_self)).1
    simp [isSpace_of_sign_le first]

theorem signedValue_numeral (negative : Bool) (magnitude : Nat) {d : UInt8} (stop : isDigit d = false)
    (rest : Bytes) : signedValue (numeral negative magnitude ++ d :: rest) = numeralValue negative magnitude := by
  cases negative with
  | false => exact signedValue_decimalNat magnitude stop rest
  | true =>
    change signedValue (45 :: (decimalNat magnitude ++ d :: rest)) = -(magnitude : Int)
    rw [signedValue, digitsValue_decimalNat magnitude stop]

/-- A numeral of 32 bits is read back by `atoi`, whatever follows its digits. -/
theorem atoi_numeral {negative : Bool} {magnitude : Nat} (lower : -2 ^ 31 ≤ numeralValue negative magnitude)
    (upper : numeralValue negative magnitude < 2 ^ 31) {d : UInt8} (stop : isDigit d = false) (rest : Bytes) :
    atoi (numeral negative magnitude ++ d :: rest) = Int32.ofInt (numeralValue negative magnitude) := by
  rw [atoi, strtol, dropWhile_isSpace_numeral, signedValue_numeral _ _ stop]
  congr 1
  omega

/-- Any `int` printed before a comma is read back. -/
theorem atoi_decimal (z : Int32) (rest : Bytes) : atoi (decimal z.toInt ++ 44 :: rest) = z := by
  have lower := z.le_toInt
  have upper := z.toInt_lt
  have value := numeralValue_natAbs z.toInt
  rw [decimal_eq_numeral, atoi_numeral (by omega) (by omega) (by decide), value, Int32.ofInt_toInt]

end ByteText
