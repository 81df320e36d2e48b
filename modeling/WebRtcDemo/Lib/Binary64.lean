import Mathlib.Data.Int.Log
import Mathlib.Algebra.Order.Round
import Mathlib.Data.Rat.Floor
import Mathlib.Tactic

/-! Binary64 arithmetic on rational values. An operation is the exact one
followed by a rounding to 53 significant bits, to nearest with ties to even.
The exponent is not bounded: overflow and subnormal numbers are left out. -/

namespace Binary64

/-- The nearest integer, ties to even. -/
def nearestEven (q : ℚ) : ℤ :=
  if q - ⌊q⌋ < 1 / 2 then ⌊q⌋
  else if 1 / 2 < q - ⌊q⌋ then ⌊q⌋ + 1
  else if ⌊q⌋ % 2 = 0 then ⌊q⌋ else ⌊q⌋ + 1

/-- The exponent of the last of the 53 significant bits. -/
def lastBit (q : ℚ) : ℤ := Int.log 2 |q| - 52

/-- The double nearest to a rational number. -/
def round64 (q : ℚ) : ℚ := nearestEven (q / 2 ^ lastBit q) * 2 ^ lastBit q

/-- Division of doubles. -/
def div64 (a b : ℚ) : ℚ := round64 (a / b)

theorem nearestEven_error (q : ℚ) : |(nearestEven q : ℚ) - q| ≤ 1 / 2 := by
  have below := Int.floor_le q
  have above := Int.lt_floor_add_one q
  unfold nearestEven
  rw [abs_le]
  split_ifs <;> push_cast <;> constructor <;> linarith

theorem nearestEven_of_near {q : ℚ} {n : ℤ} (near : |q - n| < 1 / 2) : nearestEven q = n := by
  have error := nearestEven_error q
  have apart : |((nearestEven q - n : ℤ) : ℚ)| < 1 := by
    push_cast
    calc |(nearestEven q : ℚ) - n| = |((nearestEven q : ℚ) - q) + (q - n)| := by ring_nf
      _ ≤ |(nearestEven q : ℚ) - q| + |q - n| := abs_add_le _ _
      _ < 1 := by linarith
  have zero : nearestEven q - n = 0 := Int.abs_lt_one_iff.mp (by exact_mod_cast apart)
  omega

theorem le_nearestEven {q : ℚ} {n : ℤ} (bound : (n : ℚ) ≤ q) : n ≤ nearestEven q := by
  have floor : n ≤ ⌊q⌋ := Int.le_floor.mpr bound
  unfold nearestEven
  split_ifs <;> omega

theorem nearestEven_le {q : ℚ} {n : ℤ} (bound : q ≤ n) : nearestEven q ≤ n := by
  by_contra beyond
  have step : (n : ℚ) + 1 ≤ nearestEven q := by exact_mod_cast not_le.mp beyond
  have error := (abs_le.mp (nearestEven_error q)).2
  linarith

theorem bit_pos (q : ℚ) : (0 : ℚ) < 2 ^ lastBit q := by positivity

theorem round64_error (q : ℚ) : |round64 q - q| ≤ 2 ^ lastBit q / 2 := by
  have bit := bit_pos q
  have error := nearestEven_error (q / 2 ^ lastBit q)
  have scaled : round64 q - q = (nearestEven (q / 2 ^ lastBit q) - q / 2 ^ lastBit q) * 2 ^ lastBit q := by
    unfold round64
    field_simp
  rw [scaled, abs_mul, abs_of_pos bit]
  nlinarith

/-- A value closer than half a bit to a multiple of its last bit rounds to it. -/
theorem round64_of_near {q : ℚ} {n : ℤ} (near : |q - n * 2 ^ lastBit q| < 2 ^ lastBit q / 2) :
    round64 q = n * 2 ^ lastBit q := by
  have bit := bit_pos q
  have scaled : q / 2 ^ lastBit q - n = (q - n * 2 ^ lastBit q) / 2 ^ lastBit q := by
    field_simp
  have close : |q / 2 ^ lastBit q - n| < 1 / 2 := by
    rw [scaled, abs_div, abs_of_pos bit, div_lt_iff₀ bit]
    linarith
  unfold round64
  rw [nearestEven_of_near close]

theorem le_lastBit {q : ℚ} {e : ℤ} (above : (2 : ℚ) ^ e ≤ q) : e - 52 ≤ lastBit q := by
  have positive : 0 < q := lt_of_lt_of_le (by positivity) above
  have least : e ≤ Int.log 2 q := (Int.zpow_le_iff_le_log (by norm_num) positive).mp (by exact_mod_cast above)
  unfold lastBit
  rw [abs_of_pos positive]
  omega

theorem lastBit_le {q : ℚ} {e : ℤ} (positive : 0 < q) (below : q < 2 ^ e) : lastBit q ≤ e - 53 := by
  have most : Int.log 2 q < e := (Int.lt_zpow_iff_log_lt (by norm_num) positive).mp (by exact_mod_cast below)
  unfold lastBit
  rw [abs_of_pos positive]
  omega

theorem lastBit_eq {q : ℚ} {e : ℤ} (above : (2 : ℚ) ^ e ≤ q) (below : q < 2 ^ (e + 1)) :
    lastBit q = e - 52 := by
  have least := le_lastBit above
  have most := lastBit_le (lt_of_lt_of_le (by positivity) above) below
  omega

/-- A power of two is a multiple of every smaller one. -/
theorem exists_mul_zpow {a b : ℤ} (le : a ≤ b) : ∃ n : ℤ, (2 : ℚ) ^ b = n * 2 ^ a := by
  refine ⟨2 ^ (b - a).toNat, ?_⟩
  have exponent : b = ((b - a).toNat : ℤ) + a := by omega
  nth_rewrite 1 [exponent]
  rw [zpow_add₀ (by norm_num)]
  push_cast
  rw [zpow_natCast]

theorem round64_of_multiple {q : ℚ} {n : ℤ} (multiple : q = n * 2 ^ lastBit q) : round64 q = q := by
  have bit := bit_pos q
  rw [round64_of_near (q := q) (n := n), ← multiple]
  rw [← multiple, sub_self, abs_zero]
  positivity

/-- The leading power of two in terms of the last bit. -/
theorem zpow_log_eq {q : ℚ} (positive : 0 < q) (k : ℕ) :
    (2 : ℚ) ^ (Int.log 2 q + k) = 2 ^ (52 + k) * 2 ^ lastBit q := by
  have exponent : Int.log 2 q + k = ((52 + k : ℕ) : ℤ) + lastBit q := by
    unfold lastBit
    rw [abs_of_pos positive]
    push_cast
    ring
  rw [exponent, zpow_add₀ (by norm_num), zpow_natCast]

/-- Rounding does not leave the powers of two around a value. -/
theorem round64_bounds {q : ℚ} (positive : 0 < q) :
    (2 : ℚ) ^ Int.log 2 q ≤ round64 q ∧ round64 q ≤ 2 ^ (Int.log 2 q + 1) := by
  have bit := bit_pos q
  have leading : (2 : ℚ) ^ Int.log 2 q ≤ q := by exact_mod_cast Int.zpow_log_le_self (by norm_num) positive
  have following : q < 2 ^ (Int.log 2 q + 1) := by
    exact_mod_cast Int.lt_zpow_succ_log_self (b := 2) (by norm_num) q
  have low := zpow_log_eq positive 0
  have high := zpow_log_eq positive 1
  simp only [Nat.cast_zero, Nat.cast_one, add_zero] at low high
  have least : (2 ^ 52 : ℤ) ≤ nearestEven (q / 2 ^ lastBit q) := by
    refine le_nearestEven ((le_div_iff₀ bit).mpr ?_)
    rw [Int.cast_pow, Int.cast_ofNat, ← low]
    exact leading
  have most : nearestEven (q / 2 ^ lastBit q) ≤ (2 ^ (52 + 1) : ℤ) := by
    refine nearestEven_le ((div_le_iff₀ bit).mpr ?_)
    rw [Int.cast_pow, Int.cast_ofNat, ← high]
    exact following.le
  rw [low, high]
  exact ⟨mul_le_mul_of_nonneg_right (by exact_mod_cast least) bit.le,
    mul_le_mul_of_nonneg_right (by exact_mod_cast most) bit.le⟩

theorem round64_nonneg {q : ℚ} (nonneg : 0 ≤ q) : 0 ≤ round64 q := by
  have bit := bit_pos q
  have mantissa : 0 ≤ nearestEven (q / 2 ^ lastBit q) := le_nearestEven (by exact_mod_cast div_nonneg nonneg bit.le)
  exact mul_nonneg (by exact_mod_cast mantissa) bit.le

theorem zpow_le_round64 {q : ℚ} {e : ℤ} (above : (2 : ℚ) ^ e ≤ q) : (2 : ℚ) ^ e ≤ round64 q := by
  have positive : 0 < q := lt_of_lt_of_le (by positivity) above
  have order : e ≤ Int.log 2 q := (Int.zpow_le_iff_le_log (by norm_num) positive).mp (by exact_mod_cast above)
  exact (zpow_le_zpow_right₀ (by norm_num) order).trans (round64_bounds positive).1

/-- A rounded value has no bits below its last one. -/
theorem round64_is_double {q : ℚ} (positive : 0 < q) : ∃ n : ℤ, round64 q = n * 2 ^ lastBit (round64 q) := by
  obtain ⟨above, below⟩ := round64_bounds positive
  rcases below.lt_or_eq with inside | carried
  · have same : lastBit (round64 q) = lastBit q := by
      rw [lastBit_eq above inside]
      unfold lastBit
      rw [abs_of_pos positive]
    rw [same]
    exact ⟨_, rfl⟩
  · -- all the bits were ones and the rounding carried into the next power of two
    have next : lastBit (round64 q) = Int.log 2 q + 1 - 52 :=
      lastBit_eq carried.ge (carried.trans_lt (zpow_lt_zpow_right₀ (by norm_num) (by omega)))
    rw [next, carried]
    exact exists_mul_zpow (by omega)

theorem round64_natCast {n : ℕ} (small : n ≤ 2 ^ 53) : round64 n = n := by
  rcases Nat.eq_zero_or_pos n with rfl | positive
  · simp [round64, nearestEven]
  rcases small.eq_or_lt with rfl | below
  · refine round64_of_multiple (n := 2 ^ 52) ?_
    rw [lastBit_eq (e := 53) (by norm_num) (by norm_num)]
    norm_num
  · have fine : lastBit (n : ℚ) ≤ 0 :=
      lastBit_le (e := 53) (by exact_mod_cast positive) (by exact_mod_cast below)
    obtain ⟨unit, whole⟩ := exists_mul_zpow fine
    refine round64_of_multiple (n := n * unit) ?_
    push_cast
    rw [mul_assoc, ← whole, zpow_zero, mul_one]

/-- A double that is written with enough decimals for its last bit reads back
as itself. -/
theorem round64_decimal {d : ℚ} {n : ℤ} (double : d = n * 2 ^ lastBit d) (large : 1 ≤ d) {places : ℕ}
    (enough : 1 / 10 ^ places < (2 : ℚ) ^ lastBit d) : round64 (round (d * 10 ^ places) / 10 ^ places) = d := by
  have positive : 0 < d := by linarith
  have scale : (0 : ℚ) < 10 ^ places := by positivity
  set t : ℚ := round (d * 10 ^ places) / 10 ^ places with written
  obtain ⟨e, whole⟩ : ∃ e : ℕ, Int.log 2 d = e :=
    Int.eq_ofNat_of_zero_le ((Int.zpow_le_iff_le_log (by norm_num) positive).mp (by simpa using large))
  have bit : lastBit d = e - 52 := by
    unfold lastBit
    rw [abs_of_pos positive, whole]
  have above : (2 : ℚ) ^ e ≤ d := by
    have leading := Int.zpow_log_le_self (b := 2) (by norm_num) positive
    rw [whole] at leading
    exact_mod_cast leading
  have below : d < 2 ^ (e + 1) := by
    have leading := Int.lt_zpow_succ_log_self (b := 2) (by norm_num) d
    rw [whole] at leading
    exact_mod_cast leading
  have near : |t - d| < 2 ^ lastBit d / 2 := by
    have error := abs_sub_round (d * 10 ^ places)
    have scaled : t - d = -((d * 10 ^ places - round (d * 10 ^ places)) / 10 ^ places) := by
      rw [written]
      field_simp
      ring
    rw [scaled, abs_neg, abs_div, abs_of_pos scale]
    calc |d * 10 ^ places - round (d * 10 ^ places)| / 10 ^ places ≤ 1 / 2 / 10 ^ places := by gcongr
      _ = 1 / 10 ^ places / 2 := by ring
      _ < 2 ^ lastBit d / 2 := by linarith
  have least : (2 : ℚ) ^ e ≤ t := by
    rw [written, le_div_iff₀ scale]
    have integer : ((2 ^ e * 10 ^ places : ℤ) : ℚ) ≤ d * 10 ^ places := by
      push_cast
      gcongr
    have rounded : (2 ^ e * 10 ^ places : ℤ) ≤ round (d * 10 ^ places) := by
      rw [round_eq]
      exact Int.le_floor.mpr (by linarith)
    exact_mod_cast rounded
  have most : t < 2 ^ (e + 1) := by
    have limit : (2 : ℚ) ^ (e + 1) = 2 ^ 53 * 2 ^ lastBit d := by
      have high := zpow_log_eq positive 1
      rw [whole] at high
      exact_mod_cast high
    have mantissa : n + 1 ≤ 2 ^ 53 := by
      have under : (n : ℚ) * 2 ^ lastBit d < 2 ^ 53 * 2 ^ lastBit d := by rwa [← double, ← limit]
      exact_mod_cast lt_of_mul_lt_mul_right under (bit_pos d).le
    have room : d + 2 ^ lastBit d ≤ 2 ^ (e + 1) := by
      calc d + 2 ^ lastBit d = (n + 1) * 2 ^ lastBit d := by linear_combination double
        _ ≤ 2 ^ 53 * 2 ^ lastBit d := mul_le_mul_of_nonneg_right (by exact_mod_cast mantissa) (bit_pos d).le
        _ = 2 ^ (e + 1) := limit.symm
    have apart := (abs_lt.mp near).2
    linarith [bit_pos d]
  have same : lastBit t = lastBit d := by
    rw [bit]
    exact lastBit_eq (by exact_mod_cast least) (by exact_mod_cast most)
  rw [round64_of_near (q := t) (n := n), same, ← double]
  rw [same, ← double]
  exact near

/-! Order. -/

theorem nearestEven_mono {a b : ℚ} (le : a ≤ b) : nearestEven a ≤ nearestEven b := by
  have floors : ⌊a⌋ ≤ ⌊b⌋ := Int.floor_le_floor le
  rcases floors.eq_or_lt with same | below
  · unfold nearestEven
    rw [same]
    split_ifs with h₁ h₂ h₃ h₄ h₅ <;> first | omega | (exfalso; linarith)
  · have last : nearestEven a ≤ ⌊a⌋ + 1 := nearestEven_le (by push_cast; exact (Int.lt_floor_add_one a).le)
    have first : ⌊b⌋ ≤ nearestEven b := le_nearestEven (Int.floor_le b)
    omega

theorem nearestEven_neg (q : ℚ) : nearestEven (-q) = -nearestEven q := by
  by_cases whole : (⌊q⌋ : ℚ) = q
  · have exact₁ : nearestEven q = ⌊q⌋ := le_antisymm (nearestEven_le whole.ge) (le_nearestEven whole.le)
    have negated : -q = ((-⌊q⌋ : ℤ) : ℚ) := by
      push_cast
      rw [whole]
    have exact₂ : nearestEven (-q) = -⌊q⌋ := le_antisymm (nearestEven_le negated.le) (le_nearestEven negated.ge)
    rw [exact₁, exact₂]
  · have below : (⌊q⌋ : ℚ) < q := lt_of_le_of_ne (Int.floor_le q) whole
    have floor : ⌊-q⌋ = -⌊q⌋ - 1 := by
      refine Int.floor_eq_iff.mpr ⟨?_, ?_⟩
      · push_cast
        linarith [Int.lt_floor_add_one q]
      · push_cast
        linarith
    unfold nearestEven
    rw [floor]
    push_cast
    split_ifs with h₁ h₂ h₃ h₄ h₅ h₆ h₇ h₈ <;> first | omega | (exfalso; linarith)

theorem lastBit_neg (q : ℚ) : lastBit (-q) = lastBit q := by
  unfold lastBit
  rw [abs_neg]

theorem round64_neg (q : ℚ) : round64 (-q) = -round64 q := by
  unfold round64
  rw [lastBit_neg, neg_div, nearestEven_neg]
  push_cast
  ring

theorem round64_mono_of_pos {a b : ℚ} (positive : 0 < a) (le : a ≤ b) : round64 a ≤ round64 b := by
  have positive' : 0 < b := positive.trans_le le
  have logs : Int.log 2 a ≤ Int.log 2 b := Int.log_mono_right positive le
  rcases logs.eq_or_lt with same | below
  · have bits : lastBit a = lastBit b := by
      unfold lastBit
      rw [abs_of_pos positive, abs_of_pos positive', same]
    unfold round64
    rw [bits]
    have bit := bit_pos b
    exact mul_le_mul_of_nonneg_right
      (by exact_mod_cast nearestEven_mono (div_le_div_of_nonneg_right le bit.le)) bit.le
  · calc round64 a ≤ 2 ^ (Int.log 2 a + 1) := (round64_bounds positive).2
      _ ≤ 2 ^ Int.log 2 b := zpow_le_zpow_right₀ (by norm_num) below
      _ ≤ round64 b := (round64_bounds positive').1

theorem round64_mono {a b : ℚ} (le : a ≤ b) : round64 a ≤ round64 b := by
  rcases lt_trichotomy 0 a with positive | zero | negative
  · exact round64_mono_of_pos positive le
  · have at_zero : round64 a = 0 := by
      rw [← zero]
      simp [round64, nearestEven]
    rw [at_zero]
    exact round64_nonneg (zero.le.trans le)
  · by_cases negative' : b < 0
    · have reflected := round64_mono_of_pos (neg_pos.mpr negative') (neg_le_neg le)
      rw [round64_neg, round64_neg] at reflected
      exact neg_le_neg_iff.mp reflected
    · have low := round64_nonneg (neg_nonneg.mpr negative.le)
      rw [round64_neg] at low
      exact (neg_nonneg.mp low).trans (round64_nonneg (not_lt.mp negative'))

/-- Doubles are the values that rounding leaves as they are. -/
def IsDouble (q : ℚ) : Prop := round64 q = q

theorem round64_zero : round64 0 = 0 := by simp [round64, nearestEven]

theorem isDouble_round64 (q : ℚ) : IsDouble (round64 q) := by
  have of_pos {q : ℚ} (positive : 0 < q) : IsDouble (round64 q) := by
    obtain ⟨n, multiple⟩ := round64_is_double positive
    exact round64_of_multiple multiple
  rcases lt_trichotomy 0 q with positive | zero | negative
  · exact of_pos positive
  · rw [← zero, round64_zero]
    exact round64_zero
  · have reflected := of_pos (neg_pos.mpr negative)
    unfold IsDouble at reflected ⊢
    rwa [round64_neg, round64_neg, neg_inj] at reflected

theorem lastBit_half {q : ℚ} (nonzero : q ≠ 0) : lastBit (q / 2) = lastBit q - 1 := by
  have positive : 0 < |q| := abs_pos.mpr nonzero
  have leading : (2 : ℚ) ^ Int.log 2 |q| ≤ |q| := by exact_mod_cast Int.zpow_log_le_self (by norm_num) positive
  have following : |q| < 2 ^ (Int.log 2 |q| + 1) := by
    exact_mod_cast Int.lt_zpow_succ_log_self (b := 2) (by norm_num) |q|
  have halved : lastBit (|q| / 2) = Int.log 2 |q| - 1 - 52 := by
    refine lastBit_eq ?_ ?_
    · rw [zpow_sub_one₀ (by norm_num)]
      linarith
    · rw [zpow_add_one₀ (by norm_num)] at following
      rw [sub_add_cancel]
      linarith
  have absolute : lastBit (q / 2) = lastBit (|q| / 2) := by
    unfold lastBit
    rw [abs_div, abs_div, abs_abs]
  rw [absolute, halved]
  unfold lastBit
  ring

/-- Halving is exact. -/
theorem round64_half (q : ℚ) : round64 (q / 2) = round64 q / 2 := by
  by_cases zero : q = 0
  · rw [zero, zero_div, round64_zero, zero_div]
  · unfold round64
    rw [lastBit_half zero, zpow_sub_one₀ (by norm_num)]
    have same : q / 2 / (2 ^ lastBit q * 2⁻¹) = q / 2 ^ lastBit q := by
      field_simp
    rw [same]
    ring

/-! Range: what keeps the results of operations away from overflow and from the
subnormal numbers. -/

theorem isDouble_zpow (e : ℤ) : IsDouble (2 ^ e) := by
  have bit : lastBit ((2 : ℚ) ^ e) = e - 52 := lastBit_eq le_rfl (zpow_lt_zpow_right₀ (by norm_num) (by omega))
  obtain ⟨n, multiple⟩ := exists_mul_zpow (show e - 52 ≤ e by omega)
  exact round64_of_multiple (bit ▸ multiple)

theorem round64_le_zpow {q : ℚ} {e : ℤ} (below : q ≤ 2 ^ e) : round64 q ≤ 2 ^ e :=
  (round64_mono below).trans_eq (isDouble_zpow e)

/-- Zero, or between two powers of two. -/
def Between (a b : ℤ) (q : ℚ) : Prop := q = 0 ∨ (2 : ℚ) ^ a ≤ q ∧ q ≤ 2 ^ b

namespace Between

variable {a b c d : ℤ} {q r : ℚ}

theorem nonneg (within : Between a b q) : 0 ≤ q := by
  rcases within with rfl | ⟨above, _⟩
  · exact le_rfl
  · exact (zpow_pos (by norm_num) a).le.trans above

theorem le_zpow (within : Between a b q) : q ≤ 2 ^ b := by
  rcases within with rfl | ⟨_, below⟩
  · exact (zpow_pos (by norm_num) b).le
  · exact below

theorem mono (within : Between a b q) (lower : c ≤ a) (higher : b ≤ d) : Between c d q :=
  within.imp_right fun bounds => ⟨(zpow_le_zpow_right₀ (by norm_num) lower).trans bounds.1,
    bounds.2.trans (zpow_le_zpow_right₀ (by norm_num) higher)⟩

theorem round (within : Between a b q) : Between a b (round64 q) := by
  rcases within with rfl | ⟨above, below⟩
  · exact .inl round64_zero
  · exact .inr ⟨zpow_le_round64 above, round64_le_zpow below⟩

theorem mul (left : Between a b q) (right : Between c d r) : Between (a + c) (b + d) (q * r) := by
  rcases left with rfl | ⟨above, below⟩
  · exact .inl (zero_mul r)
  rcases right with rfl | ⟨above', below'⟩
  · exact .inl (mul_zero q)
  · have two : (2 : ℚ) ≠ 0 := by norm_num
    refine .inr ⟨?_, ?_⟩
    · rw [zpow_add₀ two]
      exact mul_le_mul above above' (by positivity) (le_trans (by positivity) above)
    · rw [zpow_add₀ two]
      exact mul_le_mul below below' (le_trans (by positivity) above') (by positivity)

theorem div (within : Between a b q) (above : (2 : ℚ) ^ c ≤ r) (below : r ≤ 2 ^ d) : Between (a - d) (b - c) (q / r) := by
  have positive : 0 < r := lt_of_lt_of_le (by positivity) above
  have two : (2 : ℚ) ≠ 0 := by norm_num
  rcases within with rfl | ⟨above', below'⟩
  · exact .inl (zero_div r)
  · refine .inr ⟨?_, ?_⟩
    · rw [zpow_sub₀ two]
      exact div_le_div₀ (le_trans (by positivity) above') above' positive below
    · rw [zpow_sub₀ two]
      exact div_le_div₀ (by positivity) below' (by positivity) above

theorem add (left : Between a b q) (right : Between a b r) : Between a (b + 1) (q + r) := by
  have sum : q + r ≤ 2 ^ (b + 1) := by
    rw [zpow_add_one₀ (by norm_num), mul_two]
    exact add_le_add left.le_zpow right.le_zpow
  rcases left with rfl | ⟨above, _⟩
  · rw [zero_add] at sum ⊢
    exact right.imp_right fun bounds => ⟨bounds.1, sum⟩
  · exact .inr ⟨above.trans (le_add_of_nonneg_right right.nonneg), sum⟩

theorem sum {values : List ℚ} (within : ∀ v ∈ values, Between a b v) {n : ℕ} (few : values.length ≤ 2 ^ n) :
    Between a (b + n) values.sum := by
  have total : values.sum ≤ values.length * 2 ^ b := by
    have each := List.sum_le_card_nsmul values (2 ^ b) fun v member => (within v member).le_zpow
    rwa [nsmul_eq_mul] at each
  have small : values.sum ≤ 2 ^ (b + n) := by
    calc values.sum ≤ values.length * 2 ^ b := total
      _ ≤ 2 ^ n * 2 ^ b := by gcongr; exact_mod_cast few
      _ = 2 ^ (b + n) := by rw [zpow_add₀ (by norm_num), zpow_natCast, mul_comm]
  by_cases zero : ∀ v ∈ values, v = 0
  · exact .inl (List.sum_eq_zero zero)
  · obtain ⟨v, member, nonzero⟩ : ∃ v ∈ values, v ≠ 0 := by simpa using zero
    have least : v ≤ values.sum := List.single_le_sum (fun w inside => (within w inside).nonneg) v member
    exact .inr ⟨((within v member).resolve_left nonzero).1.trans least, small⟩

end Between

/-- What a double of at least one half has behind the point: a weight, and its
complement, of 53 bits. -/
theorem fraction_weight {q : ℚ} (double : IsDouble q) (half : (2 : ℚ) ^ (-1 : ℤ) ≤ q) (broken : (⌊q⌋ : ℚ) ≠ q) :
    round64 (q - ⌊q⌋) = q - ⌊q⌋ ∧ Between (-53) 0 (q - ⌊q⌋) ∧ Between (-53) 0 (1 - (q - ⌊q⌋)) := by
  obtain ⟨m, multiple⟩ : ∃ m : ℤ, q = m * 2 ^ (-53 : ℤ) := by
    obtain ⟨n, power⟩ := exists_mul_zpow (show (-53 : ℤ) ≤ lastBit q from le_lastBit half)
    refine ⟨nearestEven (q / 2 ^ lastBit q) * n, ?_⟩
    push_cast
    rw [mul_assoc, ← power]
    exact double.symm
  have unit : (2 : ℚ) ^ (-53 : ℤ) * 2 ^ 53 = 1 := by norm_num
  obtain ⟨k, fraction⟩ : ∃ k : ℤ, q - ⌊q⌋ = k * 2 ^ (-53 : ℤ) := by
    refine ⟨m - ⌊q⌋ * 2 ^ 53, ?_⟩
    push_cast
    linear_combination multiple - (⌊q⌋ : ℚ) * unit
  have positive : 0 < q - ⌊q⌋ := sub_pos.mpr (lt_of_le_of_ne (Int.floor_le q) broken)
  have below : q - ⌊q⌋ < 1 := by linarith [Int.lt_floor_add_one q]
  have bit : (0 : ℚ) < 2 ^ (-53 : ℤ) := by positivity
  have least : 1 ≤ k := by
    have some : (0 : ℚ) < k := pos_of_mul_pos_left (fraction ▸ positive) bit.le
    exact_mod_cast some
  have most : k + 1 ≤ 2 ^ 53 := by
    have under : (k : ℚ) * 2 ^ (-53 : ℤ) < 2 ^ 53 * 2 ^ (-53 : ℤ) := by
      rw [← fraction, mul_comm, unit]
      exact below
    exact_mod_cast lt_of_mul_lt_mul_right under bit.le
  have leastCast : (1 : ℚ) ≤ k := by exact_mod_cast least
  have mostCast : (k : ℚ) + 1 ≤ 2 ^ 53 := by exact_mod_cast most
  refine ⟨?_, .inr ⟨?_, ?_⟩, .inr ⟨?_, ?_⟩⟩
  · obtain ⟨n, power⟩ := exists_mul_zpow (lastBit_le (e := 0) positive (by simpa using below))
    refine round64_of_multiple (n := k * n) ?_
    rw [Int.cast_mul, mul_assoc, ← power]
    exact fraction
  · rw [fraction]
    nlinarith
  · rw [zpow_zero]
    exact below.le
  · rw [fraction]
    nlinarith
  · rw [zpow_zero]
    linarith

end Binary64
