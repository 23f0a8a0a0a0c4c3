import Mathlib
import Distillation.Decimal.Significant

namespace Distillation.Decimal

/-- A power with an exponent of either sign, as the fraction of two powers. -/
theorem pow_div_pow_toNat {b : ℚ} (nonzero : b ≠ 0) (e : ℤ) : b ^ e.toNat / b ^ (-e).toNat = b ^ e := by
  rw [← zpow_natCast, ← zpow_natCast, ← zpow_sub₀ nonzero, Int.toNat_sub_toNat_neg]

theorem powerOfTen_div (e : ℤ) : (powerOfTen e : ℚ) / powerOfTen (-e) = 10 ^ e := by
  rw [powerOfTen, powerOfTen, Nat.pow_eq, Nat.pow_eq, Nat.cast_pow, Nat.cast_pow, Nat.cast_ofNat]
  exact pow_div_pow_toNat (by norm_num) e

theorem powerOfTen_pos (e : ℤ) : 0 < powerOfTen e :=
  Nat.pow_pos (by decide)

namespace Digits

/-- The number that a decimal is. -/
def value (d : Digits) : ℚ :=
  d.digits * 10 ^ d.exponent

/-- Final zeros that are dropped count in the exponent. -/
theorem value_strip (fuel : Nat) : ∀ d : Digits, (strip fuel d).value = d.value := by
  induction fuel with
  | zero => exact fun d => rfl
  | succ fuel ih =>
    intro d
    rw [strip]
    split
    · rename_i round
      have tens : (d.digits : ℚ) = (d.digits / 10 : ℕ) * 10 := by
        exact_mod_cast (Nat.div_mul_cancel (Nat.dvd_of_mod_eq_zero round)).symm
      rw [ih, value, value, tens, zpow_add_one₀ (by norm_num)]
      ring
    · rfl

end Digits

namespace Interval

section Bounds

variable {range : Interval} {d : Digits} {p q r : ℚ}

def lower (range : Interval) : ℚ :=
  range.low / range.denominator

/-- The double itself. -/
def middle (range : Interval) : ℚ :=
  range.value / range.denominator

def upper (range : Interval) : ℚ :=
  range.high / range.denominator

/-- A number rounds to the double. -/
def Contains (range : Interval) (q : ℚ) : Prop :=
  if range.closed then range.lower ≤ q ∧ q ≤ range.upper else range.lower < q ∧ q < range.upper

theorem Contains.lower_le (inside : range.Contains q) : range.lower ≤ q := by
  rw [Contains] at inside
  split at inside
  · exact inside.1
  · exact inside.1.le

theorem Contains.le_upper (inside : range.Contains q) : q ≤ range.upper := by
  rw [Contains] at inside
  split at inside
  · exact inside.2
  · exact inside.2.le

theorem Contains.closed_of_eq_lower (inside : range.Contains q) (first : q = range.lower) : range.closed = true := by
  by_contra ajar
  rw [Contains, if_neg ajar] at inside
  exact inside.1.ne' first

theorem Contains.closed_of_eq_upper (inside : range.Contains q) (last : q = range.upper) : range.closed = true := by
  by_contra ajar
  rw [Contains, if_neg ajar] at inside
  exact inside.2.ne last

/-- Strictly between the ends, whether these belong to the interval or not. -/
theorem contains_of_lt (above : range.lower < q) (below : q < range.upper) : range.Contains q := by
  rw [Contains]
  split
  · exact ⟨above.le, below.le⟩
  · exact ⟨above, below⟩

/-- Products are compared in place of fractions. -/
theorem holds_iff (positive : 0 < range.denominator) : range.holds d = true ↔ range.Contains d.value := by
  have unit : (0 : ℚ) < powerOfTen (-d.exponent) := by exact_mod_cast powerOfTen_pos _
  have denominator : (0 : ℚ) < range.denominator := by exact_mod_cast positive
  have value : d.value = d.digits * powerOfTen d.exponent / powerOfTen (-d.exponent) := by
    rw [Digits.value, ← powerOfTen_div, mul_div_assoc]
  rw [holds, Contains, value, lower, upper, div_le_div_iff₀ denominator unit, div_le_div_iff₀ unit denominator,
    div_lt_div_iff₀ denominator unit, div_lt_div_iff₀ unit denominator]
  norm_cast
  cases range.closed <;> simp

end Bounds

/-- What the mantissa and the exponent of a positive double are. -/
structure Fits (mantissa : Nat) (exponent : Int) : Prop where
  pos : 0 < mantissa
  width : mantissa < 2 ^ 53
  least : -1074 ≤ exponent
  largest : exponent ≤ 971
  leading : exponent = -1074 ∨ 2 ^ 52 ≤ mantissa

section Around

variable {m m' : Nat} {e e' : Int}

theorem scale_div (e : ℤ) : ((1 <<< (e - 2).toNat : ℕ) : ℚ) / (1 <<< (2 - e).toNat : ℕ) = 2 ^ e / 4 := by
  have opposite : (2 - e).toNat = (-(e - 2)).toNat := congrArg Int.toNat (by ring)
  rw [Nat.one_shiftLeft, Nat.one_shiftLeft, Nat.cast_pow, Nat.cast_pow, Nat.cast_ofNat, opposite,
    pow_div_pow_toNat two_ne_zero, zpow_sub₀ two_ne_zero]
  norm_num

theorem denominator_pos (m : Nat) (e : Int) : 0 < (around m e).denominator := by
  change 0 < 1 <<< (2 - e).toNat
  rw [Nat.one_shiftLeft]
  exact Nat.two_pow_pos _

theorem middle_around (m : Nat) (e : Int) : (around m e).middle = m * 2 ^ e := by
  rw [middle, around, Nat.cast_mul, mul_div_assoc, scale_div]
  push_cast
  ring

theorem upper_around (m : Nat) (e : Int) : (around m e).upper = (m + 1 / 2) * 2 ^ e := by
  rw [upper, around, Nat.cast_mul, mul_div_assoc, scale_div]
  push_cast
  ring

/-- Below the least mantissa with its bit length the doubles are twice as dense. -/
theorem lower_around (pos : 0 < m) (e : Int) : (around m e).lower =
    (m - if m = 2 ^ 52 ∧ e ≠ -1074 then 1 / 4 else 1 / 2) * 2 ^ e := by
  rw [lower, around, Nat.cast_mul, mul_div_assoc, scale_div]
  change ((4 * m - if m = 2 ^ 52 ∧ e ≠ -1074 then 1 else 2 : ℕ) : ℚ) * _ = _
  split
  · rw [Nat.cast_sub (by omega)]
    push_cast
    ring
  · rw [Nat.cast_sub (by omega)]
    push_cast
    ring

theorem closed_around (m : Nat) (e : Int) : (around m e).closed = true ↔ m % 2 = 0 :=
  decide_eq_true_iff

theorem middle_contained (pos : 0 < m) (e : Int) : (around m e).lower < (around m e).middle ∧
    (around m e).middle < (around m e).upper := by
  have unit : (0 : ℚ) < 2 ^ e := zpow_pos two_pos e
  rw [lower_around pos, middle_around, upper_around]
  refine ⟨?_, ?_⟩
  · split <;> nlinarith
  · nlinarith

/-- Of two doubles the larger has the larger exponent, or else the larger mantissa. -/
theorem exponent_lt_or (fits : Fits m e) (fits' : Fits m' e') (less : (m : ℚ) * 2 ^ e < m' * 2 ^ e') :
    e < e' ∨ e = e' ∧ m < m' := by
  rcases lt_trichotomy e e' with lower | rfl | higher
  · exact .inl lower
  · refine .inr ⟨rfl, ?_⟩
    exact_mod_cast lt_of_mul_lt_mul_right less (zpow_pos two_pos e).le
  · exfalso
    have leading : (2 ^ 52 : ℚ) ≤ m := by exact_mod_cast fits.leading.resolve_left (by have := fits'.least; omega)
    have width : (m' : ℚ) < 2 ^ 53 := by exact_mod_cast fits'.width
    have unit : (0 : ℚ) < 2 ^ e' := zpow_pos two_pos e'
    have twice : (2 : ℚ) * 2 ^ e' ≤ 2 ^ e := by
      rw [← zpow_one_add₀ two_ne_zero]
      exact zpow_le_zpow_right₀ one_le_two (by omega)
    nlinarith

/-- The intervals under a larger exponent begin half a step of the smaller one above its last double. -/
theorem le_lower_of_exponent_lt (least : -1074 ≤ e) (larger : e < e') (fits' : Fits m' e') :
    (2 ^ 53 - 1 / 2 : ℚ) * 2 ^ e ≤ (around m' e').lower := by
  have start : (2 ^ 52 - 1 / 4 : ℚ) ≤ m' - if m' = 2 ^ 52 ∧ e' ≠ -1074 then 1 / 4 else 1 / 2 := by
    have leading : 2 ^ 52 ≤ m' := fits'.leading.resolve_left (by omega)
    split
    · rename_i first
      rw [first.1]
      norm_num
    · rename_i later
      have beyond : (2 ^ 52 + 1 : ℚ) ≤ m' := by exact_mod_cast (by omega : 2 ^ 52 + 1 ≤ m')
      linarith
  have twice : (2 : ℚ) * 2 ^ e ≤ 2 ^ e' := by
    rw [← zpow_one_add₀ two_ne_zero]
    exact zpow_le_zpow_right₀ one_le_two (by omega)
  rw [lower_around fits'.pos]
  calc (2 ^ 53 - 1 / 2 : ℚ) * 2 ^ e
    _ = (2 ^ 52 - 1 / 4) * (2 * 2 ^ e) := by ring
    _ ≤ (2 ^ 52 - 1 / 4) * 2 ^ e' := mul_le_mul_of_nonneg_left twice (by norm_num)
    _ ≤ _ := mul_le_mul_of_nonneg_right start (zpow_pos two_pos e').le

/-- Above another double with its exponent, a double has half a step on both sides. -/
theorem lower_of_mantissa_lt (fits : Fits m e) (smaller : m < m') : (around m' e).lower = (m' - 1 / 2) * 2 ^ e := by
  have regular : ¬(m' = 2 ^ 52 ∧ e ≠ -1074) := by
    rintro ⟨rfl, above⟩
    have := fits.leading.resolve_left above
    omega
  rw [lower_around (by omega), if_neg regular]

/-- The interval of the smaller double ends before that of the larger begins. Where they meet, one of the two mantissas
is odd. -/
theorem upper_le_lower (fits : Fits m e) (fits' : Fits m' e') (less : (m : ℚ) * 2 ^ e < m' * 2 ^ e') :
    (around m e).upper ≤ (around m' e').lower ∧
      ((around m e).upper = (around m' e').lower → ¬(m % 2 = 0 ∧ m' % 2 = 0)) := by
  have unit : (0 : ℚ) < 2 ^ e := zpow_pos two_pos e
  rw [upper_around]
  rcases exponent_lt_or fits fits' less with larger | ⟨rfl, smaller⟩
  · have begins := le_lower_of_exponent_lt fits.least larger fits'
    have width : (m : ℚ) + 1 ≤ 2 ^ 53 := by exact_mod_cast fits.width
    refine ⟨le_trans (mul_le_mul_of_nonneg_right (by linarith) unit.le) begins, fun meet even => ?_⟩
    have last : (2 ^ 53 - 1 / 2 : ℚ) ≤ m + 1 / 2 := le_of_mul_le_mul_right (meet ▸ begins) unit
    have odd : 2 ^ 53 ≤ m + 1 := by exact_mod_cast (by linarith : (2 ^ 53 : ℚ) ≤ m + 1)
    have := fits.width
    omega
  · have next : (m : ℚ) + 1 ≤ m' := by exact_mod_cast smaller
    rw [lower_of_mantissa_lt fits smaller]
    refine ⟨mul_le_mul_of_nonneg_right (by linarith) unit.le, fun meet even => ?_⟩
    have equal : (m : ℚ) + 1 / 2 = m' - 1 / 2 := mul_right_cancel₀ unit.ne' meet
    have successor : m + 1 = m' := by exact_mod_cast (by linarith : (m : ℚ) + 1 = m')
    omega

theorem Contains.not_contains_above {q : ℚ} (inside : (around m e).Contains q) (fits : Fits m e) (fits' : Fits m' e')
    (less : (m : ℚ) * 2 ^ e < m' * 2 ^ e') : ¬(around m' e').Contains q := by
  intro inside'
  obtain ⟨apart, parity⟩ := upper_le_lower fits fits' less
  have last : q = (around m e).upper := le_antisymm inside.le_upper (apart.trans inside'.lower_le)
  have first : q = (around m' e').lower := le_antisymm (last.le.trans apart) inside'.lower_le
  refine parity (last.symm.trans first) ⟨(closed_around m e).1 ?_, (closed_around m' e').1 ?_⟩
  · exact inside.closed_of_eq_upper last
  · exact inside'.closed_of_eq_lower first

/-- No number rounds to two doubles. -/
theorem eq_of_contains {q : ℚ} (fits : Fits m e) (fits' : Fits m' e') (inside : (around m e).Contains q)
    (inside' : (around m' e').Contains q) : (m : ℚ) * 2 ^ e = m' * 2 ^ e' := by
  rcases lt_trichotomy ((m : ℚ) * 2 ^ e) (m' * 2 ^ e') with less | equal | greater
  · exact absurd inside' (inside.not_contains_above fits fits' less)
  · exact equal
  · exact absurd inside (inside'.not_contains_above fits' fits greater)

end Around

end Interval

end Distillation.Decimal
