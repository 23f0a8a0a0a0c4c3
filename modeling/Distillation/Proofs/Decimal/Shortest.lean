import Mathlib
import Distillation.Proofs.Decimal.Interval

namespace Distillation.Decimal

section Magnitude

variable {n k : Nat} {v : ℚ}

/-- What is counted up to exceeds the fraction for the first time, or is where counting ended. -/
theorem le_of_powerAbove (positive : 0 < k) (fuel : Nat) : ∀ start : Int, (10 : ℚ) ^ (start - 1) ≤ n / k →
    (10 : ℚ) ^ (powerAbove n k fuel start - 1) ≤ n / k := by
  induction fuel with
  | zero => exact fun start below => below
  | succ fuel ih =>
    intro start below
    rw [powerAbove]
    split
    · exact below
    · rename_i notAbove
      refine ih (start + 1) ?_
      have unit : (0 : ℚ) < powerOfTen (-start) := by exact_mod_cast powerOfTen_pos _
      have denominator : (0 : ℚ) < k := by exact_mod_cast positive
      rw [add_sub_cancel_right, ← powerOfTen_div, div_le_div_iff₀ unit denominator]
      exact_mod_cast (mul_comm k (powerOfTen start) ▸ Nat.le_of_not_lt notAbove)

/-- The logarithms of two and ten are to each other as 30103 to 100000, closely enough for doubles. -/
theorem ten_pow_le_two_pow : ∀ b < 1100, 10 ^ (b * 30103 / 100000) ≤ 100 * 2 ^ b := by
  decide +kernel

theorem two_pow_le_ten_pow : ∀ b < 1100, 2 ^ b ≤ 10 ^ (b * 30103 / 100000 + 1) := by
  decide +kernel

/-- A power of ten that is estimated from a power of two is not above it. -/
theorem estimate_le (b : Int) (low : -1100 < b) (high : b < 1100) :
    (10 : ℚ) ^ (b * 30103 / 100000 - 2) ≤ 2 ^ b := by
  obtain ⟨c, rfl | rfl⟩ := b.eq_nat_or_neg
  · have bound : ((10 ^ (c * 30103 / 100000) : ℕ) : ℚ) ≤ (100 * 2 ^ c : ℕ) :=
      by exact_mod_cast ten_pow_le_two_pow c (by omega)
    have exponent : ((c : Int) * 30103 / 100000) = (c * 30103 / 100000 : ℕ) := by push_cast; rfl
    rw [exponent, zpow_sub₀ (by norm_num), zpow_natCast, zpow_natCast]
    push_cast at bound
    rw [div_le_iff₀ (by norm_num)]
    linarith
  · have bound : ((2 ^ c : ℕ) : ℚ) ≤ (10 ^ (c * 30103 / 100000 + 1) : ℕ) :=
      by exact_mod_cast two_pow_le_ten_pow c (by omega)
    have exponent : (-(c : Int) * 30103 / 100000 - 2) ≤ -((c * 30103 / 100000 + 1 : ℕ) : Int) := by omega
    calc (10 : ℚ) ^ (-(c : Int) * 30103 / 100000 - 2)
      _ ≤ 10 ^ (-((c * 30103 / 100000 + 1 : ℕ) : Int)) := zpow_le_zpow_right₀ (by norm_num) exponent
      _ = ((10 : ℚ) ^ (c * 30103 / 100000 + 1))⁻¹ := by rw [zpow_neg, zpow_natCast]
      _ ≤ (2 ^ c)⁻¹ := inv_anti₀ (by positivity) (by exact_mod_cast bound)
      _ = 2 ^ (-(c : Int)) := by rw [zpow_neg, zpow_natCast]

/-- A fraction has at least the magnitude that is found for it. -/
theorem magnitude_le (numerator : 0 < n) (positive : 0 < k) (low : -1099 < (n.log2 : Int) - k.log2)
    (high : (n.log2 : Int) - k.log2 < 1100) : (10 : ℚ) ^ (magnitude n k - 1) ≤ n / k := by
  have binary : (2 : ℚ) ^ ((n.log2 : Int) - k.log2 - 1) ≤ n / k := by
    have above : ((2 ^ n.log2 : ℕ) : ℚ) ≤ n := by exact_mod_cast Nat.log2_self_le numerator.ne'
    have below : (k : ℚ) ≤ (2 ^ (k.log2 + 1) : ℕ) := by exact_mod_cast Nat.lt_log2_self.le
    have denominator : (0 : ℚ) < k := by exact_mod_cast positive
    calc (2 : ℚ) ^ ((n.log2 : Int) - k.log2 - 1)
      _ = (2 ^ n.log2 : ℕ) / (2 ^ (k.log2 + 1) : ℕ) := by
        rw [sub_sub, zpow_sub₀ two_ne_zero]
        push_cast
        rw [← zpow_natCast, ← zpow_natCast]
        push_cast
        rfl
      _ ≤ n / k := div_le_div₀ (Nat.cast_nonneg n) above denominator below
  refine le_of_powerAbove positive 4 _ (le_trans ?_ binary)
  rw [sub_sub]
  exact estimate_le _ (by omega) (by omega)

end Magnitude

/-- The decimal at or below a fraction, with the next one above. -/
theorem floorAt_bounds (n : Nat) {k : Nat} (positive : 0 < k) (e : Int) :
    (floorAt n k e).value ≤ n / k ∧ (n / k : ℚ) < (floorAt n k e).value + 10 ^ e := by
  have unit : (0 : ℚ) < powerOfTen (-e) := by exact_mod_cast powerOfTen_pos _
  have power : (0 : ℚ) < powerOfTen e := by exact_mod_cast powerOfTen_pos _
  have denominator : (0 : ℚ) < k := by exact_mod_cast positive
  have divisor : 0 < k * powerOfTen e := Nat.mul_pos positive (powerOfTen_pos e)
  have value : (floorAt n k e).value =
      (n * powerOfTen (-e) / (k * powerOfTen e) : ℕ) * (powerOfTen e / powerOfTen (-e)) := by
    rw [Digits.value, floorAt, powerOfTen_div]
  have below : ((n * powerOfTen (-e) / (k * powerOfTen e) * (k * powerOfTen e) : ℕ) : ℚ) ≤
      (n * powerOfTen (-e) : ℕ) := by
    exact_mod_cast Nat.div_mul_le_self _ _
  have above : ((n * powerOfTen (-e) : ℕ) : ℚ) < (n * powerOfTen (-e) / (k * powerOfTen e) * (k * powerOfTen e) +
      k * powerOfTen e : ℕ) := by
    exact_mod_cast Nat.lt_div_mul_add divisor
  generalize n * powerOfTen (-e) / (k * powerOfTen e) = f at value below above
  push_cast at below above
  rw [value, ← powerOfTen_div, ← add_one_mul]
  constructor
  · rw [← mul_div_assoc, div_le_div_iff₀ unit denominator]
    linarith
  · rw [← mul_div_assoc, div_lt_div_iff₀ denominator unit]
    linarith

namespace Interval

variable {range : Interval} {e size : Int} {d : Digits}

theorem holds_of_nearest? (found : range.nearest? e = some d) : range.holds d = true := by
  rw [nearest?] at found
  dsimp only at found
  split at found
  · cases found
  · rename_i inside _
    exact (Option.some.inj found) ▸ inside
  · rename_i inside
    exact (Option.some.inj found) ▸ inside
  · rename_i inside inside'
    split at found
    · exact (Option.some.inj found) ▸ inside
    · exact (Option.some.inj found) ▸ inside'

/-- Among decimals that stand closer together than the interval is wide, there is one in it. -/
theorem nearest?_isSome (positive : 0 < range.denominator) (fine : (10 : ℚ) ^ e < range.upper - range.lower)
    (above : range.lower < range.middle) (below : range.middle < range.upper) : (range.nearest? e).isSome = true := by
  obtain ⟨down, up⟩ := floorAt_bounds range.value positive e
  rw [← middle] at down up
  rw [nearest?]
  dsimp only
  split
  · rename_i outside outside'
    exfalso
    have low : (floorAt range.value range.denominator e).value ≤ range.lower := by
      by_contra higher
      have inside := contains_of_lt (not_le.1 higher) (down.trans_lt below)
      rw [← holds_iff positive, outside] at inside
      cases inside
    have high : range.upper ≤ (floorAt range.value range.denominator e).value + 10 ^ e := by
      by_contra lower
      have next : (floorAt range.value range.denominator e).value + 10 ^ e =
          Digits.value ⟨(floorAt range.value range.denominator e).digits + 1, e⟩ := by
        rw [Digits.value, Digits.value]
        push_cast
        change _ * _ ^ e + _ = _
        ring
      have inside := contains_of_lt (above.trans up) (not_le.1 lower)
      rw [next, ← holds_iff positive] at inside
      exact Bool.false_ne_true (outside'.symm.trans inside)
    linarith
  · rfl
  · rfl
  · split <;> rfl

/-- The search tries seventeen digits at the latest. -/
theorem holds_search (found : (range.nearest? (size - 17)).isSome = true) (fuel : Nat) : ∀ count : Nat,
    fuel + 1 + count = 18 → range.holds (range.search size (fuel + 1) count) = true := by
  induction fuel with
  | zero =>
    intro count last
    obtain rfl : count = 17 := by omega
    obtain ⟨d, here⟩ := Option.isSome_iff_exists.1 found
    rw [search, show size - ((17 : Nat) : Int) = size - 17 from rfl, here]
    exact holds_of_nearest? here
  | succ fuel ih =>
    intro count left
    rw [search]
    cases here : range.nearest? (size - count) with
    | none => exact ih (count + 1) (by omega)
    | some d => exact holds_of_nearest? here

section Around

variable {m : Nat}

/-- A double has at least the magnitude that is found for it. -/
theorem magnitude_around (fits : Fits m e) :
    (10 : ℚ) ^ (magnitude (around m e).value (around m e).denominator - 1) ≤ m * 2 ^ e := by
  have numerator : (around m e).value = m * 2 ^ ((e - 2).toNat + 2) := by
    change 4 * m * 1 <<< (e - 2).toNat = _
    rw [Nat.one_shiftLeft, pow_add]
    ring
  have denominator : (around m e).denominator.log2 = (2 - e).toNat := by
    change (1 <<< (2 - e).toNat).log2 = _
    rw [Nat.one_shiftLeft, Nat.log2_two_pow]
  have positive : 0 < (around m e).value := numerator ▸ Nat.mul_pos fits.pos (Nat.two_pow_pos _)
  have low : (e - 2).toNat + 2 ≤ (around m e).value.log2 :=
    (Nat.le_log2 positive.ne').2 (numerator ▸ Nat.le_mul_of_pos_left _ fits.pos)
  have high : (around m e).value.log2 < 53 + ((e - 2).toNat + 2) := by
    rw [Nat.log2_lt positive.ne', numerator, pow_add 2 53]
    exact Nat.mul_lt_mul_of_pos_right fits.width (Nat.two_pow_pos _)
  have least := fits.least
  have largest := fits.largest
  rw [← middle_around]
  exact magnitude_le positive (denominator_pos m e) (by omega) (by omega)

/-- Among decimals with seventeen digits, one rounds to a given double. -/
theorem seventeen_digits (fits : Fits m e) :
    ((around m e).nearest? (magnitude (around m e).value (around m e).denominator - 17)).isSome = true := by
  obtain ⟨above, below⟩ := middle_contained fits.pos e
  refine nearest?_isSome (denominator_pos m e) ?_ above below
  have large := magnitude_around fits
  generalize magnitude (around m e).value (around m e).denominator = size at large ⊢
  have unit : (0 : ℚ) < 2 ^ e := zpow_pos two_pos e
  have width : (m : ℚ) ≤ 2 ^ 53 := by exact_mod_cast fits.width.le
  have spacing : (10 : ℚ) ^ (size - 17) = 10 ^ (size - 1) / 10 ^ 16 := by
    rw [show size - 17 = size - 1 - 16 by ring, zpow_sub₀ (by norm_num) (size - 1) 16]
    norm_num
  rw [spacing, upper_around, lower_around fits.pos, div_lt_iff₀ (by norm_num)]
  refine large.trans_lt ?_
  split
  · rename_i least
    rw [least.1]
    push_cast
    nlinarith
  · nlinarith

/-- The shortest decimal that is found for a double rounds to it. -/
theorem shortest_contained (fits : Fits m e) : (around m e).Contains (shortest m e).value := by
  rw [shortest, Digits.value_strip, ← holds_iff (denominator_pos m e)]
  exact holds_search (seventeen_digits fits) 16 1 rfl

end Around

end Interval

end Distillation.Decimal
