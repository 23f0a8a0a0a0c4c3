import Mathlib
import Distillation.Decimal.Compact
import Distillation.Proofs.Decimal.Shortest

namespace Distillation.Decimal

/-- The decimal that digits are, with a point among them or without. -/
def numeral (text : List Char) : ℚ :=
  Nat.ofDigitChars 10 (text.filter (· ≠ '.')) 0 / 10 ^ ((text.dropWhile (· ≠ '.')).length - 1)

section Layout

variable {whole fraction : List Char}

theorem ne_point_of_isDigit {c : Char} (digit : c.isDigit = true) : decide (c ≠ '.') = true := by
  refine decide_eq_true ?_
  rintro rfl
  cases digit

theorem numeral_whole (digits : ∀ c ∈ whole, c.isDigit = true) : numeral whole = Nat.ofDigitChars 10 whole 0 := by
  have plain : ∀ c ∈ whole, decide (c ≠ '.') = true := fun c inside => ne_point_of_isDigit (digits c inside)
  have kept : whole.filter (· ≠ '.') = whole := List.filter_eq_self.2 plain
  have none : whole.dropWhile (· ≠ '.') = [] := List.dropWhile_eq_nil_iff.2 plain
  rw [numeral, kept, none]
  simp

theorem numeral_point (digits : ∀ c ∈ whole ++ fraction, c.isDigit = true) :
    numeral (whole ++ '.' :: fraction) = Nat.ofDigitChars 10 (whole ++ fraction) 0 / 10 ^ fraction.length := by
  have plain : ∀ c ∈ whole ++ fraction, decide (c ≠ '.') = true := fun c inside => ne_point_of_isDigit (digits c inside)
  obtain ⟨before, after⟩ := List.forall_mem_append.1 plain
  have kept : (whole ++ '.' :: fraction).filter (· ≠ '.') = whole ++ fraction := by
    rw [List.filter_append, List.filter_cons_of_neg (by decide), List.filter_eq_self.2 before,
      List.filter_eq_self.2 after]
  have rest : (whole ++ '.' :: fraction).dropWhile (· ≠ '.') = '.' :: fraction := by
    rw [List.dropWhile_append_of_pos before, List.dropWhile_cons_of_neg (by decide)]
  rw [numeral, kept, rest, List.length_cons, Nat.add_sub_cancel]

theorem toList_zeros (count : Nat) : (zeros count).toList = List.replicate count '0' :=
  String.toList_ofList

theorem toList_toString (n : Nat) : (toString n).toList = Nat.toDigits 10 n :=
  Nat.toList_repr

theorem isDigit_of_mem_replicate {c : Char} {count : Nat} (inside : c ∈ List.replicate count '0') : c.isDigit = true :=
  List.eq_of_mem_replicate inside ▸ rfl

theorem isDigit_of_mem_toDigits {c : Char} {n : Nat} (inside : c ∈ Nat.toDigits 10 n) : c.isDigit = true :=
  Nat.isDigit_of_mem_toDigits (by decide) (by decide) inside

end Layout

namespace Digits

variable {d : Digits}

/-- A whole number is written with zeros behind its digits. -/
theorem toList_positional_of_nonneg (whole : 0 ≤ d.exponent) :
    d.positional.toList = Nat.toDigits 10 d.digits ++ List.replicate d.exponent.toNat '0' := by
  rw [positional, if_pos whole, String.toList_append, toList_zeros, toList_toString]

/-- Any other number has as many digits behind the point as the exponent says, zeros before the first digit
included. -/
theorem toList_positional_of_neg (fractional : d.exponent < 0) : ∃ whole fraction,
    d.positional.toList = whole ++ '.' :: fraction ∧ (∀ c ∈ whole ++ fraction, c.isDigit = true) ∧
      fraction.length = (-d.exponent).toNat ∧ Nat.ofDigitChars 10 (whole ++ fraction) 0 = d.digits := by
  have count : (toString d.digits).length = (Nat.toDigits 10 d.digits).length := by
    rw [← String.length_toList, toList_toString]
  have digits : ∀ c ∈ Nat.toDigits 10 d.digits, c.isDigit = true := fun c => isDigit_of_mem_toDigits
  have number : Nat.ofDigitChars 10 (Nat.toDigits 10 d.digits) 0 = d.digits := Nat.ofDigitChars_ten_toDigits
  have text : (toString d.digits).toList = Nat.toDigits 10 d.digits := toList_toString _
  rw [positional, if_neg (not_le.2 fractional), count]
  generalize Nat.toDigits 10 d.digits = written at *
  split
  · rename_i inner
    refine ⟨written.take (written.length + d.exponent).toNat, written.drop (written.length + d.exponent).toNat,
      ?_, ?_, ?_, ?_⟩
    · rw [text, String.toList_append, String.toList_append, List.append_assoc]
      simp only [String.toList_ofList]
      rfl
    · rwa [List.take_append_drop]
    · rw [List.length_drop]
      omega
    · rw [List.take_append_drop, number]
  · rename_i outer
    refine ⟨['0'], List.replicate (-(written.length + d.exponent)).toNat '0' ++ written, ?_, ?_, ?_, ?_⟩
    · rw [String.toList_append, String.toList_append, toList_zeros, text, List.append_assoc]
      rfl
    · simp only [List.forall_mem_append, List.forall_mem_singleton]
      exact ⟨rfl, fun c => isDigit_of_mem_replicate, digits⟩
    · rw [List.length_append, List.length_replicate]
      omega
    · rw [Nat.ofDigitChars_append, Nat.ofDigitChars_append, Nat.ofDigitChars_replicate_zero]
      exact number

/-- The point stands where the exponent says. -/
theorem numeral_positional (d : Digits) : numeral d.positional.toList = d.value := by
  rcases Int.lt_or_le d.exponent 0 with fractional | whole
  · obtain ⟨whole, fraction, text, digits, length, number⟩ := toList_positional_of_neg fractional
    rw [text, numeral_point digits, length, number, value, div_eq_mul_inv, ← zpow_natCast, ← zpow_neg]
    congr 2
    omega
  · rw [toList_positional_of_nonneg whole, numeral_whole, Nat.ofDigitChars_append, Nat.ofDigitChars_ten_toDigits,
      Nat.ofDigitChars_replicate_zero, value, Nat.cast_mul, mul_comm, Nat.cast_pow, ← zpow_natCast,
      Int.toNat_of_nonneg whole]
    · rfl
    · exact List.forall_mem_append.2 ⟨fun c => isDigit_of_mem_toDigits, fun c => isDigit_of_mem_replicate⟩

end Digits

end Distillation.Decimal
