import Distillation.Proofs.Decimal.Double
import Distillation.Proofs.Expr.Normal
import Distillation.Proofs.Expr.Reading
import Distillation.Proofs.RealScalar

namespace Distillation

/-- The real number that a finite double is. -/
def Decimal.exact (x : Float) : ℝ :=
  (Binary.ofFloat x).value

namespace Expr

open Decimal Decimal.Interval

/-- What a factor of a text is: a variable, or the double that was written. -/
noncomputable def meaning (x : VarId → ℝ) : List Char → ℝ
  | 'v' :: digits => x (Nat.ofDigitChars 10 digits 0)
  | text => (rounded (numeral text) : ℚ)

section Meaning

variable {x : VarId → ℝ}

theorem meaning_name (v : VarId) : meaning x ('v' :: Nat.toDigits 10 v) = x v :=
  congrArg x Nat.ofDigitChars_ten_toDigits

theorem meaning_numeral {text : List Char} (digits : ∀ c ∈ text, c.isDigit = true ∨ c = '.') :
    meaning x text = (rounded (numeral text) : ℚ) := by
  rw [meaning]
  rintro rest rfl
  exact absurd (digits 'v' List.mem_cons_self) (by decide)

theorem meaning_nil : meaning x [] = 0 := by
  have nothing : numeral [] = 0 := by norm_num [numeral]
  rw [meaning_numeral (List.forall_mem_nil _), nothing, rounded_zero, Rat.cast_zero]

theorem exact_zero : exact 0 = 0 := by
  have zero : Binary.ofFloat 0 = .finite false 0 (-1074) := by decide +kernel
  rw [exact, zero, Binary.value]
  norm_num

/-- A finite double is read as it was written. -/
theorem written_of_isFinite {c : Float} (finite : Scalar.isFinite c = true) :
    Written positional exact (meaning x) c := by
  obtain ⟨negative, m, e, word, fits⟩ := ofFloat_of_isFinite finite
  obtain ⟨text, shown, digits, value⟩ := Binary.positional_reads_back negative fits
  refine ⟨text, fun c inside => ?_, ?_⟩
  · rcases digits c inside with digit | rfl
    · rw [Reader.isLiteral, digit]
      rfl
    · rfl
  · rw [positional, exact, word, shown, meaning_numeral digits, value, Binary.value]
    cases negative with
    | false => exact .inl ⟨rfl, rfl⟩
    | true => exact .inr ⟨rfl, by simp⟩

end Meaning

theorem Constants.mono {K : Type} {P Q : K → Prop} {e : Expr K} (constants : e.Constants P) (weaker : ∀ c, P c → Q c) :
    e.Constants Q := by
  induction constants with
  | const own => exact .const (weaker _ own)
  | var v => exact .var v
  | sum _ ih => exact .sum ih
  | product _ _ iha ihb => exact .product iha ihb
  | quotient _ _ iha ihb => exact .quotient iha ihb
  | neg _ ih => exact .neg ih

/-- Finite expressions with one text have one value from left to right. So they have one value, unless one of them
divides by a product or by a quotient. -/
theorem text_determines_value {a b : Expr Float} (finite : ∀ e ∈ [a, b], e.Constants fun c => Scalar.isFinite c = true)
    (same : a.text positional = b.text positional) (x : VarId → ℝ) :
    a.leftward exact x id = b.leftward exact x id ∧
      (a.SimplyDivided → b.SimplyDivided → a.evalWith exact x = b.evalWith exact x) := by
  have written (e : Expr Float) (inside : e ∈ [a, b]) : e.Constants (Written positional exact (meaning x)) :=
    (finite e inside).mono fun _ => written_of_isFinite
  have equal := leftward_eq_of_text_eq meaning_nil meaning_name (written a (by simp)) (written b (by simp)) same
  refine ⟨equal, fun simple simple' => ?_⟩
  have first := leftward_eq exact_zero (x := x) simple id (.inl .id)
  have second := leftward_eq exact_zero (x := x) simple' id (.inl .id)
  exact first.symm.trans (equal.trans second)

/-- A quotient whose numerator is a product with a sign, and a product of a negative constant and a quotient. -/
theorem text_determines_value_signed :
    let a : Expr Float := .quotient (.neg (.product (.const 2.5) (.var 0))) (.var 1)
    let b : Expr Float := .product (.const (-2.5)) (.quotient (.var 0) (.var 1))
    (∀ e ∈ [a, b], e.Constants fun c => Scalar.isFinite c = true) ∧ a.text positional = b.text positional ∧
      a.evalWith exact (fun v => v + 1) = b.evalWith exact (fun v => v + 1) := by
  intro a b
  have finite : ∀ e ∈ [a, b], e.Constants fun c => Scalar.isFinite c = true := by
    have above : Scalar.isFinite (2.5 : Float) = true := by decide +kernel
    have below : Scalar.isFinite (-2.5 : Float) = true := by decide +kernel
    refine List.forall_mem_cons.2 ⟨?_, List.forall_mem_singleton.2 ?_⟩
    · exact .quotient (.neg (.product (.const above) (.var 0))) (.var 1)
    · exact .product (.const below) (.quotient (.var 0) (.var 1))
  have same : a.text positional = b.text positional := by decide +kernel
  have simple : a.SimplyDivided := .quotient (.neg (.product (.const _) (.var 0))) (.var 1) rfl
  have simple' : b.SimplyDivided := .product (.const _) (.quotient (.var 0) (.var 1) rfl)
  exact ⟨finite, same, (text_determines_value finite same _).2 simple simple'⟩

/-- Factors behind a quotient are written alike, whether they are divided by or not. -/
theorem text_quotient {K : Type} (number : K → String) (a b c : Expr K) :
    (quotient a (product b c)).text number = (product (quotient a b) c).text number ∧
      (quotient a (quotient b c)).text number = (quotient (quotient a b) c).text number := by
  simp only [text, String.append_assoc, and_self]

/-- Dividing by a product is written like dividing by its first factor and multiplying by the second. -/
theorem quotient_text_ambiguous :
    let a : Expr Float := var 0 / (var 1 * var 2)
    let b : Expr Float := var 0 / var 1 * var 2
    let x (v : VarId) : ℝ := 2 ^ v
    (∀ e ∈ [a, b], e.Built ∧ e.Constants fun c => Scalar.isFinite c = true) ∧
      (∀ d ∈ [(var 1 * var 2 : Expr Float), var 1], d.evalWith exact x ≠ 0) ∧
      a.text positional = b.text positional ∧ a.evalWith exact x ≠ b.evalWith exact x := by
  intro a b x
  refine ⟨?built, ?defined, (text_quotient positional (var 0) (var 1) (var 2)).1, ?differ⟩
  case built =>
    refine List.forall_mem_cons.2 ⟨⟨.div (.var 0) (.mul (.var 1) (.var 2)), ?_⟩, List.forall_mem_singleton.2
      ⟨.mul (.div (.var 0) (.var 1)) (.var 2), ?_⟩⟩
    · exact .quotient (.var 0) (.product (.var 1) (.var 2))
    · exact .product (.quotient (.var 0) (.var 1)) (.var 2)
  case defined =>
    refine List.forall_mem_cons.2 ⟨?_, List.forall_mem_singleton.2 ?_⟩
    · change (product (var 1) (var 2) : Expr Float).evalWith exact x ≠ 0
      norm_num [evalWith, x]
    · norm_num [evalWith, x]
  case differ =>
    change (quotient (var 0) (product (var 1) (var 2)) : Expr Float).evalWith exact x ≠
      (product (quotient (var 0) (var 1)) (var 2) : Expr Float).evalWith exact x
    norm_num [evalWith, x]

end Expr

end Distillation
