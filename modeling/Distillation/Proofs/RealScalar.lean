import Mathlib.Analysis.Real.Sqrt
import Distillation.Scalar

namespace Distillation

noncomputable instance : Scalar ℝ where
  beq a b := decide (a = b)
  lt a b := decide (a < b)
  abs := abs
  sqrt := Real.sqrt
  isFinite _ := true

namespace Scalar

variable (a b : ℝ) (xs : List ℝ)

@[simp] theorem real_beq : @BEq.beq ℝ Scalar.toBEq a b = decide (a = b) := rfl

@[simp] theorem real_lt : lt a b = decide (a < b) := rfl

@[simp] theorem real_abs : Scalar.abs a = |a| := rfl

@[simp] theorem real_isFinite : isFinite a = true := rfl

@[simp] theorem real_max : Scalar.max a b = Max.max a b := by
  by_cases less : a < b
  · simp [Scalar.max, less, less.le]
  · simp [Scalar.max, less, le_of_not_gt less]

theorem real_sum : Scalar.sum xs = xs.sum := by
  rw [Scalar.sum, List.sum_eq_foldl]

theorem real_norm : norm xs = Real.sqrt (xs.map fun x => x * x).sum := by
  rw [norm, real_sum]
  rfl

/-- Where all residuals vanish, so does their length. -/
theorem real_norm_eq_zero (zero : ∀ x ∈ xs, x = 0) : norm xs = 0 := by
  have squares : (xs.map fun x => x * x).sum = 0 :=
    List.sum_eq_zero (by simpa using zero)
  rw [real_norm, squares, Real.sqrt_zero]

end Scalar

end Distillation
