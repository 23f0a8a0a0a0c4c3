import Mathlib.Order.Basic
import Distillation.Proofs.RealScalar

namespace Distillation

/-- The numbers are ordered, and whatever compares is a number. A value that differs from itself is not a number. -/
class OrderedNumbers (K : Type) [Scalar K] : Prop where
  number_of_lt {a b : K} : Scalar.lt a b = true → (a == a) = true ∧ (b == b) = true
  lt_trans {a b c : K} : Scalar.lt a b = true → Scalar.lt b c = true → Scalar.lt a c = true
  lt_of_not_lt {a b c : K} : (b == b) = true → Scalar.lt a b = false → Scalar.lt a c = true → Scalar.lt b c = true

instance : OrderedNumbers ℝ where
  number_of_lt _ := ⟨beq_self_eq_true _, beq_self_eq_true _⟩
  lt_trans first second := decide_eq_true ((of_decide_eq_true first).trans (of_decide_eq_true second))
  lt_of_not_lt _ least below :=
    decide_eq_true ((le_of_not_gt (of_decide_eq_false least)).trans_lt (of_decide_eq_true below))

namespace OrderedNumbers

variable {K : Type} [Scalar K] {a b c : K}

theorem max_eq (number : (a == a) = true) : Scalar.max a b = if Scalar.lt a b then b else a := by
  have same : (a != a) = false := by rw [bne, number, Bool.not_true]
  rw [Scalar.max, same, if_neg Bool.false_ne_true]

variable [OrderedNumbers K]

theorem max_number (number : (a == a) = true) : (Scalar.max a b == Scalar.max a b) = true := by
  rw [max_eq number]
  split
  · rename_i less
    exact (number_of_lt less).2
  · exact number

/-- Below a bound, what the larger of two values adds to the first is the second where it is a number. -/
theorem max_lt_iff (number : (a == a) = true) : Scalar.lt (Scalar.max a b) c = true ↔
    Scalar.lt a c = true ∧ ((b == b) = true → Scalar.lt b c = true) := by
  rw [max_eq number]
  split
  · rename_i less
    exact ⟨fun below => ⟨lt_trans less below, fun _ => below⟩, fun both => both.2 (number_of_lt less).2⟩
  · rename_i least
    exact ⟨fun below => ⟨below, fun other => lt_of_not_lt other (Bool.eq_false_of_not_eq_true least) below⟩, And.left⟩

theorem foldl_max_number (xs : List K) : ∀ a : K, (a == a) = true →
    (xs.foldl Scalar.max a == xs.foldl Scalar.max a) = true := by
  induction xs with
  | nil => exact fun _ number => number
  | cons x rest ih => exact fun a number => ih _ (max_number number)

/-- The largest of a list is below what all numbers of the list are below. -/
theorem foldl_max_lt_iff (xs : List K) : ∀ a : K, (a == a) = true → (Scalar.lt (xs.foldl Scalar.max a) c = true ↔
    Scalar.lt a c = true ∧ ∀ x ∈ xs, (x == x) = true → Scalar.lt x c = true) := by
  induction xs with
  | nil => simp
  | cons x rest ih =>
    intro a number
    rw [List.foldl_cons, ih _ (max_number number), max_lt_iff number, List.forall_mem_cons, and_assoc]

end OrderedNumbers

end Distillation
