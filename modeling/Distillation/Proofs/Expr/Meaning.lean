import Mathlib.Analysis.Real.Sqrt
import Distillation.Equation.Family
import Distillation.Proofs.Expr.Rate

namespace Distillation

namespace Dual

theorem eq_of_parts {K : Type} {a b : Dual K} (value : a.value = b.value) (slope : a.slope = b.slope) : a = b := by
  cases a
  cases b
  cases value
  cases slope
  rfl

theorem eq_along (x : VarId → Dual ℝ) : x = Expr.along (fun v => (x v).value) (fun v => (x v).slope) := rfl

end Dual

namespace Expr

/-- A reading of expressions under which every operator is the operation of the numbers, also where one side
is a constant. -/
structure Faithful {S : Type} [Add S] [Mul S] [Div S] [Neg S] (number : ℝ → S) (read : Expr ℝ → S) : Prop where
  total : ∀ terms, read (total terms) = (terms.map read).foldl (· + ·) (number 0)
  add : ∀ a b, read (a + b) = read a + read b
  sub : ∀ a b, read (a - b) = read a + -read b
  mul : ∀ a b, read (a * b) = read a * read b
  div : ∀ a b, read (a / b) = read a / read b
  neg : ∀ a, read (-a) = -read a
  add_const : ∀ a c, read (a + .const c) = read a + number c
  const_add : ∀ c a, read (.const c + a) = number c + read a
  sub_const : ∀ a c, read (a - .const c) = read a + -number c
  const_sub : ∀ c a, read (.const c - a) = number c + -read a
  mul_const : ∀ a c, read (a * .const c) = read a * number c
  const_mul : ∀ c a, read (.const c * a) = number c * read a
  div_const : ∀ a c, read (a / .const c) = read a / number c

/-- It is enough to know the operators on two expressions: a constant is one of them. -/
theorem Faithful.of_operators {S : Type} [Add S] [Mul S] [Div S] [Neg S] {number : ℝ → S} {read : Expr ℝ → S}
    (const : ∀ c, read (.const c) = number c)
    (total : ∀ terms, read (Expr.total terms) = (terms.map read).foldl (· + ·) (number 0))
    (add : ∀ a b, read (a + b) = read a + read b) (sub : ∀ a b, read (a - b) = read a + -read b)
    (mul : ∀ a b, read (a * b) = read a * read b) (div : ∀ a b, read (a / b) = read a / read b)
    (neg : ∀ a, read (-a) = -read a) : Faithful number read where
  total := total
  add := add
  sub := sub
  mul := mul
  div := div
  neg := neg
  add_const a c := const c ▸ add a (.const c)
  const_add c a := const c ▸ add (.const c) a
  sub_const a c := const c ▸ sub a (.const c)
  const_sub c a := const c ▸ sub (.const c) a
  mul_const a c := const c ▸ mul a (.const c)
  const_mul c a := const c ▸ mul (.const c) a
  div_const a c := const c ▸ div a (.const c)

theorem faithful_valueAt (x : VarId → ℝ) : Faithful id fun e => e.valueAt x := by
  refine .of_operators (valueAt_const x) (fun terms => ?_) (valueAt_add x) (fun a b => ?_) (valueAt_mul x)
    (fun a b => ?_) (valueAt_neg x)
  · rw [valueAt_total, List.sum_eq_foldl]
    rfl
  · rw [valueAt_sub, sub_eq_add_neg]
  · rw [div_def, valueAt_quotient]

/-- Dual numbers read an expression as its value and its rate, and both follow the operators. -/
theorem faithful_along (x d : VarId → ℝ) :
    Faithful Dual.constant fun e => e.evalWith Dual.constant (along x d) := by
  have value := value_evalWith_along x d
  have slope : ∀ e : Expr ℝ, (e.evalWith Dual.constant (along x d)).slope = e.rate x d := fun _ => rfl
  refine .of_operators (fun c => by rw [evalWith]) (fun terms => ?_) (fun a b => ?_) (fun a b => ?_) (fun a b => ?_)
    (fun a b => by rw [div_def, evalWith]) (fun a => ?_)
  · have raw : (Expr.total terms).evalWith Dual.constant (along x d) =
        (sum terms).evalWith Dual.constant (along x d) := by
      refine Dual.eq_of_parts ?_ ?_
      · rw [value, value, valueAt_total, valueAt_sum_node]
      · rw [slope, slope, rate_total, rate_sum_node]
    rw [raw, evalWith, evalTerms_eq_foldl, List.foldl_map]
  · refine Dual.eq_of_parts ?_ ?_
    · rw [Dual.value_add, value, value, value, valueAt_add]
    · rw [Dual.slope_add, slope, slope, slope, rate_add_op]
  · refine Dual.eq_of_parts ?_ ?_
    · rw [Dual.value_add, Dual.value_neg, value, value, value, valueAt_sub, sub_eq_add_neg]
    · rw [Dual.slope_add, Dual.slope_neg, slope, slope, slope, rate_sub_op, sub_eq_add_neg]
  · refine Dual.eq_of_parts ?_ ?_
    · rw [Dual.value_mul, value, value, value, valueAt_mul]
    · rw [Dual.slope_mul, slope, slope, slope, value, value, rate_mul_op]
  · refine Dual.eq_of_parts ?_ ?_
    · rw [Dual.value_neg, value, value, valueAt_neg]
    · rw [Dual.slope_neg, slope, slope, rate_neg_op]

end Expr

/-- The residual of an equation is the difference of its sides. -/
theorem Constraint.residual_equality (name : String) (left right : Expr ℝ) (s : Store ℝ) :
    (equality name left right).residual s = left.eval s - right.eval s :=
  Expr.valueAt_sub s.value left right

/-- Expressions may be built by the operators or node by node, from any parts: evaluating a sum, a difference,
a product, a quotient or a negation gives that of what its operands evaluate to, whichever of the two number
types it is evaluated in. So an equation holds exactly where its two sides have one value. -/
theorem Expr.operators_preserve_meaning :
    (∀ x : VarId → ℝ, Faithful id fun e => e.valueAt x) ∧
    (∀ x : VarId → Dual ℝ, Faithful Dual.constant fun e => e.evalWith Dual.constant x) ∧
    ∀ (name : String) (left right : Expr ℝ) (s : Store ℝ),
      (Constraint.equality name left right).residual s = 0 ↔ left.eval s = right.eval s := by
  refine ⟨faithful_valueAt, fun x => ?_, fun name left right s => ?_⟩
  · rw [Dual.eq_along x]
    exact faithful_along _ _
  · rw [Constraint.residual_equality, sub_eq_zero]

end Distillation
