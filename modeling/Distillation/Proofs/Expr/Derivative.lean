import Mathlib.Analysis.Calculus.Deriv.Add
import Mathlib.Analysis.Calculus.Deriv.Inv
import Mathlib.Topology.Algebra.Module.ModuleTopology
import Distillation.Proofs.Expr.Affine

namespace Distillation

namespace Expr

/-- The expression divides by nothing that is zero at `x`. -/
inductive DefinedAt (x : VarId → ℝ) : Expr ℝ → Prop
  | const (c : ℝ) : DefinedAt x (const c)
  | var (v : VarId) : DefinedAt x (var v)
  | sum {terms : List (Expr ℝ)} (each : ∀ term ∈ terms, DefinedAt x term) : DefinedAt x (sum terms)
  | product {a b : Expr ℝ} (first : DefinedAt x a) (second : DefinedAt x b) : DefinedAt x (product a b)
  | quotient {a b : Expr ℝ} (upper : DefinedAt x a) (lower : DefinedAt x b) (nonzero : b.valueAt x ≠ 0) :
      DefinedAt x (quotient a b)
  | neg {a : Expr ℝ} (inner : DefinedAt x a) : DefinedAt x (neg a)

theorem hasDerivAt_sum {f : Expr ℝ → ℝ → ℝ} {f' : Expr ℝ → ℝ} {a : ℝ} {terms : List (Expr ℝ)}
    (each : ∀ term ∈ terms, HasDerivAt (f term) (f' term) a) :
    HasDerivAt (fun r => (terms.map fun term => f term r).sum) (terms.map f').sum a := by
  induction terms with
  | nil => exact hasDerivAt_const a 0
  | cons term rest ih =>
    obtain ⟨first, later⟩ := List.forall_mem_cons.1 each
    exact first.add (ih later)

/-- Along a curve the value changes at the rate in the curve's direction. -/
theorem DefinedAt.hasDerivAt {e : Expr ℝ} (curve : ℝ → VarId → ℝ) {d : VarId → ℝ} {a : ℝ}
    (defined : e.DefinedAt (curve a)) (moves : ∀ v, HasDerivAt (fun r => curve r v) (d v) a) :
    HasDerivAt (fun r => e.valueAt (curve r)) (e.rate (curve a) d) a := by
  induction defined with
  | const c => simpa using hasDerivAt_const a c
  | var v => simpa using moves v
  | sum _ ih => simpa using hasDerivAt_sum ih
  | product _ _ iha ihb =>
    simp only [valueAt_product, rate_product]
    exact (iha.mul ihb).congr_deriv (by ring)
  | quotient _ _ nonzero iha ihb =>
    simp only [valueAt_quotient, rate_quotient]
    exact (iha.div ihb nonzero).congr_deriv (by field_simp)
  | neg _ ih =>
    simp only [valueAt_neg_node, rate_neg_node]
    exact ih.neg

/-- The slope that dual numbers give is the partial derivative, all other variables being held. -/
theorem DefinedAt.hasDerivAt_update {e : Expr ℝ} {x : VarId → ℝ} (defined : e.DefinedAt x) (v : VarId) :
    HasDerivAt (fun r => e.valueAt (Function.update x v r)) (e.dualAt x v).slope (x v) := by
  have here : Function.update x v (x v) = x := Function.update_eq_self v x
  have moves : ∀ w, HasDerivAt (fun r => Function.update x v r w) ((Pi.single v 1 : VarId → ℝ) w) (x v) := by
    intro w
    by_cases moving : w = v
    · subst moving
      simpa using hasDerivAt_id' (x w)
    · simpa [moving] using hasDerivAt_const (x v) (x w)
  rw [slope_dualAt]
  simpa only [here] using DefinedAt.hasDerivAt (Function.update x v) (by rwa [here]) moves

end Expr

/-- Numbers that carry a slope by the rules of differentiation, as far as they divide by nothing that is zero. -/
structure DualArithmetic (S : Type) [Add S] [Mul S] [Div S] [Neg S] where
  value : S → ℝ
  slope : S → ℝ
  constant : ℝ → S
  unknown : ℝ → S
  value_constant : ∀ c, value (constant c) = c
  slope_constant : ∀ c, slope (constant c) = 0
  value_unknown : ∀ c, value (unknown c) = c
  slope_unknown : ∀ c, slope (unknown c) = 1
  value_add : ∀ a b, value (a + b) = value a + value b
  slope_add : ∀ a b, slope (a + b) = slope a + slope b
  value_mul : ∀ a b, value (a * b) = value a * value b
  slope_mul : ∀ a b, slope (a * b) = slope a * value b + value a * slope b
  value_div : ∀ a b, value b ≠ 0 → value (a / b) = value a / value b
  slope_div : ∀ a b, value b ≠ 0 → slope (a / b) = (slope a * value b - value a * slope b) / value b ^ 2
  value_neg : ∀ a, value (-a) = -value a
  slope_neg : ∀ a, slope (-a) = -slope a

namespace DualArithmetic

/-- The dual numbers of the expressions are such. -/
def standard : DualArithmetic (Dual ℝ) where
  value := Dual.value
  slope := Dual.slope
  constant := Dual.constant
  unknown := Dual.unknown
  value_constant _ := rfl
  slope_constant _ := rfl
  value_unknown _ := rfl
  slope_unknown _ := rfl
  value_add _ _ := rfl
  slope_add _ _ := rfl
  value_mul _ _ := rfl
  slope_mul a b := by rw [Dual.slope_mul, mul_comm b.slope]
  value_div a b _ := by rw [Dual.value_div, mul_one_div]
  slope_div a b nonzero := by rw [Dual.slope_div]; field_simp
  value_neg _ := rfl
  slope_neg _ := rfl

variable {S : Type} [Add S] [Mul S] [Div S] [Neg S] (arithmetic : DualArithmetic S) {x d : VarId → ℝ}
  {lookup : VarId → S}

/-- An assignment along which one variable moves. -/
def seeded (x : VarId → ℝ) (moving v : VarId) : S :=
  if v = moving then arithmetic.unknown (x v) else arithmetic.constant (x v)

theorem evalTerms_eq {terms : List (Expr ℝ)} (each : ∀ term ∈ terms,
    arithmetic.value (term.evalWith arithmetic.constant lookup) = term.valueAt x ∧
      arithmetic.slope (term.evalWith arithmetic.constant lookup) = term.rate x d) : ∀ running,
    arithmetic.value (Expr.evalTerms arithmetic.constant lookup running terms) =
        arithmetic.value running + (terms.map fun term => term.valueAt x).sum ∧
      arithmetic.slope (Expr.evalTerms arithmetic.constant lookup running terms) =
        arithmetic.slope running + (terms.map fun term => term.rate x d).sum := by
  induction terms with
  | nil => intro running; simp [Expr.evalTerms]
  | cons term rest ih =>
    intro running
    obtain ⟨⟨value, slope⟩, later⟩ := List.forall_mem_cons.1 each
    obtain ⟨values, slopes⟩ := ih later (running + term.evalWith arithmetic.constant lookup)
    rw [Expr.evalTerms, values, slopes, arithmetic.value_add, arithmetic.slope_add, value, slope, List.map_cons,
      List.map_cons, List.sum_cons, List.sum_cons, add_assoc, add_assoc]
    exact ⟨rfl, rfl⟩

/-- Evaluating over dual numbers gives the plain value and the rate at which the variables move it. -/
theorem evalWith_eq {e : Expr ℝ} (defined : e.DefinedAt x) (values : ∀ v, arithmetic.value (lookup v) = x v)
    (slopes : ∀ v, arithmetic.slope (lookup v) = d v) :
    arithmetic.value (e.evalWith arithmetic.constant lookup) = e.valueAt x ∧
      arithmetic.slope (e.evalWith arithmetic.constant lookup) = e.rate x d := by
  induction defined with
  | const c => simp [Expr.evalWith, arithmetic.value_constant, arithmetic.slope_constant]
  | var v => simp [Expr.evalWith, values, slopes]
  | sum _ ih =>
    obtain ⟨value, slope⟩ := arithmetic.evalTerms_eq ih (arithmetic.constant 0)
    rw [Expr.evalWith, value, slope, arithmetic.value_constant, arithmetic.slope_constant, zero_add, zero_add,
      Expr.valueAt_sum_node, Expr.rate_sum_node]
    exact ⟨rfl, rfl⟩
  | product _ _ iha ihb =>
    rw [Expr.evalWith, arithmetic.value_mul, arithmetic.slope_mul, iha.1, iha.2, ihb.1, ihb.2,
      Expr.valueAt_product, Expr.rate_product]
    exact ⟨rfl, by ring⟩
  | quotient _ _ nonzero iha ihb =>
    rw [← ihb.1] at nonzero
    rw [Expr.evalWith, arithmetic.value_div _ _ nonzero, arithmetic.slope_div _ _ nonzero, iha.1, iha.2, ihb.1,
      ihb.2, Expr.valueAt_quotient, Expr.rate_quotient]
    rw [ihb.1] at nonzero
    exact ⟨rfl, by field_simp⟩
  | neg _ ih =>
    rw [Expr.evalWith, arithmetic.value_neg, arithmetic.slope_neg, ih.1, ih.2, Expr.valueAt_neg_node,
      Expr.rate_neg_node]
    exact ⟨rfl, rfl⟩

/-- All of them agree on the value and the partial derivative. -/
theorem evalWith_seeded {e : Expr ℝ} (defined : e.DefinedAt x) (v : VarId) :
    arithmetic.value (e.evalWith arithmetic.constant (arithmetic.seeded x v)) = e.valueAt x ∧
      arithmetic.slope (e.evalWith arithmetic.constant (arithmetic.seeded x v)) = (e.dualAt x v).slope := by
  rw [Expr.slope_dualAt]
  refine arithmetic.evalWith_eq defined (fun w => ?_) fun w => ?_
  · unfold seeded
    split
    · exact arithmetic.value_unknown _
    · exact arithmetic.value_constant _
  · unfold seeded
    split
    · rename_i moving
      rw [arithmetic.slope_unknown, moving, Pi.single_eq_same]
    · rename_i held
      rw [arithmetic.slope_constant, Pi.single_eq_of_ne held]

end DualArithmetic

end Distillation
