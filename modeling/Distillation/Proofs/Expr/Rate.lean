import Mathlib.Tactic.FieldSimp
import Mathlib.Tactic.LinearCombination
import Distillation.Proofs.Expr.Variables
import Distillation.Proofs.RealScalar

namespace Distillation.Expr

/-- Variables that move from `x` with speeds `d`. -/
def along (x d : VarId → ℝ) (v : VarId) : Dual ℝ :=
  ⟨x v, d v⟩

/-- How fast the value changes at `x` when the variables move with speeds `d`. -/
noncomputable def rate (e : Expr ℝ) (x d : VarId → ℝ) : ℝ :=
  (e.evalWith Dual.constant (along x d)).slope

section Evaluation

variable (x d : VarId → ℝ) (a b : Expr ℝ) (terms : List (Expr ℝ))

@[simp] theorem valueAt_const (c : ℝ) : (const c).valueAt x = c := by
  simp [valueAt, evalWith]

@[simp] theorem valueAt_var (v : VarId) : (var v).valueAt x = x v := by
  rw [valueAt, evalWith]

@[simp] theorem valueAt_sum_node :
    (sum terms).valueAt x = (terms.map fun term => term.valueAt x).sum := by
  rw [valueAt, evalWith, evalTerms_eq_foldl, List.sum_eq_foldl, List.foldl_map]
  rfl

@[simp] theorem valueAt_product : (product a b).valueAt x = a.valueAt x * b.valueAt x := by
  rw [valueAt, evalWith]
  rfl

@[simp] theorem valueAt_quotient : (quotient a b).valueAt x = a.valueAt x / b.valueAt x := by
  rw [valueAt, evalWith]
  rfl

@[simp] theorem valueAt_neg_node : (neg a).valueAt x = -a.valueAt x := by
  rw [valueAt, evalWith]
  rfl

theorem value_evalTerms_along (each : ∀ term ∈ terms,
    (term.evalWith Dual.constant (along x d)).value = term.valueAt x) : ∀ running,
    (evalTerms Dual.constant (along x d) running terms).value =
      running.value + (terms.map fun term => term.valueAt x).sum := by
  induction terms with
  | nil => intro running; simp [evalTerms]
  | cons term rest ih =>
    intro running
    rw [evalTerms, ih fun other inside => each other (List.mem_cons_of_mem _ inside),
      Dual.value_add, each term List.mem_cons_self, List.map_cons, List.sum_cons, add_assoc]

theorem slope_evalTerms_along : ∀ running,
    (evalTerms Dual.constant (along x d) running terms).slope =
      running.slope + (terms.map fun term => term.rate x d).sum := by
  induction terms with
  | nil => intro running; simp [evalTerms]
  | cons term rest ih =>
    intro running
    rw [evalTerms, ih, Dual.slope_add, List.map_cons, List.sum_cons, add_assoc, rate]

/-- The value beside a slope is the plain value. -/
theorem value_evalWith_along : (a.evalWith Dual.constant (along x d)).value = a.valueAt x := by
  induction a with
  | const c => simp [evalWith]
  | var v => simp [evalWith, along]
  | sum terms ih =>
    rw [evalWith, value_evalTerms_along x d terms ih]
    simp
  | product a b iha ihb => rw [evalWith, Dual.value_mul, iha, ihb, valueAt_product]
  | quotient a b iha ihb =>
    rw [evalWith, Dual.value_div, iha, ihb, valueAt_quotient, mul_one_div]
  | neg a ih => rw [evalWith, Dual.value_neg, ih, valueAt_neg_node]

@[simp] theorem rate_const (c : ℝ) : (const c).rate x d = 0 := by
  rw [rate, evalWith, Dual.slope_constant]

@[simp] theorem rate_var (v : VarId) : (var v).rate x d = d v := by
  rw [rate, evalWith, along]

@[simp] theorem rate_sum_node :
    (sum terms).rate x d = (terms.map fun term => term.rate x d).sum := by
  rw [rate, evalWith, slope_evalTerms_along, Dual.slope_constant, zero_add]

@[simp] theorem rate_product :
    (product a b).rate x d = a.rate x d * b.valueAt x + b.rate x d * a.valueAt x := by
  rw [rate, evalWith, Dual.slope_mul, value_evalWith_along, value_evalWith_along, rate, rate]

@[simp] theorem rate_quotient : (quotient a b).rate x d =
    (a.rate x d * b.valueAt x - b.rate x d * a.valueAt x) * (1 / b.valueAt x) *
      (1 / b.valueAt x) := by
  rw [rate, evalWith, Dual.slope_div, value_evalWith_along, value_evalWith_along, rate, rate]

@[simp] theorem rate_neg_node : (neg a).rate x d = -a.rate x d := by
  rw [rate, evalWith, Dual.slope_neg, rate]

/-- Differentiating by one variable is moving it alone at speed one. -/
theorem seeded_eq_along (v : VarId) : seeded x v = along x (Pi.single v 1) := by
  funext w
  by_cases moving : w = v
  · simp [seeded, along, moving, Dual.unknown]
  · simp [seeded, along, moving, Dual.constant]

theorem slope_dualAt (v : VarId) : (a.dualAt x v).slope = a.rate x (Pi.single v 1) := by
  rw [dualAt, seeded_eq_along, rate]

theorem value_dualAt (v : VarId) : (a.dualAt x v).value = a.valueAt x := by
  rw [dualAt, seeded_eq_along, value_evalWith_along]

end Evaluation

section Additive

/-- A reading of expressions under which sums and negations are what they say. -/
structure Additive (φ : Expr ℝ → ℝ) : Prop where
  const_neg : ∀ c, φ (const (-c)) = -φ (const c)
  sum_node : ∀ terms, φ (sum terms) = (terms.map φ).sum
  neg_node : ∀ a, φ (neg a) = -φ a

theorem additive_valueAt (x : VarId → ℝ) : Additive fun e => e.valueAt x :=
  ⟨by simp, by simp, by simp⟩

theorem additive_rate (x d : VarId → ℝ) : Additive fun e => e.rate x d :=
  ⟨by simp, by simp, by simp⟩

namespace Additive

variable {φ : Expr ℝ → ℝ} (additive : Additive φ)
include additive

theorem zero : φ (const 0) = 0 := by
  have opposite := additive.const_neg 0
  rw [neg_zero] at opposite
  linarith

theorem flatten (terms : List (Expr ℝ)) :
    ((Expr.flatten terms).map φ).sum = (terms.map φ).sum := by
  fun_induction Expr.flatten terms with
  | case1 => rfl
  | case2 inner rest ih => simp [ih, additive.sum_node]
  | case3 c rest zero ih =>
    have vanishes : c = 0 := by simpa using zero
    simp [ih, vanishes, additive.zero]
  | case4 c rest nonzero ih => simp [ih]
  | case5 term rest notSum notConst ih => simp [ih]

theorem total (terms : List (Expr ℝ)) : φ (Expr.total terms) = (terms.map φ).sum := by
  rw [← additive.flatten, Expr.total]
  rcases Expr.flatten terms with _ | ⟨term, _ | ⟨second, rest⟩⟩
  · simp [ofTerms, additive.zero]
  · simp [ofTerms]
  · simp [ofTerms, additive.sum_node]

theorem neg (a : Expr ℝ) : φ (-a) = -φ a := by
  change φ a.negate = _
  cases a with
  | const c => exact additive.const_neg c
  | neg a => rw [negate, additive.neg_node, neg_neg]
  | _ => exact additive.neg_node _

theorem add (a b : Expr ℝ) : φ (a + b) = φ a + φ b := by
  rw [add_def, additive.total]
  simp

theorem sub (a b : Expr ℝ) : φ (a - b) = φ a - φ b := by
  rw [sub_def, additive.total]
  simp [additive.neg, sub_eq_add_neg]

end Additive

variable (x d : VarId → ℝ) (a b : Expr ℝ) (terms : List (Expr ℝ))

@[simp] theorem valueAt_total :
    (total terms).valueAt x = (terms.map fun term => term.valueAt x).sum :=
  (additive_valueAt x).total terms

@[simp] theorem rate_total : (total terms).rate x d = (terms.map fun term => term.rate x d).sum :=
  (additive_rate x d).total terms

@[simp] theorem valueAt_add : (a + b).valueAt x = a.valueAt x + b.valueAt x :=
  (additive_valueAt x).add a b

@[simp] theorem rate_add_op : (a + b).rate x d = a.rate x d + b.rate x d :=
  (additive_rate x d).add a b

@[simp] theorem valueAt_sub : (a - b).valueAt x = a.valueAt x - b.valueAt x :=
  (additive_valueAt x).sub a b

@[simp] theorem rate_sub_op : (a - b).rate x d = a.rate x d - b.rate x d :=
  (additive_rate x d).sub a b

@[simp] theorem valueAt_neg : (-a).valueAt x = -a.valueAt x :=
  (additive_valueAt x).neg a

@[simp] theorem rate_neg_op : (-a).rate x d = -a.rate x d :=
  (additive_rate x d).neg a

/-- What a product is built as: a constant, one of its factors, or a product. -/
theorem mul_cases (a b : Expr ℝ) :
    (∃ c c', a = const c ∧ b = const c' ∧ a * b = const (c * c')) ∨
      (a = const 1 ∧ a * b = b) ∨ (b = const 1 ∧ a * b = a) ∨ a * b = product a b := by
  rw [mul_def, multiply]
  split
  · rename_i c c' first second
    cases a <;> cases b <;> simp_all [toConst?]
  · rename_i c first second
    cases a <;> simp_all [toConst?]
    grind
  · rename_i c first second
    cases b <;> simp_all [toConst?]
  · simp

@[simp] theorem valueAt_mul : (a * b).valueAt x = a.valueAt x * b.valueAt x := by
  rcases mul_cases a b with ⟨c, c', rfl, rfl, built⟩ | ⟨rfl, built⟩ | ⟨rfl, built⟩ | built <;>
    simp [built]

@[simp] theorem rate_mul_op :
    (a * b).rate x d = a.rate x d * b.valueAt x + b.rate x d * a.valueAt x := by
  rcases mul_cases a b with ⟨c, c', rfl, rfl, built⟩ | ⟨rfl, built⟩ | ⟨rfl, built⟩ | built <;>
    simp [built]

end Additive

end Distillation.Expr
