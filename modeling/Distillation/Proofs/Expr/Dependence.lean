import Mathlib.Data.List.Sort
import Distillation.Proofs.Expr.Variables

namespace Distillation

/-- Numbers as they are written down: no two ways to compute one are the same. -/
inductive Formal (K : Type) where
  | number (c : K)
  | name (v : VarId)
  | add (a b : Formal K)
  | mul (a b : Formal K)
  | div (a b : Formal K)
  | neg (a : Formal K)

namespace Formal

variable {K : Type}

instance : Add (Formal K) where
  add := add

instance : Mul (Formal K) where
  mul := mul

instance : Div (Formal K) where
  div := div

instance : Neg (Formal K) where
  neg := neg

variable {a b c d : Formal K}

theorem add_inj : a + b = c + d ↔ a = c ∧ b = d :=
  Iff.of_eq (Formal.add.injEq a b c d)

theorem mul_inj : a * b = c * d ↔ a = c ∧ b = d :=
  Iff.of_eq (Formal.mul.injEq a b c d)

theorem div_inj : a / b = c / d ↔ a = c ∧ b = d :=
  Iff.of_eq (Formal.div.injEq a b c d)

theorem neg_inj : -a = -b ↔ a = b :=
  Iff.of_eq (Formal.neg.injEq a b)

end Formal

namespace Expr

variable {K : Type}

section Formal

variable [Zero K] {f g : VarId → Formal K}

/-- Of two running sums that end equal, all terms and the starts are equal. -/
theorem eq_of_evalTerms_eq (terms : List (Expr K)) : ∀ p q : Formal K,
    evalTerms .number f p terms = evalTerms .number g q terms →
      p = q ∧ ∀ term ∈ terms, term.evalWith .number f = term.evalWith .number g := by
  induction terms with
  | nil => simp [evalTerms]
  | cons term rest ih =>
    intro p q equal
    rw [evalTerms, evalTerms] at equal
    obtain ⟨first, later⟩ := ih _ _ equal
    obtain ⟨start, own⟩ := Formal.add_inj.1 first
    exact ⟨start, List.forall_mem_cons.2 ⟨own, later⟩⟩

/-- Formal values differ as soon as one variable has another value. -/
theorem agree_of_evalWith_eq (e : Expr K) (equal : e.evalWith .number f = e.evalWith .number g) :
    ∀ v ∈ e.vars, f v = g v := by
  induction e with
  | const c => simp
  | var v => simpa [evalWith] using equal
  | sum terms ih =>
    rw [evalWith, evalWith] at equal
    intro v occurs
    obtain ⟨term, inside, occurs⟩ := mem_vars_sum.1 occurs
    exact ih term inside ((eq_of_evalTerms_eq terms _ _ equal).2 term inside) v occurs
  | product a b iha ihb =>
    rw [evalWith, evalWith, Formal.mul_inj] at equal
    exact fun v occurs => (mem_vars_product.1 occurs).elim (iha equal.1 v) (ihb equal.2 v)
  | quotient a b iha ihb =>
    rw [evalWith, evalWith, Formal.div_inj] at equal
    exact fun v occurs => (mem_vars_quotient.1 occurs).elim (iha equal.1 v) (ihb equal.2 v)
  | neg a ih =>
    rw [evalWith, evalWith, Formal.neg_inj] at equal
    rw [vars_neg_node]
    exact ih equal

end Formal

section Operators

variable {a b e : Expr K}

/-- An increasing list is determined by its members. -/
theorem vars_eq_of_mem_iff (same : ∀ v, v ∈ a.vars ↔ v ∈ b.vars) : a.vars = b.vars :=
  a.vars_increasing.eq_of_mem_iff b.vars_increasing same

/-- The expression refers to what two others refer to, together. -/
def Joins (e a b : Expr K) : Prop :=
  ∀ v, v ∈ e.vars ↔ v ∈ a.vars ∨ v ∈ b.vars

theorem Joins.vars_eq_left {c : K} (joins : Joins e a (.const c)) : e.vars = a.vars :=
  vars_eq_of_mem_iff fun v => by rw [joins v, vars_const, List.mem_nil_iff, or_false]

theorem Joins.vars_eq_right {c : K} (joins : Joins e (.const c) b) : e.vars = b.vars :=
  vars_eq_of_mem_iff fun v => by rw [joins v, vars_const, List.mem_nil_iff, false_or]

variable [Zero K] [One K] [BEq K] [Mul K] [Neg K]

theorem joins_operators (a b : Expr K) : ∀ e ∈ [a + b, a - b, a * b, a / b], Joins e a b := by
  simp only [List.forall_mem_cons]
  exact ⟨fun _ => mem_vars_add, fun _ => mem_vars_sub, fun _ => mem_vars_mul, fun _ => mem_vars_quotient, by simp⟩

/-- A constant on one side of an operator adds no variable and takes none away. -/
theorem vars_mixed (a : Expr K) (c : K) :
    ∀ e ∈ [a + .const c, .const c + a, a - .const c, .const c - a, a * .const c, .const c * a, a / .const c],
      e.vars = a.vars := by
  have after := joins_operators a (.const c)
  have before := joins_operators (.const c) a
  simp only [List.forall_mem_cons] at after before ⊢
  obtain ⟨add, sub, mul, div, _⟩ := after
  obtain ⟨add', sub', mul', _⟩ := before
  exact ⟨add.vars_eq_left, add'.vars_eq_right, sub.vars_eq_left, sub'.vars_eq_right, mul.vars_eq_left,
    mul'.vars_eq_right, div.vars_eq_left, by simp⟩

end Operators

end Expr

end Distillation
