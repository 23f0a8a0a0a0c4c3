import Distillation.Proofs.Expr.Rate

namespace Distillation.Expr

section Linear

variable (e : Expr ℝ) (x d d' : VarId → ℝ)

theorem rate_direction_add : e.rate x (d + d') = e.rate x d + e.rate x d' := by
  induction e with
  | const c => simp
  | var v => simp
  | sum terms ih =>
    simp only [rate_sum_node, ← List.sum_map_add]
    exact congrArg List.sum (List.map_congr_left ih)
  | product a b iha ihb => rw [rate_product, iha, ihb, rate_product, rate_product]; ring
  | quotient a b iha ihb => rw [rate_quotient, iha, ihb, rate_quotient, rate_quotient]; ring
  | neg a ih => rw [rate_neg_node, ih, rate_neg_node, rate_neg_node]; ring

theorem rate_direction_smul (c : ℝ) : e.rate x (c • d) = c * e.rate x d := by
  induction e with
  | const c => simp
  | var v => simp
  | sum terms ih =>
    simp only [rate_sum_node, ← List.sum_map_mul_left]
    exact congrArg List.sum (List.map_congr_left ih)
  | product a b iha ihb => rw [rate_product, iha, ihb, rate_product]; ring
  | quotient a b iha ihb => rw [rate_quotient, iha, ihb, rate_quotient]; ring
  | neg a ih => rw [rate_neg_node, ih, rate_neg_node]; ring

theorem rate_direction_zero : e.rate x 0 = 0 := by
  have none := e.rate_direction_smul x 0 0
  rwa [zero_smul, zero_mul] at none

variable {e x d}

theorem valueAt_congr {y : VarId → ℝ} (agree : ∀ v ∈ e.vars, x v = y v) :
    e.valueAt x = e.valueAt y :=
  e.evalWith_congr agree

/-- An expression stands still when its variables do. -/
theorem rate_eq_zero (still : ∀ v ∈ e.vars, d v = 0) : e.rate x d = 0 := by
  have same : e.evalWith Dual.constant (along x d) = e.evalWith Dual.constant (along x 0) :=
    e.evalWith_congr fun v member => by simp [along, still v member]
  rw [rate, same, ← rate, rate_direction_zero]

end Linear

/-- A variable occurs in at most one factor of every product and in no denominator. -/
inductive AffineIn {K : Type} (v : VarId) : Expr K → Prop
  | const (c : K) : AffineIn v (const c)
  | var (w : VarId) : AffineIn v (var w)
  | sum {terms : List (Expr K)} (each : ∀ term ∈ terms, AffineIn v term) : AffineIn v (sum terms)
  | product {a b : Expr K} (first : AffineIn v a) (second : AffineIn v b)
      (apart : v ∉ a.vars ∨ v ∉ b.vars) : AffineIn v (product a b)
  | quotient {a b : Expr K} (upper : AffineIn v a) (lower : v ∉ b.vars) : AffineIn v (quotient a b)
  | neg {a : Expr K} (inner : AffineIn v a) : AffineIn v (neg a)

/-- Built from constants, variables, sums and negations, from products whose factors share none of the
unknowns, and from quotients by what refers to no unknown and is not zero at `x`. -/
inductive Multiaffine (unknowns : List VarId) (x : VarId → ℝ) : Expr ℝ → Prop
  | const (c : ℝ) : Multiaffine unknowns x (const c)
  | var (v : VarId) : Multiaffine unknowns x (var v)
  | sum {terms : List (Expr ℝ)} (each : ∀ term ∈ terms, Multiaffine unknowns x term) :
      Multiaffine unknowns x (sum terms)
  | product {a b : Expr ℝ} (first : Multiaffine unknowns x a) (second : Multiaffine unknowns x b)
      (apart : ∀ v ∈ unknowns, v ∉ a.vars ∨ v ∉ b.vars) : Multiaffine unknowns x (product a b)
  | quotient {a b : Expr ℝ} (upper : Multiaffine unknowns x a) (lower : Multiaffine unknowns x b)
      (held : ∀ v ∈ unknowns, v ∉ b.vars) (nonzero : b.valueAt x ≠ 0) : Multiaffine unknowns x (quotient a b)
  | neg {a : Expr ℝ} (inner : Multiaffine unknowns x a) : Multiaffine unknowns x (neg a)

namespace Multiaffine

variable {unknowns : List VarId} {x : VarId → ℝ} {a b : Expr ℝ}

theorem affineIn {e : Expr ℝ} (multiaffine : e.Multiaffine unknowns x) {v : VarId} (unknown : v ∈ unknowns) :
    e.AffineIn v := by
  induction multiaffine with
  | const c => exact .const c
  | var w => exact .var w
  | sum _ ih => exact .sum ih
  | product _ _ apart iha ihb => exact .product iha ihb (apart v unknown)
  | quotient _ _ held _ iha _ => exact .quotient iha (held v unknown)
  | neg _ ih => exact .neg ih

section Operators

theorem flatten (terms : List (Expr ℝ)) (each : ∀ term ∈ terms, Multiaffine unknowns x term) :
    ∀ term ∈ Expr.flatten terms, Multiaffine unknowns x term := by
  fun_induction Expr.flatten terms with
  | case1 => exact each
  | case2 inner rest ih =>
    obtain ⟨opened, others⟩ := List.forall_mem_cons.1 each
    cases opened with
    | sum each => exact List.forall_mem_append.2 ⟨each, ih others⟩
  | case3 c rest zero ih => exact ih (List.forall_mem_cons.1 each).2
  | case4 c rest nonzero ih =>
    obtain ⟨first, others⟩ := List.forall_mem_cons.1 each
    exact List.forall_mem_cons.2 ⟨first, ih others⟩
  | case5 term rest notSum notConst ih =>
    obtain ⟨first, others⟩ := List.forall_mem_cons.1 each
    exact List.forall_mem_cons.2 ⟨first, ih others⟩

theorem total {terms : List (Expr ℝ)} (each : ∀ term ∈ terms, Multiaffine unknowns x term) :
    Multiaffine unknowns x (Expr.total terms) := by
  have flat := flatten terms each
  rw [Expr.total]
  generalize Expr.flatten terms = flattened at flat ⊢
  rcases flattened with _ | ⟨term, _ | ⟨second, rest⟩⟩
  · exact .const 0
  · exact flat term List.mem_cons_self
  · exact .sum flat

theorem negate (inner : Multiaffine unknowns x a) : Multiaffine unknowns x (-a) := by
  change Multiaffine unknowns x a.negate
  cases inner with
  | const c => exact .const (-c)
  | neg inner => exact inner
  | var w => exact .neg (.var w)
  | sum each => exact .neg (.sum each)
  | product first second apart => exact .neg (.product first second apart)
  | quotient upper lower held nonzero => exact .neg (.quotient upper lower held nonzero)

theorem add (first : Multiaffine unknowns x a) (second : Multiaffine unknowns x b) :
    Multiaffine unknowns x (a + b) :=
  total (by simpa using ⟨first, second⟩)

theorem sub (first : Multiaffine unknowns x a) (second : Multiaffine unknowns x b) :
    Multiaffine unknowns x (a - b) :=
  total (by simpa using ⟨first, second.negate⟩)

theorem mul (first : Multiaffine unknowns x a) (second : Multiaffine unknowns x b)
    (apart : ∀ v ∈ unknowns, v ∉ a.vars ∨ v ∉ b.vars) : Multiaffine unknowns x (a * b) := by
  rcases mul_cases a b with ⟨c, c', rfl, rfl, built⟩ | ⟨rfl, built⟩ | ⟨rfl, built⟩ | built <;> rw [built]
  · exact .const _
  · exact second
  · exact first
  · exact .product first second apart

theorem scale (c : ℝ) (inner : Multiaffine unknowns x a) : Multiaffine unknowns x (.const c * a) :=
  .mul (.const c) inner fun _ _ => .inl (by simp)

end Operators

end Multiaffine

namespace AffineIn

/-- Along one variable in which it is affine, the value moves by the distance times the slope. -/
theorem valueAt_move {e : Expr ℝ} {v : VarId} (affine : AffineIn v e) (x : VarId → ℝ) (h : ℝ) :
    e.valueAt (x + h • Pi.single v 1) = e.valueAt x + h * e.rate x (Pi.single v 1) := by
  have fixed {a : Expr ℝ} (absent : v ∉ a.vars) :
      a.valueAt (x + h • Pi.single v 1) = a.valueAt x ∧ a.rate x (Pi.single v 1) = 0 := by
    have still : ∀ w ∈ a.vars, (Pi.single v 1 : VarId → ℝ) w = 0 := fun w member =>
      Pi.single_eq_of_ne (by rintro rfl; exact absent member) 1
    exact ⟨valueAt_congr fun w member => by simp [still w member], rate_eq_zero still⟩
  induction affine with
  | const c => simp
  | var w => simp
  | sum each ih =>
    simp only [valueAt_sum_node, rate_sum_node, ← List.sum_map_mul_left, ← List.sum_map_add]
    exact congrArg List.sum (List.map_congr_left ih)
  | product first second apart iha ihb =>
    rw [valueAt_product, iha, ihb, valueAt_product, rate_product]
    rcases apart with absent | absent <;> rw [(fixed absent).2] <;> ring
  | quotient upper lower ih =>
    rw [valueAt_quotient, ih, (fixed lower).1, valueAt_quotient, rate_quotient, (fixed lower).2]
    rename_i a b
    by_cases zero : b.valueAt x = 0
    · simp [zero]
    · field_simp
      ring
  | neg inner ih => rw [valueAt_neg_node, ih, valueAt_neg_node, rate_neg_node]; ring

/-- Along a direction in which no other of its variables moves, the value moves by the rate. -/
theorem valueAt_add {e : Expr ℝ} {v : VarId} (affine : AffineIn v e) {x d : VarId → ℝ}
    (still : ∀ w ∈ e.vars, w ≠ v → d w = 0) : e.valueAt (x + d) = e.valueAt x + e.rate x d := by
  have same : ∀ w ∈ e.vars, d w = (d v • Pi.single v 1 : VarId → ℝ) w := by
    intro w occurs
    by_cases moving : w = v
    · simp [moving]
    · simp [still w occurs moving, moving]
  have value : e.valueAt (x + d) = e.valueAt (x + d v • Pi.single v 1) :=
    valueAt_congr fun w occurs => by rw [Pi.add_apply, same w occurs, Pi.add_apply]
  have rate : e.rate x d = e.rate x (d v • Pi.single v 1) := by
    have none : e.rate x (d - d v • Pi.single v 1) = 0 :=
      rate_eq_zero fun w occurs => by rw [Pi.sub_apply, ← same w occurs, sub_self]
    have split := e.rate_direction_add x (d - d v • Pi.single v 1) (d v • Pi.single v 1)
    rwa [sub_add_cancel, none, zero_add] at split
  rw [value, affine.valueAt_move, rate, rate_direction_smul]

end AffineIn

end Distillation.Expr
