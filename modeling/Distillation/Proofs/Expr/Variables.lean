import Mathlib.Data.List.Basic
import Distillation.Equation.Model

namespace Distillation

namespace Expr

variable {K : Type}

/-- Induction over expressions, with the hypothesis for every term of a sum. -/
@[elab_as_elim, induction_eliminator]
theorem induction {motive : Expr K → Prop} (const : ∀ c, motive (.const c))
    (var : ∀ v, motive (.var v))
    (sum : ∀ terms : List (Expr K), (∀ term ∈ terms, motive term) → motive (.sum terms))
    (product : ∀ a b, motive a → motive b → motive (.product a b))
    (quotient : ∀ a b, motive a → motive b → motive (.quotient a b))
    (neg : ∀ a, motive a → motive (.neg a)) (e : Expr K) : motive e :=
  @Expr.rec K motive (fun terms => ∀ term ∈ terms, motive term) const var sum product quotient neg
    (List.forall_mem_nil _) (fun _ _ first later => List.forall_mem_cons.2 ⟨first, later⟩) e

/-- Collecting from terms one after another adds what each of them adds. -/
theorem mem_collectTerms_of {v : VarId} (terms : List (Expr K))
    (each : ∀ term ∈ terms, ∀ ids, v ∈ collect ids term ↔ v ∈ ids ∨ v ∈ term.vars) :
    ∀ ids, v ∈ collectTerms ids terms ↔ v ∈ ids ∨ ∃ term ∈ terms, v ∈ term.vars := by
  induction terms with
  | nil => intro ids; simp [collectTerms]
  | cons term rest ih =>
    intro ids
    rw [collectTerms, ih fun other inside => each other (List.mem_cons_of_mem _ inside),
      each term List.mem_cons_self]
    simp only [List.exists_mem_cons_iff, or_assoc]

theorem mem_collect {v : VarId} (e : Expr K) :
    ∀ ids, v ∈ collect ids e ↔ v ∈ ids ∨ v ∈ e.vars := by
  induction e with
  | const c => intro ids; simp [vars, collect]
  | var w => intro ids; simp [vars, collect, mem_placeId, or_comm]
  | sum terms ih =>
    intro ids
    rw [vars, collect, collect, mem_collectTerms_of terms ih, mem_collectTerms_of terms ih]
    simp
  | product a b iha ihb =>
    intro ids
    rw [vars, collect, collect, ihb, iha, ihb, or_assoc]
    rfl
  | quotient a b iha ihb =>
    intro ids
    rw [vars, collect, collect, ihb, iha, ihb, or_assoc]
    rfl
  | neg a ih => intro ids; rw [vars, collect, collect, ih, ih]; simp

section Constructors

variable {v w : VarId} {a b : Expr K}

@[simp] theorem vars_const (c : K) : (const c).vars = [] := by rw [vars, collect]

@[simp] theorem vars_var (w : VarId) : (var w : Expr K).vars = [w] := by rw [vars, collect, placeId]

@[simp] theorem mem_vars_sum {terms : List (Expr K)} :
    v ∈ (sum terms).vars ↔ ∃ term ∈ terms, v ∈ term.vars := by
  rw [vars, collect, mem_collectTerms_of terms fun term _ => mem_collect term]
  simp

@[simp] theorem mem_vars_product : v ∈ (product a b).vars ↔ v ∈ a.vars ∨ v ∈ b.vars := by
  rw [vars, collect, mem_collect b]
  rfl

@[simp] theorem mem_vars_quotient : v ∈ (quotient a b).vars ↔ v ∈ a.vars ∨ v ∈ b.vars := by
  rw [vars, collect, mem_collect b]
  rfl

@[simp] theorem vars_neg_node : (neg a).vars = a.vars := by rw [vars, collect, vars]

end Constructors

section Operators

variable {v : VarId} {a b : Expr K}

theorem mem_vars_flatten [Zero K] [BEq K] (terms : List (Expr K)) :
    (∃ term ∈ flatten terms, v ∈ term.vars) ↔ ∃ term ∈ terms, v ∈ term.vars := by
  fun_induction flatten terms with
  | case1 => simp
  | case2 inner rest ih =>
    simp only [List.mem_append, or_and_right, exists_or, ih, List.exists_mem_cons_iff, mem_vars_sum]
  | case3 c rest zero ih => simp [ih]
  | case4 c rest nonzero ih => simp [ih]
  | case5 term rest notSum notConst ih => simp only [List.exists_mem_cons_iff, ih]

theorem mem_vars_ofTerms [Zero K] (terms : List (Expr K)) :
    v ∈ (ofTerms terms).vars ↔ ∃ term ∈ terms, v ∈ term.vars := by
  rcases terms with _ | ⟨term, _ | ⟨second, rest⟩⟩
  · simp [ofTerms]
  · simp [ofTerms]
  · simp only [ofTerms, mem_vars_sum]

@[simp] theorem mem_vars_total [Zero K] [BEq K] (terms : List (Expr K)) :
    v ∈ (total terms).vars ↔ ∃ term ∈ terms, v ∈ term.vars := by
  rw [total, mem_vars_ofTerms, mem_vars_flatten]

@[simp] theorem vars_neg [Neg K] (a : Expr K) : (-a).vars = a.vars := by
  change a.negate.vars = a.vars
  cases a <;> simp [negate]

@[simp] theorem mem_vars_add [Zero K] [BEq K] : v ∈ (a + b).vars ↔ v ∈ a.vars ∨ v ∈ b.vars := by
  simp [add_def]

@[simp] theorem mem_vars_sub [Zero K] [BEq K] [Neg K] :
    v ∈ (a - b).vars ↔ v ∈ a.vars ∨ v ∈ b.vars := by
  simp [sub_def]

theorem vars_of_toConst? {c : K} (constant : a.toConst? = some c) : a.vars = [] := by
  cases a <;> simp_all [toConst?]

/-- A factor is left out only where it is a constant. -/
@[simp] theorem mem_vars_mul [One K] [BEq K] [Mul K] :
    v ∈ (a * b).vars ↔ v ∈ a.vars ∨ v ∈ b.vars := by
  rw [mul_def, multiply]
  split
  · rename_i x y first second
    simp [vars_of_toConst? first, vars_of_toConst? second]
  · rename_i x first second
    split <;> simp [vars_of_toConst? first]
  · rename_i y first second
    split <;> simp [vars_of_toConst? second]
  · simp

end Operators

section Closed

variable [Zero K] [One K] [BEq K] [Mul K] [Neg K] {P : Expr K → Prop} {a b : Expr K}

/-- A property that constants have and that every operator passes on from its operands. A sum of two is a total, and
a difference the sum with a negation. -/
structure Closed (P : Expr K → Prop) : Prop where
  const : ∀ c, P (.const c)
  total : ∀ {terms}, (∀ term ∈ terms, P term) → P (.total terms)
  mul : ∀ {a b}, P a → P b → P (a * b)
  div : ∀ {a b}, P a → P b → P (a / b)
  neg : ∀ {a}, P a → P (-a)

theorem Closed.add (closed : Closed P) (first : P a) (second : P b) : P (a + b) :=
  closed.total (List.forall_mem_cons.2 ⟨first, List.forall_mem_singleton.2 second⟩)

theorem Closed.sub (closed : Closed P) (first : P a) (second : P b) : P (a - b) :=
  closed.add first (closed.neg second)

/-- Operators refer to no more variables than their operands. -/
theorem closed_vars (R : VarId → Prop) : Closed fun e : Expr K => ∀ v ∈ e.vars, R v where
  const := by simp
  total each v occurs := by
    obtain ⟨term, inside, occurs⟩ := (mem_vars_total _).1 occurs
    exact each term inside v occurs
  mul first second v occurs := (mem_vars_mul.1 occurs).elim (first v) (second v)
  div upper lower v occurs := (mem_vars_quotient.1 occurs).elim (upper v) (lower v)
  neg inner v occurs := by
    rw [vars_neg] at occurs
    exact inner v occurs

end Closed

section Dependence

variable {S : Type} [Zero K] [Add S] [Mul S] [Div S] [Neg S] {lift : K → S} {f g : VarId → S}

theorem evalTerms_congr (terms : List (Expr K))
    (each : ∀ term ∈ terms, evalWith lift f term = evalWith lift g term) :
    ∀ running, evalTerms lift f running terms = evalTerms lift g running terms := by
  induction terms with
  | nil => intro running; rw [evalTerms, evalTerms]
  | cons term rest ih =>
    intro running
    rw [evalTerms, evalTerms, each term List.mem_cons_self,
      ih fun other inside => each other (List.mem_cons_of_mem _ inside)]

/-- In any number type, an expression depends on no variable but those that it refers to. -/
theorem evalWith_congr (e : Expr K) (agree : ∀ v ∈ e.vars, f v = g v) :
    e.evalWith lift f = e.evalWith lift g := by
  induction e with
  | const c => rw [evalWith, evalWith]
  | var v => simpa [evalWith] using agree
  | sum terms ih =>
    rw [evalWith, evalWith]
    refine evalTerms_congr terms (fun term inside => ih term inside fun v member => ?_) _
    exact agree v (mem_vars_sum.2 ⟨term, inside, member⟩)
  | product a b iha ihb =>
    rw [evalWith, evalWith, iha fun v member => agree v (mem_vars_product.2 (.inl member)),
      ihb fun v member => agree v (mem_vars_product.2 (.inr member))]
  | quotient a b iha ihb =>
    rw [evalWith, evalWith, iha fun v member => agree v (mem_vars_quotient.2 (.inl member)),
      ihb fun v member => agree v (mem_vars_quotient.2 (.inr member))]
  | neg a ih => rw [evalWith, evalWith, ih (by simpa using agree)]

end Dependence

end Expr

namespace Model

variable {K : Type}

theorem mem_equations {model : Model K} {c : Constraint K} :
    c ∈ model.equations ↔ ∃ family ∈ model.families, family.active = true ∧ c ∈ family.constraints := by
  simp only [equations, List.mem_flatMap, List.mem_filter, and_assoc]

/-- With all families switched on, the equations are those of all families. -/
theorem equations_of_active {model : Model K} (active : ∀ family ∈ model.families, family.active = true) :
    model.equations = model.families.flatMap (·.constraints) := by
  rw [equations, List.filter_eq_self.2 active]

theorem mem_foldl_collect {v : VarId} (cs : List (Constraint K)) :
    ∀ ids, v ∈ cs.foldl (fun ids c => c.body.collect ids) ids ↔
      v ∈ ids ∨ ∃ c ∈ cs, v ∈ c.body.vars := by
  induction cs with
  | nil => simp
  | cons c rest ih =>
    intro ids
    rw [List.foldl_cons, ih, Expr.mem_collect]
    simp only [List.exists_mem_cons_iff, or_assoc]

theorem mem_referenced {model : Model K} {v : VarId} :
    v ∈ model.referenced ↔ ∃ c ∈ model.equations, v ∈ c.body.vars := by
  rw [referenced, mem_foldl_collect]
  simp

theorem mem_unknowns {model : Model K} {s : Store K} {v : VarId} :
    v ∈ model.unknowns s ↔ s.isFixed v = false ∧ ∃ c ∈ model.equations, v ∈ c.body.vars := by
  rw [unknowns, Store.free, List.mem_filter, mem_referenced, and_comm, Bool.not_eq_true']

theorem unknowns_nodup (model : Model K) (s : Store K) : (model.unknowns s).Nodup :=
  (model.unknowns_increasing s).imp Nat.ne_of_lt

end Model

end Distillation
