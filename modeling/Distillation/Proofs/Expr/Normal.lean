import Distillation.Proofs.Expr.Variables

namespace Distillation

namespace Expr

variable {K : Type}

/-- Stands in a sum as a term of its own: it is neither a sum, which would be opened, nor a zero. -/
def isTerm [Zero K] [BEq K] : Expr K → Bool
  | sum _ => false
  | const c => !(c == 0)
  | _ => true

/-- Has a negation of its own: a constant changes its sign, and a negation is undone. -/
def isNegatable : Expr K → Bool
  | const _ | neg _ => false
  | _ => true

/-- The constant one. -/
def isUnit [One K] [BEq K] (a : Expr K) : Bool :=
  a.toConst?.any (· == 1)

/-- At every node, a sum has several terms, none of which is a sum or a zero; neither a constant nor a negation is
negated; and no factor of a product is one, nor are both constants. -/
inductive Normal [Zero K] [One K] [BEq K] : Expr K → Prop
  | const (c : K) : Normal (const c)
  | var (v : VarId) : Normal (var v)
  | sum {terms : List (Expr K)} (several : 2 ≤ terms.length) (flat : ∀ term ∈ terms, term.isTerm = true)
      (each : ∀ term ∈ terms, Normal term) : Normal (sum terms)
  | product {a b : Expr K} (left : a.isUnit = false) (right : b.isUnit = false)
      (unfolded : a.toConst? = none ∨ b.toConst? = none) (first : Normal a) (second : Normal b) : Normal (product a b)
  | quotient {a b : Expr K} (upper : Normal a) (lower : Normal b) : Normal (quotient a b)
  | neg {a : Expr K} (negatable : a.isNegatable = true) (inner : Normal a) : Normal (neg a)

/-- Built from constants and variables by the operators alone. Where an operator takes a number on one side, that
number is a constant. -/
inductive Built [Zero K] [One K] [BEq K] [Mul K] [Neg K] : Expr K → Prop
  | const (c : K) : Built (const c)
  | var (v : VarId) : Built (var v)
  | total {terms : List (Expr K)} (each : ∀ term ∈ terms, Built term) : Built (total terms)
  | add {a b : Expr K} (first : Built a) (second : Built b) : Built (a + b)
  | sub {a b : Expr K} (first : Built a) (second : Built b) : Built (a - b)
  | mul {a b : Expr K} (first : Built a) (second : Built b) : Built (a * b)
  | div {a b : Expr K} (upper : Built a) (lower : Built b) : Built (a / b)
  | neg {a : Expr K} (inner : Built a) : Built (-a)

section Closed

variable [Zero K] [One K] [BEq K] [Mul K] [Neg K] {P : Expr K → Prop}

/-- Whatever is built has every property that variables have and operators pass on. -/
theorem Built.of_closed {e : Expr K} (built : Built e) (closed : Closed P) (vars : ∀ v, P (.var v)) : P e := by
  induction built with
  | const c => exact closed.const c
  | var v => exact vars v
  | total _ ih => exact closed.total ih
  | add _ _ iha ihb => exact closed.add iha ihb
  | sub _ _ iha ihb => exact closed.sub iha ihb
  | mul _ _ iha ihb => exact closed.mul iha ihb
  | div _ _ iha ihb => exact closed.div iha ihb
  | neg _ ih => exact closed.neg ih

theorem closed_built : Closed (Built : Expr K → Prop) where
  const := .const
  total := .total
  mul := .mul
  div := .div
  neg := .neg

end Closed

namespace Normal

section Sums

variable [Zero K] [One K] [BEq K]

/-- What is opened are terms, and normal: a sum was flat to begin with. -/
theorem flatten {terms : List (Expr K)} (each : ∀ term ∈ terms, Normal term) :
    ∀ term ∈ Expr.flatten terms, term.isTerm = true ∧ Normal term := by
  fun_induction Expr.flatten terms with
  | case1 => simp
  | case2 inner rest ih =>
    obtain ⟨opened, others⟩ := List.forall_mem_cons.1 each
    cases opened with
    | sum _ flat own => exact List.forall_mem_append.2 ⟨fun term inside => ⟨flat term inside, own term inside⟩, ih others⟩
  | case3 c rest zero ih => exact ih (List.forall_mem_cons.1 each).2
  | case4 c rest nonzero ih =>
    obtain ⟨first, others⟩ := List.forall_mem_cons.1 each
    exact List.forall_mem_cons.2 ⟨⟨by simp [isTerm, nonzero], first⟩, ih others⟩
  | case5 term rest notSum notConst ih =>
    obtain ⟨first, others⟩ := List.forall_mem_cons.1 each
    refine List.forall_mem_cons.2 ⟨⟨?_, first⟩, ih others⟩
    cases term with
    | sum inner => exact absurd rfl (notSum inner)
    | const c => exact absurd rfl (notConst c)
    | var _ | product _ _ | quotient _ _ | neg _ => rfl

theorem ofTerms {terms : List (Expr K)} (each : ∀ term ∈ terms, term.isTerm = true ∧ Normal term) :
    Normal (Expr.ofTerms terms) := by
  rcases terms with _ | ⟨term, _ | ⟨second, rest⟩⟩
  · exact .const 0
  · exact (each term List.mem_cons_self).2
  · exact .sum (by simp) (fun term inside => (each term inside).1) fun term inside => (each term inside).2

theorem total {terms : List (Expr K)} (each : ∀ term ∈ terms, Normal term) : Normal (Expr.total terms) :=
  ofTerms (flatten each)

end Sums

section Operators

variable [Zero K] [One K] [BEq K] {a b : Expr K}

theorem negate [Neg K] (inner : Normal a) : Normal (-a) := by
  cases inner with
  | const c => exact .const (-c)
  | var v => exact .neg rfl (.var v)
  | sum several flat each => exact .neg rfl (.sum several flat each)
  | product left right unfolded first second => exact .neg rfl (.product left right unfolded first second)
  | quotient upper lower => exact .neg rfl (.quotient upper lower)
  | neg _ inner => exact inner

/-- Of two factors that are not both constants, a unit is left out. -/
theorem multiply [Mul K] (first : Normal a) (second : Normal b) : Normal (a * b) := by
  rw [mul_def, Expr.multiply]
  split
  · exact .const _
  · rename_i x left right
    split
    · exact second
    · rename_i notUnit
      exact .product (by simp [isUnit, left, notUnit]) (by simp [isUnit, right]) (.inr right) first second
  · rename_i y left right
    split
    · exact first
    · rename_i notUnit
      exact .product (by simp [isUnit, left]) (by simp [isUnit, right, notUnit]) (.inl left) first second
  · rename_i left right
    exact .product (by simp [isUnit, left]) (by simp [isUnit, right]) (.inl left) first second

theorem closed [Mul K] [Neg K] : Closed (Normal : Expr K → Prop) where
  const := .const
  total := total
  mul := multiply
  div := .quotient
  neg := negate

end Operators

end Normal

/-- Whatever the operators build is in normal form. -/
theorem Built.normal [Zero K] [One K] [BEq K] [Mul K] [Neg K] {e : Expr K} (built : Built e) : Normal e :=
  built.of_closed Normal.closed .var

end Expr

end Distillation
