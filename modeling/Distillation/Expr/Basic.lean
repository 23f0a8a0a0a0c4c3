import Distillation.Store

namespace Distillation

/-- Algebraic expressions over the variables of a store. The constructors build a tree as it stands;
the operators build it in normal form: sums are flat and without zero constants, a factor one is
left out, a negation is never negated again. -/
inductive Expr (K : Type) where
  | const (c : K)
  | var (v : VarId)
  | sum (terms : List (Expr K))
  | product (a b : Expr K)
  | quotient (a b : Expr K)
  | neg (a : Expr K)

namespace Expr

variable {K : Type}

instance [Zero K] : Zero (Expr K) where
  zero := const 0

instance [Zero K] : Inhabited (Expr K) where
  default := 0

/-- Opens the sums among some terms, one level deep, and drops the zero constants between them. -/
def flatten [Zero K] [BEq K] : List (Expr K) → List (Expr K)
  | [] => []
  | sum terms :: rest => terms ++ flatten rest
  | const c :: rest => if c == 0 then flatten rest else const c :: flatten rest
  | term :: rest => term :: flatten rest

/-- A sum of no terms is zero, a sum of one is that term. -/
def ofTerms [Zero K] : List (Expr K) → Expr K
  | [] => const 0
  | [term] => term
  | terms => sum terms

/-- The sum of some expressions as one flat sum. -/
def total [Zero K] [BEq K] (terms : List (Expr K)) : Expr K :=
  ofTerms (flatten terms)

/-- The constant that an expression is, if it is one. -/
def toConst? : Expr K → Option K
  | const c => some c
  | _ => none

/-- The variable that an expression is, if it is one. -/
def toVar? : Expr K → Option VarId
  | var v => some v
  | _ => none

def add [Zero K] [BEq K] (a b : Expr K) : Expr K :=
  total [a, b]

def negate [Neg K] : Expr K → Expr K
  | const c => const (-c)
  | neg a => a
  | a => neg a

def subtract [Zero K] [BEq K] [Neg K] (a b : Expr K) : Expr K :=
  total [a, b.negate]

def multiply [One K] [BEq K] [Mul K] (a b : Expr K) : Expr K :=
  match a.toConst?, b.toConst? with
  | some x, some y => const (x * y)
  | some x, none => if x == 1 then b else product a b
  | none, some y => if y == 1 then a else product a b
  | none, none => product a b

instance [Zero K] [BEq K] : Add (Expr K) where
  add := add

instance [Zero K] [BEq K] [Neg K] : Sub (Expr K) where
  sub := subtract

instance [One K] [BEq K] [Mul K] : Mul (Expr K) where
  mul := multiply

instance : Div (Expr K) where
  div := quotient

instance [Neg K] : Neg (Expr K) where
  neg := negate

section Operators

variable (a b : Expr K)

theorem zero_def [Zero K] : (0 : Expr K) = const 0 := rfl

theorem add_def [Zero K] [BEq K] : a + b = total [a, b] := rfl

theorem sub_def [Zero K] [BEq K] [Neg K] : a - b = total [a, -b] := rfl

theorem mul_def [One K] [BEq K] [Mul K] : a * b = multiply a b := rfl

@[simp] theorem div_def : a / b = quotient a b := rfl

@[simp] theorem neg_const [Neg K] (c : K) : -(const c) = const (-c) := rfl

@[simp] theorem neg_neg_node [Neg K] : -(neg a) = a := rfl

end Operators

end Expr

end Distillation
