import Distillation.Expr.Basic

namespace Distillation.Expr

variable {K S : Type} [Zero K] [Add S] [Mul S] [Div S] [Neg S]

mutual

/-- Reads an expression in a number type `S`, given how constants and variables are read. -/
def evalWith (lift : K → S) (lookup : VarId → S) : Expr K → S
  | const c => lift c
  | var v => lookup v
  | sum terms => evalTerms lift lookup (lift 0) terms
  | product a b => evalWith lift lookup a * evalWith lift lookup b
  | quotient a b => evalWith lift lookup a / evalWith lift lookup b
  | neg a => -evalWith lift lookup a

/-- Adds terms to a running sum, from the left. -/
def evalTerms (lift : K → S) (lookup : VarId → S) (running : S) : List (Expr K) → S
  | [] => running
  | term :: rest => evalTerms lift lookup (running + evalWith lift lookup term) rest

end

theorem evalTerms_eq_foldl (lift : K → S) (lookup : VarId → S) (terms : List (Expr K)) :
    ∀ running : S, evalTerms lift lookup running terms =
      terms.foldl (fun sum term => sum + evalWith lift lookup term) running := by
  induction terms with
  | nil => intro running; rw [evalTerms, List.foldl_nil]
  | cons term rest ih => intro running; rw [evalTerms, List.foldl_cons, ih]

variable {K : Type} [Scalar K]

/-- The value under an assignment of numbers to variables. -/
def valueAt (e : Expr K) (lookup : VarId → K) : K :=
  e.evalWith id lookup

/-- The value in a store. -/
def eval (e : Expr K) (s : Store K) : K :=
  e.valueAt s.value

/-- An assignment along which one variable moves. -/
def seeded (lookup : VarId → K) (moving : VarId) (v : VarId) : Dual K :=
  if v = moving then Dual.unknown (lookup v) else Dual.constant (lookup v)

/-- The value and the partial derivative by one variable. -/
def dualAt (e : Expr K) (lookup : VarId → K) (moving : VarId) : Dual K :=
  e.evalWith Dual.constant (seeded lookup moving)

end Distillation.Expr
