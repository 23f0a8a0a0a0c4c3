import Distillation.Expr.Basic

namespace Distillation.Expr

variable {K : Type}

mutual

/-- Whether two trees have one shape and equal leaves, constants being compared as numbers. -/
def same [BEq K] : Expr K → Expr K → Bool
  | const c, const d => c == d
  | var v, var w => v == w
  | sum xs, sum ys => sameTerms xs ys
  | product a b, product c d => same a c && same b d
  | quotient a b, quotient c d => same a c && same b d
  | neg a, neg b => same a b
  | _, _ => false

def sameTerms [BEq K] : List (Expr K) → List (Expr K) → Bool
  | [], [] => true
  | x :: xs, y :: ys => same x y && sameTerms xs ys
  | _, _ => false

end

instance [BEq K] : BEq (Expr K) where
  beq := same

mutual

/-- A sum stands in parentheses and nothing else does; a variable is written by its number. -/
def text (number : K → String) : Expr K → String
  | const c => number c
  | var v => "v" ++ toString v
  | sum terms => "(" ++ textTerms number terms ++ ")"
  | product a b => text number a ++ "*" ++ text number b
  | quotient a b => text number a ++ "/" ++ text number b
  | neg a => "-" ++ text number a

def textTerms (number : K → String) : List (Expr K) → String
  | [] => ""
  | [term] => text number term
  | term :: next :: rest => text number term ++ " + " ++ textTerms number (next :: rest)

end

end Distillation.Expr
