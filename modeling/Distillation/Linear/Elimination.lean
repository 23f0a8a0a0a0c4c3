import Distillation.Scalar

namespace Distillation.Linear

/-- An equation of a linear system. -/
structure Row (K : Type) where
  coefficients : List K
  right : K

variable {K : Type} [Scalar K]

namespace Row

/-- The coefficient of the first unknown. -/
def leading (row : Row K) : K :=
  row.coefficients.headD 0

/-- The row without its first unknown. -/
def rest (row : Row K) : Row K :=
  { row with coefficients := row.coefficients.tail }

/-- Takes a multiple of the pivot row away from a row so that its first unknown vanishes. -/
def reduce (pivot row : Row K) : Row K :=
  let factor := row.leading * (1 / pivot.leading)
  { coefficients :=
      List.zipWith (fun a p => a + -p * factor) row.coefficients.tail pivot.coefficients.tail
    right := row.right + -pivot.right * factor }

/-- The first unknown, given the others. The last of them is put in first. -/
def solveFirst (row : Row K) (others : List K) : K :=
  (row.coefficients.tail.zip others).foldr (fun (a, x) sum => sum + -x * a) row.right / row.leading

end Row

/-- The position of the first row whose first coefficient is largest in magnitude, looking through
`rows` from position `at` on, and that magnitude. -/
def pivotFrom (best : Nat × K) (position : Nat) : List (Row K) → Nat × K
  | [] => best
  | row :: rows =>
    let size := Scalar.abs row.leading
    pivotFrom (if Scalar.lt best.2 size then (position, size) else best) (position + 1) rows

/-- Brings the pivot row to the top by exchanging it with the row that stands there. -/
def exchange (top : Row K) (rows : List (Row K)) : Row K × List (Row K) :=
  match (pivotFrom (0, Scalar.abs top.leading) 1 rows).1 with
  | 0 => (top, rows)
  | i + 1 => (rows.getD i top, rows.set i top)

/-- Solves a system in `n` unknowns. A column without a nonzero pivot makes it singular. -/
def eliminate : Nat → List (Row K) → Option (List K)
  | 0, _ => some []
  | _ + 1, [] => none
  | n + 1, top :: rows =>
    let (pivot, others) := exchange top rows
    if pivot.leading == 0 then none
    else do
      let solution ← eliminate n (others.map (Row.reduce pivot))
      return pivot.solveFirst solution :: solution

/-- Solves a square system given by the rows of its matrix and its right-hand side. -/
def solve (matrix : List (List K)) (right : List K) : Option (List K) :=
  eliminate right.length (List.zipWith Row.mk matrix right)

end Distillation.Linear
