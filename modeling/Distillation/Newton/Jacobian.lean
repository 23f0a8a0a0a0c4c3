import Distillation.Action
import Distillation.Newton.Outcome

namespace Distillation.Newton

variable {K : Type} [Scalar K]

/-- The residual of one equation, if it is finite. -/
def finiteResidual (s : Store K) (c : Constraint K) : Except SolverError K :=
  let r := c.residual s
  if Scalar.isFinite r then .ok r else .error (.nonFiniteResidual c.name)

/-- The residuals of some equations. The first that is not finite is an error. -/
def residuals (cs : List (Constraint K)) (s : Store K) : Except SolverError (List K) :=
  cs.mapM (finiteResidual s)

/-- The partial derivatives of one residual. -/
def gradient (c : Constraint K) (unknowns : List VarId) (s : Store K) : List K :=
  unknowns.map fun v => (c.body.dualAt s.value v).slope

/-- The exact Jacobian: a row for each equation, with a column for each unknown. Variables other than
the unknowns are held. -/
def exactJacobian (cs : List (Constraint K)) (unknowns : List VarId) (s : Store K) :
    List (List K) :=
  cs.map fun c => gradient c unknowns s

/-- One residual with its row of the exact Jacobian. -/
def residualGradient (c : Constraint K) (unknowns : List VarId) (s : Store K) : K × List K :=
  (c.residual s, (exactJacobian [c] unknowns s).headD [])

/-- How far a variable is moved to take a difference. -/
def increment (step x : K) : K :=
  step * Scalar.max (Scalar.abs x) 1

/-- The forward differences by one variable. The variable is moved in the store and put back. -/
def differences (cs : List (Constraint K)) (step : K) (base : List K) (v : VarId) :
    Action K SolverError (List K) := fun s =>
  let x := s.value v
  let h := increment step x
  let moved := s.set v (x + h)
  ((residuals cs moved).map fun fs => List.zipWith (fun f r => (f - r) / h) fs base,
    moved.set v x)

/-- The rows of a matrix given by its columns. -/
def rowsOfColumns (count : Nat) (columns : List (List K)) : List (List K) :=
  columns.foldr (List.zipWith List.cons) (List.replicate count [])

/-- The Jacobian by forward differences from the residuals `base`, column by column. -/
def differenceJacobian (cs : List (Constraint K)) (unknowns : List VarId) (step : K)
    (base : List K) : Action K SolverError (List (List K)) := do
  let columns ← unknowns.mapM (differences cs step base)
  return rowsOfColumns cs.length columns

/-- Taking a difference leaves the store as it was. -/
theorem differences_on_snd (cs : List (Constraint K)) (step : K) (base : List K) (v : VarId)
    (s : Store K) : ((differences cs step base v).on s).2 = s :=
  s.set_set_value v _

end Distillation.Newton
