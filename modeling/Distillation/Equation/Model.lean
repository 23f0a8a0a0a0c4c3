import Distillation.Equation.Family

namespace Distillation

/-- The families of equations that a solver works on. -/
structure Model (K : Type) where
  name : String
  families : List (Family K)

namespace Model

variable {K : Type}

/-- The equations of the active families, in order. -/
def equations (model : Model K) : List (Constraint K) :=
  (model.families.filter (·.active)).flatMap (·.constraints)

/-- The variables that the equations refer to, in increasing order. -/
def referenced (model : Model K) : List VarId :=
  model.equations.foldl (fun ids c => c.body.collect ids) []

/-- The free ones of the referenced variables. -/
def unknowns (model : Model K) (s : Store K) : List VarId :=
  s.free model.referenced

/-- The number of unknowns less the number of equations. -/
def freedom (model : Model K) (s : Store K) : Int :=
  (model.unknowns s).length - model.equations.length

/-- Whether a store knows every variable that the equations refer to. -/
def inScope (model : Model K) (s : Store K) : Bool :=
  model.referenced.all (· < s.size)

theorem foldl_collect_increasing (cs : List (Constraint K)) :
    ∀ ids : List VarId, ids.Pairwise (· < ·) →
      (cs.foldl (fun ids c => c.body.collect ids) ids).Pairwise (· < ·) := by
  induction cs with
  | nil => exact fun _ increasing => increasing
  | cons c rest ih =>
    exact fun ids increasing => ih _ (Expr.collect_increasing ids increasing c.body)

theorem referenced_increasing (model : Model K) : model.referenced.Pairwise (· < ·) :=
  foldl_collect_increasing model.equations [] .nil

theorem unknowns_increasing (model : Model K) (s : Store K) :
    (model.unknowns s).Pairwise (· < ·) :=
  model.referenced_increasing.filter _

end Model

end Distillation
