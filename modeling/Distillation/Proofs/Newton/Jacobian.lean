import Distillation.Newton.Solver
import Distillation.Proofs.Action

namespace Distillation.Newton

variable {K : Type} [Scalar K]

/-- What is wrong with a residual, if anything. -/
def notFinite? (name : String) (r : K) : Option SolverError :=
  if Scalar.isFinite r then none else some (.nonFiniteResidual name)

/-- Residuals fail with the first that is not finite. -/
theorem residuals_eq (cs : List (Constraint K)) (s : Store K) :
    residuals cs s = (cs.findSome? fun c => notFinite? c.name (c.residual s)).elim
      (.ok (cs.map (·.residual s))) .error := by
  refine mapM_eq_findSome? _ _ fun c _ => ?_
  rw [finiteResidual, notFinite?]
  cases Scalar.isFinite (c.residual s) <;> rfl

omit [Scalar K] in
theorem rowsOfColumns_map {α : Type} (entry : VarId → α → K) (rows : List α) (unknowns : List VarId) :
    rowsOfColumns rows.length (unknowns.map fun v => rows.map (entry v)) =
      rows.map fun row => unknowns.map fun v => entry v row := by
  induction unknowns with
  | nil => simp [rowsOfColumns]
  | cons v rest ih =>
    rw [List.map_cons, rowsOfColumns, List.foldr_cons, ← rowsOfColumns, ih, List.zipWith_map,
      List.zipWith_self]
    rfl

variable (cs : List (Constraint K)) (unknowns : List VarId) (base : List K) (s : Store K)

theorem differenceJacobian_eq (step : K) : (differenceJacobian cs unknowns step base).on s =
    ((unknowns.mapM fun v => ((differences cs step base v).on s).1).map (rowsOfColumns cs.length), s) := by
  have columns := Action.on_mapM_of_steady (differences cs step base) unknowns fun v _ =>
    differences_on_snd cs step base v s
  rw [differenceJacobian, Action.on_bind, columns]
  cases unknowns.mapM fun v => ((differences cs step base v).on s).1 <;> rfl

/-- Whatever a Jacobian comes to, the store is as before. -/
theorem jacobian_on_snd (engine : Engine) (config : Config K) :
    ((jacobian engine config cs unknowns base).on s).2 = s := by
  cases engine with
  | differences => exact congrArg Prod.snd (differenceJacobian_eq cs unknowns base s config.differenceStep)
  | exact => rfl

end Distillation.Newton
