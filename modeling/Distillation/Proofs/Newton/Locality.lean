import Distillation.Proofs.Newton.Rollback
import Distillation.Proofs.Store.Agreement

namespace Distillation

variable {σ K : Type} {seen : VarId → Prop}

namespace Solver

/-- Stores that agree on what is seen are answered alike on a model. -/
def Local (solver : Solver σ K) (seen : VarId → Prop) (model : Model K) : Prop :=
  ∀ trace memory (s t : Store K), s.Agree seen t →
    (solver.solve model trace (memory, t)).1 = (solver.solve model trace (memory, s)).1 ∧
    (solver.solve model trace (memory, t)).2.1 = (solver.solve model trace (memory, s)).2.1 ∧
    (solver.solve model trace (memory, s)).2.2.Agree seen (solver.solve model trace (memory, t)).2.2

/-- The solver leaves every variable alone that the equations of a model do not refer to. -/
def Confined (solver : Solver σ K) (model : Model K) : Prop :=
  ∀ trace memory (s : Store K), s.Agree (· ∉ model.referenced) (solver.solve model trace (memory, s)).2.2

end Solver

namespace Newton

/-- Runs that end alike, in stores that agree. -/
structure Run.Agree (seen : VarId → Prop) (first second : Run K) : Prop where
  result : second.result = first.result
  stats : second.stats = first.stats
  store : first.store.Agree seen second.store

variable [Scalar K] {s t : Store K}

section Equations

variable {cs : List (Constraint K)} {unknowns : List VarId} (reads : ∀ c ∈ cs, ∀ v ∈ c.body.vars, seen v)
  (own : ∀ v ∈ unknowns, seen v)
include reads

theorem residuals_agree (agree : s.Agree seen t) : residuals cs t = residuals cs s := by
  refine mapM_congr fun c inside => ?_
  have same : c.residual t = c.residual s := agree.eval (reads c inside)
  rw [finiteResidual, same, finiteResidual]

theorem exactJacobian_agree (agree : s.Agree seen t) : exactJacobian cs unknowns t = exactJacobian cs unknowns s := by
  refine List.map_congr_left fun c inside => List.map_congr_left fun v _ => ?_
  refine congrArg Dual.slope (Expr.evalWith_congr c.body fun w occurs => ?_)
  rw [Expr.seeded, Expr.seeded, agree.value (reads c inside w occurs)]

theorem differences_local (step : K) (base : List K) {v : VarId} (inside : seen v) :
    Action.Local seen (differences cs step base v) := by
  intro s t agree
  have moved := agree.set v (s.value v + increment step (s.value v))
  refine ⟨?_, ?_⟩
  · change Except.map _ (residuals cs _) = Except.map _ (residuals cs _)
    rw [agree.value inside, residuals_agree reads moved]
  · change Store.Agree seen (Store.set _ v _) (Store.set _ v _)
    rw [agree.value inside]
    exact moved.set v _

include own

theorem jacobian_local (engine : Engine) (config : Config K) (base : List K) :
    Action.Local seen (jacobian engine config cs unknowns base) := by
  cases engine with
  | differences =>
    refine .bind (.mapM fun v unknown => ?_) fun columns => .pure seen _
    exact differences_local reads config.differenceStep base (own v unknown)
  | exact => exact fun s t agree => ⟨congrArg Except.ok (exactJacobian_agree reads agree), agree⟩

omit reads in
theorem advance_agree (damping : K) (direction : List K) (agree : s.Agree seen t) :
    (advance damping s (unknowns.zip direction)).Agree seen (advance damping t (unknowns.zip direction)) := by
  have each : ∀ step ∈ unknowns.zip direction, seen step.1 := fun step inside => own _ (List.of_mem_zip inside).1
  unfold advance
  generalize unknowns.zip direction = steps at each
  induction steps generalizing s t with
  | nil => exact agree
  | cons step rest ih =>
    obtain ⟨first, later⟩ := List.forall_mem_cons.1 each
    rw [List.foldl_cons, List.foldl_cons]
    refine ih ?_ later
    dsimp only
    rw [agree.value first]
    exact agree.set step.1 _

/-- Rounds on agreeing stores go the same way, so that the iterations end alike. -/
theorem iterate_agree (engine : Engine) (linear : LinearSolver K) (config : Config K) (left : Nat) :
    ∀ (k : Nat) (before : SolverStats K) {s t : Store K}, s.Agree seen t →
      (iterate engine linear config cs unknowns left k before s).Agree seen
        (iterate engine linear config cs unknowns left k before t) := by
  induction left with
  | zero => exact fun _ _ _ _ agree => ⟨rfl, rfl, agree⟩
  | succ left ih =>
    intro k before s t agree
    rw [iterate, iterate, residuals_agree reads agree]
    cases residuals cs s with
    | error e => exact ⟨rfl, rfl, agree⟩
    | ok base =>
      dsimp only
      split
      · exact ⟨rfl, rfl, agree⟩
      split
      · exact ⟨rfl, rfl, agree⟩
      obtain ⟨same, kept⟩ := jacobian_local reads own engine config base s t agree
      rcases evaluated : (jacobian engine config cs unknowns base).on s with ⟨result, s'⟩
      rcases evaluated' : (jacobian engine config cs unknowns base).on t with ⟨result', t'⟩
      rw [evaluated, evaluated'] at same kept
      cases same
      cases result with
      | error e => exact ⟨rfl, rfl, kept⟩
      | ok matrix =>
        dsimp only
        cases linear matrix (base.map (-·)) with
        | none => exact ⟨rfl, rfl, kept⟩
        | some direction => exact ih _ _ (advance_agree own config.damping direction kept)

end Equations

section Model

variable (engine : Engine) (linear : LinearSolver K) (config : Config K) {model : Model K}
  (reads : ∀ v ∈ model.referenced, seen v)
include reads

omit [Scalar K] in
theorem unknowns_agree (agree : s.Agree seen t) : model.unknowns t = model.unknowns s :=
  List.filter_congr fun v inside => by rw [agree.isFixed (reads v inside)]

theorem run_agree (agree : s.Agree seen t) :
    (run engine linear config model s).Agree seen (run engine linear config model t) := by
  unfold run
  dsimp only
  rw [unknowns_agree reads agree]
  split
  · refine iterate_agree (fun c inside v occurs => reads v (Model.mem_referenced.2 ⟨c, inside, occurs⟩))
      (fun v unknown => reads v (List.mem_filter.1 unknown).1) _ _ _ _ _ _ agree
  · exact ⟨rfl, rfl, agree⟩

theorem solve_agree (agree : s.Agree seen t) :
    (solve engine linear config model t).1 = (solve engine linear config model s).1 ∧
      (solve engine linear config model s).2.Agree seen (solve engine linear config model t).2 := by
  have ended := run_agree engine linear config reads agree
  have reported : (run engine linear config model t).termination = (run engine linear config model s).termination := by
    rw [Run.termination, ended.result, Run.termination]
  rw [solve_outcome, solve_outcome, solve_kept, solve_kept, reported, ended.stats]
  refine ⟨rfl, ?_⟩
  split
  · exact ended.store
  · exact agree

theorem admits_agree (agree : s.Agree seen t) : admits config model t = admits config model s := by
  have scope : model.inScope t = model.inScope s := by
    rw [Bool.eq_iff_iff]
    simp only [Model.inScope, List.all_eq_true, decide_eq_true_eq]
    exact forall₂_congr fun v inside => agree.known (reads v inside)
  rw [admits, admits, scope, unknowns_agree reads agree]

theorem solverWith_local : (solverWith engine linear config).Local seen model := by
  intro trace memory s t agree
  unfold solverWith
  dsimp only
  rw [admits_agree config reads agree]
  split
  · obtain ⟨same, kept⟩ := solve_agree engine linear config reads agree
    exact ⟨congrArg some same, rfl, kept⟩
  · exact ⟨rfl, rfl, agree⟩

end Model

section Confinement

variable (engine : Engine) (linear : LinearSolver K) (config : Config K) (model : Model K)

omit [Scalar K] in
theorem agree_of_rewritten [Zero K] (rewritten : s.Rewritten (model.unknowns s) t) : s.Agree (· ∉ model.referenced) t :=
  fun _ foreign => rewritten.get? fun unknown => foreign (List.mem_filter.1 unknown).1

theorem solverWith_confined : (solverWith engine linear config).Confined model := by
  intro trace memory s
  unfold solverWith
  dsimp only
  split
  · exact agree_of_rewritten model (solve_rewritten engine linear config model s)
  · exact .refl _ s

end Confinement

end Newton

end Distillation
