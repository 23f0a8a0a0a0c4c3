import Distillation.Proofs.Newton.Frame
import Distillation.Proofs.Newton.Recurrence

namespace Distillation.Newton

variable {K : Type} [Scalar K] (engine : Engine) (linear : LinearSolver K) (config : Config K) (model : Model K)

/-- How a result is reported. -/
def Run.termination {K : Type} (ended : Run K) : Termination :=
  match ended.result with
  | .ok () => .optimal
  | .error e => e.termination

omit [Scalar K] in
theorem Run.termination_eq_optimal_iff {ended : Run K} : ended.termination = .optimal ↔ ended.result = .ok () := by
  rw [Run.termination]
  cases ended.result with
  | ok _ => exact iff_of_true rfl rfl
  | error e => cases e <;> simp [SolverError.termination]

theorem solve_outcome (s : Store K) : (solve engine linear config model s).1 =
    ⟨(run engine linear config model s).termination, (run engine linear config model s).stats⟩ := by
  unfold solve Run.termination
  dsimp only
  rcases (run engine linear config model s).result with e | _ <;> rfl

/-- The store in terms of what is reported. -/
theorem solve_kept (s : Store K) : (solve engine linear config model s).2 =
    if (run engine linear config model s).termination ∈ [.optimal, .maxIterations] then
      (run engine linear config model s).store
    else s := by
  rw [solve_store, Run.termination]
  cases (run engine linear config model s).result with
  | ok _ => rfl
  | error e => cases e <;> rfl

/-- A run stands at a point of its recurrence when it ends, with no difference under way. -/
theorem exists_point_of_run {s : Store K} (scope : model.inScope s = true) :
    ∃ k ≤ config.maxIterations, (run engine linear config model s).store =
      s.withValues ((Recurrence.ofModel engine linear config model s).point s.value k) := by
  by_cases square : model.equations.length = (model.unknowns s).length
  · rcases Recurrence.run_ends engine linear config scope square with
      ⟨k, stop, below, _, _, ended⟩ | ⟨_, ended⟩
    · exact ⟨k, Nat.le_of_lt below, congrArg Run.store ended⟩
    · exact ⟨config.maxIterations, Nat.le_refl _, congrArg Run.store ended⟩
  · refine ⟨0, Nat.zero_le _, ?_⟩
    rw [run, if_neg square, Recurrence.point, s.withValues_value]

/-- A solve reports the result of its run and what the run has counted. Where it reports that there is no
solution to be had, all values are those from before; where it reports a solution or the iteration limit, the
store is that of the run. Either store stands at a point of the recurrence, so that no difference that was
being taken is left in it. -/
theorem solve_rollback (s : Store K) :
    let ended := run engine linear config model s
    let outcome := (solve engine linear config model s).1
    let t := (solve engine linear config model s).2
    outcome.termination = ended.termination ∧ outcome.stats = ended.stats ∧
    (outcome.termination ∈ [.infeasible, .singular, .unbalanced] → t = s) ∧
    (outcome.termination ∈ [.optimal, .maxIterations] → t = ended.store) ∧
    (model.inScope s = true →
      let x := (Recurrence.ofModel engine linear config model s).point s.value
      (∃ k ≤ config.maxIterations, ended.store = s.withValues (x k)) ∧
        ∃ k ≤ config.maxIterations, t = s.withValues (x k)) := by
  intro ended outcome t
  have reported : outcome = ⟨ended.termination, ended.stats⟩ := solve_outcome engine linear config model s
  have kept : t = if ended.termination ∈ [.optimal, .maxIterations] then ended.store else s :=
    solve_kept engine linear config model s
  have stands := exists_point_of_run engine linear config model (s := s)
  rw [reported]
  cases condition : ended.termination with
  | optimal | maxIterations =>
    rw [if_pos (by simp [condition])] at kept
    exact ⟨rfl, rfl, by simp, fun _ => kept, fun scope => ⟨stands scope, kept ▸ stands scope⟩⟩
  | infeasible | singular | unbalanced =>
    rw [if_neg (by simp [condition])] at kept
    exact ⟨rfl, rfl, fun _ => kept, by simp,
      fun scope => ⟨stands scope, 0, Nat.zero_le _, kept.trans s.withValues_value.symm⟩⟩

end Distillation.Newton
