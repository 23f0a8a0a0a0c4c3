import Distillation.Proofs.Newton.Success

namespace Distillation.Newton

variable {K : Type} [Scalar K] (engine : Engine) (linear : LinearSolver K) (config : Config K)

/-- An iteration that succeeds has had a round to succeed in, and it leaves what it has measured last. -/
theorem solved_of_iterate (cs : List (Constraint K)) (unknowns : List VarId) (left : Nat) :
    ∀ (k : Nat) (before : SolverStats K) (s : Store K),
      let ended := iterate engine linear config cs unknowns left k before s
      ended.result = .ok () → 0 < left ∧ Solved config cs ended.store ended.stats.finalResidual := by
  induction left with
  | zero =>
    intro k before s ended success
    cases success
  | succ left ih =>
    intro k before s ended success
    refine ⟨Nat.succ_pos left, ?_⟩
    rcases iterate_succ engine linear config cs unknowns left k before s with
      ⟨result, stats, stopped, solved⟩ | ⟨steps, stats, next⟩
    · rw [show ended = _ from stopped] at success ⊢
      exact solved success
    · rw [show ended = _ from next] at success ⊢
      exact (ih _ _ _ success).2

variable {model : Model K} {s : Store K}

theorem run_again (success : (run engine linear config model s).result = .ok ()) :
    let ended := run engine linear config model s
    run engine linear config model ended.store = ⟨.ok (), ⟨1, 1, 0, ended.stats.finalResidual⟩, ended.store⟩ := by
  intro ended
  have same : model.unknowns ended.store = model.unknowns s :=
    model.unknowns_congr (run_rewritten engine linear config model s).isFixed
  by_cases square : model.equations.length = (model.unknowns s).length
  · have ran : ended = iterate engine linear config model.equations (model.unknowns s) config.maxIterations 0
        .initial s := by
      rw [show ended = run engine linear config model s from rfl, run, if_pos square]
    rw [show run engine linear config model s = _ from ran] at success
    obtain ⟨positive, solved⟩ := solved_of_iterate _ _ _ _ _ _ _ _ _ success
    rw [← ran] at solved
    obtain ⟨left, rounds⟩ := Nat.exists_eq_add_one.2 positive
    rw [run, same, if_pos square, rounds]
    exact solved.iterate engine linear (model.unknowns s) left 0 .initial
  · rw [run, if_neg square] at success
    cases success

theorem admits_rewritten {t : Store K} (rewritten : s.Rewritten (model.unknowns s) t) :
    admits config model t = admits config model s := by
  rw [admits, admits, Model.inScope, Model.inScope, rewritten.size, model.unknowns_congr rewritten.isFixed]

/-- A solve that has found a solution finds it again at once: in the first round, with one evaluation of the
residuals and none of their derivatives, and without a change of the store. -/
theorem solve_again (optimal : (solve engine linear config model s).1.termination = .optimal) :
    let found := (solve engine linear config model s).1
    let t := (solve engine linear config model s).2
    let again : SolverOutcome K := ⟨.optimal, ⟨1, 1, 0, found.stats.finalResidual⟩⟩
    solve engine linear config model t = (again, t) ∧
    (admits config model s = true → ∀ trace,
      (solverWith engine linear config).solve model trace ((), t) = (some again, (), t)) := by
  intro found t again
  have success : (run engine linear config model s).result = .ok () := by
    rw [solve_outcome] at optimal
    exact Run.termination_eq_optimal_iff.1 optimal
  have kept : t = (run engine linear config model s).store := by
    rw [show t = _ from solve_store engine linear config model s, success]
  have repeated := run_again engine linear config success
  dsimp only at repeated
  rw [← kept] at repeated
  have solved : solve engine linear config model t = (again, t) := by
    refine Prod.ext ?_ ?_
    · have reported : found.stats = (run engine linear config model s).stats :=
        congrArg SolverOutcome.stats (solve_outcome engine linear config model s)
      rw [solve_outcome, repeated, ← reported]
      rfl
    · rw [solve_store, repeated]
  refine ⟨solved, fun admitted trace => ?_⟩
  have admitted' : admits config model t = true := by
    rw [admits_rewritten config (solve_rewritten engine linear config model s), admitted]
  unfold solverWith
  dsimp only
  rw [if_pos admitted', solved]

/-- The circle and the line are brought to their crossing in five rounds, and then it takes one. -/
theorem solve_again_crossing :
    let found := solve .exact Linear.solve .standard crossing crossingGuess
    found.1.termination = .optimal ∧ found.1.stats.iterations = 5 ∧ admits .standard crossing crossingGuess = true ∧
    solve .exact Linear.solve .standard crossing found.2 =
      (⟨.optimal, ⟨1, 1, 0, found.1.stats.finalResidual⟩⟩, found.2) := by
  intro found
  obtain ⟨optimal, rounds⟩ : found.1.termination = .optimal ∧ found.1.stats.iterations = 5 := by decide +kernel
  obtain ⟨again, _⟩ := solve_again .exact Linear.solve .standard optimal
  exact ⟨optimal, rounds, rfl, again⟩

end Distillation.Newton
