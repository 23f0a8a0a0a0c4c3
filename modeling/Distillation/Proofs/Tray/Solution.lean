import Distillation.Proofs.Newton.Success
import Distillation.Proofs.Tray.Convergence

namespace Distillation

namespace Newton

variable {K : Type} [Scalar K] (engine : Engine) (linear : LinearSolver K) (config : Config K)

theorem keepsFlags_solverWith : (solverWith engine linear config).KeepsFlags := by
  intro model trace memory s v
  unfold solverWith
  dsimp only
  split
  · exact (solve_rewritten engine linear config model s).isFixed v
  · rfl

/-- An answer of the solver is that of a solve in a store that knows the variables of the model. -/
theorem solve_of_answer {model : Model K} {trace : Bool} {memory after : Unit} {s t : Store K}
    {outcome : SolverOutcome K}
    (answer : (solverWith engine linear config).solve model trace (memory, s) = (some outcome, after, t)) :
    model.inScope s = true ∧ solve engine linear config model s = (outcome, t) := by
  unfold solverWith at answer
  dsimp only at answer
  split at answer
  · rename_i admitted
    obtain ⟨scope, _⟩ := Bool.and_eq_true_iff.1 admitted
    cases answer
    exact ⟨scope, rfl⟩
  · cases answer

end Newton

namespace Tray

variable {σ K : Type}

/-- The last report of a completed run is about the tray and the store that it leaves. -/
theorem runStages_last (solver : Solver σ K) (trace : Bool) (guess : Option (OutletGuess K)) (rest : List Stage) :
    ∀ (stage : Stage) (reports : List (StageReport K)) (state after : StartupState σ K) (report : StartupReport K),
      runStages solver trace guess (stage :: rest) reports state = (.completed report, after) →
      ∃ entry ∈ report.stages.getLast?, ∃ memory s, solver.solve after.tray.toModel trace (memory, s) =
        (some entry.outcome, after.memory, after.store) := by
  induction rest with
  | nil =>
    intro stage reports state after report ran
    rw [runStages_cons, solveStage_eq] at ran
    dsimp only at ran
    rcases answer : solver.solve (arrange guess stage state.tray state.store).1.toModel trace
      (state.memory, (arrange guess stage state.tray state.store).2) with ⟨_ | outcome, memory, t⟩
    · rw [answer] at ran
      cases ran
    · rw [answer] at ran
      cases ran
      exact ⟨⟨stage, outcome⟩, by simp, _, _, answer⟩
  | cons next rest ih =>
    intro stage reports state after report ran
    rw [runStages_cons, solveStage_eq] at ran
    dsimp only at ran
    rcases answer : solver.solve (arrange guess stage state.tray state.store).1.toModel trace
      (state.memory, (arrange guess stage state.tray state.store).2) with ⟨_ | outcome, memory, t⟩
    · rw [answer] at ran
      cases ran
    · rw [answer] at ran
      exact ih next _ _ after report ran

variable [Scalar K] {package : IdealPackage K} {tray : Tray K}

/-- When a start-up reports convergence, the tray comes back with all its families switched on and the store
solves all their equations: the length of the residuals, which the last stage reports, is below the tolerance,
and there are as many unknowns as equations. How the first two stages ended makes no difference. -/
theorem startUp_converged {name : String} {equipment : TrayConfig K} {time : TimeSet K} {s₀ s₁ s : Store K}
    (built : (build name equipment package.toPackage time).on s₀ = (.ok tray, s₁)) (later : s₁.Continues s)
    {args : StartupArgs K} (engine : Newton.Engine) (linear : Newton.LinearSolver K) (config : Newton.Config K)
    {report : StartupReport K} {after : StartupState Unit K}
    (ran : startUp args (Newton.solverWith engine linear config) ⟨tray, (), s⟩ = (.completed report, after))
    (converged : report.isConverged = true) :
    let norm := Scalar.norm ((after.tray.families.flatMap (·.constraints)).map (·.residual after.store))
    after.tray = tray ∧ (∀ family ∈ after.tray.families, family.active = true) ∧
      Scalar.lt norm config.tolerance = true ∧
      (∃ first second last, report.stages = [⟨.massBalance, first⟩, ⟨.massEnergyBalance, second⟩, ⟨.full, last⟩] ∧
        last.stats.finalResidual = norm) ∧
      after.tray.toModel.freedom after.store = 0 := by
  intro norm
  obtain ⟨points, placed⟩ := exists_placed built later
  obtain ⟨_, _, _, _, calls, ⟨equipped, _⟩, reported⟩ :=
    placed.startUp_completed (Newton.keepsFlags_solverWith engine linear config) ran
  have restored : after.tray = tray := equipped.trans placed.anatomy.equipped_full
  have active : ∀ family ∈ after.tray.families, family.active = true := fun family listed =>
    placed.anatomy.active (restored ▸ listed)
  have stages : report.stages.map (·.stage) = Stage.all := by
    have firsts := congrArg (List.map Prod.fst) reported
    rwa [List.map_map, List.map_fst_zip (by rw [List.length_map, calls.length_eq])] at firsts
  obtain ⟨fixed, t, accepted⟩ := accepted_of_completed ran
  rw [startUp_of_accepted fixed accepted] at ran
  obtain ⟨entry, final, _, u, answer⟩ := runStages_last _ _ _ _ _ _ _ _ _ ran
  obtain ⟨scope, solved⟩ := Newton.solve_of_answer engine linear config answer
  have optimal : entry.outcome.termination = .optimal := by
    rw [StartupReport.isConverged, StartupReport.final?, Option.mem_def.1 final] at converged
    simpa [Termination.isOptimal] using converged
  have success := Newton.solve_of_optimal engine linear config scope (by rw [solved]; exact optimal)
  rw [solved] at success
  have length : after.tray.toModel.residualNorm after.store = norm := by
    rw [Model.residualNorm, Model.equations_of_active active]
    rfl
  rw [← length]
  refine ⟨restored, active, success.1, ?_, success.2.2⟩
  obtain ⟨reports⟩ := report
  obtain _ | ⟨⟨_, first⟩, _ | ⟨⟨_, second⟩, _ | ⟨⟨_, last⟩, _ | _⟩⟩⟩ := reports <;> cases stages
  cases final
  exact ⟨first, second, last, rfl, success.2.1⟩

omit [Scalar K] in
/-- With all stages solved in one run, the report says so. -/
theorem isConverged_of_optimal {report : StartupReport K} (stages : report.stages.map (·.stage) = Stage.all)
    (optimal : ∀ entry ∈ report.stages, entry.outcome.termination = .optimal) : report.isConverged = true := by
  have present : report.stages ≠ [] := fun none => by rw [none] at stages; cases stages
  obtain ⟨last, final⟩ := Option.isSome_iff_exists.1 (List.getLast?_isSome.2 present)
  rw [StartupReport.isConverged, StartupReport.final?, final, Option.map_some, Option.any_some,
    optimal last (List.mem_of_getLast? final)]
  rfl

/-- A tray that is ready converges, with either engine. -/
theorem Placed.exists_converged {package : IdealPackage ℝ} {tray : Tray ℝ} {points : List (IdealPoint ℝ)}
    {fraction : ℝ} {s : Store ℝ} (placed : Placed package tray points s) (vaporizes : package.Vaporizes fraction)
    (ready : tray.Ready s) (engine : Newton.Engine) {linear : Newton.LinearSolver ℝ} (solves : Linear.Exact linear)
    {config : Newton.Config ℝ} (full : Newton.FullSteps config) (enough : 3 ≤ config.maxIterations) :
    ∃ report after, startUp ⟨[], [], [], 0⟩ (Newton.solverWith engine linear config) ⟨tray, (), s⟩ =
      (.completed report, after) ∧ report.isConverged = true := by
  obtain ⟨_, _, guess⟩ := placed.anatomy.outletGuess?_eq s
  obtain ⟨solved, after, ran, order, optimal⟩ := placed.runStages_optimal (placed.specified_of_ready ready)
    vaporizes full enough solves false _ Stage.all none [] tray s Stage.successive_all ⟨rfl, rfl⟩ rfl
    (placed.heatable_of_ready vaporizes ready)
  refine ⟨⟨solved⟩, after, ?_, isConverged_of_optimal order fun entry among => (optimal entry among).1⟩
  rw [startUp_of_accepted ready.splits (placed.anatomy.applyGuesses_nil _ _), guess]
  exact ran

/-- So does a tray that is prepared, within three rounds for each stage. -/
theorem Placed.exists_converged_prepared {package : IdealPackage ℝ} {tray : Tray ℝ} {points : List (IdealPoint ℝ)}
    {fraction : ℝ} {s : Store ℝ} (placed : Placed package tray points s) (vaporizes : package.Vaporizes fraction)
    (engine : Newton.Engine) :
    ∃ report after, startUp ⟨[], [], [], 0⟩ (Newton.solverWith engine Linear.solve (⟨1, 3, 1, 1⟩ : Newton.Config ℝ))
      ⟨tray, (), tray.prepare s⟩ = (.completed report, after) ∧ report.isConverged = true := by
  have full : Newton.FullSteps (⟨1, 3, 1, 1⟩ : Newton.Config ℝ) := ⟨zero_lt_one, rfl, one_ne_zero⟩
  have prepared := placed.later (continues_prepare tray s)
  exact prepared.exists_converged vaporizes (placed.ready_prepare vaporizes.nonempty) engine Linear.solve_exact full le_rfl

theorem startUp_converged_prepared : ∃ (tray : Tray ℝ) (s : Store ℝ) (config : Newton.Config ℝ)
    (report : StartupReport ℝ) (after : StartupState Unit ℝ),
    (build "tray" ⟨true, true, true, true, true, .empty⟩ IdealPackage.benzeneToluene.toPackage .steady).on .empty =
      (.ok tray, s) ∧ s.Continues (tray.prepare s) ∧
    startUp ⟨[], [], [], 0⟩ (Newton.solverWith .exact Linear.solve config) ⟨tray, (), tray.prepare s⟩ =
      (.completed report, after) ∧ report.isConverged = true ∧
    let norm := Scalar.norm ((after.tray.families.flatMap (·.constraints)).map (·.residual after.store))
    after.tray = tray ∧ (∀ family ∈ after.tray.families, family.active = true) ∧
      Scalar.lt norm config.tolerance = true ∧
      (∃ first second last, report.stages = [⟨.massBalance, first⟩, ⟨.massEnergyBalance, second⟩, ⟨.full, last⟩] ∧
        last.stats.finalResidual = norm) ∧
      after.tray.toModel.freedom after.store = 0 := by
  obtain ⟨tray, s, built⟩ := exists_equipped
  obtain ⟨points, placed⟩ := exists_placed built (.refl s)
  obtain ⟨report, after, started, converged⟩ :=
    placed.exists_converged_prepared IdealPackage.benzeneToluene_vaporizes .exact
  exact ⟨tray, s, _, report, after, built, continues_prepare tray s, started, converged,
    startUp_converged built (continues_prepare tray s) .exact Linear.solve _ started converged⟩

end Tray

end Distillation
