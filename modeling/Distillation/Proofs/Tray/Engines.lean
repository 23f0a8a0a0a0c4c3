import Mathlib.Analysis.Real.Sqrt
import Distillation.Proofs.Newton.Engines
import Distillation.Proofs.Tray.Convergence

namespace Distillation.Tray

section Congruence

variable {σ K : Type} {tray : Tray K}

/-- Solvers that answer alike at every stage of a tray run its stages alike. -/
theorem runStages_congr {first second : Solver σ K}
    (alike : ∀ stage trace memory s, first.solve (tray.equipped stage).toModel trace (memory, s) =
      second.solve (tray.equipped stage).toModel trace (memory, s))
    (trace : Bool) (guess : Option (OutletGuess K)) (stages : List Stage) :
    ∀ (last : Option Stage) (reports : List (StageReport K)) (state : StartupState σ K),
      Stage.Successive last stages → state.tray = last.elim tray tray.equipped →
      runStages first trace guess stages reports state = runStages second trace guess stages reports state := by
  induction stages with
  | nil => exact fun _ _ _ _ _ => rfl
  | cons stage rest ih =>
    rintro last reports state ⟨follows, successive⟩ before
    have equipped := arrange_fst follows before guess state.store
    simp only [runStages_cons, solveStage_eq, equipped, alike]
    rcases second.solve (tray.equipped stage).toModel trace
      (state.memory, (arrange guess stage state.tray state.store).2) with ⟨_ | outcome, memory, t⟩
    · rfl
    · exact ih (some stage) _ _ successive rfl

theorem startUp_congr [Scalar K] {first second : Solver σ K}
    (alike : ∀ stage trace memory s, first.solve (tray.equipped stage).toModel trace (memory, s) =
      second.solve (tray.equipped stage).toModel trace (memory, s))
    (args : StartupArgs K) (memory : σ) (s : Store K) :
    startUp args first ⟨tray, memory, s⟩ = startUp args second ⟨tray, memory, s⟩ := by
  unfold startUp
  split
  · rfl
  · split
    · rfl
    · exact runStages_congr alike _ _ Stage.all none [] _ Stage.successive_all rfl

end Congruence

variable {package : IdealPackage ℝ} {tray : Tray ℝ} {points : List (IdealPoint ℝ)} {s : Store ℝ}

theorem Placed.model_multiaffine (placed : Placed package tray points s) {fraction : ℝ}
    (relation : package.equilibrium = .vaporFraction fraction) (stage : Stage) (t : Store ℝ) :
    (tray.equipped stage).toModel.Multiaffine t :=
  (placed.anatomy.forall_equations (fun body => body.Multiaffine _ t.value) stage).2
    fun _ inside _ listed => placed.multiaffine relation inside listed _ _

/-- On a model whose active equations are multiaffine in its unknowns, forward differences are the exact derivatives
wherever the unknowns are moved to, and both engines iterate, end, count and leave the store alike. Every tray that
vaporizes a fixed part of each component is such a model at each stage of a start-up, whatever its values and
flags, so that it starts up alike with both. -/
theorem engines_agree (linear : Newton.LinearSolver ℝ) {config : Newton.Config ℝ} (nonzero : config.differenceStep ≠ 0) :
    (∀ (model : Model ℝ) (s : Store ℝ), model.inScope s = true → model.Multiaffine s →
      (∀ t, s.Rewritten (model.unknowns s) t →
        (Newton.differenceJacobian model.equations (model.unknowns s) config.differenceStep
          (model.equations.map (·.residual t))).on t =
            (.ok (Newton.exactJacobian model.equations (model.unknowns s) t), t)) ∧
      (∀ k, (Newton.Recurrence.ofModel .differences linear config model s).point s.value k =
        (Newton.Recurrence.ofModel .exact linear config model s).point s.value k) ∧
      Newton.run .differences linear config model s = Newton.run .exact linear config model s ∧
      Newton.solve .differences linear config model s = Newton.solve .exact linear config model s) ∧
    ∀ (package : IdealPackage ℝ) (fraction : ℝ) (name : String) (equipment : TrayConfig ℝ) (time : TimeSet ℝ)
      (tray : Tray ℝ) (s₀ s₁ s : Store ℝ), package.equilibrium = .vaporFraction fraction →
      (build name equipment package.toPackage time).on s₀ = (.ok tray, s₁) → s₁.Continues s →
      (∀ stage t, (tray.equipped stage).toModel.Multiaffine t) ∧
      (∀ (σ : Type) (solver : Solver σ ℝ) (memory : σ) (args : StartupArgs ℝ), solver.KeepsFlags →
        ∃ done, done <+: Stage.all ∧ List.Forall₂ (fun stage call =>
          call.model = (tray.equipped stage).toModel ∧ call.model.Multiaffine call.store) done
          (startUpCalls args solver ⟨tray, memory, s⟩)) ∧
      ∀ args, startUp args (Newton.solverWith .differences linear config) ⟨tray, (), s⟩ =
        startUp args (Newton.solverWith .exact linear config) ⟨tray, (), s⟩ := by
  constructor
  · intro model s scope multiaffine
    exact ⟨fun t => Newton.differenceJacobian_eq_exact nonzero scope multiaffine,
      Newton.Recurrence.point_engine nonzero multiaffine.affineIn s.value,
      Newton.run_engine nonzero scope multiaffine linear, Newton.solve_engine nonzero scope multiaffine linear⟩
  · intro package fraction name equipment time tray s₀ s₁ s relation built later
    obtain ⟨points, placed⟩ := exists_placed built later
    have multiaffine := placed.model_multiaffine relation
    refine ⟨multiaffine, fun σ solver memory args keeps => ?_, fun args => ?_⟩
    · obtain ⟨_, _, _, done, started, calls⟩ := placed.startUpCalls_at args keeps memory
      refine ⟨done, started, calls.imp fun stage call isAt => ⟨isAt.model, ?_⟩⟩
      rw [isAt.model]
      exact multiaffine stage call.store
    · exact startUp_congr (fun stage trace memory s =>
        Newton.solverWith_engine nonzero (multiaffine stage s) linear trace memory) args () s

theorem engines_agree_prepared : ∃ (tray : Tray ℝ) (s : Store ℝ) (config : Newton.Config ℝ),
    config.differenceStep ≠ 0 ∧ IdealPackage.equilibrium (IdealPackage.benzeneToluene : IdealPackage ℝ) =
      .vaporFraction 0.5 ∧
    (build "tray" ⟨true, true, true, true, true, .empty⟩ IdealPackage.benzeneToluene.toPackage .steady).on .empty =
      (.ok tray, s) ∧ s.Continues (tray.prepare s) ∧ tray.toModel.inScope (tray.prepare s) = true ∧
    tray.toModel.Multiaffine (tray.prepare s) ∧
    Newton.run .differences Linear.solve config tray.toModel (tray.prepare s) =
      Newton.run .exact Linear.solve config tray.toModel (tray.prepare s) ∧
    startUp ⟨[], [], [], 0⟩ (Newton.solverWith .differences Linear.solve config) ⟨tray, (), tray.prepare s⟩ =
      startUp ⟨[], [], [], 0⟩ (Newton.solverWith .exact Linear.solve config) ⟨tray, (), tray.prepare s⟩ := by
  obtain ⟨tray, s, built⟩ := exists_equipped
  obtain ⟨points, placed⟩ := exists_placed built (continues_prepare tray s)
  have ready : tray.Ready (tray.prepare s) := by
    obtain ⟨_, first⟩ := exists_placed built (.refl s)
    exact first.ready_prepare (List.cons_ne_nil _ _)
  have full : tray.equipped .full = tray := placed.anatomy.equipped_full
  have scope : tray.toModel.inScope (tray.prepare s) = true :=
    full ▸ placed.inScope (placed.specified_of_ready ready) rfl
  have nonzero : (⟨1, 3, 1, 1⟩ : Newton.Config ℝ).differenceStep ≠ 0 := one_ne_zero
  obtain ⟨models, trays⟩ := engines_agree Linear.solve nonzero
  obtain ⟨multiaffine, _, starts⟩ := trays IdealPackage.benzeneToluene 0.5 _ _ _ tray _ _ _ rfl built
    (continues_prepare tray s)
  have multiaffine : tray.toModel.Multiaffine (tray.prepare s) := full ▸ multiaffine .full _
  obtain ⟨_, _, run, _⟩ := models tray.toModel _ scope multiaffine
  exact ⟨tray, s, _, nonzero, rfl, built, continues_prepare tray s, scope, multiaffine, run, starts _⟩

end Distillation.Tray
