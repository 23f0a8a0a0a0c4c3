import Distillation.Proofs.Newton.Rollback

namespace Distillation

namespace Model

variable {K : Type}

/-- The length of the residuals of the active equations. -/
def residualNorm [Scalar K] (model : Model K) (s : Store K) : K :=
  Scalar.norm (model.equations.map (·.residual s))

theorem unknowns_congr (model : Model K) {s t : Store K} (same : ∀ v, t.isFixed v = s.isFixed v) :
    model.unknowns t = model.unknowns s :=
  List.filter_congr fun v _ => by rw [same]

end Model

namespace Newton

variable {K : Type} [Scalar K]

namespace Recurrence

variable {r : Recurrence K}

/-- Of the tests of a round, only the one on the norm is good news. -/
theorem stop?_of_success {x : VarId → K} {k : Nat} {stop : Stop} (stops : r.stop? x k = some stop)
    (success : stop.result = .ok ()) :
    Scalar.lt (r.norm x) r.config.tolerance = true ∧ stop.functionEvals = 1 := by
  unfold stop? at stops
  split at stops
  · cases stops
    cases success
  split at stops
  · rename_i small
    cases stops
    exact ⟨small, rfl⟩
  split at stops
  · cases stops
    cases success
  split at stops
  · cases stops
    cases success
  split at stops <;> cases stops
  cases success

end Recurrence

variable (engine : Engine) (linear : LinearSolver K) (config : Config K) {model : Model K} {s : Store K}

theorem run_of_success (scope : model.inScope s = true)
    (success : (run engine linear config model s).result = .ok ()) :
    let t := (run engine linear config model s).store
    Scalar.lt (model.residualNorm t) config.tolerance = true ∧
      (run engine linear config model s).stats.finalResidual = model.residualNorm t ∧ model.freedom t = 0 := by
  intro t
  have same : model.unknowns t = model.unknowns s :=
    model.unknowns_congr (run_rewritten engine linear config model s).isFixed
  by_cases square : model.equations.length = (model.unknowns s).length
  · have known := Recurrence.known_ofModel engine linear config scope
    rcases Recurrence.run_ends engine linear config scope square with ⟨k, stop, _, _, stops, ended⟩ | ⟨_, ended⟩
    · rw [ended] at success
      obtain ⟨small, counted⟩ := Recurrence.stop?_of_success stops success
      have norm : model.residualNorm t = (Recurrence.ofModel engine linear config model s).norm
          ((Recurrence.ofModel engine linear config model s).point s.value k) := by
        rw [show t = s.withValues _ from congrArg Run.store ended]
        exact congrArg Scalar.norm (known.residuals_withValues _)
      refine ⟨norm ▸ small, ?_, ?_⟩
      · rw [norm, ended]
        change Recurrence.lastNorm _ _ (k + stop.functionEvals) = _
        rw [counted, Recurrence.lastNorm]
      · rw [Model.freedom, same, square, Int.sub_self]
    · rw [ended] at success
      cases success
  · rw [run, if_neg square] at success
    cases success

/-- A solve that reports success has solved the active equations, of which there are as many as unknowns. -/
theorem solve_of_optimal (scope : model.inScope s = true)
    (optimal : (solve engine linear config model s).1.termination = .optimal) :
    let t := (solve engine linear config model s).2
    Scalar.lt (model.residualNorm t) config.tolerance = true ∧
      (solve engine linear config model s).1.stats.finalResidual = model.residualNorm t ∧ model.freedom t = 0 := by
  rw [solve_outcome] at optimal
  have success := Run.termination_eq_optimal_iff.1 optimal
  have kept : (solve engine linear config model s).2 = (run engine linear config model s).store := by
    rw [solve_store, success]
  rw [solve_outcome, kept]
  exact run_of_success engine linear config scope success

end Newton

end Distillation
