import Distillation.Proofs.Newton.Step

namespace Distillation.Newton

/-- The settings under which a step is a full one and is taken exactly. -/
structure FullSteps (config : Config ℝ) : Prop where
  tolerance_pos : 0 < config.tolerance
  damping : config.damping = 1
  differenceStep : config.differenceStep ≠ 0

/-- From `good` points a step leads to `settled` ones, and from those to a solution. -/
structure Settles (cs : List (Constraint ℝ)) (unknowns : List VarId)
    (good settled : (VarId → ℝ) → Prop) : Prop where
  regular : ∀ x, good x → RegularAt cs unknowns x
  good_of_settled : ∀ x, settled x → good x
  settle : ∀ x d, good x → (∀ v, v ∉ unknowns → d v = 0) →
    (∀ c ∈ cs, c.body.rate x d = -c.body.valueAt x) → settled (x + d)
  solve : ∀ x d, settled x → (∀ v, v ∉ unknowns → d v = 0) →
    (∀ c ∈ cs, c.body.rate x d = -c.body.valueAt x) → ∀ c ∈ cs, c.body.valueAt (x + d) = 0

variable {engine : Engine} {linear : LinearSolver ℝ} {config : Config ℝ}
  {cs : List (Constraint ℝ)} {unknowns : List VarId} {s : Store ℝ}

theorem iterate_of_small (small : Scalar.norm (cs.map (·.residual s)) < config.tolerance)
    (left k : Nat) (before : SolverStats ℝ) :
    iterate engine linear config cs unknowns (left + 1) k before s =
      ⟨.ok (), { before with
        iterations := k + 1
        functionEvals := before.functionEvals + 1
        finalResidual := Scalar.norm (cs.map (·.residual s)) }, s⟩ := by
  simp [iterate, residuals_real, small]

/-- At a regular point where the residuals are not small yet, a round makes a step. -/
theorem iterate_of_regular (full : FullSteps config) (exact : Linear.Exact linear)
    (tractable : Tractable cs unknowns s.size) (regular : RegularAt cs unknowns s.value)
    (large : ¬Scalar.norm (cs.map (·.residual s)) < config.tolerance) (left : Nat) {k : Nat}
    (early : k ≤ settlingIterations) (before : SolverStats ℝ) :
    ∃ t d stats, Moved s d t ∧ (∀ v, v ∉ unknowns → d v = 0) ∧
      (∀ c ∈ cs, c.body.rate s.value d = -c.residual s) ∧
      iterate engine linear config cs unknowns (left + 1) k before s =
        iterate engine linear config cs unknowns left (k + 1) stats t := by
  obtain ⟨steps, d, found, moved, support, rates⟩ := exists_step exact tractable regular
  refine ⟨_, d, ⟨k + 1, before.functionEvals + 1, before.jacobianEvals + 1,
    Scalar.norm (cs.map (·.residual s))⟩, moved, support, rates, ?_⟩
  have running : ¬settlingIterations < k := Nat.not_lt.2 early
  rw [iterate, residuals_real]
  simp only [Scalar.real_lt, large, running, decide_false, Bool.false_and, Bool.false_eq_true,
    if_false, jacobian_on engine full.differenceStep tractable.known tractable.affine, found, full.damping]

/-- In exact arithmetic the iteration ends with success in the third round or before. It moves the
unknowns alone, and the point that it stops at is still good. -/
theorem iterate_of_settles (engine : Engine) {good settled : (VarId → ℝ) → Prop} (full : FullSteps config)
    (exact : Linear.Exact linear) (settles : Settles cs unknowns good settled)
    (tractable : Tractable cs unknowns s.size) (start : good s.value) (left : Nat) :
    ∃ t d stats, iterate engine linear config cs unknowns (left + 3) 0 .initial s = ⟨.ok (), stats, t⟩ ∧
      stats.iterations ≤ 3 ∧ Moved s d t ∧ (∀ v, v ∉ unknowns → d v = 0) ∧ good t.value := by
  by_cases first : Scalar.norm (cs.map (·.residual s)) < config.tolerance
  · refine ⟨s, 0, _, iterate_of_small first (left + 2) 0 _, by simp, ⟨?_, rfl, fun _ => rfl⟩,
      fun _ _ => rfl, start⟩
    rw [add_zero]
  obtain ⟨t, d, stats, moved, support, rates, next⟩ := iterate_of_regular full exact tractable
    (settles.regular _ start) first (left + 2) (Nat.zero_le _) .initial
  have settledT : settled t.value := moved.value ▸ settles.settle _ d start support rates
  have goodT := settles.good_of_settled _ settledT
  by_cases second : Scalar.norm (cs.map (·.residual t)) < config.tolerance
  · refine ⟨t, d, _, next.trans (iterate_of_small second (left + 1) 1 _), by simp, moved, support,
      goodT⟩
  obtain ⟨u, e, stats', moved', support', rates', next'⟩ := iterate_of_regular full exact
    (moved.size ▸ tractable) (settles.regular _ goodT) second (left + 1)
    (show 1 ≤ settlingIterations by decide) stats
  have goodU : good u.value :=
    settles.good_of_settled _ (moved'.value ▸ settles.settle _ e goodT support' rates')
  have solved : ∀ x ∈ cs.map (·.residual u), x = 0 := by
    intro x inside
    obtain ⟨c, listed, rfl⟩ := List.mem_map.1 inside
    have zero := settles.solve _ e settledT support' rates' c listed
    rwa [← moved'.value] at zero
  have third : Scalar.norm (cs.map (·.residual u)) < config.tolerance := by
    rw [Scalar.real_norm_eq_zero _ solved]
    exact full.tolerance_pos
  refine ⟨u, d + e, _, (next.trans next').trans (iterate_of_small third left 2 _), by simp,
    ⟨?_, moved'.size.trans moved.size, fun v => (moved'.isFixed v).trans (moved.isFixed v)⟩, ?_, goodU⟩
  · rw [moved'.value, moved.value, add_assoc]
  · intro v absent
    simp [support v absent, support' v absent]

end Distillation.Newton
