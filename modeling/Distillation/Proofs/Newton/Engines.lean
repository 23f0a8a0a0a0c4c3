import Distillation.Proofs.Newton.Frame
import Distillation.Proofs.Newton.Recurrence
import Distillation.Proofs.Newton.Step

namespace Distillation

/-- Every active equation is multiaffine in the unknowns. -/
def Model.Multiaffine (model : Model ℝ) (s : Store ℝ) : Prop :=
  ∀ c ∈ model.equations, c.body.Multiaffine (model.unknowns s) s.value

theorem Model.Multiaffine.affineIn {model : Model ℝ} {s : Store ℝ} (multiaffine : model.Multiaffine s) :
    ∀ c ∈ model.equations, ∀ v ∈ model.unknowns s, c.body.AffineIn v :=
  fun c among _ unknown => Expr.Multiaffine.affineIn (multiaffine c among) unknown

namespace Newton

variable {linear : LinearSolver ℝ} {config : Config ℝ}

section Iterate

variable {cs : List (Constraint ℝ)} {unknowns : List VarId}

/-- Both engines give one Jacobian, so a round of one is a round of the other. -/
theorem iterate_engine (nonzero : config.differenceStep ≠ 0)
    (affine : ∀ c ∈ cs, ∀ v ∈ unknowns, c.body.AffineIn v) (left : Nat) :
    ∀ (k : Nat) (before : SolverStats ℝ) (s : Store ℝ), (∀ v ∈ unknowns, v < s.size) →
      iterate .differences linear config cs unknowns left k before s =
        iterate .exact linear config cs unknowns left k before s := by
  induction left with
  | zero => exact fun _ _ _ _ => rfl
  | succ left ih =>
    intro k before s known
    have jacobians : ∀ engine, (jacobian engine config cs unknowns (cs.map (·.residual s))).on s =
        (.ok (slopes cs unknowns s.value), s) := fun engine => jacobian_on engine nonzero known affine
    simp only [iterate, residuals_real, jacobians]
    cases linear (slopes cs unknowns s.value) ((cs.map (·.residual s)).map (-·)) with
    | none => rfl
    | some steps =>
      have later : ∀ v ∈ unknowns, v < (advance config.damping s (unknowns.zip steps)).size := by
        rwa [size_advance]
      simp only [ih _ _ _ later]

end Iterate

namespace Recurrence

variable {r : Recurrence ℝ} {x : VarId → ℝ}

/-- The slopes that a recurrence takes, with either engine. -/
theorem slope_eq_rate (nonzero : r.config.differenceStep ≠ 0) {c : Constraint ℝ} {v : VarId}
    (affine : c.body.AffineIn v) : r.slope x c v = c.body.rate x (Pi.single v 1) := by
  rw [slope]
  cases r.engine with
  | differences =>
    dsimp only
    rw [moved, update_add, affine.valueAt_move, add_sub_cancel_left]
    exact mul_div_cancel_left₀ _ (increment_ne_zero nonzero _)
  | exact => exact Expr.slope_dualAt x c.body v

theorem matrix_eq_slopes (nonzero : r.config.differenceStep ≠ 0)
    (affine : ∀ c ∈ r.equations, ∀ v ∈ r.unknowns, c.body.AffineIn v) :
    r.matrix x = slopes r.equations r.unknowns x :=
  List.map_congr_left fun c inside => List.map_congr_left fun v unknown =>
    slope_eq_rate nonzero (affine c inside v unknown)

theorem point_engine {cs : List (Constraint ℝ)} {unknowns : List VarId} (nonzero : config.differenceStep ≠ 0)
    (affine : ∀ c ∈ cs, ∀ v ∈ unknowns, c.body.AffineIn v) (x : VarId → ℝ) (k : Nat) :
    (⟨.differences, linear, config, cs, unknowns⟩ : Recurrence ℝ).point x k =
      (⟨.exact, linear, config, cs, unknowns⟩ : Recurrence ℝ).point x k := by
  have directions : ∀ y, (⟨.differences, linear, config, cs, unknowns⟩ : Recurrence ℝ).direction? y =
      (⟨.exact, linear, config, cs, unknowns⟩ : Recurrence ℝ).direction? y := by
    intro y
    rw [direction?, matrix_eq_slopes nonzero affine, direction?, matrix_eq_slopes nonzero affine]
    rfl
  induction k with
  | zero => rfl
  | succ k ih => rw [point, point, ih, next, next, directions]

end Recurrence

section Model

variable {model : Model ℝ} {s : Store ℝ}

theorem unknowns_known (scope : model.inScope s = true) : ∀ v ∈ model.unknowns s, v < s.size :=
  (Recurrence.known_ofModel .exact Linear.solve Config.standard scope).unknowns

variable (nonzero : config.differenceStep ≠ 0) (scope : model.inScope s = true) (multiaffine : model.Multiaffine s)
include nonzero scope multiaffine

/-- Wherever the unknowns are moved to, the differences are the exact derivatives. -/
theorem differenceJacobian_eq_exact {t : Store ℝ} (rewritten : s.Rewritten (model.unknowns s) t) :
    (differenceJacobian model.equations (model.unknowns s) config.differenceStep
      (model.equations.map (·.residual t))).on t = (.ok (exactJacobian model.equations (model.unknowns s) t), t) := by
  have known : ∀ v ∈ model.unknowns s, v < t.size := by
    rw [rewritten.size]
    exact unknowns_known scope
  rw [exactJacobian_eq]
  exact jacobian_on .differences nonzero known multiaffine.affineIn

theorem run_engine (linear : LinearSolver ℝ) :
    run .differences linear config model s = run .exact linear config model s := by
  rw [run, run, iterate_engine nonzero multiaffine.affineIn _ _ _ _ (unknowns_known scope)]

theorem solve_engine (linear : LinearSolver ℝ) :
    solve .differences linear config model s = solve .exact linear config model s := by
  rw [solve, solve, run_engine nonzero scope multiaffine]

omit scope in
/-- As solvers the engines agree whether or not a solve is defined. -/
theorem solverWith_engine (linear : LinearSolver ℝ) (trace : Bool) (memory : Unit) :
    (solverWith .differences linear config).solve model trace (memory, s) =
      (solverWith .exact linear config).solve model trace (memory, s) := by
  unfold solverWith
  dsimp only
  split
  · rename_i admitted
    rw [solve_engine nonzero (Bool.and_eq_true_iff.1 admitted).1 multiaffine]
  · rfl

end Model

end Newton

end Distillation
