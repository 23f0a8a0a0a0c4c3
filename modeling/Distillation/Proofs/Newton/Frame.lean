import Distillation.Proofs.Expr.Variables
import Distillation.Proofs.Newton.Jacobian
import Distillation.Proofs.Store.Values
import Distillation.Tray.Startup

namespace Distillation

namespace Store

variable {K : Type} [Zero K]

/-- Only values have changed, and only those of some variables. -/
def Rewritten (vars : List VarId) (s t : Store K) : Prop :=
  ∃ x : VarId → K, t = s.withValues x ∧ ∀ v, v ∉ vars → x v = s.value v

namespace Rewritten

variable {s t u : Store K} {vars : List VarId}

theorem refl (vars : List VarId) (s : Store K) : s.Rewritten vars s :=
  ⟨s.value, s.withValues_value.symm, fun _ _ => rfl⟩

theorem set (rewritten : s.Rewritten vars t) {v : VarId} (inside : v ∈ vars) (a : K) : s.Rewritten vars (t.set v a) := by
  obtain ⟨x, rfl, outside⟩ := rewritten
  refine ⟨Function.update x v a, s.set_withValues x v a, fun w absent => ?_⟩
  have other : w ≠ v := by
    rintro rfl
    exact absent inside
  rw [Function.update_of_ne other, outside w absent]

theorem size (rewritten : s.Rewritten vars t) : t.size = s.size := by
  obtain ⟨x, rfl, _⟩ := rewritten
  exact s.size_withValues x

theorem isFixed (rewritten : s.Rewritten vars t) (v : VarId) : t.isFixed v = s.isFixed v := by
  obtain ⟨x, rfl, _⟩ := rewritten
  exact s.isFixed_withValues x v

theorem name (rewritten : s.Rewritten vars t) (v : VarId) : (t.get? v).map (·.name) = (s.get? v).map (·.name) := by
  obtain ⟨x, rfl, _⟩ := rewritten
  rw [get?_withValues, Option.map_map]
  rfl

theorem get? (rewritten : s.Rewritten vars t) {v : VarId} (absent : v ∉ vars) : t.get? v = s.get? v := by
  obtain ⟨x, rfl, outside⟩ := rewritten
  exact s.get?_withValues_of_eq (outside v absent)

theorem restored (rewritten : s.Rewritten vars t) : t.setValues s.values = s := by
  obtain ⟨x, rfl, _⟩ := rewritten
  exact s.setValues_withValues x

end Rewritten

end Store

/-- All that has changed are values of free variables that the equations of active families refer to. -/
structure Model.Framed {K : Type} (model : Model K) (s t : Store K) : Prop where
  size : t.size = s.size
  name : ∀ v, (t.get? v).map (·.name) = (s.get? v).map (·.name)
  isFixed : ∀ v, t.isFixed v = s.isFixed v
  changed : ∀ v, t.get? v ≠ s.get? v → s.isFixed v = false ∧
    ∃ family ∈ model.families, family.active = true ∧ ∃ c ∈ family.constraints, v ∈ c.body.vars

theorem Store.Rewritten.framed {K : Type} [Zero K] {model : Model K} {s t : Store K}
    (rewritten : s.Rewritten (model.unknowns s) t) : model.Framed s t := by
  refine ⟨rewritten.size, rewritten.name, rewritten.isFixed, fun v changed => ?_⟩
  have unknown : v ∈ model.unknowns s := by
    by_contra other
    exact changed (rewritten.get? other)
  obtain ⟨free, c, listed, occurs⟩ := Model.mem_unknowns.1 unknown
  obtain ⟨family, inside, active, among⟩ := Model.mem_equations.1 listed
  exact ⟨free, family, inside, active, c, among, occurs⟩

namespace Newton

variable {K : Type} [Scalar K] {s t : Store K}

theorem advance_rewritten (damping : K) {unknowns : List VarId} (steps : List (VarId × K))
    (own : ∀ step ∈ steps, step.1 ∈ unknowns) :
    ∀ {t : Store K}, s.Rewritten unknowns t → s.Rewritten unknowns (advance damping t steps) := by
  induction steps with
  | nil => exact id
  | cons step rest ih =>
    intro t rewritten
    obtain ⟨first, later⟩ := List.forall_mem_cons.1 own
    exact ih later (rewritten.set first _)

/-- The residuals of a store are finite, and their length is below the tolerance. -/
structure Solved (config : Config K) (cs : List (Constraint K)) (s : Store K) (norm : K) : Prop where
  finite : ∃ base, residuals cs s = .ok base ∧ Scalar.norm base = norm
  small : Scalar.lt norm config.tolerance = true

/-- A solved store is left as it is. -/
theorem Solved.iterate {config : Config K} {cs : List (Constraint K)} {s : Store K} {norm : K}
    (solved : Solved config cs s norm) (engine : Engine) (linear : LinearSolver K) (unknowns : List VarId)
    (left k : Nat) (before : SolverStats K) :
    iterate engine linear config cs unknowns (left + 1) k before s =
      ⟨.ok (), ⟨k + 1, before.functionEvals + 1, before.jacobianEvals, norm⟩, s⟩ := by
  obtain ⟨⟨base, finite, length⟩, small⟩ := solved
  rw [Newton.iterate, finite]
  dsimp only
  rw [length, if_pos small]

variable (engine : Engine) (linear : LinearSolver K) (config : Config K)

section Iterate

variable (cs : List (Constraint K)) (unknowns : List VarId)

/-- A round ends the iteration where it stands, with success only if the store is solved, or it moves the unknowns
and goes on. -/
theorem iterate_succ (left k : Nat) (before : SolverStats K) (s : Store K) :
    (∃ result stats, iterate engine linear config cs unknowns (left + 1) k before s = ⟨result, stats, s⟩ ∧
      (result = .ok () → Solved config cs s stats.finalResidual)) ∨
      ∃ steps stats, iterate engine linear config cs unknowns (left + 1) k before s =
        iterate engine linear config cs unknowns left (k + 1) stats
          (advance config.damping s (unknowns.zip steps)) := by
  rw [iterate]
  dsimp only
  cases evaluated : residuals cs s with
  | error e => exact .inl ⟨_, _, rfl, nofun⟩
  | ok base =>
    dsimp only
    split
    · rename_i small
      exact .inl ⟨_, _, rfl, fun _ => ⟨⟨base, evaluated, rfl⟩, small⟩⟩
    split
    · exact .inl ⟨_, _, rfl, nofun⟩
    have steady := jacobian_on_snd cs unknowns base s engine config
    rcases differentiated : (jacobian engine config cs unknowns base).on s with ⟨_ | matrix, t⟩ <;>
      rw [differentiated] at steady <;> cases steady
    · exact .inl ⟨_, _, rfl, nofun⟩
    · dsimp only
      cases linear matrix (base.map (-·)) with
      | none => exact .inl ⟨_, _, rfl, nofun⟩
      | some steps => exact .inr ⟨steps, _, rfl⟩

theorem iterate_rewritten (left : Nat) : ∀ (k : Nat) (before : SolverStats K) {t : Store K},
    s.Rewritten unknowns t →
      s.Rewritten unknowns (iterate engine linear config cs unknowns left k before t).store := by
  induction left with
  | zero => exact fun _ _ _ rewritten => rewritten
  | succ left ih =>
    intro k before t rewritten
    rcases iterate_succ engine linear config cs unknowns left k before t with
      ⟨result, stats, ended, _⟩ | ⟨steps, stats, next⟩
    · rwa [ended]
    · rw [next]
      exact ih _ _ (advance_rewritten _ _ (fun step inside => (List.of_mem_zip inside).1) rewritten)

end Iterate

variable (model : Model K)

theorem run_rewritten (s : Store K) :
    s.Rewritten (model.unknowns s) (run engine linear config model s).store := by
  unfold run
  dsimp only
  split
  · exact iterate_rewritten _ _ _ _ _ _ _ _ (.refl _ s)
  · exact .refl _ s

/-- A solve keeps what the run has reached, or it is as if nothing had happened. -/
theorem solve_store (s : Store K) : (solve engine linear config model s).2 =
    match (run engine linear config model s).result with
    | .ok () | .error .maxIterationsExceeded => (run engine linear config model s).store
    | .error _ => s := by
  have back := (run_rewritten engine linear config model s).restored
  unfold solve
  dsimp only
  rcases (run engine linear config model s).result with e | _
  · cases e <;> simp [back]
  · rfl

theorem solve_rewritten (s : Store K) :
    s.Rewritten (model.unknowns s) (solve engine linear config model s).2 := by
  rw [solve_store]
  split
  · exact run_rewritten engine linear config model s
  · exact run_rewritten engine linear config model s
  · exact .refl _ s

/-- Whether a run ends well or not, and after any number of rounds, it has changed no more than values of free
variables that active equations refer to, and so has a solve. Both only read the model, so that a tray keeps
its families switched on and off as they were. -/
theorem solve_frame (s : Store K) :
    model.Framed s (run engine linear config model s).store ∧
    model.Framed s (solve engine linear config model s).2 ∧
    ∀ (tray : Tray K) (trace : Bool),
      (Tray.solveStage (solverWith engine linear config) trace ⟨tray, (), s⟩).2.tray = tray :=
  ⟨(run_rewritten engine linear config model s).framed, (solve_rewritten engine linear config model s).framed,
    fun _ _ => rfl⟩

end Newton

end Distillation
