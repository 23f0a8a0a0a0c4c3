import Distillation.Proofs.Expr.Derivative
import Distillation.Proofs.Newton.Engines
import Distillation.Proofs.Newton.Rollback
import Distillation.Proofs.Newton.Success

namespace Distillation

namespace Linear

variable (unknowns : List VarId) (a d e : VarId → ℝ)

theorem dot_map : dot (unknowns.map a) (unknowns.map d) = (unknowns.map fun v => a v * d v).sum := by
  rw [dot, List.zipWith_map, List.zipWith_self]

theorem dot_map_add : dot (unknowns.map a) (unknowns.map (d + e)) =
    dot (unknowns.map a) (unknowns.map d) + dot (unknowns.map a) (unknowns.map e) := by
  simp only [dot_map, ← List.sum_map_add, Pi.add_apply, mul_add]

theorem dot_map_smul (c : ℝ) :
    dot (unknowns.map a) (unknowns.map (c • d)) = c * dot (unknowns.map a) (unknowns.map d) := by
  simp only [dot_map, ← List.sum_map_mul_left, Pi.smul_apply, smul_eq_mul, mul_left_comm]

variable {unknowns}

theorem dot_map_single (distinct : unknowns.Nodup) {v : VarId} (inside : v ∈ unknowns) :
    dot (unknowns.map a) (unknowns.map (Pi.single v 1)) = a v := by
  induction unknowns with
  | nil => exact absurd inside List.not_mem_nil
  | cons w rest ih =>
    obtain ⟨fresh, distinct⟩ := List.nodup_cons.1 distinct
    rw [List.map_cons, List.map_cons, dot_cons]
    rcases List.mem_cons.1 inside with rfl | later
    · have zeros : rest.map (Pi.single v (1 : ℝ)) = List.replicate rest.length 0 := by
        refine List.map_eq_replicate_iff.2 fun w other => Pi.single_eq_of_ne ?_ 1
        rintro rfl
        exact fresh other
      rw [zeros, dot_zeros, Pi.single_eq_same, mul_one, add_zero]
    · have other : w ≠ v := by rintro rfl; exact fresh later
      rw [ih distinct later, Pi.single_eq_of_ne other, mul_zero, zero_add]

end Linear

namespace Expr

/-- Wherever the unknowns are moved to from `x`, nothing is divided by zero, and the value has changed by the
distances times the coefficients. Other variables are held. -/
def AffineAround (e : Expr ℝ) (unknowns : List VarId) (x coefficient : VarId → ℝ) : Prop :=
  ∀ d : VarId → ℝ, (∀ v, v ∉ unknowns → d v = 0) → e.DefinedAt (x + d) ∧
    e.valueAt (x + d) = e.valueAt x + Linear.dot (unknowns.map coefficient) (unknowns.map d)

/-- Built from constants, variables, sums and negations, from products in which one factor refers to no unknown,
and from quotients by what refers to no unknown and is not zero at `x`. -/
inductive AffineTree (unknowns : List VarId) (x : VarId → ℝ) : Expr ℝ → Prop
  | const (c : ℝ) : AffineTree unknowns x (const c)
  | var (v : VarId) : AffineTree unknowns x (var v)
  | sum {terms : List (Expr ℝ)} (each : ∀ term ∈ terms, AffineTree unknowns x term) : AffineTree unknowns x (sum terms)
  | product {a b : Expr ℝ} (first : AffineTree unknowns x a) (second : AffineTree unknowns x b)
      (held : (∀ v ∈ unknowns, v ∉ a.vars) ∨ ∀ v ∈ unknowns, v ∉ b.vars) : AffineTree unknowns x (product a b)
  | quotient {a b : Expr ℝ} (upper : AffineTree unknowns x a) (lower : AffineTree unknowns x b)
      (held : ∀ v ∈ unknowns, v ∉ b.vars) (nonzero : b.valueAt x ≠ 0) : AffineTree unknowns x (quotient a b)
  | neg {a : Expr ℝ} (inner : AffineTree unknowns x a) : AffineTree unknowns x (neg a)

section Trees

variable {e : Expr ℝ} {unknowns : List VarId} {x d : VarId → ℝ} (support : ∀ v, v ∉ unknowns → d v = 0)
include support

/-- An expression in which no unknown occurs is held. -/
theorem valueAt_of_held (held : ∀ v ∈ unknowns, v ∉ e.vars) : e.valueAt (x + d) = e.valueAt x ∧ e.rate x d = 0 := by
  have still : ∀ v ∈ e.vars, d v = 0 := fun v occurs => support v fun unknown => held v unknown occurs
  exact ⟨valueAt_congr fun v occurs => by rw [Pi.add_apply, still v occurs, add_zero], rate_eq_zero still⟩

theorem AffineTree.valueAt_add (tree : e.AffineTree unknowns x) :
    e.DefinedAt (x + d) ∧ e.valueAt (x + d) = e.valueAt x + e.rate x d := by
  induction tree with
  | const c => exact ⟨.const c, by simp⟩
  | var v => exact ⟨.var v, by simp⟩
  | sum _ ih =>
    refine ⟨.sum fun term inside => (ih term inside).1, ?_⟩
    simp only [valueAt_sum_node, rate_sum_node, ← List.sum_map_add]
    exact congrArg List.sum (List.map_congr_left fun term inside => (ih term inside).2)
  | product _ _ held iha ihb =>
    refine ⟨.product iha.1 ihb.1, ?_⟩
    rw [valueAt_product, valueAt_product, rate_product]
    rcases held with held | held
    · rw [(valueAt_of_held support held).1, (valueAt_of_held support held).2, ihb.2]; ring
    · rw [(valueAt_of_held support held).1, (valueAt_of_held support held).2, iha.2]; ring
  | quotient _ _ held nonzero iha ihb =>
    obtain ⟨value, rate⟩ := valueAt_of_held (x := x) support held
    refine ⟨.quotient iha.1 ihb.1 (value ▸ nonzero), ?_⟩
    rw [valueAt_quotient, value, iha.2, valueAt_quotient, rate_quotient, rate]
    field_simp
    ring
  | neg _ ih =>
    refine ⟨.neg ih.1, ?_⟩
    rw [valueAt_neg_node, ih.2, valueAt_neg_node, rate_neg_node]
    ring

end Trees

/-- The coefficients of an affine tree are its slopes. -/
theorem AffineTree.affineAround {e : Expr ℝ} {unknowns : List VarId} {x : VarId → ℝ}
    (tree : e.AffineTree unknowns x) (distinct : unknowns.Nodup) :
    e.AffineAround unknowns x fun v => e.rate x (Pi.single v 1) := by
  intro d support
  have direction : Newton.motion (unknowns.zip (unknowns.map d)) = d := by
    funext v
    by_cases unknown : v ∈ unknowns
    · exact List.map_inj_left.1 (Newton.map_motion distinct (List.length_map d)) v unknown
    · rw [Newton.motion_of_not_mem unknown, support v unknown]
  rw [← Newton.rate_motion, direction]
  exact tree.valueAt_add support

namespace AffineAround

variable {e : Expr ℝ} {unknowns : List VarId} {x a : VarId → ℝ} (affine : e.AffineAround unknowns x a)
include affine

/-- It does not matter from where the unknowns are moved. -/
theorem shift {d : VarId → ℝ} (support : ∀ v, v ∉ unknowns → d v = 0) : e.AffineAround unknowns (x + d) a := by
  intro d' support'
  have both : ∀ v, v ∉ unknowns → (d + d') v = 0 := by
    intro v absent
    rw [Pi.add_apply, support v absent, support' v absent, add_zero]
  obtain ⟨defined, value⟩ := affine (d + d') both
  rw [add_assoc, value, (affine d support).2, Linear.dot_map_add, add_assoc]
  exact ⟨defined, rfl⟩

variable (distinct : unknowns.Nodup) {v : VarId} (unknown : v ∈ unknowns)
include distinct unknown

theorem valueAt_move (h : ℝ) : e.valueAt (x + h • Pi.single v 1) = e.valueAt x + h * a v := by
  have support : ∀ w, w ∉ unknowns → (h • Pi.single v 1 : VarId → ℝ) w = 0 := by
    intro w absent
    have other : w ≠ v := by rintro rfl; exact absent unknown
    simp [other]
  rw [(affine _ support).2, Linear.dot_map_smul, Linear.dot_map_single a distinct unknown]

/-- Dual numbers find the coefficient, the derivative of the value by the unknown. -/
theorem slope_dualAt : (e.dualAt x v).slope = a v := by
  have defined : e.DefinedAt x := by
    have here := (affine 0 fun _ _ => rfl).1
    rwa [add_zero] at here
  have values : (fun r => e.valueAt (Function.update x v r)) = fun r => e.valueAt x + (r - x v) * a v := by
    funext r
    have moved := affine.valueAt_move distinct unknown (r - x v)
    rwa [← Newton.update_add, add_sub_cancel] at moved
  have derivative : HasDerivAt (fun r => e.valueAt x + (r - x v) * a v) (a v) (x v) := by
    simpa using (((hasDerivAt_id' (x v)).sub_const (x v)).mul_const (a v)).const_add (e.valueAt x)
  have slope := defined.hasDerivAt_update v
  rw [values] at slope
  exact slope.unique derivative

end AffineAround

end Expr

namespace Newton

theorem shifted_eq_motion {unknowns : List VarId} (damping : ℝ) (direction : List ℝ) (x : VarId → ℝ)
    (distinct : unknowns.Nodup) :
    shifted damping (unknowns.zip direction) x = x + damping • motion (unknowns.zip direction) := by
  induction unknowns generalizing direction with
  | nil => funext v; simp [shifted]
  | cons w rest ih =>
    cases direction with
    | nil => funext v; simp [shifted]
    | cons y direction =>
      obtain ⟨fresh, distinct⟩ := List.nodup_cons.1 distinct
      funext v
      have later := congrFun (ih direction distinct) v
      rw [shifted, List.zip_cons_cons, List.lookup_cons, motion_cons]
      by_cases same : v = w
      · subst same
        simp [motion_of_not_mem fresh]
      · simpa [beq_false_of_ne same, same, shifted] using later

namespace Recurrence

/-- The matrix of an affine system, given the coefficients of its equations. -/
def coefficients (r : Recurrence ℝ) (a : Constraint ℝ → VarId → ℝ) : List (List ℝ) :=
  r.equations.map fun c => r.unknowns.map (a c)

/-- There are as many equations as unknowns, and around `x` each equation is affine. -/
structure AffineAt (r : Recurrence ℝ) (a : Constraint ℝ → VarId → ℝ) (x : VarId → ℝ) : Prop where
  square : r.equations.length = r.unknowns.length
  distinct : r.unknowns.Nodup
  step : r.config.differenceStep ≠ 0
  equations : ∀ c ∈ r.equations, c.body.AffineAround r.unknowns x (a c)

/-- In exact arithmetic every number is finite, so only the norm and the linear solver end an iteration. -/
theorem stop?_real (r : Recurrence ℝ) (x : VarId → ℝ) (k : Nat) : r.stop? x k =
    if r.norm x < r.config.tolerance then some ⟨.ok (), 1, 0⟩
    else if 10 < k ∧ 1e10 < r.norm x then some ⟨.error .diverged, 1, 0⟩
    else if (r.direction? x).isNone then some ⟨.error .singularJacobian, 1, 1⟩ else none := by
  have finite : ∀ y, r.nonFinite? y = none := fun y => List.findSome?_eq_none_iff.2 fun c _ => by simp [notFinite?]
  have nearby : r.nonFiniteNearby? x = none := by
    rw [nonFiniteNearby?]
    cases r.engine with
    | differences => exact List.findSome?_eq_none_iff.2 fun v _ => finite _
    | exact => rfl
  simp [stop?, finite, nearby]

theorem stop?_of_small (r : Recurrence ℝ) (x : VarId → ℝ) (small : r.norm x < r.config.tolerance) (k : Nat) :
    r.stop? x k = some ⟨.ok (), 1, 0⟩ := by
  rw [stop?_real, if_pos small]

/-- No norm is too large in the first round. -/
theorem stop?_of_large (r : Recurrence ℝ) (x : VarId → ℝ) (large : ¬r.norm x < r.config.tolerance) :
    r.stop? x 0 = if (r.direction? x).isNone then some ⟨.error .singularJacobian, 1, 1⟩ else none := by
  rw [stop?_real, if_neg large, if_neg (by simp)]

section Updates

variable {r : Recurrence ℝ} {a : Constraint ℝ → VarId → ℝ} {x : VarId → ℝ} (affine : r.AffineAt a x)
include affine

/-- Both engines find the coefficients. -/
theorem AffineAt.matrix_eq : r.matrix x = r.coefficients a := by
  refine List.map_congr_left fun c inside => List.map_congr_left fun v unknown => ?_
  have here := affine.equations c inside
  rw [slope]
  cases r.engine with
  | differences =>
    dsimp only
    rw [moved, update_add, here.valueAt_move affine.distinct unknown, add_sub_cancel_left]
    exact mul_div_cancel_left₀ _ (increment_ne_zero affine.step _)
  | exact => exact here.slope_dualAt affine.distinct unknown

theorem AffineAt.width : ∀ row ∈ r.coefficients a, row.length = (r.coefficients a).length := by
  intro row inside
  obtain ⟨c, _, rfl⟩ := List.mem_map.1 inside
  rw [coefficients, List.length_map, List.length_map, affine.square]

theorem AffineAt.direction?_of_singular (decisive : Linear.Decisive r.linear)
    (singular : ¬Linear.Regular (r.coefficients a)) : r.direction? x = none := by
  rw [direction?, affine.matrix_eq]
  exact decisive.singular _ _ (by simp [residuals, coefficients]) affine.width singular

variable (exact : Linear.Exact r.linear) (regular : Linear.Regular (r.coefficients a))
include exact regular

/-- An update moves the unknowns along the solution of the system, as far as the damping lets it. -/
theorem AffineAt.exists_update : (r.direction? x).isNone = false ∧
    ∃ d, (∀ v, v ∉ r.unknowns → d v = 0) ∧ r.next x = x + r.config.damping • d ∧
      ∀ c ∈ r.equations, Linear.dot (r.unknowns.map (a c)) (r.unknowns.map d) = -c.body.valueAt x := by
  obtain ⟨direction, found, length, solves⟩ := exact (r.coefficients a) ((r.residuals x).map (-·))
    (by simp [residuals, coefficients]) affine.width regular
  rw [← affine.matrix_eq] at found
  change r.direction? x = some direction at found
  have long : direction.length = r.unknowns.length := by rw [length, coefficients, List.length_map, affine.square]
  refine ⟨by rw [found]; rfl, motion (r.unknowns.zip direction), fun v absent => motion_of_not_mem absent, ?_,
    fun c inside => ?_⟩
  · rw [next, found]
    exact shifted_eq_motion _ _ _ affine.distinct
  · rw [coefficients, residuals, List.map_map, List.map_map] at solves
    rw [map_motion affine.distinct long]
    exact List.map_inj_left.1 solves c inside

/-- An update leaves the system affine and takes one part away from every residual. -/
theorem AffineAt.next : r.AffineAt a (r.next x) ∧
    ∀ c ∈ r.equations, c.body.valueAt (r.next x) = (1 - r.config.damping) * c.body.valueAt x := by
  obtain ⟨_, d, support, next, solves⟩ := affine.exists_update exact regular
  have taken : ∀ v, v ∉ r.unknowns → (r.config.damping • d) v = 0 := by
    intro v absent
    rw [Pi.smul_apply, support v absent, smul_zero]
  rw [next]
  refine ⟨{ affine with equations := fun c inside => (affine.equations c inside).shift taken }, fun c inside => ?_⟩
  rw [(affine.equations c inside _ taken).2, Linear.dot_map_smul, solves c inside]
  ring

theorem AffineAt.point (k : Nat) : r.AffineAt a (r.point x k) ∧
    ∀ c ∈ r.equations, c.body.valueAt (r.point x k) = (1 - r.config.damping) ^ k * c.body.valueAt x := by
  induction k with
  | zero => exact ⟨affine, fun c _ => by rw [Recurrence.point, pow_zero, one_mul]⟩
  | succ k ih =>
    obtain ⟨here, value⟩ := ih
    obtain ⟨there, value'⟩ := here.next exact regular
    exact ⟨there, fun c inside => by rw [Recurrence.point, value' c inside, value c inside, pow_succ']; ring⟩

theorem AffineAt.residuals_point (k : Nat) :
    r.residuals (r.point x k) = (r.residuals x).map ((1 - r.config.damping) ^ k * ·) := by
  rw [residuals, residuals, List.map_map]
  exact List.map_congr_left (affine.point exact regular k).2

/-- An iteration that never meets a singular system has made an update for each Jacobian. -/
theorem AffineAt.jacobianEvals_of_stop {k : Nat} {stop : Stop} (stops : r.stop? x k = some stop) :
    stop.jacobianEvals = 0 := by
  rw [stop?_real, (affine.exists_update exact regular).1, if_neg Bool.false_ne_true] at stops
  split_ifs at stops
  · cases stops
    rfl
  · cases stops
    rfl

omit exact in
/-- Moving the unknowns makes all residuals vanish in one way at most. -/
theorem AffineAt.eq_of_vanishing {y : VarId → ℝ} (outside : ∀ v, v ∉ r.unknowns → y v = x v)
    (there : ∀ c ∈ r.equations, c.body.valueAt y = 0) (here : ∀ c ∈ r.equations, c.body.valueAt x = 0) : y = x := by
  have support : ∀ v, v ∉ r.unknowns → (y - x) v = 0 := fun v absent => sub_eq_zero.2 (outside v absent)
  have taken : ∀ row ∈ r.coefficients a, Linear.dot row (r.unknowns.map (y - x)) = 0 := by
    intro row listed
    obtain ⟨c, inside, rfl⟩ := List.mem_map.1 listed
    have value := (affine.equations c inside _ support).2
    rwa [add_sub_cancel, there c inside, here c inside, zero_add, eq_comm] at value
  have zeros := regular (r.unknowns.map (y - x)) (by simp [coefficients, affine.square]) taken
  funext v
  by_cases unknown : v ∈ r.unknowns
  · exact sub_eq_zero.1 (zeros _ (List.mem_map_of_mem unknown))
  · exact outside v unknown

end Updates

end Recurrence

section Model

variable {engine : Engine} {linear : LinearSolver ℝ} {config : Config ℝ} {model : Model ℝ} {s : Store ℝ}
  (scope : model.inScope s = true) {a : Constraint ℝ → VarId → ℝ}
  (affine : (Recurrence.ofModel engine linear config model s).AffineAt a s.value)
include scope affine

/-- Whether it stops before or at its limit, a run has made as many updates as it has counted Jacobians. -/
theorem residuals_run_of_affine (exact : Linear.Exact linear)
    (regular : Linear.Regular ((Recurrence.ofModel engine linear config model s).coefficients a)) :
    let ended := run engine linear config model s
    model.equations.map (·.residual ended.store) =
      (model.equations.map (·.residual s)).map ((1 - config.damping) ^ ended.stats.jacobianEvals * ·) := by
  intro ended
  have known := Recurrence.known_ofModel engine linear config scope
  have stands := fun k => (known.residuals_withValues _).trans (affine.residuals_point exact regular k)
  rcases Recurrence.run_ends engine linear config scope affine.square with ⟨k, stop, _, _, stops, ends⟩ | ⟨_, ends⟩
  · have none : stop.jacobianEvals = 0 := (affine.point exact regular k).1.jacobianEvals_of_stop exact regular stops
    have counted : ended.stats.jacobianEvals = k := by
      rw [show ended = _ from ends, Recurrence.ended, none, add_zero]
    rw [counted, show ended = _ from ends]
    exact stands k
  · rw [show ended = _ from ends]
    exact stands config.maxIterations

theorem solve_of_small (some : 1 ≤ config.maxIterations) (small : model.residualNorm s < config.tolerance) :
    (solve engine linear config model s).1.termination = .optimal ∧
      (solve engine linear config model s).1.stats.iterations = 1 ∧ (solve engine linear config model s).2 = s := by
  have ends := Recurrence.run_of_first_stop engine linear config scope affine.square some (by simp)
    (Recurrence.stop?_of_small (.ofModel engine linear config model s) s.value small 0)
  rw [solve_outcome, solve_kept, ends]
  exact ⟨rfl, rfl, s.withValues_value⟩

/-- A full update leads to the only solution, where the second round ends. -/
theorem solve_of_full_update (positive : 0 < config.tolerance) (full : config.damping = 1)
    (enough : 2 ≤ config.maxIterations) (exact : Linear.Exact linear)
    (regular : Linear.Regular ((Recurrence.ofModel engine linear config model s).coefficients a))
    (large : ¬model.residualNorm s < config.tolerance) :
    (solve engine linear config model s).1.termination = .optimal ∧
      (solve engine linear config model s).1.stats.iterations = 2 ∧
      ∃ y, (solve engine linear config model s).2 = s.withValues y ∧
        ∀ z, ((∀ v, v ∉ model.unknowns s → z v = s.value v) ∧ ∀ c ∈ model.equations, c.body.valueAt z = 0) ↔ z = y := by
  let r := Recurrence.ofModel engine linear config model s
  have outside : ∀ v, v ∉ model.unknowns s → r.point s.value 1 v = s.value v := fun v absent =>
    r.point_of_not_mem s.value absent 1
  obtain ⟨there, values⟩ := affine.point exact regular 1
  have vanishing : ∀ c ∈ model.equations, c.body.valueAt (r.point s.value 1) = 0 := by
    intro c inside
    have taken : (1 - r.config.damping) ^ 1 = 0 := by rw [show r.config.damping = 1 from full, sub_self, pow_one]
    rw [values c inside, taken, zero_mul]
  have small : r.norm (r.point s.value 1) < r.config.tolerance :=
    (Scalar.real_norm_eq_zero _ (List.forall_mem_map.2 vanishing)).trans_lt positive
  have quiet : ∀ i < 1, r.stop? (r.point s.value i) i = none := by
    intro i before
    rw [Nat.lt_one_iff.1 before, Recurrence.point, r.stop?_of_large s.value large,
      (affine.exists_update exact regular).1]
    rfl
  have ends := Recurrence.run_of_first_stop engine linear config scope affine.square enough quiet
    (r.stop?_of_small _ small 1)
  rw [solve_outcome, solve_kept, ends]
  refine ⟨rfl, rfl, r.point s.value 1, rfl, fun z => ?_⟩
  constructor
  · rintro ⟨same, solved⟩
    exact there.eq_of_vanishing regular (fun v absent => (same v absent).trans (outside v absent).symm) solved vanishing
  · rintro rfl
    exact ⟨outside, vanishing⟩

theorem solve_of_singular (decisive : Linear.Decisive linear)
    (singular : ¬Linear.Regular ((Recurrence.ofModel engine linear config model s).coefficients a))
    (some : 1 ≤ config.maxIterations) (large : ¬model.residualNorm s < config.tolerance) :
    (solve engine linear config model s).1.termination = .singular ∧ (solve engine linear config model s).2 = s := by
  let r := Recurrence.ofModel engine linear config model s
  have stops : r.stop? (r.point s.value 0) 0 = .some ⟨.error .singularJacobian, 1, 1⟩ := by
    rw [Recurrence.point, r.stop?_of_large s.value large, affine.direction?_of_singular decisive singular]
    rfl
  have ends := Recurrence.run_of_first_stop engine linear config scope affine.square some (by simp) stops
  rw [solve_outcome, solve_kept, ends]
  exact ⟨rfl, rfl⟩

end Model

/-- The numbers of a given sum, and a line through the origin. -/
noncomputable def lines (total slope : ℝ) : Model ℝ :=
  ⟨"lines", [.ofMembers "system"
    [(.time 0, ⟨"sum", .sum [.var 0, .var 1, .neg (.const total)]⟩),
      (.time 1, ⟨"ray", .sum [.product (.const slope) (.var 0), .neg (.var 1)]⟩)]]⟩

noncomputable def linesGuess : Store ℝ :=
  ⟨#[⟨"x", 0, false⟩, ⟨"y", 0, false⟩]⟩

theorem linesGuess_value : linesGuess.value = 0 :=
  funext fun
    | 0 => rfl
    | 1 => rfl
    | _ + 2 => rfl

/-- The matrix of the lines. Parallel ones have no crossing. -/
theorem regular_lines (slope : ℝ) : Linear.Regular [[1, 1], [slope, -1]] ↔ slope ≠ -1 := by
  constructor
  · rintro regular rfl
    have taken : ∀ row ∈ [[(1 : ℝ), 1], [-1, -1]], Linear.dot row [1, -1] = 0 := by simp
    exact one_ne_zero (regular [1, -1] rfl taken 1 List.mem_cons_self)
  · intro other y length taken
    obtain ⟨p, q, rfl⟩ := List.length_eq_two.1 length
    simp only [List.forall_mem_cons, Linear.dot_cons, Linear.dot_nil] at taken
    obtain ⟨sum, ray, -⟩ := taken
    have product : (slope + 1) * p = 0 := by linear_combination sum + ray
    have p_zero : p = 0 := (mul_eq_zero.1 product).resolve_left fun zero => other (eq_neg_of_add_eq_zero_left zero)
    have q_zero : q = 0 := by linear_combination sum - p_zero
    simp [p_zero, q_zero]

/-- On an affine system with a regular matrix every update takes the same part away from all residuals, so that a
run leaves the power of what remains that counts its updates. Full updates end in the second round, at the only
solution, unless the values were good enough from the start. With a singular matrix the first round fails and
the values stay. -/
theorem solve_affine (engine : Engine) {linear : LinearSolver ℝ} (decisive : Linear.Decisive linear)
    {config : Config ℝ} (positive : 0 < config.tolerance) (nonzero : config.differenceStep ≠ 0) {model : Model ℝ}
    {s : Store ℝ} (scope : model.inScope s = true) (square : model.equations.length = (model.unknowns s).length)
    {a : Constraint ℝ → VarId → ℝ}
    (affine : ∀ c ∈ model.equations, c.body.AffineAround (model.unknowns s) s.value (a c)) :
    let unknowns := model.unknowns s
    let matrix := model.equations.map fun c => unknowns.map (a c)
    let initial := model.equations.map (·.residual s)
    let r := Recurrence.ofModel engine linear config model s
    let ended := run engine linear config model s
    let outcome := (solve engine linear config model s).1
    let t := (solve engine linear config model s).2
    (Linear.Regular matrix →
      (∀ k, r.residuals (r.point s.value k) = initial.map ((1 - config.damping) ^ k * ·)) ∧
      model.equations.map (·.residual ended.store) =
        initial.map ((1 - config.damping) ^ ended.stats.jacobianEvals * ·) ∧
      (config.damping = 1 → 2 ≤ config.maxIterations →
        outcome.termination = .optimal ∧ outcome.stats.iterations ≤ 2 ∧
        if model.residualNorm s < config.tolerance then t = s
        else ∃ y, t = s.withValues y ∧ ∀ z, ((∀ v, v ∉ unknowns → z v = s.value v) ∧
          ∀ c ∈ model.equations, c.body.valueAt z = 0) ↔ z = y)) ∧
    (¬Linear.Regular matrix → ¬model.residualNorm s < config.tolerance → 1 ≤ config.maxIterations →
      outcome.termination = .singular ∧ t = s) := by
  intro unknowns matrix initial r ended outcome t
  have here : r.AffineAt a s.value := ⟨square, model.unknowns_nodup s, nonzero, affine⟩
  refine ⟨fun regular => ⟨here.residuals_point decisive.exact regular,
    residuals_run_of_affine scope here decisive.exact regular, fun full enough => ?_⟩,
    fun singular large some => solve_of_singular scope here decisive singular some large⟩
  by_cases small : model.residualNorm s < config.tolerance
  · obtain ⟨optimal, once, kept⟩ := solve_of_small scope here (by omega) small
    rw [if_pos small]
    exact ⟨optimal, once.le.trans (by decide), kept⟩
  · obtain ⟨optimal, twice, solution⟩ :=
      solve_of_full_update scope here positive full enough decisive.exact regular small
    rw [if_neg small]
    exact ⟨optimal, twice.le, solution⟩

theorem solve_affine_lines :
    (∀ slope, (lines 3 slope).inScope linesGuess = true ∧
      (lines 3 slope).equations.length = ((lines 3 slope).unknowns linesGuess).length ∧
      ∀ c ∈ (lines 3 slope).equations, c.body.AffineTree ((lines 3 slope).unknowns linesGuess) linesGuess.value) ∧
    (solve .differences Linear.solve ⟨1, 2, 1, 1⟩ (lines 3 2) linesGuess).1.termination = .optimal ∧
    (solve .differences Linear.solve ⟨1, 2, 1, 1⟩ (lines 3 2) linesGuess).2 =
      linesGuess.withValues (fun v => if v = 0 then 1 else if v = 1 then 2 else 0) ∧
    (solve .differences Linear.solve ⟨1, 2, 1, 1⟩ (lines 3 (-1)) linesGuess).1.termination = .singular := by
  have trees : ∀ slope, ∀ c ∈ (lines 3 slope).equations,
      c.body.AffineTree ((lines 3 slope).unknowns linesGuess) linesGuess.value := by
    intro slope
    change ∀ c ∈ [_, _], _
    simp only [List.forall_mem_cons]
    refine ⟨.sum ?_, .sum ?_, by simp⟩
    · simp only [List.forall_mem_cons]
      exact ⟨.var 0, .var 1, .neg (.const _), by simp⟩
    · simp only [List.forall_mem_cons]
      exact ⟨.product (.const _) (.var 0) (.inl (by simp)), .neg (.var 1), by simp⟩
  let a (c : Constraint ℝ) (v : VarId) : ℝ := c.body.rate linesGuess.value (Pi.single v 1)
  have matrix : ∀ slope, ((lines 3 slope).equations.map fun c => ((lines 3 slope).unknowns linesGuess).map (a c)) =
      [[1, 1], [slope, -1]] := by
    intro slope
    change [[a _ 0, a _ 1], [a _ 0, a _ 1]] = _
    simp [a]
  have large : ∀ slope, ¬(lines 3 slope).residualNorm linesGuess < 1 := by
    intro slope
    have residuals : (lines 3 slope).equations.map (·.residual linesGuess) = [-3, 0] := by
      change [Expr.valueAt _ _, Expr.valueAt _ _] = _
      simp [linesGuess_value]
    rw [Model.residualNorm, residuals, Scalar.real_norm, not_lt]
    exact Real.one_le_sqrt.2 (by norm_num)
  have scope : ∀ slope, (lines 3 slope).inScope linesGuess = true := fun _ => rfl
  have square : ∀ slope, (lines 3 slope).equations.length = ((lines 3 slope).unknowns linesGuess).length := fun _ => rfl
  have solved := fun slope => solve_affine .differences Linear.solve_decisive
    (show 0 < (⟨1, 2, 1, 1⟩ : Config ℝ).tolerance from zero_lt_one) one_ne_zero (scope slope) (square slope)
    fun c inside => (trees slope c inside).affineAround ((lines 3 slope).unknowns_nodup linesGuess)
  obtain ⟨crossing, _⟩ := solved 2
  rw [matrix] at crossing
  obtain ⟨_, _, full⟩ := crossing ((regular_lines 2).2 (by norm_num))
  obtain ⟨optimal, _, solution⟩ := full rfl le_rfl
  rw [if_neg (large 2)] at solution
  obtain ⟨y, kept, only⟩ := solution
  obtain ⟨_, parallel⟩ := solved (-1)
  rw [matrix] at parallel
  obtain ⟨singular, _⟩ := parallel (fun regular => (regular_lines (-1)).1 regular rfl) (large (-1)) one_le_two
  have outside : ∀ v, v ∉ [0, 1] → (if v = 0 then 1 else if v = 1 then 2 else 0) = linesGuess.value v := by
    intro v absent
    rw [List.mem_cons, List.mem_singleton, not_or] at absent
    rw [if_neg absent.1, if_neg absent.2, linesGuess_value]
    rfl
  have crosses : ∀ c ∈ (lines 3 2).equations,
      c.body.valueAt (fun v => if v = 0 then 1 else if v = 1 then 2 else 0) = 0 := by
    change ∀ c ∈ [_, _], _
    simp only [List.forall_mem_cons]
    refine ⟨?_, ?_, by simp⟩
    · norm_num
    · norm_num
  rw [← (only _).1 ⟨outside, crosses⟩] at kept
  exact ⟨fun slope => ⟨scope slope, square slope, trees slope⟩, optimal, kept, singular⟩

end Newton

end Distillation
