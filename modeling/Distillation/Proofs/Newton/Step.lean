import Distillation.Proofs.Expr.Affine
import Distillation.Proofs.Linear.Regular
import Distillation.Proofs.Newton.Differences

namespace Distillation

namespace Newton

/-- To move one variable is to move along its direction. -/
theorem update_add (x : VarId → ℝ) (v : VarId) (h : ℝ) : Function.update x v (x v + h) = x + h • Pi.single v 1 := by
  funext w
  by_cases same : w = v
  · subst same
    simp
  · simp [same]

/-- The square systems that a step is exact on: the unknowns are different variables of a store of
`size` variables, and every equation is affine in each. -/
structure Tractable (cs : List (Constraint ℝ)) (unknowns : List VarId) (size : Nat) : Prop where
  square : cs.length = unknowns.length
  distinct : unknowns.Nodup
  known : ∀ v ∈ unknowns, v < size
  affine : ∀ c ∈ cs, ∀ v ∈ unknowns, c.body.AffineIn v

/-- No motion of the unknowns other than rest leaves every residual still. -/
def RegularAt (cs : List (Constraint ℝ)) (unknowns : List VarId) (x : VarId → ℝ) : Prop :=
  ∀ d : VarId → ℝ, (∀ v, v ∉ unknowns → d v = 0) → (∀ c ∈ cs, c.body.rate x d = 0) → d = 0

/-- The motion in which each variable takes its step. -/
noncomputable def motion (steps : List (VarId × ℝ)) : VarId → ℝ :=
  (steps.map fun step => Pi.single step.1 step.2).sum

@[simp] theorem motion_nil : motion [] = 0 := rfl

@[simp] theorem motion_cons (v : VarId) (a : ℝ) (steps : List (VarId × ℝ)) :
    motion ((v, a) :: steps) = Pi.single v a + motion steps := by
  simp [motion]

section Motion

variable {unknowns : List VarId} {y : List ℝ}

theorem motion_of_not_mem {v : VarId} (absent : v ∉ unknowns) : motion (unknowns.zip y) v = 0 := by
  induction unknowns generalizing y with
  | nil => rfl
  | cons w rest ih =>
    cases y with
    | nil => rfl
    | cons a y =>
      obtain ⟨other, later⟩ := List.ne_and_not_mem_of_not_mem_cons absent
      simp [ih later, other]

theorem map_motion (distinct : unknowns.Nodup) (length : y.length = unknowns.length) :
    unknowns.map (motion (unknowns.zip y)) = y := by
  induction unknowns generalizing y with
  | nil => exact (List.length_eq_zero_iff.1 length).symm
  | cons w rest ih =>
    obtain ⟨a, y, rfl⟩ := List.exists_cons_of_length_eq_add_one length
    obtain ⟨fresh, tail⟩ := List.nodup_cons.1 distinct
    have later : ∀ v ∈ rest, motion ((w :: rest).zip (a :: y)) v = motion (rest.zip y) v := by
      intro v inside
      have other : v ≠ w := by rintro rfl; exact fresh inside
      simp [other]
    rw [List.map_cons, List.map_congr_left later, ih tail (by simpa using length)]
    simp [motion_of_not_mem fresh]

theorem rate_motion (e : Expr ℝ) (x : VarId → ℝ) (unknowns : List VarId) (y : List ℝ) :
    e.rate x (motion (unknowns.zip y)) =
      Linear.dot (unknowns.map fun v => e.rate x (Pi.single v 1)) y := by
  induction unknowns generalizing y with
  | nil => simp [e.rate_direction_zero]
  | cons v rest ih =>
    cases y with
    | nil => simp [e.rate_direction_zero, Linear.dot]
    | cons a y =>
      have scaled : (Pi.single v a : VarId → ℝ) = a • Pi.single v 1 := by
        rw [← Pi.single_smul, smul_eq_mul, mul_one]
      rw [List.zip_cons_cons, motion_cons, e.rate_direction_add, ih, scaled, e.rate_direction_smul,
        List.map_cons, Linear.dot_cons]
      ring

end Motion

section Advance

variable (damping : ℝ)

@[simp] theorem size_advance (s : Store ℝ) (steps : List (VarId × ℝ)) :
    (advance damping s steps).size = s.size := by
  induction steps generalizing s with
  | nil => rfl
  | cons step rest ih => exact (ih _).trans (s.size_set _ _)

@[simp] theorem isFixed_advance (s : Store ℝ) (steps : List (VarId × ℝ)) (v : VarId) :
    (advance damping s steps).isFixed v = s.isFixed v := by
  induction steps generalizing s with
  | nil => rfl
  | cons step rest ih => exact (ih _).trans (s.isFixed_set _ v _)

theorem value_advance (s : Store ℝ) (steps : List (VarId × ℝ)) (known : ∀ step ∈ steps, step.1 < s.size) :
    (advance damping s steps).value = s.value + damping • motion steps := by
  induction steps generalizing s with
  | nil => simp [advance]
  | cons step rest ih =>
    obtain ⟨v, a⟩ := step
    obtain ⟨first, later⟩ := List.forall_mem_cons.1 known
    change (advance damping (s.set v (s.value v + damping * a)) rest).value = _
    have scaled : (damping * a) • (Pi.single v 1 : VarId → ℝ) = damping • Pi.single v a := by
      rw [← Pi.single_smul, ← Pi.single_smul]
      simp
    rw [ih _ (by simpa using later), s.value_set_known first, update_add, scaled, motion_cons, smul_add, add_assoc]

end Advance

section Jacobian

variable {cs : List (Constraint ℝ)} {unknowns : List VarId} {s : Store ℝ}

/-- The slopes of the equations by the unknowns, row by row. -/
noncomputable def slopes (cs : List (Constraint ℝ)) (unknowns : List VarId) (x : VarId → ℝ) :
    List (List ℝ) :=
  cs.map fun c => unknowns.map fun v => c.body.rate x (Pi.single v 1)

theorem residuals_real (cs : List (Constraint ℝ)) (s : Store ℝ) :
    residuals cs s = .ok (cs.map (·.residual s)) :=
  mapM_eq_ok fun c _ => by simp [finiteResidual]

theorem increment_ne_zero {step : ℝ} (nonzero : step ≠ 0) (x : ℝ) : increment step x ≠ 0 := by
  have positive : (0 : ℝ) < max |x| 1 := lt_max_of_lt_right one_pos
  rw [increment, Scalar.real_max, Scalar.real_abs]
  exact mul_ne_zero nonzero positive.ne'

theorem quotient_eq_rate {step : ℝ} (nonzero : step ≠ 0) {v : VarId} (known : v < s.size) {c : Constraint ℝ}
    (affine : c.body.AffineIn v) : quotient step s v c (c.residual s) = c.body.rate s.value (Pi.single v 1) := by
  rw [quotient, residual_displaced step known, update_add, affine.valueAt_move, Constraint.residual, Expr.eval,
    add_sub_cancel_left]
  exact mul_div_cancel_left₀ _ (increment_ne_zero nonzero _)

/-- Nothing keeps an engine from differentiating. -/
theorem obstacle?_real (engine : Engine) (config : Config ℝ) (cs : List (Constraint ℝ)) (unknowns : List VarId)
    (s : Store ℝ) : obstacle? engine config cs unknowns s = none := by
  cases engine with
  | differences => exact List.findSome?_eq_none_iff.2 fun _ _ => firstNonFinite?_eq_none_iff.2 fun _ _ => rfl
  | exact => rfl

theorem exactJacobian_eq (cs : List (Constraint ℝ)) (unknowns : List VarId) (s : Store ℝ) :
    exactJacobian cs unknowns s = slopes cs unknowns s.value := by
  simp only [exactJacobian, gradient, Expr.slope_dualAt, slopes]

/-- Both engines find the slopes and leave the store alone. -/
theorem jacobian_on (engine : Engine) {config : Config ℝ} (nonzero : config.differenceStep ≠ 0)
    (known : ∀ v ∈ unknowns, v < s.size) (affine : ∀ c ∈ cs, ∀ v ∈ unknowns, c.body.AffineIn v) :
    (jacobian engine config cs unknowns (cs.map (·.residual s))).on s =
      (.ok (slopes cs unknowns s.value), s) := by
  rw [jacobian_on_eq, obstacle?_real, Option.elim_none, slopes]
  refine congrArg (fun rows => (Except.ok rows, s)) (List.map_congr_left fun c listed => ?_)
  refine List.map_congr_left fun v unknown => ?_
  cases engine with
  | differences => exact quotient_eq_rate nonzero (known v unknown) (affine c listed v unknown)
  | exact => exact Expr.slope_dualAt s.value c.body v

theorem regular_slopes {size : Nat} (tractable : Tractable cs unknowns size) {x : VarId → ℝ}
    (regular : RegularAt cs unknowns x) : Linear.Regular (slopes cs unknowns x) := by
  intro y length taken
  have count : y.length = unknowns.length := by rw [length, slopes, List.length_map, tractable.square]
  have still : motion (unknowns.zip y) = 0 := by
    refine regular _ (fun v absent => motion_of_not_mem absent) fun c inside => ?_
    rw [rate_motion c.body]
    exact taken _ (List.mem_map_of_mem inside)
  intro a inside
  rw [← map_motion tractable.distinct count, still] at inside
  obtain ⟨v, _, rfl⟩ := List.mem_map.1 inside
  rfl

/-- The store after a step: the same variables, moved by `d`. -/
structure Moved (s : Store ℝ) (d : VarId → ℝ) (t : Store ℝ) : Prop where
  value : t.value = s.value + d
  size : t.size = s.size
  isFixed : ∀ v, t.isFixed v = s.isFixed v

/-- A full step at a regular point moves the unknowns so that every residual changes at the rate of
its own negative. -/
theorem exists_step {linear : LinearSolver ℝ} (exact : Linear.Exact linear)
    (tractable : Tractable cs unknowns s.size) (regular : RegularAt cs unknowns s.value) :
    ∃ steps d, linear (slopes cs unknowns s.value) ((cs.map (·.residual s)).map (-·)) = some steps ∧
      Moved s d (advance 1 s (unknowns.zip steps)) ∧ (∀ v, v ∉ unknowns → d v = 0) ∧
      ∀ c ∈ cs, c.body.rate s.value d = -c.residual s := by
  have width : ∀ row ∈ slopes cs unknowns s.value, row.length = (slopes cs unknowns s.value).length := by
    intro row inside
    obtain ⟨c, _, rfl⟩ := List.mem_map.1 inside
    simp [slopes, tractable.square]
  obtain ⟨steps, found, length, solves⟩ := exact (slopes cs unknowns s.value)
    ((cs.map (·.residual s)).map (-·)) (by simp [slopes]) width (regular_slopes tractable regular)
  have known : ∀ step ∈ unknowns.zip steps, step.1 < s.size := fun step inside =>
    tractable.known _ (List.of_mem_zip inside).1
  refine ⟨steps, motion (unknowns.zip steps), found, ⟨?_, ?_, ?_⟩, fun v absent => ?_, fun c inside => ?_⟩
  · rw [value_advance 1 s _ known, one_smul]
  · exact size_advance 1 s _
  · exact isFixed_advance 1 s _
  · exact motion_of_not_mem absent
  · rw [slopes, List.map_map, List.map_map] at solves
    have row := List.map_inj_left.1 solves c inside
    exact (rate_motion c.body s.value unknowns steps).trans row

end Jacobian

end Newton

end Distillation
