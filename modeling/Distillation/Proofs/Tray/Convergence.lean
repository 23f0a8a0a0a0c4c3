import Mathlib.Analysis.Real.Sqrt
import Distillation.Newton.Solver
import Distillation.Proofs.Newton.Convergence
import Distillation.Proofs.Tray.Residuals
import Distillation.Proofs.Tray.Square

namespace Distillation

/-- The package vaporizes this fraction of each of its components. -/
structure IdealPackage.Vaporizes (package : IdealPackage ℝ) (fraction : ℝ) : Prop where
  relation : package.equilibrium = .vaporFraction fraction
  nonneg : 0 ≤ fraction
  le_one : fraction ≤ 1
  nonempty : package.components ≠ []
  distinct : package.Distinct
  capacities : ∀ c ∈ package.components, 0 < c.liquidHeatCapacity ∧ 0 < c.vaporHeatCapacity

theorem IdealPackage.benzeneToluene_vaporizes : (benzeneToluene : IdealPackage ℝ).Vaporizes 0.5 := by
  refine ⟨rfl, by norm_num, by norm_num, List.cons_ne_nil _ _, benzeneToluene_distinct, ?_⟩
  simp [benzeneToluene, ofComponents]
  norm_num

namespace Tray

variable {package : IdealPackage ℝ} {tray : Tray ℝ} {points : List (IdealPoint ℝ)} {fraction : ℝ}
  {x d : VarId → ℝ} {stage : Stage} {base s : Store ℝ}

/-- The inlets bring something at every time point. -/
structure Supplied (points : List (IdealPoint ℝ)) (x : VarId → ℝ) : Prop where
  nonneg : ∀ point ∈ points, ∀ state ∈ point.inlets, ∀ v ∈ state.flows, 0 ≤ x v
  pos : ∀ point ∈ points, ∃ state ∈ point.inlets, ∃ v ∈ state.flows, 0 < x v

/-- Every outlet can take up heat. -/
def Heatable (points : List (IdealPoint ℝ)) (x : VarId → ℝ) : Prop :=
  Supplied points x ∧ ∀ point ∈ points, 0 < point.outlet.capacity x

/-- The flows of every outlet are what enters, divided between the phases. -/
def Divided (fraction : ℝ) (points : List (IdealPoint ℝ)) (x : VarId → ℝ) : Prop :=
  Supplied points x ∧ ∀ point ∈ points, ∀ c ∈ point.outlet.components,
    x c.liquid + x c.vapor = point.entering c.data.name x ∧
      x c.vapor = fraction * (x c.liquid + x c.vapor)

section Motion

variable (placed : Placed package tray points base) (support : ∀ v, v ∉ tray.unknownsAt stage → d v = 0)
include placed support

theorem Placed.given_still {v : VarId} (given : v ∈ tray.given) : d v = 0 := by
  obtain ⟨flow, temperature, pressure⟩ := placed.not_outlet_of_given given
  refine support v fun unknown => ?_
  rcases mem_unknownsAt.1 unknown with hit | ⟨_, hit⟩ | ⟨_, hit⟩
  · exact flow hit
  · exact temperature hit
  · exact pressure hit

theorem Placed.inlets_still {point : IdealPoint ℝ} (inside : point ∈ points) :
    ∀ state ∈ point.inlets, ∀ v ∈ state.vars, d v = 0 :=
  fun _ entering _ own => placed.given_still support (placed.mem_given_of_inlet inside entering own)

theorem Placed.supplied_add (supplied : Supplied points x) : Supplied points (x + d) := by
  have still : ∀ point ∈ points, ∀ state ∈ point.inlets, ∀ v ∈ state.flows, (x + d) v = x v := by
    intro point inside state entering v flow
    rw [Pi.add_apply, placed.inlets_still support inside state entering v (IdealState.mem_vars_of_flow flow),
      add_zero]
  refine ⟨fun point inside state entering v flow => ?_, fun point inside => ?_⟩
  · rw [still point inside state entering v flow]
    exact supplied.nonneg point inside state entering v flow
  · obtain ⟨state, entering, v, flow, positive⟩ := supplied.pos point inside
    exact ⟨state, entering, v, flow, still point inside state entering v flow ▸ positive⟩

theorem Placed.entering_add {point : IdealPoint ℝ} (inside : point ∈ points) (name : String) :
    point.entering name (x + d) = point.entering name x :=
  IdealPoint.entering_congr (fun state entering v own => by
    rw [Pi.add_apply, placed.inlets_still support inside state entering v own, add_zero]) name

variable (vaporizes : package.Vaporizes fraction) {point : IdealPoint ℝ} (inside : point ∈ points)
  {c : ComponentFlows ℝ} (among : c ∈ point.outlet.components)

include vaporizes inside among in
theorem Placed.rate_material : (Balances.materialBody Phase.both point.toMixing c.data.name).rate x d =
    -(d c.liquid + d c.vapor) := by
  rw [Balances.rate_materialBody (placed.inlets_still support inside),
    placed.materialFlow_eq vaporizes.distinct inside among, placed.materialFlow_eq vaporizes.distinct inside among,
    Expr.rate_var, Expr.rate_var]
  rfl

include inside in
theorem Placed.rate_pressure : (tray.pressureBody point).rate x d = d point.outlet.pressure := by
  have level : (Balances.outletPressure tray.balances.pressureDrop point.toMixing).rate x d = 0 := by
    refine Expr.rate_eq_zero fun v occurs => ?_
    rcases Balances.mem_vars_outletPressure.1 occurs with rfl | drop
    · exact placed.inlets_still support inside point.vapor point.vapor_mem _
        point.vapor.pressure_mem_vars
    · exact placed.given_still support (by simp [given, Option.mem_def.1 drop])
  rw [pressureBody, Expr.rate_sub_op, Expr.rate_var, level, sub_zero]

include inside in
theorem Placed.rate_enthalpy (still : ∀ v ∈ point.outlet.flows, d v = 0) :
    (Balances.enthalpyBody Phase.both tray.balances.heatDuty point.toMixing).rate x d =
      -(d point.outlet.temperature * point.outlet.capacity x) :=
  Balances.rate_enthalpyBody (placed.inlets_still support inside)
    (fun _ duty => placed.given_still support (by simp [given, Option.mem_def.1 duty])) still

end Motion

section Divided

variable (placed : Placed package tray points base) (vaporizes : package.Vaporizes fraction)
  {point : IdealPoint ℝ} (inside : point ∈ points)
include placed inside

omit placed in
theorem entering_nonneg (supplied : Supplied points x) (name : String) : ∀ state ∈ point.inlets, ∀ p,
    0 ≤ (state.materialFlow p name).valueAt x := by
  intro state entering p
  unfold IdealState.materialFlow
  cases found : state.component? name with
  | none => simp [Expr.zero_def]
  | some c =>
    change 0 ≤ (Expr.var (c.flow p)).valueAt x
    rw [Expr.valueAt_var]
    exact supplied.nonneg point inside state entering _ (IdealState.flow_mem_flows_of_component? found p)

include vaporizes

/-- At every time point some component enters. -/
theorem Placed.exists_entering (supplied : Supplied points x) :
    ∃ c ∈ point.outlet.components, 0 < point.entering c.data.name x := by
  obtain ⟨state, entering, v, flow, positive⟩ := supplied.pos point inside
  obtain ⟨c, among, p, rfl⟩ := IdealState.mem_flows.1 flow
  have fits := placed.anatomy.fits point inside
  have names := (fits state (List.mem_append_left _ entering)).names
  have found := IdealState.component?_of_mem (names ▸ vaporizes.distinct) among
  have listed : c.data.name ∈ point.outlet.components.map (·.data.name) := by
    rw [(fits point.outlet point.outlet_mem).names, ← names]
    exact List.mem_map.2 ⟨c, among, rfl⟩
  obtain ⟨own, leaving, sameName⟩ := List.mem_map.1 listed
  refine ⟨own, leaving, ?_⟩
  rw [sameName]
  have nonneg := entering_nonneg inside supplied c.data.name
  have part : 0 < (state.materialFlow .liquid c.data.name).valueAt x +
      (state.materialFlow .vapor c.data.name).valueAt x := by
    have here : (state.materialFlow p c.data.name).valueAt x = x (c.flow p) := by
      rw [IdealState.materialFlow, found]
      exact Expr.valueAt_var x _
    have liquid := nonneg state entering .liquid
    have vapor := nonneg state entering .vapor
    cases p <;> linarith
  refine lt_of_lt_of_le part (List.single_le_sum ?_ _ (List.mem_map.2 ⟨state, entering, rfl⟩))
  intro r among
  obtain ⟨other, entering, rfl⟩ := List.mem_map.1 among
  exact add_nonneg (nonneg other entering .liquid) (nonneg other entering .vapor)

/-- Once the flows are right, the outlet can take up heat: something enters, and each component takes
up heat in either phase. -/
theorem Placed.capacity_pos (divided : Divided fraction points x) : 0 < point.outlet.capacity x := by
  have fits := placed.anatomy.outlet_fits inside
  have share : ∀ c ∈ point.outlet.components,
      x c.liquid * c.data.heatCapacity .liquid + x c.vapor * c.data.heatCapacity .vapor =
        point.entering c.data.name x * ((1 - fraction) * c.data.heatCapacity .liquid +
          fraction * c.data.heatCapacity .vapor) := by
    intro c among
    obtain ⟨whole, part⟩ := divided.2 point inside c among
    have vapor : x c.vapor = fraction * point.entering c.data.name x := by rw [part, whole]
    have liquid : x c.liquid = (1 - fraction) * point.entering c.data.name x := by linarith
    rw [vapor, liquid]
    ring
  have mixed : ∀ c ∈ point.outlet.components, 0 < (1 - fraction) * c.data.heatCapacity .liquid +
      fraction * c.data.heatCapacity .vapor := by
    intro c among
    have listed : c.data ∈ package.components := fits.data ▸ List.mem_map_of_mem among
    obtain ⟨liquid, vapor⟩ := vaporizes.capacities c.data listed
    have nonneg := vaporizes.nonneg
    rcases lt_or_eq_of_le vaporizes.le_one with below | one
    · have first := mul_pos (sub_pos.2 below) liquid
      have second := mul_nonneg nonneg vapor.le
      exact add_pos_of_pos_of_nonneg first second
    · simpa [one, ComponentData.heatCapacity] using vapor
  obtain ⟨c, among, positive⟩ := placed.exists_entering vaporizes inside divided.1
  have enough := mul_pos positive (mixed c among)
  rw [← share c among] at enough
  refine lt_of_lt_of_le enough (List.single_le_sum ?_ _ (List.mem_map.2 ⟨c, among, rfl⟩))
  intro r listed
  obtain ⟨other, leaving, rfl⟩ := List.mem_map.1 listed
  rw [share other leaving]
  refine mul_nonneg (List.sum_nonneg fun r among => ?_) (mixed other leaving).le
  obtain ⟨state, entering, rfl⟩ := List.mem_map.1 among
  have nonneg := entering_nonneg inside divided.1 other.data.name state entering
  exact add_nonneg (nonneg .liquid) (nonneg .vapor)

end Divided

section Rounds

variable {unknowns : List VarId} (placed : Placed package tray points base)
  (vaporizes : package.Vaporizes fraction) (same : unknowns.Perm (tray.unknownsAt stage))
include placed vaporizes same

/-- As long as the outlet can take up heat, the equations of a stage are regular. -/
theorem Placed.regularAt (heatable : Heatable points x) :
    Newton.RegularAt (tray.equipped stage).toModel.equations unknowns x := by
  intro d outside rates
  have support : ∀ v, v ∉ tray.unknownsAt stage → d v = 0 := fun v absent =>
    outside v fun listed => absent (same.mem_iff.1 listed)
  have rests := (placed.anatomy.forall_equations (fun body => body.rate x d = 0) stage).1 rates
  have flows : ∀ point ∈ points, ∀ v ∈ point.outlet.flows, d v = 0 := by
    intro point inside v own
    obtain ⟨c, among, p, rfl⟩ := IdealState.mem_flows.1 own
    obtain ⟨material, equilibrium⟩ := placed.component_bodies inside among vaporizes.relation stage
    have whole := rests point inside _ material
    have part := rests point inside _ equilibrium
    rw [placed.rate_material support vaporizes inside among, neg_eq_zero] at whole
    simp only [Expr.rate_sub_op, Expr.rate_mul_op, Expr.rate_add_op, Expr.rate_var, Expr.rate_const,
      Expr.valueAt_const, zero_mul, zero_add, whole, sub_zero] at part
    cases p with
    | liquid => simpa [part, ComponentFlows.flow] using whole
    | vapor => exact part
  funext v
  by_cases unknown : v ∈ tray.unknownsAt stage
  · rcases mem_unknownsAt.1 unknown with flow | ⟨energy, level⟩ | ⟨pressure, level⟩
    · obtain ⟨point, inside, own⟩ := placed.mem_outletFlows.1 flow
      exact flows point inside v own
    · rw [placed.anatomy.outletTemperatures_eq] at level
      obtain ⟨point, inside, rfl⟩ := List.mem_map.1 level
      have rest := rests point inside (Balances.enthalpyBody Phase.both tray.balances.heatDuty point.toMixing)
        (by simp [bodiesAt, energy])
      rw [placed.rate_enthalpy support inside (flows point inside), neg_eq_zero] at rest
      exact (mul_eq_zero.1 rest).resolve_right (heatable.2 point inside).ne'
    · rw [placed.anatomy.outletPressures_eq] at level
      obtain ⟨point, inside, rfl⟩ := List.mem_map.1 level
      have rest := rests point inside (tray.pressureBody point) (by simp [bodiesAt, pressure])
      rwa [placed.rate_pressure support inside] at rest
  · exact support v unknown

/-- One full step sets all flows of the outlet right. -/
theorem Placed.divided_of_step (heatable : Heatable points x) (outside : ∀ v, v ∉ unknowns → d v = 0)
    (rates : ∀ c ∈ (tray.equipped stage).toModel.equations, c.body.rate x d = -c.body.valueAt x) :
    Divided fraction points (x + d) := by
  have support : ∀ v, v ∉ tray.unknownsAt stage → d v = 0 := fun v absent =>
    outside v fun listed => absent (same.mem_iff.1 listed)
  have moves := (placed.anatomy.forall_equations (fun body => body.rate x d = -body.valueAt x) stage).1 rates
  refine ⟨placed.supplied_add support heatable.1, fun point inside c among => ?_⟩
  obtain ⟨material, equilibrium⟩ := placed.component_bodies inside among vaporizes.relation stage
  have whole := moves point inside _ material
  have part := moves point inside _ equilibrium
  rw [placed.rate_material support vaporizes inside among,
    placed.valueAt_material vaporizes.distinct inside among] at whole
  simp only [Expr.rate_sub_op, Expr.rate_mul_op, Expr.rate_add_op, Expr.rate_var, Expr.rate_const,
    Expr.valueAt_sub, Expr.valueAt_mul, Expr.valueAt_add, Expr.valueAt_var, Expr.valueAt_const] at part
  rw [placed.entering_add support inside, Pi.add_apply, Pi.add_apply]
  constructor
  · linarith
  · linear_combination part

/-- With the flows right only the levels still move, and each equation is affine in its own. -/
theorem Placed.solved_of_step (divided : Divided fraction points x) (outside : ∀ v, v ∉ unknowns → d v = 0)
    (rates : ∀ c ∈ (tray.equipped stage).toModel.equations, c.body.rate x d = -c.body.valueAt x) :
    ∀ c ∈ (tray.equipped stage).toModel.equations, c.body.valueAt (x + d) = 0 := by
  have support : ∀ v, v ∉ tray.unknownsAt stage → d v = 0 := fun v absent =>
    outside v fun listed => absent (same.mem_iff.1 listed)
  have moves := (placed.anatomy.forall_equations (fun body => body.rate x d = -body.valueAt x) stage).1 rates
  refine (placed.anatomy.forall_equations (fun body => body.valueAt (x + d) = 0) stage).2
    fun point inside body listed => ?_
  have flows : ∀ v ∈ point.outlet.flows, d v = 0 := by
    intro v own
    obtain ⟨c, among, p, rfl⟩ := IdealState.mem_flows.1 own
    obtain ⟨material, equilibrium⟩ := placed.component_bodies inside among vaporizes.relation stage
    obtain ⟨whole, part⟩ := divided.2 point inside c among
    have wholeMove := moves point inside _ material
    have partMove := moves point inside _ equilibrium
    rw [placed.rate_material support vaporizes inside among,
      placed.valueAt_material vaporizes.distinct inside among] at wholeMove
    simp only [Expr.rate_sub_op, Expr.rate_mul_op, Expr.rate_add_op, Expr.rate_var, Expr.rate_const,
      Expr.valueAt_sub, Expr.valueAt_mul, Expr.valueAt_add, Expr.valueAt_var, Expr.valueAt_const] at partMove
    have sum : d c.liquid + d c.vapor = 0 := by linarith
    have vapor : d c.vapor = 0 := by linear_combination partMove + fraction * sum - part
    cases p with
    | liquid => simpa [vapor, ComponentFlows.flow] using sum
    | vapor => exact vapor
  obtain ⟨level, each⟩ := exists_level listed
  have still : ∀ v ∈ body.vars, v ≠ level → d v = 0 := by
    intro v occurs other
    rcases each v occurs with entering | leaving | ⟨hit, _⟩
    · exact placed.given_still support (placed.given_of_incoming inside entering)
    · exact flows v leaving
    · exact absurd hit other
  rw [(placed.affine vaporizes.relation inside listed level).valueAt_add still, moves point inside body listed,
    add_neg_cancel]

end Rounds

theorem Placed.heatable_congr (placed : Placed package tray points base) {y : VarId → ℝ}
    (agree : ∀ v, v ∉ tray.outletTemperatures → v ∉ tray.outletPressures → y v = x v)
    (heatable : Heatable points x) : Heatable points y := by
  have inlet : ∀ point ∈ points, ∀ state ∈ point.inlets, ∀ v ∈ state.flows, y v = x v := by
    intro point inside state entering v flow
    obtain ⟨_, temperature, pressure⟩ := placed.not_outlet_of_given
      (placed.mem_given_of_inlet inside entering (IdealState.mem_vars_of_flow flow))
    exact agree v temperature pressure
  have outlet : ∀ point ∈ points, ∀ v ∈ point.outlet.flows, y v = x v := by
    intro point inside v flow
    have listed := placed.mem_outletFlows.2 ⟨point, inside, flow⟩
    exact agree v (fun level => (placed.temperature_apart level).1 listed)
      fun level => (placed.pressure_apart level).1 listed
  refine ⟨⟨fun point inside state entering v flow => ?_, fun point inside => ?_⟩, fun point inside => ?_⟩
  · rw [inlet point inside state entering v flow]
    exact heatable.1.nonneg point inside state entering v flow
  · obtain ⟨state, entering, v, flow, positive⟩ := heatable.1.pos point inside
    exact ⟨state, entering, v, flow, by rwa [inlet point inside state entering v flow]⟩
  · have same : point.outlet.capacity y = point.outlet.capacity x := by
      refine congrArg List.sum (List.map_congr_left fun c among => ?_)
      have liquid := outlet point inside c.liquid (IdealState.flow_mem_flows among .liquid)
      have vapor := outlet point inside c.vapor (IdealState.flow_mem_flows among .vapor)
      rw [liquid, vapor]
    rw [same]
    exact heatable.2 point inside

section Solve

variable (placed : Placed package tray points base) (specified : tray.Specified base)
  (vaporizes : package.Vaporizes fraction) (flags : ∀ v, s.isFixed v = tray.heldAt base stage v)
  (size : s.size = base.size)
include placed specified vaporizes flags size

theorem Placed.tractable : Newton.Tractable (tray.equipped stage).toModel.equations
    ((tray.equipped stage).toModel.unknowns s) s.size := by
  have same := placed.unknowns_perm specified vaporizes.nonempty vaporizes.distinct flags
  refine ⟨placed.length_equations_eq specified vaporizes.nonempty vaporizes.distinct flags,
    Model.unknowns_nodup _ s, fun v unknown => ?_, fun c among v _ => ?_⟩
  · rw [size]
    exact placed.known_unknownsAt (same.mem_iff.1 unknown)
  · exact (placed.anatomy.forall_equations (fun body => body.AffineIn v) stage).2
      (fun point inside body listed => placed.affine vaporizes.relation inside listed v) c among

omit vaporizes flags in
theorem Placed.inScope : (tray.equipped stage).toModel.inScope s = true := by
  refine List.all_eq_true.2 fun v referenced => ?_
  obtain ⟨point, inside, body, listed, occurs⟩ :=
    (placed.anatomy.exists_equation (fun body => v ∈ body.vars) stage).1 (Model.mem_referenced.1 referenced)
  rw [decide_eq_true_iff, size]
  rcases placed.occurs specified inside listed occurs with unknown | ⟨given, _⟩
  · exact placed.known_unknownsAt unknown
  · exact placed.known v (List.mem_append_left _ given)

/-- Each stage is solved in three iterations at most, and what the next one needs is still there. -/
theorem Placed.solve_stage {engine : Newton.Engine} {linear : Newton.LinearSolver ℝ}
    {config : Newton.Config ℝ} (full : Newton.FullSteps config) (enough : 3 ≤ config.maxIterations)
    (solves : Linear.Exact linear) (heatable : Heatable points s.value) (trace : Bool) :
    ∃ stats t, (Newton.solverWith engine linear config).solve (tray.equipped stage).toModel trace ((), s) =
        (some ⟨.optimal, stats⟩, (), t) ∧ stats.iterations ≤ 3 ∧ t.size = base.size ∧
      (∀ v, t.isFixed v = tray.heldAt base stage v) ∧ Heatable points t.value := by
  have same := placed.unknowns_perm specified vaporizes.nonempty vaporizes.distinct flags
  have tractable := placed.tractable specified vaporizes flags size
  have settles : Newton.Settles (tray.equipped stage).toModel.equations
      ((tray.equipped stage).toModel.unknowns s) (Heatable points) (Divided fraction points) :=
    ⟨fun x => placed.regularAt vaporizes same,
      fun x divided => ⟨divided.1, fun point inside => placed.capacity_pos vaporizes inside divided⟩,
      fun x d => placed.divided_of_step vaporizes same, fun x d => placed.solved_of_step vaporizes same⟩
  obtain ⟨left, rounds⟩ := Nat.exists_eq_add_of_le' enough
  obtain ⟨t, d, stats, ended, few, moved, _, warm⟩ :=
    Newton.iterate_of_settles engine full solves settles tractable heatable left
  refine ⟨stats, t, ?_, few, moved.size.trans size, fun v => (moved.isFixed v).trans (flags v), warm⟩
  have admitted : Newton.admits config (tray.equipped stage).toModel s = true := by
    simp [Newton.admits, placed.inScope specified size, full.tolerance_pos]
  simp only [Newton.solverWith, admitted, if_true, Newton.solve, Newton.run, tractable.square, rounds, ended]

omit flags size in
/-- A run of stages that follow one another solves them all. -/
theorem Placed.runStages_optimal {engine : Newton.Engine} {linear : Newton.LinearSolver ℝ}
    {config : Newton.Config ℝ} (full : Newton.FullSteps config) (enough : 3 ≤ config.maxIterations)
    (solves : Linear.Exact linear) (trace : Bool) (guess : OutletGuess ℝ) (stages : List Stage) :
    ∀ (last : Option Stage) (reports : List (StageReport ℝ)) (now : Tray ℝ) (s : Store ℝ),
      Stage.Successive last stages → tray.Reached base last now s → s.size = base.size → Heatable points s.value →
      ∃ solved after, runStages (Newton.solverWith engine linear config) trace (some guess) stages reports
          ⟨now, (), s⟩ = (.completed ⟨reports ++ solved⟩, after) ∧ solved.map (·.stage) = stages ∧
        ∀ entry ∈ solved, entry.outcome.termination = .optimal ∧ entry.outcome.stats.iterations ≤ 3 := by
  induction stages with
  | nil =>
    intro last reports now s _ _ _ _
    exact ⟨[], ⟨now, (), s⟩, by rw [runStages, List.append_nil], rfl, by simp⟩
  | cons stage rest ih =>
    rintro last reports now s ⟨follows, successive⟩ reached size heatable
    obtain ⟨equipped, flags⟩ := arrange_of_reached placed.known_levels follows reached guess
    have warm : Heatable points (arrange (some guess) stage now s).2.value :=
      placed.heatable_congr (fun v temperature pressure =>
        value_arrange reached.outlets_eq guess temperature pressure) heatable
    obtain ⟨stats, t, solved, few, size, flags, warm⟩ := placed.solve_stage specified vaporizes flags
      ((size_arrange guess).trans size) full enough solves warm trace
    obtain ⟨later, after, ran, order, optimal⟩ := ih (some stage) (reports ++ [⟨stage, .optimal, stats⟩])
      (tray.equipped stage) t successive ⟨rfl, flags⟩ size warm
    refine ⟨⟨stage, .optimal, stats⟩ :: later, after, ?_, by rw [List.map_cons, order], ?_⟩
    · rw [runStages_cons, solveStage_eq, equipped]
      dsimp only
      rw [solved]
      dsimp only
      rw [ran, List.append_assoc]
      rfl
    · exact List.forall_mem_cons.2 ⟨⟨rfl, few⟩, optimal⟩

end Solve

/-- What a start-up is to be given: everything from outside is fixed, something flows in at every time
point and nothing flows out, and the flows of the outlet are free and start above zero. -/
structure Ready (tray : Tray ℝ) (s : Store ℝ) : Prop where
  inlets : ∀ state ∈ tray.inlets, ∀ v ∈ state.vars, s.isFixed v = true
  splits : ∀ v ∈ tray.splits, s.isFixed v = true
  heatDuty : ∀ v ∈ tray.balances.heatDuty, s.isFixed v = true
  pressureDrop : ∀ v ∈ tray.balances.pressureDrop, s.isFixed v = true
  inlet_nonneg : ∀ state ∈ tray.inlets, ∀ v ∈ state.flows, 0 ≤ s.value v
  inlet_pos : ∀ states ∈ tray.points, 0 < (states.inletFlows.map s.value).sum
  outlet_free : ∀ state ∈ tray.outlets, ∀ v ∈ state.flows, s.isFixed v = false
  outlet_pos : ∀ state ∈ tray.outlets, ∀ v ∈ state.flows, 0 < s.value v

theorem Placed.specified_of_ready (placed : Placed package tray points s) (ready : tray.Ready s) :
    tray.Specified s := by
  refine ⟨?_, ?_, ?_, ready.heatDuty, ready.pressureDrop, ready.splits, ready.outlet_free⟩
  · exact fun state among v flow => ready.inlets state among v (List.mem_filter.1 flow).1
  · exact fun state among => ready.inlets state among _ (placed.anatomy.levels_mem_vars among).1
  · intro state among
    have entering : state ∈ tray.inlets := List.mem_append_right _ among
    exact ready.inlets state entering _ (placed.anatomy.levels_mem_vars entering).2

theorem Placed.heatable_of_ready (placed : Placed package tray points s) (vaporizes : package.Vaporizes fraction)
    (ready : tray.Ready s) : Heatable points s.value := by
  have own : ∀ point ∈ points, ∀ state ∈ point.states, state.toState.flows = state.flows :=
    fun point inside state present => placed.flows_eq inside present
  have entering : ∀ point ∈ points, ∀ state ∈ point.inlets, state.toState.flows = state.flows :=
    fun point inside state present => own point inside state (List.mem_append_left _ present)
  refine ⟨⟨fun point inside state present v flow => ?_, fun point inside => ?_⟩, fun point inside => ?_⟩
  · rw [← entering point inside state present] at flow
    exact ready.inlet_nonneg _ (placed.anatomy.mem_inlets_of inside present) v flow
  · have listed : point.toStates ∈ tray.points := placed.anatomy.points_eq ▸ List.mem_map_of_mem inside
    have positive := ready.inlet_pos _ listed
    obtain ⟨v, flow, large⟩ : ∃ v ∈ point.toStates.inletFlows, 0 < s.value v := by
      refine List.exists_lt_of_sum_lt (fun _ => 0) s.value ?_
      simpa using positive
    rw [TrayStates.inletFlows, point.toStates_inlets, List.flatMap_map, List.mem_flatMap] at flow
    obtain ⟨state, present, flow⟩ := flow
    exact ⟨state, present, v, entering point inside state present ▸ flow, large⟩
  · have fits := placed.anatomy.outlet_fits inside
    have terms : ∀ c ∈ point.outlet.components,
        0 < s.value c.liquid * c.data.heatCapacity .liquid + s.value c.vapor * c.data.heatCapacity .vapor := by
      intro c among
      have flows : ∀ p, 0 < s.value (c.flow p) := by
        refine fun p => ready.outlet_pos _ (placed.anatomy.mem_outlets_of inside) _ ?_
        rw [own point inside point.outlet point.outlet_mem]
        exact IdealState.flow_mem_flows among p
      obtain ⟨liquid, vapor⟩ := vaporizes.capacities c.data (fits.data ▸ List.mem_map_of_mem among)
      exact add_pos (mul_pos (flows .liquid) liquid) (mul_pos (flows .vapor) vapor)
    have nonempty : point.outlet.components ≠ [] := by
      rw [← List.length_pos_iff, fits.count]
      exact List.length_pos_iff.2 vaporizes.nonempty
    refine List.sum_pos _ (fun r listed => ?_) (by simpa using nonempty)
    obtain ⟨c, among, rfl⟩ := List.mem_map.1 listed
    exact terms c among

/-- In exact arithmetic, and with any way to solve regular linear systems exactly, a tray that is ready
starts up: all three stages are solved, each in three iterations at most. -/
theorem startUp_optimal {name : String} {equipment : TrayConfig ℝ} {time : TimeSet ℝ} {s₀ s₁ : Store ℝ}
    (vaporizes : package.Vaporizes fraction)
    (built : (build name equipment package.toPackage time).on s₀ = (.ok tray, s₁)) (later : s₁.Continues s)
    (ready : tray.Ready s) {args : StartupArgs ℝ} (accepted : ((tray.applyGuesses args).on s).1 = .ok ())
    (engine : Newton.Engine) {linear : Newton.LinearSolver ℝ} (solves : Linear.Exact linear)
    {config : Newton.Config ℝ} (full : Newton.FullSteps config) (enough : 3 ≤ config.maxIterations) :
    ∃ report after,
      startUp args (Newton.solverWith engine linear config) ⟨tray, (), s⟩ = (.completed report, after) ∧
      report.stages.map (·.stage) = Stage.all ∧
      ∀ entry ∈ report.stages, entry.outcome.termination = .optimal ∧ entry.outcome.stats.iterations ≤ 3 := by
  obtain ⟨points, placed⟩ := exists_placed built later
  have unchanged : ((tray.applyGuesses args).on s).2 = s := by
    refine (placed.anatomy.applyGuesses_guesses args s).eq_of_fixed fun v inside => ?_
    obtain ⟨state, among, own⟩ := List.mem_flatMap.1 inside
    exact ready.inlets state among v own
  obtain ⟨point, _, guess⟩ := placed.anatomy.outletGuess?_eq s
  obtain ⟨solved, after, ran, order, optimal⟩ := placed.runStages_optimal (placed.specified_of_ready ready)
    vaporizes full enough solves (decide (traceVerbosity < args.verbosity))
    ⟨temperatureGuess s point.toStates, s.value point.vapor.pressure⟩ Stage.all none [] tray s
    Stage.successive_all ⟨rfl, rfl⟩ rfl (placed.heatable_of_ready vaporizes ready)
  refine ⟨⟨solved⟩, after, ?_, order, optimal⟩
  rw [startUp_of_accepted ready.splits (Prod.ext accepted unchanged), guess]
  exact ran

theorem Placed.ready_prepare (placed : Placed package tray points s) (nonempty : package.components ≠ []) :
    tray.Ready (tray.prepare s) := by
  have fixed := fun v => placed.isFixed_prepare_given (v := v)
  have inlet : ∀ state ∈ tray.inlets, ∀ v ∈ state.flows, (tray.prepare s).value v = 1 := by
    intro state among v flow
    exact placed.value_prepare (List.mem_append_left _ (mem_given_of_inlets among (List.mem_filter.1 flow).1))
  refine ⟨fun state among v own => fixed v (mem_given_of_inlets among own),
    fun v split => fixed v (List.mem_append_right _ split), fun v duty => fixed v ?_, fun v drop => fixed v ?_,
    fun state among v flow => ?_, fun states listed => ?_, fun state among v => placed.isFixed_prepare_outlet among,
    fun state among v flow => ?_⟩
  · simp [given, Option.mem_def.1 duty]
  · simp [given, Option.mem_def.1 drop]
  · rw [inlet state among v flow]
    exact zero_le_one
  · rw [placed.anatomy.points_eq] at listed
    obtain ⟨point, inside, rfl⟩ := List.mem_map.1 listed
    have flows : point.toStates.inletFlows = point.inlets.flatMap (·.flows) := by
      rw [TrayStates.inletFlows, point.toStates_inlets, List.flatMap_map]
      exact List.flatMap_congr fun state entering => placed.flows_eq inside (List.mem_append_left _ entering)
    have entering := point.liquid_mem
    have count := (placed.anatomy.fits point inside _ (List.mem_append_left _ entering)).count
    obtain ⟨c, among⟩ := List.exists_mem_of_length_pos (count ▸ List.length_pos_iff.2 nonempty)
    have present : c.liquid ∈ point.toStates.inletFlows := by
      rw [flows]
      exact List.mem_flatMap.2 ⟨point.liquid, entering, IdealState.flow_mem_flows among .liquid⟩
    refine List.sum_pos _ (fun r member => ?_) (by simpa using List.ne_nil_of_mem present)
    obtain ⟨v, flow, rfl⟩ := List.mem_map.1 member
    obtain ⟨state, incoming, own⟩ := List.mem_flatMap.1 (flows ▸ flow)
    have own' : v ∈ state.toState.flows := by
      rwa [placed.flows_eq inside (List.mem_append_left _ incoming)]
    rw [inlet _ (placed.anatomy.mem_inlets_of inside incoming) v own']
    exact zero_lt_one
  · have leaving : v ∈ tray.outletFlows := List.mem_flatMap.2 ⟨state, among, flow⟩
    rw [placed.value_prepare (List.mem_append_right _ (List.mem_append_left _ leaving))]
    exact zero_lt_one

/-- A tray for benzene and toluene with a feed, side draws, heat transfer and a pressure drop. -/
theorem exists_equipped : ∃ (tray : Tray ℝ) (s : Store ℝ),
    (build "tray" ⟨true, true, true, true, true, .empty⟩ IdealPackage.benzeneToluene.toPackage .steady).on .empty =
      (.ok tray, s) :=
  ⟨_, _, rfl⟩

theorem startUp_optimal_prepared : ∃ (tray : Tray ℝ) (s : Store ℝ) (fraction : ℝ)
    (config : Newton.Config ℝ),
    (build "tray" ⟨true, true, true, true, true, .empty⟩ IdealPackage.benzeneToluene.toPackage .steady).on .empty =
      (.ok tray, s) ∧ s.Continues (tray.prepare s) ∧ tray.Ready (tray.prepare s) ∧
    (IdealPackage.benzeneToluene : IdealPackage ℝ).Vaporizes fraction ∧
    ((tray.applyGuesses ⟨[], [], [], 0⟩).on (tray.prepare s)).1 = .ok () ∧ Linear.Exact Linear.solve ∧
    Newton.FullSteps config ∧ 3 ≤ config.maxIterations ∧
    ∃ report after, startUp ⟨[], [], [], 0⟩ (Newton.solver .exact config) ⟨tray, (), tray.prepare s⟩ =
        (.completed report, after) ∧ report.stages.map (·.stage) = Stage.all ∧
      ∀ entry ∈ report.stages, entry.outcome.termination = .optimal ∧ entry.outcome.stats.iterations ≤ 3 := by
  obtain ⟨tray, s, built⟩ := exists_equipped
  obtain ⟨points, placed⟩ := exists_placed built (.refl s)
  have vaporizes := IdealPackage.benzeneToluene_vaporizes
  have ready := placed.ready_prepare vaporizes.nonempty
  have accepted : ((tray.applyGuesses ⟨[], [], [], 0⟩).on (tray.prepare s)).1 = .ok () := by
    rw [placed.anatomy.applyGuesses_nil]
  have full : Newton.FullSteps (⟨1, 3, 1, 1⟩ : Newton.Config ℝ) := ⟨zero_lt_one, rfl, one_ne_zero⟩
  exact ⟨tray, s, 0.5, ⟨1, 3, 1, 1⟩, built, continues_prepare tray s, ready, vaporizes, accepted, Linear.solve_exact,
    full, le_rfl, startUp_optimal vaporizes built (continues_prepare tray s) ready accepted .exact
      Linear.solve_exact full le_rfl⟩

end Tray

end Distillation
