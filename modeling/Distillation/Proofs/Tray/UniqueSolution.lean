import Mathlib.Analysis.Real.Sqrt
import Distillation.Proofs.Newton.Success
import Distillation.Proofs.Tray.Residuals

namespace Distillation

namespace TrayStates

variable (states : TrayStates ℝ) (x : VarId → ℝ)

/-- What enters of a component with all inlets, in both phases. -/
noncomputable def entering (name : String) : ℝ :=
  (states.inlets.map fun state =>
    (state.materialFlow .liquid name).valueAt x + (state.materialFlow .vapor name).valueAt x).sum

/-- The enthalpy that enters with all inlets, in both phases. -/
noncomputable def enteringEnthalpy : ℝ :=
  (states.inlets.map fun state => (state.enthalpyFlow .liquid).valueAt x + (state.enthalpyFlow .vapor).valueAt x).sum

end TrayStates

namespace IdealPackage

variable (package : IdealPackage ℝ) (fraction : ℝ) (flow : String → ℝ)

/-- The heat that some flows take up when their temperature rises by one, a fraction of each being vapor. -/
noncomputable def heatCapacityFlow : ℝ :=
  (package.components.map fun c =>
    flow c.name * ((1 - fraction) * c.liquidHeatCapacity + fraction * c.vaporHeatCapacity)).sum

/-- The heat that it takes to vaporize a fraction of some flows. -/
noncomputable def vaporizationFlow : ℝ :=
  (package.components.map fun c => fraction * flow c.name * c.vaporizationHeat).sum

/-- In `y` the outlet holds what enters in `x`, a fraction of each component as vapor. -/
def Divides (states : TrayStates ℝ) (x y : VarId → ℝ) : Prop :=
  ∀ c ∈ package.components,
    (states.outlet.materialFlow .liquid c.name).valueAt y = (1 - fraction) * states.entering x c.name ∧
    (states.outlet.materialFlow .vapor c.name).valueAt y = fraction * states.entering x c.name

end IdealPackage

namespace Tray

/-- The variables that a tray is solved for. -/
def outletVars {K : Type} (tray : Tray K) : List VarId :=
  tray.outlets.flatMap (·.vars)

/-- The material balances hold, and so do the equilibrium relations, which the states bring along. -/
def FlowsBalance (tray : Tray ℝ) (y : VarId → ℝ) : Prop :=
  (∀ c ∈ tray.balances.material.constraints, c.body.valueAt y = 0) ∧
    ∀ state ∈ tray.states, ∀ family ∈ state.families, ∀ c ∈ family.constraints, c.body.valueAt y = 0

/-- All equations hold, and the outlet alone is different from `x`. -/
structure Solution (tray : Tray ℝ) (x y : VarId → ℝ) : Prop where
  outside : ∀ v, v ∉ tray.outletVars → y v = x v
  equations : ∀ family ∈ tray.families, ∀ c ∈ family.constraints, c.body.valueAt y = 0

end Tray

theorem IdealPoint.toStates_entering (point : IdealPoint ℝ) (x : VarId → ℝ) (name : String) :
    point.toStates.entering x name = point.entering name x := by
  rw [TrayStates.entering, point.toStates_inlets, List.map_map]
  rfl

theorem IdealPoint.toStates_enteringEnthalpy (point : IdealPoint ℝ) (x : VarId → ℝ) :
    point.toStates.enteringEnthalpy x = (point.inlets.map fun state =>
      (state.enthalpyFlow .liquid).valueAt x + (state.enthalpyFlow .vapor).valueAt x).sum := by
  rw [TrayStates.enteringEnthalpy, point.toStates_inlets, List.map_map]
  rfl

theorem IdealPoint.enteringEnthalpy_congr {point : IdealPoint ℝ} {x y : VarId → ℝ}
    (same : ∀ state ∈ point.inlets, ∀ v ∈ state.vars, y v = x v) :
    point.toStates.enteringEnthalpy y = point.toStates.enteringEnthalpy x := by
  rw [point.toStates_enteringEnthalpy, point.toStates_enteringEnthalpy]
  refine congrArg List.sum (List.map_congr_left fun state entering => ?_)
  have each : ∀ p, (state.enthalpyFlow p).valueAt y = (state.enthalpyFlow p).valueAt x := by
    refine fun p => Expr.valueAt_congr fun v occurs => ?_
    obtain ⟨c, among, rfl | rfl⟩ := IdealState.mem_vars_enthalpyFlow.1 occurs
    · exact same state entering _ (IdealState.mem_vars_of_flow (IdealState.flow_mem_flows among p))
    · exact same state entering _ state.temperature_mem_vars
  rw [each, each]

namespace Tray

/-- What enters as heat, less what it takes to vaporize a fraction of each component. -/
noncomputable def sensibleHeat (package : IdealPackage ℝ) (fraction : ℝ) (tray : Tray ℝ) (x : VarId → ℝ)
    (states : TrayStates ℝ) : ℝ :=
  states.enteringEnthalpy x + tray.balances.heatDuty.elim 0 x - package.vaporizationFlow fraction (states.entering x)

/-- The equations of one time point, solved for the outlet as far as they go. -/
structure ClosedForm (package : IdealPackage ℝ) (fraction : ℝ) (tray : Tray ℝ) (x y : VarId → ℝ)
    (states : TrayStates ℝ) : Prop where
  flows : package.Divides fraction states x y
  temperature : package.heatCapacityFlow fraction (states.entering x) *
    (y states.outlet.temperature - IdealPackage.reference tray.config.packageArguments) =
      sensibleHeat package fraction tray x states
  pressure : y states.outlet.pressure = x states.vapor.pressure - tray.balances.pressureDrop.elim 0 x

variable {package : IdealPackage ℝ} {tray : Tray ℝ} {points : List (IdealPoint ℝ)} {s : Store ℝ} {fraction : ℝ}
  {x y : VarId → ℝ}

section Families

variable (anatomy : Anatomy package tray points)
include anatomy

theorem Anatomy.outletVars_eq : tray.outletVars = points.flatMap (·.outlet.vars) := by
  rw [outletVars, anatomy.outlets_eq, List.flatMap_map]
  rfl

theorem Anatomy.mem_outletVars {v : VarId} : v ∈ tray.outletVars ↔ ∃ point ∈ points,
    v ∈ point.outlet.flows ∨ v = point.outlet.temperature ∨ v = point.outlet.pressure := by
  simp only [anatomy.outletVars_eq, List.mem_flatMap, IdealState.mem_vars]

theorem Anatomy.outletLevels_mem {point : IdealPoint ℝ} (inside : point ∈ points) :
    point.outlet.temperature ∈ tray.outletTemperatures ∧ point.outlet.pressure ∈ tray.outletPressures :=
  ⟨List.mem_map_of_mem (anatomy.mem_outlets_of inside), List.mem_map_of_mem (anatomy.mem_outlets_of inside)⟩

theorem Anatomy.flowsBalance_iff : tray.FlowsBalance y ↔
    ∀ point ∈ points, ∀ body ∈ bodiesAt package tray .massBalance point, body.valueAt y = 0 := by
  have equations : (tray.equipped .massBalance).toModel.equations = tray.balances.material.constraints ++
      (tray.states.flatMap (·.families)).flatMap (·.constraints) := by
    rw [anatomy.equations_eq, ← anatomy.stateFamilies_eq, ← anatomy.material]
    rfl
  rw [← anatomy.forall_equations (fun body => body.valueAt y = 0), equations, List.forall_mem_append,
    List.forall_mem_flatMap, List.forall_mem_flatMap]
  rfl

end Families

/-- All equations of a time point are those of its flows and one for each level. -/
theorem forall_bodiesAt_full {point : IdealPoint ℝ} {P : Expr ℝ → Prop} :
    (∀ body ∈ bodiesAt package tray .full point, P body) ↔
      (∀ body ∈ bodiesAt package tray .massBalance point, P body) ∧
        P (Balances.enthalpyBody Phase.both tray.balances.heatDuty point.toMixing) ∧ P (tray.pressureBody point) := by
  simp only [bodiesAt, Stage.energy, Stage.pressure, if_true, Bool.false_eq_true, if_false, List.nil_append,
    List.forall_mem_append, List.forall_mem_singleton]
  tauto

theorem Placed.outletVars_nodup (placed : Placed package tray points s) : tray.outletVars.Nodup := by
  have streams := stateVars_nodup placed.distinct
  rw [Tray.states, List.flatMap_append] at streams
  exact (List.nodup_append.1 streams).2.1

section Point

variable (placed : Placed package tray points s) (distinct : package.Distinct)
  (relation : package.equilibrium = .vaporFraction fraction) {point : IdealPoint ℝ} (inside : point ∈ points)
include placed distinct inside

theorem Placed.divides_iff : package.Divides fraction point.toStates x y ↔
    ∀ c ∈ point.outlet.components, y c.liquid = (1 - fraction) * point.entering c.data.name x ∧
      y c.vapor = fraction * point.entering c.data.name x := by
  have fits := placed.anatomy.outlet_fits inside
  rw [IdealPackage.Divides, ← fits.data, List.forall_mem_map]
  refine forall₂_congr fun c among => ?_
  have flow : ∀ p, (point.toStates.outlet.materialFlow p c.data.name).valueAt y = y (c.flow p) := by
    intro p
    rw [← Expr.valueAt_var y, ← placed.materialFlow_eq distinct inside among p]
    rfl
  rw [flow, flow, point.toStates_entering]
  rfl

include relation

/-- The balance and the relation of a component have one solution. -/
theorem Placed.massBalance_iff :
    (∀ body ∈ bodiesAt package tray .massBalance point, body.valueAt y = 0) ↔
      package.Divides fraction point.toStates y y := by
  rw [placed.divides_iff distinct inside]
  constructor
  · intro holds c among
    obtain ⟨material, equilibrium⟩ := placed.component_bodies inside among relation .massBalance
    have whole := holds _ material
    have part := holds _ equilibrium
    rw [placed.valueAt_material distinct inside among] at whole
    simp only [Expr.valueAt_sub, Expr.valueAt_mul, Expr.valueAt_add, Expr.valueAt_var, Expr.valueAt_const] at part
    constructor
    · linear_combination -part - (1 - fraction) * whole
    · linear_combination part - fraction * whole
  · intro closed body listed
    have fits := placed.anatomy.outlet_fits inside
    have opened : body ∈ package.componentSet.names.map (Balances.materialBody Phase.both point.toMixing) ++
      point.outlet.equilibriumBodies (.vaporFraction fraction) := relation ▸ listed
    rw [List.mem_append, distinct.componentSet_names, ← fits.names, List.map_map] at opened
    rcases opened with listed | listed
    · obtain ⟨c, among, rfl⟩ := List.mem_map.1 listed
      obtain ⟨liquid, vapor⟩ := closed c among
      rw [Function.comp_apply, placed.valueAt_material distinct inside among, liquid, vapor]
      ring
    · obtain ⟨c, among, rfl⟩ := List.mem_map.1 listed
      obtain ⟨liquid, vapor⟩ := closed c among
      simp only [Expr.valueAt_sub, Expr.valueAt_mul, Expr.valueAt_add, Expr.valueAt_var, Expr.valueAt_const, liquid,
        vapor]
      ring

end Point

section Levels

variable (placed : Placed package tray points s) (distinct : package.Distinct)
  (relation : package.equilibrium = .vaporFraction fraction) {point : IdealPoint ℝ} (inside : point ∈ points)
  (outside : ∀ v, v ∉ tray.outletVars → y v = x v)
include placed inside outside

omit inside in
theorem Placed.same_of_given {v : VarId} (given : v ∈ tray.given) : y v = x v := by
  refine outside v fun outlet => ?_
  obtain ⟨flow, temperature, pressure⟩ := placed.not_outlet_of_given given
  obtain ⟨point, inside, own | rfl | rfl⟩ := placed.anatomy.mem_outletVars.1 outlet
  · exact flow (placed.mem_outletFlows.2 ⟨point, inside, own⟩)
  · exact temperature (placed.anatomy.outletLevels_mem inside).1
  · exact pressure (placed.anatomy.outletLevels_mem inside).2

theorem Placed.inlets_same : ∀ state ∈ point.inlets, ∀ v ∈ state.vars, y v = x v :=
  fun _ entering _ own => placed.same_of_given outside (placed.mem_given_of_inlet inside entering own)

include distinct in
/-- What enters is the same in both assignments. -/
theorem Placed.divides_same :
    package.Divides fraction point.toStates y y ↔ package.Divides fraction point.toStates x y := by
  rw [placed.divides_iff distinct inside, placed.divides_iff distinct inside]
  simp only [IdealPoint.entering_congr (placed.inlets_same inside outside)]

theorem Placed.pressure_iff : (tray.pressureBody point).valueAt y = 0 ↔
    y point.outlet.pressure = x point.vapor.pressure - tray.balances.pressureDrop.elim 0 x := by
  have level : y point.toMixing.vapor.pressure = x point.vapor.pressure :=
    placed.inlets_same inside outside point.vapor point.vapor_mem _ point.vapor.pressure_mem_vars
  have drop : tray.balances.pressureDrop.elim 0 y = tray.balances.pressureDrop.elim 0 x := by
    cases drop : tray.balances.pressureDrop with
    | none => rfl
    | some w => exact placed.same_of_given outside (by simp [given, drop])
  rw [pressureBody, Expr.valueAt_sub, Expr.valueAt_var, Balances.valueAt_outletPressure, level, drop, sub_eq_zero]

include distinct in
/-- With the flows divided, only the temperature is left in the energy balance. -/
theorem Placed.enthalpy_eq (divides : package.Divides fraction point.toStates x y) :
    (Balances.enthalpyBody Phase.both tray.balances.heatDuty point.toMixing).valueAt y =
      sensibleHeat package fraction tray x point.toStates -
        package.heatCapacityFlow fraction (point.toStates.entering x) *
          (y point.outlet.temperature - IdealPackage.reference tray.config.packageArguments) := by
  have fits := placed.anatomy.outlet_fits inside
  have closed := (placed.divides_iff distinct inside).1 divides
  have capacity : point.outlet.capacity y = package.heatCapacityFlow fraction (point.toStates.entering x) := by
    rw [IdealPackage.heatCapacityFlow, ← fits.data, List.map_map]
    refine congrArg List.sum (List.map_congr_left fun c among => ?_)
    obtain ⟨liquid, vapor⟩ := closed c among
    rw [Function.comp_apply, point.toStates_entering, liquid, vapor]
    simp only [ComponentData.heatCapacity]
    ring
  have vaporization : (point.outlet.components.map fun c => y c.vapor * c.data.vaporizationHeat).sum =
      package.vaporizationFlow fraction (point.toStates.entering x) := by
    rw [IdealPackage.vaporizationFlow, ← fits.data, List.map_map]
    refine congrArg List.sum (List.map_congr_left fun c among => ?_)
    rw [Function.comp_apply, point.toStates_entering, (closed c among).2]
  have duty : tray.balances.heatDuty.elim 0 y = tray.balances.heatDuty.elim 0 x := by
    cases heat : tray.balances.heatDuty with
    | none => rfl
    | some w => exact placed.same_of_given outside (by simp [given, heat])
  have entering := IdealPoint.enteringEnthalpy_congr (placed.inlets_same inside outside)
  rw [Balances.valueAt_enthalpyBody, point.outlet.valueAt_enthalpyFlows, capacity, vaporization, duty, fits.reference,
    ← point.toStates_enteringEnthalpy, entering, sensibleHeat]
  ring

include distinct relation in
/-- At every time point the equations are solved by their closed form and by nothing else. -/
theorem Placed.closedForm_iff : (∀ body ∈ bodiesAt package tray .full point, body.valueAt y = 0) ↔
    ClosedForm package fraction tray x y point.toStates := by
  rw [forall_bodiesAt_full, placed.massBalance_iff distinct relation inside,
    placed.divides_same distinct inside outside, placed.pressure_iff inside outside]
  constructor
  · rintro ⟨divides, enthalpy, pressure⟩
    rw [placed.enthalpy_eq distinct inside outside divides] at enthalpy
    exact ⟨divides, (sub_eq_zero.1 enthalpy).symm, pressure⟩
  · rintro ⟨divides, temperature, pressure⟩
    refine ⟨divides, ?_, pressure⟩
    rw [placed.enthalpy_eq distinct inside outside divides]
    exact sub_eq_zero.2 temperature.symm

end Levels

section Tray

variable (placed : Placed package tray points s) (distinct : package.Distinct)
  (relation : package.equilibrium = .vaporFraction fraction)
include placed distinct relation

theorem Placed.solution_iff : tray.Solution x y ↔
    (∀ v, v ∉ tray.outletVars → y v = x v) ∧ ∀ point ∈ points, ClosedForm package fraction tray x y point.toStates := by
  have byPoint := placed.anatomy.forall_families fun body => body.valueAt y = 0
  constructor
  · rintro ⟨outside, equations⟩
    refine ⟨outside, fun point inside => (placed.closedForm_iff distinct relation inside outside).1 ?_⟩
    exact byPoint.1 equations point inside
  · rintro ⟨outside, closed⟩
    refine ⟨outside, byPoint.2 fun point inside => ?_⟩
    exact (placed.closedForm_iff distinct relation inside outside).2 (closed point inside)

theorem Placed.flowsBalance_iff (outside : ∀ v, v ∉ tray.outletVars → y v = x v) : tray.FlowsBalance y ↔
    ∀ point ∈ points, package.Divides fraction point.toStates x y := by
  rw [placed.anatomy.flowsBalance_iff]
  refine forall₂_congr fun point inside => ?_
  rw [placed.massBalance_iff distinct relation inside, placed.divides_same distinct inside outside]

end Tray

section Assignments

/-- The assignment with the values of some entries, and those of `x` elsewhere. -/
def reassigned (entries : List (VarId × ℝ)) (x : VarId → ℝ) (v : VarId) : ℝ :=
  (entries.lookup v).getD (x v)

theorem reassigned_of_mem {entries : List (VarId × ℝ)} (distinct : (entries.map Prod.fst).Nodup) {v : VarId} {a : ℝ}
    (inside : (v, a) ∈ entries) : reassigned entries x v = a := by
  rw [reassigned, lookup_of_nodup distinct inside, Option.getD_some]

theorem reassigned_of_not_mem {entries : List (VarId × ℝ)} {v : VarId} (absent : v ∉ entries.map Prod.fst) :
    reassigned entries x v = x v := by
  have none : entries.lookup v = none := by
    refine List.lookup_eq_none_iff.2 fun entry among => bne_iff_ne.2 ?_
    rintro rfl
    exact absent (List.mem_map_of_mem among)
  rw [reassigned, none, Option.getD_none]

/-- The variables of the outlets can take any values together. -/
theorem Placed.exists_assignment (placed : Placed package tray points s) (x : VarId → ℝ)
    (liquid vapor : IdealPoint ℝ → ComponentFlows ℝ → ℝ) (temperature pressure : IdealPoint ℝ → ℝ) :
    ∃ y : VarId → ℝ, (∀ v, v ∉ tray.outletVars → y v = x v) ∧ ∀ point ∈ points,
      (∀ c ∈ point.outlet.components, y c.liquid = liquid point c ∧ y c.vapor = vapor point c) ∧
      y point.outlet.temperature = temperature point ∧ y point.outlet.pressure = pressure point := by
  let leaving (point : IdealPoint ℝ) : List (VarId × ℝ) :=
    point.outlet.components.map (fun c => (c.liquid, liquid point c)) ++
      point.outlet.components.map (fun c => (c.vapor, vapor point c)) ++
      [(point.outlet.temperature, temperature point), (point.outlet.pressure, pressure point)]
  have keys : (points.flatMap leaving).map Prod.fst = tray.outletVars := by
    rw [placed.anatomy.outletVars_eq, List.map_flatMap]
    refine List.flatMap_congr fun point _ => ?_
    simp [leaving, IdealState.vars, Function.comp_def]
  have distinct : ((points.flatMap leaving).map Prod.fst).Nodup := keys ▸ placed.outletVars_nodup
  refine ⟨reassigned (points.flatMap leaving) x, fun v absent => reassigned_of_not_mem (keys ▸ absent),
    fun point inside => ?_⟩
  have set : ∀ {v a}, (v, a) ∈ leaving point → reassigned (points.flatMap leaving) x v = a := fun among =>
    reassigned_of_mem distinct (List.mem_flatMap.2 ⟨point, inside, among⟩)
  refine ⟨fun c among => ⟨set ?_, set ?_⟩, set (by simp [leaving]), set (by simp [leaving])⟩
  · exact List.mem_append_left _ (List.mem_append_left _ (List.mem_map_of_mem among))
  · exact List.mem_append_left _ (List.mem_append_right _ (List.mem_map_of_mem among))

/-- What differs in the outlets alone differs in some flow or level of an outlet. -/
theorem Placed.assignment_ext (placed : Placed package tray points s) {z : VarId → ℝ}
    (outside : ∀ v, v ∉ tray.outletVars → y v = z v)
    (each : ∀ point ∈ points, (∀ v ∈ point.outlet.flows, y v = z v) ∧
      y point.outlet.temperature = z point.outlet.temperature ∧ y point.outlet.pressure = z point.outlet.pressure) :
    y = z := by
  funext v
  by_cases outlet : v ∈ tray.outletVars
  · obtain ⟨point, inside, flow | rfl | rfl⟩ := placed.anatomy.mem_outletVars.1 outlet
    · exact (each point inside).1 v flow
    · exact (each point inside).2.1
    · exact (each point inside).2.2
  · exact outside v outlet

end Assignments

section Unique

variable (placed : Placed package tray points s) (distinct : package.Distinct)
include placed distinct

theorem Placed.flows_eq_of_divides {point : IdealPoint ℝ} (inside : point ∈ points) {z : VarId → ℝ}
    (here : package.Divides fraction point.toStates x y) (there : package.Divides fraction point.toStates x z) :
    ∀ v ∈ point.outlet.flows, y v = z v := by
  intro v flow
  obtain ⟨c, among, p, rfl⟩ := IdealState.mem_flows.1 flow
  obtain ⟨liquid, vapor⟩ := (placed.divides_iff distinct inside).1 here c among
  obtain ⟨liquid', vapor'⟩ := (placed.divides_iff distinct inside).1 there c among
  cases p with
  | liquid => exact liquid.trans liquid'.symm
  | vapor => exact vapor.trans vapor'.symm

/-- The flows can be what they are to be, with any temperatures and pressures. -/
theorem Placed.exists_divided (fraction : ℝ) (x : VarId → ℝ) (temperature pressure : IdealPoint ℝ → ℝ) :
    ∃ y : VarId → ℝ, (∀ v, v ∉ tray.outletVars → y v = x v) ∧ ∀ point ∈ points,
      package.Divides fraction point.toStates x y ∧ y point.outlet.temperature = temperature point ∧
        y point.outlet.pressure = pressure point := by
  obtain ⟨y, outside, each⟩ := placed.exists_assignment x
    (fun point c => (1 - fraction) * point.entering c.data.name x)
    (fun point c => fraction * point.entering c.data.name x) temperature pressure
  refine ⟨y, outside, fun point inside => ?_⟩
  obtain ⟨flows, levels⟩ := each point inside
  exact ⟨(placed.divides_iff distinct inside).2 flows, levels⟩

variable (relation : package.equilibrium = .vaporFraction fraction)
include relation

theorem Placed.existsUnique_flowsBalance (x : VarId → ℝ) :
    ∃! y, (∀ v, v ∉ tray.outletFlows → y v = x v) ∧ tray.FlowsBalance y := by
  have wider : ∀ v, v ∉ tray.outletVars → v ∉ tray.outletFlows := by
    intro v absent flow
    obtain ⟨point, inside, own⟩ := placed.mem_outletFlows.1 flow
    exact absent (placed.anatomy.mem_outletVars.2 ⟨point, inside, .inl own⟩)
  have levels : ∀ point ∈ points, point.outlet.temperature ∉ tray.outletFlows ∧
      point.outlet.pressure ∉ tray.outletFlows := by
    intro point inside
    obtain ⟨temperature, pressure⟩ := placed.anatomy.outletLevels_mem inside
    exact ⟨(placed.temperature_apart temperature).1, (placed.pressure_apart pressure).1⟩
  obtain ⟨y, outside, each⟩ := placed.exists_divided distinct fraction x
    (fun point => x point.outlet.temperature) (fun point => x point.outlet.pressure)
  have divides := fun point inside => (each point inside).1
  refine ⟨y, ⟨fun v absent => ?_, (placed.flowsBalance_iff distinct relation outside).2 divides⟩, ?_⟩
  · by_cases outlet : v ∈ tray.outletVars
    · obtain ⟨point, inside, flow | rfl | rfl⟩ := placed.anatomy.mem_outletVars.1 outlet
      · exact absurd (placed.mem_outletFlows.2 ⟨point, inside, flow⟩) absent
      · exact (each point inside).2.1
      · exact (each point inside).2.2
    · exact outside v outlet
  · rintro z ⟨outside', balance⟩
    have divides' := (placed.flowsBalance_iff distinct relation fun v absent => outside' v (wider v absent)).1 balance
    refine placed.assignment_ext (fun v absent => ?_) fun point inside =>
      ⟨placed.flows_eq_of_divides distinct inside (divides' point inside) (divides point inside), ?_, ?_⟩
    · rw [outside' v (wider v absent), outside v absent]
    · rw [outside' _ (levels point inside).1, (each point inside).2.1]
    · rw [outside' _ (levels point inside).2, (each point inside).2.2]

theorem Placed.existsUnique_solution (x : VarId → ℝ)
    (capacity : ∀ point ∈ points, package.heatCapacityFlow fraction (point.toStates.entering x) ≠ 0) :
    ∃! y, tray.Solution x y := by
  obtain ⟨y, outside, each⟩ := placed.exists_divided distinct fraction x
    (fun point => IdealPackage.reference tray.config.packageArguments +
      sensibleHeat package fraction tray x point.toStates /
        package.heatCapacityFlow fraction (point.toStates.entering x))
    (fun point => x point.vapor.pressure - tray.balances.pressureDrop.elim 0 x)
  have closed : ∀ point ∈ points, ClosedForm package fraction tray x y point.toStates := by
    intro point inside
    obtain ⟨divides, temperature, pressure⟩ := each point inside
    refine ⟨divides, ?_, pressure⟩
    rw [show y point.toStates.outlet.temperature = _ from temperature, add_sub_cancel_left]
    exact mul_div_cancel₀ _ (capacity point inside)
  refine ⟨y, (placed.solution_iff distinct relation).2 ⟨outside, closed⟩, fun z other => ?_⟩
  obtain ⟨outside', closed'⟩ := (placed.solution_iff distinct relation).1 other
  refine placed.assignment_ext (fun v absent => (outside' v absent).trans (outside v absent).symm) fun point inside =>
    ⟨placed.flows_eq_of_divides distinct inside (closed' point inside).flows (closed point inside).flows, ?_, ?_⟩
  · have same := (closed' point inside).temperature.trans (closed point inside).temperature.symm
    exact sub_left_injective (mul_left_cancel₀ (capacity point inside) same)
  · exact (closed' point inside).pressure.trans (closed point inside).pressure.symm

/-- Where what leaves takes up no heat, its temperature may be any if it may be one. -/
theorem Placed.solution_of_warmer {point : IdealPoint ℝ} (inside : point ∈ points)
    (capacity : package.heatCapacityFlow fraction (point.toStates.entering x) = 0) (solution : tray.Solution x y)
    (a : ℝ) :
    tray.Solution x (Function.update y point.outlet.temperature a) := by
  obtain ⟨outside, closed⟩ := (placed.solution_iff distinct relation).1 solution
  have level := (placed.anatomy.outletLevels_mem inside).1
  have apart : (points.map (·.outlet.temperature)).Nodup := by
    rw [← placed.anatomy.outletTemperatures_eq]
    exact (List.nodup_append.1 (List.nodup_append.1 placed.outlet_nodup).2.1).1
  have still : ∀ v, v ≠ point.outlet.temperature → Function.update y point.outlet.temperature a v = y v :=
    fun v other => Function.update_of_ne other _ _
  refine (placed.solution_iff distinct relation).2 ⟨fun v absent => ?_, fun other present => ?_⟩
  · rw [still v, outside v absent]
    rintro rfl
    exact absent (placed.anatomy.mem_outletVars.2 ⟨point, inside, .inr (.inl rfl)⟩)
  obtain ⟨flows, temperature, pressure⟩ := closed other present
  refine ⟨(placed.divides_iff distinct present).2 fun c among => ?_, ?_, ?_⟩
  · have flow : ∀ p, c.flow p ≠ point.outlet.temperature := by
      intro p same
      have leaving := placed.mem_outletFlows.2 ⟨other, present, IdealState.flow_mem_flows among p⟩
      exact (placed.temperature_apart level).1 (same ▸ leaving)
    have before := (placed.divides_iff distinct present).1 flows c among
    rwa [still c.liquid (flow .liquid), still c.vapor (flow .vapor)]
  · by_cases here : other.outlet.temperature = point.outlet.temperature
    · obtain rfl := List.inj_on_of_nodup_map apart present inside here
      rwa [capacity, zero_mul] at temperature ⊢
    · have level : Function.update y point.outlet.temperature a other.toStates.outlet.temperature = _ := still _ here
      rwa [level]
  · have leaving := (placed.anatomy.outletLevels_mem present).2
    have others : other.outlet.pressure ≠ point.outlet.temperature := fun same =>
      (placed.temperature_apart level).2 (same ▸ leaving)
    exact (still _ others).trans pressure

end Unique

/-- A tray that vaporizes a fixed part of each component is solved for its outlet in exactly one way if what enters
would take up heat once it is divided, at every time point, and only then. The flows of a solution are what enters,
divided; its pressure is that of the vapor less the drop; and its temperature, where heat is taken up, is the one
that balances the enthalpy. The flows follow from the material balances and the equilibrium relations alone,
whatever the levels are. -/
theorem vaporFraction_solution {name : String} {config : TrayConfig ℝ} {time : TimeSet ℝ} {before after : Store ℝ}
    (built : (build name config package.toPackage time).on before = (.ok tray, after)) (distinct : package.Distinct)
    (relation : package.equilibrium = .vaporFraction fraction) (x : VarId → ℝ) :
    let capacity (states : TrayStates ℝ) := package.heatCapacityFlow fraction (states.entering x)
    ((∃! y, tray.Solution x y) ↔ ∀ states ∈ tray.points, capacity states ≠ 0) ∧
    (∀ y, tray.Solution x y → ∀ states ∈ tray.points,
      package.Divides fraction states x y ∧
      y states.outlet.pressure = x states.vapor.pressure - tray.balances.pressureDrop.elim 0 x ∧
      (capacity states ≠ 0 → y states.outlet.temperature = IdealPackage.reference config.packageArguments +
        (states.enteringEnthalpy x + tray.balances.heatDuty.elim 0 x -
          package.vaporizationFlow fraction (states.entering x)) / capacity states)) ∧
    (∀ y : VarId → ℝ, (∀ v, v ∉ tray.outletVars → y v = x v) →
      (tray.FlowsBalance y ↔ ∀ states ∈ tray.points, package.Divides fraction states x y)) ∧
    ∃! y, (∀ v, v ∉ tray.outletFlows → y v = x v) ∧ tray.FlowsBalance y := by
  intro capacity
  obtain ⟨labelled, _⟩ := build_eq_ok built
  obtain ⟨points, placed⟩ := exists_placed built (.refl after)
  have points_eq := placed.anatomy.points_eq
  refine ⟨⟨?_, fun takesUp => ?_⟩, fun y solution => ?_, fun y outside => ?_,
    placed.existsUnique_flowsBalance distinct relation x⟩
  · rintro ⟨y, solution, only⟩
    rw [points_eq, List.forall_mem_map]
    intro point inside zero
    have warmer := placed.solution_of_warmer distinct relation inside zero solution (y point.outlet.temperature + 1)
    have same := congrFun (only _ warmer) point.outlet.temperature
    rw [Function.update_self] at same
    linarith
  · rw [points_eq, List.forall_mem_map] at takesUp
    exact placed.existsUnique_solution distinct relation x takesUp
  · rw [points_eq, List.forall_mem_map]
    intro point inside
    obtain ⟨flows, temperature, pressure⟩ := ((placed.solution_iff distinct relation).1 solution).2 point inside
    refine ⟨flows, pressure, fun nonzero => ?_⟩
    rw [labelled.config_eq] at temperature
    exact eq_add_of_sub_eq' (eq_div_of_mul_eq nonzero ((mul_comm _ _).trans temperature))
  · rw [points_eq, List.forall_mem_map]
    exact placed.flowsBalance_iff distinct relation outside

theorem vaporFraction_solution_steady : ∃ (tray : Tray ℝ) (s : Store ℝ),
    (build "tray" ⟨true, true, true, true, true, .empty⟩ IdealPackage.benzeneToluene.toPackage .steady).on .empty =
      (.ok tray, s) ∧ (IdealPackage.benzeneToluene : IdealPackage ℝ).Distinct ∧
    (IdealPackage.benzeneToluene : IdealPackage ℝ).equilibrium = .vaporFraction 0.5 ∧
    ∃! y, tray.Solution s.value y := by
  obtain ⟨tray, s, built, takesUp⟩ : ∃ (tray : Tray ℝ) (s : Store ℝ),
      (build "tray" ⟨true, true, true, true, true, .empty⟩ IdealPackage.benzeneToluene.toPackage .steady).on .empty =
        (.ok tray, s) ∧ ∀ states ∈ tray.points,
          (IdealPackage.benzeneToluene : IdealPackage ℝ).heatCapacityFlow 0.5 (states.entering s.value) ≠ 0 := by
    have opened : ∀ flow, (IdealPackage.benzeneToluene : IdealPackage ℝ).heatCapacityFlow 0.5 flow =
        flow "benzene" * 108.5 + flow "toluene" * 130.5 := by
      intro flow
      simp only [IdealPackage.heatCapacityFlow, IdealPackage.benzeneToluene, IdealPackage.ofComponents,
        List.map_cons, List.map_nil, List.sum_cons, List.sum_nil]
      norm_num
    refine ⟨_, _, rfl, List.forall_mem_singleton.2 ?_⟩
    rw [opened]
    change (1 + 1 + (1 + 1 + (1 + 1 + 0))) * 108.5 + (1 + 1 + (1 + 1 + (1 + 1 + 0))) * 130.5 ≠ (0 : ℝ)
    norm_num
  have distinct : (IdealPackage.benzeneToluene : IdealPackage ℝ).Distinct := IdealPackage.benzeneToluene_distinct
  obtain ⟨unique, _⟩ := vaporFraction_solution built distinct rfl s.value
  exact ⟨tray, s, built, distinct, rfl, unique.2 takesUp⟩

end Tray

end Distillation
