import Distillation.Proofs.Expr.Affine
import Distillation.Proofs.Tray.Equations

namespace Distillation

/-- How much heat a component takes up in a phase. -/
def ComponentData.heatCapacity {K : Type} (data : ComponentData K) : Phase → K
  | .liquid => data.liquidHeatCapacity
  | .vapor => data.vaporHeatCapacity

namespace IdealState

variable {state : IdealState ℝ} {p : Phase} {x d : VarId → ℝ}

/-- The heat that the flows of a state take up when its temperature rises by one. -/
noncomputable def capacity (state : IdealState ℝ) (x : VarId → ℝ) : ℝ :=
  (state.components.map fun c =>
    x c.liquid * c.data.heatCapacity .liquid + x c.vapor * c.data.heatCapacity .vapor).sum

/-- The enthalpy of a state: sensible heat above the reference temperature, and the heat of vaporization. -/
theorem valueAt_enthalpyFlows (state : IdealState ℝ) (x : VarId → ℝ) :
    (state.enthalpyFlow .liquid).valueAt x + (state.enthalpyFlow .vapor).valueAt x =
      state.capacity x * (x state.temperature - state.referenceTemperature) +
        (state.components.map fun c => x c.vapor * c.data.vaporizationHeat).sum := by
  simp only [enthalpyFlow, Expr.valueAt_total, List.map_map, capacity, ← List.sum_map_add, ← List.sum_map_mul_right]
  refine congrArg List.sum (List.map_congr_left fun c _ => ?_)
  simp only [Function.comp_apply, ComponentFlows.flowExpr, ComponentFlows.flow, molarEnthalpy, Expr.valueAt_mul,
    Expr.valueAt_add, Expr.valueAt_sub, Expr.valueAt_var, Expr.valueAt_const, ComponentData.heatCapacity]
  ring

theorem rate_molarEnthalpy (c : ComponentFlows ℝ) :
    (state.molarEnthalpy p c).rate x d = c.data.heatCapacity p * d state.temperature := by
  cases p <;> simp [molarEnthalpy, ComponentData.heatCapacity, mul_comm]

/-- While the flows stand still, the enthalpy of a state moves with its temperature alone. -/
theorem rate_enthalpyFlow_of_still (still : ∀ v ∈ state.flows, d v = 0) :
    (state.enthalpyFlow .liquid).rate x d + (state.enthalpyFlow .vapor).rate x d =
      d state.temperature * state.capacity x := by
  have each : ∀ p, ∀ c ∈ state.components, (c.flowExpr p * state.molarEnthalpy p c).rate x d =
      d state.temperature * (x (c.flow p) * c.data.heatCapacity p) := by
    intro p c inside
    rw [Expr.rate_mul_op, rate_molarEnthalpy, ComponentFlows.flowExpr, Expr.rate_var, Expr.valueAt_var,
      still _ (flow_mem_flows inside p)]
    ring
  simp only [enthalpyFlow, Expr.rate_total, List.map_map, Function.comp_def]
  rw [List.map_congr_left (each .liquid), List.map_congr_left (each .vapor), ← List.sum_map_add, capacity,
    ← List.sum_map_mul_left]
  refine congrArg List.sum (List.map_congr_left fun c _ => ?_)
  simp only [ComponentFlows.flow]
  ring

section Multiaffine

variable {unknowns : List VarId}

theorem multiaffine_materialFlow (name : String) : (state.materialFlow p name).Multiaffine unknowns x := by
  unfold materialFlow
  cases state.component? name with
  | none => exact .const 0
  | some c => exact .var _

theorem multiaffine_enthalpyFlow (apart : state.temperature ∉ state.flows) :
    (state.enthalpyFlow p).Multiaffine unknowns x := by
  refine .total fun term inside => ?_
  obtain ⟨c, among, rfl⟩ := List.mem_map.1 inside
  have sensible : (state.molarEnthalpy p c).Multiaffine unknowns x := by
    have difference : (.var state.temperature - .const state.referenceTemperature : Expr ℝ).Multiaffine unknowns x :=
      .sub (.var _) (.const _)
    cases p with
    | liquid => exact .scale _ difference
    | vapor => exact .add (.scale _ difference) (.const _)
  refine .mul (.var _) sensible fun v _ => ?_
  by_cases level : v = state.temperature
  · refine .inl fun occurs => apart ?_
    rw [← level, mem_flows]
    exact ⟨c, among, p, by simpa [ComponentFlows.flowExpr] using occurs⟩
  · exact .inr fun occurs => level (mem_vars_molarEnthalpy.1 occurs)

end Multiaffine

end IdealState

/-- What enters of a component with all inlets. -/
noncomputable def IdealPoint.entering (point : IdealPoint ℝ) (name : String) (x : VarId → ℝ) : ℝ :=
  (point.inlets.map fun state =>
    (state.materialFlow .liquid name).valueAt x + (state.materialFlow .vapor name).valueAt x).sum

theorem IdealPoint.entering_congr {point : IdealPoint ℝ} {x y : VarId → ℝ}
    (same : ∀ state ∈ point.inlets, ∀ v ∈ state.vars, y v = x v) (name : String) :
    point.entering name y = point.entering name x := by
  refine congrArg List.sum (List.map_congr_left fun state entering => ?_)
  have each : ∀ p, (state.materialFlow p name).valueAt y = (state.materialFlow p name).valueAt x := by
    refine fun p => Expr.valueAt_congr fun v occurs => ?_
    obtain ⟨c, found, rfl⟩ := IdealState.mem_vars_materialFlow.1 occurs
    exact same state entering _ (IdealState.mem_vars_of_flow (IdealState.flow_mem_flows_of_component? found p))
  rw [each, each]

/-- Phase by phase, what the inlets bring less what the outlet takes. -/
noncomputable def Mixing.surplus (states : Mixing ℝ) (phases : List Phase) (term : PropertyState ℝ → Phase → Expr ℝ)
    (x : VarId → ℝ) : ℝ :=
  (phases.map fun p => (states.inlets.map fun state => (term state p).valueAt x).sum -
    (term states.outlet p).valueAt x).sum

namespace Balances

variable {point : IdealPoint ℝ} {x d : VarId → ℝ}

theorem sum_exchange_phases {φ : Expr ℝ → ℝ} (additive : Expr.Additive φ) (phases : List Phase) (states : Mixing ℝ)
    (term : PropertyState ℝ → Phase → Expr ℝ) : ((exchange phases states term).map φ).sum =
      (phases.map fun p => (states.inlets.map fun state => φ (term state p)).sum - φ (term states.outlet p)).sum := by
  induction phases with
  | nil => rfl
  | cons p rest ih =>
    have opened : exchange (p :: rest) states term =
        states.inlets.map (term · p) ++ [-term states.outlet p] ++ exchange rest states term := rfl
    simp only [opened, List.map_append, List.sum_append, ih, List.map_map, List.map_cons, List.map_nil,
      List.sum_cons, List.sum_nil, additive.neg, Function.comp_def]
    ring

theorem sum_exchange {φ : Expr ℝ → ℝ} (additive : Expr.Additive φ)
    (term : PropertyState ℝ → Phase → Expr ℝ) :
    ((exchange Phase.both point.toMixing term).map φ).sum =
      (point.inlets.map fun state => φ (term state.toState .liquid) + φ (term state.toState .vapor)).sum -
        (φ (term point.outlet.toState .liquid) + φ (term point.outlet.toState .vapor)) := by
  have outlet : point.toMixing.outlet = point.outlet.toState := rfl
  simp only [sum_exchange_phases additive, Phase.both, point.toMixing_inlets, outlet, List.map_map, List.map_cons,
    List.map_nil, List.sum_cons, List.sum_nil, List.sum_map_add, Function.comp_def]
  ring

section Mixing

variable (phases : List Phase) (states : Mixing ℝ) (x : VarId → ℝ)

theorem valueAt_materialBody_phases (name : String) : (materialBody phases states name).valueAt x =
    states.surplus phases (fun state p => state.materialFlow p name) x := by
  rw [materialBody, Expr.valueAt_total]
  exact sum_exchange_phases (Expr.additive_valueAt x) phases states _

theorem valueAt_enthalpyBody_phases (heatDuty : Option VarId) : (enthalpyBody phases heatDuty states).valueAt x =
    states.surplus phases PropertyState.enthalpyFlow x + heatDuty.elim 0 x := by
  have heat : ((heatDuty.toList.map (Expr.var : VarId → Expr ℝ)).map fun e => e.valueAt x).sum =
      heatDuty.elim 0 x := by
    cases heatDuty <;> simp
  rw [enthalpyBody, Expr.valueAt_total, List.map_append, List.sum_append, heat]
  exact congrArg (· + _) (sum_exchange_phases (Expr.additive_valueAt x) phases states _)

theorem valueAt_outletPressure (pressureDrop : Option VarId) :
    (outletPressure pressureDrop states).valueAt x = x states.vapor.pressure - pressureDrop.elim 0 x := by
  cases pressureDrop <;> simp [outletPressure]

end Mixing

theorem surplus_both (term : PropertyState ℝ → Phase → Expr ℝ) : point.toMixing.surplus Phase.both term x =
    (point.inlets.map fun state =>
      (term state.toState .liquid).valueAt x + (term state.toState .vapor).valueAt x).sum -
      ((term point.outlet.toState .liquid).valueAt x + (term point.outlet.toState .vapor).valueAt x) :=
  (sum_exchange_phases (Expr.additive_valueAt x) _ _ term).symm.trans (sum_exchange (Expr.additive_valueAt x) term)

/-- Of a component, what enters less what leaves. -/
theorem valueAt_materialBody (name : String) : (materialBody Phase.both point.toMixing name).valueAt x =
    point.entering name x - ((point.outlet.materialFlow .liquid name).valueAt x +
      (point.outlet.materialFlow .vapor name).valueAt x) := by
  rw [valueAt_materialBody_phases]
  exact surplus_both _

/-- Of enthalpy, what enters less what leaves, and the heat that is added. -/
theorem valueAt_enthalpyBody (heatDuty : Option VarId) :
    (enthalpyBody Phase.both heatDuty point.toMixing).valueAt x =
      (point.inlets.map fun state =>
        (state.enthalpyFlow .liquid).valueAt x + (state.enthalpyFlow .vapor).valueAt x).sum -
        ((point.outlet.enthalpyFlow .liquid).valueAt x + (point.outlet.enthalpyFlow .vapor).valueAt x) +
      heatDuty.elim 0 x := by
  rw [valueAt_enthalpyBody_phases]
  exact congrArg (· + _) (surplus_both _)

section Still

variable (still : ∀ state ∈ point.inlets, ∀ v ∈ state.vars, d v = 0)
include still

theorem sum_rates_inlets (term : IdealState ℝ → Phase → Expr ℝ)
    (own : ∀ state ∈ point.inlets, ∀ p, ∀ v ∈ (term state p).vars, v ∈ state.vars) :
    (point.inlets.map fun state => (term state .liquid).rate x d + (term state .vapor).rate x d).sum = 0 := by
  refine List.sum_eq_zero fun r inside => ?_
  obtain ⟨state, entering, rfl⟩ := List.mem_map.1 inside
  have rests : ∀ p, (term state p).rate x d = 0 := fun p =>
    Expr.rate_eq_zero fun v occurs => still state entering v (own state entering p v occurs)
  rw [rests, rests, add_zero]

/-- While the inlets stand still, a material balance changes by what leaves. -/
theorem rate_materialBody (name : String) : (materialBody Phase.both point.toMixing name).rate x d =
    -((point.outlet.materialFlow .liquid name).rate x d + (point.outlet.materialFlow .vapor name).rate x d) := by
  have inlets : (point.inlets.map fun state =>
      (state.materialFlow .liquid name).rate x d + (state.materialFlow .vapor name).rate x d).sum = 0 := by
    refine sum_rates_inlets still (fun state p => state.materialFlow p name) fun state _ p v occurs => ?_
    obtain ⟨c, found, rfl⟩ := IdealState.mem_vars_materialFlow.1 occurs
    exact IdealState.mem_vars_of_flow (IdealState.flow_mem_flows_of_component? found p)
  rw [materialBody, Expr.rate_total, sum_exchange (Expr.additive_rate x d)]
  exact (congrArg (· - _) inlets).trans (zero_sub _)

/-- While also the flows of the outlet stand still, the enthalpy balance changes with its temperature. -/
theorem rate_enthalpyBody {heatDuty : Option VarId} (duty : ∀ v ∈ heatDuty, d v = 0)
    (flows : ∀ v ∈ point.outlet.flows, d v = 0) :
    (enthalpyBody Phase.both heatDuty point.toMixing).rate x d =
      -(d point.outlet.temperature * point.outlet.capacity x) := by
  have inlets : (point.inlets.map fun state =>
      (state.enthalpyFlow .liquid).rate x d + (state.enthalpyFlow .vapor).rate x d).sum = 0 := by
    refine sum_rates_inlets still IdealState.enthalpyFlow fun state _ p v occurs => ?_
    obtain ⟨c, among, rfl | rfl⟩ := IdealState.mem_vars_enthalpyFlow.1 occurs
    · exact IdealState.mem_vars_of_flow (IdealState.flow_mem_flows among p)
    · exact state.temperature_mem_vars
  have outlet := IdealState.rate_enthalpyFlow_of_still (x := x) flows
  have heat : ((heatDuty.toList.map (Expr.var : VarId → Expr ℝ)).map fun e => e.rate x d).sum = 0 := by
    cases heatDuty with
    | none => rfl
    | some v => simpa using duty v rfl
  rw [enthalpyBody, Expr.rate_total, List.map_append, List.sum_append, heat, add_zero,
    sum_exchange (Expr.additive_rate x d), ← outlet]
  exact (congrArg (· - _) inlets).trans (zero_sub _)

end Still

theorem multiaffine_exchange {unknowns : List VarId} {term : PropertyState ℝ → Phase → Expr ℝ}
    (each : ∀ state ∈ point.states, ∀ p, (term state.toState p).Multiaffine unknowns x) :
    ∀ e ∈ exchange Phase.both point.toMixing term, e.Multiaffine unknowns x := by
  intro e listed
  have outlet : point.toMixing.outlet = point.outlet.toState := rfl
  simp only [exchange, List.mem_flatMap, List.mem_append, List.mem_singleton, point.toMixing_inlets, outlet,
    List.map_map, List.mem_map, Function.comp_apply] at listed
  obtain ⟨p, _, ⟨state, entering, rfl⟩ | rfl⟩ := listed
  · exact each state (List.mem_append_left _ entering) p
  · exact (each point.outlet (List.mem_append_right _ (List.mem_singleton.2 rfl)) p).negate

end Balances

namespace Tray

variable {package : IdealPackage ℝ} {tray : Tray ℝ} {points : List (IdealPoint ℝ)} {s : Store ℝ} {stage : Stage}

section Components

variable (placed : Placed package tray points s) (distinct : package.Distinct) {point : IdealPoint ℝ}
  (inside : point ∈ points) {c : ComponentFlows ℝ} (among : c ∈ point.outlet.components)
include placed inside among

/-- The two equations of a component at a time point. -/
theorem Placed.component_bodies {fraction : ℝ} (relation : package.equilibrium = .vaporFraction fraction)
    (stage : Stage) :
    Balances.materialBody Phase.both point.toMixing c.data.name ∈ bodiesAt package tray stage point ∧
      (.var c.vapor - .const fraction * (.var c.liquid + .var c.vapor) : Expr ℝ) ∈
        bodiesAt package tray stage point := by
  have fits := placed.anatomy.outlet_fits inside
  refine ⟨List.mem_append_left _ (List.mem_map_of_mem (fits.name_mem among)), ?_⟩
  refine List.mem_append_right _ (List.mem_append_right _ (List.mem_append_right _ ?_))
  rw [relation]
  exact List.mem_map.2 ⟨c, among, rfl⟩

include distinct

theorem Placed.materialFlow_eq (p : Phase) : point.outlet.materialFlow p c.data.name = .var (c.flow p) := by
  have fits := placed.anatomy.outlet_fits inside
  rw [IdealState.materialFlow_eq (fits.component?_of_mem distinct among)]
  rfl

theorem Placed.valueAt_material {x : VarId → ℝ} :
    (Balances.materialBody Phase.both point.toMixing c.data.name).valueAt x =
      point.entering c.data.name x - (x c.liquid + x c.vapor) := by
  rw [Balances.valueAt_materialBody, placed.materialFlow_eq distinct inside among,
    placed.materialFlow_eq distinct inside among, Expr.valueAt_var, Expr.valueAt_var]
  rfl

end Components

section VaporFraction

variable (placed : Placed package tray points s) {fraction : ℝ}
  (relation : package.equilibrium = .vaporFraction fraction) {point : IdealPoint ℝ} (inside : point ∈ points)
  {body : Expr ℝ} (listed : body ∈ bodiesAt package tray stage point)
include placed relation inside listed

/-- With a fixed vapor fraction no equation multiplies a variable with itself, and none divides. -/
theorem Placed.multiaffine (unknowns : List VarId) (x : VarId → ℝ) : body.Multiaffine unknowns x := by
  have apart : ∀ state ∈ point.states, state.temperature ∉ state.flows := by
    intro state present flow
    have distinct := placed.vars_nodup inside present
    rw [state.vars_eq] at distinct
    exact (List.nodup_append.1 distinct).2.2 _ flow _ List.mem_cons_self rfl
  simp only [bodiesAt, List.mem_append, List.mem_map] at listed
  rcases listed with ⟨name, _, rfl⟩ | listed | listed | listed
  · exact .total (Balances.multiaffine_exchange fun state _ p => state.multiaffine_materialFlow name)
  · split at listed
    · rw [List.mem_singleton.1 listed]
      refine .total (List.forall_mem_append.2 ⟨Balances.multiaffine_exchange fun state present p =>
        state.multiaffine_enthalpyFlow (apart state present), fun e duty => ?_⟩)
      obtain ⟨w, _, rfl⟩ := List.mem_map.1 duty
      exact .var w
    · simp at listed
  · split at listed
    · rw [List.mem_singleton.1 listed, pressureBody]
      refine .sub (.var _) ?_
      cases tray.balances.pressureDrop with
      | none => exact .var _
      | some drop => exact .sub (.var _) (.var _)
    · simp at listed
  · rw [relation] at listed
    obtain ⟨c, _, rfl⟩ := List.mem_map.1 listed
    exact .sub (.var _) (.scale _ (.add (.var _) (.var _)))

theorem Placed.affine (v : VarId) : body.AffineIn v :=
  (placed.multiaffine relation inside listed [v] 0).affineIn List.mem_cons_self

end VaporFraction

end Tray

end Distillation
