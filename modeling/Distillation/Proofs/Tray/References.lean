import Distillation.Proofs.Tray.Footprint

namespace Distillation

variable {K : Type}

namespace IdealState

/-- The flows of the component at a position, that in the liquid first. -/
def flowsOf (state : IdealState K) (j : Nat) : List VarId :=
  state.components[j]?.toList.flatMap fun c => [c.liquid, c.vapor]

variable {package : IdealPackage K} {reference : K} {state : IdealState K} {j : Nat} {c : ComponentFlows K} {v : VarId}

theorem mem_flowsOf : v ∈ state.flowsOf j ↔ ∃ c ∈ state.components[j]?, ∃ p, v = c.flow p := by
  simp only [flowsOf, List.mem_flatMap, Option.mem_toList, List.mem_pair]
  constructor
  · rintro ⟨c, here, rfl | rfl⟩
    · exact ⟨c, here, .liquid, rfl⟩
    · exact ⟨c, here, .vapor, rfl⟩
  · rintro ⟨c, here, p, rfl⟩
    cases p with
    | liquid => exact ⟨c, here, .inl rfl⟩
    | vapor => exact ⟨c, here, .inr rfl⟩

/-- The component of a state at a position is that of the package. -/
theorem Fits.exists_component (fits : state.Fits package reference) (bound : j < package.components.length) :
    ∃ c, state.components[j]? = some c ∧ c.data = package.components[j] := by
  have inside : j < state.components.length := fits.count ▸ bound
  refine ⟨state.components[j], List.getElem?_eq_getElem inside, ?_⟩
  have same : (state.components.map (·.data))[j]? = package.components[j]? := by rw [fits.data]
  rw [List.getElem?_map, List.getElem?_eq_getElem inside, List.getElem?_eq_getElem bound] at same
  exact Option.some.inj same

/-- Where names are different, a component is found at the position of its name. -/
theorem Fits.component?_eq (fits : state.Fits package reference) (distinct : package.Distinct)
    (bound : j < package.components.length) :
    state.component? package.components[j].name = state.components[j]? := by
  obtain ⟨c, here, data⟩ := fits.exists_component bound
  rw [here, ← data]
  exact fits.component?_of_mem distinct (List.mem_of_getElem? here)

variable [Scalar K]

/-- What the equilibrium relation of a component refers to. -/
def equilibriumVars (state : IdealState K) (j : Nat) : Equilibrium K → List VarId
  | .vaporFraction _ => state.flowsOf j
  | .constantK _ => state.flows

theorem exists_equilibriumBody (accepted : package.checkFactors = .ok ()) (fits : state.Fits package reference)
    (here : state.components[j]? = some c) : ∃ body, (state.equilibriumBodies package.equilibrium)[j]? = some body ∧
      ∀ v, v ∈ body.vars ↔ v ∈ state.equilibriumVars j package.equilibrium := by
  cases relation : package.equilibrium with
  | vaporFraction fraction =>
    refine ⟨.var c.vapor - .const fraction * (.var c.liquid + .var c.vapor), ?_, fun v => ?_⟩
    · rw [equilibriumBodies, List.getElem?_map, here, Option.map_some]
    · simp only [Expr.mem_vars_sub, Expr.mem_vars_mul, Expr.mem_vars_add, Expr.vars_var, Expr.vars_const,
        List.mem_singleton, List.not_mem_nil, false_or, equilibriumVars, flowsOf, here, Option.toList_some,
        List.flatMap_singleton, List.mem_pair]
      grind
  | constantK factors =>
    have bound : j < factors.length := by
      obtain ⟨inside, _⟩ := List.getElem?_eq_some_iff.1 here
      rw [IdealPackage.length_factors accepted relation, ← fits.count]
      exact inside
    have own := List.mem_of_getElem? here
    refine ⟨.var c.vapor / state.phaseFlow .vapor - .const factors[j] * (.var c.liquid / state.phaseFlow .liquid), ?_,
      fun v => ?_⟩
    · rw [equilibriumBodies, List.getElem?_zipWith, here, List.getElem?_eq_getElem bound]
    · simp only [Expr.mem_vars_sub, Expr.mem_vars_mul, Expr.div_def, Expr.mem_vars_quotient, Expr.vars_var,
        Expr.vars_const, List.mem_singleton, List.not_mem_nil, false_or, mem_vars_phaseFlow, equilibriumVars, mem_flows]
      constructor
      · rintro ((rfl | ⟨other, among, rfl⟩) | (rfl | ⟨other, among, rfl⟩))
        · exact ⟨c, own, .vapor, rfl⟩
        · exact ⟨other, among, .vapor, rfl⟩
        · exact ⟨c, own, .liquid, rfl⟩
        · exact ⟨other, among, .liquid, rfl⟩
      · rintro ⟨other, among, p, rfl⟩
        cases p with
        | liquid => exact .inr (.inr ⟨other, among, rfl⟩)
        | vapor => exact .inl (.inr ⟨other, among, rfl⟩)

end IdealState

/-- What is split is scaled by its share, and so refers to what the share is told by. -/
theorem Split.mem_vars_of_share [Scalar K] {state : PropertyState K} {name : String} {kind : MemberKind} {p : Phase}
    {share : Share} {q : Quantity K} (made : resolveMember state name kind p share = .ok q) (split : kind.isSplit = true)
    {entry : Option Key × Expr K} (listed : entry ∈ q.terms) {v : VarId} (occurs : v ∈ (share.expr : Expr K).vars) :
    v ∈ entry.2.vars := by
  obtain ⟨labels, terms⟩ := resolveMember_synthesized (MemberKind.isSynthesized_of_isSplit split) made
  have among : entry.1 ∈ Split.labels state name kind := labels ▸ List.mem_map_of_mem listed
  obtain ⟨own, _, _, unique⟩ := terms entry.1 among
  rw [unique entry.2 listed, scaled, if_pos split]
  exact Expr.mem_vars_mul.2 (.inr occurs)

theorem IdealState.Carries.isSplit [Scalar K] {state : IdealState K} {name : String} {kind : MemberKind}
    (carries : state.Carries name kind) (flow : name = "flow_mol" ∨ name = "flow_mol_comp") : kind.isSplit = true := by
  have table : ∀ entry ∈ carriedKinds, entry.1 = "flow_mol" ∨ entry.1 = "flow_mol_comp" → entry.2.isSplit = true := by
    decide
  exact table (name, kind) (mem_carriedKinds carries) flow

/-- The time position of an equation. -/
def EquationIndex.position : EquationIndex → Nat
  | time t => t
  | timeComponent t _ => t

namespace Tray

/-- What the equations of a time position refer to: each to all of these variables, and to no others. -/
structure EquationsRefer [Scalar K] (package : IdealPackage K) (tray : Tray K) (t : Nat) (point : IdealPoint K) : Prop where
  material : ∀ j < package.components.length, ∃ equation,
    tray.balances.material.get? (.timeComponent t j) = some equation ∧
      ∀ v, v ∈ equation.body.vars ↔ ∃ state ∈ point.states, v ∈ state.flowsOf j
  enthalpy : ∃ equation, tray.balances.enthalpy.get? (.time t) = some equation ∧ ∀ v, v ∈ equation.body.vars ↔
    (∃ state ∈ point.states, v ∈ state.flows ∨ v = state.temperature) ∨ v ∈ tray.balances.heatDuty
  pressure : ∃ equation, tray.balances.pressure.get? (.time t) = some equation ∧ ∀ v, v ∈ equation.body.vars ↔
    v = point.outlet.pressure ∨ v = point.vapor.pressure ∨ v ∈ tray.balances.pressureDrop
  equilibrium : ∃ relations, point.outlet.toState.families = [relations] ∧ ∀ j < package.components.length,
    ∃ equation, relations.get? (.timeComponent t j) = some equation ∧
      ∀ v, v ∈ equation.body.vars ↔ v ∈ point.outlet.equilibriumVars j package.equilibrium

/-- A member of an outlet port is a flow, of which the split fraction tells how much goes through the port. -/
def Routes (tray : Tray K) (port : Port K) (member : PortMember K) (v : VarId) : Prop :=
  (member.name = "flow_mol" ∨ member.name = "flow_mol_comp") ∧
    ∃ p, tray.split? p = some v ∧ (port.name = p.drawPort ∨ port.name = p.mainPort)

/-- What the entries of the ports at a time position refer to: those of an inlet port to the state that enters there,
those of an outlet port to the outlet state, and to the split fraction where they are routed by it. -/
structure PortsRefer (tray : Tray K) (t : Nat) (point : IdealPoint K) : Prop where
  names : tray.ports.inputs.map (·.name) = point.feed.toList.map (fun _ => "feed") ++ ["liq_in", "vap_in"]
  inputs : List.Forall₂ (fun state port => ∀ member ∈ port.members, ∀ q ∈ member.values[t]?, ∀ entry ∈ q.terms,
    ∀ v ∈ entry.2.vars, v ∈ state.vars) point.inlets tray.ports.inputs
  outputs : ∀ port ∈ tray.ports.outputs, ∀ member ∈ port.members, ∀ q ∈ member.values[t]?, ∀ entry ∈ q.terms,
    (∀ v ∈ entry.2.vars, v ∈ point.outlet.vars ∨ tray.Routes port member v) ∧
      ∀ v, tray.Routes port member v → v ∈ entry.2.vars

variable [Scalar K] {package : IdealPackage K} {tray : Tray K} {points : List (IdealPoint K)} {t : Nat}
  {point : IdealPoint K}

/-- Where a phase has a side draw, its split fraction tells the shares of the draw and of the main outlet. -/
theorem mem_vars_of_split? {outlet : Split.Outlet} (listed : outlet ∈ tray.outflows) {p : Phase} {v : VarId}
    (drawn : tray.split? p = some v) (through : outlet.port = p.drawPort ∨ outlet.port = p.mainPort) :
    v ∈ (outlet.share.expr : Expr K).vars := by
  have named : ∀ other ∈ tray.outflows, outlet.port = other.port → outlet = other := fun other among same =>
    List.inj_on_of_nodup_map tray.outflows_nodup listed among same
  obtain ⟨draw, main⟩ := mem_outflows_of_split drawn
  rcases through with through | through
  · rw [named _ draw through, Share.expr, Expr.vars_var]
    exact List.mem_singleton.2 rfl
  · rw [named _ main through, Share.expr, Expr.mem_vars_sub, Expr.vars_var]
    exact .inr (List.mem_singleton.2 rfl)

namespace Anatomy

variable (anatomy : Anatomy package tray points)
include anatomy

section Equations

variable (found : points[t]? = some point)
include found

theorem material_vars (distinct : package.Distinct) {j : Nat} (bound : j < package.components.length) : ∃ equation,
    tray.balances.material.get? (.timeComponent t j) = some equation ∧
      ∀ v, v ∈ equation.body.vars ↔ ∃ state ∈ point.states, v ∈ state.flowsOf j := by
  have listed : package.componentSet.names[j]? = some package.components[j].name := by
    rw [distinct.componentSet_names, List.getElem?_map, List.getElem?_eq_getElem bound, Option.map_some]
  rw [anatomy.material, Balances.get?_materialFamily (anatomy.getElem?_mixings found) listed]
  refine ⟨_, rfl, fun v => ?_⟩
  rw [Balances.mem_vars_materialBody]
  have same : ∀ state ∈ point.states, state.component? package.components[j].name = state.components[j]? :=
    fun state present => (anatomy.fits point (List.mem_of_getElem? found) state present).component?_eq distinct bound
  constructor
  · rintro ⟨state, present, p, c, here, rfl⟩
    exact ⟨state, present, IdealState.mem_flowsOf.2 ⟨c, same state present ▸ here, p, rfl⟩⟩
  · rintro ⟨state, present, own⟩
    obtain ⟨c, here, p, rfl⟩ := IdealState.mem_flowsOf.1 own
    exact ⟨state, present, p, c, (same state present).symm ▸ here, rfl⟩

theorem enthalpy_vars (nonempty : package.components ≠ []) : ∃ equation,
    tray.balances.enthalpy.get? (.time t) = some equation ∧ ∀ v, v ∈ equation.body.vars ↔
      (∃ state ∈ point.states, v ∈ state.flows ∨ v = state.temperature) ∨ v ∈ tray.balances.heatDuty := by
  rw [anatomy.enthalpy, Balances.get?_enthalpyFamily (anatomy.getElem?_mixings found)]
  refine ⟨_, rfl, fun v => ?_⟩
  rw [Balances.mem_vars_enthalpyBody]
  refine or_congr_left ⟨?_, ?_⟩
  · rintro ⟨state, present, p, c, own, rfl | rfl⟩
    · exact ⟨state, present, .inl (IdealState.flow_mem_flows own p)⟩
    · exact ⟨state, present, .inr rfl⟩
  · rintro ⟨state, present, flow | rfl⟩
    · obtain ⟨c, own, p, rfl⟩ := IdealState.mem_flows.1 flow
      exact ⟨state, present, p, c, own, .inl rfl⟩
    · have count := (anatomy.fits point (List.mem_of_getElem? found) state present).count
      obtain ⟨c, own⟩ := List.exists_mem_of_length_pos (count ▸ List.length_pos_iff.2 nonempty)
      exact ⟨state, present, .liquid, c, own, .inr rfl⟩

theorem pressure_vars : ∃ equation, tray.balances.pressure.get? (.time t) = some equation ∧
    ∀ v, v ∈ equation.body.vars ↔
      v = point.outlet.pressure ∨ v = point.vapor.pressure ∨ v ∈ tray.balances.pressureDrop := by
  rw [anatomy.pressure, Balances.get?_pressureFamily (anatomy.getElem?_mixings found)]
  refine ⟨_, rfl, fun v => ?_⟩
  rw [Constraint.equality, Expr.mem_vars_sub, Expr.vars_var, List.mem_singleton, Balances.mem_vars_outletPressure]
  rfl

theorem equilibrium_vars : ∃ relations, point.outlet.toState.families = [relations] ∧
    ∀ j < package.components.length, ∃ equation, relations.get? (.timeComponent t j) = some equation ∧
      ∀ v, v ∈ equation.body.vars ↔ v ∈ point.outlet.equilibriumVars j package.equilibrium := by
  have fits := anatomy.outlet_fits (List.mem_of_getElem? found)
  refine ⟨point.outlet.equilibriumFamily package.equilibrium t, ?_, fun j bound => ?_⟩
  · exact congrArg Option.toList (anatomy.outlet t point found)
  · obtain ⟨c, here, _⟩ := fits.exists_component bound
    obtain ⟨body, relation, vars⟩ := IdealState.exists_equilibriumBody anatomy.factors fits here
    exact ⟨_, IdealState.get?_equilibriumFamily here relation, vars⟩

theorem equationsRefer (nonempty : package.components ≠ []) (distinct : package.Distinct) :
    tray.EquationsRefer package t point where
  material _ bound := anatomy.material_vars found distinct bound
  enthalpy := anatomy.enthalpy_vars found nonempty
  pressure := anatomy.pressure_vars found
  equilibrium := anatomy.equilibrium_vars found

end Equations

section Ports

variable (found : points[t]? = some point)
include found

theorem inputs_own : List.Forall₂ (fun state port => ∀ member ∈ port.members, ∀ q ∈ member.values[t]?,
    ∀ entry ∈ q.terms, ∀ v ∈ entry.2.vars, v ∈ state.vars) point.inlets tray.ports.inputs := by
  refine (anatomy.inputs_streams found).imp ?_
  rintro state port ⟨title, streams, rfl, here, own⟩ member inside q shown entry listed v occurs
  have same : ∀ ideal ∈ streams, ideal.portMembers = package.portMembers := by
    intro ideal among
    obtain ⟨point, inside, present⟩ := own ideal among
    exact (anatomy.fits point inside ideal present).portMembers
  obtain ⟨q', position, known⟩ := exists_getElem?_of_forall₂ (passThrough_values title same member inside) here
  obtain rfl : q' = q := Option.some.inj (position.symm.trans shown)
  exact IdealState.ownsAll_of_member? known entry listed v occurs

/-- What an outlet port shows at a time has been resolved, for one of its outlets, from the outlet state. -/
theorem exists_resolved {port : Port K} (leaving : port ∈ tray.ports.outputs) {member : PortMember K}
    (own : member ∈ port.members) {q : Quantity K} (shown : member.values[t]? = some q) :
    ∃ outlet ∈ tray.outflows, port.name = outlet.port ∧ ∃ kind, point.outlet.Carries member.name kind ∧
      Split.resolveMember point.outlet.toState member.name kind outlet.phase outlet.share = .ok q := by
  obtain ⟨schema, accepted, resolved⟩ := bind_eq_ok.1 anatomy.outputs
  obtain ⟨outlet, among, kept, after, made⟩ :=
    exists_left_of_forall₂ (Split.resolvePort_of_resolveOutlets resolved) leaving
  obtain ⟨named, members⟩ := Split.resolves_of_resolved made
  obtain ⟨⟨name, kind⟩, listed, titled, values⟩ := exists_left_of_forall₂ members own
  obtain rfl : member.name = name := titled
  have here : tray.outlets[t]? = some point.outlet.toState := by
    rw [anatomy.outlets_eq, List.getElem?_map, found, Option.map_some]
  obtain ⟨q', position, value⟩ := exists_getElem?_of_forall₂ (forall₂_of_mapM_eq_ok values) here
  obtain rfl : q' = q := Option.some.inj (position.symm.trans shown)
  exact ⟨outlet, among, named, kind, anatomy.carries_of_schema accepted listed (List.mem_of_getElem? found), value⟩

theorem outputs_own {port : Port K} (leaving : port ∈ tray.ports.outputs) {member : PortMember K}
    (own : member ∈ port.members) {q : Quantity K} (shown : q ∈ member.values[t]?) {entry : Option Key × Expr K}
    (listed : entry ∈ q.terms) :
    (∀ v ∈ entry.2.vars, v ∈ point.outlet.vars ∨ tray.Routes port member v) ∧
      ∀ v, tray.Routes port member v → v ∈ entry.2.vars := by
  obtain ⟨outlet, among, named, kind, carries, made⟩ := anatomy.exists_resolved found leaving own shown
  constructor
  · intro v occurs
    refine (IdealState.vars_of_resolved made listed occurs).imp_right ?_
    rintro ⟨split, shared⟩
    exact ⟨IdealState.name_of_isSplit carries split, named ▸ split?_of_share among shared⟩
  · rintro v ⟨flow, p, drawn, through⟩
    exact Split.mem_vars_of_share made (carries.isSplit flow) listed (mem_vars_of_split? among drawn (named ▸ through))

end Ports

theorem portsRefer (found : points[t]? = some point) : tray.PortsRefer t point where
  names := by
    have equipped := anatomy.feed point (List.mem_of_getElem? found)
    rw [anatomy.inputs, ← equipped]
    cases point.feed <;> rfl
  inputs := anatomy.inputs_own found
  outputs _ leaving _ own _ shown _ listed := anatomy.outputs_own found leaving own shown listed

section Positions

/-- Each equation of a tray is one of a time position, that of its index. -/
theorem exists_point {family : Family K} (listed : family ∈ tray.families) {index : EquationIndex} {c : Constraint K}
    (among : (index, c) ∈ family.members) : ∃ point, points[index.position]? = some point ∧
      c.body ∈ bodiesAt package tray .full point := by
  have stands : ∀ {t : Nat} {states : Mixing K}, tray.mixings[t]? = some states →
      ∃ point, points[t]? = some point ∧ point.toMixing = states := by
    intro t states here
    rw [anatomy.mixings_eq, List.getElem?_map] at here
    exact Option.map_eq_some_iff.1 here
  rw [anatomy.families_eq, List.mem_append, List.mem_cons, List.mem_pair, List.mem_mapIdx] at listed
  rcases listed with (rfl | rfl | rfl) | ⟨t, bound, rfl⟩
  · obtain ⟨t, states, position, j, name, component, same⟩ := Balances.mem_materialFamily.1 among
    cases same
    obtain ⟨point, here, rfl⟩ := stands position
    exact ⟨point, here, List.mem_append_left _ (List.mem_map_of_mem (List.mem_of_getElem? component))⟩
  · obtain ⟨t, bound, same⟩ := List.mem_mapIdx.1 among
    cases same
    obtain ⟨point, here, same⟩ := stands (List.getElem?_eq_getElem bound)
    refine ⟨point, here, ?_⟩
    simp [bodiesAt, Stage.energy, same]
  · obtain ⟨t, bound, same⟩ := List.mem_mapIdx.1 among
    cases same
    obtain ⟨point, here, same⟩ := stands (List.getElem?_eq_getElem bound)
    refine ⟨point, here, ?_⟩
    have body : tray.pressureBody point ∈ bodiesAt package tray .full point := by simp [bodiesAt, Stage.pressure]
    exact same ▸ body
  · obtain ⟨j, within, same⟩ := List.mem_mapIdx.1 among
    cases same
    have relation := (List.of_mem_zip (List.getElem_mem within)).2
    exact ⟨points[t], List.getElem?_eq_getElem bound,
      List.mem_append_right _ (List.mem_append_right _ (List.mem_append_right _ relation))⟩

end Positions

end Anatomy

namespace Placed

variable {s : Store K} (placed : Placed package tray points s)
include placed

/-- Point by point, the variables of all states are pairwise different. -/
theorem points_nodup : (points.flatMap fun point => point.states.flatMap (·.vars)).Nodup := by
  have feeds : tray.feeds.flatMap (·.vars) = points.flatMap fun point => point.feed.toList.flatMap (·.vars) := by
    rw [feeds, placed.anatomy.points_eq, List.filterMap_map, List.filterMap_eq_flatMap_toList, List.flatMap_assoc]
    refine List.flatMap_congr fun point _ => ?_
    cases fed : point.feed <;> simp [IdealPoint.toStates, fed, IdealState.toState]
  have streams : tray.liquids.flatMap (·.vars) = points.flatMap (·.liquid.vars) ∧
      tray.vapors.flatMap (·.vars) = points.flatMap (·.vapor.vars) ∧
      tray.outlets.flatMap (·.vars) = points.flatMap (·.outlet.vars) := by
    rw [liquids, vapors, outlets, placed.anatomy.points_eq, List.map_map, List.map_map, List.map_map, List.flatMap_map,
      List.flatMap_map, List.flatMap_map]
    exact ⟨rfl, rfl, rfl⟩
  have distinct := stateVars_nodup placed.distinct
  rw [states, List.flatMap_append, List.flatMap_append, List.flatMap_append, List.append_assoc, List.append_assoc, feeds,
    streams.1, streams.2.1, streams.2.2, (flatMap_four_perm _ _ _ _ points).nodup_iff] at distinct
  simpa [IdealPoint.states, IdealPoint.inlets] using distinct

/-- A variable belongs to the states of one time position only. -/
theorem position_unique {t t' : Nat} {point point' : IdealPoint K} (found : points[t]? = some point)
    (found' : points[t']? = some point') {state state' : IdealState K} (present : state ∈ point.states)
    (present' : state' ∈ point'.states) {v : VarId} (own : v ∈ state.vars) (own' : v ∈ state'.vars) : t = t' := by
  have apart := List.pairwise_iff_getElem.1 (List.nodup_flatMap.1 placed.points_nodup).2
  obtain ⟨bound, rfl⟩ := List.getElem?_eq_some_iff.1 found
  obtain ⟨bound', rfl⟩ := List.getElem?_eq_some_iff.1 found'
  have here := List.mem_flatMap.2 ⟨state, present, own⟩
  have there := List.mem_flatMap.2 ⟨state', present', own'⟩
  rcases Nat.lt_trichotomy t t' with before | same | after
  · exact absurd there (apart t t' bound bound' before here)
  · exact same
  · exact absurd here (apart t' t bound' bound after there)

/-- No equation refers to a split fraction, nor to a variable of a state at another time position than its own. -/
theorem equation_confined {family : Family K} (listed : family ∈ tray.families) {member : EquationIndex × Constraint K}
    (among : member ∈ family.members) {v : VarId} (occurs : v ∈ member.2.body.vars) : v ∉ tray.splits ∧
      ∀ t point, points[t]? = some point → ∀ state ∈ point.states, v ∈ state.vars → t = member.1.position := by
  obtain ⟨point, found, body⟩ := placed.anatomy.exists_point listed among
  have own := own_of_body body occurs
  constructor
  · refine placed.not_split_of_operating ?_
    rcases own with ⟨state, present, own⟩ | equipment
    · exact placed.anatomy.operating_of_state (List.mem_of_getElem? found) present own
    · exact mem_operating.2 (.inr equipment)
  · intro t point' found' state' present' own'
    rcases own with ⟨state, present, own⟩ | equipment
    · exact placed.position_unique found' found present' present own' own
    · have ideal := placed.anatomy.mem_states_of (List.mem_of_getElem? found') present'
      have apart := placed.distinct
      rw [declared, List.append_assoc, List.append_assoc] at apart
      refine absurd rfl ((List.nodup_append.1 apart).2.2 v (List.mem_flatMap.2 ⟨_, ideal, own'⟩) v ?_)
      rcases equipment with duty | drop
      · exact List.mem_append_left _ (Option.mem_toList.2 duty)
      · exact List.mem_append_right _ (List.mem_append_left _ (Option.mem_toList.2 drop))

end Placed

/-- Each equation of a tray refers to the variables that it is about, and each entry of a port to those of the state that
it shows. A material balance refers to the flows of its component in all states of its time; the enthalpy balance to all
flows and temperatures of that time and to the heat duty; the equation of the outlet pressure to the pressures of the
outlet and of the vapor inlet and to the pressure drop; an equilibrium relation to the flows of its component in the
outlet, or to all its flows. An outlet port refers to a split fraction in the flows through a side draw and its main
outlet, and an equation to none. -/
theorem references_exact {name : String} {config : TrayConfig K} {time : TimeSet K} {s₀ s₁ : Store K}
    (built : (build name config package.toPackage time).on s₀ = (.ok tray, s₁)) (nonempty : package.components ≠ [])
    (distinct : package.Distinct) : ∃ points : List (IdealPoint K),
      tray.points = points.map IdealPoint.toStates ∧ points.length = time.count ∧
      (∀ t point, points[t]? = some point →
        (∀ state ∈ point.states, state.components.map (·.data) = package.components) ∧
        tray.EquationsRefer package t point ∧ tray.PortsRefer t point) ∧
      ∀ family ∈ tray.families, ∀ member ∈ family.members, ∀ v ∈ member.2.body.vars, v ∉ tray.splits ∧
        ∀ t point, points[t]? = some point → ∀ state ∈ point.states, v ∈ state.vars → t = member.1.position := by
  obtain ⟨labelled, _, _⟩ := build_eq_ok built
  obtain ⟨points, placed⟩ := exists_placed built (.refl s₁)
  have anatomy := placed.anatomy
  refine ⟨points, anatomy.points_eq, labelled.time_eq ▸ anatomy.count, fun t point found => ⟨?_, ?_, ?_⟩,
    fun family listed member among v occurs => placed.equation_confined listed among occurs⟩
  · exact fun state present => (anatomy.fits point (List.mem_of_getElem? found) state present).data
  · exact anatomy.equationsRefer found nonempty distinct
  · exact anatomy.portsRefer found

theorem references_exact_equipped : ∃ (tray : Tray Float) (s : Store Float),
    (build "tray" ⟨true, true, true, true, true, .empty⟩ IdealPackage.benzeneToluene.toPackage .steady).on .empty =
      (.ok tray, s) ∧ (IdealPackage.benzeneToluene : IdealPackage Float).components ≠ [] ∧
    (IdealPackage.benzeneToluene : IdealPackage Float).Distinct ∧ ∃ point : IdealPoint Float,
      tray.points = [point.toStates] ∧ tray.EquationsRefer .benzeneToluene 0 point ∧ tray.PortsRefer 0 point := by
  obtain ⟨tray, s, built⟩ : ∃ (tray : Tray Float) (s : Store Float),
      (build "tray" ⟨true, true, true, true, true, .empty⟩ IdealPackage.benzeneToluene.toPackage .steady).on .empty =
        (.ok tray, s) := ⟨_, _, rfl⟩
  have nonempty : (IdealPackage.benzeneToluene : IdealPackage Float).components ≠ [] := List.cons_ne_nil _ _
  have distinct : (IdealPackage.benzeneToluene : IdealPackage Float).Distinct := IdealPackage.benzeneToluene_distinct
  obtain ⟨points, opened, count, each, _⟩ := references_exact built nonempty distinct
  obtain ⟨point, rfl⟩ : ∃ point, points = [point] := List.length_eq_one_iff.1 count
  obtain ⟨_, equations, ports⟩ := each 0 point rfl
  exact ⟨tray, s, built, nonempty, distinct, point, opened, equations, ports⟩

end Tray

end Distillation
