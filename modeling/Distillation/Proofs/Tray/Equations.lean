import Distillation.Proofs.Property.IdealFlows
import Distillation.Proofs.Tray.Stages

namespace Distillation

variable {K : Type} [Scalar K]

namespace Balances

variable {φ : Type} {point : IdealPoint K} {v : VarId}

/-- The variables of a balance over both phases are those of its terms. -/
theorem mem_vars_exchange {term : PropertyState K → Phase → Expr K} :
    (∃ e ∈ exchange Phase.both point.toMixing term, v ∈ e.vars) ↔
      ∃ state ∈ point.states, ∃ p, v ∈ (term state.toState p).vars := by
  have outlet : point.toMixing.outlet = point.outlet.toState := rfl
  simp only [exchange, Phase.both, point.toMixing_inlets, outlet, IdealPoint.states, List.mem_flatMap,
    List.mem_append, List.mem_map, List.mem_pair, List.mem_singleton]
  constructor
  · rintro ⟨_, ⟨p, _, ⟨_, ⟨state, inside, rfl⟩, rfl⟩ | rfl⟩, occurs⟩
    · exact ⟨state, .inl inside, p, occurs⟩
    · exact ⟨point.outlet, .inr rfl, p, by simpa using occurs⟩
  · rintro ⟨state, inside | rfl, p, occurs⟩
    · exact ⟨_, ⟨p, by cases p <;> simp, .inl ⟨_, ⟨state, inside, rfl⟩, rfl⟩⟩, occurs⟩
    · exact ⟨_, ⟨p, by cases p <;> simp, .inr rfl⟩, by simpa using occurs⟩

theorem mem_vars_materialBody {name : String} :
    v ∈ (materialBody Phase.both point.toMixing name).vars ↔
      ∃ state ∈ point.states, ∃ p, ∃ c ∈ state.component? name, v = c.flow p := by
  rw [materialBody, Expr.mem_vars_total, mem_vars_exchange]
  simp only [IdealState.toState, IdealState.mem_vars_materialFlow]

theorem mem_vars_enthalpyBody {heatDuty : Option VarId} :
    v ∈ (enthalpyBody Phase.both heatDuty point.toMixing).vars ↔
      (∃ state ∈ point.states, ∃ p, ∃ c ∈ state.components, v = c.flow p ∨ v = state.temperature) ∨
        v ∈ heatDuty := by
  have duty : (∃ e ∈ heatDuty.toList.map (Expr.var : VarId → Expr K), v ∈ e.vars) ↔ v ∈ heatDuty := by
    cases heatDuty <;> simp [eq_comm]
  simp only [enthalpyBody, Expr.mem_vars_total, List.mem_append, or_and_right, exists_or, duty,
    mem_vars_exchange]
  simp only [IdealState.toState, IdealState.mem_vars_enthalpyFlow]

theorem mem_vars_outletPressure {pressureDrop : Option VarId} :
    v ∈ (outletPressure pressureDrop point.toMixing).vars ↔ v = point.vapor.pressure ∨ v ∈ pressureDrop := by
  have level : point.toMixing.vapor.pressure = point.vapor.pressure := rfl
  cases pressureDrop <;> simp [outletPressure, level, eq_comm]

section Families

variable (tray : String) (phases : List Phase) (states : List (Mixing K))

theorem bodies_materialFamily (components : ComponentSet) :
    (materialFamily tray phases components states).constraints.map (·.body) =
      states.flatMap fun states => components.names.map (materialBody phases states) := by
  have each : ∀ entry ∈ states.zipIdx, (components.names.mapIdx fun j component =>
      (EquationIndex.timeComponent entry.2 j, (⟨s!"{tray}.material_mixing_equations[{entry.2},{component}]",
        materialBody phases entry.1 component⟩ : Constraint K))).map (·.2.body) =
      components.names.map (materialBody phases entry.1) :=
    fun entry _ => map_mapIdx _ _ _ (fun _ _ => by rfl) _
  rw [Family.constraints, List.map_map, materialFamily, Family.ofMembers, List.map_flatMap]
  exact (List.flatMap_congr each).trans (flatMap_zipIdx
    (fun states => components.names.map (materialBody phases states)) states)

theorem bodies_enthalpyFamily (heatDuty : Option VarId) :
    (enthalpyFamily tray phases heatDuty states).constraints.map (·.body) =
      states.map (enthalpyBody phases heatDuty) := by
  rw [Family.constraints, List.map_map]
  exact map_mapIdx _ _ _ (fun _ _ => by rfl) states

theorem bodies_pressureFamily (pressureDrop : Option VarId) :
    (pressureFamily tray pressureDrop states).constraints.map (·.body) =
      states.map fun states => .var states.outlet.pressure - outletPressure pressureDrop states := by
  rw [Family.constraints, List.map_map]
  exact map_mapIdx _ _ _ (fun _ _ => by rfl) states

variable {tray phases states}

/-- There is one material balance for each time point and component, at their positions. -/
theorem mem_materialFamily {components : ComponentSet} {member : EquationIndex × Constraint K} :
    member ∈ (materialFamily tray phases components states).members ↔
      ∃ t here, states[t]? = some here ∧ ∃ j name, components.names[j]? = some name ∧ member =
        (.timeComponent t j, ⟨s!"{tray}.material_mixing_equations[{t},{name}]", materialBody phases here name⟩) := by
  simp only [materialFamily, Family.ofMembers, List.mem_flatMap, List.mem_mapIdx, Prod.exists,
    List.mem_zipIdx_iff_getElem?]
  constructor
  · rintro ⟨here, t, found, j, bound, rfl⟩
    exact ⟨t, here, found, j, _, List.getElem?_eq_getElem bound, rfl⟩
  · rintro ⟨t, here, found, j, name, listed, rfl⟩
    obtain ⟨bound, rfl⟩ := List.getElem?_eq_some_iff.1 listed
    exact ⟨here, t, found, j, bound, rfl⟩

variable {t : Nat} {here : Mixing K} (found : states[t]? = some here)
include found

/-- The balance of a component at a time point is found at their positions. -/
theorem get?_materialFamily {components : ComponentSet} {j : Nat} {name : String} (listed : components.names[j]? = some name) :
    (materialFamily tray phases components states).get? (.timeComponent t j) =
      some ⟨s!"{tray}.material_mixing_equations[{t},{name}]", materialBody phases here name⟩ := by
  refine lookup_of_unique (mem_materialFamily.2 ⟨t, here, found, j, name, listed, rfl⟩) fun other inside => ?_
  obtain ⟨t', here', found', j', name', listed', same⟩ := mem_materialFamily.1 inside
  cases same
  rw [Option.some.inj (found.symm.trans found'), Option.some.inj (listed.symm.trans listed')]

/-- The enthalpy balance at a time point is found at its position. -/
theorem get?_enthalpyFamily {heatDuty : Option VarId} :
    (enthalpyFamily tray phases heatDuty states).get? (.time t) =
      some ⟨s!"{tray}.enthalpy_mixing_equations[{t}]", enthalpyBody phases heatDuty here⟩ :=
  lookup_mapIdx (fun _ _ => EquationIndex.time.inj) _ found

/-- The equation of the outlet pressure at a time point is found at its position. -/
theorem get?_pressureFamily {pressureDrop : Option VarId} :
    (pressureFamily tray pressureDrop states).get? (.time t) =
      some (.equality s!"{tray}.pressure_drop_equation[{t}]" (.var here.outlet.pressure)
        (outletPressure pressureDrop here)) :=
  lookup_mapIdx (fun _ _ => EquationIndex.time.inj) _ found

end Families

end Balances

theorem IdealState.bodies_equilibriumFamily {package : IdealPackage K} {reference : K} {state : IdealState K}
    (accepted : package.checkFactors = .ok ()) (fits : state.Fits package reference) (t : Nat) :
    (state.equilibriumFamily package.equilibrium t).constraints.map (·.body) =
      state.equilibriumBodies package.equilibrium := by
  have count : state.components.length = (state.equilibriumBodies package.equilibrium).length := by
    rw [length_equilibriumBodies accepted fits, fits.count]
  rw [Family.constraints, List.map_map]
  refine (map_mapIdx _ _ Prod.snd (fun _ _ => by rfl) _).trans ?_
  exact List.map_snd_zip (Nat.le_of_eq count.symm)

/-- The equilibrium relation of a component is found at its position. -/
theorem IdealState.get?_equilibriumFamily {state : IdealState K} {relation : Equilibrium K} {t j : Nat}
    {c : ComponentFlows K} {body : Expr K} (component : state.components[j]? = some c)
    (found : (state.equilibriumBodies relation)[j]? = some body) :
    (state.equilibriumFamily relation t).get? (.timeComponent t j) =
      some ⟨s!"{state.label}.equilibrium_constraint[{t},{c.data.name}]", body⟩ := by
  have apart : Function.Injective (EquationIndex.timeComponent t) := fun _ _ same => (EquationIndex.timeComponent.inj same).2
  have pair : (state.components.zip (state.equilibriumBodies relation))[j]? = some (c, body) := by
    rw [List.getElem?_zip_eq_some]
    exact ⟨component, found⟩
  exact lookup_mapIdx apart (fun j entry => (⟨s!"{state.label}.equilibrium_constraint[{t},{entry.1.data.name}]",
    entry.2⟩ : Constraint K)) pair

namespace Tray

variable {package : IdealPackage K} {tray : Tray K} {points : List (IdealPoint K)}

/-- The equation of the outlet pressure at one time point. -/
def pressureBody (tray : Tray K) (point : IdealPoint K) : Expr K :=
  .var point.outlet.pressure - Balances.outletPressure tray.balances.pressureDrop point.toMixing

/-- The residuals of a stage at one time point. -/
def bodiesAt (package : IdealPackage K) (tray : Tray K) (stage : Stage) (point : IdealPoint K) :
    List (Expr K) :=
  package.componentSet.names.map (Balances.materialBody Phase.both point.toMixing) ++
    ((if stage.energy then [Balances.enthalpyBody Phase.both tray.balances.heatDuty point.toMixing] else []) ++
      ((if stage.pressure then [tray.pressureBody point] else []) ++
        point.outlet.equilibriumBodies package.equilibrium))

/-- What the equations of a time point refer to besides its outlet. -/
def incoming {K : Type} (tray : Tray K) (point : IdealPoint K) : List VarId :=
  point.inlets.flatMap (fun state => state.flows ++ [state.temperature]) ++
    (point.vapor.pressure :: (tray.balances.heatDuty.toList ++ tray.balances.pressureDrop.toList))

theorem mem_incoming {K : Type} {tray : Tray K} {point : IdealPoint K} {v : VarId} : v ∈ tray.incoming point ↔
    (∃ state ∈ point.inlets, v ∈ state.flows ∨ v = state.temperature) ∨ v = point.vapor.pressure ∨
      v ∈ tray.balances.heatDuty ∨ v ∈ tray.balances.pressureDrop := by
  simp [incoming]

/-- An equation refers to one level of the outlet at most, and then to one that its stage solves for. -/
theorem exists_level {stage : Stage} {point : IdealPoint K} {body : Expr K}
    (listed : body ∈ bodiesAt package tray stage point) :
    ∃ level, ∀ v ∈ body.vars, v ∈ tray.incoming point ∨ v ∈ point.outlet.flows ∨
      v = level ∧ (stage.energy = true ∧ level = point.outlet.temperature ∨
        stage.pressure = true ∧ level = point.outlet.pressure) := by
  have flow : ∀ state ∈ point.states, ∀ v ∈ state.flows, v ∈ tray.incoming point ∨ v ∈ point.outlet.flows := by
    intro state present v own
    rcases List.mem_append.1 present with entering | leaving
    · exact .inl (mem_incoming.2 (.inl ⟨state, entering, .inl own⟩))
    · rw [List.mem_singleton.1 leaving] at own
      exact .inr own
  simp only [bodiesAt, List.mem_append, List.mem_map] at listed
  rcases listed with ⟨name, _, rfl⟩ | listed | listed | listed
  · refine ⟨point.outlet.temperature, fun v occurs => ?_⟩
    obtain ⟨state, present, p, c, found, rfl⟩ := Balances.mem_vars_materialBody.1 occurs
    rcases flow state present _ (IdealState.flow_mem_flows_of_component? found p) with hit | hit
    · exact .inl hit
    · exact .inr (.inl hit)
  · split at listed
    · rename_i energy
      refine ⟨point.outlet.temperature, fun v occurs => ?_⟩
      rw [List.mem_singleton.1 listed] at occurs
      rcases Balances.mem_vars_enthalpyBody.1 occurs with ⟨state, present, p, c, own, rfl | rfl⟩ | duty
      · rcases flow state present _ (IdealState.flow_mem_flows own p) with hit | hit
        · exact .inl hit
        · exact .inr (.inl hit)
      · rcases List.mem_append.1 present with entering | leaving
        · exact .inl (mem_incoming.2 (.inl ⟨state, entering, .inr rfl⟩))
        · rw [List.mem_singleton.1 leaving]
          exact .inr (.inr ⟨rfl, .inl ⟨energy, rfl⟩⟩)
      · exact .inl (mem_incoming.2 (.inr (.inr (.inl duty))))
    · simp at listed
  · split at listed
    · rename_i pressure
      refine ⟨point.outlet.pressure, fun v occurs => ?_⟩
      rw [List.mem_singleton.1 listed, pressureBody, Expr.mem_vars_sub, Expr.vars_var, List.mem_singleton,
        Balances.mem_vars_outletPressure] at occurs
      rcases occurs with rfl | rfl | drop
      · exact .inr (.inr ⟨rfl, .inr ⟨pressure, rfl⟩⟩)
      · exact .inl (mem_incoming.2 (.inr (.inl rfl)))
      · exact .inl (mem_incoming.2 (.inr (.inr (.inr drop))))
    · simp at listed
  · exact ⟨point.outlet.temperature, fun v occurs =>
      .inr (.inl (IdealState.mem_flows_of_equilibrium listed occurs))⟩

namespace Anatomy

variable (anatomy : Anatomy package tray points)
include anatomy

theorem equations_eq (stage : Stage) : (tray.equipped stage).toModel.equations =
    (Balances.materialFamily tray.name Phase.both package.componentSet tray.mixings).constraints ++
      ((if stage.energy then
        (Balances.enthalpyFamily tray.name Phase.both tray.balances.heatDuty tray.mixings).constraints else []) ++
      ((if stage.pressure then
        (Balances.pressureFamily tray.name tray.balances.pressureDrop tray.mixings).constraints else []) ++
      (points.mapIdx fun t point => point.outlet.equilibriumFamily package.equilibrium t).flatMap
        (·.constraints))) := by
  have own : ((points.mapIdx fun t point => point.outlet.equilibriumFamily package.equilibrium t).map
      fun family => { family with active := stage.runs family.name }).filter (·.active) =
      points.mapIdx fun t point => point.outlet.equilibriumFamily package.equilibrium t := by
    rw [List.filter_eq_self.2]
    · refine (List.map_congr_left fun family inside => ?_).trans (List.map_id _)
      obtain ⟨t, _, rfl⟩ := List.mem_mapIdx.1 inside
      rfl
    · intro family inside
      obtain ⟨_, listed, rfl⟩ := List.mem_map.1 inside
      obtain ⟨t, _, rfl⟩ := List.mem_mapIdx.1 listed
      rfl
  have families : (tray.equipped stage).toModel.families = _ := anatomy.equipped_families stage
  rw [Model.equations, families, anatomy.families_eq, List.map_append, List.filter_append, own]
  cases stage <;> rfl

/-- Read by time point, the equations of a stage are the residuals of its points. -/
theorem bodies_perm (stage : Stage) : ((tray.equipped stage).toModel.equations.map (·.body)).Perm
    (points.flatMap (bodiesAt package tray stage)) := by
  have equilibrium : ((points.mapIdx fun t point => point.outlet.equilibriumFamily package.equilibrium t).flatMap
      (·.constraints)).map (·.body) = points.flatMap fun point =>
        point.outlet.equilibriumBodies package.equilibrium := by
    have each : ∀ entry ∈ points.zipIdx,
        (entry.1.outlet.equilibriumFamily package.equilibrium entry.2).constraints.map (·.body) =
          entry.1.outlet.equilibriumBodies package.equilibrium := fun entry inside =>
      IdealState.bodies_equilibriumFamily anatomy.factors
        (anatomy.fits entry.1 (List.fst_mem_of_mem_zipIdx inside) _ entry.1.outlet_mem) entry.2
    rw [List.map_flatMap, List.mapIdx_eq_zipIdx_map, List.flatMap_map]
    exact (List.flatMap_congr each).trans (flatMap_zipIdx (·.outlet.equilibriumBodies package.equilibrium) points)
  rw [anatomy.equations_eq, List.map_append, List.map_append, List.map_append, equilibrium,
    Balances.bodies_materialFamily, apply_ite (List.map _), apply_ite (List.map _),
    Balances.bodies_enthalpyFamily, Balances.bodies_pressureFamily, anatomy.mixings_eq, List.flatMap_map,
    List.map_map, List.map_map, List.map_nil, map_if, map_if]
  exact flatMap_four_perm _ _ _ _ points

theorem forall_equations (P : Expr K → Prop) (stage : Stage) :
    (∀ c ∈ (tray.equipped stage).toModel.equations, P c.body) ↔
      ∀ point ∈ points, ∀ body ∈ bodiesAt package tray stage point, P body := by
  have bodies := fun body => (anatomy.bodies_perm stage).mem_iff (a := body)
  simp only [List.mem_map, List.mem_flatMap] at bodies
  constructor
  · intro each point inside body listed
    obtain ⟨c, among, rfl⟩ := (bodies body).2 ⟨point, inside, listed⟩
    exact each c among
  · intro each c among
    obtain ⟨point, inside, listed⟩ := (bodies c.body).1 ⟨c, among, rfl⟩
    exact each point inside c.body listed

theorem exists_equation (P : Expr K → Prop) (stage : Stage) :
    (∃ c ∈ (tray.equipped stage).toModel.equations, P c.body) ↔
      ∃ point ∈ points, ∃ body ∈ bodiesAt package tray stage point, P body := by
  have none := not_congr (anatomy.forall_equations (fun body => ¬P body) stage)
  push Not at none
  exact none

/-- Read by family, the equations of a tray with all balances switched on are the residuals of its points. -/
theorem forall_families (P : Expr K → Prop) :
    (∀ family ∈ tray.families, ∀ c ∈ family.constraints, P c.body) ↔
      ∀ point ∈ points, ∀ body ∈ bodiesAt package tray .full point, P body := by
  have equations : (tray.equipped .full).toModel.equations = tray.families.flatMap (·.constraints) := by
    rw [anatomy.equipped_full]
    exact Model.equations_of_active fun _ listed => anatomy.active listed
  rw [← anatomy.forall_equations P, equations, List.forall_mem_flatMap]

end Anatomy

end Tray

end Distillation
