import Distillation.Proofs.Tray.Equations
import Distillation.Proofs.Tray.Protocol

namespace Distillation.Tray

variable {σ K : Type}

/-- What has to be fixed and what has to be free before a start-up. The levels of the outlet may be
either. -/
structure Specified (tray : Tray K) (s : Store K) : Prop where
  inletFlows : ∀ state ∈ tray.inlets, ∀ v ∈ state.flows, s.isFixed v = true
  inletTemperatures : ∀ state ∈ tray.inlets, s.isFixed state.temperature = true
  vaporPressures : ∀ state ∈ tray.vapors, s.isFixed state.pressure = true
  heatDuty : ∀ v ∈ tray.balances.heatDuty, s.isFixed v = true
  pressureDrop : ∀ v ∈ tray.balances.pressureDrop, s.isFixed v = true
  splits : ∀ v ∈ tray.splits, s.isFixed v = true
  outletFlows : ∀ state ∈ tray.outlets, ∀ v ∈ state.flows, s.isFixed v = false

/-- The variables that a stage solves for. -/
def unknownsAt (tray : Tray K) (stage : Stage) : List VarId :=
  tray.outletFlows ++ ((if stage.energy then tray.outletTemperatures else []) ++
    if stage.pressure then tray.outletPressures else [])

theorem mem_unknownsAt {tray : Tray K} {stage : Stage} {v : VarId} : v ∈ tray.unknownsAt stage ↔
    v ∈ tray.outletFlows ∨ (stage.energy = true ∧ v ∈ tray.outletTemperatures) ∨
      (stage.pressure = true ∧ v ∈ tray.outletPressures) := by
  cases energy : stage.energy <;> cases pressure : stage.pressure <;> simp [unknownsAt, energy, pressure]

variable [Scalar K] {package : IdealPackage K} {tray : Tray K} {points : List (IdealPoint K)}
  {base s : Store K} {stage : Stage} {v : VarId}

namespace Placed

variable (placed : Placed package tray points base)
include placed

theorem unknownsAt_nodup (stage : Stage) : (tray.unknownsAt stage).Nodup := by
  refine List.Sublist.nodup (List.Sublist.append_left (List.Sublist.append ?_ ?_) _) placed.outlet_nodup
  · split
    · exact List.Sublist.refl _
    · exact List.nil_sublist _
  · split
    · exact List.Sublist.refl _
    · exact List.nil_sublist _

theorem known_unknownsAt (unknown : v ∈ tray.unknownsAt stage) : v < base.size := by
  refine placed.known v (List.mem_append_right _ ?_)
  rcases mem_unknownsAt.1 unknown with flow | ⟨_, level⟩ | ⟨_, level⟩
  · exact List.mem_append_left _ flow
  · exact List.mem_append_right _ (List.mem_append_left _ level)
  · exact List.mem_append_right _ (List.mem_append_right _ level)

theorem length_outletFlows : tray.outletFlows.length = points.length * (2 * package.components.length) := by
  have each : ∀ point ∈ points, point.outlet.toState.flows.length = 2 * package.components.length := by
    intro point inside
    rw [placed.flows_eq inside point.outlet_mem, point.outlet.length_flows,
      (placed.anatomy.outlet_fits inside).count]
  rw [outletFlows, placed.anatomy.outlets_eq, List.flatMap_map, List.length_flatMap,
    List.map_congr_left each, List.map_const', List.sum_replicate_nat]

theorem length_unknownsAt (stage : Stage) : (tray.unknownsAt stage).length =
    points.length * (2 * package.components.length + (stage.energy.toNat + stage.pressure.toNat)) := by
  have temperatures : tray.outletTemperatures.length = points.length := by
    rw [placed.anatomy.outletTemperatures_eq, List.length_map]
  have pressures : tray.outletPressures.length = points.length := by
    rw [placed.anatomy.outletPressures_eq, List.length_map]
  rw [unknownsAt, List.length_append, List.length_append, placed.length_outletFlows, Nat.mul_add, Nat.mul_add]
  cases stage.energy <;> cases stage.pressure <;> simp [temperatures, pressures]

end Placed

/-- There are a material balance and an equilibrium relation for each component, and one equation for
each level. -/
theorem Anatomy.length_equations (anatomy : Anatomy package tray points) (distinct : package.Distinct)
    (stage : Stage) : (tray.equipped stage).toModel.equations.length =
      points.length * (2 * package.components.length + (stage.energy.toNat + stage.pressure.toNat)) := by
  have each : ∀ point ∈ points, (bodiesAt package tray stage point).length =
      2 * package.components.length + (stage.energy.toNat + stage.pressure.toNat) := by
    intro point inside
    have fits := anatomy.outlet_fits inside
    have relations := IdealState.length_equilibriumBodies anatomy.factors fits
    simp only [bodiesAt, List.length_append, List.length_map, distinct.componentSet_names, relations]
    cases stage.energy <;> cases stage.pressure <;> simp <;> omega
  have bodies := (anatomy.bodies_perm stage).length_eq
  rw [List.length_map, List.length_flatMap, List.map_congr_left each, List.map_const', List.sum_replicate_nat] at bodies
  exact bodies

section Occurrences

variable (placed : Placed package tray points base) (specified : tray.Specified base)
include placed

theorem Placed.given_of_incoming {point : IdealPoint K} (inside : point ∈ points) (entering : v ∈ tray.incoming point) :
    v ∈ tray.given := by
  rcases mem_incoming.1 entering with ⟨state, present, own | rfl⟩ | rfl | duty | drop
  · exact placed.mem_given_of_inlet inside present (IdealState.mem_vars_of_flow own)
  · exact placed.mem_given_of_inlet inside present state.temperature_mem_vars
  · exact placed.mem_given_of_inlet inside point.vapor_mem point.vapor.pressure_mem_vars
  · simp [given, Option.mem_def.1 duty]
  · simp [given, Option.mem_def.1 drop]

include specified

theorem Placed.fixed_of_incoming {point : IdealPoint K} (inside : point ∈ points) (entering : v ∈ tray.incoming point) :
    base.isFixed v = true := by
  rcases mem_incoming.1 entering with ⟨state, present, own | rfl⟩ | rfl | duty | drop
  · rw [← placed.flows_eq inside (IdealPoint.mem_states_of_inlet present)] at own
    exact specified.inletFlows _ (placed.anatomy.mem_inlets_of inside present) v own
  · exact specified.inletTemperatures _ (placed.anatomy.mem_inlets_of inside present)
  · refine specified.vaporPressures point.vapor.toState ?_
    rw [vapors, placed.anatomy.points_eq, List.map_map]
    exact List.mem_map_of_mem inside
  · exact specified.heatDuty v duty
  · exact specified.pressureDrop v drop

/-- A variable of an equation is one of the stage's unknowns, or given and fixed. -/
theorem Placed.occurs {point : IdealPoint K} (inside : point ∈ points) {body : Expr K}
    (listed : body ∈ bodiesAt package tray stage point) (occurs : v ∈ body.vars) :
    v ∈ tray.unknownsAt stage ∨ v ∈ tray.given ∧ base.isFixed v = true := by
  obtain ⟨level, each⟩ := exists_level listed
  have own : point.outlet.toState ∈ tray.outlets := placed.anatomy.mem_outlets_of inside
  rcases each v occurs with entering | leaving | ⟨rfl, ⟨energy, rfl⟩ | ⟨pressure, rfl⟩⟩
  · exact .inr ⟨placed.given_of_incoming inside entering, placed.fixed_of_incoming specified inside entering⟩
  · exact .inl (mem_unknownsAt.2 (.inl (placed.mem_outletFlows.2 ⟨point, inside, leaving⟩)))
  · exact .inl (mem_unknownsAt.2 (.inr (.inl ⟨energy, List.mem_map_of_mem own⟩)))
  · exact .inl (mem_unknownsAt.2 (.inr (.inr ⟨pressure, List.mem_map_of_mem own⟩)))

end Occurrences

section Occurrences

variable (anatomy : Anatomy package tray points) {point : IdealPoint K} (inside : point ∈ points) {state : IdealState K}
  (present : state ∈ point.states)
include anatomy inside present

/-- Every flow occurs in a material balance. -/
theorem Anatomy.flow_occurs (distinct : package.Distinct) (stage : Stage) (own : v ∈ state.flows) :
    ∃ body ∈ bodiesAt package tray stage point, v ∈ body.vars := by
  obtain ⟨c, among, p, rfl⟩ := IdealState.mem_flows.1 own
  have fits := anatomy.fits point inside state present
  refine ⟨Balances.materialBody Phase.both point.toMixing c.data.name, ?_,
    Balances.mem_vars_materialBody.2 ⟨state, present, p, c, fits.component?_of_mem distinct among, rfl⟩⟩
  exact List.mem_append_left _ (List.mem_map_of_mem (fits.name_mem among))

/-- Where the energy balance takes part, every temperature occurs in it. -/
theorem Anatomy.temperature_occurs (nonempty : package.components ≠ []) (energy : stage.energy = true) :
    ∃ body ∈ bodiesAt package tray stage point, state.temperature ∈ body.vars := by
  have count := (anatomy.fits point inside state present).count
  obtain ⟨c, among⟩ := List.exists_mem_of_length_pos (count ▸ List.length_pos_iff.2 nonempty)
  refine ⟨Balances.enthalpyBody Phase.both tray.balances.heatDuty point.toMixing, ?_,
    Balances.mem_vars_enthalpyBody.2 (.inl ⟨state, present, .liquid, c, among, .inr rfl⟩)⟩
  simp [bodiesAt, energy]

end Occurrences

section Freedom

variable (placed : Placed package tray points base) (specified : tray.Specified base)
  (nonempty : package.components ≠ []) (distinct : package.Distinct)
include placed nonempty distinct

/-- Every unknown of a stage occurs in one of its equations. -/
theorem Placed.exists_occurrence (unknown : v ∈ tray.unknownsAt stage) :
    ∃ point ∈ points, ∃ body ∈ bodiesAt package tray stage point, v ∈ body.vars := by
  rcases mem_unknownsAt.1 unknown with flow | ⟨energy, level⟩ | ⟨pressure, level⟩
  · obtain ⟨point, inside, own⟩ := placed.mem_outletFlows.1 flow
    exact ⟨point, inside, placed.anatomy.flow_occurs inside point.outlet_mem distinct stage own⟩
  · rw [placed.anatomy.outletTemperatures_eq] at level
    obtain ⟨point, inside, rfl⟩ := List.mem_map.1 level
    exact ⟨point, inside, placed.anatomy.temperature_occurs inside point.outlet_mem nonempty energy⟩
  · rw [placed.anatomy.outletPressures_eq] at level
    obtain ⟨point, inside, rfl⟩ := List.mem_map.1 level
    refine ⟨point, inside, tray.pressureBody point, by simp [bodiesAt, pressure], ?_⟩
    simp [pressureBody]

include specified

/-- With the flags of a stage, the unknowns of its equations are those that it is to solve for. -/
theorem Placed.unknowns_perm (flags : ∀ v, s.isFixed v = tray.heldAt base stage v) :
    ((tray.equipped stage).toModel.unknowns s).Perm (tray.unknownsAt stage) := by
  refine (List.perm_ext_iff_of_nodup (Model.unknowns_nodup _ s) (placed.unknownsAt_nodup stage)).2 fun v => ?_
  rw [Model.mem_unknowns, placed.anatomy.exists_equation (fun body => v ∈ body.vars), flags]
  constructor
  · rintro ⟨free, point, inside, body, listed, occurs⟩
    rcases placed.occurs specified inside listed occurs with unknown | ⟨known, fixed⟩
    · exact unknown
    · obtain ⟨_, temperature, pressure⟩ := placed.not_outlet_of_given known
      rw [heldAt, if_neg temperature, if_neg pressure, fixed] at free
      cases free
  · intro unknown
    refine ⟨?_, placed.exists_occurrence nonempty distinct unknown⟩
    rcases mem_unknownsAt.1 unknown with flow | ⟨energy, level⟩ | ⟨pressure, level⟩
    · have temperature : v ∉ tray.outletTemperatures := fun level => (placed.temperature_apart level).1 flow
      have pressure : v ∉ tray.outletPressures := fun level => (placed.pressure_apart level).1 flow
      rw [heldAt, if_neg temperature, if_neg pressure]
      obtain ⟨state, among, own⟩ := List.mem_flatMap.1 flow
      exact specified.outletFlows state among v own
    · rw [heldAt, if_pos level, energy]
      rfl
    · rw [heldAt, if_neg (placed.pressure_apart level).2, if_pos level, pressure]
      rfl

theorem Placed.length_equations_eq (flags : ∀ v, s.isFixed v = tray.heldAt base stage v) :
    (tray.equipped stage).toModel.equations.length = ((tray.equipped stage).toModel.unknowns s).length := by
  rw [(placed.unknowns_perm specified nonempty distinct flags).length_eq, placed.length_unknownsAt,
    placed.anatomy.length_equations distinct]

end Freedom

section Prepare

/-- Puts every variable of a tray at one and fixes all but the flows of the outlet. -/
def prepare (tray : Tray K) (s : Store K) : Store K :=
  tray.outletFlows.foldl Store.unfix (s.fixAll (tray.sorted.map fun v => (v, 1)))

theorem continues_prepare (tray : Tray K) (s : Store K) : s.Continues (tray.prepare s) := by
  unfold prepare
  have fixed := Store.Continues.fixAll (tray.sorted.map fun v => (v, 1)) s
  exact fixed.trans (Store.Continues.foldl Store.Continues.unfix tray.outletFlows _)

variable (placed : Placed package tray points s)
include placed

theorem Placed.isFixed_prepare (known : v ∈ tray.sorted) :
    (tray.prepare s).isFixed v = decide (v ∉ tray.outletFlows) := by
  have freed := Store.isFixed_foldl_unfix id tray.outletFlows (s.fixAll (tray.sorted.map fun v => (v, 1))) v
  have bound := placed.known v known
  rw [Store.isFixed_fixAll] at freed
  exact freed.trans (by simp [known, bound])

theorem Placed.value_prepare (known : v ∈ tray.sorted) : (tray.prepare s).value v = 1 := by
  have kept := Store.value_foldl_unfix id tray.outletFlows (s.fixAll (tray.sorted.map fun v => (v, 1))) v
  refine kept.trans (Store.value_fixAll_of_mem ?_ (by simpa using known) s (placed.known v known))
  simp

theorem Placed.isFixed_prepare_given (inside : v ∈ tray.given) : (tray.prepare s).isFixed v = true := by
  rw [placed.isFixed_prepare (List.mem_append_left _ inside)]
  simp [(placed.not_outlet_of_given inside).1]

theorem Placed.isFixed_prepare_outlet {state : PropertyState K} (among : state ∈ tray.outlets)
    (flow : v ∈ state.flows) : (tray.prepare s).isFixed v = false := by
  have listed : v ∈ tray.outletFlows := List.mem_flatMap.2 ⟨state, among, flow⟩
  rw [placed.isFixed_prepare (List.mem_append_right _ (List.mem_append_left _ listed))]
  simp [listed]

theorem Placed.specified_prepare : tray.Specified (tray.prepare s) := by
  have fixed := fun v => placed.isFixed_prepare_given (v := v)
  refine ⟨?_, ?_, ?_, ?_, ?_, ?_, fun state among v => placed.isFixed_prepare_outlet among⟩
  · exact fun state among v flow => fixed v (mem_given_of_inlets among (List.mem_filter.1 flow).1)
  · exact fun state among => fixed _ (mem_given_of_inlets among (placed.anatomy.levels_mem_vars among).1)
  · intro state among
    have entering : state ∈ tray.inlets := List.mem_append_right _ among
    exact fixed _ (mem_given_of_inlets entering (placed.anatomy.levels_mem_vars entering).2)
  · exact fun v duty => fixed v (by simp [given, Option.mem_def.1 duty])
  · exact fun v drop => fixed v (by simp [given, Option.mem_def.1 drop])
  · exact fun v split => fixed v (List.mem_append_right _ split)

end Prepare

/-- Whatever the solver does with the values, and also where it breaks off, it is never given a system
that is not square; and a start-up that completes has given it three. -/
theorem freedom_startUpCalls {name : String} {config : TrayConfig K} {time : TimeSet K} {s₀ s₁ : Store K}
    (built : (build name config package.toPackage time).on s₀ = (.ok tray, s₁)) (later : s₁.Continues s)
    (nonempty : package.components ≠ []) (distinct : package.Distinct) (specified : tray.Specified s)
    (args : StartupArgs K) {solver : Solver σ K} (keeps : solver.KeepsFlags) (memory : σ) :
    (∀ call ∈ startUpCalls args solver ⟨tray, memory, s⟩, call.model.freedom call.store = 0) ∧
      ∀ report after, startUp args solver ⟨tray, memory, s⟩ = (.completed report, after) →
        (startUpCalls args solver ⟨tray, memory, s⟩).length = 3 := by
  obtain ⟨points, placed⟩ := exists_placed built later
  refine ⟨fun call made => ?_, fun report after ran => ?_⟩
  · obtain ⟨base, guess, same, done, _, calls⟩ := placed.startUpCalls_at args keeps memory
    obtain ⟨stage, _, isAt⟩ := exists_left_of_forall₂ calls made
    have square := placed.length_equations_eq specified nonempty distinct fun v => by
      rw [isAt.flags v, heldAt, heldAt, same v]
    rw [Model.freedom, isAt.model, square, Int.sub_self]
  · obtain ⟨_, _, _, _, calls, _⟩ := placed.startUp_completed keeps ran
    exact calls.length_eq.symm

theorem freedom_startUpCalls_idle : ∃ (tray : Tray Float) (s : Store Float),
    (build "tray" ⟨true, true, true, true, true, .empty⟩ IdealPackage.benzeneToluene.toPackage .steady).on .empty =
      (.ok tray, s) ∧ s.Continues (tray.prepare s) ∧ tray.Specified (tray.prepare s) ∧
    (IdealPackage.benzeneToluene : IdealPackage Float).components ≠ [] ∧
    (IdealPackage.benzeneToluene : IdealPackage Float).Distinct ∧ (Solver.idle : Solver Unit Float).KeepsFlags ∧
    (startUpCalls ⟨[], [], [], 0⟩ Solver.idle ⟨tray, (), tray.prepare s⟩).length = 3 ∧
    ∀ call ∈ startUpCalls ⟨[], [], [], 0⟩ Solver.idle ⟨tray, (), tray.prepare s⟩,
      call.model.freedom call.store = 0 := by
  obtain ⟨tray, s, built⟩ : ∃ (tray : Tray Float) (s : Store Float),
      (build "tray" ⟨true, true, true, true, true, .empty⟩ IdealPackage.benzeneToluene.toPackage .steady).on .empty =
        (.ok tray, s) := ⟨_, _, rfl⟩
  have nonempty : (IdealPackage.benzeneToluene : IdealPackage Float).components ≠ [] := List.cons_ne_nil _ _
  have distinct : (IdealPackage.benzeneToluene : IdealPackage Float).Distinct := IdealPackage.benzeneToluene_distinct
  have keeps : (Solver.idle : Solver Unit Float).KeepsFlags := fun _ _ _ _ _ => rfl
  have later := continues_prepare tray s
  obtain ⟨points, placed⟩ := exists_placed built (.refl s)
  have specified := placed.specified_prepare
  obtain ⟨report, after, ran⟩ := startUp_completes (fun _ _ _ _ => rfl : (Solver.idle : Solver Unit Float).Answers)
    specified.splits (placed.anatomy.applyGuesses_nil 0 (tray.prepare s)) ()
  obtain ⟨square, three⟩ := freedom_startUpCalls built later nonempty distinct specified ⟨[], [], [], 0⟩ keeps ()
  exact ⟨tray, s, built, later, specified, nonempty, distinct, keeps, three report after ran, square⟩

end Distillation.Tray
