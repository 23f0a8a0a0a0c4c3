import Mathlib.Data.List.Nodup
import Mathlib.Data.List.Perm.Basic
import Distillation.Proofs.Tray.Anatomy

namespace Distillation

variable {K : Type}

namespace TrayStates

/-- The flow variables of all inlets. -/
def inletFlows (states : TrayStates K) : List VarId :=
  states.inlets.flatMap (·.flows)

end TrayStates

namespace Tray

/-- The inlet states at all time points, stream by stream. -/
def inlets (tray : Tray K) : List (PropertyState K) :=
  tray.feeds ++ tray.liquids ++ tray.vapors

/-- What the tray is given: the inlets and its equipment. -/
def given (tray : Tray K) : List VarId :=
  tray.inlets.flatMap (·.vars) ++ tray.balances.heatDuty.toList ++ tray.balances.pressureDrop.toList ++
    tray.splits

def outletFlows (tray : Tray K) : List VarId :=
  tray.outlets.flatMap (·.flows)

def outletTemperatures (tray : Tray K) : List VarId :=
  tray.outlets.map (·.temperature)

def outletPressures (tray : Tray K) : List VarId :=
  tray.outlets.map (·.pressure)

/-- The variables of a tray, each in its place. -/
def sorted (tray : Tray K) : List VarId :=
  tray.given ++ (tray.outletFlows ++ (tray.outletTemperatures ++ tray.outletPressures))

theorem streams_subset (tray : Tray K) : tray.feeds ⊆ tray.states ∧ tray.liquids ⊆ tray.states ∧
    tray.vapors ⊆ tray.states ∧ tray.outlets ⊆ tray.states := by
  refine ⟨?_, ?_, ?_, ?_⟩ <;> intro state inside <;> simp [states, inside]

/-- Where all variables are different, so are those of all states. -/
theorem stateVars_nodup {tray : Tray K} (distinct : tray.declared.Nodup) : (tray.states.flatMap (·.vars)).Nodup := by
  rw [declared, List.append_assoc, List.append_assoc] at distinct
  exact (List.nodup_append.1 distinct).1

theorem mem_given_of_inlets {tray : Tray K} {state : PropertyState K} (among : state ∈ tray.inlets) {v : VarId}
    (own : v ∈ state.vars) : v ∈ tray.given := by
  simp only [given, List.mem_append, List.mem_flatMap]
  exact .inl (.inl (.inl ⟨state, among, own⟩))

/-- Variables of states that are made of flows, a temperature and a pressure may be taken state by state, or
sorted by what they say. -/
theorem streams_perm {states : List (PropertyState K)}
    (each : ∀ state ∈ states, state.vars = state.flows ++ [state.temperature, state.pressure]) :
    (states.flatMap (·.flows) ++ (states.map (·.temperature) ++ states.map (·.pressure))).Perm
      (states.flatMap (·.vars)) := by
  have levels : (states.map (·.temperature) ++ states.map (·.pressure)).Perm
      (states.flatMap fun state => [state.temperature, state.pressure]) := by
    have pairs := List.map_append_flatMap_perm states (·.temperature) fun state => [state.pressure]
    simpa [List.map_eq_flatMap] using pairs
  rw [List.flatMap_congr each]
  exact (levels.append_left _).trans (List.flatMap_append_perm states (·.flows)
    fun state => [state.temperature, state.pressure])

variable [Scalar K] {package : IdealPackage K} {tray : Tray K} {points : List (IdealPoint K)}

namespace Anatomy

variable (anatomy : Anatomy package tray points)
include anatomy

theorem mem_inlets {state : PropertyState K} :
    state ∈ tray.inlets ↔ ∃ point ∈ points, ∃ ideal ∈ point.inlets, state = ideal.toState := by
  simp only [Tray.inlets, Tray.feeds, Tray.liquids, Tray.vapors, anatomy.points_eq, List.filterMap_map,
    List.map_map, List.mem_append, List.mem_filterMap, List.mem_map, IdealPoint.inlets, Function.comp,
    IdealPoint.toStates, Option.map_eq_some_iff, Option.mem_toList, List.mem_pair]
  grind

/-- The states of a tray are the ideal ones of its time points. -/
theorem mem_states {state : PropertyState K} :
    state ∈ tray.states ↔ ∃ point ∈ points, ∃ ideal ∈ point.states, state = ideal.toState := by
  have divided : state ∈ tray.states ↔ state ∈ tray.inlets ∨ state ∈ tray.outlets := List.mem_append
  rw [divided, anatomy.mem_inlets, anatomy.outlets_eq, List.mem_map]
  constructor
  · rintro (⟨point, inside, ideal, entering, rfl⟩ | ⟨point, inside, rfl⟩)
    · exact ⟨point, inside, ideal, IdealPoint.mem_states_of_inlet entering, rfl⟩
    · exact ⟨point, inside, point.outlet, point.outlet_mem, rfl⟩
  · rintro ⟨point, inside, ideal, present, rfl⟩
    rcases List.mem_append.1 present with entering | leaving
    · exact .inl ⟨point, inside, ideal, entering, rfl⟩
    · exact .inr ⟨point, inside, List.mem_singleton.1 leaving ▸ rfl⟩

theorem exists_ideal {state : PropertyState K} (among : state ∈ tray.states) :
    ∃ ideal : IdealState K, state = ideal.toState := by
  obtain ⟨_, _, ideal, _, same⟩ := anatomy.mem_states.1 among
  exact ⟨ideal, same⟩

theorem levels_mem_vars {state : PropertyState K} (among : state ∈ tray.inlets) :
    state.temperature ∈ state.vars ∧ state.pressure ∈ state.vars := by
  obtain ⟨_, _, ideal, _, rfl⟩ := anatomy.mem_inlets.1 among
  exact ⟨IdealState.temperature_mem_vars _, IdealState.pressure_mem_vars _⟩

theorem mem_inlets_of {point : IdealPoint K} (inside : point ∈ points) {ideal : IdealState K}
    (entering : ideal ∈ point.inlets) : ideal.toState ∈ tray.inlets :=
  anatomy.mem_inlets.2 ⟨point, inside, ideal, entering, rfl⟩

theorem mem_outlets_of {point : IdealPoint K} (inside : point ∈ points) :
    point.outlet.toState ∈ tray.outlets := by
  rw [anatomy.outlets_eq]
  exact List.mem_map_of_mem inside

theorem outletTemperatures_eq : tray.outletTemperatures = points.map (·.outlet.temperature) := by
  rw [Tray.outletTemperatures, anatomy.outlets_eq, List.map_map]
  rfl

theorem outletPressures_eq : tray.outletPressures = points.map (·.outlet.pressure) := by
  rw [Tray.outletPressures, anatomy.outlets_eq, List.map_map]
  rfl

theorem outlet_perm (distinct : (points.flatMap (·.outlet.vars)).Nodup) :
    (tray.outletFlows ++ (tray.outletTemperatures ++ tray.outletPressures)).Perm
      (points.flatMap (·.outlet.vars)) := by
  have opened : tray.outlets.flatMap (·.vars) = points.flatMap (·.outlet.vars) := by
    rw [anatomy.outlets_eq, List.flatMap_map]
    rfl
  rw [← opened] at distinct ⊢
  refine streams_perm fun state among => ?_
  have own := (List.nodup_flatMap.1 distinct).1 state among
  rw [anatomy.outlets_eq] at among
  obtain ⟨point, _, rfl⟩ := List.mem_map.1 among
  exact IdealState.toState_vars own

/-- Where all variables are different, sorting them loses none. -/
theorem sorted_perm (distinct : tray.declared.Nodup) : tray.sorted.Perm tray.declared := by
  have opened : tray.declared = tray.inlets.flatMap (·.vars) ++ (points.flatMap (·.outlet.vars) ++
      (tray.balances.heatDuty.toList ++ (tray.balances.pressureDrop.toList ++ tray.splits))) := by
    simp [Tray.declared, Tray.states, Tray.inlets, anatomy.outlets_eq, List.flatMap_map,
      IdealState.toState, List.append_assoc]
  rw [opened] at distinct ⊢
  have outletDistinct := (List.nodup_append.1 (List.nodup_append.1 distinct).2.1).1
  rw [Tray.sorted, Tray.given, List.append_assoc, List.append_assoc, List.append_assoc]
  refine List.Perm.append_left _ (List.Perm.trans ?_ List.perm_append_comm)
  simpa [List.append_assoc] using (anatomy.outlet_perm outletDistinct).append_left
    (tray.balances.heatDuty.toList ++ (tray.balances.pressureDrop.toList ++ tray.splits))

theorem mem_states_of {point : IdealPoint K} (inside : point ∈ points) {ideal : IdealState K}
    (present : ideal ∈ point.states) : ideal.toState ∈ tray.states :=
  anatomy.mem_states.2 ⟨point, inside, ideal, present, rfl⟩

end Anatomy

/-- The tray as it stands in a store that knows all its variables. -/
structure Placed (package : IdealPackage K) (tray : Tray K) (points : List (IdealPoint K)) (s : Store K) :
    Prop where
  anatomy : Anatomy package tray points
  distinct : tray.declared.Nodup
  known : ∀ v ∈ tray.sorted, v < s.size

/-- A tray that was built stands in every store that has come out of the build. -/
theorem exists_placed {name : String} {config : TrayConfig K} {time : TimeSet K} {s₀ s₁ s : Store K}
    (built : (build name config package.toPackage time).on s₀ = (.ok tray, s₁)) (later : s₁.Continues s) :
    ∃ points, Placed package tray points s := by
  obtain ⟨_, grown, points, anatomy⟩ := build_eq_ok built
  refine ⟨points, anatomy, grown.nodup, fun v inside => ?_⟩
  have bound := (grown.mem_iff.1 ((anatomy.sorted_perm grown.nodup).mem_iff.1 inside)).2
  exact Nat.lt_of_lt_of_le bound later.size_le

namespace Placed

variable {s : Store K} (placed : Placed package tray points s)
include placed

theorem later {t : Store K} (later : s.Continues t) : Placed package tray points t :=
  ⟨placed.anatomy, placed.distinct, fun v listed => Nat.lt_of_lt_of_le (placed.known v listed) later.size_le⟩

theorem sorted_nodup : tray.sorted.Nodup :=
  (placed.anatomy.sorted_perm placed.distinct).nodup_iff.2 placed.distinct

theorem outlet_nodup : (tray.outletFlows ++ (tray.outletTemperatures ++ tray.outletPressures)).Nodup :=
  (List.nodup_append.1 placed.sorted_nodup).2.1

theorem vars_nodup {point : IdealPoint K} (inside : point ∈ points) {state : IdealState K}
    (present : state ∈ point.states) : state.vars.Nodup := by
  have streams := stateVars_nodup placed.distinct
  exact (List.nodup_flatMap.1 streams).1 state.toState (placed.anatomy.mem_states_of inside present)

theorem flows_eq {point : IdealPoint K} (inside : point ∈ points) {state : IdealState K}
    (present : state ∈ point.states) : state.toState.flows = state.flows :=
  IdealState.toState_flows (placed.vars_nodup inside present)

theorem mem_outletFlows {v : VarId} : v ∈ tray.outletFlows ↔ ∃ point ∈ points, v ∈ point.outlet.flows := by
  rw [outletFlows, placed.anatomy.outlets_eq, List.flatMap_map, List.mem_flatMap]
  constructor
  · rintro ⟨point, inside, flow⟩
    exact ⟨point, inside, placed.flows_eq inside (List.mem_append_right _ (List.mem_singleton.2 rfl)) ▸ flow⟩
  · rintro ⟨point, inside, flow⟩
    exact ⟨point, inside, placed.flows_eq inside (List.mem_append_right _ (List.mem_singleton.2 rfl)) ▸ flow⟩

/-- What the tray is given is no variable of its outlet. -/
theorem not_outlet_of_given {v : VarId} (inside : v ∈ tray.given) :
    v ∉ tray.outletFlows ∧ v ∉ tray.outletTemperatures ∧ v ∉ tray.outletPressures := by
  have apart := (List.nodup_append.1 placed.sorted_nodup).2.2 v inside
  simp only [List.mem_append] at apart
  exact ⟨fun flow => apart v (.inl flow) rfl, fun level => apart v (.inr (.inl level)) rfl,
    fun level => apart v (.inr (.inr level)) rfl⟩

theorem temperature_apart {v : VarId} (level : v ∈ tray.outletTemperatures) :
    v ∉ tray.outletFlows ∧ v ∉ tray.outletPressures := by
  have flows := (List.nodup_append.1 placed.outlet_nodup).2.2
  have levels := (List.nodup_append.1 (List.nodup_append.1 placed.outlet_nodup).2.1).2.2
  exact ⟨fun flow => flows v flow v (List.mem_append_left _ level) rfl, fun other => levels v level v other rfl⟩

theorem pressure_apart {v : VarId} (level : v ∈ tray.outletPressures) :
    v ∉ tray.outletFlows ∧ v ∉ tray.outletTemperatures := by
  have flows := (List.nodup_append.1 placed.outlet_nodup).2.2
  exact ⟨fun flow => flows v flow v (List.mem_append_right _ level) rfl,
    fun other => (placed.temperature_apart other).2 level⟩

theorem mem_given_of_inlet {point : IdealPoint K} (inside : point ∈ points) {state : IdealState K}
    (entering : state ∈ point.inlets) {v : VarId} (own : v ∈ state.vars) : v ∈ tray.given :=
  mem_given_of_inlets (placed.anatomy.mem_inlets_of inside entering) own

end Placed

end Tray

end Distillation
