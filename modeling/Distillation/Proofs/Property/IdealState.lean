import Distillation.Property.Ideal
import Distillation.Proofs.Store.Growth

namespace Distillation

variable {K : Type}

/-- The flow variables of a state: all that define it but temperature and pressure. -/
def PropertyState.flows (state : PropertyState K) : List VarId :=
  state.vars.filter fun v => v ≠ state.temperature ∧ v ≠ state.pressure

namespace IdealState

/-- The state is one of a package, with a reference temperature. -/
structure Fits (package : IdealPackage K) (reference : K) (state : IdealState K) : Prop where
  data : state.components.map (·.data) = package.components
  portMembers : state.portMembers = package.portMembers
  reference : state.referenceTemperature = reference

/-- The flow variables, those of the liquid first. -/
def flows (state : IdealState K) : List VarId :=
  state.components.map (·.liquid) ++ state.components.map (·.vapor)

theorem vars_eq (state : IdealState K) :
    state.vars = state.flows ++ [state.temperature, state.pressure] := rfl

theorem mem_flows {state : IdealState K} {v : VarId} :
    v ∈ state.flows ↔ ∃ c ∈ state.components, ∃ p, v = c.flow p := by
  simp only [flows, List.mem_append, List.mem_map]
  constructor
  · rintro (⟨c, inside, rfl⟩ | ⟨c, inside, rfl⟩)
    · exact ⟨c, inside, .liquid, rfl⟩
    · exact ⟨c, inside, .vapor, rfl⟩
  · rintro ⟨c, inside, p, rfl⟩
    cases p with
    | liquid => exact .inl ⟨c, inside, rfl⟩
    | vapor => exact .inr ⟨c, inside, rfl⟩

theorem mem_vars {state : IdealState K} {v : VarId} :
    v ∈ state.vars ↔ v ∈ state.flows ∨ v = state.temperature ∨ v = state.pressure := by
  rw [vars_eq, List.mem_append, List.mem_pair]

theorem flow_mem_flows {state : IdealState K} {c : ComponentFlows K} (inside : c ∈ state.components) (p : Phase) :
    c.flow p ∈ state.flows :=
  mem_flows.2 ⟨c, inside, p, rfl⟩

theorem mem_vars_of_flow {state : IdealState K} {v : VarId} (flow : v ∈ state.flows) : v ∈ state.vars :=
  mem_vars.2 (.inl flow)

theorem temperature_mem_vars (state : IdealState K) : state.temperature ∈ state.vars :=
  mem_vars.2 (.inr (.inl rfl))

theorem pressure_mem_vars (state : IdealState K) : state.pressure ∈ state.vars :=
  mem_vars.2 (.inr (.inr rfl))

theorem toState_flows [Scalar K] {state : IdealState K} (distinct : state.vars.Nodup) :
    state.toState.flows = state.flows := by
  have apart := List.nodup_append.1 distinct
  change (state.flows ++ [state.temperature, state.pressure]).filter _ = _
  rw [List.filter_append, List.filter_eq_self.2, List.filter_eq_nil_iff.2, List.append_nil]
  · simp [toState]
  · intro v inside
    have temperature := apart.2.2 v inside state.temperature (by simp)
    have pressure := apart.2.2 v inside state.pressure (by simp)
    simp [toState, temperature, pressure]

theorem toState_vars [Scalar K] {state : IdealState K} (distinct : state.vars.Nodup) :
    state.toState.vars = state.toState.flows ++ [state.temperature, state.pressure] := by
  rw [toState_flows distinct]
  exact state.vars_eq

end IdealState

/-- The components of a state, put together from the package and two lists of variables. -/
theorem zipWith_componentFlows (data : List (ComponentData K)) :
    ∀ liquid vapor : List VarId, liquid.length = data.length → vapor.length = data.length →
      let components := List.zipWith (fun data (l, v) => ComponentFlows.mk data l v) data (liquid.zip vapor)
      components.map (·.data) = data ∧ components.map (·.liquid) = liquid ∧
        components.map (·.vapor) = vapor := by
  induction data with
  | nil =>
    intro liquid vapor noLiquid noVapor
    simp [List.length_eq_zero_iff.1 noLiquid, List.length_eq_zero_iff.1 noVapor]
  | cons first rest ih =>
    intro liquid vapor liquidLength vaporLength
    obtain ⟨l, liquid, rfl⟩ := List.exists_cons_of_length_eq_add_one liquidLength
    obtain ⟨v, vapor, rfl⟩ := List.exists_cons_of_length_eq_add_one vaporLength
    have later := ih liquid vapor (by simpa using liquidLength) (by simpa using vaporLength)
    simpa using later

namespace IdealPackage

/-- A mixture of two components to try things on. -/
def benzeneToluene [Scalar K] : IdealPackage K :=
  .ofComponents [⟨"benzene", 135.0, 82.0, 30720.0⟩, ⟨"toluene", 157.0, 104.0, 33180.0⟩]

variable [Scalar K] {package : IdealPackage K} {label : String} {s u : Store K}

theorem mapM_createFlow {p : Phase} {ids : List VarId}
    (run : (package.components.mapM (createFlow label p)).on s = (.ok ids, u)) :
    s.Grows ids u ∧ ids.length = package.components.length := by
  obtain ⟨grown, matched⟩ := Action.on_mapM_grows (fun v => [v]) (fun _ _ => True)
    (fun c s v t step => ⟨Action.create_grows step, trivial⟩) package.components run
  exact ⟨by simpa using grown, matched.length_eq.symm⟩

theorem declareState_eq_ok {t : Nat} {spec : StateSpec K} {state : IdealState K}
    (run : (package.declareState label t spec).on s = (.ok state, u)) :
    ∃ reference, referenceTemperature spec.arguments.entries = .ok reference ∧
      package.checkFactors = .ok () ∧ s.Grows state.vars u ∧ state.Fits package reference ∧
      state.equilibrium = if spec.phaseEquilibrium then
        some (state.equilibriumFamily package.equilibrium t) else none := by
  unfold declareState at run
  obtain ⟨reference, _, accepted, run⟩ := Action.on_bind_eq_ok.1 run
  obtain ⟨known, rfl⟩ := Action.on_ofExcept_eq_ok.1 accepted
  obtain ⟨_, _, checked, run⟩ := Action.on_bind_eq_ok.1 run
  obtain ⟨enough, rfl⟩ := Action.on_ofExcept_eq_ok.1 checked
  obtain ⟨liquid, a, liquidRun, run⟩ := Action.on_bind_eq_ok.1 run
  obtain ⟨vapor, b, vaporRun, run⟩ := Action.on_bind_eq_ok.1 run
  obtain ⟨temperature, c, temperatureRun, run⟩ := Action.on_bind_eq_ok.1 run
  obtain ⟨pressure, d, pressureRun, run⟩ := Action.on_bind_eq_ok.1 run
  obtain ⟨liquidGrown, liquidLength⟩ := mapM_createFlow liquidRun
  obtain ⟨vaporGrown, vaporLength⟩ := mapM_createFlow vaporRun
  obtain ⟨data, liquids, vapors⟩ := zipWith_componentFlows package.components liquid vapor liquidLength
    vaporLength
  have grown := ((liquidGrown.trans vaporGrown).trans (Action.create_grows temperatureRun)).trans
    (Action.create_grows pressureRun)
  refine ⟨reference, known, enough, ?_⟩
  dsimp only at run
  split at run
  · rename_i inEquilibrium
    cases run
    refine ⟨?_, ⟨data, rfl, rfl⟩, by rw [if_pos inEquilibrium]; rfl⟩
    simpa [IdealState.vars, liquids, vapors] using grown
  · rename_i notInEquilibrium
    cases run
    refine ⟨?_, ⟨data, rfl, rfl⟩, by rw [if_neg notInEquilibrium]⟩
    simpa [IdealState.vars, liquids, vapors] using grown

end IdealPackage

end Distillation
