import Distillation.Proofs.Expr.Rate
import Distillation.Proofs.Property.IdealFlows
import Distillation.Proofs.Tray.Resolution

namespace Distillation

/-- What the members of a state come to that are about flow and enthalpy. -/
structure MemberValues (K : Type) where
  flow : K
  phaseFlow : Phase → K
  componentFlow : ComponentFlows K → K
  partialFlow : Phase → ComponentFlows K → K
  fraction : ComponentFlows K → K
  partialFraction : Phase → ComponentFlows K → K
  molarEnthalpy : K
  phaseEnthalpy : Phase → K

namespace IdealState

section Readings

variable {K : Type} [Scalar K] (state : IdealState K) (x : VarId → K)

/-- What a state shows under a name, entry by entry. -/
def readings? (name : String) : Option (List (Option Key × K)) :=
  (state.member? name).map fun q => q.terms.map fun entry => (entry.1, entry.2.valueAt x)

/-- The entries that the state shows under the names of its members have these values. -/
structure Shows (values : MemberValues K) : Prop where
  flow : state.readings? x "flow_mol" = some [(none, values.flow)]
  phaseFlow : state.readings? x "flow_mol_phase" =
    some (Phase.both.map fun p => (some (.phase p), values.phaseFlow p))
  componentFlow : state.readings? x "flow_mol_comp" =
    some (state.components.map fun c => (some (.component c.data.name), values.componentFlow c))
  partialFlow : state.readings? x "flow_mol_phase_comp" = some (Phase.both.flatMap fun p =>
    state.components.map fun c => (some (.phaseComponent p c.data.name), values.partialFlow p c))
  fraction : state.readings? x "mole_frac_comp" =
    some (state.components.map fun c => (some (.component c.data.name), values.fraction c))
  partialFraction : state.readings? x "mole_frac_phase_comp" = some (Phase.both.flatMap fun p =>
    state.components.map fun c => (some (.phaseComponent p c.data.name), values.partialFraction p c))
  molarEnthalpy : state.readings? x "enth_mol" = some [(none, values.molarEnthalpy)]
  phaseEnthalpy : state.readings? x "enth_mol_phase" =
    some (Phase.both.map fun p => (some (.phase p), values.phaseEnthalpy p))

def memberValues : MemberValues K where
  flow := state.totalFlow.valueAt x
  phaseFlow p := (state.phaseFlow p).valueAt x
  componentFlow c := (componentFlow c).valueAt x
  partialFlow p c := (c.flowExpr p).valueAt x
  fraction c := (componentFlow c / state.totalFlow).valueAt x
  partialFraction p c := (c.flowExpr p / state.phaseFlow p).valueAt x
  molarEnthalpy := (.total (Phase.both.map state.enthalpyFlow) / state.totalFlow : Expr K).valueAt x
  phaseEnthalpy p := (state.enthalpyFlow p / state.phaseFlow p).valueAt x

theorem terms_byPhase (term : Phase → Expr K) :
    (byPhase term).terms.map (fun entry => (entry.1, entry.2.valueAt x)) =
      Phase.both.map fun p => (some (.phase p), (term p).valueAt x) := rfl

theorem terms_byComponent (term : ComponentFlows K → Expr K) :
    (state.byComponent term).terms.map (fun entry => (entry.1, entry.2.valueAt x)) =
      state.components.map fun c => (some (.component c.data.name), (term c).valueAt x) := by
  simp only [byComponent, Quantity.terms, List.map_map, Function.comp_def]

theorem terms_byPhaseComponent (term : Phase → ComponentFlows K → Expr K) :
    (state.byPhaseComponent term).terms.map (fun entry => (entry.1, entry.2.valueAt x)) =
      Phase.both.flatMap fun p =>
        state.components.map fun c => (some (.phaseComponent p c.data.name), (term p c).valueAt x) := by
  simp only [byPhaseComponent, Quantity.terms, List.map_flatMap, List.map_map, Function.comp_def]

theorem shows_memberValues : state.Shows x (state.memberValues x) where
  flow := rfl
  phaseFlow := congrArg some (terms_byPhase x state.phaseFlow)
  componentFlow := congrArg some (state.terms_byComponent x componentFlow)
  partialFlow := congrArg some (state.terms_byPhaseComponent x fun p c => c.flowExpr p)
  fraction := congrArg some (state.terms_byComponent x fun c => componentFlow c / state.totalFlow)
  partialFraction := congrArg some (state.terms_byPhaseComponent x fun p c => c.flowExpr p / state.phaseFlow p)
  molarEnthalpy := rfl
  phaseEnthalpy := congrArg some (terms_byPhase x fun p => state.enthalpyFlow p / state.phaseFlow p)

end Readings

section Sums

variable {state : IdealState ℝ} {p : Phase} {x : VarId → ℝ}

theorem valueAt_phaseFlow (p : Phase) :
    (state.phaseFlow p).valueAt x = (state.components.map fun c => (c.flowExpr p).valueAt x).sum := by
  rw [phaseFlow, Expr.valueAt_total, List.map_map]
  rfl

theorem valueAt_componentFlow (c : ComponentFlows ℝ) :
    (componentFlow c).valueAt x = (c.flowExpr .liquid).valueAt x + (c.flowExpr .vapor).valueAt x := by
  simp [componentFlow, Phase.both]

theorem valueAt_totalFlow :
    state.totalFlow.valueAt x = (state.phaseFlow .liquid).valueAt x + (state.phaseFlow .vapor).valueAt x := by
  simp [totalFlow, Phase.both]

/-- Component by component, as much flows as in total. -/
theorem sum_componentFlow :
    (state.components.map fun c => (componentFlow c).valueAt x).sum = state.totalFlow.valueAt x := by
  simp only [valueAt_componentFlow, valueAt_totalFlow, valueAt_phaseFlow, List.sum_map_add]

/-- The parts of a total that is not zero, each divided by it, make up one. -/
theorem sum_div_total {α : Type} {parts : α → ℝ} {total : ℝ} {l : List α} (whole : (l.map parts).sum = total)
    (present : total ≠ 0) : (l.map fun a => parts a / total).sum = 1 := by
  simp only [div_eq_mul_inv]
  rw [List.sum_map_mul_right, whole, mul_inv_cancel₀ present]

end Sums

/-- What the members of a state say agrees. The flow is the sum of the flows of the phases, of the components, and of
the components in the phases. Where something flows, the fractions of the components make up one, and in each phase
where something flows, so do the fractions there, and the molar enthalpy and the flow give the enthalpy of the phase.
Where something flows in total and in either phase, flows and enthalpies of the whole come from those of the phases. -/
theorem members_consistent (state : IdealState ℝ) (x : VarId → ℝ) : ∃ values : MemberValues ℝ, state.Shows x values ∧
    values.flow = (Phase.both.map values.phaseFlow).sum ∧
    values.flow = (state.components.map values.componentFlow).sum ∧
    values.flow = (Phase.both.flatMap fun p => state.components.map (values.partialFlow p)).sum ∧
    (values.flow ≠ 0 → (state.components.map values.fraction).sum = 1) ∧
    (∀ p, values.phaseFlow p ≠ 0 → (state.components.map (values.partialFraction p)).sum = 1 ∧
      values.phaseEnthalpy p * values.phaseFlow p = (state.enthalpyFlow p).valueAt x) ∧
    (values.flow ≠ 0 → (∀ p, values.phaseFlow p ≠ 0) →
      (∀ c ∈ state.components, values.fraction c * values.flow =
        (Phase.both.map fun p => values.partialFraction p c * values.phaseFlow p).sum) ∧
      values.molarEnthalpy * values.flow =
        (Phase.both.map fun p => values.phaseEnthalpy p * values.phaseFlow p).sum) := by
  refine ⟨state.memberValues x, state.shows_memberValues x, ?_, ?_, ?_, fun present => ?_, fun p present => ⟨?_, ?_⟩,
    fun present phases => ⟨fun c _ => ?_, ?_⟩⟩
  · simp [memberValues, valueAt_totalFlow, Phase.both]
  · exact sum_componentFlow.symm
  · simp [memberValues, valueAt_totalFlow, valueAt_phaseFlow, Phase.both]
  · exact sum_div_total sum_componentFlow present
  · exact sum_div_total (valueAt_phaseFlow p).symm present
  · exact div_mul_cancel₀ _ present
  · have flows : ∀ p, (state.memberValues x).partialFraction p c * (state.memberValues x).phaseFlow p =
        (c.flowExpr p).valueAt x := fun p => div_mul_cancel₀ _ (phases p)
    have whole : (state.memberValues x).fraction c * (state.memberValues x).flow = (componentFlow c).valueAt x :=
      div_mul_cancel₀ _ present
    simp [whole, flows, valueAt_componentFlow, Phase.both]
  · have enthalpies : ∀ p, (state.memberValues x).phaseEnthalpy p * (state.memberValues x).phaseFlow p =
        (state.enthalpyFlow p).valueAt x := fun p => div_mul_cancel₀ _ (phases p)
    have whole : (state.memberValues x).molarEnthalpy * (state.memberValues x).flow =
        (.total (Phase.both.map state.enthalpyFlow) : Expr ℝ).valueAt x := div_mul_cancel₀ _ present
    simp [whole, enthalpies, Phase.both]

theorem members_consistent_mixture :
    let state : IdealState ℝ := ⟨"stream", [⟨⟨"benzene", 135, 82, 30720⟩, 0, 2⟩, ⟨⟨"toluene", 157, 104, 33180⟩, 1, 3⟩],
      4, 5, 298, [], none, true⟩
    ∃ values : MemberValues ℝ, state.Shows (fun v => v + 1) values ∧ values.flow = 10 ∧ values.phaseFlow .liquid = 3 ∧
      values.phaseFlow .vapor = 7 ∧ (state.components.map values.fraction).sum = 1 ∧
      (∀ p, (state.components.map (values.partialFraction p)).sum = 1) ∧
      values.molarEnthalpy * 10 = values.phaseEnthalpy .liquid * 3 + values.phaseEnthalpy .vapor * 7 := by
  intro state
  obtain ⟨values, shown, _, _, _, fractions, parts, whole⟩ := members_consistent state fun v => v + 1
  have flow : values.flow = 10 := by
    have read := Option.some.inj (shown.flow.symm.trans (state.shows_memberValues _).flow)
    simp only [List.cons.injEq, Prod.mk.injEq, true_and, and_true] at read
    rw [read]
    norm_num [memberValues, state, valueAt_totalFlow, valueAt_phaseFlow, ComponentFlows.flowExpr, ComponentFlows.flow]
  have phaseFlow : values.phaseFlow .liquid = 3 ∧ values.phaseFlow .vapor = 7 := by
    have read := Option.some.inj (shown.phaseFlow.symm.trans (state.shows_memberValues _).phaseFlow)
    simp only [Phase.both, List.map_cons, List.map_nil, List.cons.injEq, Prod.mk.injEq, true_and, and_true] at read
    rw [read.1, read.2]
    norm_num [memberValues, state, valueAt_phaseFlow, ComponentFlows.flowExpr, ComponentFlows.flow]
  obtain ⟨liquid, vapor⟩ := phaseFlow
  have present : values.flow ≠ 0 := by rw [flow]; norm_num
  have phases : ∀ p, values.phaseFlow p ≠ 0 := by
    rintro (_ | _)
    · rw [liquid]; norm_num
    · rw [vapor]; norm_num
  have enthalpy := (whole present phases).2
  simp only [flow, liquid, vapor, Phase.both, List.map_cons, List.map_nil, List.sum_cons, List.sum_nil,
    add_zero] at enthalpy
  exact ⟨values, shown, flow, liquid, vapor, fractions present, fun p => (parts p (phases p)).1, enthalpy⟩

end IdealState

end Distillation
