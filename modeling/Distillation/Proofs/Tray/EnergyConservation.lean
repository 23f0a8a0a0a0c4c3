import Mathlib.Analysis.Real.Sqrt
import Distillation.Proofs.Tray.MassConservation

namespace Distillation

section Readings

variable {K : Type} [Scalar K]

/-- The value of the one term, or the sum of the values of all entries. -/
def Quantity.amount (q : Quantity K) (s : Store K) : K :=
  match q with
  | .scalar e => e.eval s
  | .indexed entries => Scalar.sum (entries.map fun entry => entry.2.eval s)

theorem Quantity.amount_of_single {q : Quantity K} {e : Expr K} (single : q.term? none = some e) (s : Store K) :
    q.amount s = e.eval s := by
  cases q with
  | scalar own =>
    cases single
    rfl
  | indexed => cases single

/-- The flow of a stream, which the port shows under a name as a whole or component by component. -/
def Port.amount? (port : Port K) (flow : String) (t : Nat) (s : Store K) : Option K :=
  (port.quantity? flow t).bind fun q => some (q.amount s)

def Port.enthalpyFlow? (port : Port K) (flow : String) (t : Nat) (s : Store K) : Option K := do
  let amount ← port.amount? flow t s
  let molar ← port.value? "enth_mol" t none s
  return amount * molar

theorem Port.enthalpyFlow?_eq {port : Port K} {flow : String} {t : Nat} {s : Store K} {amount molar : K}
    (stream : port.amount? flow t s = some amount) (enthalpy : port.value? "enth_mol" t none s = some molar) :
    port.enthalpyFlow? flow t s = some (amount * molar) := by
  rw [enthalpyFlow?, stream, enthalpy]
  rfl

/-- The value that a state itself knows of a member. -/
def PropertyState.value? (state : PropertyState K) (member : String) (key : Option Key) (s : Store K) : Option K :=
  ((state.member? member).bind (·.term? key)).map (·.eval s)

/-- Something flows in each inlet and in either phase of the outlet. -/
structure TrayStates.Flowing (states : TrayStates K) (s : Store K) : Prop where
  inlet : ∀ state ∈ states.inlets, state.value? "flow_mol" none s ≠ some 0
  outlet : ∀ p, states.outlet.value? "flow_mol_phase" (some (.phase p)) s ≠ some 0

end Readings

namespace IdealState

section Members

variable {K : Type} [Scalar K] (state : IdealState K) {p : Phase} {share : Share} {value : Quantity K}

theorem resolve_componentFlows_of_distinct (distinct : (state.components.map (·.data.name)).Nodup) :
    Split.resolveMember state.toState "flow_mol_comp" .flowByComponent p share =
      .ok (state.byComponent fun c => c.flowExpr p * share.expr) := by
  have made : (state.byComponent componentFlow).keys.mapM
      (Split.componentEntry "flow_mol_comp" .flowByComponent p share (state.byPhaseComponent fun p c => c.flowExpr p)) =
        .ok (state.components.map fun c => (.component c.data.name, c.flowExpr p * share.expr)) := by
    rw [byComponent, Quantity.keys, List.map_map, List.mapM_map]
    exact mapM_eq_ok fun c inside => state.componentEntry_componentFlow (component?_of_mem distinct inside)
  exact congrArg (· >>= fun entries => Except.ok (Quantity.indexed entries)) made

theorem member?_molarEnthalpy : state.member? "enth_mol" =
    some (.scalar (.total (Phase.both.map state.enthalpyFlow) / state.totalFlow)) := rfl

theorem classify_molarEnthalpy : MemberKind.classify "enth_mol"
    (Quantity.scalar (.total (Phase.both.map state.enthalpyFlow) / state.totalFlow)).isIndexed =
      .ok (some .enthalpyTotal) := by
  change MemberKind.classify "enth_mol" false = _
  decide

/-- A molar enthalpy is not split: each port shows that of its phase. -/
theorem resolve_molarEnthalpy
    (resolved : Split.resolveMember state.toState "enth_mol" .enthalpyTotal p share = .ok value) :
    value.term? none = some (state.enthalpyFlow p / state.phaseFlow p) := by
  have known : Split.siblingTerm? state.toState "enth_mol" .enthalpyTotal p none =
      some (state.enthalpyFlow p / state.phaseFlow p) := by
    cases p <;> rfl
  exact Split.term?_of_synthesized rfl resolved (List.mem_singleton.2 rfl) known

end Members

variable {state : IdealState ℝ} {s : Store ℝ}

theorem amount_byComponent (term : ComponentFlows ℝ → Expr ℝ) :
    (state.byComponent term).amount s = (state.components.map fun c => (term c).valueAt s.value).sum := by
  rw [byComponent, Quantity.amount, Scalar.real_sum, List.map_map]
  rfl

/-- Component by component, a state shows as much as in total. -/
theorem amount_componentFlows : (state.byComponent componentFlow).amount s = state.totalFlow.valueAt s.value := by
  rw [amount_byComponent, sum_componentFlow]

theorem amount_splitFlows (p : Phase) (share : Share) :
    (state.byComponent fun c => c.flowExpr p * share.expr).amount s =
      (state.phaseFlow p).valueAt s.value * share.expr.valueAt s.value := by
  simp only [amount_byComponent, Expr.valueAt_mul, List.sum_map_mul_right, phaseFlow, Expr.valueAt_total,
    List.map_map, Function.comp_def]

end IdealState

namespace Tray

variable {package : IdealPackage ℝ} {tray : Tray ℝ} {points : List (IdealPoint ℝ)}

section Streams

variable (anatomy : Anatomy package tray points) {t : Nat} {point : IdealPoint ℝ} (found : points[t]? = some point)
variable (s : Store ℝ)
include anatomy found

/-- A member that amounts to the whole flow of a state, and on an outlet to a share of the flow of a phase. -/
theorem Anatomy.amounts_of {wanted : String} {quantity : IdealState ℝ → Quantity ℝ} {kind : MemberKind}
    (listed : wanted ∈ package.portMembers) (knows : ∀ ideal, ideal.member? wanted = some (quantity ideal))
    (classified : ∀ ideal, MemberKind.classify wanted (quantity ideal).isIndexed = .ok (some kind))
    (whole : ∀ state, (quantity state).amount s = state.totalFlow.valueAt s.value)
    (split : ∀ {p share value}, Split.resolveMember point.outlet.toState wanted kind p share = .ok value →
      value.amount s = (point.outlet.phaseFlow p).valueAt s.value * share.expr.valueAt s.value) :
    List.Forall₂ (fun outlet port => port.amount? wanted t s =
      some ((point.outlet.phaseFlow outlet.phase).valueAt s.value * outlet.share.expr.valueAt s.value))
        tray.outflows tray.ports.outputs ∧
    List.Forall₂ (fun state port => port.amount? wanted t s = some (state.totalFlow.valueAt s.value))
      point.inlets tray.ports.inputs :=
  ⟨anatomy.outputs_read listed knows found
      (fun p share => (point.outlet.phaseFlow p).valueAt s.value * share.expr.valueAt s.value) classified
      fun resolved => congrArg some (split resolved),
    anatomy.inputs_read listed knows found fun state _ => congrArg some (whole state)⟩

/-- Both names under which a state offers its flow are such members. -/
theorem Anatomy.amounts (distinct : package.Distinct) {flow : String} (either : flow ∈ ["flow_mol", "flow_mol_comp"])
    (listed : flow ∈ package.portMembers) :
    List.Forall₂ (fun outlet port => port.amount? flow t s =
      some ((point.outlet.phaseFlow outlet.phase).valueAt s.value * outlet.share.expr.valueAt s.value))
        tray.outflows tray.ports.outputs ∧
    List.Forall₂ (fun state port => port.amount? flow t s = some (state.totalFlow.valueAt s.value))
      point.inlets tray.ports.inputs := by
  have fits := anatomy.outlet_fits (List.mem_of_getElem? found)
  rcases List.mem_pair.1 either with rfl | rfl
  · refine anatomy.amounts_of found s listed IdealState.member?_totalFlow IdealState.classify_totalFlow
      (fun _ => rfl) fun {p share value} resolved => ?_
    rw [Quantity.amount_of_single (point.outlet.resolve_totalFlow resolved), Expr.eval, Expr.valueAt_mul]
  · refine anatomy.amounts_of found s listed IdealState.member?_componentFlows IdealState.classify_componentFlows
      (fun _ => IdealState.amount_componentFlows) fun {p share value} resolved => ?_
    rw [point.outlet.resolve_componentFlows_of_distinct (fits.names ▸ distinct), Except.ok.injEq] at resolved
    rw [← resolved, IdealState.amount_splitFlows]

theorem Anatomy.molarEnthalpies (listed : "enth_mol" ∈ package.portMembers) :
    List.Forall₂ (fun outlet port => port.value? "enth_mol" t none s =
      some ((point.outlet.enthalpyFlow outlet.phase).valueAt s.value /
        (point.outlet.phaseFlow outlet.phase).valueAt s.value)) tray.outflows tray.ports.outputs ∧
    List.Forall₂ (fun state port => port.value? "enth_mol" t none s =
      some (((state.enthalpyFlow .liquid).valueAt s.value + (state.enthalpyFlow .vapor).valueAt s.value) /
        state.totalFlow.valueAt s.value)) point.inlets tray.ports.inputs := by
  simp only [Port.value?_eq]
  refine ⟨anatomy.outputs_read listed IdealState.member?_molarEnthalpy found
      (fun p _ => (point.outlet.enthalpyFlow p).valueAt s.value / (point.outlet.phaseFlow p).valueAt s.value)
      IdealState.classify_molarEnthalpy fun {p share value} resolved => ?_,
    anatomy.inputs_read listed IdealState.member?_molarEnthalpy found fun state _ => ?_⟩
  · rw [point.outlet.resolve_molarEnthalpy resolved, Option.map_some, Expr.eval, Expr.div_def, Expr.valueAt_quotient]
  · rw [Quantity.term?, Quantity.scalar?, Option.map_some, Expr.eval, Expr.div_def, Expr.valueAt_quotient]
    simp [Phase.both]

/-- Where something flows, the flow of a stream and its molar enthalpy make up its enthalpy. The share of a draw is
part of its flow and not of its molar enthalpy, so it stays when the flow cancels. -/
theorem Anatomy.crossing_enthalpy (distinct : package.Distinct) {flow : String}
    (either : flow ∈ ["flow_mol", "flow_mol_comp"]) (listed : flow ∈ package.portMembers)
    (molar : "enth_mol" ∈ package.portMembers) (flowing : point.toStates.Flowing s) :
    ∃ leaving entering, tray.ports.outputs.mapM (·.enthalpyFlow? flow t s) = some leaving ∧
      tray.ports.inputs.mapM (·.enthalpyFlow? flow t s) = some entering ∧
      leaving.sum = (point.outlet.enthalpyFlow .liquid).valueAt s.value +
        (point.outlet.enthalpyFlow .vapor).valueAt s.value ∧
      entering.sum = (point.inlets.map fun state =>
        (state.enthalpyFlow .liquid).valueAt s.value + (state.enthalpyFlow .vapor).valueAt s.value).sum := by
  obtain ⟨amountsOut, amountsIn⟩ := anatomy.amounts found s distinct either listed
  obtain ⟨molarOut, molarIn⟩ := anatomy.molarEnthalpies found s molar
  have inlet : ∀ state ∈ point.inlets, state.totalFlow.valueAt s.value ≠ 0 := by
    intro state entering zero
    refine flowing.inlet state.toState ?_ (congrArg some zero)
    rw [point.toStates_inlets]
    exact List.mem_map_of_mem entering
  have outlet : ∀ p, (point.outlet.phaseFlow p).valueAt s.value ≠ 0 := by
    intro p zero
    refine flowing.outlet p (Eq.trans ?_ (congrArg some zero))
    cases p <;> rfl
  refine crossing_sums (x := s.value) (fun state p => (state.enthalpyFlow p).valueAt s.value)
    (amountsOut.mp (fun way port stream enthalpy => ?_) molarOut)
    (((List.forall₂_and_left _ _).2 ⟨inlet, amountsIn⟩).mp (fun state port stream enthalpy => ?_) molarIn)
  · rw [Port.enthalpyFlow?_eq stream enthalpy, mul_right_comm, mul_div_cancel₀ _ (outlet way.phase)]
  · rw [Port.enthalpyFlow?_eq stream.2 enthalpy, mul_div_cancel₀ _ stream.1]

theorem Anatomy.residual_enthalpy : ∃ equation, tray.balances.enthalpy.get? (.time t) = some equation ∧
    equation.name = s!"{tray.name}.enthalpy_mixing_equations[{t}]" ∧
    equation.residual s = (point.inlets.map fun state =>
      (state.enthalpyFlow .liquid).valueAt s.value + (state.enthalpyFlow .vapor).valueAt s.value).sum -
        ((point.outlet.enthalpyFlow .liquid).valueAt s.value + (point.outlet.enthalpyFlow .vapor).valueAt s.value) +
      tray.balances.heatDuty.elim 0 s.value := by
  rw [anatomy.enthalpy, Balances.get?_enthalpyFamily (anatomy.getElem?_mixings found)]
  exact ⟨_, rfl, rfl, Balances.valueAt_enthalpyBody _⟩

end Streams

/-- Where the enthalpy balance holds, as much enthalpy leaves through the outlet ports as enters through the
inlet ports and is added as heat, if something flows everywhere. -/
theorem energy_conserved {name : String} {config : TrayConfig ℝ} {time : TimeSet ℝ} {before after : Store ℝ}
    (built : (build name config package.toPackage time).on before = (.ok tray, after)) (distinct : package.Distinct)
    {flow : String} (either : flow ∈ ["flow_mol", "flow_mol_comp"]) (listed : flow ∈ package.portMembers)
    (molar : "enth_mol" ∈ package.portMembers) {t : Nat} (within : t < time.count) (s : Store ℝ)
    (flowing : ∀ states ∈ tray.points[t]?, states.Flowing s) :
    tray.balances.heatDuty.isSome = config.heatTransfer ∧
    (∀ v ∈ tray.balances.heatDuty, (after.get? v).map (·.name) = some s!"{name}.heat_duty") ∧
    ∃ equation leaving entering, tray.balances.enthalpy.get? (.time t) = some equation ∧
      equation.name = s!"{name}.enthalpy_mixing_equations[{t}]" ∧
      tray.ports.outputs.mapM (·.enthalpyFlow? flow t s) = some leaving ∧
      tray.ports.inputs.mapM (·.enthalpyFlow? flow t s) = some entering ∧
      (equation.residual s = 0 → leaving.sum = entering.sum + tray.balances.heatDuty.elim 0 s.value) := by
  obtain ⟨labelled, _, points, anatomy⟩ := build_eq_ok built
  have bound : t < points.length := by rwa [anatomy.count, labelled.time_eq]
  have found : points[t]? = some points[t] := List.getElem?_eq_getElem bound
  obtain ⟨equation, placed, title, residual⟩ := anatomy.residual_enthalpy found s
  obtain ⟨leaving, entering, outputs, inputs, leaves, enters⟩ :=
    anatomy.crossing_enthalpy found s distinct either listed molar (flowing _ (anatomy.getElem?_points found))
  refine ⟨labelled.heatTransfer, labelled.heatDuty, equation, leaving, entering, placed, labelled.name_eq ▸ title,
    outputs, inputs, fun zero => ?_⟩
  rw [residual] at zero
  rw [leaves, enters]
  linarith

/-- The enthalpy of a stream of benzene and toluene with the same flow of both in both phases. -/
noncomputable def evenEnthalpy (flow temperature : ℝ) : ℝ :=
  (flow * 135.0 + flow * 82.0 + (flow * 157.0 + flow * 104.0 + 0)) * (temperature - 298.15) +
    (flow * 30720.0 + (flow * 33180.0 + 0))

/-- An outlet that takes up all flows, ten degrees above the inlets, where the enthalpy balance holds. -/
theorem exists_heated : ∃ (tray : Tray ℝ) (fresh : Store ℝ) (duty : VarId),
    (build "tray" ⟨true, true, true, true, true, .empty⟩ IdealPackage.benzeneToluene.toPackage .steady).on .empty =
      (.ok tray, fresh) ∧ tray.balances.heatDuty = some duty ∧
    let s := fresh.fixAll
      (tray.outletFlows.map (·, 3) ++ tray.outletTemperatures.map (·, 308.15) ++ [(duty, 14340)])
    s.value duty = 14340 ∧ (∀ states ∈ tray.points[0]?, states.Flowing s) ∧
      ∀ equation ∈ tray.balances.enthalpy.get? (.time 0), equation.residual s = 0 := by
  refine ⟨_, _, _, rfl, rfl, rfl, ?flowing, ?balanced⟩
  case flowing =>
    have whole : (some (0 + 1 + 1 + 1 + 1) : Option ℝ) ≠ some 0 := by norm_num
    have phase : (some (0 + 3 + 3) : Option ℝ) ≠ some 0 := by norm_num
    rintro _ ⟨rfl⟩
    refine ⟨List.forall_mem_cons.2 ⟨whole, List.forall_mem_cons.2 ⟨whole, List.forall_mem_singleton.2 whole⟩⟩, ?_⟩
    rintro (_ | _)
    · exact phase
    · exact phase
  case balanced =>
    have heated : evenEnthalpy 1 298.15 + (evenEnthalpy 1 298.15 + (evenEnthalpy 1 298.15 + 0)) -
        evenEnthalpy 3 308.15 + 14340 = 0 := by norm_num [evenEnthalpy]
    rintro _ ⟨rfl⟩
    change (Balances.enthalpyBody Phase.both _ (IdealPoint.toMixing ⟨some _, _, _, _⟩)).valueAt _ = 0
    simp only [Balances.valueAt_enthalpyBody, IdealState.valueAt_enthalpyFlows]
    exact heated

theorem energy_conserved_steady : ∃ (tray : Tray ℝ) (fresh : Store ℝ) (duty : VarId),
    (build "tray" ⟨true, true, true, true, true, .empty⟩ IdealPackage.benzeneToluene.toPackage .steady).on .empty =
      (.ok tray, fresh) ∧ tray.balances.heatDuty = some duty ∧
    let s := fresh.fixAll
      (tray.outletFlows.map (·, 3) ++ tray.outletTemperatures.map (·, 308.15) ++ [(duty, 14340)])
    (∀ states ∈ tray.points[0]?, states.Flowing s) ∧
    ∃ equation leaving entering, tray.balances.enthalpy.get? (.time 0) = some equation ∧ equation.residual s = 0 ∧
      tray.ports.outputs.mapM (·.enthalpyFlow? "flow_mol_comp" 0 s) = some leaving ∧
      tray.ports.inputs.mapM (·.enthalpyFlow? "flow_mol_comp" 0 s) = some entering ∧
      leaving.sum = entering.sum + 14340 := by
  obtain ⟨tray, fresh, duty, built, equipped, supplied, flowing, balanced⟩ := exists_heated
  have distinct : (IdealPackage.benzeneToluene : IdealPackage ℝ).Distinct := IdealPackage.benzeneToluene_distinct
  have either : "flow_mol_comp" ∈ ["flow_mol", "flow_mol_comp"] := by decide
  have molar : "enth_mol" ∈ (IdealPackage.benzeneToluene : IdealPackage ℝ).portMembers := by
    simp [IdealPackage.benzeneToluene, IdealPackage.ofComponents, IdealPackage.defaultPortMembers]
  obtain ⟨_, _, equation, leaving, entering, placed, _, outputs, inputs, conserved⟩ :=
    energy_conserved built distinct either List.mem_cons_self molar (TimeSet.count_pos _) _ flowing
  have zero := balanced equation placed
  rw [equipped, Option.elim_some, supplied] at conserved
  exact ⟨tray, fresh, duty, built, equipped, flowing, equation, leaving, entering, placed, zero, outputs, inputs,
    conserved zero⟩

end Tray

end Distillation
