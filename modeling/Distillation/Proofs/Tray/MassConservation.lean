import Distillation.Proofs.Property.Members
import Distillation.Proofs.Tray.Ports
import Distillation.Proofs.Tray.Residuals
import Distillation.Proofs.Tray.Variables

namespace Distillation

namespace IdealState

variable {K : Type} [Scalar K] (state : IdealState K) {p : Phase} {share : Share} {value : Quantity K}

theorem member?_componentFlows : state.member? "flow_mol_comp" = some (state.byComponent componentFlow) := rfl

theorem member?_totalFlow : state.member? "flow_mol" = some (.scalar state.totalFlow) := rfl

theorem classify_componentFlows :
    MemberKind.classify "flow_mol_comp" (state.byComponent componentFlow).isIndexed = .ok (some .flowByComponent) := by
  change MemberKind.classify "flow_mol_comp" true = _
  decide

theorem classify_totalFlow :
    MemberKind.classify "flow_mol" (Quantity.scalar state.totalFlow).isIndexed = .ok (some .flowTotal) := by
  change MemberKind.classify "flow_mol" false = _
  decide

theorem componentEntry_componentFlow {name : String} {c : ComponentFlows K} (found : state.component? name = some c) :
    Split.componentEntry "flow_mol_comp" .flowByComponent p share (state.byPhaseComponent fun p c => c.flowExpr p)
      (.component name) = .ok (.component name, c.flowExpr p * share.expr) := by
  have known := (state.get?_byPhaseComponent (fun p c => c.flowExpr p) p name).trans (congrArg _ found)
  simp only [Split.componentEntry, Key.withPhase?, Split.entry, known, Option.map_some]
  rfl

/-- Through an outlet port a component leaves with a share of its flow in the phase of the port. -/
theorem resolve_componentFlows
    (resolved : Split.resolveMember state.toState "flow_mol_comp" .flowByComponent p share = .ok value)
    {name : String} {c : ComponentFlows K} (found : state.component? name = some c) :
    value.term? (some (.component name)) = some (c.flowExpr p * share.expr) := by
  have known : Split.siblingTerm? state.toState "flow_mol_comp" .flowByComponent p (some (.component name)) =
      some (c.flowExpr p) :=
    (state.get?_byPhaseComponent (fun p c => c.flowExpr p) p name).trans (congrArg _ found)
  obtain ⟨present, named⟩ := component?_eq_some found
  have among : some (Key.component name) ∈ Split.labels state.toState "flow_mol_comp" .flowByComponent := by
    refine List.mem_map_of_mem (List.mem_flatMap.2 ⟨_, Option.mem_toList.2 state.member?_componentFlows, ?_⟩)
    rw [byComponent, Quantity.keys, List.map_map]
    exact List.mem_map.2 ⟨c, present, congrArg Key.component named⟩
  exact Split.term?_of_synthesized rfl resolved among known

theorem resolve_totalFlow
    (resolved : Split.resolveMember state.toState "flow_mol" .flowTotal p share = .ok value) :
    value.term? none = some (state.phaseFlow p * share.expr) := by
  have known : Split.siblingTerm? state.toState "flow_mol" .flowTotal p none = some (state.phaseFlow p) := by
    cases p <;> rfl
  exact Split.term?_of_synthesized rfl resolved (List.mem_singleton.2 rfl) known

end IdealState

namespace IdealState

variable {package : IdealPackage ℝ} {reference : ℝ} {state : IdealState ℝ} {p : Phase} {x : VarId → ℝ}

/-- Under different names, each flow of a phase is found once. -/
theorem Fits.sum_materialFlow (fits : state.Fits package reference) (distinct : package.Distinct) (p : Phase) :
    (package.componentSet.names.map fun name => (state.materialFlow p name).valueAt x).sum =
      (state.phaseFlow p).valueAt x := by
  have each : ∀ c ∈ state.components, (state.materialFlow p c.data.name).valueAt x = (c.flowExpr p).valueAt x := by
    intro c inside
    rw [materialFlow_eq (fits.component?_of_mem distinct inside)]
  rw [distinct.componentSet_names, ← fits.names, phaseFlow, Expr.valueAt_total, List.map_map, List.map_map]
  exact congrArg List.sum (List.map_congr_left each)

end IdealState

namespace Tray

variable {package : IdealPackage ℝ} {tray : Tray ℝ} {points : List (IdealPoint ℝ)} {x : VarId → ℝ}

/-- The shares of a phase that leave through its ports make up the phase, whatever is drawn off. -/
theorem sum_outflows (tray : Tray ℝ) (flow : Phase → ℝ) (x : VarId → ℝ) :
    (tray.outflows.map fun outlet => flow outlet.phase * outlet.share.expr.valueAt x).sum =
      flow .liquid + flow .vapor := by
  have phase : ∀ (draw main : String) (p : Phase) (fraction : Option VarId),
      ((Split.outletsOf draw main p fraction).map fun outlet =>
        flow outlet.phase * outlet.share.expr.valueAt x).sum = flow p := by
    intro draw main p fraction
    cases fraction with
    | none => simp [Split.outletsOf, Share.expr]
    | some v =>
      simp only [Split.outletsOf, Share.expr, List.map_cons, List.map_nil, List.sum_cons, List.sum_nil,
        Expr.valueAt_sub, Expr.valueAt_var, Expr.valueAt_const]
      ring
  rw [outflows, List.map_append, List.sum_append, phase, phase]

/-- A reading of the ports that gives the flow through each gives in total what flows in the outlet and in
all inlets. -/
theorem crossing_sums {point : IdealPoint ℝ} {reading : Port ℝ → Option ℝ} (flow : IdealState ℝ → Phase → ℝ)
    (outputs : List.Forall₂ (fun outlet port =>
      reading port = some (flow point.outlet outlet.phase * outlet.share.expr.valueAt x)) tray.outflows tray.ports.outputs)
    (inputs : List.Forall₂ (fun state port => reading port = some (flow state .liquid + flow state .vapor))
      point.inlets tray.ports.inputs) :
    ∃ leaving entering, tray.ports.outputs.mapM reading = some leaving ∧
      tray.ports.inputs.mapM reading = some entering ∧
      leaving.sum = flow point.outlet .liquid + flow point.outlet .vapor ∧
      entering.sum = (point.inlets.map fun state => flow state .liquid + flow state .vapor).sum :=
  ⟨_, _, mapM_eq_some_of_forall₂ (List.forall₂_map_right_iff.2 outputs.flip),
    mapM_eq_some_of_forall₂ (List.forall₂_map_right_iff.2 inputs.flip), sum_outflows tray (flow point.outlet) x, rfl⟩

section Crossing

variable (anatomy : Anatomy package tray points) {t : Nat} {point : IdealPoint ℝ} (found : points[t]? = some point)
variable (s : Store ℝ)
include anatomy found

/-- What the ports show of a member that is split, where `flow` says what it is of a state in a phase. -/
theorem Anatomy.crossing {wanted : String} {quantity : IdealState ℝ → Quantity ℝ} {kind : MemberKind}
    (listed : wanted ∈ package.portMembers) (knows : ∀ ideal, ideal.member? wanted = some (quantity ideal))
    (classified : ∀ ideal, MemberKind.classify wanted (quantity ideal).isIndexed = .ok (some kind))
    {key : Option Key} (flow : IdealState ℝ → Phase → ℝ)
    (inlet : ∀ state ∈ point.inlets,
      ((quantity state).term? key).map (·.eval s) = some (flow state .liquid + flow state .vapor))
    (outlet : ∀ {p share value}, Split.resolveMember point.outlet.toState wanted kind p share = .ok value →
      (value.term? key).map (·.eval s) = some (flow point.outlet p * share.expr.valueAt s.value)) :
    ∃ leaving entering, tray.ports.outputs.mapM (·.value? wanted t key s) = some leaving ∧
      tray.ports.inputs.mapM (·.value? wanted t key s) = some entering ∧
      leaving.sum = flow point.outlet .liquid + flow point.outlet .vapor ∧
      entering.sum = (point.inlets.map fun state => flow state .liquid + flow state .vapor).sum := by
  simp only [Port.value?_eq]
  exact crossing_sums flow (anatomy.outputs_read listed knows found _ classified outlet)
    (anatomy.inputs_read listed knows found inlet)

/-- Of a component, the flow that its balance relates is the one that the ports show. -/
theorem Anatomy.crossing_component (listed : "flow_mol_comp" ∈ package.portMembers) {name : String}
    (among : name ∈ package.componentSet.names) :
    ∃ leaving entering,
      tray.ports.outputs.mapM (·.value? "flow_mol_comp" t (some (.component name)) s) = some leaving ∧
      tray.ports.inputs.mapM (·.value? "flow_mol_comp" t (some (.component name)) s) = some entering ∧
      leaving.sum = (point.outlet.materialFlow .liquid name).valueAt s.value +
        (point.outlet.materialFlow .vapor name).valueAt s.value ∧
      entering.sum = point.entering name s.value := by
  have inside := List.mem_of_getElem? found
  refine anatomy.crossing found s listed IdealState.member?_componentFlows IdealState.classify_componentFlows
    (fun state p => (state.materialFlow p name).valueAt s.value) (fun state entered => ?_) fun {p _ _} resolved => ?_
  · obtain ⟨c, own⟩ := (anatomy.fits point inside state (List.mem_append_left _ entered)).exists_component? among
    rw [Quantity.term?, state.get?_byComponent, own, Option.map_some, Option.map_some, Expr.eval,
      IdealState.valueAt_componentFlow, IdealState.materialFlow_eq own, IdealState.materialFlow_eq own]
  · obtain ⟨c, own⟩ := (anatomy.outlet_fits inside).exists_component? among
    rw [point.outlet.resolve_componentFlows resolved own, Option.map_some, Expr.eval, Expr.valueAt_mul,
      IdealState.materialFlow_eq own]

theorem Anatomy.crossing_total (listed : "flow_mol" ∈ package.portMembers) :
    ∃ leaving entering, tray.ports.outputs.mapM (·.value? "flow_mol" t none s) = some leaving ∧
      tray.ports.inputs.mapM (·.value? "flow_mol" t none s) = some entering ∧
      leaving.sum = (point.outlet.phaseFlow .liquid).valueAt s.value +
        (point.outlet.phaseFlow .vapor).valueAt s.value ∧
      entering.sum = (point.inlets.map fun state =>
        (state.phaseFlow .liquid).valueAt s.value + (state.phaseFlow .vapor).valueAt s.value).sum := by
  refine anatomy.crossing found s listed IdealState.member?_totalFlow IdealState.classify_totalFlow
    (fun state p => (state.phaseFlow p).valueAt s.value) (fun state _ => ?_) fun {p _ _} resolved => ?_
  · rw [← IdealState.valueAt_totalFlow]
    rfl
  · rw [point.outlet.resolve_totalFlow resolved, Option.map_some, Expr.eval, Expr.valueAt_mul]

theorem Anatomy.residual_material {j : Nat} {name : String} (listed : package.componentSet.names[j]? = some name) :
    ∃ equation, tray.balances.material.get? (.timeComponent t j) = some equation ∧
      equation.name = s!"{tray.name}.material_mixing_equations[{t},{name}]" ∧
      equation.residual s = point.entering name s.value - ((point.outlet.materialFlow .liquid name).valueAt s.value +
        (point.outlet.materialFlow .vapor name).valueAt s.value) := by
  rw [anatomy.material, Balances.get?_materialFamily (anatomy.getElem?_mixings found) listed]
  exact ⟨_, rfl, rfl, Balances.valueAt_materialBody name⟩

/-- Under different names the balances of all components add up to that of the whole flow. -/
theorem Anatomy.sum_entering (distinct : package.Distinct) :
    (package.componentSet.names.map fun name => point.entering name s.value).sum =
      (point.inlets.map fun state =>
        (state.phaseFlow .liquid).valueAt s.value + (state.phaseFlow .vapor).valueAt s.value).sum := by
  have inside := List.mem_of_getElem? found
  have swap := Multiset.sum_map_sum_map (package.componentSet.names : Multiset String)
    (point.inlets : Multiset (IdealState ℝ)) (f := fun name state =>
      (state.materialFlow .liquid name).valueAt s.value + (state.materialFlow .vapor name).valueAt s.value)
  simp only [Multiset.map_coe, Multiset.sum_coe] at swap
  refine swap.trans (congrArg List.sum (List.map_congr_left fun state entered => ?_))
  have fits := anatomy.fits point inside state (List.mem_append_left _ entered)
  rw [List.sum_map_add, fits.sum_materialFlow distinct, fits.sum_materialFlow distinct]

end Crossing

/-- Where the balance of a component holds, as much of it leaves through the outlet ports as enters
through the inlet ports. Ports that show the whole flow agree where all balances hold. -/
theorem mass_conserved {name : String} {config : TrayConfig ℝ} {time : TimeSet ℝ} {before after : Store ℝ}
    (built : (build name config package.toPackage time).on before = (.ok tray, after)) {t : Nat}
    (within : t < time.count) (s : Store ℝ) :
    (∀ (j : Nat) (component : String), package.componentSet.names[j]? = some component →
      ∃ equation, tray.balances.material.get? (.timeComponent t j) = some equation ∧
        equation.name = s!"{name}.material_mixing_equations[{t},{component}]" ∧
        ("flow_mol_comp" ∈ package.portMembers → ∃ leaving entering,
          tray.ports.outputs.mapM (·.value? "flow_mol_comp" t (some (.component component)) s) = some leaving ∧
          tray.ports.inputs.mapM (·.value? "flow_mol_comp" t (some (.component component)) s) = some entering ∧
          (equation.residual s = 0 → leaving.sum = entering.sum))) ∧
    ("flow_mol" ∈ package.portMembers → package.Distinct → ∃ leaving entering,
      tray.ports.outputs.mapM (·.value? "flow_mol" t none s) = some leaving ∧
      tray.ports.inputs.mapM (·.value? "flow_mol" t none s) = some entering ∧
      ((∀ j < package.componentSet.count, ∀ equation ∈ tray.balances.material.get? (.timeComponent t j),
        equation.residual s = 0) → leaving.sum = entering.sum)) := by
  obtain ⟨labelled, _, points, anatomy⟩ := build_eq_ok built
  have bound : t < points.length := by rwa [anatomy.count, labelled.time_eq]
  have found : points[t]? = some points[t] := List.getElem?_eq_getElem bound
  constructor
  · intro j component listed
    obtain ⟨equation, placed, title, residual⟩ := anatomy.residual_material found s listed
    refine ⟨equation, placed, labelled.name_eq ▸ title, fun shown => ?_⟩
    obtain ⟨leaving, entering, outputs, inputs, leaves, enters⟩ :=
      anatomy.crossing_component found s shown (List.mem_of_getElem? listed)
    refine ⟨leaving, entering, outputs, inputs, fun zero => ?_⟩
    rw [residual, sub_eq_zero] at zero
    rw [leaves, enters, zero]
  · intro shown distinct
    obtain ⟨leaving, entering, outputs, inputs, leaves, enters⟩ := anatomy.crossing_total found s shown
    refine ⟨leaving, entering, outputs, inputs, fun zero => ?_⟩
    have each : ∀ component ∈ package.componentSet.names, points[t].entering component s.value =
        (points[t].outlet.materialFlow .liquid component).valueAt s.value +
          (points[t].outlet.materialFlow .vapor component).valueAt s.value := by
      intro component among
      obtain ⟨j, bound, rfl⟩ := List.getElem_of_mem among
      obtain ⟨equation, placed, _, residual⟩ := anatomy.residual_material found s (List.getElem?_eq_getElem bound)
      exact sub_eq_zero.1 (residual.symm.trans (zero j bound equation placed))
    have fits := anatomy.fits points[t] (List.getElem_mem bound) points[t].outlet points[t].outlet_mem
    rw [leaves, enters, ← anatomy.sum_entering found s distinct, List.map_congr_left each, List.sum_map_add,
      fits.sum_materialFlow distinct, fits.sum_materialFlow distinct]

/-- With one in each of three times two inlet flows and three in both outlet flows, the material balances hold. -/
theorem exists_balanced (flow : String) (either : flow ∈ ["flow_mol_comp", "flow_mol"]) :
    ∃ (tray : Tray ℝ) (fresh : Store ℝ),
      (build "tray" ⟨true, true, true, true, true, .empty⟩
        ({ IdealPackage.benzeneToluene with portMembers := [flow] } : IdealPackage ℝ).toPackage .steady).on .empty =
          (.ok tray, fresh) ∧
      ∀ j < 2, ∀ equation ∈ tray.balances.material.get? (.timeComponent 0 j),
        equation.residual (fresh.fixAll (tray.outletFlows.map (·, 3))) = 0 := by
  have exchange : (0 : ℝ) + 1 + 1 + 1 + -3 + 1 + 1 + 1 + -3 = 0 := by norm_num
  rcases List.mem_pair.1 either with rfl | rfl
  all_goals
    refine ⟨_, _, rfl, ?_⟩
    rintro (_ | _ | _) few _ ⟨rfl⟩
    · exact exchange
    · exact exchange

theorem mass_conserved_steady :
    let package (flow : String) : IdealPackage ℝ := { IdealPackage.benzeneToluene with portMembers := [flow] }
    (∃ (tray : Tray ℝ) (fresh : Store ℝ),
      (build "tray" ⟨true, true, true, true, true, .empty⟩ (package "flow_mol_comp").toPackage .steady).on .empty =
        (.ok tray, fresh) ∧
      let s := fresh.fixAll (tray.outletFlows.map (·, 3))
      ∃ equation leaving entering, tray.balances.material.get? (.timeComponent 0 1) = some equation ∧
        equation.residual s = 0 ∧
        tray.ports.outputs.mapM (·.value? "flow_mol_comp" 0 (some (.component "toluene")) s) = some leaving ∧
        tray.ports.inputs.mapM (·.value? "flow_mol_comp" 0 (some (.component "toluene")) s) = some entering ∧
        leaving.sum = entering.sum) ∧
    ∃ (tray : Tray ℝ) (fresh : Store ℝ),
      (build "tray" ⟨true, true, true, true, true, .empty⟩ (package "flow_mol").toPackage .steady).on .empty =
        (.ok tray, fresh) ∧ (package "flow_mol").Distinct ∧
      let s := fresh.fixAll (tray.outletFlows.map (·, 3))
      (∀ j < (package "flow_mol").componentSet.count, ∀ equation ∈ tray.balances.material.get? (.timeComponent 0 j),
        equation.residual s = 0) ∧
      ∃ leaving entering, tray.ports.outputs.mapM (·.value? "flow_mol" 0 none s) = some leaving ∧
        tray.ports.inputs.mapM (·.value? "flow_mol" 0 none s) = some entering ∧ leaving.sum = entering.sum := by
  intro package
  refine ⟨?component, ?whole⟩
  case component =>
    obtain ⟨tray, fresh, built, balanced⟩ := exists_balanced "flow_mol_comp" (by decide)
    obtain ⟨equation, placed, _, ports⟩ :=
      (mass_conserved built (TimeSet.count_pos _) (fresh.fixAll (tray.outletFlows.map (·, 3)))).1 1 "toluene" rfl
    obtain ⟨leaving, entering, outputs, inputs, conserved⟩ := ports List.mem_cons_self
    have zero := balanced 1 (by decide) equation placed
    exact ⟨tray, fresh, built, equation, leaving, entering, placed, zero, outputs, inputs, conserved zero⟩
  case whole =>
    obtain ⟨tray, fresh, built, balanced⟩ := exists_balanced "flow_mol" (by decide)
    have distinct : (package "flow_mol").Distinct := IdealPackage.benzeneToluene_distinct
    obtain ⟨leaving, entering, outputs, inputs, conserved⟩ :=
      (mass_conserved built (TimeSet.count_pos _) (fresh.fixAll (tray.outletFlows.map (·, 3)))).2
        List.mem_cons_self distinct
    exact ⟨tray, fresh, built, distinct, balanced, leaving, entering, outputs, inputs, conserved balanced⟩

end Tray

end Distillation
