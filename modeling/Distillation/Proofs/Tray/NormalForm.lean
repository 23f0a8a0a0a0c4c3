import Distillation.Proofs.Expr.Normal
import Distillation.Proofs.Property.IdealTerms
import Distillation.Proofs.Tray.Equations
import Distillation.Proofs.Tray.Ports

namespace Distillation

variable {K : Type} [Scalar K]

theorem Share.built_expr (share : Share) : (share.expr : Expr K).Built := by
  cases share with
  | whole => exact .const 1
  | drawn fraction => exact .var fraction
  | remaining fraction => exact .sub (.const 1) (.var fraction)

namespace Balances

variable {point : IdealPoint K} {term : PropertyState K → Phase → Expr K}

theorem built_exchange (each : ∀ state : IdealState K, ∀ p, (term state.toState p).Built) :
    ∀ e ∈ exchange Phase.both point.toMixing term, e.Built := by
  refine List.forall_mem_flatMap.2 fun p _ => List.forall_mem_append.2 ⟨List.forall_mem_map.2 fun state entering => ?_,
    List.forall_mem_singleton.2 (.neg (each point.outlet p))⟩
  rw [point.toMixing_inlets] at entering
  obtain ⟨ideal, _, rfl⟩ := List.mem_map.1 entering
  exact each ideal p

theorem built_materialBody (name : String) : (materialBody Phase.both point.toMixing name).Built :=
  .total (built_exchange fun state p => state.materialFlow_of_closed Expr.closed_built (fun v _ => .var v) p name)

theorem built_enthalpyBody (heatDuty : Option VarId) : (enthalpyBody Phase.both heatDuty point.toMixing).Built :=
  .total (List.forall_mem_append.2
    ⟨built_exchange fun state p => state.enthalpyFlow_of_closed Expr.closed_built (fun v _ => .var v) p,
      List.forall_mem_map.2 fun v _ => .var v⟩)

theorem built_outletPressure (pressureDrop : Option VarId) : (outletPressure pressureDrop point.toMixing).Built := by
  cases pressureDrop with
  | none => exact .var _
  | some drop => exact .sub (.var _) (.var drop)

end Balances

namespace Tray

variable {package : IdealPackage K} {tray : Tray K} {points : List (IdealPoint K)}

theorem built_of_body {stage : Stage} {point : IdealPoint K} : ∀ body ∈ bodiesAt package tray stage point, body.Built := by
  refine List.forall_mem_append.2 ⟨List.forall_mem_map.2 fun name _ => Balances.built_materialBody name,
    List.forall_mem_append.2 ⟨?_, List.forall_mem_append.2 ⟨?_, ?_⟩⟩⟩
  · split
    · exact List.forall_mem_singleton.2 (Balances.built_enthalpyBody _)
    · exact List.forall_mem_nil _
  · split
    · exact List.forall_mem_singleton.2 (.sub (.var _) (Balances.built_outletPressure _))
    · exact List.forall_mem_nil _
  · exact point.outlet.equilibriumBodies_of_closed Expr.closed_built (fun v _ => .var v) package.equilibrium

namespace Anatomy

variable (anatomy : Anatomy package tray points) {port : Port K} {member : PortMember K} {q : Quantity K}
include anatomy

theorem built_of_constraint : ∀ family ∈ tray.families, ∀ c ∈ family.constraints, c.body.Built :=
  (anatomy.forall_families _).2 fun _ _ => built_of_body

theorem built_of_input (entering : port ∈ tray.ports.inputs) (own : member ∈ port.members) (shown : q ∈ member.values) :
    ∀ entry ∈ q.terms, entry.2.Built := by
  obtain ⟨title, streams, rfl, related⟩ := anatomy.exists_stream entering
  have same : ∀ ideal ∈ streams, ideal.portMembers = package.portMembers := by
    intro ideal among
    obtain ⟨point, inside, present⟩ := exists_left_of_forall₂ related among
    exact (anatomy.fits point inside ideal (IdealPoint.mem_states_of_inlet present)).portMembers
  obtain ⟨ideal, _, known⟩ := exists_left_of_forall₂ (passThrough_values title same member own) shown
  exact ideal.forall_terms_of_member? Expr.closed_built (fun v _ => .var v) known

theorem built_of_output (leaving : port ∈ tray.ports.outputs) (own : member ∈ port.members) (shown : q ∈ member.values) :
    ∀ entry ∈ q.terms, entry.2.Built := by
  obtain ⟨schema, _, resolved⟩ := bind_eq_ok.1 anatomy.outputs
  obtain ⟨outlet, _, kept, after, made⟩ :=
    exists_left_of_forall₂ (Split.resolvePort_of_resolveOutlets resolved) leaving
  obtain ⟨_, _, _, values⟩ := exists_left_of_forall₂ (Split.resolves_of_resolved made).2 own
  obtain ⟨state, present, made⟩ := exists_left_of_forall₂ (forall₂_of_mapM_eq_ok values) shown
  rw [anatomy.outlets_eq] at present
  obtain ⟨point, _, rfl⟩ := List.mem_map.1 present
  exact point.outlet.forall_terms_of_resolved Expr.closed_built (fun v _ => .var v) (fun _ => outlet.share.built_expr) made

end Anatomy

/-- Every expression that is built by the operators is in normal form, those for the shares of side draws among them.
So are the residuals of all equations of a tray that is built from an ideal package, switched on or not, and all
entries of its ports. -/
theorem normal_form :
    (∀ e : Expr K, e.Built → e.Normal) ∧ (∀ share : Share, (share.expr : Expr K).Built) ∧
    ∀ (package : IdealPackage K) (name : String) (config : TrayConfig K) (time : TimeSet K) (tray : Tray K) (s t : Store K),
      (build name config package.toPackage time).on s = (.ok tray, t) →
      (∀ family ∈ tray.families, ∀ c ∈ family.constraints, c.body.Built ∧ c.body.Normal) ∧
      ∀ port ∈ tray.ports.inputs ++ tray.ports.outputs, ∀ member ∈ port.members, ∀ q ∈ member.values,
        ∀ entry ∈ q.terms, entry.2.Built ∧ entry.2.Normal := by
  refine ⟨fun e built => built.normal, Share.built_expr, fun package name config time tray s t built => ?_⟩
  obtain ⟨_, _, points, anatomy⟩ := build_eq_ok built
  refine ⟨fun family listed c inside => ?_, fun port present member own q shown entry listed => ?_⟩
  · have body := anatomy.built_of_constraint family listed c inside
    exact ⟨body, body.normal⟩
  · have term : entry.2.Built := by
      rcases List.mem_append.1 present with entering | leaving
      · exact anatomy.built_of_input entering own shown entry listed
      · exact anatomy.built_of_output leaving own shown entry listed
    exact ⟨term, term.normal⟩

/-- A tray with all its equipment has equations and ports of this form. -/
theorem normal_form_drawn : ∃ (tray : Tray Float) (s : Store Float),
    (build "tray" ⟨true, true, true, true, true, .empty⟩ IdealPackage.benzeneToluene.toPackage .steady).on .empty =
      (.ok tray, s) ∧ (tray.families.flatMap (·.constraints)).length = 6 ∧ tray.ports.outputs.length = 4 ∧
    (∀ family ∈ tray.families, ∀ c ∈ family.constraints, c.body.Built ∧ c.body.Normal) ∧
    (∀ port ∈ tray.ports.inputs ++ tray.ports.outputs, ∀ member ∈ port.members, ∀ q ∈ member.values,
      ∀ entry ∈ q.terms, entry.2.Built ∧ entry.2.Normal) ∧
    (.const 1 * (.var 0 - -(.var 1 + .const 0)) : Expr Float).Normal := by
  obtain ⟨normal, _, trays⟩ := @normal_form Float _
  obtain ⟨tray, s, built, equations, outlets⟩ : ∃ (tray : Tray Float) (s : Store Float),
      (build "tray" ⟨true, true, true, true, true, .empty⟩ IdealPackage.benzeneToluene.toPackage .steady).on .empty =
        (.ok tray, s) ∧ (tray.families.flatMap (·.constraints)).length = 6 ∧ tray.ports.outputs.length = 4 :=
    ⟨_, _, rfl, rfl, rfl⟩
  obtain ⟨bodies, entries⟩ := trays _ _ _ _ tray _ s built
  exact ⟨tray, s, built, equations, outlets, bodies, entries,
    normal _ (.mul (.const 1) (.sub (.var 0) (.neg (.add (.var 1) (.const 0)))))⟩

end Tray

end Distillation
