import Distillation.Proofs.Property.IdealFlows
import Distillation.Proofs.Tray.Resolution

namespace Distillation

namespace IdealState

variable {K : Type} {P : Expr K → Prop} {state : IdealState K} {p : Phase} {c : ComponentFlows K} {q : Quantity K}

section Entries

theorem forall_terms_byPhase {term : Phase → Expr K} (each : ∀ p, P (term p)) :
    ∀ entry ∈ (byPhase term).terms, P entry.2 := by
  simpa [byPhase, Quantity.terms, List.forall_mem_map] using fun p _ => each p

theorem forall_terms_byComponent {term : ComponentFlows K → Expr K} (each : ∀ c ∈ state.components, P (term c)) :
    ∀ entry ∈ (state.byComponent term).terms, P entry.2 := by
  simpa [byComponent, Quantity.terms, List.forall_mem_map] using each

theorem forall_terms_byPhaseComponent {term : Phase → ComponentFlows K → Expr K}
    (each : ∀ p, ∀ c ∈ state.components, P (term p c)) :
    ∀ entry ∈ (state.byPhaseComponent term).terms, P entry.2 := by
  intro entry listed
  simp only [byPhaseComponent, Quantity.terms, List.mem_map, List.mem_flatMap] at listed
  obtain ⟨_, ⟨p, _, c, inside, rfl⟩, rfl⟩ := listed
  exact each p c inside

end Entries

variable [Scalar K] (closed : Expr.Closed P) (own : ∀ v ∈ state.vars, P (.var v))
include own

omit [Scalar K] in
theorem flowExpr_of_closed (inside : c ∈ state.components) (p : Phase) : P (c.flowExpr p) :=
  own _ (mem_vars_of_flow (flow_mem_flows inside p))

include closed

theorem phaseFlow_of_closed (p : Phase) : P (state.phaseFlow p) :=
  closed.total (List.forall_mem_map.2 fun _ inside => flowExpr_of_closed own inside p)

theorem totalFlow_of_closed : P state.totalFlow :=
  closed.total (List.forall_mem_map.2 fun p _ => phaseFlow_of_closed closed own p)

theorem componentFlow_of_closed (inside : c ∈ state.components) : P (componentFlow c) :=
  closed.total (List.forall_mem_map.2 fun p _ => flowExpr_of_closed own inside p)

theorem materialFlow_of_closed (p : Phase) (name : String) : P (state.materialFlow p name) := by
  unfold materialFlow
  split
  · exact flowExpr_of_closed own (component?_eq_some ‹_›).1 p
  · exact closed.const 0

theorem molarEnthalpy_of_closed (p : Phase) (c : ComponentFlows K) : P (state.molarEnthalpy p c) := by
  have sensible : P (.var state.temperature - .const state.referenceTemperature) :=
    closed.sub (own _ state.temperature_mem_vars) (closed.const _)
  cases p with
  | liquid => exact closed.mul (closed.const _) sensible
  | vapor => exact closed.add (closed.mul (closed.const _) sensible) (closed.const _)

theorem enthalpyFlow_of_closed (p : Phase) : P (state.enthalpyFlow p) :=
  closed.total (List.forall_mem_map.2 fun c inside =>
    closed.mul (flowExpr_of_closed own inside p) (molarEnthalpy_of_closed closed own p c))

theorem equilibriumBodies_of_closed (relation : Equilibrium K) : ∀ body ∈ state.equilibriumBodies relation, P body := by
  have liquid : ∀ c ∈ state.components, P (.var c.liquid) := fun c inside => flowExpr_of_closed own inside .liquid
  have vapor : ∀ c ∈ state.components, P (.var c.vapor) := fun c inside => flowExpr_of_closed own inside .vapor
  have phase := phaseFlow_of_closed closed own
  cases relation with
  | vaporFraction fraction =>
    exact List.forall_mem_map.2 fun c inside => closed.sub (vapor c inside)
      (closed.mul (closed.const fraction) (closed.add (liquid c inside) (vapor c inside)))
  | constantK factors =>
    intro body listed
    rw [equilibriumBodies, ← List.map_uncurry_zip_eq_zipWith] at listed
    obtain ⟨⟨c, factor⟩, paired, rfl⟩ := List.mem_map.1 listed
    have inside := (List.of_mem_zip paired).1
    exact closed.sub (closed.div (vapor c inside) (phase .vapor))
      (closed.mul (closed.const factor) (closed.div (liquid c inside) (phase .liquid)))

/-- All terms of whatever a state knows. -/
theorem forall_terms_of_member? {name : String} (known : state.member? name = some q) : ∀ entry ∈ q.terms, P entry.2 := by
  have flow : ∀ p, ∀ c ∈ state.components, P (c.flowExpr p) := fun p c inside => flowExpr_of_closed own inside p
  have phase := phaseFlow_of_closed closed own
  have total := totalFlow_of_closed closed own
  have component : ∀ c ∈ state.components, P (componentFlow c) := fun c inside => componentFlow_of_closed closed own inside
  have enthalpy := enthalpyFlow_of_closed closed own
  unfold member? at known
  split at known <;> cases known
  · exact List.forall_mem_singleton.2 (own _ state.temperature_mem_vars)
  · exact List.forall_mem_singleton.2 (own _ state.pressure_mem_vars)
  · exact List.forall_mem_singleton.2 total
  · exact forall_terms_byPhase phase
  · exact forall_terms_byComponent component
  · exact forall_terms_byPhaseComponent flow
  · exact forall_terms_byComponent fun c inside => closed.div (component c inside) total
  · exact forall_terms_byPhaseComponent fun p c inside => closed.div (flow p c inside) (phase p)
  · exact List.forall_mem_singleton.2
      (closed.div (closed.total (List.forall_mem_map.2 fun p _ => enthalpy p)) total)
  · exact forall_terms_byPhase fun p => closed.div (enthalpy p) (phase p)

/-- All terms of what an outlet port makes of a member. Only where a flow is divided does the share come in. -/
theorem forall_terms_of_resolved {name : String} {kind : MemberKind} {share : Share}
    (shared : kind.isSplit = true → P share.expr)
    (made : Split.resolveMember state.toState name kind p share = .ok q) : ∀ entry ∈ q.terms, P entry.2 := by
  cases synthesized : kind.isSynthesized with
  | false => exact forall_terms_of_member? closed own ((Split.resolveMember_referenced synthesized).1 made)
  | true =>
    obtain ⟨labels, terms⟩ := Split.resolveMember_synthesized synthesized made
    rintro ⟨label, e⟩ listed
    have among : label ∈ Split.labels state.toState name kind := labels ▸ List.mem_map_of_mem listed
    obtain ⟨whole, found, _, unique⟩ := terms label among
    rw [Split.siblingTerm?] at found
    obtain ⟨sibling, known, found⟩ := Option.bind_eq_some_iff.1 found
    obtain ⟨key, _, found⟩ := Option.bind_eq_some_iff.1 found
    have entry : (some key, whole) ∈ sibling.terms := Quantity.mem_terms_of_term? found
    have holds : P whole := forall_terms_of_member? closed own known _ entry
    change P e
    rw [unique e listed, Split.scaled]
    split
    · exact closed.mul holds (shared ‹_›)
    · exact holds

end IdealState

end Distillation
