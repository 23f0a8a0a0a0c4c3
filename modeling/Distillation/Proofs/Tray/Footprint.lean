import Distillation.Proofs.Property.IdealTerms
import Distillation.Proofs.Tray.Equations
import Distillation.Proofs.Tray.SideDraws

namespace Distillation

variable {K : Type}

namespace IdealState

/-- The expression refers to variables of the state alone. -/
def Owns (state : IdealState K) (e : Expr K) : Prop :=
  ∀ v ∈ e.vars, v ∈ state.vars

/-- All terms of a quantity refer to variables of the state alone. -/
def OwnsAll (state : IdealState K) (q : Quantity K) : Prop :=
  ∀ entry ∈ q.terms, state.Owns entry.2

variable {state : IdealState K} {p : Phase}

theorem owns_var {v : VarId} (own : v ∈ state.vars) : state.Owns (.var v) := by
  intro w occurs
  rw [Expr.vars_var, List.mem_singleton] at occurs
  exact occurs ▸ own

variable [Scalar K]

theorem closed_owns (state : IdealState K) : Expr.Closed state.Owns :=
  Expr.closed_vars (· ∈ state.vars)

/-- Whatever a state knows is said in its own variables. -/
theorem ownsAll_of_member? {name : String} {q : Quantity K} (known : state.member? name = some q) : state.OwnsAll q :=
  forall_terms_of_member? state.closed_owns (fun _ own => owns_var own) known

/-- What an outlet port shows of a state is said in the variables of the state and, where a flow is shared
out, in those of the share. -/
theorem vars_of_resolved {name : String} {kind : MemberKind} {share : Share} {q : Quantity K} {label : Option Key}
    {e : Expr K} {v : VarId} (made : Split.resolveMember state.toState name kind p share = .ok q)
    (listed : (label, e) ∈ q.terms) (occurs : v ∈ e.vars) :
    v ∈ state.vars ∨ kind.isSplit = true ∧ v ∈ (share.expr : Expr K).vars := by
  let inside (v : VarId) : Prop := v ∈ state.vars ∨ kind.isSplit = true ∧ v ∈ (share.expr : Expr K).vars
  have own : ∀ v ∈ state.vars, ∀ w ∈ (Expr.var v : Expr K).vars, inside w := fun _ own w occurs =>
    .inl (owns_var own w occurs)
  exact forall_terms_of_resolved (Expr.closed_vars inside) own (fun split w occurs => .inr ⟨split, occurs⟩) made _ listed
    v occurs

/-- The flows that are shared out between the outlets of a phase. -/
theorem name_of_isSplit {name : String} {kind : MemberKind} (carries : state.Carries name kind)
    (split : kind.isSplit = true) : name = "flow_mol" ∨ name = "flow_mol_comp" := by
  have table : ∀ entry ∈ carriedKinds, entry.2.isSplit = true → entry.1 = "flow_mol" ∨ entry.1 = "flow_mol_comp" := by
    decide
  exact table (name, kind) (mem_carriedKinds carries) split

end IdealState

namespace Tray

/-- The variables of a tray but for its split fractions: those of its states and its equipment. -/
def operating (tray : Tray K) : List VarId :=
  tray.states.flatMap (·.vars) ++ tray.balances.heatDuty.toList ++ tray.balances.pressureDrop.toList

theorem declared_eq (tray : Tray K) : tray.declared = tray.operating ++ tray.splits := rfl

theorem mem_operating {tray : Tray K} {v : VarId} : v ∈ tray.operating ↔
    (∃ state ∈ tray.states, v ∈ state.vars) ∨ v ∈ tray.balances.heatDuty ∨ v ∈ tray.balances.pressureDrop := by
  simp [operating]

theorem mem_splits_of_split? {tray : Tray K} {p : Phase} {v : VarId} (drawn : tray.split? p = some v) :
    v ∈ tray.splits := by
  cases p with
  | liquid => exact List.mem_append_left _ (Option.mem_toList.2 drawn)
  | vapor => exact List.mem_append_right _ (Option.mem_toList.2 drawn)

variable [Scalar K]

/-- A split fraction of a share is that of its phase, and the port is a side draw or what the draw leaves. -/
theorem split?_of_share {tray : Tray K} {outlet : Split.Outlet} {v : VarId} (listed : outlet ∈ tray.outflows)
    (occurs : v ∈ (outlet.share.expr : Expr K).vars) : ∃ p, tray.split? p = some v ∧
      (outlet.port = p.drawPort ∨ outlet.port = p.mainPort) := by
  have phase : ∀ p, outlet ∈ Split.outletsOf p.drawPort p.mainPort p (tray.split? p) →
      ∃ p, tray.split? p = some v ∧ (outlet.port = p.drawPort ∨ outlet.port = p.mainPort) := by
    intro p among
    cases drawn : tray.split? p with
    | none =>
      rw [drawn, Split.outletsOf, List.mem_singleton] at among
      rw [among, Share.expr, Expr.vars_const] at occurs
      cases occurs
    | some fraction =>
      rw [drawn, Split.outletsOf, List.mem_pair] at among
      rcases among with rfl | rfl
      · rw [Share.expr, Expr.vars_var, List.mem_singleton] at occurs
        exact ⟨p, occurs ▸ drawn, .inl rfl⟩
      · rw [Share.expr, Expr.mem_vars_sub, Expr.vars_const, Expr.vars_var, List.mem_singleton] at occurs
        have same : v = fraction := occurs.resolve_left List.not_mem_nil
        exact ⟨p, same ▸ drawn, .inr rfl⟩
  exact (List.mem_append.1 listed).elim (phase .liquid) (phase .vapor)

/-- An equation of a time point refers to the states of that time and to the equipment. -/
theorem own_of_body {package : IdealPackage K} {tray : Tray K} {stage : Stage} {point : IdealPoint K} {body : Expr K}
    {v : VarId} (listed : body ∈ bodiesAt package tray stage point) (occurs : v ∈ body.vars) :
    (∃ state ∈ point.states, v ∈ state.vars) ∨ v ∈ tray.balances.heatDuty ∨ v ∈ tray.balances.pressureDrop := by
  obtain ⟨level, each⟩ := exists_level listed
  rcases each v occurs with entering | leaving | ⟨rfl, ⟨_, rfl⟩ | ⟨_, rfl⟩⟩
  · rcases mem_incoming.1 entering with ⟨state, present, own⟩ | rfl | equipment
    · exact .inl ⟨state, IdealPoint.mem_states_of_inlet present, IdealState.mem_vars.2 (own.imp_right .inl)⟩
    · exact .inl ⟨point.vapor, IdealPoint.mem_states_of_inlet point.vapor_mem, point.vapor.pressure_mem_vars⟩
    · exact .inr equipment
  · exact .inl ⟨point.outlet, point.outlet_mem, IdealState.mem_vars_of_flow leaving⟩
  · exact .inl ⟨point.outlet, point.outlet_mem, point.outlet.temperature_mem_vars⟩
  · exact .inl ⟨point.outlet, point.outlet_mem, point.outlet.pressure_mem_vars⟩

namespace Anatomy

variable {package : IdealPackage K} {tray : Tray K} {points : List (IdealPoint K)}
  (anatomy : Anatomy package tray points) {v : VarId}
include anatomy

theorem operating_of_state {point : IdealPoint K} (inside : point ∈ points) {state : IdealState K}
    (present : state ∈ point.states) (own : v ∈ state.vars) : v ∈ tray.operating :=
  mem_operating.2 (.inl ⟨state.toState, anatomy.mem_states_of inside present, own⟩)

/-- At no stage do the equations refer to a split fraction. -/
theorem operating_of_referenced {stage : Stage} (occurs : v ∈ (tray.equipped stage).toModel.referenced) :
    v ∈ tray.operating := by
  obtain ⟨point, inside, body, listed, occurs⟩ :=
    (anatomy.exists_equation (fun body => v ∈ body.vars) stage).1 (Model.mem_referenced.1 occurs)
  rcases own_of_body listed occurs with ⟨state, present, own⟩ | equipment
  · exact anatomy.operating_of_state inside present own
  · exact mem_operating.2 (.inr equipment)

section Ports

variable {port : Port K} {name : String} {t : Nat} {key : Option Key} {e : Expr K}

theorem operating_of_input (entering : port ∈ tray.ports.inputs) (shown : port.term? name t key = some e)
    (occurs : v ∈ e.vars) : v ∈ tray.operating := by
  rw [Port.term?_eq] at shown
  obtain ⟨q, shown, found⟩ := Option.bind_eq_some_iff.1 shown
  obtain ⟨point, here, ideal, present, known⟩ := anatomy.exists_of_input entering shown
  have own := IdealState.ownsAll_of_member? known _ (Quantity.mem_terms_of_term? found) v occurs
  exact anatomy.operating_of_state (List.mem_of_getElem? here) (IdealPoint.mem_states_of_inlet present) own

/-- An outlet port refers to a split fraction only in the flows through a side draw and the main outlet of
its phase. -/
theorem operating_of_output (leaving : port ∈ tray.ports.outputs) (shown : port.term? name t key = some e)
    (occurs : v ∈ e.vars) : v ∈ tray.operating ∨ (name = "flow_mol" ∨ name = "flow_mol_comp") ∧
      ∃ p, tray.split? p = some v ∧ (port.name = p.drawPort ∨ port.name = p.mainPort) := by
  rw [Port.term?_eq] at shown
  obtain ⟨q, shown, found⟩ := Option.bind_eq_some_iff.1 shown
  obtain ⟨point, here, outlet, listed, named, kind, carries, made⟩ := anatomy.exists_of_output leaving shown
  rcases IdealState.vars_of_resolved made (Quantity.mem_terms_of_term? found) occurs with own | ⟨split, shared⟩
  · exact .inl (anatomy.operating_of_state (List.mem_of_getElem? here) point.outlet_mem own)
  · exact .inr ⟨IdealState.name_of_isSplit carries split, named ▸ split?_of_share listed shared⟩

/-- The ports of a tray refer to its own variables alone. -/
theorem declared_of_port (present : port ∈ tray.ports.inputs ++ tray.ports.outputs)
    (shown : port.term? name t key = some e) (occurs : v ∈ e.vars) : v ∈ tray.declared := by
  rw [declared_eq]
  rcases List.mem_append.1 present with entering | leaving
  · exact List.mem_append_left _ (anatomy.operating_of_input entering shown occurs)
  · rcases anatomy.operating_of_output leaving shown occurs with own | ⟨_, p, drawn, _⟩
    · exact List.mem_append_left _ own
    · exact List.mem_append_right _ (mem_splits_of_split? drawn)

end Ports

end Anatomy

theorem Placed.not_split_of_operating {package : IdealPackage K} {tray : Tray K} {points : List (IdealPoint K)}
    {s : Store K} (placed : Placed package tray points s) {v : VarId} (own : v ∈ tray.operating) : v ∉ tray.splits :=
  fun split => (List.nodup_append.1 placed.distinct).2.2 v own v split rfl

end Tray

end Distillation
