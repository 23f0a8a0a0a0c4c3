import Distillation.Proofs.Expr.Rate
import Distillation.Proofs.Tray.Ports

namespace Distillation

/-- The part of a term that a share leaves of it. -/
def Share.factor (x : VarId → ℝ) : Share → ℝ
  | whole => 1
  | drawn fraction => x fraction
  | remaining fraction => 1 - x fraction

theorem Share.valueAt_expr (share : Share) (x : VarId → ℝ) : (share.expr : Expr ℝ).valueAt x = share.factor x := by
  cases share <;> simp [expr, factor]

namespace Split

variable {kind : MemberKind}

theorem valueAt_scaled (split : kind.isSplit) (share : Share) (e : Expr ℝ) (x : VarId → ℝ) :
    (scaled kind share e).valueAt x = share.factor x * e.valueAt x := by
  rw [scaled, if_pos split, Expr.valueAt_mul, share.valueAt_expr, mul_comm]

/-- A port that takes a whole phase shows the entries of the sibling as they are. -/
theorem scaled_whole (kind : MemberKind) (e : Expr ℝ) : scaled kind .whole e = e := by
  rw [scaled, ite_eq_right_iff]
  intro _
  rw [Expr.mul_def, Expr.multiply]
  cases e <;> simp [Share.expr, Expr.toConst?]

end Split

/-- The port through which a side draw of a phase leaves. -/
def Phase.drawPort : Phase → String
  | liquid => "liq_side_draw"
  | vapor => "vap_side_draw"

/-- The port through which the rest of a phase leaves. -/
def Phase.mainPort : Phase → String
  | liquid => "liq_out"
  | vapor => "vap_out"

namespace Tray

section Ports

variable {K : Type}

/-- The split fraction of the side draw of a phase. -/
def split? (tray : Tray K) : Phase → Option VarId
  | .liquid => tray.liquidSplit
  | .vapor => tray.vaporSplit

/-- What an outlet port shows under a name at a time position. -/
def shown? (tray : Tray K) (port name : String) (t : Nat) : Option (Quantity K) :=
  (tray.ports.output? port).bind (·.quantity? name t)

theorem outflows_nodup (tray : Tray K) : (tray.outflows.map (·.port)).Nodup := by
  unfold outflows Split.outletsOf
  cases tray.liquidSplit <;> cases tray.vaporSplit <;> simp

theorem mem_outflows_of_split {tray : Tray K} {p : Phase} {fraction : VarId} (drawn : tray.split? p = some fraction) :
    ⟨p.drawPort, p, .drawn fraction⟩ ∈ tray.outflows ∧ ⟨p.mainPort, p, .remaining fraction⟩ ∈ tray.outflows := by
  cases p <;> rw [split?] at drawn <;> simp [outflows, Split.outletsOf, drawn, Phase.drawPort, Phase.mainPort]

theorem mem_outflows_of_whole {tray : Tray K} {p : Phase} (undrawn : tray.split? p = none) :
    ⟨p.mainPort, p, .whole⟩ ∈ tray.outflows := by
  cases p <;> rw [split?] at undrawn <;> simp [outflows, Split.outletsOf, undrawn, Phase.mainPort]

theorem exists_main_outflow (tray : Tray K) (p : Phase) : ∃ share, ⟨p.mainPort, p, share⟩ ∈ tray.outflows := by
  cases drawn : tray.split? p with
  | none => exact ⟨_, mem_outflows_of_whole drawn⟩
  | some fraction => exact ⟨_, (mem_outflows_of_split drawn).2⟩

/-- Ports that follow outlets of different names are found by their names. -/
theorem find?_of_forall₂ {R : Split.Outlet → Port K → Prop} {list : List Split.Outlet} {ports : List (Port K)}
    (related : List.Forall₂ R list ports) (named : ∀ outlet port, R outlet port → port.name = outlet.port)
    (nodup : (list.map (·.port)).Nodup) : ∀ outlet ∈ list,
      ∃ port, ports.find? (·.name == outlet.port) = some port ∧ R outlet port := by
  induction related with
  | nil => simp
  | @cons first port rest ports holds later ih =>
    obtain ⟨fresh, nodup⟩ := List.nodup_cons.1 nodup
    refine List.forall_mem_cons.2 ⟨⟨port, by simp [named _ _ holds], holds⟩, fun outlet among => ?_⟩
    obtain ⟨own, found, fits⟩ := ih nodup outlet among
    have other : port.name ≠ outlet.port := fun same =>
      fresh (List.mem_map.2 ⟨outlet, among, by rw [← same, named _ _ holds]⟩)
    exact ⟨own, by rw [List.find?_cons_of_neg (by simpa using other), found], fits⟩

end Ports

section Build

variable {K : Type} [Scalar K] {package : PropertyPackage K} {config : TrayConfig K} {time : TimeSet K} {s t : Store K}

omit [Scalar K] in
theorem length_declareStates {tray : String} {points : List (TrayStates K)}
    (run : (declareStates tray config package time).on s = (.ok points, t)) : points.length = time.count := by
  have stream {label : String} {spec : StateSpec K} {states : List (PropertyState K)} {s t : Store K}
      (run : (declareStream package time label spec).on s = (.ok states, t)) : states.length = time.count := by
    rw [Action.length_of_on_mapM run, time.length_indices]
  obtain ⟨feeds, liquids, vapors, outlets, a, b, c, feedRun, liquidRun, vaporRun, outletRun, rfl⟩ :=
    opened_of_declareStates run
  have feedCount : feeds.length = time.count := by
    unfold declareFeed at feedRun
    split at feedRun
    · obtain ⟨states, declared, rfl⟩ := Action.on_map_eq_ok.1 feedRun
      rw [List.length_map, stream declared]
    · cases feedRun
      rw [List.length_map, time.length_indices]
  simp [feedCount, stream liquidRun, stream vaporRun, stream outletRun]

/-- A build resolves the outlet ports from the outlet states that it has declared, with a split fraction
for each side draw that was asked for. -/
theorem outlets_of_build {name : String} {tray : Tray K}
    (built : (build name config package time).on s = (.ok tray, t)) :
    tray.outlets.length = time.count ∧ (tray.split? .liquid).isSome = config.liquidDraw ∧
      (tray.split? .vapor).isSome = config.vaporDraw ∧ ∃ schema, Split.schema tray.outlets = .ok schema ∧
      Split.resolveOutlets tray.outlets schema tray.outflows .empty = .ok (tray.ports.outputs, tray.expressions) := by
  obtain ⟨_, _, _, ⟨a, b, c, statesRun, _, liquidRun, vaporRun⟩, _, resolved⟩ := opened_of_build built
  refine ⟨?_, (Balances.optional_eq_ok liquidRun).2.1, (Balances.optional_eq_ok vaporRun).2.1, bind_eq_ok.1 resolved⟩
  rw [outlets, List.length_map, length_declareStates statesRun]

variable {tray : Tray K} {schema : Split.Schema} {name : String} {kind : MemberKind} {k : Nat} {state : PropertyState K}

/-- Each outlet shows, under the name of an entry of the schema, what is resolved for that entry. -/
theorem shown_of_resolved (accepted : Split.schema tray.outlets = .ok schema)
    (resolved : Split.resolveOutlets tray.outlets schema tray.outflows .empty =
      .ok (tray.ports.outputs, tray.expressions)) (listed : (name, kind) ∈ schema)
    (here : tray.outlets[k]? = some state) : ∀ outlet ∈ tray.outflows,
      ∃ q, Split.resolveMember state name kind outlet.phase outlet.share = .ok q ∧
        tray.shown? outlet.port name k = some q := by
  intro outlet leaving
  have each := (Split.resolvePort_of_resolveOutlets resolved).imp fun outlet port ⟨_, _, made⟩ =>
    Split.quantity?_of_resolved accepted made listed here
  obtain ⟨port, found, _, q, made, shown⟩ :=
    find?_of_forall₂ each (fun _ _ fits => fits.1) tray.outflows_nodup outlet leaving
  exact ⟨q, made, by rw [shown?, PortSet.output?, found, Option.bind_some, shown]⟩

end Build

/-- What the outlet ports show of a member at a time point is shared out between them. A flow is divided
between the side draw of a phase and its main outlet, entry by entry, and anything else is the same on both;
a main outlet without a side draw shows the entries themselves, and what is not built from them is the
state's own on every outlet port. -/
structure SharesOut (tray : Tray ℝ) (name : String) (kind : MemberKind) (t : Nat) (state : PropertyState ℝ) : Prop where
  divided : ∀ p fraction, tray.split? p = some fraction → kind.isSplit = true → ∃ drawn main,
    tray.shown? p.drawPort name t = some drawn ∧ tray.shown? p.mainPort name t = some main ∧
    drawn.terms.map (·.1) = Split.labels state name kind ∧ main.terms.map (·.1) = Split.labels state name kind ∧
    ∀ label ∈ Split.labels state name kind, ∃ e a b, Split.siblingTerm? state name kind p label = some e ∧
      drawn.Reads label a ∧ main.Reads label b ∧ ∀ x, a.valueAt x = x fraction * e.valueAt x ∧
        b.valueAt x = (1 - x fraction) * e.valueAt x ∧ a.valueAt x + b.valueAt x = e.valueAt x
  alike : ∀ p fraction, tray.split? p = some fraction → kind.isSplit = false → ∃ q,
    tray.shown? p.drawPort name t = some q ∧ tray.shown? p.mainPort name t = some q
  whole : ∀ p, tray.split? p = none → kind.isSynthesized = true → ∃ main,
    tray.shown? p.mainPort name t = some main ∧ main.terms.map (·.1) = Split.labels state name kind ∧
    ∀ label ∈ Split.labels state name kind, ∃ e, Split.siblingTerm? state name kind p label = some e ∧ main.Reads label e
  own : kind.isSynthesized = false → ∃ q, state.member? name = some q ∧
    ∀ port ∈ tray.ports.outputs, port.quantity? name t = some q

section Conservation

variable {tray : Tray ℝ} {schema : Split.Schema} {name : String} {kind : MemberKind} {t : Nat}
  {state : PropertyState ℝ}

theorem sharesOut_of_resolved (accepted : Split.schema tray.outlets = .ok schema)
    (resolved : Split.resolveOutlets tray.outlets schema tray.outflows .empty =
      .ok (tray.ports.outputs, tray.expressions)) (listed : (name, kind) ∈ schema)
    (here : tray.outlets[t]? = some state) : tray.SharesOut name kind t state := by
  have shown := shown_of_resolved accepted resolved listed here
  refine ⟨fun p fraction drawn split => ?_, fun p fraction drawn unscaled => ?_, fun p undrawn synthesized => ?_,
    fun referenced => ?_⟩
  · obtain ⟨draw, rest⟩ := mem_outflows_of_split drawn
    obtain ⟨d, drawnMade, drawnShown⟩ := shown _ draw
    obtain ⟨m, restMade, restShown⟩ := shown _ rest
    have synthesized := MemberKind.isSynthesized_of_isSplit split
    obtain ⟨drawnLabels, drawnTerms⟩ := Split.resolveMember_synthesized synthesized drawnMade
    obtain ⟨restLabels, restTerms⟩ := Split.resolveMember_synthesized synthesized restMade
    refine ⟨d, m, drawnShown, restShown, drawnLabels, restLabels, fun label among => ?_⟩
    obtain ⟨e, known, drawnReads⟩ := drawnTerms label among
    obtain ⟨e', known', restReads⟩ := restTerms label among
    rw [known, Option.some.injEq] at known'
    subst known'
    refine ⟨e, _, _, known, drawnReads, restReads, fun x => ?_⟩
    rw [Split.valueAt_scaled split, Split.valueAt_scaled split]
    exact ⟨rfl, rfl, by rw [Share.factor, Share.factor]; ring⟩
  · obtain ⟨draw, rest⟩ := mem_outflows_of_split drawn
    obtain ⟨d, drawnMade, drawnShown⟩ := shown _ draw
    obtain ⟨m, restMade, restShown⟩ := shown _ rest
    rw [Split.resolveMember_congr unscaled (.remaining fraction), restMade, Except.ok.injEq] at drawnMade
    exact ⟨m, drawnMade ▸ drawnShown, restShown⟩
  · obtain ⟨m, made, mainShown⟩ := shown _ (mem_outflows_of_whole undrawn)
    obtain ⟨labels, terms⟩ := Split.resolveMember_synthesized synthesized made
    refine ⟨m, mainShown, labels, fun label among => ?_⟩
    obtain ⟨e, known, reads⟩ := terms label among
    exact ⟨e, known, Split.scaled_whole kind e ▸ reads⟩
  · obtain ⟨_, leaving⟩ := tray.exists_main_outflow .liquid
    obtain ⟨q, made, _⟩ := shown _ leaving
    have known := (Split.resolveMember_referenced referenced).1 made
    refine ⟨q, known, fun port leaving => ?_⟩
    obtain ⟨_, _, _, _, made⟩ := exists_left_of_forall₂ (Split.resolvePort_of_resolveOutlets resolved) leaving
    obtain ⟨_, r, madeHere, portShown⟩ := Split.quantity?_of_resolved accepted made listed here
    rw [Split.resolveMember_referenced referenced, known] at madeHere
    rw [portShown, ← madeHere]

end Conservation

/-- Side draws neither lose nor create flow: whatever the property package, the outlet ports of a tray have the
members that are carried, and share out what the outlet states say of each at every time point. -/
theorem side_draws_conserve {package : PropertyPackage ℝ} {config : TrayConfig ℝ} {time : TimeSet ℝ}
    {title : String} {tray : Tray ℝ} {s₀ s₁ : Store ℝ}
    (built : (build title config package time).on s₀ = (.ok tray, s₁)) :
    tray.outlets.length = time.count ∧ (tray.split? .liquid).isSome = config.liquidDraw ∧
    (tray.split? .vapor).isSome = config.vaporDraw ∧ ∃ schema, Split.schema tray.outlets = .ok schema ∧
    (∀ port ∈ tray.ports.outputs, port.members.map (·.name) = schema.map (·.1)) ∧
    ∀ name kind, (name, kind) ∈ schema → ∀ t state, tray.outlets[t]? = some state →
      tray.SharesOut name kind t state := by
  obtain ⟨count, liquid, vapor, schema, accepted, resolved⟩ := outlets_of_build built
  refine ⟨count, liquid, vapor, schema, accepted, fun port leaving => ?_, fun name kind listed t state here =>
    sharesOut_of_resolved accepted resolved listed here⟩
  obtain ⟨_, _, _, _, made⟩ := exists_left_of_forall₂ (Split.resolvePort_of_resolveOutlets resolved) leaving
  exact Split.names_of_resolved made

theorem side_draws_conserve_liquid : ∃ (tray : Tray ℝ) (s : Store ℝ),
    (build "tray" ⟨false, true, false, false, false, .empty⟩ IdealPackage.benzeneToluene.toPackage .steady).on .empty =
      (.ok tray, s) ∧ tray.outlets.length = 1 ∧ (tray.split? .liquid).isSome = true ∧
    (tray.split? .vapor).isSome = false ∧ ∃ schema, Split.schema tray.outlets = .ok schema ∧
    (∀ port ∈ tray.ports.outputs, port.members.map (·.name) = schema.map (·.1)) ∧
    ∀ name kind, (name, kind) ∈ schema → ∀ t state, tray.outlets[t]? = some state →
      tray.SharesOut name kind t state := by
  obtain ⟨tray, s, built⟩ : ∃ (tray : Tray ℝ) (s : Store ℝ),
      (build "tray" ⟨false, true, false, false, false, .empty⟩ IdealPackage.benzeneToluene.toPackage .steady).on
        .empty = (.ok tray, s) := ⟨_, _, rfl⟩
  exact ⟨tray, s, built, side_draws_conserve built⟩

end Tray

end Distillation
