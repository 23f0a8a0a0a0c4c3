import Distillation.Proofs.Property.IdealFlows
import Distillation.Proofs.Tray.Anatomy
import Distillation.Proofs.Tray.PassThrough
import Distillation.Proofs.Tray.Resolution

namespace Distillation

namespace IdealState

variable {K : Type} (state : IdealState K)

theorem get?_byComponent (term : ComponentFlows K → Expr K) (name : String) :
    (state.byComponent term).get? (.component name) = (state.component? name).map term := by
  have named : (fun c : ComponentFlows K => Key.component name == Key.component c.data.name) =
      fun c => c.data.name == name := by
    funext c
    rw [Bool.eq_iff_iff, beq_iff_eq, beq_iff_eq, Key.component.injEq, eq_comm]
  rw [byComponent]
  change List.lookup _ _ = _
  rw [lookup_map, component?, named]

theorem get?_byPhaseComponent (term : Phase → ComponentFlows K → Expr K) (p : Phase) (name : String) :
    (state.byPhaseComponent term).get? (.phaseComponent p name) = (state.component? name).map (term p) := by
  have named : ∀ q, (state.components.map fun c => (Key.phaseComponent q c.data.name, term q c)).lookup
      (.phaseComponent p name) = if q = p then (state.component? name).map (term p) else none := by
    intro q
    rw [lookup_map, component?]
    split
    · rename_i same
      subst same
      refine congrArg (Option.map _) (congrArg (List.find? · _) ?_)
      funext c
      rw [Bool.eq_iff_iff, beq_iff_eq, beq_iff_eq, Key.phaseComponent.injEq, eq_comm (a := name)]
      simp
    · rename_i other
      have none : state.components.find? (fun c => Key.phaseComponent p name == .phaseComponent q c.data.name) = none := by
        refine List.find?_eq_none.2 fun c _ => ?_
        rw [beq_iff_eq, Key.phaseComponent.injEq]
        exact fun both => other both.1.symm
      rw [none]
      rfl
  rw [byPhaseComponent]
  change List.lookup _ _ = _
  rw [Phase.both, List.flatMap_cons, List.flatMap_cons, List.flatMap_nil,
    List.append_nil, List.lookup_append, named, named]
  cases p <;> simp

variable [Scalar K]

theorem member?_isSome (other : IdealState K) (name : String) :
    (state.member? name).isSome = (other.member? name).isSome := by
  unfold member?
  split <;> rfl

/-- Whether a quantity is indexed depends on its name alone. -/
theorem isIndexed_of_member? {state other : IdealState K} {name : String} {q q' : Quantity K}
    (known : state.member? name = some q) (known' : other.member? name = some q') : q.isIndexed = q'.isIndexed := by
  unfold member? at known known'
  split at known <;> cases known <;> cases known' <;> rfl

/-- The state knows a quantity of this name, which outlet ports carry as one of a kind. -/
def Carries (state : IdealState K) (name : String) (kind : MemberKind) : Prop :=
  ∃ q, state.member? name = some q ∧ MemberKind.classify name q.isIndexed = .ok (some kind)

/-- The quantities of an ideal state that outlet ports carry, with their kinds. -/
def carriedKinds : List (String × MemberKind) :=
  [("temperature", .intensive), ("pressure", .intensive), ("flow_mol", .flowTotal),
    ("flow_mol_comp", .flowByComponent), ("mole_frac_comp", .fractionTotal),
    ("mole_frac_phase_comp", .fractionByPhase), ("enth_mol", .enthalpyTotal), ("enth_mol_phase", .enthalpyByPhase)]

/-- The flows of an ideal state that outlet ports refuse: they are told apart by phase already. -/
def phaseFlowNames : List String :=
  ["flow_mol_phase", "flow_mol_phase_comp"]

/-- A declared name is passed over, carried as one of a kind, or refused. -/
theorem member?_cases (state : IdealState K) (name : String) :
    (state.member? name = none ∧ carriedKinds.lookup name = none ∧ name ∉ phaseFlowNames) ∨
    (∃ q kind, state.member? name = some q ∧ carriedKinds.lookup name = some kind ∧ name ∉ phaseFlowNames ∧
      MemberKind.classify name q.isIndexed = .ok (some kind)) ∨
    ∃ q, state.member? name = some q ∧ name ∈ phaseFlowNames ∧
      MemberKind.classify name q.isIndexed = .error (.unsupportedFlowMember name) := by
  have told : ∀ entry ∈ [("temperature", MemberKind.intensive, false), ("pressure", .intensive, false),
      ("flow_mol", .flowTotal, false), ("flow_mol_comp", .flowByComponent, true), ("mole_frac_comp", .fractionTotal, true),
      ("mole_frac_phase_comp", .fractionByPhase, true), ("enth_mol", .enthalpyTotal, false),
      ("enth_mol_phase", .enthalpyByPhase, true)],
      carriedKinds.lookup entry.1 = some entry.2.1 ∧ entry.1 ∉ phaseFlowNames ∧
        MemberKind.classify entry.1 entry.2.2 = .ok (some entry.2.1) := by decide
  have refused : ∀ name ∈ phaseFlowNames, MemberKind.classify name true = .error (.unsupportedFlowMember name) := by
    decide
  unfold member?
  split
  · exact .inr (.inl ⟨_, .intensive, rfl, told ("temperature", .intensive, false) (by decide)⟩)
  · exact .inr (.inl ⟨_, .intensive, rfl, told ("pressure", .intensive, false) (by decide)⟩)
  · exact .inr (.inl ⟨_, .flowTotal, rfl, told ("flow_mol", .flowTotal, false) (by decide)⟩)
  · exact .inr (.inr ⟨_, rfl, by decide, refused _ (by decide)⟩)
  · exact .inr (.inl ⟨_, .flowByComponent, rfl, told ("flow_mol_comp", .flowByComponent, true) (by decide)⟩)
  · exact .inr (.inr ⟨_, rfl, by decide, refused _ (by decide)⟩)
  · exact .inr (.inl ⟨_, .fractionTotal, rfl, told ("mole_frac_comp", .fractionTotal, true) (by decide)⟩)
  · exact .inr (.inl ⟨_, .fractionByPhase, rfl, told ("mole_frac_phase_comp", .fractionByPhase, true) (by decide)⟩)
  · exact .inr (.inl ⟨_, .enthalpyTotal, rfl, told ("enth_mol", .enthalpyTotal, false) (by decide)⟩)
  · exact .inr (.inl ⟨_, .enthalpyByPhase, rfl, told ("enth_mol_phase", .enthalpyByPhase, true) (by decide)⟩)
  · refine .inl ⟨rfl, List.lookup_eq_none_iff.2 fun entry listed => ?_, ?_⟩
    · simp only [carriedKinds, List.mem_cons, List.not_mem_nil, or_false] at listed
      grind
    · simp_all [phaseFlowNames]

/-- Whatever a state knows is carried, or refused since it is a flow that is told apart by phase. -/
theorem classify_of_member? {state : IdealState K} {name : String} {q : Quantity K} (known : state.member? name = some q) :
    (∃ kind, (name, kind) ∈ carriedKinds ∧ MemberKind.classify name q.isIndexed = .ok (some kind)) ∨
      MemberKind.classify name q.isIndexed = .error (.unsupportedFlowMember name) := by
  rcases state.member?_cases name with ⟨unknown, _⟩ | ⟨own, kind, known', found, _, classified⟩ | ⟨own, known', _, refused⟩
  · rw [unknown] at known
    cases known
  · obtain rfl : own = q := Option.some.inj (known'.symm.trans known)
    exact .inl ⟨kind, mem_of_lookup_eq_some found, classified⟩
  · obtain rfl : own = q := Option.some.inj (known'.symm.trans known)
    exact .inr refused

/-- The name alone tells the kind. -/
theorem mem_carriedKinds {state : IdealState K} {name : String} {kind : MemberKind} (carries : state.Carries name kind) :
    (name, kind) ∈ carriedKinds := by
  obtain ⟨q, known, classified⟩ := carries
  rcases classify_of_member? known with ⟨expected, listed, table⟩ | refused
  · rw [table] at classified
    cases classified
    exact listed
  · cases refused.symm.trans classified

theorem offered_names :
    state.offered.map (·.1) = state.portMembers.filter fun name => (state.member? name).isSome := by
  unfold offered
  induction state.portMembers with
  | nil => rfl
  | cons name rest ih =>
    rw [List.filterMap_cons, List.filter_cons]
    cases state.member? name with
    | none => simpa using ih
    | some q => simpa using ih

theorem member?_of_offered {name : String} {q : Quantity K} (listed : (name, q) ∈ state.offered) :
    state.member? name = some q := by
  obtain ⟨own, _, found⟩ := List.mem_filterMap.1 listed
  obtain ⟨r, known, same⟩ := Option.map_eq_some_iff.1 found
  cases same
  exact known

theorem mem_offered {name : String} (listed : name ∈ state.portMembers) {q : Quantity K}
    (known : state.member? name = some q) : (name, q) ∈ state.offered :=
  List.mem_filterMap.2 ⟨name, listed, by rw [known]; rfl⟩

end IdealState

namespace Tray

variable {K : Type} [Scalar K] {wanted : String} {quantity : IdealState K → Quantity K}

/-- The members of an inlet port have the names that the states of its stream offer, in their order. -/
theorem passThrough_names (port : String) (first : IdealState K) (rest : List (IdealState K)) :
    (passThrough port ((first :: rest).map IdealState.toState)).members.map (·.name) = first.offered.map (·.1) :=
  names_passThrough port _

/-- At each time a member of an inlet port shows what the state of its stream knows under its name. -/
theorem passThrough_values (port : String) {streams : List (IdealState K)} {names : List String}
    (same : ∀ ideal ∈ streams, ideal.portMembers = names) :
    ∀ member ∈ (passThrough port (streams.map IdealState.toState)).members,
      List.Forall₂ (fun ideal q => ideal.member? member.name = some q) streams member.values := by
  intro member inside
  have alike : ∀ state ∈ streams.map IdealState.toState, state.offers = firstOffers (streams.map IdealState.toState) := by
    intro state among
    obtain ⟨ideal, own, rfl⟩ := List.mem_map.1 among
    cases streams with
    | nil => cases own
    | cons first rest =>
      change ideal.offered.map (·.1) = first.offered.map (·.1)
      rw [ideal.offered_names, first.offered_names, same ideal own, same first List.mem_cons_self]
      exact List.filter_congr fun name _ => ideal.member?_isSome first name
  exact (List.forall₂_map_left_iff.1 (forall₂_values_passThrough alike member inside)).imp fun ideal _ listed =>
    ideal.member?_of_offered listed

/-- An inlet port shows what the states of its stream know. -/
theorem passThrough_shows (port : String) {streams : List (IdealState K)} (present : streams ≠ [])
    {names : List String} (same : ∀ ideal ∈ streams, ideal.portMembers = names) (listed : wanted ∈ names)
    (knows : ∀ ideal, ideal.member? wanted = some (quantity ideal)) :
    (passThrough port (streams.map IdealState.toState)).Shows wanted (streams.map quantity) := by
  refine Port.shows_of_members ?_ fun member inside named => ?_
  · obtain ⟨first, rest, rfl⟩ := List.exists_cons_of_ne_nil present
    rw [passThrough_names]
    exact List.mem_map.2 ⟨_, first.mem_offered (by rwa [same first List.mem_cons_self]) (knows first), rfl⟩
  · have values := passThrough_values port same member inside
    rw [named] at values
    have each : List.Forall₂ (fun ideal q => quantity ideal = q) streams member.values :=
      values.imp fun ideal q found => Option.some.inj ((knows ideal).symm.trans found)
    exact (List.forall₂_eq_eq_eq ▸ List.forall₂_map_left_iff.2 each : streams.map quantity = member.values).symm

/-- The outlet ports of a tray before they are resolved. -/
def outflows {K : Type} (tray : Tray K) : List Split.Outlet :=
  Split.outletsOf "liq_side_draw" "liq_out" .liquid tray.liquidSplit ++
    Split.outletsOf "vap_side_draw" "vap_out" .vapor tray.vaporSplit

namespace Anatomy

variable {package : IdealPackage K} {tray : Tray K} {points : List (IdealPoint K)}

section Openings

variable (anatomy : Anatomy package tray points) {port : Port K} {name : String} {t : Nat} {q : Quantity K}
include anatomy

/-- Every inlet port passes on the states of one stream, a state for each time point. -/
theorem exists_stream (entering : port ∈ tray.ports.inputs) : ∃ title, ∃ streams : List (IdealState K),
    port = passThrough title (streams.map IdealState.toState) ∧
      List.Forall₂ (fun point ideal => ideal ∈ point.inlets) points streams := by
  have stream : ∀ own : IdealPoint K → IdealState K, (∀ point ∈ points, own point ∈ point.inlets) →
      List.Forall₂ (fun point ideal => ideal ∈ point.inlets) points (points.map own) :=
    fun own present => List.forall₂_map_right_iff.2 (List.forall₂_same.2 present)
  rw [anatomy.inputs, anatomy.points_eq, inletPorts] at entering
  rcases List.mem_append.1 entering with feeding | passing
  · split at feeding
    · rename_i equipped
      refine ⟨"feed", points.filterMap (·.feed), ?_, forall₂_filterMap fun point inside => ?_⟩
      · rw [List.mem_singleton.1 feeding]
        simp [IdealPoint.toStates, List.filterMap_map, List.map_filterMap, Function.comp_def]
      · obtain ⟨ideal, fed⟩ := Option.isSome_iff_exists.1 ((anatomy.feed point inside).trans equipped)
        exact ⟨ideal, fed, by simp [IdealPoint.inlets, fed]⟩
    · simp at feeding
  · rcases List.mem_pair.1 passing with rfl | rfl
    · refine ⟨"liq_in", points.map (·.liquid), ?_, stream _ fun point _ => point.liquid_mem⟩
      simp [IdealPoint.toStates, Function.comp_def]
    · refine ⟨"vap_in", points.map (·.vapor), ?_, stream _ fun point _ => point.vapor_mem⟩
      simp [IdealPoint.toStates, Function.comp_def]

/-- The inlet ports pass on, one by one, the streams of the states that enter at a time. -/
theorem inputs_streams {point : IdealPoint K} (found : points[t]? = some point) :
    List.Forall₂ (fun state port => ∃ title, ∃ streams : List (IdealState K),
      port = passThrough title (streams.map IdealState.toState) ∧ streams[t]? = some state ∧
        ∀ ideal ∈ streams, ∃ point ∈ points, ideal ∈ point.states) point.inlets tray.ports.inputs := by
  have each : ∀ (title : String) (stream : IdealPoint K → IdealState K), (∀ other ∈ points, stream other ∈ other.states) →
      ∃ name, ∃ streams : List (IdealState K), passThrough title ((points.map stream).map IdealState.toState) =
        passThrough name (streams.map IdealState.toState) ∧ streams[t]? = some (stream point) ∧
          ∀ ideal ∈ streams, ∃ point ∈ points, ideal ∈ point.states := by
    intro title stream own
    refine ⟨title, points.map stream, rfl, by rw [List.getElem?_map, found, Option.map_some], fun ideal inside => ?_⟩
    obtain ⟨other, among, rfl⟩ := List.mem_map.1 inside
    exact ⟨other, among, own other among⟩
  have liquid := each "liq_in" (·.liquid) fun other _ => IdealPoint.mem_states_of_inlet other.liquid_mem
  have vapor := each "vap_in" (·.vapor) fun other _ => IdealPoint.mem_states_of_inlet other.vapor_mem
  have feeds : (points.map IdealPoint.toStates).filterMap (·.feed) =
      (points.filterMap (·.feed)).map IdealState.toState := by
    simp [IdealPoint.toStates, List.filterMap_map, List.map_filterMap, Function.comp_def]
  have liquids : (points.map IdealPoint.toStates).map (·.liquid) =
      (points.map (·.liquid)).map IdealState.toState := by simp [IdealPoint.toStates]
  have vapors : (points.map IdealPoint.toStates).map (·.vapor) =
      (points.map (·.vapor)).map IdealState.toState := by simp [IdealPoint.toStates]
  have equipped := anatomy.feed point (List.mem_of_getElem? found)
  rw [anatomy.inputs, anatomy.points_eq, inletPorts, feeds, liquids, vapors, ← equipped, IdealPoint.inlets]
  cases feed : point.feed with
  | none => exact .cons liquid (.cons vapor .nil)
  | some state =>
    have fed : ∀ other ∈ points, other.feed.isSome := by
      intro other among
      rw [anatomy.feed other among, ← equipped, feed]
      rfl
    have here : (points.filterMap (·.feed))[t]? = some state := by
      rw [getElem?_filterMap_of_isSome _ fed, found, Option.bind_some, feed]
    refine .cons ⟨"feed", points.filterMap (·.feed), rfl, here, fun ideal inside => ?_⟩ (.cons liquid (.cons vapor .nil))
    obtain ⟨point, among, own⟩ := List.mem_filterMap.1 inside
    exact ⟨point, among, by simp [IdealPoint.states, IdealPoint.inlets, own]⟩

/-- Whatever an inlet port shows at a time, a state that enters at that time knows. -/
theorem exists_of_input (entering : port ∈ tray.ports.inputs) (shown : port.quantity? name t = some q) :
    ∃ point, points[t]? = some point ∧ ∃ ideal ∈ point.inlets, ideal.member? name = some q := by
  obtain ⟨title, streams, rfl, related⟩ := anatomy.exists_stream entering
  have same : ∀ ideal ∈ streams, ideal.portMembers = package.portMembers := by
    intro ideal among
    obtain ⟨point, inside, present⟩ := exists_left_of_forall₂ related among
    exact (anatomy.fits point inside ideal (IdealPoint.mem_states_of_inlet present)).portMembers
  obtain ⟨member, found, here⟩ := Option.bind_eq_some_iff.1 shown
  have named : member.name = name := by simpa using List.find?_some found
  have values := passThrough_values title same member (List.mem_of_find?_eq_some found)
  obtain ⟨ideal, position, known⟩ := exists_getElem?_of_forall₂ values.flip here
  obtain ⟨point, atTime, present⟩ := exists_getElem?_of_forall₂ related.flip position
  exact ⟨point, atTime, ideal, present, named ▸ known⟩

/-- What the schema of the outlet ports names, the outlet states of all time points carry. -/
theorem carries_of_schema {schema : Split.Schema} (accepted : Split.schema tray.outlets = .ok schema) {kind : MemberKind}
    (listed : (name, kind) ∈ schema) {point : IdealPoint K} (inside : point ∈ points) : point.outlet.Carries name kind := by
  obtain ⟨first, rest, rfl⟩ := List.exists_cons_of_ne_nil (List.ne_nil_of_mem inside)
  rw [anatomy.outlets_eq] at accepted
  obtain ⟨own, offered, classified⟩ := (Split.mem_schemaOf accepted).1 listed
  have known : first.outlet.member? name = some own := first.outlet.member?_of_offered offered
  have present := point.outlet.member?_isSome first.outlet name
  rw [known] at present
  obtain ⟨here, knownHere⟩ := Option.isSome_iff_exists.1 present
  exact ⟨here, knownHere, IdealState.isIndexed_of_member? known knownHere ▸ classified⟩

/-- Whatever an outlet port shows at a time has been resolved from the outlet state of that time. -/
theorem exists_of_output (leaving : port ∈ tray.ports.outputs) (shown : port.quantity? name t = some q) :
    ∃ point, points[t]? = some point ∧ ∃ outlet ∈ tray.outflows, port.name = outlet.port ∧
      ∃ kind, point.outlet.Carries name kind ∧
        Split.resolveMember point.outlet.toState name kind outlet.phase outlet.share = .ok q := by
  obtain ⟨schema, accepted, resolved⟩ := bind_eq_ok.1 anatomy.outputs
  obtain ⟨outlet, among, kept, after, made⟩ :=
    exists_left_of_forall₂ (Split.resolvePort_of_resolveOutlets resolved) leaving
  obtain ⟨named, kind, state, listed, here, value⟩ := Split.exists_resolved_of_quantity? made shown
  rw [anatomy.outlets_eq, List.getElem?_map] at here
  obtain ⟨point, found, rfl⟩ := Option.map_eq_some_iff.1 here
  exact ⟨point, found, outlet, among, named, kind,
    anatomy.carries_of_schema accepted listed (List.mem_of_getElem? found), value⟩

end Openings

variable (anatomy : Anatomy package tray points) (listed : wanted ∈ package.portMembers)
variable (knows : ∀ ideal, ideal.member? wanted = some (quantity ideal)) {t : Nat}
include anatomy listed knows

theorem stream_shows (port : String) {streams : List (IdealState K)}
    (own : ∀ ideal ∈ streams, ∃ point ∈ points, ideal ∈ point.states) {state : IdealState K}
    (here : streams[t]? = some state) :
    (passThrough port (streams.map IdealState.toState)).quantity? wanted t = some (quantity state) := by
  have same : ∀ ideal ∈ streams, ideal.portMembers = package.portMembers := by
    intro ideal among
    obtain ⟨point, inside, present⟩ := own ideal among
    exact (anatomy.fits point inside ideal present).portMembers
  have shows := passThrough_shows port (List.ne_nil_of_mem (List.mem_of_getElem? here)) same listed knows
  rw [shows.quantity?_eq, List.getElem?_map, here, Option.map_some]

variable {point : IdealPoint K} (found : points[t]? = some point)
include found

/-- The inlet ports show what the inlet states know at that time. -/
theorem inputs_show : List.Forall₂ (fun state port => port.quantity? wanted t = some (quantity state))
    point.inlets tray.ports.inputs := by
  refine (anatomy.inputs_streams found).imp ?_
  rintro state port ⟨title, streams, rfl, here, own⟩
  exact anatomy.stream_shows listed knows title own here

/-- The outlet ports show what is resolved from the outlet state of that time. -/
theorem outputs_show {kind : MemberKind}
    (classified : ∀ ideal, MemberKind.classify wanted (quantity ideal).isIndexed = .ok (some kind)) :
    List.Forall₂ (fun outlet port => ∃ value,
      Split.resolveMember point.outlet.toState wanted kind outlet.phase outlet.share = .ok value ∧
        port.quantity? wanted t = some value) tray.outflows tray.ports.outputs := by
  have here : tray.outlets[t]? = some point.outlet.toState := by rw [anatomy.outlets_eq, List.getElem?_map, found]; rfl
  obtain ⟨schema, accepted, resolved⟩ := bind_eq_ok.1 anatomy.outputs
  have carried : (wanted, kind) ∈ schema := by
    obtain ⟨first, rest, rfl⟩ := List.exists_cons_of_ne_nil (List.ne_nil_of_mem (List.mem_of_getElem? found))
    rw [anatomy.outlets_eq] at accepted
    have names := (anatomy.fits first List.mem_cons_self first.outlet first.outlet_mem).portMembers
    exact (Split.mem_schemaOf accepted).2
      ⟨_, first.outlet.mem_offered (names ▸ listed) (knows first.outlet), classified first.outlet⟩
  refine (Split.resolvePort_of_resolveOutlets resolved).imp ?_
  rintro outlet port ⟨name, direction, made⟩
  exact (Split.quantity?_of_resolved accepted made carried here).2

section Readings

variable {β : Type} {read : Quantity K → Option β}

/-- What is read off the inlet ports is read off what the inlet states know. -/
theorem inputs_read {entering : IdealState K → β}
    (enters : ∀ state ∈ point.inlets, read (quantity state) = some (entering state)) :
    List.Forall₂ (fun state port => (port.quantity? wanted t).bind read = some (entering state))
      point.inlets tray.ports.inputs := by
  refine ((List.forall₂_and_left _ _).2 ⟨enters, anatomy.inputs_show listed knows found⟩).imp ?_
  rintro state port ⟨known, shown⟩
  rw [shown, Option.bind_some, known]

theorem outputs_read {kind : MemberKind} (leaving : Phase → Share → β)
    (classified : ∀ ideal, MemberKind.classify wanted (quantity ideal).isIndexed = .ok (some kind))
    (leaves : ∀ {p share value}, Split.resolveMember point.outlet.toState wanted kind p share = .ok value →
      read value = some (leaving p share)) :
    List.Forall₂ (fun outlet port => (port.quantity? wanted t).bind read = some (leaving outlet.phase outlet.share))
      tray.outflows tray.ports.outputs := by
  refine (anatomy.outputs_show listed knows found classified).imp ?_
  rintro outlet port ⟨value, resolved, shown⟩
  rw [shown, Option.bind_some, leaves resolved]

end Readings

end Anatomy

end Tray

end Distillation
