import Mathlib.Data.List.Pairwise
import Distillation.Proofs.Lists
import Distillation.Tray.Split

namespace Distillation

namespace Port

variable {K : Type} {port : Port K} {name : String} {quantities : List (Quantity K)}

/-- The port has a member of this name, which shows these quantities over time. -/
def Shows (port : Port K) (name : String) (quantities : List (Quantity K)) : Prop :=
  (port.get? name).map (·.values) = some quantities

/-- What a port shows under a name at a time position. -/
def quantity? (port : Port K) (name : String) (t : Nat) : Option (Quantity K) :=
  (port.get? name).bind (·.values[t]?)

theorem term?_eq (port : Port K) (name : String) (t : Nat) (key : Option Key) :
    port.term? name t key = (port.quantity? name t).bind (·.term? key) :=
  (Option.bind_assoc _ _ _).symm

theorem value?_eq [Scalar K] (port : Port K) (name : String) (t : Nat) (key : Option Key) (s : Store K) :
    port.value? name t key s = (port.quantity? name t).bind fun q => (q.term? key).map (·.eval s) := by
  rw [value?, term?_eq, Option.map_bind]
  rfl

theorem Shows.quantity?_eq (shown : port.Shows name quantities) (t : Nat) :
    port.quantity? name t = quantities[t]? := by
  obtain ⟨member, found, rfl⟩ := Option.map_eq_some_iff.1 shown
  rw [quantity?, found, Option.bind_some]

/-- Of members with one name, it is enough that each would show the same. -/
theorem shows_of_members (present : name ∈ port.members.map (·.name))
    (each : ∀ member ∈ port.members, member.name = name → member.values = quantities) :
    port.Shows name quantities := by
  obtain ⟨member, inside, named⟩ := List.mem_map.1 present
  have known : (port.get? name).isSome := List.find?_isSome.2 ⟨member, inside, by simpa using named⟩
  obtain ⟨first, found⟩ := Option.isSome_iff_exists.1 known
  rw [Shows, found, Option.map_some,
    each first (List.mem_of_find?_eq_some found) (by simpa using List.find?_some found)]

end Port

namespace Quantity

variable {K : Type}

/-- All terms with their labels. The term of a scalar has none. -/
def terms : Quantity K → List (Option Key × Expr K)
  | scalar e => [(none, e)]
  | indexed entries => entries.map fun entry => (some entry.1, entry.2)

theorem mem_terms_of_term? {q : Quantity K} {label : Option Key} {e : Expr K} (found : q.term? label = some e) :
    (label, e) ∈ q.terms := by
  cases q with
  | scalar own =>
    cases label with
    | none => exact List.mem_singleton.2 (congrArg (Prod.mk none) (Option.some.inj found).symm)
    | some key => cases found
  | indexed entries =>
    cases label with
    | none => cases found
    | some key =>
      exact List.mem_map_of_mem (mem_of_lookup_eq_some found)

/-- The term under a label. Where the label occurs more than once it is the same one each time. -/
def Reads (q : Quantity K) (label : Option Key) (e : Expr K) : Prop :=
  q.term? label = some e ∧ ∀ other, (label, other) ∈ q.terms → other = e

theorem reads_scalar (e : Expr K) : (scalar e).Reads none e :=
  ⟨rfl, by simp [terms]⟩

theorem reads_indexed {entries : List (Key × Expr K)} {key : Key} {e : Expr K} (listed : (key, e) ∈ entries)
    (unique : ∀ other, (key, other) ∈ entries → other = e) : (indexed entries).Reads (some key) e := by
  refine ⟨lookup_of_unique listed unique, fun _ inside => ?_⟩
  obtain ⟨⟨own, _⟩, among, same⟩ := List.mem_map.1 inside
  cases same
  exact unique _ among

end Quantity

namespace MemberKind

/-- A name alone tells the kind, but that a flow is a total where it is a scalar and by component where it is not. -/
theorem classify_scalar_indexed {name : String} {kind kind' : MemberKind}
    (scalar : classify name false = .ok (some kind)) (indexed : classify name true = .ok (some kind')) :
    kind = kind' ∨ kind = flowTotal ∧ kind' = flowByComponent := by
  unfold classify at scalar indexed
  dsimp only at scalar indexed
  split_ifs at scalar indexed <;> cases scalar <;> cases indexed <;> simp_all

/-- Two kinds that are told for one name are the same, or both are kept under one title. -/
theorem eq_or_title_eq_of_classify {name : String} {indexed other : Bool} {kind kind' : MemberKind}
    (here : classify name indexed = .ok (some kind)) (there : classify name other = .ok (some kind')) :
    kind = kind' ∨ kind.isSynthesized ∧ kind'.isSynthesized ∧ kind.title = kind'.title := by
  by_cases alike : indexed = other
  · rw [alike, there, Except.ok.injEq, Option.some.injEq] at here
    exact .inl here.symm
  · cases indexed <;> cases other
    · exact absurd rfl alike
    · rcases classify_scalar_indexed here there with same | ⟨rfl, rfl⟩
      · exact .inl same
      · exact .inr ⟨rfl, rfl, rfl⟩
    · rcases classify_scalar_indexed there here with same | ⟨rfl, rfl⟩
      · exact .inl same.symm
      · exact .inr ⟨rfl, rfl, rfl⟩
    · exact absurd rfl alike

theorem isSynthesized_of_isSplit {kind : MemberKind} (split : kind.isSplit) : kind.isSynthesized := by
  cases kind <;> first | rfl | cases split

end MemberKind

namespace Split

variable {K : Type} [Scalar K] {outlets : List (PropertyState K)} {state : PropertyState K} {schema : Schema}
  {name : String} {kind : MemberKind} {p : Phase} {share : Share} {q : Quantity K}

omit [Scalar K] in
/-- The labels of what is built from a sibling: a total is one term, any other has the keys of the
state's own member. -/
def labels (state : PropertyState K) (name : String) : MemberKind → List (Option Key)
  | .flowTotal | .enthalpyTotal => [none]
  | _ => ((state.member? name).toList.flatMap (·.keys)).map some

omit [Scalar K] in
/-- The entry of the sibling for a phase that stands behind a label of a member. -/
def siblingTerm? (state : PropertyState K) (name : String) (kind : MemberKind) (p : Phase)
    (label : Option Key) : Option (Expr K) := do
  let sibling ← state.member? (kind.sibling name)
  let key ← label.elim (some (.phase p)) (·.withPhase? p)
  sibling.get? key

section Members

omit [Scalar K] in
theorem find_eq_ok {wanted : String} : find state name wanted = .ok q ↔ state.member? wanted = some q := by
  unfold find
  cases state.member? wanted <;> simp

omit [Scalar K] in
theorem entry_eq_ok {sibling : String} {key : Key} {e : Expr K} :
    entry q sibling key = .ok e ↔ q.get? key = some e := by
  unfold entry
  cases q.get? key <;> simp

theorem componentEntry_eq_ok {key : Key} {made : Key × Expr K} :
    componentEntry name kind p share q key = .ok made ↔
      ∃ phaseKey e, key.withPhase? p = some phaseKey ∧ q.get? phaseKey = some e ∧
        made = (key, scaled kind share e) := by
  unfold componentEntry
  cases key.withPhase? p with
  | none => simp
  | some phaseKey =>
    dsimp only
    rw [bind_eq_ok]
    constructor
    · rintro ⟨e, found, made⟩
      cases made
      exact ⟨phaseKey, e, rfl, entry_eq_ok.1 found, rfl⟩
    · rintro ⟨_, e, same, found, rfl⟩
      cases same
      exact ⟨e, entry_eq_ok.2 found, rfl⟩

/-- The entries made for some keys are one for each, and each is the entry of the sibling for its key. -/
theorem reads_of_componentEntries {sibling : Quantity K} {keys : List Key} {entries : List (Key × Expr K)}
    (known : state.member? (kind.sibling name) = some sibling)
    (made : keys.mapM (componentEntry name kind p share sibling) = .ok entries) :
    (Quantity.indexed entries).terms.map (·.1) = keys.map some ∧ ∀ key ∈ keys,
      ∃ e, siblingTerm? state name kind p (some key) = some e ∧
        (Quantity.indexed entries).Reads (some key) (scaled kind share e) := by
  have each := forall₂_of_mapM_eq_ok made
  constructor
  · have same : keys = entries.map (·.1) := by
      refine List.forall₂_eq_eq_eq ▸ List.forall₂_map_right_iff.2 (each.imp fun key made step => ?_)
      obtain ⟨_, _, _, _, rfl⟩ := componentEntry_eq_ok.1 step
      rfl
    rw [same, Quantity.terms, List.map_map, List.map_map]
    rfl
  · intro key among
    obtain ⟨_, inside, step⟩ := exists_right_of_forall₂ each among
    obtain ⟨phaseKey, e, phased, found, rfl⟩ := componentEntry_eq_ok.1 step
    refine ⟨e, ?_, Quantity.reads_indexed inside fun other listed => ?_⟩
    · rw [siblingTerm?, known]
      simpa [phased] using found
    · obtain ⟨_, _, again⟩ := exists_left_of_forall₂ each listed
      obtain ⟨_, _, phased', found', same⟩ := componentEntry_eq_ok.1 again
      cases same
      rw [phased, Option.some.injEq] at phased'
      rw [← phased', found, Option.some.injEq] at found'
      rw [found']

/-- A member that is built shows, under each of its labels, the entry of the sibling, scaled where its
kind is. -/
theorem resolveMember_synthesized (synthesized : kind.isSynthesized)
    (made : resolveMember state name kind p share = .ok q) :
    q.terms.map (·.1) = labels state name kind ∧ ∀ label ∈ labels state name kind,
      ∃ e, siblingTerm? state name kind p label = some e ∧ q.Reads label (scaled kind share e) := by
  cases kind with
  | intensive | fractionByPhase | enthalpyByPhase => cases synthesized
  | flowTotal | enthalpyTotal =>
    obtain ⟨sibling, known, made⟩ := bind_eq_ok.1 made
    obtain ⟨e, found, made⟩ := bind_eq_ok.1 made
    cases made
    refine ⟨rfl, List.forall_mem_singleton.2 ⟨e, ?_, Quantity.reads_scalar _⟩⟩
    rw [siblingTerm?, find_eq_ok.1 known]
    exact entry_eq_ok.1 found
  | fractionTotal | flowByComponent =>
    obtain ⟨own, ownKnown, made⟩ := bind_eq_ok.1 made
    obtain ⟨sibling, known, made⟩ := bind_eq_ok.1 made
    obtain ⟨entries, ran, made⟩ := bind_eq_ok.1 made
    cases made
    simp only [labels, find_eq_ok.1 ownKnown, Option.toList_some, List.flatMap_singleton, List.forall_mem_map]
    exact reads_of_componentEntries (find_eq_ok.1 known) ran

theorem term?_of_synthesized {label : Option Key} {e : Expr K} (synthesized : kind.isSynthesized)
    (made : resolveMember state name kind p share = .ok q) (among : label ∈ labels state name kind)
    (known : siblingTerm? state name kind p label = some e) : q.term? label = some (scaled kind share e) := by
  obtain ⟨_, found, reads, _⟩ := (resolveMember_synthesized synthesized made).2 label among
  rw [known, Option.some.injEq] at found
  rw [reads, found]

/-- A member that is not built is the state's own. -/
theorem resolveMember_referenced (referenced : kind.isSynthesized = false) :
    resolveMember state name kind p share = .ok q ↔ state.member? name = some q := by
  cases kind <;> first | exact find_eq_ok | cases referenced

/-- The share of a port tells on flows alone. -/
theorem resolveMember_congr (unscaled : kind.isSplit = false) (other : Share) :
    resolveMember state name kind p share = resolveMember state name kind p other := by
  have same : ∀ share share' : Share, (scaled kind share : Expr K → Expr K) = scaled kind share' := by
    intro share share'
    funext e
    rw [scaled, scaled, unscaled]
    rfl
  unfold resolveMember componentEntry
  rw [same share other]

end Members

section Names

omit [Scalar K] in
theorem mem_schemaOf {offered : List (String × Quantity K)} {name : String} {kind : MemberKind} :
    ∀ {schema : Schema}, schemaOf offered = .ok schema → ((name, kind) ∈ schema ↔
      ∃ q, (name, q) ∈ offered ∧ MemberKind.classify name q.isIndexed = .ok (some kind)) := by
  induction offered with
  | nil =>
    intro schema accepted
    cases accepted
    simp
  | cons first rest ih =>
    intro schema accepted
    obtain ⟨other, q⟩ := first
    obtain ⟨own, classified, accepted⟩ := bind_eq_ok.1 accepted
    obtain ⟨others, later, accepted⟩ := bind_eq_ok.1 accepted
    cases accepted
    have here : (name, kind) ∈ own.toList.map (other, ·) ↔ name = other ∧ own = some kind := by
      simp [eq_comm, and_comm]
    rw [List.mem_append, here, ih later]
    constructor
    · rintro (⟨rfl, rfl⟩ | ⟨r, inside, known⟩)
      · exact ⟨q, List.mem_cons_self, classified⟩
      · exact ⟨r, List.mem_cons_of_mem _ inside, known⟩
    · rintro ⟨r, inside, known⟩
      rcases List.mem_cons.1 inside with same | inRest
      · cases same
        exact .inl ⟨rfl, Except.ok.inj (classified.symm.trans known)⟩
      · exact .inr ⟨r, inRest, known⟩

omit [Scalar K] in
/-- Where nothing that is offered is passed over, the schema has all the names that are offered. -/
theorem names_schemaOf {offered : List (String × Quantity K)}
    (carried : ∀ entry ∈ offered, MemberKind.classify entry.1 entry.2.isIndexed ≠ .ok none) :
    ∀ {schema : Schema}, schemaOf offered = .ok schema → schema.map (·.1) = offered.map (·.1) := by
  induction offered with
  | nil =>
    intro schema accepted
    cases accepted
    rfl
  | cons first rest ih =>
    intro schema accepted
    obtain ⟨here, later⟩ := List.forall_mem_cons.1 carried
    obtain ⟨own, classified, accepted⟩ := bind_eq_ok.1 accepted
    obtain ⟨others, known, accepted⟩ := bind_eq_ok.1 accepted
    cases accepted
    cases own with
    | none => exact absurd classified here
    | some kind => exact congrArg (first.1 :: ·) (ih later known)

/-- What a port member has that comes from an entry of the schema. -/
def Resolves (outlets : List (PropertyState K)) (p : Phase) (share : Share) (entry : String × MemberKind)
    (member : PortMember K) : Prop :=
  member.name = entry.1 ∧
    (outlets.mapM fun state => resolveMember state entry.1 entry.2 p share) = .ok member.values

theorem resolveMembers_eq_ok {port : String} : ∀ {kept after : Expressions K} {members : List (PortMember K)},
    resolveMembers outlets port p share schema kept = .ok (members, after) →
      List.Forall₂ (Resolves outlets p share) schema members := by
  induction schema with
  | nil =>
    intro kept after members resolved
    cases resolved
    exact .nil
  | cons entry rest ih =>
    intro kept after members resolved
    obtain ⟨values, known, resolved⟩ := bind_eq_ok.1 resolved
    obtain ⟨⟨linkage, between⟩, _, resolved⟩ := bind_eq_ok.1 resolved
    obtain ⟨⟨others, _⟩, later, resolved⟩ := bind_eq_ok.1 resolved
    cases resolved
    exact .cons ⟨rfl, known⟩ (ih later)

omit [Scalar K] in
theorem link_eq_ok {port : String} {values : List (Quantity K)} {kept after : Expressions K} {linkage : Linkage}
    (linked : link kind port values kept = .ok (linkage, after)) :
    if kind.isSynthesized then kept.contains (expressionName kind port) = false ∧
      after = kept.insert (expressionName kind port) values else after = kept := by
  unfold link at linked
  dsimp only at linked
  split at linked
  · split at linked
    · cases linked
    · cases linked
      simp_all
  · cases linked
    simp_all

/-- A port keeps what it builds under titles that are pairwise different, and new to the tray. -/
theorem titles_pairwise {port : String} : ∀ {schema : Schema} {kept after : Expressions K} {members : List (PortMember K)},
    resolveMembers outlets port p share schema kept = .ok (members, after) →
      (∀ entry ∈ schema, entry.2.isSynthesized → kept.contains (expressionName entry.2 port) = false) ∧
      schema.Pairwise fun a b => a.2.isSynthesized → b.2.isSynthesized → a.2.title ≠ b.2.title := by
  intro schema
  induction schema with
  | nil =>
    intro kept after members _
    exact ⟨by simp, .nil⟩
  | cons entry rest ih =>
    intro kept after members resolved
    obtain ⟨values, _, resolved⟩ := bind_eq_ok.1 resolved
    obtain ⟨⟨linkage, between⟩, linked, resolved⟩ := bind_eq_ok.1 resolved
    obtain ⟨⟨others, _⟩, later, _⟩ := bind_eq_ok.1 resolved
    obtain ⟨fresh, apart⟩ := ih later
    have step := link_eq_ok linked
    by_cases synthesized : entry.2.isSynthesized
    · rw [if_pos synthesized] at step
      obtain ⟨new, rfl⟩ := step
      have old : ∀ other ∈ rest, other.2.isSynthesized →
          expressionName other.2 port ≠ expressionName entry.2 port ∧
            kept.contains (expressionName other.2 port) = false := by
        intro other among built
        have absent := fresh other among built
        rw [NameMap.contains, NameMap.find?_insert] at absent
        split at absent
        · cases absent
        · exact ⟨‹_›, absent⟩
      refine ⟨List.forall_mem_cons.2 ⟨fun _ => new, fun other among built => (old other among built).2⟩,
        List.pairwise_cons.2 ⟨fun other among _ built sameTitle => ?_, apart⟩⟩
      exact (old other among built).1 (by rw [expressionName, expressionName, sameTitle])
    · rw [if_neg synthesized] at step
      subst step
      exact ⟨List.forall_mem_cons.2 ⟨fun built => absurd built synthesized, fresh⟩,
        List.pairwise_cons.2 ⟨fun _ _ built => absurd built synthesized, apart⟩⟩

/-- In a schema that a port can be resolved from, the name of a member tells its kind. -/
theorem kind_unique {port : String} {kept after : Expressions K} {members : List (PortMember K)} {kind' : MemberKind}
    (accepted : Split.schema outlets = .ok schema)
    (resolved : resolveMembers outlets port p share schema kept = .ok (members, after))
    (here : (name, kind) ∈ schema) (there : (name, kind') ∈ schema) : kind = kind' := by
  by_contra other
  obtain ⟨offered, offers⟩ : ∃ offered : List (String × Quantity K), schemaOf offered = .ok schema := by
    cases outlets with
    | nil => exact ⟨[], accepted⟩
    | cons first rest => exact ⟨_, accepted⟩
  obtain ⟨_, _, classified⟩ := (mem_schemaOf offers).1 here
  obtain ⟨_, _, classified'⟩ := (mem_schemaOf offers).1 there
  rcases MemberKind.eq_or_title_eq_of_classify classified classified' with same | ⟨built, built', sameTitle⟩
  · exact other same
  · have symmetric : Std.Symm fun a b : String × MemberKind =>
        a.2.isSynthesized → b.2.isSynthesized → a.2.title ≠ b.2.title :=
      ⟨fun a b apart built built' => (apart built' built).symm⟩
    have apart := (titles_pairwise resolved).2.forall here there fun same => other (congrArg Prod.snd same)
    exact apart built built' sameTitle

/-- Under the name of an entry of the schema a port shows what is resolved for that entry. -/
theorem quantity?_of_resolved {port : Port K} {title : String} {kept after : Expressions K} {t : Nat}
    (accepted : Split.schema outlets = .ok schema)
    (resolved : resolvePort outlets schema title p share kept = .ok (port, after))
    (listed : (name, kind) ∈ schema) (here : outlets[t]? = some state) :
    port.name = title ∧ ∃ q, resolveMember state name kind p share = .ok q ∧ port.quantity? name t = some q := by
  obtain ⟨⟨members, _⟩, made, resolved⟩ := bind_eq_ok.1 resolved
  cases resolved
  refine ⟨rfl, ?_⟩
  have each := resolveMembers_eq_ok made
  obtain ⟨member, inside, named, _⟩ := exists_right_of_forall₂ each listed
  have named : member.name = name := named
  obtain ⟨first, found⟩ : ∃ first, (Port.output title members).get? name = some first :=
    Option.isSome_iff_exists.1 (List.find?_isSome.2 ⟨member, inside, by simpa using named⟩)
  obtain ⟨⟨own, ownKind⟩, among, sameName, values⟩ := exists_left_of_forall₂ each (List.mem_of_find?_eq_some found)
  have sameName : own = name := by
    rw [← show first.name = own from sameName]
    simpa using List.find?_some found
  subst sameName
  cases kind_unique accepted made among listed
  obtain ⟨q, position, resolvedHere⟩ := exists_getElem?_of_forall₂ (forall₂_of_mapM_eq_ok values) here
  exact ⟨q, resolvedHere, by rw [Port.quantity?, found, Option.bind_some, position]⟩

/-- The members of a port come from the entries of the schema, one from each. -/
theorem resolves_of_resolved {port : Port K} {title : String} {kept after : Expressions K}
    (resolved : resolvePort outlets schema title p share kept = .ok (port, after)) :
    port.name = title ∧ List.Forall₂ (Resolves outlets p share) schema port.members := by
  obtain ⟨⟨members, _⟩, made, resolved⟩ := bind_eq_ok.1 resolved
  cases resolved
  exact ⟨rfl, resolveMembers_eq_ok made⟩

/-- Whatever a port shows at a time has been resolved for an entry of the schema from the state of that time. -/
theorem exists_resolved_of_quantity? {port : Port K} {title : String} {kept after : Expressions K} {t : Nat}
    (resolved : resolvePort outlets schema title p share kept = .ok (port, after))
    (shown : port.quantity? name t = some q) : port.name = title ∧ ∃ kind state, (name, kind) ∈ schema ∧
      outlets[t]? = some state ∧ resolveMember state name kind p share = .ok q := by
  obtain ⟨titled, each⟩ := resolves_of_resolved resolved
  obtain ⟨member, found, here⟩ := Option.bind_eq_some_iff.1 shown
  obtain ⟨⟨own, kind⟩, listed, named, values⟩ := exists_left_of_forall₂ each (List.mem_of_find?_eq_some found)
  have same : own = name := by
    rw [← show member.name = own from named]
    simpa using List.find?_some found
  subst same
  obtain ⟨state, position, value⟩ := exists_getElem?_of_forall₂ (forall₂_of_mapM_eq_ok values).flip here
  exact ⟨titled, kind, state, listed, position, value⟩

theorem names_of_resolved {port : Port K} {title : String} {kept after : Expressions K}
    (resolved : resolvePort outlets schema title p share kept = .ok (port, after)) :
    port.members.map (·.name) = schema.map (·.1) := by
  have each : List.Forall₂ (fun (member : PortMember K) (entry : String × MemberKind) => member.name = entry.1)
      port.members schema := (resolves_of_resolved resolved).2.flip.imp fun _ _ fits => fits.1
  exact List.forall₂_eq_eq_eq ▸ List.forall₂_map_left_iff.2 (List.forall₂_map_right_iff.2 each)

/-- Each outlet becomes a port. -/
theorem resolvePort_of_resolveOutlets {list : List Outlet} : ∀ {kept after : Expressions K} {ports : List (Port K)},
    resolveOutlets outlets schema list kept = .ok (ports, after) →
      List.Forall₂ (fun outlet port => ∃ kept after,
        resolvePort outlets schema outlet.port outlet.phase outlet.share kept = .ok (port, after)) list ports := by
  induction list with
  | nil =>
    intro kept after ports resolved
    cases resolved
    exact .nil
  | cons outlet rest ih =>
    intro kept after ports resolved
    obtain ⟨⟨port, between⟩, first, resolved⟩ := bind_eq_ok.1 resolved
    obtain ⟨⟨others, _⟩, later, resolved⟩ := bind_eq_ok.1 resolved
    cases resolved
    exact .cons ⟨_, _, first⟩ (ih later)

end Names

end Split

end Distillation
