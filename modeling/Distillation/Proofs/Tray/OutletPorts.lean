import Distillation.Proofs.Tray.PortChecks
import Distillation.Proofs.Tray.Ports

namespace Distillation

/-- Declared names that the outlet ports of a tray can show together. -/
structure Portable (names : List String) : Prop where
  phaseFlows : ∀ name ∈ names, name ∉ IdealState.phaseFlowNames
  flows : names.count "flow_mol" + names.count "flow_mol_comp" ≤ 1
  fractions : names.count "mole_frac_comp" ≤ 1
  enthalpies : names.count "enth_mol" ≤ 1

/-- The title under which the member of a name is kept, if it is. -/
def keptTitle? (name : String) : Option String :=
  match IdealState.carriedKinds.lookup name with
  | some kind => if kind.isSynthesized then some kind.title else none
  | none => none

theorem keptTitle?_eq_some {name title : String} : keptTitle? name = some title ↔
    (name, title) ∈ [("flow_mol", "flow"), ("flow_mol_comp", "flow"), ("mole_frac_comp", "mole_frac"),
      ("enth_mol", "enth")] := by
  constructor
  · intro kept
    unfold keptTitle? at kept
    split at kept
    · rename_i kind found
      have table : ∀ entry ∈ IdealState.carriedKinds, entry.2.isSynthesized = true →
          (entry.1, entry.2.title) ∈ [("flow_mol", "flow"), ("flow_mol_comp", "flow"),
            ("mole_frac_comp", "mole_frac"), ("enth_mol", "enth")] := by decide
      have listed := mem_of_lookup_eq_some found
      split at kept
      · rename_i synthesized
        exact Option.some.inj kept ▸ table _ listed synthesized
      · cases kept
    · cases kept
  · have table : ∀ entry ∈ [("flow_mol", "flow"), ("flow_mol_comp", "flow"), ("mole_frac_comp", "mole_frac"),
        ("enth_mol", "enth")], keptTitle? entry.1 = some entry.2 := by decide
    exact table (name, title)

theorem countP_eq_count_add {a b : String} (different : a ≠ b) (names : List String) :
    names.countP (fun name => name == a || name == b) = names.count a + names.count b := by
  induction names with
  | nil => rfl
  | cons name rest ih => grind

theorem nodup_titles_iff (names : List String) : (names.filterMap keptTitle?).Nodup ↔
    names.count "flow_mol" + names.count "flow_mol_comp" ≤ 1 ∧ names.count "mole_frac_comp" ≤ 1 ∧
      names.count "enth_mol" ≤ 1 := by
  have kept : ∀ title, (names.filterMap keptTitle?).count title = names.countP (keptTitle? · == some title) := fun title =>
    List.count_filterMap
  have only : ∀ {title own : String}, (∀ name, keptTitle? name = some title ↔ name = own) →
      (names.filterMap keptTitle?).count title = names.count own := by
    intro title own told
    rw [kept]
    exact List.countP_congr fun name _ => by rw [beq_iff_eq, beq_iff_eq, told]
  have flows : (names.filterMap keptTitle?).count "flow" = names.count "flow_mol" + names.count "flow_mol_comp" := by
    rw [kept, ← countP_eq_count_add (by decide)]
    exact List.countP_congr fun name _ => by simp [keptTitle?_eq_some]
  have fractions : (names.filterMap keptTitle?).count "mole_frac" = names.count "mole_frac_comp" :=
    only fun name => by simp [keptTitle?_eq_some]
  have enthalpies : (names.filterMap keptTitle?).count "enth" = names.count "enth_mol" :=
    only fun name => by simp [keptTitle?_eq_some]
  rw [List.nodup_iff_count_le_one, ← flows, ← fractions, ← enthalpies]
  constructor
  · intro each
    exact ⟨each _, each _, each _⟩
  · rintro ⟨flow, fraction, enthalpy⟩ title
    by_cases some : title ∈ names.filterMap keptTitle?
    · obtain ⟨name, _, title⟩ := List.mem_filterMap.1 some
      have listed := keptTitle?_eq_some.1 title
      simp only [List.mem_cons, Prod.mk.injEq, List.not_mem_nil, or_false] at listed
      rcases listed with ⟨_, rfl⟩ | ⟨_, rfl⟩ | ⟨_, rfl⟩ | ⟨_, rfl⟩
      · exact flow
      · exact flow
      · exact fraction
      · exact enthalpy
    · rw [List.count_eq_zero.2 some]
      exact Nat.zero_le 1

namespace IdealState

variable {K : Type} [Scalar K] {state : IdealState K} {name : String} {kind : MemberKind} {p : Phase}

/-- The schema of outlet ports for declared names. -/
def schemaFor (names : List String) : Split.Schema :=
  names.filterMap fun name => (carriedKinds.lookup name).map (name, ·)

/-- Unless a flow is declared that is told apart by phase, what is known of the declared names is the schema. -/
theorem schemaOf_eq_ok {names : List String} : ∀ {schema : Split.Schema},
    Split.schemaOf (names.filterMap fun name => (state.member? name).map (name, ·)) = .ok schema ↔
      (∀ name ∈ names, name ∉ phaseFlowNames) ∧ schema = schemaFor names := by
  induction names with
  | nil =>
    intro schema
    simp [Split.schemaOf, schemaFor, eq_comm]
  | cons name rest ih =>
    intro schema
    rw [List.forall_mem_cons, schemaFor, List.filterMap_cons, List.filterMap_cons]
    rcases state.member?_cases name with ⟨unknown, passed, allowed⟩ | ⟨q, kind, known, found, allowed, classified⟩ |
      ⟨q, known, refused, classified⟩
    · rw [unknown, passed]
      simpa [allowed, schemaFor] using ih
    · rw [known, found]
      simp only [Option.map_some, Split.schemaOf, classified]
      constructor
      · intro accepted
        obtain ⟨own, same, accepted⟩ := bind_eq_ok.1 accepted
        obtain ⟨others, later, accepted⟩ := bind_eq_ok.1 accepted
        cases same
        cases accepted
        obtain ⟨none, rfl⟩ := ih.1 later
        exact ⟨⟨allowed, none⟩, rfl⟩
      · rintro ⟨⟨_, none⟩, rfl⟩
        have later := ih.2 ⟨none, rfl⟩
        rw [later]
        rfl
    · rw [known]
      simp only [Option.map_some, Split.schemaOf, classified]
      constructor
      · intro accepted
        cases accepted
      · rintro ⟨⟨allowed, _⟩, _⟩
        exact absurd refused allowed

/-- A state has all that a port asks for of what is carried. -/
theorem admits_of_carried (state : IdealState K) (p : Phase) (listed : (name, kind) ∈ carriedKinds) :
    Split.Admits state.toState p name kind := by
  have named : ∀ {term : ComponentFlows K → Expr K} {other : Phase → ComponentFlows K → Expr K},
      ∀ key ∈ (state.byComponent term).keys, ∃ c e, key = .component c ∧
        (state.byPhaseComponent other).get? (.phaseComponent p c) = some e := by
    intro term other key among
    rw [byComponent, Quantity.keys, List.map_map] at among
    obtain ⟨c, own, rfl⟩ := List.mem_map.1 among
    have present : (state.component? c.data.name).isSome := List.find?_isSome.2 ⟨c, own, by simp⟩
    obtain ⟨first, found⟩ := Option.isSome_iff_exists.1 present
    refine ⟨c.data.name, other p first, rfl, ?_⟩
    rw [get?_byPhaseComponent, found, Option.map_some]
  simp only [carriedKinds, List.mem_cons, Prod.mk.injEq, List.not_mem_nil, or_false] at listed
  rcases listed with ⟨rfl, rfl⟩ | ⟨rfl, rfl⟩ | ⟨rfl, rfl⟩ | ⟨rfl, rfl⟩ | ⟨rfl, rfl⟩ | ⟨rfl, rfl⟩ | ⟨rfl, rfl⟩ | ⟨rfl, rfl⟩
  · exact ⟨_, rfl⟩
  · exact ⟨_, rfl⟩
  · exact ⟨byPhase state.phaseFlow, state.phaseFlow p, rfl, by cases p <;> rfl⟩
  · exact ⟨_, _, rfl, rfl, named⟩
  · exact ⟨_, _, rfl, rfl, named⟩
  · exact ⟨_, rfl⟩
  · exact ⟨byPhase fun p => state.enthalpyFlow p / state.phaseFlow p, state.enthalpyFlow p / state.phaseFlow p, rfl,
      by cases p <;> rfl⟩
  · exact ⟨_, rfl⟩

end IdealState

namespace Split

/-- The names of outlet ports, side draws included. -/
def outletTitles : List String :=
  ["liq_side_draw", "liq_out", "vap_side_draw", "vap_out"]

/-- The name under which a port keeps what has a title. -/
theorem expressionName_eq (kind : MemberKind) (port : String) :
    expressionName kind port = "e_" ++ kind.title ++ "_" ++ port := rfl

theorem title_mem (kind : MemberKind) : kind.title ∈ ["mole_frac", "flow", "enth", ""] := by
  cases kind <;> decide

/-- No two outlet ports keep anything under one name. -/
theorem expressionName_apart {port other : String} (own : port ∈ outletTitles) (own' : other ∈ outletTitles)
    (different : port ≠ other) (kind kind' : MemberKind) : expressionName kind port ≠ expressionName kind' other := by
  have apart : ∀ port ∈ outletTitles, ∀ other ∈ outletTitles, port ≠ other →
      ∀ title ∈ ["mole_frac", "flow", "enth", ""], ∀ title' ∈ ["mole_frac", "flow", "enth", ""],
        "e_" ++ title ++ "_" ++ port ≠ "e_" ++ title' ++ "_" ++ other := by decide +kernel
  rw [expressionName_eq, expressionName_eq]
  exact apart port own other own' different _ (title_mem kind) _ (title_mem kind')

section Outlets

variable {K : Type} [Scalar K] (outlets : List (PropertyState K)) (schema : Schema)

/-- Outlets that have no names in common for what they keep are resolved one by one. -/
theorem exists_resolveOutlets_iff {list : List Outlet} : ∀ kept : Expressions K,
    list.Pairwise (fun a b => (neededNames a.port schema).Disjoint (neededNames b.port schema)) →
      ((∃ r, resolveOutlets outlets schema list kept = .ok r) ↔ ∀ outlet ∈ list,
        (∀ entry ∈ schema, ∀ state ∈ outlets, Admits state outlet.phase entry.1 entry.2) ∧
          (neededNames outlet.port schema).Nodup ∧
          ∀ name ∈ neededNames outlet.port schema, kept.contains name = false) := by
  induction list with
  | nil => exact fun _ _ => iff_of_true ⟨_, rfl⟩ (by simp)
  | cons outlet rest ih =>
    intro kept apart
    obtain ⟨first, later⟩ := List.pairwise_cons.1 apart
    have here := exists_resolvePort_iff outlets schema outlet.port outlet.phase outlet.share kept
    rw [List.forall_mem_cons, ← here]
    have unchanged : ∀ {port : Port K} {after : Expressions K},
        resolvePort outlets schema outlet.port outlet.phase outlet.share kept = .ok (port, after) →
        ∀ other ∈ rest, ∀ name ∈ neededNames other.port schema, after.contains name = kept.contains name := by
      intro port after made other among name needed
      obtain ⟨⟨members, _⟩, made, resolved⟩ := bind_eq_ok.1 made
      cases resolved
      have free : name ∉ neededNames outlet.port schema := fun own => first other among own needed
      rw [contains_of_resolveMembers made, List.contains_eq_mem, decide_eq_false free, Bool.or_false]
    constructor
    · rintro ⟨r, resolved⟩
      obtain ⟨⟨port, between⟩, made, resolved⟩ := bind_eq_ok.1 resolved
      obtain ⟨⟨ports, after⟩, others, _⟩ := bind_eq_ok.1 resolved
      refine ⟨⟨_, made⟩, fun other among => ?_⟩
      obtain ⟨admits, distinct, absent⟩ := (ih _ later).1 ⟨_, others⟩ other among
      exact ⟨admits, distinct, fun name needed => unchanged made other among name needed ▸ absent name needed⟩
    · rintro ⟨⟨⟨port, between⟩, made⟩, each⟩
      obtain ⟨⟨ports, after⟩, others⟩ := (ih between later).2 fun other among => by
        obtain ⟨admits, distinct, absent⟩ := each other among
        exact ⟨admits, distinct, fun name needed => (unchanged made other among name needed).trans (absent name needed)⟩
      refine ⟨(port :: ports, after), ?_⟩
      rw [resolveOutlets, made]
      change (resolveOutlets outlets schema rest between >>= _) = _
      rw [others]
      rfl

end Outlets

theorem neededNames_schemaFor (port : String) (names : List String) :
    neededNames port (IdealState.schemaFor names) =
      (names.filterMap keptTitle?).map fun title => "e_" ++ title ++ "_" ++ port := by
  induction names with
  | nil => rfl
  | cons name rest ih =>
    cases found : IdealState.carriedKinds.lookup name with
    | none =>
      have untitled : keptTitle? name = none := by rw [keptTitle?, found]
      rw [IdealState.schemaFor, List.filterMap_cons, List.filterMap_cons_none untitled, found]
      exact ih
    | some kind =>
      have title : keptTitle? name = if kind.isSynthesized then some kind.title else none := by rw [keptTitle?, found]
      have opened : IdealState.schemaFor (name :: rest) = (name, kind) :: IdealState.schemaFor rest := by
        rw [IdealState.schemaFor, List.filterMap_cons, found]
        rfl
      rw [opened, neededNames_cons, List.filterMap_cons, title]
      split
      · exact congrArg (expressionName kind port :: ·) ih
      · exact ih

/-- A port needs no name twice if no title is there twice. -/
theorem neededNames_nodup_iff (port : String) (names : List String) :
    (neededNames port (IdealState.schemaFor names)).Nodup ↔ (names.filterMap keptTitle?).Nodup := by
  have told : Function.Injective fun title => "e_" ++ title ++ "_" ++ port := by
    intro title other same
    simpa using same
  rw [neededNames_schemaFor, List.nodup_map_iff told]

theorem mem_carriedKinds_of_schemaFor {names : List String} {entry : String × MemberKind}
    (listed : entry ∈ IdealState.schemaFor names) : entry ∈ IdealState.carriedKinds := by
  obtain ⟨name, _, found⟩ := List.mem_filterMap.1 listed
  obtain ⟨kind, known, rfl⟩ := Option.map_eq_some_iff.1 found
  exact mem_of_lookup_eq_some known

end Split

namespace Tray

variable {K : Type} [Scalar K] {outlets : List (IdealState K)} {names : List String}

/-- The outlets of a tray have names of their own for what they keep. -/
theorem outlets_apart (liquidSplit vaporSplit : Option VarId) (schema : Split.Schema) :
    (Split.outletsOf "liq_side_draw" "liq_out" .liquid liquidSplit ++
      Split.outletsOf "vap_side_draw" "vap_out" .vapor vaporSplit).Pairwise fun a b =>
        (Split.neededNames a.port schema).Disjoint (Split.neededNames b.port schema) := by
  have apart : ∀ {port other : String}, port ∈ Split.outletTitles → other ∈ Split.outletTitles → port ≠ other →
      (Split.neededNames port schema).Disjoint (Split.neededNames other schema) := by
    intro port other own own' different name here there
    obtain ⟨entry, _, rfl⟩ := List.mem_map.1 here
    obtain ⟨entry', _, same⟩ := List.mem_map.1 there
    exact Split.expressionName_apart own own' different _ _ same.symm
  cases liquidSplit <;> cases vaporSplit <;>
    simp only [Split.outletsOf, List.cons_append, List.nil_append, List.pairwise_cons, List.mem_cons, List.not_mem_nil,
      or_false, forall_eq_or_imp, forall_eq, List.Pairwise.nil, and_true, false_imp_iff, implies_true]
  · exact apart (by decide) (by decide) (by decide)
  · refine ⟨⟨?_, ?_⟩, ?_⟩ <;> exact apart (by decide) (by decide) (by decide)
  · refine ⟨⟨?_, ?_⟩, ?_⟩ <;> exact apart (by decide) (by decide) (by decide)
  · refine ⟨⟨?_, ?_, ?_⟩, ⟨?_, ?_⟩, ?_⟩ <;> exact apart (by decide) (by decide) (by decide)

/-- The outlet ports of a tray are resolved from ideal states exactly where the names that are declared can be
shown together, whatever side draws there are. -/
theorem exists_outletPorts_iff (liquidSplit vaporSplit : Option VarId) (present : outlets ≠ [])
    (same : ∀ state ∈ outlets, state.portMembers = names) :
    (∃ r, outletPorts (outlets.map IdealState.toState) liquidSplit vaporSplit = .ok r) ↔ Portable names := by
  obtain ⟨first, rest, rfl⟩ := List.exists_cons_of_ne_nil present
  have accepted : ∀ {schema : Split.Schema}, Split.schema ((first :: rest).map IdealState.toState) = .ok schema ↔
      (∀ name ∈ names, name ∉ IdealState.phaseFlowNames) ∧ schema = IdealState.schemaFor names := by
    intro schema
    rw [← same first List.mem_cons_self]
    exact IdealState.schemaOf_eq_ok
  have resolved := Split.exists_resolveOutlets_iff ((first :: rest).map IdealState.toState) _ .empty
    (outlets_apart liquidSplit vaporSplit (IdealState.schemaFor names))
  constructor
  · rintro ⟨r, made⟩
    obtain ⟨schema, offered, ports⟩ := bind_eq_ok.1 made
    obtain ⟨allowed, rfl⟩ := accepted.1 offered
    obtain ⟨outlet, among⟩ : ∃ outlet, outlet ∈ Split.outletsOf "liq_side_draw" "liq_out" .liquid liquidSplit ++
        Split.outletsOf "vap_side_draw" "vap_out" .vapor vaporSplit := by
      cases liquidSplit <;> exact ⟨_, List.mem_cons_self⟩
    obtain ⟨_, distinct, _⟩ := resolved.1 ⟨r, ports⟩ outlet among
    have titles := (nodup_titles_iff names).1 ((Split.neededNames_nodup_iff outlet.port names).1 distinct)
    exact ⟨allowed, titles.1, titles.2.1, titles.2.2⟩
  · intro portable
    have offered := accepted.2 ⟨portable.phaseFlows, rfl⟩
    have titles := (nodup_titles_iff names).2 ⟨portable.flows, portable.fractions, portable.enthalpies⟩
    obtain ⟨r, ports⟩ := resolved.2 fun outlet _ => by
      refine ⟨fun entry listed state among => ?_, (Split.neededNames_nodup_iff outlet.port names).2 titles, fun name _ => rfl⟩
      obtain ⟨ideal, _, rfl⟩ := List.mem_map.1 among
      exact ideal.admits_of_carried outlet.phase (Split.mem_carriedKinds_of_schemaFor listed)
    exact ⟨r, bind_eq_ok.2 ⟨_, offered, ports⟩⟩

end Tray

end Distillation
