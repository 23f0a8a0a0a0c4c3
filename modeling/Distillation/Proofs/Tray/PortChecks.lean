import Mathlib.Data.List.Nodup
import Distillation.Proofs.Tray.Resolution

namespace Distillation

/-- The entry under a key of the quantity of a name. -/
def PropertyState.entry? {K : Type} (state : PropertyState K) (name : String) (key : Key) : Option (Expr K) :=
  (state.member? name).bind (·.get? key)

namespace Split

/-- Something that is asked for, with the error that is raised where it is not so. -/
structure Check where
  passes : Bool
  error : ResolveError

namespace Check

variable {α β : Type} {checks others : List Check} {result : Except ResolveError α}

/-- The error of the first check that does not pass. -/
def first? (checks : List Check) : Option ResolveError :=
  checks.findSome? fun check => if check.passes then none else some check.error

/-- The result is there where all checks pass, and otherwise it is the error of the first that does not. -/
def Decides (checks : List Check) (result : Except ResolveError α) : Prop :=
  match first? checks with
  | none => ∃ a, result = .ok a
  | some e => result = .error e

theorem first?_append (checks others : List Check) : first? (checks ++ others) = (first? checks).or (first? others) :=
  List.findSome?_append

theorem first?_eq_none_iff : first? checks = none ↔ ∀ check ∈ checks, check.passes = true := by
  simp [first?, List.findSome?_eq_none_iff]

theorem first?_eq_some {e : ResolveError} (failed : first? checks = some e) : ∃ before check after,
    checks = before ++ check :: after ∧ (∀ earlier ∈ before, earlier.passes = true) ∧ check.passes = false ∧
      check.error = e := by
  obtain ⟨before, check, after, listed, fails, passed⟩ := List.findSome?_eq_some_iff.1 failed
  split at fails
  · cases fails
  · rename_i refused
    refine ⟨before, check, after, listed, fun earlier among => ?_, Bool.eq_false_iff.2 refused, Option.some.inj fails⟩
    simpa using passed earlier among

theorem Decides.ok (a : α) : Decides [] (.ok a) :=
  ⟨a, rfl⟩

theorem Decides.bind {next : α → Except ResolveError β} (first : Decides checks result)
    (later : ∀ a, result = .ok a → Decides others (next a)) : Decides (checks ++ others) (result >>= next) := by
  unfold Decides at *
  rw [first?_append]
  cases failed : first? checks with
  | some e =>
    rw [failed] at first
    rw [show result = .error e from first]
    rfl
  | none =>
    rw [failed] at first
    obtain ⟨a, rfl⟩ := first
    exact later a rfl

theorem Decides.returning (decided : Decides checks result) (f : α → β) :
    Decides checks (result >>= fun a => pure (f a)) := by
  rw [← List.append_nil checks]
  exact decided.bind fun a _ => .ok (f a)

theorem Decides.mapM {γ : Type} {f : β → Except ResolveError γ} {asked : β → List Check} {l : List β}
    (each : ∀ b ∈ l, Decides (asked b) (f b)) : Decides (l.flatMap asked) (l.mapM f) := by
  induction l with
  | nil => exact .ok []
  | cons b rest ih =>
    obtain ⟨first, later⟩ := List.forall_mem_cons.1 each
    rw [List.mapM_cons, List.flatMap_cons]
    exact first.bind fun c _ => (ih later).returning fun cs => c :: cs

theorem Decides.isOk_iff (decided : Decides checks result) :
    (∃ a, result = .ok a) ↔ ∀ check ∈ checks, check.passes = true := by
  rw [← first?_eq_none_iff]
  unfold Decides at decided
  cases failed : first? checks with
  | none =>
    rw [failed] at decided
    exact iff_of_true decided rfl
  | some e =>
    rw [failed] at decided
    rw [show result = .error e from decided]
    simp

/-- A refusal is for the first check that does not pass. -/
theorem Decides.first_of_error (decided : Decides checks result) {e : ResolveError} (refused : result = .error e) :
    ∃ before check after, checks = before ++ check :: after ∧ (∀ earlier ∈ before, earlier.passes = true) ∧
      check.passes = false ∧ check.error = e := by
  subst refused
  unfold Decides at decided
  cases failed : first? checks with
  | none =>
    rw [failed] at decided
    obtain ⟨_, impossible⟩ := decided
    cases impossible
  | some other =>
    rw [failed] at decided
    cases decided
    exact first?_eq_some failed

end Check

section Reference

variable {K : Type}

/-- What a port asks of a state for a member of a kind. -/
def Admits (state : PropertyState K) (p : Phase) (name : String) (kind : MemberKind) : Prop :=
  match kind with
  | .intensive | .fractionByPhase | .enthalpyByPhase => ∃ q, state.member? name = some q
  | .flowTotal | .enthalpyTotal =>
    ∃ sibling e, state.member? (name ++ "_phase") = some sibling ∧ sibling.get? (.phase p) = some e
  | .fractionTotal | .flowByComponent =>
    ∃ own sibling, state.member? name = some own ∧ state.member? (kind.sibling name) = some sibling ∧
      ∀ key ∈ own.keys, ∃ c e, key = .component c ∧ sibling.get? (.phaseComponent p c) = some e

/-- The entries of a sibling for a phase, in the order and under the keys of the state's own quantity. -/
def Rekeyed (state : PropertyState K) (p : Phase) (name sibling : String) (change : Expr K → Expr K)
    (q : Quantity K) : Prop :=
  ∃ own, state.member? name = some own ∧ ∃ entries, q = .indexed entries ∧
    List.Forall₂ (fun key entry => ∃ c e, key = .component c ∧
      state.entry? sibling (.phaseComponent p c) = some e ∧ entry = (key, change e)) own.keys entries

/-- What a port shows of a state for a member of a kind, a part of the phase being routed to the port. -/
def Means [Scalar K] (state : PropertyState K) (p : Phase) (part : Expr K) (name : String) (kind : MemberKind)
    (q : Quantity K) : Prop :=
  match kind with
  | .intensive | .fractionByPhase | .enthalpyByPhase => state.member? name = some q
  | .flowTotal => ∃ e, state.entry? (name ++ "_phase") (.phase p) = some e ∧ q = .scalar (e * part)
  | .enthalpyTotal => ∃ e, state.entry? (name ++ "_phase") (.phase p) = some e ∧ q = .scalar e
  | .flowByComponent => Rekeyed state p name (kind.sibling name) (· * part) q
  | .fractionTotal => Rekeyed state p name (kind.sibling name) id q

/-- A member of a port that comes from an entry of the schema: its name, where its values come from, and one
value for each state. -/
structure Carried [Scalar K] (outlets : List (PropertyState K)) (port : String) (p : Phase) (share : Share)
    (entry : String × MemberKind) (member : PortMember K) : Prop where
  name : member.name = entry.1
  linkage : member.linkage =
    if entry.2.isSynthesized then .expression (expressionName entry.2 port) else .reference
  values : List.Forall₂ (fun state q => Means state p share.expr entry.1 entry.2 q) outlets member.values

/-- The names under which a port keeps what it builds. -/
def neededNames (port : String) (schema : Schema) : List String :=
  (schema.filter (·.2.isSynthesized)).map fun entry => expressionName entry.2 port

/-- The state has a quantity that a member stands in need of. -/
def known (state : PropertyState K) (name wanted : String) : Check :=
  ⟨(state.member? wanted).isSome, .missingSibling name wanted⟩

/-- The state's quantity of a name has an entry under a key. -/
def hasEntry (state : PropertyState K) (sibling : String) (key : Key) : Check :=
  ⟨(state.entry? sibling key).isSome, .missingSiblingIndex sibling key.text⟩

/-- A key of a member is a component, for which the sibling has an entry. -/
def keyCheck (state : PropertyState K) (p : Phase) (name sibling : String) : Key → Check
  | .component c => hasEntry state sibling (.phaseComponent p c)
  | _ => ⟨false, .unexpectedShape name "an index by component"⟩

/-- What is checked of one state for a member, in order. -/
def memberChecks (p : Phase) (name : String) (kind : MemberKind) (state : PropertyState K) : List Check :=
  match kind with
  | .intensive | .fractionByPhase | .enthalpyByPhase => [known state name name]
  | .flowTotal | .enthalpyTotal =>
    [known state name (name ++ "_phase"), hasEntry state (name ++ "_phase") (.phase p)]
  | .fractionTotal | .flowByComponent =>
    let sibling := kind.sibling name
    [known state name name, known state name sibling] ++
      ((state.member? name).elim [] (·.keys)).map (keyCheck state p name sibling)

/-- The name for what is built is taken neither by the tray nor by an earlier member of the port. -/
def nameChecks (port : String) (kept : Expressions K) (earlier : Schema) (kind : MemberKind) : List Check :=
  let name := expressionName kind port
  if kind.isSynthesized then
    [⟨!(kept.contains name || (neededNames port earlier).contains name), .duplicateExpression name⟩]
  else []

/-- Everything that is checked for a port, in order: for each member of the schema the states over time, then
the name. -/
def portChecks (outlets : List (PropertyState K)) (port : String) (p : Phase) (kept : Expressions K) :
    Schema → Schema → List Check
  | _, [] => []
  | earlier, (name, kind) :: rest =>
    outlets.flatMap (memberChecks p name kind) ++
      (nameChecks port kept earlier kind ++ portChecks outlets port p kept (earlier ++ [(name, kind)]) rest)

end Reference

section Members

variable {K : Type} {state : PropertyState K} {p : Phase} {name sibling : String} {kind : MemberKind} {q own : Quantity K}

theorem find_decided (state : PropertyState K) (name wanted : String) :
    Check.Decides [known state name wanted] (find state name wanted) := by
  unfold Check.Decides Check.first? known find
  cases state.member? wanted <;> simp

theorem entry_decided {key : Key} (found : state.member? sibling = some q) :
    Check.Decides [hasEntry state sibling key] (entry q sibling key) := by
  unfold Check.Decides Check.first? hasEntry PropertyState.entry? entry
  rw [found, Option.bind_some]
  cases q.get? key <;> simp

variable [Scalar K] {share : Share}

theorem componentEntry_decided (found : state.member? (kind.sibling name) = some q) (key : Key) :
    Check.Decides [keyCheck state p name (kind.sibling name) key] (componentEntry name kind p share q key) := by
  cases key with
  | phase _ | phaseComponent _ _ => exact rfl
  | component c => exact (entry_decided found).returning fun e => (Key.component c, scaled kind share e)

/-- Resolving a member fails with the first of its checks that does not pass. -/
theorem resolveMember_decided (state : PropertyState K) (name : String) (kind : MemberKind) (p : Phase) (share : Share) :
    Check.Decides (memberChecks p name kind state) (resolveMember state name kind p share) := by
  cases kind with
  | intensive | fractionByPhase | enthalpyByPhase => exact find_decided state name name
  | flowTotal | enthalpyTotal =>
    refine (find_decided state name (name ++ "_phase")).bind fun sibling found => ?_
    exact (entry_decided (find_eq_ok.1 found)).returning _
  | fractionTotal | flowByComponent =>
    refine (find_decided state name name).bind fun own owned => ?_
    refine (find_decided state name _).bind fun sibling found => ?_
    rw [find_eq_ok.1 owned, Option.elim_some, List.map_eq_flatMap]
    refine Check.Decides.returning (.mapM fun key _ => ?_) _
    exact componentEntry_decided (find_eq_ok.1 found) key

omit [Scalar K] in
theorem keyCheck_passes_iff (found : state.member? sibling = some q) {key : Key} :
    (keyCheck state p name sibling key).passes = true ↔
      ∃ c e, key = .component c ∧ q.get? (.phaseComponent p c) = some e := by
  cases key with
  | phase _ | phaseComponent _ _ => simp [keyCheck]
  | component c => simp [keyCheck, hasEntry, PropertyState.entry?, found, Option.isSome_iff_exists]

omit [Scalar K] in
theorem forall_rekeyedChecks_iff :
    (∀ check ∈ [known state name name, known state name sibling] ++
      ((state.member? name).elim [] (·.keys)).map (keyCheck state p name sibling), check.passes = true) ↔
    ∃ own q, state.member? name = some own ∧ state.member? sibling = some q ∧
      ∀ key ∈ own.keys, ∃ c e, key = .component c ∧ q.get? (.phaseComponent p c) = some e := by
  cases owned : state.member? name with
  | none => simp [known, owned]
  | some own =>
    cases found : state.member? sibling with
    | none => simp [known, found]
    | some q => simp [known, owned, found, keyCheck_passes_iff found]

omit [Scalar K] in
/-- The checks of a member ask for what the reference meaning asks for. -/
theorem forall_memberChecks_iff :
    (∀ check ∈ memberChecks p name kind state, check.passes = true) ↔ Admits state p name kind := by
  cases kind with
  | intensive | fractionByPhase | enthalpyByPhase => simp [memberChecks, Admits, known, Option.isSome_iff_exists]
  | flowTotal | enthalpyTotal =>
    cases found : state.member? (name ++ "_phase") with
    | none => simp [memberChecks, Admits, known, found]
    | some sibling =>
      simp [memberChecks, Admits, known, hasEntry, PropertyState.entry?, found, Option.isSome_iff_exists]
  | fractionTotal | flowByComponent => exact forall_rekeyedChecks_iff

theorem rekeyed_of_componentEntries {entries : List (Key × Expr K)} (owned : state.member? name = some own)
    (found : state.member? (kind.sibling name) = some q)
    (ran : own.keys.mapM (componentEntry name kind p share q) = .ok entries) :
    Rekeyed state p name (kind.sibling name) (scaled kind share) (.indexed entries) := by
  refine ⟨own, owned, entries, rfl, (forall₂_of_mapM_eq_ok ran).imp fun key made step => ?_⟩
  obtain ⟨phaseKey, e, phased, listed, rfl⟩ := componentEntry_eq_ok.1 step
  cases key with
  | phase _ | phaseComponent _ _ => cases phased
  | component c =>
    cases phased
    exact ⟨c, e, rfl, by rw [PropertyState.entry?, found, Option.bind_some, listed], rfl⟩

/-- What is resolved for a member is what the reference says. -/
theorem means_of_resolveMember (made : resolveMember state name kind p share = .ok q) :
    Means state p share.expr name kind q := by
  cases kind with
  | intensive | fractionByPhase | enthalpyByPhase => exact find_eq_ok.1 made
  | flowTotal | enthalpyTotal =>
    obtain ⟨sibling, found, made⟩ := bind_eq_ok.1 made
    obtain ⟨e, listed, made⟩ := bind_eq_ok.1 made
    cases made
    have here : state.entry? (name ++ "_phase") (.phase p) = sibling.get? (.phase p) := by
      rw [PropertyState.entry?, show state.member? (name ++ "_phase") = some sibling from find_eq_ok.1 found,
        Option.bind_some]
    exact ⟨e, here.trans (entry_eq_ok.1 listed), rfl⟩
  | fractionTotal | flowByComponent =>
    obtain ⟨own, owned, made⟩ := bind_eq_ok.1 made
    obtain ⟨sibling, found, made⟩ := bind_eq_ok.1 made
    obtain ⟨entries, ran, made⟩ := bind_eq_ok.1 made
    cases made
    exact rekeyed_of_componentEntries (find_eq_ok.1 owned) (find_eq_ok.1 found) ran

end Members

section Ports

variable {K : Type} [Scalar K] {outlets : List (PropertyState K)} {port : String} {p : Phase} {share : Share}
  {earlier schema : Schema} {kept after : Expressions K}

theorem neededNames_nil (port : String) : neededNames port [] = [] := rfl

theorem neededNames_cons (port : String) (entry : String × MemberKind) (rest : Schema) :
    neededNames port (entry :: rest) =
      if entry.2.isSynthesized then expressionName entry.2 port :: neededNames port rest else neededNames port rest := by
  rw [neededNames, List.filter_cons]
  split <;> rfl

theorem neededNames_append (port : String) (schema rest : Schema) :
    neededNames port (schema ++ rest) = neededNames port schema ++ neededNames port rest := by
  rw [neededNames, List.filter_append, List.map_append, neededNames, neededNames]

omit [Scalar K] in
theorem nameChecks_pass_iff {kind : MemberKind} :
    (∀ check ∈ nameChecks port kept earlier kind, check.passes = true) ↔
      (kind.isSynthesized = true → kept.contains (expressionName kind port) = false ∧
        expressionName kind port ∉ neededNames port earlier) := by
  unfold nameChecks
  split <;> simp_all

omit [Scalar K] in
theorem link_decided {kind : MemberKind} {values : List (Quantity K)}
    (same : ∀ name, after.contains name = (kept.contains name || (neededNames port earlier).contains name)) :
    Check.Decides (nameChecks port kept earlier kind) (link kind port values after) := by
  unfold nameChecks link
  dsimp only
  split
  · rw [same]
    cases kept.contains (expressionName kind port) || (neededNames port earlier).contains (expressionName kind port)
    · exact ⟨_, rfl⟩
    · exact rfl
  · exact .ok _

omit [Scalar K] in
theorem linkage_of_link {kind : MemberKind} {values : List (Quantity K)} {linkage : Linkage}
    (linked : link kind port values kept = .ok (linkage, after)) :
    linkage = if kind.isSynthesized then .expression (expressionName kind port) else .reference := by
  unfold link at linked
  dsimp only at linked
  split at linked
  · rename_i synthesized
    rw [if_pos synthesized]
    split at linked <;> cases linked
    rfl
  · rename_i referenced
    rw [if_neg referenced]
    cases linked
    rfl

omit [Scalar K] in
/-- After a member has been linked, its name is taken too, if it needs one. -/
theorem contains_of_link {kind : MemberKind} {values : List (Quantity K)} {linkage : Linkage} {between : Expressions K}
    (linked : link kind port values kept = .ok (linkage, between)) (name other : String) :
    between.contains other = (kept.contains other || (neededNames port [(name, kind)]).contains other) := by
  have step := link_eq_ok linked
  rw [neededNames_cons]
  split at step
  · rename_i synthesized
    obtain ⟨_, rfl⟩ := step
    rw [if_pos synthesized, NameMap.contains, NameMap.find?_insert, NameMap.contains]
    by_cases here : other = expressionName kind port
    · simp [here]
    · simp [here, neededNames]
  · rename_i referenced
    rw [step, if_neg referenced]
    simp [neededNames]

/-- The members of a port are resolved where all checks pass, and else refused for the first that does not. -/
theorem resolveMembers_decided : ∀ {earlier : Schema} {between : Expressions K},
    (∀ name, between.contains name = (kept.contains name || (neededNames port earlier).contains name)) →
      Check.Decides (portChecks outlets port p kept earlier schema)
        (resolveMembers outlets port p share schema between) := by
  induction schema with
  | nil => exact fun _ => .ok _
  | cons entry rest ih =>
    obtain ⟨name, kind⟩ := entry
    intro earlier between same
    refine Check.Decides.bind (.mapM fun state _ => resolveMember_decided state name kind p share) fun values _ => ?_
    refine (link_decided same).bind fun linked ran => ?_
    refine Check.Decides.returning (ih fun other => ?_) _
    rw [contains_of_link ran name, same, neededNames_append, List.contains_append, Bool.or_assoc]

omit [Scalar K] in
theorem forall_portChecks_iff : ∀ {earlier : Schema},
    (∀ check ∈ portChecks outlets port p kept earlier schema, check.passes = true) ↔
      (∀ entry ∈ schema, ∀ state ∈ outlets, Admits state p entry.1 entry.2) ∧ (neededNames port schema).Nodup ∧
        ∀ name ∈ neededNames port schema, kept.contains name = false ∧ name ∉ neededNames port earlier := by
  induction schema with
  | nil => simp [portChecks, neededNames]
  | cons entry rest ih =>
    obtain ⟨name, kind⟩ := entry
    intro earlier
    have states : (∀ check ∈ outlets.flatMap (memberChecks p name kind), check.passes = true) ↔
        ∀ state ∈ outlets, Admits state p name kind := by
      simp only [List.forall_mem_flatMap, forall_memberChecks_iff]
    rw [portChecks, List.forall_mem_append, List.forall_mem_append, states, nameChecks_pass_iff, ih,
      List.forall_mem_cons, neededNames_append, neededNames_cons, neededNames_cons, neededNames_nil]
    clear ih states
    by_cases synthesized : kind.isSynthesized = true
    · simp only [if_pos synthesized, List.nodup_cons, List.mem_append, List.mem_cons]
      grind
    · simp only [if_neg synthesized, List.append_nil]
      grind

/-- Each member that is resolved is what the reference says of its entry of the schema. -/
theorem carried_of_resolveMembers : ∀ {between after : Expressions K} {members : List (PortMember K)},
    resolveMembers outlets port p share schema between = .ok (members, after) →
      List.Forall₂ (Carried outlets port p share) schema members := by
  induction schema with
  | nil =>
    intro between after members resolved
    cases resolved
    exact .nil
  | cons entry rest ih =>
    intro between after members resolved
    obtain ⟨values, known, resolved⟩ := bind_eq_ok.1 resolved
    obtain ⟨⟨linkage, next⟩, linked, resolved⟩ := bind_eq_ok.1 resolved
    obtain ⟨⟨others, _⟩, later, resolved⟩ := bind_eq_ok.1 resolved
    cases resolved
    refine .cons ⟨rfl, linkage_of_link linked, ?_⟩ (ih later)
    exact (forall₂_of_mapM_eq_ok known).imp fun _ _ made => means_of_resolveMember made

/-- The names that are taken after a port are those from before and those that its members need. -/
theorem contains_of_resolveMembers : ∀ {between after : Expressions K} {members : List (PortMember K)},
    resolveMembers outlets port p share schema between = .ok (members, after) → ∀ name,
      after.contains name = (between.contains name || (neededNames port schema).contains name) := by
  induction schema with
  | nil =>
    intro between after members resolved name
    cases resolved
    simp [neededNames_nil]
  | cons entry rest ih =>
    intro between after members resolved name
    obtain ⟨values, _, resolved⟩ := bind_eq_ok.1 resolved
    obtain ⟨⟨linkage, next⟩, linked, resolved⟩ := bind_eq_ok.1 resolved
    obtain ⟨⟨others, _⟩, later, resolved⟩ := bind_eq_ok.1 resolved
    cases resolved
    have divided : neededNames port (entry :: rest) = neededNames port [entry] ++ neededNames port rest :=
      neededNames_append port [entry] rest
    rw [ih later, contains_of_link linked entry.1, divided, List.contains_append, Bool.or_assoc]

/-- A member that is linked to a name is the one that is kept under it, and all else is kept as before. -/
theorem find?_of_resolveMembers : ∀ {between after : Expressions K} {members : List (PortMember K)},
    resolveMembers outlets port p share schema between = .ok (members, after) → ∀ name, after.find? name =
      ((members.find? (·.linkage == .expression name)).map (·.values)).or (between.find? name) := by
  induction schema with
  | nil =>
    intro between after members resolved name
    cases resolved
    rfl
  | cons entry rest ih =>
    intro between after members resolved name
    obtain ⟨values, _, resolved⟩ := bind_eq_ok.1 resolved
    obtain ⟨⟨linkage, next⟩, linked, resolved⟩ := bind_eq_ok.1 resolved
    obtain ⟨⟨others, _⟩, later, resolved⟩ := bind_eq_ok.1 resolved
    cases resolved
    have step := link_eq_ok linked
    have linkageEq := linkage_of_link linked
    rw [ih later, List.find?_cons]
    split at step
    · rename_i synthesized
      obtain ⟨_, rfl⟩ := step
      rw [if_pos synthesized] at linkageEq
      subst linkageEq
      by_cases here : name = expressionName entry.2 port
      · have fresh : others.find? (·.linkage == .expression name) = none := by
          refine List.find?_eq_none.2 fun member among same => ?_
          obtain ⟨other, listed, carried⟩ := exists_left_of_forall₂ (carried_of_resolveMembers later) among
          have linkage := carried.linkage.symm.trans (eq_of_beq same)
          split at linkage
          · rename_i built
            have absent := (titles_pairwise later).1 other listed built
            rw [Linkage.expression.inj linkage, NameMap.contains, NameMap.find?_insert, if_pos here] at absent
            cases absent
          · cases linkage
        rw [fresh, NameMap.find?_insert, if_pos here, here]
        simp
      · have other : (Linkage.expression (expressionName entry.2 port) == .expression name) = false :=
          beq_false_of_ne fun same => here (Linkage.expression.inj same).symm
        rw [NameMap.find?_insert, if_neg here, other]
    · rename_i referenced
      rw [if_neg referenced] at linkageEq
      rw [linkageEq, step]
      rfl

end Ports

section Port

variable {K : Type} [Scalar K] (outlets : List (PropertyState K)) (schema : Schema) (port : String) (p : Phase)
  (share : Share) (kept : Expressions K)

/-- A port is resolved where all its checks pass, and else refused for the first that does not. -/
theorem resolvePort_decided : Check.Decides (portChecks outlets port p kept [] schema)
    (resolvePort outlets schema port p share kept) :=
  Check.Decides.returning (resolveMembers_decided fun name => by simp [neededNames_nil]) _

/-- Whether a port can be resolved is up to the states and to the names it needs. -/
theorem exists_resolvePort_iff : (∃ r, resolvePort outlets schema port p share kept = .ok r) ↔
    (∀ entry ∈ schema, ∀ state ∈ outlets, Admits state p entry.1 entry.2) ∧ (neededNames port schema).Nodup ∧
      ∀ name ∈ neededNames port schema, kept.contains name = false := by
  rw [(resolvePort_decided outlets schema port p share kept).isOk_iff, forall_portChecks_iff]
  simp [neededNames_nil]

/-- A port is resolved from any states exactly where they have what each member asks of them and no name is
needed that is taken. It then has the members of the schema in their order, each with the values that the
reference gives it at each state, and keeps what it builds. Otherwise the error is that of the first check
that fails, members and states being gone through in order. -/
theorem resolves_by_reference :
    ((∃ r, resolvePort outlets schema port p share kept = .ok r) ↔
      (∀ entry ∈ schema, ∀ state ∈ outlets, Admits state p entry.1 entry.2) ∧ (neededNames port schema).Nodup ∧
        ∀ name ∈ neededNames port schema, kept.contains name = false) ∧
    (∀ built after, resolvePort outlets schema port p share kept = .ok (built, after) →
      built.name = port ∧ built.isInput = false ∧
        List.Forall₂ (Carried outlets port p share) schema built.members ∧
        ∀ name, after.find? name =
          ((built.members.find? (·.linkage == .expression name)).map (·.values)).or (kept.find? name)) ∧
    ∀ e, resolvePort outlets schema port p share kept = .error e → ∃ before check after,
      portChecks outlets port p kept [] schema = before ++ check :: after ∧
        (∀ earlier ∈ before, earlier.passes = true) ∧ check.passes = false ∧ check.error = e := by
  refine ⟨exists_resolvePort_iff outlets schema port p share kept, fun built after resolved => ?_, fun e refused =>
    (resolvePort_decided outlets schema port p share kept).first_of_error refused⟩
  obtain ⟨⟨members, _⟩, made, resolved⟩ := bind_eq_ok.1 resolved
  cases resolved
  exact ⟨rfl, rfl, carried_of_resolveMembers made, find?_of_resolveMembers made⟩

end Port

end Split

end Distillation
