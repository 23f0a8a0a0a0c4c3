import Mathlib.Data.List.Perm.Subperm
import Distillation.Port.Connection
import Distillation.Proofs.Expr.Meaning
import Distillation.Proofs.Lists
import Distillation.Proofs.Tray.Resolution

namespace Distillation

variable {K : Type}

namespace Quantity

/-- Both quantities are scalars, or they have the same keys, in whatever order. -/
def Matches : Quantity K → Quantity K → Prop
  | scalar _, scalar _ => True
  | indexed entries, indexed others => ∀ key, key ∈ entries.map (·.1) ↔ key ∈ others.map (·.1)
  | _, _ => False

/-- Under different keys every term is the one of its label. -/
theorem term?_of_mem_terms {q : Quantity K} (distinct : q.keys.Nodup) {label : Option Key} {e : Expr K}
    (listed : (label, e) ∈ q.terms) : q.term? label = some e := by
  cases q with
  | scalar own =>
    cases List.mem_singleton.1 listed
    rfl
  | indexed entries =>
    obtain ⟨⟨key, own⟩, inside, same⟩ := List.mem_map.1 listed
    cases same
    exact lookup_of_nodup distinct inside

end Quantity

/-- No quantity of the port has two entries under one key. -/
def Port.KeysDistinct (port : Port K) : Prop :=
  ∀ member ∈ port.members, ∀ q ∈ member.values, q.keys.Nodup

/-- A term of a port, with the member, the time point and the position that it stands at. -/
structure Slot (K : Type) where
  member : String
  time : Nat
  position : Nat
  label : Option Key
  term : Expr K

/-- The terms of what a member shows at a time point. -/
def Quantity.slots (q : Quantity K) (member : String) (t : Nat) : List (Slot K) :=
  q.terms.zipIdx.map fun ((label, e), k) => ⟨member, t, k, label, e⟩

/-- The terms of a member, time by time. -/
def PortMember.slots (member : PortMember K) : List (Slot K) :=
  member.values.zipIdx.flatMap fun (q, t) => q.slots member.name t

/-- All terms of a port, member by member. -/
def Port.slots (port : Port K) : List (Slot K) :=
  port.members.flatMap (·.slots)

theorem Port.mem_slots {port : Port K} {slot : Slot K} : slot ∈ port.slots ↔ ∃ member ∈ port.members, ∃ q,
    member.values[slot.time]? = some q ∧ q.terms[slot.position]? = some (slot.label, slot.term) ∧
      member.name = slot.member := by
  simp only [Port.slots, PortMember.slots, Quantity.slots, List.mem_flatMap, List.mem_map,
    List.mem_zipIdx_iff_getElem?]
  constructor
  · rintro ⟨member, own, ⟨q, t⟩, shown, ⟨⟨label, e⟩, k⟩, position, rfl⟩
    exact ⟨member, own, q, shown, position, rfl⟩
  · rintro ⟨member, own, q, shown, position, named⟩
    exact ⟨member, own, (q, slot.time), shown, ((slot.label, slot.term), slot.position), position, by rw [named]⟩

namespace Slot

/-- The place of the equation of a term in the family of a connection. -/
def index (slot : Slot K) : EquationIndex :=
  match slot.label with
  | none => .time slot.time
  | some _ => .timeComponent slot.time slot.position

/-- What the equation of a term is called. -/
def equation (title : String) (slot : Slot K) : String :=
  let member := s!"{title}.{slot.member}"
  match slot.label with
  | none => member ++ slot.index.text
  | some key => s!"{member}[{slot.time},{key.text}]"

/-- The term is set equal to the one that the target shows under the same name, time and key. -/
def Equated [Scalar K] (title : String) (target : Port K) (slot : Slot K) (entry : Connection.Entry K) : Prop :=
  ∃ other, target.term? slot.member slot.time slot.label = some other ∧
    entry = (slot.index, .equality (slot.equation title) slot.term other)

end Slot

namespace PortMember

/-- The target has a member of this name; its first shows quantities that match at as many time points. -/
def Meets (member : PortMember K) (target : Port K) : Prop :=
  ∃ other, target.get? member.name = some other ∧ member.values.length = other.values.length ∧
    ∀ (t : Nat) (a b : Quantity K), member.values[t]? = some a → other.values[t]? = some b → a.Matches b

/-- Why a member of the source does not meet the target. -/
inductive Refused (member : PortMember K) (source target : Port K) : ConnectionError → Prop
  | missing (absent : target.get? member.name = none) :
      Refused member source target (.missingMember target.name member.name)
  | times {other : PortMember K} (found : target.get? member.name = some other)
      (differ : member.values.length ≠ other.values.length) :
      Refused member source target
        (.mismatchedTimes source.name target.name member.values.length other.values.length)
  | indices {other : PortMember K} (found : target.get? member.name = some other)
      (count : member.values.length = other.values.length) {t : Nat} {a b : Quantity K}
      (here : member.values[t]? = some a) (there : other.values[t]? = some b) (unlike : ¬a.Matches b)
      (earlier : ∀ i < t, ∀ a b, member.values[i]? = some a → other.values[i]? = some b → a.Matches b) :
      Refused member source target (.mismatchedIndices member.name source.name target.name)

theorem meets_or_refused (member : PortMember K) (source target : Port K) :
    member.Meets target ∨ ∃ e, member.Refused source target e := by
  cases found : target.get? member.name with
  | none => exact .inr ⟨_, .missing found⟩
  | some other =>
    by_cases count : member.values.length = other.values.length
    · by_cases matching : ∃ (t : Nat) (a b : Quantity K),
          member.values[t]? = some a ∧ other.values[t]? = some b ∧ ¬a.Matches b
      · classical
        obtain ⟨a, b, here, there, unlike⟩ := Nat.find_spec matching
        refine .inr ⟨_, .indices found count here there unlike fun i before a b here there => ?_⟩
        by_contra different
        exact Nat.find_min matching before ⟨a, b, here, there, different⟩
      · refine .inl ⟨other, found, count, fun t a b here there => ?_⟩
        by_contra different
        exact matching ⟨t, a, b, here, there, different⟩
    · exact .inr ⟨_, .times found count⟩

end PortMember

namespace Connection

variable [Scalar K]

section Entries

variable {title : String} {t : Nat} {a b : Quantity K}

/-- With no key repeated, entries are found for all keys where the keys are the same. -/
theorem entriesAt_matches_iff (distinct : a.keys.Nodup) (distinct' : b.keys.Nodup) :
    (∃ entries, entriesAt title t a b = some entries) ↔ a.Matches b := by
  cases a with
  | scalar a =>
    cases b with
    | scalar b => exact iff_of_true ⟨_, rfl⟩ trivial
    | indexed others => exact iff_of_false (fun ⟨_, made⟩ => nomatch made) id
  | indexed entries =>
    cases b with
    | scalar b => exact iff_of_false (fun ⟨_, made⟩ => nomatch made) id
    | indexed others =>
      change (entries.map (·.1)).Nodup at distinct
      change (others.map (·.1)).Nodup at distinct'
      have found : (∃ equations, entriesAt title t (.indexed entries) (.indexed others) = some equations) ↔
          entries.length = others.length ∧ ∀ entry ∈ entries, entry.1 ∈ others.map (·.1) := by
        rw [entriesAt]
        split
        · rename_i count
          rw [exists_mapM_eq_some_iff, and_iff_right count]
          simp only [← exists_lookup_iff, Quantity.get?, Option.map_eq_some_iff]
          refine ⟨fun each entry inside => ?_, fun each entry inside => ?_⟩
          · obtain ⟨k, bound, rfl⟩ := List.getElem_of_mem inside
            obtain ⟨_, b, here, _⟩ := each (entries[k], k)
              (List.mem_zipIdx_iff_getElem?.2 (List.getElem?_eq_getElem bound))
            exact ⟨b, here⟩
          · obtain ⟨b, here⟩ := each entry.1 (List.fst_mem_of_mem_zipIdx inside)
            exact ⟨_, b, here, rfl⟩
        · rename_i count
          exact iff_of_false (fun ⟨_, made⟩ => nomatch made) (fun both => count both.1)
      rw [found]
      constructor
      · rintro ⟨count, inside⟩
        have included : entries.map (·.1) ⊆ others.map (·.1) := by
          intro key listed
          obtain ⟨entry, among, rfl⟩ := List.mem_map.1 listed
          exact inside entry among
        have same := (List.subperm_of_subset distinct included).perm_of_length_le (by simp [count])
        exact fun key => same.mem_iff
      · intro same
        have keys := (List.perm_ext_iff_of_nodup distinct distinct').2 same
        exact ⟨by simpa using keys.length_eq, fun entry inside => (same entry.1).1 (List.mem_map_of_mem inside)⟩

/-- The equations of a time point are one for each term, in order. -/
theorem entriesAt_equated {target : Port K} {name : String} (shown : target.quantity? name t = some b)
    {entries : List (Entry K)} (made : entriesAt s!"{title}.{name}" t a b = some entries) :
    List.Forall₂ (Slot.Equated title target) (a.slots name t) entries := by
  have known : ∀ label, target.term? name t label = b.term? label := fun label => by
    rw [Port.term?_eq, shown, Option.bind_some]
  cases a with
  | scalar a =>
    cases b with
    | scalar b =>
      cases made
      exact .cons ⟨b, known none, rfl⟩ .nil
    | indexed others => cases made
  | indexed own =>
    cases b with
    | scalar b => cases made
    | indexed others =>
      rw [entriesAt] at made
      split at made
      · rw [Quantity.slots, Quantity.terms, List.zipIdx_map, List.map_map, List.forall₂_map_left_iff]
        refine (forall₂_of_mapM_eq_some made).imp fun entry equation found => ?_
        obtain ⟨other, here, rfl⟩ := Option.map_eq_some_iff.1 found
        exact ⟨other, (known _).trans here, rfl⟩
      · cases made

end Entries

section Members

variable {source target : Port K} {title : String} {member : PortMember K} {entries : List (Entry K)}

/-- The equations of a member are one for each term, time by time. -/
theorem memberEntries_equated (made : memberEntries source target title member = .ok entries) :
    List.Forall₂ (Slot.Equated title target) member.slots entries := by
  unfold memberEntries at made
  cases found : target.get? member.name with
  | none =>
    rw [found] at made
    cases made
  | some other =>
    rw [found] at made
    dsimp only at made
    split at made
    · rename_i count
      split at made
      · rename_i lists listed
        cases made
        have points : (member.values.zip other.values).zipIdx.map (Prod.map Prod.fst id) = member.values.zipIdx := by
          rw [← List.zipIdx_map, List.map_fst_zip (Nat.le_of_eq count)]
        rw [PortMember.slots, ← points, List.flatMap_map, List.flatMap_def]
        refine List.rel_flatten (List.forall₂_map_left_iff.2 ?_)
        have each := (List.forall₂_and_left _ _).2 ⟨fun _ inside => inside, forall₂_of_mapM_eq_some listed⟩
        refine each.imp fun ⟨⟨a, b⟩, t⟩ equations ⟨inside, here⟩ => ?_
        refine entriesAt_equated ?_ here
        obtain ⟨_, there⟩ := List.getElem?_zip_eq_some.1 (List.mem_zipIdx_iff_getElem?.1 inside)
        rw [Port.quantity?, found]
        exact there
      · cases made
    · cases made

section Conditions

variable (distinct : source.KeysDistinct) (distinct' : target.KeysDistinct) (own : member ∈ source.members)
include distinct distinct' own

/-- The quantities of two members fit where they match at each time point. -/
theorem exists_lists_iff {other : PortMember K} (found : target.get? member.name = some other)
    (name : String) : (∃ lists, (member.values.zip other.values).zipIdx.mapM
        (fun point => entriesAt name point.2 point.1.1 point.1.2) = some lists) ↔
      ∀ (t : Nat) (a b : Quantity K), member.values[t]? = some a → other.values[t]? = some b → a.Matches b := by
  have theirs : other ∈ target.members := List.mem_of_find?_eq_some found
  rw [exists_mapM_eq_some_iff]
  constructor
  · intro each t a b here there
    have met := each ((a, b), t) (List.mem_zipIdx_iff_getElem?.2 (List.getElem?_zip_eq_some.2 ⟨here, there⟩))
    exact (entriesAt_matches_iff (distinct member own a (List.mem_of_getElem? here))
      (distinct' other theirs b (List.mem_of_getElem? there))).1 met
  · rintro each ⟨⟨a, b⟩, t⟩ inside
    obtain ⟨here, there⟩ := List.getElem?_zip_eq_some.1 (List.mem_zipIdx_iff_getElem?.1 inside)
    exact (entriesAt_matches_iff (distinct member own a (List.mem_of_getElem? here))
      (distinct' other theirs b (List.mem_of_getElem? there))).2 (each t a b here there)

theorem memberEntries_of_meets (meets : member.Meets target) :
    ∃ entries, memberEntries source target title member = .ok entries := by
  obtain ⟨other, found, count, matching⟩ := meets
  obtain ⟨lists, listed⟩ := (exists_lists_iff distinct distinct' own found s!"{title}.{member.name}").2 matching
  refine ⟨lists.flatten, ?_⟩
  unfold memberEntries
  rw [found]
  dsimp only
  rw [if_pos count, listed]

theorem memberEntries_of_refused {e : ConnectionError} (refused : member.Refused source target e) :
    memberEntries source target title member = .error e := by
  unfold memberEntries
  cases refused with
  | missing absent => rw [absent]
  | times found differ =>
    rw [found]
    dsimp only
    rw [if_neg differ]
  | indices found count here there unlike earlier =>
    rw [found]
    dsimp only
    rw [if_pos count]
    have unlisted := mt (exists_lists_iff distinct distinct' own found s!"{title}.{member.name}").1
      fun matching => unlike (matching _ _ _ here there)
    split
    · rename_i lists listed
      exact absurd ⟨lists, listed⟩ unlisted
    · rfl

/-- A member is connected where it meets the target. -/
theorem memberEntries_ok_iff :
    (∃ entries, memberEntries source target title member = .ok entries) ↔ member.Meets target := by
  refine ⟨fun ⟨entries, made⟩ => ?_, memberEntries_of_meets distinct distinct' own⟩
  rcases member.meets_or_refused source target with meets | ⟨e, refused⟩
  · exact meets
  · cases made.symm.trans (memberEntries_of_refused distinct distinct' own refused)

/-- Otherwise it is refused for what stands in the way. -/
theorem memberEntries_error_iff {e : ConnectionError} :
    memberEntries source target title member = .error e ↔ member.Refused source target e := by
  refine ⟨fun failed => ?_, memberEntries_of_refused distinct distinct' own⟩
  rcases member.meets_or_refused source target with meets | ⟨other, refused⟩
  · obtain ⟨entries, made⟩ : ∃ entries, memberEntries source target title member = .ok entries :=
      memberEntries_of_meets distinct distinct' own meets
    cases failed.symm.trans made
  · cases failed.symm.trans (memberEntries_of_refused distinct distinct' own refused)
    exact refused

end Conditions

end Members

section Between

variable {source target : Port K}

/-- A connection has one equation for each term of the source, in order. -/
theorem between_equated {connection : Connection K} (made : between source target = .ok connection) :
    connection.source = source.name ∧ connection.target = target.name ∧
      connection.equalities.name = s!"{source.name}_to_{target.name}" ∧ connection.equalities.active = true ∧
      List.Forall₂ (Slot.Equated s!"{source.name}_to_{target.name}" target) source.slots
        connection.equalities.members := by
  obtain ⟨lists, listed, rest⟩ := bind_eq_ok.1 made
  cases rest
  refine ⟨rfl, rfl, rfl, rfl, ?_⟩
  rw [Port.slots, List.flatMap_def]
  exact List.rel_flatten (List.forall₂_map_left_iff.2 ((forall₂_of_mapM_eq_ok listed).imp fun _ _ =>
    memberEntries_equated))

theorem exists_between_iff (distinct : source.KeysDistinct) (distinct' : target.KeysDistinct) :
    (∃ connection, between source target = .ok connection) ↔ ∀ member ∈ source.members, member.Meets target := by
  have all : (∃ connection, between source target = .ok connection) ↔
      ∃ lists, source.members.mapM (memberEntries source target s!"{source.name}_to_{target.name}") = .ok lists := by
    constructor
    · rintro ⟨connection, made⟩
      obtain ⟨lists, listed, _⟩ := bind_eq_ok.1 made
      exact ⟨lists, listed⟩
    · rintro ⟨lists, listed⟩
      exact ⟨_, bind_eq_ok.2 ⟨lists, listed, rfl⟩⟩
  rw [all, exists_mapM_eq_ok_iff]
  exact forall₂_congr fun member own => memberEntries_ok_iff distinct distinct' own

theorem between_error_iff (distinct : source.KeysDistinct) (distinct' : target.KeysDistinct) {e : ConnectionError} :
    between source target = .error e ↔ ∃ before member after, source.members = before ++ member :: after ∧
      (∀ earlier ∈ before, earlier.Meets target) ∧ member.Refused source target e := by
  refine (bind_pure_eq_error.trans mapM_eq_error_iff).trans ?_
  refine exists_congr fun before => exists_congr fun member => exists_congr fun after =>
    and_congr_right fun split => ?_
  have own : ∀ other ∈ before ++ [member], other ∈ source.members := fun other inside => by
    rw [split]
    simp only [List.mem_append, List.mem_cons, List.not_mem_nil] at inside ⊢
    tauto
  refine and_congr (forall₂_congr fun earlier inside => ?_) ?_
  · exact memberEntries_ok_iff distinct distinct' (own earlier (List.mem_append_left _ inside))
  · exact memberEntries_error_iff distinct distinct' (own member (by simp))

end Between

/-- In exact arithmetic the equations hold together where the target shows the values of the source. -/
theorem residuals_zero_iff {source target : Port ℝ} (distinct : source.KeysDistinct) {connection : Connection ℝ}
    (made : between source target = .ok connection) (s : Store ℝ) :
    (∀ c ∈ connection.equalities.constraints, c.residual s = 0) ↔
      ∀ member ∈ source.members, ∀ (t : Nat) (q : Quantity ℝ), member.values[t]? = some q →
        ∀ key e, q.term? key = some e → target.value? member.name t key s = some (e.eval s) := by
  obtain ⟨_, _, _, _, equated⟩ := between_equated made
  constructor
  · intro zero member own t q shown key e known
    obtain ⟨k, position⟩ := List.getElem?_of_mem (Quantity.mem_terms_of_term? known)
    have slot : ⟨member.name, t, k, key, e⟩ ∈ source.slots := Port.mem_slots.2 ⟨member, own, q, shown, position, rfl⟩
    obtain ⟨_, listed, other, found, rfl⟩ := exists_right_of_forall₂ equated slot
    have balance := zero _ (List.mem_map_of_mem listed)
    rw [Constraint.residual_equality, sub_eq_zero] at balance
    rw [Port.value?, found, Option.map_some, balance]
  · intro same c inside
    obtain ⟨entry, listed, rfl⟩ := List.mem_map.1 inside
    obtain ⟨slot, among, other, found, rfl⟩ := exists_left_of_forall₂ equated listed
    obtain ⟨member, own, q, shown, position, named⟩ := Port.mem_slots.1 among
    have known := Quantity.term?_of_mem_terms (distinct member own q (List.mem_of_getElem? shown))
      (List.mem_of_getElem? position)
    have value := same member own slot.time q shown slot.label slot.term known
    rw [named, Port.value?, found, Option.map_some, Option.some.injEq] at value
    rw [Constraint.residual_equality, value, sub_self]

/-- What it means to connect two ports that repeat no key. They connect where the target has, for every member of
the source, a member of that name over as many time points that matches it at each of them. The connection sets
every term of the source equal to the term of the same name, time and key, in order, and in exact arithmetic its
equations hold where the two ports show equal values. Ports that do not connect are refused for the first member
that does not meet the target: because there is none of its name, or for the number of time points, or for the
first time point at which they do not match. -/
theorem between_meaning :
    (∀ (K : Type) [Scalar K] (source target : Port K), source.KeysDistinct → target.KeysDistinct →
      ((∃ connection, between source target = .ok connection) ↔ ∀ member ∈ source.members, member.Meets target) ∧
      (∀ connection, between source target = .ok connection →
        connection.source = source.name ∧ connection.target = target.name ∧
          connection.equalities.name = s!"{source.name}_to_{target.name}" ∧ connection.equalities.active = true ∧
          List.Forall₂ (Slot.Equated s!"{source.name}_to_{target.name}" target) source.slots
            connection.equalities.members) ∧
      ∀ e, between source target = .error e ↔ ∃ (before : List (PortMember K)) (member : PortMember K) (after : _),
        source.members = before ++ member :: after ∧ (∀ earlier ∈ before, earlier.Meets target) ∧
          member.Refused source target e) ∧
    ∀ source target : Port ℝ, source.KeysDistinct → target.KeysDistinct → ∀ connection,
      between source target = .ok connection → ∀ s : Store ℝ,
        (∀ c ∈ connection.equalities.constraints, c.residual s = 0) ↔
          ∀ member ∈ source.members, ∀ (t : Nat) (q : Quantity ℝ), member.values[t]? = some q →
            ∀ key e, q.term? key = some e → target.value? member.name t key s = some (e.eval s) :=
  ⟨fun _ _ _ _ distinct distinct' => ⟨exists_between_iff distinct distinct', fun _ made => between_equated made,
      fun _ => between_error_iff distinct distinct'⟩,
    fun _ _ distinct _ _ made s => residuals_zero_iff distinct made s⟩

/-- Keys may come in another order. A port without members is refused. -/
theorem between_meaning_reordered :
    let source : Port ℝ :=
      .output "up" [⟨"flow", .reference, [.indexed [(.phase .liquid, .var 0), (.phase .vapor, .var 1)]]⟩]
    let target : Port ℝ :=
      .input "down" [⟨"flow", .reference, [.indexed [(.phase .vapor, .var 2), (.phase .liquid, .var 3)]]⟩]
    let bare : Port ℝ := .input "bare" []
    source.KeysDistinct ∧ target.KeysDistinct ∧ bare.KeysDistinct ∧
    (∃ connection, between source target = .ok connection ∧
      List.Forall₂ (Slot.Equated "up_to_down" target) source.slots connection.equalities.members ∧
      ∀ s : Store ℝ, s.value 0 = s.value 3 → s.value 1 = s.value 2 →
        ∀ c ∈ connection.equalities.constraints, c.residual s = 0) ∧
    between source bare = .error (.missingMember "bare" "flow") := by
  intro source target bare
  have distinct : source.KeysDistinct := by
    simp [source, Port.output, Port.KeysDistinct, Quantity.keys]
  have distinct' : target.KeysDistinct := by
    simp [target, Port.input, Port.KeysDistinct, Quantity.keys]
  have distinct'' : bare.KeysDistinct := List.forall_mem_nil _
  have meets : ∀ member ∈ source.members, member.Meets target := by
    refine List.forall_mem_singleton.2 ⟨_, rfl, rfl, ?_⟩
    rintro (_ | t) _ _ ⟨rfl⟩ ⟨rfl⟩
    intro key
    simp only [List.map_cons, List.map_nil, List.mem_cons, List.not_mem_nil, or_false]
    exact or_comm
  obtain ⟨general, real⟩ := between_meaning
  obtain ⟨accepted, equated, _⟩ := general ℝ source target distinct distinct'
  obtain ⟨_, _, refused⟩ := general ℝ source bare distinct distinct''
  obtain ⟨connection, made⟩ := accepted.2 meets
  refine ⟨distinct, distinct', distinct'', ⟨connection, made, ?equated, fun s liquid vapor => ?balanced⟩, ?refused⟩
  case equated => exact (equated connection made).2.2.2.2
  case balanced =>
    refine (real source target distinct distinct' connection made s).2 (List.forall_mem_singleton.2 ?_)
    rintro (_ | t) _ ⟨rfl⟩ key e shown
    rcases List.mem_pair.1 (Quantity.mem_terms_of_term? shown) with same | same
    · cases same
      exact congrArg some liquid.symm
    · cases same
      exact congrArg some vapor.symm
  case refused => exact (refused _).2 ⟨[], _, [], rfl, List.forall_mem_nil _, .missing rfl⟩

end Connection

end Distillation
