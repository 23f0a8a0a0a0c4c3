import Mathlib.Data.List.Perm.Basic
import Distillation.Proofs.Tray.PortChecks
import Distillation.Proofs.Tray.SideDraws

namespace Distillation

namespace NameMap

variable {α : Type} {map before between after : NameMap α} {name : String} {a : α}

theorem mem_names_iff : name ∈ map.names ↔ map.contains name = true := by
  rw [names, contains, Option.isSome_iff_exists, ← exists_lookup_iff]
  rfl

theorem find?_of_mem (distinct : map.names.Nodup) (inside : (name, a) ∈ map.entries) : map.find? name = some a :=
  lookup_of_nodup distinct inside

/-- An entry of a new name is put somewhere between the others. -/
theorem place_perm (name : String) (a : α) {entries : List (String × α)} (absent : entries.lookup name = none) :
    (place name a entries).Perm ((name, a) :: entries) := by
  induction entries with
  | nil => exact .refl _
  | cons entry rest ih =>
    obtain ⟨other, b⟩ := entry
    rw [List.lookup_cons] at absent
    split at absent
    · cases absent
    · rename_i different
      rw [place]
      split
      · exact .refl _
      · rw [if_neg fun same => by simp [same] at different]
        exact ((ih absent).cons _).trans (.swap _ _ _)

/-- Entries have been added to a map, each under a name that was new. -/
structure Adds (before after : NameMap α) (entries : List (String × α)) : Prop where
  entries : after.entries.Perm (entries ++ before.entries)
  nodup : before.names.Nodup → after.names.Nodup

theorem Adds.refl (map : NameMap α) : map.Adds map [] :=
  ⟨.refl _, id⟩

theorem Adds.trans {first second : List (String × α)} (here : before.Adds between first) (later : between.Adds after second) :
    before.Adds after (first ++ second) where
  entries := by
    rw [List.append_assoc]
    exact later.entries.trans ((here.entries.append_left second).trans (by
      rw [← List.append_assoc, ← List.append_assoc]
      exact List.perm_append_comm.append_right _))
  nodup distinct := later.nodup (here.nodup distinct)

theorem adds_insert (a : α) (absent : map.contains name = false) : map.Adds (map.insert name a) [(name, a)] := by
  have unknown : map.find? name = none := by simpa [contains] using absent
  have placed := place_perm name a unknown
  have names : (map.insert name a).names.Perm (name :: map.names) := placed.map Prod.fst
  refine ⟨placed, fun distinct => names.nodup_iff.2 (List.nodup_cons.2 ⟨fun old => ?_, distinct⟩)⟩
  rw [mem_names_iff, absent] at old
  cases old

end NameMap

namespace Split

variable {K : Type} {outlets : List (PropertyState K)} {schema : Schema} {port : String} {p : Phase} {share : Share}
  {kept after : Expressions K}

/-- What a unit has to keep for members that are linked to names. -/
def links (members : List (PortMember K)) : List (String × List (Quantity K)) :=
  members.filterMap fun member => member.linkage.expression?.map (·, member.values)

theorem names_links (members : List (PortMember K)) :
    (links members).map (·.1) = members.filterMap (·.linkage.expression?) := by
  simp [links, List.map_filterMap, Function.comp_def]

theorem mem_links {members : List (PortMember K)} {member : PortMember K} {name : String} (inside : member ∈ members)
    (linked : member.linkage = .expression name) : (name, member.values) ∈ links members :=
  List.mem_filterMap.2 ⟨member, inside, by rw [linked]; rfl⟩

theorem adds_of_link {kind : MemberKind} {values : List (Quantity K)} {linkage : Linkage}
    (linked : link kind port values kept = .ok (linkage, after)) :
    kept.Adds after (linkage.expression?.map (·, values)).toList := by
  have step := link_eq_ok linked
  rw [linkage_of_link linked]
  split at step
  · rename_i synthesized
    obtain ⟨absent, rfl⟩ := step
    rw [if_pos synthesized]
    exact NameMap.adds_insert values absent
  · rename_i referenced
    rw [if_neg referenced, step]
    exact .refl kept

variable [Scalar K]

theorem adds_of_resolveMembers : ∀ {kept after : Expressions K} {members : List (PortMember K)},
    resolveMembers outlets port p share schema kept = .ok (members, after) → kept.Adds after (links members) := by
  induction schema with
  | nil =>
    intro kept after members resolved
    cases resolved
    exact .refl kept
  | cons entry rest ih =>
    intro kept after members resolved
    obtain ⟨values, _, resolved⟩ := bind_eq_ok.1 resolved
    obtain ⟨⟨linkage, between⟩, linked, resolved⟩ := bind_eq_ok.1 resolved
    obtain ⟨⟨others, _⟩, later, resolved⟩ := bind_eq_ok.1 resolved
    cases resolved
    have opened : links (⟨entry.1, linkage, values⟩ :: others) =
        (linkage.expression?.map (·, values)).toList ++ links others := by
      rw [links, List.filterMap_cons]
      cases linkage.expression? <;> rfl
    rw [opened]
    exact (adds_of_link linked).trans (ih later)

theorem adds_of_resolveOutlets {list : List Outlet} : ∀ {kept after : Expressions K} {ports : List (Port K)},
    resolveOutlets outlets schema list kept = .ok (ports, after) → kept.Adds after (links (ports.flatMap (·.members))) := by
  induction list with
  | nil =>
    intro kept after ports resolved
    cases resolved
    exact .refl kept
  | cons outlet rest ih =>
    intro kept after ports resolved
    obtain ⟨⟨port, between⟩, made, resolved⟩ := bind_eq_ok.1 resolved
    obtain ⟨⟨others, _⟩, later, resolved⟩ := bind_eq_ok.1 resolved
    obtain ⟨⟨members, _⟩, first, made⟩ := bind_eq_ok.1 made
    cases made
    cases resolved
    rw [List.flatMap_cons, links, List.filterMap_append]
    exact (adds_of_resolveMembers first).trans (ih later)

/-- The members of a port are linked to the names that it needs. -/
theorem names_of_carried {members : List (PortMember K)} (carried : List.Forall₂ (Carried outlets port p share) schema members) :
    members.filterMap (·.linkage.expression?) = neededNames port schema := by
  induction carried with
  | nil => rfl
  | @cons entry _ _ _ own _ ih =>
    rw [List.filterMap_cons, own.linkage, neededNames_cons, ih]
    cases entry.2.isSynthesized <;> rfl

/-- A port that is made for an outlet carries the members of the schema. -/
theorem carried_of_resolvePort {built : Port K} (made : resolvePort outlets schema port p share kept = .ok (built, after)) :
    built.name = port ∧ List.Forall₂ (Carried outlets port p share) schema built.members := by
  obtain ⟨⟨members, _⟩, resolved, made⟩ := bind_eq_ok.1 made
  cases made
  exact ⟨rfl, carried_of_resolveMembers resolved⟩

end Split

namespace Tray

variable {K : Type} {tray : Tray K} {schema : Split.Schema}

/-- The expressions of a tray and its ports fit together. A member that is linked to a name is what is kept under it,
at every time; no other member of any port is linked to that name, and nothing is kept that no outlet port shows.
Inlet ports pass on what the states have; of the outlet ports, each links those members of the schema that it builds,
by their kind and its own name. -/
structure KeepsExpressions (tray : Tray K) (schema : Split.Schema) : Prop where
  kept : ∀ port ∈ tray.ports.inputs ++ tray.ports.outputs, ∀ member ∈ port.members, ∀ name,
    member.linkage = .expression name → tray.expression? name = some member.values ∧
      member.values.length = tray.time.count
  apart : (((tray.ports.inputs ++ tray.ports.outputs).flatMap (·.members)).filterMap (·.linkage.expression?)).Nodup
  distinct : tray.expressions.names.Nodup
  shown : ∀ name ∈ tray.expressions.names,
    (tray.ports.outputs.flatMap (·.members)).countP (·.linkage == .expression name) = 1
  inlets : ∀ port ∈ tray.ports.inputs, ∀ member ∈ port.members, member.linkage = .reference
  outlets : ∀ port ∈ tray.ports.outputs, List.Forall₂ (fun entry member => member.name = entry.1 ∧ member.linkage =
    if entry.2.isSynthesized then .expression (Split.expressionName entry.2 port.name) else .reference)
      schema port.members
  count : tray.expressions.names.length = tray.ports.outputs.length * (schema.filter (·.2.isSynthesized)).length

theorem linkage_of_inletPorts (feed : Bool) (points : List (TrayStates K)) :
    ∀ port ∈ inletPorts feed points, ∀ member ∈ port.members, member.linkage = .reference := by
  have passed : ∀ (name : String) (states : List (PropertyState K)), ∀ member ∈ (passThrough name states).members,
      member.linkage = .reference := by
    intro name states member own
    obtain ⟨k, _, rfl⟩ := List.mem_mapIdx.1 own
    rfl
  intro port listed
  rcases List.mem_append.1 listed with feeding | passing
  · split at feeding
    · rw [List.mem_singleton.1 feeding]
      exact passed _ _
    · cases feeding
  · rcases List.mem_pair.1 passing with rfl | rfl <;> exact passed _ _

variable [Scalar K]

theorem keepsExpressions_of_resolved (count : tray.outlets.length = tray.time.count)
    (inlets : ∀ port ∈ tray.ports.inputs, ∀ member ∈ port.members, member.linkage = .reference)
    (resolved : Split.resolveOutlets tray.outlets schema tray.outflows .empty =
      .ok (tray.ports.outputs, tray.expressions)) : tray.KeepsExpressions schema := by
  have added := Split.adds_of_resolveOutlets resolved
  have distinct : tray.expressions.names.Nodup := added.nodup .nil
  have entries : tray.expressions.entries.Perm (Split.links (tray.ports.outputs.flatMap (·.members))) := by
    simpa [NameMap.empty] using added.entries
  have names : tray.expressions.names.Perm
      ((tray.ports.outputs.flatMap (·.members)).filterMap (·.linkage.expression?)) :=
    Split.names_links (tray.ports.outputs.flatMap (·.members)) ▸ entries.map Prod.fst
  have carried : ∀ port ∈ tray.ports.outputs, ∃ outlet : Split.Outlet,
      List.Forall₂ (Split.Carried tray.outlets port.name outlet.phase outlet.share) schema port.members := by
    intro port leaving
    obtain ⟨outlet, _, _, _, made⟩ := exists_left_of_forall₂ (Split.resolvePort_of_resolveOutlets resolved) leaving
    obtain ⟨named, members⟩ := Split.carried_of_resolvePort made
    exact ⟨outlet, named ▸ members⟩
  have unlinked : (tray.ports.inputs.flatMap (·.members)).filterMap (·.linkage.expression?) = [] := by
    refine List.filterMap_eq_nil_iff.2 fun member inside => ?_
    obtain ⟨port, entering, own⟩ := List.mem_flatMap.1 inside
    rw [inlets port entering member own]
    rfl
  refine ⟨fun port present member own name linked => ?_, ?_, distinct, fun name listed => ?_, inlets,
    fun port leaving => ?_, ?_⟩
  · rcases List.mem_append.1 present with entering | leaving
    · rw [inlets port entering member own] at linked
      cases linked
    · have link := Split.mem_links (List.mem_flatMap.2 ⟨port, leaving, own⟩) linked
      obtain ⟨outlet, members⟩ := carried port leaving
      obtain ⟨entry, _, fits⟩ := exists_left_of_forall₂ members own
      exact ⟨NameMap.find?_of_mem distinct (entries.mem_iff.2 link), fits.values.length_eq.symm.trans count⟩
  · rw [List.flatMap_append, List.filterMap_append, unlinked, List.nil_append]
    exact names.nodup_iff.1 distinct
  · have once := List.count_eq_one_of_mem (names.nodup_iff.1 distinct) (names.mem_iff.1 listed)
    rw [List.count_filterMap] at once
    rw [← once]
    refine List.countP_congr fun member _ => ?_
    cases member.linkage <;> simp [Linkage.expression?]
  · obtain ⟨outlet, members⟩ := carried port leaving
    exact members.imp fun entry member fits => ⟨fits.name, fits.linkage⟩
  · have each : ∀ list ∈ tray.ports.outputs.map fun port => port.members.filterMap (·.linkage.expression?),
        list.length = (schema.filter (·.2.isSynthesized)).length := by
      refine List.forall_mem_map.2 fun port leaving => ?_
      obtain ⟨outlet, members⟩ := carried port leaving
      rw [Split.names_of_carried members, Split.neededNames, List.length_map]
    rw [names.length_eq, List.filterMap_flatMap, List.flatMap_def, length_flatten_of_forall each, List.length_map]

/-- Whatever the property package, a tray that is built keeps the expressions of its outlet ports and no others. -/
theorem kept_expressions {package : PropertyPackage K} {config : TrayConfig K} {time : TimeSet K} {name : String}
    {s t : Store K} (built : (build name config package time).on s = (.ok tray, t)) :
    tray.time = time ∧ ∃ schema, Split.schema tray.outlets = .ok schema ∧ tray.KeepsExpressions schema := by
  obtain ⟨count, _, _, schema, accepted, resolved⟩ := outlets_of_build built
  obtain ⟨_, _, rfl, _, inputs, _⟩ := opened_of_build built
  refine ⟨rfl, schema, accepted, keepsExpressions_of_resolved count ?_ resolved⟩
  rw [inputs]
  exact linkage_of_inletPorts _ _

/-- With a side draw of the vapor there are three outlet ports, of which each links three of its members. -/
theorem kept_expressions_drawn : ∃ (tray : Tray Float) (s : Store Float),
    (build "tray" ⟨true, true, false, false, false, .empty⟩ IdealPackage.benzeneToluene.toPackage .steady).on .empty =
      (.ok tray, s) ∧ ∃ schema, Split.schema tray.outlets = .ok schema ∧ tray.KeepsExpressions schema ∧
    tray.expressions.names.length = 9 := by
  obtain ⟨tray, s, built, names⟩ : ∃ (tray : Tray Float) (s : Store Float),
      (build "tray" ⟨true, true, false, false, false, .empty⟩ IdealPackage.benzeneToluene.toPackage .steady).on .empty =
        (.ok tray, s) ∧ tray.expressions.names.length = 9 := ⟨_, _, rfl, rfl⟩
  obtain ⟨_, schema, accepted, keeps⟩ := kept_expressions built
  exact ⟨tray, s, built, schema, accepted, keeps, names⟩

end Tray

end Distillation
