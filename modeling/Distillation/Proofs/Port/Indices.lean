import Distillation.Proofs.Port.Meaning

namespace Distillation

variable {K : Type}

namespace Quantity

/-- The indices of the equations of a quantity at a time point. -/
def indices (t : Nat) : Quantity K → List EquationIndex
  | scalar _ => [.time t]
  | indexed entries => (List.range entries.length).map (.timeComponent t)

/-- At one time point, equations of the two share an index. -/
def Overlaps : Quantity K → Quantity K → Prop
  | scalar _, scalar _ => True
  | indexed entries, indexed others => entries ≠ [] ∧ others ≠ []
  | _, _ => False

theorem index_slots (q : Quantity K) (member : String) (t : Nat) : (q.slots member t).map (·.index) = q.indices t := by
  cases q with
  | scalar e => rfl
  | indexed entries =>
    have each : ∀ term ∈ (indexed entries).terms.zipIdx,
        (Slot.mk member t term.2 term.1.1 term.1.2).index = .timeComponent t term.2 := by
      intro term inside
      obtain ⟨entry, _, same⟩ := List.mem_map.1 (List.fst_mem_of_mem_zipIdx inside)
      rw [← same]
      rfl
    have count : (indexed entries).terms.length = entries.length := List.length_map _
    rw [slots, List.map_map, indices, ← count, List.range_eq_range', ← List.zipIdx_map_snd, List.map_map]
    exact List.map_congr_left each

theorem nodup_indices (q : Quantity K) (t : Nat) : (q.indices t).Nodup := by
  cases q with
  | scalar e => exact List.nodup_singleton _
  | indexed entries => exact List.nodup_range.map fun _ _ same => (EquationIndex.timeComponent.inj same).2

theorem disjoint_indices_iff {a b : Quantity K} {t u : Nat} :
    (a.indices t).Disjoint (b.indices u) ↔ ¬(t = u ∧ a.Overlaps b) := by
  cases a with
  | scalar a =>
    cases b with
    | scalar b => simp [indices, Overlaps, eq_comm]
    | indexed others => simp [indices, Overlaps]
  | indexed entries =>
    cases b with
    | scalar b => simp [indices, Overlaps]
    | indexed others =>
      constructor
      · rintro apart ⟨rfl, some, some'⟩
        have first : ∀ l : List (Key × Expr K), l ≠ [] →
            EquationIndex.timeComponent t 0 ∈ (indexed l).indices t := fun l nonempty =>
          List.mem_map_of_mem (List.mem_range.2 (List.length_pos_iff.2 nonempty))
        exact apart (first entries some) (first others some')
      · intro apart i here there
        obtain ⟨j, bound, rfl⟩ := List.mem_map.1 here
        obtain ⟨k, bound', same⟩ := List.mem_map.1 there
        cases same
        exact apart ⟨rfl, List.ne_nil_of_length_pos (Nat.zero_lt_of_lt (List.mem_range.1 bound)),
          List.ne_nil_of_length_pos (Nat.zero_lt_of_lt (List.mem_range.1 bound'))⟩

end Quantity

namespace PortMember

variable {member other : PortMember K}

/-- At some time point the two show quantities whose equations share an index. -/
def Overlaps (member other : PortMember K) : Prop :=
  ∃ (t : Nat) (a b : Quantity K), member.values[t]? = some a ∧ other.values[t]? = some b ∧ a.Overlaps b

theorem index_slots (member : PortMember K) :
    member.slots.map (·.index) = member.values.zipIdx.flatMap fun point => point.1.indices point.2 := by
  rw [slots, List.map_flatMap]
  exact List.flatMap_congr fun point _ => point.1.index_slots member.name point.2

/-- The equations of one member never share an index. -/
theorem nodup_index_slots (member : PortMember K) : (member.slots.map (·.index)).Nodup := by
  rw [index_slots, List.nodup_flatMap]
  refine ⟨fun point _ => point.1.nodup_indices point.2, ?_⟩
  have times : (member.values.zipIdx.map (·.2)).Nodup := by
    rw [List.zipIdx_map_snd]
    exact List.nodup_range'
  exact (List.pairwise_map.1 times).imp fun differ => Quantity.disjoint_indices_iff.2 fun both => differ both.1

theorem disjoint_index_slots_iff :
    (member.slots.map (·.index)).Disjoint (other.slots.map (·.index)) ↔ ¬member.Overlaps other := by
  rw [index_slots, index_slots]
  constructor
  · rintro apart ⟨t, a, b, here, there, overlap⟩
    have within : (a.indices t).Disjoint (b.indices t) := fun _ inA inB =>
      apart (List.mem_flatMap.2 ⟨(a, t), List.mem_zipIdx_iff_getElem?.2 here, inA⟩)
        (List.mem_flatMap.2 ⟨(b, t), List.mem_zipIdx_iff_getElem?.2 there, inB⟩)
    exact Quantity.disjoint_indices_iff.1 within ⟨rfl, overlap⟩
  · intro apart i here there
    obtain ⟨⟨a, t⟩, shown, inA⟩ := List.mem_flatMap.1 here
    obtain ⟨⟨b, u⟩, shown', inB⟩ := List.mem_flatMap.1 there
    refine Quantity.disjoint_indices_iff.2 ?_ inA inB
    rintro ⟨rfl, overlap⟩
    exact apart ⟨t, a, b, List.mem_zipIdx_iff_getElem?.1 shown, List.mem_zipIdx_iff_getElem?.1 shown', overlap⟩

end PortMember

namespace Port

/-- No two members show quantities of one shape at the same time, unless one of them has no entries. -/
def IndicesApart (port : Port K) : Prop :=
  port.members.Pairwise fun member other => ¬member.Overlaps other

theorem nodup_index_slots_iff {port : Port K} : (port.slots.map (·.index)).Nodup ↔ port.IndicesApart := by
  rw [slots, List.map_flatMap, List.nodup_flatMap, and_iff_right fun member _ => member.nodup_index_slots]
  exact List.Pairwise.iff fun _ _ => PortMember.disjoint_index_slots_iff

end Port

namespace Connection

variable [Scalar K] {title : String} {source target : Port K} {slots : List (Slot K)} {entries : List (Entry K)}

theorem map_index_of_equated (equated : List.Forall₂ (Slot.Equated title target) slots entries) :
    entries.map (·.1) = slots.map (·.index) := by
  induction equated with
  | nil => rfl
  | cons first _ ih =>
    obtain ⟨_, _, rfl⟩ := first
    rw [List.map_cons, List.map_cons, ih]

/-- The equation found at an index is that of the first term with this index. -/
theorem lookup_of_equated (equated : List.Forall₂ (Slot.Equated title target) slots entries) (i : EquationIndex)
    (c : Constraint K) : entries.lookup i = some c ↔
      ∃ slot, slots.find? (·.index == i) = some slot ∧ slot.Equated title target (i, c) := by
  induction equated with
  | nil => simp
  | @cons slot entry rest others first _ ih =>
    obtain ⟨other, shown, rfl⟩ := first
    rw [List.lookup_cons, List.find?_cons, BEq.comm]
    by_cases here : slot.index = i
    · subst here
      rw [beq_self_eq_true]
      constructor
      · rintro ⟨⟩
        exact ⟨slot, rfl, other, shown, rfl⟩
      · rintro ⟨_, ⟨⟩, own, shown', same⟩
        cases shown.symm.trans shown'
        rw [(Prod.mk.inj same).2]
    · rw [beq_false_of_ne here]
      exact ih

/-- The indices of the equations are different, and each equation is found at its own, just where no two members of
the source show quantities of one shape at the same time. -/
theorem found_iff_apart {connection : Connection K} (made : between source target = .ok connection) :
    ((connection.equalities.members.map (·.1)).Nodup ∧
      ∀ entry ∈ connection.equalities.members, connection.equalities.get? entry.1 = some entry.2) ↔
        source.IndicesApart := by
  obtain ⟨_, _, _, _, equated⟩ := between_equated made
  rw [← Port.nodup_index_slots_iff, ← map_index_of_equated equated]
  exact and_iff_left_of_imp fun distinct _ inside => lookup_of_nodup distinct inside

/-- Which equation of a connection is found at an index: that of the first term of the source with this index, if
there is one. All equations have indices of their own, and are found there, just where no two members of the source
show quantities of one shape at the same time. -/
theorem equalities_found {K : Type} [Scalar K] {source target : Port K} {connection : Connection K}
    (made : between source target = .ok connection) :
    connection.equalities.members.map (·.1) = source.slots.map (·.index) ∧
      (∀ i c, connection.equalities.get? i = some c ↔ ∃ slot, source.slots.find? (·.index == i) = some slot ∧
        slot.Equated s!"{source.name}_to_{target.name}" target (i, c)) ∧
      (((connection.equalities.members.map (·.1)).Nodup ∧
        ∀ entry ∈ connection.equalities.members, connection.equalities.get? entry.1 = some entry.2) ↔
          source.IndicesApart) := by
  obtain ⟨_, _, _, _, equated⟩ := between_equated made
  exact ⟨map_index_of_equated equated, lookup_of_equated equated, found_iff_apart made⟩

/-- Two members that show one value and one entry by turns. -/
def alternating : List (PortMember Float) :=
  [⟨"holdup", .reference, [.scalar (.const 1.0), .indexed [(.phase .liquid, .const 2.0)]]⟩,
    ⟨"duty", .reference, [.indexed [(.phase .vapor, .const 3.0)], .scalar (.const 4.0)]⟩]

theorem alternating_found : ∃ connection,
    between (.output "bottom" alternating) (.input "feed" alternating) = .ok connection ∧
      (connection.equalities.members.map (·.1)).Nodup ∧
      ∀ entry ∈ connection.equalities.members, connection.equalities.get? entry.1 = some entry.2 := by
  have apart : (Port.output "bottom" alternating).IndicesApart := by
    refine List.pairwise_pair.2 ?_
    rintro ⟨t, a, b, here, there, overlap⟩
    match t with
    | 0 => cases here; cases there; exact overlap
    | 1 => cases here; cases there; exact overlap
    | t + 2 => cases here
  obtain ⟨connection, made⟩ : ∃ connection,
      between (.output "bottom" alternating) (.input "feed" alternating) = .ok connection := ⟨_, rfl⟩
  exact ⟨connection, made, (equalities_found made).2.2.2 apart⟩

/-- A temperature and a pressure. -/
def levels : List (PortMember Float) :=
  [⟨"temperature", .reference, [.scalar (.const 300.0)]⟩, ⟨"pressure", .reference, [.scalar (.const 1.0)]⟩]

/-- Both levels are equated at the index of their time point, where only the first equation is found. -/
theorem levels_collide : ∃ connection,
    between (.output "bottom" levels) (.input "feed" levels) = .ok connection ∧
      ¬(connection.equalities.members.map (·.1)).Nodup ∧
      ∃ entry ∈ connection.equalities.members, connection.equalities.get? entry.1 ≠ some entry.2 := by
  refine ⟨_, rfl, by decide, _, List.mem_cons_of_mem _ List.mem_cons_self, fun found => ?_⟩
  have named := congrArg (Option.map (·.name)) found
  revert named
  decide

end Connection

end Distillation
