import Distillation.Port.Connection
import Distillation.Proofs.Tray.Resolution

namespace Distillation

variable {K : Type}

/-- The labels of all terms. -/
def Quantity.labels (q : Quantity K) : List (Option Key) :=
  q.terms.map (·.1)

/-- At each of some time points the member shows a quantity with these labels. -/
def PortMember.Spans (member : PortMember K) (count : Nat) (labels : List (Option Key)) : Prop :=
  member.values.map (·.labels) = List.replicate count labels

theorem PortMember.Spans.length {member : PortMember K} {count : Nat} {labels : List (Option Key)}
    (spans : member.Spans count labels) : member.values.length = count := by
  have same := congrArg List.length spans
  rwa [List.length_map, List.length_replicate] at same

theorem PortMember.Spans.labels {member : PortMember K} {count : Nat} {labels : List (Option Key)}
    (spans : member.Spans count labels) {q : Quantity K} (shown : q ∈ member.values) : q.labels = labels :=
  List.eq_of_mem_replicate (spans ▸ List.mem_map_of_mem shown)

namespace Connection

variable [Scalar K]

theorem entriesAt_of_labels (title : String) (t : Nat) {a b : Quantity K} (same : a.labels = b.labels) :
    ∃ entries, entriesAt title t a b = some entries ∧ entries.length = a.labels.length := by
  cases a with
  | scalar a =>
    cases b with
    | scalar b => exact ⟨_, rfl, rfl⟩
    | indexed others => cases others <;> cases same
  | indexed entries =>
    cases b with
    | scalar b => cases entries <;> cases same
    | indexed others =>
      have keys : entries.map (·.1) = others.map (·.1) := by
        refine List.map_injective_iff.2 (fun _ _ => Option.some.inj) ?_
        simpa [Quantity.labels, Quantity.terms, Function.comp_def] using same
      have count : entries.length = others.length := by simpa using congrArg List.length keys
      have known : ∀ entry ∈ entries, ∃ b, (Quantity.indexed others).get? entry.1 = some b := by
        intro entry inside
        have listed : entry.1 ∈ others.map (·.1) := keys ▸ List.mem_map_of_mem inside
        obtain ⟨other, among, named⟩ := List.mem_map.1 listed
        refine Option.ne_none_iff_exists'.1 fun absent => ?_
        have different := List.lookup_eq_none_iff.1 absent other among
        rw [named, bne_self_eq_false] at different
        cases different
      obtain ⟨equations, made⟩ : ∃ equations : List (Entry K), List.Forall₂ (fun entry equation =>
          (((Quantity.indexed others).get? entry.1.1).map fun b => (EquationIndex.timeComponent t entry.2,
            Constraint.equality s!"{title}[{t},{entry.1.1.text}]" entry.1.2 b)) = some equation)
          entries.zipIdx equations := by
        refine exists_forall₂ fun entry inside => ?_
        obtain ⟨b, found⟩ := known entry.1 (List.fst_mem_of_mem_zipIdx inside)
        exact ⟨_, by rw [found]; rfl⟩
      refine ⟨equations, ?_, ?_⟩
      · rw [entriesAt, if_pos count]
        exact mapM_eq_some_of_forall₂ made
      · rw [← made.length_eq, List.length_zipIdx, Quantity.labels, Quantity.terms, List.length_map, List.length_map]

variable {source target : Port K} {count : Nat}

theorem memberEntries_of_spans {member other : PortMember K} {labels : List (Option Key)}
    (found : target.get? member.name = some other) (here : member.Spans count labels) (there : other.Spans count labels)
    (title : String) : ∃ entries, memberEntries source target title member = .ok entries ∧
      entries.length = count * labels.length := by
  have lengths : member.values.length = other.values.length := here.length.trans there.length.symm
  have each : ∀ point ∈ (member.values.zip other.values).zipIdx, ∃ entries,
      entriesAt s!"{title}.{member.name}" point.2 point.1.1 point.1.2 = some entries ∧ entries.length = labels.length := by
    intro point inside
    obtain ⟨shown, met⟩ := List.of_mem_zip (List.fst_mem_of_mem_zipIdx inside)
    have labelled := here.labels shown
    obtain ⟨entries, made, size⟩ := entriesAt_of_labels s!"{title}.{member.name}" point.2
      (labelled.trans (there.labels met).symm)
    exact ⟨entries, made, labelled ▸ size⟩
  obtain ⟨lists, related⟩ := exists_forall₂ each
  have sizes : ∀ list ∈ lists, list.length = labels.length := by
    intro list among
    obtain ⟨_, _, _, size⟩ := exists_left_of_forall₂ related among
    exact size
  have made : (member.values.zip other.values).zipIdx.mapM
      (fun point => entriesAt s!"{title}.{member.name}" point.2 point.1.1 point.1.2) = some lists :=
    mapM_eq_some_of_forall₂ (related.imp fun _ _ fits => fits.1)
  refine ⟨lists.flatten, ?_, ?_⟩
  · unfold memberEntries
    rw [found]
    dsimp only
    rw [if_pos lengths, made]
  · rw [length_flatten_of_forall sizes, ← related.length_eq, List.length_zipIdx, List.length_zip, ← lengths,
      Nat.min_self, here.length]

/-- Where the members of the source meet members of the same span, there is a connection, with an equation for
each label at each time point. -/
theorem between_of_spans (labels : String → List (Option Key))
    (giving : ∀ member ∈ source.members, member.Spans count (labels member.name))
    (taking : ∀ member ∈ source.members, ∃ other, target.get? member.name = some other ∧
      other.Spans count (labels member.name)) :
    ∃ connection, between source target = .ok connection ∧ connection.source = source.name ∧
      connection.target = target.name ∧
      connection.equalities.size = count * (source.members.map fun member => (labels member.name).length).sum := by
  have each : ∀ member ∈ source.members, ∃ entries,
      memberEntries source target s!"{source.name}_to_{target.name}" member = .ok entries ∧
        entries.length = count * (labels member.name).length := by
    intro member inside
    obtain ⟨other, found, spans⟩ := taking member inside
    exact memberEntries_of_spans found (giving member inside) spans _
  obtain ⟨lists, related⟩ := exists_forall₂ each
  have made := mapM_eq_ok_of_forall₂ (related.imp fun _ _ fits => fits.1)
  have sizes : lists.map List.length = source.members.map fun member => count * (labels member.name).length := by
    have sized := related.imp fun _ _ fits => fits.2.symm
    exact (List.forall₂_eq_eq_eq ▸ List.forall₂_map_left_iff.2 (List.forall₂_map_right_iff.2 sized) :
      (source.members.map fun member => count * (labels member.name).length) = lists.map List.length).symm
  refine ⟨_, bind_eq_ok.2 ⟨lists, made, rfl⟩, rfl, rfl, ?_⟩
  change lists.flatten.length = _
  rw [List.length_flatten, sizes, sum_map_mul]

end Connection

end Distillation
