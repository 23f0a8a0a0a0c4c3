import Distillation.Proofs.Port.Connection
import Distillation.Proofs.Tray.SideDraws

namespace Distillation

namespace IdealPackage

variable {K : Type}

/-- The labels that the states of a package have under a name. -/
def labels (package : IdealPackage K) (name : String) : List (Option Key) :=
  match name with
  | "temperature" | "pressure" | "flow_mol" | "enth_mol" => [none]
  | "flow_mol_comp" | "mole_frac_comp" => package.components.map fun c => some (.component c.name)
  | "flow_mol_phase" | "enth_mol_phase" => Phase.both.map fun p => some (.phase p)
  | "flow_mol_phase_comp" | "mole_frac_phase_comp" =>
    Phase.both.flatMap fun p => package.components.map fun c => some (.phaseComponent p c.name)
  | _ => []

/-- How many entries a port member of a name has where there are `m` components. -/
def entryCount (m : Nat) (name : String) : Nat :=
  match name with
  | "temperature" | "pressure" | "flow_mol" | "enth_mol" => 1
  | "flow_mol_comp" | "mole_frac_comp" => m
  | "enth_mol_phase" => 2
  | "mole_frac_phase_comp" => 2 * m
  | _ => 0

end IdealPackage

namespace IdealState

variable {K : Type}

theorem length_labels (package : IdealPackage K) {name : String} {kind : MemberKind} (carried : (name, kind) ∈ carriedKinds) :
    (package.labels name).length = IdealPackage.entryCount package.components.length name := by
  have table : ∀ entry ∈ carriedKinds,
      (package.labels entry.1).length = IdealPackage.entryCount package.components.length entry.1 := by
    simp [carriedKinds, IdealPackage.labels, IdealPackage.entryCount, Phase.both, Nat.two_mul]
  exact table _ carried

variable [Scalar K] {package : IdealPackage K} {reference : K} {state : IdealState K} {name : String} {q : Quantity K}

theorem entryCount_of_unknown (m : Nat) (unknown : state.member? name = none) : IdealPackage.entryCount m name = 0 := by
  unfold member? at unknown
  unfold IdealPackage.entryCount
  split at unknown <;> simp_all

/-- Whatever a state of the package knows has the labels of its name. -/
theorem Fits.labels (fits : state.Fits package reference) (known : state.member? name = some q) :
    q.labels = package.labels name := by
  have byComponent : ∀ term : ComponentFlows K → Expr K,
      (state.byComponent term).labels = package.components.map fun c => some (.component c.name) := by
    intro term
    rw [← fits.data]
    simp [IdealState.byComponent, Quantity.labels, Quantity.terms]
  have byPhaseComponent : ∀ term : Phase → ComponentFlows K → Expr K, (state.byPhaseComponent term).labels =
      Phase.both.flatMap fun p => package.components.map fun c => some (.phaseComponent p c.name) := by
    intro term
    rw [← fits.data]
    simp [IdealState.byPhaseComponent, Quantity.labels, Quantity.terms, Phase.both, Function.comp_def]
  unfold member? at known
  split at known <;> cases known
  · rfl
  · rfl
  · rfl
  · rfl
  · exact byComponent _
  · exact byPhaseComponent _
  · exact byComponent _
  · exact byPhaseComponent _
  · rfl
  · rfl

/-- So has whatever an outlet port shows of it. -/
theorem Fits.resolved_labels (fits : state.Fits package reference) {kind : MemberKind} {p : Phase} {share : Share}
    (carries : state.Carries name kind) (made : Split.resolveMember state.toState name kind p share = .ok q) :
    q.labels = package.labels name := by
  cases synthesized : kind.isSynthesized with
  | false => exact fits.labels ((Split.resolveMember_referenced synthesized).1 made)
  | true =>
    have own : q.labels = Split.labels state.toState name kind := (Split.resolveMember_synthesized synthesized made).1
    have byComponent : ∀ term : ComponentFlows K → Expr K, state.member? name = some (state.byComponent term) →
        ((state.member? name).toList.flatMap (·.keys)).map some = package.labels name := by
      intro term known
      rw [← fits.labels known, known]
      simp [IdealState.byComponent, Quantity.labels, Quantity.terms, Quantity.keys]
    have listed := mem_carriedKinds carries
    rw [own]
    cases kind with
    | intensive | fractionByPhase | enthalpyByPhase => cases synthesized
    | flowTotal =>
      obtain rfl : name = "flow_mol" := by simpa [carriedKinds] using listed
      rfl
    | enthalpyTotal =>
      obtain rfl : name = "enth_mol" := by simpa [carriedKinds] using listed
      rfl
    | flowByComponent =>
      obtain rfl : name = "flow_mol_comp" := by simpa [carriedKinds] using listed
      exact byComponent componentFlow rfl
    | fractionTotal =>
      obtain rfl : name = "mole_frac_comp" := by simpa [carriedKinds] using listed
      exact byComponent (fun c => componentFlow c / state.totalFlow) rfl

end IdealState

namespace Tray

variable {K : Type} [Scalar K]

namespace Anatomy

variable {package : IdealPackage K} {tray : Tray K} {points : List (IdealPoint K)} (anatomy : Anatomy package tray points)
  {port : Port K}
include anatomy

theorem outputs_names : tray.ports.outputs.map (·.name) = tray.outflows.map (·.port) := by
  obtain ⟨schema, _, resolved⟩ := bind_eq_ok.1 anatomy.outputs
  have named : List.Forall₂ (fun (port : Port K) (outlet : Split.Outlet) => port.name = outlet.port)
      tray.ports.outputs tray.outflows :=
    (Split.resolvePort_of_resolveOutlets resolved).flip.imp fun _ _ ⟨_, _, made⟩ => (Split.resolves_of_resolved made).1
  exact List.forall₂_eq_eq_eq ▸ List.forall₂_map_left_iff.2 (List.forall₂_map_right_iff.2 named)

theorem output?_of_mem (leaving : port ∈ tray.ports.outputs) : tray.ports.output? port.name = some port :=
  find?_of_nodup (anatomy.outputs_names ▸ tray.outflows_nodup) leaving

theorem input?_of_mem (entering : port ∈ tray.ports.inputs) : tray.ports.input? port.name = some port := by
  refine find?_of_nodup ?_ entering
  rw [anatomy.inputs]
  cases tray.config.feed <;> simp [inletPorts, passThrough, Port.input]

/-- An outlet port has a member for each name that the package's states know, and shows it with the labels of
the name at every time point. -/
theorem output_spans (leaving : port ∈ tray.ports.outputs) : ∃ state : IdealState K,
    (port.members.map (·.name) = package.portMembers.filter fun name => (state.member? name).isSome) ∧
      ∀ member ∈ port.members, (∃ kind, (member.name, kind) ∈ IdealState.carriedKinds) ∧
        member.Spans tray.time.count (package.labels member.name) := by
  obtain ⟨schema, accepted, resolved⟩ := bind_eq_ok.1 anatomy.outputs
  obtain ⟨outlet, _, kept, after, made⟩ :=
    exists_left_of_forall₂ (Split.resolvePort_of_resolveOutlets resolved) leaving
  obtain ⟨first, rest, opened⟩ := List.exists_cons_of_ne_nil anatomy.points_ne_nil
  have inside : first ∈ points := opened ▸ List.mem_cons_self
  refine ⟨first.outlet, ?_, fun member own => ?_⟩
  · rw [← (anatomy.outlet_fits inside).portMembers, ← first.outlet.offered_names,
      Split.names_of_resolved made]
    rw [anatomy.outlets_eq, opened] at accepted
    refine Split.names_schemaOf (fun entry offered none => ?_) accepted
    rcases IdealState.classify_of_member? (first.outlet.member?_of_offered offered) with ⟨_, _, carried⟩ | refused
    · cases carried.symm.trans none
    · cases refused.symm.trans none
  · obtain ⟨⟨name, kind⟩, listed, named, values⟩ :=
      exists_left_of_forall₂ (Split.resolves_of_resolved made).2 own
    obtain rfl : member.name = name := named
    have carries : ∀ point ∈ points, point.outlet.Carries member.name kind := fun point among =>
      anatomy.carries_of_schema accepted listed among
    refine ⟨⟨kind, IdealState.mem_carriedKinds (carries first inside)⟩, ?_⟩
    have each := forall₂_of_mapM_eq_ok values
    rw [anatomy.outlets_eq] at each
    refine List.eq_replicate_iff.2 ⟨?_, fun labels shown => ?_⟩
    · rw [List.length_map, ← each.length_eq, List.length_map, anatomy.count]
    · obtain ⟨q, among, rfl⟩ := List.mem_map.1 shown
      obtain ⟨_, present, value⟩ := exists_left_of_forall₂ each among
      obtain ⟨point, here, rfl⟩ := List.mem_map.1 present
      exact (anatomy.outlet_fits here).resolved_labels (carries point here) value

/-- An inlet port meets it with the same labels under every name that is declared and known. -/
theorem input_spans (entering : port ∈ tray.ports.inputs) {name : String} (listed : name ∈ package.portMembers)
    {state : IdealState K} (known : (state.member? name).isSome) :
    ∃ member, port.get? name = some member ∧ member.Spans tray.time.count (package.labels name) := by
  obtain ⟨title, streams, rfl, related⟩ := anatomy.exists_stream entering
  have fits : ∀ ideal ∈ streams, ideal.Fits package (IdealPackage.reference tray.config.packageArguments) := by
    intro ideal among
    obtain ⟨point, inside, present⟩ := exists_left_of_forall₂ related among
    exact anatomy.fits point inside ideal (IdealPoint.mem_states_of_inlet present)
  have count : streams.length = tray.time.count := related.length_eq.symm.trans anatomy.count
  have positive := tray.time.count_pos
  obtain ⟨first, rest, opened⟩ := List.exists_cons_of_length_pos (count ▸ positive)
  have named : name ∈ (passThrough title (streams.map IdealState.toState)).members.map (·.name) := by
    rw [opened, passThrough_names, first.offered_names, (fits first (opened ▸ List.mem_cons_self)).portMembers,
      List.mem_filter]
    exact ⟨listed, (first.member?_isSome state name).trans known⟩
  obtain ⟨own, among, same⟩ := List.mem_map.1 named
  obtain ⟨member, found⟩ := Option.isSome_iff_exists.1
    (List.find?_isSome.2 ⟨own, among, by simpa using same⟩ : (Port.get? _ name).isSome)
  obtain rfl : member.name = name := by simpa using List.find?_some found
  have values := passThrough_values title (fun ideal among => (fits ideal among).portMembers) member
    (List.mem_of_find?_eq_some found)
  refine ⟨member, found, List.eq_replicate_iff.2 ⟨?_, fun labels shown => ?_⟩⟩
  · rw [List.length_map, ← values.length_eq, count]
  · obtain ⟨q, among, rfl⟩ := List.mem_map.1 shown
    obtain ⟨ideal, present, known⟩ := exists_left_of_forall₂ values among
    exact (fits ideal present).labels known

end Anatomy

/-- Any outlet port of a tray connects to any inlet port of another of the same package over as many time
points, whatever the two are equipped with. There is one equation for each entry of a declared member that the
package's states know, at each time point. -/
theorem trays_connect {package : IdealPackage K} {name name' : String} {config config' : TrayConfig K}
    {time time' : TimeSet K} {giver taker : Tray K} {s₀ s₁ t₀ t₁ : Store K}
    (built : (build name config package.toPackage time).on s₀ = (.ok giver, s₁))
    (built' : (build name' config' package.toPackage time').on t₀ = (.ok taker, t₁)) (count : time.count = time'.count) :
    ∀ outlet ∈ giver.ports.outputs, ∀ inlet ∈ taker.ports.inputs, ∃ connection,
      Connection.connect giver.ports outlet.name taker.ports inlet.name = .ok connection ∧
      connection.source = outlet.name ∧ connection.target = inlet.name ∧
      connection.equalities.size = time.count *
        (package.portMembers.map (IdealPackage.entryCount package.components.length)).sum := by
  intro outlet leaving inlet entering
  obtain ⟨labelled, _, points, anatomy⟩ := build_eq_ok built
  obtain ⟨labelled', _, points', anatomy'⟩ := build_eq_ok built'
  obtain ⟨state, names, giving⟩ := anatomy.output_spans leaving
  have taking : ∀ member ∈ outlet.members, ∃ other, inlet.get? member.name = some other ∧
      other.Spans giver.time.count (package.labels member.name) := by
    intro member own
    have listed : member.name ∈ package.portMembers.filter fun name => (state.member? name).isSome :=
      names ▸ List.mem_map_of_mem own
    obtain ⟨declared, known⟩ := List.mem_filter.1 listed
    rw [labelled.time_eq, count, ← labelled'.time_eq]
    exact anatomy'.input_spans entering declared known
  obtain ⟨connection, made, source, target, size⟩ :=
    Connection.between_of_spans package.labels (fun member own => (giving member own).2) taking
  refine ⟨connection, ?_, source, target, ?_⟩
  · rw [Connection.connect, anatomy.output?_of_mem leaving]
    dsimp only
    rw [anatomy'.input?_of_mem entering]
    exact made
  · have counts : (outlet.members.map fun member => (package.labels member.name).length) =
        (outlet.members.map (·.name)).map (IdealPackage.entryCount package.components.length) := by
      rw [List.map_map]
      refine List.map_congr_left fun member own => ?_
      obtain ⟨⟨kind, carried⟩, _⟩ := giving member own
      exact IdealState.length_labels package carried
    rw [size, labelled.time_eq, counts, names, sum_map_filter]
    intro name _ unknown
    exact IdealState.entryCount_of_unknown _ (by simpa using unknown)

theorem trays_connect_drawn : ∃ (giver taker : Tray Float) (s t : Store Float),
    (build "lower" ⟨true, true, true, true, true, .empty⟩ IdealPackage.benzeneToluene.toPackage .steady).on .empty =
      (.ok giver, s) ∧
    (build "upper" ⟨false, false, false, false, false, .empty⟩ IdealPackage.benzeneToluene.toPackage .steady).on s =
      (.ok taker, t) ∧ (TimeSet.steady : TimeSet Float).count = (TimeSet.steady : TimeSet Float).count ∧
    giver.ports.outputs.length = 4 ∧ taker.ports.inputs.length = 2 ∧
    ∀ outlet ∈ giver.ports.outputs, ∀ inlet ∈ taker.ports.inputs, ∃ connection,
      Connection.connect giver.ports outlet.name taker.ports inlet.name = .ok connection ∧
        connection.equalities.size = 7 := by
  obtain ⟨giver, s, taker, t, built, built', outlets, inlets⟩ : ∃ (giver : Tray Float) (s : Store Float)
      (taker : Tray Float) (t : Store Float),
      (build "lower" ⟨true, true, true, true, true, .empty⟩ IdealPackage.benzeneToluene.toPackage .steady).on .empty =
        (.ok giver, s) ∧
      (build "upper" ⟨false, false, false, false, false, .empty⟩ IdealPackage.benzeneToluene.toPackage .steady).on s =
        (.ok taker, t) ∧ giver.ports.outputs.length = 4 ∧ taker.ports.inputs.length = 2 :=
    ⟨_, _, _, _, rfl, rfl, rfl, rfl⟩
  refine ⟨giver, taker, s, t, built, built', rfl, outlets, inlets, fun outlet leaving inlet entering => ?_⟩
  obtain ⟨connection, made, _, _, size⟩ := trays_connect built built' rfl outlet leaving inlet entering
  exact ⟨connection, made, size.trans rfl⟩

end Tray

end Distillation
