import Distillation.Proofs.Property.IdealFlows
import Distillation.Proofs.Tray.Flowsheet
import Distillation.Proofs.Tray.OutletPorts

namespace Distillation

namespace IdealPackage

variable {K : Type}

/-- The package can declare states with these arguments: it knows them all, and it has a factor for each component
where its equilibrium goes by factors. -/
structure Accepts (package : IdealPackage K) (arguments : NameMap K) : Prop where
  known : ∀ name ∈ arguments.names, name = "temperature_ref"
  factors : ∀ factors, package.equilibrium = .constantK factors → factors.length = package.components.length

variable [Scalar K] {package : IdealPackage K} {arguments : NameMap K}

omit [Scalar K] in
/-- A reference temperature is found where no other argument is given, wherever the search starts from. -/
theorem exists_reference_iff (entries : List (String × K)) : ∀ start : K,
    (∃ reference, entries.foldlM (fun _ entry => if entry.1 = "temperature_ref" then .ok entry.2
        else .error (.unknownArgument entry.1)) start = (.ok reference : Except PropertyError K)) ↔
      ∀ name ∈ entries.map (·.1), name = "temperature_ref" := by
  induction entries with
  | nil => exact fun start => iff_of_true ⟨start, rfl⟩ (by simp)
  | cons entry rest ih =>
    intro start
    rw [List.foldlM_cons, List.map_cons, List.forall_mem_cons]
    by_cases named : entry.1 = "temperature_ref"
    · rw [if_pos named, ← ih entry.2]
      exact (and_iff_right named).symm
    · rw [if_neg named]
      refine iff_of_false ?_ fun both => named both.1
      rintro ⟨reference, impossible⟩
      cases impossible

omit [Scalar K] in
theorem checkFactors_eq_ok_iff : package.checkFactors = .ok () ↔
    ∀ factors, package.equilibrium = .constantK factors → factors.length = package.components.length := by
  unfold checkFactors
  cases package.equilibrium with
  | constantK factors =>
    dsimp only
    split
    · rename_i enough
      exact iff_of_true rfl fun other same => by cases same; exact enough
    · rename_i short
      exact iff_of_false (by simp) fun each => short (each factors rfl)
  | vaporFraction fraction => exact iff_of_true rfl (by simp)

theorem accepts_iff : package.Accepts arguments ↔
    (∃ reference : K, referenceTemperature arguments.entries = .ok reference) ∧ package.checkFactors = .ok () := by
  have found := exists_reference_iff arguments.entries (defaultTemperature : K)
  rw [checkFactors_eq_ok_iff]
  exact ⟨fun accepts => ⟨found.2 accepts.known, accepts.factors⟩, fun ⟨known, factors⟩ => ⟨found.1 known, factors⟩⟩

theorem declareState_succeeds {label : String} {t : Nat} {spec : StateSpec K} (accepts : package.Accepts spec.arguments) :
    (package.declareState label t spec).Succeeds := by
  obtain ⟨⟨reference, known⟩, factors⟩ := accepts_iff.1 accepts
  have flows : ∀ p, (package.components.mapM (createFlow label p)).Succeeds := fun p => .mapM fun c _ => .create _ _
  unfold declareState
  refine .bind (.ofExcept known) fun _ => .bind (.ofExcept factors) fun _ => .bind (flows .liquid) fun liquid =>
    .bind (flows .vapor) fun vapor => .bind (.create _ _) fun temperature => .bind (.create _ _) fun pressure => ?_
  dsimp only
  split
  · exact .pure _
  · exact .pure _

/-- What is not accepted is refused with the same error for every state, and before anything is declared. -/
theorem exists_refusal (refused : ¬ package.Accepts arguments) : ∃ e, ∀ label t (spec : StateSpec K),
    spec.arguments = arguments → (package.declareState label t spec).Refuses e := by
  rw [accepts_iff, not_and_or] at refused
  cases known : (referenceTemperature arguments.entries : Except PropertyError K) with
  | error e =>
    refine ⟨e, fun label t spec same => ?_⟩
    subst same
    exact .bind (.ofExcept known) _
  | ok reference =>
    have short : package.checkFactors ≠ .ok () := refused.resolve_left fun none => none ⟨reference, known⟩
    cases factors : package.checkFactors with
    | error e =>
      refine ⟨e, fun label t spec same => ?_⟩
      subst same
      have referred : ∀ s : Store K, (Action.ofExcept (referenceTemperature spec.arguments.entries)).on s =
          (.ok reference, s) := fun s => by rw [Action.on_ofExcept, known]
      exact .after referred (.bind (.ofExcept factors) _)
    | ok _ => exact absurd factors short

end IdealPackage

theorem IdealState.Fits.length_vars {K : Type} {package : IdealPackage K} {reference : K} {state : IdealState K}
    (fits : state.Fits package reference) : state.vars.length = 2 * package.components.length + 2 := by
  rw [vars_eq, List.length_append, length_flows, fits.count]
  rfl

/-- How many streams enter a tray. -/
def TrayConfig.inlets {K : Type} (config : TrayConfig K) : Nat :=
  2 + config.feed.toNat

/-- How many variables of its own a tray is equipped with: a heat duty, a pressure drop, a split fraction for each
side draw. -/
def TrayConfig.equipment {K : Type} (config : TrayConfig K) : Nat :=
  config.heatTransfer.toNat + config.pressureChange.toNat + config.liquidDraw.toNat + config.vaporDraw.toNat

namespace Tray

variable {K : Type} [Scalar K]

section Accepting

variable {package : IdealPackage K} {time : TimeSet K}

theorem declareStream_succeeds {label : String} {spec : StateSpec K} (accepts : package.Accepts spec.arguments) :
    (declareStream package.toPackage time label spec).Succeeds :=
  .mapM fun _ _ => .mapError (.map (IdealPackage.declareState_succeeds accepts) _) _

theorem declareFeed_succeeds {label : String} {spec : StateSpec K} {present : Bool}
    (accepts : package.Accepts spec.arguments) : (declareFeed package.toPackage time label spec present).Succeeds := by
  cases present with
  | false => exact .pure _
  | true => exact .map (declareStream_succeeds accepts) _

theorem declareStates_succeeds {name : String} {config : TrayConfig K} (accepts : package.Accepts config.packageArguments) :
    (declareStates name config package.toPackage time).Succeeds := by
  have inlet : package.Accepts (StateSpec.inlet config.packageArguments).arguments := accepts
  have outlet : package.Accepts (StateSpec.outlet config.packageArguments).arguments := accepts
  unfold declareStates
  exact .bind (declareFeed_succeeds inlet) fun feeds => .bind (declareStream_succeeds inlet) fun liquids =>
    .bind (declareStream_succeeds inlet) fun vapors => .bind (declareStream_succeeds outlet) fun outlets => .pure _

/-- Where the package refuses, it refuses the first state, and with it the build. -/
theorem declareStates_refuses {name : String} {config : TrayConfig K} {e : PropertyError}
    (refused : ∀ label t (spec : StateSpec K), spec.arguments = config.packageArguments →
      (package.declareState label t spec).Refuses e) :
    (declareStates name config package.toPackage time).Refuses (.property e) := by
  have present : time.indices ≠ [] := by
    have positive := time.count_pos
    rw [← time.length_indices] at positive
    exact List.ne_nil_of_length_pos positive
  have stream : ∀ label, (declareStream package.toPackage time label (.inlet config.packageArguments)).Refuses
      (.property e) := fun label =>
    .mapM present fun t _ => .mapError (.map (refused s!"{label}[{t}]" t _ rfl) _) _
  unfold declareStates
  cases config.feed with
  | true => exact .bind (.map (stream _) _) _
  | false => exact .after (fun s => rfl) (.bind (stream _) _)

omit [Scalar K] in
theorem optional_succeeds {E : Type} (present : Bool) (name : String) (value : K) :
    (Balances.optional present name value : Action K E _).Succeeds := by
  cases present with
  | false => exact .pure none
  | true => exact .map (.create name value) _

theorem declareBalances_succeeds {E : Type} (name : String) (config : TrayConfig K) (phases : List Phase)
    (components : ComponentSet) (points : List (Mixing K)) :
    (Balances.declare name config phases components points : Action K E _).Succeeds := by
  unfold Balances.declare
  exact .bind (optional_succeeds _ _ _) fun heatDuty => .bind (optional_succeeds _ _ _) fun pressureDrop => .pure _

/-- Once its states are declared, a tray is there or not as its outlet ports are. -/
theorem build_of_accepts {name : String} {config : TrayConfig K} (accepts : package.Accepts config.packageArguments)
    (s : Store K) : ∃ (outlets : List (IdealState K)) (liquidSplit vaporSplit : Option VarId), outlets ≠ [] ∧
      (∀ state ∈ outlets, state.portMembers = package.portMembers) ∧
      (∀ r, outletPorts (outlets.map IdealState.toState) liquidSplit vaporSplit = .ok r →
        ∃ tray, ((build name config package.toPackage time).on s).1 = .ok tray) ∧
      ∀ e, outletPorts (outlets.map IdealState.toState) liquidSplit vaporSplit = .error e →
        ((build name config package.toPackage time).on s).1 = .error (.resolve e) := by
  have states : (declareStates name config package.toPackage time).Succeeds := declareStates_succeeds accepts
  obtain ⟨_, a, declared⟩ := states s
  obtain ⟨points, rfl, count, _, each⟩ := declareStates_eq_ok declared
  have balancing : (Balances.declare name config Phase.both package.componentSet
      ((points.map IdealPoint.toStates).map TrayStates.toMixing) : Action K TrayError _).Succeeds := declareBalances_succeeds _ _ _ _ _
  have splitting : ∀ present title, (Balances.optional present title defaultSplit : Action K TrayError _).Succeeds :=
    fun present title => optional_succeeds present title _
  obtain ⟨balances, b, balanced⟩ := balancing a
  obtain ⟨liquidSplit, c, liquid⟩ := splitting config.liquidDraw s!"{name}.liq_side_sf" b
  obtain ⟨vaporSplit, d, vapor⟩ := splitting config.vaporDraw s!"{name}.vap_side_sf" c
  refine ⟨points.map (·.outlet), liquidSplit, vaporSplit, ?_, ?_, ?_⟩
  · have positive := time.count_pos
    rw [← count] at positive
    exact List.ne_nil_of_length_pos (by simpa using positive)
  · intro state among
    obtain ⟨point, inside, rfl⟩ := List.mem_map.1 among
    obtain ⟨t, found⟩ := List.mem_iff_getElem?.1 inside
    exact (each t point found).2.2.2.1.portMembers
  · have outlets : (points.map IdealPoint.toStates).map (·.outlet) = (points.map (·.outlet)).map IdealState.toState := by
      rw [List.map_map, List.map_map]
      rfl
    have components : package.toPackage.phases = Phase.both ∧ package.toPackage.components = package.componentSet :=
      ⟨rfl, rfl⟩
    rw [build, components.1, components.2, Action.on_bind_of_ok declared, Action.on_bind_of_ok balanced,
      Action.on_bind_of_ok liquid, Action.on_bind_of_ok vapor, Action.on_bind, Action.on_ofExcept, outlets]
    constructor
    · intro r resolved
      rw [resolved]
      exact ⟨_, rfl⟩
    · intro e refused
      rw [refused]
      rfl

end Accepting

section Counting

variable {package : IdealPackage K} {tray : Tray K} {points : List (IdealPoint K)}

/-- A tray has a state for each stream and for its outlet at every time point. -/
theorem Anatomy.length_states (anatomy : Anatomy package tray points) :
    tray.states.length = (tray.config.inlets + 1) * tray.time.count := by
  have feeds : tray.feeds.length = tray.config.feed.toNat * tray.time.count := by
    have fed : ∀ point ∈ points, (point.feed.map IdealState.toState).isSome = tray.config.feed := fun point inside =>
      Option.isSome_map.trans (anatomy.feed point inside)
    rw [feeds, anatomy.points_eq, List.filterMap_map, List.length_filterMap_eq_countP, ← anatomy.count]
    cases equipped : tray.config.feed with
    | true =>
      have all := List.countP_eq_length.2 fun point inside => (fed point inside).trans equipped
      exact all.trans (Nat.one_mul _).symm
    | false =>
      have none : points.countP (fun point => (point.feed.map IdealState.toState).isSome) = 0 := by
        refine List.countP_eq_zero.2 fun point inside some => ?_
        rw [fed point inside, equipped] at some
        cases some
      exact none.trans (Nat.zero_mul _).symm
  have streams : tray.liquids.length = tray.time.count ∧ tray.vapors.length = tray.time.count ∧
      tray.outlets.length = tray.time.count := by
    simp [liquids, vapors, outlets, anatomy.points_eq, anatomy.count]
  rw [states, List.length_append, List.length_append, List.length_append, feeds, streams.1, streams.2.1, streams.2.2,
    TrayConfig.inlets]
  ring

theorem Anatomy.length_stateVars (anatomy : Anatomy package tray points) : (tray.states.flatMap (·.vars)).length =
    (tray.config.inlets + 1) * tray.time.count * (2 * package.components.length + 2) := by
  have each : ∀ vars ∈ tray.states.map (·.vars), vars.length = 2 * package.components.length + 2 := by
    intro vars among
    obtain ⟨state, listed, rfl⟩ := List.mem_map.1 among
    obtain ⟨point, inside, ideal, present, rfl⟩ := anatomy.mem_states.1 listed
    exact (anatomy.fits point inside ideal present).length_vars
  rw [List.flatMap_def, length_flatten_of_forall each, List.length_map, anatomy.length_states]

/-- A tray that is built has a pressure drop where it is to have one. -/
theorem pressureDrop_of_build {name : String} {config : TrayConfig K} {time : TimeSet K} {s t : Store K}
    (built : (build name config package.toPackage time).on s = (.ok tray, t)) :
    tray.balances.pressureDrop.isSome = config.pressureChange := by
  obtain ⟨_, _, _, ⟨a, b, c, _, balanced, _, _⟩, _, _⟩ := opened_of_build built
  exact (Balances.declare_eq_ok balanced).2.2.2.1

theorem length_toList (v : Option VarId) : v.toList.length = v.isSome.toNat := by
  cases v <;> rfl

/-- What a build adds to the store are the variables of the tray: those of its states, and those it is equipped
with. -/
theorem length_declared {name : String} {config : TrayConfig K} {time : TimeSet K} {s t : Store K}
    (built : (build name config package.toPackage time).on s = (.ok tray, t)) : tray.declared.length =
      (config.inlets + 1) * time.count * (2 * package.components.length + 2) + config.equipment := by
  obtain ⟨labelled, _, points, anatomy⟩ := build_eq_ok built
  have states := anatomy.length_stateVars
  rw [labelled.config_eq, labelled.time_eq] at states
  rw [declared, splits, List.length_append, List.length_append, List.length_append, List.length_append, states,
    length_toList, length_toList, length_toList, length_toList, labelled.heatTransfer, pressureDrop_of_build built,
    labelled.liquidDraw, labelled.vaporDraw, TrayConfig.equipment]
  omega

end Counting

/-- The outcome of a build. It succeeds exactly where the package accepts the arguments and the declared names can be
shown together. What the package does not accept is refused without a trace; names that cannot be shown together are
refused when the outlet ports are resolved. In no case is a variable that was there changed. A tray that is built has
added its own variables and no others: all of them are free, and those of its states are pairwise different. -/
theorem build_outcome (name : String) (config : TrayConfig K) (package : IdealPackage K) (time : TimeSet K) (s : Store K) :
    let accepted := package.Accepts config.packageArguments
    let portable := Portable package.portMembers
    let ran := (build name config package.toPackage time).on s
    ((∃ tray, ran.1 = .ok tray) ↔ accepted ∧ portable) ∧
    (¬ accepted → ∃ e, ran = (.error (.property e), s)) ∧
    (accepted → ¬ portable → ∃ e, ran.1 = .error (.resolve e)) ∧
    (∀ v < s.size, ran.2.get? v = s.get? v) ∧
    ∀ tray, ran.1 = .ok tray →
      ran.2.size = s.size + (config.inlets + 1) * time.count * (2 * package.components.length + 2) + config.equipment ∧
      (∀ v, s.size ≤ v → v < ran.2.size → v ∈ tray.declared ∧ ran.2.isFixed v = false) ∧
      (tray.states.flatMap (·.vars)).Nodup := by
  intro accepted portable ran
  have refusal : ¬ accepted → ∃ e, ran = (.error (.property e), s) := by
    intro refused
    obtain ⟨e, refuses⟩ := IdealPackage.exists_refusal refused
    exact ⟨e, (declareStates_refuses refuses).bind _ s⟩
  have resolution : accepted → ((∃ tray, ran.1 = .ok tray) ↔ portable) ∧
      (¬ portable → ∃ e, ran.1 = .error (.resolve e)) := by
    intro accepts
    obtain ⟨outlets, liquidSplit, vaporSplit, present, same, made, refused⟩ := build_of_accepts accepts s
    have shown := exists_outletPorts_iff liquidSplit vaporSplit present same
    cases ports : outletPorts (outlets.map IdealState.toState) liquidSplit vaporSplit with
    | ok r =>
      have portable := shown.1 ⟨r, ports⟩
      exact ⟨iff_of_true (made r ports) portable, fun unportable => absurd portable unportable⟩
    | error e =>
      have unportable : ¬ portable := fun portable => by
        obtain ⟨r, resolved⟩ := shown.2 portable
        rw [ports] at resolved
        cases resolved
      refine ⟨iff_of_false ?_ unportable, fun _ => ⟨e, refused e ports⟩⟩
      rintro ⟨tray, built⟩
      have failed : ran.1 = .error (.resolve e) := refused e ports
      rw [failed] at built
      cases built
  refine ⟨⟨?_, ?_⟩, refusal, fun accepts => (resolution accepts).2, build_extends package time name config s,
    fun tray built => ?_⟩
  · rintro ⟨tray, built⟩
    have accepts : accepted := by
      by_contra refused
      obtain ⟨e, failed⟩ := refusal refused
      rw [failed] at built
      cases built
    exact ⟨accepts, (resolution accepts).1.1 ⟨tray, built⟩⟩
  · rintro ⟨accepts, shows⟩
    exact (resolution accepts).1.2 shows
  · have built : (build name config package.toPackage time).on s = (.ok tray, ran.2) := Prod.ext built rfl
    obtain ⟨_, grown, points, anatomy⟩ := build_eq_ok built
    refine ⟨?_, fun v old new => ?_, ?_⟩
    · rw [grown.size, length_declared built, Nat.add_assoc]
    · have own := grown.mem_iff.2 ⟨old, new⟩
      exact ⟨own, grown.free v own⟩
    · exact stateVars_nodup grown.nodup

end Tray

end Distillation
