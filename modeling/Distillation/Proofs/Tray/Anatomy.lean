import Distillation.Proofs.Lists
import Distillation.Proofs.Property.IdealState
import Distillation.Tray.Build

namespace Distillation

variable {K : Type} [Scalar K]

/-- The ideal states that meet on a tray at one time point. -/
structure IdealPoint (K : Type) where
  feed : Option (IdealState K)
  liquid : IdealState K
  vapor : IdealState K
  outlet : IdealState K

namespace IdealPoint

def inlets {K : Type} (point : IdealPoint K) : List (IdealState K) :=
  point.feed.toList ++ [point.liquid, point.vapor]

def states {K : Type} (point : IdealPoint K) : List (IdealState K) :=
  point.inlets ++ [point.outlet]

theorem liquid_mem {K : Type} (point : IdealPoint K) : point.liquid ∈ point.inlets := by
  simp [inlets]

theorem vapor_mem {K : Type} (point : IdealPoint K) : point.vapor ∈ point.inlets := by
  simp [inlets]

theorem outlet_mem {K : Type} (point : IdealPoint K) : point.outlet ∈ point.states := by
  simp [states]

theorem mem_states_of_inlet {K : Type} {point : IdealPoint K} {state : IdealState K} (entering : state ∈ point.inlets) :
    state ∈ point.states :=
  List.mem_append_left _ entering

def toStates (point : IdealPoint K) : TrayStates K :=
  ⟨point.feed.map IdealState.toState, point.liquid.toState, point.vapor.toState, point.outlet.toState⟩

theorem toStates_inlets (point : IdealPoint K) :
    point.toStates.inlets = point.inlets.map IdealState.toState := by
  cases feed : point.feed <;> simp [TrayStates.inlets, toStates, inlets, feed]

/-- The states of the time point as those of its balances. -/
def toMixing (point : IdealPoint K) : Mixing K :=
  point.toStates.toMixing

theorem toMixing_inlets (point : IdealPoint K) : point.toMixing.inlets = point.inlets.map IdealState.toState :=
  point.toStates_inlets

end IdealPoint

/-- The reference temperature that the arguments ask for. -/
def IdealPackage.reference (arguments : NameMap K) : K :=
  match IdealPackage.referenceTemperature arguments.entries with
  | .ok reference => reference
  | .error _ => defaultTemperature

namespace Tray

/-- All variables of a tray in the order of their declaration. -/
def declared {K : Type} (tray : Tray K) : List VarId :=
  tray.states.flatMap (·.vars) ++ tray.balances.heatDuty.toList ++
    tray.balances.pressureDrop.toList ++ tray.splits

/-- The parts of a tray that is built from an ideal package, with its states at each time point. -/
structure Anatomy (package : IdealPackage K) (tray : Tray K) (points : List (IdealPoint K)) : Prop where
  points_eq : tray.points = points.map IdealPoint.toStates
  count : points.length = tray.time.count
  feed : ∀ point ∈ points, point.feed.isSome = tray.config.feed
  fits : ∀ point ∈ points, ∀ state ∈ point.states,
    state.Fits package (IdealPackage.reference tray.config.packageArguments)
  inlet : ∀ point ∈ points, ∀ state ∈ point.inlets, state.equilibrium = none
  outlet : ∀ (t : Nat) (point : IdealPoint K), points[t]? = some point →
    point.outlet.equilibrium = some (point.outlet.equilibriumFamily package.equilibrium t)
  factors : package.checkFactors = .ok ()
  material : tray.balances.material =
    Balances.materialFamily tray.name Phase.both package.componentSet tray.mixings
  enthalpy : tray.balances.enthalpy =
    Balances.enthalpyFamily tray.name Phase.both tray.balances.heatDuty tray.mixings
  pressure : tray.balances.pressure =
    Balances.pressureFamily tray.name tray.balances.pressureDrop tray.mixings
  inputs : tray.ports.inputs = inletPorts tray.config.feed tray.points
  outputs : outletPorts tray.outlets tray.liquidSplit tray.vaporSplit =
    .ok (tray.ports.outputs, tray.expressions)

namespace Anatomy

variable {package : IdealPackage K} {tray : Tray K} {points : List (IdealPoint K)} (anatomy : Anatomy package tray points)
include anatomy

theorem points_ne_nil : points ≠ [] := by
  have positive := tray.time.count_pos
  rw [← anatomy.count] at positive
  exact List.length_pos_iff.1 positive

theorem getElem?_points {t : Nat} {point : IdealPoint K} (found : points[t]? = some point) :
    tray.points[t]? = some point.toStates := by
  rw [anatomy.points_eq, List.getElem?_map, found, Option.map_some]

theorem getElem?_mixings {t : Nat} {point : IdealPoint K} (found : points[t]? = some point) :
    tray.mixings[t]? = some point.toMixing := by
  rw [Tray.mixings, List.getElem?_map, anatomy.getElem?_points found]
  rfl

theorem mixings_eq : tray.mixings = points.map IdealPoint.toMixing := by
  rw [Tray.mixings, anatomy.points_eq, List.map_map]
  rfl

theorem outlet_fits {point : IdealPoint K} (inside : point ∈ points) :
    point.outlet.Fits package (IdealPackage.reference tray.config.packageArguments) :=
  anatomy.fits point inside point.outlet point.outlet_mem

theorem outlets_eq : tray.outlets = points.map (·.outlet.toState) := by
  rw [Tray.outlets, anatomy.points_eq, List.map_map]
  rfl

end Anatomy

end Tray

namespace Balances

variable {E : Type} {s t : Store K}

omit [Scalar K] in
theorem optional_eq_ok {present : Bool} {name : String} {value : K} {created : Option VarId}
    (run : (optional present name value : Action K E _).on s = (.ok created, t)) :
    s.Grows created.toList t ∧ created.isSome = present ∧
      ∀ v ∈ created, (t.get? v).map (·.name) = some name := by
  cases present with
  | false =>
    cases run
    exact ⟨.refl s, rfl, by simp⟩
  | true =>
    obtain ⟨v, creation, rfl⟩ := Action.on_map_eq_ok.1 run
    refine ⟨Action.create_grows creation, rfl, fun w named => ?_⟩
    cases creation
    cases named
    rw [show (s.create name value).1 = s.size from rfl, s.get?_create, if_pos rfl]
    rfl

theorem declare_eq_ok {tray : String} {config : TrayConfig K} {phases : List Phase}
    {components : ComponentSet} {points : List (Mixing K)} {balances : Balances K}
    (run : (declare tray config phases components points : Action K E _).on s = (.ok balances, t)) :
    s.Grows (balances.heatDuty.toList ++ balances.pressureDrop.toList) t ∧
      balances.heatDuty.isSome = config.heatTransfer ∧
      (∀ v ∈ balances.heatDuty, (t.get? v).map (·.name) = some s!"{tray}.heat_duty") ∧
      balances.pressureDrop.isSome = config.pressureChange ∧
      (∀ v ∈ balances.pressureDrop, (t.get? v).map (·.name) = some s!"{tray}.deltaP") ∧
      balances.material = materialFamily tray phases components points ∧
      balances.enthalpy = enthalpyFamily tray phases balances.heatDuty points ∧
      balances.pressure = pressureFamily tray balances.pressureDrop points := by
  unfold declare at run
  obtain ⟨heatDuty, a, heatRun, run⟩ := Action.on_bind_eq_ok.1 run
  obtain ⟨pressureDrop, b, dropRun, run⟩ := Action.on_bind_eq_ok.1 run
  cases run
  obtain ⟨heatGrown, equipped, heatName⟩ := optional_eq_ok heatRun
  obtain ⟨dropGrown, lowered, dropName⟩ := optional_eq_ok dropRun
  refine ⟨heatGrown.trans dropGrown, equipped, fun v duty => ?_, lowered, dropName, rfl, rfl, rfl⟩
  rw [dropGrown.kept v (heatGrown.mem_iff.1 (Option.mem_toList.2 duty)).2]
  exact heatName v duty

end Balances

namespace Tray

section Opening

variable {package : PropertyPackage K} {name : String} {config : TrayConfig K} {time : TimeSet K} {s t : Store K}

omit [Scalar K] in
/-- The states of a tray are declared stream by stream. -/
theorem opened_of_declareStates {points : List (TrayStates K)}
    (run : (declareStates name config package time).on s = (.ok points, t)) :
    ∃ feeds liquids vapors outlets a b c,
      (declareFeed package time s!"{name}.properties_in_feed" (.inlet config.packageArguments) config.feed).on s =
        (.ok feeds, a) ∧
      (declareStream package time s!"{name}.properties_in_liq" (.inlet config.packageArguments)).on a =
        (.ok liquids, b) ∧
      (declareStream package time s!"{name}.properties_in_vap" (.inlet config.packageArguments)).on b =
        (.ok vapors, c) ∧
      (declareStream package time s!"{name}.properties_out" (.outlet config.packageArguments)).on c = (.ok outlets, t) ∧
      points = List.zipWith (fun feed (liquid, vapor, outlet) => ⟨feed, liquid, vapor, outlet⟩) feeds
        (liquids.zip (vapors.zip outlets)) := by
  unfold declareStates at run
  obtain ⟨feeds, a, feedRun, run⟩ := Action.on_bind_eq_ok.1 run
  obtain ⟨liquids, b, liquidRun, run⟩ := Action.on_bind_eq_ok.1 run
  obtain ⟨vapors, c, vaporRun, run⟩ := Action.on_bind_eq_ok.1 run
  obtain ⟨outlets, d, outletRun, run⟩ := Action.on_bind_eq_ok.1 run
  cases run
  exact ⟨feeds, liquids, vapors, outlets, a, b, c, feedRun, liquidRun, vaporRun, outletRun, rfl⟩

/-- A tray that is built comes from its steps: states, balances, split fractions, ports. -/
theorem opened_of_build {tray : Tray K} (built : (build name config package time).on s = (.ok tray, t)) :
    tray.name = name ∧ tray.config = config ∧ tray.time = time ∧
      (∃ a b c, (declareStates name config package time).on s = (.ok tray.points, a) ∧
        (Balances.declare name config package.phases package.components tray.mixings : Action K TrayError _).on a =
          (.ok tray.balances, b) ∧
        (Balances.optional config.liquidDraw s!"{name}.liq_side_sf" defaultSplit : Action K TrayError _).on b =
          (.ok tray.liquidSplit, c) ∧
        (Balances.optional config.vaporDraw s!"{name}.vap_side_sf" defaultSplit : Action K TrayError _).on c =
          (.ok tray.vaporSplit, t)) ∧
      tray.ports.inputs = inletPorts config.feed tray.points ∧
      outletPorts tray.outlets tray.liquidSplit tray.vaporSplit = .ok (tray.ports.outputs, tray.expressions) := by
  unfold build at built
  obtain ⟨points, a, statesRun, built⟩ := Action.on_bind_eq_ok.1 built
  obtain ⟨balances, b, balancesRun, built⟩ := Action.on_bind_eq_ok.1 built
  obtain ⟨liquidSplit, c, liquidRun, built⟩ := Action.on_bind_eq_ok.1 built
  obtain ⟨vaporSplit, d, vaporRun, built⟩ := Action.on_bind_eq_ok.1 built
  obtain ⟨⟨outputs, expressions⟩, _, portsRun, built⟩ := Action.on_bind_eq_ok.1 built
  obtain ⟨resolved, rfl⟩ := Action.on_ofExcept_eq_ok.1 portsRun
  cases built
  exact ⟨rfl, rfl, rfl, ⟨a, b, c, statesRun, balancesRun, liquidRun, vaporRun⟩, rfl, mapError_eq_ok.1 resolved⟩

end Opening

variable {package : IdealPackage K} {s t : Store K}

/-- What is known of a state of a stream that was declared at time position `i`. -/
def DeclaredAt (package : IdealPackage K) (spec : StateSpec K) (i : Nat) (state : IdealState K) : Prop :=
  package.checkFactors = .ok () ∧ state.Fits package (IdealPackage.reference spec.arguments) ∧
    state.equilibrium = if spec.phaseEquilibrium then
      some (state.equilibriumFamily package.equilibrium i) else none

theorem declareStream_eq_ok {time : TimeSet K} {label : String} {spec : StateSpec K}
    {states : List (PropertyState K)}
    (run : (declareStream package.toPackage time label spec).on s = (.ok states, t)) :
    ∃ ideals : List (IdealState K), states = ideals.map IdealState.toState ∧
      s.Grows (ideals.flatMap (·.vars)) t ∧
      List.Forall₂ (DeclaredAt package spec) time.indices ideals := by
  obtain ⟨grown, related⟩ := Action.on_mapM_grows (·.vars)
    (fun i state => ∃ ideal, state = IdealState.toState ideal ∧ DeclaredAt package spec i ideal)
    (fun i a state b step => by
      obtain ⟨ideal, declared, rfl⟩ := Action.on_map_eq_ok.1 (Action.on_mapError_eq_ok.1 step)
      obtain ⟨reference, known, factors, grown, fits, equilibrium⟩ :=
        IdealPackage.declareState_eq_ok declared
      have same : IdealPackage.reference spec.arguments = reference := by
        rw [IdealPackage.reference, known]
      exact ⟨grown, ideal, rfl, factors, same ▸ fits, equilibrium⟩) time.indices run
  obtain ⟨ideals, rfl, holds⟩ := exists_map_of_forall₂ related
  exact ⟨ideals, rfl, by simpa [List.flatMap_map, IdealState.toState] using grown, holds⟩

theorem declareFeed_eq_ok {time : TimeSet K} {label : String} {spec : StateSpec K} {present : Bool}
    {states : List (Option (PropertyState K))}
    (run : (declareFeed package.toPackage time label spec present).on s = (.ok states, t)) :
    ∃ ideals : List (Option (IdealState K)), states = ideals.map (Option.map IdealState.toState) ∧
      s.Grows ((ideals.filterMap id).flatMap (·.vars)) t ∧
      List.Forall₂ (fun i ideal => ideal.isSome = present ∧ ∀ state ∈ ideal, DeclaredAt package spec i state)
        time.indices ideals := by
  cases present with
  | false =>
    cases run
    refine ⟨time.indices.map fun _ => none, by simp, ?_, ?_⟩
    · simpa [List.filterMap_map] using Store.Grows.refl s
    · rw [List.forall₂_map_right_iff]
      exact List.forall₂_same.2 (by simp)
  | true =>
    obtain ⟨declared, stream, rfl⟩ := Action.on_map_eq_ok.1 run
    obtain ⟨ideals, rfl, grown, holds⟩ := declareStream_eq_ok stream
    refine ⟨ideals.map some, by simp, by simpa [List.filterMap_map] using grown, ?_⟩
    rw [List.forall₂_map_right_iff]
    exact holds.imp fun i state declared => ⟨rfl, by simpa using declared⟩

omit [Scalar K] in
theorem exists_points (feeds : List (Option (IdealState K))) :
    ∀ liquids vapors outlets : List (IdealState K), liquids.length = feeds.length →
      vapors.length = feeds.length → outlets.length = feeds.length →
      ∃ points : List (IdealPoint K), points.map (·.feed) = feeds ∧ points.map (·.liquid) = liquids ∧
        points.map (·.vapor) = vapors ∧ points.map (·.outlet) = outlets := by
  induction feeds with
  | nil =>
    intro liquids vapors outlets noLiquid noVapor noOutlet
    refine ⟨[], rfl, ?_, ?_, ?_⟩ <;> symm <;> apply List.length_eq_zero_iff.1 <;> assumption
  | cons feed feeds ih =>
    intro liquids vapors outlets liquidCount vaporCount outletCount
    obtain ⟨liquid, liquids, rfl⟩ := List.exists_cons_of_length_eq_add_one liquidCount
    obtain ⟨vapor, vapors, rfl⟩ := List.exists_cons_of_length_eq_add_one vaporCount
    obtain ⟨outlet, outlets, rfl⟩ := List.exists_cons_of_length_eq_add_one outletCount
    obtain ⟨points, rfl, rfl, rfl, rfl⟩ := ih liquids vapors outlets (by simpa using liquidCount)
      (by simpa using vaporCount) (by simpa using outletCount)
    exact ⟨⟨feed, liquid, vapor, outlet⟩ :: points, rfl, rfl, rfl, rfl⟩

/-- The states that a build declares, before balances and splits come in. -/
theorem declareStates_eq_ok {tray : String} {config : TrayConfig K} {time : TimeSet K}
    {states : List (TrayStates K)}
    (run : (declareStates tray config package.toPackage time).on s = (.ok states, t)) :
    ∃ points : List (IdealPoint K), states = points.map IdealPoint.toStates ∧ points.length = time.count ∧
      s.Grows ((points.filterMap (·.feed)).flatMap (·.vars) ++ points.flatMap (·.liquid.vars) ++
        points.flatMap (·.vapor.vars) ++ points.flatMap (·.outlet.vars)) t ∧
      ∀ (i : Nat) (point : IdealPoint K), points[i]? = some point → point.feed.isSome = config.feed ∧
        (∀ state ∈ point.inlets, DeclaredAt package (.inlet config.packageArguments) i state) ∧
        DeclaredAt package (.outlet config.packageArguments) i point.outlet := by
  obtain ⟨feeds, liquids, vapors, outlets, a, b, c, feedRun, liquidRun, vaporRun, outletRun, rfl⟩ :=
    opened_of_declareStates run
  obtain ⟨feeds, rfl, feedGrown, feedHolds⟩ := declareFeed_eq_ok feedRun
  obtain ⟨liquids, rfl, liquidGrown, liquidHolds⟩ := declareStream_eq_ok liquidRun
  obtain ⟨vapors, rfl, vaporGrown, vaporHolds⟩ := declareStream_eq_ok vaporRun
  obtain ⟨outlets, rfl, outletGrown, outletHolds⟩ := declareStream_eq_ok outletRun
  have feedCount := feedHolds.length_eq
  obtain ⟨points, rfl, rfl, rfl, rfl⟩ := exists_points feeds liquids vapors outlets
    (by rw [← liquidHolds.length_eq, feedCount]) (by rw [← vaporHolds.length_eq, feedCount])
    (by rw [← outletHolds.length_eq, feedCount])
  refine ⟨points, ?_, ?_, ?_, fun i point found => ⟨?_, ?_, ?_⟩⟩
  · simp [List.zip_map', List.zipWith_map, List.zipWith_self, IdealPoint.toStates]
  · simpa using feedCount.symm
  · have grown := ((feedGrown.trans liquidGrown).trans vaporGrown).trans outletGrown
    simpa [List.filterMap_map, List.flatMap_map] using grown
  · exact (of_forall₂_range feedHolds (by simp [found] : (points.map (·.feed))[i]? = some point.feed)).1
  · have fed := (of_forall₂_range feedHolds (by simp [found] : (points.map (·.feed))[i]? = some point.feed)).2
    have liquid := of_forall₂_range liquidHolds
      (by simp [found] : (points.map (·.liquid))[i]? = some point.liquid)
    have vapor := of_forall₂_range vaporHolds
      (by simp [found] : (points.map (·.vapor))[i]? = some point.vapor)
    simpa [IdealPoint.inlets, or_imp, forall_and] using ⟨fed, liquid, vapor⟩
  · exact of_forall₂_range outletHolds (by simp [found] : (points.map (·.outlet))[i]? = some point.outlet)

/-- A tray that is built has the name and equipment that were asked for: a heat duty and, for each side
draw, a split fraction, all named after the tray. -/
structure Labelled (name : String) (config : TrayConfig K) (time : TimeSet K) (tray : Tray K)
    (s : Store K) : Prop where
  name_eq : tray.name = name
  config_eq : tray.config = config
  time_eq : tray.time = time
  liquidDraw : tray.liquidSplit.isSome = config.liquidDraw
  vaporDraw : tray.vaporSplit.isSome = config.vaporDraw
  heatTransfer : tray.balances.heatDuty.isSome = config.heatTransfer
  heatDuty : ∀ v ∈ tray.balances.heatDuty, (s.get? v).map (·.name) = some s!"{name}.heat_duty"
  liquidSplit : ∀ v ∈ tray.liquidSplit, (s.get? v).map (·.name) = some s!"{name}.liq_side_sf"
  vaporSplit : ∀ v ∈ tray.vaporSplit, (s.get? v).map (·.name) = some s!"{name}.vap_side_sf"

/-- Every successful build from an ideal package gives a tray of this anatomy, whose variables are
all that was added to the store. -/
theorem build_eq_ok {name : String} {config : TrayConfig K} {time : TimeSet K} {tray : Tray K}
    (built : (build name config package.toPackage time).on s = (.ok tray, t)) :
    Labelled name config time tray t ∧ s.Grows tray.declared t ∧
      ∃ points, Anatomy package tray points := by
  obtain ⟨rfl, rfl, rfl, ⟨a, b, c, statesRun, balancesRun, liquidRun, vaporRun⟩, inputs, outputs⟩ :=
    opened_of_build built
  obtain ⟨points, same, count, statesGrown, each⟩ := declareStates_eq_ok statesRun
  obtain ⟨balancesGrown, heatTransfer, heatName, _, _, material, enthalpy, pressure⟩ :=
    Balances.declare_eq_ok balancesRun
  obtain ⟨liquidGrown, liquidDraw, liquidName⟩ := Balances.optional_eq_ok liquidRun
  obtain ⟨vaporGrown, vaporDraw, vaporName⟩ := Balances.optional_eq_ok vaporRun
  refine ⟨⟨rfl, rfl, rfl, liquidDraw, vaporDraw, heatTransfer, fun v duty => ?_, fun v split => ?_, vaporName⟩,
    ?_, points, ?_⟩
  · have old := (balancesGrown.mem_iff.1 (List.mem_append_left _ (Option.mem_toList.2 duty))).2
    rw [(liquidGrown.trans vaporGrown).kept v old]
    exact heatName v duty
  · have old := (liquidGrown.mem_iff.1 (Option.mem_toList.2 split)).2
    rw [vaporGrown.kept v old]
    exact liquidName v split
  · have grown := ((statesGrown.trans balancesGrown).trans liquidGrown).trans vaporGrown
    have streams : tray.states = ((points.filterMap (·.feed)).map IdealState.toState ++
        points.map (·.liquid.toState) ++ points.map (·.vapor.toState) ++ points.map (·.outlet.toState)) := by
      simp [Tray.states, feeds, liquids, vapors, outlets, same, IdealPoint.toStates, List.filterMap_map,
        List.map_filterMap, Function.comp_def]
    simp only [declared, streams, splits]
    simpa [List.flatMap_map, IdealState.toState, List.append_assoc] using grown
  · have first : ∃ point, points[0]? = some point := by
      have positive := tray.time.count_pos
      exact ⟨points[0], List.getElem?_eq_getElem (by omega)⟩
    obtain ⟨point, found⟩ := first
    have position : ∀ point ∈ points, ∃ i : Nat, points[i]? = some point := fun point inside =>
      List.mem_iff_getElem?.1 inside
    refine ⟨same, count, fun point inside => ?_, fun point inside state listed => ?_,
      fun point inside state listed => ?_, fun i point found => ?_, (each 0 point found).2.2.1, material,
      enthalpy, pressure, inputs, outputs⟩
    · obtain ⟨i, found⟩ := position point inside
      exact (each i point found).1
    · obtain ⟨i, found⟩ := position point inside
      rcases List.mem_append.1 listed with entering | leaving
      · exact ((each i point found).2.1 state entering).2.1
      · rw [List.mem_singleton.1 leaving]
        exact (each i point found).2.2.2.1
    · obtain ⟨i, found⟩ := position point inside
      exact ((each i point found).2.1 state listed).2.2
    · exact (each i point found).2.2.2.2

end Tray

end Distillation
