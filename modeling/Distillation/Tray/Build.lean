import Distillation.Tray.Basic

namespace Distillation.Tray

variable {K : Type} [Scalar K]

/-- The first value of a split fraction. -/
def defaultSplit : K := 0.01

/-- The states of one stream, a state for each time point. -/
def declareStream (package : PropertyPackage K) (time : TimeSet K) (label : String)
    (spec : StateSpec K) : Action K TrayError (List (PropertyState K)) :=
  time.indices.mapM fun t =>
    Action.mapError .property (package.declare s!"{label}[{t}]" t spec)

/-- A tray without a feed has none at any time point. -/
def declareFeed (package : PropertyPackage K) (time : TimeSet K) (label : String)
    (spec : StateSpec K) (present : Bool) :
    Action K TrayError (List (Option (PropertyState K))) :=
  if present then List.map some <$> declareStream package time label spec
  else return time.indices.map fun _ => none

def declareStates (tray : String) (config : TrayConfig K) (package : PropertyPackage K)
    (time : TimeSet K) : Action K TrayError (List (TrayStates K)) := do
  let inlet := StateSpec.inlet config.packageArguments
  let outlet := StateSpec.outlet config.packageArguments
  let feeds ← declareFeed package time s!"{tray}.properties_in_feed" inlet config.feed
  let liquids ← declareStream package time s!"{tray}.properties_in_liq" inlet
  let vapors ← declareStream package time s!"{tray}.properties_in_vap" inlet
  let outlets ← declareStream package time s!"{tray}.properties_out" outlet
  return List.zipWith (fun feed (liquid, vapor, outlet) => ⟨feed, liquid, vapor, outlet⟩) feeds
    (liquids.zip (vapors.zip outlets))

/-- An inlet port with what the states of a stream offer. The first time point says which members
there are; later ones take part by position. -/
def passThrough (name : String) (states : List (PropertyState K)) : Port K :=
  let offered := states.map (·.portMembers)
  .input name <| (offered.headD []).mapIdx fun k (member, _) =>
    ⟨member, .reference, offered.filterMap fun members => members[k]?.map (·.2)⟩

/-- The inlet ports, the feed first. -/
def inletPorts (feed : Bool) (points : List (TrayStates K)) : List (Port K) :=
  (if feed then [passThrough "feed" (points.filterMap (·.feed))] else []) ++
    [passThrough "liq_in" (points.map (·.liquid)), passThrough "vap_in" (points.map (·.vapor))]

/-- The outlet ports, liquid first, and the expressions that they read. -/
def outletPorts (outlets : List (PropertyState K)) (liquidSplit vaporSplit : Option VarId) :
    Except ResolveError (List (Port K) × Split.Expressions K) := do
  let schema ← Split.schema outlets
  Split.resolveOutlets outlets schema
    (Split.outletsOf "liq_side_draw" "liq_out" .liquid liquidSplit ++
      Split.outletsOf "vap_side_draw" "vap_out" .vapor vaporSplit)
    .empty

/-- Declares a tray in the store: states stream by stream, then balances, split fractions and ports.
What a failure leaves behind are variables that nothing refers to. -/
def build (name : String) (config : TrayConfig K) (package : PropertyPackage K)
    (time : TimeSet K) : Action K TrayError (Tray K) := do
  let points ← declareStates name config package time
  let balances ← Balances.declare name config package.phases package.components
    (points.map TrayStates.toMixing)
  let liquidSplit ← Balances.optional config.liquidDraw s!"{name}.liq_side_sf" defaultSplit
  let vaporSplit ← Balances.optional config.vaporDraw s!"{name}.vap_side_sf" defaultSplit
  let (outputs, expressions) ← Action.ofExcept <|
    (outletPorts (points.map (·.outlet)) liquidSplit vaporSplit).mapError .resolve
  return {
    name, config, time, points, balances, liquidSplit, vaporSplit, expressions
    ports := ⟨inletPorts config.feed points, outputs⟩ }

end Distillation.Tray
