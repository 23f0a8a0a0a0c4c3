import Distillation.NameMap
import Distillation.Property.State

namespace Distillation

/-- A tray always has a liquid and a vapor inlet and an outlet for each. -/
structure TrayConfig (K : Type) where
  feed : Bool
  liquidDraw : Bool
  vaporDraw : Bool
  heatTransfer : Bool
  pressureChange : Bool
  /-- Handed to every state. -/
  packageArguments : NameMap K

def TrayConfig.plain {K : Type} : TrayConfig K :=
  ⟨false, false, false, false, false, .empty⟩

/-- The states between which balances hold at one time point. The vapor inlet sets the pressure. -/
structure Mixing (K : Type) where
  inlets : List (PropertyState K)
  vapor : PropertyState K
  outlet : PropertyState K

/-- The states that meet on a tray at one time point. -/
structure TrayStates (K : Type) where
  feed : Option (PropertyState K)
  liquid : PropertyState K
  vapor : PropertyState K
  outlet : PropertyState K

namespace TrayStates

variable {K : Type}

def inlets (states : TrayStates K) : List (PropertyState K) :=
  states.feed.toList ++ [states.liquid, states.vapor]

/-- On a tray the balances hold between its own inlets and its outlet. -/
def toMixing (states : TrayStates K) : Mixing K :=
  ⟨states.inlets, states.vapor, states.outlet⟩

end TrayStates

/-- What enters in all inlets, however many there are, leaves in the mixed outlet, whose pressure is
that of the vapor inlet. Heat that is added and a drop of the pressure are variables of the tray where
it is equipped for them. -/
structure Balances (K : Type) where
  material : Family K
  enthalpy : Family K
  pressure : Family K
  heatDuty : Option VarId
  pressureDrop : Option VarId

namespace Balances

variable {K : Type} [Scalar K]

def families (balances : Balances K) : List (Family K) :=
  [balances.material, balances.enthalpy, balances.pressure]

/-- Phase by phase, what a term says of each inlet less what it says of the outlet. -/
def exchange (phases : List Phase) (states : Mixing K)
    (term : PropertyState K → Phase → Expr K) : List (Expr K) :=
  phases.flatMap fun p => states.inlets.map (term · p) ++ [-term states.outlet p]

/-- The balance of one component at one time point. -/
def materialBody (phases : List Phase) (states : Mixing K) (component : String) : Expr K :=
  .total (exchange phases states fun state p => state.materialFlow p component)

/-- The balance of enthalpy at one time point. -/
def enthalpyBody (phases : List Phase) (heatDuty : Option VarId) (states : Mixing K) : Expr K :=
  .total (exchange phases states PropertyState.enthalpyFlow ++ heatDuty.toList.map .var)

/-- The pressure that the outlet is to have. -/
def outletPressure (pressureDrop : Option VarId) (states : Mixing K) : Expr K :=
  match pressureDrop with
  | some drop => .var states.vapor.pressure - .var drop
  | none => .var states.vapor.pressure

/-- One balance for each time point and component. -/
def materialFamily (tray : String) (phases : List Phase) (components : ComponentSet)
    (points : List (Mixing K)) : Family K :=
  .ofMembers "material_mixing_equations" <|
    points.zipIdx.flatMap fun (states, t) =>
      components.names.mapIdx fun j component =>
        (.timeComponent t j,
          { name := s!"{tray}.material_mixing_equations[{t},{component}]"
            body := materialBody phases states component })

def enthalpyFamily (tray : String) (phases : List Phase) (heatDuty : Option VarId)
    (points : List (Mixing K)) : Family K :=
  .ofMembers "enthalpy_mixing_equations" <|
    points.mapIdx fun t states =>
      (.time t,
        { name := s!"{tray}.enthalpy_mixing_equations[{t}]"
          body := enthalpyBody phases heatDuty states })

def pressureFamily (tray : String) (pressureDrop : Option VarId) (points : List (Mixing K)) :
    Family K :=
  .ofMembers "pressure_drop_equation" <|
    points.mapIdx fun t states =>
      (.time t,
        .equality s!"{tray}.pressure_drop_equation[{t}]" (.var states.outlet.pressure)
          (outletPressure pressureDrop states))

/-- A variable of the tray, where it is equipped for one. -/
def optional {E : Type} (present : Bool) (name : String) (value : K) :
    Action K E (Option VarId) :=
  if present then some <$> Action.create name value else pure none

/-- Declares the balances of a tray over its time points. -/
def declare {E : Type} (tray : String) (config : TrayConfig K) (phases : List Phase)
    (components : ComponentSet) (points : List (Mixing K)) : Action K E (Balances K) := do
  let heatDuty ← optional config.heatTransfer s!"{tray}.heat_duty" 0
  let pressureDrop ← optional config.pressureChange s!"{tray}.deltaP" 0
  return {
    material := materialFamily tray phases components points
    enthalpy := enthalpyFamily tray phases heatDuty points
    pressure := pressureFamily tray pressureDrop points
    heatDuty
    pressureDrop }

end Balances

end Distillation
