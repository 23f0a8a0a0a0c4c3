import Distillation.Equation.Model
import Distillation.IndexSets
import Distillation.Tray.Balance
import Distillation.Tray.Split

namespace Distillation

inductive TrayError where
  /-- A split fraction has to be fixed before the tray starts up. -/
  | unfixedSplitFraction (fraction : String)
  /-- An outlet port cannot be built. -/
  | resolve (error : ResolveError)
  /-- The property package refuses. -/
  | property (error : PropertyError)
  | unknownPort (port : String)
  deriving DecidableEq, Repr

def TrayError.message : TrayError → String
  | unfixedSplitFraction fraction =>
    s!"Side draw split fraction '{fraction}' must be fixed before initialization"
  | resolve error => error.message
  | property error => error.message
  | unknownPort port => s!"Tray has no port named '{port}'"

structure Tray (K : Type) where
  name : String
  config : TrayConfig K
  time : TimeSet K
  /-- By time position. -/
  points : List (TrayStates K)
  balances : Balances K
  /-- The split fraction of the liquid side draw. -/
  liquidSplit : Option VarId
  /-- The split fraction of the vapor side draw. -/
  vaporSplit : Option VarId
  ports : PortSet K
  expressions : Split.Expressions K

namespace Tray

variable {K : Type}

/-- The states of the feed at all time points; none on a tray without a feed. -/
def feeds (tray : Tray K) : List (PropertyState K) :=
  tray.points.filterMap (·.feed)

def liquids (tray : Tray K) : List (PropertyState K) :=
  tray.points.map (·.liquid)

def vapors (tray : Tray K) : List (PropertyState K) :=
  tray.points.map (·.vapor)

def outlets (tray : Tray K) : List (PropertyState K) :=
  tray.points.map (·.outlet)

/-- What the balances hold between, by time position. -/
def mixings (tray : Tray K) : List (Mixing K) :=
  tray.points.map TrayStates.toMixing

/-- All states, stream by stream. -/
def states (tray : Tray K) : List (PropertyState K) :=
  tray.feeds ++ tray.liquids ++ tray.vapors ++ tray.outlets

def families (tray : Tray K) : List (Family K) :=
  tray.balances.families ++ tray.states.flatMap (·.families)

def toModel (tray : Tray K) : Model K :=
  ⟨tray.name, tray.families⟩

/-- The split fractions of the side draws, liquid first. -/
def splits (tray : Tray K) : List VarId :=
  tray.liquidSplit.toList ++ tray.vaporSplit.toList

/-- An inlet or outlet port by name. -/
def port (tray : Tray K) (name : String) : Except TrayError (Port K) :=
  match tray.ports.port? name with
  | some port => .ok port
  | none => .error (.unknownPort name)

/-- The terms of a kept expression, by time position. -/
def expression? (tray : Tray K) (name : String) : Option (List (Quantity K)) :=
  tray.expressions.find? name

end Tray

end Distillation
