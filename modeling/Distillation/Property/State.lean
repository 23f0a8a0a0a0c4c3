import Distillation.Action
import Distillation.Equation.Family
import Distillation.IndexSets
import Distillation.NameMap
import Distillation.Property.Quantity

namespace Distillation

/-- Why a property package refuses a request. -/
inductive PropertyError where
  /-- The state has no member of this name. -/
  | unknownMember (state member : String)
  /-- The component is not part of the package. -/
  | unknownComponent (component : String)
  /-- The package does not take an argument of this name. -/
  | unknownArgument (argument : String)
  /-- A value or key does not fit what it is meant for. -/
  | invalidArgument (member reason : String)
  deriving DecidableEq, Repr

def PropertyError.message : PropertyError → String
  | unknownMember state member => s!"State '{state}' has no member '{member}'"
  | unknownComponent component => s!"Unknown component: {component}"
  | unknownArgument argument => s!"Unknown property package argument: {argument}"
  | invalidArgument member reason => s!"Invalid argument for '{member}': {reason}"

/-- How a state is to be built. -/
structure StateSpec (K : Type) where
  phaseEquilibrium : Bool
  /-- Whether the state's own variables specify it fully. -/
  defined : Bool
  arguments : NameMap K

namespace StateSpec

variable {K : Type}

/-- An inlet is defined by its variables and is in no equilibrium. -/
def inlet (arguments : NameMap K) : StateSpec K :=
  ⟨false, true, arguments⟩

/-- The mixed outlet follows from the balances and is in equilibrium. -/
def outlet (arguments : NameMap K) : StateSpec K :=
  ⟨true, false, arguments⟩

end StateSpec

/-- A starting value for a member of a state, or for one entry of it. -/
structure Guess (K : Type) where
  member : String
  key : Option Key
  value : K

/-- The state of one stream at one time point, as far as a unit sees it. -/
structure PropertyState (K : Type) where
  label : String
  temperature : VarId
  pressure : VarId
  /-- The flow of a component in a phase, for material balances. -/
  materialFlow : Phase → String → Expr K
  /-- The enthalpy flow of a phase, for energy balances. -/
  enthalpyFlow : Phase → Expr K
  /-- What the state offers to ports, in order. -/
  portMembers : List (String × Quantity K)
  /-- Any quantity by name, offered to ports or not. -/
  member? : String → Option (Quantity K)
  /-- The variables that define the state. -/
  vars : List VarId
  /-- The equations within the state. -/
  families : List (Family K)
  phaseEquilibrium : Bool
  defined : Bool
  applyGuesses : List (Guess K) → Action K PropertyError Unit

/-- Declares states, one for each stream and time point. Whoever declares a total `X` or a component
quantity `X_comp` also answers for `X_phase` or `X_phase_comp`. -/
structure PropertyPackage (K : Type) where
  phases : List Phase
  components : ComponentSet
  /-- Declares a state with a label at a time position. -/
  declare : String → Nat → StateSpec K → Action K PropertyError (PropertyState K)

end Distillation
