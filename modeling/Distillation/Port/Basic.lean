import Distillation.Expr.Eval
import Distillation.Property.Quantity

namespace Distillation

/-- Where a port member comes from. -/
inductive Linkage where
  /-- The state's own quantity. -/
  | reference
  /-- An expression that the unit keeps under a name. -/
  | expression (name : String)
  deriving DecidableEq, Repr

/-- The name of the expression behind a member, if there is one. -/
def Linkage.expression? : Linkage → Option String
  | reference => none
  | expression name => some name

structure PortMember (K : Type) where
  name : String
  linkage : Linkage
  /-- By time position. -/
  values : List (Quantity K)

/-- What a unit shows to its neighbours. -/
structure Port (K : Type) where
  name : String
  isInput : Bool
  members : List (PortMember K)

namespace Port

variable {K : Type}

def input (name : String) (members : List (PortMember K)) : Port K :=
  ⟨name, true, members⟩

def output (name : String) (members : List (PortMember K)) : Port K :=
  ⟨name, false, members⟩

/-- The first member of a name. -/
def get? (port : Port K) (name : String) : Option (PortMember K) :=
  port.members.find? (·.name == name)

/-- The term of a member at a time position. A key selects an entry of an indexed member; a scalar
member has none. -/
def term? (port : Port K) (name : String) (t : Nat) (key : Option Key) : Option (Expr K) := do
  let member ← port.get? name
  let quantity ← member.values[t]?
  quantity.term? key

/-- The value of that term in a store. -/
def value? [Scalar K] (port : Port K) (name : String) (t : Nat) (key : Option Key) (s : Store K) :
    Option K :=
  (port.term? name t key).map (·.eval s)

end Port

/-- The ports of a unit. -/
structure PortSet (K : Type) where
  inputs : List (Port K)
  outputs : List (Port K)

namespace PortSet

variable {K : Type}

def input? (ports : PortSet K) (name : String) : Option (Port K) :=
  ports.inputs.find? (·.name == name)

def output? (ports : PortSet K) (name : String) : Option (Port K) :=
  ports.outputs.find? (·.name == name)

/-- Looks among the inputs first. -/
def port? (ports : PortSet K) (name : String) : Option (Port K) :=
  (ports.inputs ++ ports.outputs).find? (·.name == name)

end PortSet

end Distillation
