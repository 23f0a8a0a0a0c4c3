import Distillation.Expr.Eval
import Distillation.Expr.Variables

namespace Distillation

/-- The place of an equation in its family, by time position and perhaps component position. -/
inductive EquationIndex where
  | time (t : Nat)
  | timeComponent (t j : Nat)
  deriving DecidableEq, Repr

def EquationIndex.text : EquationIndex → String
  | time t => "[" ++ toString t ++ "]"
  | timeComponent t j => "[" ++ toString t ++ "," ++ toString j ++ "]"

/-- An equation in residual form: a named expression that is zero where the equation holds. -/
structure Constraint (K : Type) where
  name : String
  body : Expr K

namespace Constraint

variable {K : Type} [Scalar K]

/-- The equation of two sides. -/
def equality (name : String) (left right : Expr K) : Constraint K :=
  ⟨name, left - right⟩

def residual (c : Constraint K) (s : Store K) : K :=
  c.body.eval s

def satisfied (c : Constraint K) (s : Store K) (tolerance : K) : Bool :=
  Scalar.lt (Scalar.abs (c.residual s)) tolerance

end Constraint

/-- Equations that come from one law and are switched on and off together. -/
structure Family (K : Type) where
  name : String
  members : List (EquationIndex × Constraint K)
  active : Bool

namespace Family

variable {K : Type}

/-- A new family is switched on. -/
def ofMembers (name : String) (members : List (EquationIndex × Constraint K)) : Family K :=
  ⟨name, members, true⟩

def push (family : Family K) (index : EquationIndex) (c : Constraint K) : Family K :=
  { family with members := family.members ++ [(index, c)] }

def activate (family : Family K) : Family K :=
  { family with active := true }

def deactivate (family : Family K) : Family K :=
  { family with active := false }

def size (family : Family K) : Nat :=
  family.members.length

/-- The first member at an index. -/
def get? (family : Family K) (index : EquationIndex) : Option (Constraint K) :=
  family.members.lookup index

def constraints (family : Family K) : List (Constraint K) :=
  family.members.map (·.2)

def inScope (family : Family K) (s : Store K) : Bool :=
  family.constraints.all (·.body.inScope s)

/-- The largest absolute residual of the members, or zero. A residual that is not a number is
passed over. -/
def maxResidual [Scalar K] (family : Family K) (s : Store K) : K :=
  (family.constraints.map fun c => Scalar.abs (c.residual s)).foldl Scalar.max 0

@[simp] theorem constraints_push (family : Family K) (index : EquationIndex) (c : Constraint K) :
    (family.push index c).constraints = family.constraints ++ [c] := by
  simp [push, constraints]

@[simp] theorem constraints_activate (family : Family K) :
    family.activate.constraints = family.constraints := rfl

@[simp] theorem constraints_deactivate (family : Family K) :
    family.deactivate.constraints = family.constraints := rfl

end Family

end Distillation
