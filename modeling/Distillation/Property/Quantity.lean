import Distillation.Expr.Basic

namespace Distillation

inductive Phase where
  | liquid
  | vapor
  deriving DecidableEq, Repr

def Phase.text : Phase → String
  | liquid => "Liq"
  | vapor => "Vap"

/-- Liquid comes first. -/
def Phase.before : Phase → Phase → Bool
  | liquid, vapor => true
  | _, _ => false

/-- The index of an entry of a quantity. -/
inductive Key where
  | phase (p : Phase)
  | component (c : String)
  | phaseComponent (p : Phase) (c : String)
  deriving DecidableEq, Repr

namespace Key

def text : Key → String
  | phase p => p.text
  | component c => c
  | phaseComponent p c => p.text ++ "," ++ c

/-- The entry of a phase that belongs to the entry of a component. Other keys have none. -/
def withPhase? (p : Phase) : Key → Option Key
  | component c => some (phaseComponent p c)
  | _ => none

/-- Phases come before components and those before pairs; pairs go by phase first. -/
def before : Key → Key → Bool
  | phase p, phase q => p.before q
  | phase _, _ => true
  | component _, phase _ => false
  | component c, component d => c < d
  | component _, phaseComponent _ _ => true
  | phaseComponent p c, phaseComponent q d => p.before q || (p == q && decide (c < d))
  | phaseComponent _ _, _ => false

/-- Sorts keys into their order. -/
def sort (keys : List Key) : List Key :=
  keys.mergeSort fun a b => !b.before a

/-- Whether the key names a component alone. -/
def isComponent : Key → Bool
  | component _ => true
  | _ => false

end Key

/-- What a state shows under one name: a single term, or one term for each of several keys. -/
inductive Quantity (K : Type) where
  | scalar (e : Expr K)
  | indexed (entries : List (Key × Expr K))

namespace Quantity

variable {K : Type}

def isIndexed : Quantity K → Bool
  | scalar _ => false
  | indexed _ => true

def scalar? : Quantity K → Option (Expr K)
  | scalar e => some e
  | indexed _ => none

/-- The first entry under a key. -/
def get? (q : Quantity K) (key : Key) : Option (Expr K) :=
  match q with
  | scalar _ => none
  | indexed entries => entries.lookup key

def keys : Quantity K → List Key
  | scalar _ => []
  | indexed entries => entries.map (·.1)

/-- The one term without a key, or the term of a key. -/
def term? (q : Quantity K) : Option Key → Option (Expr K)
  | none => q.scalar?
  | some key => q.get? key

end Quantity

end Distillation
