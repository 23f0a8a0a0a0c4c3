import Distillation.Port.Basic
import Distillation.Property.State
import Distillation.Tray.MemberKind

namespace Distillation

/-- The part of a phase that leaves through a port. -/
inductive Share where
  | whole
  /-- The split fraction itself, through a side draw. -/
  | drawn (fraction : VarId)
  /-- What a side draw leaves. -/
  | remaining (fraction : VarId)
  deriving DecidableEq, Repr

def Share.expr {K : Type} [Scalar K] : Share → Expr K
  | whole => .const 1
  | drawn fraction => .var fraction
  | remaining fraction => .const 1 - .var fraction

namespace Split

variable {K : Type} [Scalar K]

/-- The members to be carried on outlet ports, with their kinds. -/
abbrev Schema := List (String × MemberKind)

/-- Classifies what a state offers to ports. -/
def schemaOf : List (String × Quantity K) → Except ResolveError Schema
  | [] => .ok []
  | (name, quantity) :: rest => do
    let kind ← MemberKind.classify name quantity.isIndexed
    let others ← schemaOf rest
    return (kind.toList.map (name, ·)) ++ others

/-- The schema is that of the first time point. -/
def schema (outlets : List (PropertyState K)) : Except ResolveError Schema :=
  match outlets with
  | [] => .ok []
  | first :: _ => schemaOf first.portMembers

def find (state : PropertyState K) (member wanted : String) : Except ResolveError (Quantity K) :=
  match state.member? wanted with
  | some quantity => .ok quantity
  | none => .error (.missingSibling member wanted)

def entry (quantity : Quantity K) (sibling : String) (key : Key) : Except ResolveError (Expr K) :=
  match quantity.get? key with
  | some e => .ok e
  | none => .error (.missingSiblingIndex sibling key.text)

/-- Scales an entry of a kind that is split. -/
def scaled (kind : MemberKind) (share : Share) (e : Expr K) : Expr K :=
  if kind.isSplit then e * share.expr else e

/-- The entry of a sibling that belongs to a component's entry. -/
def componentEntry (name : String) (kind : MemberKind) (p : Phase) (share : Share)
    (sibling : Quantity K) (key : Key) : Except ResolveError (Key × Expr K) :=
  match key.withPhase? p with
  | none => .error (.unexpectedShape name "an index by component")
  | some phaseKey => do
    let e ← entry sibling (kind.sibling name) phaseKey
    return (key, scaled kind share e)

/-- A member of a port at one time point. -/
def resolveMember (state : PropertyState K) (name : String) (kind : MemberKind) (p : Phase)
    (share : Share) : Except ResolveError (Quantity K) :=
  match kind with
  | .intensive | .fractionByPhase | .enthalpyByPhase => find state name name
  | .flowTotal | .enthalpyTotal => do
    let sibling ← find state name (kind.sibling name)
    let e ← entry sibling (kind.sibling name) (.phase p)
    return .scalar (scaled kind share e)
  | .fractionTotal | .flowByComponent => do
    let own ← find state name name
    let sibling ← find state name (kind.sibling name)
    let entries ← own.keys.mapM (componentEntry name kind p share sibling)
    return .indexed entries

/-- The expressions that a tray keeps under names, by time position. -/
abbrev Expressions (K : Type) := NameMap (List (Quantity K))

/-- The name under which the entries of a member are kept. -/
def expressionName (kind : MemberKind) (port : String) : String :=
  s!"e_{kind.title}_{port}"

/-- Keeps synthesized values under the name of their kind and port. -/
def link (kind : MemberKind) (port : String) (values : List (Quantity K))
    (kept : Expressions K) : Except ResolveError (Linkage × Expressions K) :=
  let name := expressionName kind port
  if kind.isSynthesized then
    if kept.contains name then .error (.duplicateExpression name)
    else .ok (.expression name, kept.insert name values)
  else .ok (.reference, kept)

/-- The members of a port in the order of the schema. -/
def resolveMembers (outlets : List (PropertyState K)) (port : String) (p : Phase) (share : Share) :
    Schema → Expressions K → Except ResolveError (List (PortMember K) × Expressions K)
  | [], kept => .ok ([], kept)
  | (name, kind) :: rest, kept => do
    let values ← outlets.mapM fun state => resolveMember state name kind p share
    let (linkage, kept) ← link kind port values kept
    let (members, kept) ← resolveMembers outlets port p share rest kept
    return (⟨name, linkage, values⟩ :: members, kept)

/-- A port that shows a share of one phase. -/
def resolvePort (outlets : List (PropertyState K)) (schema : Schema) (port : String) (p : Phase)
    (share : Share) (kept : Expressions K) : Except ResolveError (Port K × Expressions K) := do
  let (members, kept) ← resolveMembers outlets port p share schema kept
  return (.output port members, kept)

/-- A port that is still to be resolved. -/
structure Outlet where
  port : String
  phase : Phase
  share : Share

/-- A side draw comes before the main outlet that it is taken from. -/
def outletsOf (draw main : String) (p : Phase) : Option VarId → List Outlet
  | some fraction => [⟨draw, p, .drawn fraction⟩, ⟨main, p, .remaining fraction⟩]
  | none => [⟨main, p, .whole⟩]

def resolveOutlets (outlets : List (PropertyState K)) (schema : Schema) :
    List Outlet → Expressions K → Except ResolveError (List (Port K) × Expressions K)
  | [], kept => .ok ([], kept)
  | outlet :: rest, kept => do
    let (port, kept) ← resolvePort outlets schema outlet.port outlet.phase outlet.share kept
    let (ports, kept) ← resolveOutlets outlets schema rest kept
    return (port :: ports, kept)

end Split

end Distillation
