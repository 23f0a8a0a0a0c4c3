import Distillation.Equation.Model
import Distillation.Port.Basic

namespace Distillation

inductive ConnectionError where
  /-- The unit has no such port. -/
  | unknownPort (port : String)
  /-- The other port has no member of this name. -/
  | missingMember (port member : String)
  /-- The entries of a member differ in shape, number or keys. -/
  | mismatchedIndices (member source target : String)
  | mismatchedTimes (source target : String) (sourceCount targetCount : Nat)
  deriving DecidableEq, Repr

def ConnectionError.message : ConnectionError → String
  | unknownPort port => s!"Port '{port}' not found"
  | missingMember port member => s!"Port member '{member}' is missing on port '{port}'"
  | mismatchedIndices member source target =>
    s!"Port member '{member}' has mismatched indices between '{source}' and '{target}'"
  | mismatchedTimes source target sourceCount targetCount =>
    s!"Ports '{source}' and '{target}' span {sourceCount} and {targetCount} time points"

/-- One equation for each entry of an outlet port and the entry of the same name on an inlet port. -/
structure Connection (K : Type) where
  source : String
  target : String
  equalities : Family K

namespace Connection

variable {K : Type} [Scalar K]

/-- An equation between two members, indexed and named. -/
abbrev Entry (K : Type) := EquationIndex × Constraint K

/-- The equations of the entries of one member at one time position. The target's entries may be
in another order; `none` means that the two do not fit. -/
def entriesAt (title : String) (t : Nat) : Quantity K → Quantity K → Option (List (Entry K))
  | .scalar a, .scalar b =>
    let index := EquationIndex.time t
    some [(index, .equality (title ++ index.text) a b)]
  | .indexed entries, .indexed others =>
    if entries.length = others.length then
      entries.zipIdx.mapM fun ((key, a), k) =>
        ((Quantity.indexed others).get? key).map fun b =>
          (.timeComponent t k, .equality s!"{title}[{t},{key.text}]" a b)
    else none
  | _, _ => none

/-- The equations of one member over all time points. -/
def memberEntries (source target : Port K) (title : String) (member : PortMember K) :
    Except ConnectionError (List (Entry K)) :=
  match target.get? member.name with
  | none => .error (.missingMember target.name member.name)
  | some other =>
    if member.values.length = other.values.length then
      let points := (member.values.zip other.values).zipIdx
      match points.mapM fun ((a, b), t) => entriesAt s!"{title}.{member.name}" t a b with
      | some entries => .ok entries.flatten
      | none => .error (.mismatchedIndices member.name source.name target.name)
    else
      .error (.mismatchedTimes source.name target.name member.values.length other.values.length)

/-- Connects every member of the source to the target's member of that name. -/
def between (source target : Port K) : Except ConnectionError (Connection K) := do
  let title := s!"{source.name}_to_{target.name}"
  let entries ← source.members.mapM (memberEntries source target title)
  return ⟨source.name, target.name, .ofMembers title entries.flatten⟩

/-- Connects an outlet port of one unit to an inlet port of another, by name. -/
def connect (giver : PortSet K) (outlet : String) (taker : PortSet K) (inlet : String) :
    Except ConnectionError (Connection K) :=
  match giver.output? outlet with
  | none => .error (.unknownPort outlet)
  | some source =>
    match taker.input? inlet with
    | none => .error (.unknownPort inlet)
    | some target => between source target

/-- A connection is a model of its own. -/
def toModel (connection : Connection K) : Model K :=
  ⟨connection.equalities.name, [connection.equalities]⟩

end Connection

end Distillation
