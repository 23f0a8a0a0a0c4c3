namespace Distillation

inductive ResolveError where
  /-- A total enthalpy has several entries. -/
  | indexedTotalEnthalpy (member : String)
  /-- A flow is told apart by phase already. -/
  | unsupportedFlowMember (member : String)
  | missingSibling (member sibling : String)
  | missingSiblingIndex (sibling key : String)
  | unexpectedShape (member expected : String)
  /-- Two members of a port would be kept under one name. -/
  | duplicateExpression (name : String)
  deriving DecidableEq, Repr

def ResolveError.message : ResolveError → String
  | indexedTotalEnthalpy member =>
    s!"Expected an unindexed variable for total enthalpy member '{member}'"
  | unsupportedFlowMember member =>
    s!"Flow member '{member}' is already indexed by phase and cannot be split"
  | missingSibling member sibling =>
    s!"Member '{member}' requires sibling '{sibling}', which the state does not define"
  | missingSiblingIndex sibling key => s!"Sibling '{sibling}' has no entry for index [{key}]"
  | unexpectedShape member expected =>
    s!"Member '{member}' has an unexpected shape: expected {expected}"
  | duplicateExpression name => s!"Expression '{name}' is already defined on this unit"

/-- Whether a word stands somewhere in a text. -/
def occursIn (word : List Char) : List Char → Bool
  | [] => word.isEmpty
  | c :: rest => word.isPrefixOf (c :: rest) || occursIn word rest

theorem occursIn_iff {word text : List Char} : occursIn word text ↔ word <:+: text := by
  induction text with
  | nil => simp [occursIn]
  | cons c rest ih =>
    rw [occursIn, Bool.or_eq_true, List.isPrefixOf_iff_prefix, ih, List.infix_cons_iff]

/-- How a port member relates to the mixed outlet. -/
inductive MemberKind where
  /-- The same on every port. -/
  | intensive
  /-- A composition of the whole state. -/
  | fractionTotal
  | fractionByPhase
  /-- A flow of the whole state. -/
  | flowTotal
  | flowByComponent
  /-- A molar enthalpy of the whole state. -/
  | enthalpyTotal
  | enthalpyByPhase
  deriving DecidableEq, Repr

namespace MemberKind

/-- Whether the entries are built from those of another member. -/
def isSynthesized : MemberKind → Bool
  | fractionTotal | flowTotal | flowByComponent | enthalpyTotal => true
  | intensive | fractionByPhase | enthalpyByPhase => false

/-- Whether the entries are scaled by the share of a port. -/
def isSplit : MemberKind → Bool
  | flowTotal | flowByComponent => true
  | _ => false

/-- What the names of the kept expressions say of the kind. -/
def title : MemberKind → String
  | fractionTotal | fractionByPhase => "mole_frac"
  | flowTotal | flowByComponent => "flow"
  | enthalpyTotal | enthalpyByPhase => "enth"
  | intensive => ""

/-- The kind of a member. Names without `flow`, `frac` and `enth` are intensive; then compositions
are told first, flows second, enthalpies last. Other fractions, such as a vapor fraction, are not
carried on outlet ports. -/
def classify (name : String) (indexed : Bool) : Except ResolveError (Option MemberKind) :=
  let has (word : String) : Bool := occursIn word.toList name.toList
  if !has "flow" && !has "frac" && !has "enth" then .ok (some intensive)
  else if has "frac" && (has "mole" || has "mass") then
    if has "phase" then .ok (some fractionByPhase)
    else if indexed then .ok (some fractionTotal)
    else .error (.unexpectedShape name "an indexed total fraction")
  else if has "flow" then
    if has "phase" then .error (.unsupportedFlowMember name)
    else if !indexed then .ok (some flowTotal)
    else if "_comp".toList.isSuffixOf name.toList then .ok (some flowByComponent)
    else .error (.unexpectedShape name "a component flow named X_Y_comp")
  else if has "enth" then
    if has "phase" then .ok (some enthalpyByPhase)
    else if indexed then .error (.indexedTotalEnthalpy name)
    else .ok (some enthalpyTotal)
  else .ok none

/-- Inserts a word before the last segment of a name, segments being set off by `_`; a name of one
segment has the word after it. -/
def beforeLastSegment (word : List Char) (name : List Char) : List Char :=
  let last := (name.reverse.takeWhile (· ≠ '_')).reverse
  match name.reverse.dropWhile (· ≠ '_') with
  | [] => name ++ '_' :: word
  | _ :: head => head.reverse ++ '_' :: word ++ '_' :: last

/-- The member that holds the same quantity told apart by phase. -/
def sibling (kind : MemberKind) (name : String) : String :=
  match kind with
  | fractionTotal | flowByComponent =>
    String.ofList (beforeLastSegment "phase".toList name.toList)
  | _ => name ++ "_phase"

end MemberKind

end Distillation
