import Distillation.Property.State

namespace Distillation

structure ComponentData (K : Type) where
  name : String
  liquidHeatCapacity : K
  vaporHeatCapacity : K
  /-- At the reference temperature. -/
  vaporizationHeat : K

inductive Equilibrium (K : Type) where
  /-- The mole fraction in the vapor is a multiple of that in the liquid, one factor for each
  component. -/
  | constantK (factors : List K)
  /-- Of each component this fraction is vapor. -/
  | vaporFraction (fraction : K)

/-- Two phases are ideal mixtures. Enthalpies are linear in temperature; the vapor carries the heat of
vaporization besides. -/
structure IdealPackage (K : Type) where
  components : List (ComponentData K)
  equilibrium : Equilibrium K
  portMembers : List String

/-- A component of a state with its two flow variables. -/
structure ComponentFlows (K : Type) where
  data : ComponentData K
  liquid : VarId
  vapor : VarId

/-- A state is defined by the flow of each component in each phase, its temperature and its pressure. -/
structure IdealState (K : Type) where
  label : String
  components : List (ComponentFlows K)
  temperature : VarId
  pressure : VarId
  referenceTemperature : K
  portMembers : List String
  /-- Present in states with phase equilibrium. -/
  equilibrium : Option (Family K)
  defined : Bool

/-- The phases of every ideal state. -/
def Phase.both : List Phase := [.liquid, .vapor]

namespace ComponentFlows

variable {K : Type}

def flow (c : ComponentFlows K) : Phase → VarId
  | .liquid => c.liquid
  | .vapor => c.vapor

def flowExpr (c : ComponentFlows K) (p : Phase) : Expr K :=
  .var (c.flow p)

end ComponentFlows

namespace IdealState

variable {K : Type} [Scalar K]

def phaseFlow (state : IdealState K) (p : Phase) : Expr K :=
  .total (state.components.map (·.flowExpr p))

def totalFlow (state : IdealState K) : Expr K :=
  .total (Phase.both.map state.phaseFlow)

/-- The component of a name; of several, the first. -/
def component? (state : IdealState K) (name : String) : Option (ComponentFlows K) :=
  state.components.find? (·.data.name == name)

/-- The molar enthalpy of a component in a phase. -/
def molarEnthalpy (state : IdealState K) (p : Phase) (c : ComponentFlows K) : Expr K :=
  let sensible := .var state.temperature - .const state.referenceTemperature
  match p with
  | .liquid => .const c.data.liquidHeatCapacity * sensible
  | .vapor => .const c.data.vaporHeatCapacity * sensible + .const c.data.vaporizationHeat

/-- The flow of a component over both phases. -/
def componentFlow (c : ComponentFlows K) : Expr K :=
  .total (Phase.both.map c.flowExpr)

def materialFlow (state : IdealState K) (p : Phase) (name : String) : Expr K :=
  match state.component? name with
  | some c => c.flowExpr p
  | none => 0

def enthalpyFlow (state : IdealState K) (p : Phase) : Expr K :=
  .total (state.components.map fun c => c.flowExpr p * state.molarEnthalpy p c)

def byPhase (term : Phase → Expr K) : Quantity K :=
  .indexed (Phase.both.map fun p => (.phase p, term p))

def byComponent (state : IdealState K) (term : ComponentFlows K → Expr K) : Quantity K :=
  .indexed (state.components.map fun c => (.component c.data.name, term c))

/-- One entry for each phase and component, phase by phase. -/
def byPhaseComponent (state : IdealState K) (term : Phase → ComponentFlows K → Expr K) :
    Quantity K :=
  .indexed (Phase.both.flatMap fun p =>
    state.components.map fun c => (.phaseComponent p c.data.name, term p c))

/-- The quantities that a state knows. -/
def member? (state : IdealState K) (name : String) : Option (Quantity K) :=
  match name with
  | "temperature" => some (.scalar (.var state.temperature))
  | "pressure" => some (.scalar (.var state.pressure))
  | "flow_mol" => some (.scalar state.totalFlow)
  | "flow_mol_phase" => some (byPhase state.phaseFlow)
  | "flow_mol_comp" => some (state.byComponent componentFlow)
  | "flow_mol_phase_comp" => some (state.byPhaseComponent fun p c => c.flowExpr p)
  | "mole_frac_comp" => some (state.byComponent fun c => componentFlow c / state.totalFlow)
  | "mole_frac_phase_comp" =>
    some (state.byPhaseComponent fun p c => c.flowExpr p / state.phaseFlow p)
  | "enth_mol" =>
    some (.scalar (.total (Phase.both.map state.enthalpyFlow) / state.totalFlow))
  | "enth_mol_phase" => some (byPhase fun p => state.enthalpyFlow p / state.phaseFlow p)
  | _ => none

/-- Declared names that the state does not know are passed over. -/
def offered (state : IdealState K) : List (String × Quantity K) :=
  state.portMembers.filterMap fun name => (state.member? name).map (name, ·)

/-- The flows of the liquid, those of the vapor, temperature and pressure. -/
def vars (state : IdealState K) : List VarId :=
  state.components.map (·.liquid) ++ state.components.map (·.vapor) ++
    [state.temperature, state.pressure]

/-- The residuals of the equilibrium relation, one for each component. -/
def equilibriumBodies (state : IdealState K) : Equilibrium K → List (Expr K)
  | .vaporFraction fraction =>
    state.components.map fun c =>
      .var c.vapor - .const fraction * (.var c.liquid + .var c.vapor)
  | .constantK factors =>
    List.zipWith
      (fun c factor => .var c.vapor / state.phaseFlow .vapor -
        .const factor * (.var c.liquid / state.phaseFlow .liquid))
      state.components factors

/-- The equilibrium relation at time position `t`. -/
def equilibriumFamily (state : IdealState K) (relation : Equilibrium K) (t : Nat) : Family K :=
  .ofMembers "equilibrium_constraint" <|
    (state.components.zip (state.equilibriumBodies relation)).mapIdx fun j (c, body) =>
      (.timeComponent t j,
        { name := s!"{state.label}.equilibrium_constraint[{t},{c.data.name}]", body })

/-- The variable that a guess is meant for. -/
def target (state : IdealState K) (guess : Guess K) : Except PropertyError VarId :=
  match guess.member, guess.key with
  | "temperature", none => .ok state.temperature
  | "pressure", none => .ok state.pressure
  | "flow_mol_phase_comp", some (.phaseComponent p name) =>
    match state.component? name with
    | some c => .ok (c.flow p)
    | none => .error (.unknownComponent name)
  | "temperature", _ | "pressure", _ | "flow_mol_phase_comp", _ =>
    .error (.invalidArgument guess.member "key does not match the member's indexing")
  | _, _ => .error (.unknownMember state.label guess.member)

/-- Fixed variables keep their specification. -/
def applyGuess (state : IdealState K) (guess : Guess K) : Action K PropertyError Unit := do
  let v ← Action.ofExcept (state.target guess)
  Action.update fun s => if s.isFixed v then s else s.set v guess.value

/-- Applies guesses in order up to the first that the state refuses. -/
def applyGuesses (state : IdealState K) : List (Guess K) → Action K PropertyError Unit
  | [] => pure ()
  | guess :: rest => do
    state.applyGuess guess
    state.applyGuesses rest

def toState (state : IdealState K) : PropertyState K where
  label := state.label
  temperature := state.temperature
  pressure := state.pressure
  materialFlow := state.materialFlow
  enthalpyFlow := state.enthalpyFlow
  portMembers := state.offered
  member? := state.member?
  vars := state.vars
  families := state.equilibrium.toList
  phaseEquilibrium := state.equilibrium.isSome
  defined := state.defined
  applyGuesses := state.applyGuesses

end IdealState

namespace IdealPackage

variable {K : Type} [Scalar K]

/-- The reference temperature of enthalpies where none is given, and the first value of every
temperature. -/
def defaultTemperature : K := 298.15

/-- The first value of every pressure. -/
def defaultPressure : K := 101325.0

def defaultPortMembers : List String :=
  ["flow_mol_comp", "temperature", "pressure", "mole_frac_comp", "enth_mol"]

/-- A package that vaporizes half of each component. -/
def ofComponents (components : List (ComponentData K)) : IdealPackage K :=
  { components, equilibrium := .vaporFraction 0.5, portMembers := defaultPortMembers }

def componentSet (package : IdealPackage K) : ComponentSet :=
  .ofList (package.components.map (·.name))

/-- The only argument is the reference temperature. -/
def referenceTemperature (arguments : List (String × K)) : Except PropertyError K :=
  arguments.foldlM (fun _ entry =>
      if entry.1 = "temperature_ref" then .ok entry.2 else .error (.unknownArgument entry.1))
    defaultTemperature

/-- There has to be a factor for each component. -/
def checkFactors (package : IdealPackage K) : Except PropertyError Unit :=
  match package.equilibrium with
  | .constantK factors =>
    if factors.length = package.components.length then .ok ()
    else
      let given := factors.length
      let needed := package.components.length
      .error (.invalidArgument "equilibrium" s!"{given} K-values for {needed} components")
  | .vaporFraction _ => .ok ()

/-- Every flow starts at one. -/
def createFlow (label : String) (p : Phase) (c : ComponentData K) :
    Action K PropertyError VarId :=
  Action.create s!"{label}.flow_mol_phase_comp[{p.text},{c.name}]" 1

/-- Declares a state: the flows of the liquid, those of the vapor, temperature and pressure. -/
def declareState (package : IdealPackage K) (label : String) (t : Nat) (spec : StateSpec K) :
    Action K PropertyError (IdealState K) := do
  let reference ← Action.ofExcept (referenceTemperature spec.arguments.entries)
  Action.ofExcept package.checkFactors
  let liquid ← package.components.mapM (createFlow label .liquid)
  let vapor ← package.components.mapM (createFlow label .vapor)
  let temperature ← Action.create s!"{label}.temperature" defaultTemperature
  let pressure ← Action.create s!"{label}.pressure" defaultPressure
  let components := List.zipWith (fun data (l, v) => ComponentFlows.mk data l v)
    package.components (liquid.zip vapor)
  let bare : IdealState K :=
    { label, components, temperature, pressure, referenceTemperature := reference
      portMembers := package.portMembers, equilibrium := none, defined := spec.defined }
  if spec.phaseEquilibrium then
    return { bare with equilibrium := some (bare.equilibriumFamily package.equilibrium t) }
  else
    return bare

def toPackage (package : IdealPackage K) : PropertyPackage K where
  phases := Phase.both
  components := package.componentSet
  declare label t spec := IdealState.toState <$> package.declareState label t spec

end IdealPackage

end Distillation
