import Distillation.Newton.Outcome
import Distillation.Tray.Basic

namespace Distillation

/-- The full model is hard to solve from arbitrary values, so three solves lead to it: first without
the energy and pressure balances, the outlet's temperature and pressure being fixed at guesses, then
with the energy balance, then with all. -/
inductive Stage where
  | massBalance
  | massEnergyBalance
  | full
  deriving DecidableEq, Repr

namespace Stage

def text : Stage → String
  | massBalance => "Mass balance"
  | massEnergyBalance => "Mass/Energy balance"
  | full => "Mass/Energy/Pressure balance"

/-- The stages in the order in which they run. -/
def all : List Stage := [massBalance, massEnergyBalance, full]

end Stage

structure StageReport (K : Type) where
  stage : Stage
  outcome : SolverOutcome K

structure StartupReport (K : Type) where
  stages : List (StageReport K)

namespace StartupReport

variable {K : Type}

/-- How the last stage ended. -/
def final? (report : StartupReport K) : Option Termination :=
  report.stages.getLast?.map (·.outcome.termination)

/-- Whether the full model was solved. -/
def isConverged (report : StartupReport K) : Bool :=
  report.final?.any (·.isOptimal)

def stage? (report : StartupReport K) (stage : Stage) : Option (StageReport K) :=
  report.stages.find? (·.stage == stage)

end StartupReport

/-- What a start-up is given: guesses for the states of each inlet, and how much to say. -/
structure StartupArgs (K : Type) where
  feed : List (Guess K)
  liquid : List (Guess K)
  vapor : List (Guess K)
  verbosity : Nat

namespace Tray

variable {K : Type}

/-- The end of a start-up. -/
inductive Startup (K : Type) where
  | completed (report : StartupReport K)
  | refused (error : TrayError)
  /-- The solver broke off within a stage. -/
  | aborted (stage : Stage)

/-- The first split fraction that is not fixed. -/
def freeSplit? (tray : Tray K) (s : Store K) : Option VarId :=
  tray.splits.find? fun v => !s.isFixed v

/-- Hands the guesses of one stream to its states. -/
def guessStream (states : List (PropertyState K)) (guesses : List (Guess K)) :
    Action K PropertyError Unit :=
  states.forM (·.applyGuesses guesses)

/-- Hands all guesses to the states, stream by stream. The outlet has none. -/
def applyGuesses (tray : Tray K) (args : StartupArgs K) : Action K PropertyError Unit := do
  guessStream tray.feeds args.feed
  guessStream tray.liquids args.liquid
  guessStream tray.vapors args.vapor
  guessStream tray.outlets []

/-- The temperature of the feed, or without one the mean of those of the inlets; at the first time
point. -/
def temperatureGuess [Scalar K] (s : Store K) (states : TrayStates K) : K :=
  match states.feed with
  | some feed => s.value feed.temperature
  | none => 0.5 * (s.value states.liquid.temperature + s.value states.vapor.temperature)

/-- The outlet values at which the first stage is solved. -/
structure OutletGuess (K : Type) where
  temperature : K
  pressure : K

/-- There is no guess without a time point. -/
def outletGuess? [Scalar K] (tray : Tray K) (s : Store K) : Option (OutletGuess K) :=
  tray.points.head?.map fun states =>
    ⟨temperatureGuess s states, s.value states.vapor.pressure⟩

/-- Fixes the temperature and pressure of the outlet at all time points. -/
def fixOutlets (tray : Tray K) (guess : Option (OutletGuess K)) (s : Store K) : Store K :=
  match guess with
  | some guess => tray.outlets.foldl
      (fun s state => (s.fixAt state.temperature guess.temperature).fixAt state.pressure
        guess.pressure) s
  | none => s

def setEnthalpy (tray : Tray K) (active : Bool) : Tray K :=
  { tray with balances.enthalpy.active := active }

def setPressure (tray : Tray K) (active : Bool) : Tray K :=
  { tray with balances.pressure.active := active }

/-- What changes on the tray and in the store at the beginning of a stage. -/
def arrange (guess : Option (OutletGuess K)) (stage : Stage) (tray : Tray K) (s : Store K) :
    Tray K × Store K :=
  match stage with
  | .massBalance => ((tray.setEnthalpy false).setPressure false, tray.fixOutlets guess s)
  | .massEnergyBalance =>
    (tray.setEnthalpy true, tray.outlets.foldl (fun s state => s.unfix state.temperature) s)
  | .full =>
    (tray.setPressure true, tray.outlets.foldl (fun s state => s.unfix state.pressure) s)

/-- Everything that a start-up changes. -/
structure StartupState (σ K : Type) where
  tray : Tray K
  memory : σ
  store : Store K

variable {σ : Type}

/-- Solves the tray as it stands. -/
def solveStage (solver : Solver σ K) (trace : Bool) (state : StartupState σ K) :
    Option (SolverOutcome K) × StartupState σ K :=
  let (outcome, memory, store) := solver.solve state.tray.toModel trace (state.memory, state.store)
  (outcome, ⟨state.tray, memory, store⟩)

/-- Runs some stages, keeping the reports of those before. -/
def runStages (solver : Solver σ K) (trace : Bool) (guess : Option (OutletGuess K)) :
    List Stage → List (StageReport K) → StartupState σ K → Startup K × StartupState σ K
  | [], reports, state => (.completed ⟨reports⟩, state)
  | stage :: rest, reports, state =>
    let (tray, store) := arrange guess stage state.tray state.store
    match solveStage solver trace ⟨tray, state.memory, store⟩ with
    | (none, after) => (.aborted stage, after)
    | (some outcome, after) =>
      runStages solver trace guess rest (reports ++ [⟨stage, outcome⟩]) after

/-- The verbosity above which a solver is asked for a trace. -/
def traceVerbosity : Nat := 2

/-- Brings a tray to a consistent starting point. Nothing is touched while a split fraction is
free. Failed solves are reported and are no errors. -/
def startUp [Scalar K] (args : StartupArgs K) (solver : Solver σ K) (state : StartupState σ K) :
    Startup K × StartupState σ K :=
  match state.tray.freeSplit? state.store with
  | some v =>
    let name := (state.store.get? v).elim "" (·.name)
    (.refused (.unfixedSplitFraction name), state)
  | none =>
    match (state.tray.applyGuesses args).on state.store with
    | (.error e, store) => (.refused (.property e), { state with store })
    | (.ok (), store) =>
      runStages solver (decide (traceVerbosity < args.verbosity))
        (state.tray.outletGuess? store) Stage.all [] { state with store }

end Tray

end Distillation
