import Distillation.Linear.Elimination
import Distillation.Newton.Jacobian

namespace Distillation.Newton

inductive Engine where
  /-- Forward differences. -/
  | differences
  /-- Dual numbers. -/
  | exact
  deriving DecidableEq, Repr

structure Config (K : Type) where
  /-- On the norm of the residuals. -/
  tolerance : K
  maxIterations : Nat
  /-- The part of each step that is taken. -/
  damping : K
  /-- Relative, for forward differences. -/
  differenceStep : K

/-- Finds the solution of a square system, given the rows of its matrix and its right-hand side. -/
abbrev LinearSolver (K : Type) := List (List K) → List K → Option (List K)

variable {K : Type} [Scalar K]

def Config.standard : Config K :=
  { tolerance := 1e-6, maxIterations := 100, damping := 1.0, differenceStep := 1e-8 }

/-- The norm beyond which an iteration counts as diverged, once it had time to settle. -/
def divergenceBound : K := 1e10

/-- The last iteration in which a large norm is tolerated. -/
def settlingIterations : Nat := 10

def jacobian (engine : Engine) (config : Config K) (cs : List (Constraint K))
    (unknowns : List VarId) (base : List K) : Action K SolverError (List (List K)) :=
  match engine with
  | .differences => differenceJacobian cs unknowns config.differenceStep base
  | .exact => fun s => (.ok (exactJacobian cs unknowns s), s)

/-- Moves each unknown along its step. -/
def advance (damping : K) (s : Store K) (steps : List (VarId × K)) : Store K :=
  steps.foldl (fun s (v, d) => s.set v (s.value v + damping * d)) s

/-- The end of a run: its result, what was counted, and the store. -/
structure Run (K : Type) where
  result : Except SolverError Unit
  stats : SolverStats K
  store : Store K

/-- Iterates, with a number of iterations left and `k` done. -/
def iterate (engine : Engine) (linear : LinearSolver K) (config : Config K)
    (cs : List (Constraint K)) (unknowns : List VarId) :
    Nat → Nat → SolverStats K → Store K → Run K
  | 0, _, stats, s => ⟨.error .maxIterationsExceeded, stats, s⟩
  | left + 1, k, before, s =>
    let started := { before with iterations := k + 1 }
    match residuals cs s with
    | .error e => ⟨.error e, started, s⟩
    | .ok base =>
      let norm := Scalar.norm base
      let evaluated :=
        { started with functionEvals := before.functionEvals + 1, finalResidual := norm }
      if Scalar.lt norm config.tolerance then ⟨.ok (), evaluated, s⟩
      else if settlingIterations < k && Scalar.lt divergenceBound norm then
        ⟨.error .diverged, evaluated, s⟩
      else
        match (jacobian engine config cs unknowns base).on s with
        | (.error e, t) => ⟨.error e, evaluated, t⟩
        | (.ok matrix, t) =>
          let differentiated := { evaluated with jacobianEvals := before.jacobianEvals + 1 }
          match linear matrix (base.map (-·)) with
          | none => ⟨.error .singularJacobian, differentiated, t⟩
          | some steps =>
            iterate engine linear config cs unknowns left (k + 1) differentiated
              (advance config.damping t (unknowns.zip steps))

/-- Solves and says what went wrong. A system that is not square is left alone. -/
def run (engine : Engine) (linear : LinearSolver K) (config : Config K) (model : Model K)
    (s : Store K) : Run K :=
  let cs := model.equations
  let unknowns := model.unknowns s
  if cs.length = unknowns.length then
    iterate engine linear config cs unknowns config.maxIterations 0 .initial s
  else
    ⟨.error (.unbalanced cs.length unknowns.length), .initial, s⟩

/-- Solves and puts the starting values back after a failure other than the iteration limit. -/
def solve (engine : Engine) (linear : LinearSolver K) (config : Config K) (model : Model K)
    (s : Store K) : SolverOutcome K × Store K :=
  let ended := run engine linear config model s
  match ended.result with
  | .ok () => (⟨.optimal, ended.stats⟩, ended.store)
  | .error e =>
    let kept := if e = .maxIterationsExceeded then ended.store
      else ended.store.setValues s.values
    (⟨e.termination, ended.stats⟩, kept)

/-- Whether a solve is defined: the store knows every variable of the equations, and elimination
is never asked for the solution of an empty system. -/
def admits (config : Config K) (model : Model K) (s : Store K) : Bool :=
  model.inScope s &&
    (!(model.equations.isEmpty && (model.unknowns s).isEmpty) ||
      Scalar.lt 0 config.tolerance || config.maxIterations == 0)

/-- The iteration as a solver without memory. -/
def solverWith (engine : Engine) (linear : LinearSolver K) (config : Config K) : Solver Unit K where
  solve model _ state :=
    if admits config model state.2 then
      let (outcome, s) := solve engine linear config model state.2
      (some outcome, (), s)
    else
      (none, state)

/-- The iteration with elimination. -/
def solver (engine : Engine) (config : Config K) : Solver Unit K :=
  solverWith engine Linear.solve config

end Distillation.Newton
