import Distillation.Equation.Model

namespace Distillation

inductive SolverError where
  | maxIterationsExceeded
  | singularJacobian
  | diverged
  /-- A residual is infinite or not a number. -/
  | nonFiniteResidual (equation : String)
  /-- There are not as many equations as unknowns. -/
  | unbalanced (equations unknowns : Nat)
  deriving DecidableEq, Repr

def SolverError.message : SolverError → String
  | maxIterationsExceeded => "Maximum iterations exceeded"
  | singularJacobian => "Singular Jacobian matrix"
  | diverged => "Solution diverged"
  | nonFiniteResidual equation => s!"Non-finite residual in constraint '{equation}'"
  | unbalanced equations unknowns =>
    s!"System is not square: {equations} equations, {unknowns} free variables"

/-- How a solve ended. -/
inductive Termination where
  | optimal
  | maxIterations
  | infeasible
  | singular
  | unbalanced
  deriving DecidableEq, Repr

namespace Termination

def isOptimal (condition : Termination) : Bool :=
  condition == optimal

def text : Termination → String
  | optimal => "optimal"
  | maxIterations => "maxIterations"
  | infeasible => "infeasible"
  | singular => "singular"
  | unbalanced => "unbalanced"

def ofText? (text : String) : Option Termination :=
  [optimal, maxIterations, infeasible, singular, unbalanced].find? (·.text == text)

end Termination

/-- Divergence and residuals that are not finite both mean that no feasible point was found. -/
def SolverError.termination : SolverError → Termination
  | maxIterationsExceeded => .maxIterations
  | singularJacobian => .singular
  | diverged => .infeasible
  | nonFiniteResidual _ => .infeasible
  | unbalanced _ _ => .unbalanced

structure SolverStats (K : Type) where
  iterations : Nat
  functionEvals : Nat
  jacobianEvals : Nat
  /-- The norm of the residuals when they were last evaluated. -/
  finalResidual : K

/-- Before anything was done. -/
def SolverStats.initial {K : Type} [Zero K] : SolverStats K :=
  ⟨0, 0, 0, 0⟩

structure SolverOutcome (K : Type) where
  termination : Termination
  stats : SolverStats K

/-- A solver with a memory of its own. It is shown a model and may change the store; it may also
break off without an outcome. -/
structure Solver (σ K : Type) where
  /-- The flag asks for a trace of the iterations. -/
  solve : Model K → Bool → σ × Store K → Option (SolverOutcome K) × σ × Store K

end Distillation
