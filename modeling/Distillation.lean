import Distillation.Action
import Distillation.Decimal.Compact
import Distillation.Decimal.Significant
import Distillation.Equation.Family
import Distillation.Equation.Model
import Distillation.Expr.Basic
import Distillation.Expr.Eval
import Distillation.Expr.Text
import Distillation.Expr.Variables
import Distillation.IndexSets
import Distillation.Linear.Elimination
import Distillation.NameMap
import Distillation.Newton.Jacobian
import Distillation.Newton.Outcome
import Distillation.Newton.Solver
import Distillation.Port.Basic
import Distillation.Port.Connection
import Distillation.Property.Ideal
import Distillation.Property.Quantity
import Distillation.Property.State
import Distillation.Scalar
import Distillation.Store
import Distillation.Tray.Balance
import Distillation.Tray.Basic
import Distillation.Tray.Build
import Distillation.Tray.MemberKind
import Distillation.Tray.Split
import Distillation.Tray.Startup
import Distillation.Proofs.Expr.Rate
import Distillation.Proofs.Expr.Affine
import Distillation.Proofs.Action
import Distillation.Proofs.Linear.Regular
import Distillation.Proofs.Newton.Step
import Distillation.Proofs.Newton.Convergence
import Distillation.Proofs.Store.Growth
import Distillation.Proofs.Property.IdealState
import Distillation.Proofs.Tray.Anatomy
import Distillation.Proofs.Store.Flags
import Distillation.Proofs.Tray.Guesses
import Distillation.Proofs.Tray.Protocol
import Distillation.Proofs.Property.IdealFlows
import Distillation.Proofs.Tray.Equations
import Distillation.Proofs.Tray.Square
import Distillation.Proofs.Tray.Residuals
import Distillation.Proofs.Tray.Convergence
import Distillation.Proofs.Tray.Ports
import Distillation.Proofs.Property.Members
import Distillation.Proofs.Tray.MassConservation
import Distillation.Proofs.Store.Values
import Distillation.Proofs.Newton.Frame
import Distillation.Proofs.Newton.Recurrence
import Distillation.Proofs.Newton.Rollback
import Distillation.Proofs.Tray.EnergyConservation
import Distillation.Proofs.Newton.Success
import Distillation.Proofs.Tray.Solution
import Distillation.Proofs.Tray.SideDraws
import Distillation.Proofs.Expr.Derivative
import Distillation.Proofs.Newton.Partials
import Distillation.Proofs.Newton.Engines
import Distillation.Proofs.Tray.Engines
import Distillation.Proofs.Store.Agreement
import Distillation.Proofs.Newton.Locality
import Distillation.Proofs.Tray.Footprint
import Distillation.Proofs.Tray.Locality
import Distillation.Proofs.Tray.Flowsheet
import Distillation.Proofs.Tray.SplitFractions
import Distillation.Proofs.Port.Connection
import Distillation.Proofs.Tray.Connections
import Distillation.Proofs.Tray.Freedom
import Distillation.Proofs.Expr.Meaning
import Distillation.Proofs.Tray.PortChecks
import Distillation.Proofs.Tray.OutletPorts
import Distillation.Proofs.Tray.BuildOutcome
import Distillation.Proofs.Tray.References
import Distillation.Proofs.Port.Meaning
import Distillation.Proofs.Tray.MemberNames
import Distillation.Proofs.Newton.Affine
import Distillation.Proofs.Tray.UniqueSolution
import Distillation.Proofs.Newton.Differences
import Distillation.Proofs.Newton.Repetition
import Distillation.Proofs.ExactArithmetic
import Distillation.Proofs.Linear.Definite
import Distillation.Proofs.Newton.Reordering
import Distillation.Proofs.Property.PhaseSplit
import Distillation.Proofs.Tray.TwoPhases
import Distillation.Proofs.Tray.Balances
import Distillation.Proofs.Property.Guesses
import Distillation.Proofs.Tray.Rejection
import Distillation.Proofs.Expr.Normal
import Distillation.Proofs.Property.IdealTerms
import Distillation.Proofs.Tray.NormalForm
import Distillation.Proofs.MachineFloat
import Distillation.Proofs.Expr.Algebra
import Distillation.Proofs.Equation.Unknowns
import Distillation.Proofs.Tray.KeptExpressions
import Distillation.Proofs.OrderedNumbers
import Distillation.Proofs.MachineOrder
import Distillation.Proofs.Equation.LargestResidual
import Distillation.Proofs.Port.Indices
import Distillation.Proofs.Tray.PassThrough
import Distillation.Proofs.Tray.InletPorts
import Distillation.Proofs.Tray.Numbering
import Distillation.Proofs.Cancellation
import Distillation.Proofs.Expr.Dependence
import Distillation.Proofs.Newton.Sparsity
import Distillation.Proofs.Decimal.Interval
import Distillation.Proofs.Decimal.Shortest
import Distillation.Proofs.Decimal.Positional
import Distillation.Proofs.Decimal.Double
import Distillation.Proofs.Expr.Reading
import Distillation.Proofs.Expr.Text
