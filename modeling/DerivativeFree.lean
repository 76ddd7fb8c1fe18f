import DerivativeFree.Benchmark.Nonlinear
import DerivativeFree.Benchmark.Quadratic
import DerivativeFree.Interpolation.LinearModel
import DerivativeFree.Interpolation.Penalty
import DerivativeFree.Interpolation.Pole
import DerivativeFree.Interpolation.Replacement
import DerivativeFree.Interpolation.Shape
import DerivativeFree.Interpolation.Simplex
import DerivativeFree.Linear.Norm
import DerivativeFree.Linear.Vector
import DerivativeFree.Minimize
import DerivativeFree.Problem.Basic
import DerivativeFree.Problem.Box
import DerivativeFree.Problem.Evaluator
import DerivativeFree.Problem.Record
import DerivativeFree.Problem.Sample
import DerivativeFree.Scalar
import DerivativeFree.Search.Answer
import DerivativeFree.Search.Basic
import DerivativeFree.Search.Event
import DerivativeFree.Search.Iteration
import DerivativeFree.Search.Next
import DerivativeFree.Search.Options
import DerivativeFree.Session
import DerivativeFree.TrustRegion.ActiveSet
import DerivativeFree.TrustRegion.Solve
import DerivativeFree.TrustRegion.Turn
import DerivativeFree.TrustRegion.Workspace
import DerivativeFree.Proofs.Exact.Field
import DerivativeFree.Proofs.Exact.Rounding
import DerivativeFree.Proofs.Exact.Vector
import DerivativeFree.Proofs.Interpolation.Inverse
import DerivativeFree.Proofs.Interpolation.Pivot
import DerivativeFree.Proofs.Interpolation.Pole
import DerivativeFree.Proofs.Interpolation.LinearModel
import DerivativeFree.Proofs.Interpolation.Vertices
import DerivativeFree.Proofs.Linear.Agreement
import DerivativeFree.Proofs.Linear.Checked
import DerivativeFree.Proofs.Linear.Fold
import DerivativeFree.Proofs.Search.Best
import DerivativeFree.Proofs.Search.Inverse
import DerivativeFree.Proofs.Search.Moves
import DerivativeFree.Proofs.Search.Reached
import DerivativeFree.Proofs.Search.Samples
import DerivativeFree.Proofs.TrustRegion.Level
import DerivativeFree.Proofs.Interpolation.Level
import DerivativeFree.Proofs.Interpolation.Motion
import DerivativeFree.Proofs.Search.Level
import DerivativeFree.Proofs.TrustRegion.Stages
import DerivativeFree.Proofs.TrustRegion.Checked
import DerivativeFree.Proofs.TrustRegion.Step
import DerivativeFree.Proofs.Search.Calls
import DerivativeFree.Proofs.Search.Observers
import DerivativeFree.Proofs.Interpolation.Penalty
import DerivativeFree.Proofs.Interpolation.Rivals
import DerivativeFree.Proofs.Search.Effort
import DerivativeFree.Proofs.Search.Termination
import DerivativeFree.Proofs.Search.Resume
import DerivativeFree.Proofs.Search.Radius
import DerivativeFree.Proofs.TrustRegion.Reuse
import DerivativeFree.Proofs.Machine.Nan
import DerivativeFree.Proofs.Machine.Order
import DerivativeFree.Proofs.TrustRegion.Patience
import DerivativeFree.Proofs.TrustRegion.IdleTurns
import DerivativeFree.Proofs.Search.Nan
import DerivativeFree.Proofs.Search.Course
import DerivativeFree.Proofs.Search.Lockstep
import DerivativeFree.Proofs.Search.Renewal
import DerivativeFree.Proofs.Search.Truncation
import DerivativeFree.Proofs.Search.Recast
import DerivativeFree.Proofs.Search.Bounds
import DerivativeFree.Proofs.Search.Translation
import DerivativeFree.Proofs.Search.Report
import DerivativeFree.Proofs.TrustRegion.Basis
import DerivativeFree.Proofs.TrustRegion.Factored
import DerivativeFree.Proofs.TrustRegion.FirstStage
import DerivativeFree.Proofs.TrustRegion.Boundary
import DerivativeFree.Proofs.Search.Trial
import DerivativeFree.Proofs.Search.Merit
import DerivativeFree.Proofs.Search.Failure
import DerivativeFree.Proofs.Search.Ways
import DerivativeFree.Proofs.TrustRegion.Positions
import DerivativeFree.Proofs.TrustRegion.Guarded
import DerivativeFree.Proofs.TrustRegion.Combination
import DerivativeFree.Proofs.TrustRegion.Descent
import DerivativeFree.Proofs.TrustRegion.Balanced
import DerivativeFree.Proofs.TrustRegion.Settled
import DerivativeFree.Proofs.TrustRegion.LeastViolation
import DerivativeFree.Proofs.TrustRegion.Violation
import DerivativeFree.Proofs.TrustRegion.Length
import DerivativeFree.Proofs.TrustRegion.Factorization
import DerivativeFree.Proofs.Search.Promise
import DerivativeFree.Proofs.Machine.Comparison
import DerivativeFree.Proofs.Interpolation.Preference
import DerivativeFree.Proofs.Search.Penalty
import DerivativeFree.Proofs.Interpolation.Heights
import DerivativeFree.Proofs.Search.Heights
import DerivativeFree.Proofs.TrustRegion.Objective
import DerivativeFree.Proofs.Machine.Value
import DerivativeFree.Proofs.Machine.Difference
import DerivativeFree.Proofs.Problem.Projection
import DerivativeFree.Proofs.Benchmark.Optima
import DerivativeFree.Proofs.Search.Evaluation
