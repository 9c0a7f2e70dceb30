import SeedGraph.Id
import SeedGraph.Effect
import SeedGraph.Edge
import SeedGraph.Error
import SeedGraph.Code
import SeedGraph.Json
import SeedGraph.Settings
import SeedGraph.Locals
import SeedGraph.Seed
import SeedGraph.Store
import SeedGraph.Store.Word
import SeedGraph.Graph
import SeedGraph.Graph.Cycle
import SeedGraph.Graph.Dot
import SeedGraph.Statement
import SeedGraph.Report
import SeedGraph.Journal
import SeedGraph.Generator
import SeedGraph.Generator.Scope
import SeedGraph.Generator.Finalize
import SeedGraph.Generator.Binding
import SeedGraph.Generator.Report
import SeedGraph.Request
import SeedGraph.Generator.Region
import SeedGraph.Generator.Respond
import SeedGraph.Hook
import SeedGraph.Traversal
import SeedGraph.Session
import SeedGraph.Wire
import SeedGraph.Wire.Graph
import SeedGraph.Wire.Report
import SeedGraph.Proofs.Outcome
import SeedGraph.Proofs.Referents
import SeedGraph.Proofs.OrderingEdges
import SeedGraph.Proofs.Move
import SeedGraph.Proofs.Creation
import SeedGraph.Proofs.Orderly
import SeedGraph.Proofs.Runs
import SeedGraph.Proofs.Invocations
import SeedGraph.Proofs.ExactlyOnce
import SeedGraph.Proofs.Ledger
import SeedGraph.Proofs.Program.Printer
import SeedGraph.Proofs.Program.Repeats
import SeedGraph.Proofs.Program.Shows
import SeedGraph.Proofs.Program.Hooks
import SeedGraph.Proofs.Program.Walk
import SeedGraph.Proofs.Program.Registration
import SeedGraph.Proofs.Program.Generation
import SeedGraph.Proofs.Program.TrailingBlock
import SeedGraph.Proofs.Acceptance
import SeedGraph.Proofs.Frozen
import SeedGraph.Proofs.Inverse
import SeedGraph.Proofs.Tour
import SeedGraph.Proofs.Repetition
import SeedGraph.Proofs.ScopeEnd
import SeedGraph.Proofs.Turn
import SeedGraph.Proofs.Turn.Runs
import SeedGraph.Proofs.Policy
import SeedGraph.Proofs.Consumers
import SeedGraph.Proofs.EmissionOrder
import SeedGraph.Proofs.Leaks
import SeedGraph.Proofs.Slots
import SeedGraph.Proofs.Course
import SeedGraph.Proofs.Course.Runs
import SeedGraph.Proofs.Regions
import SeedGraph.Proofs.Failures
import SeedGraph.Proofs.OrderingKeys
import SeedGraph.Proofs.Propagation
import SeedGraph.Proofs.Words
import SeedGraph.Proofs.Indexing
import SeedGraph.Proofs.ScopeHistory
import SeedGraph.Proofs.Bookkeeping
import SeedGraph.Proofs.ResultLine
import SeedGraph.Proofs.RoundTrip
import SeedGraph.Proofs.Views
import SeedGraph.Proofs.Rebinding
import SeedGraph.Proofs.Termination
import SeedGraph.Proofs.Parallel
import SeedGraph.Proofs.EdgeOrder
