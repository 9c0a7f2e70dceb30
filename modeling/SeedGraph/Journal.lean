import SeedGraph.Graph
import SeedGraph.Report
import SeedGraph.Statement

/-!
# Answers and the journal

Each request to a session is answered by a value, or fails.  Beside its answers a session keeps a
journal: how the graph and its scopes grew, when each traversal, each region and each hook began and
ended, when a seed got its result, when a continuation was invoked, which failures a hook survived
and what it was answered, and which results were accepted.  The journal only ever grows, so it is
the history of the session that its state can be compared with.

## Main definitions

* `Answer`: the values with which requests are answered.
* `Event`: the entries of the journal.
-/

namespace SeedGraph

/-- The answer to a request that succeeded. -/
inductive Answer where
  /-- Nothing to report. -/
  | done
  /-- The identifier of a seed. -/
  | id (id : SeedId)
  /-- The seed known under a memo key, if any. -/
  | memo (id : Option SeedId)
  /-- The key of an edge. -/
  | key (key : Key)
  /-- The payload of a seed, if it has one. -/
  | payload (payload : Option Json)
  /-- The anchor of a scope that ended, and the greatest mode registered in it. -/
  | scopeEnded (anchor : SeedId) (mode : Mode)
  /-- A number of edges. -/
  | count (count : Nat)
  /-- The edges that lead to a seed. -/
  | referents (referents : List Referent)
  /-- What the binding policy says. -/
  | decision (bind : Bool)
  /-- A result, if there is one. -/
  | result (result : Option Compiled)
  /-- A region and its lines. -/
  | region (region : Region) (lines : List String)
  /-- Lines of a program. -/
  | lines (lines : List String)
  /-- All that is stored about a seed, apart from its hook. -/
  | seed (seed : Seed Unit)
  /-- The stored indices, each with the identifier that the seed there carries. -/
  | stored (ids : List (SeedId × Option SeedId))
  /-- Locals. -/
  | bindings (bindings : List Binding)
  /-- The local of a seed, if it has one. -/
  | binding (binding : Option Binding)
  /-- A report. -/
  | report (report : Report)
  /-- A text. -/
  | text (text : String)
  /-- A dependency graph. -/
  | graph (graph : DependencyGraph)
  /-- How a local is mentioned and declared. -/
  | rendering (reference declaration : String)
  /-- The settings. -/
  | settings (settings : Settings)

/-- An entry of the journal. -/
inductive Event where
  /-- A seed was registered. -/
  | registered (id : SeedId) (mode : Mode)
  /-- A seed was memoized in the innermost scope. -/
  | memoized (key : String) (id : SeedId)
  /-- A scope was opened. -/
  | scopeOpened (anchor : SeedId) (depending : Bool)
  /-- The innermost scope was closed. -/
  | scopeClosed
  /-- The hook of a seed was entered. -/
  | entered (id : SeedId)
  /-- The hook of a seed ended, with the failure if it failed. -/
  | left (id : SeedId) (failure : Option Error)
  /-- The hook of a seed survived a failure. -/
  | caught (id : SeedId) (failure : Error)
  /-- The hook of a seed made a request that was answered. -/
  | answered (id : SeedId) (answer : Answer)
  /-- A seed got its result: from its hook, or beforehand if it came with one. -/
  | resulted (id : SeedId)
  /-- The hook of a seed invoked the continuation. -/
  | continued (id : SeedId)
  /-- A traversal accepted what the hook of a seed did. -/
  | accepted (id : SeedId)
  /-- A traversal began. -/
  | traversalBegan
  /-- The innermost traversal ended, with the failure if it failed. -/
  | traversalEnded (failure : Option Error)
  /-- The generation of a nested region began. -/
  | regionOpened
  /-- The generation of a nested region ended, with the region unless it failed. -/
  | regionClosed (region : Option Region)

/-- Is the event an act of a hook, as opposed to an act of the session around it? -/
def Event.isHookEvent : Event → Bool
  | .entered _ | .left .. | .caught .. | .answered .. => true
  | .registered .. | .memoized .. | .scopeOpened .. | .scopeClosed | .resulted _ | .continued _
  | .accepted _ | .traversalBegan | .traversalEnded _ | .regionOpened | .regionClosed _ => false

end SeedGraph
