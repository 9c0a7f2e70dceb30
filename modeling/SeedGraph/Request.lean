import SeedGraph.Statement
import SeedGraph.Seed

/-!
# Requests and hooks

A session is driven by requests, and a hook, the program that compiles a seed, may make requests of
its own; a request in turn may register a seed together with its hook.  The two types are therefore
defined together.

## Main definitions

* `Request`: what a session can be asked.
* `Action`: one action of a hook.  A hook gathers text in a buffer of its own, looks at the seed
  that it compiles and at the results of its dependencies, sets the result, and invokes the
  continuation.
* `Hook`: a list of actions; the first that fails ends the hook.
-/

namespace SeedGraph

/-- Where a nested region starts. -/
inductive RegionStart where
  /-- At a given seed. -/
  | at (id : SeedId)
  /-- At the seed after the one being compiled. -/
  | afterSelf
  deriving DecidableEq, Repr

/-- The seed at which a region starts, as seen from the seed `self`. -/
def RegionStart.seen (self : SeedId) : RegionStart → SeedId
  | .at id => id
  | .afterSelf => self.next

/-- The result that ends a rendered program. -/
inductive FinalResult where
  /-- A given result, or none. -/
  | given (result : Option Compiled)
  /-- The result of the last successful generation. -/
  | latest
  deriving DecidableEq, Repr

mutual

/-- One action of a hook. -/
inductive Action where
  /-- Append a fixed text to the buffer. -/
  | text (s : String)
  /-- Empty the buffer. -/
  | clear
  /-- Append the identifier of the seed. -/
  | ownId
  /-- Append the mode and the boundary of the seed. -/
  | ownKind
  /-- Append the payload of the seed. -/
  | ownPayload
  /-- Append the identifier of the dependency under a key. -/
  | target (key : Key)
  /-- Append the displayed result of the dependency under a key. -/
  | input (key : Key)
  /-- Append the result of the dependency under a key, which has to be code. -/
  | inputCode (key : Key)
  /-- Make the buffer the result of the seed. -/
  | setResult
  /-- Make a seed the result of the seed. -/
  | setSeed (id : SeedId)
  /-- Make the dependency under a key, and not its result, the result of the seed. -/
  | leak (key : Key)
  /-- Invoke the continuation. -/
  | proceed
  /-- Generate a nested region and append its lines, joined by a separator. -/
  | region (start : RegionStart) (separator : String)
  /-- Make a request to the session. -/
  | request (asked : Request)
  /-- Carry out an action and survive its failure. -/
  | attempt (action : Action)
  /-- Fail for a stated reason. -/
  | fail (reason : String)

/-- What a session can be asked. -/
inductive Request where
  /-- Register a seed. -/
  | register (candidate : Candidate (Blueprint (List Action)))
  /-- Register a copy of a stored seed. -/
  | registerCopy (id : SeedId)
  /-- Add an edge. -/
  | addDependency (source : SeedId) (key : Key) (target : SeedId)
  /-- Add an ordering edge under a key of its own. -/
  | addOrdering (source target : SeedId)
  /-- Replace the payload of a seed. -/
  | setPayload (id : SeedId) (payload : Json)
  /-- The payload of a seed. -/
  | payload (id : SeedId)
  /-- Open a scope. -/
  | beginScope (anchor : SeedId) (depending : Bool)
  /-- Close the innermost scope. -/
  | endScope
  /-- The seed memoized under a key. -/
  | memo (key : String)
  /-- Memoize a seed under a key. -/
  | memoize (key : String) (id : SeedId)
  /-- Make the open depending anchors wait for a seed. -/
  | propagateOrdering (id : SeedId)
  /-- Declare the graph complete. -/
  | finalize
  /-- How many edges lead to a seed. -/
  | referentCount (id : SeedId)
  /-- The edges that lead to a seed. -/
  | referents (id : SeedId)
  /-- What the binding policy says about a seed. -/
  | shouldBind (id : SeedId)
  /-- Move the result of a seed to a local. -/
  | bind (id : SeedId)
  /-- Put a result aside. -/
  | setOutput (output : Compiled)
  /-- The result put aside. -/
  | output
  /-- Generate the whole program. -/
  | generate
  /-- Generate from a seed on, with an initial result. -/
  | generateFrom (initial : Option Compiled) (start : SeedId)
  /-- Generate a nested region. -/
  | generateRegion (start : SeedId)
  /-- The lines of the program. -/
  | render (result : FinalResult)
  /-- The lines of a region. -/
  | renderRegion (region : Region)
  /-- A stored seed. -/
  | seed (id : SeedId)
  /-- The result of a seed. -/
  | result (id : SeedId)
  /-- The identifiers of all seeds. -/
  | seeds
  /-- All locals. -/
  | bindings
  /-- The local of a seed. -/
  | bindingFor (id : SeedId)
  /-- The report of the session. -/
  | report
  /-- The report as text. -/
  | dump
  /-- The dependency graph as DOT text. -/
  | dot
  /-- The dependency graph. -/
  | graph
  /-- How the platform writes a local. -/
  | writeLocal (name value : String)
  /-- The settings. -/
  | settings

end

/-- The program that compiles a seed. -/
abbrev Hook := List Action

end SeedGraph
