import SeedGraph.Code
import SeedGraph.Effect
import SeedGraph.Json

/-!
# Seeds

A seed is a node of the graph from which code is generated: what it depends on, how it may be
emitted, what it compiled to, and the *hook* that compiles it.  The graph never looks inside a
hook, so its type is a parameter `κ`; in particular `Seed Unit` is a seed with its hook forgotten.

A seed is described by a *blueprint*, which holds no more than what its author decides: a seed built
from a blueprint has no referents, no local, and edges with distinct keys.

A *placeholder* carries a type tag and nothing else.  It can stand where a seed is expected
outside of the graph, and a *candidate* is one of the two; every operation of the graph refuses a
placeholder by name.

## Main definitions

* `Seed κ`, with the single-assignment `Seed.assignId` and the write-once `Seed.writeResult`.
* `Blueprint κ`, `Blueprint.build`: descriptions of seeds, and the seeds that they describe.
* `Placeholder`, `Candidate σ`: what may be offered for registration.
-/

namespace SeedGraph

/-- A node of the graph, compiled by a hook of type `κ`. -/
structure Seed (κ : Type) where
  /-- The identifier, from registration on. -/
  id : Option SeedId := none
  /-- A description of the kind of node, shown in diagnostics. -/
  kind : String
  /-- How far the moment of evaluation matters. -/
  mode : Mode := .pure
  /-- The role of the seed at the edge of a region. -/
  boundary : Boundary := .ordinary
  /-- An explicit wish to be bound to a local, or not to be. -/
  bindingWish : Option Bool := none
  /-- The result. -/
  slot : Slot := .unset
  /-- The edges to the seeds that it depends on. -/
  dependencies : Dependencies := .empty
  /-- The edges that lead to it, once the graph is complete. -/
  referents : List Referent := []
  /-- Data for the hook. -/
  payload : Option Json := none
  /-- What compiles the seed. -/
  hook : κ

namespace Seed

variable {κ : Type}

/-- The identifier under which an error reports the seed. -/
def reportedId (seed : Seed κ) : SeedId :=
  seed.id.getD .undefined

/-- Give a seed its identifier, which it keeps for good. -/
def assignId (seed : Seed κ) (id : SeedId) : Except Error (Seed κ) :=
  match seed.id with
  | some existing => .error (.alreadyRegistered existing)
  | none => .ok { seed with id := some id }

/-- The result that consumers see. -/
def result (seed : Seed κ) : Except Error Compiled :=
  match seed.slot.current with
  | some value => .ok value
  | none => .error (.missingResult seed.reportedId)

/-- Give a seed its result. -/
def writeResult (seed : Seed κ) (value : Compiled) : Except Error (Seed κ) :=
  (seed.slot.write seed.reportedId value).map fun slot => { seed with slot }

/-- The seed without its hook. -/
def forgetHook (seed : Seed κ) : Seed Unit :=
  { seed with hook := () }

end Seed

/-- The description of a seed that is yet to be registered. -/
structure Blueprint (κ : Type) where
  /-- A description of the kind of node. -/
  kind : String
  /-- How far the moment of evaluation matters. -/
  mode : Mode := .pure
  /-- The role of the seed at the edge of a region. -/
  boundary : Boundary := .ordinary
  /-- An explicit wish to be bound to a local, or not to be. -/
  bindingWish : Option Bool := none
  /-- The edges to add, in order; a later edge replaces an earlier one with the same key. -/
  edges : List Edge := []
  /-- Data for the hook. -/
  payload : Option Json := none
  /-- A result that is known beforehand. -/
  preset : Option Compiled := none
  /-- An identifier given by the author; a seed that has one cannot be registered. -/
  id : Option SeedId := none
  /-- What compiles the seed. -/
  hook : κ

/-- The seed that a blueprint describes. -/
def Blueprint.build {κ : Type} (blueprint : Blueprint κ) : Seed κ where
  id := blueprint.id
  kind := blueprint.kind
  mode := blueprint.mode
  boundary := blueprint.boundary
  bindingWish := blueprint.bindingWish
  slot := (blueprint.preset.map Slot.set).getD .unset
  dependencies := .ofEdges blueprint.edges
  payload := blueprint.payload
  hook := blueprint.hook

/-- A type tag in place of a seed. -/
structure Placeholder where
  /-- The type that the placeholder stands for. -/
  typeTag : String
  deriving DecidableEq, Repr

/-- What may be offered to a session: a seed, or a placeholder that will be refused.  The seed is of
type `σ`, which is a type of seeds or of blueprints. -/
inductive Candidate (σ : Type) where
  | seed (node : σ)
  | placeholder (tagged : Placeholder)

namespace Candidate

variable {σ τ κ : Type}

/-- Change the seed of a candidate that has one. -/
def map (f : σ → τ) : Candidate σ → Candidate τ
  | .seed node => .seed (f node)
  | .placeholder tagged => .placeholder tagged

/-- The type tag of a placeholder. -/
def typeTag? : Candidate σ → Option String
  | .seed _ => none
  | .placeholder tagged => some tagged.typeTag

/-- The seed on which `operation` is to act; a placeholder refuses it. -/
def seedFor (operation : Operation) : Candidate σ → Except Error σ
  | .seed node => .ok node
  | .placeholder _ => .error (.unsupported operation)

/-- The identifier, if one was assigned. -/
def id (candidate : Candidate (Seed κ)) : Except Error (Option SeedId) :=
  (candidate.seedFor .id).map Seed.id

/-- Assign an identifier. -/
def assignId (candidate : Candidate (Seed κ)) (id : SeedId) :
    Except Error (Candidate (Seed κ)) := do
  let node ← candidate.seedFor .assignId
  return .seed (← node.assignId id)

/-- The edges. -/
def dependencies (candidate : Candidate (Seed κ)) : Except Error Dependencies :=
  (candidate.seedFor .dependencies).map Seed.dependencies

/-- Add an edge, reporting the target that its key had before. -/
def addDependency (candidate : Candidate (Seed κ)) (key : Key) (target : SeedId) :
    Except Error (Option SeedId × Candidate (Seed κ)) := do
  let node ← candidate.seedFor .dependencies
  let (previous, dependencies) := node.dependencies.add key target
  return (previous, .seed { node with dependencies })

/-- The mode. -/
def mode (candidate : Candidate (Seed κ)) : Except Error Mode :=
  (candidate.seedFor .mode).map Seed.mode

/-- The boundary. -/
def boundary (candidate : Candidate (Seed κ)) : Except Error Boundary :=
  (candidate.seedFor .boundary).map Seed.boundary

/-- The wish about being bound. -/
def bindingWish (candidate : Candidate (Seed κ)) : Except Error (Option Bool) :=
  (candidate.seedFor .bindingOverride).map Seed.bindingWish

/-- The payload. -/
def payload (candidate : Candidate (Seed κ)) : Except Error (Option Json) :=
  (candidate.seedFor .payload).map Seed.payload

/-- Replace the payload. -/
def setPayload (candidate : Candidate (Seed κ)) (payload : Json) :
    Except Error (Candidate (Seed κ)) := do
  let node ← candidate.seedFor .setPayload
  return .seed { node with payload := some payload }

/-- The result that consumers see. -/
def result (candidate : Candidate (Seed κ)) : Except Error Compiled := do
  let node ← candidate.seedFor .compilationResult
  node.result

/-- Give the seed its result. -/
def writeResult (candidate : Candidate (Seed κ)) (value : Compiled) :
    Except Error (Candidate (Seed κ)) := do
  let node ← candidate.seedFor .setCompilationResult
  return .seed (← node.writeResult value)

/-- The seed that is to be registered and compiled. -/
def toSeed (candidate : Candidate (Seed κ)) : Except Error (Seed κ) :=
  candidate.seedFor .compile

end Candidate

end SeedGraph
