import SeedGraph.Journal

/-!
# Generators

A generator is the state of one generation session: the stored seeds, the scopes that are open while
they are registered, and all that compiling them has produced so far.

## Main definitions

* `Context`, `Scope`: what belongs to the innermost open scope, and what is kept of an open one.
* `Generator κ`: the state, over hooks of type `κ`.
* `GenM κ`: operations on it.  A failing operation stops where it is: what it did before it failed
  stays done.
* `Generator.create`, `Generator.register`, and the operations that add edges.

## Design

The context of the innermost scope stands in the generator itself, and each open scope holds the
context of the scope around it.  Opening and closing a scope are then mutually inverse moves of one
stack, and the outermost level needs no scope of its own.
-/

namespace SeedGraph

/-- What is remembered of one scope: memoized seeds, newest first, and the greatest mode of the
seeds registered in it. -/
structure Context where
  /-- Memoized seeds; of several entries for a key the first counts. -/
  memo : List (String × SeedId) := []
  /-- The greatest mode registered. -/
  maxMode : Mode := .pure
  deriving DecidableEq, Repr

/-- An open scope. -/
structure Scope where
  /-- The seed at which the scope was opened. -/
  anchor : SeedId
  /-- Does the anchor have to come after seeds that are registered late? -/
  depending : Bool
  /-- The context of the scope around it. -/
  enclosing : Context
  deriving DecidableEq, Repr

/-- The state of a generation session. -/
structure Generator (κ : Type) where
  /-- The settings of the session. -/
  settings : Settings
  /-- How locals are written. -/
  platform : Platform
  /-- The seeds. -/
  store : Store κ
  /-- The context of the innermost open scope. -/
  context : Context := {}
  /-- The open scopes, innermost first. -/
  scopes : List Scope := []
  /-- Is the graph complete? -/
  finalized : Bool := false
  /-- The locals allocated so far. -/
  locals : Locals
  /-- The statements emitted so far, in order of emission. -/
  emissions : List Emission := []
  /-- How many nested regions are being generated. -/
  regionDepth : Nat := 0
  /-- The seeds whose hooks are running, innermost first. -/
  running : List SeedId := []
  /-- A result put aside by the user of the session. -/
  output : Option Compiled := none
  /-- The result of the last successful generation. -/
  latest : Option Compiled := none
  /-- The history of the session, in order. -/
  journal : List Event := []

/-- Operations on a generator. -/
abbrev GenM (κ : Type) := EStateM Error (Generator κ)

/-- Fail unless a condition holds. -/
def require {σ : Type} (condition : Prop) [Decidable condition] (failure : Error) :
    EStateM Error σ Unit :=
  if condition then pure () else throw failure

namespace Generator

variable {κ : Type}

/-! ### Views -/

/-- The least stored index. -/
def lower (gen : Generator κ) : Int := gen.store.lower

/-- The index of the seed that would be registered next. -/
def upper (gen : Generator κ) : Int := gen.store.upper

/-- The greatest mode registered in the innermost open scope. -/
def maxMode (gen : Generator κ) : Mode := gen.context.maxMode

/-- The anchor of the innermost open scope. -/
def currentScope? (gen : Generator κ) : Option SeedId :=
  gen.scopes.head?.map Scope.anchor

/-- The anchors of the open scopes that are depending, outermost first. -/
def dependingScopes (gen : Generator κ) : List SeedId :=
  ((gen.scopes.filter Scope.depending).map Scope.anchor).reverse

/-- The lines of the program so far, followed by `result`: the statements of nested regions are left
to the seeds that generated them. -/
def render (gen : Generator κ) (result : Option Compiled) : List String :=
  gen.platform.lines ((gen.emissions.filter fun e => e.depth = 0).map Emission.statement) result

/-- The lines of a region. -/
def renderRegion (gen : Generator κ) (region : Region) : List String :=
  gen.platform.lines region.statements region.result

/-! ### Construction -/

/-- What the journal says of a stored seed that comes with a result. -/
def givenResult (id : SeedId) (seed : Seed κ) : List Event :=
  if seed.slot.isSet then [.resulted id] else []

/-- A session that holds the given seeds as pre-existing ones. -/
def ofStore (settings : Settings) (platform : Platform) (store : Store κ) : Generator κ :=
  { settings, platform, store
    locals := { stem := settings.stem }
    journal := store.entries.flatMap fun (id, seed) => givenResult id seed }

/-- A session without seeds.  The settings have to be usable. -/
def create (settings : Settings) : Except Error (Generator κ) := do
  let platform ← settings.check
  return ofStore settings platform (.ofPreexisting [])

/-- A session over pre-existing seeds: of `n` of them the first gets the index `-n` and the last
`-1`.  Placeholders are refused before identifiers are assigned. -/
def createWith (settings : Settings) (candidates : List (Candidate (Seed κ))) :
    Except Error (Generator κ) := do
  let platform ← settings.check
  let seeds ← candidates.mapM Candidate.toSeed
  let numbered ← seeds.zipIdx.mapM fun (seed, k) => seed.assignId ⟨(k : Int) - seeds.length⟩
  return ofStore settings platform (.ofPreexisting numbered)

/-! ### Access to seeds -/

/-- The seed stored under `id`. -/
def lookup (id : SeedId) : GenM κ (Seed κ) := do
  match (← get).store.get? id with
  | some seed => return seed
  | none => throw (.seedNotFound id)

/-- The session with another seed stored under `id`. -/
def withSeed (gen : Generator κ) (id : SeedId) (seed : Seed κ) : Generator κ :=
  { gen with store := gen.store.set id seed }

/-- Replace the seed stored under `id`. -/
def replace (id : SeedId) (seed : Seed κ) : GenM κ Unit :=
  modify fun gen => gen.withSeed id seed

/-- The session after one more event. -/
def noted (gen : Generator κ) (event : Event) : Generator κ :=
  { gen with journal := gen.journal ++ [event] }

/-- Add an event to the journal. -/
def note (event : Event) : GenM κ Unit :=
  modify fun gen => gen.noted event

/-- The graph has to be incomplete. -/
def requireOpen : GenM κ Unit := do
  require ((← get).finalized = false) .alreadyFinalized

/-- The graph has to be complete. -/
def requireFinalized : GenM κ Unit := do
  require ((← get).finalized = true) .notFinalized

/-! ### Building the graph -/

/-- There has to be room for another registered seed. -/
def requireRoom : GenM κ Unit := do
  let gen ← get
  match gen.settings.limit with
  | none => pure ()
  | some limit => require (gen.store.registered < limit) (.seedLimit limit)

/-- Store a seed under the identifier `id` and count its mode towards the innermost scope. -/
def enroll (gen : Generator κ) (id : SeedId) (seed : Seed κ) : Generator κ :=
  { gen with
    store := gen.store.push seed
    context := { gen.context with maxMode := gen.context.maxMode.join seed.mode }
    journal := gen.journal ++ .registered id seed.mode :: givenResult id seed }

/-- Register a seed; its identifier is the old `upper`.  A complete graph, a placeholder, a seed
with an identifier and a full session are refused, in this order. -/
def register (candidate : Candidate (Seed κ)) : GenM κ SeedId := do
  requireOpen
  let seed ← MonadExcept.ofExcept candidate.toSeed
  let id : SeedId := ⟨(← get).upper⟩
  let seed ← MonadExcept.ofExcept (seed.assignId id)
  requireRoom
  modify fun gen => gen.enroll id seed
  return id

/-- Add an edge from `source` to `target`. -/
def addDependency (source : SeedId) (key : Key) (target : SeedId) : GenM κ Unit := do
  requireOpen
  let seed ← lookup source
  replace source { seed with dependencies := seed.dependencies.insert key target }

/-- Add an ordering edge to `target` to the stored seed `source`. -/
def insertOrdering (source target : SeedId) : GenM κ Key := do
  let seed ← lookup source
  let (key, dependencies) := seed.dependencies.addOrdering target
  replace source { seed with dependencies }
  return key

/-- Ask for `source` to be emitted after `target`. -/
def addOrdering (source target : SeedId) : GenM κ Key := do
  requireOpen
  insertOrdering source target

/-- Replace the payload of a seed. -/
def setPayload (id : SeedId) (payload : Json) : GenM κ Unit := do
  let seed ← lookup id
  replace id { seed with payload := some payload }

end Generator

end SeedGraph
