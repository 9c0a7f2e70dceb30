import SeedGraph.Generator
import SeedGraph.Graph.Cycle

/-!
# Completing the graph

`finalize` declares the graph complete.  Every edge has to lead to a stored seed and, unless the
settings say otherwise, there must be no cycle.  Then each edge is recorded at its target, and from
there on the number of referents of a seed is known.

## Main definitions

* `Store.firstDangling?`: the first edge to a seed that is not stored.
* `Generator.finalize`, `Generator.referentCount`.
-/

namespace SeedGraph

namespace Store

variable {κ : Type}

/-- All edges, as pairs of the seed that owns the edge and its target: in the order of the seeds,
and for each seed in the order of its edges. -/
def edgeEnds (store : Store κ) : List (SeedId × SeedId) :=
  store.entries.flatMap fun (id, seed) => seed.dependencies.edges.map fun edge => (id, edge.target)

/-- The first edge whose target is not stored. -/
def firstDangling? (store : Store κ) : Option (SeedId × SeedId) :=
  store.edgeEnds.find? fun ends => !store.contains ends.2

/-- What all edges mean for their targets, in the same order. -/
def referentEntries (store : Store κ) : List (SeedId × Referent) :=
  store.entries.flatMap fun (id, seed) => seed.dependencies.referentEntries id

end Store

namespace Generator

variable {κ : Type}

/-- Every edge has to lead to a stored seed. -/
def requireTargets : GenM κ Unit := do
  match (← get).store.firstDangling? with
  | none => pure ()
  | some (source, target) => throw (.danglingDependency source target)

/-- A seed on a cycle, if there is one and the settings do not allow it. -/
def forbiddenCycle? (gen : Generator κ) : Option SeedId :=
  if gen.settings.checkCycles then gen.store.dependencyGraph.cycleVertex? else none

/-- There must be no cycle, unless the settings allow it. -/
def requireAcyclic : GenM κ Unit := do
  match (← get).forbiddenCycle? with
  | none => pure ()
  | some id => throw (.cyclicDependency id)

/-- Note at a stored seed that an edge leads to it. -/
def recordReferent (target : SeedId) (referent : Referent) : GenM κ Unit := do
  let seed ← lookup target
  replace target { seed with referents := seed.referents ++ [referent] }

/-- Note each of a list of edges at its target. -/
def recordReferents (entries : List (SeedId × Referent)) : GenM κ Unit :=
  entries.forM fun (target, referent) => recordReferent target referent

/-- Declare the graph complete and record every edge at its target.  A missing target is reported
before a cycle. -/
def finalize : GenM κ Unit := do
  requireOpen
  requireTargets
  requireAcyclic
  recordReferents (← get).store.referentEntries
  modify fun gen => { gen with finalized := true }

/-- How many edges lead to a seed. -/
def referentCount (id : SeedId) : GenM κ Nat := do
  requireFinalized
  return (← lookup id).referents.length

end Generator

end SeedGraph
