import SeedGraph.Store

/-!
# The dependency graph

The edges of all stored seeds, as one directed graph.  An arrow runs with the flow of code: from
the seed that is depended on to the seed that depends on it.  An edge to a seed that is not stored
has no arrow.  Arrows are listed seed by seed in ascending order, and for each seed in the order of
its edges; several edges between the same two seeds are several arrows.

## Main definitions

* `Arrow`, `DependencyGraph`: the graph.
* `Store.dependencyGraph`: the graph of the stored seeds.
* `DependencyGraph.successors`, `DependencyGraph.predecessors`: neighbours, oldest arrow first.
-/

namespace SeedGraph

/-- An edge of the graph: `target` depends on `source`. -/
structure Arrow where
  /-- The seed that is depended on. -/
  source : SeedId
  /-- The seed that depends. -/
  target : SeedId
  /-- What the dependency is for. -/
  kind : EdgeKind
  deriving DecidableEq, Repr

/-- Seeds and the arrows between them. -/
structure DependencyGraph where
  /-- The seeds, in ascending order. -/
  nodes : List SeedId
  /-- The arrows, seed by seed in the order of the depending seeds. -/
  arrows : List Arrow
  deriving DecidableEq, Repr

namespace DependencyGraph

/-- The seeds that depend on `node`, one for each arrow, oldest arrow first. -/
def successors (graph : DependencyGraph) (node : SeedId) : List SeedId :=
  (graph.arrows.filter fun arrow => arrow.source = node).map Arrow.target

/-- The seeds that `node` depends on, one for each arrow, oldest arrow first. -/
def predecessors (graph : DependencyGraph) (node : SeedId) : List SeedId :=
  (graph.arrows.filter fun arrow => arrow.target = node).map Arrow.source

end DependencyGraph

namespace Store

variable {κ : Type}

/-- Is there a seed under the identifier? -/
def contains (store : Store κ) (id : SeedId) : Bool :=
  (store.get? id).isSome

/-- The arrows that end in the seed `id`. -/
def arrowsInto (store : Store κ) (id : SeedId) (seed : Seed κ) : List Arrow :=
  (seed.dependencies.edges.filter fun edge => store.contains edge.target).map fun edge =>
    ⟨edge.target, id, edge.key.kind⟩

/-- The graph of all edges between stored seeds. -/
def dependencyGraph (store : Store κ) : DependencyGraph where
  nodes := store.ids
  arrows := store.entries.flatMap fun (id, seed) => store.arrowsInto id seed

end Store

end SeedGraph
