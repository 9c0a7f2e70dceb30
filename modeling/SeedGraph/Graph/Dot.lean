import SeedGraph.Graph

/-!
# Graphs as DOT text

The text of a dependency graph for graph drawing programs: numbered nodes labelled with their
identifiers, then the arrows between the numbers.
-/

namespace SeedGraph

namespace DependencyGraph

/-- The number of a node: its position among the nodes. -/
def numberOf (graph : DependencyGraph) (node : SeedId) : Nat :=
  graph.nodes.idxOf node

/-- The line of a node. -/
def dotNode (graph : DependencyGraph) (node : SeedId) : String :=
  s!"    {graph.numberOf node} [ label = \"SeedId({node.index})\" ]\n"

/-- The line of an arrow. -/
def dotArrow (graph : DependencyGraph) (arrow : Arrow) : String :=
  s!"    {graph.numberOf arrow.source} -> {graph.numberOf arrow.target} [ ]\n"

/-- The text of a graph. -/
def toDot (graph : DependencyGraph) : String :=
  "digraph \x7b\n" ++ String.join (graph.nodes.map graph.dotNode) ++
    String.join (graph.arrows.map graph.dotArrow) ++ "\x7d\n"

end DependencyGraph

end SeedGraph
