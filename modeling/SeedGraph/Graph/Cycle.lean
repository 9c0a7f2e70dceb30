import SeedGraph.Graph

/-!
# The search for a cycle

Whether a graph has a cycle is found in two passes, each of which may end early at a vertex of a
cycle.

* The first pass is a depth-first search with an explicit stack.  It lists the vertices in reverse
  order of completion, and stops at a vertex with an arrow to itself.
* The second pass goes through that list.  In an acyclic graph every predecessor of a vertex stands
  before it; the first predecessor that does not is reported.

Neighbours are taken oldest arrow first in both passes, so the vertex that is reported is the same
each time.

## Termination

A vertex stays on the stack below its successors until it comes up a second time, when it is
complete.  Each step takes one vertex off the stack for good, or discovers a vertex and pushes at
most its successors.  The length of the stack, together with what the undiscovered vertices may
still push, therefore goes down with every step.
-/

namespace SeedGraph

namespace Cycle

variable {α : Type} [DecidableEq α]

/-- The vertices other than `v`. -/
def without (v : α) (vertices : List α) : List α :=
  vertices.filter fun w => decide (w ≠ v)

/-- The listed vertices that are still to be discovered. -/
def among (fresh vertices : List α) : List α :=
  vertices.filter fun w => decide (w ∈ fresh)

/-- How much discovering all of `fresh` may add to the work: each vertex its successors, and one
step for itself. -/
def pending (successors : α → List α) (fresh : List α) : Nat :=
  fresh.foldr (fun w total => (successors w).length + 1 + total) 0

theorem pending_without_le (successors : α → List α) (v : α) (fresh : List α) :
    pending successors (without v fresh) ≤ pending successors fresh := by
  induction fresh with
  | nil => simp [without, pending]
  | cons w rest ih =>
    by_cases h : w = v
    · simp_all [without, pending]
      omega
    · simp_all [without, pending]

/-- Discovering a vertex takes what it may push out of the work ahead. -/
theorem pending_without_of_mem (successors : α → List α) {v : α} {fresh : List α} (h : v ∈ fresh) :
    pending successors (without v fresh) + ((successors v).length + 1) ≤
      pending successors fresh := by
  induction fresh with
  | nil => simp at h
  | cons w rest ih =>
    by_cases hw : w = v
    · have hle := pending_without_le successors v rest
      simp_all [without, pending]
      omega
    · have hrest := ih ((List.mem_cons.1 h).resolve_left fun e => hw e.symm)
      simp_all [without, pending]
      omega

theorem length_among_le (fresh vertices : List α) :
    (among fresh vertices).length ≤ vertices.length :=
  List.length_filter_le _ _

/-- The first pass.  `fresh` holds the vertices not discovered yet, the head of `stack` is looked at
next, and `finished` lists the completed vertices, the last one first.  The result is the list of
all vertices reached, or a vertex that is its own successor. -/
def finishOrder (successors : α → List α) (fresh stack finished : List α) :
    Except α (List α) :=
  match stack with
  | [] => .ok finished
  | v :: rest =>
    if v ∈ fresh then
      if v ∈ successors v then .error v
      else
        finishOrder successors (without v fresh)
          (among (without v fresh) (successors v) ++ v :: rest) finished
    else
      finishOrder successors fresh rest (if v ∈ finished then finished else v :: finished)
termination_by stack.length + pending successors fresh
decreasing_by
  · have hpending := pending_without_of_mem successors (show v ∈ fresh by assumption)
    have hlength := length_among_le (without v fresh) (successors v)
    simp only [List.length_append, List.length_cons]
    omega
  · simp only [List.length_cons]
    omega

/-- The second pass: the first predecessor of a listed vertex that is neither the vertex itself nor
listed before it. -/
def unseenPredecessor? (predecessors : α → List α) (seen : List α) : List α → Option α
  | [] => none
  | v :: rest =>
    match (predecessors v).find? fun w => decide (w ∉ v :: seen) with
    | some w => some w
    | none => unseenPredecessor? predecessors (v :: seen) rest

/-- A vertex on a cycle, if there is a cycle. -/
def find? (vertices : List α) (successors predecessors : α → List α) : Option α :=
  match finishOrder successors vertices vertices [] with
  | .error v => some v
  | .ok order => unseenPredecessor? predecessors [] order

end Cycle

/-- A seed on a cycle of dependencies, if there is one. -/
def DependencyGraph.cycleVertex? (graph : DependencyGraph) : Option SeedId :=
  Cycle.find? graph.nodes graph.successors graph.predecessors

end SeedGraph
