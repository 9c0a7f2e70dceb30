import SeedGraph.Generator

/-!
# The report of a generator

The rows of a report are read off the stored seeds.  A value in a local is reported as it was
compiled, together with the name of the local.
-/

namespace SeedGraph

/-- An edge, seen from the seed that owns it. -/
def EdgeRow.ofEdge (edge : Edge) : EdgeRow :=
  ⟨edge.key.display, edge.key.kind, edge.target⟩

/-- An edge, seen from its target. -/
def EdgeRow.ofReferent (referent : Referent) : EdgeRow :=
  ⟨referent.key.display, referent.key.kind, referent.source⟩

/-- The local that holds a result. -/
def Slot.localName? : Slot → Option String
  | .bound name _ _ => some name
  | .unset | .set _ => none

/-- The row of the seed `id`. -/
def SeedRow.ofSeed {κ : Type} (id : SeedId) (seed : Seed κ) : SeedRow where
  id := id
  kind := seed.kind
  mode := seed.mode
  boundary := seed.boundary
  result := seed.slot.compiled.map Compiled.display
  boundTo := seed.slot.localName?
  dependencies := seed.dependencies.edges.map EdgeRow.ofEdge
  referents := seed.referents.map EdgeRow.ofReferent

/-- The report of a session. -/
def Generator.report {κ : Type} (gen : Generator κ) : Report where
  lower := gen.lower
  upper := gen.upper
  finalized := gen.finalized
  seeds := gen.store.entries.map fun (id, seed) => SeedRow.ofSeed id seed
  bindings := gen.locals.bindings

end SeedGraph
