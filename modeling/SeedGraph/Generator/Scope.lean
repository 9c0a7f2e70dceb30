import SeedGraph.Generator

/-!
# Scopes

Scopes are open while seeds are registered.  Each has a memo of its own and a running maximum of the
modes registered directly in it; both are set aside when an inner scope is opened, and come back
when it is closed.

A scope may be *depending*: its anchor must not be emitted before a seed that is registered while
the scope is open but has a smaller identifier.  `propagateOrdering` adds the edges for that.
-/

namespace SeedGraph

namespace Generator

variable {κ : Type}

/-- Open a scope at a stored seed. -/
def beginScope (anchor : SeedId) (depending : Bool) : GenM κ Unit := do
  let _ ← lookup anchor
  modify fun gen => { gen with
    scopes := { anchor, depending, enclosing := gen.context } :: gen.scopes
    context := {} }
  note (.scopeOpened anchor depending)

/-- Close the innermost scope; the answer is its anchor and the greatest mode registered in it. -/
def endScope : GenM κ (SeedId × Mode) := do
  let gen ← get
  match gen.scopes with
  | [] => throw .noOpenScope
  | scope :: rest =>
    set { gen with scopes := rest, context := scope.enclosing }
    note .scopeClosed
    return (scope.anchor, gen.context.maxMode)

/-- The seed memoized under `key` in the innermost scope. -/
def memo? (gen : Generator κ) (key : String) : Option SeedId :=
  gen.context.memo.lookup key

/-- Memoize a seed in the innermost scope; the answer is the seed that `key` stood for before. -/
def memoize (key : String) (id : SeedId) : GenM κ (Option SeedId) := do
  let gen ← get
  set { gen with context := { gen.context with memo := (key, id) :: gen.context.memo } }
  note (.memoized key id)
  return gen.memo? key

/-- Make every open depending anchor with a greater identifier wait for `id`. -/
def propagateOrdering (id : SeedId) : GenM κ Unit := do
  requireOpen
  let _ ← lookup id
  let anchors := (← get).dependingScopes.filter fun anchor => decide (id.index < anchor.index)
  anchors.forM fun anchor => do
    let _ ← insertOrdering anchor id

end Generator

end SeedGraph
