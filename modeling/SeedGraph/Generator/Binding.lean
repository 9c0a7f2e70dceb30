import SeedGraph.Generator.Finalize

/-!
# Binding results to locals

Once a seed has a result, the binding policy decides whether the result is moved to a local.  The
local is declared where the seed was compiled, and from then on consumers of the seed see a mention
of the local.

## Main definitions

* `Generator.bind`: move the result of a seed to a fresh local.
* `Generator.settle`: what happens to a seed whose hook announces its result.
-/

namespace SeedGraph

namespace Generator

variable {κ : Type}

/-- What the binding policy says about a seed. -/
def policy (id : SeedId) : GenM κ Bool := do
  let count ← referentCount id
  let seed ← lookup id
  return shouldBind seed.bindingWish seed.boundary seed.mode count

/-- The session after a statement was emitted in the region that is being generated. -/
def emitted (gen : Generator κ) (statement : Statement) : Generator κ :=
  { gen with emissions := gen.emissions ++ [⟨gen.regionDepth, statement⟩] }

/-- Emit a statement. -/
def emit (statement : Statement) : GenM κ Unit :=
  modify fun gen => gen.emitted statement

/-- Allocate the next local for the value of a seed. -/
def allocate (id : SeedId) (value : Compiled) : GenM κ Binding := do
  let gen ← get
  let (binding, locals) := gen.locals.allocate id value
  set { gen with locals }
  return binding

/-- Move the result of a seed to a fresh local, and declare the local. -/
def bind (id : SeedId) : GenM κ Unit := do
  let seed ← lookup id
  let value ← MonadExcept.ofExcept seed.result
  require (seed.slot.isBound = false) (.alreadyBound id value.display)
  let binding ← allocate id value
  emit (.declare binding)
  let reference := Compiled.code ((← get).platform.reference binding.name)
  let slot ← MonadExcept.ofExcept (seed.slot.bind id binding.name reference)
  replace id { seed with slot }

/-- The result of a seed, which has to be code. -/
def codeResult (id : SeedId) : GenM κ Compiled := do
  let seed ← lookup id
  match ← MonadExcept.ofExcept seed.result with
  | .seed leaked => throw (.malformedResult id leaked)
  | .code text => return .code text

/-- Bind the result of a seed if the policy says so. -/
def bindByPolicy (id : SeedId) : GenM κ Unit := do
  if ← policy id then bind id else pure ()

/-- Emit the code of a seed that opens a region as a block, unless it is in a local. -/
def emitBlock (id : SeedId) : GenM κ Unit := do
  let seed ← lookup id
  if seed.boundary = .opens ∧ seed.slot.isBound = false then do
    let code ← MonadExcept.ofExcept seed.result
    emit (.block id code)
  else
    pure ()

/-- Accept the result of a seed: it has to be code, it is bound if the policy says so, and the code
of a seed that opens a region is emitted as a block unless it was bound. -/
def settle (id : SeedId) : GenM κ Unit := do
  let _ ← codeResult id
  bindByPolicy id
  emitBlock id

end Generator

end SeedGraph
