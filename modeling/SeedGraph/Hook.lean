import SeedGraph.Generator.Respond

/-!
# Running hooks

A running hook works on a *compilation*: the session together with the identifier of the seed being
compiled, the text gathered so far, and the number of times the continuation was invoked.  All of
it survives a failure, so an action that is attempted and fails may still have invoked the
continuation.

## Main definitions

* `Compilation`, `HookM`: the handle of a running hook, and operations on it.
* `Compilation.proceed`: the continuation.
* `Action.run`, `Hook.run`: hooks as operations.
-/

namespace SeedGraph

/-- The handle of a running hook. -/
structure Compilation where
  /-- The seed being compiled. -/
  id : SeedId
  /-- The text gathered so far. -/
  buffer : String := ""
  /-- How often the continuation was invoked: no more often than the hook has actions, so that a
  machine word would do. -/
  continuations : Nat := 0
  /-- The session. -/
  generator : Generator Hook

/-- Operations of a running hook. -/
abbrev HookM := EStateM Error Compilation

namespace Compilation

/-- Carry out an operation of the session. -/
def onGenerator {α : Type} (operation : GenM Hook α) : HookM α := fun cx =>
  match operation.run cx.generator with
  | .ok value gen => .ok value { cx with generator := gen }
  | .error failure gen => .error failure { cx with generator := gen }

/-- Append a text to the buffer. -/
def append (text : String) : HookM Unit :=
  modify fun cx => { cx with buffer := cx.buffer ++ text }

/-- The seed being compiled. -/
def self : HookM (Seed Hook) := do
  onGenerator (Generator.lookup (← get).id)

/-- The seed that the edge under `key` leads to. -/
def target (key : Key) : HookM SeedId := do
  match (← self).dependencies.get? key with
  | some id => return id
  | none => throw (.missingDependency (← get).id key)

/-- The result of the dependency under `key`, as consumers see it. -/
def input (key : Key) : HookM Compiled := do
  let seed ← onGenerator (Generator.lookup (← target key))
  MonadExcept.ofExcept seed.result

/-- The text of the dependency under `key`. -/
def inputCode (key : Key) : HookM String := do
  let id ← target key
  match ← input key with
  | .code text => return text
  | .seed leaked => throw (.malformedResult id leaked)

/-- Give the seed its result. -/
def setResult (value : Compiled) : HookM Unit := do
  let id := (← get).id
  let seed ← self
  let seed ← MonadExcept.ofExcept (seed.writeResult value)
  onGenerator (Generator.replace id seed)
  onGenerator (Generator.note (.resulted id))

/-- The continuation: it may be invoked once, and accepts the result of the seed. -/
def proceed : HookM Unit := do
  modify fun cx => { cx with continuations := cx.continuations + 1 }
  let cx ← get
  onGenerator (Generator.note (.continued cx.id))
  require (cx.continuations ≤ 1) (.continuationInvokedTwice cx.id)
  onGenerator (Generator.settle cx.id)

end Compilation

/-- The text of a payload: texts as they are, all else as JSON, and a word if there is none. -/
def payloadText : Option Json → String
  | none => "none"
  | some (.text s) => s
  | some payload => payload.render

open Compilation in
/-- Carry out an action.  Regions and requests that generate code use `traversal`. -/
def Action.run (traversal : Traversal Hook) : Action → HookM Unit
  | .text s => append s
  | .clear => modify fun cx => { cx with buffer := "" }
  | .ownId => do append (← get).id.display
  | .ownKind => do
    let seed ← self
    append (seed.mode.name ++ "/" ++ seed.boundary.name)
  | .ownPayload => do append (payloadText (← self).payload)
  | .target key => do append (← Compilation.target key).display
  | .input key => do append (← Compilation.input key).display
  | .inputCode key => do append (← Compilation.inputCode key)
  | .setResult => do Compilation.setResult (.code (← get).buffer)
  | .setSeed leaked => Compilation.setResult (.seed leaked)
  | .leak key => do Compilation.setResult (.seed (← Compilation.target key))
  | .proceed => Compilation.proceed
  | .region start separator => do
    let region ← onGenerator (Generator.generateRegion traversal (start.seen (← get).id))
    append (String.intercalate separator ((← get).generator.renderRegion region))
  | .request asked => do
    let answer ← onGenerator (Generator.respond traversal asked)
    onGenerator (Generator.note (.answered (← get).id answer))
  | .attempt action => do
    try
      action.run traversal
    catch failure =>
      onGenerator (Generator.note (.caught (← get).id failure))
  | .fail reason => throw (.invalidSettings (.stated reason))

/-- Carry out the actions of a hook in order. -/
def Hook.run (traversal : Traversal Hook) (hook : Hook) : HookM Unit :=
  hook.forM (Action.run traversal)

end SeedGraph
