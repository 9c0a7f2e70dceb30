import SeedGraph.Hook

/-!
# Traversals

A traversal walks over the stored seeds in ascending order.  A seed that has a result is passed
over; any other is compiled by its hook.  The walk ends after the last seed, or as soon as it has
compiled a seed that closes a region.

A hook may start further traversals, which may run further hooks.  A seed whose hook is running is
not compiled again, so at most as many hooks run inside one another as there are seeds.  The
recursion is on a bound for that number.

## Main definitions

* `Generator.compile`: run the hook of one seed and check what it did.
* `Generator.walk`: the walk over a list of seeds.
* `Generator.traverse`: the traversal in which up to `depth` hooks may run inside one another.

## The bound

When every stored seed has a running hook, a seed without a result can only be a seed whose hook is
running.  That is what the traversal of depth zero reports; the number of stored seeds is therefore
enough depth for every session.
-/

namespace SeedGraph

namespace Generator

/-- The session in which the hook of a seed starts to run. -/
def entered (gen : Generator Hook) (id : SeedId) : Generator Hook :=
  { gen with
    running := id :: gen.running
    journal := gen.journal ++ [.entered id] }

/-- The session in which the hook of a seed has ended. -/
def left (gen : Generator Hook) (id : SeedId) (failure : Option Error) : Generator Hook :=
  { gen with
    running := gen.running.filter fun other => decide (other ≠ id)
    journal := gen.journal ++ [.left id failure] }

/-- Note that the hook of a seed starts to run. -/
def enter (id : SeedId) : GenM Hook Unit :=
  modify fun gen => gen.entered id

/-- Note that the hook of a seed has ended. -/
def leave (id : SeedId) (failure : Option Error) : GenM Hook Unit :=
  modify fun gen => gen.left id failure

/-- Run a hook for the seed `id`.  The answer is its failure, if it failed, and how often it invoked
the continuation. -/
def runHook (traversal : Traversal Hook) (id : SeedId) (hook : Hook) :
    GenM Hook (Option Error × Nat) := fun gen =>
  match (hook.run traversal).run { id, generator := gen } with
  | .ok _ cx => .ok (none, cx.continuations) cx.generator
  | .error failure cx => .ok (some failure, cx.continuations) cx.generator

/-- What a hook that has ended deserves: its own failure counts first, and without one it must have
invoked the continuation exactly once. -/
def verdict (id : SeedId) : Option Error × Nat → Except Error Unit
  | (some failure, _) => .error failure
  | (none, 0) => .error (.continuationNotInvoked id)
  | (none, 1) => .ok ()
  | (none, _) => .error (.continuationInvokedTwice id)

/-- The hook of the seed must not be running. -/
def requireIdle (id : SeedId) : GenM Hook Unit := do
  require (id ∉ (← get).running) (.reentrantCompile id)

/-- Compile a seed without a result: run its hook, which has to invoke the continuation once and to
leave code as the result. -/
def compile (traversal : Traversal Hook) (id : SeedId) : GenM Hook Compiled := do
  requireIdle id
  let seed ← lookup id
  enter id
  let ending ← runHook traversal id seed.hook
  leave id ending.1
  MonadExcept.ofExcept (verdict id ending)
  let result ← codeResult id
  note (.accepted id)
  return result

/-- Walk over seeds in order, carrying the latest result. -/
def walk (compile : SeedId → GenM Hook Compiled) :
    List SeedId → Option Compiled → GenM Hook (Option Compiled)
  | [], latest => return latest
  | id :: rest, _ => do
    match (← lookup id).slot.current with
    | some result => walk compile rest (some result)
    | none =>
      let result ← compile id
      if (← lookup id).boundary = .closes then
        return some result
      else
        walk compile rest (some result)

/-- Walk over the stored seeds from `start` on.  The graph has to be complete. -/
def walkFrom (compile : SeedId → GenM Hook Compiled) : Traversal Hook := fun initial start => do
  requireFinalized
  walk compile ((← get).store.idsFrom start) initial

/-- The traversal whose seeds are compiled by `compile`: a walk whose beginning and end are noted,
however it ends. -/
def traverseWith (compile : SeedId → GenM Hook Compiled) : Traversal Hook :=
  fun initial start gen =>
    match (walkFrom compile initial start).run (gen.noted .traversalBegan) with
    | .ok result gen' => .ok result (gen'.noted (.traversalEnded none))
    | .error failure gen' => .error failure (gen'.noted (.traversalEnded (some failure)))

/-- The traversal in which up to `depth` hooks may run inside one another. -/
def traverse : Nat → Traversal Hook
  | 0 => traverseWith fun id => throw (.reentrantCompile id)
  | depth + 1 => traverseWith (compile (traverse depth))

@[simp] theorem traverse_zero : traverse 0 = traverseWith fun id => throw (.reentrantCompile id) :=
  rfl

@[simp] theorem traverse_succ (depth : Nat) :
    traverse (depth + 1) = traverseWith (compile (traverse depth)) := rfl

end Generator

end SeedGraph
