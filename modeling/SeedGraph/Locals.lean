import SeedGraph.Code

/-!
# Locals of a generated program

Every value that is worth a local gets the next free name: a fixed stem followed by a number that
counts up from zero.  The counter is kept beside the list of locals, and always says how long the
list is.

## Main definitions

* `Binding`: a local, the seed it belongs to and the value it holds.
* `Locals`, `Locals.allocate`: all locals in order of allocation, and the next one.
-/

namespace SeedGraph

/-- A local that holds the value of a seed. -/
structure Binding where
  /-- The seed whose value is held. -/
  seed : SeedId
  /-- The name of the local. -/
  name : String
  /-- The value. -/
  value : Compiled
  deriving DecidableEq, Repr

/-- The locals of one session. -/
structure Locals where
  /-- The text that starts every name. -/
  stem : String
  /-- The number of the next name. -/
  counter : Nat := 0
  /-- The locals, in order of allocation. -/
  bindings : List Binding := []
  /-- Every number below the counter was given to a local. -/
  counted : counter = bindings.length := by rfl
  deriving DecidableEq, Repr

namespace Locals

/-- The name of local number `k`. -/
def nameOf (locals : Locals) (k : Nat) : String :=
  locals.stem ++ toString k

/-- Allocate a local for the value `value` of `seed`: it gets the next name, and the counter moves
on. -/
def allocate (locals : Locals) (seed : SeedId) (value : Compiled) : Binding × Locals :=
  let binding := ⟨seed, locals.nameOf locals.counter, value⟩
  (binding,
    { locals with
      counter := locals.counter + 1
      bindings := locals.bindings ++ [binding]
      counted := by rw [locals.counted, List.length_append, List.length_singleton] })

/-- The first local that belongs to `seed`. -/
def bindingFor? (locals : Locals) (seed : SeedId) : Option Binding :=
  locals.bindings.find? fun binding => binding.seed = seed

end Locals

end SeedGraph
