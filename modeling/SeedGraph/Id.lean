/-!
# Seed identifiers

A generation session addresses all of its seeds through one signed index space.  Seeds registered
during the session are numbered `0, 1, 2, …` in registration order; seeds that existed before it
take the negative indices, with `-1` for the one supplied last.

## Main definitions

* `SeedId`: an index of that space.
* `SeedId.undefined`: the identifier shown for a seed that was never registered.
* `SeedId.display`: the text of an identifier.
-/

namespace SeedGraph

/-- The address of a seed: a position in the session's signed index space. -/
structure SeedId where
  /-- The position, negative for a seed that existed before the session. -/
  index : Int
  deriving DecidableEq, Repr

namespace SeedId

/-- The least 32-bit index stands for "no identifier yet".  No stored seed ever has it. -/
def undefined : SeedId := ⟨-2147483648⟩

/-- Does the identifier address a seed supplied before the session began? -/
def isPreexisting (id : SeedId) : Bool :=
  decide (id.index < 0)

/-- The identifier one position further on. -/
def next (id : SeedId) : SeedId :=
  ⟨id.index + 1⟩

/-- How two identifiers compare, by position. -/
def order (a b : SeedId) : Ordering :=
  if a.index < b.index then .lt else if a.index = b.index then .eq else .gt

/-- The text of an identifier: its index in decimal, or a word for the undefined one. -/
def display (id : SeedId) : String :=
  if id = undefined then "undefined" else toString id.index

/-- The indices that a serialized identifier may hold: those of a 32-bit signed word. -/
def Representable (id : SeedId) : Prop :=
  -2147483648 ≤ id.index ∧ id.index < 2147483648

instance (id : SeedId) : Decidable id.Representable :=
  inferInstanceAs (Decidable (_ ∧ _))

@[simp] theorem index_next (id : SeedId) : id.next.index = id.index + 1 := rfl

end SeedId

end SeedGraph
