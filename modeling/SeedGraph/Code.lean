import SeedGraph.Error

/-!
# Results of compilation

A seed compiles to a piece of code.  Its *slot* holds that result and only moves forward: it is
empty, then holds a value, then holds a reference to the local into which the value was moved.

## Main definitions

* `Compiled`: code, or the misuse of a seed as code.
* `Slot`, `Slot.current`: the three stages, and what consumers see in each of them.
* `Slot.write`, `Slot.bind`: the two forward moves.
-/

namespace SeedGraph

/-- What a seed compiles to. -/
inductive Compiled where
  /-- Text of the language being generated. -/
  | code (text : String)
  /-- A seed in place of its code.  Nothing may be emitted from it. -/
  | seed (id : SeedId)
  deriving DecidableEq, Repr

namespace Compiled

/-- The text, if there is any. -/
def code? : Compiled → Option String
  | .code text => some text
  | .seed _ => none

/-- The text under which a result is shown. -/
def display : Compiled → String
  | .code text => text
  | .seed id => "<seed " ++ id.display ++ ">"

end Compiled

/-- The result of one seed, at one of three stages. -/
inductive Slot where
  /-- Nothing was compiled yet. -/
  | unset
  /-- The result as compiled. -/
  | set (value : Compiled)
  /-- The result was moved to the local `name`; `reference` is how the local is written and
  `value` what was compiled. -/
  | bound (name : String) (reference value : Compiled)
  deriving DecidableEq, Repr

namespace Slot

/-- The result that consumers see. -/
def current : Slot → Option Compiled
  | .unset => none
  | .set value => some value
  | .bound _ reference _ => some reference

/-- The result as it was compiled. -/
def compiled : Slot → Option Compiled
  | .unset => none
  | .set value => some value
  | .bound _ _ value => some value

/-- Is there a result? -/
def isSet : Slot → Bool
  | .unset => false
  | .set _ | .bound .. => true

/-- Is the result in a local? -/
def isBound : Slot → Bool
  | .bound .. => true
  | .unset | .set _ => false

/-- The first move of the slot of the seed `id`: an empty slot takes a value. -/
def write (id : SeedId) (value : Compiled) : Slot → Except Error Slot
  | .unset => .ok (.set value)
  | .set _ | .bound .. => .error (.resultAlreadySet id)

/-- The second move of the slot of the seed `id`: its value goes to the local `name`. -/
def bind (id : SeedId) (name : String) (reference : Compiled) : Slot → Except Error Slot
  | .unset => .error (.missingResult id)
  | .set value => .ok (.bound name reference value)
  | .bound existing _ _ => .error (.alreadyBound id existing)

@[simp] theorem isSet_eq_current_isSome (slot : Slot) : slot.current.isSome = slot.isSet := by
  cases slot <;> rfl

end Slot

end SeedGraph
