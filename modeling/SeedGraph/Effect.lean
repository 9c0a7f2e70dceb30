/-!
# Effects, boundaries and the binding policy

Two attributes of a seed decide how its code is emitted.  Its *mode* says how far the order of
evaluation matters; its *boundary* says whether it opens or closes a nested region.  Together with
the number of edges that point at the seed they decide whether its value is held in a local.

## Main definitions

* `Mode`, ordered from `pure` to `sideEffectful`, with `Mode.join` the greater of two modes.
* `Boundary`: ordinary seeds, and those that open or close a region.
* `shouldBind`: the binding policy.  An explicit wish wins; a seed that opens a region is left in
  place; any other seed is bound once it has as many referents as its mode demands.
-/

namespace SeedGraph

/-- How much the moment of evaluation of a seed matters. -/
inductive Mode where
  /-- The value is the same wherever it is computed. -/
  | pure
  /-- The value depends on when it is computed, but computing it changes nothing. -/
  | ordered
  /-- Computing the value has an effect of its own. -/
  | sideEffectful
  deriving DecidableEq, Repr

namespace Mode

/-- Position of a mode in the order from harmless to effectful. -/
def rank : Mode → Nat
  | .pure => 0
  | .ordered => 1
  | .sideEffectful => 2

/-- The greater of two modes. -/
def join (a b : Mode) : Mode :=
  if a.rank ≤ b.rank then b else a

/-- The name under which a mode is shown and serialized. -/
def name : Mode → String
  | .pure => "Pure"
  | .ordered => "Ordered"
  | .sideEffectful => "SideEffectful"

/-- How many referents a value of this mode needs before it is worth a local: one that may be
computed twice needs two, one whose moment matters needs a single one, an effect none at all. -/
def bindingThreshold : Mode → Nat
  | .pure => 2
  | .ordered => 1
  | .sideEffectful => 0

@[simp] theorem pure_join (m : Mode) : join .pure m = m := by cases m <;> rfl

@[simp] theorem join_pure (m : Mode) : join m .pure = m := by cases m <;> rfl

@[simp] theorem join_self (m : Mode) : join m m = m := by cases m <;> rfl

theorem join_comm (a b : Mode) : join a b = join b a := by cases a <;> cases b <;> rfl

theorem rank_join (a b : Mode) : (join a b).rank = max a.rank b.rank := by
  cases a <;> cases b <;> rfl

theorem join_eq_or (a b : Mode) : join a b = a ∨ join a b = b := by
  cases a <;> cases b <;> decide

end Mode

/-- The role of a seed at the edge of a nested region. -/
inductive Boundary where
  /-- A seed inside a region. -/
  | ordinary
  /-- A seed whose code contains a nested region. -/
  | opens
  /-- The last seed of a region: a traversal that compiles it goes no further. -/
  | closes
  deriving DecidableEq, Repr

/-- The name under which a boundary is shown and serialized. -/
def Boundary.name : Boundary → String
  | .ordinary => "Ordinary"
  | .opens => "Begin"
  | .closes => "End"

/-- The binding policy: is the value of a seed held in a local of its own? -/
def shouldBind (wish : Option Bool) (boundary : Boundary) (mode : Mode) (referents : Nat) : Bool :=
  match wish, boundary with
  | some decision, _ => decision
  | none, .opens => false
  | none, _ => decide (mode.bindingThreshold ≤ referents)

@[simp] theorem shouldBind_some (decision : Bool) (boundary : Boundary) (mode : Mode)
    (referents : Nat) : shouldBind (some decision) boundary mode referents = decision := rfl

@[simp] theorem shouldBind_opens (mode : Mode) (referents : Nat) :
    shouldBind none .opens mode referents = false := rfl

end SeedGraph
