import Mathlib.Logic.Relation
import SeedGraph.Proofs.Referents

/-!
# The moves of a session

Whatever a session is asked and whatever its hooks do, it changes in a fixed number of elementary
ways.  `Move` lists them, each with the guard under which it happens and with the whole session
after it.  A session is `Reachable` if moves lead to it from a new one; the moments in the middle of
a running hook are reachable as well, so an invariant of all moves holds at every moment of every
run.

## Frames

What has begun and not yet ended is read off the journal: traversals, regions and hooks are
bracketed by events, and `openFrames` replays them into a stack, innermost first.  A frame of a hook
counts how often the continuation was invoked.  The guards of the moves speak about that stack:
only a traversal enters a hook, and only the innermost hook writes a result or invokes its
continuation.

## Slots

The slot of a seed is touched by four of the moves at most.  `SlotMove` says which these are, so
that a statement about what becomes of results has to look at these alone.

## Two moves with two events

A hook that ends is either accepted or the end of its traversal.  Nothing can happen in between,
and the two moves `accept` and `reject` say so: the end of the hook and its consequence are one
move.
-/

namespace SeedGraph

/-! ### Frames -/

/-- Something that has begun and not yet ended. -/
inductive Frame where
  /-- A traversal. -/
  | traversal
  /-- The generation of a nested region. -/
  | region
  /-- The hook of a seed, which invoked the continuation `continuations` times so far. -/
  | hook (id : SeedId) (continuations : Nat)
  deriving DecidableEq, Repr

namespace Frame

/-- The seed whose hook is running in a frame. -/
def hookId? : Frame → Option SeedId
  | .hook id _ => some id
  | .traversal | .region => none

/-- The innermost hook invokes its continuation. -/
def continued : List Frame → List Frame
  | .hook id continuations :: outer => .hook id (continuations + 1) :: outer
  | frames => frames

end Frame

/-- The frames that are open after an event, if `frames` were open before it. -/
def Event.nest (frames : List Frame) : Event → List Frame
  | .traversalBegan => .traversal :: frames
  | .regionOpened => .region :: frames
  | .entered id => .hook id 0 :: frames
  | .continued _ => Frame.continued frames
  | .traversalEnded _ | .regionClosed _ | .left .. => frames.tail
  | .registered .. | .memoized .. | .scopeOpened .. | .scopeClosed | .resulted _ | .accepted _
  | .caught .. | .answered .. => frames

/-- The frames that are open after a journal, innermost first. -/
def openFrames (journal : List Event) : List Frame :=
  journal.foldl Event.nest []

@[simp] theorem openFrames_snoc (journal : List Event) (event : Event) :
    openFrames (journal ++ [event]) = event.nest (openFrames journal) := by
  simp [openFrames]

/-- Events that open and close nothing leave the frames as they are. -/
theorem foldl_nest_of_plain {events : List Event}
    (plain : ∀ event ∈ events, ∀ frames, Event.nest frames event = frames) (frames : List Frame) :
    events.foldl Event.nest frames = frames := by
  induction events with
  | nil => rfl
  | cons event rest ih =>
    rw [List.foldl_cons, plain event (by simp)]
    exact ih fun other mem => plain other (List.mem_cons_of_mem _ mem)

/-- The seeds whose hooks are running in the given frames, innermost first. -/
def hooksIn (frames : List Frame) : List SeedId :=
  frames.filterMap Frame.hookId?

@[simp] theorem hooksIn_hook (id : SeedId) (continuations : Nat) (outer : List Frame) :
    hooksIn (.hook id continuations :: outer) = id :: hooksIn outer := rfl

namespace Generator

/-- The frames that are open in a session. -/
def frames (gen : Session) : List Frame :=
  openFrames gen.journal

@[simp] theorem frames_noted (gen : Session) (event : Event) :
    (gen.noted event).frames = event.nest gen.frames :=
  openFrames_snoc _ _

@[simp] theorem frames_openRegion (gen : Session) :
    gen.openRegion.frames = .region :: gen.frames :=
  openFrames_snoc _ _

@[simp] theorem frames_closeRegion (gen : Session) (region : Option Region) :
    (gen.closeRegion region).frames = gen.frames.tail :=
  openFrames_snoc _ _

@[simp] theorem frames_entered (gen : Session) (id : SeedId) :
    (gen.entered id).frames = .hook id 0 :: gen.frames :=
  openFrames_snoc _ _

@[simp] theorem frames_left (gen : Session) (id : SeedId) (failure : Option Error) :
    (gen.left id failure).frames = gen.frames.tail :=
  openFrames_snoc _ _

@[simp] theorem frames_emitted (gen : Session) (statement : Statement) :
    (gen.emitted statement).frames = gen.frames := rfl

@[simp] theorem frames_withResult (gen : Session) (id : SeedId) (seed : Seed Hook)
    (value : Compiled) : (gen.withResult id seed value).frames = gen.frames :=
  frames_noted _ _

/-- A seed that comes with a result is said to have one. -/
theorem mem_givenResult {id : SeedId} {seed : Seed Hook} {event : Event} :
    event ∈ givenResult id seed ↔ seed.slot.isSet = true ∧ event = .resulted id := by
  rw [givenResult]
  split
  · next h => simp [h]
  · next h => simp [h]

@[simp] theorem frames_enroll (gen : Session) (id : SeedId) (seed : Seed Hook) :
    (gen.enroll id seed).frames = gen.frames := by
  rw [frames, enroll, openFrames, List.foldl_append]
  refine foldl_nest_of_plain (fun event mem frames => ?_) _
  rcases List.mem_cons.1 mem with rfl | hgiven
  · rfl
  · obtain ⟨-, rfl⟩ := mem_givenResult.1 hgiven
    rfl

theorem frames_ofStore (settings : Settings) (platform : Platform) (store : Store Hook) :
    (ofStore settings platform store).frames = [] := by
  refine foldl_nest_of_plain (fun event mem frames => ?_) []
  obtain ⟨entry, -, hgiven⟩ := List.mem_flatMap.1 mem
  obtain ⟨-, rfl⟩ := mem_givenResult.1 hgiven
  rfl

end Generator

/-! ### Slots -/

namespace Generator

/-- The slot of a stored seed. -/
def slot? (gen : Session) (id : SeedId) : Option Slot :=
  (gen.store.get? id).map Seed.slot

theorem slot?_of_stored {gen : Session} {id : SeedId} {seed : Seed Hook}
    (stored : gen.store.get? id = some seed) : gen.slot? id = some seed.slot := by
  rw [slot?, stored]
  rfl

theorem slot?_upper (gen : Session) : gen.slot? ⟨gen.upper⟩ = none := by
  rw [slot?, Option.map_eq_none_iff, ← Option.not_isSome_iff_eq_none, Store.get?_isSome_iff]
  exact fun hrange => absurd hrange.2 (Int.lt_irrefl gen.store.upper)

theorem slot?_withSeed {gen : Session} {id : SeedId} {seed : Seed Hook}
    (stored : gen.store.get? id = some seed) (seed' : Seed Hook) (other : SeedId) :
    (gen.withSeed id seed').slot? other =
      if other = id then some seed'.slot else gen.slot? other := by
  unfold slot? withSeed
  dsimp only
  rw [gen.store.get?_set _ _ _ (by rw [stored]; rfl)]
  by_cases heq : id = other
  · rw [if_pos heq, if_pos heq.symm]
    rfl
  · rw [if_neg heq, if_neg fun e => heq e.symm]

/-- A seed is replaced by one with the same slot. -/
theorem slot?_withSeed_of_same {gen : Session} {id : SeedId} {seed seed' : Seed Hook}
    (stored : gen.store.get? id = some seed) (same : seed'.slot = seed.slot) :
    (gen.withSeed id seed').slot? = gen.slot? := by
  funext other
  rw [slot?_withSeed stored, same]
  by_cases heq : other = id
  · rw [if_pos heq, heq, slot?_of_stored stored]
  · rw [if_neg heq]

theorem slot?_withResult {gen : Session} {id : SeedId} {seed : Seed Hook}
    (stored : gen.store.get? id = some seed) (value : Compiled) (other : SeedId) :
    (gen.withResult id seed value).slot? other =
      if other = id then some (.set value) else gen.slot? other :=
  slot?_withSeed stored _ other

theorem slot?_moveToLocal {gen : Session} {id : SeedId} {seed : Seed Hook}
    (stored : gen.store.get? id = some seed) (value : Compiled) (other : SeedId) :
    (gen.moveToLocal id seed value).slot? other =
      if other = id then
        some (.bound (gen.locals.nameOf gen.locals.counter)
          (.code (gen.platform.reference (gen.locals.nameOf gen.locals.counter))) value)
      else gen.slot? other :=
  slot?_withSeed stored _ other

theorem slot?_completed (gen : Session) : gen.completed.slot? = gen.slot? := by
  funext other
  unfold slot? completed
  dsimp only
  rw [Store.get?_record, Option.map_map]
  rfl

theorem slot?_enroll (gen : Session) (seed : Seed Hook) (other : SeedId) :
    (gen.enroll ⟨gen.upper⟩ seed).slot? other =
      if other = ⟨gen.upper⟩ then some seed.slot else gen.slot? other := by
  unfold slot? enroll
  dsimp only
  rw [Store.get?_push]
  by_cases heq : other = ⟨gen.upper⟩
  · rw [if_pos heq, heq, if_pos (show gen.upper = gen.store.upper from rfl)]
    rfl
  · have hindex : other.index ≠ gen.store.upper := by
      intro hsame
      cases other
      exact heq (congrArg SeedId.mk hsame)
    rw [if_neg heq, if_neg hindex]

end Generator

/-! ### Moves -/

/-- Is the event a remark of a hook, which says nothing about beginning or end? -/
def Event.isRemark : Event → Bool
  | .caught .. | .answered .. => true
  | _ => false

theorem Event.nest_of_isRemark {event : Event} (plain : event.isRemark = true)
    (frames : List Frame) : event.nest frames = frames := by
  cases event with
  | caught _ _ => rfl
  | answered _ _ => rfl
  | _ => exact absurd plain (by simp [Event.isRemark])

/-- The seed that a blueprint describes, under the identifier that it gets. -/
def Blueprint.registered {κ : Type} (blueprint : Blueprint κ) (id : SeedId) : Seed κ :=
  { blueprint.build with id := some id }

/-- **The elementary changes of a session.** -/
inductive Move : Session → Session → Prop
  /-- A seed is registered. -/
  | register {gen : Session} (blueprint : Blueprint Hook) (opened : gen.finalized = false)
      (unnumbered : blueprint.id = none) (room : gen.HasRoom) :
      Move gen (gen.enroll ⟨gen.upper⟩ (blueprint.registered ⟨gen.upper⟩))
  /-- An edge is added. -/
  | addEdge {gen : Session} {source : SeedId} {seed : Seed Hook} (key : Key) (target : SeedId)
      (opened : gen.finalized = false) (stored : gen.store.get? source = some seed) :
      Move gen (gen.withSeed source
        { seed with dependencies := seed.dependencies.insert key target })
  /-- An ordering edge is added, or found. -/
  | addOrdering {gen : Session} {source : SeedId} {seed : Seed Hook} (target : SeedId)
      (opened : gen.finalized = false) (stored : gen.store.get? source = some seed) :
      Move gen (gen.withSeed source
        { seed with dependencies := (seed.dependencies.addOrdering target).2 })
  /-- A payload is replaced. -/
  | setPayload {gen : Session} {id : SeedId} {seed : Seed Hook} (payload : Json)
      (stored : gen.store.get? id = some seed) :
      Move gen (gen.withSeed id { seed with payload := some payload })
  /-- A scope is opened. -/
  | openScope {gen : Session} {seed : Seed Hook} (anchor : SeedId) (depending : Bool)
      (stored : gen.store.get? anchor = some seed) :
      Move gen (Generator.noted { gen with
          scopes := { anchor, depending, enclosing := gen.context } :: gen.scopes
          context := {} } (.scopeOpened anchor depending))
  /-- The innermost scope is closed. -/
  | closeScope {gen : Session} {scope : Scope} {rest : List Scope}
      (innermost : gen.scopes = scope :: rest) :
      Move gen
        (Generator.noted { gen with scopes := rest, context := scope.enclosing } .scopeClosed)
  /-- A seed is memoized. -/
  | memoize {gen : Session} (key : String) (id : SeedId) :
      Move gen (Generator.noted
        { gen with context := { gen.context with memo := (key, id) :: gen.context.memo } }
        (.memoized key id))
  /-- The graph is completed. -/
  | complete {gen : Session} (opened : gen.finalized = false)
      (targets : gen.store.firstDangling? = none) (acyclic : gen.forbiddenCycle? = none) :
      Move gen gen.completed
  /-- A result is put aside. -/
  | putAside {gen : Session} (output latest : Option Compiled) :
      Move gen { gen with output, latest }
  /-- A result is moved to a local. -/
  | bind {gen : Session} {id : SeedId} {seed : Seed Hook} {value : Compiled}
      (stored : gen.store.get? id = some seed) (unbound : seed.slot = .set value) :
      Move gen (gen.moveToLocal id seed value)
  /-- A hook makes a remark. -/
  | remark {gen : Session} (event : Event) (plain : event.isRemark = true) :
      Move gen (gen.noted event)
  /-- The generation of a region begins. -/
  | openRegion {gen : Session} : Move gen gen.openRegion
  /-- The generation of a region ends. -/
  | closeRegion {gen : Session} {outer : List Frame} (region : Option Region)
      (innermost : gen.frames = .region :: outer) : Move gen (gen.closeRegion region)
  /-- A traversal begins. -/
  | beginTraversal {gen : Session} : Move gen (gen.noted .traversalBegan)
  /-- A traversal ends. -/
  | endTraversal {gen : Session} {outer : List Frame} (failure : Option Error)
      (innermost : gen.frames = .traversal :: outer) :
      Move gen (gen.noted (.traversalEnded failure))
  /-- A traversal enters the hook of a seed without a result that is not running. -/
  | enter {gen : Session} {id : SeedId} {seed : Seed Hook} {outer : List Frame}
      (complete : gen.finalized = true) (innermost : gen.frames = .traversal :: outer)
      (stored : gen.store.get? id = some seed) (unset : seed.slot = .unset)
      (idle : id ∉ gen.running) : Move gen (gen.entered id)
  /-- The innermost hook sets the result of its seed. -/
  | write {gen : Session} {id : SeedId} {seed : Seed Hook} {continuations : Nat}
      {outer : List Frame} (value : Compiled)
      (innermost : gen.frames = .hook id continuations :: outer)
      (stored : gen.store.get? id = some seed) (unset : seed.slot = .unset) :
      Move gen (gen.withResult id seed value)
  /-- The innermost hook invokes its continuation, which emits nothing. -/
  | proceed {gen : Session} {id : SeedId} {continuations : Nat} {outer : List Frame}
      (innermost : gen.frames = .hook id continuations :: outer) :
      Move gen (gen.noted (.continued id))
  /-- The innermost hook invokes its continuation for the first time, and the code of its seed,
  which opens a region, is emitted as a block. -/
  | proceedBlock {gen : Session} {id : SeedId} {seed : Seed Hook} {value : Compiled}
      {outer : List Frame} (innermost : gen.frames = .hook id 0 :: outer)
      (stored : gen.store.get? id = some seed) (unbound : seed.slot = .set value)
      (opens : seed.boundary = .opens) :
      Move gen ((gen.noted (.continued id)).emitted (.block id value))
  /-- The innermost hook ends, having invoked its continuation once and left code as the result. -/
  | accept {gen : Session} {id : SeedId} {seed : Seed Hook} {text : String} {outer : List Frame}
      (innermost : gen.frames = .hook id 1 :: .traversal :: outer)
      (stored : gen.store.get? id = some seed) (code : seed.slot.current = some (.code text)) :
      Move gen ((gen.left id none).noted (.accepted id))
  /-- The innermost hook ends, and its traversal fails. -/
  | reject {gen : Session} {id : SeedId} {continuations : Nat} {outer : List Frame}
      (failure : Option Error) (error : Error)
      (innermost : gen.frames = .hook id continuations :: .traversal :: outer) :
      Move gen ((gen.left id failure).noted (.traversalEnded (some error)))

/-! ### What a move does to a slot -/

/-- **All that a move from `gen` to `gen'` can do to the slot of the seed `id`.** -/
inductive SlotMove (gen gen' : Session) (id : SeedId) : Prop
  /-- The slot stays as it is. -/
  | kept (same : gen'.slot? id = gen.slot? id)
  /-- The seed is registered, and was not stored before. -/
  | registered (blueprint : Blueprint Hook) (new : id = ⟨gen.upper⟩)
      (after : gen' = gen.enroll id (blueprint.registered id))
  /-- The hook of the seed, the innermost of all, sets the result. -/
  | written {seed : Seed Hook} {continuations : Nat} {outer : List Frame} (value : Compiled)
      (innermost : gen.frames = .hook id continuations :: outer)
      (stored : gen.store.get? id = some seed) (unset : seed.slot = .unset)
      (after : gen' = gen.withResult id seed value)
  /-- The result is moved to a local. -/
  | bound {seed : Seed Hook} {value : Compiled} (stored : gen.store.get? id = some seed)
      (unbound : seed.slot = .set value) (after : gen' = gen.moveToLocal id seed value)

theorem Move.slotMove {gen gen' : Session} (move : Move gen gen') (id : SeedId) :
    SlotMove gen gen' id := by
  have hkeep : gen'.slot? = gen.slot? → SlotMove gen gen' id := fun hsame =>
    .kept (congrFun hsame id)
  cases move with
  | register blueprint _ _ _ =>
    by_cases hnew : id = ⟨gen.upper⟩
    · exact .registered blueprint hnew (by rw [hnew])
    · exact .kept (by rw [Generator.slot?_enroll, if_neg hnew])
  | addEdge _ _ _ stored => exact hkeep (Generator.slot?_withSeed_of_same stored rfl)
  | addOrdering _ _ stored => exact hkeep (Generator.slot?_withSeed_of_same stored rfl)
  | setPayload _ stored => exact hkeep (Generator.slot?_withSeed_of_same stored rfl)
  | complete _ _ _ => exact hkeep (Generator.slot?_completed _)
  | @bind other seed value stored unbound =>
    by_cases hown : id = other
    · subst hown
      exact .bound stored unbound rfl
    · exact .kept (by rw [Generator.slot?_moveToLocal stored, if_neg hown])
  | @write other seed continuations outer value innermost stored unset =>
    by_cases hown : id = other
    · subst hown
      exact .written value innermost stored unset rfl
    · exact .kept (by rw [Generator.slot?_withResult stored, if_neg hown])
  | _ => exact hkeep rfl

/-! ### Runs -/

/-- What moves lead to. -/
abbrev Moves : Session → Session → Prop :=
  Relation.ReflTransGen Move

/-- The moments of the runs of a new session. -/
def Reachable (gen : Session) : Prop :=
  ∃ settings candidates origin,
    Session.createWith settings candidates = .ok origin ∧ Moves origin gen

theorem Reachable.moves {gen gen' : Session} (h : Reachable gen) (moves : Moves gen gen') :
    Reachable gen' := by
  obtain ⟨settings, candidates, origin, created, before⟩ := h
  exact ⟨settings, candidates, origin, created, before.trans moves⟩

/-- **Induction over the moments of a run**: what holds of every new session and is kept by every
move holds at every moment. -/
theorem Reachable.induction {P : Session → Prop} {gen : Session} (h : Reachable gen)
    (new : ∀ settings candidates origin, Session.createWith settings candidates = .ok origin →
      P origin)
    (step : ∀ before after, P before → Move before after → P after) : P gen := by
  obtain ⟨settings, candidates, origin, created, moves⟩ := h
  induction moves with
  | refl => exact new settings candidates origin created
  | tail _ move ih => exact step _ _ ih move

end SeedGraph
