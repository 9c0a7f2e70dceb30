import SeedGraph.Proofs.Frozen
import SeedGraph.Proofs.Ledger
import SeedGraph.Proofs.Program.Hooks

/-!
# Turns

A move says how a session changes, not what it changes for.  The same move takes a result to a local
when a continuation applies the binding policy and when somebody asks for it, and nothing ties it to
the continuation that it belongs to.  *Turns* are coarser than moves where several moves are one
act, and finer where one move can be several: a continuation and all that it does is a single turn,
and a result that is taken to a local on request is a turn of its own.

* `Turn onRequest`: the turns of a session.  Without `onRequest`, no result is bound on request.
* `Session.turns_run`: what requests do to a session is a sequence of turns.  If the graph is
  complete and neither its hooks nor the requests ask for a binding, it is one without such turns.

## Plain turns

Most moves change neither a result nor the emitted statements, and stay what they are.  Of these no
list is needed: `Generator.deeds` counts the results, continuations and statements that are on
record.  No move lowers the count, so an operation that leaves it alone consists of plain turns.

## Hooks that forward

A hook that forwards takes one input and makes it the result.  Its turn says so, which ties the
result of one seed to what another seed showed at that moment.
-/

namespace SeedGraph

/-! ### Deeds -/

/-- Does the event say that a seed got its result, or that a hook invoked its continuation? -/
def Event.isDeed : Event → Bool
  | .resulted _ | .continued _ => true
  | _ => false

/-- How many results, continuations and statements are on record. -/
def Generator.deeds (gen : Session) : Nat :=
  gen.journal.countP Event.isDeed + gen.emissions.length

theorem Generator.deeds_noted {gen : Session} {event : Event} (plain : event.isDeed = false) :
    (gen.noted event).deeds = gen.deeds := by
  unfold deeds noted
  dsimp only
  rw [List.countP_append, List.countP_singleton, plain]
  rfl

theorem Move.deeds_le {gen gen' : Session} (move : Move gen gen') : gen.deeds ≤ gen'.deeds := by
  obtain ⟨added, hjournal, -⟩ := move.appends
  have hcount : gen.journal.countP Event.isDeed ≤ gen'.journal.countP Event.isDeed := by
    rw [hjournal]
    exact (List.prefix_append _ _).countP_le
  exact Nat.add_le_add hcount move.logs.2.length_le

theorem Moves.deeds_le {gen gen' : Session} (moves : Moves gen gen') : gen.deeds ≤ gen'.deeds := by
  induction moves with
  | refl => exact Nat.le_refl _
  | tail _ move ih => exact Nat.le_trans ih move.deeds_le

/-! ### Hooks that bind and hooks that forward -/

/-- Does the request ask for a result to be bound? -/
def Request.binds : Request → Bool
  | .bind _ => true
  | _ => false

/-- Does the action ask for a result to be bound, or attempt to? -/
def Action.binds : Action → Bool
  | .request asked => asked.binds
  | .attempt action => action.binds
  | _ => false

/-- Does the hook ask for a result to be bound, or attempt to? -/
def Hook.binds (hook : Hook) : Bool :=
  hook.any Action.binds

/-- The hook that makes its input under `key` the result. -/
def Hook.forward (key : Key) : Hook :=
  [.input key, .setResult, .proceed]

/-- The input that a hook makes the result, if it does no more than that. -/
def Hook.forwardedKey? : Hook → Option Key
  | [.input key, .setResult, .proceed] => some key
  | _ => none

theorem Hook.eq_forward_of_forwardedKey? {hook : Hook} {key : Key}
    (h : hook.forwardedKey? = some key) : hook = .forward key := by
  unfold forwardedKey? at h
  split at h
  · rw [Option.some.inj h]
    rfl
  · exact absurd h (by simp)

/-- If `value` is what the hook of the seed is about to write and the hook forwards, then `value` is
what the session shows of the input. -/
def Generator.Forwards (gen : Session) (seed : Seed Hook) (value : Compiled) : Prop :=
  ∀ key, seed.hook = .forward key → ∃ target mention, seed.dependencies.get? key = some target ∧
    gen.mention? target = some mention ∧ value = .code mention.display

/-- Unless bindings on request are allowed, the graph is complete and no stored hook asks for one.
-/
def Generator.Permits (onRequest : Bool) (gen : Session) : Prop :=
  onRequest = false → gen.finalized = true ∧
    ∀ id seed, gen.store.get? id = some seed → seed.hook.binds = false

theorem Moves.permits {onRequest : Bool} {gen gen' : Session} (moves : Moves gen gen')
    (h : gen.Permits onRequest) : gen'.Permits onRequest := by
  intro hnone
  obtain ⟨complete, hfree⟩ := h hnone
  refine ⟨moves.finalized complete, fun id seed' hstored => ?_⟩
  obtain ⟨seed, hseed, hdesign⟩ := (moves.sameGraph complete).stored hstored
  rw [← Seed.hook_of_design hdesign]
  exact hfree id seed hseed

/-! ### Turns -/

/-- **The acts of a session.** -/
inductive Turn (onRequest : Bool) : Session → Session → Prop
  /-- A move that is no deed. -/
  | plain {gen gen' : Session} (move : Move gen gen') (quiet : gen'.deeds = gen.deeds) :
      Turn onRequest gen gen'
  /-- A seed is registered, with or without a result. -/
  | register {gen : Session} (blueprint : Blueprint Hook) (opened : gen.finalized = false)
      (unnumbered : blueprint.id = none) (room : gen.HasRoom) :
      Turn onRequest gen (gen.enroll ⟨gen.upper⟩ (blueprint.registered ⟨gen.upper⟩))
  /-- The innermost hook sets the result of its seed. -/
  | write {gen : Session} {id : SeedId} {seed : Seed Hook} {continuations : Nat}
      {outer : List Frame} (value : Compiled)
      (innermost : gen.frames = .hook id continuations :: outer)
      (stored : gen.store.get? id = some seed) (unset : seed.slot = .unset)
      (forwards : gen.Forwards seed value) : Turn onRequest gen (gen.withResult id seed value)
  /-- The innermost hook invokes its continuation for the first time, and has code to show: the
  policy is applied. -/
  | settle {gen : Session} {id : SeedId} {seed : Seed Hook} {text : String} {outer : List Frame}
      (complete : gen.finalized = true) (innermost : gen.frames = .hook id 0 :: outer)
      (stored : gen.store.get? id = some seed) (code : seed.slot = .set (.code text)) :
      Turn onRequest gen ((gen.noted (.continued id)).settled id seed (.code text))
  /-- The innermost hook invokes its continuation again, or has no unbound code to show: the
  continuation does nothing. -/
  | proceedInVain {gen : Session} {id : SeedId} {continuations : Nat} {outer : List Frame}
      (innermost : gen.frames = .hook id continuations :: outer)
      (vain : continuations = 0 → ∀ text, gen.slot? id ≠ some (.set (.code text))) :
      Turn onRequest gen (gen.noted (.continued id))
  /-- A result is bound on request. -/
  | bind {gen : Session} {id : SeedId} {seed : Seed Hook} {value : Compiled}
      (allowed : onRequest = true) (stored : gen.store.get? id = some seed)
      (unbound : seed.slot = .set value) : Turn onRequest gen (gen.moveToLocal id seed value)

/-- What turns lead to. -/
abbrev Turns (onRequest : Bool) : Session → Session → Prop :=
  Relation.ReflTransGen (Turn onRequest)

variable {onRequest : Bool}

/-- Settling a result is at most two moves: the continuation, and the binding. -/
theorem Moves.settled {gen : Session} {id : SeedId} {seed : Seed Hook} {value : Compiled}
    {outer : List Frame} (innermost : gen.frames = .hook id 0 :: outer)
    (stored : gen.store.get? id = some seed) (unbound : seed.slot = .set value) :
    Moves gen ((gen.noted (.continued id)).settled id seed value) := by
  have hproceed : Move gen (gen.noted (.continued id)) := .proceed innermost
  unfold Generator.settled
  split
  · exact .tail (.single hproceed) (.bind stored unbound)
  · split
    · next opens => exact .single (.proceedBlock innermost stored unbound opens)
    · exact .single hproceed

theorem Turn.moves {gen gen' : Session} (turn : Turn onRequest gen gen') : Moves gen gen' := by
  cases turn with
  | plain move _ => exact .single move
  | register blueprint opened unnumbered room =>
    exact .single (.register blueprint opened unnumbered room)
  | write value innermost stored unset _ => exact .single (.write value innermost stored unset)
  | settle _ innermost stored code => exact .settled innermost stored code
  | proceedInVain innermost _ => exact .single (.proceed innermost)
  | bind _ stored unbound => exact .single (.bind stored unbound)

namespace Turns

variable {gen gen' : Session}

theorem moves (turns : Turns onRequest gen gen') : Moves gen gen' := by
  induction turns with
  | refl => exact .refl
  | tail _ turn ih => exact ih.trans turn.moves

theorem plain (move : Move gen gen') (quiet : gen'.deeds = gen.deeds) : Turns onRequest gen gen' :=
  .single (.plain move quiet)

/-- Moves without a deed are plain turns, since no move could make good for a deed of another. -/
theorem of_moves (moves : Moves gen gen') (quiet : gen'.deeds = gen.deeds) :
    Turns onRequest gen gen' := by
  induction moves with
  | refl => exact .refl
  | tail earlier move ih =>
    have hbefore := Moves.deeds_le earlier
    have hafter := move.deeds_le
    refine .tail (ih ?_) (.plain move ?_)
    · omega
    · omega

end Turns

/-! ### Slots along moves -/

/-- The result of a seed as it was compiled, whether it was bound since or not. -/
def Generator.compiled? (gen : Session) (id : SeedId) : Option Compiled :=
  (gen.slot? id).bind Slot.compiled

/-- **A slot only moves forward**: an empty one is filled, and a result is at most bound.  Both are
deeds. -/
theorem Move.slot?_cases {gen gen' : Session} (move : Move gen gen') (id : SeedId) :
    gen'.slot? id = gen.slot? id ∨ gen.slot? id = none ∨ gen.deeds < gen'.deeds ∧
      (gen.slot? id = some .unset ∨ ∃ value name text, gen.slot? id = some (.set value) ∧
        gen'.slot? id = some (.bound name (.code text) value)) := by
  cases move.slotMove id with
  | kept same => exact .inl same
  | registered _ new _ =>
    rw [new]
    exact .inr (.inl gen.slot?_upper)
  | written value _ stored unset after =>
    have hslot := Generator.slot?_of_stored stored
    rw [unset] at hslot
    refine .inr (.inr ⟨?_, .inl hslot⟩)
    rw [after]
    simp [Generator.deeds, Generator.withResult, Generator.noted, Generator.withSeed, Event.isDeed]
  | @bound seed value stored unbound after =>
    have hslot := Generator.slot?_of_stored stored
    rw [unbound] at hslot
    have hafter := Generator.slot?_moveToLocal stored value id
    rw [if_pos rfl, ← after] at hafter
    refine .inr (.inr ⟨?_, .inr ⟨value, _, _, hslot, hafter⟩⟩)
    rw [after]
    simp [Generator.deeds, Generator.moveToLocal]

/-- What a seed compiled to is not changed any more. -/
theorem Moves.compiled? {gen gen' : Session} (moves : Moves gen gen') {id : SeedId}
    {value : Compiled} (h : gen.compiled? id = some value) : gen'.compiled? id = some value := by
  induction moves with
  | refl => exact h
  | @tail moment next _ move ih =>
    obtain ⟨slot, hslot, hvalue⟩ := Option.bind_eq_some_iff.1 ih
    obtain hsame | hnone | ⟨-, hunset | ⟨held, name, text, hset, hbound⟩⟩ := move.slot?_cases id
    · rw [Generator.compiled?, hsame]
      exact ih
    · rw [hnone] at hslot
      exact absurd hslot (by simp)
    · obtain rfl : .unset = slot := by simpa [hunset] using hslot
      exact absurd hvalue (by simp [Slot.compiled])
    · obtain rfl : .set held = slot := by simpa [hset] using hslot
      rw [Generator.compiled?, hbound]
      exact hvalue

/-- A seed whose result is code shows code from then on. -/
theorem Moves.mention?_code {gen gen' : Session} (moves : Moves gen gen') {id : SeedId}
    (h : ∃ text, gen.mention? id = some (.code text)) :
    ∃ text, gen'.mention? id = some (.code text) := by
  induction moves with
  | refl => exact h
  | @tail moment next _ move ih =>
    obtain ⟨text, hmention⟩ := ih
    obtain ⟨slot, hslot, hvalue⟩ := Option.bind_eq_some_iff.1 hmention
    obtain hsame | hnone | ⟨-, hunset | ⟨held, name, reference, -, hbound⟩⟩ := move.slot?_cases id
    · rw [Generator.mention?, hsame]
      exact ⟨text, hmention⟩
    · rw [hnone] at hslot
      exact absurd hslot (by simp)
    · obtain rfl : .unset = slot := by simpa [hunset] using hslot
      exact absurd hvalue (by simp [Slot.current])
    · rw [Generator.mention?, hbound]
      exact ⟨reference, rfl⟩

/-! ### Acceptance -/

/-- A seed is accepted by the end of its own hook, if that invoked its continuation once and left
code. -/
theorem Move.accepted {gen gen' : Session} (move : Move gen gen') {id : SeedId}
    (h : .accepted id ∈ gen'.journal) :
    .accepted id ∈ gen.journal ∨
      .hook id 1 ∈ gen.frames ∧ ∃ text, gen.mention? id = some (.code text) := by
  have hsingle : ∀ event, gen'.journal = gen.journal ++ [event] → event ≠ .accepted id →
      .accepted id ∈ gen.journal := by
    intro event hjournal hother
    rw [hjournal, List.mem_append, List.mem_singleton] at h
    exact h.resolve_right fun heq => hother heq.symm
  cases move with
  | register blueprint _ _ _ =>
    left
    refine (List.mem_append.1 h).resolve_right fun hnew => ?_
    rcases List.mem_cons.1 hnew with heq | hgiven
    · exact absurd heq (by simp)
    · exact absurd (Generator.mem_givenResult.1 hgiven).2 (by simp)
  | openScope _ _ _ => exact .inl (hsingle _ rfl (by simp))
  | closeScope _ => exact .inl (hsingle _ rfl (by simp))
  | memoize _ _ => exact .inl (hsingle _ rfl (by simp))
  | remark event plain =>
    refine .inl (hsingle event rfl ?_)
    rintro rfl
    exact absurd plain (by simp [Event.isRemark])
  | openRegion => exact .inl (hsingle _ rfl (by simp))
  | closeRegion _ _ => exact .inl (hsingle _ rfl (by simp))
  | beginTraversal => exact .inl (hsingle _ rfl (by simp))
  | endTraversal _ _ => exact .inl (hsingle _ rfl (by simp))
  | enter _ _ _ _ _ => exact .inl (hsingle _ rfl (by simp))
  | write _ _ _ _ => exact .inl (hsingle _ rfl (by simp))
  | proceed _ => exact .inl (hsingle _ rfl (by simp))
  | proceedBlock _ _ _ _ => exact .inl (hsingle _ rfl (by simp))
  | @accept own seed text outer innermost stored code =>
    have hcases : .accepted id ∈ gen.journal ∨ id = own := by
      simpa [Generator.noted, Generator.left] using h
    rcases hcases with hearlier | rfl
    · exact .inl hearlier
    · refine .inr ⟨by rw [innermost]; exact List.mem_cons_self, text, ?_⟩
      rw [Generator.mention?, Generator.slot?_of_stored stored]
      exact code
  | reject failure error _ =>
    left
    simpa [Generator.noted, Generator.left] using h
  | _ => exact .inl h

/-- **What was accepted shows code.** -/
theorem Reachable.accepted_code {gen : Session} (reachable : Reachable gen) {id : SeedId}
    (accepted : .accepted id ∈ gen.journal) : ∃ text, gen.mention? id = some (.code text) := by
  obtain ⟨settings, candidates, origin, created, moves⟩ := reachable
  induction moves with
  | refl =>
    have hresulted : ∀ event ∈ origin.journal, ∃ other, event = .resulted other := by
      obtain ⟨platform, blueprints, -, -, -, rfl⟩ := createWith_eq_ok created
      intro event mem
      obtain ⟨⟨other, seed⟩, -, hgiven⟩ := List.mem_flatMap.1 mem
      exact ⟨other, (Generator.mem_givenResult.1 hgiven).2⟩
    obtain ⟨other, heq⟩ := hresulted _ accepted
    exact absurd heq (by simp)
  | tail _ move ih =>
    rcases move.accepted accepted with hearlier | ⟨-, hcode⟩
    · exact Moves.mention?_code (.single move) (ih hearlier)
    · exact Moves.mention?_code (.single move) hcode

/-! ### Frames and plain turns -/

/-- An event that is no deed adds no hook to the frames but the one that it enters. -/
theorem Event.hook_mem_nest {event : Event} (plain : event.isDeed = false) {frames : List Frame}
    {id : SeedId} {continuations : Nat} (h : .hook id continuations ∈ event.nest frames) :
    .hook id continuations ∈ frames ∨ (continuations = 0 ∧ event = .entered id) := by
  cases event with
  | traversalBegan => exact .inl ((List.mem_cons.1 h).resolve_left (by simp))
  | regionOpened => exact .inl ((List.mem_cons.1 h).resolve_left (by simp))
  | entered other =>
    rcases List.mem_cons.1 h with heq | hin
    · obtain ⟨rfl, rfl⟩ := Frame.hook.inj heq
      exact .inr ⟨rfl, rfl⟩
    · exact .inl hin
  | continued _ => exact absurd plain (by simp [Event.isDeed])
  | traversalEnded _ => exact .inl (List.mem_of_mem_tail h)
  | regionClosed _ => exact .inl (List.mem_of_mem_tail h)
  | left _ _ => exact .inl (List.mem_of_mem_tail h)
  | _ => exact .inl h

theorem hook_mem_foldl_nest {events : List Event}
    (plain : ∀ event ∈ events, event.isDeed = false) {frames : List Frame} {id : SeedId}
    {continuations : Nat} (h : .hook id continuations ∈ events.foldl Event.nest frames) :
    .hook id continuations ∈ frames ∨ (continuations = 0 ∧ .entered id ∈ events) := by
  induction events generalizing frames with
  | nil => exact .inl h
  | cons event rest ih =>
    rcases ih (fun other hother => plain other (List.mem_cons_of_mem _ hother)) h with
      hnow | ⟨hzero, hlater⟩
    · rcases Event.hook_mem_nest (plain event List.mem_cons_self) hnow with hin | ⟨hzero, rfl⟩
      · exact .inl hin
      · exact .inr ⟨hzero, List.mem_cons_self⟩
    · exact .inr ⟨hzero, List.mem_cons_of_mem _ hlater⟩

/-- A move without a deed: nothing that is on record about results and statements changes, and a
hook that is new among the frames was entered for a seed without a result. -/
structure Undisturbed (gen gen' : Session) : Prop where
  /-- The events are no deeds. -/
  journal : ∃ events, gen'.journal = gen.journal ++ events ∧ ∀ event ∈ events, event.isDeed = false
  /-- Nothing is emitted. -/
  emissions : gen'.emissions = gen.emissions
  /-- Seeds that are stored keep their slots. -/
  slots : ∀ id, gen.slot? id ≠ none → gen'.slot? id = gen.slot? id
  /-- A hook among the frames was there before, or its seed had no result. -/
  frames : ∀ id continuations, .hook id continuations ∈ gen'.frames →
    .hook id continuations ∈ gen.frames ∨ (continuations = 0 ∧ gen.slot? id = some .unset)

theorem Move.undisturbed {gen gen' : Session} (move : Move gen gen')
    (quiet : gen'.deeds = gen.deeds) : Undisturbed gen gen' := by
  obtain ⟨events, hjournal, hentered⟩ := move.appends
  have hlonger := move.logs.2.length_le
  have hcount : gen'.journal.countP Event.isDeed =
      gen.journal.countP Event.isDeed + events.countP Event.isDeed := by
    rw [hjournal, List.countP_append]
  have hsums := quiet
  unfold Generator.deeds at hsums
  have hnone : ∀ event ∈ events, event.isDeed = false := by
    have hzero : events.countP Event.isDeed = 0 := by omega
    intro event hevent
    exact Bool.eq_false_iff.2 (List.countP_eq_zero.1 hzero event hevent)
  have hemissions : gen'.emissions = gen.emissions :=
    (move.logs.2.eq_of_length (by omega)).symm
  refine ⟨⟨events, hjournal, hnone⟩, hemissions, fun id hstored => ?_,
    fun id continuations hmem => ?_⟩
  · obtain hsame | hmissing | ⟨hdeed, -⟩ := move.slot?_cases id
    · exact hsame
    · exact absurd hmissing hstored
    · exact absurd quiet (Nat.ne_of_gt hdeed)
  · rw [Generator.frames, openFrames, hjournal, List.foldl_append] at hmem
    rcases hook_mem_foldl_nest hnone hmem with hin | ⟨hzero, hentrance⟩
    · exact .inl hin
    · obtain ⟨-, -, ⟨seed, stored, unset⟩, -⟩ := hentered id hentrance
      exact .inr ⟨hzero, by rw [Generator.slot?_of_stored stored, unset]⟩

end SeedGraph
