import SeedGraph.Proofs.Bookkeeping
import SeedGraph.Proofs.Indexing

/-!
# Generation returns

A traversal runs hooks, a hook starts traversals, and these may begin at any index, also before the
seed that the hook compiles.  Written down as a recursion, a traversal is `traverseWith (compile t)`
with the same traversal `t` for the hooks to start, and no argument of it gets smaller.  What bounds
the recursion is that running hooks belong to different seeds.

## What it means to return

A call returns if the calls that its hooks start return and settle what it comes to.  `Call.Returns`
counts the levels of calls inside one another: a call returns within `levels + 1` levels if the
calls that return within `levels` levels settle its outcome, that is, if the outcome is the same
whatever any other call would be answered.  A call that goes on for ever starts a call that goes on
for ever, and then nothing is settled.

This notion mentions no bound on the depth of hooks.  It is compared with the recursion on such a
bound by which traversals are defined:

* `Call.heeds_traverse`: what returns is what the bounded traversal gives, so nothing returns two
  outcomes (`Request.Returns.unique`).
* `Reachable.returns`: in a session in which at most `depth` more hooks can run inside one another,
  every call returns within `depth + 1` levels.

The second is an induction on the depth.  A hook that is entered leaves one level less, and all
calls that it starts are made in sessions with that much depth (`Inside`); where no depth is left,
all stored seeds are running and no hook is entered at all.
-/

namespace SeedGraph

/-! ### Calls -/

/-- What an operation of a session comes to. -/
abbrev Outcome (α : Type) := EStateM.Result Error Session α

/-- A traversal to be carried out: the result it is given, the seed it starts at and the session. -/
structure Call where
  /-- The result if there is nothing to compile. -/
  initial : Option Compiled
  /-- Where the traversal starts. -/
  start : SeedId
  /-- The session at that moment. -/
  session : Session

namespace Call

/-- What a call comes to if traversals are carried out by `traversal`. -/
def on (call : Call) (traversal : Traversal Hook) : Outcome (Option Compiled) :=
  (traversal call.initial call.start).run call.session

/-- The call returns the outcome, and the calls in it are nested in at most so many levels. -/
def Returns : Nat → Call → Outcome (Option Compiled) → Prop
  | 0, _, _ => False
  | levels + 1, call, outcome =>
    ∀ nested : Traversal Hook,
      (∀ inner answer, Returns levels inner answer → inner.on nested = answer) →
      call.on (Generator.traverseWith (Generator.compile nested)) = outcome

end Call

/-- The traversal answers to all calls that return within so many levels what they return. -/
def Heeds (levels : Nat) (nested : Traversal Hook) : Prop :=
  ∀ inner answer, Call.Returns levels inner answer → inner.on nested = answer

/-- The request returns the outcome, and the calls in it are nested in at most so many levels. -/
def Request.Returns (levels : Nat) (request : Request) (session : Session)
    (outcome : Outcome Answer) : Prop :=
  ∀ nested, Heeds levels nested → (Generator.respond nested request).run session = outcome

namespace Call

/-- **What returns is what the bounded traversal gives.** -/
theorem heeds_traverse (levels : Nat) : Heeds levels (Generator.traverse levels) := by
  induction levels with
  | zero => exact fun _ _ returns => returns.elim
  | succ levels ih => exact fun _ _ returns => returns _ ih

/-- What returns within some levels returns within more. -/
theorem Returns.succ {levels : Nat} {call : Call} {outcome : Outcome (Option Compiled)}
    (returns : call.Returns levels outcome) : call.Returns (levels + 1) outcome := by
  induction levels generalizing call outcome with
  | zero => exact returns.elim
  | succ levels ih =>
    intro nested heeds
    exact returns nested fun inner answer settled => heeds inner answer (ih settled)

end Call

theorem Heeds.of_le {levels more : Nat} (h : levels ≤ more) {nested : Traversal Hook}
    (heeds : Heeds more nested) : Heeds levels nested := by
  induction h with
  | refl => exact heeds
  | step _ ih => exact ih fun inner answer settled => heeds inner answer settled.succ

/-! ### Sessions with enough depth -/

/-- Traversals that answer alike in all sessions in which at most `depth` more hooks can run inside
one another. -/
def AgreeWithin (depth : Nat) (first second : Traversal Hook) : Prop :=
  ∀ (initial : Option Compiled) (start : SeedId) (gen : Session), Reachable gen → gen.Deep depth →
    (first initial start).run gen = (second initial start).run gen

/-- A hook is running, and at most `depth` more hooks can run inside of it. -/
structure Inside (depth : Nat) (outer : List Frame) (cx : Compilation) : Prop where
  /-- The session is at a moment of a run. -/
  reachable : Reachable cx.generator
  /-- There is no room for more hooks. -/
  deep : cx.generator.Deep depth
  /-- The graph is complete. -/
  complete : cx.generator.finalized = true
  /-- The hook is the innermost frame. -/
  innermost : cx.generator.frames = .hook cx.id cx.continuations :: outer

/-- What the hook does leaves it as much depth. -/
theorem Inside.after {depth : Nat} {outer : List Frame} {cx : Compilation}
    (h : Inside depth outer cx) {α : Type} {operation : HookM α}
    (orderly : HookOrderly false operation) : Inside depth outer (stateAfter operation cx) := by
  have hpassage := orderly cx outer h.reachable.numbered h.innermost
  have hrunning := (h.reachable.sameBooks_of_hook h.innermost orderly).running
  have hlength := (hpassage.moves.sameGraph h.complete).length
  have hdeep := h.deep
  refine ⟨h.reachable.moves hpassage.moves, ?_, hpassage.moves.finalized h.complete,
    hpassage.frames⟩
  unfold Generator.Deep at hdeep ⊢
  rw [hrunning, hlength]
  exact hdeep

/-! ### What a hook does depends on the calls that it can make -/

section Congruence

variable {σ α β : Type}

theorem run_bind_congr {x x' : EStateM Error σ α} {s : σ} (h : x.run s = x'.run s)
    (f : α → EStateM Error σ β) : (x >>= f).run s = (x' >>= f).run s := by
  rw [EStateM.run_bind, EStateM.run_bind, h]

theorem run_tryCatch_congr {x x' : EStateM Error σ α} {s : σ} (h : x.run s = x'.run s)
    (handler : Error → EStateM Error σ α) :
    (tryCatch x handler).run s = (tryCatch x' handler).run s := by
  cases hrun : x'.run s with
  | ok value s' => rw [run_tryCatch_ok (h.trans hrun), run_tryCatch_ok hrun]
  | error failure s' => rw [run_tryCatch_error (h.trans hrun), run_tryCatch_error hrun]

theorem Compilation.run_onGenerator_congr {operation operation' : GenM Hook α} {cx : Compilation}
    (h : operation.run cx.generator = operation'.run cx.generator) :
    (onGenerator operation).run cx = (onGenerator operation').run cx := by
  cases hrun : operation'.run cx.generator with
  | ok value gen => rw [run_onGenerator_ok (h.trans hrun), run_onGenerator_ok hrun]
  | error failure gen => rw [run_onGenerator_error (h.trans hrun), run_onGenerator_error hrun]

end Congruence

namespace AgreeWithin

variable {depth : Nat} {nested nested' : Traversal Hook}

theorem run_generate (agree : AgreeWithin depth nested nested') {gen : Session}
    (reachable : Reachable gen) (deep : gen.Deep depth) :
    (Generator.generate nested).run gen = (Generator.generate nested').run gen := by
  unfold Generator.generate
  rw [run_get_bind, run_get_bind, run_require_bind, run_require_bind, agree _ _ gen reachable deep]

theorem run_generateRegion (agree : AgreeWithin depth nested nested') {gen : Session}
    (reachable : Reachable gen) (deep : gen.Deep depth) (start : SeedId) :
    (Generator.generateRegion nested start).run gen =
      (Generator.generateRegion nested' start).run gen := by
  have hinner := agree none start gen.openRegion (reachable.moves (.single .openRegion)) deep
  cases hrun : (nested' none start).run gen.openRegion with
  | ok result gen' =>
    rw [Generator.run_generateRegion_ok (hinner.trans hrun), Generator.run_generateRegion_ok hrun]
  | error failure gen' =>
    rw [Generator.run_generateRegion_error (hinner.trans hrun),
      Generator.run_generateRegion_error hrun]

theorem run_respond (agree : AgreeWithin depth nested nested') {gen : Session}
    (reachable : Reachable gen) (deep : gen.Deep depth) (request : Request) :
    (Generator.respond nested request).run gen = (Generator.respond nested' request).run gen := by
  cases request with
  | generate => exact run_bind_congr (agree.run_generate reachable deep) _
  | generateFrom initial start => exact run_bind_congr (agree _ _ gen reachable deep) _
  | generateRegion start => exact run_bind_congr (agree.run_generateRegion reachable deep start) _
  | _ => rfl

/-- An action makes at most one call, and makes it in a session as deep as its own. -/
theorem run_action (agree : AgreeWithin depth nested nested') {outer : List Frame}
    {cx : Compilation} (inside : Inside depth outer cx) :
    ∀ action : Action, (action.run nested).run cx = (action.run nested').run cx
  | .region start _ =>
    run_bind_congr (Compilation.run_onGenerator_congr
      (agree.run_generateRegion inside.reachable inside.deep (start.seen cx.id))) _
  | .request asked =>
    run_bind_congr (Compilation.run_onGenerator_congr
      (agree.run_respond inside.reachable inside.deep asked)) _
  | .attempt action => run_tryCatch_congr (run_action agree inside action) _
  | .text _ | .clear | .ownId | .ownKind | .ownPayload | .target _ | .input _ | .inputCode _
  | .setResult | .setSeed _ | .leak _ | .proceed | .fail _ => rfl

/-- The actions of a hook are carried out one after the other, and each leaves the next one as much
depth. -/
theorem run_hook (agree : AgreeWithin depth nested nested')
    (orderly : ∀ initial start, Orderly false (nested' initial start)) {outer : List Frame}
    (hook : Hook) {cx : Compilation} (inside : Inside depth outer cx) :
    (hook.run nested).run cx = (hook.run nested').run cx := by
  induction hook generalizing cx with
  | nil => rfl
  | cons action rest ih =>
    show (action.run nested >>= fun _ => Hook.run nested rest).run cx =
      (action.run nested' >>= fun _ => Hook.run nested' rest).run cx
    rw [run_bind_congr (agree.run_action inside action)]
    have hafter := inside.after (action.orderly_run orderly (by simp))
    cases hrun : (action.run nested').run cx with
    | error failure cx' => rw [run_bind_error hrun, run_bind_error hrun]
    | ok value cx' =>
      rw [stateAfter_of_ok hrun] at hafter
      rw [run_bind_ok hrun, run_bind_ok hrun]
      exact ih hafter

end AgreeWithin

/-! ### Walks -/

/-- A traversal is about to take up a seed, and at most `depth` more hooks can run inside one
another. -/
structure Walking (depth : Nat) (outer : List Frame) (gen : Session) : Prop where
  /-- The session is at a moment of a run. -/
  reachable : Reachable gen
  /-- There is no room for more hooks. -/
  deep : gen.Deep depth
  /-- The graph is complete. -/
  complete : gen.finalized = true
  /-- The traversal is the innermost frame. -/
  innermost : gen.frames = .traversal :: outer

namespace Walking

variable {depth : Nat} {outer : List Frame} {gen gen' : Session}

/-- A seed that was compiled leaves as much depth for the next one. -/
theorem after (h : Walking depth outer gen) (passage : Passage false gen gen') :
    Walking depth outer gen' := by
  have hreachable := h.reachable.moves passage.moves
  have hframes := passage.frames
  have hbooks := h.reachable.books.same hreachable.books (by rw [hframes]) (by rw [hframes])
  have hlength := (passage.moves.sameGraph h.complete).length
  have hdeep := h.deep
  refine ⟨hreachable, ?_, passage.moves.finalized h.complete, hframes.trans h.innermost⟩
  unfold Generator.Deep at hdeep ⊢
  rw [hbooks.running, hlength]
  exact hdeep

/-- The hook of an idle seed is entered with one level less. -/
theorem enter (h : Walking (depth + 1) outer gen) {id : SeedId} {seed : Seed Hook}
    (stored : gen.store.get? id = some seed) (unset : seed.slot = .unset)
    (idle : id ∉ gen.running) :
    Inside depth gen.frames { id, generator := gen.entered id } := by
  refine ⟨h.reachable.moves (.single (.enter h.complete h.innermost stored unset idle)), ?_,
    h.complete, Generator.frames_entered gen id⟩
  have hdeep := h.deep
  unfold Generator.Deep at hdeep ⊢
  show gen.store.seeds.length ≤ (id :: gen.running).length + depth
  rw [List.length_cons]
  omega

end Walking

namespace Generator

/-- A running seed is refused, whatever traversal a hook would be given. -/
theorem run_compile_of_running (nested : Traversal Hook) {gen : Session} {id : SeedId}
    (runs : id ∈ gen.running) :
    (compile nested id).run gen = .error (.reentrantCompile id) gen := by
  refine run_bind_error ?_
  rw [requireIdle, run_get_bind, run_require, if_neg (not_not.2 runs)]

/-- Two ways to compile seeds that agree wherever the walk comes give the same walk. -/
theorem run_walk_congr {compile compile' : SeedId → GenM Hook Compiled} {Rest : Session → Prop}
    (same : ∀ gen id seed, Rest gen → gen.store.get? id = some seed → seed.slot = .unset →
      (compile id).run gen = (compile' id).run gen)
    (keeps : ∀ gen id seed value gen', Rest gen → gen.store.get? id = some seed →
      seed.slot = .unset → (compile' id).run gen = .ok value gen' → Rest gen')
    (ids : List SeedId) (latest : Option Compiled) {gen : Session} (rest : Rest gen) :
    (walk compile ids latest).run gen = (walk compile' ids latest).run gen := by
  induction ids generalizing latest gen with
  | nil => rfl
  | cons id ids ih =>
    cases stored : gen.store.get? id with
    | none =>
      unfold walk
      rw [run_bind_error (run_lookup_of_none stored), run_bind_error (run_lookup_of_none stored)]
    | some seed =>
      obtain ⟨value, hmention⟩ | unset := mention?_cases stored
      · rw [run_walk_of_mention ids latest hmention, run_walk_of_mention ids latest hmention]
        exact ih (some value) rest
      · rw [run_walk_of_unset ids latest stored unset, run_walk_of_unset ids latest stored unset,
          run_bind_congr (same gen id seed rest stored unset)]
        cases hrun : (compile' id).run gen with
        | error failure gen' => rw [run_bind_error hrun, run_bind_error hrun]
        | ok value gen' =>
          have hrest := keeps gen id seed value gen' rest stored unset hrun
          rw [run_bind_ok hrun, run_bind_ok hrun]
          cases hagain : gen'.store.get? id with
          | none =>
            rw [run_bind_error (run_lookup_of_none hagain),
              run_bind_error (run_lookup_of_none hagain)]
          | some seed' =>
            rw [run_bind_ok (run_lookup_of_some hagain), run_bind_ok (run_lookup_of_some hagain)]
            by_cases hcloses : seed'.boundary = .closes
            · rw [if_pos hcloses, if_pos hcloses]
            · rw [if_neg hcloses, if_neg hcloses]
              exact ih (some value) hrest

/-- The same for whole traversals. -/
theorem run_traverseWith_congr {compile compile' : SeedId → GenM Hook Compiled}
    (Rest : Session → Prop)
    (same : ∀ gen id seed, Rest gen → gen.store.get? id = some seed → seed.slot = .unset →
      (compile id).run gen = (compile' id).run gen)
    (keeps : ∀ gen id seed value gen', Rest gen → gen.store.get? id = some seed →
      seed.slot = .unset → (compile' id).run gen = .ok value gen' → Rest gen')
    {initial : Option Compiled} {start : SeedId} {gen : Session}
    (rest : gen.finalized = true → Rest (gen.noted .traversalBegan)) :
    (traverseWith compile initial start).run gen =
      (traverseWith compile' initial start).run gen := by
  have hwalk : (walkFrom compile initial start).run (gen.noted .traversalBegan) =
      (walkFrom compile' initial start).run (gen.noted .traversalBegan) := by
    unfold walkFrom
    rw [EStateM.run_bind, EStateM.run_bind, run_requireFinalized]
    by_cases complete : (gen.noted .traversalBegan).finalized = true
    · rw [if_pos complete]
      exact run_walk_congr same keeps _ _ (rest complete)
    · rw [if_neg complete]
  cases hrun : (walkFrom compile' initial start).run (gen.noted .traversalBegan) with
  | ok result last => rw [run_traverseWith_ok (hwalk.trans hrun), run_traverseWith_ok hrun]
  | error failure last =>
    rw [run_traverseWith_error (hwalk.trans hrun), run_traverseWith_error hrun]

end Generator

open Generator in
/-- Compiling a seed makes no calls but those of its hook. -/
theorem AgreeWithin.run_compile {depth : Nat} {nested nested' : Traversal Hook}
    (agree : AgreeWithin depth nested nested')
    (orderly : ∀ initial start, Orderly false (nested' initial start)) {outer : List Frame}
    {gen : Session} (walking : Walking (depth + 1) outer gen) {id : SeedId} {seed : Seed Hook}
    (stored : gen.store.get? id = some seed) (unset : seed.slot = .unset) :
    (compile nested id).run gen = (compile nested' id).run gen := by
  by_cases runs : id ∈ gen.running
  · rw [run_compile_of_running nested runs, run_compile_of_running nested' runs]
  have hidle : (requireIdle id).run gen = .ok () gen := by
    rw [requireIdle, run_get_bind, run_require, if_pos runs]
  have hhook := agree.run_hook orderly seed.hook (walking.enter stored unset runs)
  have hrunHook : (runHook nested id seed.hook).run (gen.entered id) =
      (runHook nested' id seed.hook).run (gen.entered id) := by
    rw [EStateM.run, EStateM.run, runHook, runHook, hhook]
  unfold compile
  rw [run_bind_ok hidle, run_bind_ok hidle, run_bind_ok (run_lookup_of_some stored),
    run_bind_ok (run_lookup_of_some stored), enter, run_modify_bind, run_modify_bind]
  exact run_bind_congr hrunHook _

/-- **Traversals whose hooks start traversals that agree within a depth agree with one level more.**
-/
theorem AgreeWithin.succ {depth : Nat} {nested nested' : Traversal Hook}
    (agree : AgreeWithin depth nested nested')
    (orderly : ∀ initial start, Orderly false (nested' initial start)) :
    AgreeWithin (depth + 1) (Generator.traverseWith (Generator.compile nested))
      (Generator.traverseWith (Generator.compile nested')) := by
  intro initial start gen reachable deep
  refine Generator.run_traverseWith_congr (Walking (depth + 1) gen.frames) ?_ ?_ ?_
  · intro gen id seed walking stored unset
    exact agree.run_compile orderly walking stored unset
  · intro gen id seed value gen' walking stored unset hrun
    have hstrides := Generator.strides_compile orderly walking.reachable.numbered
      walking.complete walking.innermost stored unset
    rw [hrun] at hstrides
    exact walking.after hstrides
  · intro complete
    exact ⟨reachable.moves (.single .beginTraversal), deep, complete, Generator.frames_noted _ _⟩

/-- Where all seeds are running, no hook is entered, so it does not matter what hooks would start.
-/
theorem agreeWithin_zero (nested : Traversal Hook) :
    AgreeWithin 0 (Generator.traverseWith (Generator.compile nested)) (Generator.traverse 0) := by
  intro initial start gen reachable deep
  refine Generator.run_traverseWith_congr (Walking 0 gen.frames) ?_ ?_ ?_
  · intro gen id seed walking stored _
    have hruns := walking.reachable.mem_running walking.deep (Generator.isSome_slot? stored)
    rw [Generator.run_compile_of_running nested hruns]
    rfl
  · intro gen id seed value gen' _ _ _ hrun
    exact nomatch hrun
  · intro complete
    exact ⟨reachable.moves (.single .beginTraversal), deep, complete, Generator.frames_noted _ _⟩

/-! ### All calls return -/

/-- **Every call returns**, within as many levels as there are hooks that can still be entered, and
one more. -/
theorem Reachable.returns {gen : Session} (reachable : Reachable gen) {depth : Nat}
    (deep : gen.Deep depth) (initial : Option Compiled) (start : SeedId) :
    Call.Returns (depth + 1) ⟨initial, start, gen⟩
      ((Generator.traverse depth initial start).run gen) := by
  induction depth generalizing gen initial start with
  | zero => exact fun nested _ => agreeWithin_zero nested initial start gen reachable deep
  | succ depth ih =>
    intro nested heeds
    have hagree : AgreeWithin depth nested (Generator.traverse depth) :=
      fun initial start gen reachable deep => heeds _ _ (ih reachable deep initial start)
    exact hagree.succ (Generator.orderly_traverse depth) initial start gen reachable deep

/-! ### How many hooks run inside one another -/

/-- The running hooks belong to different stored seeds. -/
theorem Reachable.length_running_le {gen : Session} (reachable : Reachable gen) :
    gen.running.length ≤ gen.store.seeds.length := by
  rw [← gen.store.length_ids]
  refine List.Nodup.length_le_of_subset reachable.disciplined.nodup fun id mem => ?_
  have hstored := reachable.running_stored id mem
  rw [Generator.slot?, Option.isSome_map] at hstored
  exact (gen.store.mem_ids_iff id).2 ((gen.store.get?_isSome_iff id).1 hstored)

/-- No event but the beginning of a hook adds to the running hooks. -/
theorem length_hooksIn_nest_le {event : Event} (other : ∀ id, event ≠ .entered id)
    (frames : List Frame) : (hooksIn (event.nest frames)).length ≤ (hooksIn frames).length := by
  have htail : (hooksIn frames.tail).length ≤ (hooksIn frames).length :=
    ((List.tail_sublist frames).filterMap Frame.hookId?).length_le
  cases event with
  | entered id => exact absurd rfl (other id)
  | traversalEnded _ => exact htail
  | regionClosed _ => exact htail
  | left _ _ => exact htail
  | continued _ =>
    cases frames with
    | nil => exact Nat.le_refl _
    | cons frame outer => cases frame <;> exact Nat.le_refl _
  | _ => exact Nat.le_refl _

theorem length_hooksIn_foldl_le {events : List Event} (other : ∀ id, .entered id ∉ events)
    (frames : List Frame) :
    (hooksIn (events.foldl Event.nest frames)).length ≤ (hooksIn frames).length := by
  induction events generalizing frames with
  | nil => exact Nat.le_refl _
  | cons event rest ih =>
    have hfirst : ∀ id, event ≠ .entered id := fun id heq => other id (by rw [heq]; simp)
    have hrest : ∀ id, .entered id ∉ rest := fun id mem => other id (List.mem_cons_of_mem _ mem)
    exact (ih hrest _).trans (length_hooksIn_nest_le hfirst frames)

/-- The store only grows. -/
theorem Move.length_seeds_le {gen gen' : Session} (move : Move gen gen') :
    gen.store.seeds.length ≤ gen'.store.seeds.length := by
  have hlower := move.lower
  have hregistered : gen.store.registered ≤ gen'.store.registered := by
    obtain hsame | ⟨-, hmore⟩ := move.registered_cases
    · exact Nat.le_of_eq hsame.symm
    · exact Nat.le_of_lt (by omega)
  rw [Generator.lower, Generator.lower, Store.lower_eq_preexisting,
    Store.lower_eq_preexisting] at hlower
  rw [Store.length_seeds, Store.length_seeds]
  omega

/-- **At no time in its history did a session have more hooks running than it has seeds.** -/
theorem Moves.length_hooksIn_le {settings : Settings}
    {candidates : List (Candidate (Blueprint Hook))}
    {origin : Session} (created : Session.createWith settings candidates = .ok origin)
    {moment : Session} (moves : Moves origin moment) :
    ∀ before, before <+: moment.journal →
      (hooksIn (openFrames before)).length ≤ moment.store.seeds.length := by
  induction moves with
  | refl =>
    intro before hfront
    have hnew : ∀ id, .entered id ∉ before := fun id mem =>
      Session.not_entered_of_createWith created id (hfront.subset mem)
    exact (length_hooksIn_foldl_le hnew []).trans (Nat.zero_le _)
  | @tail gen gen' earlier move ih =>
    rintro before ⟨after, hsplit⟩
    have hreachable : Reachable gen := ⟨settings, candidates, origin, created, earlier⟩
    have hgrown := move.length_seeds_le
    obtain ⟨added, happended, hentered⟩ := move.appends
    rw [happended] at hsplit
    rcases List.append_eq_append_iff.1 hsplit with ⟨rest, hjournal, -⟩ | ⟨rest, rfl, hadded⟩
    · exact (ih before ⟨rest, hjournal.symm⟩).trans hgrown
    by_cases hnone : ∀ id, .entered id ∉ rest
    · -- What the move has noted so far adds no hook to those that were running.
      have hbefore : (hooksIn (openFrames gen.journal)).length ≤ gen.store.seeds.length := by
        have hrunning := hreachable.length_running_le
        rw [hreachable.books.running] at hrunning
        exact hrunning
      unfold openFrames at hbefore ⊢
      rw [List.foldl_append]
      exact ((length_hooksIn_foldl_le hnone _).trans hbefore).trans hgrown
    · -- A move that enters a hook notes nothing else, so this is the moment after it.
      obtain ⟨id, hid⟩ := not_forall_not.1 hnone
      obtain ⟨hsingle, -, -⟩ := hentered id (by rw [hadded]; exact List.mem_append_left _ hid)
      obtain rfl : rest = added := by
        have hlength := congrArg List.length (hadded.symm.trans hsingle)
        have hpos := List.length_pos_of_mem hid
        rw [List.length_append, List.length_singleton] at hlength
        have hafter : after = [] := List.eq_nil_of_length_eq_zero (by omega)
        rw [hadded, hafter, List.append_nil]
      have hrunning := (hreachable.moves (.single move)).length_running_le
      rw [(hreachable.moves (.single move)).books.running, Generator.frames, happended] at hrunning
      exact hrunning

/-! ### Requests -/

theorem Request.returns_perform {gen : Session} (reachable : Reachable gen) (request : Request) :
    request.Returns (gen.store.seeds.length + 1) gen ((Session.perform request).run gen) := by
  intro nested heeds
  have hagree : AgreeWithin gen.store.seeds.length nested
      (Generator.traverse gen.store.seeds.length) :=
    fun initial start gen reachable deep => heeds _ _ (reachable.returns deep initial start)
  exact hagree.run_respond reachable (Nat.le_add_left _ _) request

/-- A request returns one outcome at most. -/
theorem Request.Returns.unique {levels levels' : Nat} {request : Request} {gen : Session}
    {outcome outcome' : Outcome Answer} (returns : request.Returns levels gen outcome)
    (returns' : request.Returns levels' gen outcome') : outcome = outcome' := by
  have hheeds := Call.heeds_traverse (max levels levels')
  rw [← returns _ (hheeds.of_le (Nat.le_max_left _ _)),
    ← returns' _ (hheeds.of_le (Nat.le_max_right _ _))]

/-- **Generation returns.**  Requests lead a new session from moment to moment, and whatever is
asked at one of these moments, also in the middle of a hook:

* the request returns, with calls nested in no more levels than there are stored seeds and one;
* it returns one outcome only, which is the one that the session gives;
* at no time until then were more hooks running inside one another than there are stored seeds. -/
theorem Session.generation_returns {settings : Settings}
    {candidates : List (Candidate (Blueprint Hook))} {origin : Session}
    (created : createWith settings candidates = .ok origin) :
    (∀ requests, Moves origin (origin.run requests)) ∧
    ∀ moment, Moves origin moment →
      (∀ request : Request, ∃ outcome,
        request.Returns (moment.store.seeds.length + 1) moment outcome ∧
        (∀ levels other, request.Returns levels moment other → other = outcome) ∧
        (perform request).run moment = outcome) ∧
      moment.running.length ≤ moment.store.seeds.length ∧
      ∀ before, before <+: moment.journal →
        (hooksIn (openFrames before)).length ≤ moment.store.seeds.length := by
  refine ⟨moves_run created, fun moment hmoment => ?_⟩
  have hreachable : Reachable moment := ⟨settings, candidates, origin, created, hmoment⟩
  refine ⟨fun request => ⟨(perform request).run moment, ?_, ?_, rfl⟩,
    hreachable.length_running_le, Moves.length_hooksIn_le created hmoment⟩
  · exact request.returns_perform hreachable
  · intro levels other returns
    exact returns.unique (request.returns_perform hreachable)

/-- Two hooks that start traversals at each other and at themselves, and survive the failures. -/
theorem Session.generation_returns_entangled :
    let outer : Blueprint Hook := {
      kind := "outer"
      hook := [.attempt (.region (.at ⟨0⟩) ";"), .attempt (.request (.generateFrom none ⟨1⟩)),
        .attempt (.request .generate), .text "f", .setResult, .proceed] }
    let inner : Blueprint Hook := {
      kind := "inner"
      hook := [.attempt (.request (.generateFrom none ⟨0⟩)), .attempt (.region (.at ⟨1⟩) ";"),
        .text "g", .setResult, .proceed] }
    let requests : List Request := [.register (.seed outer), .register (.seed inner), .finalize]
    (blank.run requests).finalized = true ∧
    ((blank.run requests).step .generate).1 = .ok (.result (some (.code "g"))) ∧
    ((((blank.run requests).step .generate).2.journal.filter fun event =>
      event.enteredId?.isSome).length = 2) ∧
    (blank.run requests).store.seeds.length = 2 ∧
    ∃ outcome,
      Request.generate.Returns ((blank.run requests).store.seeds.length + 1)
        (blank.run requests) outcome ∧
      (perform .generate).run (blank.run requests) = outcome := by
  intro outer inner requests
  obtain ⟨hmoves, hmoments⟩ := generation_returns createWith_blank
  obtain ⟨outcome, hreturns, -, hperform⟩ := (hmoments _ (hmoves requests)).1 .generate
  exact ⟨by decide +kernel, by decide +kernel, by decide +kernel, by decide +kernel, outcome,
    hreturns, hperform⟩

end SeedGraph
