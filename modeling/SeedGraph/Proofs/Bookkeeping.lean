import Mathlib.Data.List.Perm.Subperm
import SeedGraph.Proofs.Slots
import SeedGraph.Proofs.Tour

/-!
# The books of a session

A session keeps two records of what is going on: the list of the seeds whose hooks are running, and
the number of nested regions that are being generated.  Both are changed and put back by hand around
hooks and traversals that may fail, be survived, and start further ones.

* `Books`: the two records say what the open frames say.  They are therefore the same before and
  after whatever closes just the frames that it opens, and by `Orderly` that is every operation,
  whether it succeeds or fails.
* A hook that ended is taken off the list wherever it stands there.  That this takes off the last
  one only is due to the list having no repetitions.
* `Generator.FailsItself`: the failure of a traversal is its own, and not one that a hook has
  brought about.
* `Generator.ComesTo`: the walk of a traversal reaches a seed.

## Enough depth

The recursion behind traversals is on a bound for the number of hooks that can run inside one
another, and a traversal of depth zero reports every seed without a result as running.  A session is
`Deep` for a depth if that is never wrong: then all stored seeds are running once the depth is used
up (`Reachable.mem_running`).  A request starts with enough depth, and every hook hands on enough of
it (`Generator.Deep.inside`).
-/

namespace SeedGraph

/-! ### The two records -/

/-- The records of a session say what is going on. -/
structure Books (gen : Session) : Prop where
  /-- The running hooks are listed as they are stacked. -/
  running : gen.running = hooksIn gen.frames
  /-- No hook is listed twice. -/
  nodup : gen.running.Nodup
  /-- The regions that are being generated are counted. -/
  regionDepth : gen.regionDepth = gen.frames.count .region

theorem Reachable.books {gen : Session} (h : Reachable gen) : Books gen := by
  have hdisciplined := h.disciplined
  obtain ⟨settings, candidates, origin, created, moves⟩ := h
  obtain ⟨platform, blueprints, -, -, -, rfl⟩ := createWith_eq_ok created
  refine ⟨hdisciplined.running, hdisciplined.nodup, moves.regionDepth ?_⟩
  rw [Generator.frames_ofStore]
  rfl

/-- Two sessions have the same records. -/
structure SameBooks (gen gen' : Session) : Prop where
  /-- The same hooks are listed, in the same order. -/
  running : gen'.running = gen.running
  /-- As many regions are counted. -/
  regionDepth : gen'.regionDepth = gen.regionDepth

/-- The records depend on the open frames only, and there on the hooks and not on their
continuations. -/
theorem Books.same {gen gen' : Session} (h : Books gen) (h' : Books gen')
    (hooks : hooksIn gen'.frames = hooksIn gen.frames)
    (regions : gen'.frames.count .region = gen.frames.count .region) : SameBooks gen gen' :=
  ⟨h'.running.trans (hooks.trans h.running.symm),
    h'.regionDepth.trans (regions.trans h.regionDepth.symm)⟩

namespace Reachable

variable {gen : Session}

/-- **An orderly operation leaves the records as they are**, whether it succeeds or fails. -/
theorem sameBooks (reachable : Reachable gen) {α : Type} {operation : GenM Hook α}
    (h : Orderly false operation) : SameBooks gen (stateAfter operation gen) := by
  have hpassage := h gen reachable.numbered
  refine reachable.books.same (reachable.moves hpassage.moves).books ?_ ?_
  · rw [hpassage.frames]
  · rw [hpassage.frames]

/-- The same for an operation of the innermost hook, which may count a continuation. -/
theorem sameBooks_of_hook {cx : Compilation} (reachable : Reachable cx.generator)
    {outer : List Frame} (innermost : cx.generator.frames = .hook cx.id cx.continuations :: outer)
    {α : Type} {operation : HookM α} (h : HookOrderly false operation) :
    SameBooks cx.generator (stateAfter operation cx).generator := by
  have hpassage := h cx outer reachable.numbered innermost
  refine reachable.books.same (reachable.moves hpassage.moves).books ?_ ?_
  · rw [hpassage.frames, innermost, hpassage.id]
    rfl
  · rw [hpassage.frames, innermost]
    rfl

end Reachable

/-! ### Enough depth -/

theorem Move.running_stored {gen gen' : Session} (move : Move gen gen')
    (h : ∀ id ∈ gen.running, (gen.slot? id).isSome) :
    ∀ id ∈ gen'.running, (gen'.slot? id).isSome := by
  have hkept : ∀ id ∈ gen.running, (gen'.slot? id).isSome := fun id mem => move.stored (h id mem)
  cases move with
  | @enter id seed _ _ _ stored _ _ =>
    intro other mem
    rcases List.mem_cons.1 mem with rfl | mem
    · exact Generator.isSome_slot? stored
    · exact hkept other mem
  | accept _ _ _ => exact fun other mem => hkept other (List.mem_of_mem_filter mem)
  | reject _ _ _ => exact fun other mem => hkept other (List.mem_of_mem_filter mem)
  | _ => exact hkept

theorem Reachable.running_stored {gen : Session} (h : Reachable gen) :
    ∀ id ∈ gen.running, (gen.slot? id).isSome := by
  refine h.induction (fun settings candidates origin created => ?_) fun _ _ hbefore move =>
    move.running_stored hbefore
  obtain ⟨platform, blueprints, -, -, -, rfl⟩ := createWith_eq_ok created
  exact fun id mem => absurd mem List.not_mem_nil

/-- No more than `depth` further hooks can run inside of those that are running. -/
def Generator.Deep (gen : Session) (depth : Nat) : Prop :=
  gen.store.seeds.length ≤ gen.running.length + depth

/-- **Where no hook can be added, all seeds are running.** -/
theorem Reachable.mem_running {gen : Session} (reachable : Reachable gen) (deep : gen.Deep 0)
    {id : SeedId} (stored : (gen.slot? id).isSome) : id ∈ gen.running := by
  have hin : ∀ {other : SeedId}, (gen.slot? other).isSome → other ∈ gen.store.ids := by
    intro other hother
    rw [Generator.slot?, Option.isSome_map] at hother
    exact (gen.store.mem_ids_iff other).2 ((gen.store.get?_isSome_iff other).1 hother)
  have hsubperm : List.Subperm gen.running gen.store.ids :=
    reachable.disciplined.nodup.subperm fun other mem => hin (reachable.running_stored other mem)
  have hlength : gen.store.ids.length ≤ gen.running.length := by
    rw [Store.length_ids]
    exact deep
  exact (hsubperm.perm_of_length_le hlength).mem_iff.2 (hin stored)

/-- The lowest frames, as far as hooks are concerned, outermost first. -/
def beneath (floor : Nat) (frames : List Frame) : List (Option SeedId) :=
  (frames.map Frame.hookId?).reverse.take floor

theorem beneath_cons {floor : Nat} {frames : List Frame} (h : floor ≤ frames.length)
    (frame : Frame) : beneath floor (frame :: frames) = beneath floor frames := by
  unfold beneath
  rw [List.map_cons, List.reverse_cons, List.take_append_of_le_length]
  rw [List.length_reverse, List.length_map]
  exact h

/-- What happens above the floor does not show beneath it. -/
theorem beneath_nest {floor : Nat} {frames : List Frame} (event : Event)
    (before : floor ≤ frames.length) (after : floor ≤ (event.nest frames).length) :
    beneath floor (event.nest frames) = beneath floor frames := by
  have hpop : floor ≤ frames.tail.length → beneath floor frames.tail = beneath floor frames := by
    intro hlength
    cases frames with
    | nil => rfl
    | cons frame outer => exact (beneath_cons hlength frame).symm
  cases event with
  | traversalBegan => exact beneath_cons before _
  | regionOpened => exact beneath_cons before _
  | entered id => exact beneath_cons before _
  | traversalEnded _ => exact hpop after
  | regionClosed _ => exact hpop after
  | left _ _ => exact hpop after
  | continued _ =>
    cases frames with
    | nil => rfl
    | cons frame outer => cases frame <;> rfl
  | _ => rfl

theorem Move.beneath {gen gen' : Session} (move : Move gen gen') {floor : Nat}
    (before : floor ≤ gen.frames.length) (after : floor ≤ gen'.frames.length) :
    SeedGraph.beneath floor gen'.frames = SeedGraph.beneath floor gen.frames := by
  have hsingle : ∀ event : Event, gen'.frames = event.nest gen.frames →
      SeedGraph.beneath floor gen'.frames = SeedGraph.beneath floor gen.frames := by
    intro event hframes
    rw [hframes] at after ⊢
    exact beneath_nest event before after
  cases move with
  | register _ _ _ _ => rw [Generator.frames_enroll]
  | openScope _ _ _ => exact hsingle _ (Generator.frames_noted _ _)
  | closeScope _ => exact hsingle _ (Generator.frames_noted _ _)
  | memoize _ _ => exact hsingle _ (Generator.frames_noted _ _)
  | remark event _ => exact hsingle event (Generator.frames_noted _ _)
  | openRegion => exact hsingle .regionOpened (Generator.frames_openRegion _)
  | closeRegion region _ => exact hsingle (.regionClosed region) (Generator.frames_closeRegion _ _)
  | beginTraversal => exact hsingle _ (Generator.frames_noted _ _)
  | endTraversal _ _ => exact hsingle _ (Generator.frames_noted _ _)
  | @enter id _ _ _ _ _ _ _ => exact hsingle (.entered id) (Generator.frames_entered _ _)
  | write _ _ _ _ => rw [Generator.frames_withResult]
  | proceed _ => exact hsingle _ (Generator.frames_noted _ _)
  | @proceedBlock id _ _ _ _ _ _ _ => exact hsingle (.continued id) (Generator.frames_noted _ _)
  | @accept id _ _ _ innermost _ _ =>
    refine hsingle (.left id none) ?_
    rw [Generator.frames_accepted innermost, innermost]
    rfl
  | reject failure error innermost =>
    -- Two frames are closed at once, and both lie above the floor.
    rw [Generator.frames_noted, Generator.frames_left, innermost] at after ⊢
    have hinner := beneath_cons after Frame.traversal
    refine hinner.symm.trans (beneath_cons ?_ _).symm
    exact Nat.le_succ_of_le after
  | _ => rfl

namespace Route

variable {level : Bool} {floor : Nat} {gen gen' : Session}

theorem beneath (route : Route level floor gen gen') (h : floor ≤ gen.frames.length) :
    SeedGraph.beneath floor gen'.frames = SeedGraph.beneath floor gen.frames := by
  induction route with
  | refl => rfl
  | tail earlier step ih => exact (step.1.beneath (floor_le earlier h) step.2.1).trans ih

/-- **The hooks beneath a route keep running.** -/
theorem hooks_suffix (route : Route level gen.frames.length gen gen') :
    hooksIn gen.frames <:+ hooksIn gen'.frames := by
  have hbeneath := route.beneath (Nat.le_refl _)
  have hall : SeedGraph.beneath gen.frames.length gen.frames =
      (gen.frames.map Frame.hookId?).reverse := by
    unfold SeedGraph.beneath
    exact List.take_of_length_le (by simp)
  have hprefix : (gen.frames.map Frame.hookId?).reverse <+:
      (gen'.frames.map Frame.hookId?).reverse := by
    rw [← hall, ← hbeneath]
    exact List.take_prefix _ _
  have hsuffix := (List.reverse_prefix.1 hprefix).filterMap id
  rw [List.filterMap_map, List.filterMap_map] at hsuffix
  exact hsuffix

end Route

/-- **A hook hands on enough depth**: one level less than it was entered with. -/
theorem Generator.Deep.inside {gen inside : Session} {depth : Nat} (deep : gen.Deep (depth + 1))
    (reachable : Reachable gen) (complete : gen.finalized = true) {id : SeedId}
    (enter : Move gen (gen.entered id)) {level : Bool}
    (route : Route level (gen.frames.length + 1) (gen.entered id) inside) : inside.Deep depth := by
  have hentered : Reachable (gen.entered id) := reachable.moves (.single enter)
  have hinside : Reachable inside := hentered.moves route.moves
  have hfloor : gen.frames.length + 1 = (gen.entered id).frames.length := by
    rw [frames_entered]
    rfl
  rw [hfloor] at route
  have hsuffix := route.hooks_suffix
  rw [← hentered.books.running, ← hinside.books.running] at hsuffix
  have hlonger : gen.running.length + 1 ≤ inside.running.length := hsuffix.length_le
  have hseeds : inside.store.seeds.length = gen.store.seeds.length :=
    (route.moves.sameGraph (show (gen.entered id).finalized = true from complete)).length
  unfold Deep at deep ⊢
  omega

/-! ### The own failures of a traversal -/

/-- Seeds that do not end a walk are walked over as on a tour. -/
theorem Tour.run_walk {compile : SeedId → GenM Hook Compiled} {gen gen' : Session}
    {visits : List (SeedId × Session)} (tour : Tour compile gen visits gen')
    (complete : gen.finalized = true)
    (goesOn : ∀ id ∈ freshIds visits, gen.store.closes id = false) (rest : List SeedId)
    (latest : Option Compiled) :
    ∃ latest', (Generator.walk compile (visits.map Prod.fst ++ rest) latest).run gen =
      (Generator.walk compile rest latest').run gen' := by
  induction tour generalizing latest with
  | done gen => exact ⟨latest, rfl⟩
  | @pass gen gen' id visits result on ih =>
    rw [freshIds_cons_of_hasResult result] at goesOn
    obtain ⟨value, hvalue⟩ := Option.isSome_iff_exists.1 ((Generator.isSome_mention? id).2 result)
    obtain ⟨latest', hrun⟩ := ih complete goesOn (some value)
    exact ⟨latest', (Generator.run_walk_of_mention _ latest hvalue).trans hrun⟩
  | @compiled gen ending gen' id seed value visits stored unset ran hook accept on ih =>
    rw [freshIds_cons_of_unset stored unset] at goesOn
    have hmoves := (hook.passage accept).moves
    have hsame := hmoves.sameGraph complete
    obtain ⟨seed', hstored', hdesign⟩ := hsame.symm.stored stored
    have hopen : seed'.boundary ≠ .closes := by
      rw [Seed.boundary_of_design hdesign]
      intro hcloses
      have hends := (Store.closes_of_stored stored).2 hcloses
      rw [goesOn id List.mem_cons_self] at hends
      exact absurd hends (by simp)
    have hrest := fun other mem => goesOn other (List.mem_cons_of_mem _ mem)
    rw [← hsame.closes] at hrest
    obtain ⟨latest', hrun⟩ := ih (hmoves.finalized complete) hrest (some value)
    refine ⟨latest', ?_⟩
    rw [List.map_cons, List.cons_append, Generator.run_walk_of_unset _ latest stored unset,
      run_bind_ok ran, run_bind_ok (Generator.run_lookup_of_some hstored'), if_neg hopen]
    exact hrun

namespace Generator

/-- One step of a walk that fails: its first seed is passed over, or is where the walk fails, or is
compiled and closes no region. -/
theorem walk_cons_error_cases {compile : SeedId → GenM Hook Compiled} (runs : RunsHooks compile)
    {outer : List Frame} {id : SeedId} {rest : List SeedId} {latest : Option Compiled}
    {gen : Session} (numbered : gen.store.Numbered) (complete : gen.finalized = true)
    (hframes : gen.frames = .traversal :: outer) {seed : Seed Hook}
    (stored : gen.store.get? id = some seed) {failure : Error} {last : Session}
    (hrun : (walk compile (id :: rest) latest).run gen = .error failure last) :
    (∃ value, gen.HasResult id ∧ (walk compile rest (some value)).run gen = .error failure last) ∨
    (seed.slot = .unset ∧ (compile id).run gen = .error failure last) ∨
    ∃ ending next value, seed.slot = .unset ∧ (compile id).run gen = .ok value next ∧
      HookRun gen id seed 1 ending ∧ next = (ending.left id none).noted (.accepted id) ∧
      Move ending next ∧ gen.store.closes id = false ∧
      (walk compile rest (some value)).run next = .error failure last := by
  obtain ⟨value, hmention⟩ | unset := mention?_cases stored
  · rw [run_walk_of_mention rest latest hmention] at hrun
    exact .inl ⟨value, (isSome_mention? id).1 (by rw [hmention]; rfl), hrun⟩
  rw [run_walk_of_unset rest latest stored unset, EStateM.run_bind] at hrun
  cases hcompile : (compile id).run gen with
  | error other gen' =>
    rw [hcompile] at hrun
    injection hrun with hfailure hlast
    exact .inr (.inl ⟨unset, by rw [hfailure, hlast]⟩)
  | ok value next =>
    rw [hcompile] at hrun
    obtain ⟨ending, hhook, hnext, haccept, -⟩ :=
      runs gen outer id seed numbered complete hframes stored unset value next hcompile
    refine .inr (.inr ⟨ending, next, value, unset, rfl, hhook, hnext, haccept, ?_⟩)
    have hmoves : Moves gen next := by
      rw [hnext] at haccept ⊢
      exact (hhook.passage haccept).moves
    obtain ⟨seed', hstored', hdesign⟩ := (hmoves.sameGraph complete).symm.stored stored
    dsimp only at hrun
    rw [run_bind_ok (run_lookup_of_some hstored'), Seed.boundary_of_design hdesign] at hrun
    by_cases hends : seed.boundary = .closes
    · rw [if_pos hends] at hrun
      exact absurd hrun (by simp)
    · rw [if_neg hends] at hrun
      exact ⟨Bool.eq_false_iff.2 fun h => hends ((Store.closes_of_stored stored).1 h), hrun⟩

/-- **A walk that fails is a tour to the seed at which it fails.** -/
theorem exists_tour_of_walk_error {compile : SeedId → GenM Hook Compiled} (runs : RunsHooks compile)
    {outer : List Frame} (ids : List SeedId) (latest : Option Compiled) (gen : Session)
    (numbered : gen.store.Numbered) (complete : gen.finalized = true)
    (hframes : gen.frames = .traversal :: outer)
    (stored : ∀ id ∈ ids, (gen.store.get? id).isSome) {failure : Error} {last : Session}
    (hrun : (walk compile ids latest).run gen = .error failure last) :
    ∃ visits id rest moment seed, Tour compile gen visits moment ∧
      ids = visits.map Prod.fst ++ id :: rest ∧
      (∀ seen ∈ freshIds visits, gen.store.closes seen = false) ∧
      moment.store.get? id = some seed ∧ seed.slot = .unset ∧
      (compile id).run moment = .error failure last := by
  induction ids generalizing latest gen with
  | nil => exact absurd hrun (by simp [walk])
  | cons id others ih =>
    have hothers := fun other mem => stored other (List.mem_cons_of_mem id mem)
    obtain ⟨seed, hstored⟩ := Option.isSome_iff_exists.1 (stored id List.mem_cons_self)
    obtain ⟨value, hset, hrest⟩ | ⟨unset, hfail⟩ |
        ⟨ending, _, value, unset, hran, hhook, rfl, haccept, hcloses, hrest⟩ :=
      walk_cons_error_cases runs numbered complete hframes hstored hrun
    · obtain ⟨visits, failed, rest, moment, found, htour, hids, hon, hat⟩ :=
        ih (some value) gen numbered complete hframes hothers hrest
      refine ⟨(id, gen) :: visits, failed, rest, moment, found, .pass hset htour, ?_, ?_, hat⟩
      · rw [hids]
        rfl
      · rw [freshIds_cons_of_hasResult hset]
        exact hon
    · exact ⟨[], id, others, gen, seed, .done gen, rfl, by simp [freshIds], hstored, unset, hfail⟩
    · have hpassage := hhook.passage haccept
      have hsame := hpassage.moves.sameGraph complete
      -- The graph is complete, so what was stored before the hook ran is stored after it.
      have hkept : ∀ other ∈ others,
          (((ending.left id none).noted (.accepted id)).store.get? other).isSome := by
        intro other mem
        obtain ⟨found, hfound⟩ := Option.isSome_iff_exists.1 (hothers other mem)
        obtain ⟨found', hfound', -⟩ := hsame.symm.stored hfound
        exact Option.isSome_iff_exists.2 ⟨found', hfound'⟩
      obtain ⟨visits, failed, rest, moment, found, htour, hids, hon, hat⟩ :=
        ih (some value) _ (hpassage.moves.numbered numbered) (hpassage.moves.finalized complete)
          (hpassage.frames.trans hframes) hkept hrest
      refine ⟨(id, gen) :: visits, failed, rest, moment, found,
        .compiled hstored unset hran hhook haccept htour, ?_, ?_, hat⟩
      · rw [hids]
        rfl
      · rw [hsame.closes] at hon
        rw [freshIds_cons_of_unset hstored unset, List.forall_mem_cons]
        exact ⟨hcloses, hon⟩

/-- The last that happened is that a hook failed. -/
def HookFailed (gen : Session) : Prop :=
  ∃ id reason, gen.journal.getLast? = some (.left id (some reason))

/-- On a tour no hook fails. -/
theorem not_hookFailed_of_tour {compile : SeedId → GenM Hook Compiled} {gen gen' : Session}
    {visits : List (SeedId × Session)} (tour : Tour compile gen visits gen')
    (h : ¬gen.HookFailed) : ¬gen'.HookFailed := by
  induction tour with
  | done gen => exact h
  | pass _ _ ih => exact ih h
  | @compiled _ ending _ id _ _ _ _ _ _ _ _ _ ih =>
    refine ih ?_
    rintro ⟨other, reason, hlast⟩
    have hend : ((ending.left id none).noted (.accepted id)).journal.getLast? =
        some (.accepted id) := List.getLast?_concat
    rw [hend] at hlast
    exact absurd hlast (by simp)

/-- A traversal fails, and the failure is its own: it does not pass on that of a hook. -/
def FailsItself (traversal : GenM Hook (Option Compiled)) (gen : Session)
    (failure : Error) : Prop :=
  ∃ last : Session, ¬last.HookFailed ∧
    traversal.run gen = .error failure (last.noted (.traversalEnded (some failure)))

/-- A traversal that is begun in `gen` comes to the seed `id` in the session `moment`: it has walked
over all stored seeds from its start to `id`, passing over some and compiling others, and none of
the latter has ended it. -/
def ComesTo (gen : Session) (depth : Nat) (start id : SeedId) (moment : Session) : Prop :=
  gen.finalized = true ∧ ∃ visits rest,
    Tour (compileAt depth) (gen.noted .traversalBegan) visits moment ∧
    gen.store.idsFrom start = visits.map Prod.fst ++ id :: rest ∧
    ∀ seen ∈ freshIds visits, gen.store.closes seen = false

namespace ComesTo

variable {gen moment : Session} {depth : Nat} {start id : SeedId}

theorem moves (h : gen.ComesTo depth start id moment) :
    Moves (gen.noted .traversalBegan) moment := by
  obtain ⟨-, visits, rest, tour, -, -⟩ := h
  exact tour.passage.moves

/-- On its way a traversal has the same depth left. -/
theorem deep (h : gen.ComesTo depth start id moment) (reachable : Reachable gen)
    (enough : gen.Deep depth) : moment.Deep depth := by
  have hbegan : Reachable (gen.noted .traversalBegan) := reachable.moves (.single .beginTraversal)
  have hmoment := hbegan.moves h.moves
  obtain ⟨complete, visits, rest, tour, -, -⟩ := h
  have hrunning : moment.running = gen.running := by
    rw [hmoment.books.running, tour.passage.frames, ← hbegan.books.running]
    rfl
  have hlength : moment.store.seeds.length = gen.store.seeds.length :=
    (tour.passage.moves.sameGraph complete).length
  unfold Deep at enough ⊢
  rw [hrunning, hlength]
  exact enough

end ComesTo

/-- **A traversal of a complete graph that fails has come to the seed at which it fails.** -/
theorem exists_comesTo_of_error {gen gen' : Session} (numbered : gen.store.Numbered)
    (complete : gen.finalized = true) {depth : Nat} {initial : Option Compiled} {start : SeedId}
    {failure : Error} (hrun : (traverse depth initial start).run gen = .error failure gen') :
    ∃ id seed moment last, gen.ComesTo depth start id moment ∧ moment.store.get? id = some seed ∧
      seed.slot = .unset ∧ (compileAt depth id).run moment = .error failure last ∧
      gen' = last.noted (.traversalEnded (some failure)) := by
  have hbegan : (gen.noted .traversalBegan).finalized = true := complete
  have hstored : ∀ id ∈ (gen.noted .traversalBegan).store.idsFrom start,
      ((gen.noted .traversalBegan).store.get? id).isSome := by
    intro id mem
    exact (Store.get?_isSome_iff _ id).2 ((Store.mem_ids_iff _ id).1 (List.mem_of_mem_filter mem))
  rw [traverse_eq] at hrun
  cases hwalk : (walkFrom (compileAt depth) initial start).run (gen.noted .traversalBegan) with
  | ok result last =>
    rw [run_traverseWith_ok hwalk] at hrun
    exact absurd hrun (by simp)
  | error reason last =>
    rw [run_traverseWith_error hwalk] at hrun
    injection hrun with hfailure hlast
    subst hfailure
    rw [run_walkFrom_of_finalized hbegan] at hwalk
    obtain ⟨visits, id, rest, moment, seed, htour, hids, hon, hfound, unset, hcompile⟩ :=
      exists_tour_of_walk_error (runsHooks_compileAt depth) _ initial (gen.noted .traversalBegan)
        numbered hbegan (frames_noted _ _) hstored hwalk
    exact ⟨id, seed, moment, last, ⟨complete, visits, rest, htour, hids, hon⟩, hfound, unset,
      hcompile, hlast.symm⟩

/-- A traversal that comes to a seed without a result fails as compiling that seed fails. -/
theorem ComesTo.run_traverse {gen moment : Session} {depth : Nat} {start id : SeedId}
    (h : gen.ComesTo depth start id moment) (unset : moment.slot? id = some .unset)
    (initial : Option Compiled) {failure : Error} {last : Session}
    (hrun : (compileAt depth id).run moment = .error failure last) :
    (traverse depth initial start).run gen =
      .error failure (last.noted (.traversalEnded (some failure))) := by
  obtain ⟨complete, visits, rest, tour, hids, hon⟩ := h
  have hbegan : (gen.noted .traversalBegan).finalized = true := complete
  obtain ⟨seed, hstored, hslot⟩ := Option.map_eq_some_iff.1 unset
  obtain ⟨latest, hwalk⟩ := tour.run_walk hbegan hon (id :: rest) initial
  rw [traverse_eq]
  refine run_traverseWith_error ?_
  rw [run_walkFrom_of_finalized hbegan]
  show (walk (compileAt depth) (gen.store.idsFrom start) initial).run _ = _
  rw [hids, hwalk, run_walk_of_unset rest latest hstored hslot, run_bind_error hrun]

/-- A traversal of an incomplete graph fails for that reason. -/
theorem run_traverse_of_open {gen : Session} (opened : gen.finalized = false) (depth : Nat)
    (initial : Option Compiled) (start : SeedId) :
    (traverse depth initial start).run gen = .error .notFinalized
      ((gen.noted .traversalBegan).noted (.traversalEnded (some .notFinalized))) := by
  rw [traverse_eq]
  refine run_traverseWith_error (run_bind_error ?_)
  rw [run_requireFinalized]
  exact if_neg (by rw [show (gen.noted .traversalBegan).finalized = false from opened]; simp)

/-- A seed whose hook is running is not compiled again. -/
theorem run_compileAt_of_running {gen : Session} {id : SeedId} (depth : Nat)
    (runs : id ∈ gen.running) :
    (compileAt depth id).run gen = .error (.reentrantCompile id) gen := by
  cases depth with
  | zero => rfl
  | succ depth =>
    refine run_bind_error ?_
    rw [requireIdle, run_get_bind, run_require, if_neg (not_not.2 runs)]

/-- A seed is reported as running by the traversal itself, only if it is. -/
theorem running_of_compileAt {gen last : Session} (reachable : Reachable gen) {depth : Nat}
    (deep : gen.Deep depth) {id reported : SeedId} {seed : Seed Hook}
    (stored : gen.store.get? id = some seed)
    (hrun : (compileAt depth id).run gen = .error (.reentrantCompile reported) last)
    (own : ¬last.HookFailed) : id = reported ∧ id ∈ gen.running := by
  cases depth with
  | zero =>
    have hthrown : (compileAt 0 id).run gen = .error (.reentrantCompile id) gen := rfl
    rw [hthrown] at hrun
    injection hrun with hfailure _
    exact ⟨Error.reentrantCompile.inj hfailure, reachable.mem_running deep (isSome_slot? stored)⟩
  | succ depth =>
    rw [compileAt] at hrun
    obtain ⟨runs, hreported⟩ | ⟨cx, -, -, ⟨failure, error, hreason, hfail⟩ |
        ⟨found, text, -, -, -, hdone⟩⟩ := compile_outcome (traverse depth) stored
    · rw [hreported] at hrun
      injection hrun with hfailure _
      exact ⟨Error.reentrantCompile.inj hfailure, runs⟩
    · rw [hfail] at hrun
      injection hrun with hfailure hlast
      obtain rfl | ⟨-, hother⟩ := hreason
      · refine absurd ⟨id, error, ?_⟩ own
        rw [← hlast]
        exact List.getLast?_concat
      · exact absurd hfailure (hother reported)
    · rw [hdone] at hrun
      exact absurd hrun (by simp)

/-- **A traversal reports a running seed itself just if it comes to one that has no result.** -/
theorem failsItself_reentrant_iff {gen : Session} (reachable : Reachable gen) {depth : Nat}
    (enough : gen.Deep depth) (initial : Option Compiled) (start id : SeedId) :
    FailsItself (traverse depth initial start) gen (.reentrantCompile id) ↔
      ∃ moment, gen.ComesTo depth start id moment ∧ moment.slot? id = some .unset ∧
        id ∈ moment.running := by
  have hbegan : Reachable (gen.noted .traversalBegan) := reachable.moves (.single .beginTraversal)
  constructor
  · rintro ⟨last, own, hrun⟩
    cases hcomplete : gen.finalized with
    | false =>
      rw [run_traverse_of_open hcomplete] at hrun
      injection hrun with hfailure _
      exact absurd hfailure (by simp)
    | true =>
      obtain ⟨reached, seed, moment, last', hcomes, hstored, unset, hcompile, hlast⟩ :=
        exists_comesTo_of_error reachable.numbered hcomplete hrun
      have hjournal : last.journal = last'.journal :=
        List.append_cancel_right (congrArg Generator.journal hlast)
      rw [HookFailed, hjournal] at own
      obtain ⟨rfl, hruns⟩ := running_of_compileAt (hbegan.moves hcomes.moves)
        (hcomes.deep reachable enough) hstored hcompile own
      refine ⟨moment, hcomes, ?_, hruns⟩
      rw [slot?_of_stored hstored, unset]
  · rintro ⟨moment, hcomes, hunset, hruns⟩
    have hrun := hcomes.run_traverse hunset initial (run_compileAt_of_running depth hruns)
    obtain ⟨-, visits, rest, tour, -, -⟩ := hcomes
    refine ⟨moment, not_hookFailed_of_tour tour ?_, hrun⟩
    rintro ⟨other, reason, hlast⟩
    have hbeginning : (gen.noted .traversalBegan).journal.getLast? = some .traversalBegan :=
      List.getLast?_concat
    rw [hbeginning] at hlast
    exact absurd hlast (by simp)

end Generator

/-! ### The main result -/

/-- **The books are in order at all times.**  Requests lead a new session from moment to moment;
between two of them no hook is listed as running, and no region is counted.  At each moment, also in
the middle of a hook:

* the hooks that are listed as running are those that are, as they are stacked and without
  repetition, and the regions that are being generated are counted;
* a request, whether it succeeds or fails and however deep hooks may run inside one another, leaves
  the list and the count as they were, and so does an action of the innermost hook;
* a request is made with enough depth, and a hook that was entered with enough depth hands on enough
  at every moment at which it is running;
* with enough depth, a traversal reports a seed as running, and does not just pass on that a hook
  reported it, if and only if it comes to a seed that has no result and whose hook is running. -/
theorem Session.bookkeeping_restored {settings : Settings}
    {candidates : List (Candidate (Blueprint Hook))} {origin : Session}
    (created : createWith settings candidates = .ok origin) :
    (∀ requests, Moves origin (origin.run requests) ∧ (origin.run requests).running = [] ∧
      (origin.run requests).regionDepth = 0) ∧
    ∀ moment, Moves origin moment →
      Books moment ∧
      (∀ depth request, SameBooks moment
        (stateAfter (Generator.respond (Generator.traverse depth) request) moment)) ∧
      (∀ depth action (cx : Compilation) outer, cx.generator = moment →
        moment.frames = .hook cx.id cx.continuations :: outer →
        SameBooks moment (stateAfter (Action.run (Generator.traverse depth) action) cx).generator) ∧
      moment.Deep moment.store.seeds.length ∧
      (∀ depth level id inside, moment.finalized = true → moment.Deep (depth + 1) →
        Move moment (moment.entered id) →
        Route level (moment.frames.length + 1) (moment.entered id) inside → inside.Deep depth) ∧
      ∀ depth initial start id, moment.Deep depth →
        (Generator.FailsItself (Generator.traverse depth initial start) moment
            (.reentrantCompile id) ↔
          ∃ reached, moment.ComesTo depth start id reached ∧ reached.slot? id = some .unset ∧
            id ∈ reached.running) := by
  refine ⟨fun requests => ?_, fun moment hmoment => ?_⟩
  · have hmoves := moves_run created requests
    have hbooks : Books (origin.run requests) :=
      Reachable.books ⟨settings, candidates, origin, created, hmoves⟩
    refine ⟨hmoves, ?_, regionDepth_run created requests⟩
    rw [hbooks.running, frames_run created]
    rfl
  have reachable : Reachable moment := ⟨settings, candidates, origin, created, hmoment⟩
  refine ⟨reachable.books, fun depth request => ?_, fun depth action cx outer hcx innermost => ?_,
    Nat.le_add_left _ _, fun depth level id inside complete deep enter route => ?_,
    fun depth initial start id deep =>
      Generator.failsItself_reentrant_iff reachable deep initial start id⟩
  · exact reachable.sameBooks
      (Generator.orderly_respond (Generator.orderly_traverse depth) request (by simp))
  · subst hcx
    exact reachable.sameBooks_of_hook innermost
      (Action.orderly_run (Generator.orderly_traverse depth) action (by simp))
  · exact deep.inside reachable complete enter route

/-- A hook generates a region that begins at its own seed.  The traversal of the region reports this
itself, with no depth left; the hook survives the failure, and in the end nothing is listed. -/
theorem Session.bookkeeping_restored_reentrant :
    let seed : Blueprint Hook := {
      kind := "seed"
      hook := [.attempt (.region (.at ⟨0⟩) ""), .text "x", .setResult, .proceed] }
    let requests : List Request := [.register (.seed seed), .finalize]
    let moment := ((blank.run requests).noted .traversalBegan).entered ⟨0⟩
    moment.running = [⟨0⟩] ∧
    Generator.FailsItself (Generator.traverse 0 none ⟨0⟩) moment (.reentrantCompile ⟨0⟩) ∧
    SameBooks moment
      (stateAfter (Generator.respond (Generator.traverse 0) (.generateRegion ⟨0⟩)) moment) ∧
    (blank.run (requests ++ [.generate])).mention? ⟨0⟩ = some (.code "x") ∧
    (blank.run (requests ++ [.generate])).running = [] := by
  intro seed requests
  obtain ⟨hruns, hmoments⟩ := bookkeeping_restored createWith_blank
  have hmoves := (hruns requests).1
  have complete : (blank.run requests).finalized = true := by decide +kernel
  have hunset : (blank.run requests).slot? ⟨0⟩ = some .unset := by decide +kernel
  have hidle : (blank.run requests).running = [] := by decide +kernel
  have hframes : (blank.run requests).frames = [] := by decide +kernel
  have hids : (blank.run requests).store.idsFrom ⟨0⟩ = [⟨0⟩] := by decide +kernel
  have hlength : (blank.run requests).store.seeds.length = 1 := by decide +kernel
  have hresult : (blank.run (requests ++ [.generate])).mention? ⟨0⟩ = some (.code "x") := by
    decide +kernel
  -- From here on it does not matter how the session came to be what it is.
  generalize blank.run requests = before at hmoves complete hunset hidle hframes hids hlength ⊢
  intro moment
  obtain ⟨stored, hstored, hslot⟩ := Option.map_eq_some_iff.1 hunset
  have hrunning : moment.running = [⟨0⟩] := by
    show SeedId.mk 0 :: before.running = [⟨0⟩]
    rw [hidle]
  have hbegan : (before.noted .traversalBegan).frames = [.traversal] := by
    rw [Generator.frames_noted, hframes]
    rfl
  have hidle' : ⟨0⟩ ∉ (before.noted .traversalBegan).running := by
    show ⟨0⟩ ∉ before.running
    rw [hidle]
    exact List.not_mem_nil
  have hmoment : Moves blank moment :=
    (hmoves.tail .beginTraversal).tail (.enter complete hbegan hstored hslot hidle')
  have hdeep : moment.Deep 0 := by
    unfold Generator.Deep
    rw [hrunning]
    exact Nat.le_of_eq hlength
  obtain ⟨-, hrequests, -, -, -, hreports⟩ := hmoments moment hmoment
  refine ⟨hrunning, (hreports 0 none ⟨0⟩ ⟨0⟩ hdeep).2 ?_, hrequests 0 _, hresult, (hruns _).2.1⟩
  refine ⟨moment.noted .traversalBegan, ⟨complete, [], [], .done _, hids, by simp [freshIds]⟩,
    hunset, ?_⟩
  show ⟨0⟩ ∈ moment.running
  rw [hrunning]
  exact List.mem_singleton_self _

end SeedGraph
