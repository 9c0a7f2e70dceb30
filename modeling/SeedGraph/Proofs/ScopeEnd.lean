import Mathlib.Tactic.ByContra
import SeedGraph.Proofs.Tour

/-!
# Where a region ends

A region ends at a seed that closes it: a traversal that compiles such a seed goes no further.  But
it does go on over a closing seed that has a result already.  It has to, since the closing seeds of
nested regions were compiled when those regions were generated, and the program goes on behind them.
So generating a region a second time does not end where it ended the first time: the traversal
passes over the seed that closes the region, and runs on into what comes after it.

What holds is a statement about the first closing seed *without a result*.  If no hook up to it
generates code, then nothing can give it a result before the traversal comes to it, so the traversal
compiles it and ends there, whatever else was compiled before.

## Hooks that generate no code

The run of such a hook is a level route: it opens no frame.  So no other hook is entered on it
(`Route.not_entered`), and no seed but its own gets a result (`Route.unset`).
-/

namespace SeedGraph

/-! ### Level routes -/

/-- **A slot is written by the hook of its own seed**, as the innermost of all. -/
theorem Move.unset {gen gen' : Session} (move : Move gen gen') {id : SeedId}
    (unset : gen.slot? id = some .unset) :
    gen'.slot? id = some .unset ∨
      ∃ continuations outer, gen.frames = .hook id continuations :: outer := by
  cases move.slotMove id with
  | kept same => exact .inl (same.trans unset)
  | registered _ new _ =>
    rw [new, Generator.slot?_upper] at unset
    exact absurd unset (by simp)
  | written _ innermost _ _ _ => exact .inr ⟨_, _, innermost⟩
  | bound stored unbound _ =>
    rw [Generator.slot?_of_stored stored, unbound] at unset
    exact absurd unset (by simp)

/-- A move that opens and closes no frame begins and ends no hook. -/
theorem Move.running_of_length {gen gen' : Session} (move : Move gen gen')
    (level : gen'.frames.length = gen.frames.length) : gen'.running = gen.running := by
  cases move with
  | enter _ _ _ _ _ =>
    rw [Generator.frames_entered] at level
    exact absurd level (by simp)
  | accept innermost _ _ =>
    rw [Generator.frames_accepted innermost, innermost] at level
    exact absurd level (by simp)
  | reject failure error innermost =>
    rw [Generator.frames_noted, Generator.frames_left, innermost] at level
    exact absurd level (by simp [Event.nest]; omega)
  | _ => rfl

namespace Route

variable {floor : Nat} {gen gen' : Session}

/-- On a level route no hook is entered. -/
theorem not_entered (route : Route true floor gen gen') (h : gen.frames.length = floor) :
    ∃ events, gen'.journal = gen.journal ++ events ∧ ∀ id, .entered id ∉ events := by
  induction route with
  | refl => exact ⟨[], (List.append_nil _).symm, fun _ => List.not_mem_nil⟩
  | @tail moment next earlier step ih =>
    obtain ⟨events, hjournal, hnone⟩ := ih
    obtain ⟨events', hjournal', hentered⟩ := step.1.appends
    refine ⟨events ++ events', by rw [hjournal', hjournal, List.append_assoc], fun id hid => ?_⟩
    rcases List.mem_append.1 hid with hid | hid
    · exact hnone id hid
    · obtain ⟨-, rfl, -⟩ := hentered id hid
      have hdepth : (moment.entered id).frames.length = floor := step.2.2 rfl
      rw [Generator.frames_entered, List.length_cons, length_eq earlier h] at hdepth
      omega

/-- On a level route the hook that runs is always the same one. -/
theorem running_eq (route : Route true floor gen gen') (h : gen.frames.length = floor) :
    gen'.running = gen.running := by
  induction route with
  | refl => rfl
  | @tail moment next earlier step ih =>
    rw [← ih]
    exact step.1.running_of_length ((step.2.2 rfl).trans (length_eq earlier h).symm)

/-- On a level route only the seed whose hook runs gets a result. -/
theorem unset (route : Route true floor gen gen') (h : gen.frames.length = floor)
    (reachable : Reachable gen) {own other : SeedId} {outer : List SeedId}
    (runs : gen.running = own :: outer) (hother : other ≠ own)
    (unset : gen.slot? other = some .unset) : gen'.slot? other = some .unset := by
  induction route with
  | refl => exact unset
  | @tail moment next earlier step ih =>
    rcases step.1.unset ih with hunset | ⟨continuations, frames, hframes⟩
    · exact hunset
    · have hrunning := (reachable.moves (moves earlier)).disciplined.running
      rw [running_eq earlier h, runs, hframes, hooksIn_hook] at hrunning
      exact absurd (List.cons.inj hrunning).1.symm hother

end Route

namespace Generator.HookRun

variable {gen ending : Session} {id : SeedId} {seed : Seed Hook} {continuations : Nat}

/-- A hook that generates no code opens no frame. -/
theorem level (h : HookRun gen id seed continuations ending) (quiet : seed.hook.generates = false) :
    Route true (gen.frames.length + 1) (gen.entered id) ending := by
  have hroute := h.inside
  rw [quiet] at hroute
  exact hroute

/-- A hook that generates no code enters no other hook. -/
theorem entered_eq (h : HookRun gen id seed continuations ending)
    (quiet : seed.hook.generates = false) :
    ∃ events, ((ending.left id none).noted (.accepted id)).journal = gen.journal ++ events ∧
      ∀ other, .entered other ∈ events → other = id := by
  obtain ⟨events, hjournal, hnone⟩ := (h.level quiet).not_entered (by rw [frames_entered]; rfl)
  refine ⟨_, journal_accepted hjournal, fun other hmem => ?_⟩
  have hcases : other = id ∨ .entered other ∈ events := by simpa using hmem
  exact hcases.resolve_right (hnone other)

/-- A hook that generates no code gives no other seed a result. -/
theorem unset (h : HookRun gen id seed continuations ending) (quiet : seed.hook.generates = false)
    (reachable : Reachable gen) {other : SeedId} (hother : other ≠ id)
    (unset : gen.slot? other = some .unset) :
    ((ending.left id none).noted (.accepted id)).slot? other = some .unset := by
  have hending : ending.slot? other = some .unset :=
    (h.level quiet).unset (by rw [frames_entered]; rfl) (reachable.moves (.single h.enter)) rfl
      hother unset
  exact hending

end Generator.HookRun

/-! ### Tours -/

/-- Does the hook of the stored seed `id` generate code? -/
def Store.generates (store : Store Hook) (id : SeedId) : Bool :=
  (store.get? id).any fun seed => seed.hook.generates

theorem Store.generates_of_stored {store : Store Hook} {id : SeedId} {seed : Seed Hook}
    (stored : store.get? id = some seed) : store.generates id = seed.hook.generates := by
  unfold Store.generates
  rw [stored]
  rfl

theorem Store.SameGraph.generates {store store' : Store Hook} (h : store.SameGraph store') :
    store'.generates = store.generates := by
  funext id
  exact h.any_eq (fun _ => rfl) id

namespace Tour

variable {compile : SeedId → GenM Hook Compiled} {gen gen' : Session}
  {visits : List (SeedId × Session)}

/-- What had no result when the traversal came to it had none before. -/
theorem not_hasResult (tour : Tour compile gen visits gen') (reachable : Reachable gen)
    {id : SeedId} (fresh : id ∈ freshIds visits) : ¬ gen.HasResult id := by
  induction tour with
  | done gen => exact absurd fresh List.not_mem_nil
  | pass result _ ih =>
    rw [freshIds_cons_of_hasResult result] at fresh
    exact ih reachable fresh
  | compiled stored unset _ hook accept _ ih =>
    have hmoves := (hook.passage accept).moves
    rw [freshIds_cons_of_unset stored unset] at fresh
    rcases List.mem_cons.1 fresh with rfl | fresh
    · rintro ⟨slot, hslot, hset⟩
      rw [Generator.slot?_of_stored stored, unset, Option.some.injEq] at hslot
      exact absurd hset (by simp [← hslot, Slot.isSet])
    · exact fun result => ih (reachable.moves hmoves) fresh (hmoves.hasResult reachable result)

/-- A traversal over hooks that generate no code enters only the hooks of the seeds that it comes
to. -/
theorem entered_mem (tour : Tour compile gen visits gen') (complete : gen.finalized = true)
    (quiet : ∀ id ∈ visits.map Prod.fst, gen.store.generates id = false) :
    ∃ events, gen'.journal = gen.journal ++ events ∧
      ∀ id, .entered id ∈ events → id ∈ visits.map Prod.fst := by
  induction tour with
  | done gen => exact ⟨[], (List.append_nil _).symm, fun _ hid => absurd hid List.not_mem_nil⟩
  | pass _ _ ih =>
    obtain ⟨events, hjournal, hentered⟩ :=
      ih complete fun other hother => quiet other (List.mem_cons_of_mem _ hother)
    exact ⟨events, hjournal, fun other hother => List.mem_cons_of_mem _ (hentered other hother)⟩
  | @compiled gen ending _ id _ _ _ stored _ _ hook accept _ ih =>
    have hmoves := (hook.passage accept).moves
    have hquiet := quiet id List.mem_cons_self
    rw [Store.generates_of_stored stored] at hquiet
    obtain ⟨events, hjournal, hown⟩ := hook.entered_eq hquiet
    obtain ⟨events', hjournal', hentered⟩ := ih (hmoves.finalized complete) fun other hother => by
      rw [(hmoves.sameGraph complete).generates]
      exact quiet other (List.mem_cons_of_mem _ hother)
    refine ⟨events ++ events', by rw [hjournal', hjournal, List.append_assoc],
      fun other hother => ?_⟩
    rcases List.mem_append.1 hother with hother | hother
    · rw [hown other hother]
      exact List.mem_cons_self
    · exact List.mem_cons_of_mem _ (hentered other hother)

/-- **A seed without a result that the traversal comes to is compiled**, if no hook before it
generates code. -/
theorem mem_freshIds (tour : Tour compile gen visits gen') (reachable : Reachable gen)
    (complete : gen.finalized = true) {id : SeedId}
    (ascending : (visits.map Prod.fst).Pairwise fun earlier later => earlier.index < later.index)
    (quiet : ∀ other ∈ visits.map Prod.fst, other.index < id.index →
      gen.store.generates other = false)
    (unset : gen.slot? id = some .unset) (visited : id ∈ visits.map Prod.fst) :
    id ∈ freshIds visits := by
  induction tour with
  | done gen => exact absurd visited List.not_mem_nil
  | @pass gen _ first visits result _ ih =>
    rw [List.map_cons, List.pairwise_cons] at ascending
    have hother : id ≠ first := by
      rintro rfl
      obtain ⟨slot, hslot, hset⟩ := result
      rw [unset, Option.some.injEq] at hslot
      exact absurd hset (by simp [← hslot, Slot.isSet])
    rw [freshIds_cons_of_hasResult result]
    exact ih reachable complete ascending.2
      (fun other hmem => quiet other (List.mem_cons_of_mem _ hmem)) unset
      ((List.mem_cons.1 visited).resolve_left hother)
  | @compiled gen ending _ first seed _ visits stored hslot _ hook accept _ ih =>
    rw [freshIds_cons_of_unset stored hslot]
    by_cases hfirst : id = first
    · rw [hfirst]
      exact List.mem_cons_self
    -- The hook that runs belongs to an earlier seed, so it leaves the seed `id` without a result.
    have hmoves := (hook.passage accept).moves
    rw [List.map_cons, List.pairwise_cons] at ascending
    have hvisited := (List.mem_cons.1 visited).resolve_left hfirst
    have hquiet := quiet first List.mem_cons_self (ascending.1 id hvisited)
    rw [Store.generates_of_stored stored] at hquiet
    refine List.mem_cons_of_mem _ (ih (reachable.moves hmoves) (hmoves.finalized complete)
      ascending.2 (fun other hmem hless => ?_) (hook.unset hquiet reachable hfirst unset) hvisited)
    rw [(hmoves.sameGraph complete).generates]
    exact quiet other (List.mem_cons_of_mem _ hmem) hless

end Tour

/-! ### The next end -/

/-- The seed `last` is the first one from the index `first` on that closes a region and has no
result. -/
structure NextEnd (gen : Session) (first : Int) (last : SeedId) : Prop where
  /-- It closes a region. -/
  closes : gen.store.closes last = true
  /-- It does not come before `first`. -/
  first_le : first ≤ last.index
  /-- It has no result. -/
  fresh : ¬ gen.HasResult last
  /-- The seeds before it that close a region have results. -/
  earlier : ∀ id : SeedId, gen.store.closes id = true → first ≤ id.index → id.index < last.index →
    gen.HasResult id

namespace NextEnd

variable {gen : Session} {first : Int} {last : SeedId}

theorem unset (h : NextEnd gen first last) : gen.slot? last = some .unset := by
  cases hstored : gen.store.get? last with
  | none => exact absurd h.closes (by simp [Store.closes, hstored])
  | some seed =>
    obtain ⟨result, hmention⟩ | hslot := Generator.mention?_cases hstored
    · exact absurd ((Generator.isSome_mention? last).1 (by rw [hmention]; rfl)) h.fresh
    · rw [Generator.slot?_of_stored hstored, hslot]

theorem lt_upper (h : NextEnd gen first last) : last.index < gen.upper := by
  have hstored : (gen.store.get? last).isSome := by
    obtain ⟨seed, hseed, -⟩ := Option.map_eq_some_iff.1 h.unset
    rw [hseed]
    rfl
  exact ((gen.store.get?_isSome_iff last).1 hstored).2

/-- **A traversal stops at the next end**, if no hook up to it generates code. -/
theorem stop_eq (h : NextEnd gen first last) (reachable : Reachable gen)
    (complete : gen.finalized = true)
    (quiet : ∀ id : SeedId, first ≤ id.index → id.index ≤ last.index →
      gen.store.generates id = false)
    {compile : SeedId → GenM Hook Compiled} {visits : List (SeedId × Session)}
    {final : Session} (tour : Tour compile (gen.noted .traversalBegan) visits final)
    {stop : SeedId} (hstop : stop = gen.stopAmong (freshIds visits))
    (hvisits : visits.map Prod.fst = SeedId.through first stop) : stop = last := by
  have hreachable : Reachable (gen.noted .traversalBegan) :=
    reachable.moves (.single .beginTraversal)
  have hrange : ∀ id, id ∈ visits.map Prod.fst ↔ first ≤ id.index ∧ id.index ≤ stop.index := by
    intro id
    rw [hvisits]
    exact SeedId.mem_through
  have hascending := SeedId.pairwise_through first stop
  rw [← hvisits] at hascending
  -- The traversal does not stop before: what closes a region there had a result from the beginning.
  have hbefore : last.index ≤ stop.index := by
    cases hfound : (freshIds visits).find? gen.store.closes with
    | none =>
      have hupper := h.lt_upper
      rw [hstop, Generator.stopAmong, hfound]
      show last.index ≤ gen.upper - 1
      omega
    | some found =>
      have hfresh := List.mem_of_find?_eq_some hfound
      have hnot : ¬ gen.HasResult found := tour.not_hasResult hreachable hfresh
      have hlow := ((hrange found).1 ((freshIds_sublist visits).subset hfresh)).1
      rw [hstop, Generator.stopAmong_of_find? hfound]
      by_contra hless
      exact hnot (h.earlier found (List.find?_some hfound) hlow (by omega))
  -- So it comes to the next end, which still has no result, and stops there at the latest.
  have hvisited : last ∈ visits.map Prod.fst := (hrange last).2 ⟨h.first_le, hbefore⟩
  have hfresh : last ∈ freshIds visits :=
    tour.mem_freshIds hreachable complete hascending
      (fun other hmem hless => quiet other ((hrange other).1 hmem).1 (Int.le_of_lt hless))
      h.unset hvisited
  have hafter : stop.index ≤ last.index := by
    obtain ⟨found, hfound⟩ : ∃ found, (freshIds visits).find? gen.store.closes = some found := by
      rw [← Option.isSome_iff_exists, List.find?_isSome]
      exact ⟨last, hfresh, h.closes⟩
    obtain ⟨-, before, after, hsplit, hnone⟩ := List.find?_eq_some_iff_append.1 hfound
    have hpairs := hascending.sublist (freshIds_sublist visits)
    rw [hstop, Generator.stopAmong_of_find? hfound]
    rw [hsplit] at hfresh hpairs
    rcases List.mem_append.1 hfresh with hmem | hmem
    · exact absurd h.closes (by simpa using hnone last hmem)
    rcases List.mem_cons.1 hmem with rfl | hmem
    · exact Int.le_refl _
    · exact Int.le_of_lt ((List.pairwise_cons.1 (List.pairwise_append.1 hpairs).2.1).1 last hmem)
  cases stop
  cases last
  exact congrArg SeedId.mk (Int.le_antisymm hafter hbefore)

end NextEnd

/-- Generating code began in the session `gen`, succeeded with `result` in the session `gen'`, and
ended at the seed `last`: the result is that of `last`, and no hook of a later seed was entered on
the way. -/
structure EndedAt (gen : Session) (last : SeedId) (result : Option Compiled) (gen' : Session) :
    Prop where
  /-- The result is the current one of the seed. -/
  answer : ∃ value, result = some value ∧ gen'.mention? last = some value
  /-- No hook of a later seed was entered, by whatever traversal. -/
  entered : ∃ events, gen'.journal = gen.journal ++ events ∧
    ∀ id, .entered id ∈ events → id.index ≤ last.index

namespace Generator

/-- A traversal up to the next end. -/
theorem endedAt_of_traverse {gen : Session} (reachable : Reachable gen)
    (complete : gen.finalized = true) {start last : SeedId}
    (next : NextEnd gen (max start.index gen.lower) last)
    (quiet : ∀ id : SeedId, max start.index gen.lower ≤ id.index → id.index ≤ last.index →
      gen.store.generates id = false)
    {depth : Nat} {initial result : Option Compiled} {gen' : Session}
    (hrun : (traverse depth initial start).run gen = .ok result gen') :
    EndedAt gen last result gen' := by
  obtain ⟨visits, final, stop, htour, rfl, hstop, -, -, hvisits, rfl⟩ :=
    exists_tour_of_traverse reachable.numbered complete rfl
      (Int.lt_of_le_of_lt next.first_le next.lt_upper) hrun
  obtain rfl := next.stop_eq reachable complete quiet htour hstop hvisits
  have hrange : ∀ id, id ∈ visits.map Prod.fst ↔
      max start.index gen.lower ≤ id.index ∧ id.index ≤ stop.index := by
    intro id
    rw [hvisits]
    exact SeedId.mem_through
  constructor
  · have hresult : final.HasResult stop :=
      htour.hasResult (reachable.moves (.single .beginTraversal)) stop
        ((hrange stop).2 ⟨next.first_le, Int.le_refl _⟩)
    obtain ⟨value, hvalue⟩ := Option.isSome_iff_exists.1 ((isSome_mention? stop).2 hresult)
    exact ⟨value, hvalue, hvalue⟩
  · obtain ⟨events, hjournal, hentered⟩ := htour.entered_mem complete fun id hid =>
      quiet id ((hrange id).1 hid).1 ((hrange id).1 hid).2
    refine ⟨_, journal_traversed hjournal, fun id hid => ?_⟩
    have hmem : .entered id ∈ events := by simpa using hid
    exact ((hrange id).1 (hentered id hmem)).2

/-- **A region does not run past its end.**  At any moment of any run with a complete graph, let
`last` be the first seed at or after `start` that closes a region and has no result, and let no hook
from `start` to `last` generate code.  Then a traversal from `start` that succeeds, whatever the
result it begins with, and the generation of a region from `start` that succeeds both end at `last`,
whichever other seeds were compiled before. -/
theorem region_ends_at_next_end {gen : Session} (reachable : Reachable gen)
    (complete : gen.finalized = true) {start last : SeedId}
    (next : NextEnd gen (max start.index gen.lower) last)
    (quiet : ∀ id : SeedId, max start.index gen.lower ≤ id.index → id.index ≤ last.index →
      gen.store.generates id = false) (depth : Nat) :
    (∀ initial result gen', (traverse depth initial start).run gen = .ok result gen' →
      EndedAt gen last result gen') ∧
    ∀ region gen', (generateRegion (traverse depth) start).run gen = .ok region gen' →
      EndedAt gen last region.result gen' := by
  refine ⟨fun initial result gen' hrun =>
    endedAt_of_traverse reachable complete next quiet hrun, ?_⟩
  intro region gen' hrun
  cases hinside : (traverse depth none start).run gen.openRegion with
  | error failure inside =>
    rw [run_generateRegion_error hinside] at hrun
    exact absurd hrun (by simp)
  | ok result inside =>
    rw [run_generateRegion_ok hinside] at hrun
    injection hrun with hregion hend
    subst hregion hend
    -- Opening the region changes neither the seeds nor their results.
    have hnext : NextEnd gen.openRegion (max start.index gen.openRegion.lower) last :=
      ⟨next.closes, next.first_le, next.fresh, next.earlier⟩
    obtain ⟨hanswer, events, hjournal, hentered⟩ :=
      endedAt_of_traverse (reachable.moves (.single .openRegion)) complete hnext quiet hinside
    let closed : Event := .regionClosed (some (regionSince gen inside result))
    refine ⟨hanswer, .regionOpened :: (events ++ [closed]), ?_, fun id hid => ?_⟩
    · rw [closeRegion, hjournal, openRegion]
      simp [closed]
    · exact hentered id (by simpa [closed] using hid)

end Generator

namespace Session

/-- The first region was generated before, and its end is passed over; the traversal ends with the
second region. -/
theorem region_ends_at_next_end_again :
    let closing (text : String) : Blueprint Hook := {
      kind := "leaf", boundary := .closes, hook := [.text text, .setResult, .proceed] }
    let requests : List Request := [.register (.seed (closing "first")),
      .register (.seed (closing "second")), .register (.seed (closing "third")), .finalize,
      .generate]
    ∃ result gen',
      (blank.run requests).HasResult ⟨0⟩ ∧
      NextEnd (blank.run requests) 0 ⟨1⟩ ∧
      (Generator.traverse 3 none ⟨0⟩).run (blank.run requests) = .ok result gen' ∧
      result = some (.code "second") ∧ EndedAt (blank.run requests) ⟨1⟩ result gen' := by
  intro closing requests
  have reachable := reachable_run_blank requests
  have hset : (blank.run requests).HasResult ⟨0⟩ := by
    rw [← Generator.isSome_mention?]
    decide +kernel
  have hlower : max 0 (blank.run requests).lower = 0 := by decide +kernel
  have hindex : ∀ id : SeedId, 0 ≤ id.index → id.index ≤ 1 → id = ⟨0⟩ ∨ id = ⟨1⟩ := by
    rintro ⟨index⟩ hlow hhigh
    simp only [SeedId.mk.injEq]
    dsimp only at hlow hhigh
    omega
  have hnext : NextEnd (blank.run requests) 0 ⟨1⟩ := by
    refine ⟨by decide +kernel, by decide, ?_, fun id _ hlow hless => ?_⟩
    · have hnone : ((blank.run requests).mention? ⟨1⟩).isSome = false := by decide +kernel
      rw [← Generator.isSome_mention?, hnone]
      simp
    · rcases hindex id hlow (Int.le_of_lt hless) with rfl | rfl
      · exact hset
      · exact absurd hless (Int.lt_irrefl _)
  have hquiet : ∀ id : SeedId, 0 ≤ id.index → id.index ≤ 1 →
      (blank.run requests).store.generates id = false := by
    intro id hlow hhigh
    rcases hindex id hlow hhigh with rfl | rfl
    · decide +kernel
    · decide +kernel
  have hseen : seenAfter? (fun result _ => result) (Generator.traverse 3 none ⟨0⟩)
      (blank.run requests) = some (some (.code "second")) := by
    decide +kernel
  obtain ⟨result, gen', hrun, hresult⟩ := run_of_seenAfter? hseen
  have hended := (@Generator.region_ends_at_next_end _ reachable (by decide +kernel) ⟨0⟩ ⟨1⟩
    (by rw [hlower]; exact hnext) (by rw [hlower]; exact hquiet) 3).1 none result gen' hrun
  exact ⟨result, gen', hset, hnext, hrun, hresult, hended⟩

/-- A region whose closing seed has a result is generated again: the traversal passes over that
seed, enters the hook of the seed behind it, and answers with the result of the latter. -/
theorem region_runs_past_compiled_end :
    let leaf (text : String) : Blueprint Hook := {
      kind := "leaf", hook := [.text text, .setResult, .proceed] }
    let closing : Blueprint Hook := { leaf "end" with boundary := .closes }
    let requests : List Request := [.register (.seed (leaf "a")), .register (.seed closing),
      .register (.seed (leaf "after")), .finalize, .generate]
    let gen := blank.run requests
    gen.finalized = true ∧ gen.store.closes ⟨0⟩ = false ∧ gen.store.closes ⟨1⟩ = true ∧
    gen.store.generates ⟨0⟩ = false ∧ gen.store.generates ⟨1⟩ = false ∧
    ∃ result gen', (Generator.traverse 3 none ⟨0⟩).run gen = .ok result gen' ∧
      result = some (.code "after") ∧ gen'.mention? ⟨1⟩ = some (.code "end") ∧
      .entered ⟨2⟩ ∈ gen'.journal.drop gen.journal.length := by
  intro leaf closing requests gen
  have hseen : seenAfter? (fun result gen' => (result, gen'.mention? ⟨1⟩,
      decide (.entered ⟨2⟩ ∈ gen'.journal.drop gen.journal.length)))
      (Generator.traverse 3 none ⟨0⟩) gen =
        some (some (.code "after"), some (.code "end"), true) := by
    decide +kernel
  obtain ⟨result, gen', hrun, hview⟩ := run_of_seenAfter? hseen
  obtain ⟨hresult, hmention, hentered⟩ : result = some (.code "after") ∧
      gen'.mention? ⟨1⟩ = some (.code "end") ∧
      .entered ⟨2⟩ ∈ gen'.journal.drop gen.journal.length := by
    simpa using hview
  exact ⟨by decide +kernel, by decide +kernel, by decide +kernel, by decide +kernel,
    by decide +kernel, result, gen', hrun, hresult, hmention, hentered⟩

end Session

end SeedGraph
