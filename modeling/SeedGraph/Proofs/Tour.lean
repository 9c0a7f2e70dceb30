import SeedGraph.Proofs.ExactlyOnce
import SeedGraph.Proofs.Frozen
import SeedGraph.Proofs.Program.Walk

/-!
# What one traversal does

A traversal comes to one stored seed after the other.  Between two of them a hook may run, and may
start traversals of its own, so what the traversal finds at the next seed is not fixed beforehand.
A `Tour` is the record of what it found: the seeds in the order in which it came to them, each with
the session at that moment.  A seed with a result is passed over and the session stays as it is; any
other seed is compiled, and the next seed is found in the session that its hook has left.

## Own entrances

The journal does not say which traversal entered a hook, but the open frames do.  A traversal that
began with `gen.frames` open enters hooks of its own just when `.traversal :: gen.frames` are open;
a traversal inside one of those hooks has more frames open, and nothing that happens in a hook
closes a frame around it (`Route`).  So `Generator.directEntries` picks the entrances of one
traversal out of the journal, and `Tour.direct` identifies them with the seeds of the tour that had
no result.
-/

namespace SeedGraph

/-! ### Consecutive identifiers -/

namespace SeedId

theorem take_range (index : Int) (count k : Nat) :
    (range index count).take k = range index (min k count) := by
  unfold range
  rw [← List.map_take, List.take_range]

/-- The identifiers from an index to `last`. -/
def through (index : Int) (last : SeedId) : List SeedId :=
  range index (last.index + 1 - index).toNat

theorem mem_through {index : Int} {last id : SeedId} :
    id ∈ through index last ↔ index ≤ id.index ∧ id.index ≤ last.index := by
  unfold through
  rw [mem_range]
  omega

theorem pairwise_through (index : Int) (last : SeedId) :
    (through index last).Pairwise fun first second => first.index < second.index := by
  unfold through range
  rw [List.pairwise_map]
  refine List.pairwise_lt_range.imp fun {i j} hless => ?_
  show index + (i : Int) < index + (j : Int)
  omega

/-- The first of some consecutive identifiers, up to the last of these. -/
theorem eq_through_of_getLast? {ids : List SeedId} {index : Int} {count : Nat} {last : SeedId}
    (hfront : ids <+: range index count) (hlast : ids.getLast? = some last) :
    ids = through index last := by
  have hids : ids = range index (min ids.length count) := by
    rw [← take_range]
    exact List.prefix_iff_eq_take.1 hfront
  rw [hids] at hlast ⊢
  generalize min ids.length count = length at hlast ⊢
  cases length with
  | zero => exact absurd hlast (by simp [range])
  | succ k =>
    rw [getLast?_range, Option.some.injEq] at hlast
    have hindex : index + (k : Int) = last.index := congrArg SeedId.index hlast
    have hcount : (last.index + 1 - index).toNat = k + 1 := by omega
    rw [through, hcount]

end SeedId

namespace Store

variable {κ : Type}

/-- The stored identifiers at or after `start`, whether `start` is stored or not. -/
theorem idsFrom_eq_range (store : Store κ) (start : SeedId) :
    store.idsFrom start = SeedId.range (max start.index store.lower)
      (store.upper - max start.index store.lower).toNat := by
  by_cases hupper : max start.index store.lower ≤ store.upper
  · rw [← store.idsFrom_eq (Int.le_max_right _ _) hupper]
    unfold idsFrom
    refine List.filter_congr fun id hid => ?_
    have hstored := (store.mem_ids_iff id).1 hid
    rw [decide_eq_decide]
    show start.index ≤ id.index ↔ max start.index store.lower ≤ id.index
    omega
  · have hnone : (store.upper - max start.index store.lower).toNat = 0 := by omega
    rw [hnone]
    show store.ids.filter _ = []
    rw [List.filter_eq_nil_iff]
    intro id hid
    have hstored := (store.mem_ids_iff id).1 hid
    simp only [decide_eq_true_eq]
    omega

/-- Does the stored seed `id` close a region? -/
def closes (store : Store κ) (id : SeedId) : Bool :=
  (store.get? id).any fun seed => seed.boundary = .closes

theorem closes_of_stored {store : Store κ} {id : SeedId} {seed : Seed κ}
    (stored : store.get? id = some seed) :
    store.closes id = true ↔ seed.boundary = .closes := by
  unfold closes
  rw [stored]
  show decide (seed.boundary = .closes) = true ↔ _
  exact decide_eq_true_iff

theorem SameGraph.closes {store store' : Store κ} (h : store.SameGraph store') :
    store'.closes = store.closes := by
  funext id
  exact h.any_eq (fun _ => rfl) id

end Store

/-! ### Entrances in the journal -/

/-- The seed whose hook an event enters. -/
def Event.enteredId? : Event → Option SeedId
  | .entered id => some id
  | _ => none

instance (event : Event) (id : SeedId) : Decidable (event = .entered id) :=
  decidable_of_iff (event.enteredId? = some id) (by cases event <;> simp [Event.enteredId?])

/-- The seeds whose hooks were entered while just `frames` were open, if `current` were open before
the events. -/
def enteredUnder (frames : List Frame) : List Frame → List Event → List SeedId
  | _, [] => []
  | current, event :: rest =>
    (if current = frames then event.enteredId?.toList else []) ++
      enteredUnder frames (event.nest current) rest

theorem enteredUnder_append (frames current : List Frame) (events events' : List Event) :
    enteredUnder frames current (events ++ events') =
      enteredUnder frames current events ++
        enteredUnder frames (events.foldl Event.nest current) events' := by
  induction events generalizing current with
  | nil => rfl
  | cons event rest ih =>
    rw [List.cons_append, enteredUnder, ih, enteredUnder, List.append_assoc]
    rfl

/-- Where no hook is entered there is nothing to find. -/
theorem enteredUnder_of_none {events : List Event}
    (h : ∀ event ∈ events, event.enteredId? = none) (frames current : List Frame) :
    enteredUnder frames current events = [] := by
  induction events generalizing current with
  | nil => rfl
  | cons event rest ih =>
    rw [enteredUnder, h event (by simp), ih fun other hother => h other (by simp [hother])]
    by_cases hcurrent : current = frames
    · rw [if_pos hcurrent]
      rfl
    · rw [if_neg hcurrent]
      rfl

namespace Generator

/-- What the journal says about a hook that ran, with `events` while it ran, and was accepted. -/
theorem journal_accepted {gen ending : Session} {id : SeedId} {events : List Event}
    (hjournal : ending.journal = (gen.entered id).journal ++ events) :
    ((ending.left id none).noted (.accepted id)).journal =
      gen.journal ++ .entered id :: (events ++ [.left id none, .accepted id]) := by
  rw [noted, left, hjournal, entered]
  simp

/-- What the journal says about a traversal that succeeded, with `events` on the way. -/
theorem journal_traversed {gen last : Session} {events : List Event}
    (hjournal : last.journal = (gen.noted .traversalBegan).journal ++ events) :
    (last.noted (.traversalEnded none)).journal =
      gen.journal ++ .traversalBegan :: (events ++ [.traversalEnded none]) := by
  rw [noted, hjournal, noted]
  simp

/-- A session whose journal is longer by some events. -/
theorem frames_of_journal {gen gen' : Session} {events : List Event}
    (hjournal : gen'.journal = gen.journal ++ events) :
    gen'.frames = events.foldl Event.nest gen.frames := by
  unfold frames openFrames
  rw [hjournal, List.foldl_append]

end Generator

/-- A move made with other frames open enters no hook under `frames`. -/
theorem Move.enteredUnder {gen gen' : Session} (move : Move gen gen') {frames : List Frame}
    (other : gen.frames ≠ frames) :
    ∃ events, gen'.journal = gen.journal ++ events ∧
      SeedGraph.enteredUnder frames gen.frames events = [] := by
  obtain ⟨events, hjournal, hentered⟩ := move.appends
  refine ⟨events, hjournal, ?_⟩
  by_cases hsome : ∃ id, .entered id ∈ events
  · obtain ⟨id, hid⟩ := hsome
    obtain ⟨hsingle, -, -⟩ := hentered id hid
    rw [hsingle, SeedGraph.enteredUnder, if_neg other]
    rfl
  · refine enteredUnder_of_none (fun event hevent => ?_) _ _
    cases event with
    | entered id => exact absurd ⟨id, hevent⟩ hsome
    | _ => rfl

namespace Route

variable {level : Bool} {floor : Nat} {gen gen' : Session}

theorem floor_le (route : Route level floor gen gen') (h : floor ≤ gen.frames.length) :
    floor ≤ gen'.frames.length := by
  cases route with
  | refl => exact h
  | tail _ step => exact step.2.1

/-- **On a route no hook is entered by what lies below its floor.** -/
theorem enteredUnder (route : Route level floor gen gen') (h : floor ≤ gen.frames.length)
    {frames : List Frame} (below : frames.length < floor) :
    ∃ events, gen'.journal = gen.journal ++ events ∧
      SeedGraph.enteredUnder frames gen.frames events = [] := by
  induction route with
  | refl => exact ⟨[], (List.append_nil _).symm, rfl⟩
  | @tail moment next earlier step ih =>
    obtain ⟨events, hjournal, hnone⟩ := ih
    have hdeep : floor ≤ moment.frames.length := floor_le earlier h
    have hother : moment.frames ≠ frames := by
      rintro rfl
      omega
    obtain ⟨events', hjournal', hnone'⟩ := step.1.enteredUnder hother
    refine ⟨events ++ events', ?_, ?_⟩
    · rw [hjournal', hjournal, List.append_assoc]
    · rw [enteredUnder_append, hnone, ← Generator.frames_of_journal hjournal, hnone']
      rfl

end Route

/-! ### Tours -/

/-- A traversal that compiles seeds by `compile` comes to one seed after the other, to the first of
them in the session `gen`, and is done in the session `gen'`.  Each seed that it came to stands with
the session at that moment. -/
inductive Tour (compile : SeedId → GenM Hook Compiled) :
    Session → List (SeedId × Session) → Session → Prop
  /-- There is nothing to come to. -/
  | done (gen : Session) : Tour compile gen [] gen
  /-- A seed with a result is passed over. -/
  | pass {gen gen' : Session} {id : SeedId} {visits : List (SeedId × Session)}
      (result : gen.HasResult id) (on : Tour compile gen visits gen') :
      Tour compile gen ((id, gen) :: visits) gen'
  /-- A seed without a result is compiled by its hook, which is accepted. -/
  | compiled {gen ending gen' : Session} {id : SeedId} {seed : Seed Hook} {value : Compiled}
      {visits : List (SeedId × Session)} (stored : gen.store.get? id = some seed)
      (unset : seed.slot = .unset)
      (ran : (compile id).run gen = .ok value ((ending.left id none).noted (.accepted id)))
      (hook : Generator.HookRun gen id seed 1 ending)
      (accept : Move ending ((ending.left id none).noted (.accepted id)))
      (on : Tour compile ((ending.left id none).noted (.accepted id)) visits gen') :
      Tour compile gen ((id, gen) :: visits) gen'

/-- The seeds that had no result when they were come to. -/
def freshIds (visits : List (SeedId × Session)) : List SeedId :=
  (visits.filter fun visit => visit.2.slot? visit.1 = some .unset).map Prod.fst

theorem freshIds_cons_of_hasResult {gen : Session} {id : SeedId} (result : gen.HasResult id)
    (visits : List (SeedId × Session)) : freshIds ((id, gen) :: visits) = freshIds visits := by
  obtain ⟨slot, hslot, hset⟩ := result
  have hnot : gen.slot? id ≠ some .unset := by
    rw [hslot]
    rintro ⟨rfl⟩
    exact absurd hset (by simp [Slot.isSet])
  unfold freshIds
  rw [List.filter_cons_of_neg (by simpa using hnot)]

theorem freshIds_cons_of_unset {gen : Session} {id : SeedId} {seed : Seed Hook}
    (stored : gen.store.get? id = some seed) (unset : seed.slot = .unset)
    (visits : List (SeedId × Session)) :
    freshIds ((id, gen) :: visits) = id :: freshIds visits := by
  have hslot : gen.slot? id = some .unset := by
    rw [Generator.slot?_of_stored stored, unset]
  unfold freshIds
  rw [List.filter_cons_of_pos (by simpa using hslot)]
  rfl

theorem freshIds_sublist (visits : List (SeedId × Session)) :
    (freshIds visits).Sublist (visits.map Prod.fst) :=
  List.filter_sublist.map Prod.fst

/-- What has a result keeps one. -/
theorem Moves.hasResult {gen gen' : Session} (moves : Moves gen gen') (reachable : Reachable gen)
    {id : SeedId} (result : gen.HasResult id) : gen'.HasResult id := by
  have hresulted := (reachable.disciplined.results id).1 result
  exact ((reachable.moves moves).disciplined.results id).2 (moves.journal_prefix.subset hresulted)

namespace Generator.HookRun

variable {gen ending : Session} {id : SeedId} {seed : Seed Hook} {continuations : Nat}

/-- From outside, a hook that is accepted opens nothing and closes nothing. -/
theorem passage (h : HookRun gen id seed continuations ending)
    (accept : Move ending ((ending.left id none).noted (.accepted id))) :
    Passage false gen ((ending.left id none).noted (.accepted id)) := by
  have hback := frames_accepted h.frames
  exact ⟨(h.route (Nat.le_refl _)).trans (.single accept (congrArg List.length hback)), hback⟩

/-- **The only hook that is entered from outside is the one that runs.** -/
theorem enteredUnder (h : HookRun gen id seed continuations ending) :
    ∃ events, ((ending.left id none).noted (.accepted id)).journal = gen.journal ++ events ∧
      SeedGraph.enteredUnder gen.frames gen.frames events = [id] := by
  have hentered : (gen.entered id).frames = .hook id 0 :: gen.frames := frames_entered gen id
  have hdeep : gen.frames.length + 1 ≤ (gen.entered id).frames.length := by
    rw [hentered]
    exact Nat.le_refl _
  obtain ⟨events, hjournal, hnone⟩ := h.inside.enteredUnder hdeep (Nat.lt_succ_self _)
  have hending := frames_of_journal hjournal
  rw [hentered] at hnone hending
  refine ⟨_, journal_accepted hjournal, ?_⟩
  have hafter : SeedGraph.enteredUnder gen.frames ending.frames
      [.left id none, .accepted id] = [] :=
    enteredUnder_of_none (by simp [Event.enteredId?]) _ _
  rw [SeedGraph.enteredUnder, if_pos rfl]
  show id :: SeedGraph.enteredUnder gen.frames (.hook id 0 :: gen.frames) _ = _
  rw [enteredUnder_append, hnone, ← hending, hafter]
  rfl

end Generator.HookRun

namespace Tour

variable {compile : SeedId → GenM Hook Compiled} {gen gen' : Session}
  {visits : List (SeedId × Session)}

theorem passage (tour : Tour compile gen visits gen') : Passage false gen gen' := by
  induction tour with
  | done gen => exact .refl gen
  | pass _ _ ih => exact ih
  | compiled _ _ _ hook accept _ ih => exact (hook.passage accept).trans ih

/-- **What a traversal enters itself are the seeds without a result that it comes to.** -/
theorem direct (tour : Tour compile gen visits gen') :
    ∃ events, gen'.journal = gen.journal ++ events ∧
      enteredUnder gen.frames gen.frames events = freshIds visits := by
  induction tour with
  | done gen => exact ⟨[], (List.append_nil _).symm, rfl⟩
  | pass result _ ih =>
    obtain ⟨events, hjournal, hfresh⟩ := ih
    exact ⟨events, hjournal, hfresh.trans (freshIds_cons_of_hasResult result _).symm⟩
  | @compiled gen ending _ id _ _ _ stored unset _ hook accept _ ih =>
    obtain ⟨events, hjournal, hown⟩ := hook.enteredUnder
    obtain ⟨events', hjournal', hfresh⟩ := ih
    have hback := (hook.passage accept).frames
    rw [hback] at hfresh
    refine ⟨events ++ events', ?_, ?_⟩
    · rw [hjournal', hjournal, List.append_assoc]
    · rw [enteredUnder_append, hown, ← Generator.frames_of_journal hjournal, hback, hfresh,
        freshIds_cons_of_unset stored unset]
      rfl

/-- In the end every seed that was come to has a result. -/
theorem hasResult (tour : Tour compile gen visits gen') (reachable : Reachable gen) :
    ∀ id ∈ visits.map Prod.fst, gen'.HasResult id := by
  induction tour with
  | done gen => exact fun id hid => absurd hid List.not_mem_nil
  | pass result on ih =>
    intro id hid
    rcases List.mem_cons.1 hid with rfl | hid
    · exact on.passage.moves.hasResult reachable result
    · exact ih reachable id hid
  | compiled _ _ _ hook accept on ih =>
    have hreachable := reachable.moves (hook.passage accept).moves
    intro id hid
    rcases List.mem_cons.1 hid with rfl | hid
    · have hdisciplined := hreachable.disciplined
      refine on.passage.moves.hasResult hreachable ((hdisciplined.results _).2 ?_)
      exact hdisciplined.accepted _ (by simp [Generator.noted])
    · exact ih hreachable id hid

end Tour

/-! ### Walks -/

namespace Generator

/-- A way to compile seeds without a result: if it succeeds, the hook of the seed ran and was
accepted, and the answer is the result of the seed. -/
def RunsHooks (compile : SeedId → GenM Hook Compiled) : Prop :=
  ∀ (gen : Session) (outer : List Frame) (id : SeedId) (seed : Seed Hook), gen.store.Numbered →
    gen.finalized = true → gen.frames = .traversal :: outer → gen.store.get? id = some seed →
    seed.slot = .unset → ∀ value next, (compile id).run gen = .ok value next →
      ∃ ending, HookRun gen id seed 1 ending ∧ next = (ending.left id none).noted (.accepted id) ∧
        Move ending next ∧ next.mention? id = some value

theorem runsHooks_compile {traversal : Traversal Hook}
    (h : ∀ initial start, Orderly false (traversal initial start)) :
    RunsHooks (compile traversal) := by
  intro gen outer id seed numbered complete hframes stored unset value next hrun
  obtain ⟨error, hfail⟩ | ⟨continuations, ending, hhook, -, hend⟩ :=
    compile_cases h numbered complete hframes stored unset
  · rw [hfail] at hrun
    exact absurd hrun (by simp)
  obtain ⟨failure, error, hfail⟩ | ⟨found, text, rfl, hfound, hslot, hdone⟩ := hend
  · rw [hfail] at hrun
    exact absurd hrun (by simp)
  · rw [hdone] at hrun
    injection hrun with hvalue hnext
    have hinner := hhook.frames
    rw [hframes] at hinner
    refine ⟨ending, hhook, hnext.symm, ?_, ?_⟩
    · rw [← hnext]
      exact .accept hinner hfound hslot
    · rw [← hnext, ← hvalue]
      show (ending.slot? id).bind Slot.current = _
      rw [slot?_of_stored hfound]
      exact hslot

/-- How the seeds of a traversal are compiled in which up to `depth` hooks may run inside one
another. -/
def compileAt : Nat → SeedId → GenM Hook Compiled
  | 0 => fun id => throw (.reentrantCompile id)
  | depth + 1 => compile (traverse depth)

theorem traverse_eq (depth : Nat) : traverse depth = traverseWith (compileAt depth) := by
  cases depth with
  | zero => rfl
  | succ depth => rfl

theorem runsHooks_compileAt (depth : Nat) : RunsHooks (compileAt depth) := by
  cases depth with
  | zero =>
    intro gen outer id seed _ _ _ _ _ value next hrun
    have hfail : (compileAt 0 id).run gen = .error (.reentrantCompile id) gen := rfl
    rw [hfail] at hrun
    exact absurd hrun (by simp)
  | succ depth => exact runsHooks_compile (orderly_traverse depth)

theorem isSome_mention? {gen : Session} (id : SeedId) :
    (gen.mention? id).isSome ↔ gen.HasResult id := by
  rw [mention?, Option.isSome_bind, Option.any_eq_true]
  refine exists_congr fun slot => and_congr_right fun _ => ?_
  cases slot <;> simp [Slot.current, Slot.isSet]

/-- A stored seed is mentioned by its result, or has none. -/
theorem mention?_cases {gen : Session} {id : SeedId} {seed : Seed Hook}
    (stored : gen.store.get? id = some seed) :
    (∃ result, gen.mention? id = some result) ∨ seed.slot = .unset := by
  have hmention : gen.mention? id = seed.slot.current := by
    unfold mention?
    rw [slot?_of_stored stored]
    rfl
  rw [hmention]
  cases seed.slot with
  | unset => exact .inr rfl
  | set value => exact .inl ⟨value, rfl⟩
  | bound name reference value => exact .inl ⟨reference, rfl⟩

/-- One step of a walk that succeeds: its first seed is passed over, or compiled; in the second case
the walk ends there just if the seed closes a region. -/
theorem walk_cons_cases {compile : SeedId → GenM Hook Compiled} (runs : RunsHooks compile)
    {outer : List Frame} {id : SeedId} {rest : List SeedId} {latest : Option Compiled}
    {gen : Session} (numbered : gen.store.Numbered) (complete : gen.finalized = true)
    (hframes : gen.frames = .traversal :: outer) {result : Option Compiled} {gen' : Session}
    (hrun : (walk compile (id :: rest) latest).run gen = .ok result gen') :
    (∃ value, gen.mention? id = some value ∧ gen.HasResult id ∧
      (walk compile rest (some value)).run gen = .ok result gen') ∨
    ∃ seed ending next value, gen.store.get? id = some seed ∧ seed.slot = .unset ∧
      (compile id).run gen = .ok value next ∧ HookRun gen id seed 1 ending ∧
      next = (ending.left id none).noted (.accepted id) ∧
      Move ending next ∧ next.mention? id = some value ∧
      ((gen.store.closes id = true ∧ result = some value ∧ gen' = next) ∨
        (gen.store.closes id = false ∧
          (walk compile rest (some value)).run next = .ok result gen')) := by
  cases hstored : gen.store.get? id with
  | none =>
    rw [walk, EStateM.run_bind, run_lookup_of_none hstored] at hrun
    exact absurd hrun (by simp)
  | some seed =>
    obtain ⟨value, hmention⟩ | unset := mention?_cases hstored
    · rw [run_walk_of_mention rest latest hmention] at hrun
      exact .inl ⟨value, hmention, (isSome_mention? id).1 (by rw [hmention]; rfl), hrun⟩
    rw [run_walk_of_unset rest latest hstored unset, EStateM.run_bind] at hrun
    cases hcompile : (compile id).run gen with
    | error failure next =>
      rw [hcompile] at hrun
      exact absurd hrun (by simp)
    | ok value next =>
      rw [hcompile] at hrun
      obtain ⟨ending, hhook, hnext, haccept, hmention⟩ :=
        runs gen outer id seed numbered complete hframes hstored unset value next hcompile
      refine .inr ⟨seed, ending, next, value, rfl, unset, rfl, hhook, hnext, haccept, hmention, ?_⟩
      -- The seed is looked up again after its hook has run, but its boundary is what it was.
      have hmoves : Moves gen next := by
        rw [hnext] at haccept ⊢
        exact (hhook.passage haccept).moves
      obtain ⟨seed', hstored', hdesign⟩ := (hmoves.sameGraph complete).symm.stored hstored
      have hboundary := Seed.boundary_of_design hdesign
      have hcloses := Store.closes_of_stored hstored
      dsimp only at hrun
      rw [run_bind_ok (run_lookup_of_some hstored'), hboundary] at hrun
      by_cases hends : seed.boundary = .closes
      · rw [if_pos hends] at hrun
        injection hrun with hresult hgen
        exact .inl ⟨hcloses.2 hends, hresult.symm, hgen.symm⟩
      · rw [if_neg hends] at hrun
        exact .inr ⟨Bool.eq_false_iff.2 fun h => hends (hcloses.1 h), hrun⟩

/-- A seed before the end of a walk changes neither where the walk ends nor what it answers. -/
theorem last_cons {id : SeedId} {rest visited : List SeedId} {stop : Option SeedId}
    {latest result : Option Compiled} {value : Compiled} {mention : SeedId → Option Compiled}
    (hvalue : visited = [] → mention id = some value)
    (hstop : visited.getLast? = stop.or rest.getLast?)
    (hresult : result = visited.getLast?.elim (some value) mention) :
    (id :: visited).getLast? = stop.or (id :: rest).getLast? ∧
      result = (id :: visited).getLast?.elim latest mention := by
  rw [List.getLast?_cons, List.getLast?_cons]
  constructor
  · rw [hstop]
    cases stop with
    | none => rfl
    | some found => rfl
  · rw [hresult]
    cases hvisited : visited with
    | nil => exact (hvalue hvisited).symm
    | cons first others =>
      rw [List.getLast?_cons]
      rfl

/-- **A walk that succeeds is a tour** over the first of its seeds.  The last one that it comes to
is the first that it compiled and that closes a region, or else the last of all; and its result is
the result of the walk. -/
theorem exists_tour_of_walk {compile : SeedId → GenM Hook Compiled} (runs : RunsHooks compile)
    {outer : List Frame} (ids : List SeedId) (latest : Option Compiled) (gen : Session)
    (numbered : gen.store.Numbered) (complete : gen.finalized = true)
    (hframes : gen.frames = .traversal :: outer) {result : Option Compiled} {gen' : Session}
    (hrun : (walk compile ids latest).run gen = .ok result gen') :
    ∃ visits, Tour compile gen visits gen' ∧ visits.map Prod.fst <+: ids ∧
      (visits.map Prod.fst).getLast? =
        ((freshIds visits).find? gen.store.closes).or ids.getLast? ∧
      result = (visits.map Prod.fst).getLast?.elim latest gen'.mention? := by
  induction ids generalizing latest gen with
  | nil =>
    injection hrun with hresult hgen
    subst hgen
    exact ⟨[], .done gen, List.prefix_rfl, rfl, hresult.symm⟩
  | cons id rest ih =>
    obtain ⟨value, hmention, hset, hrest⟩ |
        ⟨seed, ending, next, value, hstored, unset, hran, hhook, rfl, haccept, hmention, hend⟩ :=
      walk_cons_cases runs numbered complete hframes hrun
    · obtain ⟨visits, htour, hfront, hstop, hresult⟩ :=
        ih (some value) gen numbered complete hframes hrest
      refine ⟨(id, gen) :: visits, .pass hset htour, List.cons_prefix_cons.2 ⟨rfl, hfront⟩, ?_⟩
      rw [freshIds_cons_of_hasResult hset]
      refine last_cons (fun hnone => ?_) hstop hresult
      obtain rfl := List.map_eq_nil_iff.1 hnone
      cases htour
      exact hmention
    have hfresh := freshIds_cons_of_unset hstored unset
    have hpassage := hhook.passage haccept
    obtain ⟨hcloses, rfl, rfl⟩ | ⟨hcloses, hrest⟩ := hend
    · refine ⟨[(id, gen)], .compiled hstored unset hran hhook haccept (.done _),
        List.cons_prefix_cons.2 ⟨rfl, List.nil_prefix⟩, ?_, hmention.symm⟩
      rw [hfresh, List.find?_cons, hcloses]
      rfl
    · obtain ⟨visits, htour, hfront, hstop, hresult⟩ := ih (some value) _
        (hpassage.moves.numbered numbered) (hpassage.moves.finalized complete)
        (hpassage.frames.trans hframes) hrest
      refine ⟨(id, gen) :: visits, .compiled hstored unset hran hhook haccept htour,
        List.cons_prefix_cons.2 ⟨rfl, hfront⟩, ?_⟩
      rw [(hpassage.moves.sameGraph complete).closes] at hstop
      rw [hfresh, List.find?_cons, hcloses]
      refine last_cons (fun hnone => ?_) hstop hresult
      obtain rfl := List.map_eq_nil_iff.1 hnone
      cases htour
      exact hmention

/-! ### Traversals -/

/-- The seeds whose hooks a traversal entered itself, if it began in `gen` and had ended in `gen'`.
-/
def directEntries (gen gen' : Session) : List SeedId :=
  enteredUnder (.traversal :: gen.frames) gen.frames (gen'.journal.drop gen.journal.length)

/-- The seed at which a traversal ends that entered the hooks of `direct` itself. -/
def stopAmong (gen : Session) (direct : List SeedId) : SeedId :=
  (direct.find? gen.store.closes).getD ⟨gen.upper - 1⟩

theorem stopAmong_of_find? {gen : Session} {direct : List SeedId} {found : SeedId}
    (hfound : direct.find? gen.store.closes = some found) : gen.stopAmong direct = found := by
  rw [stopAmong, hfound]
  rfl

theorem run_walkFrom_of_finalized {compile : SeedId → GenM Hook Compiled} {gen : Session}
    (complete : gen.finalized = true) (initial : Option Compiled) (start : SeedId) :
    (walkFrom compile initial start).run gen =
      (walk compile (gen.store.idsFrom start) initial).run gen := by
  rw [walkFrom, run_bind_ok (run_requireFinalized_of_finalized complete), run_get_bind]

/-- A traversal that finds no seed changes nothing. -/
theorem run_traverse_of_upper_le {gen : Session} (complete : gen.finalized = true) (depth : Nat)
    (initial : Option Compiled) {start : SeedId}
    (hnone : gen.upper ≤ max start.index gen.lower) :
    (traverse depth initial start).run gen =
      .ok initial ((gen.noted .traversalBegan).noted (.traversalEnded none)) := by
  have hids : gen.store.idsFrom start = [] := by
    have hcount : (gen.store.upper - max start.index gen.store.lower).toNat = 0 := by
      have hle : gen.store.upper ≤ max start.index gen.store.lower := hnone
      omega
    rw [Store.idsFrom_eq_range, hcount]
    rfl
  rw [traverse_eq]
  refine run_traverseWith_ok ?_
  rw [run_walkFrom_of_finalized (show (gen.noted .traversalBegan).finalized = true from complete)]
  show (walk (compileAt depth) (gen.store.idsFrom start) initial).run _ = _
  rw [hids]
  rfl

/-- **A traversal that succeeds is a tour** over the seeds from its start to its stop, with the
result of the latter as its answer. -/
theorem exists_tour_of_traverse {gen : Session} (numbered : gen.store.Numbered)
    (complete : gen.finalized = true) {depth : Nat} {initial : Option Compiled} {start : SeedId}
    {first : Int} (hfirst : first = max start.index gen.lower) (hsome : first < gen.upper)
    {result : Option Compiled} {gen' : Session}
    (hrun : (traverse depth initial start).run gen = .ok result gen') :
    ∃ visits last stop, Tour (compileAt depth) (gen.noted .traversalBegan) visits last ∧
      gen' = last.noted (.traversalEnded none) ∧ stop = gen.stopAmong (freshIds visits) ∧
      first ≤ stop.index ∧ stop.index < gen.upper ∧
      visits.map Prod.fst = SeedId.through first stop ∧ result = gen'.mention? stop := by
  have hbegan : (gen.noted .traversalBegan).finalized = true := complete
  have hframes : (gen.noted .traversalBegan).frames = .traversal :: gen.frames := frames_noted _ _
  rw [traverse_eq] at hrun
  cases hwalk : (walkFrom (compileAt depth) initial start).run (gen.noted .traversalBegan) with
  | error failure last =>
    rw [run_traverseWith_error hwalk] at hrun
    exact absurd hrun (by simp)
  | ok value last =>
    rw [run_traverseWith_ok hwalk] at hrun
    injection hrun with hvalue hlast
    rw [run_walkFrom_of_finalized hbegan] at hwalk
    obtain ⟨visits, htour, hfront, hend, hresult⟩ :=
      exists_tour_of_walk (runsHooks_compileAt depth) _ initial (gen.noted .traversalBegan)
        numbered hbegan hframes hwalk
    have hids : gen.store.idsFrom start = SeedId.range first (gen.upper - first).toNat := by
      rw [hfirst]
      exact gen.store.idsFrom_eq_range start
    change _ <+: gen.store.idsFrom start at hfront
    change _ = ((freshIds visits).find? gen.store.closes).or
      (gen.store.idsFrom start).getLast? at hend
    -- There is a last seed of all, so the tour does not end nowhere.
    obtain ⟨count, hcount⟩ : ∃ count : Nat, first + count + 1 = gen.upper :=
      ⟨(gen.upper - first - 1).toNat, by omega⟩
    have hlength : (gen.upper - first).toNat = count + 1 := by omega
    have hstop : (visits.map Prod.fst).getLast? = some (gen.stopAmong (freshIds visits)) := by
      rw [hend, hids, hlength, SeedId.getLast?_range, stopAmong, ← hcount, Int.add_sub_cancel]
      cases (freshIds visits).find? gen.store.closes with
      | none => rfl
      | some found => rfl
    rw [hids] at hfront
    have hrange := SeedId.mem_range.1 (hfront.subset (List.mem_of_getLast? hstop))
    refine ⟨visits, last, _, htour, hlast.symm, rfl, hrange.1, by omega,
      SeedId.eq_through_of_getLast? hfront hstop, ?_⟩
    rw [← hvalue, ← hlast, hresult, hstop]
    rfl

/-- The entrances of a traversal are those of its tour. -/
theorem directEntries_eq {compile : SeedId → GenM Hook Compiled} {gen last : Session}
    {visits : List (SeedId × Session)}
    (tour : Tour compile (gen.noted .traversalBegan) visits last) :
    gen.directEntries (last.noted (.traversalEnded none)) = freshIds visits := by
  have hframes : (gen.noted .traversalBegan).frames = .traversal :: gen.frames := frames_noted _ _
  obtain ⟨events, hjournal, hfresh⟩ := tour.direct
  rw [hframes] at hfresh
  have hend : ∀ current, enteredUnder (.traversal :: gen.frames) current
      [.traversalEnded none] = [] := by
    intro current
    exact enteredUnder_of_none (by simp [Event.enteredId?]) _ _
  have hbegin : ¬ gen.frames = .traversal :: gen.frames := by
    intro hsame
    exact absurd (congrArg List.length hsame) (by simp)
  rw [directEntries, journal_traversed hjournal, List.drop_left, enteredUnder, if_neg hbegin]
  show enteredUnder (.traversal :: gen.frames) (.traversal :: gen.frames) _ = _
  rw [enteredUnder_append, hend, hfresh, List.append_nil]

/-- **What one traversal does.**  At any moment of any run with a complete graph, in the middle of a
hook or not, a traversal is begun at `start` with the result `initial`.  Let `first` be the least
stored index at or after `start`.

* If there is none, the answer is `initial`, and nothing changes.
* Otherwise, if the traversal succeeds, let `stop` be the first seed whose hook it entered itself
  and that closes a region, or the last seed of all.  It came to just the seeds from `first` to
  `stop`, in this order; itself it entered the hooks of just those that had no result when it came
  to them, and so in strictly ascending order and none after `stop`; in the end all seeds from
  `first` to `stop` have results; and its answer is the current result of `stop`, whatever `initial`
  was. -/
theorem traverse_compiles_to_stop {gen : Session} (reachable : Reachable gen)
    (complete : gen.finalized = true) (depth : Nat) (initial : Option Compiled) (start : SeedId) :
    let first := max start.index gen.lower
    (gen.upper ≤ first → (traverse depth initial start).run gen =
      .ok initial ((gen.noted .traversalBegan).noted (.traversalEnded none))) ∧
    (first < gen.upper → ∀ result gen', (traverse depth initial start).run gen = .ok result gen' →
      let direct := gen.directEntries gen'
      let stop := gen.stopAmong direct
      first ≤ stop.index ∧ stop.index < gen.upper ∧
      (∃ visits last, Tour (compileAt depth) (gen.noted .traversalBegan) visits last ∧
        gen' = last.noted (.traversalEnded none) ∧
        visits.map Prod.fst = SeedId.through first stop ∧ direct = freshIds visits) ∧
      direct.Pairwise (fun earlier later => earlier.index < later.index) ∧
      (∀ id ∈ direct, first ≤ id.index ∧ id.index ≤ stop.index) ∧
      (∀ id : SeedId, first ≤ id.index → id.index ≤ stop.index → gen'.HasResult id) ∧
      ∃ value, result = some value ∧ gen'.mention? stop = some value) := by
  intro first
  refine ⟨run_traverse_of_upper_le complete depth initial, fun hsome result gen' hrun => ?_⟩
  intro direct stop
  obtain ⟨visits, last, _, htour, rfl, rfl, hle, hless, hvisits, hresult⟩ :=
    exists_tour_of_traverse reachable.numbered complete rfl hsome hrun
  have hdirect : direct = freshIds visits := directEntries_eq htour
  have hstop : gen.stopAmong (freshIds visits) = stop := by
    rw [← hdirect]
  rw [hstop] at hle hless hvisits hresult
  have hresults : ∀ id : SeedId, first ≤ id.index → id.index ≤ stop.index →
      (last.noted (.traversalEnded none)).HasResult id := by
    intro id hlow hhigh
    refine htour.hasResult (reachable.moves (.single .beginTraversal)) id ?_
    rw [hvisits]
    exact SeedId.mem_through.2 ⟨hlow, hhigh⟩
  have hfresh : direct.Sublist (SeedId.through first stop) := by
    rw [hdirect, ← hvisits]
    exact freshIds_sublist visits
  have hanswer := (isSome_mention? stop).2 (hresults stop hle (Int.le_refl _))
  obtain ⟨value, hvalue⟩ := Option.isSome_iff_exists.1 hanswer
  refine ⟨hle, hless, ⟨visits, last, htour, rfl, hvisits, hdirect⟩,
    (SeedId.pairwise_through _ _).sublist hfresh, ?_, hresults, value, hresult.trans hvalue, hvalue⟩
  intro id hid
  exact SeedId.mem_through.1 (hfresh.subset hid)

end Generator

/-- A traversal that begins before all seeds and passes over what a region inside of it has
compiled. -/
theorem Session.traverse_compiles_to_stop_nested :
    let block : Blueprint Hook := {
      kind := "block"
      boundary := .opens
      hook := [.region .afterSelf "; ", .setResult, .proceed] }
    let leaf : Blueprint Hook := { kind := "leaf", hook := [.text "f()", .setResult, .proceed] }
    let closing : Blueprint Hook := { leaf with boundary := .closes }
    let requests : List Request := [.register (.seed block), .register (.seed leaf),
      .register (.seed closing), .register (.seed leaf), .finalize]
    ∃ result gen',
      (Generator.traverse 4 none ⟨-7⟩).run (blank.run requests) = .ok result gen' ∧
      (blank.run requests).directEntries gen' = [⟨0⟩, ⟨3⟩] ∧
      gen'.HasResult ⟨2⟩ ∧ result = some (.code "f()") ∧ gen'.mention? ⟨3⟩ = result := by
  intro block leaf closing requests
  have reachable := reachable_run_blank requests
  have complete : (blank.run requests).finalized = true := by decide +kernel
  have hfirst : max (-7) (blank.run requests).lower = 0 := by decide +kernel
  have hupper : (blank.run requests).upper = 4 := by decide +kernel
  have hstop : (blank.run requests).stopAmong [⟨0⟩, ⟨3⟩] = ⟨3⟩ := by decide +kernel
  have hseen : seenAfter? (fun result gen' => (result, (blank.run requests).directEntries gen'))
      (Generator.traverse 4 none ⟨-7⟩) (blank.run requests) =
        some (some (.code "f()"), [⟨0⟩, ⟨3⟩]) := by
    decide +kernel
  obtain ⟨result, gen', hrun, hview⟩ := run_of_seenAfter? hseen
  obtain ⟨hresult, hdirect⟩ := Prod.mk.inj hview
  have hspec := (Generator.traverse_compiles_to_stop reachable complete 4 none ⟨-7⟩).2
  dsimp only at hspec
  rw [hfirst, hupper] at hspec
  have houtcome := hspec (by decide) result gen' hrun
  rw [hdirect, hstop] at houtcome
  obtain ⟨-, -, -, -, -, hresults, value, hvalue, hmention⟩ := houtcome
  exact ⟨result, gen', hrun, hdirect, hresults ⟨2⟩ (by decide) (by decide),
    hresult, hmention.trans hvalue.symm⟩

end SeedGraph
