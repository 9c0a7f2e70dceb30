import Mathlib.Tactic.ByContra
import SeedGraph.Proofs.Tour
import SeedGraph.Proofs.Turn.Runs

/-!
# Where a reference to a seed can leak

A seed is meant to compile to code.  A hook may nevertheless make a reference to a seed the result,
and then both its continuation and the traversal around it refuse that result.  But the result stays
in its slot, and two others look at the slot without asking whether it was ever accepted.  A
traversal passes over every seed that has a result, and answers with the result of the last seed;
and a binding on request declares a local for whatever the slot holds.

These are the only two ways (`Session.leaks_from_residue`).  A block is always code, a binding that
the policy makes is always one of code, and what a traversal has compiled itself is code.

## The argument

* A result that is no code was not accepted, since what was accepted shows code from then on.
* What a turn emits is code, unless the turn is a binding on request (`Turn.emissions_cases`).
* The seeds that a traversal has compiled itself are accepted (`Tour.accepted`), so an answer that
  is no code is the result of a seed that was passed over.
-/

namespace SeedGraph

/-! ### Where a result comes from -/

/-- How the seed `id` came by the result `value`, if a session began as `origin` and now is `gen`.
-/
inductive Provenance (origin gen : Session) (id : SeedId) (value : Compiled) : Prop
  /-- The session was created over a seed with this result. -/
  | preset (given : origin.slot? id = some (.set value))
  /-- The seed was registered with this result. -/
  | registered {before : Session} (blueprint : Blueprint Hook) (earlier : Moves origin before)
      (new : id = ⟨before.upper⟩) (given : blueprint.preset = some value)
      (later : Moves (before.enroll id (blueprint.registered id)) gen)
  /-- The hook of the seed has set this result. -/
  | hook {before : Session} {seed : Seed Hook} {continuations : Nat} {outer : List Frame}
      (earlier : Moves origin before)
      (innermost : before.frames = .hook id continuations :: outer)
      (stored : before.store.get? id = some seed) (unset : seed.slot = .unset)
      (later : Moves (before.withResult id seed value) gen)

theorem Provenance.moves {origin gen gen' : Session} {id : SeedId} {value : Compiled}
    (h : Provenance origin gen id value) (moves : Moves gen gen') :
    Provenance origin gen' id value := by
  cases h with
  | preset given => exact .preset given
  | registered blueprint earlier new given later =>
    exact .registered blueprint earlier new given (later.trans moves)
  | hook earlier innermost stored unset later =>
    exact .hook earlier innermost stored unset (later.trans moves)

theorem Blueprint.preset_of_registered {blueprint : Blueprint Hook} {id : SeedId} {value : Compiled}
    (h : (blueprint.registered id).slot = .set value) : blueprint.preset = some value := by
  unfold registered build at h
  cases hpreset : blueprint.preset with
  | none =>
    rw [hpreset] at h
    exact absurd h (by simp)
  | some given =>
    rw [hpreset] at h
    rw [Slot.set.inj h]

/-- A result that is new is set by the hook of its seed, or comes with a seed that is registered. -/
theorem Move.provenance {gen gen' : Session} (move : Move gen gen') {id : SeedId} {value : Compiled}
    (h : gen'.slot? id = some (.set value)) : Provenance gen gen' id value := by
  cases move.slotMove id with
  | kept same => exact .preset (same.symm.trans h)
  | registered blueprint new after =>
    rw [after, new, Generator.slot?_enroll, if_pos rfl, Option.some.injEq, ← new] at h
    rw [after]
    exact .registered blueprint .refl new (Blueprint.preset_of_registered h) .refl
  | written given innermost stored unset after =>
    rw [after, Generator.slot?_withResult stored, if_pos rfl, Option.some.injEq] at h
    obtain rfl := Slot.set.inj h
    rw [after]
    exact .hook .refl innermost stored unset .refl
  | bound stored _ after =>
    rw [after, Generator.slot?_moveToLocal stored, if_pos rfl] at h
    exact absurd h (by simp)

/-- Where a result comes from since `gen`, it comes from since `origin`, and likewise if it was
there in `gen` already. -/
theorem Provenance.since {origin gen gen' : Session} {id : SeedId} {value : Compiled}
    (h : Provenance gen gen' id value) (earlier : Moves origin gen) (later : Moves gen gen')
    (old : gen.slot? id = some (.set value) → Provenance origin gen id value) :
    Provenance origin gen' id value := by
  cases h with
  | preset given => exact (old given).moves later
  | registered blueprint between new given on =>
    exact .registered blueprint (earlier.trans between) new given on
  | hook between innermost stored unset on =>
    exact .hook (earlier.trans between) innermost stored unset on

/-- **Every unbound result comes from somewhere.** -/
theorem Moves.provenance {origin gen : Session} (moves : Moves origin gen) {id : SeedId}
    {value : Compiled} (h : gen.slot? id = some (.set value)) : Provenance origin gen id value := by
  induction moves with
  | refl => exact .preset h
  | tail earlier move ih => exact (move.provenance h).since earlier (.single move) ih

/-- The result of the seed `id` is a reference to the seed `leaked`: it was given or set, but no
hook that left it was accepted. -/
structure Residue (origin gen : Session) (id leaked : SeedId) : Prop where
  /-- The result, which is in no local. -/
  slot : gen.slot? id = some (.set (.seed leaked))
  /-- The hook of the seed was not accepted. -/
  unaccepted : .accepted id ∉ gen.journal
  /-- Where the result comes from. -/
  provenance : Provenance origin gen id (.seed leaked)

theorem Residue.of_slot {origin gen : Session} (reachable : Reachable gen)
    (moves : Moves origin gen) {id leaked : SeedId}
    (slot : gen.slot? id = some (.set (.seed leaked))) : Residue origin gen id leaked := by
  refine ⟨slot, fun haccepted => ?_, moves.provenance slot⟩
  obtain ⟨text, hmention⟩ := reachable.accepted_code haccepted
  rw [Generator.mention?, slot] at hmention
  exact absurd hmention (by simp [Slot.current])

/-! ### Emitted statements -/

/-- What a statement holds: the value of the local that it declares, or its code. -/
def Statement.content : Statement → Compiled
  | .declare binding => binding.value
  | .block _ code => code

/-- All that was emitted between `gen` and `gen'` is code. -/
def EmitsCode (gen gen' : Session) : Prop :=
  ∃ emitted, gen'.emissions = gen.emissions ++ emitted ∧
    ∀ emission ∈ emitted, ∃ text, emission.statement.content = .code text

namespace EmitsCode

variable {gen gen' : Session}

theorem silent (h : gen'.emissions = gen.emissions) : EmitsCode gen gen' :=
  ⟨[], by rw [h, List.append_nil], fun _ hnone => absurd hnone List.not_mem_nil⟩

theorem single {emission : Emission} (text : String)
    (h : gen'.emissions = gen.emissions ++ [emission])
    (code : emission.statement.content = .code text) : EmitsCode gen gen' := by
  refine ⟨[emission], h, fun other hother => ⟨text, ?_⟩⟩
  rw [List.mem_singleton.1 hother]
  exact code

/-- Whatever the policy does with code, it emits code. -/
theorem settled (gen : Session) (id : SeedId) (seed : Seed Hook) (text : String) :
    EmitsCode gen (gen.settled id seed (.code text)) := by
  unfold Generator.settled
  split
  · exact single text rfl rfl
  · split
    · exact single text rfl rfl
    · exact silent rfl

end EmitsCode

variable {onRequest : Bool}

/-- **What a turn emits is code, unless it binds on request.** -/
theorem Turn.emissions_cases {gen gen' : Session} (turn : Turn onRequest gen gen') :
    EmitsCode gen gen' ∨ onRequest = true ∧ ∃ id seed value, gen.store.get? id = some seed ∧
      seed.slot = .set value ∧ gen' = gen.moveToLocal id seed value := by
  cases turn with
  | plain move quiet => exact .inl (.silent (move.undisturbed quiet).emissions)
  | register blueprint _ _ _ => exact .inl (.silent rfl)
  | write value _ _ _ _ => exact .inl (.silent rfl)
  | settle _ _ _ _ => exact .inl (.settled (gen.noted _) _ _ _)
  | proceedInVain _ _ => exact .inl (.silent rfl)
  | bind allowed stored unbound => exact .inr ⟨allowed, _, _, _, stored, unbound, rfl⟩

/-- On the way from `origin` to `gen`, the reference to `leaked` that some seed had for its result
was bound on request, and this is the statement that declares the local. -/
inductive BoundOnRequest (onRequest : Bool) (origin gen : Session) (leaked : SeedId) :
    Statement → Prop
  | intro {before : Session} {id : SeedId} {seed : Seed Hook} (allowed : onRequest = true)
      (earlier : Turns onRequest origin before) (stored : before.store.get? id = some seed)
      (residue : Residue origin before id leaked)
      (later : Turns onRequest (before.moveToLocal id seed (.seed leaked)) gen) :
      BoundOnRequest onRequest origin gen leaked
        (.declare ⟨id, before.locals.nameOf before.locals.counter, .seed leaked⟩)

/-- **A statement that holds a reference declares a local that was bound on request.** -/
theorem Turns.boundOnRequest {settings : Settings}
    {candidates : List (Candidate (Blueprint Hook))} {origin gen : Session}
    (created : Session.createWith settings candidates = .ok origin)
    (turns : Turns onRequest origin gen) {emission : Emission} (mem : emission ∈ gen.emissions)
    {leaked : SeedId} (held : emission.statement.content = .seed leaked) :
    BoundOnRequest onRequest origin gen leaked emission.statement := by
  induction turns with
  | refl =>
    obtain ⟨platform, blueprints, -, -, -, rfl⟩ := createWith_eq_ok created
    exact absurd mem List.not_mem_nil
  | @tail moment next earlier turn ih =>
    by_cases hbefore : emission ∈ moment.emissions
    · have hold := ih hbefore
      generalize emission.statement = statement at hold
      obtain ⟨allowed, hturns, hstored, hresidue, hon⟩ := hold
      exact .intro allowed hturns hstored hresidue (hon.tail turn)
    rcases turn.emissions_cases with ⟨emitted, hemissions, hcode⟩ |
        ⟨allowed, id, seed, value, stored, unbound, rfl⟩
    · rw [hemissions] at mem
      obtain ⟨text, htext⟩ := hcode emission ((List.mem_append.1 mem).resolve_left hbefore)
      rw [held] at htext
      exact absurd htext (by simp)
    · obtain rfl := List.mem_singleton.1 ((List.mem_append.1 mem).resolve_left hbefore)
      obtain rfl : value = .seed leaked := held
      have hmoves := Turns.moves earlier
      refine .intro allowed earlier stored (.of_slot ⟨_, _, _, created, hmoves⟩ hmoves ?_) .refl
      rw [Generator.slot?_of_stored stored, unbound]

/-! ### Answers -/

/-- In the end every seed that was compiled is accepted. -/
theorem Tour.accepted {compile : SeedId → GenM Hook Compiled} {gen gen' : Session}
    {visits : List (SeedId × Session)} (tour : Tour compile gen visits gen') :
    ∀ id ∈ freshIds visits, .accepted id ∈ gen'.journal := by
  induction tour with
  | done gen => exact fun id hid => absurd hid List.not_mem_nil
  | pass result _ ih =>
    rw [freshIds_cons_of_hasResult result]
    exact ih
  | compiled stored unset _ _ _ on ih =>
    rw [freshIds_cons_of_unset stored unset]
    intro id hid
    rcases List.mem_cons.1 hid with rfl | hid
    · exact on.passage.moves.journal_prefix.subset (by simp [Generator.noted])
    · exact ih id hid

/-- A mention that is no code is that of an unbound result. -/
theorem Generator.mention?_eq_seed {settings : Settings}
    {candidates : List (Candidate (Blueprint Hook))} {origin gen : Session}
    (created : Session.createWith settings candidates = .ok origin) (moves : Moves origin gen)
    (id leaked : SeedId) :
    gen.mention? id = some (.seed leaked) ↔ gen.slot? id = some (.set (.seed leaked)) := by
  constructor
  · intro hmention
    obtain ⟨slot, hslot, hcurrent⟩ := Option.bind_eq_some_iff.1 hmention
    cases slot with
    | unset => exact absurd hcurrent (by simp [Slot.current])
    | set value => rw [hslot, show value = .seed leaked from Option.some.inj hcurrent]
    | bound name reference value =>
      -- The mention of a local is code.
      have hcode := (((moves.ledger created).bound id name reference value).1 hslot).2
      rw [show reference = .seed leaked from Option.some.inj hcurrent] at hcode
      exact absurd hcode (by simp)
  · intro hslot
    rw [mention?, hslot]
    rfl

/-- Only a complete graph is traversed. -/
theorem Generator.finalized_of_traverse {gen gen' : Session} {depth : Nat} {start : SeedId}
    {initial result : Option Compiled}
    (hrun : (traverse depth initial start).run gen = .ok result gen') : gen.finalized = true := by
  by_contra incomplete
  have hfail : requireFinalized.run (gen.noted .traversalBegan) =
      .error .notFinalized (gen.noted .traversalBegan) := by
    rw [run_requireFinalized]
    exact if_neg incomplete
  rw [traverse_eq, run_traverseWith_error (run_bind_error hfail)] at hrun
  exact absurd hrun (by simp)

/-- **When a traversal answers with a reference**: none of the seeds that it compiled itself closes
a region, so that it came to the last seed of all, and this has such a result. -/
theorem Generator.traverse_eq_seed_iff {settings : Settings}
    {candidates : List (Candidate (Blueprint Hook))} {origin gen : Session}
    (created : Session.createWith settings candidates = .ok origin) (moves : Moves origin gen)
    {depth : Nat} {start : SeedId} {result : Option Compiled} {gen' : Session}
    (hrun : (traverse depth none start).run gen = .ok result gen') (leaked : SeedId) :
    result = some (.seed leaked) ↔ max start.index gen.lower < gen.upper ∧
      (∀ id ∈ gen.directEntries gen', gen.store.closes id = false) ∧
      gen'.slot? ⟨gen.upper - 1⟩ = some (.set (.seed leaked)) := by
  have reachable : Reachable gen := ⟨settings, candidates, origin, created, moves⟩
  have complete := finalized_of_traverse hrun
  have on := (orderly_traverse depth none start).moves_of_ok reachable hrun
  by_cases hnone : gen.upper ≤ max start.index gen.lower
  · rw [run_traverse_of_upper_le complete depth none hnone] at hrun
    injection hrun with hresult _
    rw [← hresult]
    exact iff_of_false (by simp) fun hsome => absurd hsome.1 (Int.not_lt.2 hnone)
  have hsome : max start.index gen.lower < gen.upper := Int.not_le.1 hnone
  obtain ⟨visits, last, stop, htour, rfl, hstop, -, -, -, hresult⟩ :=
    exists_tour_of_traverse reachable.numbered complete rfl hsome hrun
  rw [directEntries_eq htour, hresult, mention?_eq_seed created (moves.trans on)]
  have hopen : (∀ id ∈ freshIds visits, gen.store.closes id = false) ↔
      (freshIds visits).find? gen.store.closes = none := by
    rw [List.find?_eq_none]
    exact forall₂_congr fun _ _ => Bool.eq_false_iff
  constructor
  · intro hleak
    have hfind : (freshIds visits).find? gen.store.closes = none := by
      rw [Option.eq_none_iff_forall_ne_some]
      intro found hfound
      rw [hstop, stopAmong_of_find? hfound] at hleak
      refine (Residue.of_slot (reachable.moves on) (moves.trans on) hleak).unaccepted ?_
      exact List.mem_append_left _ (htour.accepted found (List.mem_of_find?_eq_some hfound))
    refine ⟨hsome, hopen.2 hfind, ?_⟩
    rw [hstop, stopAmong, hfind] at hleak
    exact hleak
  · rintro ⟨-, hfree, hleak⟩
    rw [hstop, stopAmong, hopen.1 hfree]
    exact hleak

/-- The traversal that a request for generated code makes, if it is made in the session `gen` and
without an initial result: where it starts, and the session in which it begins. -/
def Request.traversal? (gen : Session) : Request → Option (SeedId × Session)
  | .generate => some (⟨gen.lower⟩, gen)
  | .generateFrom none start => some (start, gen)
  | .generateRegion start => some (start, gen.openRegion)
  | _ => none

/-- The traversal begins where the request was made, or in the region that was opened for it. -/
theorem Request.moves_of_traversal? {request : Request} {gen base : Session} {start : SeedId}
    (makes : request.traversal? gen = some (start, base)) :
    Moves gen base ∧ base.store = gen.store := by
  unfold traversal? at makes
  split at makes
  · obtain ⟨-, rfl⟩ := Prod.mk.inj (Option.some.inj makes)
    exact ⟨.refl, rfl⟩
  · obtain ⟨-, rfl⟩ := Prod.mk.inj (Option.some.inj makes)
    exact ⟨.refl, rfl⟩
  · obtain ⟨-, rfl⟩ := Prod.mk.inj (Option.some.inj makes)
    exact ⟨.single .openRegion, rfl⟩
  · exact absurd makes (by simp)

/-- The result that an answer to such a request reports. -/
def Answer.generated? : Answer → Option Compiled
  | .result answered => answered
  | .region generated _ => generated.result
  | _ => none

namespace Generator

/-- What happens after a traversal without entering a hook is none of its entrances. -/
theorem directEntries_append {gen inside gen' : Session} {events : List Event}
    (longer : gen.journal <+: inside.journal) (journal : gen'.journal = inside.journal ++ events)
    (plain : ∀ event ∈ events, event.enteredId? = none) :
    gen.directEntries gen' = gen.directEntries inside := by
  unfold directEntries
  rw [journal, List.drop_append_of_le_length longer.length_le, enteredUnder_append,
    enteredUnder_of_none plain, List.append_nil]

/-- A request for generated code that succeeds: its traversal has succeeded with the result that is
reported, and only a result was put aside or a region closed afterwards. -/
theorem respond_traversal {traversal : Traversal Hook} {request : Request}
    {gen base gen' : Session} {start : SeedId} {answer : Answer}
    (makes : request.traversal? gen = some (start, base))
    (hrun : (respond traversal request).run gen = .ok answer gen') :
    ∃ inside events, (traversal none start).run base = .ok answer.generated? inside ∧
      gen'.store = inside.store ∧ gen'.journal = inside.journal ++ events ∧
      ∀ event ∈ events, event.enteredId? = none := by
  have hremember : ∀ result inside, (remember result).run inside = .ok answer gen' →
      answer.generated? = result ∧ gen'.store = inside.store ∧
        gen'.journal = inside.journal ++ [] := by
    intro result inside hend
    injection hend with hanswer hgen
    rw [← hanswer, ← hgen, List.append_nil]
    exact ⟨rfl, rfl, rfl⟩
  cases request with
  | generate =>
    obtain ⟨rfl, rfl⟩ := Prod.mk.inj (Option.some.inj makes)
    obtain ⟨result, inside, hgenerate, hend⟩ := exists_of_run_bind hrun
    obtain ⟨rfl, hstore, hjournal⟩ := hremember result inside hend
    refine ⟨inside, [], ?_, hstore, hjournal, by simp⟩
    rw [generate, run_get_bind, run_require_bind] at hgenerate
    split at hgenerate
    · exact hgenerate
    · exact absurd hgenerate (by simp)
  | generateFrom initial first =>
    cases initial with
    | some value => exact absurd makes (by simp [Request.traversal?])
    | none =>
      obtain ⟨rfl, rfl⟩ := Prod.mk.inj (Option.some.inj makes)
      obtain ⟨result, inside, htraverse, hend⟩ := exists_of_run_bind hrun
      obtain ⟨rfl, hstore, hjournal⟩ := hremember result inside hend
      exact ⟨inside, [], htraverse, hstore, hjournal, by simp⟩
  | generateRegion first =>
    obtain ⟨rfl, rfl⟩ := Prod.mk.inj (Option.some.inj makes)
    obtain ⟨region, closed, hregion, hend⟩ := exists_of_run_bind hrun
    injection hend with hanswer hgen
    cases hinside : (traversal none first).run gen.openRegion with
    | error failure inside =>
      rw [run_generateRegion_error hinside] at hregion
      exact absurd hregion (by simp)
    | ok result inside =>
      rw [run_generateRegion_ok hinside] at hregion
      injection hregion with hvalue hclosed
      subst hvalue hclosed hanswer hgen
      exact ⟨inside, [.regionClosed _], rfl, rfl, rfl, by simp [Event.enteredId?]⟩
  | _ => exact absurd makes (by simp [Request.traversal?])

end Generator

namespace Session

/-- **A reference to a seed leaks only from a result that was not accepted.**  Whatever is requested
of a new session and whatever its hooks do, what happens are turns; and at every moment that turns
lead to:

* A block is code.
* A declaration holds a reference only if that was bound on request, and at the moment of the
  binding it was a result that was not accepted.
* A request for code that succeeds, from the session or from a hook, reports a reference just if it
  made its traversal over some seeds, compiled none itself that closes a region, and in the end the
  last seed of all has this reference for a result, which was not accepted. -/
theorem leaks_from_residue {settings : Settings} {candidates : List (Candidate (Blueprint Hook))}
    {origin : Session} (created : createWith settings candidates = .ok origin) :
    (∀ requests, Turns true origin (origin.run requests)) ∧
    ∀ onRequest moment, Turns onRequest origin moment →
      (∀ emission ∈ moment.emissions, ∀ id code, emission.statement = .block id code →
        ∃ text, code = .code text) ∧
      (∀ emission ∈ moment.emissions, ∀ leaked, emission.statement.content = .seed leaked →
        BoundOnRequest onRequest origin moment leaked emission.statement) ∧
      ∀ depth request start base answer gen', request.traversal? moment = some (start, base) →
        (Generator.respond (Generator.traverse depth) request).run moment = .ok answer gen' →
        ∀ leaked, answer.generated? = some (.seed leaked) ↔
          max start.index moment.lower < moment.upper ∧
          (∀ id ∈ base.directEntries gen', moment.store.closes id = false) ∧
          Residue origin gen' ⟨moment.upper - 1⟩ leaked := by
  have numbered : origin.store.Numbered :=
    Reachable.numbered ⟨settings, candidates, origin, created, .refl⟩
  have permits : origin.Permits true := fun hnone => absurd hnone (by simp)
  refine ⟨fun requests => turns_run numbered permits requests (by simp), ?_⟩
  intro onRequest moment turns
  have hmoves := turns.moves
  have reachable : Reachable moment := ⟨settings, candidates, origin, created, hmoves⟩
  have hheld : ∀ emission ∈ moment.emissions, ∀ leaked, emission.statement.content = .seed leaked →
      BoundOnRequest onRequest origin moment leaked emission.statement :=
    fun emission hemission leaked hcontent => turns.boundOnRequest created hemission hcontent
  refine ⟨fun emission hemission id code hblock => ?_, hheld, ?_⟩
  · cases code with
    | code text => exact ⟨text, rfl⟩
    | seed leaked =>
      have hbound := hheld emission hemission leaked (by rw [hblock]; rfl)
      rw [hblock] at hbound
      cases hbound
  intro depth request start base answer gen' makes hrun leaked
  obtain ⟨inside, events, hinside, hstore, hjournal, hplain⟩ :=
    Generator.respond_traversal makes hrun
  obtain ⟨hopened, hsame⟩ := Request.moves_of_traversal? makes
  have hbegan := reachable.moves hopened
  have htraversed := (Generator.orderly_traverse depth none start).moves_of_ok hbegan hinside
  have horderly : Orderly false (Generator.respond (Generator.traverse depth) request) :=
    Generator.orderly_respond (Generator.orderly_traverse depth) request (by simp)
  have hanswered := horderly.moves_of_ok reachable hrun
  have hslots : gen'.slot? = inside.slot? := by
    unfold Generator.slot?
    rw [hstore]
  have hleak := Generator.traverse_eq_seed_iff created (hmoves.trans hopened) hinside leaked
  rw [← Generator.directEntries_append htraversed.journal_prefix hjournal hplain, ← hslots] at hleak
  unfold Generator.lower Generator.upper at hleak ⊢
  rw [hsame] at hleak
  rw [hleak]
  refine and_congr_right fun _ => and_congr_right fun _ => ⟨fun hslot => ?_, Residue.slot⟩
  exact .of_slot (reachable.moves hanswered) (hmoves.trans hanswered) hslot

/-- Two hooks make a reference the result.  The first has it bound, and is accepted with the mention
of the local; the second is not accepted, but the next request for code reports its result. -/
theorem leaks_from_residue_bound_passed :
    let bound : Blueprint Hook := {
      kind := "bound"
      hook := [.setSeed ⟨0⟩, .request (.bind ⟨0⟩), .proceed] }
    let rejected : Blueprint Hook := { kind := "rejected", hook := [.setSeed ⟨0⟩, .proceed] }
    let requests : List Request :=
      [.register (.seed bound), .register (.seed rejected), .finalize, .generate]
    BoundOnRequest true blank (blank.run requests) ⟨0⟩ (.declare ⟨⟨0⟩, "s0", .seed ⟨0⟩⟩) ∧
    ∃ answer gen', (Generator.respond (Generator.traverse 2) .generate).run
        (blank.run requests) = .ok answer gen' ∧
      answer.generated? = some (.seed ⟨0⟩) ∧ Residue blank gen' ⟨1⟩ ⟨0⟩ := by
  intro bound rejected requests
  have hemissions : (blank.run requests).emissions =
      [⟨0, .declare ⟨⟨0⟩, "s0", .seed ⟨0⟩⟩⟩] := by decide +kernel
  have hupper : (blank.run requests).upper = 2 := by decide +kernel
  have hseen : seenAfter? (fun answer _ => answer.generated?)
      (Generator.respond (Generator.traverse 2) .generate) (blank.run requests) =
        some (some (.seed ⟨0⟩)) := by decide +kernel
  obtain ⟨hturns, hmoments⟩ := leaks_from_residue createWith_blank
  obtain ⟨-, hheld, hreported⟩ := hmoments true (blank.run requests) (hturns requests)
  obtain ⟨answer, gen', hrun, hanswer⟩ := run_of_seenAfter? hseen
  refine ⟨?_, answer, gen', hrun, hanswer, ?_⟩
  · refine hheld ⟨0, .declare ⟨⟨0⟩, "s0", .seed ⟨0⟩⟩⟩ ?_ ⟨0⟩ rfl
    rw [hemissions]
    exact List.mem_cons_self
  · have hresidue := (hreported 2 .generate _ _ answer gen' rfl hrun ⟨0⟩).1 hanswer
    rw [hupper] at hresidue
    exact hresidue.2.2

/-- No seed was given a result.  The first request for code is refused since the result of the
second seed is a reference; the same request made again succeeds and reports that reference, and a
local was declared for the reference of the first seed. -/
theorem rejected_reference_leaks :
    let bound : Blueprint Hook := {
      kind := "bound"
      hook := [.setSeed ⟨0⟩, .request (.bind ⟨0⟩), .proceed] }
    let rejected : Blueprint Hook := { kind := "rejected", hook := [.setSeed ⟨0⟩, .proceed] }
    let requests : List Request :=
      [.register (.seed bound), .register (.seed rejected), .finalize]
    ((blank.run requests).store.seeds.all fun seed => seed.slot = .unset) = true ∧
    ((blank.run requests).step .generate).1 = .error (.malformedResult ⟨1⟩ ⟨0⟩) ∧
    ((blank.run (requests ++ [.generate])).step .generate).1 =
      .ok (.result (some (.seed ⟨0⟩))) ∧
    (blank.run (requests ++ [.generate])).emissions.map Emission.statement =
      [.declare ⟨⟨0⟩, "s0", .seed ⟨0⟩⟩] := by
  intro bound rejected requests
  exact ⟨by decide +kernel, by decide +kernel, by decide +kernel, by decide +kernel⟩

end Session

end SeedGraph
