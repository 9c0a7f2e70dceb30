import Mathlib.Data.List.Lattice
import Mathlib.Data.List.Pairwise
import Mathlib.Data.List.ReduceOption
import SeedGraph.Proofs.Course.Runs
import SeedGraph.Proofs.Ledger

/-!
# Which region a statement belongs to

The account of a course says what was logged by which call.  Since no statement is emitted twice, it
decides for every statement of the log where it appears: at depth zero it is a statement of the
program, and deeper it belongs to the one call that logged it at its own depth.

* `Session.statements_belong_to_region`: a call that succeeds returns what it logged at its own
  depth, and what was logged deeper is in the regions of the calls nested in it, if all of these
  succeed.
* `Session.statement_lost_iff_region_failed`: a statement is neither in the program nor in a region
  just if the call that logged it failed.  Generating the region once more does not bring it back,
  since the seeds that were compiled by then are passed over
  (`Session.declaration_lost_in_second_attempt`).
-/

namespace SeedGraph

/-! ### No statement is emitted twice -/

/-- Statements that declare different locals or are the blocks of different seeds are different. -/
theorem Statement.nodup_of_filterMap {statements : List Statement}
    (declared : (statements.filterMap binding?).Nodup)
    (blocks : (statements.filterMap blockSeed?).Nodup) : statements.Nodup := by
  induction statements with
  | nil => exact List.nodup_nil
  | cons statement rest ih =>
    cases statement with
    | declare binding =>
      have hnew : (binding :: rest.filterMap binding?).Nodup := declared
      rw [List.nodup_cons] at hnew
      exact List.nodup_cons.2 ⟨fun mem => hnew.1 (List.mem_filterMap.2 ⟨_, mem, rfl⟩),
        ih hnew.2 blocks⟩
    | block seed code =>
      have hnew : (seed :: rest.filterMap blockSeed?).Nodup := blocks
      rw [List.nodup_cons] at hnew
      exact List.nodup_cons.2 ⟨fun mem => hnew.1 (List.mem_filterMap.2 ⟨_, mem, rfl⟩),
        ih declared hnew.2⟩

theorem Ledger.nodup_statements {settings : Settings} {gen : Session} (h : Ledger settings gen) :
    (gen.emissions.map Emission.statement).Nodup := by
  have hdeclared : gen.declarations.Nodup := by
    rw [h.declared]
    exact h.single.of_map _
  refine Statement.nodup_of_filterMap ?_ ?_
  · rw [List.filterMap_map]
    exact hdeclared
  · rw [List.filterMap_map]
    exact h.emittedOnce

theorem Reachable.nodup_statements {gen : Session} (h : Reachable gen) :
    (gen.emissions.map Emission.statement).Nodup := by
  obtain ⟨settings, candidates, origin, created, moves⟩ := h
  exact (moves.ledger created).nodup_statements

/-- Two entries of the log with the same statement are one entry. -/
theorem Reachable.emission_eq {gen : Session} (h : Reachable gen) {emission other : Emission}
    (mem : emission ∈ gen.emissions) (mem' : other ∈ gen.emissions)
    (same : emission.statement = other.statement) : emission = other :=
  List.inj_on_of_nodup_map h.nodup_statements mem mem' same

/-! ### The statements of a call -/

/-- Where all calls succeed, their regions hold what they logged. -/
theorem RegionCall.flatMap_statements {calls : List RegionCall}
    (deeper : ∀ call ∈ calls, call.inside.regionDepth = call.before.regionDepth + 1)
    (returned : ∀ outcome ∈ calls.map RegionCall.region?, outcome.isSome) :
    (calls.map RegionCall.region?).reduceOption.flatMap Region.statements =
      (calls.flatMap RegionCall.own).map Emission.statement := by
  induction calls with
  | nil => rfl
  | cons call rest ih =>
    rw [List.map_cons, List.forall_mem_cons] at returned
    rw [List.forall_mem_cons] at deeper
    obtain ⟨region, hregion⟩ := Option.isSome_iff_exists.1 returned.1
    rw [List.map_cons, hregion, List.reduceOption_cons_of_some, List.flatMap_cons,
      List.flatMap_cons,
      List.map_append, ih deeper.2 returned.2, call.statements_eq hregion deeper.1]

namespace Session

/-- **Statements belong to the region that emitted them.**  Let a nested region be generated at any
moment of a run, whatever hooks do meanwhile, and let `nested` be the outcomes of the generations
inside of it, as the journal tells them.

* The region holds, in order, just what was logged meanwhile at its own depth, and nothing was
  logged meanwhile at a lesser depth.
* If all nested generations succeeded, what was logged meanwhile is divided among this region and
  those of the nested generations; no statement is in two of them, since none was logged twice.
* At no later moment is a statement of depth zero a statement of this region. -/
theorem statements_belong_to_region {gen gen' : Session} {depth : Nat} {start : SeedId}
    {region : Region} (reachable : Reachable gen)
    (returned : (Generator.generateRegion (Generator.traverse depth) start).run gen =
      .ok region gen') :
    ∃ (appended : List Emission) (nested : List (Option Region)),
      gen'.emissions = gen.emissions ++ appended ∧
      gen'.closedRegions = gen.closedRegions ++ (nested ++ [some region]) ∧
      region.statements = (appended.filter fun emission =>
        emission.depth = gen.regionDepth + 1).map Emission.statement ∧
      (∀ emission ∈ appended, gen.regionDepth + 1 ≤ emission.depth) ∧
      ((∀ outcome ∈ nested, outcome.isSome) →
        (appended.map Emission.statement).Perm
          (region.statements ++ nested.reduceOption.flatMap Region.statements)) ∧
      (appended.map Emission.statement).Nodup ∧
      ∀ later, Moves gen' later → ∀ emission ∈ later.emissions, emission.depth = 0 →
        emission.statement ∉ region.statements := by
  let call : RegionCall := ⟨depth, start, gen⟩
  have hafter : call.after = gen' := stateAfter_of_ok returned
  have hregion : call.region? = some region := by
    show seenAfter? _ (Generator.generateRegion (Generator.traverse depth) start) gen = _
    rw [seenAfter?, returned]
  obtain ⟨calls, inside⟩ :=
    (Generator.keepsCourse_traverse depth none start).leads gen.openRegion reachable.numbered
  obtain ⟨within, hwithin, hdeeper, hnested⟩ := inside.emissions
  have hstatements : region.statements = (within.filter fun emission =>
      emission.depth = gen.regionDepth + 1).map Emission.statement := by
    rw [call.statements_eq hregion inside.regionDepth, call.own_eq hwithin]
  have hlog : gen'.emissions = gen.emissions ++ within := by
    rw [← hafter, call.emissions_after]
    exact hwithin
  have reachable' : Reachable gen' := reachable.moves
    ((Generator.orderly_generateRegion (Generator.orderly_traverse depth) start).moves_of_ok
      reachable returned)
  refine ⟨within, calls.map RegionCall.region?, hlog, ?_, hstatements, hdeeper, fun hall => ?_, ?_,
    fun later moves emission mem hzero hin => ?_⟩
  · have hinside := inside.closedRegions
    rw [Generator.closedRegions_openRegion] at hinside
    rw [← hafter, call.after_eq, Generator.closedRegions_closeRegion, hregion, ← List.append_assoc]
    exact congrArg (· ++ [some region]) hinside
  · rw [RegionCall.flatMap_statements inside.inside_regionDepth hall,
      call.statements_eq hregion inside.regionDepth, ← List.map_append]
    exact ((call.perm_own hwithin hdeeper).trans
      (hnested.append_left call.own)).map _
  · have hnodup := reachable'.nodup_statements
    rw [hlog, List.map_append] at hnodup
    exact hnodup.of_append_right
  · -- An entry with that statement was logged during the call, so it would be the same entry.
    rw [hstatements] at hin
    obtain ⟨other, hother, hsame⟩ := List.mem_map.1 hin
    have hwithin' := (List.mem_filter.1 hother).1
    have hlogged : other ∈ later.emissions := by
      refine moves.logs.2.subset ?_
      rw [hlog]
      exact List.mem_append_right _ hwithin'
    have heq := (reachable'.moves moves).emission_eq hlogged mem hsame
    have hdepth : gen.regionDepth + 1 ≤ other.depth := hdeeper other hwithin'
    rw [heq, hzero] at hdepth
    exact absurd hdepth (by simp)

/-- A region with a declaration of its own and a block, whose region holds the second declaration.
-/
theorem statements_belong_to_region_nested :
    let outer : Blueprint Hook := {
      kind := "call"
      mode := .sideEffectful
      hook := [.text "f()", .setResult, .proceed] }
    let block : Blueprint Hook := {
      kind := "block"
      boundary := .opens
      hook := [.text "\x7b ", .region .afterSelf " ", .text " \x7d", .setResult, .proceed] }
    let inner : Blueprint Hook := {
      kind := "call"
      mode := .sideEffectful
      boundary := .closes
      hook := [.text "g()", .setResult, .proceed] }
    let requests : List Request :=
      [.register (.seed outer), .register (.seed block), .register (.seed inner), .finalize]
    let first : Statement := .declare ⟨⟨0⟩, "s0", .code "f()"⟩
    let second : Statement := .declare ⟨⟨2⟩, "s1", .code "g()"⟩
    let whole : Statement := .block ⟨1⟩ (.code "\x7b let s1 = g(); s1 \x7d")
    ∃ (region : Region) (gen' : Session),
      (Generator.generateRegion (Generator.traverse 3) ⟨0⟩).run (blank.run requests) =
        .ok region gen' ∧
      region.statements = [first, whole] ∧
      gen'.emissions.map Emission.statement = [first, second, whole] ∧
      (gen'.emissions.map Emission.statement).Perm (region.statements ++ [second]) := by
  intro outer block inner requests first second whole
  have reachable := reachable_run_blank requests
  have hseen : seenAfter?
      (fun (region : Region) (gen' : Session) =>
        (region.statements, gen'.emissions.map Emission.statement, gen'.closedRegions))
      (Generator.generateRegion (Generator.traverse 3) ⟨0⟩) (blank.run requests) =
      some ([first, whole], [first, second, whole],
        [some ⟨[second], some (.code "s1")⟩, some ⟨[first, whole], some (.code "s1")⟩]) := by
    decide +kernel
  obtain ⟨region, gen', returned, hview⟩ := run_of_seenAfter? hseen
  obtain ⟨hstatements, hlog, hclosed⟩ : region.statements = [first, whole] ∧
      gen'.emissions.map Emission.statement = [first, second, whole] ∧ gen'.closedRegions =
        [some ⟨[second], some (.code "s1")⟩, some ⟨[first, whole], some (.code "s1")⟩] := by
    simpa using hview
  obtain ⟨appended, nested, happended, hnested, -, -, hsplit, -, -⟩ :=
    statements_belong_to_region reachable returned
  have hblank : (blank.run requests).emissions = [] := by decide +kernel
  have hnone : (blank.run requests).closedRegions = [] := by decide +kernel
  rw [hblank, List.nil_append] at happended
  rw [hnone, hclosed, List.nil_append] at hnested
  -- The journal has one nested region, which was returned.
  have hlast : [some ⟨[second], some (.code "s1")⟩] ++ [some ⟨[first, whole], some (.code "s1")⟩] =
      nested ++ [some region] := hnested
  have hone : nested = [some ⟨[second], some (.code "s1")⟩] :=
    (List.append_inj_left' hlast rfl).symm
  rw [hone, ← happended] at hsplit
  exact ⟨region, gen', returned, hstatements, hlog, hsplit (by simp)⟩

end Session

/-! ### The call that a statement belongs to -/

namespace Course

variable {gen gen' : Session} {calls : List RegionCall}

/-- What is logged below depth zero in a new session is logged by a call, at its own depth. -/
theorem mem_own_iff (course : Course gen calls gen') (blank : gen.emissions = [])
    (outermost : gen.regionDepth = 0) (emission : Emission) :
    (∃ call ∈ calls, emission ∈ call.own) ↔ emission ∈ gen'.emissions ∧ emission.depth ≠ 0 := by
  obtain ⟨added, hadded, -, hperm⟩ := course.emissions
  rw [blank, List.nil_append] at hadded
  rw [← List.mem_flatMap, ← hperm.mem_iff, List.mem_filter, hadded, outermost, decide_eq_true_eq,
    Nat.pos_iff_ne_zero]

theorem nodup_own (course : Course gen calls gen') (reachable : Reachable gen') :
    (calls.flatMap fun call => call.own.map Emission.statement).Nodup := by
  obtain ⟨added, hadded, -, hperm⟩ := course.emissions
  have hnodup := reachable.nodup_statements
  rw [hadded, List.map_append] at hnodup
  have hdeeper : ((added.filter fun emission => gen.regionDepth < emission.depth).map
      Emission.statement).Nodup := hnodup.of_append_right.sublist (List.filter_sublist.map _)
  rw [← List.map_flatMap]
  exact (hperm.map Emission.statement).nodup_iff.1 hdeeper

/-- No two calls log the same statement at their own depths. -/
theorem call_eq (course : Course gen calls gen') (reachable : Reachable gen')
    {call other : RegionCall} (mem : call ∈ calls) (mem' : other ∈ calls) {statement : Statement}
    (own : statement ∈ call.own.map Emission.statement)
    (own' : statement ∈ other.own.map Emission.statement) : call = other := by
  have hdisjoint := (List.nodup_flatMap.1 (course.nodup_own reachable)).2
  have : Std.Symm (Function.onFun List.Disjoint fun call : RegionCall =>
      call.own.map Emission.statement) := ⟨fun _ _ h => List.Disjoint.symm h⟩
  by_contra hne
  exact hdisjoint.forall mem mem' hne own own'

end Course

namespace Session

/-- **A statement is lost just if the call that logged it failed.**  Requests take a new session
along a course, and the journal tells how the calls of such a course ended.  For every statement of
the log, whatever hooks did and whatever failed, the following are the same:

* it was not logged at depth zero, and it is in no region that was returned;
* a call that failed has logged it, at its own depth. -/
theorem statement_lost_iff_region_failed {settings : Settings}
    {candidates : List (Candidate (Blueprint Hook))} {origin : Session}
    (created : createWith settings candidates = .ok origin) (requests : List Request) :
    (∃ calls, Course origin calls (origin.run requests)) ∧
    ∀ calls, Course origin calls (origin.run requests) →
      (origin.run requests).closedRegions = calls.map RegionCall.region? ∧
      ∀ emission ∈ (origin.run requests).emissions,
        (emission.depth ≠ 0 ∧ ∀ region, some region ∈ (origin.run requests).closedRegions →
          emission.statement ∉ region.statements) ↔
        ∃ call ∈ calls, call.region? = none ∧ emission ∈ call.own := by
  have reachable : Reachable (origin.run requests) :=
    ⟨settings, candidates, origin, created, moves_run created requests⟩
  have hnew : origin.emissions = [] ∧ origin.regionDepth = 0 ∧ origin.closedRegions = [] ∧
      origin.store.Numbered := by
    obtain ⟨platform, blueprints, -, -, -, rfl⟩ := createWith_eq_ok created
    exact ⟨rfl, rfl, Generator.closedRegions_ofStore _ _ _, .ofBlueprints blueprints⟩
  obtain ⟨hblank, houtermost, hnone, numbered⟩ := hnew
  refine ⟨leads_run origin requests numbered, fun calls course => ?_⟩
  have hclosed := course.closedRegions
  rw [hnone, List.nil_append] at hclosed
  refine ⟨hclosed, fun emission mem => ⟨fun ⟨hdeep, hnowhere⟩ => ?_, ?_⟩⟩
  · obtain ⟨call, hcall, hown⟩ := (course.mem_own_iff hblank houtermost emission).2 ⟨mem, hdeep⟩
    refine ⟨call, hcall, Option.eq_none_iff_forall_ne_some.2 fun region hregion => ?_, hown⟩
    have hreturned : some region ∈ (origin.run requests).closedRegions := by
      rw [hclosed, ← hregion]
      exact List.mem_map_of_mem hcall
    refine hnowhere region hreturned ?_
    rw [call.statements_eq hregion (course.inside_regionDepth call hcall)]
    exact List.mem_map_of_mem hown
  · rintro ⟨call, hcall, hfailed, hown⟩
    have hdeep := ((course.mem_own_iff hblank houtermost emission).1 ⟨call, hcall, hown⟩).2
    refine ⟨hdeep, fun region hreturned hin => ?_⟩
    rw [hclosed] at hreturned
    obtain ⟨other, hother, hregion⟩ := List.mem_map.1 hreturned
    rw [other.statements_eq hregion (course.inside_regionDepth other hother)] at hin
    obtain rfl := course.call_eq reachable hcall hother (List.mem_map_of_mem hown) hin
    rw [hfailed] at hregion
    exact absurd hregion (by simp)

/-- A region fails after the first of its seeds was bound to a local: the declaration was logged by
a call that failed, and is lost. -/
theorem statement_lost_iff_region_failed_once :
    let call : Blueprint Hook := {
      kind := "call"
      mode := .sideEffectful
      hook := [.text "f()", .setResult, .proceed] }
    let broken : Blueprint Hook := { kind := "broken", hook := [.fail "broken"] }
    let requests : List Request :=
      [.register (.seed call), .register (.seed broken), .finalize, .generateRegion ⟨0⟩]
    ∃ (calls : List RegionCall),
      Course blank calls (blank.run requests) ∧ (blank.run requests).closedRegions = [none] ∧
      ∃ call ∈ calls, call.region? = none ∧
        ⟨1, .declare ⟨⟨0⟩, "s0", .code "f()"⟩⟩ ∈ call.own := by
  intro call broken requests
  have hlog : (blank.run requests).emissions = [⟨1, .declare ⟨⟨0⟩, "s0", .code "f()"⟩⟩] := by
    decide +kernel
  have hfailed : (blank.run requests).closedRegions = [none] := by decide +kernel
  obtain ⟨⟨calls, course⟩, hcourses⟩ := statement_lost_iff_region_failed createWith_blank requests
  have hlost := (hcourses calls course).2
  rw [hlog, hfailed] at hlost
  refine ⟨calls, course, hfailed, ?_⟩
  exact (hlost _ (by simp)).1 ⟨by decide, by simp⟩

/-- The hook of a block survives that its region fails, has the missing input generated, and
generates the region once more, which succeeds.  All is answered, but the code of the block mentions
a local whose declaration is neither at depth zero nor in the region that was returned. -/
theorem declaration_lost_in_second_attempt :
    let block : Blueprint Hook := {
      kind := "block"
      boundary := .opens
      hook := [.attempt (.region .afterSelf " "), .request (.generateFrom none ⟨3⟩), .text "\x7b ",
        .region .afterSelf " ", .text " \x7d", .setResult, .proceed] }
    let call : Blueprint Hook := {
      kind := "call"
      mode := .sideEffectful
      hook := [.text "f()", .setResult, .proceed] }
    let consumer : Blueprint Hook := {
      kind := "consumer"
      boundary := .closes
      edges := [⟨.arg 0, ⟨1⟩⟩, ⟨.arg 1, ⟨3⟩⟩]
      hook := [.text "g(", .input (.arg 0), .text ", ", .input (.arg 1), .text ")", .setResult,
        .proceed] }
    let late : Blueprint Hook := { kind := "late", hook := [.text "x", .setResult, .proceed] }
    let requests : List Request :=
      [.register (.seed block), .register (.seed call), .register (.seed consumer),
        .register (.seed late), .finalize]
    ∃ (result : Option Compiled) (final : Session),
      (blank.run requests).step .generate = (.ok (.result result), final) ∧
      ⟨1, .declare ⟨⟨1⟩, "s0", .code "f()"⟩⟩ ∈ final.emissions ∧
      (∀ region, some region ∈ final.closedRegions →
        .declare ⟨⟨1⟩, "s0", .code "f()"⟩ ∉ region.statements) ∧
      final.closedRegions = [none, some ⟨[], some (.code "g(s0, x)")⟩] ∧
      final.render result = ["\x7b g(s0, x) \x7d", "x"] := by
  intro block call consumer late requests
  have hanswer : ((blank.run requests).step .generate).1 = .ok (.result (some (.code "x"))) := by
    decide +kernel
  have hlog : ((blank.run requests).step .generate).2.emissions =
      [⟨1, .declare ⟨⟨1⟩, "s0", .code "f()"⟩⟩,
        ⟨0, .block ⟨0⟩ (.code "\x7b g(s0, x) \x7d")⟩] := by decide +kernel
  have hclosed : ((blank.run requests).step .generate).2.closedRegions =
      [none, some ⟨[], some (.code "g(s0, x)")⟩] := by decide +kernel
  refine ⟨_, _, step_eq hanswer, ?_, fun region hregion => ?_, hclosed, by decide +kernel⟩
  · rw [hlog]
    simp
  · rw [hclosed] at hregion
    obtain rfl : region = ⟨[], some (.code "g(s0, x)")⟩ := by simpa using hregion
    simp

end Session

end SeedGraph
