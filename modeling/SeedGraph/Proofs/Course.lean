import SeedGraph.Proofs.Runs

/-!
# The regions that are generated in the course of a run

All statements go to one log, each with the depth at which it was emitted.  Which region a statement
belongs to is reconstructed from that: a region takes what was logged at its own depth since its
generation began.  To see that this is right, a run has to be cut into the generations of regions of
which it consists, and these into the generations nested in them.

A `RegionCall` is one generation of a region, whether it succeeds or fails.  A `Course` lists the
calls of a run in the order in which they end, so the calls nested in a call come right before it.
`Course.emissions` is the account: what was logged deeper than the run itself is, apart from the
order, what was logged by the calls, each at its own depth.  It is an induction over the course,
with one case for a move that leaves regions alone (`Aside`) and one for a call.
-/

namespace SeedGraph

/-! ### Regions that were closed -/

/-- The outcome of the region that an event closes: the region, or nothing if it failed. -/
def Event.closedRegion? : Event → Option (Option Region)
  | .regionClosed region => some region
  | _ => none

namespace Generator

/-- The outcomes of the regions generated so far, in the order in which they were closed. -/
def closedRegions (gen : Session) : List (Option Region) :=
  gen.journal.filterMap Event.closedRegion?

theorem closedRegions_noted (gen : Session) (event : Event) (h : event.closedRegion? = none) :
    (gen.noted event).closedRegions = gen.closedRegions := by
  simp [closedRegions, noted, h]

theorem closedRegions_openRegion (gen : Session) :
    gen.openRegion.closedRegions = gen.closedRegions :=
  gen.closedRegions_noted .regionOpened rfl

theorem closedRegions_closeRegion (gen : Session) (region : Option Region) :
    (gen.closeRegion region).closedRegions = gen.closedRegions ++ [region] := by
  simp [closedRegions, closeRegion, Event.closedRegion?]

theorem filterMap_givenResult (id : SeedId) (seed : Seed Hook) :
    (givenResult id seed).filterMap Event.closedRegion? = [] := by
  rw [List.filterMap_eq_nil_iff]
  intro event mem
  obtain ⟨-, rfl⟩ := mem_givenResult.1 mem
  rfl

theorem closedRegions_ofStore (settings : Settings) (platform : Platform) (store : Store Hook) :
    (ofStore settings platform store).closedRegions = [] := by
  rw [closedRegions, List.filterMap_eq_nil_iff]
  intro event mem
  obtain ⟨entry, -, hgiven⟩ := List.mem_flatMap.1 mem
  exact List.filterMap_eq_nil_iff.1 (filterMap_givenResult entry.1 entry.2) event hgiven

end Generator

/-! ### Moves that leave regions alone -/

/-- A move that neither begins nor ends the generation of a region. -/
structure Aside (gen gen' : Session) : Prop where
  /-- It is a move. -/
  move : Move gen gen'
  /-- The depth is what it was. -/
  depth : gen'.regionDepth = gen.regionDepth
  /-- No region was closed. -/
  closed : gen'.closedRegions = gen.closedRegions

namespace Move

variable {gen gen' : Session}

/-- A move opens a region, closes one, or leaves regions alone. -/
theorem aside_or_region (move : Move gen gen') :
    Aside gen gen' ∨ gen' = gen.openRegion ∨
      ∃ region outer, gen.frames = .region :: outer ∧ gen' = gen.closeRegion region := by
  have hmove := move
  cases move with
  | openRegion => exact .inr (.inl rfl)
  | closeRegion region innermost => exact .inr (.inr ⟨region, _, innermost, rfl⟩)
  | register _ _ _ _ =>
    refine .inl ⟨hmove, rfl, ?_⟩
    rw [Generator.closedRegions, Generator.enroll, List.filterMap_append, List.filterMap_cons,
      Generator.filterMap_givenResult]
    exact List.append_nil _
  | remark event plain =>
    refine .inl ⟨hmove, rfl, gen.closedRegions_noted event ?_⟩
    cases event with
    | caught _ _ => rfl
    | answered _ _ => rfl
    | _ => exact absurd plain (by simp [Event.isRemark])
  | openScope _ _ _ => exact .inl ⟨hmove, rfl, Generator.closedRegions_noted _ _ rfl⟩
  | closeScope _ => exact .inl ⟨hmove, rfl, Generator.closedRegions_noted _ _ rfl⟩
  | memoize _ _ => exact .inl ⟨hmove, rfl, Generator.closedRegions_noted _ _ rfl⟩
  | beginTraversal => exact .inl ⟨hmove, rfl, Generator.closedRegions_noted _ _ rfl⟩
  | endTraversal _ _ => exact .inl ⟨hmove, rfl, Generator.closedRegions_noted _ _ rfl⟩
  | enter _ _ _ _ _ => exact .inl ⟨hmove, rfl, gen.closedRegions_noted (.entered _) rfl⟩
  | write _ _ _ _ => exact .inl ⟨hmove, rfl, Generator.closedRegions_noted _ _ rfl⟩
  | proceed _ => exact .inl ⟨hmove, rfl, Generator.closedRegions_noted _ _ rfl⟩
  | proceedBlock _ _ _ _ => exact .inl ⟨hmove, rfl, gen.closedRegions_noted (.continued _) rfl⟩
  | accept _ _ _ =>
    exact .inl ⟨hmove, rfl, (Generator.closedRegions_noted _ _ rfl).trans
      (gen.closedRegions_noted (.left _ none) rfl)⟩
  | reject failure _ _ =>
    exact .inl ⟨hmove, rfl, (Generator.closedRegions_noted _ _ rfl).trans
      (gen.closedRegions_noted (.left _ failure) rfl)⟩
  | _ => exact .inl ⟨hmove, rfl, rfl⟩

/-- A move that opens and closes no frame leaves regions alone. -/
theorem aside_of_length (move : Move gen gen')
    (level : gen'.frames.length = gen.frames.length) : Aside gen gen' := by
  obtain haside | rfl | ⟨region, outer, innermost, rfl⟩ := move.aside_or_region
  · exact haside
  · rw [Generator.frames_openRegion] at level
    exact absurd level (by simp)
  · rw [Generator.frames_closeRegion, innermost] at level
    exact absurd level (by simp)

/-- What a move emits it emits at the depth where the session is. -/
theorem emits (move : Move gen gen') :
    ∃ added, gen'.emissions = gen.emissions ++ added ∧
      ∀ emission ∈ added, emission.depth = gen.regionDepth := by
  cases move with
  | bind _ _ => exact ⟨_, rfl, by simp⟩
  | proceedBlock _ _ _ _ => exact ⟨_, rfl, by simp [Generator.noted]⟩
  | _ => exact ⟨[], (List.append_nil _).symm, by simp⟩

end Move

/-! ### Calls -/

/-- One generation of a nested region. -/
structure RegionCall where
  /-- How many hooks may run inside one another. -/
  depth : Nat
  /-- The seed at which the region starts. -/
  start : SeedId
  /-- The session in which the generation begins. -/
  before : Session

namespace RegionCall

variable (call : RegionCall)

/-- The operation that is carried out. -/
def operation : GenM Hook Region :=
  Generator.generateRegion (Generator.traverse call.depth) call.start

/-- The session in which the generation has ended. -/
def after : Session := stateAfter call.operation call.before

/-- The region, unless its generation fails. -/
def region? : Option Region := seenAfter? (fun region _ => region) call.operation call.before

/-- The session at the end of the region, right before it is closed. -/
def inside : Session :=
  stateAfter (Generator.traverse call.depth none call.start) call.before.openRegion

/-- What was logged during the call at the depth of the region itself. -/
def own : List Emission :=
  (call.after.emissions.drop call.before.emissions.length).filter fun emission =>
    emission.depth = call.before.regionDepth + 1

/-- However the generation ends, the region is closed. -/
theorem after_eq : call.after = call.inside.closeRegion call.region? := by
  unfold after region? inside seenAfter? operation
  cases hrun : (Generator.traverse call.depth none call.start).run call.before.openRegion with
  | ok result gen' =>
    rw [stateAfter_of_ok (Generator.run_generateRegion_ok hrun),
      Generator.run_generateRegion_ok hrun, stateAfter_of_ok hrun]
  | error failure gen' =>
    rw [stateAfter_of_error (Generator.run_generateRegion_error hrun),
      Generator.run_generateRegion_error hrun, stateAfter_of_error hrun]

theorem emissions_after : call.after.emissions = call.inside.emissions := by
  rw [after_eq]
  rfl

variable {within : List Emission}

theorem own_eq (logged : call.inside.emissions = call.before.emissions ++ within) :
    call.own = within.filter fun emission => emission.depth = call.before.regionDepth + 1 := by
  rw [own, emissions_after, logged, List.drop_left]

/-- What is logged during a call, and not above its depth, is its own or deeper. -/
theorem perm_own (logged : call.inside.emissions = call.before.emissions ++ within)
    (deeper : ∀ emission ∈ within, call.before.regionDepth + 1 ≤ emission.depth) :
    within.Perm (call.own ++
      within.filter fun emission => call.before.regionDepth + 1 < emission.depth) := by
  have hrest :
      (within.filter fun emission => !decide (emission.depth = call.before.regionDepth + 1)) =
        within.filter fun emission => call.before.regionDepth + 1 < emission.depth := by
    refine List.filter_congr fun emission mem => ?_
    have := deeper emission mem
    rw [← decide_not, decide_eq_decide]
    omega
  rw [call.own_eq logged, ← hrest]
  exact (List.filter_append_perm _ within).symm

/-- **A region consists of what was logged at its own depth.** -/
theorem statements_eq {region : Region} (returned : call.region? = some region)
    (deeper : call.inside.regionDepth = call.before.regionDepth + 1) :
    region.statements = call.own.map Emission.statement := by
  rw [own, emissions_after, ← deeper]
  obtain ⟨_, gen', hrun, rfl⟩ := run_of_seenAfter? returned
  unfold operation at hrun
  unfold inside
  cases htraverse : (Generator.traverse call.depth none call.start).run call.before.openRegion with
  | ok result last =>
    rw [Generator.run_generateRegion_ok htraverse] at hrun
    rw [stateAfter_of_ok htraverse]
    obtain ⟨rfl, -⟩ := EStateM.Result.ok.inj hrun
    rfl
  | error failure last =>
    rw [Generator.run_generateRegion_error htraverse] at hrun
    exact absurd hrun (by simp)

end RegionCall

/-! ### Courses -/

/-- How a session gets from one moment to another, with the generations of regions on the way in the
order in which they end. -/
inductive Course : Session → List RegionCall → Session → Prop
  /-- Nothing happens. -/
  | refl (gen : Session) : Course gen [] gen
  /-- A move leaves regions alone. -/
  | aside {gen moment gen' : Session} {calls : List RegionCall} (earlier : Course gen calls moment)
      (aside : Aside moment gen') : Course gen calls gen'
  /-- A region is generated, and others inside of it. -/
  | region {gen : Session} {calls nested : List RegionCall} (call : RegionCall)
      (earlier : Course gen calls call.before)
      (inside : Course call.before.openRegion nested call.inside) :
      Course gen (calls ++ (nested ++ [call])) call.after

namespace Course

variable {gen gen' gen'' : Session} {calls calls' : List RegionCall}

theorem trans (course : Course gen calls gen') (course' : Course gen' calls' gen'') :
    Course gen (calls ++ calls') gen'' := by
  induction course' with
  | refl =>
    rw [List.append_nil]
    exact course
  | aside _ haside ih => exact .aside (ih course) haside
  | region call _ inside ih _ =>
    rw [← List.append_assoc]
    exact .region call (ih course) inside

/-- A course ends at the depth at which it began. -/
theorem regionDepth (course : Course gen calls gen') : gen'.regionDepth = gen.regionDepth := by
  induction course with
  | refl => rfl
  | aside _ haside ih => exact haside.depth.trans ih
  | region call _ _ ih ihInside =>
    rw [call.after_eq]
    show call.inside.regionDepth - 1 = _
    rw [ihInside, ← ih]
    rfl

/-- Inside of a call the session is one level deeper. -/
theorem inside_regionDepth (course : Course gen calls gen') :
    ∀ call ∈ calls, call.inside.regionDepth = call.before.regionDepth + 1 := by
  induction course with
  | refl => exact fun call mem => absurd mem List.not_mem_nil
  | aside _ _ ih => exact ih
  | region call _ inside ih ihInside =>
    intro other mem
    rcases List.mem_append.1 mem with hearlier | hlast
    · exact ih other hearlier
    · rcases List.mem_append.1 hlast with hnested | hself
      · exact ihInside other hnested
      · obtain rfl := List.mem_singleton.1 hself
        exact inside.regionDepth

/-- The journal tells how the calls ended. -/
theorem closedRegions (course : Course gen calls gen') :
    gen'.closedRegions = gen.closedRegions ++ calls.map RegionCall.region? := by
  induction course with
  | refl => exact (List.append_nil _).symm
  | aside _ haside ih => exact haside.closed.trans ih
  | region call _ _ ih ihInside =>
    rw [call.after_eq, Generator.closedRegions_closeRegion, ihInside,
      Generator.closedRegions_openRegion, ih]
    simp only [List.map_append, List.map_cons, List.map_nil, List.append_assoc]

/-- **The account of a course.**  Nothing was logged above the depth of the course, and what was
logged below it is what the calls logged, each at its own depth. -/
theorem emissions (course : Course gen calls gen') :
    ∃ added, gen'.emissions = gen.emissions ++ added ∧
      (∀ emission ∈ added, gen.regionDepth ≤ emission.depth) ∧
      (added.filter fun emission => gen.regionDepth < emission.depth).Perm
        (calls.flatMap RegionCall.own) := by
  induction course with
  | refl => exact ⟨[], (List.append_nil _).symm, by simp, .nil⟩
  | @aside gen moment gen' calls earlier haside ih =>
    obtain ⟨added, hadded, habove, hperm⟩ := ih
    obtain ⟨more, hmore, hlevel⟩ := haside.move.emits
    have hdepth : ∀ emission ∈ more, emission.depth = gen.regionDepth := fun emission mem =>
      (hlevel emission mem).trans earlier.regionDepth
    have hnone : (more.filter fun emission => gen.regionDepth < emission.depth) = [] := by
      rw [List.filter_eq_nil_iff]
      intro emission mem
      rw [hdepth emission mem]
      simp
    refine ⟨added ++ more, by rw [hmore, hadded, List.append_assoc], fun emission mem => ?_, ?_⟩
    · rcases List.mem_append.1 mem with hold | hnew
      · exact habove emission hold
      · exact Nat.le_of_eq (hdepth emission hnew).symm
    · rw [List.filter_append, hnone, List.append_nil]
      exact hperm
  | @region gen calls nested call earlier _ ih ihInside =>
    obtain ⟨added, hadded, habove, hperm⟩ := ih
    obtain ⟨within, hwithin, hdeeper, hnested⟩ := ihInside
    -- What was logged during the call is its own, or deeper and then logged by a nested call.
    have hsplit := (call.perm_own hwithin hdeeper).trans (hnested.append_left call.own)
    have hafter : call.after.emissions = call.before.emissions ++ within :=
      call.emissions_after.trans hwithin
    have hbelow : ∀ emission ∈ within, gen.regionDepth < emission.depth := by
      intro emission mem
      rw [← earlier.regionDepth]
      exact hdeeper emission mem
    have hall : (within.filter fun emission => gen.regionDepth < emission.depth) = within := by
      rw [List.filter_eq_self]
      exact fun emission mem => decide_eq_true (hbelow emission mem)
    refine ⟨added ++ within, by rw [hafter, hadded, List.append_assoc], fun emission mem => ?_, ?_⟩
    · rcases List.mem_append.1 mem with hold | hnew
      · exact habove emission hold
      · exact Nat.le_of_lt (hbelow emission hnew)
    · rw [List.filter_append, hall, List.flatMap_append, List.flatMap_append,
        List.flatMap_singleton]
      exact hperm.append (hsplit.trans List.perm_append_comm)

end Course

end SeedGraph
