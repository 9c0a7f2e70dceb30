import SeedGraph.Proofs.Runs

/-!
# Exactly-once compilation

Hooks may start traversals at any index, at any time, and survive their failures.  Even so, a hook
is entered only by a traversal, only while its seed has no result and only while it is not running,
and a hook that ends without a result ends its traversal in failure.  So no two runs of one hook
overlap, no hook runs again once its seed has a result, and each seed is accepted at most once.

The statements are about the journal, that is about whole histories.  `Event.Lawful before event`
says what the history `before` must look like for `event` to happen; a `Chronicle` is a journal all
of whose events were lawful when they happened, and in which a hook that ended without a result was
followed at once by the failure of its traversal.

## The invariant

`Disciplined` ties the journal to the state: the running hooks are those of the open frames, the
seeds with a result are those that got one according to the journal, and what was accepted has a
result and is not running.  Every move keeps it (`Disciplined.move`).  The moves fall into four
groups: those that add nothing to the journal, those that add an event about something else
(`Disciplined.neutral`), a seed getting its result, and the beginning and the two ends of a hook.
-/

namespace SeedGraph

/-! ### Histories -/

/-- What the history before an event has to be like for the event to be in order. -/
def Event.Lawful (before : List Event) : Event → Prop
  | .entered id =>
    .resulted id ∉ before ∧ id ∉ hooksIn (openFrames before) ∧
      ∃ outer, openFrames before = .traversal :: outer
  | .left id _ =>
    ∃ continuations outer, openFrames before = .hook id continuations :: .traversal :: outer
  | .accepted id => .accepted id ∉ before ∧ .resulted id ∈ before
  | _ => True

/-- The seed whose compilation an event accepts. -/
def Event.acceptedId? : Event → Option SeedId
  | .accepted id => some id
  | _ => none

instance (event : Event) (id : SeedId) : Decidable (event = .accepted id) :=
  decidable_of_iff (event.acceptedId? = some id) (by cases event <;> simp [Event.acceptedId?])

instance (wanted : Event) [∀ event : Event, Decidable (event = wanted)] (events : List Event) :
    Decidable (wanted ∈ events) :=
  decidable_of_iff (∃ event ∈ events, event = wanted) (by simp)

/-- The last thing that happened is the end of a hook whose seed has no result. -/
def Unfulfilled (journal : List Event) : Prop :=
  ∃ (before : List Event) (id : SeedId) (failure : Option Error),
    journal = before ++ [.left id failure] ∧ .resulted id ∉ before

/-- Every event was in order when it happened, and after a hook that left no result the next event
was the failure of its traversal. -/
def Chronicle (journal : List Event) : Prop :=
  ∀ (before : List Event) event (after : List Event), journal = before ++ event :: after →
    event.Lawful before ∧ (Unfulfilled before → ∃ error, event = .traversalEnded (some error))

namespace Chronicle

theorem snoc {journal : List Event} (h : Chronicle journal) {event : Event}
    (lawful : event.Lawful journal)
    (expected : Unfulfilled journal → ∃ error, event = .traversalEnded (some error)) :
    Chronicle (journal ++ [event]) := by
  intro before other after hsplit
  rcases List.eq_nil_or_concat after with rfl | ⟨earlier, final, rfl⟩
  · obtain ⟨rfl, hlast⟩ := List.append_inj' hsplit rfl
    obtain rfl : event = other := by simpa using hlast
    exact ⟨lawful, expected⟩
  · have hshorter : journal ++ [event] = (before ++ other :: earlier) ++ [final] := by
      rw [hsplit]
      simp
    obtain ⟨rfl, -⟩ := List.append_inj' hshorter rfl
    exact h before other earlier rfl

end Chronicle

theorem unfulfilled_snoc_left {journal : List Event} {id : SeedId} {failure : Option Error} :
    Unfulfilled (journal ++ [.left id failure]) ↔ .resulted id ∉ journal := by
  constructor
  · rintro ⟨before, other, reason, hsplit, hunset⟩
    obtain ⟨rfl, hlast⟩ := List.append_inj' hsplit rfl
    obtain ⟨rfl, -⟩ : id = other ∧ failure = reason := by simpa using hlast
    exact hunset
  · intro hunset
    exact ⟨journal, id, failure, rfl, hunset⟩

theorem not_unfulfilled_snoc {journal : List Event} {event : Event}
    (h : ∀ id failure, event ≠ .left id failure) : ¬ Unfulfilled (journal ++ [event]) := by
  rintro ⟨before, id, failure, hsplit, -⟩
  obtain ⟨-, hlast⟩ := List.append_inj' hsplit rfl
  exact h id failure (by simpa using hlast)

/-- The event begins or ends no hook, and neither gives nor accepts a result. -/
def Event.isNeutral : Event → Bool
  | .entered _ | .left .. | .resulted _ | .accepted _ => false
  | _ => true

theorem Event.lawful_of_isNeutral {event : Event} (neutral : event.isNeutral = true)
    (before : List Event) : event.Lawful before := by
  cases event with
  | entered _ => exact absurd neutral (by simp [Event.isNeutral])
  | left _ _ => exact absurd neutral (by simp [Event.isNeutral])
  | accepted _ => exact absurd neutral (by simp [Event.isNeutral])
  | _ => exact trivial

/-! ### The invariant -/

namespace Generator

/-- The seed `id` is stored and has a result. -/
def HasResult (gen : Session) (id : SeedId) : Prop :=
  ∃ slot, gen.slot? id = some slot ∧ slot.isSet = true

/-- There is no result as long as all slots are empty. -/
theorem not_hasResult_of_unset {gen : Session}
    (unset : ∀ seed ∈ gen.store.seeds, seed.slot = .unset) (id : SeedId) : ¬ gen.HasResult id := by
  rintro ⟨slot, hslot, hset⟩
  obtain ⟨seed, stored, rfl⟩ := Option.map_eq_some_iff.1 hslot
  rw [unset seed (Store.mem_seeds_of_get? stored)] at hset
  exact absurd hset (by simp [Slot.isSet])

theorem hasResult_congr {gen gen' : Session} (sameSlots : gen'.slot? = gen.slot?) (id : SeedId) :
    gen'.HasResult id ↔ gen.HasResult id := by
  rw [HasResult, HasResult, sameSlots]

theorem hasResult_withResult {gen : Session} {id : SeedId} {seed : Seed Hook}
    (stored : gen.store.get? id = some seed) (value : Compiled) (other : SeedId) :
    (gen.withResult id seed value).HasResult other ↔ gen.HasResult other ∨ other = id := by
  rw [HasResult, slot?_withResult stored]
  by_cases heq : other = id
  · simp [heq, Slot.isSet]
  · simp [heq, HasResult]

/-- A bound result is a result. -/
theorem hasResult_moveToLocal {gen : Session} {id : SeedId} {seed : Seed Hook} {value : Compiled}
    (stored : gen.store.get? id = some seed) (unbound : seed.slot = .set value) (other : SeedId) :
    (gen.moveToLocal id seed value).HasResult other ↔ gen.HasResult other := by
  rw [HasResult, slot?_moveToLocal stored, HasResult]
  by_cases heq : other = id
  · simp [heq, slot?_of_stored stored, unbound, Slot.isSet]
  · simp [heq]

theorem hasResult_enroll (gen : Session) (seed : Seed Hook) (other : SeedId) :
    (gen.enroll ⟨gen.upper⟩ seed).HasResult other ↔
      gen.HasResult other ∨ (seed.slot.isSet = true ∧ other = ⟨gen.upper⟩) := by
  rw [HasResult, slot?_enroll, HasResult]
  by_cases heq : other = ⟨gen.upper⟩
  · simp [heq, slot?_upper]
  · simp [heq]

end Generator

/-- The journal and the state of a session tell the same story about hooks and results. -/
structure Disciplined (gen : Session) : Prop where
  /-- The running hooks are those of the open frames. -/
  running : gen.running = hooksIn gen.frames
  /-- No hook runs inside itself. -/
  nodup : gen.running.Nodup
  /-- The seeds with a result are those that got one. -/
  results : ∀ id, gen.HasResult id ↔ .resulted id ∈ gen.journal
  /-- Everything that happened was in order. -/
  chronicle : Chronicle gen.journal
  /-- No traversal is about to fail. -/
  fulfilled : ¬ Unfulfilled gen.journal
  /-- What was accepted has a result. -/
  accepted : ∀ id, .accepted id ∈ gen.journal → .resulted id ∈ gen.journal
  /-- What is running was not accepted. -/
  pending : ∀ id ∈ gen.running, .accepted id ∉ gen.journal

namespace Disciplined

variable {gen gen' : Session}

/-- Nothing happened as far as hooks and results are concerned. -/
theorem quiet (h : Disciplined gen) (sameJournal : gen'.journal = gen.journal)
    (sameRunning : gen'.running = gen.running)
    (results : ∀ id, gen'.HasResult id ↔ gen.HasResult id) : Disciplined gen' where
  running := by rw [sameRunning, Generator.frames, sameJournal]; exact h.running
  nodup := by rw [sameRunning]; exact h.nodup
  results id := by rw [sameJournal, results]; exact h.results id
  chronicle := by rw [sameJournal]; exact h.chronicle
  fulfilled := by rw [sameJournal]; exact h.fulfilled
  accepted := by rw [sameJournal]; exact h.accepted
  pending := by rw [sameJournal, sameRunning]; exact h.pending

/-- Something else happened: an event about neither hooks nor results. -/
theorem neutral (h : Disciplined gen) (event : Event) (neutral : event.isNeutral = true)
    (hooks : hooksIn (event.nest gen.frames) = hooksIn gen.frames)
    (journal : gen'.journal = gen.journal ++ [event]) (sameRunning : gen'.running = gen.running)
    (results : ∀ id, gen'.HasResult id ↔ gen.HasResult id) : Disciplined gen' := by
  have hnotResulted : ∀ id, event ≠ .resulted id := by
    rintro id rfl
    exact absurd neutral (by simp [Event.isNeutral])
  have hnotAccepted : ∀ id, event ≠ .accepted id := by
    rintro id rfl
    exact absurd neutral (by simp [Event.isNeutral])
  have hnotLeft : ∀ id failure, event ≠ .left id failure := by
    rintro id failure rfl
    exact absurd neutral (by simp [Event.isNeutral])
  have hresulted : ∀ id, .resulted id ∈ gen'.journal ↔ .resulted id ∈ gen.journal := by
    intro id
    rw [journal, List.mem_append, List.mem_singleton]
    exact ⟨fun hor => hor.resolve_right fun heq => hnotResulted id heq.symm, .inl⟩
  have haccepted : ∀ id, .accepted id ∈ gen'.journal ↔ .accepted id ∈ gen.journal := by
    intro id
    rw [journal, List.mem_append, List.mem_singleton]
    exact ⟨fun hor => hor.resolve_right fun heq => hnotAccepted id heq.symm, .inl⟩
  exact {
    running := by
      rw [sameRunning, Generator.frames, journal, openFrames_snoc]
      exact h.running.trans hooks.symm
    nodup := by rw [sameRunning]; exact h.nodup
    results := fun id => by rw [hresulted, results]; exact h.results id
    chronicle := by
      rw [journal]
      exact h.chronicle.snoc (Event.lawful_of_isNeutral neutral _) fun hopen =>
        absurd hopen h.fulfilled
    fulfilled := by rw [journal]; exact not_unfulfilled_snoc hnotLeft
    accepted := fun id => by rw [haccepted, hresulted]; exact h.accepted id
    pending := fun id hid => by
      rw [haccepted]
      rw [sameRunning] at hid
      exact h.pending id hid }

/-- A seed without a result gets one. -/
theorem resulted (h : Disciplined gen) (id : SeedId)
    (journal : gen'.journal = gen.journal ++ [.resulted id])
    (sameRunning : gen'.running = gen.running)
    (results : ∀ other, gen'.HasResult other ↔ gen.HasResult other ∨ other = id) :
    Disciplined gen' := by
  have hresulted : ∀ other, .resulted other ∈ gen'.journal ↔
      .resulted other ∈ gen.journal ∨ other = id := by
    intro other
    rw [journal, List.mem_append, List.mem_singleton, Event.resulted.injEq]
  have haccepted : ∀ other, .accepted other ∈ gen'.journal ↔ .accepted other ∈ gen.journal := by
    intro other
    simp [journal]
  exact {
    running := by
      rw [sameRunning, Generator.frames, journal, openFrames_snoc]
      exact h.running
    nodup := by rw [sameRunning]; exact h.nodup
    results := fun other => by rw [hresulted, results, h.results]
    chronicle := by
      rw [journal]
      exact h.chronicle.snoc trivial fun hopen => absurd hopen h.fulfilled
    fulfilled := by
      rw [journal]
      exact not_unfulfilled_snoc (by simp)
    accepted := fun other hother =>
      (hresulted other).2 (.inl (h.accepted other ((haccepted other).1 hother)))
    pending := fun other hother hacc => by
      rw [sameRunning] at hother
      exact h.pending other hother ((haccepted other).1 hacc) }

/-- A traversal enters the hook of a seed without a result that is not running. -/
theorem entered (h : Disciplined gen) {id : SeedId} {outer : List Frame}
    (innermost : gen.frames = .traversal :: outer) (unset : ¬ gen.HasResult id)
    (idle : id ∉ gen.running) : Disciplined (gen.entered id) := by
  have hunset : .resulted id ∉ gen.journal := fun hmem => unset ((h.results id).2 hmem)
  exact {
    running := by
      rw [Generator.frames_entered, hooksIn_hook, ← h.running]
      rfl
    nodup := List.nodup_cons.2 ⟨idle, h.nodup⟩
    results := fun other => by
      have hmem : .resulted other ∈ (gen.entered id).journal ↔ .resulted other ∈ gen.journal := by
        simp [Generator.entered]
      rw [hmem]
      exact h.results other
    chronicle := by
      refine h.chronicle.snoc ⟨hunset, ?_, outer, innermost⟩ fun hopen => absurd hopen h.fulfilled
      rw [h.running] at idle
      exact idle
    fulfilled := not_unfulfilled_snoc (by simp)
    accepted := fun other hother => by
      have hmem : .accepted other ∈ gen.journal := by simpa [Generator.entered] using hother
      simpa [Generator.entered] using h.accepted other hmem
    pending := fun other hother hacc => by
      have hmem : .accepted other ∈ gen.journal := by simpa [Generator.entered] using hacc
      rcases List.mem_cons.1 hother with rfl | hother
      · exact hunset (h.accepted _ hmem)
      · exact h.pending other hother hmem }

/-- When the innermost hook ends, the hooks around it go on running. -/
theorem running_left (h : Disciplined gen) {id : SeedId} {continuations : Nat} {outer : List Frame}
    (innermost : gen.frames = .hook id continuations :: .traversal :: outer)
    (failure : Option Error) :
    gen.running = id :: hooksIn outer ∧ (gen.left id failure).running = hooksIn outer := by
  have hrunning : gen.running = id :: hooksIn outer := by
    rw [h.running, innermost]
    rfl
  have hfresh : id ∉ hooksIn outer := by
    have hnodup := h.nodup
    rw [hrunning] at hnodup
    exact (List.nodup_cons.1 hnodup).1
  refine ⟨hrunning, ?_⟩
  rw [Generator.left, hrunning, List.filter_cons_of_neg (by simp)]
  refine List.filter_eq_self.2 fun other hother => ?_
  simp only [decide_eq_true_eq]
  rintro rfl
  exact hfresh hother

/-- The end of the innermost hook is in order. -/
theorem chronicle_left (h : Disciplined gen) {id : SeedId} {continuations : Nat}
    {outer : List Frame}
    (innermost : gen.frames = .hook id continuations :: .traversal :: outer)
    (failure : Option Error) : Chronicle (gen.journal ++ [.left id failure]) := by
  have hlawful : (Event.left id failure).Lawful gen.journal := ⟨continuations, outer, innermost⟩
  exact h.chronicle.snoc hlawful fun hopen => absurd hopen h.fulfilled

/-- The innermost hook ends, and `event` is what becomes of it at once: it neither gives a result
nor ends another hook, and if it accepts a seed, then that of the hook, which has a result. -/
theorem ended (h : Disciplined gen) {id : SeedId} {continuations : Nat} {outer : List Frame}
    (innermost : gen.frames = .hook id continuations :: .traversal :: outer)
    (failure : Option Error) {event : Event}
    (hooks : hooksIn (event.nest (.traversal :: outer)) = hooksIn outer)
    (noResult : ∀ other, event ≠ .resulted other)
    (noEnd : ∀ other reason, event ≠ .left other reason)
    (own : ∀ other, event = .accepted other → other = id ∧ .resulted id ∈ gen.journal)
    (lawful : event.Lawful (gen.journal ++ [.left id failure]))
    (expected : Unfulfilled (gen.journal ++ [.left id failure]) →
      ∃ error, event = .traversalEnded (some error)) :
    Disciplined ((gen.left id failure).noted event) := by
  obtain ⟨hrunning, hleft⟩ := h.running_left innermost failure
  have hjournal : ((gen.left id failure).noted event).journal =
      gen.journal ++ [.left id failure] ++ [event] := rfl
  have hmemResulted : ∀ other, .resulted other ∈ ((gen.left id failure).noted event).journal ↔
      .resulted other ∈ gen.journal := by
    intro other
    simp [hjournal, (noResult other).symm]
  have hmemAccepted : ∀ other, .accepted other ∈ ((gen.left id failure).noted event).journal →
      .accepted other ∈ gen.journal ∨ event = .accepted other := by
    intro other hother
    simpa [hjournal, eq_comm] using hother
  exact {
    running := by
      rw [Generator.frames_noted, Generator.frames_left, innermost, List.tail_cons, hooks]
      exact hleft
    nodup := h.nodup.filter _
    results := fun other => by rw [hmemResulted]; exact h.results other
    chronicle := by
      rw [hjournal]
      exact (h.chronicle_left innermost failure).snoc lawful expected
    fulfilled := by
      rw [hjournal]
      exact not_unfulfilled_snoc noEnd
    accepted := fun other hother => by
      rw [hmemResulted]
      rcases hmemAccepted other hother with hother | heq
      · exact h.accepted other hother
      · obtain ⟨rfl, hresulted⟩ := own other heq
        exact hresulted
    pending := fun other hother hacc => by
      have hother' : other ∈ hooksIn outer := by
        rw [← hleft]
        exact hother
      -- What was accepted just now does not run elsewhere, since no hook runs inside itself.
      rcases hmemAccepted other hacc with hacc | heq
      · exact h.pending other (by rw [hrunning]; exact List.mem_cons_of_mem _ hother') hacc
      · obtain ⟨rfl, -⟩ := own other heq
        have hnodup := h.nodup
        rw [hrunning] at hnodup
        exact (List.nodup_cons.1 hnodup).1 hother' }

/-- The innermost hook ends and is accepted. -/
theorem acceptedHook (h : Disciplined gen) {id : SeedId} {continuations : Nat}
    {outer : List Frame}
    (innermost : gen.frames = .hook id continuations :: .traversal :: outer)
    (set : gen.HasResult id) : Disciplined ((gen.left id none).noted (.accepted id)) := by
  have hresulted : .resulted id ∈ gen.journal := (h.results id).1 set
  have hpending : .accepted id ∉ gen.journal := by
    refine h.pending id ?_
    rw [h.running, innermost]
    simp
  refine h.ended innermost none rfl (by simp) (by simp) ?_ ?_ ?_
  · intro other heq
    exact ⟨(Event.accepted.inj heq).symm, hresulted⟩
  · exact ⟨by simpa using hpending, by simpa using hresulted⟩
  -- Between the end of the hook and its acceptance nothing could go wrong, since there is a result.
  · intro hopen
    exact absurd hresulted (unfulfilled_snoc_left.1 hopen)

/-- The innermost hook ends and its traversal fails. -/
theorem rejectedHook (h : Disciplined gen) {id : SeedId} {continuations : Nat}
    {outer : List Frame}
    (innermost : gen.frames = .hook id continuations :: .traversal :: outer)
    (failure : Option Error) (error : Error) :
    Disciplined ((gen.left id failure).noted (.traversalEnded (some error))) :=
  h.ended innermost failure rfl (by simp) (by simp) (by simp) trivial fun _ => ⟨error, rfl⟩

end Disciplined

/-! ### Moves -/

/-- A seed is registered; if it comes with a result, it has one from then on. -/
theorem Disciplined.enroll {gen : Session} (h : Disciplined gen) (seed : Seed Hook) :
    Disciplined (gen.enroll ⟨gen.upper⟩ seed) := by
  -- The registration itself first, then the result that the seed may come with.
  have hregistered : Disciplined (gen.noted (.registered ⟨gen.upper⟩ seed.mode)) :=
    h.neutral (.registered ⟨gen.upper⟩ seed.mode) rfl rfl rfl rfl fun _ => Iff.rfl
  by_cases hset : seed.slot.isSet = true
  · refine hregistered.resulted ⟨gen.upper⟩ ?_ rfl fun other => ?_
    · simp [Generator.enroll, Generator.givenResult, Generator.noted, hset]
    · rw [Generator.hasResult_enroll, hset, eq_self, true_and]
      exact Iff.rfl
  · refine hregistered.quiet ?_ rfl fun other => ?_
    · simp [Generator.enroll, Generator.givenResult, Generator.noted, hset]
    · rw [Generator.hasResult_enroll]
      exact or_iff_left fun hset' => hset hset'.1

/-- **Every move keeps the discipline.** -/
theorem Disciplined.move {gen gen' : Session} (h : Disciplined gen) (move : Move gen gen') :
    Disciplined gen' := by
  cases move with
  | register blueprint _ _ _ => exact h.enroll _
  | addEdge _ _ _ stored =>
    exact h.quiet rfl rfl (Generator.hasResult_congr (Generator.slot?_withSeed_of_same stored rfl))
  | addOrdering _ _ stored =>
    exact h.quiet rfl rfl (Generator.hasResult_congr (Generator.slot?_withSeed_of_same stored rfl))
  | setPayload _ stored =>
    exact h.quiet rfl rfl (Generator.hasResult_congr (Generator.slot?_withSeed_of_same stored rfl))
  | openScope anchor depending _ => exact h.neutral _ rfl rfl rfl rfl fun _ => Iff.rfl
  | closeScope _ => exact h.neutral _ rfl rfl rfl rfl fun _ => Iff.rfl
  | memoize key id => exact h.neutral _ rfl rfl rfl rfl fun _ => Iff.rfl
  | complete _ _ _ =>
    exact h.quiet rfl rfl (Generator.hasResult_congr (Generator.slot?_completed _))
  | putAside _ _ => exact h.quiet rfl rfl fun _ => Iff.rfl
  | bind stored unbound =>
    exact h.quiet rfl rfl (Generator.hasResult_moveToLocal stored unbound)
  | remark event plain =>
    have hneutral : event.isNeutral = true := by
      cases event with
      | caught _ _ => rfl
      | answered _ _ => rfl
      | _ => exact absurd plain (by simp [Event.isRemark])
    refine h.neutral event hneutral ?_ rfl rfl fun _ => Iff.rfl
    rw [Event.nest_of_isRemark plain]
  | openRegion => exact h.neutral _ rfl rfl rfl rfl fun _ => Iff.rfl
  | closeRegion region innermost =>
    refine h.neutral (.regionClosed region) rfl ?_ rfl rfl fun _ => Iff.rfl
    rw [innermost]
    rfl
  | beginTraversal => exact h.neutral _ rfl rfl rfl rfl fun _ => Iff.rfl
  | endTraversal failure innermost =>
    refine h.neutral (.traversalEnded failure) rfl ?_ rfl rfl fun _ => Iff.rfl
    rw [innermost]
    rfl
  | enter _ innermost stored unset idle =>
    refine h.entered innermost ?_ idle
    rintro ⟨slot, hslot, hset⟩
    rw [Generator.slot?_of_stored stored, unset, Option.some.injEq] at hslot
    exact absurd hset (by simp [← hslot, Slot.isSet])
  | write value _ stored _ =>
    exact h.resulted _ rfl rfl (Generator.hasResult_withResult stored value)
  | @proceed id _ _ innermost =>
    refine h.neutral (.continued id) rfl ?_ rfl rfl fun _ => Iff.rfl
    rw [innermost]
    rfl
  | @proceedBlock id _ _ _ innermost _ _ _ =>
    refine h.neutral (.continued id) rfl ?_ rfl rfl fun _ => Iff.rfl
    rw [innermost]
    rfl
  | accept innermost stored code =>
    refine h.acceptedHook innermost ⟨_, Generator.slot?_of_stored stored, ?_⟩
    rw [← Slot.isSet_eq_current_isSome, code]
    rfl
  | reject failure error innermost => exact h.rejectedHook innermost failure error

/-- A new session has run no hook, and has the results that its seeds came with. -/
theorem Disciplined.ofStore (settings : Settings) (platform : Platform) (store : Store Hook) :
    Disciplined (Generator.ofStore settings platform store) := by
  have hevents : ∀ event ∈ (Generator.ofStore settings platform store).journal,
      ∃ id, event = .resulted id := by
    intro event mem
    obtain ⟨⟨id, seed⟩, -, hgiven⟩ := List.mem_flatMap.1 mem
    exact ⟨id, (Generator.mem_givenResult.1 hgiven).2⟩
  have hframes := Generator.frames_ofStore settings platform store
  exact {
    running := by rw [hframes]; rfl
    nodup := List.nodup_nil
    results := fun id => by
      rw [Generator.HasResult, Generator.ofStore]
      dsimp only
      rw [List.mem_flatMap]
      constructor
      · rintro ⟨slot, hslot, hset⟩
        obtain ⟨seed, hseed, rfl⟩ := Option.map_eq_some_iff.1 hslot
        exact ⟨(id, seed), (store.mem_entries_iff id seed).2 hseed,
          Generator.mem_givenResult.2 ⟨hset, rfl⟩⟩
      · rintro ⟨⟨other, seed⟩, hentry, hgiven⟩
        obtain ⟨hset, heq⟩ := Generator.mem_givenResult.1 hgiven
        obtain rfl : id = other := by simpa using heq
        have hstored := (store.mem_entries_iff id seed).1 hentry
        exact ⟨seed.slot, Option.map_eq_some_iff.2 ⟨seed, hstored, rfl⟩, hset⟩
    chronicle := by
      intro before event after hsplit
      obtain ⟨id, rfl⟩ := hevents event (by rw [hsplit]; simp)
      refine ⟨trivial, ?_⟩
      rintro ⟨earlier, other, failure, rfl, -⟩
      obtain ⟨given, hgiven⟩ := hevents (.left other failure) (by rw [hsplit]; simp)
      exact absurd hgiven (by simp)
    fulfilled := by
      rintro ⟨earlier, other, failure, hsplit, -⟩
      obtain ⟨given, hgiven⟩ := hevents (.left other failure) (by rw [hsplit]; simp)
      exact absurd hgiven (by simp)
    accepted := fun id hid => by
      obtain ⟨given, hgiven⟩ := hevents _ hid
      exact absurd hgiven (by simp)
    pending := fun id hid => absurd hid List.not_mem_nil }

/-- **At every moment of every run the journal and the state tell the same story.** -/
theorem Reachable.disciplined {gen : Session} (h : Reachable gen) : Disciplined gen := by
  refine h.induction (fun settings candidates origin created => ?_) fun _ _ hbefore move =>
    hbefore.move move
  obtain ⟨platform, blueprints, -, -, -, rfl⟩ := createWith_eq_ok created
  exact .ofStore settings platform _

/-! ### Entrances -/

/-- The hook of a seed may be entered: its seed has no result, and it is not running. -/
structure Entrance (gen : Session) (id : SeedId) : Prop where
  /-- The slot of the seed is unset. -/
  unset : ∃ seed, gen.store.get? id = some seed ∧ seed.slot = .unset
  /-- The hook is not running. -/
  idle : id ∉ gen.running

/-- A move only adds to the journal, and it adds the beginning of a hook only if it is that
beginning. -/
theorem Move.appends {gen gen' : Session} (move : Move gen gen') :
    ∃ added, gen'.journal = gen.journal ++ added ∧
      ∀ id, .entered id ∈ added →
        added = [.entered id] ∧ gen' = gen.entered id ∧ Entrance gen id := by
  cases move with
  | register blueprint _ _ _ =>
    refine ⟨_, rfl, fun id hid => ?_⟩
    rcases List.mem_cons.1 hid with heq | hgiven
    · exact absurd heq (by simp)
    · exact absurd (Generator.mem_givenResult.1 hgiven).2 (by simp)
  | addEdge _ _ _ _ => exact ⟨[], by simp [Generator.withSeed], by simp⟩
  | addOrdering _ _ _ => exact ⟨[], by simp [Generator.withSeed], by simp⟩
  | setPayload _ _ => exact ⟨[], by simp [Generator.withSeed], by simp⟩
  | openScope _ _ _ => exact ⟨_, rfl, by simp⟩
  | closeScope _ => exact ⟨_, rfl, by simp⟩
  | memoize _ _ => exact ⟨_, rfl, by simp⟩
  | complete _ _ _ => exact ⟨[], by simp [Generator.completed], by simp⟩
  | putAside _ _ => exact ⟨[], by simp, by simp⟩
  | bind _ _ => exact ⟨[], by simp [Generator.moveToLocal], by simp⟩
  | remark event plain =>
    refine ⟨[event], rfl, fun id hid => ?_⟩
    obtain rfl : .entered id = event := by simpa using hid
    exact absurd plain (by simp [Event.isRemark])
  | openRegion => exact ⟨_, rfl, by simp⟩
  | closeRegion _ _ => exact ⟨_, rfl, by simp⟩
  | beginTraversal => exact ⟨_, rfl, by simp⟩
  | endTraversal _ _ => exact ⟨_, rfl, by simp⟩
  | @enter id seed _ _ _ stored unset idle =>
    refine ⟨[.entered id], rfl, fun other hother => ?_⟩
    obtain rfl : other = id := by simpa using hother
    exact ⟨rfl, rfl, ⟨seed, stored, unset⟩, idle⟩
  | write _ _ _ _ => exact ⟨_, rfl, by simp⟩
  | proceed _ => exact ⟨_, rfl, by simp⟩
  | proceedBlock _ _ _ _ => exact ⟨_, rfl, by simp⟩
  | @accept id _ _ _ _ _ _ =>
    exact ⟨[.left id none, .accepted id], by simp [Generator.left, Generator.noted], by simp⟩
  | @reject id _ _ failure error _ =>
    exact ⟨[.left id failure, .traversalEnded (some error)],
      by simp [Generator.left, Generator.noted], by simp⟩

/-- The journal only ever grows. -/
theorem Moves.journal_prefix {gen gen' : Session} (moves : Moves gen gen') :
    gen.journal <+: gen'.journal := by
  induction moves with
  | refl => exact List.prefix_rfl
  | tail _ move ih =>
    obtain ⟨events, hjournal, -⟩ := move.appends
    exact ih.trans ⟨events, hjournal.symm⟩

/-- Where the journal of a run says that a hook was entered, the run was at a moment with just the
journal before it, and entered the hook from there. -/
theorem Moves.entrance {origin gen : Session} (moves : Moves origin gen) {id : SeedId}
    (new : .entered id ∉ origin.journal) {before after : List Event}
    (hsplit : gen.journal = before ++ .entered id :: after) :
    ∃ moment, Moves origin moment ∧ moment.journal = before ∧ Entrance moment id ∧
      Moves (moment.entered id) gen := by
  induction moves generalizing after with
  | refl => exact absurd (by rw [hsplit]; simp) new
  | @tail moment next earlier move ih =>
    obtain ⟨added, happended, hentered⟩ := move.appends
    -- The entrance lies in what the last move added, or before it.
    have hwhere : (∃ rest, before = moment.journal ++ rest ∧ added = rest ++ .entered id :: after) ∨
        ∃ rest, moment.journal = before ++ .entered id :: rest := by
      rw [happended] at hsplit
      rcases List.append_eq_append_iff.1 hsplit with
        ⟨rest, hbefore, hadded⟩ | ⟨rest, hbefore, hrest⟩
      · exact .inl ⟨rest, hbefore, hadded⟩
      · cases rest with
        | nil => exact .inl ⟨[], by simpa using hbefore.symm, by simpa using hrest.symm⟩
        | cons first rest =>
          obtain ⟨rfl, -⟩ : first = .entered id ∧ after = rest ++ added := by
            simpa [eq_comm] using hrest
          exact .inr ⟨rest, hbefore⟩
    rcases hwhere with ⟨rest, hbefore, hadded⟩ | ⟨rest, hearlier⟩
    -- A move that enters a hook adds nothing else, so the moment before it is the one sought.
    · obtain ⟨hsingle, rfl, hentrance⟩ := hentered id (by rw [hadded]; simp)
      have hrest : rest = [] := by
        rw [hadded] at hsingle
        have hlength := congrArg List.length hsingle
        simp only [List.length_append, List.length_cons, List.length_nil] at hlength
        exact List.eq_nil_of_length_eq_zero (by omega)
      rw [hrest, List.append_nil] at hbefore
      exact ⟨moment, earlier, hbefore.symm, hentrance, .refl⟩
    · obtain ⟨start, hstart, hjournal, hentrance, hon⟩ := ih hearlier
      exact ⟨start, hstart, hjournal, hentrance, hon.tail move⟩

/-! ### The main result -/

namespace Disciplined

variable {gen : Session}

/-- After a hook that left no result the next event is the failure of its traversal. -/
theorem traversalEnded_of_left (h : Disciplined gen) {id : SeedId} {failure : Option Error}
    {before after : List Event} (hsplit : gen.journal = before ++ .left id failure :: after)
    (unset : .resulted id ∉ before) :
    ∃ error rest, after = .traversalEnded (some error) :: rest := by
  have hopen : Unfulfilled (before ++ [.left id failure]) := unfulfilled_snoc_left.2 unset
  cases after with
  | nil => exact absurd (hsplit ▸ hopen) h.fulfilled
  | cons next rest =>
    have hnext := h.chronicle (before ++ [.left id failure]) next rest (by rw [hsplit]; simp)
    obtain ⟨error, rfl⟩ := hnext.2 hopen
    exact ⟨error, rest, rfl⟩

/-- What is accepted was not accepted before and is not accepted again. -/
theorem accepted_once (h : Disciplined gen) {id : SeedId} {before after : List Event}
    (hsplit : gen.journal = before ++ .accepted id :: after) :
    .accepted id ∉ before ∧ .accepted id ∉ after := by
  refine ⟨(h.chronicle _ _ _ hsplit).1.1, fun hagain => ?_⟩
  obtain ⟨middle, rest, rfl⟩ := List.append_of_mem hagain
  have hsecond := h.chronicle (before ++ .accepted id :: middle) (.accepted id) rest
    (by rw [hsplit]; simp)
  exact hsecond.1.1 (by simp)

end Disciplined

/-- No hook was entered before the first request. -/
theorem Session.not_entered_of_createWith {settings : Settings}
    {candidates : List (Candidate (Blueprint Hook))} {origin : Session}
    (created : createWith settings candidates = .ok origin) (id : SeedId) :
    .entered id ∉ origin.journal := by
  obtain ⟨platform, blueprints, -, -, -, rfl⟩ := createWith_eq_ok created
  intro hmem
  obtain ⟨⟨other, seed⟩, -, hgiven⟩ := List.mem_flatMap.1 hmem
  exact absurd (Generator.mem_givenResult.1 hgiven).2 (by simp)

/-- **Exactly-once compilation.**  Whatever a new session is asked and whatever its hooks do:

* a hook is entered only at a moment at which the slot of its seed is unset and it is not running,
  so before it is entered its seed never had a result and no run of it is still open;
* a hook ends as the innermost of all, inside the traversal that entered it, and if its seed has no
  result by then, the next thing that happens is that this traversal fails;
* a seed is accepted at most once.

The journal is a faithful witness: at every moment the seeds with a result are those that it says
got one, and the running hooks are those that it says are open. -/
theorem Session.compiled_exactly_once {settings : Settings}
    {candidates : List (Candidate (Blueprint Hook))} {origin : Session}
    (created : createWith settings candidates = .ok origin) (requests : List Request) :
    let journal := (origin.run requests).journal
    (∀ id (before after : List Event), journal = before ++ .entered id :: after →
      (∃ moment, Moves origin moment ∧ moment.journal = before ∧ Entrance moment id ∧
        Moves (moment.entered id) (origin.run requests)) ∧
      .resulted id ∉ before ∧ id ∉ hooksIn (openFrames before)) ∧
    (∀ id failure (before after : List Event), journal = before ++ .left id failure :: after →
      (∃ continuations outer,
        openFrames before = .hook id continuations :: .traversal :: outer) ∧
      (.resulted id ∉ before → ∃ error rest, after = .traversalEnded (some error) :: rest)) ∧
    (∀ id (before after : List Event), journal = before ++ .accepted id :: after →
      .accepted id ∉ before ∧ .accepted id ∉ after) ∧
    ∀ moment, Moves origin moment →
      (∀ id, moment.HasResult id ↔ .resulted id ∈ moment.journal) ∧
      moment.running = hooksIn (openFrames moment.journal) := by
  have hmoves := moves_run created requests
  have hdisciplined : Disciplined (origin.run requests) :=
    Reachable.disciplined ⟨settings, candidates, origin, created, hmoves⟩
  refine ⟨fun id before after hsplit => ?_, fun id failure before after hsplit => ?_,
    fun id before after hsplit => hdisciplined.accepted_once hsplit, fun moment hmoment => ?_⟩
  · have hlawful := (hdisciplined.chronicle _ _ _ hsplit).1
    exact ⟨Moves.entrance hmoves (not_entered_of_createWith created id) hsplit,
      hlawful.1, hlawful.2.1⟩
  · exact ⟨(hdisciplined.chronicle _ _ _ hsplit).1,
      hdisciplined.traversalEnded_of_left hsplit⟩
  · have hmoment' : Disciplined moment :=
      Reachable.disciplined ⟨settings, candidates, origin, created, hmoment⟩
    exact ⟨hmoment'.results, hmoment'.running⟩

/-- A hook that tries to generate itself survives the refusal and is still accepted only once. -/
theorem Session.compiled_exactly_once_reentrant :
    let seed : Blueprint Hook := {
      kind := "loop"
      hook := [.attempt (.region (.at ⟨0⟩) "; "), .text "x", .setResult, .proceed] }
    let journal := (blank.run [.register (.seed seed), .finalize, .generate, .generate]).journal
    .accepted ⟨0⟩ ∈ journal ∧
    ∀ before after : List Event, journal = before ++ .accepted ⟨0⟩ :: after →
      .accepted ⟨0⟩ ∉ before ∧ .accepted ⟨0⟩ ∉ after := by
  intro seed journal
  refine ⟨by decide +kernel, fun before after hsplit => ?_⟩
  exact (compiled_exactly_once createWith_blank _).2.2.1 ⟨0⟩ before after hsplit

end SeedGraph
