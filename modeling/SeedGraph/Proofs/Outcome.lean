import SeedGraph.Session

/-!
# Outcomes of operations

An operation of a session is a function from the session to an outcome: an answer or a failure, and
in both cases the session as the operation leaves it.  This module evaluates the operations in that
form, so that no later proof has to look inside the monad.

* `run_bind_ok`, `run_require`, `run_ofExcept` and their neighbours evaluate the combinators.
* `Generator.run_lookup`, `Generator.bind_cases`, `Generator.register_cases`, … evaluate the
  operations of a generator.  Where an operation can fail in several ways, its lemma is an
  alternative: it fails and leaves the session as it was, or it succeeds under a stated guard and
  with a stated result.

`stateAfter` forgets the answer.  It is the form in which whole runs are compared, since a run goes
on after a failure.
-/

namespace SeedGraph

variable {σ α β : Type}

/-! ### Combinators -/

/-- Sequencing after a success: the second operation runs on what the first one leaves. -/
theorem run_bind_ok {x : EStateM Error σ α} {f : α → EStateM Error σ β} {s s' : σ} {value : α}
    (h : x.run s = .ok value s') : (x >>= f).run s = (f value).run s' := by
  rw [EStateM.run_bind, h]

/-- Sequencing after a failure: nothing else happens. -/
theorem run_bind_error {x : EStateM Error σ α} {f : α → EStateM Error σ β} {s s' : σ}
    {failure : Error} (h : x.run s = .error failure s') :
    (x >>= f).run s = .error failure s' := by
  rw [EStateM.run_bind, h]

/-- A sequence that succeeds: both operations do. -/
theorem exists_of_run_bind {x : EStateM Error σ α} {f : α → EStateM Error σ β} {s s' : σ}
    {value : β} (h : (x >>= f).run s = .ok value s') :
    ∃ first between, x.run s = .ok first between ∧ (f first).run between = .ok value s' := by
  rw [EStateM.run_bind] at h
  cases hx : x.run s with
  | ok first between =>
    rw [hx] at h
    exact ⟨first, between, rfl, h⟩
  | error failure between =>
    rw [hx] at h
    exact absurd h (by simp)

theorem run_get_bind (f : σ → EStateM Error σ β) (s : σ) :
    (get >>= f).run s = (f s).run s := rfl

theorem run_modify_bind (g : σ → σ) (f : Unit → EStateM Error σ β) (s : σ) :
    (modify g >>= f).run s = (f ()).run (g s) := rfl

theorem run_require (condition : Prop) [Decidable condition] (failure : Error) (s : σ) :
    (require condition failure).run s = if condition then .ok () s else .error failure s := by
  unfold require
  split <;> rfl

theorem run_require_bind (condition : Prop) [Decidable condition] (failure : Error)
    (f : Unit → EStateM Error σ β) (s : σ) :
    (require condition failure >>= f).run s =
      if condition then (f ()).run s else .error failure s := by
  rw [EStateM.run_bind, run_require]
  by_cases h : condition
  · rw [if_pos h, if_pos h]
  · rw [if_neg h, if_neg h]

theorem run_ofExcept (outcome : Except Error α) (s : σ) :
    (MonadExcept.ofExcept outcome : EStateM Error σ α).run s =
      match outcome with
      | .ok value => .ok value s
      | .error failure => .error failure s := by
  cases outcome <;> rfl

theorem run_tryCatch_ok {x : EStateM Error σ α} {handler : Error → EStateM Error σ α} {s s' : σ}
    {value : α} (h : x.run s = .ok value s') :
    (tryCatch x handler).run s = .ok value s' := by
  rw [EStateM.run] at h
  show EStateM.tryCatch x handler s = _
  delta EStateM.tryCatch
  rw [h]

/-- A failure that is caught: the handler runs on what the failing operation left. -/
theorem run_tryCatch_error {x : EStateM Error σ α} {handler : Error → EStateM Error σ α}
    {s s' : σ} {failure : Error} (h : x.run s = .error failure s') :
    (tryCatch x handler).run s = (handler failure).run s' := by
  rw [EStateM.run] at h
  show EStateM.tryCatch x handler s = _
  delta EStateM.tryCatch
  rw [h]
  rfl

/-- A loop over a list: the first round, then the others. -/
theorem forM_cons (item : α) (rest : List α) (body : α → EStateM Error σ Unit) :
    (item :: rest).forM body = (do body item; rest.forM body) := rfl

/-! ### What an operation leaves behind -/

/-- The state in which an operation ends, whether it succeeds or fails. -/
def stateAfter (operation : EStateM Error σ α) (s : σ) : σ :=
  match operation.run s with
  | .ok _ s' => s'
  | .error _ s' => s'

theorem stateAfter_of_ok {operation : EStateM Error σ α} {s s' : σ} {value : α}
    (h : operation.run s = .ok value s') : stateAfter operation s = s' := by
  rw [stateAfter, h]

theorem stateAfter_of_error {operation : EStateM Error σ α} {s s' : σ} {failure : Error}
    (h : operation.run s = .error failure s') : stateAfter operation s = s' := by
  rw [stateAfter, h]

theorem stateAfter_bind (x : EStateM Error σ α) (f : α → EStateM Error σ β) (s : σ) :
    stateAfter (x >>= f) s =
      match x.run s with
      | .ok value s' => stateAfter (f value) s'
      | .error _ s' => s' := by
  rw [stateAfter, EStateM.run_bind]
  cases x.run s <;> rfl

theorem stateAfter_tryCatch_error {x : EStateM Error σ α} {handler : Error → EStateM Error σ α}
    {s s' : σ} {failure : Error} (h : x.run s = .error failure s') :
    stateAfter (tryCatch x handler) s = stateAfter (handler failure) s' := by
  rw [stateAfter, run_tryCatch_error h, stateAfter]

/-- What can be seen of a success: `view` of the answer and of the state after it. -/
def seenAfter? (view : α → σ → β) (operation : EStateM Error σ α) (s : σ) : Option β :=
  match operation.run s with
  | .ok value s' => some (view value s')
  | .error _ _ => none

theorem run_of_seenAfter? {view : α → σ → β} {operation : EStateM Error σ α} {s : σ} {seen : β}
    (h : seenAfter? view operation s = some seen) :
    ∃ value s', operation.run s = .ok value s' ∧ view value s' = seen := by
  unfold seenAfter? at h
  cases hrun : operation.run s with
  | ok value s' =>
    rw [hrun] at h
    exact ⟨value, s', rfl, Option.some.inj h⟩
  | error failure s' =>
    rw [hrun] at h
    exact absurd h (by simp)

/-! ### Outcomes that can be compared

Not all answers can be compared, since an answer may hold a platform.  Whether an outcome is a given
failure, or one of the answers below, can be decided. -/

/-- The result that was asked for, if one was. -/
def Answer.result? : Answer → Option (Option Compiled)
  | .result given => some given
  | _ => none

/-- The verdict of the binding policy, if it was asked for. -/
def Answer.decision? : Answer → Option Bool
  | .decision verdict => some verdict
  | _ => none

/-- Is there nothing to report? -/
def Answer.isDone : Answer → Bool
  | .done => true
  | _ => false

instance (answer : Answer) (result : Option Compiled) : Decidable (answer = .result result) :=
  decidable_of_iff (answer.result? = some result) (by cases answer <;> simp [Answer.result?])

instance (answer : Answer) (bind : Bool) : Decidable (answer = .decision bind) :=
  decidable_of_iff (answer.decision? = some bind) (by cases answer <;> simp [Answer.decision?])

instance (answer : Answer) : Decidable (answer = .done) :=
  decidable_of_iff (answer.isDone = true) (by cases answer <;> simp [Answer.isDone])

instance (outcome : Except Error α) (failure : Error) : Decidable (outcome = .error failure) :=
  match outcome with
  | .error given => decidable_of_iff (given = failure) (by simp)
  | .ok _ => isFalse nofun

instance (outcome : Except Error α) (value : α) [∀ given : α, Decidable (given = value)] :
    Decidable (outcome = .ok value) :=
  match outcome with
  | .ok given => decidable_of_iff (given = value) (by simp)
  | .error _ => isFalse nofun

/-! ### The simplest session -/

/-- A new session that has no seeds and writes locals as `let name = value;`. -/
def Session.blank : Session :=
  Generator.ofStore { platform := some .letBinding } .letBinding (.ofPreexisting [])

theorem Session.createWith_blank :
    createWith { platform := some .letBinding } [] = .ok blank := rfl

/-! ### Operations that only look -/

/-- An operation that only looks: whatever it answers, it leaves the state alone. -/
def ReadsOnly (operation : EStateM Error σ α) : Prop :=
  ∀ s, stateAfter operation s = s

namespace ReadsOnly

theorem pure (value : α) : ReadsOnly (Pure.pure value : EStateM Error σ α) := fun _ => rfl

theorem throw (failure : Error) : ReadsOnly (MonadExcept.throw failure : EStateM Error σ α) :=
  fun _ => rfl

theorem get : ReadsOnly (MonadState.get : EStateM Error σ σ) := fun _ => rfl

theorem require (condition : Prop) [Decidable condition] (failure : Error) :
    ReadsOnly (σ := σ) (SeedGraph.require condition failure) := by
  intro s
  by_cases h : condition
  · exact stateAfter_of_ok (by rw [run_require, if_pos h])
  · exact stateAfter_of_error (by rw [run_require, if_neg h])

theorem ofExcept (outcome : Except Error α) :
    ReadsOnly (MonadExcept.ofExcept outcome : EStateM Error σ α) := by
  intro s
  cases outcome <;> rfl

theorem bind {x : EStateM Error σ α} {f : α → EStateM Error σ β} (hx : ReadsOnly x)
    (hf : ∀ value, ReadsOnly (f value)) : ReadsOnly (x >>= f) := by
  intro s
  rw [stateAfter_bind]
  have h := hx s
  rw [stateAfter] at h
  cases hrun : x.run s with
  | ok value s' =>
    rw [hrun] at h
    obtain rfl : s' = s := h
    exact hf value s'
  | error failure s' =>
    rw [hrun] at h
    exact h

end ReadsOnly

namespace Generator

variable {κ : Type}

/-! ### Access to seeds -/

theorem run_lookup (id : SeedId) (gen : Generator κ) :
    (lookup id).run gen =
      match gen.store.get? id with
      | some seed => .ok seed gen
      | none => .error (.seedNotFound id) gen := by
  rw [lookup, run_get_bind]
  cases gen.store.get? id <;> rfl

theorem run_lookup_of_some {id : SeedId} {gen : Generator κ} {seed : Seed κ}
    (stored : gen.store.get? id = some seed) : (lookup id).run gen = .ok seed gen := by
  rw [run_lookup, stored]

theorem run_lookup_of_none {id : SeedId} {gen : Generator κ} (missing : gen.store.get? id = none) :
    (lookup id).run gen = .error (.seedNotFound id) gen := by
  rw [run_lookup, missing]

theorem readsOnly_lookup (id : SeedId) : ReadsOnly (lookup id : GenM κ (Seed κ)) := by
  intro gen
  rw [stateAfter, run_lookup]
  cases gen.store.get? id <;> rfl

theorem run_requireOpen (gen : Generator κ) :
    requireOpen.run gen =
      if gen.finalized = false then .ok () gen else .error .alreadyFinalized gen := by
  rw [requireOpen, run_get_bind, run_require]

theorem run_requireOpen_of_open {gen : Generator κ} (opened : gen.finalized = false) :
    requireOpen.run gen = .ok () gen := by
  rw [run_requireOpen, if_pos opened]

theorem run_requireOpen_of_finalized {gen : Generator κ} (complete : gen.finalized = true) :
    requireOpen.run gen = .error .alreadyFinalized gen := by
  rw [run_requireOpen, if_neg (by rw [complete]; simp)]

theorem readsOnly_requireOpen : ReadsOnly (requireOpen : GenM κ Unit) :=
  .bind .get fun _ => .require _ _

theorem run_requireFinalized (gen : Generator κ) :
    requireFinalized.run gen =
      if gen.finalized = true then .ok () gen else .error .notFinalized gen := by
  rw [requireFinalized, run_get_bind, run_require]

theorem run_requireFinalized_of_finalized {gen : Generator κ} (complete : gen.finalized = true) :
    requireFinalized.run gen = .ok () gen := by
  rw [run_requireFinalized, if_pos complete]

theorem readsOnly_requireFinalized : ReadsOnly (requireFinalized : GenM κ Unit) :=
  .bind .get fun _ => .require _ _

/-! ### Building the graph -/

/-- There is room for another registered seed. -/
def HasRoom (gen : Generator κ) : Prop :=
  ∀ limit, gen.settings.limit = some limit → gen.store.registered < limit

theorem run_requireRoom {gen : Generator κ} (room : gen.HasRoom) :
    requireRoom.run gen = .ok () gen := by
  rw [requireRoom, run_get_bind]
  cases hlimit : gen.settings.limit with
  | none => rfl
  | some limit =>
    dsimp only
    rw [run_require, if_pos (room limit hlimit)]

theorem requireRoom_cases (gen : Generator κ) :
    (∃ failure, requireRoom.run gen = .error failure gen) ∨ gen.HasRoom := by
  rw [requireRoom, run_get_bind]
  cases hlimit : gen.settings.limit with
  | none =>
    refine .inr fun limit h => ?_
    rw [hlimit] at h
    exact absurd h (by simp)
  | some limit =>
    dsimp only
    rw [run_require]
    by_cases hroom : gen.store.registered < limit
    · refine .inr fun other h => ?_
      rw [hlimit, Option.some.injEq] at h
      exact h ▸ hroom
    · rw [if_neg hroom]
      exact .inl ⟨_, rfl⟩

/-- A seed without an identifier is registered as long as there is room and the graph is open. -/
theorem run_register {gen : Generator κ} {seed : Seed κ} (opened : gen.finalized = false)
    (unnumbered : seed.id = none) (room : gen.HasRoom) :
    (register (.seed seed)).run gen =
      .ok ⟨gen.upper⟩ (gen.enroll ⟨gen.upper⟩ { seed with id := some ⟨gen.upper⟩ }) := by
  have hpass := run_requireOpen_of_open opened
  have hseed : (MonadExcept.ofExcept (Candidate.seed seed).toSeed : GenM κ _).run gen =
      .ok seed gen := rfl
  have hassign : (MonadExcept.ofExcept (seed.assignId ⟨gen.upper⟩) : GenM κ _).run gen =
      .ok { seed with id := some ⟨gen.upper⟩ } gen := by
    rw [run_ofExcept, Seed.assignId, unnumbered]
  rw [register, run_bind_ok hpass, run_bind_ok hseed, run_get_bind, run_bind_ok hassign,
    run_bind_ok (run_requireRoom room)]
  rfl

/-- **All that registration can do.**  A seed is registered under the old `upper` if the graph is
open, the seed has no identifier yet and there is room; otherwise nothing happens. -/
theorem register_cases (candidate : Candidate (Seed κ)) (gen : Generator κ) :
    (∃ failure, (register candidate).run gen = .error failure gen) ∨
      ∃ seed, candidate = .seed seed ∧ gen.finalized = false ∧ seed.id = none ∧ gen.HasRoom ∧
        (register candidate).run gen =
          .ok ⟨gen.upper⟩ (gen.enroll ⟨gen.upper⟩ { seed with id := some ⟨gen.upper⟩ }) := by
  cases hopen : gen.finalized with
  | true => exact .inl ⟨_, run_bind_error (run_requireOpen_of_finalized hopen)⟩
  | false =>
    have hpass := run_requireOpen_of_open hopen
    -- The remaining checks come in the order in which registration makes them.
    cases candidate with
    | placeholder tagged =>
      refine .inl ⟨.unsupported .compile, ?_⟩
      rw [register, run_bind_ok hpass]
      rfl
    | seed seed =>
      have hseed : (MonadExcept.ofExcept (Candidate.seed seed).toSeed : GenM κ _).run gen =
          .ok seed gen := rfl
      cases hid : seed.id with
      | some existing =>
        have hfail : (MonadExcept.ofExcept (seed.assignId ⟨gen.upper⟩) : GenM κ _).run gen =
            .error (.alreadyRegistered existing) gen := by
          rw [run_ofExcept, Seed.assignId, hid]
        refine .inl ⟨.alreadyRegistered existing, ?_⟩
        rw [register, run_bind_ok hpass, run_bind_ok hseed, run_get_bind, run_bind_error hfail]
      | none =>
        obtain ⟨failure, hfull⟩ | room := requireRoom_cases gen
        · have hassign : (MonadExcept.ofExcept (seed.assignId ⟨gen.upper⟩) : GenM κ _).run gen =
              .ok { seed with id := some ⟨gen.upper⟩ } gen := by
            rw [run_ofExcept, Seed.assignId, hid]
          refine .inl ⟨failure, ?_⟩
          rw [register, run_bind_ok hpass, run_bind_ok hseed, run_get_bind, run_bind_ok hassign,
            run_bind_error hfull]
        · exact .inr ⟨seed, rfl, rfl, hid, room, run_register hopen hid room⟩

/-- Changing a stored seed, or failing because it is not stored. -/
theorem lookup_replace_cases (id : SeedId) (change : Seed κ → Seed κ) (gen : Generator κ) :
    (∃ failure, (do let seed ← lookup id; replace id (change seed) : GenM κ Unit).run gen =
        .error failure gen) ∨
      ∃ seed, gen.store.get? id = some seed ∧
        (do let seed ← lookup id; replace id (change seed) : GenM κ Unit).run gen =
          .ok () (gen.withSeed id (change seed)) := by
  cases hstored : gen.store.get? id with
  | none => exact .inl ⟨_, run_bind_error (run_lookup_of_none hstored)⟩
  | some seed => exact .inr ⟨seed, rfl, run_bind_ok (run_lookup_of_some hstored)⟩

theorem addDependency_cases (source : SeedId) (key : Key) (target : SeedId) (gen : Generator κ) :
    (∃ failure, (addDependency source key target).run gen = .error failure gen) ∨
      ∃ seed, gen.finalized = false ∧ gen.store.get? source = some seed ∧
        (addDependency source key target).run gen =
          .ok () (gen.withSeed source
            { seed with dependencies := seed.dependencies.insert key target }) := by
  rw [addDependency, EStateM.run_bind, run_requireOpen]
  cases hopen : gen.finalized with
  | true => exact .inl ⟨_, rfl⟩
  | false =>
    obtain ⟨failure, h⟩ | ⟨seed, hstored, h⟩ := lookup_replace_cases source
      (fun seed => { seed with dependencies := seed.dependencies.insert key target }) gen
    · exact .inl ⟨failure, h⟩
    · exact .inr ⟨seed, rfl, hstored, h⟩

theorem insertOrdering_cases (source target : SeedId) (gen : Generator κ) :
    (∃ failure, (insertOrdering source target).run gen = .error failure gen) ∨
      ∃ seed, gen.store.get? source = some seed ∧
        (insertOrdering source target).run gen =
          .ok (seed.dependencies.addOrdering target).1 (gen.withSeed source
            { seed with dependencies := (seed.dependencies.addOrdering target).2 }) := by
  cases hstored : gen.store.get? source with
  | none => exact .inl ⟨_, run_bind_error (run_lookup_of_none hstored)⟩
  | some seed => exact .inr ⟨seed, rfl, run_bind_ok (run_lookup_of_some hstored)⟩

/-! ### Binding -/

/-- The session after the result `value` of the seed `id` was moved to a fresh local. -/
def moveToLocal (gen : Generator κ) (id : SeedId) (seed : Seed κ) (value : Compiled) :
    Generator κ :=
  let name := gen.locals.nameOf gen.locals.counter
  { gen with
    store := gen.store.set id
      { seed with slot := .bound name (.code (gen.platform.reference name)) value }
    locals := (gen.locals.allocate id value).2
    emissions := gen.emissions ++ [⟨gen.regionDepth, .declare ⟨id, name, value⟩⟩] }

theorem run_bind_of_set {gen : Generator κ} {id : SeedId} {seed : Seed κ} {value : Compiled}
    (stored : gen.store.get? id = some seed) (hslot : seed.slot = .set value) :
    (bind id).run gen = .ok () (gen.moveToLocal id seed value) := by
  have hresult : seed.result = .ok value := by
    rw [Seed.result, hslot]
    rfl
  rw [bind, run_bind_ok (run_lookup_of_some stored), hresult]
  have hvalue : (MonadExcept.ofExcept (.ok value) : GenM κ _).run gen = .ok value gen := rfl
  rw [run_bind_ok hvalue, run_require_bind, hslot]
  rfl

/-- A bound seed is not bound again, and the failure reports what its consumers see. -/
theorem run_bind_of_bound {gen : Generator κ} {id : SeedId} {seed : Seed κ} {name : String}
    {reference value : Compiled} (stored : gen.store.get? id = some seed)
    (hslot : seed.slot = .bound name reference value) :
    (bind id).run gen = .error (.alreadyBound id reference.display) gen := by
  have hvalue : (MonadExcept.ofExcept seed.result : GenM κ _).run gen = .ok reference gen := by
    rw [run_ofExcept, Seed.result, hslot]
    rfl
  rw [bind, run_bind_ok (run_lookup_of_some stored), run_bind_ok hvalue, run_require_bind, hslot]
  rfl

/-- **All that binding can do.**  The value in a slot that is set and not yet bound is moved to a
local; otherwise nothing happens. -/
theorem bind_cases (id : SeedId) (gen : Generator κ) :
    (∃ failure, (bind id).run gen = .error failure gen) ∨
      ∃ seed value, gen.store.get? id = some seed ∧ seed.slot = .set value ∧
        (bind id).run gen = .ok () (gen.moveToLocal id seed value) := by
  cases hstored : gen.store.get? id with
  | none => exact .inl ⟨_, run_bind_error (run_lookup_of_none hstored)⟩
  | some seed =>
    cases hslot : seed.slot with
    | set value => exact .inr ⟨seed, value, rfl, hslot, run_bind_of_set hstored hslot⟩
    | unset =>
      have hfail : (MonadExcept.ofExcept seed.result : GenM κ _).run gen =
          .error (.missingResult seed.reportedId) gen := by
        rw [run_ofExcept, Seed.result, hslot]
        rfl
      refine .inl ⟨.missingResult seed.reportedId, ?_⟩
      rw [bind, run_bind_ok (run_lookup_of_some hstored), run_bind_error hfail]
    | bound name reference value => exact .inl ⟨_, run_bind_of_bound hstored hslot⟩

theorem readsOnly_codeResult (id : SeedId) : ReadsOnly (codeResult id : GenM κ Compiled) := by
  refine (readsOnly_lookup id).bind fun seed => (ReadsOnly.ofExcept _).bind fun result => ?_
  cases result with
  | code text => exact .pure _
  | seed leaked => exact .throw _

theorem run_referentCount {gen : Generator κ} {id : SeedId} {seed : Seed κ}
    (complete : gen.finalized = true) (stored : gen.store.get? id = some seed) :
    (referentCount id).run gen = .ok seed.referents.length gen := by
  rw [referentCount, run_bind_ok (run_requireFinalized_of_finalized complete),
    run_bind_ok (run_lookup_of_some stored)]
  rfl

theorem run_referentCount_of_none {gen : Generator κ} {id : SeedId}
    (complete : gen.finalized = true) (missing : gen.store.get? id = none) :
    (referentCount id).run gen = .error (.seedNotFound id) gen := by
  rw [referentCount, run_bind_ok (run_requireFinalized_of_finalized complete),
    run_bind_error (run_lookup_of_none missing)]

theorem readsOnly_referentCount (id : SeedId) : ReadsOnly (referentCount id : GenM κ Nat) :=
  readsOnly_requireFinalized.bind fun _ => (readsOnly_lookup id).bind fun _ => .pure _

theorem run_policy {gen : Generator κ} {id : SeedId} {seed : Seed κ}
    (complete : gen.finalized = true) (stored : gen.store.get? id = some seed) :
    (policy id).run gen =
      .ok (shouldBind seed.bindingWish seed.boundary seed.mode seed.referents.length) gen := by
  rw [policy, run_bind_ok (run_referentCount complete stored),
    run_bind_ok (run_lookup_of_some stored)]
  rfl

theorem run_policy_of_none {gen : Generator κ} {id : SeedId} (complete : gen.finalized = true)
    (missing : gen.store.get? id = none) : (policy id).run gen = .error (.seedNotFound id) gen := by
  rw [policy, run_bind_error (run_referentCount_of_none complete missing)]

theorem readsOnly_policy (id : SeedId) : ReadsOnly (policy id : GenM κ Bool) :=
  (readsOnly_referentCount id).bind fun _ => (readsOnly_lookup id).bind fun _ => .pure _

/-- Binding by the policy binds, or does nothing. -/
theorem bindByPolicy_cases (id : SeedId) (gen : Generator κ) :
    stateAfter (bindByPolicy id) gen = gen ∨
      ∃ seed value, gen.store.get? id = some seed ∧ seed.slot = .set value ∧
        (bindByPolicy id).run gen = .ok () (gen.moveToLocal id seed value) := by
  have hpolicy := readsOnly_policy id gen
  cases hrun : (policy id).run gen with
  | error failure gen' =>
    rw [stateAfter_of_error hrun] at hpolicy
    rw [bindByPolicy, stateAfter_of_error (run_bind_error hrun)]
    exact .inl hpolicy
  | ok decision gen' =>
    rw [stateAfter_of_ok hrun] at hpolicy
    subst hpolicy
    cases decision with
    | false => exact .inl (stateAfter_of_ok (run_bind_ok hrun))
    | true =>
      obtain ⟨failure, hbind⟩ | ⟨seed, value, stored, unbound, hbind⟩ := bind_cases id gen'
      · exact .inl (stateAfter_of_error ((run_bind_ok hrun).trans hbind))
      · exact .inr ⟨seed, value, stored, unbound, (run_bind_ok hrun).trans hbind⟩

/-- The block of a seed is emitted if the seed opens a region and its result is in no local. -/
theorem emitBlock_cases (id : SeedId) (gen : Generator κ) :
    stateAfter (emitBlock id) gen = gen ∨
      ∃ seed value, gen.store.get? id = some seed ∧ seed.slot = .set value ∧
        seed.boundary = .opens ∧
        stateAfter (emitBlock id) gen = gen.emitted (.block id value) := by
  cases hstored : gen.store.get? id with
  | none => exact .inl (stateAfter_of_error (run_bind_error (run_lookup_of_none hstored)))
  | some seed =>
    rw [stateAfter, emitBlock, run_bind_ok (run_lookup_of_some hstored)]
    by_cases hblock : seed.boundary = .opens ∧ seed.slot.isBound = false
    · rw [if_pos hblock]
      cases hslot : seed.slot with
      | unset =>
        have hfail : (MonadExcept.ofExcept seed.result : GenM κ _).run gen =
            .error (.missingResult seed.reportedId) gen := by
          rw [run_ofExcept, Seed.result, hslot]
          rfl
        rw [run_bind_error hfail]
        exact .inl rfl
      | set value =>
        have hvalue : (MonadExcept.ofExcept seed.result : GenM κ _).run gen = .ok value gen := by
          rw [run_ofExcept, Seed.result, hslot]
          rfl
        rw [run_bind_ok hvalue]
        exact .inr ⟨seed, value, rfl, hslot, hblock.1, rfl⟩
      | bound name reference value =>
        rw [hslot] at hblock
        exact absurd hblock.2 (by simp [Slot.isBound])
    · rw [if_neg hblock]
      exact .inl rfl

/-- A seed that was moved to a local is not emitted as a block. -/
theorem stateAfter_emitBlock_moveToLocal {gen : Generator κ} {id : SeedId} {seed : Seed κ}
    (value : Compiled) (stored : gen.store.get? id = some seed) :
    stateAfter (emitBlock id) (gen.moveToLocal id seed value) = gen.moveToLocal id seed value := by
  obtain h | ⟨other, otherValue, hother, hslot, -, -⟩ :=
    emitBlock_cases id (gen.moveToLocal id seed value)
  · exact h
  · rw [moveToLocal, gen.store.get?_set _ _ _ (by rw [stored]; rfl), if_pos rfl,
      Option.some.injEq] at hother
    rw [← hother] at hslot
    exact absurd hslot (by simp)

/-- **All that a continuation can do to the session**: nothing, move the result to a local, or emit
it as a block. -/
theorem settle_cases (id : SeedId) (gen : Generator κ) :
    stateAfter (settle id) gen = gen ∨
      (∃ seed value, gen.store.get? id = some seed ∧ seed.slot = .set value ∧
        stateAfter (settle id) gen = gen.moveToLocal id seed value) ∨
      ∃ seed value, gen.store.get? id = some seed ∧ seed.slot = .set value ∧
        seed.boundary = .opens ∧ stateAfter (settle id) gen = gen.emitted (.block id value) := by
  have hcode := readsOnly_codeResult id gen
  rw [settle, stateAfter_bind]
  cases hrun : (codeResult id).run gen with
  | error failure gen' =>
    rw [stateAfter_of_error hrun] at hcode
    exact .inl hcode
  | ok code gen' =>
    rw [stateAfter_of_ok hrun] at hcode
    subst hcode
    dsimp only
    rw [stateAfter_bind]
    obtain hsame | ⟨seed, value, stored, unbound, hbind⟩ := bindByPolicy_cases id gen'
    · cases hpolicy : (bindByPolicy id).run gen' with
      | error failure gen'' =>
        rw [stateAfter_of_error hpolicy] at hsame
        exact .inl hsame
      | ok _ gen'' =>
        rw [stateAfter_of_ok hpolicy] at hsame
        subst hsame
        obtain hnone | hemit := emitBlock_cases id gen''
        · exact .inl hnone
        · exact .inr (.inr hemit)
    · rw [hbind]
      exact .inr (.inl ⟨seed, value, stored, unbound,
        stateAfter_emitBlock_moveToLocal value stored⟩)

/-- The session after the seed `id` got the result `value`. -/
def withResult (gen : Generator κ) (id : SeedId) (seed : Seed κ) (value : Compiled) :
    Generator κ :=
  (gen.withSeed id { seed with slot := .set value }).noted (.resulted id)

/-! ### Regions -/

/-- The region that a traversal of the session `gen` has generated when it ends in `gen'`. -/
def regionSince (gen gen' : Generator κ) (result : Option Compiled) : Region where
  statements := gen'.emittedSince gen.emissions.length gen'.regionDepth
  result := result

theorem run_generateRegion_ok {traversal : Traversal κ} {start : SeedId} {gen gen' : Generator κ}
    {result : Option Compiled}
    (h : (traversal none start).run gen.openRegion = .ok result gen') :
    (generateRegion traversal start).run gen =
      .ok (regionSince gen gen' result) (gen'.closeRegion (regionSince gen gen' result)) := by
  rw [EStateM.run, generateRegion, h]
  rfl

theorem run_generateRegion_error {traversal : Traversal κ} {start : SeedId}
    {gen gen' : Generator κ} {failure : Error}
    (h : (traversal none start).run gen.openRegion = .error failure gen') :
    (generateRegion traversal start).run gen = .error failure (gen'.closeRegion none) := by
  rw [EStateM.run, generateRegion, h]

end Generator

/-! ### Traversals -/

namespace Generator

theorem run_traverseWith_ok {compile : SeedId → GenM Hook Compiled} {initial : Option Compiled}
    {start : SeedId} {gen gen' : Session} {result : Option Compiled}
    (h : (walkFrom compile initial start).run (gen.noted .traversalBegan) = .ok result gen') :
    (traverseWith compile initial start).run gen =
      .ok result (gen'.noted (.traversalEnded none)) := by
  rw [EStateM.run, traverseWith, h]

theorem run_traverseWith_error {compile : SeedId → GenM Hook Compiled}
    {initial : Option Compiled} {start : SeedId} {gen gen' : Session} {failure : Error}
    (h : (walkFrom compile initial start).run (gen.noted .traversalBegan) = .error failure gen') :
    (traverseWith compile initial start).run gen =
      .error failure (gen'.noted (.traversalEnded (some failure))) := by
  rw [EStateM.run, traverseWith, h]

end Generator

/-! ### Running hooks -/

namespace Compilation

theorem run_onGenerator_ok {operation : GenM Hook α} {cx : Compilation} {gen : Session}
    {value : α} (h : operation.run cx.generator = .ok value gen) :
    (onGenerator operation).run cx = .ok value { cx with generator := gen } := by
  rw [EStateM.run, onGenerator, h]

theorem run_onGenerator_error {operation : GenM Hook α} {cx : Compilation} {gen : Session}
    {failure : Error} (h : operation.run cx.generator = .error failure gen) :
    (onGenerator operation).run cx = .error failure { cx with generator := gen } := by
  rw [EStateM.run, onGenerator, h]

theorem run_self_of_some {cx : Compilation} {seed : Seed Hook}
    (stored : cx.generator.store.get? cx.id = some seed) : self.run cx = .ok seed cx := by
  rw [self, run_get_bind, run_onGenerator_ok (Generator.run_lookup_of_some stored)]

theorem run_setResult_of_unset {cx : Compilation} {seed : Seed Hook} (value : Compiled)
    (stored : cx.generator.store.get? cx.id = some seed) (unset : seed.slot = .unset) :
    (setResult value).run cx =
      .ok () { cx with generator := cx.generator.withResult cx.id seed value } := by
  have hwrite : (MonadExcept.ofExcept (seed.writeResult value) : HookM _).run cx =
      .ok { seed with slot := .set value } cx := by
    rw [run_ofExcept, Seed.writeResult, unset]
    rfl
  rw [setResult, run_get_bind, run_bind_ok (run_self_of_some stored), run_bind_ok hwrite]
  rfl

/-- **All that setting the result can do**: an empty slot is filled, otherwise nothing happens. -/
theorem setResult_cases (value : Compiled) (cx : Compilation) :
    (∃ failure, (setResult value).run cx = .error failure cx) ∨
      ∃ seed, cx.generator.store.get? cx.id = some seed ∧ seed.slot = .unset ∧
        (setResult value).run cx =
          .ok () { cx with generator := cx.generator.withResult cx.id seed value } := by
  cases hstored : cx.generator.store.get? cx.id with
  | none =>
    refine .inl ⟨.seedNotFound cx.id, ?_⟩
    have hself : self.run cx = .error (.seedNotFound cx.id) cx := by
      rw [self, run_get_bind, run_onGenerator_error (Generator.run_lookup_of_none hstored)]
    rw [setResult, run_get_bind, run_bind_error hself]
  | some seed =>
    cases hslot : seed.slot with
    | unset => exact .inr ⟨seed, rfl, hslot, run_setResult_of_unset value hstored hslot⟩
    | set old =>
      refine .inl ⟨.resultAlreadySet seed.reportedId, ?_⟩
      have hwrite : (MonadExcept.ofExcept (seed.writeResult value) : HookM (Seed Hook)).run cx =
          .error (.resultAlreadySet seed.reportedId) cx := by
        rw [run_ofExcept, Seed.writeResult, hslot]
        rfl
      rw [setResult, run_get_bind, run_bind_ok (run_self_of_some hstored), run_bind_error hwrite]
    | bound name reference old =>
      refine .inl ⟨.resultAlreadySet seed.reportedId, ?_⟩
      have hwrite : (MonadExcept.ofExcept (seed.writeResult value) : HookM (Seed Hook)).run cx =
          .error (.resultAlreadySet seed.reportedId) cx := by
        rw [run_ofExcept, Seed.writeResult, hslot]
        rfl
      rw [setResult, run_get_bind, run_bind_ok (run_self_of_some hstored), run_bind_error hwrite]

/-- The continuation counts first; only the first time it goes on to settle the result. -/
theorem run_proceed (cx : Compilation) :
    proceed.run cx =
      if cx.continuations = 0 then
        (onGenerator (Generator.settle cx.id)).run
          { cx with
            continuations := cx.continuations + 1
            generator := cx.generator.noted (.continued cx.id) }
      else
        .error (.continuationInvokedTwice cx.id)
          { cx with
            continuations := cx.continuations + 1
            generator := cx.generator.noted (.continued cx.id) } := by
  have hnote : (onGenerator (Generator.note (.continued cx.id))).run
      { cx with continuations := cx.continuations + 1 } =
        .ok () { cx with
          continuations := cx.continuations + 1
          generator := cx.generator.noted (.continued cx.id) } := rfl
  rw [proceed, run_modify_bind, run_get_bind, run_bind_ok hnote, run_require_bind]
  dsimp only
  by_cases hfirst : cx.continuations = 0
  · rw [if_pos hfirst, if_pos (by omega)]
  · rw [if_neg hfirst, if_neg (by omega)]

end Compilation

/-! ### Requests -/

namespace Session

variable {session session' : Session} {request : Request}

theorem step_of_ok {answer : Answer}
    (h : (Generator.respond (Generator.traverse session.store.seeds.length) request).run session =
      .ok answer session') : session.step request = (.ok answer, session') := by
  rw [step, perform, run_get_bind, h]

theorem step_of_error {failure : Error}
    (h : (Generator.respond (Generator.traverse session.store.seeds.length) request).run session =
      .error failure session') : session.step request = (.error failure, session') := by
  rw [step, perform, run_get_bind, h]

theorem step_eq {outcome : Except Error Answer} (h : (session.step request).1 = outcome) :
    session.step request = (outcome, (session.step request).2) := by
  rw [← h]

/-- What a request leaves behind, whether it is answered or fails. -/
theorem snd_step (session : Session) (request : Request) :
    (session.step request).2 =
      stateAfter (Generator.respond (Generator.traverse session.store.seeds.length) request)
        session := by
  rw [step, perform, run_get_bind, stateAfter]
  split <;> next h => rw [h]

end Session

end SeedGraph
