import SeedGraph.Proofs.Acceptance
import SeedGraph.Proofs.Outcome

/-!
# Two runs side by side

Two sessions are *twins* if their graphs are complete and they differ in nothing that generating
code can depend on: the same seeds with the same attributes, results and hooks, the same target
under every key and the same number of referents, and all the rest of the session.  What may differ
is the order of edges, the referents themselves, and the journal.

This module runs the same operation on twins, and shows that it comes to the same in both.
`Parallel` is that statement about two operations: started in related states they both succeed, with
related answers, or fail for the same reason, and end in related states.  Sequencing keeps it, so
each operation is looked at once and follows its definition; a walk and a hook are inductions on
their lists, and traversals one on the depth.

What is told about edges and referents is the exception.  A request that *inspects* them need not be
answered alike.  A hook that makes such a request goes on in the same way, since all it does with an
answer is to have it noted in the journal.
-/

namespace SeedGraph

/-! ### Operations in related states -/

section Parallel

variable {σ α β : Type} {S : σ → σ → Prop}

/-- Both outcomes are successes with related answers, or both are the same failure; and the states
are related. -/
inductive Outcomes (S : σ → σ → Prop) (V : α → α → Prop) :
    EStateM.Result Error σ α → EStateM.Result Error σ α → Prop
  | ok {value value' : α} {s s' : σ} (answers : V value value') (states : S s s') :
    Outcomes S V (.ok value s) (.ok value' s')
  | error {s s' : σ} (failure : Error) (states : S s s') :
    Outcomes S V (.error failure s) (.error failure s')

/-- Started in related states, the operations come to the same. -/
def Parallel (S : σ → σ → Prop) (V : α → α → Prop) (x x' : EStateM Error σ α) : Prop :=
  ∀ s s', S s s' → Outcomes S V (x.run s) (x'.run s')

namespace Parallel

variable {V : α → α → Prop} {W : β → β → Prop}

theorem pure {value value' : α} (answers : V value value') :
    Parallel S V (Pure.pure value) (Pure.pure value') :=
  fun _ _ states => .ok answers states

theorem throw (failure : Error) :
    Parallel S V (MonadExcept.throw failure) (MonadExcept.throw failure) :=
  fun _ _ states => .error failure states

theorem get : Parallel S S MonadState.get MonadState.get :=
  fun _ _ states => .ok states states

theorem put {s s' : σ} (states : S s s') : Parallel S Eq (set s) (set s') :=
  fun _ _ _ => .ok rfl states

theorem update {g g' : σ → σ} (keeps : ∀ s s', S s s' → S (g s) (g' s')) :
    Parallel S Eq (modify g) (modify g') :=
  fun s s' states => .ok rfl (keeps s s' states)

theorem mono {x x' : EStateM Error σ α} {V' : α → α → Prop} (hx : Parallel S V x x')
    (weaker : ∀ value value', V value value' → V' value value') : Parallel S V' x x' := by
  intro s s' states
  have hsame := hx s s' states
  generalize x.run s = outcome at hsame ⊢
  generalize x'.run s' = outcome' at hsame ⊢
  cases hsame with
  | ok answers states => exact .ok (weaker _ _ answers) states
  | error failure states => exact .error failure states

/-- One operation after the other. -/
theorem bind {x x' : EStateM Error σ α} {f f' : α → EStateM Error σ β} (hx : Parallel S V x x')
    (hf : ∀ value value', V value value' → Parallel S W (f value) (f' value')) :
    Parallel S W (x >>= f) (x' >>= f') := by
  intro s s' states
  have hfirst := hx s s' states
  rw [EStateM.run_bind, EStateM.run_bind]
  generalize x.run s = outcome at hfirst ⊢
  generalize x'.run s' = outcome' at hfirst ⊢
  cases hfirst with
  | ok answers states => exact hf _ _ answers _ _ states
  | error failure states => exact .error failure states

/-- One operation after another with the same answer in both runs. -/
theorem andThen {x x' : EStateM Error σ α} {f f' : α → EStateM Error σ β} (hx : Parallel S Eq x x')
    (hf : ∀ value, Parallel S W (f value) (f' value)) : Parallel S W (x >>= f) (x' >>= f') :=
  hx.bind fun value _ same => same ▸ hf value

theorem require {condition condition' : Prop} [Decidable condition] [Decidable condition']
    (same : condition ↔ condition') (failure : Error) :
    Parallel S Eq (require condition failure) (require condition' failure) := by
  intro s s' states
  rw [run_require, run_require]
  by_cases holds : condition
  · rw [if_pos holds, if_pos (same.1 holds)]
    exact .ok rfl states
  · rw [if_neg holds, if_neg fun holds' => holds (same.2 holds')]
    exact .error failure states

theorem ofExcept (outcome : Except Error α) :
    Parallel S Eq (MonadExcept.ofExcept outcome) (MonadExcept.ofExcept outcome) := by
  cases outcome with
  | ok value => exact .pure rfl
  | error failure => exact .throw failure

/-- What two operations come to that are started in related states. -/
theorem cases {x x' : EStateM Error σ α} (h : Parallel S V x x') {s s' : σ} (states : S s s') :
    (∃ value value' t t', x.run s = .ok value t ∧ x'.run s' = .ok value' t' ∧ V value value' ∧
      S t t') ∨
    ∃ failure t t', x.run s = .error failure t ∧ x'.run s' = .error failure t' ∧ S t t' := by
  have hsame := h s s' states
  generalize x.run s = outcome at hsame ⊢
  generalize x'.run s' = outcome' at hsame ⊢
  cases hsame with
  | ok answers states => exact .inl ⟨_, _, _, _, rfl, rfl, answers, states⟩
  | error failure states => exact .inr ⟨failure, _, _, rfl, rfl, states⟩

theorem tryCatch {x x' : EStateM Error σ α} {handler handler' : Error → EStateM Error σ α}
    (hx : Parallel S V x x')
    (hhandler : ∀ failure, Parallel S V (handler failure) (handler' failure)) :
    Parallel S V (tryCatch x handler) (tryCatch x' handler') := by
  intro s s' states
  obtain ⟨value, value', t, t', hrun, hrun', answers, after⟩ |
    ⟨failure, t, t', hrun, hrun', after⟩ := hx.cases states
  · rw [run_tryCatch_ok hrun, run_tryCatch_ok hrun']
    exact .ok answers after
  · rw [run_tryCatch_error hrun, run_tryCatch_error hrun']
    exact hhandler failure t t' after

end Parallel

end Parallel

/-! ### Seeds, stores and sessions that differ in the order of edges -/

section Alike

variable {κ : Type}

/-- The seeds have the same target under every key and as many referents, and do not differ
otherwise. -/
inductive Seed.Alike (seed : Seed κ) : Seed κ → Prop
  | mk (dependencies : Dependencies) (referents : List Referent)
    (targets : dependencies.get? = seed.dependencies.get?)
    (count : referents.length = seed.referents.length) :
    Alike seed { seed with dependencies, referents }

/-- The stores hold seeds that are alike under the same identifiers. -/
structure Store.Alike (store store' : Store κ) : Prop where
  /-- As many seeds existed before the session. -/
  preexisting : store'.preexisting = store.preexisting
  /-- There are as many seeds in all. -/
  length : store'.seeds.length = store.seeds.length
  /-- The seeds are alike one by one. -/
  stored : ∀ id seed, store.get? id = some seed →
    ∃ seed', store'.get? id = some seed' ∧ seed.Alike seed'

namespace Store

variable {store store' : Store κ}

namespace Alike

theorem ids (h : store.Alike store') : store'.ids = store.ids :=
  ids_congr h.preexisting h.length

theorem lower (h : store.Alike store') : store'.lower = store.lower :=
  lower_congr h.preexisting

theorem upper (h : store.Alike store') : store'.upper = store.upper :=
  upper_congr h.preexisting h.length

/-- A lookup finds nothing in either store, or seeds that are alike. -/
theorem get?_cases (h : store.Alike store') (id : SeedId) :
    (store.get? id = none ∧ store'.get? id = none) ∨
      ∃ seed seed', store.get? id = some seed ∧ store'.get? id = some seed' ∧ seed.Alike seed' := by
  cases hstored : store.get? id with
  | some seed =>
    obtain ⟨seed', hstored', alike⟩ := h.stored id seed hstored
    exact .inr ⟨seed, seed', rfl, hstored', alike⟩
  | none =>
    refine .inl ⟨rfl, ?_⟩
    have hmissing : ¬ (store.get? id).isSome := by rw [hstored]; simp
    rw [get?_isSome_iff, ← h.lower, ← h.upper, ← get?_isSome_iff] at hmissing
    exact Option.not_isSome_iff_eq_none.1 hmissing

/-- The same seed is replaced in both stores, by seeds that are alike. -/
theorem set (h : store.Alike store') (id : SeedId) {seed seed' : Seed κ}
    (alike : seed.Alike seed') :
    (store.set id seed).Alike (store'.set id seed') := by
  refine ⟨by simp only [preexisting_set, h.preexisting],
    by simp only [length_seeds_set, h.length], fun other found hfound => ?_⟩
  obtain ⟨hnone, hnone'⟩ | ⟨old, old', hold, hold', -⟩ := h.get?_cases id
  · rw [set_of_get?_none hnone] at hfound
    rw [set_of_get?_none hnone']
    exact h.stored other found hfound
  · rw [store.get?_set _ _ _ (by rw [hold]; rfl)] at hfound
    rw [store'.get?_set _ _ _ (by rw [hold']; rfl)]
    by_cases heq : id = other
    · rw [if_pos heq, Option.some.injEq] at hfound
      rw [if_pos heq]
      exact ⟨seed', rfl, hfound ▸ alike⟩
    · rw [if_neg heq] at hfound
      rw [if_neg heq]
      exact h.stored other found hfound

/-- The stored identifiers, each with the one that the seed carries. -/
theorem carriedIds (h : store.Alike store') :
    (store'.entries.map fun (id, seed) => (id, seed.id)) =
      store.entries.map fun (id, seed) => (id, seed.id) := by
  -- Both lists are made from the identifiers by a lookup.
  have hlookup : ∀ store : Store κ, (store.entries.map fun (id, seed) => (id, seed.id)) =
      store.ids.map fun id => (id, (store.get? id).bind Seed.id) := by
    intro store
    rw [← map_fst_entries, List.map_map]
    refine List.map_congr_left fun entry mem => ?_
    rw [Function.comp_apply, (store.mem_entries_iff entry.1 entry.2).1 mem]
    rfl
  rw [hlookup, hlookup, h.ids]
  refine List.map_congr_left fun id _ => ?_
  obtain ⟨hnone, hnone'⟩ | ⟨seed, _, hstored, hstored', ⟨_, _, _, _⟩⟩ := h.get?_cases id
  · rw [hnone, hnone']
  · rw [hstored, hstored']
    rfl

end Alike

end Store

end Alike

/-- Two sessions with complete graphs that differ in nothing but the order of edges, the referents,
and the journal. -/
inductive Twins (gen : Session) : Session → Prop
  | mk (store : Store Hook) (journal : List Event) (stores : gen.store.Alike store)
    (complete : gen.finalized = true) : Twins gen { gen with store, journal }

theorem Twins.intro {gen gen' : Session} (stores : gen.store.Alike gen'.store)
    (complete : gen.finalized = true)
    (rest : { gen with store := gen'.store, journal := gen'.journal } = gen') : Twins gen gen' := by
  rw [← rest]
  exact ⟨_, _, stores, complete⟩

theorem Twins.complete {gen gen' : Session} (twins : Twins gen gen') :
    gen.finalized = true ∧ gen'.finalized = true := by
  obtain ⟨store, journal, stores, complete⟩ := twins
  exact ⟨complete, complete⟩

/-- The handles of a hook that runs in two sessions that are twins. -/
inductive Compilation.Alike (cx : Compilation) : Compilation → Prop
  | mk (generator : Session) (twins : Twins cx.generator generator) : Alike cx { cx with generator }

/-! ### Operations of a session -/

namespace Generator

theorem parallel_lookup (id : SeedId) : Parallel Twins Seed.Alike (lookup id) (lookup id) := by
  rintro gen _ ⟨store, journal, stores, complete⟩
  obtain ⟨hnone, hnone'⟩ | ⟨seed, seed', hstored, hstored', alike⟩ := stores.get?_cases id
  · rw [run_lookup_of_none hnone, run_lookup_of_none hnone']
    exact .error _ (.intro stores complete rfl)
  · rw [run_lookup_of_some hstored, run_lookup_of_some hstored']
    exact .ok alike (.intro stores complete rfl)

theorem parallel_replace (id : SeedId) {seed seed' : Seed Hook} (alike : seed.Alike seed') :
    Parallel Twins Eq (replace id seed) (replace id seed') := by
  refine .update ?_
  rintro gen _ ⟨store, journal, stores, complete⟩
  exact .intro (stores.set id alike) complete rfl

/-- The journals of twins may differ. -/
theorem parallel_note (event event' : Event) :
    Parallel Twins Eq (note event) (note event') := by
  refine .update ?_
  rintro gen _ ⟨store, journal, stores, complete⟩
  exact .intro stores complete rfl

/-- What needs an incomplete graph fails in both sessions. -/
theorem parallel_requireOpen_bind {α : Type} {V : α → α → Prop} (f f' : Unit → GenM Hook α) :
    Parallel Twins V (requireOpen >>= f) (requireOpen >>= f') := by
  intro gen gen' twins
  rw [run_bind_error (run_requireOpen_of_finalized twins.complete.1),
    run_bind_error (run_requireOpen_of_finalized twins.complete.2)]
  exact .error _ twins

theorem parallel_requireFinalized : Parallel Twins Eq requireFinalized requireFinalized := by
  intro gen gen' twins
  rw [run_requireFinalized_of_finalized twins.complete.1,
    run_requireFinalized_of_finalized twins.complete.2]
  exact .ok rfl twins

/-! ### Results and locals -/

theorem parallel_referentCount (id : SeedId) :
    Parallel Twins Eq (referentCount id) (referentCount id) := by
  refine parallel_requireFinalized.andThen fun _ => (parallel_lookup id).bind ?_
  rintro seed _ ⟨dependencies, referents, targets, count⟩
  exact .pure count.symm

theorem parallel_policy (id : SeedId) : Parallel Twins Eq (policy id) (policy id) := by
  refine (parallel_referentCount id).andThen fun _ => (parallel_lookup id).bind ?_
  rintro seed _ ⟨dependencies, referents, targets, count⟩
  exact .pure rfl

theorem parallel_emit (statement : Statement) :
    Parallel Twins Eq (emit statement) (emit statement) := by
  refine .update ?_
  rintro gen _ ⟨store, journal, stores, complete⟩
  exact .intro stores complete rfl

theorem parallel_allocate (id : SeedId) (value : Compiled) :
    Parallel Twins Eq (allocate id value) (allocate id value) := by
  rintro gen _ ⟨store, journal, stores, complete⟩
  exact .ok rfl (.intro stores complete rfl)

theorem parallel_bind (id : SeedId) : Parallel Twins Eq (bind id) (bind id) := by
  refine (parallel_lookup id).bind ?_
  rintro seed _ ⟨dependencies, referents, targets, count⟩
  refine (Parallel.ofExcept seed.result).andThen fun value => ?_
  refine (Parallel.require Iff.rfl _).andThen fun _ => ?_
  refine (parallel_allocate id value).andThen fun binding => ?_
  refine (parallel_emit _).andThen fun _ => Parallel.get.bind ?_
  rintro gen _ ⟨store, journal, stores, complete⟩
  refine (Parallel.ofExcept _).andThen fun slot => ?_
  exact parallel_replace id ⟨dependencies, referents, targets, count⟩

theorem parallel_codeResult (id : SeedId) :
    Parallel Twins Eq (codeResult id) (codeResult id) := by
  refine (parallel_lookup id).bind ?_
  rintro seed _ ⟨dependencies, referents, targets, count⟩
  refine (Parallel.ofExcept seed.result).andThen fun result => ?_
  cases result with
  | seed leaked => exact .throw _
  | code text => exact .pure rfl

theorem parallel_bindByPolicy (id : SeedId) :
    Parallel Twins Eq (bindByPolicy id) (bindByPolicy id) := by
  refine (parallel_policy id).andThen fun decision => ?_
  cases decision with
  | true => exact parallel_bind id
  | false => exact .pure rfl

theorem parallel_emitBlock (id : SeedId) : Parallel Twins Eq (emitBlock id) (emitBlock id) := by
  refine (parallel_lookup id).bind ?_
  rintro seed _ ⟨dependencies, referents, targets, count⟩
  by_cases hblock : seed.boundary = .opens ∧ seed.slot.isBound = false
  · rw [if_pos hblock, if_pos hblock]
    exact (Parallel.ofExcept seed.result).andThen fun code => parallel_emit (.block id code)
  · rw [if_neg hblock, if_neg hblock]
    exact .pure rfl

theorem parallel_settle (id : SeedId) : Parallel Twins Eq (settle id) (settle id) :=
  (parallel_codeResult id).andThen fun _ => (parallel_bindByPolicy id).andThen fun _ =>
    parallel_emitBlock id

/-! ### Scopes, payloads and what is put aside -/

theorem parallel_setPayload (id : SeedId) (payload : Json) :
    Parallel Twins Eq (setPayload id payload) (setPayload id payload) := by
  refine (parallel_lookup id).bind ?_
  rintro seed _ ⟨dependencies, referents, targets, count⟩
  exact parallel_replace id ⟨dependencies, referents, targets, count⟩

theorem parallel_beginScope (anchor : SeedId) (depending : Bool) :
    Parallel Twins Eq (beginScope anchor depending) (beginScope anchor depending) := by
  refine (parallel_lookup anchor).bind fun _ _ _ => ?_
  refine (Parallel.update ?_).andThen fun _ => parallel_note _ _
  rintro gen _ ⟨store, journal, stores, complete⟩
  exact .intro stores complete rfl

theorem parallel_endScope : Parallel Twins Eq endScope endScope := by
  refine Parallel.get.bind ?_
  rintro gen _ ⟨store, journal, stores, complete⟩
  dsimp only
  cases gen.scopes with
  | nil => exact .throw _
  | cons scope rest =>
    exact (Parallel.put (.intro stores complete rfl)).andThen fun _ =>
      (parallel_note _ _).andThen fun _ => .pure rfl

theorem parallel_memoize (key : String) (id : SeedId) :
    Parallel Twins Eq (memoize key id) (memoize key id) := by
  refine Parallel.get.bind ?_
  rintro gen _ ⟨store, journal, stores, complete⟩
  exact (Parallel.put (.intro stores complete rfl)).andThen fun _ =>
    (parallel_note _ _).andThen fun _ => .pure rfl

theorem parallel_remember (result : Option Compiled) :
    Parallel Twins Eq (remember result) (remember result) := by
  rintro gen _ ⟨store, journal, stores, complete⟩
  exact .ok rfl (.intro stores complete rfl)

theorem parallel_setOutput (output : Compiled) :
    Parallel Twins Eq (modify fun gen : Session => { gen with output := some output })
      (modify fun gen : Session => { gen with output := some output }) := by
  refine .update ?_
  rintro gen _ ⟨store, journal, stores, complete⟩
  exact .intro stores complete rfl

end Generator

/-- Does the request tell about the edges or the referents of seeds? -/
def Request.inspects : Request → Bool
  | .referents _ | .seed _ | .report | .dump | .dot | .graph => true
  | _ => false

namespace Generator

/-! ### Generating code -/

section Generating

variable {traversal traversal' : Traversal Hook}
  (h : ∀ initial start, Parallel Twins Eq (traversal initial start) (traversal' initial start))

include h

theorem parallel_generate :
    Parallel Twins Eq (generate traversal) (generate traversal') := by
  refine Parallel.get.bind ?_
  rintro gen _ ⟨store, journal, stores, complete⟩
  refine (Parallel.require Iff.rfl _).andThen fun _ => ?_
  have hlower : store.lower = gen.store.lower := stores.lower
  show Parallel Twins Eq (traversal none ⟨gen.store.lower⟩) (traversal' none ⟨store.lower⟩)
  rw [hlower]
  exact h none _

theorem parallel_generateRegion (start : SeedId) :
    Parallel Twins Eq (generateRegion traversal start) (generateRegion traversal' start) := by
  intro gen gen' twins
  have hopened : Twins gen.openRegion gen'.openRegion := by
    obtain ⟨store, journal, stores, complete⟩ := twins
    exact .intro stores complete rfl
  obtain ⟨result, _, last, last', hrun, hrun', rfl, after⟩ |
      ⟨failure, last, last', hrun, hrun', after⟩ := (h none start).cases hopened
  · rw [run_generateRegion_ok hrun, run_generateRegion_ok hrun']
    obtain ⟨store, journal, stores, complete⟩ := after
    obtain ⟨_, _, _, _⟩ := twins
    exact .ok rfl (.intro stores complete rfl)
  · rw [run_generateRegion_error hrun, run_generateRegion_error hrun']
    obtain ⟨store, journal, stores, complete⟩ := after
    exact .error failure (.intro stores complete rfl)

/-- **Every request comes to the same in twins**, and is answered alike unless it inspects edges. -/
theorem parallel_respond (request : Request) :
    Parallel Twins (fun answer answer' => request.inspects = false → answer = answer')
      (respond traversal request) (respond traversal' request) := by
  have hsame : ∀ {x x' : GenM Hook Answer}, Parallel Twins Eq x x' →
      Parallel Twins (fun answer answer' => request.inspects = false → answer = answer') x x' :=
    fun hx => hx.mono fun _ _ same _ => same
  have hanswer : ∀ {α : Type} {x x' : GenM Hook α} (answer : α → Answer), Parallel Twins Eq x x' →
      Parallel Twins Eq (do return answer (← x)) (do return answer (← x')) :=
    fun answer hx => hx.andThen fun _ => .pure rfl
  cases request with
  | register candidate =>
    exact hsame (hanswer _ (parallel_requireOpen_bind _ _))
  | registerCopy id =>
    exact hsame ((parallel_lookup id).bind fun _ _ _ => hanswer _ (parallel_requireOpen_bind _ _))
  | addDependency source key target =>
    exact hsame ((parallel_requireOpen_bind (V := Eq) _ _).andThen fun _ => .pure rfl)
  | addOrdering source target => exact hsame (hanswer _ (parallel_requireOpen_bind _ _))
  | propagateOrdering id =>
    exact hsame ((parallel_requireOpen_bind (V := Eq) _ _).andThen fun _ => .pure rfl)
  | finalize =>
    exact hsame ((parallel_requireOpen_bind (V := Eq) _ _).andThen fun _ => .pure rfl)
  | setPayload id payload =>
    exact hsame ((parallel_setPayload id payload).andThen fun _ => .pure rfl)
  | beginScope anchor depending =>
    exact hsame ((parallel_beginScope anchor depending).andThen fun _ => .pure rfl)
  | endScope => exact hsame (parallel_endScope.andThen fun _ => .pure rfl)
  | memoize key id => exact hsame (hanswer _ (parallel_memoize key id))
  | referentCount id => exact hsame (hanswer _ (parallel_referentCount id))
  | shouldBind id => exact hsame (hanswer _ (parallel_policy id))
  | bind id => exact hsame ((parallel_bind id).andThen fun _ => .pure rfl)
  | setOutput output => exact hsame ((parallel_setOutput output).andThen fun _ => .pure rfl)
  | generate => exact hsame ((parallel_generate h).andThen parallel_remember)
  | generateFrom initial start => exact hsame ((h initial start).andThen parallel_remember)
  | generateRegion start =>
    refine hsame ((parallel_generateRegion h start).andThen fun region => Parallel.get.bind ?_)
    rintro gen _ ⟨store, journal, stores, complete⟩
    exact .pure rfl
  | payload id =>
    refine hsame ((parallel_lookup id).bind ?_)
    rintro seed _ ⟨dependencies, referents, targets, count⟩
    exact .pure rfl
  | result id =>
    refine hsame ((parallel_lookup id).bind ?_)
    rintro seed _ ⟨dependencies, referents, targets, count⟩
    exact (Parallel.ofExcept seed.result).andThen fun _ => .pure rfl
  | referents id | seed id =>
    exact (parallel_lookup id).bind fun _ _ _ => .pure fun quiet => nomatch quiet
  | report | dump | dot | graph =>
    exact Parallel.get.bind fun _ _ _ => .pure fun quiet => nomatch quiet
  | seeds =>
    refine hsame (Parallel.get.bind ?_)
    rintro gen _ ⟨store, journal, stores, complete⟩
    exact .pure (congrArg Answer.stored stores.carriedIds.symm)
  | memo _ | output | render _ | renderRegion _ | bindings | bindingFor _ | writeLocal _ _
  | settings =>
    refine hsame (Parallel.get.bind ?_)
    rintro gen _ ⟨store, journal, stores, complete⟩
    exact .pure rfl

end Generating

end Generator

/-! ### Hooks -/

theorem Compilation.Alike.intro {cx cx' : Compilation} (twins : Twins cx.generator cx'.generator)
    (rest : { cx with generator := cx'.generator } = cx') : cx.Alike cx' := by
  rw [← rest]
  exact ⟨_, twins⟩

namespace Compilation

theorem parallel_onGenerator {α : Type} {V : α → α → Prop} {operation operation' : GenM Hook α}
    (h : Parallel Twins V operation operation') :
    Parallel Compilation.Alike V (onGenerator operation) (onGenerator operation') := by
  rintro cx _ ⟨generator, twins⟩
  obtain ⟨value, value', gen, gen', hrun, hrun', answers, after⟩ |
      ⟨failure, gen, gen', hrun, hrun', after⟩ := h.cases twins
  · rw [run_onGenerator_ok hrun, run_onGenerator_ok hrun']
    exact .ok answers (.intro after rfl)
  · rw [run_onGenerator_error hrun, run_onGenerator_error hrun']
    exact .error failure (.intro after rfl)

theorem parallel_append (text : String) :
    Parallel Compilation.Alike Eq (append text) (append text) := by
  refine .update ?_
  rintro cx _ ⟨generator, twins⟩
  exact .intro twins rfl

theorem parallel_self : Parallel Compilation.Alike Seed.Alike self self := by
  refine Parallel.get.bind ?_
  rintro cx _ ⟨generator, twins⟩
  exact parallel_onGenerator (Generator.parallel_lookup cx.id)

/-- A hook finds its dependencies by their keys, so their order does not matter. -/
theorem parallel_target (key : Key) :
    Parallel Compilation.Alike Eq (target key) (target key) := by
  refine parallel_self.bind ?_
  rintro seed _ ⟨dependencies, referents, targets, count⟩
  dsimp only
  rw [targets]
  cases seed.dependencies.get? key with
  | some id => exact .pure rfl
  | none =>
    refine Parallel.get.bind ?_
    rintro cx _ ⟨generator, twins⟩
    exact .throw _

theorem parallel_input (key : Key) : Parallel Compilation.Alike Eq (input key) (input key) := by
  refine (parallel_target key).andThen fun id => ?_
  refine (parallel_onGenerator (Generator.parallel_lookup id)).bind ?_
  rintro seed _ ⟨dependencies, referents, targets, count⟩
  exact .ofExcept seed.result

theorem parallel_inputCode (key : Key) :
    Parallel Compilation.Alike Eq (inputCode key) (inputCode key) := by
  refine (parallel_target key).andThen fun id => (parallel_input key).andThen fun result => ?_
  cases result with
  | code text => exact .pure rfl
  | seed leaked => exact .throw _

theorem parallel_setResult (value : Compiled) :
    Parallel Compilation.Alike Eq (setResult value) (setResult value) := by
  refine Parallel.get.bind ?_
  rintro cx _ ⟨generator, twins⟩
  refine parallel_self.bind ?_
  rintro seed _ ⟨dependencies, referents, targets, count⟩
  show Parallel Compilation.Alike Eq (MonadExcept.ofExcept (seed.writeResult value) >>= _)
    (MonadExcept.ofExcept ((seed.slot.write seed.reportedId value).map _) >>= _)
  unfold Seed.writeResult
  cases seed.slot.write seed.reportedId value with
  | error failure => exact .throw failure
  | ok slot =>
    have alike :
        ({ seed with slot } : Seed Hook).Alike { seed with slot, dependencies, referents } :=
      ⟨dependencies, referents, targets, count⟩
    exact (parallel_onGenerator (Generator.parallel_replace cx.id alike)).andThen fun _ =>
      parallel_onGenerator (Generator.parallel_note _ _)

theorem parallel_proceed : Parallel Compilation.Alike Eq proceed proceed := by
  refine (Parallel.update ?_).andThen fun _ => Parallel.get.bind ?_
  · rintro cx _ ⟨generator, twins⟩
    exact .intro twins rfl
  · rintro cx _ ⟨generator, twins⟩
    refine (parallel_onGenerator (Generator.parallel_note _ _)).andThen fun _ => ?_
    refine (Parallel.require Iff.rfl _).andThen fun _ => ?_
    exact parallel_onGenerator (Generator.parallel_settle cx.id)

end Compilation

section Hooks

variable {traversal traversal' : Traversal Hook}
  (h : ∀ initial start, Parallel Twins Eq (traversal initial start) (traversal' initial start))

include h

open Compilation in
/-- **Every action comes to the same in twins**, also one that makes a request: its answer is only
noted. -/
theorem Action.parallel_run : ∀ action : Action,
    Parallel Compilation.Alike Eq (action.run traversal) (action.run traversal')
  | .text s => parallel_append s
  | .clear => .update fun _ _ ⟨_, twins⟩ => .intro twins rfl
  | .ownId => Parallel.get.bind fun _ _ ⟨_, _⟩ => parallel_append _
  | .ownKind => parallel_self.bind fun _ _ ⟨_, _, _, _⟩ => parallel_append _
  | .ownPayload => parallel_self.bind fun _ _ ⟨_, _, _, _⟩ => parallel_append _
  | .target key => (parallel_target key).andThen fun _ => parallel_append _
  | .input key => (parallel_input key).andThen fun _ => parallel_append _
  | .inputCode key => (parallel_inputCode key).andThen fun _ => parallel_append _
  | .setResult => Parallel.get.bind fun _ _ ⟨_, _⟩ => parallel_setResult _
  | .setSeed leaked => parallel_setResult (.seed leaked)
  | .leak key => (parallel_target key).andThen fun _ => parallel_setResult _
  | .proceed => parallel_proceed
  | .region _ _ => Parallel.get.bind fun _ _ ⟨_, _⟩ =>
    (parallel_onGenerator (Generator.parallel_generateRegion h _)).andThen fun _ =>
      Parallel.get.bind fun _ _ ⟨_, ⟨_, _, _, _⟩⟩ => parallel_append _
  | .request asked =>
    (parallel_onGenerator (Generator.parallel_respond h asked)).bind fun _ _ _ =>
      Parallel.get.bind fun _ _ ⟨_, _⟩ => parallel_onGenerator (Generator.parallel_note _ _)
  | .attempt action => (Action.parallel_run action).tryCatch fun _ =>
    Parallel.get.bind fun _ _ ⟨_, _⟩ => parallel_onGenerator (Generator.parallel_note _ _)
  | .fail _ => .throw _

theorem Hook.parallel_run (hook : Hook) :
    Parallel Compilation.Alike Eq (hook.run traversal) (hook.run traversal') := by
  induction hook with
  | nil => exact .pure rfl
  | cons action rest ih => exact (action.parallel_run h).andThen fun _ => ih

namespace Generator

theorem parallel_runHook (id : SeedId) (hook : Hook) :
    Parallel Twins Eq (runHook traversal id hook) (runHook traversal' id hook) := by
  intro gen gen' twins
  have hcx : Compilation.Alike { id, generator := gen } { id, generator := gen' } :=
    .intro twins rfl
  rw [EStateM.run, EStateM.run, runHook, runHook]
  obtain ⟨_, _, cx, cx', hrun, hrun', -, after⟩ | ⟨failure, cx, cx', hrun, hrun', after⟩ :=
    (hook.parallel_run h).cases hcx
  · rw [hrun, hrun']
    obtain ⟨generator, twins⟩ := after
    exact .ok rfl twins
  · rw [hrun, hrun']
    obtain ⟨generator, twins⟩ := after
    exact .ok rfl twins

theorem parallel_compile (id : SeedId) :
    Parallel Twins Eq (compile traversal id) (compile traversal' id) := by
  have hidle : Parallel Twins Eq (requireIdle id) (requireIdle id) := by
    refine Parallel.get.bind ?_
    rintro gen _ ⟨store, journal, stores, complete⟩
    exact .require Iff.rfl _
  refine hidle.andThen fun _ => (parallel_lookup id).bind ?_
  rintro seed _ ⟨dependencies, referents, targets, count⟩
  refine (Parallel.update ?_).andThen fun _ =>
    (parallel_runHook h id seed.hook).andThen fun ending => ?_
  · rintro gen _ ⟨store, journal, stores, complete⟩
    exact .intro stores complete rfl
  refine (Parallel.update ?_).andThen fun _ => (Parallel.ofExcept _).andThen fun _ => ?_
  · rintro gen _ ⟨store, journal, stores, complete⟩
    exact .intro stores complete rfl
  exact (parallel_codeResult id).andThen fun _ => (parallel_note _ _).andThen fun _ => .pure rfl

end Generator

end Hooks

/-! ### Traversals -/

namespace Generator

theorem parallel_walk {compile compile' : SeedId → GenM Hook Compiled}
    (h : ∀ id, Parallel Twins Eq (compile id) (compile' id)) (ids : List SeedId)
    (latest : Option Compiled) :
    Parallel Twins Eq (walk compile ids latest) (walk compile' ids latest) := by
  induction ids generalizing latest with
  | nil => exact .pure rfl
  | cons id rest ih =>
    refine (parallel_lookup id).bind ?_
    rintro seed _ ⟨dependencies, referents, targets, count⟩
    dsimp only
    cases seed.slot.current with
    | some result => exact ih (some result)
    | none =>
      refine (h id).andThen fun result => (parallel_lookup id).bind ?_
      rintro seed _ ⟨dependencies, referents, targets, count⟩
      by_cases hcloses : seed.boundary = .closes
      · rw [if_pos hcloses, if_pos hcloses]
        exact .pure rfl
      · rw [if_neg hcloses, if_neg hcloses]
        exact ih (some result)

theorem parallel_traverseWith {compile compile' : SeedId → GenM Hook Compiled}
    (h : ∀ id, Parallel Twins Eq (compile id) (compile' id)) (initial : Option Compiled)
    (start : SeedId) :
    Parallel Twins Eq (traverseWith compile initial start)
      (traverseWith compile' initial start) := by
  have hwalk :
      Parallel Twins Eq (walkFrom compile initial start) (walkFrom compile' initial start) := by
    refine parallel_requireFinalized.andThen fun _ => Parallel.get.bind ?_
    rintro gen _ ⟨store, journal, stores, complete⟩
    have hids : store.idsFrom start = gen.store.idsFrom start := by
      unfold Store.idsFrom
      rw [stores.ids]
    dsimp only
    rw [hids]
    exact parallel_walk h _ initial
  intro gen gen' twins
  have hbegan : Twins (gen.noted .traversalBegan) (gen'.noted .traversalBegan) := by
    obtain ⟨store, journal, stores, complete⟩ := twins
    exact .intro stores complete rfl
  obtain ⟨result, _, last, last', hrun, hrun', rfl, after⟩ |
      ⟨failure, last, last', hrun, hrun', after⟩ := hwalk.cases hbegan
  · rw [run_traverseWith_ok hrun, run_traverseWith_ok hrun']
    obtain ⟨store, journal, stores, complete⟩ := after
    exact .ok rfl (.intro stores complete rfl)
  · rw [run_traverseWith_error hrun, run_traverseWith_error hrun']
    obtain ⟨store, journal, stores, complete⟩ := after
    exact .error failure (.intro stores complete rfl)

/-- **Traversals come to the same in twins.** -/
theorem parallel_traverse (depth : Nat) (initial : Option Compiled) (start : SeedId) :
    Parallel Twins Eq (traverse depth initial start) (traverse depth initial start) := by
  induction depth generalizing initial start with
  | zero => exact parallel_traverseWith (fun _ => .throw _) initial start
  | succ depth ih => exact parallel_traverseWith (parallel_compile ih) initial start

end Generator

/-! ### Sessions -/

namespace Session

/-- A request has as much depth in either session. -/
theorem parallel_perform (request : Request) :
    Parallel Twins (fun answer answer' => request.inspects = false → answer = answer')
      (perform request) (perform request) := by
  refine Parallel.get.bind ?_
  rintro gen _ ⟨store, journal, stores, complete⟩
  dsimp only
  rw [stores.length]
  exact Generator.parallel_respond (Generator.parallel_traverse _) request

variable {session session' : Session}

/-- What twins make of a request. -/
theorem twins_step (twins : Twins session session') (request : Request) :
    Twins (session.step request).2 (session'.step request).2 ∧
      (request.inspects = false → (session.step request).1 = (session'.step request).1) := by
  obtain ⟨answer, answer', next, next', hrun, hrun', answers, after⟩ |
      ⟨failure, next, next', hrun, hrun', after⟩ := (parallel_perform request).cases twins
  · rw [step_of_ok hrun, step_of_ok hrun']
    exact ⟨after, fun quiet => congrArg Except.ok (answers quiet)⟩
  · rw [step_of_error hrun, step_of_error hrun']
    exact ⟨after, fun _ => rfl⟩

/-- **Twins stay twins**, whatever is asked. -/
theorem twins_run (twins : Twins session session') (requests : List Request) :
    Twins (session.run requests) (session'.run requests) := by
  induction requests generalizing session session' with
  | nil => exact twins
  | cons request rest ih => exact ih (twins_step twins request).1

end Session

end SeedGraph
