import SeedGraph.Proofs.Inverse
import SeedGraph.Proofs.Parallel

/-!
# Generated code does not depend on the order of edges

The edges of a seed are kept in the order in which their keys were first added.  That order shows in
reports, in the dependency graph and in the lists of referents, and the search for a cycle follows
it.  It does not show in generated code.

Take two sessions whose seeds have the same targets under the same keys.  Their graphs are accepted
or refused together, since the condition for it speaks about which seed depends on which
(`Store.Alike.dependsOn`), although different edges or seeds may be reported.  After that, the
referents of a seed are as many in one session as in the other (`Store.Alike.length_edgesInto`):
keys are distinct, so the edges of a seed are the same in another order.  From there on the sessions
are twins, and twins generate the same code.

Such sessions arise when the same edges are added in different orders (`Session.alike_of_perm`).
-/

namespace SeedGraph

/-! ### Edges with distinct keys -/

namespace Dependencies

variable {deps deps' : Dependencies}

/-- An edge is found under its key. -/
theorem mem_edges_iff (deps : Dependencies) (edge : Edge) :
    edge ∈ deps.edges ↔ deps.get? edge.key = some edge.target := by
  unfold get?
  rw [Option.map_eq_some_iff]
  constructor
  · intro mem
    refine ⟨edge, ?_, rfl⟩
    cases hfound : deps.edges.find? fun other => other.key = edge.key with
    | none => exact absurd (List.find?_eq_none.1 hfound edge mem) (by simp)
    | some other =>
      have hkey : other.key = edge.key := by simpa using List.find?_some hfound
      have hsame :=
        List.inj_on_of_nodup_map deps.distinct (List.mem_of_find?_eq_some hfound) mem hkey
      rw [hsame]
  · rintro ⟨other, hfound, htarget⟩
    have hkey : other.key = edge.key := by simpa using List.find?_some hfound
    have hsame : other = edge := by
      cases other
      cases edge
      simp_all
    rw [← hsame]
    exact List.mem_of_find?_eq_some hfound

/-- **Edges with the same targets under the same keys are the same edges in some order.** -/
theorem edges_perm (same : deps'.get? = deps.get?) : deps'.edges.Perm deps.edges := by
  refine (List.perm_ext_iff_of_nodup deps'.distinct.of_map deps.distinct.of_map).2 fun edge => ?_
  rw [mem_edges_iff, mem_edges_iff, same]

end Dependencies

/-! ### Graphs that differ in the order of edges -/

namespace Store

variable {κ : Type} {store store' : Store κ}

namespace Alike

theorem edgesOf_perm (h : store.Alike store') (id : SeedId) :
    (store'.edgesOf id).Perm (store.edgesOf id) := by
  obtain ⟨hnone, hnone'⟩ | ⟨seed, seed', hstored, hstored', alike⟩ := h.get?_cases id
  · rw [edgesOf, edgesOf, hnone, hnone']
  · rw [edgesOf_of_stored hstored, edgesOf_of_stored hstored']
    obtain ⟨dependencies, referents, targets, count⟩ := alike
    exact Dependencies.edges_perm targets

theorem inRange (h : store.Alike store') : store'.InRange = store.InRange := by
  funext id
  unfold InRange
  rw [h.lower, h.upper]

/-- **The order of edges does not matter for which seed depends on which.** -/
theorem dependsOn (h : store.Alike store') : store'.DependsOn = store.DependsOn := by
  have hedges : ∀ (store : Store κ) source target, store.DependsOn source target ↔
      ∃ edge ∈ store.edgesOf source, edge.target = target := by
    intro store source target
    unfold DependsOn edgesOf
    cases store.get? source <;> simp
  funext source target
  rw [eq_iff_iff, hedges, hedges]
  simp only [(h.edgesOf_perm source).mem_iff]

/-- **As many edges lead to a seed, in whatever order they are.** -/
theorem length_edgesInto (h : store.Alike store') (target : SeedId) :
    (store'.edgesInto target).length = (store.edgesInto target).length := by
  unfold edgesInto
  rw [h.ids, List.length_flatMap, List.length_flatMap]
  congr 1
  refine List.map_congr_left fun source _ => ?_
  rw [List.length_map, List.length_map]
  exact ((h.edgesOf_perm source).filter _).length_eq

end Alike

end Store

/-! ### Sessions -/

/-- The sessions differ in nothing but the order of the edges of seeds, in referents that are as
many, and in their journals. -/
inductive Generator.Alike (gen : Session) : Session → Prop
  | mk (store : Store Hook) (journal : List Event) (stores : gen.store.Alike store) :
    Alike gen { gen with store, journal }

namespace Generator

variable {gen gen' : Session}

/-- A graph is accepted if it is not complete yet, every target is stored, and there is no cycle
unless the settings allow it. -/
theorem run_finalize_eq_ok_iff (gen : Session) :
    finalize.run gen = .ok () gen.completed ↔
      gen.finalized = false ∧ gen.store.TargetsStored ∧
        (gen.settings.checkCycles = true → gen.store.Acyclic) := by
  constructor
  · intro hrun
    obtain ⟨failure, hfail⟩ | ⟨hopen, hdangling, hcycle, -⟩ := finalize_cases gen
    · rw [hfail] at hrun
      exact nomatch hrun
    · have htargets := gen.store.firstDangling?_eq_none_iff.1 hdangling
      exact ⟨hopen, htargets, (forbiddenCycle?_eq_none_iff htargets).1 hcycle⟩
  · rintro ⟨hopen, htargets, hacyclic⟩
    rw [run_finalize, if_pos hopen, gen.store.firstDangling?_eq_none_iff.2 htargets,
      (forbiddenCycle?_eq_none_iff htargets).2 hacyclic]

namespace Alike

/-- **The graphs are accepted or refused together.** -/
theorem run_finalize_iff (alike : gen.Alike gen') :
    finalize.run gen = .ok () gen.completed ↔ finalize.run gen' = .ok () gen'.completed := by
  obtain ⟨store, journal, stores⟩ := alike
  have hdepends := stores.dependsOn
  rw [run_finalize_eq_ok_iff, run_finalize_eq_ok_iff]
  dsimp only
  unfold Store.TargetsStored Store.Acyclic
  rw [hdepends, stores.inRange]

/-- **With complete graphs the sessions are twins.** -/
theorem completed (alike : gen.Alike gen') : Twins gen.completed gen'.completed := by
  obtain ⟨store, journal, stores⟩ := alike
  refine .intro ⟨?_, ?_, fun id seed hseed => ?_⟩ rfl rfl
  · show (store.record _).preexisting = (gen.store.record _).preexisting
    rw [Store.preexisting_record, Store.preexisting_record]
    exact stores.preexisting
  · show (store.record _).seeds.length = (gen.store.record _).seeds.length
    rw [Store.length_seeds_record, Store.length_seeds_record]
    exact stores.length
  · change (gen.store.record _).get? id = some seed at hseed
    show ∃ seed', (store.record _).get? id = some seed' ∧ seed.Alike seed'
    rw [Store.get?_record, Store.referentsOf_referentEntries] at hseed
    obtain ⟨old, hold, rfl⟩ := Option.map_eq_some_iff.1 hseed
    obtain ⟨_, hold', ⟨dependencies, referents, targets, count⟩⟩ := stores.stored id old hold
    rw [Store.get?_record, Store.referentsOf_referentEntries, hold']
    refine ⟨_, rfl, dependencies, _, targets, ?_⟩
    show (referents ++ _).length = (old.referents ++ _).length
    rw [List.length_append, List.length_append, count, stores.length_edgesInto]

end Alike

end Generator

/-- Requests lead from one session that can be reached to another. -/
theorem Reachable.run {gen : Session} (reachable : Reachable gen) (requests : List Request) :
    Reachable (gen.run requests) :=
  reachable.moves (Session.passage_run gen requests reachable.numbered).moves

/-! ### The same edges added in another order -/

namespace Seed

variable {κ : Type} {seed seed' : Seed κ}

theorem Alike.refl (seed : Seed κ) : seed.Alike seed :=
  ⟨_, _, rfl, rfl⟩

theorem Alike.trans {seed'' : Seed κ} (h : seed.Alike seed') (h' : seed'.Alike seed'') :
    seed.Alike seed'' := by
  obtain ⟨_, _, targets, count⟩ := h
  obtain ⟨dependencies, referents, targets', count'⟩ := h'
  exact ⟨dependencies, referents, targets'.trans targets, count'.trans count⟩

/-- The seed stored under `id` after an edge was added, which changes it if it owns the edge. -/
def linked (entry : SeedId × Referent) (id : SeedId) (seed : Seed κ) : Seed κ :=
  if entry.2.source = id then
    { seed with dependencies := seed.dependencies.insert entry.2.key entry.1 }
  else seed

theorem Alike.linked (h : seed.Alike seed') (entry : SeedId × Referent) (id : SeedId) :
    (seed.linked entry id).Alike (seed'.linked entry id) := by
  obtain ⟨dependencies, referents, targets, count⟩ := h
  unfold Seed.linked
  split
  · refine ⟨dependencies.insert entry.2.key entry.1, referents, ?_, count⟩
    funext key
    rw [Dependencies.get?_insert, Dependencies.get?_insert, targets]
  · exact ⟨dependencies, referents, targets, count⟩

/-- Two edges can be added in either order, unless they have the same owner and the same key. -/
theorem linked_comm (seed : Seed κ) (id : SeedId) {entry entry' : SeedId × Referent}
    (differ : entry.2 ≠ entry'.2) :
    ((seed.linked entry id).linked entry' id).Alike ((seed.linked entry' id).linked entry id) := by
  unfold linked
  by_cases hsource : entry.2.source = id
  · by_cases hsource' : entry'.2.source = id
    · have hkeys : entry.2.key ≠ entry'.2.key := by
        intro hkey
        exact differ (congrArg₂ Referent.mk (hsource.trans hsource'.symm) hkey)
      simp only [if_pos hsource, if_pos hsource']
      refine ⟨_, seed.referents, ?_, rfl⟩
      funext key
      simp only [Dependencies.get?_insert]
      by_cases hkey : entry.2.key = key
      · rw [if_pos hkey, if_pos hkey, if_neg (hkey ▸ hkeys.symm)]
      · rw [if_neg hkey, if_neg hkey]
    · simp only [if_neg hsource']
      exact .refl _
  · simp only [if_neg hsource]
    exact .refl _

end Seed

namespace Store

variable {κ : Type} {store store' : Store κ}

namespace Alike

theorem refl (store : Store κ) : store.Alike store :=
  ⟨rfl, rfl, fun _ seed hstored => ⟨seed, hstored, .refl seed⟩⟩

theorem trans {store'' : Store κ} (h : store.Alike store') (h' : store'.Alike store'') :
    store.Alike store'' := by
  refine ⟨h'.preexisting.trans h.preexisting, h'.length.trans h.length, fun id seed hstored => ?_⟩
  obtain ⟨seed', hstored', alike⟩ := h.stored id seed hstored
  obtain ⟨seed'', hstored'', alike'⟩ := h'.stored id seed' hstored'
  exact ⟨seed'', hstored'', alike.trans alike'⟩

end Alike

/-- The store after an edge was added, if its owner is stored. -/
def linked (store : Store κ) (entry : SeedId × Referent) : Store κ :=
  match store.get? entry.2.source with
  | none => store
  | some seed => store.set entry.2.source (seed.linked entry entry.2.source)

@[simp] theorem preexisting_linked (store : Store κ) (entry : SeedId × Referent) :
    (store.linked entry).preexisting = store.preexisting := by
  unfold linked
  split
  · rfl
  · rw [preexisting_set]

@[simp] theorem length_seeds_linked (store : Store κ) (entry : SeedId × Referent) :
    (store.linked entry).seeds.length = store.seeds.length := by
  unfold linked
  split
  · rfl
  · rw [length_seeds_set]

theorem get?_linked (store : Store κ) (entry : SeedId × Referent) (id : SeedId) :
    (store.linked entry).get? id = (store.get? id).map (Seed.linked entry id) := by
  have hother :
      entry.2.source ≠ id → (store.get? id).map (Seed.linked entry id) = store.get? id := by
    intro hne
    have hsame : Seed.linked entry id = (fun seed : Seed κ => seed) := by
      funext seed
      rw [Seed.linked, if_neg hne]
    rw [hsame, Option.map_id']
  unfold linked
  cases hsource : store.get? entry.2.source with
  | none =>
    by_cases heq : entry.2.source = id
    · rw [← heq, hsource]
      rfl
    · rw [hother heq]
  | some seed =>
    dsimp only
    rw [store.get?_set _ _ _ (by rw [hsource]; rfl)]
    by_cases heq : entry.2.source = id
    · rw [if_pos heq, ← heq, hsource]
      rfl
    · rw [if_neg heq, hother heq]

theorem Alike.linked (h : store.Alike store') (entry : SeedId × Referent) :
    (store.linked entry).Alike (store'.linked entry) := by
  refine ⟨by simp [h.preexisting], by simp [h.length], fun id seed hstored => ?_⟩
  rw [get?_linked] at hstored
  obtain ⟨old, hold, rfl⟩ := Option.map_eq_some_iff.1 hstored
  obtain ⟨old', hold', alike⟩ := h.stored id old hold
  rw [get?_linked, hold']
  exact ⟨_, rfl, alike.linked entry id⟩

theorem linked_comm (store : Store κ) {entry entry' : SeedId × Referent}
    (differ : entry.2 ≠ entry'.2) :
    ((store.linked entry).linked entry').Alike ((store.linked entry').linked entry) := by
  refine ⟨by simp, by simp, fun id seed hstored => ?_⟩
  rw [get?_linked, get?_linked, Option.map_map] at hstored
  obtain ⟨old, hold, rfl⟩ := Option.map_eq_some_iff.1 hstored
  rw [get?_linked, get?_linked, hold]
  exact ⟨_, rfl, old.linked_comm id differ⟩

/-- **Edges can be added in any order**, as long as no key of a seed comes up twice. -/
theorem alike_of_perm {entries entries' : List (SeedId × Referent)} (perm : entries.Perm entries')
    (nodup : (entries.map Prod.snd).Nodup) (store : Store κ) :
    (entries.foldl Store.linked store).Alike (entries'.foldl Store.linked store) := by
  -- Neighbours that changed places are followed by the same edges.
  have hrest : ∀ (rest : List (SeedId × Referent)) {store store' : Store κ}, store.Alike store' →
      (rest.foldl Store.linked store).Alike (rest.foldl Store.linked store') := by
    intro rest
    induction rest with
    | nil => exact fun h => h
    | cons entry rest ih => exact fun h => ih (h.linked entry)
  induction perm generalizing store with
  | nil => exact .refl store
  | cons entry _ ih => exact ih (List.nodup_cons.1 nodup).2 (store.linked entry)
  | swap entry entry' rest =>
    have hdiffer : entry'.2 ≠ entry.2 := fun hsame =>
      (List.nodup_cons.1 nodup).1 (hsame ▸ List.mem_cons_self)
    exact hrest rest (store.linked_comm hdiffer)
  | trans perm _ ih ih' =>
    exact (ih nodup store).trans (ih' ((perm.map _).nodup nodup) store)

end Store

/-- The request to add an edge. -/
def Request.linking (entry : SeedId × Referent) : Request :=
  .addDependency entry.2.source entry.2.key entry.1

namespace Session

variable {gen : Session}

theorem snd_step_linking (unfinished : gen.finalized = false) (entry : SeedId × Referent) :
    (gen.step (.linking entry)).2 = { gen with store := gen.store.linked entry } := by
  have hopen := Generator.run_requireOpen_of_open unfinished
  unfold Store.linked
  cases hsource : gen.store.get? entry.2.source with
  | none =>
    have hrun : (Generator.addDependency entry.2.source entry.2.key entry.1).run gen =
        .error (.seedNotFound entry.2.source) gen :=
      (run_bind_ok hopen).trans (run_bind_error (Generator.run_lookup_of_none hsource))
    rw [Request.linking, step_of_error (run_bind_error hrun)]
  | some seed =>
    have hrun : (Generator.addDependency entry.2.source entry.2.key entry.1).run gen =
        .ok () (gen.withSeed entry.2.source
          { seed with dependencies := seed.dependencies.insert entry.2.key entry.1 }) :=
      (run_bind_ok hopen).trans (run_bind_ok (Generator.run_lookup_of_some hsource))
    rw [Request.linking, step_of_ok ((run_bind_ok hrun).trans rfl)]
    dsimp only
    rw [Seed.linked, if_pos rfl]
    rfl

theorem run_linking (unfinished : gen.finalized = false) (entries : List (SeedId × Referent)) :
    gen.run (entries.map .linking) =
      { gen with store := entries.foldl Store.linked gen.store } := by
  induction entries generalizing gen with
  | nil => rfl
  | cons entry rest ih =>
    show (gen.step (.linking entry)).2.run (rest.map .linking) = _
    rw [snd_step_linking unfinished]
    exact ih unfinished

/-- **Sessions to which the same edges were added in another order differ in nothing else.** -/
theorem alike_of_perm {entries entries' : List (SeedId × Referent)}
    (unfinished : gen.finalized = false) (perm : entries.Perm entries')
    (nodup : (entries.map Prod.snd).Nodup) :
    (gen.run (entries.map .linking)).Alike (gen.run (entries'.map .linking)) := by
  rw [run_linking unfinished, run_linking unfinished]
  exact ⟨_, _, Store.alike_of_perm perm nodup gen.store⟩

end Session

/-! ### The same code -/

namespace Session

variable {gen gen' : Session}

/-- Declaring the graph complete succeeds if the graph is accepted. -/
theorem step_finalize_iff (gen : Session) :
    (gen.step .finalize).1 = .ok .done ↔ Generator.finalize.run gen = .ok () gen.completed := by
  obtain ⟨failure, hrun⟩ | ⟨-, -, -, hrun⟩ := Generator.finalize_cases gen
  · rw [hrun, step_of_error (run_bind_error hrun)]
    exact ⟨fun h => (nomatch h), fun h => (nomatch h)⟩
  · rw [hrun, step_of_ok ((run_bind_ok hrun).trans rfl)]
    exact ⟨fun _ => rfl, fun _ => rfl⟩

theorem snd_step_finalize (accepted : (gen.step .finalize).1 = .ok .done) :
    (gen.step .finalize).2 = gen.completed := by
  rw [step_of_ok ((run_bind_ok ((step_finalize_iff gen).1 accepted)).trans rfl)]

/-- Twins have the same results, locals and emitted statements, and are rendered alike. -/
theorem sameProgram_of_twins (twins : Twins gen gen') :
    gen.slot? = gen'.slot? ∧ gen.locals = gen'.locals ∧ gen.emissions = gen'.emissions ∧
      ∀ result, gen.render result = gen'.render result := by
  obtain ⟨store, journal, stores, complete⟩ := twins
  refine ⟨?_, rfl, rfl, fun _ => rfl⟩
  funext id
  obtain ⟨hnone, hnone'⟩ | ⟨seed, _, hstored, hstored', ⟨_, _, _, _⟩⟩ := stores.get?_cases id
  · unfold Generator.slot?
    rw [hnone, hnone']
  · rw [Generator.slot?_of_stored hstored, Generator.slot?_of_stored hstored']

/-- **Generated code does not depend on the order of edges.**  Let two sessions have the same
targets under the same keys of each seed, and let them not differ otherwise.  Declaring the graph
complete succeeds in both or in neither.  If it succeeds, then whatever is asked after that,
`generate` and every other request have the same answer in both, be it a result or a failure, unless
the request asks for the edges themselves.  At all times the sessions have the same results, locals
and emitted statements, and are rendered alike.

Hooks may do what they like.  One that asks for edges cannot act on what it is told. -/
theorem edge_order_irrelevant (alike : gen.Alike gen') :
    ((gen.step .finalize).1 = .ok .done ↔ (gen'.step .finalize).1 = .ok .done) ∧
      ((gen.step .finalize).1 = .ok .done → ∀ requests,
        let now := gen.run (.finalize :: requests)
        let now' := gen'.run (.finalize :: requests)
        (∀ request, request.inspects = false → (now.step request).1 = (now'.step request).1) ∧
          now.slot? = now'.slot? ∧ now.locals = now'.locals ∧ now.emissions = now'.emissions ∧
          ∀ result, now.render result = now'.render result) := by
  have hboth : (gen.step .finalize).1 = .ok .done ↔ (gen'.step .finalize).1 = .ok .done := by
    rw [step_finalize_iff, step_finalize_iff]
    exact alike.run_finalize_iff
  refine ⟨hboth, fun accepted requests => ?_⟩
  have htwins : Twins (gen.run (.finalize :: requests)) (gen'.run (.finalize :: requests)) := by
    show Twins ((gen.step .finalize).2.run requests) ((gen'.step .finalize).2.run requests)
    rw [snd_step_finalize accepted, snd_step_finalize (hboth.1 accepted)]
    exact twins_run alike.completed requests
  exact ⟨fun request => (twins_step htwins request).2, sameProgram_of_twins htwins⟩

/-- The edges of two calls, from the first to the last and from the last to the first.  Both calls
use the first operand, so it is held in a local. -/
theorem edge_order_irrelevant_reversed :
    let operand (text : String) : Blueprint Hook :=
      { kind := "operand", hook := [.text text, .setResult, .proceed] }
    let call : Blueprint Hook := {
      kind := "call"
      mode := .sideEffectful
      hook := [.text "f(", .inputCode (.arg 0), .text ", ", .inputCode (.arg 1), .text ")",
        .setResult, .proceed, .request (.referents ⟨0⟩)] }
    let seeds : List Request :=
      [.register (.seed (operand "g()")), .register (.seed (operand "h()")),
      .register (.seed call), .register (.seed call)]
    let entries : List (SeedId × Referent) := [(⟨0⟩, ⟨⟨2⟩, .arg 0⟩), (⟨1⟩, ⟨⟨2⟩, .arg 1⟩),
      (⟨0⟩, ⟨⟨3⟩, .arg 1⟩), (⟨2⟩, ⟨⟨3⟩, .arg 0⟩)]
    let gen := (blank.run seeds).run (entries.map .linking)
    let gen' := (blank.run seeds).run (entries.reverse.map .linking)
    gen.store.edgesOf ⟨2⟩ = [⟨.arg 0, ⟨0⟩⟩, ⟨.arg 1, ⟨1⟩⟩] ∧
    gen'.store.edgesOf ⟨2⟩ = [⟨.arg 1, ⟨1⟩⟩, ⟨.arg 0, ⟨0⟩⟩] ∧
    (gen'.step .finalize).1 = .ok .done ∧
    ((gen.run [.finalize]).step .generate).1 = ((gen'.run [.finalize]).step .generate).1 ∧
    (gen.run [.finalize, .generate]).render none =
      (gen'.run [.finalize, .generate]).render none ∧
    (gen.run [.finalize, .generate]).render none =
      ["let s0 = g();", "let s1 = f(s0, h());", "let s2 = f(s1, s0);"] := by
  intro operand call seeds entries
  have hopen : (blank.run seeds).finalized = false := by decide +kernel
  have halike := alike_of_perm hopen (List.reverse_perm entries).symm (by decide)
  obtain ⟨hboth, hsame⟩ := edge_order_irrelevant halike
  have haccepted := hboth.1 (by decide +kernel)
  refine ⟨by decide +kernel, by decide +kernel, haccepted, ?_, ?_, ?_⟩
  · exact (hsame (hboth.2 haccepted) []).1 .generate rfl
  · exact (hsame (hboth.2 haccepted) [.generate]).2.2.2.2 none
  · decide +kernel

end Session

end SeedGraph
