import Mathlib.Algebra.BigOperators.Group.Finset.Basic
import Mathlib.Algebra.GroupWithZero.Nat
import SeedGraph.Proofs.Acceptance
import SeedGraph.Proofs.Frozen
import SeedGraph.Proofs.Runs

/-!
# Referents are the edges, turned round

Until its graph is complete no seed has referents.  From then on the referents of a seed are the
edges that lead to it, each of them once, in ascending order of the seeds that own them and for each
owner in the order of its edges.  The list is made in one pass when the graph is completed, and
stays right because a complete graph does not change.

* `Store.edgesInto`: the edges that lead to a seed, read off the seeds that own them.
* `Store.referentsOf_referentEntries`: the pass over all edges gives each seed just those.
* `Store.nodup_edgesInto`: no two edges of a seed have the same key, so no edge is listed twice.
* `Inverted`: the invariant.
-/

namespace SeedGraph

/-! ### The edges that lead to a seed -/

namespace Store

variable {κ : Type}

/-- The edges of a stored seed. -/
def edgesOf (store : Store κ) (id : SeedId) : List Edge :=
  ((store.get? id).map fun seed => seed.dependencies.edges).getD []

/-- The edges that lead to the seed `target`, in the order of their owners and then of the edges of
an owner. -/
def edgesInto (store : Store κ) (target : SeedId) : List Referent :=
  store.ids.flatMap fun source =>
    ((store.edgesOf source).filter fun edge => edge.target = target).map fun edge =>
      ⟨source, edge.key⟩

/-- All edges of the stored seeds. -/
def allEdges (store : Store κ) : List Edge :=
  store.seeds.flatMap fun seed => seed.dependencies.edges

theorem edgesOf_of_stored {store : Store κ} {id : SeedId} {seed : Seed κ}
    (stored : store.get? id = some seed) : store.edgesOf id = seed.dependencies.edges := by
  rw [edgesOf, stored]
  rfl

theorem map_snd_entries (store : Store κ) : store.entries.map Prod.snd = store.seeds := by
  rw [entries_eq_zip]
  exact List.map_snd_zip (Nat.le_of_eq store.length_ids.symm)

/-- A list made seed by seed is a list made identifier by identifier. -/
theorem flatMap_entries {β : Type} (store : Store κ) {f : SeedId × Seed κ → List β}
    {g : SeedId → List β} (agree : ∀ id seed, store.get? id = some seed → f (id, seed) = g id) :
    store.entries.flatMap f = store.ids.flatMap g := by
  rw [← map_fst_entries, List.flatMap_map]
  refine List.flatMap_congr fun entry hentry => ?_
  exact agree entry.1 entry.2 ((store.mem_entries_iff _ _).1 hentry)

/-- **The pass over all edges turns each of them round.** -/
theorem referentsOf_referentEntries (store : Store κ) (target : SeedId) :
    referentsOf store.referentEntries target = store.edgesInto target := by
  have hentries : store.referentEntries =
      store.ids.flatMap fun source => (store.edgesOf source).map fun edge =>
        (edge.target, ⟨source, edge.key⟩) := by
    refine store.flatMap_entries fun id seed hstored => ?_
    rw [edgesOf_of_stored hstored]
    rfl
  rw [referentsOf, hentries, List.filter_flatMap, List.map_flatMap]
  refine List.flatMap_congr fun source _ => ?_
  rw [List.filter_map, List.map_map]
  rfl

theorem length_edgesInto (store : Store κ) (target : SeedId) :
    (store.edgesInto target).length = store.allEdges.countP fun edge => edge.target = target := by
  have hall : store.allEdges = store.ids.flatMap store.edgesOf := by
    rw [allEdges, ← map_snd_entries, List.flatMap_map]
    exact store.flatMap_entries fun id seed hstored => (edgesOf_of_stored hstored).symm
  rw [hall, edgesInto, List.length_flatMap, List.countP_flatMap]
  congr 1
  refine List.map_congr_left fun source _ => ?_
  rw [Function.comp_apply, List.length_map, List.countP_eq_length_filter]

theorem nodup_ids (store : Store κ) : store.ids.Nodup := by
  refine store.pairwise_ids.imp fun hless => ?_
  rintro rfl
  exact Int.lt_irrefl _ hless

/-- No edge is listed twice. -/
theorem nodup_edgesInto (store : Store κ) (target : SeedId) : (store.edgesInto target).Nodup := by
  refine List.nodup_flatMap.2 ⟨fun source _ => ?_, ?_⟩
  · refine List.Nodup.of_map Referent.key ?_
    rw [List.map_map]
    refine List.Nodup.sublist (List.filter_sublist.map Edge.key) ?_
    cases hstored : store.get? source with
    | none =>
      rw [edgesOf, hstored]
      exact List.nodup_nil
    | some seed =>
      rw [edgesOf_of_stored hstored]
      exact seed.dependencies.distinct
  · refine store.pairwise_ids.imp fun {first second} hless => ?_
    intro referent hfirst hsecond
    obtain ⟨_, -, rfl⟩ := List.mem_map.1 hfirst
    obtain ⟨_, -, heq⟩ := List.mem_map.1 hsecond
    obtain ⟨rfl, -⟩ := Referent.mk.inj heq
    exact Int.lt_irrefl _ hless

/-- The edges into all seeds, seed by seed, are all edges. -/
theorem sum_length_edgesInto {store : Store κ} (targets : store.TargetsStored) :
    (store.ids.map fun id => (store.edgesInto id).length).sum = store.allEdges.length := by
  have hstored : ∀ id ∈ (store.allEdges.map Edge.target : Multiset SeedId),
      id ∈ store.ids.toFinset := by
    intro id hid
    obtain ⟨edge, hedge, rfl⟩ := List.mem_map.1 hid
    obtain ⟨seed, hseed, hown⟩ := List.mem_flatMap.1 hedge
    rw [← map_snd_entries] at hseed
    obtain ⟨⟨source, _⟩, hentry, rfl⟩ := List.mem_map.1 hseed
    rw [List.mem_toFinset, mem_ids_iff]
    exact targets source edge.target
      ⟨_, (store.mem_entries_iff _ _).1 hentry, edge, hown, rfl⟩
  calc (store.ids.map fun id => (store.edgesInto id).length).sum
      = (store.ids.map fun id => (store.allEdges.map Edge.target).count id).sum := by
        congr 1
        refine List.map_congr_left fun id _ => ?_
        rw [length_edgesInto, List.count, List.countP_map]
        rfl
    _ = ∑ id ∈ store.ids.toFinset, (store.allEdges.map Edge.target).count id :=
        (List.sum_toFinset _ store.nodup_ids).symm
    _ = (store.allEdges.map Edge.target).length := by
        simpa using Multiset.sum_count_eq_card hstored
    _ = store.allEdges.length := List.length_map _

/-! ### Stores with the same edges -/

/-- Two stores hold the same edges under the same identifiers. -/
structure SameEdges (store store' : Store κ) : Prop where
  /-- The identifiers. -/
  ids : store'.ids = store.ids
  /-- The edges. -/
  edgesOf : store'.edgesOf = store.edgesOf

theorem SameGraph.sameEdges {store store' : Store κ} (h : store.SameGraph store') :
    store.SameEdges store' := by
  refine ⟨h.ids, ?_⟩
  funext id
  have hdesign := congrFun h.design id
  unfold design? at hdesign
  unfold Store.edgesOf
  cases hstored : store.get? id with
  | none =>
    rw [hstored, Option.map_none, Option.map_eq_none_iff] at hdesign
    rw [hdesign]
  | some seed =>
    rw [hstored, Option.map_some] at hdesign
    obtain ⟨seed', hseed', hsame⟩ := Option.map_eq_some_iff.1 hdesign
    rw [hseed', Option.map_some, Option.map_some, Seed.dependencies_of_design hsame]

theorem sameEdges_record (store : Store κ) (entries : List (SeedId × Referent)) :
    store.SameEdges (store.record entries) := by
  constructor
  · exact ids_congr (store.preexisting_record entries) (store.length_seeds_record entries)
  · funext id
    unfold edgesOf
    rw [get?_record, Option.map_map]
    rfl

namespace SameEdges

variable {store store' : Store κ}

theorem edgesInto (h : store.SameEdges store') : store'.edgesInto = store.edgesInto := by
  funext target
  unfold Store.edgesInto
  rw [h.ids, h.edgesOf]

theorem targetsStored (h : store.SameEdges store') (targets : store.TargetsStored) :
    store'.TargetsStored := by
  rintro source target ⟨seed', hstored', edge, hedge, rfl⟩
  rw [InRange, ← mem_ids_iff, h.ids, mem_ids_iff]
  rw [← edgesOf_of_stored hstored', h.edgesOf] at hedge
  cases hstored : store.get? source with
  | none =>
    rw [Store.edgesOf, hstored] at hedge
    exact absurd hedge List.not_mem_nil
  | some seed =>
    rw [edgesOf_of_stored hstored] at hedge
    exact targets source edge.target ⟨seed, hstored, edge, hedge, rfl⟩

end SameEdges

end Store

/-! ### The invariant -/

/-- The referents of a session are the edges of a complete graph, turned round. -/
structure Inverted (gen : Session) : Prop where
  /-- As long as the graph is not complete there are no referents. -/
  blank : gen.finalized = false → ∀ id seed, gen.store.get? id = some seed → seed.referents = []
  /-- The referents of a complete graph are the edges that lead to a seed. -/
  inverse : gen.finalized = true → ∀ id seed, gen.store.get? id = some seed →
    seed.referents = gen.store.edgesInto id
  /-- The edges of a complete graph lead to stored seeds. -/
  targets : gen.finalized = true → gen.store.TargetsStored

namespace Inverted

variable {gen gen' : Session}

/-- The seeds are the same, apart from results and payloads. -/
theorem keep (h : Inverted gen) (same : gen.store.SameGraph gen'.store)
    (finalized : gen'.finalized = gen.finalized) : Inverted gen' := by
  refine ⟨fun hopen id seed' hstored => ?_, fun hcomplete id seed' hstored => ?_,
    fun hcomplete => ?_⟩
  · obtain ⟨seed, hseed, hdesign⟩ := same.stored hstored
    rw [← Seed.referents_of_design hdesign]
    exact h.blank (finalized ▸ hopen) id seed hseed
  · obtain ⟨seed, hseed, hdesign⟩ := same.stored hstored
    rw [← Seed.referents_of_design hdesign, same.sameEdges.edgesInto]
    exact h.inverse (finalized ▸ hcomplete) id seed hseed
  · exact same.sameEdges.targetsStored (h.targets (finalized ▸ hcomplete))

/-- A seed of an open graph gets other edges. -/
theorem setDependencies (h : Inverted gen) (opened : gen.finalized = false) {id : SeedId}
    {seed : Seed Hook} (stored : gen.store.get? id = some seed) (dependencies : Dependencies) :
    Inverted (gen.withSeed id { seed with dependencies }) := by
  have hclosed : (gen.withSeed id { seed with dependencies }).finalized ≠ true := by
    show gen.finalized ≠ true
    rw [opened]
    simp
  have hstored : ∀ other found,
      (gen.withSeed id { seed with dependencies }).store.get? other = some found →
        found = { seed with dependencies } ∨ gen.store.get? other = some found := by
    intro other found hfound
    unfold Generator.withSeed at hfound
    rw [gen.store.get?_set _ _ _ (by rw [stored]; rfl)] at hfound
    by_cases heq : id = other
    · rw [if_pos heq, Option.some.injEq] at hfound
      exact .inl hfound.symm
    · rw [if_neg heq] at hfound
      exact .inr hfound
  refine ⟨fun _ other found hfound => ?_,
    fun hcomplete => absurd hcomplete hclosed, fun hcomplete => absurd hcomplete hclosed⟩
  rcases hstored other found hfound with rfl | hfound
  · exact h.blank opened id seed stored
  · exact h.blank opened other found hfound

/-- A seed is registered. -/
theorem enroll (h : Inverted gen) (opened : gen.finalized = false) (blueprint : Blueprint Hook) :
    Inverted (gen.enroll ⟨gen.upper⟩ (blueprint.registered ⟨gen.upper⟩)) := by
  have hclosed :
      (gen.enroll ⟨gen.upper⟩ (blueprint.registered ⟨gen.upper⟩)).finalized ≠ true := by
    show gen.finalized ≠ true
    rw [opened]
    simp
  have hstored : ∀ id seed,
      (gen.store.push (blueprint.registered ⟨gen.upper⟩)).get? id = some seed →
        seed = blueprint.registered ⟨gen.upper⟩ ∨ gen.store.get? id = some seed := by
    intro id seed hseed
    rw [gen.store.get?_push] at hseed
    by_cases heq : id.index = gen.store.upper
    · rw [if_pos heq, Option.some.injEq] at hseed
      exact .inl hseed.symm
    · rw [if_neg heq] at hseed
      exact .inr hseed
  refine ⟨fun _ id seed hseed => ?_,
    fun hcomplete => absurd hcomplete hclosed, fun hcomplete => absurd hcomplete hclosed⟩
  rcases hstored id seed hseed with rfl | hseed
  · rfl
  · exact h.blank opened id seed hseed

/-- The graph is completed, and every edge is noted at its target. -/
theorem completed (h : Inverted gen) (opened : gen.finalized = false)
    (targets : gen.store.TargetsStored) : Inverted gen.completed := by
  have hsame := gen.store.sameEdges_record gen.store.referentEntries
  have hstored : ∀ id seed', gen.completed.store.get? id = some seed' →
      ∃ seed, gen.store.get? id = some seed ∧ seed.gain (gen.store.edgesInto id) = seed' := by
    intro id seed' hseed'
    unfold Generator.completed at hseed'
    dsimp only at hseed'
    rw [Store.get?_record, Store.referentsOf_referentEntries] at hseed'
    exact Option.map_eq_some_iff.1 hseed'
  refine ⟨fun hopen => absurd hopen (by simp [Generator.completed]),
    fun _ id seed' hseed' => ?_, fun _ => hsame.targetsStored targets⟩
  obtain ⟨seed, hseed, rfl⟩ := hstored id seed' hseed'
  show seed.referents ++ gen.store.edgesInto id = _
  rw [h.blank opened id seed hseed, List.nil_append]
  exact (congrFun hsame.edgesInto id).symm

/-- **Every move keeps referents and edges in step.** -/
theorem move (h : Inverted gen) (move : Move gen gen') : Inverted gen' := by
  cases move with
  | register blueprint opened _ _ => exact h.enroll opened blueprint
  | addEdge key target opened stored =>
    exact h.setDependencies opened stored _
  | addOrdering target opened stored =>
    exact h.setDependencies opened stored _
  | complete opened targets _ =>
    exact h.completed opened ((Store.firstDangling?_eq_none_iff _).1 targets)
  | setPayload _ stored => exact h.keep (.set stored rfl) rfl
  | bind stored _ => exact h.keep (.set stored rfl) rfl
  | write _ _ stored _ => exact h.keep (.set stored rfl) rfl
  | _ => exact h.keep (.refl _) rfl

/-- No seed of a new session has referents. -/
theorem ofBlueprints (settings : Settings) (platform : Platform)
    (blueprints : List (Blueprint Hook)) :
    Inverted (Generator.ofStore settings platform (.ofBlueprints blueprints)) := by
  have hopen :
      (Generator.ofStore settings platform (.ofBlueprints blueprints)).finalized ≠ true := by
    simp [Generator.ofStore]
  refine ⟨fun _ id seed hstored => ?_,
    fun hcomplete => absurd hcomplete hopen, fun hcomplete => absurd hcomplete hopen⟩
  obtain ⟨blueprint, -, rfl⟩ := Store.exists_of_get?_ofBlueprints hstored
  rfl

/-- In a complete graph as many referents are recorded as there are edges. -/
theorem sum_referents (h : Inverted gen) (complete : gen.finalized = true) :
    (gen.store.seeds.map fun seed => seed.referents.length).sum = gen.store.allEdges.length := by
  rw [← Store.sum_length_edgesInto (h.targets complete), ← Store.map_snd_entries,
    ← Store.map_fst_entries, List.map_map, List.map_map]
  congr 1
  refine List.map_congr_left fun entry hentry => ?_
  rw [Function.comp_apply, Function.comp_apply]
  exact congrArg List.length
    (h.inverse complete entry.1 entry.2 ((Store.mem_entries_iff _ _ _).1 hentry))

end Inverted

/-- **At every moment of every run referents and edges are in step.** -/
theorem Reachable.inverted {gen : Session} (h : Reachable gen) : Inverted gen := by
  refine h.induction (fun settings candidates origin created => ?_) fun _ _ hbefore move =>
    hbefore.move move
  obtain ⟨platform, blueprints, -, -, -, rfl⟩ := createWith_eq_ok created
  exact .ofBlueprints settings platform blueprints

/-- **Referents are the edges, turned round.**  Requests lead a new session from moment to moment.
At each of these, also in the middle of a hook and after any failure:

* as long as the graph is not complete, no seed has referents;
* once it is complete, the referents of a stored seed are the edges that lead to it, in ascending
  order of their owners and for each owner in the order of its edges, and each of them once; so the
  number of referents is the number of those edges, and over all seeds it is the number of all
  edges;
* an attempt to complete the graph that fails leaves the session as it was. -/
theorem Session.referents_invert_edges {settings : Settings}
    {candidates : List (Candidate (Blueprint Hook))} {origin : Session}
    (created : createWith settings candidates = .ok origin) :
    (∀ requests, Moves origin (origin.run requests)) ∧
    ∀ moment, Moves origin moment →
      (moment.finalized = false → ∀ id seed, moment.store.get? id = some seed →
        seed.referents = []) ∧
      (moment.finalized = true →
        (∀ id seed, moment.store.get? id = some seed →
          seed.referents = moment.store.edgesInto id ∧ seed.referents.Nodup ∧
          (Generator.referentCount id).run moment =
            .ok (moment.store.allEdges.countP fun edge => edge.target = id) moment) ∧
        (moment.store.seeds.map fun seed => seed.referents.length).sum =
          moment.store.allEdges.length) ∧
      ∀ failure later, Generator.finalize.run moment = .error failure later → later = moment := by
  refine ⟨moves_run created, fun moment hmoment => ?_⟩
  have hinverted : Inverted moment :=
    Reachable.inverted ⟨settings, candidates, origin, created, hmoment⟩
  refine ⟨hinverted.blank, fun hcomplete => ⟨fun id seed hstored => ?_,
    hinverted.sum_referents hcomplete⟩, fun failure later hfail => ?_⟩
  · have hinverse := hinverted.inverse hcomplete id seed hstored
    refine ⟨hinverse, ?_, ?_⟩
    · rw [hinverse]
      exact Store.nodup_edgesInto _ id
    · rw [Generator.run_referentCount hcomplete hstored, hinverse, Store.length_edgesInto]
  · obtain ⟨reason, hrun⟩ | ⟨-, -, -, hrun⟩ := Generator.finalize_cases moment
    · rw [hrun] at hfail
      injection hfail with _ hsame
      exact hsame.symm
    · rw [hrun] at hfail
      exact absurd hfail (by simp)

/-- Two edges of one seed lead to the same target, after a third one that was replaced. -/
theorem Session.referents_invert_edges_parallel :
    let target : Blueprint Hook := { kind := "target", hook := [] }
    let owner : Blueprint Hook := {
      kind := "owner"
      edges := [⟨.named "left", ⟨1⟩⟩, ⟨.named "right", ⟨0⟩⟩, ⟨.named "left", ⟨0⟩⟩]
      hook := [] }
    let requests : List Request :=
      [.register (.seed target), .register (.seed owner), .finalize]
    (blank.run requests).finalized = true ∧
    ((blank.run requests).store.get? ⟨0⟩).map Seed.referents =
      some [⟨⟨1⟩, .named "left"⟩, ⟨⟨1⟩, .named "right"⟩] ∧
    ∀ seed, (blank.run requests).store.get? ⟨0⟩ = some seed →
      seed.referents = (blank.run requests).store.edgesInto ⟨0⟩ ∧ seed.referents.Nodup := by
  obtain ⟨hmoves, hmoments⟩ := referents_invert_edges createWith_blank
  refine ⟨by decide +kernel, by decide +kernel, fun seed hstored => ?_⟩
  have hinverse := ((hmoments _ (hmoves _)).2.1 (by decide +kernel)).1 _ seed hstored
  exact ⟨hinverse.1, hinverse.2.1⟩

end SeedGraph
