import SeedGraph.Proofs.CycleSearch
import SeedGraph.Proofs.Referents

/-!
# Which graphs are accepted

A graph is accepted as complete if every edge leads to a stored seed and, unless the settings allow
cycles, no seed depends on itself, directly or through others.  These conditions are stated here
about the edges alone.  The search that decides the first one goes through the edges in order and
reports the first edge that breaks it; the search that decides the second one works on the graph of
arrows, which run against the edges.

* `Store.firstDangling?_eq_some_iff`, `Store.firstDangling?_eq_none_iff`: missing targets.
* `Store.leadsTo_eq`: the arrows of the graph are the edges, turned round.
* `Generator.finalize_accepts_exactly`: which graphs are accepted, and which edge is reported.
* `Generator.finalize_reports_cycle`: when a cycle is reported, and that the seed named there is on
  it.
-/

namespace SeedGraph

namespace Store

variable {κ : Type}

/-! ### Conditions on the edges -/

/-- The identifier lies in the range of the stored ones. -/
def InRange (store : Store κ) (id : SeedId) : Prop :=
  store.lower ≤ id.index ∧ id.index < store.upper

/-- The seed `source` has an edge to `target`, for data or for order only. -/
def DependsOn (store : Store κ) (source target : SeedId) : Prop :=
  ∃ seed, store.get? source = some seed ∧ ∃ edge ∈ seed.dependencies.edges, edge.target = target

theorem mem_edgeEnds_iff (store : Store κ) (source target : SeedId) :
    (source, target) ∈ store.edgeEnds ↔ store.DependsOn source target := by
  simp only [edgeEnds, DependsOn, List.mem_flatMap, Prod.exists, List.mem_map, Prod.mk.injEq,
    mem_entries_iff]
  constructor
  · rintro ⟨_, seed, stored, edge, hedge, rfl, htarget⟩
    exact ⟨seed, stored, edge, hedge, htarget⟩
  · rintro ⟨seed, stored, edge, hedge, htarget⟩
    exact ⟨source, seed, stored, edge, hedge, rfl, htarget⟩

instance (store : Store κ) (source target : SeedId) : Decidable (store.DependsOn source target) :=
  decidable_of_iff _ (store.mem_edgeEnds_iff source target)

/-- Every edge leads to a stored seed. -/
def TargetsStored (store : Store κ) : Prop :=
  ∀ source target, store.DependsOn source target → store.InRange target

/-- No seed depends on itself, directly or through others. -/
def Acyclic (store : Store κ) : Prop :=
  ∀ id, ¬ Relation.TransGen store.DependsOn id id

/-- The edge is one of the seed `source` and leads to a missing seed; the edges before it, which are
those of smaller seeds and the earlier ones of the same seed, do not. -/
structure FirstMissing (store : Store κ) (source : SeedId) (edge : Edge) : Prop where
  /-- The target is not stored. -/
  missing : ¬ store.InRange edge.target
  /-- The edges of smaller seeds lead to stored seeds. -/
  smaller : ∀ id target, id.index < source.index → store.DependsOn id target → store.InRange target
  /-- The earlier edges of the same seed lead to stored seeds. -/
  earlier : ∃ seed before after, store.get? source = some seed ∧
    seed.dependencies.edges = before ++ edge :: after ∧ ∀ other ∈ before, store.InRange other.target

/-! ### Missing targets -/

theorem contains_iff (store : Store κ) (id : SeedId) :
    store.contains id = true ↔ store.InRange id :=
  store.get?_isSome_iff id

theorem inRange_of_get? {store : Store κ} {id : SeedId} {seed : Seed κ}
    (stored : store.get? id = some seed) : store.InRange id := by
  rw [← contains_iff, contains, stored]
  rfl

/-- Identifiers are listed in ascending order. -/
theorem pairwise_ids (store : Store κ) : store.ids.Pairwise fun a b => a.index < b.index := by
  rw [ids, List.pairwise_map]
  refine List.pairwise_lt_range.imp fun hlt => ?_
  simp only [idAt]
  omega

theorem map_fst_entries (store : Store κ) : store.entries.map Prod.fst = store.ids := by
  rw [entries_eq_zip]
  exact List.map_fst_zip (Nat.le_of_eq store.length_ids)

theorem pairwise_entries (store : Store κ) :
    store.entries.Pairwise fun a b => a.1.index < b.1.index := by
  have hids := store.pairwise_ids
  rw [← map_fst_entries, List.pairwise_map] at hids
  exact hids

/-- The search for a missing target goes from seed to seed. -/
theorem firstDangling?_eq (store : Store κ) :
    store.firstDangling? = store.entries.findSome? fun entry =>
      (entry.2.dependencies.edges.find? fun edge => !store.contains edge.target).map
        fun edge => (entry.1, edge.target) := by
  rw [firstDangling?, edgeEnds, List.find?_flatMap]
  congr 1
  funext entry
  rw [List.find?_map]
  rfl

/-- The search in one seed finds nothing just if the edges of that seed lead to stored seeds. -/
theorem find?_missing_eq_none_iff (store : Store κ) (edges : List Edge) :
    (edges.find? fun edge => !store.contains edge.target) = none ↔
      ∀ edge ∈ edges, store.InRange edge.target := by
  simp only [List.find?_eq_none, Bool.not_eq_true', Bool.not_eq_false, contains_iff]

theorem firstDangling?_eq_none_iff (store : Store κ) :
    store.firstDangling? = none ↔ store.TargetsStored := by
  rw [firstDangling?_eq, List.findSome?_eq_none_iff]
  constructor
  · rintro h source target ⟨seed, hstored, edge, hedge, rfl⟩
    have hnone := h (source, seed) ((store.mem_entries_iff source seed).2 hstored)
    rw [Option.map_eq_none_iff, find?_missing_eq_none_iff] at hnone
    exact hnone edge hedge
  · rintro h ⟨source, seed⟩ hentry
    have hstored := (store.mem_entries_iff source seed).1 hentry
    rw [Option.map_eq_none_iff, find?_missing_eq_none_iff]
    intro edge hedge
    exact h source edge.target ⟨seed, hstored, edge, hedge, rfl⟩

/-- **The edge that is reported is the first one whose target is missing.** -/
theorem firstDangling?_eq_some_iff (store : Store κ) (source target : SeedId) :
    store.firstDangling? = some (source, target) ↔
      ∃ edge, store.FirstMissing source edge ∧ edge.target = target := by
  rw [firstDangling?_eq, List.findSome?_eq_some_iff]
  constructor
  · rintro ⟨front, ⟨id, seed⟩, back, hsplit, hfound, hfront⟩
    obtain ⟨edge, hedge, heq⟩ := Option.map_eq_some_iff.1 hfound
    obtain ⟨rfl, rfl⟩ := Prod.mk.inj heq
    obtain ⟨hmissing, before, after, hedges, hbefore⟩ := List.find?_eq_some_iff_append.1 hedge
    have hascending := store.pairwise_entries
    rw [hsplit, List.pairwise_append, List.pairwise_cons] at hascending
    refine ⟨edge, ⟨?_, ?_, seed, before, after, ?_, hedges, ?_⟩, rfl⟩
    · rw [← contains_iff]
      simpa using hmissing
    -- A smaller seed stands in front, where the search found nothing.
    · rintro other target hless ⟨found, hstored, later, hlater, rfl⟩
      have hmem := (store.mem_entries_iff other found).2 hstored
      rw [hsplit, List.mem_append, List.mem_cons] at hmem
      rcases hmem with hmem | heq | hmem
      · have hnone := hfront _ hmem
        rw [Option.map_eq_none_iff, find?_missing_eq_none_iff] at hnone
        exact hnone later hlater
      · obtain ⟨rfl, -⟩ := Prod.mk.inj heq
        exact absurd hless (Int.lt_irrefl _)
      · have hgreater := hascending.2.1.1 _ hmem
        exact absurd hless (Int.lt_asymm hgreater)
    · rw [← mem_entries_iff, hsplit]
      simp
    · intro other hother
      rw [← contains_iff]
      simpa using hbefore other hother
  · rintro ⟨edge, ⟨hmissing, hsmaller, seed, before, after, hstored, hedges, hbefore⟩, rfl⟩
    obtain ⟨front, back, hsplit⟩ :=
      List.append_of_mem ((store.mem_entries_iff source seed).2 hstored)
    have hascending := store.pairwise_entries
    rw [hsplit, List.pairwise_append] at hascending
    refine ⟨front, (source, seed), back, hsplit, ?_, ?_⟩
    · refine Option.map_eq_some_iff.2 ⟨edge, List.find?_eq_some_iff_append.2 ⟨?_, ?_⟩, rfl⟩
      · rw [← contains_iff] at hmissing
        simpa using hmissing
      · refine ⟨before, after, hedges, fun other hother => ?_⟩
        have hstored := hbefore other hother
        rw [← contains_iff] at hstored
        simpa using hstored
    · rintro ⟨id, other⟩ hmem
      have hless : id.index < source.index := hascending.2.2 _ hmem _ List.mem_cons_self
      have hother : store.get? id = some other := by
        rw [← mem_entries_iff, hsplit]
        exact List.mem_append_left _ hmem
      rw [Option.map_eq_none_iff, find?_missing_eq_none_iff]
      intro later hlater
      exact hsmaller id later.target hless ⟨other, hother, later, hlater, rfl⟩

/-- If some target is missing, there is a first one. -/
theorem exists_firstMissing {store : Store κ} (h : ¬ store.TargetsStored) :
    ∃ source edge, store.FirstMissing source edge := by
  rw [← firstDangling?_eq_none_iff] at h
  obtain ⟨⟨source, target⟩, hends⟩ := Option.ne_none_iff_exists'.1 h
  obtain ⟨edge, hfirst, -⟩ := (store.firstDangling?_eq_some_iff source target).1 hends
  exact ⟨source, edge, hfirst⟩

/-! ### Cycles -/

/-- The arrows of the graph: an edge to a stored seed, turned round. -/
theorem mem_arrows_iff (store : Store κ) (source target : SeedId) :
    (∃ arrow ∈ store.dependencyGraph.arrows, arrow.source = source ∧ arrow.target = target) ↔
      store.DependsOn target source ∧ store.InRange source := by
  constructor
  · rintro ⟨arrow, harrow, rfl, rfl⟩
    obtain ⟨⟨id, seed⟩, hentry, hinto⟩ := List.mem_flatMap.1 harrow
    obtain ⟨edge, hedge, rfl⟩ := List.mem_map.1 hinto
    obtain ⟨hmem, hstored⟩ := List.mem_filter.1 hedge
    exact ⟨⟨seed, (store.mem_entries_iff id seed).1 hentry, edge, hmem, rfl⟩,
      (store.contains_iff _).1 hstored⟩
  · rintro ⟨⟨seed, hstored, edge, hedge, rfl⟩, hrange⟩
    refine ⟨⟨edge.target, target, edge.key.kind⟩, List.mem_flatMap.2 ⟨(target, seed), ?_, ?_⟩,
      rfl, rfl⟩
    · exact (store.mem_entries_iff target seed).2 hstored
    · refine List.mem_map.2 ⟨edge, List.mem_filter.2 ⟨hedge, ?_⟩, rfl⟩
      exact (store.contains_iff _).2 hrange

theorem mem_successors_iff (store : Store κ) (source target : SeedId) :
    target ∈ store.dependencyGraph.successors source ↔
      store.DependsOn target source ∧ store.InRange source := by
  rw [← mem_arrows_iff]
  simp [DependencyGraph.successors, and_assoc]

theorem mem_predecessors_iff (store : Store κ) (source target : SeedId) :
    source ∈ store.dependencyGraph.predecessors target ↔
      store.DependsOn target source ∧ store.InRange source := by
  rw [← mem_arrows_iff]
  simp only [DependencyGraph.predecessors, List.mem_map, List.mem_filter, decide_eq_true_eq]
  constructor
  · rintro ⟨arrow, ⟨harrow, htarget⟩, hsource⟩
    exact ⟨arrow, harrow, hsource, htarget⟩
  · rintro ⟨arrow, harrow, hsource, htarget⟩
    exact ⟨arrow, ⟨harrow, htarget⟩, hsource⟩

/-- If every target is stored, the arrows are the edges, turned round. -/
theorem leadsTo_eq {store : Store κ} (targets : store.TargetsStored) :
    Cycle.LeadsTo store.dependencyGraph.successors = Function.swap store.DependsOn := by
  funext source target
  rw [Cycle.LeadsTo, mem_successors_iff, eq_iff_iff]
  show _ ↔ store.DependsOn target source
  exact and_iff_left_of_imp fun hdepends => targets _ _ hdepends

theorem mem_predecessors_iff_mem_successors (store : Store κ) (source target : SeedId) :
    source ∈ store.dependencyGraph.predecessors target ↔
      target ∈ store.dependencyGraph.successors source := by
  rw [mem_predecessors_iff, mem_successors_iff]

/-- Both ends of an arrow are stored. -/
theorem mem_nodes_of_mem_successors {store : Store κ} {source target : SeedId}
    (harrow : target ∈ store.dependencyGraph.successors source) :
    source ∈ store.dependencyGraph.nodes ∧ target ∈ store.dependencyGraph.nodes := by
  obtain ⟨⟨seed, hstored, -⟩, hrange⟩ := (store.mem_successors_iff source target).1 harrow
  exact ⟨(store.mem_ids_iff source).2 hrange,
    (store.mem_ids_iff target).2 (inRange_of_get? hstored)⟩

/-- **A seed that is reported depends on itself**, directly or through others. -/
theorem transGen_of_cycleVertex? {store : Store κ} {id : SeedId}
    (reported : store.dependencyGraph.cycleVertex? = some id) :
    Relation.TransGen store.DependsOn id id := by
  have hcycle := Cycle.find?_eq_some (fun _ _ harrow => (mem_nodes_of_mem_successors harrow).2)
    store.mem_predecessors_iff_mem_successors
    (fun _ _ harrow => (mem_nodes_of_mem_successors harrow).1) reported
  have hback : Cycle.LeadsTo store.dependencyGraph.successors ≤ Function.swap store.DependsOn :=
    fun source target harrow => ((store.mem_successors_iff source target).1 harrow).1
  rw [← Relation.transGen_swap]
  exact Relation.TransGen.mono hback id id hcycle

/-- **A seed is reported just if some seed depends on itself.** -/
theorem cycleVertex?_eq_none_iff {store : Store κ} (targets : store.TargetsStored) :
    store.dependencyGraph.cycleVertex? = none ↔ store.Acyclic := by
  constructor
  · intro hnone id hcycle
    have hfree := Cycle.not_cycle_of_find?_eq_none
      (fun _ _ harrow => (mem_nodes_of_mem_successors harrow).2)
      store.mem_predecessors_iff_mem_successors hnone id
    rw [leadsTo_eq targets, Relation.transGen_swap] at hfree
    exact hfree hcycle
  · intro hacyclic
    cases hfound : store.dependencyGraph.cycleVertex? with
    | none => rfl
    | some id => exact absurd (transGen_of_cycleVertex? hfound) (hacyclic id)

end Store

namespace Generator

variable {κ : Type}

theorem forbiddenCycle?_eq_none_iff {gen : Generator κ} (targets : gen.store.TargetsStored) :
    gen.forbiddenCycle? = none ↔ (gen.settings.checkCycles = true → gen.store.Acyclic) := by
  rw [forbiddenCycle?]
  by_cases hcheck : gen.settings.checkCycles = true
  · rw [if_pos hcheck, Store.cycleVertex?_eq_none_iff targets]
    exact ⟨fun hacyclic _ => hacyclic, fun hacyclic => hacyclic hcheck⟩
  · rw [if_neg hcheck]
    exact ⟨fun _ hchecked => absurd hchecked hcheck, fun _ => rfl⟩

/-- **Which graphs are accepted.**  Whatever the state of a session:

* completing its graph succeeds just if the graph was not complete, every edge, for data or for
  order, leads to a stored seed, and no seed depends on itself, unless the settings allow that;
* an edge to a missing seed is reported just if the graph was not complete and the edge is the first
  of its kind, in the order of the seeds and then of the edges of a seed, whether or not there is
  also a cycle; and there is a first one whenever some target is missing. -/
theorem finalize_accepts_exactly (gen : Generator κ) :
    ((∃ gen', finalize.run gen = .ok () gen') ↔
      gen.finalized = false ∧ gen.store.TargetsStored ∧
        (gen.settings.checkCycles = true → gen.store.Acyclic)) ∧
    (∀ source target, finalize.run gen = .error (.danglingDependency source target) gen ↔
      gen.finalized = false ∧ ∃ edge, gen.store.FirstMissing source edge ∧ edge.target = target) ∧
    (¬ gen.store.TargetsStored → ∃ source edge, gen.store.FirstMissing source edge) := by
  refine ⟨?_, fun source target => ?_, Store.exists_firstMissing⟩
  · rw [run_finalize, ← Store.firstDangling?_eq_none_iff]
    cases gen.finalized with
    | true => simp
    | false =>
      cases hdangling : gen.store.firstDangling? with
      | some ends => simp
      | none =>
        have htargets := (gen.store.firstDangling?_eq_none_iff).1 hdangling
        rw [← forbiddenCycle?_eq_none_iff htargets]
        cases gen.forbiddenCycle? with
        | some id => simp
        | none => simp
  · rw [run_finalize, ← Store.firstDangling?_eq_some_iff]
    cases gen.finalized with
    | true => simp
    | false =>
      cases gen.store.firstDangling? with
      | some ends => simp [Prod.ext_iff]
      | none => cases gen.forbiddenCycle? <;> simp

theorem forbiddenCycle?_eq_some_iff {gen : Generator κ} {id : SeedId} :
    gen.forbiddenCycle? = some id ↔
      gen.settings.checkCycles = true ∧ gen.store.dependencyGraph.cycleVertex? = some id := by
  rw [forbiddenCycle?, Option.ite_none_right_eq_some]

/-- A cycle is the last thing that is looked for. -/
theorem run_finalize_eq_cyclic_iff {gen gen' : Generator κ} {id : SeedId} :
    finalize.run gen = .error (.cyclicDependency id) gen' ↔
      gen' = gen ∧ gen.finalized = false ∧ gen.store.TargetsStored ∧
        gen.forbiddenCycle? = some id := by
  rw [run_finalize, ← Store.firstDangling?_eq_none_iff]
  cases gen.finalized with
  | true => simp
  | false =>
    cases gen.store.firstDangling? with
    | some ends => simp
    | none =>
      cases gen.forbiddenCycle? with
      | some found => simp [and_comm, eq_comm]
      | none => simp

/-- **The cycle that is reported is real.**  Whatever the state of a session:

* if completing its graph fails because of a cycle through `id`, then `id` is a stored seed that
  lies on a cycle itself: a path of one or more edges, for data or for order, leads from `id` back
  to `id`.  The session is what it was;
* it fails so just if the graph was not complete, no edge leads to a missing seed, the settings do
  not allow cycles, and there is one. -/
theorem finalize_reports_cycle (gen : Generator κ) :
    (∀ id gen', finalize.run gen = .error (.cyclicDependency id) gen' →
      gen' = gen ∧ (∃ seed, gen.store.get? id = some seed) ∧
        Relation.TransGen gen.store.DependsOn id id) ∧
    ((∃ id, finalize.run gen = .error (.cyclicDependency id) gen) ↔
      gen.finalized = false ∧ gen.store.TargetsStored ∧ gen.settings.checkCycles = true ∧
        ∃ id, Relation.TransGen gen.store.DependsOn id id) := by
  constructor
  · intro id gen' hreported
    obtain ⟨hsame, -, -, hfound⟩ := run_finalize_eq_cyclic_iff.1 hreported
    have hcycle := Store.transGen_of_cycleVertex? (forbiddenCycle?_eq_some_iff.1 hfound).2
    -- The first edge of the cycle belongs to the seed that is reported, so the seed is stored.
    obtain ⟨next, ⟨seed, hstored, -⟩, -⟩ := Relation.TransGen.head'_iff.1 hcycle
    exact ⟨hsame, ⟨seed, hstored⟩, hcycle⟩
  · constructor
    · rintro ⟨id, hreported⟩
      obtain ⟨-, hopen, htargets, hfound⟩ := run_finalize_eq_cyclic_iff.1 hreported
      obtain ⟨hchecked, hvertex⟩ := forbiddenCycle?_eq_some_iff.1 hfound
      exact ⟨hopen, htargets, hchecked, id, Store.transGen_of_cycleVertex? hvertex⟩
    · rintro ⟨hopen, htargets, hchecked, id, hcycle⟩
      have hsome : gen.forbiddenCycle? ≠ none := by
        rw [ne_eq, forbiddenCycle?_eq_none_iff htargets]
        exact fun hacyclic => hacyclic hchecked id hcycle
      obtain ⟨found, hfound⟩ := Option.ne_none_iff_exists'.1 hsome
      exact ⟨found, run_finalize_eq_cyclic_iff.2 ⟨rfl, hopen, htargets, hfound⟩⟩

end Generator

/-- Three seeds in a circle, with a seed before it that depends on the circle and one behind it that
the circle depends on: the seed that is reported belongs to the circle. -/
theorem Session.finalize_reports_cycle_between :
    let seed (targets : List Int) : Blueprint Hook := {
      kind := "seed"
      edges := targets.zipIdx.map fun (target, k) => ⟨.arg (UInt16.ofNat k), ⟨target⟩⟩
      hook := [.text "x", .setResult, .proceed] }
    let requests : List Request := [.register (.seed (seed [1])), .register (.seed (seed [2])),
      .register (.seed (seed [4, 3])), .register (.seed (seed [1])), .register (.seed (seed []))]
    let gen := blank.run requests
    Generator.finalize.run gen = .error (.cyclicDependency ⟨2⟩) gen ∧
    Relation.TransGen gen.store.DependsOn ⟨2⟩ ⟨2⟩ := by
  intro seed requests
  have hopen : (blank.run requests).finalized = false := by decide +kernel
  have htargets : (blank.run requests).store.firstDangling? = none := by decide +kernel
  have hfound : (blank.run requests).forbiddenCycle? = some ⟨2⟩ := by decide +kernel
  have hreported : Generator.finalize.run (blank.run requests) =
      .error (.cyclicDependency ⟨2⟩) (blank.run requests) :=
    Generator.run_finalize_eq_cyclic_iff.2
      ⟨rfl, hopen, (Store.firstDangling?_eq_none_iff _).1 htargets, hfound⟩
  have hcycle := (Generator.finalize_reports_cycle (blank.run requests)).1 ⟨2⟩ _ hreported
  exact ⟨hreported, hcycle.2.2⟩

end SeedGraph
