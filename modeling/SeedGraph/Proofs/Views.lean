import SeedGraph.Generator.Report
import SeedGraph.Graph.Dot
import SeedGraph.Proofs.Inverse
import SeedGraph.Proofs.Ledger
import SeedGraph.Proofs.Program.Walk

/-!
# The views of a session agree

The edges of a session can be seen in three ways that are computed apart from each other: as arrows
between the numbered nodes of the dependency graph, as the edges that the rows of the report list at
their owners, and as the referents that the rows list at their targets.  Each of them is compared
here with one list, `Store.edgesInto`, which reads the edges off the stored seeds.

An edge to a seed that is not stored has no arrow, so the graph follows the stored edges only; in a
complete graph there are no others.  The first two views agree at every moment, the third as soon as
the graph is complete.

* `Store.leaving_dependencyGraph`, `Generator.entriesTo_report`, `Inverted.otherEnds_referents`: the
  three views of the edges that lead to one seed.
* `DependencyGraph.readBack`: the arrows as they are found through the numbers of their ends.
* `Ledger.boundTo_iff`: the local in the row of a seed is the one that the report lists.
-/

namespace SeedGraph

/-! ### Readings of the views -/

/-- The other end of an edge and its kind, as a row of the report gives them. -/
def EdgeRow.otherEnd (row : EdgeRow) : SeedId × EdgeKind :=
  (row.seed, row.kind)

/-- The seed that depends and the kind of the edge. -/
def Referent.otherEnd (referent : Referent) : SeedId × EdgeKind :=
  (referent.source, referent.key.kind)

namespace DependencyGraph

/-- The arrows that leave a node, each as the node where it ends and its kind. -/
def leaving (graph : DependencyGraph) (node : SeedId) : List (SeedId × EdgeKind) :=
  (graph.arrows.filter fun arrow => arrow.source = node).map fun arrow => (arrow.target, arrow.kind)

/-- The arrows in order, each end looked up among the nodes under its number. -/
def readBack (graph : DependencyGraph) : List (Option SeedId × Option SeedId × EdgeKind) :=
  graph.arrows.map fun arrow =>
    (graph.nodes[graph.numberOf arrow.source]?, graph.nodes[graph.numberOf arrow.target]?,
      arrow.kind)

end DependencyGraph

namespace Report

/-- The edges to a seed that the rows list at their owners, each as its owner and its kind. -/
def entriesTo (report : Report) (target : SeedId) : List (SeedId × EdgeKind) :=
  report.seeds.flatMap fun row =>
    (row.dependencies.filter fun edge => edge.seed = target).map fun edge => (row.id, edge.kind)

/-- The listed locals of a seed. -/
def bindingsOf (report : Report) (id : SeedId) : List Binding :=
  report.bindings.filter fun binding => binding.seed = id

end Report

/-! ### The graph -/

namespace Store

variable {κ : Type}

/-- The edges of a seed that lead to stored seeds. -/
def innerEdges (store : Store κ) (source : SeedId) : List Edge :=
  (store.edgesOf source).filter fun edge => edge.target ∈ store.ids

theorem contains_eq_mem_ids (store : Store κ) (id : SeedId) :
    store.contains id = decide (id ∈ store.ids) := by
  rw [Bool.eq_iff_iff, contains, get?_isSome_iff, decide_eq_true_iff, mem_ids_iff]

theorem arrows_dependencyGraph (store : Store κ) :
    store.dependencyGraph.arrows = store.ids.flatMap fun source =>
      (store.innerEdges source).map fun edge => ⟨edge.target, source, edge.key.kind⟩ := by
  refine store.flatMap_entries fun id seed stored => ?_
  rw [innerEdges, edgesOf_of_stored stored]
  simp only [arrowsInto, contains_eq_mem_ids]

/-- The ends of an arrow are stored. -/
theorem mem_ids_of_arrow {store : Store κ} {arrow : Arrow}
    (mem : arrow ∈ store.dependencyGraph.arrows) :
    arrow.source ∈ store.ids ∧ arrow.target ∈ store.ids := by
  rw [arrows_dependencyGraph] at mem
  obtain ⟨source, hsource, hedge⟩ := List.mem_flatMap.1 mem
  obtain ⟨edge, hinner, rfl⟩ := List.mem_map.1 hedge
  exact ⟨of_decide_eq_true (List.mem_filter.1 hinner).2, hsource⟩

/-- The numbers of the nodes start at the least index. -/
theorem numberOf_dependencyGraph (store : Store κ) {id : SeedId} (mem : id ∈ store.ids) :
    store.dependencyGraph.numberOf id = (id.index - store.lower).toNat := by
  obtain ⟨k, hk, rfl⟩ := List.mem_map.1 mem
  have hrange : k < store.ids.length := by
    rw [length_ids]
    exact List.mem_range.1 hk
  have hget : store.ids[k] = store.idAt k := by simp [ids]
  have hnumber : store.dependencyGraph.numberOf (store.idAt k) = k := by
    show store.ids.idxOf (store.idAt k) = k
    rw [← hget]
    exact store.nodup_ids.idxOf_getElem k hrange
  rw [hnumber, idAt_eq]
  simp only
  omega

/-- A node is found under its number. -/
theorem getElem?_numberOf (store : Store κ) {id : SeedId} (mem : id ∈ store.ids) :
    store.dependencyGraph.nodes[store.dependencyGraph.numberOf id]? = some id :=
  List.getElem?_idxOf mem

/-- **Reading the arrows back through the numbers gives the stored edges**, seed by seed and edge by
edge. -/
theorem readBack_dependencyGraph (store : Store κ) :
    store.dependencyGraph.readBack = store.ids.flatMap fun source =>
      (store.innerEdges source).map fun edge => (some edge.target, some source, edge.key.kind) := by
  have hends : store.dependencyGraph.readBack = store.dependencyGraph.arrows.map fun arrow =>
      (some arrow.source, some arrow.target, arrow.kind) := by
    refine List.map_congr_left fun arrow mem => ?_
    obtain ⟨hsource, htarget⟩ := mem_ids_of_arrow mem
    rw [store.getElem?_numberOf hsource, store.getElem?_numberOf htarget]
  rw [hends, arrows_dependencyGraph, List.map_flatMap]
  simp only [List.map_map, Function.comp_def]

/-- **The arrows that leave a stored seed are the edges that lead to it.** -/
theorem leaving_dependencyGraph (store : Store κ) {target : SeedId} (mem : target ∈ store.ids) :
    store.dependencyGraph.leaving target = (store.edgesInto target).map Referent.otherEnd := by
  rw [DependencyGraph.leaving, arrows_dependencyGraph, edgesInto, List.filter_flatMap,
    List.map_flatMap, List.map_flatMap]
  refine List.flatMap_congr fun source _ => ?_
  rw [List.filter_map, List.map_map, List.map_map, innerEdges, List.filter_filter]
  -- An edge to `target` is an edge to a stored seed.
  have hfilter : ∀ edge : Edge,
      (((fun arrow : Arrow => decide (arrow.source = target)) ∘
          fun edge => ⟨edge.target, source, edge.key.kind⟩) edge &&
            decide (edge.target ∈ store.ids)) =
        decide (edge.target = target) := by
    intro edge
    rw [Function.comp_apply, ← Bool.decide_and, decide_eq_decide]
    exact ⟨And.left, fun heq => ⟨heq, heq ▸ mem⟩⟩
  simp only [hfilter]
  rfl

end Store

/-! ### The report -/

namespace Generator

variable {gen : Session}

/-- The nodes are the identifiers from the least stored index up to the next free one. -/
theorem nodes_eq_range (gen : Session) :
    gen.store.dependencyGraph.nodes = SeedId.range gen.lower (gen.upper - gen.lower).toNat := by
  have hlength : (gen.upper - gen.lower).toNat = gen.store.seeds.length := by
    have hall := gen.store.upper_sub_lower
    unfold Generator.upper Generator.lower
    omega
  rw [hlength]
  exact gen.store.ids_eq_range

theorem map_id_report (gen : Session) : gen.report.seeds.map SeedRow.id = gen.store.ids := by
  rw [← Store.map_fst_entries, report, List.map_map]
  rfl

/-- The rows are the rows of the stored seeds. -/
theorem mem_report_iff {row : SeedRow} :
    row ∈ gen.report.seeds ↔
      ∃ seed, gen.store.get? row.id = some seed ∧ row = SeedRow.ofSeed row.id seed := by
  constructor
  · intro mem
    obtain ⟨⟨id, seed⟩, hentry, rfl⟩ := List.mem_map.1 mem
    exact ⟨seed, (gen.store.mem_entries_iff _ _).1 hentry, rfl⟩
  · rintro ⟨seed, stored, heq⟩
    exact List.mem_map.2 ⟨(row.id, seed), (gen.store.mem_entries_iff _ _).2 stored, heq.symm⟩

/-- Each row lists the edges of its seed. -/
theorem otherEnds_dependencies {row : SeedRow} (mem : row ∈ gen.report.seeds) :
    row.dependencies.map EdgeRow.otherEnd =
      (gen.store.edgesOf row.id).map fun edge => (edge.target, edge.key.kind) := by
  obtain ⟨seed, stored, heq⟩ := mem_report_iff.1 mem
  have hedges : row.dependencies = seed.dependencies.edges.map EdgeRow.ofEdge := by rw [heq]; rfl
  rw [hedges, Store.edgesOf_of_stored stored, List.map_map]
  rfl

/-- **The edges that the rows list at their owners are the edges that lead to a seed.** -/
theorem entriesTo_report (gen : Session) (target : SeedId) :
    gen.report.entriesTo target = (gen.store.edgesInto target).map Referent.otherEnd := by
  rw [Report.entriesTo, report, List.flatMap_map, Store.edgesInto, List.map_flatMap]
  refine gen.store.flatMap_entries fun id seed stored => ?_
  rw [Store.edgesOf_of_stored stored, List.map_map]
  show ((seed.dependencies.edges.map EdgeRow.ofEdge).filter _).map _ = _
  rw [List.filter_map, List.map_map]
  rfl

end Generator

/-- **In a complete graph the referents of a row are the edges that lead to its seed.** -/
theorem Inverted.otherEnds_referents {gen : Session} (h : Inverted gen)
    (complete : gen.finalized = true) {row : SeedRow} (mem : row ∈ gen.report.seeds) :
    row.referents.map EdgeRow.otherEnd = (gen.store.edgesInto row.id).map Referent.otherEnd := by
  obtain ⟨seed, stored, heq⟩ := Generator.mem_report_iff.1 mem
  have hreferents : row.referents = seed.referents.map EdgeRow.ofReferent := by rw [heq]; rfl
  rw [hreferents, h.inverse complete row.id seed stored, List.map_map]
  rfl

/-! ### Locals in the report -/

/-- If no two locals belong to one seed, the locals of a seed are one at most. -/
theorem Binding.filter_seed_eq_singleton {bindings : List Binding}
    (single : (bindings.map Binding.seed).Nodup) {binding : Binding} (mem : binding ∈ bindings) :
    (bindings.filter fun other => other.seed = binding.seed) = [binding] := by
  induction bindings with
  | nil => exact absurd mem List.not_mem_nil
  | cons first rest ih =>
    obtain ⟨hfirst, hrest⟩ := List.nodup_cons.1 single
    rcases List.mem_cons.1 mem with rfl | hmem
    · have hnone : rest.filter (fun other => other.seed = binding.seed) = [] := by
        rw [List.filter_eq_nil_iff]
        intro other hother heq
        exact hfirst (List.mem_map.2 ⟨other, hother, of_decide_eq_true heq⟩)
      rw [List.filter_cons_of_pos (by simp), hnone]
    · have hne : first.seed ≠ binding.seed := fun heq =>
        hfirst (heq ▸ List.mem_map_of_mem hmem)
      rw [List.filter_cons_of_neg (by simpa using hne), ih hrest hmem]

/-- **The local in the row of a seed is the one local that the report lists for the seed.** -/
theorem Ledger.boundTo_iff {settings : Settings} {gen : Session} (h : Ledger settings gen)
    {row : SeedRow} (mem : row ∈ gen.report.seeds) (name : String) :
    row.boundTo = some name ↔
      ∃ binding, gen.report.bindingsOf row.id = [binding] ∧ binding.name = name ∧
        row.result = some binding.value.display := by
  obtain ⟨seed, stored, heq⟩ := Generator.mem_report_iff.1 mem
  have hslot := Generator.slot?_of_stored stored
  have hboundTo : row.boundTo = seed.slot.localName? := by rw [heq]; rfl
  have hresult : row.result = seed.slot.compiled.map Compiled.display := by rw [heq]; rfl
  rw [hboundTo, hresult]
  constructor
  · intro hname
    cases hstage : seed.slot with
    | unset | set _ =>
      rw [hstage] at hname
      exact absurd hname (by simp [Slot.localName?])
    | bound found reference value =>
      rw [hstage] at hname hslot
      obtain rfl : found = name := Option.some.inj hname
      have hmem := ((h.bound row.id found reference value).1 hslot).1
      exact ⟨⟨row.id, found, value⟩, Binding.filter_seed_eq_singleton h.single hmem, rfl, rfl⟩
  · rintro ⟨⟨id, found, value⟩, hsingle, rfl, -⟩
    have hmem : ⟨id, found, value⟩ ∈ gen.report.bindingsOf row.id := by
      rw [hsingle]
      exact List.mem_singleton_self _
    obtain ⟨hbinding, hid⟩ := List.mem_filter.1 hmem
    obtain rfl : id = row.id := of_decide_eq_true hid
    have hbound := (h.bound row.id found _ value).2 ⟨hbinding, rfl⟩
    rw [hslot, Option.some.injEq] at hbound
    rw [hbound]
    rfl

/-! ### All views -/

/-- **The views of a session agree with each other and with the stored seeds.**  Requests lead a new
session from moment to moment.  At each of these, also in the middle of a hook and after any
failure:

* the nodes of the graph are the stored identifiers in order, numbered from the least one on, and
  its arrows, read back through these numbers, are the edges to stored seeds, seed by seed and edge
  by edge;
* the report has one row for each node, in the same order, and each row lists the edges of its seed;
* once the graph is complete, the arrows that leave a seed, the referents in its row and the edges
  to it in all rows are the same, in the same order;
* the local in a row is the only one that the report lists for the seed, and holds the result in the
  row. -/
theorem Session.views_agree {settings : Settings}
    {candidates : List (Candidate (Blueprint Hook))} {origin : Session}
    (created : createWith settings candidates = .ok origin) :
    (∀ requests, Moves origin (origin.run requests)) ∧
    ∀ moment, Moves origin moment →
      let graph := moment.store.dependencyGraph
      let report := moment.report
      graph.nodes = SeedId.range moment.lower (moment.upper - moment.lower).toNat ∧
      (∀ id ∈ graph.nodes, graph.numberOf id = (id.index - moment.lower).toNat) ∧
      (graph.readBack = graph.nodes.flatMap fun source =>
        ((moment.store.edgesOf source).filter fun edge => edge.target ∈ graph.nodes).map fun edge =>
          (some edge.target, some source, edge.key.kind)) ∧
      report.seeds.map SeedRow.id = graph.nodes ∧
      (∀ row ∈ report.seeds, row.dependencies.map EdgeRow.otherEnd =
        (moment.store.edgesOf row.id).map fun edge => (edge.target, edge.key.kind)) ∧
      (moment.finalized = true → ∀ row ∈ report.seeds,
        graph.leaving row.id = row.referents.map EdgeRow.otherEnd ∧
        row.referents.map EdgeRow.otherEnd = report.entriesTo row.id) ∧
      ∀ row ∈ report.seeds, ∀ name, row.boundTo = some name ↔
        ∃ binding, report.bindingsOf row.id = [binding] ∧ binding.name = name ∧
          row.result = some binding.value.display := by
  refine ⟨moves_run created, fun moment hmoment => ?_⟩
  have hinverted : Inverted moment :=
    Reachable.inverted ⟨settings, candidates, origin, created, hmoment⟩
  refine ⟨moment.nodes_eq_range, fun id mem => moment.store.numberOf_dependencyGraph mem,
    moment.store.readBack_dependencyGraph, moment.map_id_report,
    fun row mem => Generator.otherEnds_dependencies mem, fun hcomplete row mem => ?_,
    fun row mem => (Moves.ledger created hmoment).boundTo_iff mem⟩
  have hrow : row.id ∈ moment.store.ids := by
    rw [← moment.map_id_report]
    exact List.mem_map_of_mem mem
  rw [moment.store.leaving_dependencyGraph hrow, hinverted.otherEnds_referents hcomplete mem,
    moment.entriesTo_report]
  exact ⟨rfl, rfl⟩

/-- A pre-existing seed shifts the numbers of the nodes.  One edge is missing its target at first
and has no arrow; two others are parallel. -/
theorem Session.views_agree_shifted :
    let given : Blueprint Hook := { kind := "given", preset := some (.code "x"), hook := [] }
    let owner : Blueprint Hook := {
      kind := "owner"
      mode := .sideEffectful
      edges := [⟨.arg 0, ⟨-1⟩⟩, ⟨.named "late", ⟨7⟩⟩, ⟨.ordering 0, ⟨-1⟩⟩]
      hook := [.text "f(", .inputCode (.arg 0), .text ")", .setResult, .proceed] }
    let opened : List Request := [.register (.seed owner)]
    let closed : List Request :=
      opened ++ [.addDependency ⟨0⟩ (.named "late") ⟨-1⟩, .finalize, .generate]
    ∃ origin, createWith { platform := some .letBinding } [.seed given] = .ok origin ∧
      (origin.run opened).store.dependencyGraph.readBack =
        [(some ⟨-1⟩, some ⟨0⟩, .data), (some ⟨-1⟩, some ⟨0⟩, .ordering)] ∧
      (origin.run closed).finalized = true ∧
      (origin.run closed).store.dependencyGraph.leaving ⟨-1⟩ =
        [(⟨0⟩, .data), (⟨0⟩, .data), (⟨0⟩, .ordering)] ∧
      (origin.run closed).report.bindings = [⟨⟨0⟩, "s0", .code "f(x)"⟩] ∧
      ∀ row ∈ (origin.run closed).report.seeds,
        (origin.run closed).store.dependencyGraph.leaving row.id =
          row.referents.map EdgeRow.otherEnd ∧
        (row.boundTo = some "s0" ↔
          ∃ binding, (origin.run closed).report.bindingsOf row.id = [binding] ∧
            binding.name = "s0" ∧ row.result = some binding.value.display) := by
  intro given owner opened closed
  have created : createWith { platform := some .letBinding } [.seed given] = .ok _ := rfl
  obtain ⟨hmoves, hmoments⟩ := views_agree created
  obtain ⟨-, -, -, -, -, hviews, hlocals⟩ := hmoments _ (hmoves closed)
  exact ⟨_, rfl, by decide +kernel, by decide +kernel, by decide +kernel, by decide +kernel,
    fun row mem => ⟨(hviews (by decide +kernel) row mem).1, hlocals row mem "s0"⟩⟩

end SeedGraph
