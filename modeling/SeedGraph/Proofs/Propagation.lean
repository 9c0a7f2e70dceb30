import SeedGraph.Proofs.Acceptance
import SeedGraph.Proofs.Failures

/-!
# Making anchors wait

A depending scope is open at an anchor, and a seed with a smaller identifier turns out to be needed
in it.  Propagation then makes the anchor wait for that seed: it adds an ordering edge from the
anchor to the seed, unless there is one.

Which anchors wait is read off the open scopes (`Generator.MustAwait`).  A seed may be the anchor of
several of them, but `Store.get?_awaitAll` says that it is made to wait once.  Since the operation
checks everything before it adds the first edge, its outcome is an equation
(`Generator.run_propagateOrdering`), and the main result `Session.propagation_adds_required_edges`
reads off it what becomes of each seed.
-/

namespace SeedGraph

/-- `seed'` is `seed` with one more edge, at the end and under a key that was not in use, which
orders it after `target`. -/
def Seed.GainsOrdering {κ : Type} (seed : Seed κ) (target : SeedId) (seed' : Seed κ) : Prop :=
  ∃ ordinal, ∃ free : Key.ordering ordinal ∉ seed.dependencies.keys,
    seed' = { seed with dependencies := seed.dependencies.withOrdering ordinal free target }

/-- Every edge leads to a smaller identifier. -/
def Store.Backward {κ : Type} (store : Store κ) : Prop :=
  ∀ source target, store.DependsOn source target → target.index < source.index

theorem Seed.gainsOrdering_await {κ : Type} {seed : Seed κ} {target : SeedId}
    (can : seed.dependencies.CanOrder target) (new : ¬ seed.dependencies.Orders target) :
    seed.GainsOrdering target (seed.await target) := by
  obtain ⟨ordinal, hfree, hadded⟩ := Dependencies.addOrdering_of_not_orders can new
  refine ⟨ordinal, hfree, ?_⟩
  rw [await, hadded]

/-! ### The anchors that wait -/

namespace Generator

/-- A depending scope is open at `anchor`, which has a greater identifier than `target`. -/
def MustAwait (gen : Session) (anchor target : SeedId) : Prop :=
  (∃ scope ∈ gen.scopes, scope.depending = true ∧ scope.anchor = anchor) ∧
    target.index < anchor.index

instance (gen : Session) (anchor target : SeedId) : Decidable (gen.MustAwait anchor target) :=
  inferInstanceAs (Decidable ((∃ scope ∈ gen.scopes, _) ∧ _))

/-- The anchors that are to wait for `target`, one for each open scope. -/
def lateAnchors (gen : Session) (target : SeedId) : List SeedId :=
  gen.dependingScopes.filter fun anchor => decide (target.index < anchor.index)

theorem mem_lateAnchors {gen : Session} {anchor target : SeedId} :
    anchor ∈ gen.lateAnchors target ↔ gen.MustAwait anchor target := by
  simp [lateAnchors, dependingScopes, MustAwait, and_assoc]

theorem Anchored.stored {gen : Session} (anchored : gen.Anchored) {anchor target : SeedId}
    (late : gen.MustAwait anchor target) : (gen.store.get? anchor).isSome := by
  obtain ⟨⟨scope, hscope, -, rfl⟩, -⟩ := late
  have hslot := anchored scope hscope
  rwa [slot?, Option.isSome_map] at hslot

/-- The session in which the anchors of the open scopes wait for `target`. -/
def propagated (gen : Session) (target : SeedId) : Session :=
  { gen with store := gen.store.awaitAll target (gen.lateAnchors target) }

/-- **The outcome of propagation.**  A complete graph is refused first, then a missing seed. -/
theorem run_propagateOrdering {gen : Session} (anchored : gen.Anchored) (target : SeedId) :
    (propagateOrdering target).run gen =
      if gen.finalized = true then .error .alreadyFinalized gen
      else if (gen.store.get? target).isSome then .ok () (gen.propagated target)
      else .error (.seedNotFound target) gen := by
  cases hopen : gen.finalized with
  | true => exact run_bind_error (run_requireOpen_of_finalized hopen)
  | false =>
    rw [if_neg (by simp), propagateOrdering, run_bind_ok (run_requireOpen_of_open hopen)]
    cases hstored : gen.store.get? target with
    | none =>
      rw [run_bind_error (run_lookup_of_none hstored)]
      rfl
    | some seed =>
      rw [run_bind_ok (run_lookup_of_some hstored), run_get_bind]
      exact run_insertOrderings target (gen.lateAnchors target) gen fun anchor hanchor =>
        anchored.stored (mem_lateAnchors.1 hanchor)

/-! ### What becomes of each seed -/

variable {gen : Session} {target : SeedId}

theorem get?_propagated (gen : Session) (target id : SeedId) :
    (gen.propagated target).store.get? id = (gen.store.get? id).map fun seed =>
      if gen.MustAwait id target then seed.await target else seed := by
  rw [propagated, Store.get?_awaitAll]
  simp only [mem_lateAnchors]

theorem Anchored.propagated (anchored : gen.Anchored) (target : SeedId) :
    (gen.propagated target).Anchored := by
  intro scope hscope
  rw [slot?, get?_propagated, Option.isSome_map, Option.isSome_map]
  have hslot := anchored scope hscope
  rwa [slot?, Option.isSome_map] at hslot

/-- A seed gains an edge if it must wait and does not do so yet; otherwise it stays as it is. -/
theorem propagated_cases {id : SeedId} {seed : Seed Hook} (stored : gen.store.get? id = some seed)
    (can : gen.MustAwait id target → seed.dependencies.CanOrder target) :
    (gen.MustAwait id target ∧ ¬ seed.dependencies.Orders target ∧
        ∃ seed', (gen.propagated target).store.get? id = some seed' ∧
          seed.GainsOrdering target seed') ∨
      ((gen.MustAwait id target → seed.dependencies.Orders target) ∧
        (gen.propagated target).store.get? id = some seed) := by
  rw [get?_propagated, stored, Option.map_some]
  by_cases hlate : gen.MustAwait id target
  · rw [if_pos hlate]
    by_cases horders : seed.dependencies.Orders target
    · rw [Seed.await_of_orders horders]
      exact .inr ⟨fun _ => horders, rfl⟩
    · exact .inl ⟨hlate, horders, _, rfl, Seed.gainsOrdering_await (can hlate) horders⟩
  · rw [if_neg hlate]
    exact .inr ⟨fun h => absurd h hlate, rfl⟩

/-- Afterwards every anchor that must wait does. -/
theorem orders_propagated {anchor : SeedId} (late : gen.MustAwait anchor target) {seed : Seed Hook}
    (stored : (gen.propagated target).store.get? anchor = some seed) :
    seed.dependencies.Orders target := by
  rw [get?_propagated] at stored
  obtain ⟨before, -, rfl⟩ := Option.map_eq_some_iff.1 stored
  rw [if_pos late]
  exact before.orders_await target

/-- Where all anchors wait there is nothing to add. -/
theorem propagated_propagated (gen : Session) (target : SeedId) :
    (gen.propagated target).propagated target = gen.propagated target := by
  have hstore : (gen.propagated target).store.awaitAll target (gen.lateAnchors target) =
      (gen.propagated target).store :=
    Store.awaitAll_of_orders fun anchor hanchor seed stored =>
      orders_propagated (mem_lateAnchors.1 hanchor) stored
  show { gen.propagated target with
    store := (gen.propagated target).store.awaitAll target (gen.lateAnchors target) } = _
  rw [hstore]

theorem run_propagateOrdering_propagated (anchored : gen.Anchored) (hopen : gen.finalized = false)
    (stored : (gen.store.get? target).isSome) :
    (propagateOrdering target).run (gen.propagated target) = .ok () (gen.propagated target) := by
  have hopen' : ¬ (gen.propagated target).finalized = true := by
    rw [propagated, hopen]
    simp
  rw [run_propagateOrdering (anchored.propagated target), if_neg hopen', get?_propagated,
    Option.isSome_map, if_pos stored, propagated_propagated]

/-- An anchor waits only for smaller identifiers. -/
theorem backward_propagated
    (can : ∀ anchor seed, gen.MustAwait anchor target → gen.store.get? anchor = some seed →
      seed.dependencies.CanOrder target)
    (backward : gen.store.Backward) : (gen.propagated target).store.Backward := by
  rintro source found ⟨seed', stored', edge, hedge, rfl⟩
  have hkept : (gen.store.get? source).isSome := by
    rw [← Option.isSome_map, ← get?_propagated, stored']
    rfl
  obtain ⟨seed, stored⟩ := Option.isSome_iff_exists.1 hkept
  obtain ⟨hlate, -, other, hother, ordinal, free, hgained⟩ | ⟨-, hsame⟩ :=
    propagated_cases stored fun hlate => can source seed hlate stored
  · obtain rfl : other = seed' := Option.some.inj (hother.symm.trans stored')
    rw [hgained] at hedge
    rcases List.mem_append.1 hedge with hold | hnew
    · exact backward source edge.target ⟨seed, stored, edge, hold, rfl⟩
    · rw [List.mem_singleton.1 hnew]
      exact hlate.2
  · obtain rfl : seed = seed' := Option.some.inj (hsame.symm.trans stored')
    exact backward source edge.target ⟨seed, stored, edge, hedge, rfl⟩

end Generator

/-! ### The main result -/

namespace Session

/-- **Propagation adds just the edges that are required.**  At any moment of any run it succeeds if
the graph is not complete and `target` is stored, and only then.  Afterwards

* every anchor of an open depending scope that has a greater identifier than `target` has an
  ordering edge to it;
* each of them that had none, however often it is open, has gained one at the end, under a new key,
  so that all older edges keep their key, target and place; every other seed, and everything else
  about the session, is what it was;
* to do it once more succeeds and changes nothing;
* if every edge led to a smaller identifier before, every edge does now.

A new key is searched for among the words of 32 bits, and the search for it comes to an end only if
one of them is free; so an anchor that is to gain an edge must have a free key (`ends`). -/
theorem propagation_adds_required_edges {gen : Session} (reachable : Reachable gen)
    {target : SeedId}
    (ends : ∀ anchor seed, gen.MustAwait anchor target → gen.store.get? anchor = some seed →
      seed.dependencies.CanOrder target) :
    ((∃ gen', (Generator.propagateOrdering target).run gen = .ok () gen') ↔
      gen.finalized = false ∧ gen.store.InRange target) ∧
    ∀ gen', (Generator.propagateOrdering target).run gen = .ok () gen' →
      (∀ anchor, gen.MustAwait anchor target →
        ∃ seed', gen'.store.get? anchor = some seed' ∧ seed'.dependencies.Orders target) ∧
      (∀ id seed, gen.store.get? id = some seed →
        (gen.MustAwait id target → ¬ seed.dependencies.Orders target →
          ∃ seed', gen'.store.get? id = some seed' ∧ seed.GainsOrdering target seed') ∧
        (¬ gen.MustAwait id target ∨ seed.dependencies.Orders target →
          gen'.store.get? id = some seed)) ∧
      gen'.store.ids = gen.store.ids ∧ gen' = { gen with store := gen'.store } ∧
      (Generator.propagateOrdering target).run gen' = .ok () gen' ∧
      (gen.store.Backward → gen'.store.Backward) := by
  have hrun := Generator.run_propagateOrdering reachable.anchored target
  have hiff : (∃ gen', (Generator.propagateOrdering target).run gen = .ok () gen') ↔
      gen.finalized = false ∧ gen.store.InRange target := by
    rw [hrun, ← Store.contains_iff, Store.contains]
    cases gen.finalized <;> cases gen.store.get? target <;> simp
  refine ⟨hiff, fun gen' hdone => ?_⟩
  obtain ⟨hopen, hrange⟩ := hiff.1 ⟨gen', hdone⟩
  have htarget : (gen.store.get? target).isSome := (gen.store.contains_iff target).2 hrange
  rw [hrun, if_neg (by rw [hopen]; simp), if_pos htarget] at hdone
  obtain ⟨-, rfl⟩ := EStateM.Result.ok.inj hdone
  refine ⟨fun anchor hlate => ?_, fun id seed stored => ?_, Store.ids_awaitAll _ _ _, rfl, ?_,
    Generator.backward_propagated ends⟩
  · have hkept : ((gen.propagated target).store.get? anchor).isSome := by
      rw [Generator.get?_propagated, Option.isSome_map]
      exact reachable.anchored.stored hlate
    obtain ⟨seed', stored'⟩ := Option.isSome_iff_exists.1 hkept
    exact ⟨seed', stored', Generator.orders_propagated hlate stored'⟩
  · obtain ⟨hlate, hnew, hgained⟩ | ⟨hwaits, hsame⟩ :=
      Generator.propagated_cases stored fun hlate => ends id seed hlate stored
    · exact ⟨fun _ _ => hgained, fun hnot => absurd (hnot.resolve_left (not_not_intro hlate)) hnew⟩
    · exact ⟨fun hlate hnew => absurd (hwaits hlate) hnew, fun _ => hsame⟩
  · exact Generator.run_propagateOrdering_propagated reachable.anchored hopen htarget

/-- Seeds 0, 2, 3 and 4 anchor open scopes, seed 3 two of them, and the scope at seed 4 is not a
depending one; seed 2 waits for seed 1 already.  Seed 3 alone gains an edge. -/
theorem propagation_adds_required_edges_nested :
    let seed : Blueprint Hook := { kind := "seed", hook := [] }
    let requests : List Request := List.replicate 5 (.register (.seed seed)) ++
      [.addOrdering ⟨2⟩ ⟨1⟩, .beginScope ⟨3⟩ true, .beginScope ⟨4⟩ false, .beginScope ⟨2⟩ true,
        .beginScope ⟨0⟩ true, .beginScope ⟨3⟩ true, .beginScope ⟨4⟩ true, .endScope]
    ∃ gen',
      let gen := blank.run requests
      gen.dependingScopes = [⟨3⟩, ⟨2⟩, ⟨0⟩, ⟨3⟩] ∧
      (Generator.propagateOrdering ⟨1⟩).run gen = .ok () gen' ∧
      (∀ id seed, id ≠ ⟨3⟩ → gen.store.get? id = some seed → gen'.store.get? id = some seed) ∧
      (∃ seed seed', gen.store.get? ⟨3⟩ = some seed ∧ gen'.store.get? ⟨3⟩ = some seed' ∧
        seed.GainsOrdering ⟨1⟩ seed') ∧
      gen'.store.Backward := by
  intro seed requests
  have reachable := reachable_run_blank requests
  have hfree : ((blank.run requests).store.entries.all fun entry =>
      !entry.2.dependencies.contains (.ordering 7)) = true := by decide +kernel
  have hanchors : (blank.run requests).lateAnchors ⟨1⟩ = [⟨3⟩, ⟨2⟩, ⟨3⟩] := by decide +kernel
  have hedges : ((blank.run requests).store.entries.all fun entry =>
      entry.2.dependencies.edges.all fun edge =>
        decide (edge.target.index < entry.1.index)) = true := by decide +kernel
  have hsecond : ((blank.run requests).store.get? ⟨2⟩).all (fun seed =>
      decide (seed.dependencies.Orders ⟨1⟩)) = true := by decide +kernel
  have hthird : ((blank.run requests).store.get? ⟨3⟩).any (fun seed =>
      decide (¬ seed.dependencies.Orders ⟨1⟩)) = true := by decide +kernel
  have hlate : (blank.run requests).MustAwait ⟨3⟩ ⟨1⟩ := by
    rw [← Generator.mem_lateAnchors, hanchors]
    exact List.mem_cons_self
  simp only [List.all_eq_true, Store.mem_entries_iff, Prod.forall, decide_eq_true_eq]
    at hfree hedges
  have ends : ∀ anchor seed, (blank.run requests).MustAwait anchor ⟨1⟩ →
      (blank.run requests).store.get? anchor = some seed → seed.dependencies.CanOrder ⟨1⟩ := by
    intro anchor seed _ stored
    refine .inr ⟨7, fun hmem => ?_⟩
    have hcontains := hfree anchor seed stored
    rw [(Dependencies.contains_iff_mem_keys _).2 hmem] at hcontains
    exact absurd hcontains (by simp)
  obtain ⟨hiff, hdone⟩ := propagation_adds_required_edges reachable ends
  obtain ⟨gen', hrun⟩ := hiff.2 ⟨by decide +kernel, (Store.contains_iff _ _).1 (by decide +kernel)⟩
  obtain ⟨-, hseeds, -, -, -, hbackward⟩ := hdone gen' hrun
  obtain ⟨third, stored, hnew⟩ := Option.any_eq_true _ _ |>.1 hthird
  obtain ⟨third', stored', hgained⟩ := (hseeds ⟨3⟩ third stored).1 hlate (of_decide_eq_true hnew)
  refine ⟨gen', by decide +kernel, hrun, fun id seed hother stored => ?_,
    ⟨third, third', stored, stored', hgained⟩, hbackward ?_⟩
  · refine (hseeds id seed stored).2 ?_
    by_cases htwo : id = ⟨2⟩
    · rw [htwo] at stored
      rw [stored] at hsecond
      exact .inr (of_decide_eq_true hsecond)
    · rw [← Generator.mem_lateAnchors, hanchors]
      exact .inl (by simp [hother, htwo])
  · rintro source target ⟨seed, stored, edge, hedge, rfl⟩
    exact hedges source seed stored edge hedge

end Session

end SeedGraph
