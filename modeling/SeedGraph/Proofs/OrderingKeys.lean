import SeedGraph.Proofs.OrderingEdges

/-!
# Ordering keys are always fresh

The edges of a seed come about by two kinds of calls.  One of them names its key and replaces the
edge that is there; the other asks for an order and gets a key.  Either way keys stay distinct
(`Edge.nodup_map_key_put`), which is why `Dependencies` may promise it.

Keys that were named may lie anywhere among the words, also at the largest one, and the starting
point of the search for a free word stops there in one call and goes round in the other.  So the
search may start at a word in use, and pass over many.  It ends all the same as long as some word is
left.  Each word that it passes over belongs to an ordering edge of its own, so among as many words
as there are ordering edges, and one more, there is a free one (`Dependencies.exists_free_ordinal`).
Where it ends, a new edge goes to the end of the list.

The main result is `Dependencies.ordering_keys_fresh`.
-/

namespace SeedGraph

namespace Dependencies

variable {deps : Dependencies} {target : SeedId}

/-! ### Free words -/

/-- A word in use names an ordering edge. -/
theorem ordering_mem_keys_iff {ordinal : UInt32} :
    Key.ordering ordinal ∈ deps.keys ↔ Key.ordering ordinal ∈ deps.orderingEdges.map Edge.key := by
  unfold keys orderingEdges
  rw [List.mem_map, List.mem_map]
  refine exists_congr fun edge => ?_
  rw [List.mem_filter, and_assoc]
  refine and_congr_right fun _ => ⟨fun hkey => ⟨?_, hkey⟩, And.right⟩
  rw [hkey]
  rfl

/-- **Among one word more than there are ordering edges, some word is free.** -/
theorem exists_free_ordinal (few : deps.orderingEdges.length < 2 ^ 32) (start : UInt32) :
    ∃ ordinal ∈ ordinalsFrom start (deps.orderingEdges.length + 1),
      Key.ordering ordinal ∉ deps.keys := by
  have hlength : (deps.orderingEdges.map Edge.key).length = deps.orderingEdges.length :=
    List.length_map _
  obtain ⟨ordinal, hmem, hfree⟩ := exists_ordinal_notMem (hlength ▸ few) start
  rw [hlength] at hmem
  exact ⟨ordinal, hmem, fun hused => hfree (ordering_mem_keys_iff.1 hused)⟩

/-- The search passes over no more words than there are ordering edges. -/
theorem Search.passed_le {start found : UInt32} {passed : Nat}
    (search : deps.Search start passed found) (few : deps.orderingEdges.length < 2 ^ 32) :
    passed ≤ deps.orderingEdges.length := by
  obtain ⟨ordinal, hmem, hfree⟩ := exists_free_ordinal few start
  exact Nat.le_of_lt_succ (search.passed_lt hmem hfree)

/-! ### Asking for an order -/

/-- The first edge that orders after `target` stands between `earlier` and `later`. -/
structure FirstOrdering (deps : Dependencies) (target : SeedId) (earlier : List Edge) (edge : Edge)
    (later : List Edge) : Prop where
  /-- Where the edge stands. -/
  stands : deps.edges = earlier ++ edge :: later
  /-- It is an ordering edge. -/
  orders : edge.key.isOrdering = true
  /-- It leads to the target. -/
  leads : edge.target = target
  /-- No ordering edge before it does. -/
  first : ∀ other ∈ earlier, other.key.isOrdering = true → other.target ≠ target

/-- If there is an ordering edge to the target, the key of the first one is the answer. -/
theorem addOrdering_eq_first (orders : deps.Orders target) :
    ∃ earlier edge later, deps.FirstOrdering target earlier edge later ∧
      deps.addOrdering target = (edge.key, deps) := by
  cases hfound : deps.orderingTo? target with
  | none => exact absurd orders (orderingTo?_eq_none_iff.1 hfound)
  | some key =>
    obtain ⟨edge, hedge, rfl⟩ := Option.map_eq_some_iff.1 hfound
    obtain ⟨hmatches, earlier, later, hedges, hearlier⟩ := List.find?_eq_some_iff_append.1 hedge
    simp only [Bool.and_eq_true, decide_eq_true_eq] at hmatches
    refine ⟨earlier, edge, later,
      ⟨hedges, hmatches.1, hmatches.2, fun other hother hordering htarget => ?_⟩, ?_⟩
    · have hdiffers := hearlier other hother
      simp [hordering, htarget] at hdiffers
    · rw [addOrdering, hfound]

/-- What was just ordered is found again. -/
theorem addOrdering_withOrdering (new : ¬ deps.Orders target) {ordinal : UInt32}
    (free : Key.ordering ordinal ∉ deps.keys) :
    (deps.withOrdering ordinal free target).addOrdering target =
      (.ordering ordinal, deps.withOrdering ordinal free target) := by
  have hnone := Option.map_eq_none_iff.1 (orderingTo?_eq_none_iff.2 new)
  have hfound : (deps.withOrdering ordinal free target).orderingTo? target =
      some (.ordering ordinal) := by
    unfold orderingTo? withOrdering
    dsimp only
    rw [List.find?_append, hnone]
    simp [Key.isOrdering, Key.kind]
  rw [addOrdering, hfound]

theorem addOrdering_addOrdering (free : ∃ ordinal, Key.ordering ordinal ∉ deps.keys)
    (target : SeedId) :
    (deps.addOrdering target).2.addOrdering target = deps.addOrdering target := by
  by_cases horders : deps.Orders target
  · rw [addOrdering_of_orders horders]
  · rw [addOrdering_of_free free horders]
    exact addOrdering_withOrdering horders _

/-- **Ordering keys are always fresh.**  No two edges of a seed have the same key, and an edge that
is added under a given key leaves the keys as they are, or goes to the end with a new one.  As long
as there are fewer ordering edges than words:

* If there is an ordering edge to `target`, asking for the order once more answers with the key of
  the first one and changes nothing.
* Otherwise the search for a free word ends, and passes over no more words than there are ordering
  edges.  Where it ends is the new key, which was not in use; the new edge goes to the end, and all
  other edges keep their key, target and place.
* To ask for the same order again gives the same key and changes nothing. -/
theorem ordering_keys_fresh (deps : Dependencies) :
    deps.keys.Nodup ∧
    (∀ key target, (deps.add key target).2.keys =
      if key ∈ deps.keys then deps.keys else deps.keys ++ [key]) ∧
    (deps.orderingEdges.length < 2 ^ 32 → ∀ target,
      (deps.Orders target → ∃ earlier edge later, deps.FirstOrdering target earlier edge later ∧
        deps.addOrdering target = (edge.key, deps)) ∧
      (¬ deps.Orders target → ∃ passed ordinal, ∃ free : Key.ordering ordinal ∉ deps.keys,
        deps.Search deps.nextOrdinal passed ordinal ∧ passed ≤ deps.orderingEdges.length ∧
        deps.addOrdering target = (.ordering ordinal, deps.withOrdering ordinal free target)) ∧
      (deps.addOrdering target).2.addOrdering target = deps.addOrdering target) := by
  refine ⟨deps.distinct, fun key target => Edge.map_key_put key target deps.edges,
    fun few target => ?_⟩
  obtain ⟨free, -, hfree⟩ := exists_free_ordinal few deps.nextOrdinal
  refine ⟨addOrdering_eq_first, fun hnew => ?_, addOrdering_addOrdering ⟨free, hfree⟩ target⟩
  obtain ⟨passed, hsearch⟩ := search_freshOrdinal ⟨free, hfree⟩
  exact ⟨passed, deps.freshOrdinal, hsearch.notMem, hsearch, hsearch.passed_le few,
    addOrdering_of_free ⟨free, hfree⟩ hnew⟩

/-- The largest word and the least one are in use.  The search starts at the largest, goes round,
and ends at the second word. -/
theorem ordering_keys_fresh_around :
    let deps := ((empty.add (.ordering 4294967295) ⟨1⟩).2.add (.ordering 0) ⟨2⟩).2
    deps.orderingEdges.length < 2 ^ 32 ∧ ¬ deps.Orders ⟨3⟩ ∧
      (∃ passed ≤ 2, deps.Search 4294967295 passed 1) ∧
      (∃ free : Key.ordering 1 ∉ deps.keys,
        deps.addOrdering ⟨3⟩ = (.ordering 1, deps.withOrdering 1 free ⟨3⟩) ∧
        (deps.withOrdering 1 free ⟨3⟩).addOrdering ⟨3⟩ =
          (.ordering 1, deps.withOrdering 1 free ⟨3⟩)) ∧
      deps.addOrdering ⟨2⟩ = (.ordering 0, deps) := by
  intro deps
  have few : deps.orderingEdges.length < 2 ^ 32 := by decide
  have hnew : ¬ deps.Orders ⟨3⟩ := by decide
  obtain ⟨-, -, hall⟩ := ordering_keys_fresh deps
  obtain ⟨-, hfresh, hagain⟩ := hall few ⟨3⟩
  obtain ⟨passed, ordinal, free, hsearch, hpassed, hadded⟩ := hfresh hnew
  have hkey : (deps.addOrdering ⟨3⟩).1 = .ordering 1 := by decide
  obtain rfl : ordinal = 1 := by
    rw [hadded] at hkey
    exact Key.ordering.inj hkey
  rw [hadded] at hagain
  exact ⟨few, hnew, ⟨passed, hpassed, hsearch⟩, ⟨free, hadded, hagain⟩, by decide⟩

end Dependencies

end SeedGraph
