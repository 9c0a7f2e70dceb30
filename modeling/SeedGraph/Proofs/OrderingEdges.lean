import Mathlib.Algebra.Group.Nat.Defs
import Mathlib.Data.List.Nodup
import SeedGraph.Proofs.Referents

/-!
# Ordering edges and their keys

An ordering edge to a target is added under a key of its own, unless there is one to that target
already.  The key is the first free word from a starting point on, and the search for it
(`Dependencies.Search`) goes round past the largest word.  One word more than there are edges is
enough to look at.  If these are different words, they cannot all be taken; if there are so many
edges that words come up twice, then every word has come up.  Either way a free word is found if
there is one (`Dependencies.search_freshOrdinal`), and then the new edge goes to the end and no
other edge is touched (`Dependencies.addOrdering_of_free`).

Without any free word there is no key to be found, so what an added edge does to the others is said
under the condition that the search comes to an end: `Dependencies.CanOrder`.

`Seed.await` and `Store.awaitAll` add ordering edges to one seed, and to each of several.
-/

namespace SeedGraph

theorem Edge.mem_put (key : Key) (target : SeedId) (edges : List Edge) :
    (⟨key, target⟩ : Edge) ∈ Edge.put key target edges := by
  induction edges with
  | nil => exact List.mem_singleton_self _
  | cons edge rest ih =>
    rw [Edge.put]
    by_cases hkey : edge.key = key
    · rw [if_pos hkey]
      exact List.mem_cons_self
    · rw [if_neg hkey]
      exact List.mem_cons_of_mem _ ih

namespace Dependencies

variable {deps : Dependencies} {target : SeedId}

/-- The keys in use, in the order of the edges. -/
def keys (deps : Dependencies) : List Key :=
  deps.edges.map Edge.key

/-- There is an ordering edge to `target`. -/
def Orders (deps : Dependencies) (target : SeedId) : Prop :=
  ∃ edge ∈ deps.edges, edge.key.isOrdering = true ∧ edge.target = target

instance (deps : Dependencies) (target : SeedId) : Decidable (deps.Orders target) :=
  inferInstanceAs (Decidable (∃ edge ∈ deps.edges, _))

/-- The search for the key of an ordering edge to `target` comes to an end: there is such an edge
already, or some word is free. -/
def CanOrder (deps : Dependencies) (target : SeedId) : Prop :=
  deps.Orders target ∨ ∃ ordinal, Key.ordering ordinal ∉ deps.keys

/-! ### The search for a free key -/

theorem contains_iff_mem_keys (key : Key) : deps.contains key = true ↔ key ∈ deps.keys := by
  simp [contains, keys]

/-- As many words as `count` says, from `start` on and past the largest word if need be. -/
def ordinalsFrom (start : UInt32) (count : Nat) : List UInt32 :=
  (List.range count).map fun k => start + UInt32.ofNat k

@[simp] theorem length_ordinalsFrom (start : UInt32) (count : Nat) :
    (ordinalsFrom start count).length = count := by
  rw [ordinalsFrom, List.length_map, List.length_range]

theorem ordinalsFrom_succ (start : UInt32) (count : Nat) :
    ordinalsFrom start (count + 1) = start :: ordinalsFrom (start + 1) count := by
  unfold ordinalsFrom
  rw [List.range_succ_eq_map, List.map_cons, List.map_map]
  have hfirst : start + UInt32.ofNat 0 = start := UInt32.add_zero start
  have hrest : (fun k => start + UInt32.ofNat k) ∘ Nat.succ =
      fun k => start + 1 + UInt32.ofNat k := by
    funext k
    show start + UInt32.ofNat (k + 1) = _
    rw [UInt32.ofNat_add, UInt32.add_comm (UInt32.ofNat k), UInt32.add_assoc]
    rfl
  rw [hfirst, hrest]

/-- As long as they are no more than there are words, these words are different. -/
theorem nodup_ordinalsFrom (start : UInt32) {count : Nat} (few : count ≤ 2 ^ 32) :
    (ordinalsFrom start count).Nodup := by
  refine List.Nodup.map_on (fun i hi j hj hsame => ?_) List.nodup_range
  have hwords : UInt32.ofNat i = UInt32.ofNat j := UInt32.add_right_inj start |>.1 hsame
  have hrange : i < 2 ^ 32 ∧ j < 2 ^ 32 := by
    rw [List.mem_range] at hi hj
    omega
  have hnumbers := congrArg UInt32.toNat hwords
  rwa [UInt32.toNat_ofNat_of_lt' hrange.1, UInt32.toNat_ofNat_of_lt' hrange.2] at hnumbers

/-- **Of one word more than there are keys, some word is no key.** -/
theorem exists_ordinal_notMem {used : List Key} (few : used.length < 2 ^ 32) (start : UInt32) :
    ∃ ordinal ∈ ordinalsFrom start (used.length + 1), Key.ordering ordinal ∉ used := by
  by_contra hnone
  have hnodup : ((ordinalsFrom start (used.length + 1)).map Key.ordering).Nodup :=
    (nodup_ordinalsFrom start few).map fun _ _ hsame => Key.ordering.inj hsame
  have hsubset : (ordinalsFrom start (used.length + 1)).map Key.ordering ⊆ used := by
    intro key hkey
    obtain ⟨ordinal, hmem, rfl⟩ := List.mem_map.1 hkey
    exact by_contra fun hfree => hnone ⟨ordinal, hmem, hfree⟩
  have hlength := List.Nodup.length_le_of_subset hnodup hsubset
  rw [List.length_map, length_ordinalsFrom] at hlength
  omega

/-- If they are as many as there are words, every word is tried. -/
theorem mem_ordinalCandidates (many : 2 ^ 32 ≤ deps.edges.length) (ordinal : UInt32) :
    ordinal ∈ deps.ordinalCandidates := by
  refine List.mem_map.2 ⟨(ordinal - deps.nextOrdinal).toNat, ?_, ?_⟩
  · have hless := (ordinal - deps.nextOrdinal).toNat_lt
    rw [List.mem_range]
    omega
  · rw [UInt32.ofNat_toNat, UInt32.add_comm]
    exact UInt32.sub_add_cancel _ _

/-- **If some word is free, one that is tried is free.** -/
theorem exists_ordinalCandidate (free : ∃ ordinal, Key.ordering ordinal ∉ deps.keys) :
    ∃ ordinal ∈ deps.ordinalCandidates, Key.ordering ordinal ∉ deps.keys := by
  have hlength : deps.keys.length = deps.edges.length := List.length_map _
  by_cases hmany : 2 ^ 32 ≤ deps.edges.length
  · obtain ⟨ordinal, hfree⟩ := free
    exact ⟨ordinal, mem_ordinalCandidates hmany ordinal, hfree⟩
  · have hfew : deps.keys.length < 2 ^ 32 := by
      rw [hlength]
      exact Nat.lt_of_not_le hmany
    obtain ⟨ordinal, hmem, hfree⟩ := exists_ordinal_notMem hfew deps.nextOrdinal
    rw [hlength] at hmem
    exact ⟨ordinal, hmem, hfree⟩

/-- The search for a free word, one word at a time: from `start` on it passes over `passed` words in
use and ends at `found`. -/
inductive Search (deps : Dependencies) : UInt32 → Nat → UInt32 → Prop
  /-- The word is free. -/
  | ends {start : UInt32} (free : Key.ordering start ∉ deps.keys) : Search deps start 0 start
  /-- The word is in use, and the search goes on with the next one. -/
  | goesOn {start found : UInt32} {passed : Nat} (used : Key.ordering start ∈ deps.keys)
      (rest : Search deps (start + 1) passed found) : Search deps start (passed + 1) found

namespace Search

variable {start found ordinal : UInt32} {passed count : Nat}

theorem notMem (search : deps.Search start passed found) : Key.ordering found ∉ deps.keys := by
  induction search with
  | ends free => exact free
  | goesOn _ _ ih => exact ih

/-- The search ends if it comes to a free word. -/
theorem exists_of_mem (mem : ordinal ∈ ordinalsFrom start count)
    (free : Key.ordering ordinal ∉ deps.keys) : ∃ passed found, deps.Search start passed found := by
  induction count generalizing start with
  | zero => exact absurd mem List.not_mem_nil
  | succ count ih =>
    rw [ordinalsFrom_succ] at mem
    by_cases hused : Key.ordering start ∈ deps.keys
    · rcases List.mem_cons.1 mem with rfl | hrest
      · exact absurd hused free
      · obtain ⟨passed, found, hsearch⟩ := ih hrest
        exact ⟨passed + 1, found, .goesOn hused hsearch⟩
    · exact ⟨0, start, .ends hused⟩

/-- The search does not pass over a free word. -/
theorem passed_lt (search : deps.Search start passed found)
    (mem : ordinal ∈ ordinalsFrom start count)
    (free : Key.ordering ordinal ∉ deps.keys) : passed < count := by
  induction search generalizing count with
  | ends _ =>
    have hlength := List.length_pos_of_mem mem
    rwa [length_ordinalsFrom] at hlength
  | goesOn used _ ih =>
    cases count with
    | zero => exact absurd mem List.not_mem_nil
    | succ count =>
      rw [ordinalsFrom_succ] at mem
      rcases List.mem_cons.1 mem with rfl | hrest
      · exact absurd used free
      · exact Nat.succ_lt_succ (ih hrest)

/-- Where the search ends is the first free word of a list that is long enough. -/
theorem find?_eq (search : deps.Search start passed found) (enough : passed < count) :
    ((ordinalsFrom start count).find? fun ordinal => !deps.contains (.ordering ordinal)) =
      some found := by
  induction search generalizing count with
  | ends free =>
    obtain ⟨rest, rfl⟩ := Nat.exists_eq_add_of_lt enough
    rw [Nat.zero_add, ordinalsFrom_succ]
    rw [← contains_iff_mem_keys] at free
    exact List.find?_cons_of_pos (by simpa using free)
  | goesOn used _ ih =>
    cases count with
    | zero => exact absurd enough (Nat.not_lt_zero _)
    | succ count =>
      rw [ordinalsFrom_succ]
      rw [← contains_iff_mem_keys] at used
      rw [List.find?_cons_of_neg (by simp [used])]
      exact ih (Nat.lt_of_succ_lt_succ enough)

end Search

/-- **If some word is free, the search ends**, and where it ends is the ordinal of a new edge. -/
theorem search_freshOrdinal (free : ∃ ordinal, Key.ordering ordinal ∉ deps.keys) :
    ∃ passed, deps.Search deps.nextOrdinal passed deps.freshOrdinal := by
  obtain ⟨ordinal, hmem, hfree⟩ := exists_ordinalCandidate free
  obtain ⟨passed, found, hsearch⟩ := Search.exists_of_mem hmem hfree
  have hfound : deps.ordinalCandidates.find? (fun ordinal => !deps.contains (.ordering ordinal)) =
      some found := hsearch.find?_eq (hsearch.passed_lt hmem hfree)
  refine ⟨passed, ?_⟩
  rw [freshOrdinal, hfound]
  exact hsearch

theorem freshOrdinal_notMem (free : ∃ ordinal, Key.ordering ordinal ∉ deps.keys) :
    Key.ordering deps.freshOrdinal ∉ deps.keys := by
  obtain ⟨passed, hsearch⟩ := search_freshOrdinal free
  exact hsearch.notMem

/-! ### Adding an ordering edge -/

theorem orderingTo?_eq_none_iff : deps.orderingTo? target = none ↔ ¬ deps.Orders target := by
  simp [orderingTo?, Orders]

/-- A second edge to the same target is not added. -/
theorem addOrdering_of_orders (orders : deps.Orders target) :
    (deps.addOrdering target).2 = deps := by
  cases hfound : deps.orderingTo? target with
  | none => exact absurd orders (orderingTo?_eq_none_iff.1 hfound)
  | some key => rw [addOrdering, hfound]

/-- The edges with one more at the end, which orders after `target` under a free key. -/
def withOrdering (deps : Dependencies) (ordinal : UInt32) (free : Key.ordering ordinal ∉ deps.keys)
    (target : SeedId) : Dependencies where
  edges := deps.edges ++ [⟨.ordering ordinal, target⟩]
  nextOrdinal := ordinal + 1
  distinct := by
    rw [← Edge.put_of_notMem target free]
    exact Edge.nodup_map_key_put deps.distinct _ target

/-- The first edge to a target goes to the end, under the first free word. -/
theorem addOrdering_of_free (free : ∃ ordinal, Key.ordering ordinal ∉ deps.keys)
    (new : ¬ deps.Orders target) :
    deps.addOrdering target =
      (.ordering deps.freshOrdinal,
        deps.withOrdering deps.freshOrdinal (freshOrdinal_notMem free) target) := by
  rw [addOrdering, orderingTo?_eq_none_iff.2 new]
  refine congrArg (Prod.mk _) (Dependencies.ext ?_ rfl)
  exact Edge.put_of_notMem target (freshOrdinal_notMem free)

theorem addOrdering_of_not_orders (can : deps.CanOrder target) (new : ¬ deps.Orders target) :
    ∃ ordinal, ∃ free : Key.ordering ordinal ∉ deps.keys,
      (deps.addOrdering target).2 = deps.withOrdering ordinal free target := by
  have hfree := can.resolve_left new
  refine ⟨deps.freshOrdinal, freshOrdinal_notMem hfree, ?_⟩
  rw [addOrdering_of_free hfree new]

theorem orders_addOrdering (deps : Dependencies) (target : SeedId) :
    (deps.addOrdering target).2.Orders target := by
  by_cases horders : deps.Orders target
  · rw [addOrdering_of_orders horders]
    exact horders
  · rw [addOrdering, orderingTo?_eq_none_iff.2 horders]
    exact ⟨_, Edge.mem_put _ _ _, rfl, rfl⟩

end Dependencies

/-! ### Waiting seeds -/

namespace Seed

variable {κ : Type}

/-- The seed, made to wait for `target`. -/
def await (seed : Seed κ) (target : SeedId) : Seed κ :=
  { seed with dependencies := (seed.dependencies.addOrdering target).2 }

theorem await_of_orders {seed : Seed κ} {target : SeedId}
    (orders : seed.dependencies.Orders target) :
    seed.await target = seed := by
  rw [await, Dependencies.addOrdering_of_orders orders]

theorem orders_await (seed : Seed κ) (target : SeedId) :
    (seed.await target).dependencies.Orders target :=
  seed.dependencies.orders_addOrdering target

@[simp] theorem await_await (seed : Seed κ) (target : SeedId) :
    (seed.await target).await target = seed.await target :=
  await_of_orders (seed.orders_await target)

end Seed

namespace Store

variable {κ : Type}

/-- Make the seed `anchor` wait for `target`. -/
def await (target : SeedId) (store : Store κ) (anchor : SeedId) : Store κ :=
  match store.get? anchor with
  | some seed => store.set anchor (seed.await target)
  | none => store

/-- Make seeds wait for `target`, one after the other. -/
def awaitAll (store : Store κ) (target : SeedId) (anchors : List SeedId) : Store κ :=
  anchors.foldl (await target) store

theorem get?_await (store : Store κ) (target anchor id : SeedId) :
    (store.await target anchor).get? id =
      (store.get? id).map fun seed => if id = anchor then seed.await target else seed := by
  rw [await]
  by_cases hanchor : id = anchor
  · subst hanchor
    cases hstored : store.get? id with
    | none => simp [hstored]
    | some seed =>
      dsimp only
      rw [store.get?_set _ _ _ (by rw [hstored]; rfl)]
      simp
  · cases hstored : store.get? anchor with
    | none => simp [hanchor]
    | some seed =>
      dsimp only
      rw [store.get?_set _ _ _ (by rw [hstored]; rfl), if_neg fun hsame => hanchor hsame.symm]
      simp [hanchor]

/-- **Waiting seeds, one by one.**  Just the listed seeds are made to wait, and each of them once,
however often it is listed. -/
theorem get?_awaitAll (store : Store κ) (target : SeedId) (anchors : List SeedId) (id : SeedId) :
    (store.awaitAll target anchors).get? id =
      (store.get? id).map fun seed => if id ∈ anchors then seed.await target else seed := by
  induction anchors generalizing store with
  | nil => cases h : store.get? id <;> simp [awaitAll, h]
  | cons anchor rest ih =>
    have hfirst : store.awaitAll target (anchor :: rest) =
        (store.await target anchor).awaitAll target rest := rfl
    rw [hfirst, ih, get?_await, Option.map_map]
    congr 1
    funext seed
    by_cases hanchor : id = anchor <;> by_cases hrest : id ∈ rest <;> simp [hanchor, hrest]

@[simp] theorem ids_awaitAll (store : Store κ) (target : SeedId) (anchors : List SeedId) :
    (store.awaitAll target anchors).ids = store.ids := by
  induction anchors generalizing store with
  | nil => rfl
  | cons anchor rest ih =>
    refine (ih _).trans ?_
    rw [await]
    cases store.get? anchor with
    | none => rfl
    | some seed => exact store.ids_set anchor _

/-- Seeds that wait already are not changed. -/
theorem awaitAll_of_orders {store : Store κ} {target : SeedId} {anchors : List SeedId}
    (waiting : ∀ anchor ∈ anchors, ∀ seed, store.get? anchor = some seed →
      seed.dependencies.Orders target) : store.awaitAll target anchors = store := by
  induction anchors with
  | nil => rfl
  | cons anchor rest ih =>
    have hfirst : store.await target anchor = store := by
      rw [await]
      cases hstored : store.get? anchor with
      | none => rfl
      | some seed =>
        dsimp only
        rw [Seed.await_of_orders (waiting anchor List.mem_cons_self seed hstored)]
        exact set_of_get? hstored
    have hrest := ih fun other hother => waiting other (List.mem_cons_of_mem _ hother)
    rw [awaitAll, List.foldl_cons, hfirst]
    exact hrest

end Store

end SeedGraph
