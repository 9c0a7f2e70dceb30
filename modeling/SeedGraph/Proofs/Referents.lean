import SeedGraph.Proofs.Outcome

/-!
# The effect of completing a graph

Completing a graph notes every edge at its target, one edge after the other.  Here that pass is a
function on stores, `Store.record`, with its effect on each seed in closed form: a seed gains the
referents that the listed edges give it, in the order of the list, and keeps everything else.

`Generator.finalize_cases` then says all that completing a graph can do: it fails and changes
nothing, or every target is stored, no forbidden cycle was found, and the session differs from
before in the recorded store and in being complete.
-/

namespace SeedGraph

/-- The referents that a list of edges gives to the seed `id`. -/
def referentsOf (entries : List (SeedId × Referent)) (id : SeedId) : List Referent :=
  (entries.filter fun entry => entry.1 = id).map Prod.snd

namespace Seed

variable {κ : Type}

/-- A seed with more edges leading to it. -/
def gain (seed : Seed κ) (referents : List Referent) : Seed κ :=
  { seed with referents := seed.referents ++ referents }

@[simp] theorem gain_nil (seed : Seed κ) : seed.gain [] = seed := by
  simp [gain]

@[simp] theorem gain_gain (seed : Seed κ) (first second : List Referent) :
    (seed.gain first).gain second = seed.gain (first ++ second) := by
  simp [gain]

end Seed

namespace Store

variable {κ : Type}

/-- Note an edge at its target. -/
def addReferent (store : Store κ) (entry : SeedId × Referent) : Store κ :=
  match store.get? entry.1 with
  | some seed => store.set entry.1 (seed.gain [entry.2])
  | none => store

/-- Note edges at their targets, one after the other. -/
def record (store : Store κ) (entries : List (SeedId × Referent)) : Store κ :=
  entries.foldl addReferent store

theorem get?_addReferent (store : Store κ) (entry : SeedId × Referent) (id : SeedId) :
    (store.addReferent entry).get? id =
      (store.get? id).map fun seed => seed.gain (referentsOf [entry] id) := by
  rw [addReferent]
  by_cases htarget : entry.1 = id
  · subst htarget
    cases hstored : store.get? entry.1 with
    | none => simp [hstored]
    | some seed =>
      rw [store.get?_set _ _ _ (by rw [hstored]; rfl)]
      simp [referentsOf]
  · have hnone : referentsOf [entry] id = [] := by simp [referentsOf, htarget]
    rw [hnone]
    cases hstored : store.get? entry.1 with
    | none => cases store.get? id <;> simp
    | some seed =>
      rw [store.get?_set _ _ _ (by rw [hstored]; rfl), if_neg htarget]
      cases store.get? id <;> simp

/-- **Recording edges, seed by seed.**  Every stored seed gains the edges that lead to it, in the
order in which they are listed, and nothing else about the store changes. -/
theorem get?_record (store : Store κ) (entries : List (SeedId × Referent)) (id : SeedId) :
    (store.record entries).get? id =
      (store.get? id).map fun seed => seed.gain (referentsOf entries id) := by
  induction entries generalizing store with
  | nil => cases h : store.get? id <;> simp [record, h, referentsOf]
  | cons entry rest ih =>
    have hsplit : referentsOf (entry :: rest) id =
        referentsOf [entry] id ++ referentsOf rest id := by
      rw [referentsOf, referentsOf, referentsOf, ← List.map_append, ← List.filter_append,
        List.singleton_append]
    have hrec : store.record (entry :: rest) = (store.addReferent entry).record rest := rfl
    rw [hrec, ih, get?_addReferent, hsplit, Option.map_map]
    congr 1
    funext seed
    simp

@[simp] theorem preexisting_record (store : Store κ) (entries : List (SeedId × Referent)) :
    (store.record entries).preexisting = store.preexisting := by
  induction entries generalizing store with
  | nil => rfl
  | cons entry rest ih =>
    have hstep : (store.addReferent entry).preexisting = store.preexisting := by
      rw [addReferent]
      split
      · exact store.preexisting_set _ _
      · rfl
    exact (ih _).trans hstep

@[simp] theorem registered_record (store : Store κ) (entries : List (SeedId × Referent)) :
    (store.record entries).registered = store.registered := by
  induction entries generalizing store with
  | nil => rfl
  | cons entry rest ih =>
    have hstep : (store.addReferent entry).registered = store.registered := by
      rw [addReferent]
      split
      · exact store.registered_set _ _
      · rfl
    exact (ih _).trans hstep

@[simp] theorem length_seeds_record (store : Store κ) (entries : List (SeedId × Referent)) :
    (store.record entries).seeds.length = store.seeds.length := by
  rw [length_seeds, length_seeds, preexisting_record, registered_record]

/-- A stored seed and its identifier, as they stand in the list of entries. -/
theorem mem_entries_iff (store : Store κ) (id : SeedId) (seed : Seed κ) :
    (id, seed) ∈ store.entries ↔ store.get? id = some seed := by
  rw [entries_eq_zip, List.mem_iff_getElem?]
  constructor
  · rintro ⟨k, hk⟩
    obtain ⟨hid, hseed⟩ := List.getElem?_zip_eq_some.1 hk
    have hk : k < store.seeds.length := (List.getElem?_eq_some_iff.1 hseed).1
    obtain rfl : store.idAt k = id := by simpa [ids, hk] using hid
    rw [get?_idAt]
    exact hseed
  · intro h
    obtain ⟨k, rfl, hseed⟩ := get?_eq_some_iff.1 h
    have hk : k < store.seeds.length := (List.getElem?_eq_some_iff.1 hseed).1
    refine ⟨k, List.getElem?_zip_eq_some.2 ⟨?_, hseed⟩⟩
    simp [ids, hk]

/-- Without a dangling edge, every target to be recorded is stored. -/
theorem isSome_get?_of_mem_referentEntries {store : Store κ}
    (complete : store.firstDangling? = none)
    {entry : SeedId × Referent} (mem : entry ∈ store.referentEntries) :
    (store.get? entry.1).isSome := by
  obtain ⟨⟨id, seed⟩, hentry, hedge⟩ := List.mem_flatMap.1 mem
  obtain ⟨edge, hmem, rfl⟩ := List.mem_map.1 hedge
  have hends : (id, edge.target) ∈ store.edgeEnds :=
    List.mem_flatMap.2 ⟨(id, seed), hentry, List.mem_map.2 ⟨edge, hmem, rfl⟩⟩
  have hfound := List.find?_eq_none.1 complete _ hends
  simpa [contains, Option.isSome_iff_ne_none] using hfound

end Store

namespace Generator

variable {κ : Type}

theorem run_recordReferent {gen : Generator κ} {target : SeedId} (referent : Referent)
    (stored : (gen.store.get? target).isSome) :
    (recordReferent target referent).run gen =
      .ok () { gen with store := gen.store.addReferent (target, referent) } := by
  obtain ⟨seed, hseed⟩ := Option.isSome_iff_exists.1 stored
  rw [recordReferent, run_bind_ok (run_lookup_of_some hseed), Store.addReferent, hseed]
  rfl

/-- Recording edges succeeds as long as their targets are stored. -/
theorem run_recordReferents (entries : List (SeedId × Referent)) (gen : Generator κ)
    (stored : ∀ entry ∈ entries, (gen.store.get? entry.1).isSome) :
    (recordReferents entries).run gen = .ok () { gen with store := gen.store.record entries } := by
  induction entries generalizing gen with
  | nil => rfl
  | cons entry rest ih =>
    obtain ⟨target, referent⟩ := entry
    have hhead := run_recordReferent referent (stored (target, referent) (by simp))
    rw [recordReferents, forM_cons, run_bind_ok hhead]
    refine (ih _ fun other mem => ?_).trans rfl
    have hother := stored other (List.mem_cons_of_mem _ mem)
    rw [Store.get?_addReferent, Option.isSome_map]
    exact hother

/-- The session with a complete graph: every edge is recorded at its target. -/
def completed (gen : Generator κ) : Generator κ :=
  { gen with store := gen.store.record gen.store.referentEntries, finalized := true }

/-- **The outcome of completing a graph.**  A complete graph is refused first, then a missing
target, then a forbidden cycle. -/
theorem run_finalize (gen : Generator κ) :
    finalize.run gen =
      if gen.finalized = false then
        match gen.store.firstDangling?, gen.forbiddenCycle? with
        | some ends, _ => .error (.danglingDependency ends.1 ends.2) gen
        | none, some id => .error (.cyclicDependency id) gen
        | none, none => .ok () gen.completed
      else .error .alreadyFinalized gen := by
  cases hopen : gen.finalized with
  | true => exact run_bind_error (run_requireOpen_of_finalized hopen)
  | false =>
    have hpass := run_requireOpen_of_open hopen
    rw [if_pos rfl, finalize, run_bind_ok hpass]
    cases hdangling : gen.store.firstDangling? with
    | some ends =>
      have hfail : requireTargets.run gen = .error (.danglingDependency ends.1 ends.2) gen := by
        rw [requireTargets, run_get_bind, hdangling]
        rfl
      rw [run_bind_error hfail]
    | none =>
      have htargets : requireTargets.run gen = .ok () gen := by
        rw [requireTargets, run_get_bind, hdangling]
        rfl
      rw [run_bind_ok htargets]
      cases hcycle : gen.forbiddenCycle? with
      | some id =>
        have hfail : requireAcyclic.run gen = .error (.cyclicDependency id) gen := by
          rw [requireAcyclic, run_get_bind, hcycle]
          rfl
        rw [run_bind_error hfail]
      | none =>
        have hacyclic : requireAcyclic.run gen = .ok () gen := by
          rw [requireAcyclic, run_get_bind, hcycle]
          rfl
        -- Every target is stored by now, so recording the referents cannot fail halfway.
        have hrecord := run_recordReferents gen.store.referentEntries gen fun entry mem =>
          Store.isSome_get?_of_mem_referentEntries hdangling mem
        rw [run_bind_ok hacyclic, run_get_bind, run_bind_ok hrecord]
        rfl

/-- **All that completing a graph can do.** -/
theorem finalize_cases (gen : Generator κ) :
    (∃ failure, finalize.run gen = .error failure gen) ∨
      (gen.finalized = false ∧ gen.store.firstDangling? = none ∧ gen.forbiddenCycle? = none ∧
        finalize.run gen = .ok () gen.completed) := by
  rw [run_finalize]
  cases hopen : gen.finalized with
  | true => exact .inl ⟨_, rfl⟩
  | false =>
    cases hdangling : gen.store.firstDangling? with
    | some ends => exact .inl ⟨_, rfl⟩
    | none =>
      cases hcycle : gen.forbiddenCycle? with
      | some id => exact .inl ⟨_, rfl⟩
      | none => exact .inr ⟨rfl, rfl, rfl, rfl⟩

end Generator

end SeedGraph
