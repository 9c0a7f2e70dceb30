import SeedGraph.Seed

/-!
# The store of a session

The seeds of a session stand in two lists: those that existed before it, in the order in which they
were supplied, and the registered ones in the order of registration.  One signed index space covers
both.  Registered seeds have the indices `0, 1, 2, …`, and the pre-existing ones the negative
indices that end with `-1`, so the stored indices are those from `lower` up to `upper`.

Reading a seed, replacing a seed and listing all seeds each find their way by the sign of the index
or by counting from `lower`.  That they agree is what the statements below say.

## Main definitions

* `Store`, `Store.ofPreexisting`, `Store.push`: how a store grows.
* `Store.get?`, `Store.set`: access by identifier.
* `Store.ids`, `Store.entries`: all seeds in ascending order of their identifiers.

## Main statements

* `Store.get?_isSome_iff`: exactly the indices from `lower` up to `upper` are stored.
* `Store.get?_set`, `Store.get?_push`: what a change of the store means for lookups.
* `Store.entries_eq_zip`: listing the seeds goes through the stored identifiers in order.
-/

namespace SeedGraph

/-- The seeds of a session. -/
structure Store (κ : Type) where
  /-- The seeds that existed before the session, the one supplied last at the end. -/
  older : List (Seed κ) := []
  /-- The registered seeds, in the order of registration. -/
  newer : List (Seed κ) := []

namespace Store

variable {κ : Type}

/-- A store that holds only pre-existing seeds. -/
def ofPreexisting (seeds : List (Seed κ)) : Store κ :=
  { older := seeds }

/-- How many of the seeds existed before the session. -/
def preexisting (store : Store κ) : Nat :=
  store.older.length

/-- How many seeds were registered. -/
def registered (store : Store κ) : Nat :=
  store.newer.length

/-- All seeds, the pre-existing ones first. -/
def seeds (store : Store κ) : List (Seed κ) :=
  store.older ++ store.newer

/-- The least stored index: minus the number of pre-existing seeds. -/
def lower (store : Store κ) : Int :=
  -(store.older.length : Int)

/-- The index of the seed that would be registered next. -/
def upper (store : Store κ) : Int :=
  store.newer.length

/-- The seed stored under an identifier: a negative index counts back from the end of the
pre-existing seeds. -/
def get? (store : Store κ) (id : SeedId) : Option (Seed κ) :=
  if 0 ≤ id.index then
    store.newer[id.index.toNat]?
  else
    (store.older.length + id.index).toNat?.bind fun k => store.older[k]?

/-- Replace the seed stored under an identifier; nothing changes if there is none. -/
def set (store : Store κ) (id : SeedId) (seed : Seed κ) : Store κ :=
  if 0 ≤ id.index then
    { store with newer := store.newer.set id.index.toNat seed }
  else
    match (store.older.length + id.index).toNat? with
    | some k => { store with older := store.older.set k seed }
    | none => store

/-- Store one more seed, under the index `upper`. -/
def push (store : Store κ) (seed : Seed κ) : Store κ :=
  { store with newer := store.newer ++ [seed] }

/-- The identifier of the seed at position `k` of all seeds. -/
def idAt (store : Store κ) (k : Nat) : SeedId :=
  ⟨(k : Int) - store.preexisting⟩

/-- The stored identifiers, in ascending order. -/
def ids (store : Store κ) : List SeedId :=
  (List.range store.seeds.length).map store.idAt

/-- The stored seeds with their identifiers, in ascending order: the identifiers count up from
`lower`. -/
def entries (store : Store κ) : List (SeedId × Seed κ) :=
  store.seeds.zipIdx.map fun (seed, k) => (⟨store.lower + (k : Int)⟩, seed)

/-- The stored identifiers at or after `start`, in ascending order. -/
def idsFrom (store : Store κ) (start : SeedId) : List SeedId :=
  store.ids.filter fun id => decide (start.index ≤ id.index)

/-! ### The ends of the index space -/

theorem length_seeds (store : Store κ) :
    store.seeds.length = store.preexisting + store.registered :=
  List.length_append

theorem lower_eq_preexisting (store : Store κ) : store.lower = -(store.preexisting : Int) := rfl

theorem upper_eq_registered (store : Store κ) : store.upper = (store.registered : Int) := rfl

/-- The stored indices are as many as the seeds. -/
theorem upper_sub_lower (store : Store κ) : store.upper - store.lower = store.seeds.length := by
  have hlength := store.length_seeds
  rw [lower_eq_preexisting, upper_eq_registered]
  omega

/-! ### Positions and identifiers -/

/-- The identifiers of the positions count up from `lower`. -/
theorem idAt_eq (store : Store κ) (k : Nat) : store.idAt k = ⟨store.lower + (k : Int)⟩ := by
  rw [idAt, lower_eq_preexisting, SeedId.mk.injEq]
  omega

theorem idAt_inj (store : Store κ) {j k : Nat} : store.idAt j = store.idAt k ↔ j = k := by
  simp only [idAt, SeedId.mk.injEq]
  omega

/-- Reading by the sign of the index is reading at the position among all seeds. -/
@[simp] theorem get?_idAt (store : Store κ) (k : Nat) :
    store.get? (store.idAt k) = store.seeds[k]? := by
  have hindex : (store.idAt k).index = (k : Int) - store.older.length := rfl
  by_cases hk : store.older.length ≤ k
  · have hposition : (store.idAt k).index.toNat = k - store.older.length := by omega
    rw [get?, if_pos (by omega), hposition, seeds, List.getElem?_append_right hk]
  · have hposition : (store.older.length + (store.idAt k).index).toNat? = some k :=
      Int.mem_toNat?.2 (by omega)
    rw [get?, if_neg (by omega), hposition, Option.bind_some, seeds,
      List.getElem?_append_left (by omega)]

/-- An index below all seeds stands for no position. -/
theorem get?_of_lt_lower {store : Store κ} {id : SeedId} (h : id.index < store.lower) :
    store.get? id = none := by
  have hlower : store.lower = -(store.older.length : Int) := rfl
  have hposition : ((store.older.length : Int) + id.index).toNat? = none := by
    cases hp : ((store.older.length : Int) + id.index).toNat? with
    | none => rfl
    | some k =>
      have := Int.mem_toNat?.1 hp
      omega
  rw [get?, if_neg (by omega), hposition, Option.bind_none]

/-- Every identifier is that of a position, or below all seeds. -/
theorem idAt_cases (store : Store κ) (id : SeedId) :
    (∃ k, id = store.idAt k) ∨ id.index < store.lower := by
  cases id with
  | mk index =>
    simp only [idAt, lower, preexisting, SeedId.mk.injEq]
    by_cases h : index < -(store.older.length : Int)
    · exact .inr h
    · exact .inl ⟨(index + store.older.length).toNat, by omega⟩

theorem get?_eq_some_iff {store : Store κ} {id : SeedId} {seed : Seed κ} :
    store.get? id = some seed ↔ ∃ k, id = store.idAt k ∧ store.seeds[k]? = some seed := by
  constructor
  · intro stored
    obtain ⟨k, rfl⟩ | hlow := store.idAt_cases id
    · exact ⟨k, rfl, by rwa [get?_idAt] at stored⟩
    · rw [get?_of_lt_lower hlow] at stored
      cases stored
  · rintro ⟨k, rfl, hk⟩
    rwa [get?_idAt]

theorem mem_seeds_of_get? {store : Store κ} {id : SeedId} {seed : Seed κ}
    (stored : store.get? id = some seed) : seed ∈ store.seeds := by
  obtain ⟨k, -, hk⟩ := get?_eq_some_iff.1 stored
  exact List.mem_of_getElem? hk

@[simp] theorem length_ids (store : Store κ) : store.ids.length = store.seeds.length := by
  simp [ids]

theorem mem_ids_iff (store : Store κ) (id : SeedId) :
    id ∈ store.ids ↔ store.lower ≤ id.index ∧ id.index < store.upper := by
  have hlength := store.length_seeds
  simp only [ids, List.mem_map, List.mem_range, lower_eq_preexisting, upper_eq_registered]
  constructor
  · rintro ⟨k, hk, rfl⟩
    simp only [idAt]
    omega
  · cases id with
    | mk index =>
      rintro ⟨hl, hu⟩
      simp only at hl hu
      refine ⟨(index + store.preexisting).toNat, by omega, ?_⟩
      simp only [idAt, SeedId.mk.injEq]
      omega

/-- Exactly the indices from `lower` up to `upper` are stored. -/
theorem get?_isSome_iff (store : Store κ) (id : SeedId) :
    (store.get? id).isSome ↔ store.lower ≤ id.index ∧ id.index < store.upper := by
  rw [← mem_ids_iff]
  constructor
  · intro h
    obtain ⟨seed, stored⟩ := Option.isSome_iff_exists.1 h
    obtain ⟨k, rfl, hk⟩ := get?_eq_some_iff.1 stored
    exact List.mem_map.2 ⟨k, List.mem_range.2 (List.getElem?_eq_some_iff.1 hk).1, rfl⟩
  · intro h
    obtain ⟨k, hk, rfl⟩ := List.mem_map.1 h
    simpa using List.mem_range.1 hk

/-- Listing the seeds goes through the stored identifiers in order. -/
theorem entries_eq_zip (store : Store κ) : store.entries = store.ids.zip store.seeds := by
  apply List.ext_getElem
  · simp [entries]
  · intro k _ _
    simp [entries, ids, idAt_eq]

/-! ### Stores of the same size -/

section SameSize

variable {store store' : Store κ} (preexisting : store'.preexisting = store.preexisting)
  (length : store'.seeds.length = store.seeds.length)

include preexisting in
theorem lower_congr : store'.lower = store.lower := by
  rw [lower_eq_preexisting, lower_eq_preexisting, preexisting]

include preexisting in
theorem idAt_congr : store'.idAt = store.idAt := by
  funext k
  unfold idAt
  rw [preexisting]

include preexisting length

theorem registered_congr : store'.registered = store.registered := by
  rw [length_seeds, length_seeds, preexisting] at length
  omega

theorem upper_congr : store'.upper = store.upper := by
  rw [upper_eq_registered, upper_eq_registered, registered_congr preexisting length]

theorem ids_congr : store'.ids = store.ids := by
  rw [ids, ids, idAt_congr preexisting, length]

end SameSize

/-! ### Lookups after a change -/

/-- Replacing by the sign of the index is replacing at the position among all seeds. -/
theorem seeds_set_idAt (store : Store κ) (k : Nat) (seed : Seed κ) :
    (store.set (store.idAt k) seed).seeds = store.seeds.set k seed := by
  have hindex : (store.idAt k).index = (k : Int) - store.older.length := rfl
  by_cases hk : store.older.length ≤ k
  · have hposition : (store.idAt k).index.toNat = k - store.older.length := by omega
    rw [set, if_pos (by omega), hposition, seeds, seeds, List.set_append_right _ _ hk]
  · have hposition : (store.older.length + (store.idAt k).index).toNat? = some k :=
      Int.mem_toNat?.2 (by omega)
    rw [set, if_neg (by omega), hposition, seeds, seeds, List.set_append_left _ _ (by omega)]

/-- Nothing is replaced where nothing is stored. -/
theorem set_of_get?_none {store : Store κ} {id : SeedId} (missing : store.get? id = none)
    (seed : Seed κ) : store.set id seed = store := by
  cases store with
  | mk older newer =>
    unfold get? at missing
    unfold set
    split
    · rename_i hindex
      rw [if_pos hindex] at missing
      rw [List.set_eq_of_length_le (List.getElem?_eq_none_iff.1 missing)]
    · rename_i hindex
      rw [if_neg hindex] at missing
      split
      · rename_i k hk
        rw [hk, Option.bind_some] at missing
        rw [List.set_eq_of_length_le (List.getElem?_eq_none_iff.1 missing)]
      · rfl

/-- Replacing a seed by itself changes nothing. -/
theorem set_of_get? {store : Store κ} {id : SeedId} {seed : Seed κ}
    (stored : store.get? id = some seed) : store.set id seed = store := by
  cases store with
  | mk older newer =>
    unfold get? at stored
    unfold set
    split
    · rename_i hindex
      rw [if_pos hindex] at stored
      obtain ⟨_, rfl⟩ := List.getElem?_eq_some_iff.1 stored
      rw [List.set_getElem_self]
    · rename_i hindex
      rw [if_neg hindex] at stored
      obtain ⟨k, hk, hseed⟩ := Option.bind_eq_some_iff.1 stored
      obtain ⟨_, rfl⟩ := List.getElem?_eq_some_iff.1 hseed
      simp only [hk, List.set_getElem_self]

@[simp] theorem preexisting_set (store : Store κ) (id : SeedId) (seed : Seed κ) :
    (store.set id seed).preexisting = store.preexisting := by
  unfold set preexisting
  split
  · rfl
  · split
    · exact List.length_set
    · rfl

@[simp] theorem registered_set (store : Store κ) (id : SeedId) (seed : Seed κ) :
    (store.set id seed).registered = store.registered := by
  unfold set registered
  split
  · exact List.length_set
  · split <;> rfl

@[simp] theorem length_seeds_set (store : Store κ) (id : SeedId) (seed : Seed κ) :
    (store.set id seed).seeds.length = store.seeds.length := by
  simp only [length_seeds, preexisting_set, registered_set]

@[simp] theorem lower_set (store : Store κ) (id : SeedId) (seed : Seed κ) :
    (store.set id seed).lower = store.lower :=
  lower_congr (store.preexisting_set id seed)

@[simp] theorem upper_set (store : Store κ) (id : SeedId) (seed : Seed κ) :
    (store.set id seed).upper = store.upper := by
  simp only [upper_eq_registered, registered_set]

@[simp] theorem idAt_set (store : Store κ) (id : SeedId) (seed : Seed κ) :
    (store.set id seed).idAt = store.idAt :=
  idAt_congr (store.preexisting_set id seed)

@[simp] theorem ids_set (store : Store κ) (id : SeedId) (seed : Seed κ) :
    (store.set id seed).ids = store.ids :=
  ids_congr (store.preexisting_set id seed) (store.length_seeds_set id seed)

/-- Replacing a stored seed changes the lookup of that seed and no other. -/
theorem get?_set (store : Store κ) (id other : SeedId) (seed : Seed κ)
    (h : (store.get? id).isSome) :
    (store.set id seed).get? other = if id = other then some seed else store.get? other := by
  obtain ⟨found, stored⟩ := Option.isSome_iff_exists.1 h
  obtain ⟨k, rfl, hk⟩ := get?_eq_some_iff.1 stored
  have hlt : k < store.seeds.length := (List.getElem?_eq_some_iff.1 hk).1
  obtain ⟨j, rfl⟩ | hlow := store.idAt_cases other
  · have hread : (store.set (store.idAt k) seed).get? (store.idAt j) =
        (store.set (store.idAt k) seed).seeds[j]? := by
      rw [← get?_idAt, idAt_set]
    rw [hread, seeds_set_idAt, List.getElem?_set, get?_idAt]
    simp only [idAt_inj]
    split <;> simp_all
  · have hne : store.idAt k ≠ other := by
      rintro rfl
      simp [get?_of_lt_lower hlow] at h
    rw [if_neg hne, get?_of_lt_lower hlow, get?_of_lt_lower (by rwa [lower_set])]

@[simp] theorem preexisting_push (store : Store κ) (seed : Seed κ) :
    (store.push seed).preexisting = store.preexisting := rfl

@[simp] theorem registered_push (store : Store κ) (seed : Seed κ) :
    (store.push seed).registered = store.registered + 1 :=
  List.length_append

theorem seeds_push (store : Store κ) (seed : Seed κ) :
    (store.push seed).seeds = store.seeds ++ [seed] :=
  (List.append_assoc _ _ _).symm

@[simp] theorem lower_push (store : Store κ) (seed : Seed κ) :
    (store.push seed).lower = store.lower := rfl

@[simp] theorem upper_push (store : Store κ) (seed : Seed κ) :
    (store.push seed).upper = store.upper + 1 := by
  simp only [upper_eq_registered, registered_push, Int.natCast_add, Int.natCast_one]

/-- A new seed is found at the old `upper`, and no other lookup changes. -/
theorem get?_push (store : Store κ) (seed : Seed κ) (id : SeedId) :
    (store.push seed).get? id = if id.index = store.upper then some seed else store.get? id := by
  have hlength := store.length_seeds
  have hbounds := store.lower_eq_preexisting
  have hupper := store.upper_eq_registered
  obtain ⟨k, rfl⟩ | hlow := store.idAt_cases id
  · have hindex : (store.idAt k).index = store.upper ↔ k = store.seeds.length := by
      simp only [idAt]
      omega
    have hread : (store.push seed).get? (store.idAt k) = (store.push seed).seeds[k]? :=
      (store.push seed).get?_idAt k
    rw [hread, seeds_push, List.getElem?_append, get?_idAt]
    simp only [hindex]
    by_cases hk : k < store.seeds.length
    · rw [if_pos hk, if_neg (by omega)]
    · by_cases he : k = store.seeds.length
      · simp [he]
      · have : k - store.seeds.length ≠ 0 := by omega
        simp [hk, he, this]
  · have hnone : (store.push seed).get? id = none := get?_of_lt_lower hlow
    rw [hnone, get?_of_lt_lower hlow, if_neg (by omega)]

end Store

end SeedGraph
