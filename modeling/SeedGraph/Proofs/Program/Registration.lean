import SeedGraph.Proofs.Creation
import SeedGraph.Proofs.Program.Shows

/-!
# Registering a program

A program is registered seed by seed, in preorder, in a session that may hold pre-existing seeds.
This module says what the session is then, in closed form: `Store.ofDescriptions existing added` is
the store that holds the seeds described by `existing` and `added`.  Completing the graph gives each
seed as many referents as there are edges to it in the descriptions (`fanIn`), so the session stands
for the page on which nothing but the pre-existing seeds can be mentioned.
-/

namespace SeedGraph

/-! ### Stores of described seeds -/

namespace Store

/-- The store of the pre-existing seeds `existing` and the registered seeds `added`. -/
def ofDescriptions (existing added : List (Blueprint Hook)) : Store Hook where
  older := existing.zipIdx.map fun (blueprint, k) =>
    blueprint.registered ⟨(k : Int) - existing.length⟩
  newer := added.zipIdx.map fun (blueprint, k) => blueprint.registered ⟨(k : Int)⟩

theorem ofBlueprints_eq (existing : List (Blueprint Hook)) :
    ofBlueprints existing = ofDescriptions existing [] := rfl

theorem preexisting_ofDescriptions (existing added : List (Blueprint Hook)) :
    (ofDescriptions existing added).preexisting = existing.length := by
  simp [ofDescriptions, preexisting]

theorem registered_ofDescriptions (existing added : List (Blueprint Hook)) :
    (ofDescriptions existing added).registered = added.length := by
  simp [ofDescriptions, registered]

theorem upper_ofDescriptions (existing added : List (Blueprint Hook)) :
    (ofDescriptions existing added).upper = added.length := by
  rw [upper_eq_registered, registered_ofDescriptions]

/-- The described seeds, numbered from the first pre-existing one on. -/
theorem seeds_ofDescriptions (existing added : List (Blueprint Hook)) :
    (ofDescriptions existing added).seeds =
      (existing ++ added).zipIdx.map fun (blueprint, k) =>
        blueprint.registered ⟨(k : Int) - existing.length⟩ := by
  have hid : ∀ k : Nat,
      (⟨((0 + existing.length + k : Nat) : Int) - existing.length⟩ : SeedId) = ⟨(k : Int)⟩ := by
    intro k
    rw [SeedId.mk.injEq]
    omega
  rw [List.zipIdx_append, List.zipIdx_eq_map_add (i := 0 + existing.length), List.map_append,
    List.map_map]
  simp only [seeds, ofDescriptions, Function.comp_def, hid]

theorem push_ofDescriptions (existing added : List (Blueprint Hook)) (blueprint : Blueprint Hook) :
    (ofDescriptions existing added).push
        (blueprint.registered ⟨(ofDescriptions existing added).upper⟩) =
      ofDescriptions existing (added ++ [blueprint]) := by
  rw [upper_ofDescriptions]
  unfold push ofDescriptions
  dsimp only
  rw [List.zipIdx_append, List.map_append, List.zipIdx_singleton, List.map_singleton,
    Nat.zero_add]

theorem get?_ofDescriptions (existing added : List (Blueprint Hook)) (id : SeedId) :
    (ofDescriptions existing added).get? id =
      if 0 ≤ id.index + existing.length then
        (existing ++ added)[(id.index + existing.length).toNat]?.map fun blueprint =>
          blueprint.registered id
      else none := by
  have hlower : (ofDescriptions existing added).lower = -(existing.length : Int) := by
    rw [lower_eq_preexisting, preexisting_ofDescriptions]
  obtain ⟨k, rfl⟩ | hlow := (ofDescriptions existing added).idAt_cases id
  · have hindex : ((ofDescriptions existing added).idAt k).index = (k : Int) - existing.length := by
      rw [idAt, preexisting_ofDescriptions]
    have hposition : ((k : Int) - existing.length + existing.length).toNat = k := by omega
    rw [get?_idAt, seeds_ofDescriptions, hindex, if_pos (by omega), hposition, List.getElem?_map,
      List.getElem?_zipIdx, Option.map_map]
    congr 1
    funext blueprint
    rw [Function.comp_apply, idAt, preexisting_ofDescriptions, Nat.zero_add]
  · rw [get?_of_lt_lower hlow, if_neg (by omega)]

end Store

/-! ### Registration -/

namespace Session

theorem step_register {session : Session} {blueprint : Blueprint Hook}
    (opened : session.finalized = false) (unnumbered : blueprint.id = none)
    (room : session.HasRoom) :
    session.step (.register (.seed blueprint)) =
      (.ok (.id ⟨session.upper⟩),
        session.enroll ⟨session.upper⟩ (blueprint.registered ⟨session.upper⟩)) := by
  apply step_of_ok
  have hregister : (Generator.register (.seed blueprint.build)).run session =
      .ok ⟨session.upper⟩
        (session.enroll ⟨session.upper⟩ (blueprint.registered ⟨session.upper⟩)) :=
    Generator.run_register opened unnumbered room
  exact (run_bind_ok hregister).trans rfl

/-- The requests that register seeds in order. -/
def registrations (blueprints : List (Blueprint Hook)) : List Request :=
  blueprints.map fun blueprint => .register (.seed blueprint)

/-- **Registering seeds one after the other** adds them to the store in that order, and changes
nothing else that matters later. -/
theorem run_registrations {existing blueprints added : List (Blueprint Hook)} {session : Session}
    (store : session.store = .ofDescriptions existing added) (opened : session.finalized = false)
    (unnumbered : ∀ blueprint ∈ blueprints, blueprint.id = none)
    (fits : ∀ limit, session.settings.limit = some limit →
      added.length + blueprints.length ≤ limit) :
    ∃ context journal, session.run (registrations blueprints) =
      { session with
        store := .ofDescriptions existing (added ++ blueprints), context, journal } := by
  induction blueprints generalizing session added with
  | nil =>
    refine ⟨session.context, session.journal, ?_⟩
    rw [List.append_nil, ← store]
    rfl
  | cons blueprint rest ih =>
    -- The limit counts registered seeds only, and the pre-existing ones cancel out.
    have hroom : session.HasRoom := by
      intro limit hlimit
      have hfits := fits limit hlimit
      rw [store, Store.registered_ofDescriptions]
      rw [List.length_cons] at hfits
      omega
    have hstep := step_register opened (unnumbered blueprint (by simp)) hroom
    have hstore : (session.enroll ⟨session.upper⟩ (blueprint.registered ⟨session.upper⟩)).store =
        .ofDescriptions existing (added ++ [blueprint]) := by
      show session.store.push (blueprint.registered ⟨session.store.upper⟩) = _
      rw [store, Store.push_ofDescriptions]
    obtain ⟨context, journal, hrest⟩ := ih hstore opened
      (fun other hother => unnumbered other (List.mem_cons_of_mem _ hother)) (by
        intro limit hlimit
        have hfits := fits limit hlimit
        rw [List.length_append, List.length_singleton]
        rw [List.length_cons] at hfits
        omega)
    refine ⟨context, journal, ?_⟩
    rw [registrations, List.map_cons, run, List.foldl_cons, hstep]
    refine hrest.trans ?_
    rw [List.append_assoc]
    rfl

end Session

/-! ### Completion -/

/-- The edges recorded at a seed are those that lead to it. -/
theorem Store.length_referentsOf (store : Store Hook) (id : SeedId) :
    (referentsOf store.referentEntries id).length =
      ((store.seeds.flatMap fun seed => seed.dependencies.edges).filter
        fun edge => edge.target = id).length := by
  have hzip : ∀ (ids : List SeedId) (seeds : List (Seed Hook)), ids.length = seeds.length →
      (referentsOf ((ids.zip seeds).flatMap fun entry =>
        entry.2.dependencies.referentEntries entry.1) id).length =
          ((seeds.flatMap fun seed => seed.dependencies.edges).filter
            fun edge => edge.target = id).length := by
    intro ids seeds hlength
    induction seeds generalizing ids with
    | nil => simp [referentsOf]
    | cons seed rest ih =>
      cases ids with
      | nil => exact absurd hlength (by simp)
      | cons owner ids =>
        have hrest := ih ids (by simpa using hlength)
        rw [referentsOf, List.length_map] at hrest ⊢
        rw [List.zip_cons_cons, List.flatMap_cons, List.flatMap_cons, List.filter_append,
          List.filter_append, List.length_append, List.length_append, hrest]
        congr 1
        unfold Dependencies.referentEntries
        dsimp only
        rw [List.filter_map, List.length_map]
        rfl
  have hentries := hzip store.ids store.seeds store.length_ids
  rw [← Store.entries_eq_zip] at hentries
  exact hentries

namespace Generator

variable {existing added : List (Blueprint Hook)} {session : Session}

theorem fanIn_ofDescriptions (id : SeedId) :
    (referentsOf (Store.ofDescriptions existing added).referentEntries id).length =
      fanIn (existing ++ added) id := by
  have hnumbered : (existing ++ added).flatMap
      (fun blueprint => (Dependencies.ofEdges blueprint.edges).edges) =
        (existing ++ added).zipIdx.flatMap
          fun entry => (Dependencies.ofEdges entry.1.edges).edges := by
    have hmap := List.flatMap_map Prod.fst
      (fun blueprint : Blueprint Hook => (Dependencies.ofEdges blueprint.edges).edges)
      (existing ++ added).zipIdx
    rw [List.zipIdx_map_fst] at hmap
    exact hmap
  rw [Store.length_referentsOf, fanIn, hnumbered]
  rw [Store.seeds_ofDescriptions, List.flatMap_map]
  rfl

/-- What is planned under an identifier after completion. -/
theorem plan_completed (session : Session) (id : SeedId) :
    session.completed.plan id = (session.store.get? id).map fun seed =>
      (seed.gain (referentsOf session.store.referentEntries id)).plan := by
  unfold plan completed
  dsimp only
  rw [Store.get?_record, Option.map_map]
  rfl

theorem lower_completed (store : session.store = .ofDescriptions existing added) :
    session.completed.lower = -existing.length := by
  show -((session.store.record _).preexisting : Int) = _
  rw [Store.preexisting_record, store, Store.preexisting_ofDescriptions]

theorem upper_completed (store : session.store = .ofDescriptions existing added) :
    session.completed.upper = added.length := by
  show ((session.store.record _).registered : Int) = _
  rw [Store.registered_record, store, Store.registered_ofDescriptions]

/-- The registered seeds are laid out as described. -/
theorem laid_completed (store : session.store = .ofDescriptions existing added) :
    session.completed.Laid 0 added := by
  intro k blueprint hk
  have hposition : ((0 + (k : Int)) + existing.length).toNat = existing.length + k := by omega
  rw [plan_completed, store, Store.get?_ofDescriptions, if_pos (by dsimp only; omega)]
  dsimp only
  rw [hposition, List.getElem?_append_right (by omega), Nat.add_sub_cancel_left, hk]
  exact ⟨_, rfl, rfl, rfl, rfl, rfl, rfl⟩

/-- Every seed has as many referents as there are edges to it in the descriptions. -/
theorem printer_completed (store : session.store = .ofDescriptions existing added)
    (targets : session.store.firstDangling? = none) :
    session.completed.printer = Printer.abridged {
      platform := session.platform
      stem := session.locals.stem
      fanIn := fanIn (existing ++ added) } := by
  unfold printer Printer.abridged
  congr 1
  funext id
  show _ = fanIn (existing ++ added) id
  rw [plan_completed, Option.map_map, ← fanIn_ofDescriptions, ← store]
  cases hstored : session.store.get? id with
  | some seed =>
    have hnone : seed.referents = [] := by
      rw [store, Store.get?_ofDescriptions] at hstored
      split at hstored
      · obtain ⟨blueprint, -, rfl⟩ := Option.map_eq_some_iff.1 hstored
        rfl
      · exact absurd hstored (by simp)
    simp [Seed.gain, Seed.plan, hnone]
  | none =>
    -- No edge leads to a seed that is not stored.
    have hempty : referentsOf session.store.referentEntries id = [] := by
      rw [referentsOf, List.map_eq_nil_iff, List.filter_eq_nil_iff]
      intro entry hentry
      have htarget := Store.isSome_get?_of_mem_referentEntries targets hentry
      simp only [decide_eq_true_eq]
      rintro rfl
      rw [hstored] at htarget
      exact absurd htarget (by simp)
    rw [hempty]
    rfl

/-- **After completion the session stands for the first page.** -/
theorem shows_completed (store : session.store = .ofDescriptions existing added)
    (presets : ∀ blueprint ∈ existing, ∃ text, blueprint.preset = some (.code text))
    (unset : ∀ blueprint ∈ added, blueprint.preset = none)
    (noLocals : session.locals.bindings = []) (idle : session.running = []) :
    Shows session.completed session.completed (Page.start existing) where
  same := ⟨rfl, rfl, rfl, rfl, rfl⟩
  locals := by
    show session.locals.counter = 0
    rw [session.locals.counted, noLocals]
    rfl
  mentions id := by
    rw [mention?, slot?_completed, slot?, store, Store.get?_ofDescriptions]
    unfold Page.start
    dsimp only
    by_cases hposition : 0 ≤ id.index + existing.length
    · rw [if_pos hposition, if_pos hposition, List.getElem?_append]
      by_cases hexisting : (id.index + existing.length).toNat < existing.length
      · rw [if_pos hexisting, List.getElem?_eq_getElem hexisting]
        obtain ⟨text, htext⟩ := presets _ (List.getElem_mem hexisting)
        simp [Blueprint.registered, Blueprint.build, htext, Slot.current, Compiled.code?]
      · have hbeyond : existing[(id.index + existing.length).toNat]? = none :=
          List.getElem?_eq_none (by omega)
        rw [if_neg hexisting, hbeyond]
        cases hadded : added[(id.index + existing.length).toNat - existing.length]? with
        | none => rfl
        | some blueprint =>
          have hpreset := unset blueprint (List.mem_of_getElem? hadded)
          simp [Blueprint.registered, Blueprint.build, hpreset, Slot.current]
    · rw [if_neg hposition, if_neg hposition]
      rfl
  fresh id hid := by
    have hindex : 0 ≤ id.index := hid
    unfold Page.start
    dsimp only
    rw [if_pos (by omega), List.getElem?_eq_none (by omega)]
    rfl
  running id hid := by
    have hnone : id ∈ session.running := hid
    rw [idle] at hnone
    exact absurd hnone List.not_mem_nil

end Generator

end SeedGraph
