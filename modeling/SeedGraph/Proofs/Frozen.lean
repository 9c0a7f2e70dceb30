import SeedGraph.Proofs.Runs

/-!
# A complete graph stays as it is

Once a graph is complete, no seed is added, and of a stored seed only the result and the payload can
still change.  What is left of a seed without these two is its *design*: identifier, kind, mode,
boundary, wish about being bound, edges, referents and hook.  `Store.SameGraph` compares two stores
by the designs of their seeds, and `Move.sameGraph` says that every move of a session with a
complete graph keeps them.

The number of referents and the binding policy are questions about the design, so their answers are
fixed as well, and it does not matter when a hook asks (`Session.finalize_freezes_graph`).
-/

namespace SeedGraph

variable {κ : Type}

/-- A seed apart from its result and its payload. -/
def Seed.design (seed : Seed κ) : Seed κ :=
  { seed with slot := .unset, payload := none }

namespace Seed

variable {seed seed' : Seed κ}

theorem boundary_of_design (h : seed.design = seed'.design) : seed.boundary = seed'.boundary := by
  show seed.design.boundary = seed'.design.boundary
  rw [h]

theorem dependencies_of_design (h : seed.design = seed'.design) :
    seed.dependencies = seed'.dependencies := by
  show seed.design.dependencies = seed'.design.dependencies
  rw [h]

theorem hook_of_design (h : seed.design = seed'.design) : seed.hook = seed'.hook := by
  show seed.design.hook = seed'.design.hook
  rw [h]

theorem referents_of_design (h : seed.design = seed'.design) :
    seed.referents = seed'.referents := by
  show seed.design.referents = seed'.design.referents
  rw [h]

end Seed

namespace Store

/-- The design of a stored seed. -/
def design? (store : Store κ) (id : SeedId) : Option (Seed κ) :=
  (store.get? id).map Seed.design

theorem design?_of_stored {store : Store κ} {id : SeedId} {seed : Seed κ}
    (stored : store.get? id = some seed) : store.design? id = some seed.design := by
  rw [design?, stored]
  rfl

/-- Two stores hold the same seeds, apart from results and payloads. -/
structure SameGraph (store store' : Store κ) : Prop where
  /-- As many seeds existed before the session. -/
  preexisting : store'.preexisting = store.preexisting
  /-- There are as many seeds in all. -/
  length : store'.seeds.length = store.seeds.length
  /-- The seeds have the same designs. -/
  design : store'.design? = store.design?

namespace SameGraph

variable {store store' store'' : Store κ}

theorem refl (store : Store κ) : store.SameGraph store := ⟨rfl, rfl, rfl⟩

theorem trans (h : store.SameGraph store') (h' : store'.SameGraph store'') :
    store.SameGraph store'' :=
  ⟨h'.preexisting.trans h.preexisting, h'.length.trans h.length, h'.design.trans h.design⟩

/-- A stored seed is replaced by one of the same design. -/
theorem set {id : SeedId} {seed seed' : Seed κ} (stored : store.get? id = some seed)
    (same : seed'.design = seed.design) : store.SameGraph (store.set id seed') := by
  refine ⟨store.preexisting_set id seed', store.length_seeds_set id seed', ?_⟩
  funext other
  unfold design?
  rw [store.get?_set _ _ _ (by rw [stored]; rfl)]
  by_cases heq : id = other
  · rw [if_pos heq, ← heq, stored, Option.map_some, Option.map_some, same]
  · rw [if_neg heq]

theorem lower (h : store.SameGraph store') : store'.lower = store.lower :=
  lower_congr h.preexisting

theorem upper (h : store.SameGraph store') : store'.upper = store.upper :=
  upper_congr h.preexisting h.length

theorem ids (h : store.SameGraph store') : store'.ids = store.ids :=
  ids_congr h.preexisting h.length

/-- What is stored in one of the stores is stored in the other, with the same design. -/
theorem stored (h : store.SameGraph store') {id : SeedId} {seed' : Seed κ}
    (hstored : store'.get? id = some seed') :
    ∃ seed, store.get? id = some seed ∧ seed.design = seed'.design := by
  have hdesign := design?_of_stored hstored
  rw [h.design] at hdesign
  exact Option.map_eq_some_iff.1 hdesign

/-- What is asked about the design of a seed is answered alike. -/
theorem any_eq (h : store.SameGraph store') {p : Seed κ → Bool}
    (hp : ∀ seed, p seed.design = p seed) (id : SeedId) :
    (store'.get? id).any p = (store.get? id).any p := by
  have hdesign : ∀ store : Store κ, (store.design? id).any p = (store.get? id).any p := by
    intro store
    unfold design?
    rw [Option.any_map]
    congr 1
    funext seed
    exact hp seed
  rw [← hdesign, ← hdesign, h.design]

theorem symm (h : store.SameGraph store') : store'.SameGraph store :=
  ⟨h.preexisting.symm, h.length.symm, h.design.symm⟩

end SameGraph

end Store

/-- **No move changes a complete graph.** -/
theorem Move.sameGraph {gen gen' : Session} (move : Move gen gen')
    (complete : gen.finalized = true) :
    gen.store.SameGraph gen'.store := by
  have hclosed : gen.finalized ≠ false := by
    rw [complete]
    simp
  cases move with
  | register _ opened _ _ => exact absurd opened hclosed
  | addEdge _ _ opened _ => exact absurd opened hclosed
  | addOrdering _ opened _ => exact absurd opened hclosed
  | complete opened _ _ => exact absurd opened hclosed
  | setPayload _ stored => exact .set stored rfl
  | bind stored _ => exact .set stored rfl
  | write _ _ stored _ => exact .set stored rfl
  | _ => exact .refl _

theorem Moves.sameGraph {gen gen' : Session} (moves : Moves gen gen')
    (complete : gen.finalized = true) : gen.store.SameGraph gen'.store := by
  induction moves with
  | refl => exact .refl _
  | tail earlier move ih => exact ih.trans (move.sameGraph (Moves.finalized earlier complete))

/-! ### Questions about the design -/

/-- Two seeds of the same design differ in their results and payloads only. -/
theorem Seed.eq_of_design {seed seed' : Seed κ} (h : seed.design = seed'.design) :
    seed' = { seed with slot := seed'.slot, payload := seed'.payload } := by
  cases seed
  cases seed'
  simp only [Seed.design, Seed.mk.injEq] at h ⊢
  simp only [h, and_self]

namespace Session

variable {session : Session}

/-- How many edges lead to a seed can be read off its design. -/
theorem fst_step_referentCount (complete : session.finalized = true) (id : SeedId) :
    (session.step (.referentCount id)).1 =
      match session.store.design? id with
      | some design => .ok (.count design.referents.length)
      | none => .error (.seedNotFound id) := by
  unfold Store.design?
  cases hstored : session.store.get? id with
  | none =>
    rw [step_of_error (run_bind_error (Generator.run_referentCount_of_none complete hstored))]
    rfl
  | some seed =>
    rw [step_of_ok (run_bind_ok (Generator.run_referentCount complete hstored))]
    rfl

/-- What the policy says about a seed can be read off its design. -/
theorem fst_step_shouldBind (complete : session.finalized = true) (id : SeedId) :
    (session.step (.shouldBind id)).1 =
      match session.store.design? id with
      | some design => .ok (.decision
          (shouldBind design.bindingWish design.boundary design.mode design.referents.length))
      | none => .error (.seedNotFound id) := by
  unfold Store.design?
  cases hstored : session.store.get? id with
  | none =>
    rw [step_of_error (run_bind_error (Generator.run_policy_of_none complete hstored))]
    rfl
  | some seed =>
    rw [step_of_ok (run_bind_ok (Generator.run_policy complete hstored))]
    rfl

/-- **A graph that was completed is frozen.**  At every later moment, whatever was asked, whatever
hooks did and whatever failed:

* the graph is complete and has the same bounds;
* every seed is stored as it was, apart from its result and its payload;
* how many edges lead to a seed, and whether it is to be bound, is answered as right after the graph
  was completed; the same failure is the answer for a seed that is not stored. -/
theorem finalize_freezes_graph {gen done : Session} (reachable : Reachable gen)
    (finalized : Generator.finalize.run gen = .ok () done) :
    (∀ requests, Moves done (done.run requests)) ∧
    ∀ moment, Moves done moment →
      moment.finalized = true ∧ moment.lower = done.lower ∧ moment.upper = done.upper ∧
      (∀ id seed, done.store.get? id = some seed →
        ∃ slot payload, moment.store.get? id = some { seed with slot, payload }) ∧
      ∀ id, (moment.step (.referentCount id)).1 = (done.step (.referentCount id)).1 ∧
        (moment.step (.shouldBind id)).1 = (done.step (.shouldBind id)).1 := by
  obtain ⟨failure, hfail⟩ | ⟨opened, targets, acyclic, hrun⟩ := Generator.finalize_cases gen
  · rw [finalized] at hfail
    exact absurd hfail (by simp)
  rw [finalized] at hrun
  injection hrun with _ hdone
  have complete : done.finalized = true := by
    rw [hdone]
    rfl
  have hmove : Move gen done := by
    rw [hdone]
    exact .complete opened targets acyclic
  have numbered : done.store.Numbered := hmove.numbered reachable.numbered
  refine ⟨fun requests => (passage_run done requests numbered).moves, fun moment moves => ?_⟩
  have hsame := moves.sameGraph complete
  have hcomplete := Moves.finalized moves complete
  refine ⟨hcomplete, hsame.lower, hsame.upper, fun id seed hstored => ?_, fun id => ⟨?_, ?_⟩⟩
  · obtain ⟨found, hfound, hdesign⟩ := hsame.symm.stored hstored
    rw [hfound]
    exact ⟨found.slot, found.payload, congrArg some (Seed.eq_of_design hdesign.symm)⟩
  · rw [fst_step_referentCount hcomplete, fst_step_referentCount complete, hsame.design]
  · rw [fst_step_shouldBind hcomplete, fst_step_shouldBind complete, hsame.design]

/-- A hook that tries to change the graph in all possible ways, and survives that it cannot.  A
second edge to its own seed would have made the seed one that has to be bound. -/
theorem finalize_freezes_graph_meddler :
    let meddler : Blueprint Hook := {
      kind := "meddler"
      hook := [.attempt (.request (.register (.seed { kind := "late", hook := [] }))),
        .attempt (.request (.addDependency ⟨1⟩ (.named "more") ⟨0⟩)),
        .attempt (.request (.addOrdering ⟨1⟩ ⟨0⟩)),
        .attempt (.request .finalize),
        .request (.setPayload ⟨1⟩ .null),
        .text "x", .setResult, .proceed] }
    let consumer : Blueprint Hook := {
      kind := "consumer"
      edges := [⟨.arg 0, ⟨0⟩⟩]
      hook := [.input (.arg 0), .setResult, .proceed] }
    let registrations : List Request := [.register (.seed meddler), .register (.seed consumer)]
    ∃ done : Session,
      Generator.finalize.run (blank.run registrations) = .ok () done ∧
      (done.run [.generate]).latest = some (.code "x") ∧
      (done.run [.generate]).upper = done.upper ∧
      ((done.run [.generate]).step (.referentCount ⟨0⟩)).1 = (done.step (.referentCount ⟨0⟩)).1 ∧
      ((done.run [.generate]).step (.shouldBind ⟨0⟩)).1 = (done.step (.shouldBind ⟨0⟩)).1 := by
  intro meddler consumer registrations
  have reachable := reachable_run_blank registrations
  have hseen :
      seenAfter? (fun _ (done : Session) => (done.run [.generate]).latest) Generator.finalize
        (blank.run registrations) = some (some (.code "x")) := by decide +kernel
  obtain ⟨_, done, finalized, hlatest⟩ := run_of_seenAfter? hseen
  obtain ⟨hmoves, hmoments⟩ := finalize_freezes_graph reachable finalized
  obtain ⟨-, -, hupper, -, hanswers⟩ := hmoments _ (hmoves [.generate])
  exact ⟨done, finalized, hlatest, hupper, hanswers ⟨0⟩⟩

end Session

end SeedGraph
