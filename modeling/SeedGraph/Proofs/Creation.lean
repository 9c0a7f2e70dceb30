import SeedGraph.Proofs.Move

/-!
# New sessions

`createWith_eq_ok` says what a new session is: its settings are usable, none of the seeds offered is
a placeholder or has an identifier, and the session holds the described seeds under the identifiers
from `-n` to `-1`, with nothing else done yet.
-/

namespace SeedGraph

/-- The store of a new session: of `n` seeds the first gets the index `-n` and the last `-1`. -/
def Store.ofBlueprints (blueprints : List (Blueprint Hook)) : Store Hook :=
  .ofPreexisting (blueprints.zipIdx.map fun (blueprint, k) =>
    blueprint.registered ⟨(k : Int) - blueprints.length⟩)

/-- What a new session holds under an identifier is one of the described seeds. -/
theorem Store.exists_of_get?_ofBlueprints {blueprints : List (Blueprint Hook)} {id : SeedId}
    {seed : Seed Hook} (stored : (Store.ofBlueprints blueprints).get? id = some seed) :
    ∃ blueprint ∈ blueprints, seed = blueprint.registered id := by
  have hlength : (Store.ofBlueprints blueprints).preexisting = blueprints.length := by
    simp [Store.ofBlueprints, Store.ofPreexisting, Store.preexisting]
  obtain ⟨k, rfl, hk⟩ := Store.get?_eq_some_iff.1 stored
  rw [Store.idAt, hlength]
  simp only [Store.seeds, Store.ofBlueprints, Store.ofPreexisting, List.append_nil,
    List.getElem?_map, List.getElem?_zipIdx, Option.map_map] at hk
  obtain ⟨blueprint, hblueprint, rfl⟩ := Option.map_eq_some_iff.1 hk
  exact ⟨blueprint, List.mem_of_getElem? hblueprint, by simp⟩

/-- Offers that all turn out to be seeds. -/
theorem mapM_toSeed_eq_ok {candidates : List (Candidate (Blueprint Hook))}
    {seeds : List (Seed Hook)}
    (h : (candidates.map (Candidate.map Blueprint.build)).mapM Candidate.toSeed = .ok seeds) :
    ∃ blueprints : List (Blueprint Hook), candidates = blueprints.map Candidate.seed ∧
      seeds = blueprints.map Blueprint.build := by
  induction candidates generalizing seeds with
  | nil =>
    rw [List.map_nil, List.mapM_nil] at h
    obtain rfl : [] = seeds := Except.ok.inj h
    exact ⟨[], rfl, rfl⟩
  | cons candidate rest ih =>
    rw [List.map_cons, List.mapM_cons] at h
    cases candidate with
    | placeholder tagged => exact absurd h (by simp [Candidate.map, Candidate.toSeed,
        Candidate.seedFor, bind, Except.bind])
    | seed blueprint =>
      cases hrest : (rest.map (Candidate.map Blueprint.build)).mapM Candidate.toSeed with
      | error failure =>
        rw [hrest] at h
        exact absurd h (by simp [Candidate.map, Candidate.toSeed, Candidate.seedFor, bind,
          Except.bind])
      | ok others =>
        rw [hrest] at h
        obtain ⟨blueprints, rfl, rfl⟩ := ih hrest
        obtain rfl : blueprint.build :: blueprints.map Blueprint.build = seeds := Except.ok.inj h
        exact ⟨blueprint :: blueprints, rfl, rfl⟩

/-- Numbering seeds succeeds only if none of them has an identifier. -/
theorem mapM_assignId_eq_ok {offset : Int} {blueprints : List (Blueprint Hook)} {start : Nat}
    {numbered : List (Seed Hook)}
    (h : ((blueprints.map Blueprint.build).zipIdx start).mapM
      (fun (seed, k) => seed.assignId ⟨(k : Int) - offset⟩) = .ok numbered) :
    (∀ blueprint ∈ blueprints, blueprint.id = none) ∧
      numbered = (blueprints.zipIdx start).map fun (blueprint, k) =>
        blueprint.registered ⟨(k : Int) - offset⟩ := by
  induction blueprints generalizing start numbered with
  | nil =>
    obtain rfl : [] = numbered := Except.ok.inj h
    exact ⟨by simp, rfl⟩
  | cons blueprint rest ih =>
    rw [List.map_cons, List.zipIdx_cons, List.mapM_cons] at h
    dsimp only at h
    cases hid : blueprint.id with
    | some existing =>
      have hbuild : blueprint.build.id = some existing := hid
      rw [Seed.assignId, hbuild] at h
      exact absurd h (by simp [bind, Except.bind])
    | none =>
      have hbuild : blueprint.build.id = none := hid
      rw [Seed.assignId, hbuild] at h
      cases hrest : ((rest.map Blueprint.build).zipIdx (start + 1)).mapM
          (fun (seed, k) => seed.assignId ⟨(k : Int) - offset⟩) with
      | error failure =>
        rw [hrest] at h
        exact absurd h (by simp [bind, Except.bind])
      | ok others =>
        obtain ⟨hnone, rfl⟩ := ih hrest
        rw [hrest] at h
        refine ⟨by simpa [hid] using hnone, ?_⟩
        exact (Except.ok.inj h).symm

/-- Usable settings have a platform, and a stem that is an identifier. -/
theorem Settings.check_eq_ok {settings : Settings} {platform : Platform}
    (h : settings.check = .ok platform) :
    settings.platform = some platform ∧ isIdentifier settings.stem = true := by
  unfold Settings.check at h
  cases hplatform : settings.platform with
  | none =>
    rw [hplatform] at h
    exact absurd h (by simp)
  | some given =>
    rw [hplatform] at h
    dsimp only at h
    by_cases hstem : isIdentifier settings.stem = true
    · rw [if_neg (by simp [hstem])] at h
      by_cases hlimit : settings.limit = some 0
      · rw [if_pos hlimit] at h
        exact absurd h (by simp)
      · rw [if_neg hlimit] at h
        exact ⟨congrArg some (Except.ok.inj h), hstem⟩
    · rw [if_pos (by simpa using hstem)] at h
      exact absurd h (by simp)

/-- **What a new session is.** -/
theorem createWith_eq_ok {settings : Settings} {candidates : List (Candidate (Blueprint Hook))}
    {origin : Session} (h : Session.createWith settings candidates = .ok origin) :
    ∃ (platform : Platform) (blueprints : List (Blueprint Hook)), settings.check = .ok platform ∧
      candidates = blueprints.map Candidate.seed ∧
      (∀ blueprint ∈ blueprints, blueprint.id = none) ∧
      origin = Generator.ofStore settings platform (.ofBlueprints blueprints) := by
  rw [Session.createWith, Generator.createWith] at h
  cases hcheck : settings.check with
  | error failure =>
    rw [hcheck] at h
    exact absurd h (by simp [bind, Except.bind])
  | ok platform =>
    rw [hcheck] at h
    cases hseeds : (candidates.map (Candidate.map Blueprint.build)).mapM Candidate.toSeed with
    | error failure =>
      rw [hseeds] at h
      exact absurd h (by simp [bind, Except.bind])
    | ok seeds =>
      obtain ⟨blueprints, rfl, rfl⟩ := mapM_toSeed_eq_ok hseeds
      rw [hseeds] at h
      cases hnumbered : (blueprints.map Blueprint.build).zipIdx.mapM
          (fun (seed, k) =>
            seed.assignId ⟨(k : Int) - (blueprints.map Blueprint.build).length⟩) with
      | error failure =>
        simp only [bind, Except.bind, hnumbered] at h
        exact absurd h (by simp)
      | ok numbered =>
        obtain ⟨hnone, rfl⟩ := mapM_assignId_eq_ok hnumbered
        simp only [bind, Except.bind, hnumbered] at h
        refine ⟨platform, blueprints, rfl, rfl, hnone, ?_⟩
        rw [← Except.ok.inj h, List.length_map]
        rfl

end SeedGraph
