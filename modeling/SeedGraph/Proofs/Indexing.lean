import SeedGraph.Proofs.Inverse
import SeedGraph.Proofs.Program.Walk
import SeedGraph.Proofs.Words

/-!
# Identifiers are indices

The identifier of a seed is the index under which it is stored, at every moment of every run.
Reading, replacing and listing seeds find their way by this index each in its own way, so that they
agree is a property of the store that each of them keeps.

Three things make the index space what it is.

* Seeds carry their identifiers (`Reachable.numbered`): a seed is given its index when it is stored,
  and no later change of the seed touches it.
* The space has one fixed end and one end that grows (`Move.lower`, `Move.registered_cases`): no
  move but a registration adds a seed, and that one adds it behind all others.
* A registration needs room (`Moves.withinLimit`), so the limit of the settings bounds the growing
  end.

Indices are unbounded integers here.  As long as fewer than `2 ^ 31` seeds stand on either side of
zero, each of them is a 32-bit word, and comparing words is comparing indices
(`Generator.lookup_word_iff`).  Then reading, changing and listing seeds by words is the same too
(`Store.wordsAgree`), and so are the words that creation and registration hand out.
-/

namespace SeedGraph

/-! ### The ends of the index space -/

theorem Move.settings {gen gen' : Session} (move : Move gen gen') :
    gen'.settings = gen.settings := by
  cases move <;> rfl

theorem Move.lower {gen gen' : Session} (move : Move gen gen') : gen'.lower = gen.lower := by
  cases move with
  | complete _ _ _ =>
    exact Store.lower_congr (gen.store.preexisting_record _)
  | addEdge _ _ _ _ => exact gen.store.lower_set _ _
  | addOrdering _ _ _ => exact gen.store.lower_set _ _
  | setPayload _ _ => exact gen.store.lower_set _ _
  | bind _ _ => exact gen.store.lower_set _ _
  | write _ _ _ _ => exact gen.store.lower_set _ _
  | _ => rfl

/-- **Only a registration adds a seed**, and only if there is room. -/
theorem Move.registered_cases {gen gen' : Session} (move : Move gen gen') :
    gen'.store.registered = gen.store.registered ∨
      gen.HasRoom ∧ gen'.store.registered = gen.store.registered + 1 := by
  have hset := gen.store.registered_set
  cases move with
  | register blueprint _ _ room =>
    exact .inr ⟨room, gen.store.registered_push _⟩
  | addEdge _ _ _ _ => exact .inl (hset _ _)
  | addOrdering _ _ _ => exact .inl (hset _ _)
  | setPayload _ _ => exact .inl (hset _ _)
  | bind _ _ => exact .inl (hset _ _)
  | write _ _ _ _ => exact .inl (hset _ _)
  | complete _ _ _ =>
    exact .inl (gen.store.registered_record _)
  | _ => exact .inl rfl

/-- No more seeds are registered than the settings allow. -/
def Generator.WithinLimit (gen : Session) : Prop :=
  ∀ limit, gen.settings.limit = some limit → gen.store.registered ≤ limit

theorem Move.withinLimit {gen gen' : Session} (move : Move gen gen') (h : gen.WithinLimit) :
    gen'.WithinLimit := by
  intro limit hlimit
  rw [move.settings] at hlimit
  obtain hsame | ⟨room, hmore⟩ := move.registered_cases
  · rw [hsame]
    exact h limit hlimit
  · rw [hmore]
    exact room limit hlimit

namespace Moves

variable {gen gen' : Session}

theorem settings (moves : Moves gen gen') : gen'.settings = gen.settings := by
  induction moves with
  | refl => rfl
  | tail _ move ih => exact move.settings.trans ih

theorem lower (moves : Moves gen gen') : gen'.lower = gen.lower := by
  induction moves with
  | refl => rfl
  | tail _ move ih => exact move.lower.trans ih

theorem withinLimit (moves : Moves gen gen') (h : gen.WithinLimit) : gen'.WithinLimit := by
  induction moves with
  | refl => exact h
  | tail _ move ih => exact move.withinLimit ih

end Moves

/-- The ends of the index space of a new session. -/
theorem Store.ends_ofBlueprints (blueprints : List (Blueprint Hook)) :
    (Store.ofBlueprints blueprints).lower = -(blueprints.length : Int) ∧
      (Store.ofBlueprints blueprints).registered = 0 := by
  simp [Store.lower, Store.registered, Store.ofBlueprints, Store.ofPreexisting]

/-! ### Lookups -/

namespace Generator

/-- **A lookup succeeds just inside the index space.** -/
theorem lookup_cases (gen : Session) (id : SeedId) :
    (gen.lower ≤ id.index ∧ id.index < gen.upper ∧
      ∃ seed, gen.store.get? id = some seed ∧ (lookup id).run gen = .ok seed gen) ∨
    (¬(gen.lower ≤ id.index ∧ id.index < gen.upper) ∧
      (lookup id).run gen = .error (.seedNotFound id) gen) := by
  have hrange := gen.store.get?_isSome_iff id
  cases hstored : gen.store.get? id with
  | none =>
    refine .inr ⟨fun hin => ?_, run_lookup_of_none hstored⟩
    have hsome := hrange.2 hin
    rw [hstored] at hsome
    exact absurd hsome (by simp)
  | some seed =>
    obtain ⟨hlow, hhigh⟩ := hrange.1 (by rw [hstored]; rfl)
    exact .inl ⟨hlow, hhigh, seed, rfl, run_lookup_of_some hstored⟩

/-- The seeds are listed by looking up one index after the other. -/
theorem entries_eq_lookups (gen : Session) :
    (gen.store.entries.map fun entry => (entry.1, EStateM.Result.ok entry.2 gen)) =
      (SeedId.range gen.lower (gen.upper - gen.lower).toNat).map fun id =>
        (id, (lookup id).run gen) := by
  have hlength : (gen.upper - gen.lower).toNat = gen.store.seeds.length := by
    have hall := gen.store.upper_sub_lower
    unfold Generator.upper Generator.lower
    omega
  have hids : SeedId.range gen.lower gen.store.seeds.length = gen.store.entries.map Prod.fst :=
    gen.store.ids_eq_range.symm.trans gen.store.map_fst_entries.symm
  rw [hlength, hids, List.map_map]
  refine List.map_congr_left fun entry mem => ?_
  have hstored := (gen.store.mem_entries_iff entry.1 entry.2).1 mem
  rw [Function.comp_apply, run_lookup_of_some hstored]

/-! ### Registrations -/

/-- A seed that has an identifier is refused. -/
theorem run_register_of_numbered {gen : Session} {seed : Seed Hook} {existing : SeedId}
    (hid : seed.id = some existing) :
    (register (.seed seed)).run gen =
      .error (if gen.finalized then .alreadyFinalized else .alreadyRegistered existing) gen := by
  cases hopen : gen.finalized with
  | true => exact run_bind_error (run_requireOpen_of_finalized hopen)
  | false =>
    have hseed : (MonadExcept.ofExcept (Candidate.seed seed).toSeed : GenM Hook _).run gen =
        .ok seed gen := rfl
    have hassign : (MonadExcept.ofExcept (seed.assignId ⟨gen.upper⟩) : GenM Hook _).run gen =
        .error (.alreadyRegistered existing) gen := by
      rw [run_ofExcept, Seed.assignId, hid]
    rw [register, run_bind_ok (run_requireOpen_of_open hopen), run_bind_ok hseed, run_get_bind,
      run_bind_error hassign]
    rfl

/-- A registration that succeeds stores the seed behind all others. -/
theorem register_eq_ok {gen next : Session} {candidate : Candidate (Seed Hook)} {id : SeedId}
    (hrun : (register candidate).run gen = .ok id next) :
    id = ⟨gen.upper⟩ ∧ next.upper = gen.upper + 1 ∧
      (∃ seed, candidate = .seed seed ∧ seed.id = none ∧
        next.store.get? id = some { seed with id := some id }) ∧
      ∀ other, other ≠ id → next.store.get? other = gen.store.get? other := by
  obtain ⟨failure, hfail⟩ | ⟨seed, rfl, -, hid, -, hdone⟩ := register_cases candidate gen
  · rw [hfail] at hrun
    exact absurd hrun (by simp)
  rw [hdone] at hrun
  injection hrun with hanswer hnext
  subst hanswer hnext
  refine ⟨rfl, Store.upper_push _ _, ⟨seed, rfl, hid, ?_⟩, fun other hother => ?_⟩
  · exact (Store.get?_push _ _ _).trans (if_pos rfl)
  · refine (Store.get?_push _ _ _).trans (if_neg fun hindex => hother ?_)
    cases other
    exact congrArg SeedId.mk hindex

end Generator

/-! ### Words -/

/-- The word that a pre-existing seed is given is its identifier. -/
theorem Store.Numbered.givenWord {κ : Type} {store : Store κ} (numbered : store.Numbered)
    (few : store.preexisting < 2 ^ 31) {k : Nat} (hk : k < store.preexisting) :
    ∃ seed, store.older[k]? = some seed ∧
      seed.id = some ⟨(Store.givenWord store.preexisting k).toInt⟩ := by
  have hread : store.get? (store.idAt k) = store.older[k]? := by
    rw [get?_idAt, seeds, List.getElem?_append_left hk]
  have hsome : store.older[k]? = some (store.older.get ⟨k, hk⟩) := List.getElem?_eq_getElem hk
  refine ⟨_, hsome, ?_⟩
  rw [toInt_givenWord few hk]
  exact numbered (store.idAt k) _ (hread.trans hsome)

/-- Between two bounds of 32 bits, comparing words is comparing indices. -/
theorem SeedId.mem_words_iff {lower upper : Int} (hlower : -2 ^ 31 ≤ lower) (hnone : lower ≤ 0)
    (hupper : upper < 2 ^ 31) (hsome : 0 ≤ upper) (word : Int32) :
    Int32.ofInt lower ≤ word ∧ word < Int32.ofInt upper ↔
      lower ≤ word.toInt ∧ word.toInt < upper := by
  rw [Int32.le_iff_toInt_le, Int32.lt_iff_toInt_lt, Int32.toInt_ofInt_of_le hlower (by omega),
    Int32.toInt_ofInt_of_le (by omega) hupper]

namespace Generator

variable {gen : Session}

/-- **A word is looked up successfully just between the words `lower` and `upper`.** -/
theorem lookup_word_iff (few : gen.store.preexisting < 2 ^ 31)
    (hregistered : gen.store.registered < 2 ^ 31) (word : Int32) :
    (∃ seed, (lookup ⟨word.toInt⟩).run gen = .ok seed gen) ↔
      Int32.ofInt gen.lower ≤ word ∧ word < Int32.ofInt gen.upper := by
  have hlower : gen.lower = -(gen.store.preexisting : Int) := rfl
  have hupper : gen.upper = (gen.store.registered : Int) := gen.store.upper_eq_registered
  rw [SeedId.mem_words_iff (by omega) (by omega) (by omega) (by omega)]
  obtain ⟨hlow, hhigh, seed, -, hrun⟩ | ⟨hout, hrun⟩ := gen.lookup_cases ⟨word.toInt⟩
  · exact ⟨fun _ => ⟨hlow, hhigh⟩, fun _ => ⟨seed, hrun⟩⟩
  · refine ⟨?_, fun hin => absurd hin hout⟩
    rintro ⟨seed, hfound⟩
    rw [hrun] at hfound
    exact absurd hfound (by simp)

/-- A registration answers the word `upper` and raises it by one. -/
theorem upperWord_register (many : gen.store.registered < 2 ^ 31)
    {candidate : Candidate (Seed Hook)} {id : SeedId} {next : Session}
    (hrun : (register candidate).run gen = .ok id next) :
    id = ⟨gen.store.upperWord.toInt⟩ ∧ next.store.upperWord = gen.store.upperWord + 1 ∧
      (next.store.registered < 2 ^ 31 →
        next.store.upperWord.toInt = gen.store.upperWord.toInt + 1) := by
  obtain ⟨hid, hupper, -⟩ := register_eq_ok hrun
  have hone : next.store.registered = gen.store.registered + 1 := Int.ofNat.inj hupper
  refine ⟨?_, ?_, fun hfits => ?_⟩
  · rw [hid, Store.toInt_upperWord many]
    rfl
  · show Int32.ofNat next.store.registered = Int32.ofNat gen.store.registered + 1
    rw [hone, Int32.ofNat_add]
    rfl
  · rw [Store.toInt_upperWord hfits, Store.toInt_upperWord many]
    exact hupper

/-- What is stored is stored under a word, but not under the least one. -/
theorem representable_of_lookup (few : gen.store.preexisting < 2 ^ 31)
    (hregistered : gen.store.registered < 2 ^ 31) {id : SeedId} {seed : Seed Hook}
    (hrun : (lookup id).run gen = .ok seed gen) : id.Representable ∧ id ≠ .undefined := by
  have hlower : gen.lower = -(gen.store.preexisting : Int) := rfl
  have hupper : gen.upper = (gen.store.registered : Int) := gen.store.upper_eq_registered
  obtain ⟨hlow, hhigh, -⟩ | ⟨-, hfail⟩ := gen.lookup_cases id
  · refine ⟨⟨by omega, by omega⟩, ?_⟩
    rintro rfl
    have hleast : SeedId.undefined.index = -2147483648 := rfl
    omega
  · rw [hfail] at hrun
    exact absurd hrun (by simp)

end Generator

/-! ### The main result -/

/-- **The identifier of a seed is its index.**  A session is created over `candidates`, which all
have to be seeds without an identifier, and takes up the indices from `-candidates.length` to `-1`
for them.  Requests lead it from moment to moment, and at each of these, also in the middle of a
hook and after any failure:

* a lookup succeeds just for the indices from `lower` on and below `upper`, and the seed that it
  finds carries this index as its identifier;
* listing the seeds gives what looking up these indices gives, one after the other in ascending
  order;
* `lower` is what it was, and `upper` does not exceed the limit of the settings;
* a registration that succeeds answers the old `upper`, raises it by one, stores the seed there and
  leaves what is stored under every other index;
* a seed that has an identifier is refused, a copy of a stored one in particular, and nothing
  changes;
* with fewer than `2 ^ 31` seeds on either side of zero, all of this is about 32-bit words: a word
  is looked up successfully just if it is not less than the word `lower` and less than the word
  `upper`, and all stored identifiers are words, but not the one that stands for no identifier;
* reading, changing and listing seeds by words, with the conversions between words of 32 and 64
  bits that each of them makes, agrees with this.  If there are more than `2 ^ 31` seeds in all, an
  addition overflows when they are listed, and what is listed is right nevertheless;
* the word that a seed is given at creation or by a registration is its identifier, and a
  registration raises the word `upper` by one, as long as the latter fits. -/
theorem Session.id_is_index {settings : Settings} {candidates : List (Candidate (Blueprint Hook))}
    {origin : Session} (created : createWith settings candidates = .ok origin) :
    (∀ candidate ∈ candidates, ∃ blueprint, candidate = .seed blueprint ∧ blueprint.id = none) ∧
    origin.lower = -(candidates.length : Int) ∧ origin.upper = 0 ∧
    (∀ requests, Moves origin (origin.run requests)) ∧
    ∀ moment, Moves origin moment →
      (∀ id : SeedId,
        (moment.lower ≤ id.index ∧ id.index < moment.upper ∧
          ∃ seed, (Generator.lookup id).run moment = .ok seed moment ∧ seed.id = some id) ∨
        (¬(moment.lower ≤ id.index ∧ id.index < moment.upper) ∧
          (Generator.lookup id).run moment = .error (.seedNotFound id) moment)) ∧
      (moment.store.entries.map fun entry => (entry.1, EStateM.Result.ok entry.2 moment)) =
        (SeedId.range moment.lower (moment.upper - moment.lower).toNat).map (fun id =>
          (id, (Generator.lookup id).run moment)) ∧
      moment.lower = origin.lower ∧
      (∀ limit, settings.limit = some limit → moment.upper ≤ limit) ∧
      (∀ candidate id next, (Generator.register candidate).run moment = .ok id next →
        id = ⟨moment.upper⟩ ∧ next.upper = moment.upper + 1 ∧
        (∃ seed, candidate = .seed seed ∧ seed.id = none ∧
          next.store.get? id = some { seed with id := some id }) ∧
        ∀ other, other ≠ id → next.store.get? other = moment.store.get? other) ∧
      (∀ seed existing, seed.id = some existing →
        (Generator.register (.seed seed)).run moment =
          .error (if moment.finalized then .alreadyFinalized else .alreadyRegistered existing)
            moment) ∧
      (∀ id, moment.lower ≤ id.index → id.index < moment.upper →
        moment.step (.registerCopy id) =
          (.error (if moment.finalized then .alreadyFinalized else .alreadyRegistered id),
            moment)) ∧
      (candidates.length < 2 ^ 31 → moment.store.registered < 2 ^ 31 →
        (∀ word : Int32, (∃ seed, (Generator.lookup ⟨word.toInt⟩).run moment = .ok seed moment) ↔
          Int32.ofInt moment.lower ≤ word ∧ word < Int32.ofInt moment.upper) ∧
        (∀ id seed, (Generator.lookup id).run moment = .ok seed moment →
          id.Representable ∧ id ≠ .undefined) ∧
        moment.store.WordsAgree ∧
        (∀ k < candidates.length, ∃ seed, moment.store.older[k]? = some seed ∧
          seed.id = some ⟨(Store.givenWord candidates.length k).toInt⟩) ∧
        ∀ candidate id next, (Generator.register candidate).run moment = .ok id next →
          id = ⟨moment.store.upperWord.toInt⟩ ∧
          next.store.upperWord = moment.store.upperWord + 1 ∧
          (next.store.registered < 2 ^ 31 →
            next.store.upperWord.toInt = moment.store.upperWord.toInt + 1)) := by
  obtain ⟨platform, blueprints, -, rfl, hnone, rfl⟩ := createWith_eq_ok created
  obtain ⟨hlower, hregistered⟩ := Store.ends_ofBlueprints blueprints
  refine ⟨fun candidate mem => ?_, ?_, ?_, moves_run created, fun moment hmoment => ?_⟩
  · obtain ⟨blueprint, hmem, rfl⟩ := List.mem_map.1 mem
    exact ⟨blueprint, rfl, hnone blueprint hmem⟩
  · rw [List.length_map]
    exact hlower
  · exact (Store.upper_eq_registered _).trans (congrArg Int.ofNat hregistered)
  have reachable : Reachable moment := ⟨_, _, _, created, hmoment⟩
  have numbered := reachable.numbered
  have hends : moment.lower = -(blueprints.length : Int) := (Moves.lower hmoment).trans hlower
  have hpreexisting : moment.store.preexisting = (blueprints.map Candidate.seed).length := by
    rw [List.length_map]
    exact Int.ofNat.inj (Int.neg_inj.1 hends)
  refine ⟨fun id => ?_, moment.entries_eq_lookups, Moves.lower hmoment, fun limit hlimit => ?_,
    fun candidate id next hrun => Generator.register_eq_ok hrun,
    fun seed existing hid => Generator.run_register_of_numbered hid, fun id hlow hhigh => ?_,
    fun hfew hmany => ?_⟩
  · obtain ⟨hlow, hhigh, seed, hstored, hrun⟩ | hfail := moment.lookup_cases id
    · exact .inl ⟨hlow, hhigh, seed, hrun, numbered id seed hstored⟩
    · exact .inr hfail
  · have hwithin : moment.WithinLimit := Moves.withinLimit hmoment fun limit _ => by
      show (Store.ofBlueprints blueprints).registered ≤ limit
      rw [hregistered]
      exact Nat.zero_le limit
    rw [show moment.upper = _ from Store.upper_eq_registered _]
    exact Int.ofNat_le.2 (hwithin limit ((Moves.settings hmoment).symm ▸ hlimit))
  · obtain ⟨-, -, seed, hstored, hrun⟩ | ⟨hout, -⟩ := moment.lookup_cases id
    · refine step_of_error ?_
      rw [Generator.respond, run_bind_ok hrun,
        run_bind_error (Generator.run_register_of_numbered (numbered id seed hstored))]
    · exact absurd ⟨hlow, hhigh⟩ hout
  · rw [← hpreexisting] at hfew ⊢
    refine ⟨Generator.lookup_word_iff hfew hmany, fun id seed hrun =>
      Generator.representable_of_lookup hfew hmany hrun, Store.wordsAgree hfew hmany,
      fun k hk => numbered.givenWord hfew hk, fun candidate id next hrun => ?_⟩
    exact Generator.upperWord_register hmany hrun

/-- Two seeds exist beforehand and two may be registered.  A copy and a third seed are refused, the
index space ends where the limit is, and neither of the extreme words is stored.  What is listed by
words can be read by the same words. -/
theorem Session.id_is_index_full :
    let leaf : Blueprint Hook := { kind := "leaf", hook := [] }
    let settings : Settings := { platform := some .letBinding, limit := some 2 }
    let requests : List Request := [.register (.seed leaf), .registerCopy ⟨-1⟩,
      .register (.seed leaf), .register (.seed leaf)]
    ∃ origin, createWith settings [.seed leaf, .seed leaf] = .ok origin ∧
      let gen := origin.run requests
      gen.lower = -2 ∧ gen.upper = 2 ∧ gen.store.registered < 2 ^ 31 ∧
      gen.step (.registerCopy ⟨-2⟩) = (.error (.alreadyRegistered ⟨-2⟩), gen) ∧
      (∃ seed, (Generator.lookup ⟨(-2 : Int32).toInt⟩).run gen = .ok seed gen) ∧
      ¬(∃ seed, (Generator.lookup ⟨Int32.minValue.toInt⟩).run gen = .ok seed gen) ∧
      (¬∃ seed, (Generator.lookup ⟨Int32.maxValue.toInt⟩).run gen = .ok seed gen) ∧
      gen.store.listedWords.map Prod.fst = [-2, -1, 0, 1] ∧
      (∀ entry ∈ gen.store.listedWords, gen.store.readWord? entry.1 = some entry.2) ∧
      (gen.store.readWord? Int32.minValue).isSome = false := by
  intro leaf settings requests
  let origin : Session := Generator.ofStore settings .letBinding (.ofBlueprints [leaf, leaf])
  have created : createWith settings [.seed leaf, .seed leaf] = .ok origin := by
    unfold settings leaf
    rfl
  let gen := origin.run requests
  have hlower : gen.lower = -2 := by decide +kernel
  have hupper : gen.upper = 2 := by decide +kernel
  have hopen : gen.finalized = false := by decide +kernel
  have hcount : gen.store.registered = 2 := by decide +kernel
  have hfew : gen.store.registered < 2 ^ 31 := by
    rw [hcount]
    decide
  obtain ⟨-, -, -, hmoves, hmoments⟩ := id_is_index created
  obtain ⟨-, -, -, -, -, -, hcopy, hwords⟩ := hmoments gen (hmoves requests)
  obtain ⟨hword, -, hagree, -⟩ := hwords (by decide) hfew
  have hrefused := hcopy ⟨-2⟩ (by rw [hlower]) (by rw [hupper]; decide)
  rw [hopen] at hrefused
  rw [hlower, hupper] at hword
  refine ⟨origin, created, hlower, hupper, hfew, hrefused, (hword (-2)).2 (by decide),
    fun hfound => absurd ((hword Int32.minValue).1 hfound) (by decide),
    fun hfound => absurd ((hword Int32.maxValue).1 hfound) (by decide), by decide +kernel,
    hagree.readBack, ?_⟩
  rw [Bool.eq_false_iff, ne_eq, hagree.inside]
  decide +kernel

end SeedGraph
