import SeedGraph.Proofs.Views

/-!
# Binding a result a second time

A result is moved to a local once, and a second attempt fails.  There are two places where it would
be noticed.  The slot holds the name of its local, and reports that name.  A session looks at the
slot before it would allocate another local, and what it reports is the result that it found, which
is the mention of the local by then.  The two agree just for locals that the platform mentions by
their bare name.

* `Generator.RefusesRebinding`: a second attempt fails and reports a given text, be it made on
  request or by the continuation of the seed.
* `Ledger.refusesRebinding`: the text is the mention of the local.
* `Session.rebinding_reports_mention`: at every moment of every run, and when the text is the name.
-/

namespace SeedGraph

/-! ### The local of a bound seed -/

/-- The local that is found for a bound seed is the one in its slot. -/
theorem Ledger.bindingFor?_eq {settings : Settings} {gen : Session} (h : Ledger settings gen)
    {id : SeedId} {name : String} {reference value : Compiled}
    (bound : gen.slot? id = some (.bound name reference value)) :
    gen.locals.bindingFor? id = some ⟨id, name, value⟩ := by
  have hmem := ((h.bound id name reference value).1 bound).1
  have honly := Binding.filter_seed_eq_singleton h.single hmem
  rw [Locals.bindingFor?, ← List.head?_filter, honly]
  rfl

/-! ### A second attempt -/

namespace Generator

/-- The policy asks for a local just if the graph is complete and the seed is one that gets a local.
-/
theorem run_policy_eq_true_iff {gen : Session} {id : SeedId} {seed : Seed Hook}
    (stored : gen.store.get? id = some seed) :
    (policy id).run gen = .ok true gen ↔ gen.finalized = true ∧
      shouldBind seed.bindingWish seed.boundary seed.mode seed.referents.length = true := by
  cases hcomplete : gen.finalized with
  | true =>
    rw [run_policy hcomplete stored]
    simp
  | false =>
    have hfail : requireFinalized.run gen = .error .notFinalized gen := by
      rw [run_requireFinalized, if_neg (by rw [hcomplete]; simp)]
    rw [policy, referentCount, run_bind_error (run_bind_error hfail)]
    simp

/-- The continuation of a bound seed tries to bind it if the policy asks for a local. -/
theorem run_settle_of_bound {gen : Session} {id : SeedId} {seed : Seed Hook} {name text : String}
    {value : Compiled} (stored : gen.store.get? id = some seed)
    (bound : seed.slot = .bound name (.code text) value)
    (wanted : (policy id).run gen = .ok true gen) :
    (settle id).run gen = .error (.alreadyBound id text) gen := by
  have hcode : seed.slot.current = some (.code text) := by
    rw [bound]
    rfl
  have hbind : (bindByPolicy id).run gen = .error (.alreadyBound id text) gen := by
    rw [bindByPolicy, run_bind_ok wanted, if_pos rfl]
    exact run_bind_of_bound stored bound
  rw [settle, run_bind_ok (run_codeResult stored hcode), run_bind_error hbind]

end Generator

/-- The first continuation of a bound seed fails, if the policy asks for a local. -/
theorem Compilation.run_proceed_of_bound {cx : Compilation} {seed : Seed Hook} {name text : String}
    {value : Compiled} (stored : cx.generator.store.get? cx.id = some seed)
    (bound : seed.slot = .bound name (.code text) value) (first : cx.continuations = 0)
    (wanted : (Generator.policy cx.id).run cx.generator = .ok true cx.generator) :
    proceed.run cx = .error (.alreadyBound cx.id text)
      { cx with continuations := 1, generator := cx.generator.noted (.continued cx.id) } := by
  -- To note the continuation changes neither the seed nor what the policy says about it.
  have hnoted : (cx.generator.noted (.continued cx.id)).store.get? cx.id = some seed := stored
  have hwanted := (Generator.run_policy_eq_true_iff hnoted).2
    ((Generator.run_policy_eq_true_iff stored).1 wanted)
  rw [run_proceed, if_pos first, first]
  exact run_onGenerator_error (Generator.run_settle_of_bound hnoted bound hwanted)

namespace Generator

/-- A second attempt to move the result of the seed `id` to a local fails and reports `text`. -/
structure RefusesRebinding (gen : Session) (id : SeedId) (text : String) : Prop where
  /-- The attempt is made on request. -/
  requested : (bind id).run gen = .error (.alreadyBound id text) gen
  /-- The hook of the seed invokes its continuation, and the policy asks for a local. -/
  continued : ∀ cx : Compilation, cx.id = id → cx.generator = gen → cx.continuations = 0 →
    (policy id).run gen = .ok true gen →
    Compilation.proceed.run cx = .error (.alreadyBound id text)
      { cx with continuations := 1, generator := gen.noted (.continued id) }

namespace RefusesRebinding

variable {gen : Session} {id : SeedId} {text : String}

theorem step_bind (h : gen.RefusesRebinding id text) :
    gen.step (.bind id) = (.error (.alreadyBound id text), gen) :=
  Session.step_of_error (run_bind_error h.requested)

/-- A second attempt reports one text only. -/
theorem eq_of_step (h : gen.RefusesRebinding id text) {text' : String}
    (reported : (gen.step (.bind id)).1 = .error (.alreadyBound id text')) :
    text = text' := by
  rw [h.step_bind] at reported
  injection reported with herror
  injection herror

end RefusesRebinding

end Generator

/-- **A second attempt reports the mention of the local.** -/
theorem Ledger.refusesRebinding {settings : Settings} {gen : Session} (h : Ledger settings gen)
    {id : SeedId} {name : String} {reference value : Compiled}
    (bound : gen.slot? id = some (.bound name reference value)) :
    gen.RefusesRebinding id (gen.platform.reference name) := by
  obtain ⟨seed, stored, hslot⟩ := Option.map_eq_some_iff.1 bound
  rw [((h.bound id name reference value).1 bound).2] at hslot
  refine ⟨Generator.run_bind_of_bound stored hslot, fun cx hid hgen hfirst hwanted => ?_⟩
  subst hid hgen
  exact Compilation.run_proceed_of_bound stored hslot hfirst hwanted

/-! ### The main result -/

namespace Session

/-- **Binding a second time reports the mention of the local.**  Requests lead a new session from
moment to moment, and at each of these, also in the middle of a hook and after any failure, a bound
seed has a local.  Another attempt to bind the slot by itself reports the name of that local.  An
attempt to bind the seed, on request or by its continuation, changes nothing but that the
continuation is noted, and reports how the platform mentions the local.

So the name is reported just if the platform mentions this local by its bare name. -/
theorem rebinding_reports_mention {settings : Settings}
    {candidates : List (Candidate (Blueprint Hook))} {origin : Session}
    (created : createWith settings candidates = .ok origin) :
    (∀ requests, Moves origin (origin.run requests)) ∧
    ∀ moment, Moves origin moment → settings.platform = some moment.platform ∧
      ∀ id slot, moment.slot? id = some slot → slot.isBound = true →
        ∃ binding, moment.locals.bindingFor? id = some binding ∧
          (∀ name reference, slot.bind id name reference = .error (.alreadyBound id binding.name)) ∧
          moment.RefusesRebinding id (moment.platform.reference binding.name) ∧
          (moment.RefusesRebinding id binding.name ↔
            moment.platform.reference binding.name = binding.name) := by
  refine ⟨moves_run created, fun moment hmoment => ?_⟩
  have hledger := Moves.ledger created hmoment
  refine ⟨hledger.platform, fun id slot hslot hbound => ?_⟩
  cases slot with
  | unset | set _ => exact absurd hbound (by simp [Slot.isBound])
  | bound name reference value =>
    have hrefuses := hledger.refusesRebinding hslot
    refine ⟨⟨id, name, value⟩, hledger.bindingFor?_eq hslot, fun _ _ => rfl, hrefuses,
      fun hnamed => ?_, fun hbare => ?_⟩
    · exact hrefuses.eq_of_step (congrArg Prod.fst hnamed.step_bind)
    · rw [hbare] at hrefuses
      exact hrefuses

end Session

/-- A seed with an effect, whose hook has its result bound before it invokes the continuation. -/
def Blueprint.hastyCall : Blueprint Hook where
  kind := "call"
  mode := .sideEffectful
  hook := [.text "f()", .setResult, .request (.bind ⟨0⟩), .proceed]

namespace Session

/-- Locals are mentioned by their bare name.  The continuation of the hasty hook fails with the name
of the local, and so does every later attempt. -/
theorem rebinding_reports_mention_bare :
    let requests : List Request := [.register (.seed .hastyCall), .finalize, .generate]
    let final := blank.run requests
    ((blank.run (requests.take 2)).step .generate).1 = .error (.alreadyBound ⟨0⟩ "s0") ∧
    final.locals.bindingFor? ⟨0⟩ = some ⟨⟨0⟩, "s0", .code "f()"⟩ ∧
    (final.step (.shouldBind ⟨0⟩)).1 = .ok (.decision true) ∧
    final.RefusesRebinding ⟨0⟩ "s0" := by
  intro requests
  have hslot : (blank.run requests).slot? ⟨0⟩ = some (.bound "s0" (.code "s0") (.code "f()")) := by
    decide +kernel
  have hfound : (blank.run requests).locals.bindingFor? ⟨0⟩ = some ⟨⟨0⟩, "s0", .code "f()"⟩ := by
    decide +kernel
  obtain ⟨hmoves, hmoments⟩ := rebinding_reports_mention createWith_blank
  obtain ⟨hplatform, hseeds⟩ := hmoments _ (hmoves requests)
  obtain ⟨binding, hbinding, -, -, hnamed⟩ := hseeds ⟨0⟩ _ hslot rfl
  obtain rfl := Option.some.inj (hbinding.symm.trans hfound)
  refine ⟨by decide +kernel, hfound, by decide +kernel, hnamed.2 ?_⟩
  rw [← Option.some.inj hplatform]
  rfl

/-- Locals are mentioned with a sign before their name.  The local is named `s0`, and the slot
reports that name; but the continuation of the hasty hook, and every later attempt, fails with the
mention. -/
theorem rebinding_hides_name :
    let requests : List Request := [.register (.seed .hastyCall), .finalize, .generate]
    ∃ origin, createWith { platform := some (.affixed "$" "" "let " " = " ";") } [] = .ok origin ∧
      let final := origin.run requests
      ((origin.run (requests.take 2)).step .generate).1 = .error (.alreadyBound ⟨0⟩ "$s0") ∧
      final.locals.bindingFor? ⟨0⟩ = some ⟨⟨0⟩, "s0", .code "f()"⟩ ∧
      final.slot? ⟨0⟩ = some (.bound "s0" (.code "$s0") (.code "f()")) ∧
      (∀ name reference, Slot.bind ⟨0⟩ name reference (.bound "s0" (.code "$s0") (.code "f()")) =
        .error (.alreadyBound ⟨0⟩ "s0")) ∧
      (final.step (.bind ⟨0⟩)).1 = .error (.alreadyBound ⟨0⟩ "$s0") ∧
      ¬ final.RefusesRebinding ⟨0⟩ "s0" := by
  intro requests
  let origin : Session := Generator.ofStore { platform := some (.affixed "$" "" "let " " = " ";") }
    (.affixed "$" "" "let " " = " ";") (.ofBlueprints [])
  have hagain : ((origin.run requests).step (.bind ⟨0⟩)).1 =
      .error (.alreadyBound ⟨0⟩ "$s0") := by decide +kernel
  refine ⟨origin, rfl, by decide +kernel, by decide +kernel, by decide +kernel, fun _ _ => rfl,
    hagain, fun hnamed => ?_⟩
  exact absurd (hnamed.eq_of_step hagain) (by decide)

end Session

end SeedGraph
