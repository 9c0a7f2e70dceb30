import Mathlib.Tactic.ByContra
import SeedGraph.Proofs.Policy

/-!
# What consumers observe

A consumer reads what a seed shows at the moment of reading: the result as compiled, or the mention
of its local once the result was bound.  The binding is made by the continuation of the seed's own
hook.  So a consumer that is compiled between the moment at which a seed gets its result and the
continuation of its hook reads the result as compiled, and keeps it, although the seed ends up in a
local.

This happens as soon as a hook starts a traversal in between: the traversal passes over the seed,
which has a result, and goes on to its consumers.  `Session.forwarded_input` says for every consumer
that forwards an input which of the two texts it carries; what decides is whether the hook of the
other seed was running and had not invoked its continuation when the consumer got its result.

## The argument

`Observed` attributes the text of a consumer to the moment at which it was written.  From then on
neither side changes.  What a seed was compiled to is fixed, and what it shows can change only by
the continuation of its own hook; once that hook has continued or ended, it is not entered again,
since its seed has a result (`Turn.mention?_past`).
-/

namespace SeedGraph

/-- **What a seed shows is final once its hook has invoked its continuation or ended.** -/
theorem Turn.mention?_past {gen gen' : Session} (turn : Turn false gen gen') {id : SeedId}
    {value : Compiled} (shown : gen.mention? id = some value) (past : .hook id 0 ∉ gen.frames) :
    gen'.mention? id = some value ∧ .hook id 0 ∉ gen'.frames := by
  obtain ⟨slot, hslot, hcurrent⟩ := Option.bind_eq_some_iff.1 shown
  have hset : gen.slot? id ≠ some .unset := by
    rw [hslot]
    rintro ⟨rfl⟩
    exact absurd hcurrent (by simp [Slot.current])
  have hkeep : gen'.slot? id = gen.slot? id → gen'.mention? id = some value := by
    intro hsame
    rw [Generator.mention?, hsame]
    exact shown
  cases turn with
  | plain move quiet =>
    have hsame := move.undisturbed quiet
    refine ⟨hkeep (hsame.slots id (by rw [hslot]; simp)), fun hmem => ?_⟩
    rcases hsame.frames id 0 hmem with hbefore | ⟨-, hunset⟩
    · exact past hbefore
    · exact hset hunset
  | register blueprint _ _ _ =>
    rw [Generator.frames_enroll]
    refine ⟨hkeep ?_, past⟩
    rw [Generator.slot?_enroll, if_neg]
    rintro rfl
    rw [gen.slot?_upper] at hslot
    exact absurd hslot (by simp)
  | @write own seed _ _ written _ stored unset _ =>
    rw [Generator.frames_withResult]
    refine ⟨hkeep ?_, past⟩
    rw [Generator.slot?_withResult stored, if_neg]
    rintro rfl
    rw [Generator.slot?_of_stored stored, unset] at hset
    exact hset rfl
  | @settle own seed text outer _ innermost stored _ =>
    have hother : id ≠ own := by
      rintro rfl
      exact past (by rw [innermost]; exact List.mem_cons_self)
    refine ⟨hkeep (@Generator.slot?_settled_of_ne (gen.noted (.continued own)) own id seed stored
      (.code text) hother), ?_⟩
    rw [Generator.frames_settled, Generator.frames_noted, innermost]
    rw [innermost] at past
    intro hmem
    exact past (List.mem_cons_of_mem _ ((List.mem_cons.1 hmem).resolve_left (by simp)))
  | @proceedInVain own continuations outer innermost _ =>
    refine ⟨shown, ?_⟩
    rw [Generator.frames_noted, innermost]
    rw [innermost] at past
    intro hmem
    exact past (List.mem_cons_of_mem _ ((List.mem_cons.1 hmem).resolve_left (by simp)))
  | bind allowed _ _ => exact absurd allowed (by simp)

/-- The text of the seed `consumer` is what `target` showed when `consumer` got it: the result of
`target` as compiled, if its hook was still to invoke its continuation, and else what it shows now.
-/
def Observed (gen : Session) (consumer target : SeedId) : Prop :=
  ∃ (before after : List Event) (shown : Compiled),
    gen.journal = before ++ .resulted consumer :: after ∧
    gen.compiled? consumer = some (.code shown.display) ∧
    if .hook target 0 ∈ openFrames before then gen.compiled? target = some shown
    else gen.mention? target = some shown ∧ .hook target 0 ∉ gen.frames

theorem Observed.turn {gen gen' : Session} {consumer target : SeedId}
    (h : Observed gen consumer target) (turn : Turn false gen gen') :
    Observed gen' consumer target := by
  obtain ⟨before, after, shown, hjournal, hconsumer, htarget⟩ := h
  obtain ⟨events, hevents⟩ := turn.moves.journal_prefix
  refine ⟨before, after ++ events, shown, ?_, turn.moves.compiled? hconsumer, ?_⟩
  · rw [← hevents, hjournal]
    simp
  · by_cases hpending : .hook target 0 ∈ openFrames before
    · rw [if_pos hpending] at htarget ⊢
      exact turn.moves.compiled? htarget
    · rw [if_neg hpending] at htarget ⊢
      exact turn.mention?_past htarget.1 htarget.2

/-- A seed of a complete graph gets its result from its own hook. -/
theorem Turn.resulted {gen gen' : Session} (turn : Turn false gen gen')
    (complete : gen.finalized = true) {id : SeedId} (before : ¬ gen.HasResult id)
    (after : gen'.HasResult id) :
    ∃ seed value, gen' = gen.withResult id seed value ∧ gen.store.get? id = some seed ∧
      seed.slot = .unset ∧ gen.Forwards seed value := by
  have hsame : gen'.slot? id ≠ gen.slot? id := by
    intro hsame
    obtain ⟨slot, hslot, hset⟩ := after
    exact before ⟨slot, hsame.symm.trans hslot, hset⟩
  cases turn with
  | plain move quiet => exact absurd (move.sameAccount quiet complete id).slot hsame
  | register _ opened _ _ =>
    rw [complete] at opened
    exact absurd opened (by simp)
  | @write own seed _ _ value _ stored unset forwards =>
    obtain rfl : id = own := by
      by_contra hother
      rw [Generator.slot?_withResult stored, if_neg hother] at hsame
      exact hsame rfl
    exact ⟨seed, value, rfl, stored, unset, forwards⟩
  | @settle own seed text outer _ innermost stored code =>
    by_cases hown : id = own
    · rw [hown] at before
      exact absurd ⟨_, Generator.slot?_of_stored stored, by rw [code]; rfl⟩ before
    · exact absurd (@Generator.slot?_settled_of_ne (gen.noted (.continued own)) own id seed stored
        (.code text) hown) hsame
  | proceedInVain _ _ => exact absurd rfl hsame
  | bind allowed _ _ => exact absurd allowed (by simp)

/-- A hook that forwards has just written its result. -/
theorem Observed.written {gen : Session} (accounted : Accounted gen) {consumer : SeedId}
    {seed : Seed Hook} (stored : gen.store.get? consumer = some seed) (unset : seed.slot = .unset)
    {target : SeedId} {mention : Compiled} (shown : gen.mention? target = some mention) :
    Observed (gen.withResult consumer seed (.code mention.display)) consumer target := by
  obtain ⟨slot, hslot, hcurrent⟩ := Option.bind_eq_some_iff.1 shown
  have hother : target ≠ consumer := by
    rintro rfl
    rw [Generator.slot?_of_stored stored, unset, Option.some.injEq] at hslot
    rw [← hslot] at hcurrent
    exact absurd hcurrent (by simp [Slot.current])
  have hsame : (gen.withResult consumer seed (.code mention.display)).slot? target = some slot := by
    rw [Generator.slot?_withResult stored, if_neg hother]
    exact hslot
  refine ⟨gen.journal, [], mention, rfl, ?_, ?_⟩
  · rw [Generator.compiled?, Generator.slot?_withResult stored, if_pos rfl]
    rfl
  · by_cases hpending : .hook target 0 ∈ openFrames gen.journal
    -- A hook that has not continued has not bound its result, so it shows what was compiled.
    · rw [if_pos hpending, Generator.compiled?, hsame]
      have hunbound := (accounted.pending target hpending).unbound slot hslot
      cases slot with
      | bound name reference value => exact absurd hunbound (by simp [Slot.isBound])
      | _ => exact hcurrent
    · rw [if_neg hpending, Generator.mention?, hsame, Generator.frames_withResult]
      exact ⟨hcurrent, hpending⟩

/-- Every seed that forwards an input and has a result carries what it observed. -/
def ConsumersObserve (gen : Session) : Prop :=
  ∀ consumer seed key, gen.store.get? consumer = some seed → seed.hook = .forward key →
    gen.HasResult consumer →
      ∃ target, seed.dependencies.get? key = some target ∧ Observed gen consumer target

theorem ConsumersObserve.turn {gen gen' : Session} (h : ConsumersObserve gen)
    (accounted : Accounted gen) (complete : gen.finalized = true) (turn : Turn false gen gen') :
    ConsumersObserve gen' := by
  intro consumer seed' key stored' hforward hresult
  obtain ⟨seed, stored, hdesign⟩ := (turn.moves.sameGraph complete).stored stored'
  rw [← Seed.hook_of_design hdesign] at hforward
  rw [← Seed.dependencies_of_design hdesign]
  by_cases hbefore : gen.HasResult consumer
  · obtain ⟨target, hkey, hobserved⟩ := h consumer seed key stored hforward hbefore
    exact ⟨target, hkey, hobserved.turn turn⟩
  · obtain ⟨own, value, rfl, hown, unset, forwards⟩ := turn.resulted complete hbefore hresult
    obtain rfl : seed = own := Option.some.inj (stored.symm.trans hown)
    obtain ⟨target, mention, hkey, hmention, rfl⟩ := forwards key hforward
    exact ⟨target, hkey, .written accounted stored unset hmention⟩

theorem ConsumersObserve.turns {gen gen' : Session} (h : ConsumersObserve gen)
    (accounted : Accounted gen) (reachable : Reachable gen) (complete : gen.finalized = true)
    (turns : Turns false gen gen') : ConsumersObserve gen' := by
  induction turns with
  | refl => exact h
  | tail earlier turn ih =>
    exact ih.turn (accounted.turns reachable complete earlier)
      ((Turns.moves earlier).finalized complete) turn

/-! ### The main result -/

/-- **What a consumer carries.**  Take a session with a complete graph, without results and with
hooks that ask for no binding, and let it go on with requests that ask for none either.  At every
moment, a seed that has a result and whose hook makes its input under `key` the result was compiled
to the text that the seed under `key` showed when it got its result.  That is

* the result of the other seed as compiled, if its hook was running then and had not invoked its
  continuation, even if the other seed was bound to a local afterwards;
* what the other seed shows in the end, that is the mention of its local if it has one, in all other
  cases. -/
theorem Session.forwarded_input {gen : Session} (reachable : Reachable gen)
    (complete : gen.finalized = true) (unset : ∀ seed ∈ gen.store.seeds, seed.slot = .unset)
    (free : ∀ seed ∈ gen.store.seeds, seed.hook.binds = false) :
    (∀ requests : List Request, (∀ request ∈ requests, request.binds = false) →
      Turns false gen (gen.run requests)) ∧
    ∀ moment, Turns false gen moment → ∀ consumer seed key,
      moment.store.get? consumer = some seed → seed.hook = .forward key → seed.slot ≠ .unset →
        ∃ target producer before after shown, seed.dependencies.get? key = some target ∧
          moment.store.get? target = some producer ∧
          moment.journal = before ++ .resulted consumer :: after ∧
          (if .hook target 0 ∈ openFrames before then producer.slot.compiled
            else producer.slot.current) = some shown ∧
          seed.slot.compiled = some (.code shown.display) := by
  refine ⟨fun requests hfree => ?_, fun moment turns consumer seed key stored hforward hset => ?_⟩
  · exact turns_run reachable.numbered (Generator.permits_of_free complete free) requests
      fun _ => hfree
  have hnone := Generator.not_hasResult_of_unset unset
  have hobserve : ConsumersObserve moment := by
    refine ConsumersObserve.turns ?_ (.of_unset reachable hnone) reachable complete turns
    intro other _ _ _ _ hresult
    exact absurd hresult (hnone other)
  have hresult : moment.HasResult consumer := by
    refine ⟨seed.slot, Generator.slot?_of_stored stored, ?_⟩
    cases hslot : seed.slot with
    | unset => exact absurd hslot hset
    | _ => rfl
  obtain ⟨target, hkey, before, after, shown, hjournal, hconsumer, htarget⟩ :=
    hobserve consumer seed key stored hforward hresult
  rw [Generator.compiled?, Generator.slot?_of_stored stored] at hconsumer
  by_cases hpending : .hook target 0 ∈ openFrames before
  · rw [if_pos hpending] at htarget
    obtain ⟨slot, hslot, hcompiled⟩ := Option.bind_eq_some_iff.1 htarget
    obtain ⟨producer, hproducer, rfl⟩ := Option.map_eq_some_iff.1 hslot
    refine ⟨target, producer, before, after, shown, hkey, hproducer, hjournal, ?_, hconsumer⟩
    rw [if_pos hpending]
    exact hcompiled
  · rw [if_neg hpending] at htarget
    obtain ⟨slot, hslot, hcurrent⟩ := Option.bind_eq_some_iff.1 htarget.1
    obtain ⟨producer, hproducer, rfl⟩ := Option.map_eq_some_iff.1 hslot
    refine ⟨target, producer, before, after, shown, hkey, hproducer, hjournal, ?_, hconsumer⟩
    rw [if_neg hpending]
    exact hcurrent

/-- Two consumers of one seed: the first is compiled from within the hook of that seed, before its
continuation, and the second after it. -/
theorem Session.forwarded_input_early_late :
    let producer : Blueprint Hook := {
      kind := "producer"
      mode := .sideEffectful
      hook := [.text "f()", .setResult, .request (.generateFrom none ⟨1⟩), .proceed] }
    let consumer : Blueprint Hook := {
      kind := "consumer"
      edges := [⟨.arg 0, ⟨0⟩⟩]
      hook := .forward (.arg 0) }
    let session := blank.run [.register (.seed producer),
      .register (.seed { consumer with boundary := .closes }), .register (.seed consumer),
      .finalize]
    let final := session.run [.generate]
    final.slot? ⟨0⟩ = some (.bound "s0" (.code "s0") (.code "f()")) ∧
    final.slot? ⟨1⟩ = some (.set (.code "f()")) ∧ final.slot? ⟨2⟩ = some (.set (.code "s0")) ∧
    (∃ before after, final.journal = before ++ .resulted ⟨1⟩ :: after ∧
      .hook ⟨0⟩ 0 ∈ openFrames before) ∧
    ∃ before after, final.journal = before ++ .resulted ⟨2⟩ :: after ∧
      .hook ⟨0⟩ 0 ∉ openFrames before := by
  intro producer consumer session final
  obtain ⟨hturns, hmoments⟩ := forwarded_input (reachable_run_blank _)
    (show session.finalized = true by decide +kernel) (by decide +kernel) (by decide +kernel)
  have hgenerated := hturns [.generate] (by simp [Request.binds])
  have hproducer : final.slot? ⟨0⟩ = some (.bound "s0" (.code "s0") (.code "f()")) := by
    decide +kernel
  -- Both consumers forward what they read of the same seed, so it is enough to compare the texts.
  have hread : ∀ id text, (final.store.get? id).map (fun seed =>
      (seed.slot, seed.hook.forwardedKey?, seed.dependencies.get? (.arg 0))) =
        some (.set (.code text), some (.arg 0), some ⟨0⟩) →
      final.slot? id = some (.set (.code text)) ∧
      ∃ before after, final.journal = before ++ .resulted id :: after ∧
        (if .hook ⟨0⟩ 0 ∈ openFrames before then "f()" else "s0") = text := by
    intro id text hview
    obtain ⟨seed, stored, hseed⟩ := Option.map_eq_some_iff.1 hview
    simp only [Prod.mk.injEq] at hseed
    obtain ⟨hslot, hhook, hkey⟩ := hseed
    refine ⟨by rw [Generator.slot?_of_stored stored, hslot], ?_⟩
    obtain ⟨target, found, before, after, shown, htarget, hfound, hjournal, hshown, hcompiled⟩ :=
      hmoments final hgenerated id seed (.arg 0) stored (Hook.eq_forward_of_forwardedKey? hhook)
        (by rw [hslot]; simp)
    obtain rfl : ⟨0⟩ = target := Option.some.inj (hkey.symm.trans htarget)
    rw [Generator.slot?_of_stored hfound, Option.some.injEq] at hproducer
    have hdisplay : text = shown.display := by simpa [hslot, Slot.compiled] using hcompiled
    refine ⟨before, after, hjournal, ?_⟩
    rw [hdisplay]
    by_cases hpending : .hook ⟨0⟩ 0 ∈ openFrames before
    · rw [if_pos hpending, hproducer] at hshown
      rw [if_pos hpending, ← Option.some.inj hshown]
      rfl
    · rw [if_neg hpending, hproducer] at hshown
      rw [if_neg hpending, ← Option.some.inj hshown]
      rfl
  obtain ⟨hearly, before, after, hjournal, htext⟩ := hread ⟨1⟩ "f()" (by decide +kernel)
  obtain ⟨hlate, before', after', hjournal', htext'⟩ := hread ⟨2⟩ "s0" (by decide +kernel)
  refine ⟨hproducer, hearly, hlate, ⟨before, after, hjournal, ?_⟩, before', after', hjournal', ?_⟩
  · by_contra hnot
    rw [if_neg hnot] at htext
    exact absurd htext (by decide)
  · intro hpending
    rw [if_pos hpending] at htext'
    exact absurd htext' (by decide)

/-- A hook sets the result of its seed, starts a traversal, and only then proceeds.  The traversal
compiles a consumer, which keeps the result as compiled, and the value is computed twice by the
program that is generated. -/
theorem Session.early_consumer_misses_local :
    let producer : Blueprint Hook := {
      kind := "producer"
      mode := .sideEffectful
      hook := [.text "f()", .setResult, .request (.generateFrom none ⟨1⟩), .proceed] }
    let consumer : Blueprint Hook := {
      kind := "consumer"
      edges := [⟨.arg 0, ⟨0⟩⟩]
      hook := .forward (.arg 0) }
    let session := blank.run [.register (.seed producer), .register (.seed consumer), .finalize]
    let final := (session.step .generate).2
    session.finalized = true ∧
    (∀ seed ∈ session.store.seeds, seed.slot = .unset ∧ seed.hook.binds = false) ∧
    (session.step .generate).1 = .ok (.result (some (.code "f()"))) ∧
    final.slot? ⟨0⟩ = some (.bound "s0" (.code "s0") (.code "f()")) ∧
    final.slot? ⟨1⟩ = some (.set (.code "f()")) ∧
    final.render (some (.code "f()")) = ["let s0 = f();", "f()"] := by
  decide +kernel

end SeedGraph
