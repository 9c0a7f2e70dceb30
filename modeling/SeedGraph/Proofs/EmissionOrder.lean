import SeedGraph.Proofs.Inverse
import SeedGraph.Proofs.Ledger
import SeedGraph.Proofs.Program.TrailingBlock

/-!
# In which order effects are emitted

Completing a graph checks that the seeds could be put into an order in which every edge leads
backward.  Generating the program does not use such an order.  A traversal comes to the seeds in
ascending order of their identifiers, and a declaration is emitted when its seed is compiled; no
edge is looked at on the way.  For seeds that are emitted for their effects alone, the order of the
declarations is therefore the order of the identifiers.  An edge to an earlier seed is respected by
accident, and an edge to a later one never, whether it carries data or was added only to force the
order.

`Session.declared_in_index_order` is this statement.  The invariant of the walk is `Declaring`: what
was declared so far, and that all other seeds are as they were.
-/

namespace SeedGraph

/-- The hook that makes a fixed text the result. -/
def Hook.constant (text : String) : Hook :=
  [.text text, .setResult, .proceed]

/-- The text that a hook makes the result, if it does no more than that. -/
def Hook.constantText? : Hook → Option String
  | [.text text, .setResult, .proceed] => some text
  | _ => none

theorem Hook.constantText?_eq_some_iff {hook : Hook} {text : String} :
    hook.constantText? = some text ↔ hook = .constant text := by
  constructor
  · intro htext
    unfold constantText? at htext
    split at htext
    · rw [Option.some.inj htext]
      rfl
    · exact absurd htext (by simp)
  · rintro rfl
    rfl

/-- A seed that is emitted for its effect: it stands in a region without beginning or ending it, the
policy wants it in a local, and its code is a fixed text. -/
structure Seed.IsEffect (seed : Seed Hook) : Prop where
  /-- It neither opens nor closes a region. -/
  ordinary : seed.boundary = .ordinary
  /-- The moment of its evaluation matters. -/
  effectful : seed.mode = .sideEffectful
  /-- Nobody wished anything else about its local. -/
  unwished : seed.bindingWish = none
  /-- Its hook makes a fixed text the result. -/
  constant : ∃ text, seed.hook = .constant text

instance (seed : Seed Hook) : Decidable seed.IsEffect :=
  decidable_of_iff (seed.boundary = .ordinary ∧ seed.mode = .sideEffectful ∧
      seed.bindingWish = none ∧ seed.hook.constantText?.isSome = true) <| by
    simp only [Option.isSome_iff_exists, Hook.constantText?_eq_some_iff]
    exact ⟨fun ⟨hordinary, heffectful, hunwished, hconstant⟩ =>
      ⟨hordinary, heffectful, hunwished, hconstant⟩,
      fun h => ⟨h.ordinary, h.effectful, h.unwished, h.constant⟩⟩

theorem Seed.IsEffect.of_design {seed seed' : Seed Hook} (h : seed.IsEffect)
    (same : seed.design = seed'.design) : seed'.IsEffect := by
  have hdesign : seed.design.IsEffect := ⟨h.ordinary, h.effectful, h.unwished, h.constant⟩
  rw [same] at hdesign
  exact ⟨hdesign.ordinary, hdesign.effectful, hdesign.unwished, hdesign.constant⟩

theorem Seed.IsEffect.shouldBind {seed : Seed Hook} (h : seed.IsEffect) (referents : Nat) :
    shouldBind seed.bindingWish seed.boundary seed.mode referents = true := by
  rw [h.unwished, h.ordinary, h.effectful]
  exact decide_eq_true (Nat.zero_le referents)

/-! ### One seed -/

namespace Generator

/-- In the end the seed whose hook proceeded shows some code: its text, or the name of its local. -/
theorem exists_mention?_concluded {gen : Session} {id : SeedId} {seed : Seed Hook}
    (stored : gen.store.get? id = some seed) (text : String) :
    ∃ shown, (gen.concluded id seed text).mention? id = some (.code shown) := by
  have hheld := get?_announced stored text
  have hset : (gen.announced id seed text).mention? id = some (.code text) := by
    rw [mention?, slot?_of_stored hheld]
    rfl
  rw [concluded, settled]
  split
  · have hmoved := (slot?_moveToLocal hheld (.code text) id).trans (if_pos rfl)
    exact ⟨_, congrArg (fun slot => slot.bind Slot.current) hmoved⟩
  · split
    · exact ⟨text, hset⟩
    · exact ⟨text, hset⟩

/-- A seed is compiled if its hook comes to its end with some text. -/
theorem run_compile_concluded {traversal : Traversal Hook} {gen : Session} {id : SeedId}
    {seed : Seed Hook} {text : String} (complete : gen.finalized = true) (idle : gen.running = [])
    (stored : gen.store.get? id = some seed) (unset : seed.slot = .unset) {gathering : Hook}
    (hook : seed.hook = gathering ++ [.setResult, .proceed])
    (gathered : (Hook.run traversal gathering).run { id, generator := gen.entered id } =
      .ok () { id, buffer := text, generator := gen.entered id }) :
    ∃ value, (compile traversal id).run gen =
      .ok value (((gen.entered id).concluded id seed text).closed id) := by
  have hhook : (Hook.run traversal seed.hook).run { id, generator := gen.entered id } =
      .ok () {
        id
        buffer := text
        continuations := 1
        generator := (gen.entered id).concluded id seed text } := by
    rw [hook, Hook.run_append, run_bind_ok gathered]
    exact @Hook.run_ending traversal { id, buffer := text, generator := gen.entered id } seed
      complete rfl stored unset
  obtain ⟨shown, hmention⟩ := @exists_mention?_concluded (gen.entered id) id seed stored text
  have hcompiled := @answers_compile traversal Unit gen id seed (some ()) (fun _ => shown)
    (fun _ inside => inside = (gen.entered id).concluded id seed text)
    (by rw [idle]; exact List.not_mem_nil) stored ⟨_, _, hhook, rfl, hmention, rfl⟩
  obtain ⟨value, gen', hrun, -, inside, rfl, rfl⟩ := hcompiled
  exact ⟨value, hrun⟩

/-- The session after an effect was compiled: its text is in a new local. -/
def withEffect (gen : Session) (id : SeedId) (seed : Seed Hook) (text : String) : Session :=
  (((gen.entered id).announced id seed text).moveToLocal id { seed with slot := .set (.code text) }
    (.code text)).closed id

theorem run_compile_effect (traversal : Traversal Hook) {gen : Session} {id : SeedId}
    {seed : Seed Hook} {text : String} (complete : gen.finalized = true) (idle : gen.running = [])
    (stored : gen.store.get? id = some seed) (unset : seed.slot = .unset) (effect : seed.IsEffect)
    (hook : seed.hook = .constant text) :
    ∃ value, (compile traversal id).run gen = .ok value (gen.withEffect id seed text) := by
  have hconcluded : (gen.entered id).concluded id seed text =
      ((gen.entered id).announced id seed text).moveToLocal id
        { seed with slot := .set (.code text) }
        (.code text) := by
    unfold concluded settled
    exact if_pos (effect.shouldBind seed.referents.length)
  have hgathered : (Hook.run traversal [.text text]).run { id, generator := gen.entered id } =
      .ok () { id, buffer := text, generator := gen.entered id } :=
    congrArg (fun buffer => EStateM.Result.ok ()
      ({ id, buffer, generator := gen.entered id } : Compilation)) String.empty_append
  rw [withEffect, ← hconcluded]
  exact run_compile_concluded complete idle stored unset hook hgathered

theorem declarations_withEffect (gen : Session) (id : SeedId) (seed : Seed Hook) (text : String) :
    (gen.withEffect id seed text).declarations.map Binding.seed =
      gen.declarations.map Binding.seed ++ [id] := by
  have hdeclared := ((gen.entered id).announced id seed text).declarations_moveToLocal id
    { seed with slot := .set (.code text) } (.code text)
  refine (congrArg (List.map Binding.seed) hdeclared).trans ?_
  rw [List.map_append]
  rfl

theorem slot?_withEffect {gen : Session} {id other : SeedId} {seed : Seed Hook}
    (stored : gen.store.get? id = some seed) (text : String) (hother : other ≠ id) :
    (gen.withEffect id seed text).slot? other = gen.slot? other := by
  have hheld := @get?_announced (gen.entered id) id seed stored text
  have hwritten := @slot?_withResult (gen.entered id) id seed stored (.code text) other
  rw [if_neg hother] at hwritten
  exact ((slot?_moveToLocal hheld (.code text) other).trans (if_neg hother)).trans hwritten

theorem sameGraph_withEffect {gen : Session} {id : SeedId} {seed : Seed Hook}
    (stored : gen.store.get? id = some seed) (text : String) :
    gen.store.SameGraph (gen.withEffect id seed text).store := by
  have hheld := @get?_announced (gen.entered id) id seed stored text
  have hset : gen.store.SameGraph ((gen.entered id).announced id seed text).store :=
    .set stored rfl
  exact hset.trans (.set hheld rfl)

end Generator

/-! ### The walk -/

/-- In the session `cur` the seeds `declared` have been compiled since `gen`, in this order, and
nothing else has happened. -/
structure Declaring (gen cur : Session) (declared : List SeedId) : Prop where
  /-- The graph is what it was. -/
  graph : gen.store.SameGraph cur.store
  /-- It is complete. -/
  complete : cur.finalized = true
  /-- No hook is running. -/
  idle : cur.running = []
  /-- The declarations, in order of emission. -/
  declarations : cur.declarations.map Binding.seed = declared
  /-- Other seeds have no result. -/
  unset : ∀ id seed, cur.store.get? id = some seed → id ∉ declared → seed.slot = .unset

namespace Declaring

variable {gen cur : Session} {declared : List SeedId}

/-- A seed without a result is compiled and declared. -/
theorem compile (h : Declaring gen cur declared)
    (effects : ∀ seed ∈ gen.store.seeds, seed.IsEffect) (traversal : Traversal Hook) {id : SeedId}
    {seed : Seed Hook} (stored : cur.store.get? id = some seed) (new : id ∉ declared) :
    seed.slot = .unset ∧ seed.boundary = .ordinary ∧
      ∃ value next, (Generator.compile traversal id).run cur = .ok value next ∧
        Declaring gen next (declared ++ [id]) := by
  obtain ⟨design, hdesign, hsame⟩ := h.graph.stored stored
  have heffect := (effects design (Store.mem_seeds_of_get? hdesign)).of_design hsame
  have hunset := h.unset id seed stored new
  obtain ⟨text, hhook⟩ := heffect.constant
  obtain ⟨value, hrun⟩ :=
    Generator.run_compile_effect traversal h.complete h.idle stored hunset heffect hhook
  refine ⟨hunset, heffect.ordinary, value, _, hrun, ?_⟩
  exact {
    graph := h.graph.trans (Generator.sameGraph_withEffect stored text)
    complete := h.complete
    idle := by
      show (id :: cur.running).filter (fun other => decide (other ≠ id)) = []
      rw [h.idle]
      simp
    declarations := by rw [Generator.declarations_withEffect, h.declarations]
    unset := fun other found hfound hother => by
      rw [List.mem_append, List.mem_singleton, not_or] at hother
      have hslot := Generator.slot?_of_stored hfound
      rw [Generator.slot?_withEffect stored text hother.2] at hslot
      obtain ⟨before, hbefore, hsame⟩ := Option.map_eq_some_iff.1 hslot
      rw [← hsame]
      exact h.unset other before hbefore hother.1 }

/-- **The walk declares the seeds in the order in which it comes to them.** -/
theorem walk (h : Declaring gen cur declared) (effects : ∀ seed ∈ gen.store.seeds, seed.IsEffect)
    (traversal : Traversal Hook) (ids : List SeedId) (latest : Option Compiled)
    (stored : ∀ id ∈ ids, (cur.store.get? id).isSome) (nodup : (declared ++ ids).Nodup) :
    ∃ result last, (Generator.walk (Generator.compile traversal) ids latest).run cur =
      .ok result last ∧ Declaring gen last (declared ++ ids) := by
  induction ids generalizing cur declared latest with
  | nil =>
    rw [List.append_nil]
    exact ⟨latest, cur, rfl, h⟩
  | cons id rest ih =>
    obtain ⟨seed, hstored⟩ := Option.isSome_iff_exists.1 (stored id List.mem_cons_self)
    have hnew : id ∉ declared := by
      intro hmem
      exact List.disjoint_of_nodup_append nodup hmem List.mem_cons_self
    obtain ⟨hunset, hordinary, value, next, hrun, hnext⟩ :=
      h.compile effects traversal hstored hnew
    have hgraph : cur.store.SameGraph next.store := h.graph.symm.trans hnext.graph
    obtain ⟨seed', hstored', hdesign⟩ := hgraph.symm.stored hstored
    have hgoes : ¬ seed'.boundary = .closes := by
      rw [Seed.boundary_of_design hdesign, hordinary]
      simp
    rw [Generator.run_walk_of_unset rest latest hstored hunset, run_bind_ok hrun,
      run_bind_ok (Generator.run_lookup_of_some hstored'), if_neg hgoes]
    have hsplit : declared ++ id :: rest = (declared ++ [id]) ++ rest := by simp
    rw [hsplit] at nodup ⊢
    refine ih hnext (some value) (fun other hother => ?_) nodup
    obtain ⟨found, hfound⟩ :=
      Option.isSome_iff_exists.1 (stored other (List.mem_cons_of_mem _ hother))
    obtain ⟨found', hfound', -⟩ := hgraph.symm.stored hfound
    rw [hfound']
    rfl

end Declaring

/-! ### The program -/

/-- Of two members of an ascending list the smaller one comes first. -/
theorem pair_sublist_iff_lt {ids : List SeedId}
    (ascending : ids.Pairwise fun first second => first.index < second.index)
    {first second : SeedId} (hfirst : first ∈ ids) (hsecond : second ∈ ids) :
    [first, second].Sublist ids ↔ first.index < second.index := by
  constructor
  · intro hpair
    exact (List.pairwise_cons.1 (ascending.sublist hpair)).1 second List.mem_cons_self
  · intro hless
    obtain ⟨before, after, rfl⟩ := List.append_of_mem hfirst
    have hafter : second ∈ after := by
      rcases List.mem_append.1 hsecond with hbefore | hrest
      · have hgreater :=
          (List.pairwise_append.1 ascending).2.2 second hbefore first List.mem_cons_self
        omega
      · refine (List.mem_cons.1 hrest).resolve_left ?_
        rintro rfl
        exact absurd hless (Int.lt_irrefl _)
    have htail : [first, second].Sublist (first :: after) :=
      (List.singleton_sublist.2 hafter).cons_cons first
    exact htail.trans (List.sublist_append_right before (first :: after))

theorem Store.idsFrom_lower {κ : Type} (store : Store κ) :
    store.idsFrom ⟨store.lower⟩ = store.ids := by
  refine List.filter_eq_self.2 fun id hid => ?_
  exact decide_eq_true ((store.mem_ids_iff id).1 hid).1

namespace Session

/-- Nothing is generated while a scope is open. -/
theorem scopes_of_step_generate {session : Session} {answer : Answer}
    (h : (session.step .generate).1 = .ok answer) : session.scopes = [] := by
  by_contra hopen
  have hfail : (Generator.generate (Generator.traverse session.store.seeds.length)).run session =
      .error (.unbalancedScopes session.scopes.length) session := by
    rw [Generator.generate, run_get_bind, run_require_bind, if_neg hopen]
  rw [step, perform, run_get_bind, Generator.respond, run_bind_error hfail] at h
  exact absurd h (by simp)

/-- A traversal over effects without results declares all of them in ascending order. -/
theorem declaring_traverse {session : Session} (h : Declaring session session [])
    (effects : ∀ seed ∈ session.store.seeds, seed.IsEffect) :
    ∃ result last,
      (Generator.traverse session.store.seeds.length none ⟨session.lower⟩).run session =
        .ok result last ∧ last.declarations.map Binding.seed = session.store.ids := by
  have hbegan : Declaring session (session.noted .traversalBegan) [] :=
    ⟨h.graph, h.complete, h.idle, h.declarations, h.unset⟩
  have hwalk : ∃ result last, (Generator.walk (Generator.compileAt session.store.seeds.length)
      session.store.ids none).run (session.noted .traversalBegan) = .ok result last ∧
        Declaring session last session.store.ids := by
    cases hlength : session.store.seeds.length with
    | zero =>
      have hnone : session.store.ids = [] :=
        List.eq_nil_of_length_eq_zero (session.store.length_ids.trans hlength)
      rw [hnone]
      exact ⟨none, _, rfl, hbegan⟩
    | succ depth =>
      refine hbegan.walk effects (Generator.traverse depth) session.store.ids none
        (fun id hid => ?_) ?_
      · exact (session.store.get?_isSome_iff id).2 ((session.store.mem_ids_iff id).1 hid)
      · refine session.store.pairwise_ids.imp fun {first second} hless heq => ?_
        rw [heq] at hless
        exact Int.lt_irrefl _ hless
  obtain ⟨result, last, hrun, hlast⟩ := hwalk
  refine ⟨result, last.noted (.traversalEnded none), ?_, hlast.declarations⟩
  rw [Generator.traverse_eq]
  refine Generator.run_traverseWith_ok ?_
  rw [Generator.run_walkFrom_of_finalized hbegan.complete]
  show (Generator.walk _ (session.store.idsFrom ⟨session.store.lower⟩) none).run _ = _
  rw [Store.idsFrom_lower, hrun]

/-- **Effects are declared in the order of their identifiers.**  Take a session with a complete
graph in which every seed is there for its effect and has no result yet.  Its program is generated
just if no scope is open.  Then every seed gets a declaration, and these are emitted in ascending
order of the identifiers, whatever the edges are.  So of an edge from `source` to `target`, for data
or for order only, the target is declared first just if its identifier is the smaller one. -/
theorem declared_in_index_order {settings : Settings}
    {candidates : List (Candidate (Blueprint Hook))} {origin : Session}
    (created : createWith settings candidates = .ok origin) (requests : List Request)
    (complete : (origin.run requests).finalized = true)
    (unset : ∀ seed ∈ (origin.run requests).store.seeds, seed.slot = .unset)
    (effects : ∀ seed ∈ (origin.run requests).store.seeds, seed.IsEffect) :
    let session := origin.run requests
    let declared := (session.step .generate).2.declarations.map Binding.seed
    ((∃ answer, (session.step .generate).1 = .ok answer) ↔ session.scopes = []) ∧
    (session.scopes = [] → declared = session.store.ids ∧
      ∀ source target, session.store.DependsOn source target →
        ([target, source].Sublist declared ↔ target.index < source.index)) := by
  have hmoves := moves_run created requests
  have hframes := frames_run created requests
  have hreachable : Reachable (origin.run requests) :=
    ⟨settings, candidates, origin, created, hmoves⟩
  generalize origin.run requests = session at *
  intro session' declared
  have hnone := Generator.not_hasResult_of_unset unset
  have hstart : Declaring session session [] := by
    refine ⟨.refl _, complete, ?_, ?_, fun id seed stored _ => ?_⟩
    · rw [hreachable.disciplined.running, hframes]
      rfl
    · rw [Generator.declarations, ((Moves.ledger created hmoves).blank hnone).2]
      rfl
    · exact unset seed (Store.mem_seeds_of_get? stored)
  obtain ⟨result, last, hrun, hlast⟩ := declaring_traverse hstart effects
  refine ⟨⟨?_, fun balanced => ?_⟩, fun balanced => ?_⟩
  · rintro ⟨answer, hanswer⟩
    exact scopes_of_step_generate hanswer
  · exact ⟨_, congrArg Prod.fst (step_generate balanced hrun)⟩
  have hdeclared : declared = session.store.ids := by
    show (session.step .generate).2.declarations.map Binding.seed = _
    rw [step_generate balanced hrun]
    exact hlast
  refine ⟨hdeclared, fun source target hedge => ?_⟩
  rw [hdeclared]
  have htarget : session.store.InRange target :=
    hreachable.inverted.targets complete source target hedge
  obtain ⟨seed, stored, -⟩ := hedge
  exact pair_sublist_iff_lt session.store.pairwise_ids
    ((session.store.mem_ids_iff target).2 htarget)
    ((session.store.mem_ids_iff source).2 (Store.inRange_of_get? stored))

/-- Three effects, with an ordering edge to an earlier seed and one to a later seed. -/
theorem declared_in_index_order_three :
    let effect (text : String) : Blueprint Hook := {
      kind := "effect", mode := .sideEffectful, hook := .constant text }
    let requests : List Request :=
      [.register (.seed (effect "a()")), .register (.seed (effect "b()")),
      .register (.seed (effect "c()")), .addOrdering ⟨1⟩ ⟨0⟩, .addOrdering ⟨0⟩ ⟨2⟩, .finalize]
    let session := blank.run requests
    let declared := (session.step .generate).2.declarations.map Binding.seed
    session.store.DependsOn ⟨1⟩ ⟨0⟩ ∧ session.store.DependsOn ⟨0⟩ ⟨2⟩ ∧
    declared = [⟨0⟩, ⟨1⟩, ⟨2⟩] ∧ [⟨0⟩, ⟨1⟩].Sublist declared ∧ ¬ [⟨2⟩, ⟨0⟩].Sublist declared := by
  intro effect requests session declared
  have hback : session.store.DependsOn ⟨1⟩ ⟨0⟩ := by decide +kernel
  have hahead : session.store.DependsOn ⟨0⟩ ⟨2⟩ := by decide +kernel
  have hids : session.store.ids = [⟨0⟩, ⟨1⟩, ⟨2⟩] := by decide +kernel
  obtain ⟨-, hdeclared⟩ := declared_in_index_order createWith_blank requests (by decide +kernel)
    (by decide +kernel) (by decide +kernel)
  obtain ⟨hall, hedges⟩ := hdeclared (by decide +kernel)
  refine ⟨hback, hahead, hall.trans hids, (hedges ⟨1⟩ ⟨0⟩ hback).2 (by decide), fun hfirst => ?_⟩
  exact absurd ((hedges ⟨0⟩ ⟨2⟩ hahead).1 hfirst) (by decide)

/-- An ordering edge to a later seed in a graph without cycles: the later seed is declared last. -/
theorem ordering_edge_ignored :
    let effect (text : String) : Blueprint Hook := {
      kind := "effect", mode := .sideEffectful, hook := .constant text }
    let requests : List Request :=
      [.register (.seed (effect "a()")), .register (.seed (effect "b()")),
      .addOrdering ⟨0⟩ ⟨1⟩, .finalize]
    let session := blank.run requests
    session.settings.checkCycles = true ∧ session.finalized = true ∧
    session.store.edgeEnds = [(⟨0⟩, ⟨1⟩)] ∧
    (session.step .generate).1 = .ok (.result (some (.code "s1"))) ∧
    (session.step .generate).2.declarations =
      [⟨⟨0⟩, "s0", .code "a()"⟩, ⟨⟨1⟩, "s1", .code "b()"⟩] := by
  decide +kernel

end Session

end SeedGraph
