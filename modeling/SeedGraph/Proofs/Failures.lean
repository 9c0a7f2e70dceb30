import SeedGraph.Proofs.OrderingEdges
import SeedGraph.Proofs.Slots

/-!
# Failures leave no trace

An operation that fails stops where it is, and what it did before stays done.  For the operations
that build a graph, complete it or give it results, this never shows: each of them makes all its
checks before its first change, or its later steps cannot fail.

* Completing a graph records every edge at its target, which was found to be stored before
  (`Generator.finalize_cases`).
* Binding allocates a local and declares it before it rewrites the slot, which was found to hold an
  unbound result before (`Generator.bind_cases`).
* Making anchors wait for a seed adds one edge after the other.  Only here the reason lies in the
  past of the session: the anchor of an open scope was stored when the scope was opened, and what is
  stored stays stored (`Reachable.anchored`).

Generating code is another matter, since the hooks that ran before a failure have left their
results.
-/

namespace SeedGraph

/-! ### The anchors of open scopes -/

/-- Every open scope is anchored at a stored seed. -/
def Generator.Anchored (gen : Session) : Prop :=
  ∀ scope ∈ gen.scopes, (gen.slot? scope.anchor).isSome

theorem Move.anchored {gen gen' : Session} (move : Move gen gen') (h : gen.Anchored) :
    gen'.Anchored := by
  have hkept : ∀ scope ∈ gen.scopes, (gen'.slot? scope.anchor).isSome := fun scope mem =>
    move.stored (h scope mem)
  cases move with
  | openScope anchor depending stored =>
    intro scope mem
    rcases List.mem_cons.1 mem with rfl | mem
    · exact Generator.isSome_slot? stored
    · exact hkept scope mem
  | closeScope innermost =>
    intro scope mem
    exact hkept scope (by rw [innermost]; exact List.mem_cons_of_mem _ mem)
  | _ => exact hkept

theorem Reachable.anchored {gen : Session} (h : Reachable gen) : gen.Anchored := by
  refine h.induction (fun settings candidates origin created => ?_) fun _ _ hbefore move =>
    move.anchored hbefore
  obtain ⟨platform, blueprints, -, -, -, rfl⟩ := createWith_eq_ok created
  exact fun scope mem => absurd mem List.not_mem_nil

/-! ### Operations that fail without a trace -/

/-- If the operation fails, it leaves the state `s` as it was. -/
def Traceless {σ α : Type} (operation : EStateM Error σ α) (s : σ) : Prop :=
  ∀ failure s', operation.run s = .error failure s' → s' = s

namespace Traceless

variable {σ α β : Type} {s : σ}

theorem of_readsOnly {operation : EStateM Error σ α} (h : ReadsOnly operation) (s : σ) :
    Traceless operation s := by
  intro failure s' hrun
  rw [← stateAfter_of_error hrun]
  exact h s

/-- An operation that fails on the spot, or not at all. -/
theorem of_cases {operation : EStateM Error σ α}
    (h : (∃ failure, operation.run s = .error failure s) ∨
      ∃ value s', operation.run s = .ok value s') : Traceless operation s := by
  intro failure s' hrun
  obtain ⟨other, hfail⟩ | ⟨value, done, hdone⟩ := h
  · rw [hfail] at hrun
    injection hrun with _ hsame
    exact hsame.symm
  · rw [hdone] at hrun
    exact absurd hrun (by simp)

/-- A check comes first. -/
theorem after_readsOnly {x : EStateM Error σ α} {f : α → EStateM Error σ β} (hx : ReadsOnly x)
    (hf : ∀ value, Traceless (f value) s) : Traceless (x >>= f) s := by
  intro failure s' hrun
  have hsame := hx s
  cases hfirst : x.run s with
  | error other between =>
    rw [run_bind_error hfirst] at hrun
    injection hrun with _ hend
    rw [← hend, ← stateAfter_of_error hfirst]
    exact hsame
  | ok value between =>
    rw [stateAfter_of_ok hfirst] at hsame
    rw [run_bind_ok hfirst, hsame] at hrun
    exact hf value failure s' hrun

/-- What comes last cannot fail. -/
theorem before_ok {x : EStateM Error σ α} {f : α → EStateM Error σ β} (hx : Traceless x s)
    (hf : ∀ value between, ∃ answer s', (f value).run between = .ok answer s') :
    Traceless (x >>= f) s := by
  intro failure s' hrun
  cases hfirst : x.run s with
  | error other between =>
    rw [run_bind_error hfirst] at hrun
    injection hrun with _ hend
    rw [← hend]
    exact hx other between hfirst
  | ok value between =>
    obtain ⟨answer, done, hdone⟩ := hf value between
    rw [run_bind_ok hfirst, hdone] at hrun
    exact absurd hrun (by simp)

/-- Only an answer is made of the outcome. -/
theorem map {x : EStateM Error σ α} (hx : Traceless x s) (answer : α → β) :
    Traceless (do return answer (← x)) s :=
  hx.before_ok fun value between => ⟨answer value, between, rfl⟩

end Traceless

namespace Generator

variable {κ : Type}

theorem traceless_register (candidate : Candidate (Seed κ)) (gen : Generator κ) :
    Traceless (register candidate) gen := by
  refine .of_cases ?_
  obtain hfail | ⟨seed, -, -, -, -, hrun⟩ := register_cases candidate gen
  · exact .inl hfail
  · exact .inr ⟨_, _, hrun⟩

theorem traceless_addDependency (source : SeedId) (key : Key) (target : SeedId)
    (gen : Generator κ) : Traceless (addDependency source key target) gen := by
  refine .of_cases ?_
  obtain hfail | ⟨seed, -, -, hrun⟩ := addDependency_cases source key target gen
  · exact .inl hfail
  · exact .inr ⟨_, _, hrun⟩

theorem traceless_addOrdering (source target : SeedId) (gen : Generator κ) :
    Traceless (addOrdering source target) gen := by
  refine .after_readsOnly readsOnly_requireOpen fun _ => .of_cases ?_
  obtain hfail | ⟨seed, -, hrun⟩ := insertOrdering_cases source target gen
  · exact .inl hfail
  · exact .inr ⟨_, _, hrun⟩

theorem traceless_setPayload (id : SeedId) (payload : Json) (gen : Generator κ) :
    Traceless (setPayload id payload) gen :=
  .after_readsOnly (readsOnly_lookup id) fun _ => .of_cases (.inr ⟨_, _, rfl⟩)

theorem traceless_beginScope (anchor : SeedId) (depending : Bool) (gen : Generator κ) :
    Traceless (beginScope anchor depending) gen :=
  .after_readsOnly (readsOnly_lookup anchor) fun _ => .of_cases (.inr ⟨_, _, rfl⟩)

theorem traceless_endScope (gen : Generator κ) : Traceless endScope gen := by
  refine .of_cases ?_
  rw [endScope, run_get_bind]
  cases gen.scopes with
  | nil => exact .inl ⟨_, rfl⟩
  | cons scope rest => exact .inr ⟨_, _, rfl⟩

theorem traceless_finalize (gen : Generator κ) : Traceless finalize gen := by
  refine .of_cases ?_
  obtain hfail | ⟨-, -, -, hrun⟩ := finalize_cases gen
  · exact .inl hfail
  · exact .inr ⟨_, _, hrun⟩

theorem traceless_bind (id : SeedId) (gen : Generator κ) : Traceless (bind id) gen := by
  refine .of_cases ?_
  obtain hfail | ⟨seed, value, -, -, hrun⟩ := bind_cases id gen
  · exact .inl hfail
  · exact .inr ⟨_, _, hrun⟩

/-- Ordering edges can be added to any number of stored seeds. -/
theorem run_insertOrderings (id : SeedId) (anchors : List SeedId) (gen : Generator κ)
    (stored : ∀ anchor ∈ anchors, (gen.store.get? anchor).isSome) :
    (anchors.forM fun anchor => do let _ ← insertOrdering anchor id).run gen =
      .ok () { gen with store := gen.store.awaitAll id anchors } := by
  induction anchors generalizing gen with
  | nil => rfl
  | cons anchor rest ih =>
    obtain ⟨seed, hseed⟩ := Option.isSome_iff_exists.1 (stored anchor (by simp))
    have hawait : gen.store.await id anchor = gen.store.set anchor (seed.await id) := by
      rw [Store.await, hseed]
    have hfirst : (do let _ ← insertOrdering anchor id : GenM κ Unit).run gen =
        .ok () { gen with store := gen.store.await id anchor } := by
      rw [hawait]
      exact run_bind_ok (run_bind_ok (run_lookup_of_some hseed))
    rw [forM_cons, run_bind_ok hfirst]
    refine ih _ fun other mem => ?_
    rw [Store.get?_await, Option.isSome_map]
    exact stored other (List.mem_cons_of_mem _ mem)

theorem traceless_propagateOrdering (id : SeedId) {gen : Session} (anchored : gen.Anchored) :
    Traceless (propagateOrdering id) gen := by
  refine .after_readsOnly readsOnly_requireOpen fun _ =>
    .after_readsOnly (readsOnly_lookup id) fun _ => .of_cases (.inr ?_)
  have hstored : ∀ anchor ∈ gen.dependingScopes.filter
      (fun anchor => decide (id.index < anchor.index)), (gen.store.get? anchor).isSome := by
    intro anchor mem
    have hdepending := List.mem_of_mem_filter mem
    rw [dependingScopes, List.mem_reverse, List.mem_map] at hdepending
    obtain ⟨scope, hscope, rfl⟩ := hdepending
    have hslot := anchored scope (List.mem_of_mem_filter hscope)
    rwa [slot?, Option.isSome_map] at hslot
  exact ⟨(), _, run_insertOrderings id _ gen hstored⟩

/-- **A request that generates no code leaves no trace if it fails.** -/
theorem traceless_respond (traversal : Traversal Hook) (request : Request)
    (quiet : request.generates = false) {gen : Session} (anchored : gen.Anchored) :
    Traceless (respond traversal request) gen := by
  have hlook : ∀ {α : Type} {operation : GenM Hook α} (answer : α → Answer),
      ReadsOnly operation → Traceless (do return answer (← operation)) gen :=
    fun answer hreads => (Traceless.of_readsOnly hreads gen).map answer
  cases request with
  | register candidate => exact (traceless_register _ gen).map Answer.id
  | registerCopy id =>
    exact .after_readsOnly (readsOnly_lookup id) fun seed =>
      (traceless_register (.seed seed) gen).map Answer.id
  | addDependency source key target =>
    exact (traceless_addDependency source key target gen).map fun _ => Answer.done
  | addOrdering source target => exact (traceless_addOrdering source target gen).map Answer.key
  | setPayload id payload => exact (traceless_setPayload id payload gen).map fun _ => Answer.done
  | beginScope anchor depending =>
    exact (traceless_beginScope anchor depending gen).map fun _ => Answer.done
  | endScope => exact (traceless_endScope gen).map fun ended =>
      Answer.scopeEnded ended.1 ended.2
  | memoize key id => exact .of_cases (.inr ⟨_, _, rfl⟩)
  | propagateOrdering id =>
    exact (traceless_propagateOrdering id anchored).map fun _ => Answer.done
  | finalize => exact (traceless_finalize gen).map fun _ => Answer.done
  | bind id => exact (traceless_bind id gen).map fun _ => Answer.done
  | setOutput output => exact .of_cases (.inr ⟨_, _, rfl⟩)
  | generate => exact absurd quiet (by simp [Request.generates])
  | generateFrom initial start => exact absurd quiet (by simp [Request.generates])
  | generateRegion start => exact absurd quiet (by simp [Request.generates])
  | payload id => exact hlook _ (readsOnly_lookup id)
  | referents id => exact hlook _ (readsOnly_lookup id)
  | seed id => exact hlook _ (readsOnly_lookup id)
  | referentCount id => exact hlook _ (readsOnly_referentCount id)
  | shouldBind id => exact hlook _ (readsOnly_policy id)
  | result id =>
    exact .of_readsOnly ((readsOnly_lookup id).bind fun _ => (ReadsOnly.ofExcept _).bind fun _ =>
      .pure _) gen
  | _ => exact hlook _ .get

end Generator

theorem Compilation.traceless_setResult (value : Compiled) (cx : Compilation) :
    Traceless (setResult value) cx := by
  refine .of_cases ?_
  obtain hfail | ⟨seed, -, -, hrun⟩ := setResult_cases value cx
  · exact .inl hfail
  · exact .inr ⟨_, _, hrun⟩

/-! ### The main result -/

/-- **Failures leave no trace.**  At any moment of any run, in the middle of a hook or not: if one
of the operations that build a graph, open and close scopes, complete the graph, bind a result or
set one fails, the whole session is what it was before, its journal included.  So a request that
generates no code either succeeds or changes nothing. -/
theorem Session.failures_leave_no_trace {gen : Session} (reachable : Reachable gen) :
    (∀ candidate, Traceless (Generator.register candidate) gen) ∧
    (∀ source key target, Traceless (Generator.addDependency source key target) gen) ∧
    (∀ source target, Traceless (Generator.addOrdering source target) gen) ∧
    (∀ id payload, Traceless (Generator.setPayload id payload) gen) ∧
    (∀ anchor depending, Traceless (Generator.beginScope anchor depending) gen) ∧
    Traceless Generator.endScope gen ∧
    (∀ id, Traceless (Generator.propagateOrdering id) gen) ∧
    Traceless Generator.finalize gen ∧
    (∀ id, Traceless (Generator.bind id) gen) ∧
    (∀ (cx : Compilation) value, cx.generator = gen → Traceless (Compilation.setResult value) cx) ∧
    ∀ request failure, request.generates = false → (gen.step request).1 = .error failure →
      (gen.step request).2 = gen := by
  refine ⟨fun candidate => Generator.traceless_register candidate gen,
    fun source key target => Generator.traceless_addDependency source key target gen,
    fun source target => Generator.traceless_addOrdering source target gen,
    fun id payload => Generator.traceless_setPayload id payload gen,
    fun anchor depending => Generator.traceless_beginScope anchor depending gen,
    Generator.traceless_endScope gen,
    fun id => Generator.traceless_propagateOrdering id reachable.anchored,
    Generator.traceless_finalize gen, fun id => Generator.traceless_bind id gen,
    fun cx value _ => Compilation.traceless_setResult value cx,
    fun request failure quiet hfailed => ?_⟩
  have htraceless := Generator.traceless_respond
    (Generator.traverse gen.store.seeds.length) request quiet reachable.anchored
  cases hrun : (Generator.respond (Generator.traverse gen.store.seeds.length) request).run gen with
  | ok answer gen' =>
    rw [step_of_ok hrun] at hfailed
    exact absurd hfailed (by simp)
  | error other gen' =>
    rw [step_of_error hrun]
    exact htraceless other gen' hrun

/-- Two seeds that depend on each other, inside a depending scope: the graph cannot be completed,
there is no seed to wait for, and no result to bind. -/
theorem Session.failures_leave_no_trace_cyclic :
    let seed (other : SeedId) : Blueprint Hook := {
      kind := "seed"
      edges := [⟨.arg 0, other⟩]
      hook := [.text "x", .setResult, .proceed] }
    let requests : List Request := [.register (.seed (seed ⟨1⟩)), .register (.seed (seed ⟨0⟩)),
      .beginScope ⟨1⟩ true]
    let gen := blank.run requests
    gen.dependingScopes = [⟨1⟩] ∧
    (gen.step .finalize).1 = .error (.cyclicDependency ⟨1⟩) ∧ (gen.step .finalize).2 = gen ∧
    (gen.step (.propagateOrdering ⟨2⟩)).1 = .error (.seedNotFound ⟨2⟩) ∧
    (gen.step (.propagateOrdering ⟨2⟩)).2 = gen ∧
    (gen.step (.bind ⟨0⟩)).1 = .error (.missingResult ⟨0⟩) ∧ (gen.step (.bind ⟨0⟩)).2 = gen := by
  intro seed requests
  have reachable := reachable_run_blank requests
  obtain ⟨-, -, -, -, -, -, -, -, -, -, hrequests⟩ := failures_leave_no_trace reachable
  have hcycle : ((blank.run requests).step .finalize).1 = .error (.cyclicDependency ⟨1⟩) := by
    decide +kernel
  have hmissing : ((blank.run requests).step (.propagateOrdering ⟨2⟩)).1 =
      .error (.seedNotFound ⟨2⟩) := by decide +kernel
  have hunset : ((blank.run requests).step (.bind ⟨0⟩)).1 = .error (.missingResult ⟨0⟩) := by
    decide +kernel
  exact ⟨by decide +kernel, hcycle, hrequests _ _ rfl hcycle, hmissing,
    hrequests _ _ rfl hmissing, hunset, hrequests _ _ rfl hunset⟩

end SeedGraph
