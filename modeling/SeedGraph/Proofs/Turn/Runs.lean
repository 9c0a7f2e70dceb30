import Mathlib.Tactic.ByContra
import SeedGraph.Proofs.Turn

/-!
# Runs as turns

An operation *follows* turns if, whether it succeeds or fails, it takes the session from where it is
to where it ends by turns alone.  The operations that do no deed need no second look at what they
do: that they are orderly gives the moves, and that they are silent makes the moves plain turns.
What is left are registration, setting a result, the continuation, binding on request, and all that
runs hooks.

The hook that forwards is looked at as a whole, since what it writes is tied to what it read two
steps before.  For every other hook it is enough to follow its actions one by one.

* `Generator.follows_respond`, `Action.follows_run`, `Hook.turns_run`: requests and hooks.
* `Generator.follows_traverse`: traversals.
* `Session.turns_run`: whole runs.
-/

namespace SeedGraph

variable {onRequest : Bool}

/-! ### Operations without a deed -/

/-- An operation that leaves the number of deeds as it is. -/
def Silent {α : Type} (operation : GenM Hook α) : Prop :=
  ∀ gen : Session, (stateAfter operation gen).deeds = gen.deeds

namespace Silent

variable {α β : Type}

theorem of_readsOnly {operation : GenM Hook α} (h : ReadsOnly operation) : Silent operation := by
  intro gen
  rw [h gen]

theorem pure (value : α) : Silent (Pure.pure value : GenM Hook α) :=
  of_readsOnly (.pure value)

theorem bind {x : GenM Hook α} {f : α → GenM Hook β} (hx : Silent x)
    (hf : ∀ value, Silent (f value)) : Silent (x >>= f) := by
  intro gen
  have hfirst := hx gen
  rw [stateAfter_bind]
  cases hrun : x.run gen with
  | error failure gen' =>
    rw [stateAfter_of_error hrun] at hfirst
    exact hfirst
  | ok value gen' =>
    rw [stateAfter_of_ok hrun] at hfirst
    exact (hf value gen').trans hfirst

theorem forM {f : α → GenM Hook Unit} (h : ∀ item, Silent (f item)) (items : List α) :
    Silent (items.forM f) := by
  induction items with
  | nil => exact pure ()
  | cons item rest ih => exact (h item).bind fun _ => ih

/-- An operation that fails without a trace, or succeeds without a deed. -/
theorem of_cases {operation : GenM Hook α}
    (h : ∀ gen : Session, (∃ failure, operation.run gen = .error failure gen) ∨
      ∃ value gen', operation.run gen = .ok value gen' ∧ gen'.deeds = gen.deeds) :
    Silent operation := by
  intro gen
  obtain ⟨failure, hrun⟩ | ⟨value, gen', hrun, hsame⟩ := h gen
  · rw [stateAfter_of_error hrun]
  · rw [stateAfter_of_ok hrun]
    exact hsame

theorem note {event : Event} (plain : event.isDeed = false) :
    Silent (Generator.note event : GenM Hook Unit) :=
  fun _ => Generator.deeds_noted plain

end Silent

namespace Generator

theorem silent_addDependency (source : SeedId) (key : Key) (target : SeedId) :
    Silent (addDependency source key target) := by
  refine .of_cases fun gen => ?_
  obtain hfail | ⟨seed, -, -, hrun⟩ := addDependency_cases source key target gen
  · exact .inl hfail
  · exact .inr ⟨_, _, hrun, rfl⟩

theorem silent_insertOrdering (source target : SeedId) : Silent (insertOrdering source target) := by
  refine .of_cases fun gen => ?_
  obtain hfail | ⟨seed, -, hrun⟩ := insertOrdering_cases source target gen
  · exact .inl hfail
  · exact .inr ⟨_, _, hrun, rfl⟩

theorem silent_addOrdering (source target : SeedId) : Silent (addOrdering source target) :=
  (Silent.of_readsOnly readsOnly_requireOpen).bind fun _ => silent_insertOrdering source target

theorem silent_propagateOrdering (id : SeedId) : Silent (propagateOrdering id) :=
  (Silent.of_readsOnly readsOnly_requireOpen).bind fun _ =>
    (Silent.of_readsOnly (readsOnly_lookup id)).bind fun _ =>
      (Silent.of_readsOnly .get).bind fun _ => .forM (fun anchor =>
        (silent_insertOrdering anchor id).bind fun _ => .pure _) _

theorem silent_setPayload (id : SeedId) (payload : Json) : Silent (setPayload id payload) := by
  refine .of_cases fun gen => ?_
  obtain hfail | ⟨seed, -, hrun⟩ :=
    lookup_replace_cases id (fun seed => { seed with payload := some payload }) gen
  · exact .inl hfail
  · exact .inr ⟨_, _, hrun, rfl⟩

theorem silent_beginScope (anchor : SeedId) (depending : Bool) :
    Silent (beginScope anchor depending) :=
  (Silent.of_readsOnly (readsOnly_lookup anchor)).bind fun _ =>
    Silent.bind (fun _ => rfl) fun _ => .note rfl

theorem silent_endScope : Silent endScope := by
  refine .of_cases fun gen => ?_
  rw [endScope, run_get_bind]
  cases gen.scopes with
  | nil => exact .inl ⟨_, rfl⟩
  | cons scope rest => exact .inr ⟨_, _, rfl, deeds_noted rfl⟩

theorem silent_memoize (key : String) (id : SeedId) : Silent (memoize key id) :=
  .of_cases fun _ => .inr ⟨_, _, rfl, deeds_noted rfl⟩

theorem silent_finalize : Silent finalize := by
  refine .of_cases fun gen => ?_
  obtain hfail | ⟨-, -, -, hrun⟩ := finalize_cases gen
  · exact .inl hfail
  · exact .inr ⟨_, _, hrun, rfl⟩

theorem silent_remember (result : Option Compiled) : Silent (remember result) :=
  fun _ => rfl

end Generator

/-! ### Operations as turns -/

/-- An operation that takes a session along turns, whether it succeeds or fails. -/
def Follows {α : Type} (onRequest : Bool) (operation : GenM Hook α) : Prop :=
  ∀ gen : Session, gen.store.Numbered → gen.Permits onRequest →
    Turns onRequest gen (stateAfter operation gen)

namespace Follows

variable {α β : Type}

/-- An orderly operation without a deed consists of plain turns. -/
theorem of_silent {operation : GenM Hook α} (orderly : Orderly false operation)
    (silent : Silent operation) : Follows onRequest operation := by
  intro gen numbered _
  exact .of_moves (orderly gen numbered).moves (silent gen)

theorem of_readsOnly {operation : GenM Hook α} (h : ReadsOnly operation) :
    Follows onRequest operation :=
  of_silent (.of_readsOnly h) (.of_readsOnly h)

theorem bind {x : GenM Hook α} {f : α → GenM Hook β} (hx : Follows onRequest x)
    (hf : ∀ value, Follows onRequest (f value)) : Follows onRequest (x >>= f) := by
  intro gen numbered permits
  have hfirst := hx gen numbered permits
  rw [stateAfter_bind]
  cases hrun : x.run gen with
  | error failure gen' =>
    rw [stateAfter_of_error hrun] at hfirst
    exact hfirst
  | ok value gen' =>
    rw [stateAfter_of_ok hrun] at hfirst
    exact hfirst.trans
      (hf value gen' (hfirst.moves.numbered numbered) (hfirst.moves.permits permits))

/-- The answer of an operation is made into another one. -/
theorem map {x : GenM Hook α} (answer : α → β) (hx : Follows onRequest x) :
    Follows onRequest (do return answer (← x)) :=
  hx.bind fun _ => .of_readsOnly (.pure _)

end Follows

namespace Generator

variable {traversal : Traversal Hook}

theorem follows_register (candidate : Candidate (Blueprint Hook)) :
    Follows onRequest (register (candidate.map Blueprint.build)) := by
  intro gen _ _
  obtain ⟨failure, hfail⟩ | ⟨seed, hseed, opened, hid, room, hrun⟩ :=
    register_cases (candidate.map Blueprint.build) gen
  · rw [stateAfter_of_error hfail]
  · cases candidate with
    | placeholder tagged => exact absurd hseed (by simp [Candidate.map])
    | seed blueprint =>
      obtain rfl : blueprint.build = seed := by simpa [Candidate.map] using hseed
      rw [stateAfter_of_ok hrun]
      exact .single (.register blueprint opened hid room)

/-- A stored seed has an identifier, so registering it again does nothing. -/
theorem follows_registerCopy (id : SeedId) :
    Follows onRequest (do let seed ← lookup id; register (.seed seed)) := by
  intro gen numbered _
  rw [stateAfter_bind]
  cases hstored : gen.store.get? id with
  | none =>
    rw [run_lookup_of_none hstored]
  | some seed =>
    rw [run_lookup_of_some hstored]
    obtain ⟨failure, hfail⟩ | ⟨other, hother, -, hid, -, -⟩ := register_cases (.seed seed) gen
    · dsimp only
      rw [stateAfter_of_error hfail]
    · obtain rfl : seed = other := by simpa using hother
      rw [numbered id seed hstored] at hid
      exact absurd hid (by simp)

theorem follows_bind (allowed : onRequest = true) (id : SeedId) : Follows onRequest (bind id) := by
  intro gen _ _
  obtain ⟨failure, hfail⟩ | ⟨seed, value, stored, unbound, hrun⟩ := bind_cases id gen
  · rw [stateAfter_of_error hfail]
  · rw [stateAfter_of_ok hrun]
    exact .single (.bind allowed stored unbound)

theorem follows_generate (h : ∀ initial start, Follows onRequest (traversal initial start)) :
    Follows onRequest (generate traversal) :=
  (Follows.of_readsOnly .get).bind fun _ =>
    (Follows.of_readsOnly (.require _ _)).bind fun _ => h _ _

theorem follows_generateRegion
    (orderly : ∀ initial start, Orderly false (traversal initial start))
    (h : ∀ initial start, Follows onRequest (traversal initial start)) (start : SeedId) :
    Follows onRequest (generateRegion traversal start) := by
  intro gen numbered permits
  have hopened : Turns onRequest gen gen.openRegion := .plain .openRegion (deeds_noted rfl)
  have hinside := h none start gen.openRegion numbered (hopened.moves.permits permits)
  have hframes := (orderly none start gen.openRegion numbered).frames
  rw [frames_openRegion] at hframes
  cases hrun : (traversal none start).run gen.openRegion with
  | ok result gen' =>
    rw [stateAfter_of_ok hrun] at hinside hframes
    rw [stateAfter_of_ok (run_generateRegion_ok hrun)]
    exact (hopened.trans hinside).trans (Turns.plain (.closeRegion _ hframes) (deeds_noted rfl))
  | error failure gen' =>
    rw [stateAfter_of_error hrun] at hinside hframes
    rw [stateAfter_of_error (run_generateRegion_error hrun)]
    exact (hopened.trans hinside).trans (Turns.plain (.closeRegion none hframes) (deeds_noted rfl))

/-- **Every request is a sequence of turns**, if traversals are. -/
theorem follows_respond (orderly : ∀ initial start, Orderly false (traversal initial start))
    (h : ∀ initial start, Follows onRequest (traversal initial start)) (request : Request)
    (free : onRequest = false → request.binds = false) :
    Follows onRequest (respond traversal request) := by
  have hlook : ∀ {α : Type} {operation : GenM Hook α} (answer : α → Answer),
      ReadsOnly operation → Follows onRequest (do return answer (← operation)) :=
    fun answer hreads => .map answer (.of_readsOnly hreads)
  cases request with
  | register candidate => exact .map _ (follows_register candidate)
  | registerCopy id =>
    have hcopy := Follows.map Answer.id (@follows_registerCopy onRequest id)
    rw [bind_assoc] at hcopy
    exact hcopy
  | bind id =>
    have hallowed : onRequest = true := by
      by_contra hnot
      exact absurd (free (Bool.eq_false_iff.2 hnot)) (by simp [Request.binds])
    exact .map _ (follows_bind hallowed id)
  | generate =>
    exact (follows_generate h).bind fun result =>
      .of_silent (orderly_remember result) (silent_remember result)
  | generateFrom initial start =>
    exact (h initial start).bind fun result =>
      .of_silent (orderly_remember result) (silent_remember result)
  | generateRegion start =>
    exact (follows_generateRegion orderly h start).bind fun _ => hlook _ .get
  | addDependency source key target =>
    exact .map _ (.of_silent (orderly_addDependency source key target)
      (silent_addDependency source key target))
  | addOrdering source target =>
    exact .map _ (.of_silent (orderly_addOrdering source target) (silent_addOrdering source target))
  | setPayload id payload =>
    exact .map _ (.of_silent (orderly_setPayload id payload) (silent_setPayload id payload))
  | beginScope anchor depending =>
    exact .map _ (.of_silent (orderly_beginScope anchor depending)
      (silent_beginScope anchor depending))
  | endScope => exact .map _ (.of_silent orderly_endScope silent_endScope)
  | memoize key id => exact .map _ (.of_silent (orderly_memoize key id) (silent_memoize key id))
  | propagateOrdering id =>
    exact .map _ (.of_silent (orderly_propagateOrdering id) (silent_propagateOrdering id))
  | finalize => exact .map _ (.of_silent orderly_finalize silent_finalize)
  | setOutput output => exact .map _ (.of_silent (orderly_setOutput output) fun _ => rfl)
  | payload id => exact hlook _ (readsOnly_lookup id)
  | referents id => exact hlook _ (readsOnly_lookup id)
  | seed id => exact hlook _ (readsOnly_lookup id)
  | referentCount id => exact hlook _ (readsOnly_referentCount id)
  | shouldBind id => exact hlook _ (readsOnly_policy id)
  | result id =>
    exact .of_readsOnly ((readsOnly_lookup id).bind fun _ => (ReadsOnly.ofExcept _).bind fun _ =>
      .pure _)
  | _ => exact hlook _ .get

end Generator

/-! ### Operations of a running hook -/

/-- The hook of a seed is the innermost frame, with `outer` around it, and does not forward. -/
structure Compilation.Underway (onRequest : Bool) (outer : List Frame) (cx : Compilation) :
    Prop where
  /-- Stored seeds carry their identifiers. -/
  numbered : cx.generator.store.Numbered
  /-- Bindings on request are asked for only where they are allowed. -/
  permits : cx.generator.Permits onRequest
  /-- The graph is complete. -/
  complete : cx.generator.finalized = true
  /-- The frame of the hook counts its continuations. -/
  frames : cx.generator.frames = .hook cx.id cx.continuations :: outer
  /-- The hook does more than forwarding. -/
  busy : ∀ seed key, cx.generator.store.get? cx.id = some seed → seed.hook ≠ .forward key

theorem Compilation.Underway.after {outer : List Frame} {cx cx' : Compilation}
    (h : cx.Underway onRequest outer) (passage : HookPassage false outer cx cx') :
    cx'.Underway onRequest outer where
  numbered := passage.moves.numbered h.numbered
  permits := passage.moves.permits h.permits
  complete := passage.moves.finalized h.complete
  frames := passage.frames
  busy seed' key hstored := by
    rw [passage.id] at hstored
    obtain ⟨seed, hseed, hdesign⟩ := (passage.moves.sameGraph h.complete).stored hstored
    rw [← Seed.hook_of_design hdesign]
    exact h.busy seed key hseed

/-- An orderly operation of a hook that takes the session along turns. -/
structure HookFollows {α : Type} (onRequest : Bool) (operation : HookM α) : Prop where
  /-- The hook is the innermost frame again in the end. -/
  orderly : HookOrderly false operation
  /-- The session goes along turns. -/
  turns : ∀ (cx : Compilation) (outer : List Frame), cx.Underway onRequest outer →
    Turns onRequest cx.generator (stateAfter operation cx).generator

namespace HookFollows

variable {α β : Type}

theorem of_readsOnly {operation : HookM α} (h : ReadsOnly operation) :
    HookFollows onRequest operation where
  orderly := .of_readsOnly h
  turns cx outer _ := by rw [h cx]

theorem get : HookFollows onRequest (MonadState.get : HookM Compilation) :=
  of_readsOnly .get

theorem bind {x : HookM α} {f : α → HookM β} (hx : HookFollows onRequest x)
    (hf : ∀ value, HookFollows onRequest (f value)) : HookFollows onRequest (x >>= f) where
  orderly := hx.orderly.bind fun value => (hf value).orderly
  turns cx outer underway := by
    have hpassage := hx.orderly cx outer underway.numbered underway.frames
    have hfirst := hx.turns cx outer underway
    rw [stateAfter_bind]
    cases hrun : x.run cx with
    | error failure cx' =>
      rw [stateAfter_of_error hrun] at hfirst
      exact hfirst
    | ok value cx' =>
      rw [stateAfter_of_ok hrun] at hfirst hpassage
      exact hfirst.trans ((hf value).turns cx' outer (underway.after hpassage))

theorem tryCatch {x : HookM α} {handler : Error → HookM α} (hx : HookFollows onRequest x)
    (hhandler : ∀ failure, HookFollows onRequest (handler failure)) :
    HookFollows onRequest (MonadExcept.tryCatch x handler) where
  orderly := hx.orderly.tryCatch fun failure => (hhandler failure).orderly
  turns cx outer underway := by
    have hpassage := hx.orderly cx outer underway.numbered underway.frames
    have hfirst := hx.turns cx outer underway
    cases hrun : x.run cx with
    | ok value cx' =>
      rw [stateAfter_of_ok hrun] at hfirst
      rw [stateAfter_of_ok (run_tryCatch_ok hrun)]
      exact hfirst
    | error failure cx' =>
      rw [stateAfter_of_error hrun] at hfirst hpassage
      rw [stateAfter_tryCatch_error hrun]
      exact hfirst.trans ((hhandler failure).turns cx' outer (underway.after hpassage))

/-- Changing the text that a hook has gathered is no turn at all. -/
theorem modify_buffer (f : Compilation → String) :
    HookFollows onRequest (modify fun cx => { cx with buffer := f cx }) where
  orderly := .modify_buffer f
  turns _ _ _ := .refl

/-- What the session does for a hook. -/
theorem onGenerator {operation : GenM Hook α} (orderly : Orderly false operation)
    (h : Follows onRequest operation) :
    HookFollows onRequest (Compilation.onGenerator operation) where
  orderly := Compilation.hookOrderly_onGenerator orderly
  turns cx outer underway := by
    rw [Compilation.stateAfter_onGenerator]
    exact h cx.generator underway.numbered underway.permits

/-- A remark is noted. -/
theorem remark {event : Event} (plain : event.isRemark = true) :
    HookFollows onRequest (Compilation.onGenerator (Generator.note event)) := by
  have hquiet : event.isDeed = false := by
    cases event with
    | caught _ _ => rfl
    | answered _ _ => rfl
    | _ => exact absurd plain (by simp [Event.isRemark])
  exact onGenerator (Generator.orderly_remark plain)
    (.of_silent (Generator.orderly_remark plain) (.note hquiet))

end HookFollows

namespace Compilation

theorem hookFollows_setResult (value : Compiled) : HookFollows onRequest (setResult value) where
  orderly := hookOrderly_setResult value
  turns cx outer underway := by
    obtain ⟨failure, hrun⟩ | ⟨seed, stored, unset, hrun⟩ := setResult_cases value cx
    · rw [stateAfter_of_error hrun]
    · rw [stateAfter_of_ok hrun]
      refine .single (.write value underway.frames stored unset fun key hforward => ?_)
      exact absurd hforward (underway.busy seed key stored)

theorem hookFollows_proceed : HookFollows onRequest proceed where
  orderly := hookOrderly_proceed
  turns cx outer underway := by
    have hframes := underway.frames
    rw [stateAfter, run_proceed]
    by_cases hfirst : cx.continuations = 0
    · rw [if_pos hfirst]
      change Turns onRequest _ (stateAfter (onGenerator _) _).generator
      rw [stateAfter_onGenerator]
      dsimp only
      obtain ⟨hsame, hnone⟩ | ⟨seed, text, stored, code, hsettled⟩ :=
        @Generator.settle_outcome (cx.generator.noted (.continued cx.id)) underway.complete cx.id
      · rw [hsame]
        exact .single (.proceedInVain hframes fun _ => hnone)
      · rw [hsettled]
        rw [hfirst] at hframes
        exact .single (.settle underway.complete hframes stored code)
    · rw [if_neg hfirst]
      exact .single (.proceedInVain hframes fun hzero => absurd hzero hfirst)

end Compilation

/-! ### Hooks -/

variable {traversal : Traversal Hook}

open Compilation in
/-- **Every action of a hook is a sequence of turns**, if traversals are. -/
theorem Action.follows_run (orderly : ∀ initial start, Orderly false (traversal initial start))
    (h : ∀ initial start, Follows onRequest (traversal initial start)) :
    ∀ action : Action, (onRequest = false → action.binds = false) →
      HookFollows onRequest (action.run traversal)
  | .text s, _ => .modify_buffer fun cx => cx.buffer ++ s
  | .clear, _ => .modify_buffer fun _ => ""
  | .ownId, _ => HookFollows.get.bind fun _ => .modify_buffer _
  | .ownKind, _ => (HookFollows.of_readsOnly readsOnly_self).bind fun _ => .modify_buffer _
  | .ownPayload, _ => (HookFollows.of_readsOnly readsOnly_self).bind fun _ => .modify_buffer _
  | .target key, _ =>
    (HookFollows.of_readsOnly (readsOnly_target key)).bind fun _ => .modify_buffer _
  | .input key, _ =>
    (HookFollows.of_readsOnly (readsOnly_input key)).bind fun _ => .modify_buffer _
  | .inputCode key, _ =>
    (HookFollows.of_readsOnly (readsOnly_inputCode key)).bind fun _ => .modify_buffer _
  | .setResult, _ => HookFollows.get.bind fun _ => hookFollows_setResult _
  | .setSeed _, _ => hookFollows_setResult _
  | .leak key, _ =>
    (HookFollows.of_readsOnly (readsOnly_target key)).bind fun _ => hookFollows_setResult _
  | .proceed, _ => hookFollows_proceed
  | .region _ _, _ =>
    HookFollows.get.bind fun _ =>
      (HookFollows.onGenerator (Generator.orderly_generateRegion orderly _)
        (Generator.follows_generateRegion orderly h _)).bind fun _ =>
          HookFollows.get.bind fun _ => .modify_buffer _
  | .request asked, free =>
    (HookFollows.onGenerator (Generator.orderly_respond orderly asked (by simp))
      (Generator.follows_respond orderly h asked free)).bind fun _ =>
        HookFollows.get.bind fun _ => .remark rfl
  | .attempt action, free =>
    (Action.follows_run orderly h action free).tryCatch fun _ =>
      HookFollows.get.bind fun _ => .remark rfl
  | .fail _, _ => .of_readsOnly (.throw _)

namespace Hook

theorem follows_run (orderly : ∀ initial start, Orderly false (traversal initial start))
    (h : ∀ initial start, Follows onRequest (traversal initial start)) (hook : Hook)
    (free : onRequest = false → hook.binds = false) :
    HookFollows onRequest (hook.run traversal) := by
  induction hook with
  | nil => exact .of_readsOnly (.pure ())
  | cons action rest ih =>
    have hfree : onRequest = false → action.binds = false ∧ Hook.binds rest = false := by
      intro hnone
      have hall := free hnone
      unfold Hook.binds at hall
      rw [List.any_cons, Bool.or_eq_false_iff] at hall
      exact hall
    exact (action.follows_run orderly h fun hnone => (hfree hnone).1).bind fun _ =>
      ih fun hnone => (hfree hnone).2

end Hook

/-- A hook that forwards: it fails at its input, or writes what it read and settles it. -/
theorem Hook.turns_forward {gen : Session} {id : SeedId} {seed : Seed Hook} {key : Key}
    {outer : List Frame} (complete : gen.finalized = true)
    (hframes : gen.frames = .hook id 0 :: outer) (stored : gen.store.get? id = some seed)
    (unset : seed.slot = .unset) (forwards : seed.hook = .forward key) :
    Turns onRequest gen
      (stateAfter (Hook.run traversal (.forward key)) { id, generator := gen }).generator := by
  rw [Hook.run, Hook.forward, forM_cons, stateAfter_bind, Action.run]
  obtain ⟨failure, hread⟩ | ⟨target, mention, hkey, hmention, hread⟩ :=
    @Compilation.input_cases { id, generator := gen } seed stored key
  · rw [run_bind_error hread]
  · have hgathered : (do Compilation.append (← Compilation.input key).display : HookM Unit).run
        { id, generator := gen } =
          .ok () { id, buffer := mention.display, generator := gen } := by
      rw [run_bind_ok hread]
      exact congrArg
        (fun buffer => EStateM.Result.ok () ({ id, buffer, generator := gen } : Compilation))
        String.empty_append
    rw [hgathered]
    have hend := @Hook.run_ending traversal { id, buffer := mention.display, generator := gen } seed
      complete rfl stored unset
    rw [Hook.run] at hend
    dsimp only
    rw [stateAfter_of_ok hend]
    -- What the hook has written it settles at once, so the two turns follow each other.
    have hwrite : Turn onRequest gen (gen.withResult id seed (.code mention.display)) := by
      refine .write _ hframes stored unset fun other hother => ?_
      obtain rfl : key = other := by simpa [Hook.forward] using forwards.symm.trans hother
      exact ⟨target, mention, hkey, hmention, rfl⟩
    have hpending :
        (gen.withResult id seed (.code mention.display)).frames = .hook id 0 :: outer := by
      rw [Generator.frames_withResult]
      exact hframes
    exact .tail (.single hwrite)
      (.settle complete hpending (Generator.get?_announced stored mention.display) rfl)

/-- The run of a hook that was just entered. -/
theorem Hook.turns_run (orderly : ∀ initial start, Orderly false (traversal initial start))
    (h : ∀ initial start, Follows onRequest (traversal initial start)) {gen : Session} {id : SeedId}
    {seed : Seed Hook} (numbered : gen.store.Numbered) (permits : gen.Permits onRequest)
    (complete : gen.finalized = true) (stored : gen.store.get? id = some seed)
    (unset : seed.slot = .unset) :
    Turns onRequest (gen.entered id)
      (stateAfter (seed.hook.run traversal) { id, generator := gen.entered id }).generator := by
  by_cases hforward : ∃ key, seed.hook = .forward key
  · obtain ⟨key, hkey⟩ := hforward
    rw [hkey]
    have hframes := Generator.frames_entered gen id
    exact Hook.turns_forward (show (gen.entered id).finalized = true from complete) hframes stored
      unset hkey
  · have hfollows := seed.hook.follows_run orderly h fun hnone => (permits hnone).2 id seed stored
    refine hfollows.turns { id, generator := gen.entered id } gen.frames
      ⟨numbered, permits, complete, Generator.frames_entered gen id, fun other key hother => ?_⟩
    obtain rfl : seed = other := Option.some.inj (stored.symm.trans hother)
    exact fun hkey => hforward ⟨key, hkey⟩

/-! ### Traversals -/

namespace Generator

/-- The turns of a walk inside a traversal; if the walk fails, they include the end of the
traversal. -/
def Footsteps {α : Type} (onRequest : Bool) (gen : Session) :
    EStateM.Result Error Session α → Prop
  | .ok _ gen' => Turns onRequest gen gen'
  | .error failure gen' => Turns onRequest gen (gen'.noted (.traversalEnded (some failure)))

theorem footsteps_error {α : Type} {gen : Session} {outer : List Frame}
    (hframes : gen.frames = .traversal :: outer) (failure : Error) :
    Footsteps onRequest gen (.error failure gen : EStateM.Result Error Session α) :=
  Turns.plain (.endTraversal (some failure) hframes) (deeds_noted rfl)

/-- What comes before a walk belongs to it. -/
theorem Footsteps.of_turns {α : Type} {gen gen' : Session} (turns : Turns onRequest gen gen')
    {outcome : EStateM.Result Error Session α} (h : Footsteps onRequest gen' outcome) :
    Footsteps onRequest gen outcome := by
  cases outcome with
  | ok value last => exact turns.trans h
  | error failure last => exact turns.trans h

/-- Compiling a seed: its hook is entered, runs, and is accepted, or its traversal fails. -/
theorem footsteps_compile (orderly : ∀ initial start, Orderly false (traversal initial start))
    (h : ∀ initial start, Follows onRequest (traversal initial start)) {gen : Session}
    {outer : List Frame} {id : SeedId} {seed : Seed Hook} (numbered : gen.store.Numbered)
    (permits : gen.Permits onRequest) (complete : gen.finalized = true)
    (hframes : gen.frames = .traversal :: outer) (stored : gen.store.get? id = some seed)
    (unset : seed.slot = .unset) : Footsteps onRequest gen ((compile traversal id).run gen) := by
  obtain ⟨error, hrun⟩ | ⟨continuations, ending, hhook, hinside, hend⟩ :=
    compile_cases orderly numbered complete hframes stored unset
  · rw [hrun]
    exact footsteps_error hframes error
  have hturns := Hook.turns_run orderly h numbered permits complete stored unset
  rw [hinside] at hturns
  have hran : Turns onRequest gen ending := (Turns.plain hhook.enter (deeds_noted rfl)).trans hturns
  have hinner := hhook.frames
  rw [hframes] at hinner
  obtain ⟨failure, error, hrun⟩ | ⟨found, text, rfl, hfound, hslot, hrun⟩ := hend
  · rw [hrun]
    refine hran.trans (Turns.plain (.reject failure error hinner) ?_)
    exact (deeds_noted rfl).trans (deeds_noted rfl)
  · rw [hrun]
    refine hran.trans (Turns.plain (.accept hinner hfound hslot) ?_)
    exact (deeds_noted rfl).trans (deeds_noted rfl)

/-- The turns of a traversal inside the frames `outer`, which are strides as well. -/
theorem gait_footsteps (onRequest : Bool) (outer : List Frame) :
    Gait (fun gen => gen.Permits onRequest ∧ gen.frames = .traversal :: outer)
      fun _ gen outcome => Footsteps onRequest gen outcome ∧ Strides gen outer outcome where
  refl gen value := ⟨Relation.ReflTransGen.refl, (gait_strides outer).refl gen value⟩
  giveUp failure rest :=
    ⟨footsteps_error rest.2 failure, (gait_strides outer).giveUp failure rest.2⟩
  trans rest h h' := ⟨.of_turns h.1 h'.1, (gait_strides outer).trans rest.2 h.2 h'.2⟩
  failure h := h
  rest rest h := ⟨(Turns.moves h.1).permits rest.1, (gait_strides outer).rest rest.2 h.2⟩
  moves h := Turns.moves h.1

/-- A traversal whose seeds are compiled along turns goes along turns. -/
theorem follows_traverseWith {compile : SeedId → GenM Hook Compiled}
    (strides : ∀ (outer : List Frame) (gen : Session) (id : SeedId) (seed : Seed Hook),
      gen.store.Numbered → gen.finalized = true → gen.frames = .traversal :: outer →
      gen.store.get? id = some seed → seed.slot = .unset →
      Strides gen outer ((compile id).run gen))
    (h : ∀ (outer : List Frame) (gen : Session) (id : SeedId) (seed : Seed Hook),
      gen.store.Numbered → gen.Permits onRequest → gen.finalized = true →
      gen.frames = .traversal :: outer → gen.store.get? id = some seed → seed.slot = .unset →
      Footsteps onRequest gen ((compile id).run gen))
    (initial : Option Compiled) (start : SeedId) :
    Follows onRequest (traverseWith compile initial start) := by
  intro gen numbered permits
  have hbegan : Turns onRequest gen (gen.noted .traversalBegan) :=
    .plain .beginTraversal (deeds_noted rfl)
  have hframes : (gen.noted .traversalBegan).frames = .traversal :: gen.frames := frames_noted _ _
  obtain ⟨result, last, ⟨hturns, hpassage⟩, hafter⟩ | ⟨failure, last, ⟨hturns, -⟩, hafter⟩ :=
    (gait_footsteps onRequest gen.frames).traverseWith_cases
      (fun gen id seed numbered complete rest stored unset =>
        ⟨h _ gen id seed numbered rest.1 complete rest.2 stored unset,
          strides _ gen id seed numbered complete rest.2 stored unset⟩)
      initial start numbered ⟨permits, hframes⟩
  · rw [hafter]
    have hend := (Passage.frames hpassage).trans hframes
    exact (hbegan.trans hturns).trans (Turns.plain (.endTraversal none hend) (deeds_noted rfl))
  · rw [hafter]
    exact hbegan.trans hturns

/-- **Every traversal is a sequence of turns**, however deep hooks may run inside one another. -/
theorem follows_traverse (depth : Nat) (initial : Option Compiled) (start : SeedId) :
    Follows onRequest (traverse depth initial start) := by
  induction depth generalizing initial start with
  | zero =>
    exact follows_traverseWith (fun _ _ _ _ _ _ hframes _ _ => strides_error hframes _)
      (fun _ _ _ _ _ _ _ hframes _ _ => footsteps_error hframes _) initial start
  | succ depth ih =>
    have horderly := orderly_traverse depth
    exact follows_traverseWith
      (fun _ _ _ _ numbered complete hframes stored unset =>
        strides_compile horderly numbered complete hframes stored unset)
      (fun _ _ _ _ numbered permits complete hframes stored unset =>
        footsteps_compile horderly ih numbered permits complete hframes stored unset) initial start

end Generator

/-! ### Sessions -/

namespace Session

theorem turns_step {session : Session} (numbered : session.store.Numbered)
    (permits : session.Permits onRequest) (request : Request)
    (free : onRequest = false → request.binds = false) :
    Turns onRequest session (session.step request).2 := by
  rw [snd_step]
  exact Generator.follows_respond (Generator.orderly_traverse _) (Generator.follows_traverse _)
    request free session numbered permits

/-- **What requests do to a session is a sequence of turns.** -/
theorem turns_run {session : Session} (numbered : session.store.Numbered)
    (permits : session.Permits onRequest) (requests : List Request)
    (free : onRequest = false → ∀ request ∈ requests, request.binds = false) :
    Turns onRequest session (session.run requests) := by
  induction requests generalizing session with
  | nil => exact .refl
  | cons request rest ih =>
    have hstep := turns_step numbered permits request fun hnone => free hnone request (by simp)
    refine hstep.trans (ih (hstep.moves.numbered numbered) (hstep.moves.permits permits) ?_)
    intro hnone other hother
    exact free hnone other (List.mem_cons_of_mem _ hother)

end Session

end SeedGraph
