import SeedGraph.Proofs.Orderly

/-!
# Runs as moves

Hooks are programs of their own, and a traversal runs them.  This module follows a run all the way
down: an action of a hook is orderly if the traversal it may start is, so is a whole hook, and a
traversal that compiles its seeds by orderly hooks is orderly again.  Since a traversal of depth
`depth + 1` starts traversals of depth `depth`, the two statements are one induction.

* `Action.orderly_run`, `Hook.orderly_run`: hooks.  A hook that generates no code is level.
* `Generator.HookRun`, `Generator.compile_cases`: the run of one hook, and what may become of it.
* `Generator.Gait`: what has to be known of a seed that is compiled to know as much of a whole walk.
* `Generator.orderly_traverse`: traversals.
* `Session.moves_run`, `Session.frames_run`: requests are moves, and between two of them no frame is
  open.

## A failing walk

A hook that fails ends its traversal, and the two ends are a single move.  The walk inside a
traversal is therefore not orderly by itself: if it fails, its moves lead to the session in which
the traversal has already ended.  `Strides` is that form of the statement.
-/

namespace SeedGraph

/-! ### Operations of a running hook -/

/-- What an operation of the innermost hook does, with the frames `outer` around the hook. -/
structure HookPassage (level : Bool) (outer : List Frame) (cx cx' : Compilation) : Prop where
  /-- The hook still compiles the same seed. -/
  id : cx'.id = cx.id
  /-- The session went along a route on which the hook did not end. -/
  route : Route level (outer.length + 1) cx.generator cx'.generator
  /-- The hook is again the innermost frame, and its frame counts its continuations. -/
  frames : cx'.generator.frames = .hook cx'.id cx'.continuations :: outer

namespace HookPassage

variable {level : Bool} {outer : List Frame}

theorem moves {cx cx' : Compilation} (h : HookPassage level outer cx cx') :
    Moves cx.generator cx'.generator := h.route.moves

theorem trans {first second third : Compilation} (h : HookPassage level outer first second)
    (h' : HookPassage level outer second third) : HookPassage level outer first third :=
  ⟨h'.id.trans h.id, h.route.trans h'.route, h'.frames⟩

end HookPassage

/-- An operation of a hook that takes the session along moves and ends with the hook as the
innermost frame. -/
def HookOrderly {α : Type} (level : Bool) (operation : HookM α) : Prop :=
  ∀ (cx : Compilation) (outer : List Frame), cx.generator.store.Numbered →
    cx.generator.frames = .hook cx.id cx.continuations :: outer →
    HookPassage level outer cx (stateAfter operation cx)

namespace HookOrderly

variable {α β : Type} {level : Bool}

theorem of_readsOnly {operation : HookM α} (h : ReadsOnly operation) :
    HookOrderly level operation := by
  intro cx outer _ hframes
  rw [h cx]
  exact ⟨rfl, .refl _, hframes⟩

theorem pure (value : α) : HookOrderly level (Pure.pure value : HookM α) :=
  of_readsOnly (.pure value)

theorem throw (failure : Error) : HookOrderly level (MonadExcept.throw failure : HookM α) :=
  of_readsOnly (.throw failure)

theorem get : HookOrderly level (MonadState.get : HookM Compilation) :=
  of_readsOnly .get

theorem bind {x : HookM α} {f : α → HookM β} (hx : HookOrderly level x)
    (hf : ∀ value, HookOrderly level (f value)) : HookOrderly level (x >>= f) := by
  intro cx outer numbered hframes
  have hfirst := hx cx outer numbered hframes
  rw [stateAfter_bind]
  cases hrun : x.run cx with
  | error failure cx' =>
    rw [stateAfter_of_error hrun] at hfirst
    exact hfirst
  | ok value cx' =>
    rw [stateAfter_of_ok hrun] at hfirst
    exact hfirst.trans (hf value cx' outer (hfirst.moves.numbered numbered) hfirst.frames)

/-- A failure that is survived is followed by the handler. -/
theorem tryCatch {x : HookM α} {handler : Error → HookM α} (hx : HookOrderly level x)
    (hhandler : ∀ failure, HookOrderly level (handler failure)) :
    HookOrderly level (MonadExcept.tryCatch x handler) := by
  intro cx outer numbered hframes
  have hfirst := hx cx outer numbered hframes
  cases hrun : x.run cx with
  | ok value cx' =>
    rw [stateAfter_of_ok hrun] at hfirst
    rw [stateAfter_of_ok (run_tryCatch_ok hrun)]
    exact hfirst
  | error failure cx' =>
    rw [stateAfter_of_error hrun] at hfirst
    rw [stateAfter_tryCatch_error hrun]
    exact hfirst.trans
      (hhandler failure cx' outer (hfirst.moves.numbered numbered) hfirst.frames)

/-- Changing the text that a hook has gathered. -/
theorem modify_buffer (f : Compilation → String) :
    HookOrderly level (modify fun cx => { cx with buffer := f cx }) := by
  intro cx outer _ hframes
  exact ⟨rfl, .refl _, hframes⟩

end HookOrderly

namespace Compilation

variable {α : Type} {level : Bool}

theorem stateAfter_onGenerator (operation : GenM Hook α) (cx : Compilation) :
    stateAfter (onGenerator operation) cx =
      { cx with generator := stateAfter operation cx.generator } := by
  cases hrun : operation.run cx.generator with
  | ok value gen =>
    rw [stateAfter_of_ok (run_onGenerator_ok hrun), stateAfter_of_ok hrun]
  | error failure gen =>
    rw [stateAfter_of_error (run_onGenerator_error hrun), stateAfter_of_error hrun]

/-- An orderly operation of the session is an orderly operation of a hook. -/
theorem hookOrderly_onGenerator {operation : GenM Hook α} (h : Orderly level operation) :
    HookOrderly level (onGenerator operation) := by
  intro cx outer numbered hframes
  obtain ⟨hroute, hback⟩ := h cx.generator numbered
  rw [hframes, List.length_cons] at hroute
  rw [stateAfter_onGenerator]
  exact ⟨rfl, hroute, hback.trans hframes⟩

theorem readsOnly_onGenerator {operation : GenM Hook α} (h : ReadsOnly operation) :
    ReadsOnly (onGenerator operation) := by
  intro cx
  rw [stateAfter_onGenerator, h]

theorem readsOnly_self : ReadsOnly self :=
  ReadsOnly.get.bind fun _ => readsOnly_onGenerator (Generator.readsOnly_lookup _)

theorem readsOnly_target (key : Key) : ReadsOnly (target key) := by
  refine readsOnly_self.bind fun seed => ?_
  cases seed.dependencies.get? key with
  | some id => exact .pure id
  | none => exact ReadsOnly.get.bind fun _ => .throw _

theorem readsOnly_input (key : Key) : ReadsOnly (input key) :=
  (readsOnly_target key).bind fun _ =>
    (readsOnly_onGenerator (Generator.readsOnly_lookup _)).bind fun _ => .ofExcept _

theorem readsOnly_inputCode (key : Key) : ReadsOnly (inputCode key) := by
  refine (readsOnly_target key).bind fun id => (readsOnly_input key).bind fun result => ?_
  cases result with
  | code text => exact .pure text
  | seed leaked => exact .throw _

theorem hookOrderly_setResult (value : Compiled) : HookOrderly level (setResult value) := by
  intro cx outer _ hframes
  obtain ⟨failure, hrun⟩ | ⟨seed, stored, unset, hrun⟩ := setResult_cases value cx
  · rw [stateAfter_of_error hrun]
    exact ⟨rfl, .refl _, hframes⟩
  · rw [stateAfter_of_ok hrun]
    have hsame : (cx.generator.withResult cx.id seed value).frames =
        .hook cx.id cx.continuations :: outer := by
      rw [Generator.frames_withResult]
      exact hframes
    exact ⟨rfl, .single (.write value hframes stored unset) (congrArg List.length hsame), hsame⟩

theorem hookOrderly_proceed : HookOrderly level proceed := by
  intro cx outer _ hframes
  have hcounted : (cx.generator.noted (.continued cx.id)).frames =
      .hook cx.id (cx.continuations + 1) :: outer := by
    rw [Generator.frames_noted, hframes]
    rfl
  have hdepth := congrArg List.length hcounted
  have hproceed : Route level (outer.length + 1) cx.generator
      (cx.generator.noted (.continued cx.id)) := .single (.proceed hframes) hdepth
  rw [stateAfter, run_proceed]
  by_cases hfirst : cx.continuations = 0
  · rw [if_pos hfirst]
    change HookPassage level outer cx (stateAfter (onGenerator _) _)
    rw [stateAfter_onGenerator]
    dsimp only
    -- The continuation settles the result: nothing, a local, or a block.
    obtain hsame | ⟨seed, value, stored, unbound, hbound⟩ |
        ⟨seed, value, stored, unbound, opens, hblock⟩ :=
      Generator.settle_cases cx.id (cx.generator.noted (.continued cx.id))
    · rw [hsame]
      exact ⟨rfl, hproceed, hcounted⟩
    · rw [hbound]
      exact ⟨rfl, hproceed.trans (.single (.bind stored unbound) hdepth), hcounted⟩
    · rw [hblock]
      have hinnermost : cx.generator.frames = .hook cx.id 0 :: outer := by
        rw [hframes, hfirst]
      exact ⟨rfl, .single (.proceedBlock hinnermost stored unbound opens) hdepth, hcounted⟩
  · rw [if_neg hfirst]
    exact ⟨rfl, hproceed, hcounted⟩

end Compilation

/-! ### Hooks -/

/-- Does the action generate code, or attempt to? -/
def Action.generates : Action → Bool
  | .region .. => true
  | .request asked => asked.generates
  | .attempt action => action.generates
  | _ => false

/-- Does the hook generate code, or attempt to? -/
def Hook.generates (hook : Hook) : Bool :=
  hook.any Action.generates

variable {level : Bool} {traversal : Traversal Hook}

open Compilation in
/-- **Every action of a hook is orderly**, if traversals are; and level, unless it generates code.
-/
theorem Action.orderly_run (h : ∀ initial start, Orderly false (traversal initial start)) :
    ∀ action : Action, (level = true → action.generates = false) →
      HookOrderly level (action.run traversal)
  | .text s, _ => .modify_buffer fun cx => cx.buffer ++ s
  | .clear, _ => .modify_buffer fun _ => ""
  | .ownId, _ => HookOrderly.get.bind fun _ => .modify_buffer _
  | .ownKind, _ => (HookOrderly.of_readsOnly readsOnly_self).bind fun _ => .modify_buffer _
  | .ownPayload, _ => (HookOrderly.of_readsOnly readsOnly_self).bind fun _ => .modify_buffer _
  | .target key, _ =>
    (HookOrderly.of_readsOnly (readsOnly_target key)).bind fun _ => .modify_buffer _
  | .input key, _ =>
    (HookOrderly.of_readsOnly (readsOnly_input key)).bind fun _ => .modify_buffer _
  | .inputCode key, _ =>
    (HookOrderly.of_readsOnly (readsOnly_inputCode key)).bind fun _ => .modify_buffer _
  | .setResult, _ => HookOrderly.get.bind fun _ => hookOrderly_setResult _
  | .setSeed _, _ => hookOrderly_setResult _
  | .leak key, _ =>
    (HookOrderly.of_readsOnly (readsOnly_target key)).bind fun _ => hookOrderly_setResult _
  | .proceed, _ => hookOrderly_proceed
  | .region _ _, quiet => by
    obtain rfl : level = false :=
      Bool.eq_false_iff.2 fun hlevel => absurd (quiet hlevel) (by simp [generates])
    exact HookOrderly.get.bind fun _ =>
      (hookOrderly_onGenerator (Generator.orderly_generateRegion h _)).bind fun _ =>
        HookOrderly.get.bind fun _ => .modify_buffer _
  | .request asked, quiet =>
    (hookOrderly_onGenerator (Generator.orderly_respond h asked quiet)).bind fun _ =>
      HookOrderly.get.bind fun _ => hookOrderly_onGenerator (Generator.orderly_remark rfl)
  | .attempt action, quiet =>
    (Action.orderly_run h action quiet).tryCatch fun _ =>
      HookOrderly.get.bind fun _ => hookOrderly_onGenerator (Generator.orderly_remark rfl)
  | .fail _, _ => .throw _

theorem Hook.orderly_run (h : ∀ initial start, Orderly false (traversal initial start))
    (hook : Hook) (quiet : level = true → hook.generates = false) :
    HookOrderly level (hook.run traversal) := by
  induction hook with
  | nil => exact .pure ()
  | cons action rest ih =>
    have hquiet : level = true → action.generates = false ∧ Hook.generates rest = false := by
      intro hlevel
      have hnone := quiet hlevel
      unfold Hook.generates at hnone
      rw [List.any_cons, Bool.or_eq_false_iff] at hnone
      exact hnone
    exact (action.orderly_run h fun hlevel => (hquiet hlevel).1).bind fun _ =>
      ih fun hlevel => (hquiet hlevel).2

namespace Generator

/-! ### Traversals -/

/-- A walk inside a traversal: if it succeeds, it is back in the frame of the traversal; if it
fails, moves lead to the session in which the traversal has ended with that failure. -/
def Strides {α : Type} (gen : Session) (outer : List Frame) :
    EStateM.Result Error Session α → Prop
  | .ok _ gen' => Passage false gen gen'
  | .error failure gen' =>
    Route false outer.length gen (gen'.noted (.traversalEnded (some failure))) ∧
      (gen'.noted (.traversalEnded (some failure))).frames = outer

/-- Failing on the spot ends the traversal. -/
theorem strides_error {α : Type} {gen : Session} {outer : List Frame}
    (hframes : gen.frames = .traversal :: outer) (failure : Error) :
    Strides gen outer (.error failure gen : EStateM.Result Error Session α) := by
  have hended : (gen.noted (.traversalEnded (some failure))).frames = outer := by
    rw [frames_noted, hframes]
    rfl
  exact ⟨.single (.endTraversal (some failure) hframes) (congrArg List.length hended), hended⟩

/-- What comes before a walk belongs to it. -/
theorem Strides.of_passage {α : Type} {gen gen' : Session} {outer : List Frame}
    (hframes : gen.frames = .traversal :: outer) (passage : Passage false gen gen')
    {outcome : EStateM.Result Error Session α} (h : Strides gen' outer outcome) :
    Strides gen outer outcome := by
  cases outcome with
  | ok value last => exact passage.trans h
  | error failure last =>
    have hdeeper : outer.length ≤ gen.frames.length := by
      rw [hframes]
      exact Nat.le_succ _
    exact ⟨(passage.route.lower hdeeper).trans h.1, h.2⟩

/-- Running a hook never fails; its failure is part of the answer. -/
theorem run_runHook (traversal : Traversal Hook) (id : SeedId) (hook : Hook) (gen : Session) :
    ∃ failure, (runHook traversal id hook).run gen =
      .ok (failure, (stateAfter (hook.run traversal) { id, generator := gen }).continuations)
        (stateAfter (hook.run traversal) { id, generator := gen }).generator := by
  cases hrun : (hook.run traversal).run { id, generator := gen } with
  | ok value cx =>
    refine ⟨none, ?_⟩
    rw [EStateM.run, runHook, hrun, stateAfter_of_ok hrun]
  | error failure cx =>
    refine ⟨some failure, ?_⟩
    rw [EStateM.run, runHook, hrun, stateAfter_of_error hrun]

/-- Only one continuation and no failure pass. -/
theorem verdict_eq_ok {id : SeedId} {failure : Option Error} {continuations : Nat}
    (h : verdict id (failure, continuations) = .ok ()) : failure = none ∧ continuations = 1 := by
  cases failure with
  | some failure => exact absurd h (by simp [verdict])
  | none =>
    match continuations with
    | 0 => exact absurd h (by simp [verdict])
    | 1 => exact ⟨rfl, rfl⟩
    | n + 2 => exact absurd h (by simp [verdict])

/-- A hook that does not pass fails its traversal by its own failure, or for its continuations. -/
theorem verdict_eq_error {id : SeedId} {failure : Option Error} {continuations : Nat}
    {error : Error} (h : verdict id (failure, continuations) = .error error) :
    failure = some error ∨ failure = none ∧ ∀ other, error ≠ .reentrantCompile other := by
  cases failure with
  | some failure => exact .inl (congrArg some (Except.error.inj h))
  | none =>
    refine .inr ⟨rfl, fun other => ?_⟩
    match continuations with
    | 0 => exact fun heq => absurd (Except.error.inj h) (by simp [heq])
    | 1 => exact absurd h (by simp [verdict])
    | n + 2 => exact fun heq => absurd (Except.error.inj h) (by simp [heq])

/-- The result of a seed that is code. -/
theorem codeResult_cases (id : SeedId) (gen : Session) :
    (∃ failure, (∀ other, failure ≠ .reentrantCompile other) ∧
      (codeResult id).run gen = .error failure gen) ∨
      ∃ seed text, gen.store.get? id = some seed ∧ seed.slot.current = some (.code text) ∧
        (codeResult id).run gen = .ok (.code text) gen := by
  cases hstored : gen.store.get? id with
  | none => exact .inl ⟨_, by simp, run_bind_error (run_lookup_of_none hstored)⟩
  | some seed =>
    rw [codeResult, run_bind_ok (run_lookup_of_some hstored), EStateM.run_bind, run_ofExcept,
      Seed.result]
    cases hslot : seed.slot.current with
    | none => exact .inl ⟨_, by simp, rfl⟩
    | some result =>
      cases result with
      | seed leaked => exact .inl ⟨_, by simp, rfl⟩
      | code text => exact .inr ⟨seed, text, rfl, hslot, rfl⟩

/-- The hook of the seed `id` was entered in the session `gen`, and is about to end in `ending`. -/
structure HookRun (gen : Session) (id : SeedId) (seed : Seed Hook) (continuations : Nat)
    (ending : Session) : Prop where
  /-- The seed had no result and its hook was not running. -/
  enter : Move gen (gen.entered id)
  /-- The hook ran without ending, and opened no frame unless it generates code. -/
  inside : Route (!seed.hook.generates) (gen.frames.length + 1) (gen.entered id) ending
  /-- The hook is the innermost frame again. -/
  frames : ending.frames = .hook id continuations :: gen.frames

namespace HookRun

variable {gen ending : Session} {id : SeedId} {seed : Seed Hook} {continuations : Nat}

/-- Seen from outside, the run of a hook opens frames and closes none. -/
theorem route (h : HookRun gen id seed continuations ending) {floor : Nat}
    (hfloor : floor ≤ gen.frames.length) : Route false floor gen ending := by
  have hentered : floor ≤ (gen.entered id).frames.length := by
    rw [frames_entered]
    exact Nat.le_succ_of_le hfloor
  exact (Route.opening h.enter hentered).trans (h.inside.lower (Nat.le_succ_of_le hfloor))

end HookRun

/-- What a hook that was accepted leaves behind. -/
theorem frames_accepted {gen : Session} {id : SeedId} {continuations : Nat} {outer : List Frame}
    (hframes : gen.frames = .hook id continuations :: outer) :
    ((gen.left id none).noted (.accepted id)).frames = outer := by
  rw [frames_noted, frames_left, hframes]
  rfl

/-- The handle that a hook leaves decides what becomes of it, unless the hook is running already.
The latter is what the traversal reports itself; otherwise it reports the failure of the hook, or
what was wrong with a hook that did not fail. -/
theorem compile_outcome (traversal : Traversal Hook) {gen : Session} {id : SeedId}
    {seed : Seed Hook} (stored : gen.store.get? id = some seed) :
    (id ∈ gen.running ∧ (compile traversal id).run gen = .error (.reentrantCompile id) gen) ∨
    ∃ cx, id ∉ gen.running ∧
      stateAfter (seed.hook.run traversal) { id, generator := gen.entered id } = cx ∧
      ((∃ failure error,
          (failure = some error ∨ failure = none ∧ ∀ other, error ≠ .reentrantCompile other) ∧
          (compile traversal id).run gen = .error error (cx.generator.left id failure)) ∨
        ∃ found text, cx.continuations = 1 ∧ cx.generator.store.get? id = some found ∧
          found.slot.current = some (.code text) ∧
          (compile traversal id).run gen =
            .ok (.code text) ((cx.generator.left id none).noted (.accepted id))) := by
  rw [compile, EStateM.run_bind, requireIdle, run_get_bind, run_require]
  by_cases idle : id ∉ gen.running
  · rw [if_pos idle]
    dsimp only
    rw [run_bind_ok (run_lookup_of_some stored), enter, run_modify_bind]
    obtain ⟨failure, hhook⟩ := run_runHook traversal id seed.hook (gen.entered id)
    rw [run_bind_ok hhook, leave, run_modify_bind]
    -- From here on only the compilation that the hook has left matters.
    generalize stateAfter (seed.hook.run traversal) { id, generator := gen.entered id } = cx
    refine .inr ⟨cx, idle, rfl, ?_⟩
    rw [EStateM.run_bind, run_ofExcept]
    cases hverdict : verdict id (failure, cx.continuations) with
    | error error => exact .inl ⟨failure, error, verdict_eq_error hverdict, rfl⟩
    | ok _ =>
      obtain ⟨rfl, hcount⟩ := verdict_eq_ok hverdict
      dsimp only
      rw [EStateM.run_bind]
      obtain ⟨error, hreason, hcode⟩ | ⟨found, text, hfound, hslot, hcode⟩ :=
        codeResult_cases id (cx.generator.left id none)
      · rw [hcode]
        exact .inl ⟨none, error, .inr ⟨rfl, hreason⟩, rfl⟩
      · rw [hcode]
        exact .inr ⟨found, text, hcount, hfound, hslot, rfl⟩
  · rw [if_neg idle]
    exact .inl ⟨Decidable.not_not.1 idle, rfl⟩

/-- **Compiling a seed without a result.**  Its hook runs unless it is running already.  In the end
it is accepted, if it invoked the continuation once and left code as the result. -/
theorem compile_cases (h : ∀ initial start, Orderly false (traversal initial start)) {gen : Session}
    {outer : List Frame} {id : SeedId} {seed : Seed Hook} (numbered : gen.store.Numbered)
    (complete : gen.finalized = true) (hframes : gen.frames = .traversal :: outer)
    (stored : gen.store.get? id = some seed) (unset : seed.slot = .unset) :
    (∃ error, (compile traversal id).run gen = .error error gen) ∨
    ∃ continuations ending, HookRun gen id seed continuations ending ∧
      (stateAfter (seed.hook.run traversal) { id, generator := gen.entered id }).generator =
        ending ∧
      ((∃ failure error, (compile traversal id).run gen = .error error (ending.left id failure)) ∨
        ∃ found text, continuations = 1 ∧ ending.store.get? id = some found ∧
          found.slot.current = some (.code text) ∧
          (compile traversal id).run gen =
            .ok (.code text) ((ending.left id none).noted (.accepted id))) := by
  obtain ⟨-, hfail⟩ | ⟨cx, idle, hcx, hend⟩ := compile_outcome traversal stored
  · exact .inl ⟨_, hfail⟩
  have hinside := @Hook.orderly_run (!seed.hook.generates) traversal h seed.hook (by simp)
    { id, generator := gen.entered id } gen.frames numbered (frames_entered gen id)
  rw [hcx] at hinside
  obtain ⟨hid, hroute, hinner⟩ := hinside
  rw [show cx.id = id from hid] at hinner
  refine .inr ⟨cx.continuations, cx.generator,
    ⟨.enter complete hframes stored unset idle, hroute, hinner⟩, congrArg _ hcx, ?_⟩
  obtain ⟨failure, error, -, hrun⟩ | hdone := hend
  · exact .inl ⟨failure, error, hrun⟩
  · exact .inr hdone

/-- A hook is accepted, or the traversal that entered it fails. -/
theorem strides_compile (h : ∀ initial start, Orderly false (traversal initial start))
    {gen : Session} {outer : List Frame} {id : SeedId} {seed : Seed Hook}
    (numbered : gen.store.Numbered) (complete : gen.finalized = true)
    (hframes : gen.frames = .traversal :: outer) (stored : gen.store.get? id = some seed)
    (unset : seed.slot = .unset) : Strides gen outer ((compile traversal id).run gen) := by
  obtain ⟨error, hrun⟩ | ⟨continuations, ending, hhook, -, hend⟩ :=
    compile_cases h numbered complete hframes stored unset
  · rw [hrun]
    exact strides_error hframes error
  have hinner := hhook.frames
  obtain ⟨failure, error, hrun⟩ | ⟨found, text, rfl, hfound, hslot, hrun⟩ := hend
  · rw [hrun]
    rw [hframes] at hinner
    have hended :
        ((ending.left id failure).noted (.traversalEnded (some error))).frames = outer := by
      rw [frames_noted, frames_left, hinner]
      rfl
    have hdeeper : outer.length ≤ gen.frames.length := by
      rw [hframes]
      exact Nat.le_succ _
    exact ⟨(hhook.route hdeeper).trans
      (.single (.reject failure error hinner) (congrArg List.length hended)), hended⟩
  · rw [hrun]
    have hback := frames_accepted hinner
    rw [hframes] at hinner
    exact ⟨(hhook.route (Nat.le_refl _)).trans
      (.single (.accept hinner hfound hslot) (congrArg List.length hback)), hback⟩

/-- A way to follow a walk, told by what may be said of its outcomes: `Rest` holds of the sessions
in which the walk takes up its next seed. -/
structure Gait (Rest : Session → Prop)
    (Ends : ∀ α : Type, Session → EStateM.Result Error Session α → Prop) : Prop where
  /-- Succeeding on the spot is in order. -/
  refl : ∀ {α : Type} (gen : Session) (value : α), Ends α gen (.ok value gen)
  /-- Failing on the spot is in order. -/
  giveUp : ∀ {α : Type} {gen : Session} (failure : Error), Rest gen →
    Ends α gen (.error failure gen)
  /-- What comes before a walk belongs to it. -/
  trans : ∀ {α β : Type} {gen gen' : Session} {value : α}
    {outcome : EStateM.Result Error Session β},
    Rest gen → Ends α gen (.ok value gen') → Ends β gen' outcome → Ends β gen outcome
  /-- It does not matter what a failure is a failure of. -/
  failure : ∀ {α β : Type} {gen gen' : Session} {failure : Error},
    Ends α gen (.error failure gen') → Ends β gen (.error failure gen')
  /-- After a success the walk can take up the next seed. -/
  rest : ∀ {α : Type} {gen gen' : Session} {value : α},
    Rest gen → Ends α gen (.ok value gen') → Rest gen'
  /-- What was done is a sequence of moves. -/
  moves : ∀ {α : Type} {gen gen' : Session} {value : α}, Ends α gen (.ok value gen') →
    Moves gen gen'

namespace Gait

variable {Rest : Session → Prop}
  {Ends : ∀ α : Type, Session → EStateM.Result Error Session α → Prop}
  {compile : SeedId → GenM Hook Compiled}

/-- A walk over seeds, if each seed without a result is compiled as it should be. -/
theorem walk (gait : Gait Rest Ends)
    (h : ∀ (gen : Session) (id : SeedId) (seed : Seed Hook), gen.store.Numbered →
      gen.finalized = true → Rest gen → gen.store.get? id = some seed → seed.slot = .unset →
      Ends Compiled gen ((compile id).run gen))
    (ids : List SeedId) (latest : Option Compiled) (gen : Session) (numbered : gen.store.Numbered)
    (complete : gen.finalized = true) (hrest : Rest gen) :
    Ends (Option Compiled) gen ((Generator.walk compile ids latest).run gen) := by
  induction ids generalizing latest gen with
  | nil => exact gait.refl gen latest
  | cons id rest ih =>
    rw [Generator.walk, EStateM.run_bind]
    cases hstored : gen.store.get? id with
    | none =>
      rw [run_lookup_of_none hstored]
      exact gait.giveUp _ hrest
    | some seed =>
      rw [run_lookup_of_some hstored]
      dsimp only
      cases hslot : seed.slot.current with
      | some result => exact ih (some result) gen numbered complete hrest
      | none =>
        -- The seed is compiled, and looked up again, since its hook may have changed it.
        have unset : seed.slot = .unset := by
          cases hs : seed.slot <;> simp_all [Slot.current]
        have hcompile := h gen id seed numbered complete hrest hstored unset
        dsimp only
        rw [EStateM.run_bind]
        cases hrun : (compile id).run gen with
        | error failure gen' =>
          rw [hrun] at hcompile
          exact gait.failure hcompile
        | ok result gen' =>
          rw [hrun] at hcompile
          have hrest' := gait.rest hrest hcompile
          refine gait.trans hrest hcompile ?_
          dsimp only
          rw [EStateM.run_bind]
          cases hstored' : gen'.store.get? id with
          | none =>
            rw [run_lookup_of_none hstored']
            exact gait.giveUp _ hrest'
          | some seed' =>
            rw [run_lookup_of_some hstored']
            dsimp only
            by_cases hcloses : seed'.boundary = .closes
            · rw [if_pos hcloses]
              exact gait.refl gen' (some result)
            · rw [if_neg hcloses]
              have hmoves := gait.moves hcompile
              exact ih (some result) gen' (hmoves.numbered numbered) (hmoves.finalized complete)
                hrest'

/-- A traversal begins, walks and ends, however the walk ends. -/
theorem traverseWith_cases (gait : Gait Rest Ends)
    (h : ∀ (gen : Session) (id : SeedId) (seed : Seed Hook), gen.store.Numbered →
      gen.finalized = true → Rest gen → gen.store.get? id = some seed → seed.slot = .unset →
      Ends Compiled gen ((compile id).run gen))
    (initial : Option Compiled) (start : SeedId) {gen : Session} (numbered : gen.store.Numbered)
    (hrest : Rest (gen.noted .traversalBegan)) :
    (∃ result last, Ends (Option Compiled) (gen.noted .traversalBegan) (.ok result last) ∧
      stateAfter (traverseWith compile initial start) gen = last.noted (.traversalEnded none)) ∨
    ∃ failure last, Ends (Option Compiled) (gen.noted .traversalBegan) (.error failure last) ∧
      stateAfter (traverseWith compile initial start) gen =
        last.noted (.traversalEnded (some failure)) := by
  have hwalk : Ends (Option Compiled) (gen.noted .traversalBegan)
      ((walkFrom compile initial start).run (gen.noted .traversalBegan)) := by
    rw [walkFrom, EStateM.run_bind, run_requireFinalized]
    by_cases complete : (gen.noted .traversalBegan).finalized = true
    · rw [if_pos complete]
      exact gait.walk h _ _ _ numbered complete hrest
    · rw [if_neg complete]
      exact gait.giveUp _ hrest
  cases hrun : (walkFrom compile initial start).run (gen.noted .traversalBegan) with
  | ok result last =>
    rw [hrun] at hwalk
    exact .inl ⟨result, last, hwalk, stateAfter_of_ok (run_traverseWith_ok hrun)⟩
  | error failure last =>
    rw [hrun] at hwalk
    exact .inr ⟨failure, last, hwalk, stateAfter_of_error (run_traverseWith_error hrun)⟩

end Gait

/-- The strides of a traversal inside the frames `outer`. -/
theorem gait_strides (outer : List Frame) :
    Gait (fun gen => gen.frames = .traversal :: outer) fun _ gen => Strides gen outer where
  refl gen _ := Passage.refl gen
  giveUp failure hframes := strides_error hframes failure
  trans hframes passage h := Strides.of_passage hframes passage h
  failure h := h
  rest hframes passage := (Passage.frames passage).trans hframes
  moves passage := Passage.moves passage

/-- A traversal is orderly if its seeds are compiled as they should be. -/
theorem orderly_traverseWith {compile : SeedId → GenM Hook Compiled}
    (h : ∀ (outer : List Frame) (gen : Session) (id : SeedId) (seed : Seed Hook),
      gen.store.Numbered → gen.finalized = true → gen.frames = .traversal :: outer →
      gen.store.get? id = some seed → seed.slot = .unset →
      Strides gen outer ((compile id).run gen))
    (initial : Option Compiled) (start : SeedId) :
    Orderly false (traverseWith compile initial start) := by
  intro gen numbered
  have hframes : (gen.noted .traversalBegan).frames = .traversal :: gen.frames :=
    frames_noted _ _
  have hdeeper : gen.frames.length ≤ (gen.noted .traversalBegan).frames.length := by
    rw [hframes]
    exact Nat.le_succ _
  have hbegan : Route false gen.frames.length gen (gen.noted .traversalBegan) :=
    .opening .beginTraversal hdeeper
  obtain ⟨result, last, hwalk, hafter⟩ | ⟨failure, last, hwalk, hafter⟩ :=
    (gait_strides gen.frames).traverseWith_cases (h gen.frames) initial start numbered hframes
  · have hpassage : Passage false (gen.noted .traversalBegan) last := hwalk
    have hend := hpassage.frames.trans hframes
    have hback : (last.noted (.traversalEnded none)).frames = gen.frames := by
      rw [frames_noted, hend]
      rfl
    rw [hafter]
    exact ⟨(hbegan.trans (hpassage.route.lower hdeeper)).trans
      (.single (.endTraversal none hend) (congrArg List.length hback)), hback⟩
  · rw [hafter]
    exact ⟨hbegan.trans hwalk.1, hwalk.2⟩

/-- **Every traversal is orderly**, however deep hooks may run inside one another. -/
theorem orderly_traverse (depth : Nat) (initial : Option Compiled) (start : SeedId) :
    Orderly false (traverse depth initial start) := by
  induction depth generalizing initial start with
  | zero =>
    exact orderly_traverseWith (fun _ _ _ _ _ _ hframes _ _ => strides_error hframes _) initial
      start
  | succ depth ih =>
    exact orderly_traverseWith (fun _ _ _ _ numbered complete hframes stored unset =>
      strides_compile ih numbered complete hframes stored unset) initial start

end Generator

/-! ### Sessions -/

namespace Session

theorem passage_step (session : Session) (request : Request) (numbered : session.store.Numbered) :
    Passage false session (session.step request).2 := by
  have horderly : Orderly false
      (Generator.respond (Generator.traverse session.store.seeds.length) request) :=
    Generator.orderly_respond (Generator.orderly_traverse session.store.seeds.length) request
      (by simp)
  rw [snd_step]
  exact horderly session numbered

theorem passage_run (session : Session) (requests : List Request)
    (numbered : session.store.Numbered) : Passage false session (session.run requests) := by
  induction requests generalizing session with
  | nil => exact .refl session
  | cons request rest ih =>
    have hstep := passage_step session request numbered
    exact hstep.trans (ih _ (hstep.moves.numbered numbered))

/-- **What requests do to a new session is a sequence of moves.** -/
theorem moves_run {settings : Settings} {candidates : List (Candidate (Blueprint Hook))}
    {origin : Session} (created : createWith settings candidates = .ok origin)
    (requests : List Request) : Moves origin (origin.run requests) := by
  obtain ⟨platform, blueprints, -, -, -, rfl⟩ := createWith_eq_ok created
  exact (passage_run _ requests (Store.Numbered.ofBlueprints blueprints)).moves

theorem reachable_run_blank (requests : List Request) : Reachable (blank.run requests) :=
  ⟨_, _, blank, createWith_blank, moves_run createWith_blank requests⟩

/-- Between two requests nothing is open. -/
theorem frames_run {settings : Settings} {candidates : List (Candidate (Blueprint Hook))}
    {origin : Session} (created : createWith settings candidates = .ok origin)
    (requests : List Request) : (origin.run requests).frames = [] := by
  obtain ⟨platform, blueprints, -, -, -, rfl⟩ := createWith_eq_ok created
  rw [(passage_run _ requests (Store.Numbered.ofBlueprints blueprints)).frames]
  exact Generator.frames_ofStore settings platform _

/-- Between two requests no region is being generated. -/
theorem regionDepth_run {settings : Settings} {candidates : List (Candidate (Blueprint Hook))}
    {origin : Session} (created : createWith settings candidates = .ok origin)
    (requests : List Request) : (origin.run requests).regionDepth = 0 := by
  have hdepth := (moves_run created requests).regionDepth (by
    obtain ⟨platform, blueprints, -, -, -, rfl⟩ := createWith_eq_ok created
    rw [Generator.frames_ofStore]
    rfl)
  rw [hdepth, frames_run created]
  rfl

end Session

end SeedGraph
