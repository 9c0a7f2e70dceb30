import SeedGraph.Proofs.Course

/-!
# Runs as courses

Whatever a session is asked, there is a course of its regions: every operation takes the session
along one, whether it succeeds or fails (`KeepsCourse`).  An operation that opens no frame does so
by moves alone, so only the operations that generate code have to be looked at: hooks that start
traversals, traversals that run hooks, and the generation of a region, which is where a call is
added.

* `Action.keepsCourse_run`, `Hook.keepsCourse_run`: hooks.
* `Generator.keepsCourse_traverse`: traversals, by induction on how deep hooks may run inside one
  another.
* `Session.leads_run`: requests.
-/

namespace SeedGraph

/-- There is a course from the session `gen` to the session `gen'`. -/
def Leads (gen gen' : Session) : Prop :=
  ∃ calls, Course gen calls gen'

namespace Leads

variable {gen gen' gen'' : Session}

theorem refl (gen : Session) : Leads gen gen := ⟨[], .refl gen⟩

theorem trans (h : Leads gen gen') (h' : Leads gen' gen'') : Leads gen gen'' := by
  obtain ⟨calls, course⟩ := h
  obtain ⟨calls', course'⟩ := h'
  exact ⟨calls ++ calls', course.trans course'⟩

theorem aside (h : Aside gen gen') : Leads gen gen' := ⟨[], .aside (.refl gen) h⟩

/-- A move that adds an event to the journal which closes no region. -/
theorem noted {event : Event} (move : Move gen (gen.noted event))
    (plain : event.closedRegion? = none) : Leads gen (gen.noted event) :=
  aside ⟨move, rfl, gen.closedRegions_noted event plain⟩

/-- A generation of a region, if there is a course inside of it. -/
theorem region (call : RegionCall) (inside : Leads call.before.openRegion call.inside) :
    Leads call.before call.after := by
  obtain ⟨nested, course⟩ := inside
  exact ⟨_, .region call (.refl call.before) course⟩

end Leads

/-- On a level route regions are left alone. -/
theorem Route.leads {floor : Nat} {gen gen' : Session} (route : Route true floor gen gen')
    (h : gen.frames.length = floor) : Leads gen gen' := by
  induction route with
  | refl => exact .refl gen
  | @tail moment next earlier step ih =>
    have hdepth : moment.frames.length = floor := length_eq earlier h
    exact ih.trans (.aside (step.1.aside_of_length ((step.2.2 rfl).trans hdepth.symm)))

/-! ### Operations of a session -/

/-- An orderly operation that takes a session along a course, whether it succeeds or fails. -/
structure KeepsCourse {α : Type} (operation : GenM Hook α) : Prop where
  /-- The operation is orderly. -/
  orderly : Orderly false operation
  /-- There is a course to where it ends. -/
  leads : ∀ gen : Session, gen.store.Numbered → Leads gen (stateAfter operation gen)

namespace KeepsCourse

variable {α β : Type}

/-- An operation that opens no frame. -/
theorem of_level {operation : GenM Hook α} (orderly : Orderly false operation)
    (level : Orderly true operation) : KeepsCourse operation where
  orderly := orderly
  leads gen numbered := (level gen numbered).route.leads rfl

theorem of_readsOnly {operation : GenM Hook α} (h : ReadsOnly operation) : KeepsCourse operation :=
  of_level (.of_readsOnly h) (.of_readsOnly h)

theorem bind {x : GenM Hook α} {f : α → GenM Hook β} (hx : KeepsCourse x)
    (hf : ∀ value, KeepsCourse (f value)) : KeepsCourse (x >>= f) where
  orderly := hx.orderly.bind fun value => (hf value).orderly
  leads gen numbered := by
    have hfirst := hx.leads gen numbered
    have hpassage := hx.orderly gen numbered
    rw [stateAfter_bind]
    cases hrun : x.run gen with
    | error failure gen' =>
      rw [stateAfter_of_error hrun] at hfirst
      exact hfirst
    | ok value gen' =>
      rw [stateAfter_of_ok hrun] at hfirst hpassage
      exact hfirst.trans ((hf value).leads gen' (hpassage.moves.numbered numbered))

end KeepsCourse

namespace Generator

variable {traversal : Traversal Hook}

theorem keepsCourse_remember (result : Option Compiled) : KeepsCourse (remember result) :=
  .of_level (orderly_remember result) (orderly_remember result)

theorem keepsCourse_remark {event : Event} (plain : event.isRemark = true) :
    KeepsCourse (note event : GenM Hook Unit) :=
  .of_level (orderly_remark plain) (orderly_remark plain)

theorem keepsCourse_generate (h : ∀ initial start, KeepsCourse (traversal initial start)) :
    KeepsCourse (generate traversal) where
  orderly := orderly_generate fun initial start => (h initial start).orderly
  leads gen numbered := by
    rw [generate, stateAfter, run_get_bind, run_require_bind]
    by_cases balanced : gen.scopes = []
    · rw [if_pos balanced]
      exact (h none ⟨gen.lower⟩).leads gen numbered
    · rw [if_neg balanced]
      exact .refl gen

/-- **Generating a region adds one call**, after those that were made inside of it. -/
theorem keepsCourse_generateRegion {depth : Nat}
    (h : ∀ initial start, KeepsCourse (traverse depth initial start)) (start : SeedId) :
    KeepsCourse (generateRegion (traverse depth) start) where
  orderly := orderly_generateRegion (fun initial start => (h initial start).orderly) start
  leads gen numbered :=
    .region ⟨depth, start, gen⟩ ((h none start).leads gen.openRegion numbered)

theorem keepsCourse_respond {depth : Nat}
    (h : ∀ initial start, KeepsCourse (traverse depth initial start)) (request : Request) :
    KeepsCourse (respond (traverse depth) request) := by
  have horderly := fun initial start => (h initial start).orderly
  cases request with
  | generate => exact (keepsCourse_generate h).bind fun _ => keepsCourse_remember _
  | generateFrom initial start => exact (h initial start).bind fun _ => keepsCourse_remember _
  | generateRegion start =>
    exact (keepsCourse_generateRegion h start).bind fun _ =>
      .of_readsOnly (ReadsOnly.get.bind fun _ => .pure _)
  | _ =>
    exact .of_level (orderly_respond horderly _ (by simp)) (orderly_respond horderly _ fun _ => rfl)

end Generator

/-! ### Hooks -/

/-- An orderly operation of a hook that takes the session along a course. -/
structure HookKeepsCourse {α : Type} (operation : HookM α) : Prop where
  /-- The operation is orderly. -/
  orderly : HookOrderly false operation
  /-- There is a course to where it ends. -/
  leads : ∀ (cx : Compilation) (outer : List Frame), cx.generator.store.Numbered →
    cx.generator.frames = .hook cx.id cx.continuations :: outer →
    Leads cx.generator (stateAfter operation cx).generator

namespace HookKeepsCourse

variable {α β : Type}

/-- An operation that opens no frame. -/
theorem of_level {operation : HookM α} (orderly : HookOrderly false operation)
    (level : HookOrderly true operation) : HookKeepsCourse operation where
  orderly := orderly
  leads cx outer numbered hframes :=
    (level cx outer numbered hframes).route.leads (congrArg List.length hframes)

theorem get : HookKeepsCourse (MonadState.get : HookM Compilation) :=
  of_level .get .get

theorem bind {x : HookM α} {f : α → HookM β} (hx : HookKeepsCourse x)
    (hf : ∀ value, HookKeepsCourse (f value)) : HookKeepsCourse (x >>= f) where
  orderly := hx.orderly.bind fun value => (hf value).orderly
  leads cx outer numbered hframes := by
    have hfirst := hx.leads cx outer numbered hframes
    have hpassage := hx.orderly cx outer numbered hframes
    rw [stateAfter_bind]
    cases hrun : x.run cx with
    | error failure cx' =>
      rw [stateAfter_of_error hrun] at hfirst
      exact hfirst
    | ok value cx' =>
      rw [stateAfter_of_ok hrun] at hfirst hpassage
      exact hfirst.trans
        ((hf value).leads cx' outer (hpassage.moves.numbered numbered) hpassage.frames)

/-- After a failure that is survived the course goes on with the handler. -/
theorem tryCatch {x : HookM α} {handler : Error → HookM α} (hx : HookKeepsCourse x)
    (hhandler : ∀ failure, HookKeepsCourse (handler failure)) :
    HookKeepsCourse (MonadExcept.tryCatch x handler) where
  orderly := hx.orderly.tryCatch fun failure => (hhandler failure).orderly
  leads cx outer numbered hframes := by
    have hfirst := hx.leads cx outer numbered hframes
    have hpassage := hx.orderly cx outer numbered hframes
    cases hrun : x.run cx with
    | ok value cx' =>
      rw [stateAfter_of_ok hrun] at hfirst
      rw [stateAfter_of_ok (run_tryCatch_ok hrun)]
      exact hfirst
    | error failure cx' =>
      rw [stateAfter_of_error hrun] at hfirst hpassage
      rw [stateAfter_tryCatch_error hrun]
      exact hfirst.trans
        ((hhandler failure).leads cx' outer (hpassage.moves.numbered numbered) hpassage.frames)

theorem modify_buffer (f : Compilation → String) :
    HookKeepsCourse (modify fun cx => { cx with buffer := f cx }) :=
  of_level (.modify_buffer f) (.modify_buffer f)

/-- What the session does for a hook. -/
theorem onGenerator {operation : GenM Hook α} (h : KeepsCourse operation) :
    HookKeepsCourse (Compilation.onGenerator operation) where
  orderly := Compilation.hookOrderly_onGenerator h.orderly
  leads cx outer numbered _ := by
    rw [Compilation.stateAfter_onGenerator]
    exact h.leads cx.generator numbered

end HookKeepsCourse

/-- **Every action of a hook keeps a course**, if traversals do. -/
theorem Action.keepsCourse_run {depth : Nat}
    (h : ∀ initial start, KeepsCourse (Generator.traverse depth initial start)) :
    ∀ action : Action, HookKeepsCourse (action.run (Generator.traverse depth))
  | .region _ _ =>
    HookKeepsCourse.get.bind fun _ =>
      (HookKeepsCourse.onGenerator (Generator.keepsCourse_generateRegion h _)).bind fun _ =>
        HookKeepsCourse.get.bind fun _ => .modify_buffer _
  | .request asked =>
    (HookKeepsCourse.onGenerator (Generator.keepsCourse_respond h asked)).bind fun _ =>
      HookKeepsCourse.get.bind fun _ => .onGenerator (Generator.keepsCourse_remark rfl)
  | .attempt action =>
    (Action.keepsCourse_run h action).tryCatch fun _ =>
      HookKeepsCourse.get.bind fun _ => .onGenerator (Generator.keepsCourse_remark rfl)
  -- The other actions open no frame.
  | .text _ | .clear | .ownId | .ownKind | .ownPayload | .target _ | .input _ | .inputCode _
  | .setResult | .setSeed _ | .leak _ | .proceed | .fail _ =>
    .of_level
      (Action.orderly_run (fun initial start => (h initial start).orderly) _ (by simp))
      (Action.orderly_run (fun initial start => (h initial start).orderly) _ fun _ => rfl)

theorem Hook.keepsCourse_run {depth : Nat}
    (h : ∀ initial start, KeepsCourse (Generator.traverse depth initial start)) (hook : Hook) :
    HookKeepsCourse (hook.run (Generator.traverse depth)) := by
  induction hook with
  | nil => exact .of_level (.pure ()) (.pure ())
  | cons action rest ih => exact (action.keepsCourse_run h).bind fun _ => ih

namespace Generator

/-! ### Traversals -/

/-- The course of a walk inside a traversal; if the walk fails, it includes the end of the
traversal. -/
def WalkLeads {α : Type} (gen : Session) : EStateM.Result Error Session α → Prop
  | .ok _ gen' => Leads gen gen'
  | .error failure gen' => Leads gen (gen'.noted (.traversalEnded (some failure)))

/-- Failing on the spot ends the traversal. -/
theorem walkLeads_error {α : Type} {gen : Session} {outer : List Frame}
    (hframes : gen.frames = .traversal :: outer) (failure : Error) :
    WalkLeads gen (.error failure gen : EStateM.Result Error Session α) :=
  Leads.noted (.endTraversal (some failure) hframes) rfl

/-- What comes before a walk belongs to it. -/
theorem WalkLeads.of_leads {α : Type} {gen gen' : Session} (leads : Leads gen gen')
    {outcome : EStateM.Result Error Session α} (h : WalkLeads gen' outcome) :
    WalkLeads gen outcome := by
  cases outcome with
  | ok value last => exact leads.trans h
  | error failure last => exact leads.trans h

/-- The course of a traversal inside the frames `outer`, which takes strides as well. -/
theorem gait_course (outer : List Frame) :
    Gait (fun gen => gen.frames = .traversal :: outer)
      fun _ gen outcome => WalkLeads gen outcome ∧ Strides gen outer outcome where
  refl gen value := ⟨Leads.refl gen, (gait_strides outer).refl gen value⟩
  giveUp failure hframes :=
    ⟨walkLeads_error hframes failure, (gait_strides outer).giveUp failure hframes⟩
  trans hframes h h' := ⟨.of_leads h.1 h'.1, (gait_strides outer).trans hframes h.2 h'.2⟩
  failure h := h
  rest hframes h := (gait_strides outer).rest hframes h.2
  moves h := (gait_strides outer).moves h.2

/-- Compiling a seed: its hook is entered, runs, and is accepted, or its traversal fails. -/
theorem walkLeads_compile {depth : Nat}
    (h : ∀ initial start, KeepsCourse (traverse depth initial start)) {gen : Session}
    {outer : List Frame} {id : SeedId} {seed : Seed Hook} (numbered : gen.store.Numbered)
    (complete : gen.finalized = true) (hframes : gen.frames = .traversal :: outer)
    (stored : gen.store.get? id = some seed) (unset : seed.slot = .unset) :
    WalkLeads gen ((compile (traverse depth) id).run gen) := by
  obtain ⟨error, hrun⟩ | ⟨continuations, ending, hhook, hinside, hend⟩ :=
    compile_cases (fun initial start => (h initial start).orderly) numbered complete hframes stored
      unset
  · rw [hrun]
    exact walkLeads_error hframes error
  have hcourse := (seed.hook.keepsCourse_run h).leads { id, generator := gen.entered id } gen.frames
    numbered (frames_entered gen id)
  rw [hinside] at hcourse
  have hran : Leads gen ending := (Leads.aside ⟨hhook.enter, rfl,
    gen.closedRegions_noted (.entered id) rfl⟩).trans hcourse
  have hinner := hhook.frames
  rw [hframes] at hinner
  obtain ⟨failure, error, hrun⟩ | ⟨found, text, rfl, hfound, hslot, hrun⟩ := hend
  · rw [hrun]
    exact hran.trans (.aside ⟨.reject failure error hinner, rfl,
      (closedRegions_noted _ _ rfl).trans (ending.closedRegions_noted (.left id failure) rfl)⟩)
  · rw [hrun]
    exact hran.trans (.aside ⟨.accept hinner hfound hslot, rfl,
      (closedRegions_noted _ _ rfl).trans (ending.closedRegions_noted (.left id none) rfl)⟩)

/-- A traversal keeps a course if its seeds are compiled as they should be. -/
theorem keepsCourse_traverseWith {compile : SeedId → GenM Hook Compiled}
    (strides : ∀ (outer : List Frame) (gen : Session) (id : SeedId) (seed : Seed Hook),
      gen.store.Numbered → gen.finalized = true → gen.frames = .traversal :: outer →
      gen.store.get? id = some seed → seed.slot = .unset →
      Strides gen outer ((compile id).run gen))
    (h : ∀ (outer : List Frame) (gen : Session) (id : SeedId) (seed : Seed Hook),
      gen.store.Numbered → gen.finalized = true → gen.frames = .traversal :: outer →
      gen.store.get? id = some seed → seed.slot = .unset → WalkLeads gen ((compile id).run gen))
    (initial : Option Compiled) (start : SeedId) :
    KeepsCourse (traverseWith compile initial start) where
  orderly := orderly_traverseWith strides initial start
  leads gen numbered := by
    have hbegan : Leads gen (gen.noted .traversalBegan) := .noted .beginTraversal rfl
    have hframes : (gen.noted .traversalBegan).frames = .traversal :: gen.frames := frames_noted _ _
    obtain ⟨result, last, ⟨hwalk, hpassage⟩, hafter⟩ | ⟨failure, last, ⟨hwalk, -⟩, hafter⟩ :=
      (gait_course gen.frames).traverseWith_cases
        (fun gen id seed numbered complete hframes stored unset =>
          ⟨h _ gen id seed numbered complete hframes stored unset,
            strides _ gen id seed numbered complete hframes stored unset⟩)
        initial start numbered hframes
    · rw [hafter]
      have hend := (Passage.frames hpassage).trans hframes
      exact (hbegan.trans hwalk).trans (.noted (.endTraversal none hend) rfl)
    · rw [hafter]
      exact hbegan.trans hwalk

/-- **Every traversal keeps a course**, however deep hooks may run inside one another. -/
theorem keepsCourse_traverse (depth : Nat) (initial : Option Compiled) (start : SeedId) :
    KeepsCourse (traverse depth initial start) := by
  induction depth generalizing initial start with
  | zero =>
    exact keepsCourse_traverseWith (fun _ _ _ _ _ _ hframes _ _ => strides_error hframes _)
      (fun _ _ _ _ _ _ hframes _ _ => walkLeads_error hframes _) initial start
  | succ depth ih =>
    exact keepsCourse_traverseWith
      (fun _ _ _ _ numbered complete hframes stored unset =>
        strides_compile (orderly_traverse depth) numbered complete hframes stored unset)
      (fun _ _ _ _ numbered complete hframes stored unset =>
        walkLeads_compile ih numbered complete hframes stored unset) initial start

end Generator

/-! ### Sessions -/

namespace Session

theorem leads_step (session : Session) (request : Request) (numbered : session.store.Numbered) :
    Leads session (session.step request).2 := by
  rw [snd_step]
  exact (Generator.keepsCourse_respond (Generator.keepsCourse_traverse _) request).leads session
    numbered

/-- **What requests do to a session is a course.** -/
theorem leads_run (session : Session) (requests : List Request)
    (numbered : session.store.Numbered) : Leads session (session.run requests) := by
  induction requests generalizing session with
  | nil => exact .refl session
  | cons request rest ih =>
    have hmoves := (passage_step session request numbered).moves
    exact (leads_step session request numbered).trans (ih _ (hmoves.numbered numbered))

end Session

end SeedGraph
