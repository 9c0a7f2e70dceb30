import SeedGraph.Proofs.Program.Shows

/-!
# The hooks of leaves and blocks

What the hooks of a structured program do, step by step and without alternatives: a leaf reads the
mentions of its dependencies, the end of a hook settles its result, and compiling a seed adds
nothing to what its hook does.  The main result is `Generator.answers_compile_leaf`: compiling a
leaf agrees with printing it.
-/

namespace SeedGraph

variable {origin : Session} {page : Page} {traversal : Traversal Hook}

/-! ### Reading -/

namespace Compilation

theorem run_target {cx : Compilation} {seed : Seed Hook}
    (stored : cx.generator.store.get? cx.id = some seed) (key : Key) :
    (target key).run cx =
      match seed.dependencies.get? key with
      | some id => .ok id cx
      | none => .error (.missingDependency cx.id key) cx := by
  rw [target, run_bind_ok (run_self_of_some stored)]
  cases seed.dependencies.get? key <;> rfl

/-- **Reading an input** yields what the session shows of the seed that the edge leads to. -/
theorem input_cases {cx : Compilation} {seed : Seed Hook}
    (stored : cx.generator.store.get? cx.id = some seed) (key : Key) :
    (∃ failure, (input key).run cx = .error failure cx) ∨
      ∃ target mention, seed.dependencies.get? key = some target ∧
        cx.generator.mention? target = some mention ∧ (input key).run cx = .ok mention cx := by
  have htarget := run_target stored key
  cases hkey : seed.dependencies.get? key with
  | none =>
    rw [hkey] at htarget
    exact .inl ⟨_, run_bind_error htarget⟩
  | some target =>
    rw [hkey] at htarget
    rw [input, run_bind_ok htarget]
    cases hfound : cx.generator.store.get? target with
    | none =>
      exact .inl ⟨_, run_bind_error (run_onGenerator_error (Generator.run_lookup_of_none hfound))⟩
    | some found =>
      rw [run_bind_ok (run_onGenerator_ok (Generator.run_lookup_of_some hfound)), run_ofExcept,
        Seed.result]
      have hmention : cx.generator.mention? target = found.slot.current := by
        rw [Generator.mention?, Generator.slot?_of_stored hfound]
        rfl
      cases hslot : found.slot.current with
      | none => exact .inl ⟨_, rfl⟩
      | some mention => exact .inr ⟨target, mention, rfl, hmention.trans hslot, rfl⟩

/-- Reading the code of a dependency agrees with mentioning it. -/
theorem answers_inputCode {cx : Compilation} {seed : Seed Hook}
    (shows : Shows origin cx.generator page) (planned : origin.plan cx.id = some seed) (key : Key) :
    Answers ((inputCode key).run cx) ((seed.dependencies.get? key).bind page.text)
      fun mention answer cx' => answer = mention ∧ cx' = cx := by
  obtain ⟨slot, hself, -⟩ := shows.stored planned
  have htarget := run_target hself key
  cases hkey : seed.dependencies.get? key with
  | none =>
    dsimp only at htarget
    rw [hkey] at htarget
    exact ⟨_, _, run_bind_error htarget⟩
  | some id =>
    dsimp only at htarget
    rw [hkey] at htarget
    have hmention := shows.mentions id
    rw [inputCode, run_bind_ok htarget, input]
    -- An edge that leads nowhere and a seed without a result are different failures, but the
    -- printer has nothing to say in both cases.
    cases hstored : cx.generator.store.get? id with
    | none =>
      rw [Generator.mention?, Generator.slot?, hstored] at hmention
      have hnone : page.text id = none := by simpa using hmention.symm
      have hlookup := run_onGenerator_error (Generator.run_lookup_of_none hstored)
      rw [Option.bind_some, hnone]
      refine ⟨.seedNotFound id, cx, ?_⟩
      rw [run_bind_error ((run_bind_ok htarget).trans (run_bind_error hlookup))]
    | some found =>
      rw [Generator.mention?, Generator.slot?_of_stored hstored, Option.bind_some] at hmention
      have hlookup := run_onGenerator_ok (Generator.run_lookup_of_some hstored)
      rw [Option.bind_some]
      cases htext : page.text id with
      | none =>
        rw [htext] at hmention
        have hresult : (MonadExcept.ofExcept found.result : HookM Compiled).run cx =
            .error (.missingResult found.reportedId) cx := by
          rw [Seed.result, hmention]
          rfl
        refine ⟨.missingResult found.reportedId, cx, ?_⟩
        rw [run_bind_error ((run_bind_ok htarget).trans ((run_bind_ok hlookup).trans hresult))]
      | some mention =>
        rw [htext] at hmention
        have hresult : (MonadExcept.ofExcept found.result : HookM Compiled).run cx =
            .ok (.code mention) cx := by
          rw [Seed.result, hmention]
          rfl
        refine ⟨mention, cx, ?_, rfl, rfl⟩
        rw [run_bind_ok ((run_bind_ok htarget).trans ((run_bind_ok hlookup).trans hresult))]
        rfl

end Compilation

namespace Hook

theorem run_append (traversal : Traversal Hook) (first second : Hook) :
    Hook.run traversal (first ++ second) =
      (do Hook.run traversal first; Hook.run traversal second) := by
  induction first with
  | nil => rfl
  | cons action rest ih =>
    rw [List.cons_append, Hook.run, forM_cons, Hook.run, forM_cons, bind_assoc]
    congr 1
    funext _
    exact ih

/-- Putting the text of a leaf together agrees with printing its pieces. -/
theorem answers_pieces (pieces : List Piece) {cx : Compilation} {seed : Seed Hook}
    (shows : Shows origin cx.generator page) (planned : origin.plan cx.id = some seed) :
    Answers ((Hook.run traversal (pieces.map Piece.action)).run cx)
      (Printer.pieces seed.dependencies page.text pieces)
      fun code _ cx' => cx' = { cx with buffer := cx.buffer ++ code } := by
  induction pieces generalizing cx with
  | nil => exact ⟨(), cx, rfl, by simp⟩
  | cons piece rest ih =>
    rw [List.map_cons, Hook.run, forM_cons]
    cases piece with
    | text s =>
      have happend : (Action.run traversal (Piece.text s).action).run cx =
          .ok () { cx with buffer := cx.buffer ++ s } := rfl
      have hrest := @ih { cx with buffer := cx.buffer ++ s } shows planned
      rw [run_bind_ok happend, Printer.pieces]
      refine hrest.map _ fun code _ cx' hcx' => ?_
      rw [hcx', String.append_assoc]
    | input key =>
      have hread : Answers ((Action.run traversal (Piece.input key).action).run cx)
          ((seed.dependencies.get? key).bind page.text)
          fun mention _ cx' => cx' = { cx with buffer := cx.buffer ++ mention } := by
        have hinput := Compilation.answers_inputCode shows planned key
        rw [← Option.bind_fun_some ((seed.dependencies.get? key).bind page.text)]
        refine hinput.bind fun mention answer cx' _ hread => ?_
        obtain ⟨rfl, rfl⟩ := hread
        exact ⟨(), _, rfl, rfl⟩
      refine hread.bind fun mention _ cx' _ hcx' => ?_
      subst hcx'
      have hrest := @ih { cx with buffer := cx.buffer ++ mention } shows planned
      refine hrest.map _ fun code _ cx' hcx' => ?_
      rw [hcx', String.append_assoc]

end Hook

/-! ### Settling -/

namespace Generator

/-- The session after the result of a seed was settled. -/
def settled (gen : Session) (id : SeedId) (seed : Seed Hook) (value : Compiled) : Session :=
  if shouldBind seed.bindingWish seed.boundary seed.mode seed.referents.length then
    gen.moveToLocal id seed value
  else if seed.boundary = .opens then
    gen.emitted (.block id value)
  else
    gen

theorem run_codeResult {gen : Session} {id : SeedId} {seed : Seed Hook} {text : String}
    (stored : gen.store.get? id = some seed) (code : seed.slot.current = some (.code text)) :
    (codeResult id).run gen = .ok (.code text) gen := by
  have hresult : seed.result = .ok (.code text) := by rw [Seed.result, code]
  rw [codeResult, run_bind_ok (run_lookup_of_some stored), hresult]
  rfl

theorem run_emitBlock {gen : Session} {id : SeedId} {seed : Seed Hook} {value : Compiled}
    (stored : gen.store.get? id = some seed) (set : seed.slot = .set value) :
    (emitBlock id).run gen =
      .ok () (if seed.boundary = .opens then gen.emitted (.block id value) else gen) := by
  rw [emitBlock, run_bind_ok (run_lookup_of_some stored)]
  by_cases hopens : seed.boundary = .opens
  · have hresult : seed.result = .ok value := by
      rw [Seed.result, set]
      rfl
    rw [if_pos ⟨hopens, by rw [set]; rfl⟩, if_pos hopens, hresult]
    rfl
  · rw [if_neg fun h => hopens h.1, if_neg hopens]
    rfl

theorem run_emitBlock_of_bound {gen : Session} {id : SeedId} {seed : Seed Hook}
    (stored : gen.store.get? id = some seed) (bound : seed.slot.isBound = true) :
    (emitBlock id).run gen = .ok () gen := by
  rw [emitBlock, run_bind_ok (run_lookup_of_some stored), if_neg]
  · rfl
  · rintro ⟨-, hunbound⟩
    rw [bound] at hunbound
    exact absurd hunbound (by simp)

/-- **Settling a result that is code** moves it to a local or emits it as a block. -/
theorem run_settle {gen : Session} {id : SeedId} {seed : Seed Hook} {text : String}
    (complete : gen.finalized = true) (stored : gen.store.get? id = some seed)
    (set : seed.slot = .set (.code text)) :
    (settle id).run gen = .ok () (gen.settled id seed (.code text)) := by
  have hcode : seed.slot.current = some (.code text) := by
    rw [set]
    rfl
  rw [settle, run_bind_ok (run_codeResult stored hcode), settled]
  by_cases hbind : shouldBind seed.bindingWish seed.boundary seed.mode seed.referents.length = true
  · have hbound : (bindByPolicy id).run gen = .ok () (gen.moveToLocal id seed (.code text)) := by
      rw [bindByPolicy, run_bind_ok (run_policy complete stored), if_pos hbind]
      exact run_bind_of_set stored set
    obtain ⟨held, hheld, hslot⟩ : ∃ held,
        (gen.moveToLocal id seed (.code text)).store.get? id = some held ∧
          held.slot.isBound = true := by
      rw [moveToLocal, gen.store.get?_set _ _ _ (by rw [stored]; rfl), if_pos rfl]
      exact ⟨_, rfl, rfl⟩
    rw [run_bind_ok hbound, run_emitBlock_of_bound hheld hslot, if_pos hbind]
  · have hfree : (bindByPolicy id).run gen = .ok () gen := by
      rw [bindByPolicy, run_bind_ok (run_policy complete stored), if_neg hbind]
      rfl
    rw [run_bind_ok hfree, run_emitBlock stored set, if_neg hbind]

/-- **What a continuation does**: it applies the policy to code that is not yet bound, and nothing
otherwise. -/
theorem settle_outcome {gen : Session} (complete : gen.finalized = true) (id : SeedId) :
    (stateAfter (settle id) gen = gen ∧ ∀ text, gen.slot? id ≠ some (.set (.code text))) ∨
      ∃ seed text, gen.store.get? id = some seed ∧ seed.slot = .set (.code text) ∧
        stateAfter (settle id) gen = gen.settled id seed (.code text) := by
  by_cases hcode : ∃ text, gen.slot? id = some (.set (.code text))
  · obtain ⟨text, hslot⟩ := hcode
    obtain ⟨seed, stored, set⟩ := Option.map_eq_some_iff.1 hslot
    exact .inr ⟨seed, text, stored, set, stateAfter_of_ok (run_settle complete stored set)⟩
  · refine .inl ⟨?_, fun text hslot => hcode ⟨text, hslot⟩⟩
    -- Whatever else is in the slot, there is nothing to bind or to emit.
    have hleaks : ∀ seed value, gen.store.get? id = some seed → seed.slot = .set value →
        stateAfter (settle id) gen = gen := by
      intro seed value stored set
      cases value with
      | code text => exact absurd ⟨text, by rw [slot?_of_stored stored, set]⟩ hcode
      | seed leaked =>
        have hresult : (codeResult id).run gen = .error (.malformedResult id leaked) gen := by
          rw [codeResult, run_bind_ok (run_lookup_of_some stored), Seed.result, set]
          rfl
        exact stateAfter_of_error (run_bind_error hresult)
    obtain hsame | ⟨seed, value, stored, set, -⟩ | ⟨seed, value, stored, set, -, -⟩ :=
      settle_cases id gen
    · exact hsame
    · exact hleaks seed value stored set
    · exact hleaks seed value stored set

end Generator

/-! ### The end of a hook -/

/-- The session in which the hook of a seed made `text` the result and is about to proceed. -/
def Generator.announced (gen : Session) (id : SeedId) (seed : Seed Hook) (text : String) :
    Session :=
  (gen.withResult id seed (.code text)).noted (.continued id)

/-- The session after the hook of a seed made `text` the result and proceeded. -/
def Generator.concluded (gen : Session) (id : SeedId) (seed : Seed Hook) (text : String) :
    Session :=
  (gen.announced id seed text).settled id { seed with slot := .set (.code text) } (.code text)

theorem Generator.get?_announced {gen : Session} {id : SeedId} {seed : Seed Hook}
    (stored : gen.store.get? id = some seed) (text : String) :
    (gen.announced id seed text).store.get? id = some { seed with slot := .set (.code text) } :=
  (gen.store.get?_set _ _ _ (by rw [stored]; rfl)).trans (if_pos rfl)

/-- At its end a hook makes the text that it has gathered the result, and proceeds. -/
theorem Hook.run_ending {cx : Compilation} {seed : Seed Hook}
    (complete : cx.generator.finalized = true) (first : cx.continuations = 0)
    (stored : cx.generator.store.get? cx.id = some seed) (unset : seed.slot = .unset) :
    (Hook.run traversal [.setResult, .proceed]).run cx =
      .ok () { cx with
        continuations := 1
        generator := cx.generator.concluded cx.id seed cx.buffer } := by
  have hset : (Action.run traversal .setResult).run cx =
      .ok () { cx with generator := cx.generator.withResult cx.id seed (.code cx.buffer) } :=
    Compilation.run_setResult_of_unset (.code cx.buffer) stored unset
  have hsettle : (Generator.settle cx.id).run (cx.generator.announced cx.id seed cx.buffer) =
      .ok () (cx.generator.concluded cx.id seed cx.buffer) :=
    Generator.run_settle complete (Generator.get?_announced stored cx.buffer) rfl
  have hproceed : (Action.run traversal .proceed).run
      { cx with generator := cx.generator.withResult cx.id seed (.code cx.buffer) } =
        .ok () { cx with
          continuations := 1
          generator := cx.generator.concluded cx.id seed cx.buffer } := by
    rw [Action.run, Compilation.run_proceed, if_pos first, first]
    exact Compilation.run_onGenerator_ok hsettle
  rw [Hook.run, forM_cons, run_bind_ok hset, forM_cons, run_bind_ok hproceed]
  rfl

/-- A hook announces its result: from then on consumers see it. -/
theorem Shows.announced {gen : Session} {id : SeedId} {seed : Seed Hook}
    (shows : Shows origin gen page)
    (stored : gen.store.get? id = some seed) (earlier : id.index < page.next) (text : String) :
    Shows origin (gen.announced id seed text) (page.write id text) ∧
      Written gen (gen.announced id seed text) [] :=
  ⟨(shows.write stored earlier rfl).keep rfl rfl rfl rfl (List.Subset.refl _),
    .quiet rfl rfl rfl rfl⟩

/-- The end of the hook of a leaf prints what the printer makes of its code. -/
theorem Shows.concluded_leaf {gen : Session} {boundary : Boundary} {node : Leaf} {seed : Seed Hook}
    (shows : Shows origin gen page.advance) (planned : origin.plan ⟨page.next⟩ = some seed)
    (stored : gen.store.get? ⟨page.next⟩ = some { seed with slot := .unset })
    (realizes : seed.Realizes (node.blueprint boundary)) (leaf : boundary ≠ .opens)
    (code : String) :
    Shows origin (gen.concluded ⟨page.next⟩ { seed with slot := .unset } code)
        (origin.printer.hold boundary node page code).2.2 ∧
      Written gen (gen.concluded ⟨page.next⟩ { seed with slot := .unset } code)
        (origin.printer.hold boundary node page code).2.1 := by
  have hearlier : (⟨page.next⟩ : SeedId).index < page.advance.next := by
    simp only [Page.advance]
    omega
  obtain ⟨hshows, hquiet⟩ := shows.announced stored hearlier code
  have hstored := Generator.get?_announced stored code
  have hpolicy : shouldBind seed.bindingWish seed.boundary seed.mode seed.referents.length =
      shouldBind node.bindingWish boundary node.mode (origin.printer.fanIn ⟨page.next⟩) := by
    rw [realizes.bindingWish, realizes.boundary, realizes.mode, Generator.printer]
    dsimp only
    rw [planned]
    rfl
  have hname : gen.locals.nameOf gen.locals.counter =
      origin.locals.stem ++ toString page.locals := by
    rw [Locals.nameOf, shows.same.stem, shows.locals]
    rfl
  unfold Generator.concluded Generator.settled Printer.hold
  dsimp only
  rw [hpolicy]
  by_cases hbind : shouldBind node.bindingWish boundary node.mode
      (origin.printer.fanIn ⟨page.next⟩) = true
  -- The result is written first and replaced by the name of the local; only the name remains.
  · have hheld := hshows.moveToLocal hstored hearlier (.code code)
    rw [Page.write_write] at hheld
    have hwritten := hquiet.trans (.moveToLocal ⟨page.next⟩
      { seed with slot := .set (.code code) } (.code code))
    rw [if_pos hbind, if_pos hbind]
    refine ⟨hheld, ?_⟩
    show Written _ _
      [⟨origin.platform.declaration (origin.locals.stem ++ toString page.locals) code, false⟩]
    rw [← hname, ← shows.same.platform]
    exact hwritten
  · have hopens : seed.boundary ≠ .opens := by
      rw [realizes.boundary]
      exact leaf
    rw [if_neg hbind, if_neg hbind, if_neg hopens]
    exact ⟨hshows, hquiet⟩

/-! ### Compiling -/

namespace Generator

theorem run_codeResult_of_mention {gen : Session} {id : SeedId} {text : String}
    (mentioned : gen.mention? id = some (.code text)) :
    (codeResult id).run gen = .ok (.code text) gen := by
  obtain ⟨slot, hslot, hcurrent⟩ := Option.bind_eq_some_iff.1 mentioned
  obtain ⟨seed, hstored, rfl⟩ := Option.map_eq_some_iff.1 hslot
  exact run_codeResult hstored hcurrent

/-- The session after the hook of a seed has ended well. -/
def closed (gen : Session) (id : SeedId) : Session :=
  (gen.left id none).noted (.accepted id)

/-- Compiling a seed without a result does what its hook does, if the hook proceeds once and leaves
code. -/
theorem answers_compile {β : Type} {gen : Session} {id : SeedId} {seed : Seed Hook}
    {expected : Option β} (text : β → String) (related : β → Session → Prop)
    (idle : id ∉ gen.running) (stored : gen.store.get? id = some seed)
    (hook : Answers ((Hook.run traversal seed.hook).run { id, generator := gen.entered id })
      expected fun value _ cx => cx.continuations = 1 ∧
        cx.generator.mention? id = some (.code (text value)) ∧ related value cx.generator) :
    Answers ((compile traversal id).run gen) expected fun value result gen' =>
      result = .code (text value) ∧ ∃ inside, related value inside ∧ gen' = inside.closed id := by
  have hidle : (requireIdle id).run gen = .ok () gen := by
    rw [requireIdle, run_get_bind, run_require, if_pos idle]
  rw [compile, run_bind_ok hidle, run_bind_ok (run_lookup_of_some stored), enter, run_modify_bind]
  cases expected with
  | none =>
    obtain ⟨failure, cx, hrun⟩ := hook
    have hended : (runHook traversal id seed.hook).run (gen.entered id) =
        .ok (some failure, cx.continuations) cx.generator := by
      rw [EStateM.run, runHook, hrun]
    rw [run_bind_ok hended, leave, run_modify_bind]
    exact ⟨failure, _, rfl⟩
  | some value =>
    obtain ⟨_, cx, hrun, honce, hmention, hrelated⟩ := hook
    have hended : (runHook traversal id seed.hook).run (gen.entered id) =
        .ok (none, 1) cx.generator := by
      rw [EStateM.run, runHook, hrun, ← honce]
    have hverdict : (MonadExcept.ofExcept (verdict id (none, 1)) : GenM Hook Unit).run
        (cx.generator.left id none) = .ok () (cx.generator.left id none) := rfl
    have hcode : (codeResult id).run (cx.generator.left id none) =
        .ok (.code (text value)) (cx.generator.left id none) := run_codeResult_of_mention hmention
    rw [run_bind_ok hended, leave, run_modify_bind, run_bind_ok hverdict, run_bind_ok hcode]
    exact ⟨_, _, rfl, rfl, cx.generator, hrelated, rfl⟩

/-- What was written while a hook ran is written when it has ended. -/
theorem written_closed {gen inside : Session} {id : SeedId} {lines : List Line}
    (idle : id ∉ gen.running) (written : Written (gen.entered id) inside lines) :
    Written gen (inside.closed id) lines where
  running := by
    have hrunning : inside.running = id :: gen.running := written.running
    show inside.running.filter _ = gen.running
    rw [hrunning, List.filter_cons_of_neg (by simp), List.filter_eq_self]
    intro other hother
    simp only [decide_eq_true_eq]
    rintro rfl
    exact idle hother
  depth := written.depth
  platform := written.platform
  emissions := written.emissions

theorem shows_closed {inside : Session} (shows : Shows origin inside page) (id : SeedId) :
    Shows origin (inside.closed id) page :=
  shows.keep rfl rfl rfl rfl List.filter_sublist.subset

/-- **Compiling a leaf agrees with printing it.** -/
theorem answers_compile_leaf {gen : Session} {boundary : Boundary} {node : Leaf} {seed : Seed Hook}
    (shows : Shows origin gen page) (planned : origin.plan ⟨page.next⟩ = some seed)
    (realizes : seed.Realizes (node.blueprint boundary)) (leaf : boundary ≠ .opens) :
    Answers ((compile traversal ⟨page.next⟩).run gen) (origin.printer.leaf boundary node page)
      fun printed result gen' => result = .code printed.1 ∧ Shows origin gen' printed.2.2 ∧
        Written gen gen' printed.2.1 := by
  have hunset : page.text ⟨page.next⟩ = none := shows.fresh _ (Int.le_refl _)
  have hstored := shows.stored_unset planned hunset
  have hidle : ⟨page.next⟩ ∉ gen.running := fun hrunning =>
    absurd (shows.running _ hrunning) (Int.lt_irrefl _)
  have hhook : Answers ((Hook.run traversal seed.hook).run
      { id := ⟨page.next⟩, generator := gen.entered ⟨page.next⟩ })
      (origin.printer.leaf boundary node page) fun printed _ cx => cx.continuations = 1 ∧
        cx.generator.mention? ⟨page.next⟩ = some (.code printed.1) ∧
        Shows origin cx.generator printed.2.2 ∧
          Written (gen.entered ⟨page.next⟩) cx.generator printed.2.1 := by
    rw [realizes.hook, Printer.leaf, Option.map_eq_bind]
    unfold Leaf.blueprint Leaf.hook
    dsimp only
    rw [Hook.run_append]
    have hpieces := @Hook.answers_pieces origin page.advance traversal node.pieces
      { id := ⟨page.next⟩, generator := gen.entered ⟨page.next⟩ } seed shows.entered planned
    rw [realizes.dependencies] at hpieces
    refine hpieces.bind fun code _ cx _ hcx => ?_
    obtain rfl :
        cx = { id := ⟨page.next⟩, buffer := code, generator := gen.entered ⟨page.next⟩ } := by
      rw [hcx, String.empty_append]
    obtain ⟨hshows, hwritten⟩ := shows.entered.concluded_leaf planned hstored realizes leaf code
    have hmention := hshows.mentions ⟨page.next⟩
    rw [Printer.text_hold] at hmention
    have hheld : ((page.write ⟨page.next⟩ (origin.printer.hold boundary node page code).1).text
        ⟨page.next⟩) = some (origin.printer.hold boundary node page code).1 := if_pos rfl
    rw [hheld] at hmention
    exact ⟨(), _, Hook.run_ending shows.same.complete rfl hstored rfl, rfl, hmention, hshows,
      hwritten⟩
  have hcompiled := answers_compile Prod.fst
    (fun (printed : String × List Line × Page) inside => Shows origin inside printed.2.2 ∧
      Written (gen.entered ⟨page.next⟩) inside printed.2.1) hidle hstored hhook
  refine hcompiled.mono fun printed result gen' hend => ?_
  obtain ⟨hresult, inside, ⟨hshows, hwritten⟩, rfl⟩ := hend
  exact ⟨hresult, shows_closed hshows _, written_closed hidle hwritten⟩

end Generator

end SeedGraph
