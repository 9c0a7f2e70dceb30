import SeedGraph.Proofs.Bookkeeping
import SeedGraph.Proofs.EmissionOrder
import SeedGraph.Proofs.Repetition

/-!
# The line of the result

A program is written as the lines of its statements and the line of its result.  The last statement
may be the block of the seed whose result it is, and then the result is not written once more.
Whether this is so is decided by the code of the block, not by its seed: a block of another seed
swallows the line of the result as well if it happens to have the same code.

The programs looked at here are generated from seeds that only compose texts.  Each seed is compiled
once, in ascending order, and leaves at most one statement, which can be told from the seed itself
(`Seed.statement?`); `Emitting` is the invariant.  The result is what the last seed shows.
`Session.result_omitted_by_code` says when its line is missing, and that this is right just if the
last statement is no block with the code of the result that belongs to another seed.
-/

namespace SeedGraph

/-! ### Composing a text -/

/-- Does the action append a fixed text, or the result of a dependency? -/
def Action.gathers : Action → Bool
  | .text _ | .input _ | .inputCode _ => true
  | _ => false

/-- Does the hook just put a text together from fixed texts and the results of dependencies, make it
the result, and proceed? -/
def Hook.composes : Hook → Bool
  | [.setResult, .proceed] => true
  | action :: rest => action.gathers && Hook.composes rest
  | [] => false

theorem Hook.exists_gathering {hook : Hook} (composes : hook.composes = true) :
    ∃ gathering : List Action, (∀ action ∈ gathering, action.gathers = true) ∧
      hook = gathering ++ [.setResult, .proceed] := by
  fun_induction Hook.composes hook with
  | case1 => exact ⟨[], by simp, rfl⟩
  | case2 action rest _ ih =>
    rw [Bool.and_eq_true] at composes
    obtain ⟨gathering, hgathers, rfl⟩ := ih composes.2
    exact ⟨action :: gathering, List.forall_mem_cons.2 ⟨composes.1, hgathers⟩, rfl⟩
  | case3 => exact absurd composes (by simp)

/-- An action that gathers fails, or appends something and does nothing else. -/
theorem Action.run_of_gathers (traversal : Traversal Hook) {action : Action}
    (gathers : action.gathers = true) {cx : Compilation} {seed : Seed Hook}
    (stored : cx.generator.store.get? cx.id = some seed) :
    (∃ failure cx', (action.run traversal).run cx = .error failure cx') ∨
      ∃ text, (action.run traversal).run cx = .ok () { cx with buffer := cx.buffer ++ text } := by
  cases action with
  | text s => exact .inr ⟨s, rfl⟩
  | input key =>
    obtain ⟨failure, hfail⟩ | ⟨target, mention, -, -, hread⟩ := Compilation.input_cases stored key
    · exact .inl ⟨failure, cx, run_bind_error hfail⟩
    · exact .inr ⟨mention.display, run_bind_ok hread⟩
  | inputCode key =>
    have hcode : (∃ failure cx', (Compilation.inputCode key).run cx = .error failure cx') ∨
        ∃ text, (Compilation.inputCode key).run cx = .ok text cx := by
      have htarget := Compilation.run_target stored key
      cases hkey : seed.dependencies.get? key with
      | none =>
        rw [hkey] at htarget
        exact .inl ⟨_, _, run_bind_error htarget⟩
      | some target =>
        rw [hkey] at htarget
        rw [Compilation.inputCode, run_bind_ok htarget]
        obtain ⟨failure, hfail⟩ | ⟨_, mention, -, -, hread⟩ := Compilation.input_cases stored key
        · exact .inl ⟨failure, cx, run_bind_error hfail⟩
        · rw [run_bind_ok hread]
          cases mention with
          | code text => exact .inr ⟨text, rfl⟩
          | seed leaked => exact .inl ⟨_, _, rfl⟩
    obtain ⟨failure, cx', hfail⟩ | ⟨text, hread⟩ := hcode
    · exact .inl ⟨failure, cx', run_bind_error hfail⟩
    · exact .inr ⟨text, run_bind_ok hread⟩
  | _ => exact absurd gathers (by simp [Action.gathers])

theorem Hook.run_of_gathers (traversal : Traversal Hook) {gathering : List Action}
    (gathers : ∀ action ∈ gathering, action.gathers = true) {cx : Compilation} {seed : Seed Hook}
    (stored : cx.generator.store.get? cx.id = some seed) :
    (∃ failure cx', (Hook.run traversal gathering).run cx = .error failure cx') ∨
      ∃ text, (Hook.run traversal gathering).run cx = .ok () { cx with buffer := text } := by
  induction gathering generalizing cx with
  | nil => exact .inr ⟨cx.buffer, rfl⟩
  | cons action rest ih =>
    rw [Hook.run, forM_cons]
    obtain ⟨failure, cx', hfail⟩ | ⟨text, hrun⟩ :=
      Action.run_of_gathers traversal (gathers action List.mem_cons_self) stored
    · exact .inl ⟨failure, cx', run_bind_error hfail⟩
    · rw [run_bind_ok hrun]
      exact ih (fun other hother => gathers other (List.mem_cons_of_mem _ hother)) stored

/-! ### The statement of a seed -/

/-- The statement that a compiled seed stands for, if it stands for one: the declaration of its
local, or its code as a block. -/
def Seed.statement? {κ : Type} (seed : Seed κ) (id : SeedId) : Option Statement :=
  match seed.slot with
  | .unset => none
  | .set value => if seed.boundary = .opens then some (.block id value) else none
  | .bound name _ value => some (.declare ⟨id, name, value⟩)

namespace Generator

/-- The statement that a stored seed stands for. -/
def statement? (gen : Session) (id : SeedId) : Option Statement :=
  (gen.store.get? id).bind fun seed => seed.statement? id

/-- The statements of the program, without those inside of regions. -/
def statements (gen : Session) : List Statement :=
  (gen.emissions.filter fun e => e.depth = 0).map Emission.statement

theorem statement?_of_stored {gen : Session} {id : SeedId} {seed : Seed Hook}
    (stored : gen.store.get? id = some seed) : gen.statement? id = seed.statement? id := by
  rw [statement?, stored]
  rfl

/-- A block is the code that its seed shows. -/
theorem mention?_of_statement? {gen : Session} {id other : SeedId} {code : Compiled}
    (h : gen.statement? id = some (.block other code)) :
    other = id ∧ gen.mention? id = some code := by
  obtain ⟨seed, stored, hstatement⟩ := Option.bind_eq_some_iff.1 h
  have hslot := slot?_of_stored stored
  rw [mention?, hslot]
  unfold Seed.statement? at hstatement
  cases hset : seed.slot with
  | unset =>
    rw [hset] at hstatement
    exact absurd hstatement (by simp)
  | set value =>
    rw [hset] at hstatement
    dsimp only at hstatement
    split at hstatement
    · obtain ⟨rfl, rfl⟩ := Statement.block.inj (Option.some.inj hstatement)
      exact ⟨rfl, rfl⟩
    · exact absurd hstatement (by simp)
  | bound name reference value =>
    rw [hset] at hstatement
    exact absurd hstatement (by simp)

/-! ### One seed -/

variable {gen : Session} {id : SeedId} {seed : Seed Hook}

/-- Settling the result of a seed concerns no other seed. -/
theorem get?_settled (stored : gen.store.get? id = some seed) (value : Compiled) {other : SeedId}
    (hother : other ≠ id) :
    (gen.settled id seed value).store.get? other = gen.store.get? other := by
  unfold settled
  split
  · exact (gen.store.get?_set _ _ _ (by rw [stored]; rfl)).trans (if_neg fun h => hother h.symm)
  · split
    · rfl
    · rfl

/-- **Settling the result of a seed emits the statement that the seed stands for afterwards.** -/
theorem emissions_settled (stored : gen.store.get? id = some seed) {value : Compiled}
    (set : seed.slot = .set value) :
    (gen.settled id seed value).emissions = gen.emissions ++
      ((gen.settled id seed value).statement? id).toList.map (Emission.mk gen.regionDepth) := by
  have hplain :
      seed.statement? id = if seed.boundary = .opens then some (.block id value) else none := by
    rw [Seed.statement?, set]
  unfold settled
  split
  · have hheld : (gen.moveToLocal id seed value).store.get? id = some { seed with
        slot := .bound (gen.locals.nameOf gen.locals.counter)
          (.code (gen.platform.reference (gen.locals.nameOf gen.locals.counter))) value } :=
      (gen.store.get?_set _ _ _ (by rw [stored]; rfl)).trans (if_pos rfl)
    rw [statement?_of_stored hheld]
    rfl
  · split
    · next hopens =>
      have hheld : (gen.emitted (.block id value)).store.get? id = some seed := stored
      rw [statement?_of_stored hheld, hplain, if_pos hopens]
      rfl
    · next hopens =>
      rw [statement?_of_stored stored, hplain, if_neg hopens]
      simp

/-- A seed that composes a text is compiled only in one way. -/
theorem compile_of_composes {traversal : Traversal Hook} {value : Compiled} {next : Session}
    (complete : gen.finalized = true) (idle : gen.running = [])
    (stored : gen.store.get? id = some seed) (unset : seed.slot = .unset)
    (composes : seed.hook.composes = true) (ran : (compile traversal id).run gen = .ok value next) :
    ∃ text, next = ((gen.entered id).concluded id seed text).closed id := by
  obtain ⟨gathering, hgathers, hhook⟩ := Hook.exists_gathering composes
  obtain ⟨failure, cx', hfail⟩ | ⟨text, hgathered⟩ :=
    @Hook.run_of_gathers traversal gathering hgathers
    { id, generator := gen.entered id } seed stored
  · have hfailed : (Hook.run traversal seed.hook).run { id, generator := gen.entered id } =
        .error failure cx' := by
      rw [hhook, Hook.run_append, run_bind_error hfail]
    obtain ⟨_, _, herror⟩ := @answers_compile traversal Unit gen id seed none (fun _ => "")
      (fun _ _ => True) (by rw [idle]; exact List.not_mem_nil) stored ⟨_, _, hfailed⟩
    rw [herror] at ran
    exact absurd ran (by simp)
  · obtain ⟨found, hrun⟩ := run_compile_concluded complete idle stored unset hhook hgathered
    rw [hrun] at ran
    exact ⟨text, (EStateM.Result.ok.inj ran).2.symm⟩

/-- **A seed that composes a text emits its statement** when it is compiled, and no other seed is
concerned. -/
theorem compile_emits {depth : Nat} {value : Compiled} {next : Session}
    (complete : gen.finalized = true) (idle : gen.running = [])
    (stored : gen.store.get? id = some seed) (unset : seed.slot = .unset)
    (composes : seed.hook.composes = true) (ran : (compileAt depth id).run gen = .ok value next) :
    (∀ other, other ≠ id → next.store.get? other = gen.store.get? other) ∧
      next.emissions =
        gen.emissions ++ (next.statement? id).toList.map (Emission.mk gen.regionDepth) := by
  cases depth with
  | zero =>
    have hfail : (compileAt 0 id).run gen = .error (.reentrantCompile id) gen := rfl
    rw [hfail] at ran
    exact absurd ran (by simp)
  | succ depth =>
    obtain ⟨text, rfl⟩ := compile_of_composes complete idle stored unset composes ran
    have hheld := @get?_announced (gen.entered id) id seed stored text
    refine ⟨fun other hother => ?_, emissions_settled hheld rfl⟩
    refine (get?_settled hheld (.code text) hother).trans ?_
    exact (gen.store.get?_set _ _ _ (by rw [stored]; rfl)).trans (if_neg fun h => hother h.symm)

end Generator

/-! ### The walk -/

/-- A traversal of seeds that compose texts has come some way: the seeds `done` have been compiled,
in this order, and each has emitted its statement. -/
structure Emitting (gen : Session) (done : List SeedId) : Prop where
  /-- It is a moment of a run. -/
  reachable : Reachable gen
  /-- The graph is complete. -/
  complete : gen.finalized = true
  /-- No hook is running, and no region is being generated. -/
  frames : gen.frames = [.traversal]
  /-- The seeds compose texts. -/
  composes : ∀ id seed, gen.store.get? id = some seed → seed.hook.composes = true
  /-- What was emitted are the statements of the seeds. -/
  emissions : gen.emissions = (done.filterMap gen.statement?).map (Emission.mk 0)
  /-- Other seeds have no result. -/
  unset : ∀ id seed, gen.store.get? id = some seed → id ∉ done → seed.slot = .unset

namespace Emitting

variable {gen next : Session} {done : List SeedId}

/-- One more seed is compiled. -/
theorem compiled (h : Emitting gen done) {depth : Nat} {id : SeedId} {seed : Seed Hook}
    {value : Compiled} (stored : gen.store.get? id = some seed) (new : id ∉ done)
    (passage : Passage false gen next)
    (ran : (Generator.compileAt depth id).run gen = .ok value next) :
    Emitting next (done ++ [id]) := by
  have hbooks := h.reachable.books
  have hidle : gen.running = [] := by
    rw [hbooks.running, h.frames]
    rfl
  have houtside : gen.regionDepth = 0 := by
    rw [hbooks.regionDepth, h.frames]
    rfl
  obtain ⟨hothers, hemissions⟩ := Generator.compile_emits h.complete hidle stored
    (h.unset id seed stored new) (h.composes id seed stored) ran
  have hearlier : done.filterMap next.statement? = done.filterMap gen.statement? := by
    refine List.filterMap_congr fun other hother => ?_
    have hne : other ≠ id := fun heq => new (heq ▸ hother)
    rw [Generator.statement?, Generator.statement?, hothers other hne]
  exact {
    reachable := h.reachable.moves passage.moves
    complete := passage.moves.finalized h.complete
    frames := passage.frames.trans h.frames
    composes := fun other found hfound => by
      obtain ⟨before, hbefore, hdesign⟩ := (passage.moves.sameGraph h.complete).stored hfound
      rw [← Seed.hook_of_design hdesign]
      exact h.composes other before hbefore
    emissions := by
      rw [hemissions, h.emissions, houtside, List.filterMap_append, hearlier, List.map_append]
      rfl
    unset := fun other found hfound hother => by
      rw [List.mem_append, List.mem_singleton, not_or] at hother
      rw [hothers other hother.2] at hfound
      exact h.unset other found hfound hother.1 }

/-- **A tour emits the statements of its seeds, in the order in which it comes to them.** -/
theorem tour {depth : Nat} {visits : List (SeedId × Session)}
    (tour : Tour (Generator.compileAt depth) gen visits next) (h : Emitting gen done)
    (nodup : (done ++ visits.map Prod.fst).Nodup) :
    Emitting next (done ++ visits.map Prod.fst) := by
  induction tour generalizing done with
  | done gen => simpa using h
  | pass result on ih =>
    -- There is no such seed: the seeds ahead have no results.
    obtain ⟨slot, hslot, hset⟩ := result
    obtain ⟨seed, stored, rfl⟩ := Option.map_eq_some_iff.1 hslot
    have hnew := List.disjoint_of_nodup_append nodup |>.symm List.mem_cons_self
    rw [h.unset _ seed stored hnew] at hset
    exact absurd hset (by simp [Slot.isSet])
  | @compiled gen ending next id seed value visits stored unset ran hook accept on ih =>
    have hsplit : done ++ ((id, gen) :: visits).map Prod.fst =
        (done ++ [id]) ++ visits.map Prod.fst := by
      simp
    have hnew : id ∉ done := fun hmem =>
      List.disjoint_of_nodup_append nodup hmem List.mem_cons_self
    rw [hsplit] at nodup ⊢
    exact ih (h.compiled stored hnew (hook.passage accept) ran) nodup

end Emitting

/-! ### The program -/

namespace Generator

variable {gen : Session} {last : SeedId} {result : Compiled}

theorem statements_of_emissions {statements : List Statement}
    (h : gen.emissions = statements.map (Emission.mk 0)) : gen.statements = statements := by
  have hall : (statements.map (Emission.mk 0)).filter (fun e => e.depth = 0) =
      statements.map (Emission.mk 0) := by
    rw [List.filter_eq_self]
    intro emission hemission
    obtain ⟨statement, -, rfl⟩ := List.mem_map.1 hemission
    rfl
  rw [Generator.statements, h, hall, List.map_map]
  exact List.map_id _

/-- The line of the result is omitted behind a block with the same code. -/
theorem render_of_block {id : SeedId} (h : gen.statements.getLast? = some (.block id result)) :
    gen.render (some result) = gen.statements.map gen.platform.line := by
  show gen.platform.lines gen.statements (some result) = _
  rw [Platform.lines, Platform.resultLine, h]
  simp [Statement.isBlockOf]

/-- Otherwise it is written. -/
theorem render_of_no_block (h : ∀ id, gen.statements.getLast? ≠ some (.block id result)) :
    gen.render (some result) = gen.statements.map gen.platform.line ++ [result.display] := by
  have hnone : gen.statements.getLast?.any (Statement.isBlockOf result) = false := by
    rw [Bool.eq_false_iff]
    intro hany
    obtain ⟨statement, hlast, hblock⟩ := Option.any_eq_true _ _ |>.1 hany
    cases statement with
    | declare binding => exact absurd hblock (by simp [Statement.isBlockOf])
    | block id code =>
      obtain rfl : code = result := of_decide_eq_true hblock
      exact h id hlast
  show gen.platform.lines gen.statements (some result) = _
  rw [Platform.lines, Platform.resultLine, hnone]
  rfl

/-- The program is its statements and behind them the line of `result`, which belongs to the seed
`last`; the line is missing just if the last statement is the block of `last` itself. -/
def WritesResultOf (gen : Session) (last : SeedId) (result : Compiled) : Prop :=
  (∀ code, gen.statements.getLast? = some (.block last code) →
    gen.render (some result) = gen.statements.map gen.platform.line) ∧
  ((∀ code, gen.statements.getLast? ≠ some (.block last code)) →
    gen.render (some result) = gen.statements.map gen.platform.line ++ [result.display])

/-- If a block of `last` has the code `result`, then the line is where it should be unless the last
statement is a block of another seed with that code. -/
theorem writesResultOf_iff
    (own : ∀ code, gen.statements.getLast? = some (.block last code) → code = result) :
    gen.WritesResultOf last result ↔
      ∀ id, gen.statements.getLast? = some (.block id result) → id = last := by
  constructor
  · rintro ⟨-, hwritten⟩ id hblock
    by_contra hother
    have hnot : ∀ code, gen.statements.getLast? ≠ some (.block last code) := by
      intro code hown
      rw [hblock] at hown
      exact hother (Statement.block.inj (Option.some.inj hown)).1
    have hlines := hwritten hnot
    rw [render_of_block hblock] at hlines
    exact absurd (congrArg List.length hlines) (by simp)
  · intro hsingle
    constructor
    · intro code hown
      rw [own code hown] at hown
      exact render_of_block hown
    · intro hnot
      refine render_of_no_block fun id hblock => ?_
      rw [hsingle id hblock] at hblock
      exact hnot result hblock

end Generator

namespace Session

variable {settings : Settings} {candidates : List (Candidate (Blueprint Hook))}
  {origin final : Session} {requests : List Request} {result : Option Compiled}

/-- **The program of seeds that compose texts** has the statements of all seeds, in ascending order,
and what the last seed shows as its result. -/
theorem emitting_of_generate (created : createWith settings candidates = .ok origin)
    (complete : (origin.run requests).finalized = true)
    (unset : ∀ seed ∈ (origin.run requests).store.seeds, seed.slot = .unset)
    (plain : ∀ seed ∈ (origin.run requests).store.seeds,
      seed.boundary ≠ .closes ∧ seed.hook.composes = true)
    (generated : (origin.run requests).step .generate = (.ok (.result result), final)) :
    ∃ gen, Emitting gen gen.store.ids ∧ result = gen.store.ids.getLast?.elim none gen.mention? ∧
      final = { gen.noted (.traversalEnded none) with latest := result } := by
  have hmoves := moves_run created requests
  have hframes := frames_run created requests
  have hreachable : Reachable (origin.run requests) :=
    ⟨settings, candidates, origin, created, hmoves⟩
  generalize origin.run requests = session at *
  obtain ⟨session', hrun, rfl⟩ := step_generate_of_ok generated
  have endless := Store.closes_eq_false fun seed hseed => (plain seed hseed).1
  obtain ⟨visits, gen, htour, rfl, hvisits, hresult⟩ :=
    Generator.exists_tour_to_last hreachable.numbered complete (fun id _ => endless id) hrun
  have hbegan : Emitting (session.noted .traversalBegan) [] := by
    refine ⟨hreachable.moves (.single .beginTraversal), complete, ?_, fun id seed stored => ?_, ?_,
      fun id seed stored _ => ?_⟩
    · rw [Generator.frames_noted, hframes]
      rfl
    · exact (plain seed (Store.mem_seeds_of_get? stored)).2
    · exact ((Moves.ledger created hmoves).blank (Generator.not_hasResult_of_unset unset)).2
    · exact unset seed (Store.mem_seeds_of_get? stored)
  have hids : gen.store.ids = session.store.ids :=
    (htour.passage.moves.sameGraph complete).ids
  have hall : visits.map Prod.fst = gen.store.ids :=
    hvisits.trans ((Store.idsFrom_lower session.store).trans hids.symm)
  have hnodup := gen.store.nodup_ids
  rw [← hvisits, hall] at hresult
  refine ⟨gen, ?_, hresult, rfl⟩
  rw [← hall] at hnodup ⊢
  exact hbegan.tour htour hnodup

/-- **The line of the result is omitted for its code.**  Take a session with a complete graph, in
which no seed has a result or closes a region and every hook just composes a text, and let its
program be generated with a result.  The result is what the last seed shows, and the statements are
those that the seeds stand for, in ascending order.  The line of the result is missing just if the
last statement is a block with the code of the result, whichever seed it belongs to.

So the line is missing for the block of the last seed alone just if the last statement is not a
block of another seed with that code. -/
theorem result_omitted_by_code {settings : Settings}
    {candidates : List (Candidate (Blueprint Hook))} {origin final : Session}
    {requests : List Request} {result : Compiled}
    (created : createWith settings candidates = .ok origin)
    (complete : (origin.run requests).finalized = true)
    (unset : ∀ seed ∈ (origin.run requests).store.seeds, seed.slot = .unset)
    (plain : ∀ seed ∈ (origin.run requests).store.seeds,
      seed.boundary ≠ .closes ∧ seed.hook.composes = true)
    (generated : (origin.run requests).step .generate = (.ok (.result (some result)), final)) :
    ∃ last, final.store.ids.getLast? = some last ∧ final.mention? last = some result ∧
      final.statements = final.store.ids.filterMap final.statement? ∧
      (∀ id, final.statements.getLast? = some (.block id result) →
        final.render (some result) = final.statements.map final.platform.line) ∧
      ((∀ id, final.statements.getLast? ≠ some (.block id result)) →
        final.render (some result) = final.statements.map final.platform.line ++ [result.display]) ∧
      (final.WritesResultOf last result ↔
        ∀ id, final.statements.getLast? = some (.block id result) → id = last) := by
  obtain ⟨gen, hemitting, hresult, hfinal⟩ :=
    emitting_of_generate created complete unset plain generated
  have hstatements : final.statements = final.store.ids.filterMap final.statement? := by
    rw [hfinal]
    exact Generator.statements_of_emissions hemitting.emissions
  cases hlast : gen.store.ids.getLast? with
  | none =>
    rw [hlast] at hresult
    exact absurd hresult (by simp)
  | some last =>
    rw [hlast] at hresult
    have hids : final.store.ids.getLast? = some last := by
      rw [hfinal]
      exact hlast
    have hmention : final.mention? last = some result := by
      rw [hfinal]
      exact hresult.symm
    refine ⟨last, hids, hmention, hstatements, fun id => Generator.render_of_block,
      Generator.render_of_no_block, Generator.writesResultOf_iff fun code hown => ?_⟩
    -- The last seed shows the code of its block, and what it shows is the result.
    have hmem := List.mem_of_getLast? hown
    rw [hstatements] at hmem
    obtain ⟨id, -, hstatement⟩ := List.mem_filterMap.1 hmem
    obtain ⟨rfl, hshown⟩ := Generator.mention?_of_statement? hstatement
    exact Option.some.inj (hshown.symm.trans hmention)

/-- The last seed opens a region and is not held in a local: its block is the last statement, and
the line of the result is not written once more. -/
theorem result_omitted_by_code_own :
    let call : Blueprint Hook := {
      kind := "call"
      mode := .sideEffectful
      hook := [.text "f()", .setResult, .proceed] }
    let block (text : String) : Blueprint Hook := {
      kind := "block"
      boundary := .opens
      edges := [⟨.arg 0, ⟨0⟩⟩]
      hook := [.text text, .input (.arg 0), .setResult, .proceed] }
    let requests : List Request := [.register (.seed call), .register (.seed (block "a ")),
      .register (.seed (block "b ")), .finalize]
    ∃ final,
      (blank.run requests).step .generate = (.ok (.result (some (.code "b s0"))), final) ∧
      final.WritesResultOf ⟨2⟩ (.code "b s0") ∧
      final.render (some (.code "b s0")) = ["let s0 = f();", "a s0", "b s0"] := by
  intro call block requests
  have complete : (blank.run requests).finalized = true := by decide +kernel
  have hseeds : ((blank.run requests).store.seeds.all fun seed =>
      decide (seed.slot = .unset ∧ seed.boundary ≠ .closes ∧
        seed.hook.composes = true)) = true := by
    decide +kernel
  have hplain : ∀ seed ∈ (blank.run requests).store.seeds,
      seed.slot = .unset ∧ seed.boundary ≠ .closes ∧ seed.hook.composes = true := fun seed hseed =>
    of_decide_eq_true (List.all_eq_true.1 hseeds seed hseed)
  have hanswer : ((blank.run requests).step .generate).1 =
      .ok (.result (some (.code "b s0"))) := by decide +kernel
  have hview : (((blank.run requests).step .generate).2.store.ids.getLast?,
      ((blank.run requests).step .generate).2.statements.getLast?) =
        (some ⟨2⟩, some (.block ⟨2⟩ (.code "b s0"))) := by decide +kernel
  obtain ⟨hids, hown⟩ := Prod.mk.inj hview
  obtain ⟨last, hlast, -, -, homitted, -, hright⟩ :=
    result_omitted_by_code createWith_blank complete (fun seed hseed => (hplain seed hseed).1)
      (fun seed hseed => (hplain seed hseed).2) (step_eq hanswer)
  obtain rfl : last = ⟨2⟩ := Option.some.inj (hlast.symm.trans hids)
  have hwritten := hright.2 fun id hblock =>
    (Statement.block.inj (Option.some.inj (hblock.symm.trans hown))).1
  refine ⟨_, step_eq hanswer, hwritten, ?_⟩
  rw [homitted _ hown]
  decide +kernel

/-- A block and behind it a seed that compiles to the same text.  The result is that of the second
seed, which is no block, but its line is missing. -/
theorem result_line_missing :
    let text : Hook := [.text "x", .setResult, .proceed]
    let requests : List Request := [
      .register (.seed { kind := "block", boundary := .opens, hook := text }),
      .register (.seed { kind := "leaf", hook := text }), .finalize]
    ∃ final,
      (blank.run requests).finalized = true ∧
      (∀ seed ∈ (blank.run requests).store.seeds,
        seed.slot = .unset ∧ seed.boundary ≠ .closes ∧ seed.hook.composes = true) ∧
      (blank.run requests).step .generate = (.ok (.result (some (.code "x"))), final) ∧
      final.store.ids.getLast? = some ⟨1⟩ ∧
      final.statements = [.block ⟨0⟩ (.code "x")] ∧
      final.render (some (.code "x")) = ["x"] ∧
      ¬ final.WritesResultOf ⟨1⟩ (.code "x") := by
  intro text requests
  have hseeds : ((blank.run requests).store.seeds.all fun seed =>
      decide (seed.slot = .unset ∧ seed.boundary ≠ .closes ∧
        seed.hook.composes = true)) = true := by
    decide +kernel
  have hanswer : ((blank.run requests).step .generate).1 =
      .ok (.result (some (.code "x"))) := by decide +kernel
  have hstatements : ((blank.run requests).step .generate).2.statements =
      [.block ⟨0⟩ (.code "x")] := by decide +kernel
  have hrendered : ((blank.run requests).step .generate).2.render (some (.code "x")) =
      ["x"] := by decide +kernel
  refine ⟨_, by decide +kernel, fun seed hseed => ?_, step_eq hanswer, by decide +kernel,
    hstatements, hrendered, fun hlaw => ?_⟩
  · exact of_decide_eq_true (List.all_eq_true.1 hseeds seed hseed)
  · have hlines := hlaw.2 fun code => by simp [hstatements]
    rw [hrendered, hstatements] at hlines
    exact absurd (congrArg List.length hlines) (by simp)

end Session

end SeedGraph
