import SeedGraph.Proofs.Move
import SeedGraph.Proofs.Program.Printer

/-!
# A session and the page that it stands for

While a structured program is generated, the session goes through the same stages as the page of the
printer.  `Shows origin gen page` says that the session `gen`, in which the generation that began in
`origin` has come some way, stands for `page`: consumers see the results that the page mentions, and
nothing else has a result.  `Written gen gen' lines` says what was emitted on the way from one
session to another.

The operations of a session fail or succeed, and so does the printer; `Answers` compares the two.
It is kept by sequencing (`Answers.bind`), which lets a comparison follow the two programs step by
step.
-/

namespace SeedGraph

/-! ### Comparing outcomes -/

/-- The operation succeeds just if there is an expected value, and then its answer and its state are
related to that value. -/
def Answers {σ α β : Type} (outcome : EStateM.Result Error σ α) (expected : Option β)
    (related : β → α → σ → Prop) : Prop :=
  match expected with
  | some value => ∃ answer state, outcome = .ok answer state ∧ related value answer state
  | none => ∃ failure state, outcome = .error failure state

namespace Answers

variable {σ α β α' β' : Type} {related : β → α → σ → Prop} {related' : β' → α' → σ → Prop}

/-- Sequencing: if the first steps agree and every agreement of them leads to an agreement of the
second steps, the sequences agree. -/
theorem bind {x : EStateM Error σ α} {s : σ} {expected : Option β} {f : α → EStateM Error σ α'}
    {next : β → Option β'} (first : Answers (x.run s) expected related)
    (second : ∀ value answer state, expected = some value → related value answer state →
      Answers ((f answer).run state) (next value) related') :
    Answers ((x >>= f).run s) (expected.bind next) related' := by
  cases expected with
  | none =>
    obtain ⟨failure, state, hrun⟩ := first
    exact ⟨failure, state, run_bind_error hrun⟩
  | some value =>
    obtain ⟨answer, state, hrun, hrelated⟩ := first
    rw [run_bind_ok hrun]
    exact second value answer state rfl hrelated

/-- A weaker relation. -/
theorem mono {outcome : EStateM.Result Error σ α} {expected : Option β}
    {weaker : β → α → σ → Prop} (h : Answers outcome expected related)
    (weaken : ∀ value answer state, related value answer state → weaker value answer state) :
    Answers outcome expected weaker := by
  cases expected with
  | none => exact h
  | some value =>
    obtain ⟨answer, state, hrun, hrelated⟩ := h
    exact ⟨answer, state, hrun, weaken value answer state hrelated⟩

/-- The expected value is a function of one that is known to be expected. -/
theorem map {outcome : EStateM.Result Error σ α} {expected : Option β} {after : β' → α → σ → Prop}
    (f : β → β') (h : Answers outcome expected related)
    (carry : ∀ value answer state, related value answer state → after (f value) answer state) :
    Answers outcome (expected.map f) after := by
  cases expected with
  | none => exact h
  | some value =>
    obtain ⟨answer, state, hrun, hrelated⟩ := h
    exact ⟨answer, state, hrun, carry value answer state hrelated⟩

end Answers

/-! ### Seeds apart from their results -/

/-- A seed without its result. -/
def Seed.plan {κ : Type} (seed : Seed κ) : Seed κ :=
  { seed with slot := .unset }

/-- The seed is as the blueprint describes it, as far as compiling it is concerned. -/
structure Seed.Realizes (seed : Seed Hook) (blueprint : Blueprint Hook) : Prop where
  /-- The mode. -/
  mode : seed.mode = blueprint.mode
  /-- The boundary. -/
  boundary : seed.boundary = blueprint.boundary
  /-- The wish about being bound. -/
  bindingWish : seed.bindingWish = blueprint.bindingWish
  /-- The edges. -/
  dependencies : seed.dependencies = .ofEdges blueprint.edges
  /-- The hook. -/
  hook : seed.hook = blueprint.hook

namespace Generator

/-- A stored seed without its result. -/
def plan (gen : Session) (id : SeedId) : Option (Seed Hook) :=
  (gen.store.get? id).map Seed.plan

/-- The result of a seed as consumers see it. -/
def mention? (gen : Session) (id : SeedId) : Option Compiled :=
  (gen.slot? id).bind Slot.current

/-- How the program of a session is rendered: as it is printed, but without results that repeat the
block before them. -/
def printer (gen : Session) : Printer where
  platform := gen.platform
  stem := gen.locals.stem
  fanIn id := ((gen.plan id).map fun seed => seed.referents.length).getD 0
  finish := Line.abridge

/-- The stored seeds from number `index` on are as the blueprints describe them. -/
def Laid (gen : Session) (index : Int) (blueprints : List (Blueprint Hook)) : Prop :=
  ∀ (k : Nat) blueprint, blueprints[k]? = some blueprint →
    ∃ seed, gen.plan ⟨index + k⟩ = some seed ∧ seed.Realizes blueprint

theorem Laid.head {gen : Session} {index : Int} {blueprint : Blueprint Hook}
    {rest : List (Blueprint Hook)} (h : gen.Laid index (blueprint :: rest)) :
    ∃ seed, gen.plan ⟨index⟩ = some seed ∧ seed.Realizes blueprint := by
  have hfirst := h 0 blueprint rfl
  rwa [Int.natCast_zero, Int.add_zero] at hfirst

theorem Laid.append {gen : Session} {index : Int} {first second : List (Blueprint Hook)}
    (h : gen.Laid index (first ++ second)) :
    gen.Laid index first ∧ gen.Laid (index + first.length) second := by
  constructor
  · intro k blueprint hk
    have hrange : k < first.length := (List.getElem?_eq_some_iff.1 hk).1
    exact h k blueprint (by rw [List.getElem?_append_left hrange]; exact hk)
  · intro k blueprint hk
    have hlater := h (first.length + k) blueprint (by
      rw [List.getElem?_append_right (by omega), Nat.add_sub_cancel_left]
      exact hk)
    rwa [Int.natCast_add, ← Int.add_assoc] at hlater

theorem Laid.tail {gen : Session} {index : Int} {blueprint : Blueprint Hook}
    {rest : List (Blueprint Hook)} (h : gen.Laid index (blueprint :: rest)) :
    gen.Laid (index + 1) rest :=
  (show gen.Laid index ([blueprint] ++ rest) from h).append.2

/-- The session with another result for a stored seed has the same plan. -/
theorem plan_withSeed {gen : Session} {id : SeedId} {seed : Seed Hook}
    (stored : gen.store.get? id = some seed) (slot : Slot) :
    (gen.withSeed id { seed with slot }).plan = gen.plan := by
  funext other
  unfold plan withSeed
  dsimp only
  rw [gen.store.get?_set _ _ _ (by rw [stored]; rfl)]
  by_cases heq : id = other
  · rw [if_pos heq, ← heq, stored]
    rfl
  · rw [if_neg heq]

end Generator

/-! ### Sessions in the middle of a generation -/

/-- The session `gen` belongs to the generation that began in `origin`: the seeds and the settings
are the same. -/
structure SamePlan (origin gen : Session) : Prop where
  /-- The seeds, apart from their results. -/
  plan : gen.plan = origin.plan
  /-- The identifiers. -/
  ids : gen.store.ids = origin.store.ids
  /-- The graph is complete. -/
  complete : gen.finalized = true
  /-- The platform. -/
  platform : gen.platform = origin.platform
  /-- The stem of the names of locals. -/
  stem : gen.locals.stem = origin.locals.stem

/-- The session `gen` stands for `page`. -/
structure Shows (origin gen : Session) (page : Page) : Prop where
  /-- It belongs to the generation that began in `origin`. -/
  same : SamePlan origin gen
  /-- The locals were counted. -/
  locals : gen.locals.counter = page.locals
  /-- The results are those that can be mentioned. -/
  mentions : ∀ id, gen.mention? id = (page.text id).map .code
  /-- What comes later cannot be mentioned. -/
  fresh : ∀ id : SeedId, page.next ≤ id.index → page.text id = none
  /-- What comes later is not running. -/
  running : ∀ id ∈ gen.running, id.index < page.next

namespace Shows

variable {origin gen gen' : Session} {page : Page}

/-- A planned seed is stored, and has a result just if it can be mentioned. -/
theorem stored (h : Shows origin gen page) {id : SeedId} {seed : Seed Hook}
    (planned : origin.plan id = some seed) :
    ∃ slot, gen.store.get? id = some { seed with slot } ∧
      slot.current = (page.text id).map .code := by
  rw [← h.same.plan, Generator.plan] at planned
  obtain ⟨found, hfound, rfl⟩ := Option.map_eq_some_iff.1 planned
  refine ⟨found.slot, hfound, ?_⟩
  rw [← h.mentions id, Generator.mention?, Generator.slot?_of_stored hfound]
  rfl

/-- A planned seed that cannot be mentioned has no result. -/
theorem stored_unset (h : Shows origin gen page) {id : SeedId} {seed : Seed Hook}
    (planned : origin.plan id = some seed) (unset : page.text id = none) :
    gen.store.get? id = some { seed with slot := .unset } := by
  obtain ⟨slot, hstored, hcurrent⟩ := h.stored planned
  rw [unset] at hcurrent
  cases slot with
  | unset => exact hstored
  | set value => exact absurd hcurrent (by simp [Slot.current])
  | bound name reference value => exact absurd hcurrent (by simp [Slot.current])

/-- Nothing that matters changed. -/
theorem keep (h : Shows origin gen page) (store : gen'.store = gen.store)
    (finalized : gen'.finalized = gen.finalized) (platform : gen'.platform = gen.platform)
    (locals : gen'.locals = gen.locals) (running : gen'.running ⊆ gen.running) :
    Shows origin gen' page where
  same := {
    plan := by rw [← h.same.plan]; unfold Generator.plan; rw [store]
    ids := by rw [store]; exact h.same.ids
    complete := finalized.trans h.same.complete
    platform := platform.trans h.same.platform
    stem := by rw [locals]; exact h.same.stem }
  locals := by rw [locals]; exact h.locals
  mentions id := by
    rw [← h.mentions id]
    unfold Generator.mention? Generator.slot?
    rw [store]
  fresh := h.fresh
  running id hid := h.running id (running hid)

/-- The hook of the next seed is entered. -/
theorem entered (h : Shows origin gen page) :
    Shows origin (gen.entered ⟨page.next⟩) page.advance where
  same := ⟨h.same.plan, h.same.ids, h.same.complete, h.same.platform, h.same.stem⟩
  locals := h.locals
  mentions := h.mentions
  fresh id hid := h.fresh id (by simp only [Page.advance] at hid; omega)
  running id hid := by
    rcases List.mem_cons.1 hid with rfl | hid
    · simp only [Page.advance]
      omega
    · have hbefore := h.running id hid
      simp only [Page.advance]
      omega

/-- An earlier seed gets a result, or another mention of its result. -/
theorem write (h : Shows origin gen page) {id : SeedId} {seed : Seed Hook}
    (stored : gen.store.get? id = some seed) (earlier : id.index < page.next) {slot : Slot}
    {text : String} (current : slot.current = some (.code text)) :
    Shows origin (gen.withSeed id { seed with slot }) (page.write id text) where
  same := {
    plan := (Generator.plan_withSeed stored slot).trans h.same.plan
    ids := (Store.ids_set ..).trans h.same.ids
    complete := h.same.complete
    platform := h.same.platform
    stem := h.same.stem }
  locals := h.locals
  mentions other := by
    rw [Generator.mention?, Generator.slot?_withSeed stored]
    unfold Page.write
    by_cases heq : other = id
    · rw [if_pos heq]
      dsimp only
      rw [if_pos heq]
      exact current
    · rw [if_neg heq]
      dsimp only
      rw [if_neg heq]
      exact h.mentions other
  fresh other hother := by
    have hne : other ≠ id := by
      rintro rfl
      simp only [Page.write] at hother
      omega
    exact (if_neg hne).trans (h.fresh other hother)
  running := h.running

/-- The result of an earlier seed is moved to a local. -/
theorem moveToLocal (h : Shows origin gen page) {id : SeedId} {seed : Seed Hook}
    (stored : gen.store.get? id = some seed) (earlier : id.index < page.next) (value : Compiled) :
    Shows origin (gen.moveToLocal id seed value)
      { page.write id (origin.platform.reference (origin.locals.stem ++ toString page.locals)) with
        locals := page.locals + 1 } := by
  have hname : gen.locals.nameOf gen.locals.counter =
      origin.locals.stem ++ toString page.locals := by
    rw [Locals.nameOf, h.same.stem, h.locals]
  have hwritten : Shows origin (gen.withSeed id { seed with
      slot := .bound (gen.locals.nameOf gen.locals.counter)
        (.code (gen.platform.reference (gen.locals.nameOf gen.locals.counter))) value })
      (page.write id (origin.platform.reference (origin.locals.stem ++ toString page.locals))) := by
    refine h.write stored earlier ?_
    rw [hname, h.same.platform]
    rfl
  exact {
    same := ⟨hwritten.same.plan, hwritten.same.ids, hwritten.same.complete,
      hwritten.same.platform, h.same.stem⟩
    locals := congrArg Nat.succ h.locals
    mentions := hwritten.mentions
    fresh := hwritten.fresh
    running := hwritten.running }

end Shows

/-! ### Emitted lines -/

namespace Statement

/-- Is the statement a block? -/
def isBlock : Statement → Bool
  | .declare _ => false
  | .block .. => true

/-- A block of the statement, if it is one, is code. -/
def IsCode : Statement → Prop
  | .declare _ => True
  | .block _ code => ∃ text, code = .code text

end Statement

/-- The line of a statement. -/
def Platform.print (platform : Platform) (statement : Statement) : Line :=
  ⟨platform.line statement, statement.isBlock⟩

/-- The lines of statements and of a result are those that the printer makes of them. -/
theorem Platform.lines_eq_abridge (platform : Platform) {statements : List Statement}
    (code : ∀ statement ∈ statements, statement.IsCode) (result : String) :
    platform.lines statements (some (.code result)) =
      Line.abridge (statements.map platform.print) result := by
  -- The renderer compares results, the printer compares texts; for code the two are the same.
  have hlast : (statements.getLast?.any (Statement.isBlockOf (.code result)) = true) ↔
      Line.Repeats (statements.map platform.print) result := by
    rw [Line.Repeats, List.getLast?_map]
    cases hstatement : statements.getLast? with
    | none => simp
    | some statement =>
      have hcode := code statement (List.mem_of_getLast? hstatement)
      cases statement with
      | declare binding => simp [Statement.isBlockOf, Platform.print, Statement.isBlock]
      | block seed value =>
        obtain ⟨text, rfl⟩ := hcode
        simp [Statement.isBlockOf, Platform.print, Statement.isBlock, Platform.line,
          Compiled.display]
  unfold Platform.lines Platform.resultLine Line.abridge
  dsimp only
  rw [List.map_map]
  by_cases hrepeated : Line.Repeats (statements.map platform.print) result
  · rw [if_pos hrepeated, if_pos (hlast.2 hrepeated)]
    rfl
  · rw [if_neg hrepeated, if_neg fun h => hrepeated (hlast.1 h)]
    rfl

/-- On the way from `gen` to `gen'` the lines `lines` were emitted where `gen` was emitting, and all
else that was emitted is inside nested regions. -/
structure Written (gen gen' : Session) (lines : List Line) : Prop where
  /-- The same hooks are running. -/
  running : gen'.running = gen.running
  /-- The same regions are open. -/
  depth : gen'.regionDepth = gen.regionDepth
  /-- The platform is the same. -/
  platform : gen'.platform = gen.platform
  /-- The statements that were added. -/
  emissions : ∃ added, gen'.emissions = gen.emissions ++ added ∧
    (∀ emission ∈ added, gen.regionDepth ≤ emission.depth ∧ emission.statement.IsCode) ∧
    ((added.filter fun emission => emission.depth = gen.regionDepth).map fun emission =>
      gen.platform.print emission.statement) = lines

namespace Written

variable {gen gen' gen'' : Session} {lines lines' : List Line}

/-- Nothing was emitted. -/
theorem quiet (running : gen'.running = gen.running) (depth : gen'.regionDepth = gen.regionDepth)
    (platform : gen'.platform = gen.platform) (emissions : gen'.emissions = gen.emissions) :
    Written gen gen' [] :=
  ⟨running, depth, platform, [], by rw [emissions, List.append_nil], by simp, rfl⟩

theorem trans (h : Written gen gen' lines) (h' : Written gen' gen'' lines') :
    Written gen gen'' (lines ++ lines') := by
  obtain ⟨added, hadded, hdeep, hlines⟩ := h.emissions
  obtain ⟨more, hmore, hdeeper, hlines'⟩ := h'.emissions
  refine ⟨h'.running.trans h.running, h'.depth.trans h.depth, h'.platform.trans h.platform,
    added ++ more, by rw [hmore, hadded, List.append_assoc], fun emission hemission => ?_, ?_⟩
  · rcases List.mem_append.1 hemission with hemission | hemission
    · exact hdeep emission hemission
    · rw [← h.depth]
      exact hdeeper emission hemission
  · rw [List.filter_append, List.map_append, hlines]
    rw [h.depth, h.platform] at hlines'
    rw [hlines']

/-- A statement was emitted. -/
theorem emitted (gen : Session) {statement : Statement} (code : statement.IsCode) :
    Written gen (gen.emitted statement) [gen.platform.print statement] := by
  refine ⟨rfl, rfl, rfl, [⟨gen.regionDepth, statement⟩], rfl, ?_, by simp⟩
  intro emission hemission
  rw [List.mem_singleton.1 hemission]
  exact ⟨Nat.le_refl _, code⟩

/-- A result was moved to a local, which was declared. -/
theorem moveToLocal (id : SeedId) (seed : Seed Hook) (value : Compiled) :
    Written gen (gen.moveToLocal id seed value)
      [⟨gen.platform.declaration (gen.locals.nameOf gen.locals.counter) value.display,
        false⟩] := by
  have hcode : (Statement.declare
    ⟨id, gen.locals.nameOf gen.locals.counter, value⟩).IsCode := trivial
  exact ⟨rfl, rfl, rfl, (emitted gen hcode).emissions⟩

end Written

end SeedGraph
