import SeedGraph.Proofs.Ledger
import SeedGraph.Proofs.Program.Generation
import SeedGraph.Proofs.Tour

/-!
# Programs that end in a block

A walk that comes to a seed with a result passes over it, and carries the result along.  Inside a
program this is harmless, since the next seed that is compiled replaces what was carried.  A block
at the end of the program is different: behind it nothing is compiled any more, and the walk passes
over the seeds of the block itself.  The last of them is the closing leaf, so the result of the
program is what the *closing leaf* is mentioned by, and not the text of the block
(`Session.trailing_block_result`).

A result that repeats the block printed last is not printed again, but the result of the closing
leaf is not such a repetition.  It stands as a line of its own behind the block, unless the two
texts are the same; and they cannot be the same if the block is wrapped in anything at all
(`Generator.eq_blockText`).  If the closing leaf is held in a local, the line behind the block
mentions a local that is declared inside of the block only.
-/

namespace SeedGraph

/-! ### The text of a block and its last line -/

/-- The last line of a region is its result, whether it is printed as such or as the last block. -/
theorem Line.abridge_eq_append (lines : List Line) (result : String) :
    ∃ front, Line.abridge lines result = front ++ [result] := by
  unfold Line.abridge
  by_cases hrepeated : Line.Repeats lines result
  · obtain ⟨front, rfl⟩ := List.getLast?_eq_some_iff.1 hrepeated
    refine ⟨front.map Line.text, ?_⟩
    rw [if_pos hrepeated, List.append_nil, List.map_append]
    rfl
  · rw [if_neg hrepeated]
    exact ⟨_, rfl⟩

/-- Joined texts end with the last of them. -/
theorem exists_intercalate_append (separator : String) (front : List String) (last : String) :
    ∃ before, separator.intercalate (front ++ [last]) = before ++ last := by
  by_cases hfront : front = []
  · rw [hfront, List.nil_append, String.intercalate_singleton]
    exact ⟨"", by rw [String.empty_append]⟩
  · rw [String.intercalate_append_of_ne_nil hfront (by simp), String.intercalate_singleton]
    exact ⟨_, rfl⟩

/-- A block that reads as its own last line is wrapped in nothing. -/
theorem BlockHead.eq_wrap {head : BlockHead} {front : List String} {last : String}
    (h : last = head.wrap (front ++ [last])) : head.before = "" ∧ head.after = "" := by
  obtain ⟨before, hjoined⟩ := exists_intercalate_append head.separator front last
  have hlength := congrArg String.length h
  rw [BlockHead.wrap, hjoined, String.length_append, String.length_append, String.length_append]
    at hlength
  constructor
  · exact String.length_eq_zero_iff.1 (by omega)
  · exact String.length_eq_zero_iff.1 (by omega)

theorem Generator.eq_blockText {head : BlockHead} {printed : String × List Line × Page}
    (h : printed.1 = blockText head printed) : head.before = "" ∧ head.after = "" := by
  obtain ⟨front, hfront⟩ := Line.abridge_eq_append printed.2.1 printed.1
  rw [blockText, hfront] at h
  exact BlockHead.eq_wrap h

/-- The lines of a program whose last line is a block. -/
theorem Line.abridge_append_block (lines : List Line) (code result : String) :
    Line.abridge (lines ++ [⟨code, true⟩]) result =
      lines.map Line.text ++ code :: (if result = code then [] else [result]) := by
  have hrepeats : Line.Repeats (lines ++ [⟨code, true⟩]) result ↔ result = code := by
    rw [Line.Repeats, List.getLast?_concat]
    simp [eq_comm]
  unfold Line.abridge
  rw [List.map_append, List.append_assoc]
  by_cases hsame : result = code
  · rw [if_pos (hrepeats.2 hsame), if_pos hsame]
    rfl
  · rw [if_neg fun h => hsame (hrepeats.1 h), if_neg hsame]
    rfl

/-! ### Items and a block behind them -/

namespace Items

/-- The seeds of items and of a block behind them, in preorder. -/
def blueprintsBefore (items : Items) (head : BlockHead) (body : Items) (closing : Leaf) :
    List (Blueprint Hook) :=
  items.blueprints ++ head.blueprint :: (body.blueprints ++ [closing.blueprint .closes])

theorem length_blueprintsBefore (items : Items) (head : BlockHead) (body : Items) (closing : Leaf) :
    (items.blueprintsBefore head body closing).length = items.size + (body.size + 1 + 1) := by
  rw [blueprintsBefore, List.length_append, length_blueprints, List.length_cons, List.length_append,
    length_blueprints, List.length_singleton]

theorem blueprintsBefore_plain (items : Items) (head : BlockHead) (body : Items) (closing : Leaf) :
    ∀ blueprint ∈ items.blueprintsBefore head body closing,
      blueprint.id = none ∧ blueprint.preset = none := by
  intro blueprint hblueprint
  rcases List.mem_append.1 hblueprint with hitems | hblock
  · exact items.blueprints_plain blueprint hitems
  · exact (Items.block head body closing .nil).blueprints_plain blueprint hblock

end Items

/-! ### The walk over a trailing block -/

namespace Generator

variable {origin gen : Session} {page : Page}

/-- The closing leaf of a printed block is mentioned by the result of its region. -/
theorem text_closing {printer : Printer} {body : Items} {boundary : Boundary} {closing : Leaf}
    {printed : String × List Line × Page}
    (h : printer.region body boundary closing page.advance = some printed) (text : String) :
    (printed.2.2.write ⟨page.next⟩ text).text ⟨page.next + 1 + body.size⟩ = some printed.1 := by
  obtain ⟨⟨inside, inner⟩, hbody, hlast⟩ := Option.bind_eq_some_iff.1 h
  obtain ⟨⟨mention, more, outer⟩, hleaf, rfl⟩ := Option.map_eq_some_iff.1 hlast
  have hnext : inner.next = page.next + 1 + body.size := (Printer.grows_items hbody).next
  have hother : (⟨page.next + 1 + body.size⟩ : SeedId) ≠ ⟨page.next⟩ := by
    rw [ne_eq, SeedId.mk.injEq]
    omega
  refine (if_neg hother).trans ?_
  rw [← hnext]
  exact (Printer.grows_leaf hleaf).2

/-- **A walk over a trailing block ends with the result of its closing leaf.**  The hook of the
block has walked over the leaf before; now the walk passes over it, and there is nothing behind it.
-/
theorem answers_walk_trailing {depth : Nat} {head : BlockHead} {body : Items} {closing : Leaf}
    {seed : Seed Hook} (latest : Option Compiled) (walks : Walks origin depth body)
    (shows : Shows origin gen page) (planned : origin.plan ⟨page.next⟩ = some seed)
    (realizes : seed.Realizes head.blueprint)
    (laid : origin.Laid page.advance.next (body.blueprints ++ [closing.blueprint .closes])) :
    Answers ((walk (compile (traverse (depth + 1)))
        (SeedId.range page.next (body.size + 1 + 1)) latest).run gen)
      (origin.printer.region body .closes closing page.advance) fun printed result gen' =>
        result = some (.code printed.1) ∧
        Shows origin gen' (printed.2.2.write ⟨page.next⟩ (blockText head printed)) ∧
        Written gen gen' [⟨blockText head printed, true⟩] := by
  have hopens : seed.boundary ≠ .closes := by
    rw [show seed.boundary = .opens from realizes.boundary]
    simp
  rw [SeedId.range_succ,
    ← Option.bind_fun_some (origin.printer.region body .closes closing _)]
  refine answers_walk_cons _ latest shows planned
    (answers_compile_block walks shows planned realizes laid)
    (fun printed _ _ hcompiled => ⟨_, hcompiled.2.1⟩) (fun hcloses => absurd hcloses hopens) ?_
  rintro - printed result gen' hprinted ⟨rfl, hshows, hwritten⟩
  -- The text of the block is carried now, but not for long: the walk comes to the seeds inside of
  -- it.
  have hgrows := (Printer.grows_region hprinted).enclose (blockText head printed)
  have hnext := hgrows.next
  rw [← List.append_nil (SeedId.range (page.next + 1) (body.size + 1)), run_walk_of_mentions]
  · -- The last seed that was passed over is the closing leaf.
    have hclosing : gen'.mention? ⟨page.next + 1 + body.size⟩ = some (.code printed.1) := by
      rw [hshows.mentions, text_closing hprinted]
      rfl
    rw [SeedId.getLast?_range]
    exact ⟨_, gen', rfl, hclosing, hshows, hwritten⟩
  · intro id hid
    have hrange := SeedId.mem_range.1 hid
    rw [hshows.mentions, Option.isSome_map]
    exact hgrows.printed id (by omega) (by omega)

/-- The stored seeds are those of `items` and of a block behind them. -/
structure EndsInBlock (gen : Session) (items : Items) (head : BlockHead) (body : Items)
    (closing : Leaf) : Prop where
  /-- The seeds are laid out in preorder. -/
  laid : gen.Laid gen.lower (items.blueprintsBefore head body closing)
  /-- The closing leaf of the block is the last of them. -/
  last : gen.upper = gen.lower + items.size + 1 + body.size + 1

theorem endsInBlock_completed {session : Session} {items : Items} {head : BlockHead} {body : Items}
    {closing : Leaf}
    (store : session.store = .ofDescriptions [] (items.blueprintsBefore head body closing)) :
    session.completed.EndsInBlock items head body closing := by
  have hlower : session.completed.lower = 0 := lower_completed store
  constructor
  · rw [hlower]
    exact laid_completed store
  · rw [hlower, upper_completed store, Items.length_blueprintsBefore]
    omega

/-- The page of a session in which nothing has a result yet. -/
def blankPage (gen : Session) : Page where
  next := gen.lower
  locals := 0
  text _ := none

theorem shows_blankPage (complete : gen.finalized = true) (unset : ∀ id, ¬ gen.HasResult id)
    (noLocals : gen.locals.bindings = []) (idle : gen.running = []) :
    Shows gen gen gen.blankPage where
  same := ⟨rfl, rfl, complete, rfl, rfl⟩
  locals := by rw [gen.locals.counted, noLocals]; rfl
  mentions id := by
    show gen.mention? id = none
    rw [← Option.not_isSome_iff_eq_none, isSome_mention?]
    exact unset id
  fresh _ _ := rfl
  running id hid := by
    rw [idle] at hid
    exact absurd hid List.not_mem_nil

/-- What the printer makes of items and a block behind them: the lines and the page of the items,
and what is printed inside of the block. -/
def printTrailing (printer : Printer) (items body : Items) (closing : Leaf) (page : Page) :
    Option ((List Line × Page) × String × List Line × Page) :=
  (printer.items items page).bind fun inner =>
    (printer.region body .closes closing inner.2.advance).map fun printed => (inner, printed)

/-- How the two ends of a trailing block are mentioned once it is printed. -/
theorem mention?_trailing {gen' : Session} {items : Items} {head : BlockHead} {body : Items}
    {closing : Leaf} {lines : List Line} {printed : String × List Line × Page}
    (ends : gen.EndsInBlock items head body closing)
    (h : printTrailing gen.printer items body closing gen.blankPage = some ((lines, page), printed))
    (shows : Shows gen gen'
      (printed.2.2.write ⟨gen.lower + items.size⟩ (blockText head printed))) :
    gen'.mention? ⟨gen.lower + items.size⟩ = some (.code (blockText head printed)) ∧
      gen'.mention? ⟨gen.upper - 1⟩ = some (.code printed.1) := by
  obtain ⟨⟨lines', page'⟩, hitems, hrest⟩ := Option.bind_eq_some_iff.1 h
  obtain ⟨printed', hregion, heq⟩ := Option.map_eq_some_iff.1 hrest
  obtain ⟨⟨rfl, rfl⟩, rfl⟩ : (lines' = lines ∧ page' = page) ∧ printed' = printed := by
    simpa using heq
  have hnext : page'.next = gen.lower + items.size := (Printer.grows_items hitems).next
  have hlast : gen.upper - 1 = page'.next + 1 + body.size := by
    rw [ends.last]
    omega
  rw [← hnext] at shows ⊢
  rw [shows.mentions, shows.mentions, hlast, text_closing hregion]
  exact ⟨congrArg (Option.map Compiled.code) (if_pos rfl), rfl⟩

/-- A traversal of a whole program that ends in a block. -/
theorem answers_traverse_trailing {items : Items} {head : BlockHead} {body : Items} {closing : Leaf}
    (ends : gen.EndsInBlock items head body closing) (shows : Shows gen gen gen.blankPage) :
    Answers ((traverse gen.store.seeds.length none ⟨gen.lower⟩).run gen)
      (printTrailing gen.printer items body closing gen.blankPage) fun printed result gen' =>
        result = some (.code printed.2.1) ∧
        Shows gen gen' (printed.2.2.2.write ⟨gen.lower + items.size⟩ (blockText head printed.2)) ∧
        Written gen gen' (printed.1.1 ++ [⟨blockText head printed.2, true⟩]) := by
  have hlast : gen.store.upper = gen.store.lower + items.size + 1 + body.size + 1 := ends.last
  have hlength : gen.store.seeds.length = items.size + body.size + 1 + 1 := by
    have hall := gen.store.upper_sub_lower
    omega
  have hids : gen.store.idsFrom ⟨gen.lower⟩ = SeedId.range gen.lower items.size ++
      SeedId.range (gen.lower + items.size) (body.size + 1 + 1) := by
    have hcount : (gen.store.upper - gen.store.lower).toNat = items.size + (body.size + 1 + 1) := by
      omega
    rw [← SeedId.range_add, ← hcount]
    exact gen.store.idsFrom_eq (Int.le_refl _) (show gen.store.lower ≤ gen.store.upper by omega)
  obtain ⟨hitems, hblock⟩ := ends.laid.append
  rw [Items.length_blueprints] at hblock
  obtain ⟨seed, hplanned, hrealizes⟩ := hblock.head
  -- There are enough seeds for the depth at which hooks run, inside the items and inside the block.
  have hheight : items.height ≤ items.size + body.size + 1 := by
    have := items.height_le_size
    omega
  have hbody : body.height ≤ items.size + body.size := by
    have := body.height_le_size
    omega
  rw [hlength]
  refine answers_traverse_of_walk shows fun began hbegan => ?_
  rw [hids]
  refine walks_items hheight _ none hitems hbegan
    fun lines page' gen' latest' hprinted hshows hwritten => ?_
  have hnext : page'.next = gen.lower + items.size := (Printer.grows_items hprinted).next
  rw [← hnext] at hplanned hblock ⊢
  refine (answers_walk_trailing latest' (walks_items hbody) hshows hplanned hrealizes
    hblock.tail).map _ ?_
  rintro printed result inside ⟨hresult, hshows', hwritten'⟩
  exact ⟨hresult, hshows', hwritten.trans hwritten'⟩

end Generator

/-! ### Generation -/

namespace Session

/-- A generation that succeeds is a traversal that succeeds. -/
theorem step_generate_of_ok {session final : Session} {result : Option Compiled}
    (generated : session.step .generate = (.ok (.result result), final)) :
    ∃ session', (Generator.traverse session.store.seeds.length none ⟨session.lower⟩).run session =
      .ok result session' ∧ final = { session' with latest := result } := by
  have hfailed : ∀ {failure session'},
      (Generator.generate (Generator.traverse session.store.seeds.length)).run session ≠
        .error failure session' := by
    intro failure session' hrun
    have hstep : (session.step .generate).1 = .error failure := by
      rw [step, perform, run_get_bind, Generator.respond, run_bind_error hrun]
    rw [generated] at hstep
    exact absurd hstep (by simp)
  have hrun : (Generator.generate (Generator.traverse session.store.seeds.length)).run session =
      if session.scopes = [] then
        (Generator.traverse session.store.seeds.length none ⟨session.lower⟩).run session
      else .error (.unbalancedScopes session.scopes.length) session := by
    rw [Generator.generate, run_get_bind, run_require_bind]
  by_cases balanced : session.scopes = []
  · rw [if_pos balanced] at hrun
    cases htraversed :
        (Generator.traverse session.store.seeds.length none ⟨session.lower⟩).run session with
    | error failure session' => exact absurd (hrun.trans htraversed) hfailed
    | ok found session' =>
      rw [step_generate balanced htraversed] at generated
      obtain ⟨hanswer, rfl⟩ := Prod.mk.inj generated
      obtain rfl : found = result := Answer.result.inj (Except.ok.inj hanswer)
      exact ⟨session', rfl, rfl⟩
  · rw [if_neg balanced] at hrun
    exact absurd hrun hfailed

/-- **The result of a program that ends in a block is that of the closing leaf of the block.**  Let
nothing have a result in a session with a complete graph whose seeds are those of some items and of
a block behind them.  If the program is generated, its result is how the closing leaf is mentioned.
The rendered lines are those of the items, the text of the block, and the result once more as a line
of its own, unless it is the text of the block.

So the program has the block as its result and as its last line just if the closing leaf is
mentioned by the text of the block, which is impossible for a block that is wrapped in anything. -/
theorem trailing_block_result {settings : Settings} {candidates : List (Candidate (Blueprint Hook))}
    {origin final : Session} {requests : List Request} {items body : Items} {head : BlockHead}
    {closing : Leaf} {result : Option Compiled}
    (created : createWith settings candidates = .ok origin)
    (complete : (origin.run requests).finalized = true)
    (unset : ∀ id, ¬ (origin.run requests).HasResult id)
    (ends : (origin.run requests).EndsInBlock items head body closing)
    (generated : (origin.run requests).step .generate = (.ok (.result result), final)) :
    ∃ lines page printed,
      Generator.printTrailing (origin.run requests).printer items body closing
        (origin.run requests).blankPage = some ((lines, page), printed) ∧
      final.mention? ⟨(origin.run requests).lower + items.size⟩ =
        some (.code (Generator.blockText head printed)) ∧
      final.mention? ⟨(origin.run requests).upper - 1⟩ = some (.code printed.1) ∧
      result = some (.code printed.1) ∧
      final.render result = lines.map Line.text ++ Generator.blockText head printed ::
        (if printed.1 = Generator.blockText head printed then [] else [printed.1]) ∧
      (result = final.mention? ⟨(origin.run requests).lower + items.size⟩ ∧
          final.render result = lines.map Line.text ++ [Generator.blockText head printed] ↔
        printed.1 = Generator.blockText head printed) ∧
      (printed.1 = Generator.blockText head printed → head.before = "" ∧ head.after = "") := by
  -- Without results there are no locals and no statements, and between requests nothing is open.
  have hmoves := moves_run created requests
  obtain ⟨hbindings, hsilent⟩ := (Moves.ledger created hmoves).blank unset
  have hidle : (origin.run requests).running = [] := by
    rw [(Reachable.disciplined ⟨_, _, _, created, hmoves⟩).running, frames_run created]
    rfl
  obtain ⟨session', hrun, rfl⟩ := step_generate_of_ok generated
  have htraversed := Generator.answers_traverse_trailing ends
    (Generator.shows_blankPage complete unset hbindings hidle)
  rw [hrun] at htraversed
  cases hprinted : Generator.printTrailing (origin.run requests).printer items body closing
      (origin.run requests).blankPage with
  | none =>
    rw [hprinted] at htraversed
    obtain ⟨failure, gen', hfailed⟩ := htraversed
    exact absurd hfailed (by simp)
  | some printing =>
    rw [hprinted] at htraversed
    obtain ⟨⟨lines, page⟩, printed⟩ := printing
    obtain ⟨_, _, hok, rfl, hshows, hwritten⟩ := htraversed
    obtain ⟨rfl, rfl⟩ := EStateM.Result.ok.inj hok
    have hblock := Generator.mention?_trailing ends hprinted hshows
    have hrendered :=
      Generator.render_of_written hsilent (regionDepth_run created requests) hwritten
      printed.1
    rw [Line.abridge_append_block] at hrendered
    refine ⟨lines, page, printed, rfl, hblock.1, hblock.2, rfl, hrendered, ?_,
      Generator.eq_blockText⟩
    constructor
    · rintro ⟨hsame, -⟩
      exact Compiled.code.inj (Option.some.inj (hsame.trans hblock.1))
    · intro hsame
      rw [if_pos hsame] at hrendered
      exact ⟨(congrArg (fun text => some (Compiled.code text)) hsame).trans hblock.1.symm,
        hrendered⟩

theorem run_snoc (session : Session) (requests : List Request) (request : Request) :
    session.run (requests ++ [request]) = ((session.run requests).step request).2 := by
  rw [run, List.foldl_append]
  rfl

/-- Any items and a block behind them can be registered so: a new session over no seeds ends in a
block and has no results after that. -/
theorem endsInBlock_registered {settings : Settings} {origin : Session} (items : Items)
    (head : BlockHead) (body : Items) (closing : Leaf)
    (created : createWith settings [] = .ok origin)
    (fits : ∀ limit, settings.limit = some limit →
      (items.blueprintsBefore head body closing).length ≤ limit)
    (completed : ((origin.run (registrations (items.blueprintsBefore head body closing))).step
      .finalize).1 = .ok .done) :
    ∃ gen,
      origin.run (registrations (items.blueprintsBefore head body closing) ++ [.finalize]) = gen ∧
      gen.finalized = true ∧ (∀ id, ¬ gen.HasResult id) ∧
      gen.EndsInBlock items head body closing := by
  have hplain := items.blueprintsBefore_plain head body closing
  obtain ⟨platform, -, rfl⟩ := @createWith_seeds settings [] origin created
  obtain ⟨context, journal, hregistered⟩ :=
    @run_registrations [] (items.blueprintsBefore head body closing) []
      (Generator.ofStore settings platform (.ofDescriptions [] [])) rfl rfl
      (fun blueprint hblueprint => (hplain blueprint hblueprint).1)
      (fun limit hlimit => by rw [List.length_nil, Nat.zero_add]; exact fits limit hlimit)
  rw [run_snoc, (step_finalize_of_ok completed).2, hregistered]
  refine ⟨_, rfl, rfl, fun id => ?_, Generator.endsInBlock_completed rfl⟩
  rw [← Generator.isSome_mention?, (@Generator.shows_completed [] _ _ rfl (by simp)
    (fun blueprint hblueprint => (hplain blueprint hblueprint).2) rfl rfl).mentions]
  simp [Page.start]

/-- The closing leaf of the last block is held in a local, which is declared inside of the block
only.  The result of the program mentions it, and so does the line behind the block. -/
theorem trailing_block_result_local :
    let first : Leaf := { kind := "first", pieces := [.text "a"] }
    let inner : Leaf := { kind := "inner", pieces := [.text "b"] }
    let closing : Leaf := { kind := "closing", bindingWish := some true, pieces := [.text "f()"] }
    let block : BlockHead := {
      kind := "block", before := "\x7b ", separator := " ", after := " \x7d" }
    let program := (Items.leaf first .nil).blueprintsBefore block (.leaf inner .nil) closing
    let requests : List Request := registrations program ++ [.finalize]
    ∃ (result : Option Compiled) (final : Session),
      (blank.run requests).step .generate = (.ok (.result result), final) ∧
      final.mention? ⟨1⟩ = some (.code "\x7b let s0 = f(); s0 \x7d") ∧
      result = some (.code "s0") ∧
      final.render result = ["\x7b let s0 = f(); s0 \x7d", "s0"] := by
  intro first inner closing block program requests
  obtain ⟨_, rfl, hcomplete, hunset, hends⟩ := endsInBlock_registered (.leaf first .nil) block
    (.leaf inner .nil) closing createWith_blank (by simp) (by decide +kernel)
  have hanswer : ((blank.run requests).step .generate).1 = .ok (.result (some (.code "s0"))) := by
    decide +kernel
  obtain ⟨lines, page, printed, hprinted, hblock, -, hresult, hrendered, -⟩ :=
    trailing_block_result createWith_blank hcomplete hunset hends (step_eq hanswer)
  -- The theorem speaks of the printer, which says the texts.
  have hlines : (Generator.printTrailing (blank.run requests).printer (.leaf first .nil)
      (.leaf inner .nil) closing (blank.run requests).blankPage).map
        (fun printing => (printing.1.1, Generator.blockText block printing.2)) =
          some ([], "\x7b let s0 = f(); s0 \x7d") := by
    decide +kernel
  have hprinted' : some (lines, Generator.blockText block printed) =
      some ([], "\x7b let s0 = f(); s0 \x7d") := (congrArg _ hprinted).symm.trans hlines
  obtain ⟨hnone, htext⟩ := Prod.mk.inj (Option.some.inj hprinted')
  have hmention : printed.1 = "s0" := (Compiled.code.inj (Option.some.inj hresult)).symm
  have hindex : (blank.run requests).lower + ((Items.leaf first .nil).size : Int) = 1 := by
    decide +kernel
  rw [hindex, htext] at hblock
  rw [hnone, htext, hmention, if_neg (by decide)] at hrendered
  exact ⟨_, _, step_eq hanswer, hblock, rfl, hrendered⟩

/-- A block with a single leaf: the program has another result than the block, and another last
line. -/
theorem trailing_block_not_last :
    let closing : Leaf := { kind := "closing", pieces := [.text "x"] }
    let block : BlockHead := {
      kind := "block", before := "\x7b ", separator := "; ", after := " \x7d" }
    let requests : List Request :=
      registrations (Items.nil.blueprintsBefore block .nil closing) ++ [.finalize]
    ∃ (result : Option Compiled) (final : Session),
      (blank.run requests).finalized = true ∧
      (∀ id, ¬ (blank.run requests).HasResult id) ∧
      (blank.run requests).EndsInBlock .nil block .nil closing ∧
      (blank.run requests).step .generate = (.ok (.result result), final) ∧
      final.mention? ⟨0⟩ = some (.code "\x7b x \x7d") ∧
      result = some (.code "x") ∧ result ≠ final.mention? ⟨0⟩ ∧
      final.render result = ["\x7b x \x7d", "x"] := by
  intro closing block requests
  obtain ⟨_, rfl, hcomplete, hunset, hends⟩ :=
    endsInBlock_registered .nil block .nil closing createWith_blank (by simp) (by decide +kernel)
  have hanswer : ((blank.run requests).step .generate).1 = .ok (.result (some (.code "x"))) := by
    decide +kernel
  have hblock : ((blank.run requests).step .generate).2.mention? ⟨0⟩ =
      some (.code "\x7b x \x7d") := by
    decide +kernel
  refine ⟨_, _, hcomplete, hunset, hends, step_eq hanswer, hblock, rfl, ?_, by decide +kernel⟩
  rw [hblock]
  decide

end Session

end SeedGraph
