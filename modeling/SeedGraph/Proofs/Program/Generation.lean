import SeedGraph.Proofs.Program.Registration
import SeedGraph.Proofs.Program.Repeats
import SeedGraph.Proofs.Program.Walk

/-!
# Structured programs are generated as they are printed

A structured program that is registered in preorder, after pre-existing seeds with known code, is
generated whenever its graph can be completed.  The rendered lines are those that the printer
writes, but for one thing: the line of a result is left out if it repeats the block printed last in
its region.  `Session.generates_printed_program` says exactly when the two agree, and
`Session.repeated_result_left_out` is a program where they do not.

The comparison has two steps.  Rendering agrees with the abridged form of the printer in all cases
(`Session.generates_completed`), by the walk over the program.  That the abridged form agrees with
the printer itself is a matter of the two printers alone.
-/

namespace SeedGraph

/-! ### The seeds of a program -/

theorem Items.blueprints_plain (items : Items) :
    ∀ blueprint ∈ items.blueprints, blueprint.id = none ∧ blueprint.preset = none := by
  induction items with
  | nil => simp [Items.blueprints]
  | leaf node rest ih =>
    intro blueprint hblueprint
    rw [Items.blueprints, List.mem_cons] at hblueprint
    rcases hblueprint with rfl | hrest
    · exact ⟨rfl, rfl⟩
    · exact ih blueprint hrest
  | block head body closing rest ihBody ihRest =>
    intro blueprint hblueprint
    rw [Items.blueprints, List.mem_cons, List.mem_append, List.mem_cons] at hblueprint
    rcases hblueprint with rfl | hbody | rfl | hrest
    · exact ⟨rfl, rfl⟩
    · exact ihBody blueprint hbody
    · exact ⟨rfl, rfl⟩
    · exact ihRest blueprint hrest

/-- The seeds of a program have neither identifiers nor results. -/
theorem Program.blueprints_plain (program : Program) :
    ∀ blueprint ∈ program.blueprints, blueprint.id = none ∧ blueprint.preset = none := by
  intro blueprint hblueprint
  rw [Program.blueprints, List.mem_append, List.mem_singleton] at hblueprint
  rcases hblueprint with hitems | rfl
  · exact program.items.blueprints_plain blueprint hitems
  · exact ⟨rfl, rfl⟩

theorem Program.length_blueprints (program : Program) :
    program.blueprints.length = program.items.size + 1 := by
  rw [Program.blueprints, List.length_append, Items.length_blueprints]
  rfl

/-! ### Generation and rendering -/

namespace Generator

/-- What was written since nothing was emitted is what is rendered. -/
theorem render_of_written {gen gen' : Session} {lines : List Line} (silent : gen.emissions = [])
    (outside : gen.regionDepth = 0) (written : Written gen gen' lines) (result : String) :
    gen'.render (some (.code result)) = Line.abridge lines result := by
  obtain ⟨added, hadded, hdeep, hlines⟩ := written.emissions
  rw [silent, List.nil_append] at hadded
  rw [outside] at hlines
  unfold render
  rw [written.platform, hadded, gen.platform.lines_eq_abridge, List.map_map]
  · exact congrArg (fun lines => Line.abridge lines result) hlines
  · intro statement hstatement
    obtain ⟨emission, hemission, rfl⟩ := List.mem_map.1 hstatement
    exact (hdeep emission (List.mem_filter.1 hemission).1).2

end Generator

namespace Session

theorem step_generate {session session' : Session} {result : Option Compiled}
    (balanced : session.scopes = [])
    (h : (Generator.traverse session.store.seeds.length none ⟨session.lower⟩).run session =
      .ok result session') :
    session.step .generate = (.ok (.result result), { session' with latest := result }) := by
  apply step_of_ok
  have hgenerate :
      (Generator.generate (Generator.traverse session.store.seeds.length)).run session =
        .ok result session' := by
    rw [Generator.generate, run_get_bind, run_require_bind, if_pos balanced, h]
  exact (run_bind_ok hgenerate).trans rfl

/-- Completing the graph succeeds only if every edge leads to a stored seed. -/
theorem step_finalize_of_ok {session : Session} {answer : Answer}
    (completed : (session.step .finalize).1 = .ok answer) :
    session.store.firstDangling? = none ∧ (session.step .finalize).2 = session.completed := by
  obtain ⟨failure, hfail⟩ | ⟨-, htargets, -, hrun⟩ := Generator.finalize_cases session
  · have hstep : (session.step .finalize).1 = .error failure := by
      rw [step, perform, run_get_bind, Generator.respond, run_bind_error hfail]
    rw [hstep] at completed
    exact absurd completed (by simp)
  · have hstep : session.step .finalize = (.ok .done, session.completed) :=
      step_of_ok ((run_bind_ok hrun).trans rfl)
    exact ⟨htargets, by rw [hstep]⟩

/-- A new session over seeds that are not placeholders. -/
theorem createWith_seeds {settings : Settings} {existing : List (Blueprint Hook)} {origin : Session}
    (created : createWith settings (existing.map .seed) = .ok origin) :
    ∃ platform, settings.platform = some platform ∧
      origin = Generator.ofStore settings platform (.ofDescriptions existing []) := by
  obtain ⟨platform, blueprints, usable, hseeds, -, rfl⟩ := createWith_eq_ok created
  obtain rfl : existing = blueprints :=
    (List.map_inj_right fun _ _ h => Candidate.seed.inj h).1 hseeds
  exact ⟨platform, (Settings.check_eq_ok usable).1, by rw [Store.ofBlueprints_eq]⟩

/-- Generating a registered and completed program agrees with printing it in its abridged form. -/
theorem generates_completed {existing : List (Blueprint Hook)} {program : Program}
    {session : Session} (store : session.store = .ofDescriptions existing program.blueprints)
    (targets : session.store.firstDangling? = none) (balanced : session.scopes = [])
    (noLocals : session.locals.bindings = []) (silent : session.emissions = [])
    (outside : session.regionDepth = 0) (idle : session.running = [])
    (presets : ∀ blueprint ∈ existing, ∃ text, blueprint.preset = some (.code text))
    (reads : program.ReadsBackwards (-existing.length)) :
    ∃ lines page result final,
      Printer.program (Printer.abridged {
        platform := session.platform
        stem := session.locals.stem
        fanIn := fanIn (existing ++ program.blueprints) }) program (Page.start existing) =
          some (lines, page) ∧
      step session.completed .generate = (.ok (.result result), final) ∧
      final.render result = lines ∧ ∀ id, final.mention? id = (page.text id).map .code := by
  have hshows := Generator.shows_completed store presets
    (fun blueprint hblueprint => (program.blueprints_plain blueprint hblueprint).2) noLocals idle
  have hlower : session.completed.store.lower = -existing.length := Generator.lower_completed store
  have hupper : session.completed.store.upper =
      (Page.start existing).next + program.items.size + 1 := by
    refine (Generator.upper_completed store).trans ?_
    rw [Program.length_blueprints]
    simp only [Page.start]
    omega
  have hlength : session.completed.store.seeds.length =
      existing.length + program.items.size + 1 := by
    have hall := session.completed.store.upper_sub_lower
    rw [hupper, hlower] at hall
    simp only [Page.start] at hall
    omega
  have hpassed := Page.offers_start presets
  -- The printer has something to say, since the program reads backwards.
  obtain ⟨printed, hprinted⟩ := Printer.exists_program session.completed.printer presets reads
  have htraversed := Generator.answers_traverse
    (Generator.walks_items (show program.items.height ≤ existing.length + program.items.size by
      have := program.items.height_le_size
      omega)) hshows (Generator.laid_completed store) (by simp) (Int.le_of_eq hlower)
    (by simp only [Page.start]; omega) (fun id hid hid' => hpassed id hid hid' (by simp))
    (.inr hupper)
  rw [hprinted] at htraversed
  obtain ⟨result, final, hrun, rfl, hfinal, hwritten⟩ := htraversed
  have hrun' : (Generator.traverse session.completed.store.seeds.length none
      ⟨session.completed.lower⟩).run session.completed = .ok (some (.code printed.1)) final := by
    rw [hlength, show session.completed.lower = -existing.length from hlower]
    exact hrun
  refine ⟨Line.abridge printed.2.1 printed.1, printed.2.2, _, _, ?_, step_generate balanced hrun',
    ?_, hfinal.mentions⟩
  · rw [← Generator.printer_completed store targets, Printer.program, hprinted]
    rfl
  · exact @Generator.render_of_written session.completed final _ silent outside hwritten printed.1

/-- **Structured programs are generated as they are printed, unless a result repeats a block.**  Let
a program be registered in preorder after pre-existing seeds that all come with code, so that every
leaf mentions only earlier seeds and no block that it is inside of.  Whenever its graph can be
completed, the program is generated.  What is rendered compares with the lines of the printer, which
ends the program and every block with the line of the result, as follows:

* the rendered lines are those of the printer, and all seeds are mentioned as the printer does, just
  if no result repeats the block printed last in its region, with the exception of an empty result
  inside of a block that has no separator;
* if no block is cut short in this way, the rendered lines are those of the printer, but without the
  last one if the result of the program repeats the block printed last;
* in any case they are those of the abridged printer. -/
theorem generates_printed_program {settings : Settings} {existing : List (Blueprint Hook)}
    {program : Program} {origin : Session}
    (created : createWith settings (existing.map .seed) = .ok origin)
    (presets : ∀ blueprint ∈ existing, ∃ text, blueprint.preset = some (.code text))
    (reads : program.ReadsBackwards (-existing.length))
    (fits : ∀ limit, settings.limit = some limit → program.blueprints.length ≤ limit)
    (completed : ((origin.run (registrations program.blueprints)).step .finalize).1 = .ok .done) :
    ∃ platform, settings.platform = some platform ∧
      let start := Page.start existing
      let printer : Printer := {
        platform, stem := settings.stem, fanIn := fanIn (existing ++ program.blueprints) }
      ∃ lines page printed result final,
        printer.program program start = some (lines, page) ∧
        printer.region program.items .ordinary program.last start = some printed ∧
        ((origin.run (registrations program.blueprints)).step .finalize).2.step .generate =
          (.ok (.result result), final) ∧
        (final.render result = lines ∧ (∀ id, final.mention? id = (page.text id).map .code) ↔
          printer.Unrepeated program start) ∧
        ((∀ block ∈ printer.blocks program.items start, ¬ block.Cut) →
          final.render result =
            if Line.Repeats printed.2.1 printed.1 then lines.dropLast else lines) ∧
        ∃ shown, printer.abridged.program program start = some (final.render result, shown) ∧
          ∀ id, final.mention? id = (shown.text id).map .code := by
  obtain ⟨platform, hplatform, rfl⟩ := createWith_seeds created
  obtain ⟨context, journal, hregistered⟩ := @run_registrations existing program.blueprints []
    (Generator.ofStore settings platform (.ofDescriptions existing [])) rfl rfl
    (fun blueprint hblueprint => (program.blueprints_plain blueprint hblueprint).1)
    (fun limit hlimit => by rw [List.length_nil, Nat.zero_add]; exact fits limit hlimit)
  obtain ⟨htargets, hcompleted⟩ := step_finalize_of_ok completed
  rw [hcompleted]
  rw [hregistered] at htargets ⊢
  obtain ⟨rendered, shown, result, final, habridged, hgenerated, hrendered, hmentions⟩ :=
    generates_completed rfl htargets rfl rfl rfl rfl rfl presets reads
  refine ⟨platform, hplatform, ?_⟩
  intro start printer
  obtain ⟨printed, hregion⟩ := printer.exists_program presets reads
  have hprinted : printer.program program start =
      some (Line.finish printed.2.1 printed.1, printed.2.2) := by
    rw [Printer.program, hregion]
    rfl
  have habridged' : printer.abridged.program program start = some (rendered, shown) := habridged
  refine ⟨_, _, printed, result, final, hprinted, hregion, hgenerated, ?_, fun uncut => ?_, shown,
    by rw [hrendered]; exact habridged', hmentions⟩
  · have hsame : (∀ id, final.mention? id = (printed.2.2.text id).map .code) ↔
        shown.text = printed.2.2.text := by
      constructor
      · intro heach
        funext id
        exact Option.map_injective (fun _ _ => Compiled.code.inj)
          ((hmentions id).symm.trans (heach id))
      · intro heq id
        rw [hmentions id, heq]
    rw [hrendered, hsame]
    exact Printer.program_abridged_iff rfl hprinted habridged'
  · obtain ⟨printed', hregion', hlines⟩ := Printer.program_abridged rfl hprinted uncut
    obtain rfl : printed = printed' := Option.some.inj (hregion.symm.trans hregion')
    rw [hrendered]
    exact (Prod.mk.inj (Option.some.inj (habridged'.symm.trans hlines))).1

/-- A leaf over a pre-existing seed, a block that mentions it, and a last leaf that mentions it
again: the first leaf is worth a local, and no result repeats a block. -/
theorem generates_printed_program_nested :
    let existing : List (Blueprint Hook) :=
      [{ kind := "input", preset := some (.code "in"), hook := [] }]
    let call : Leaf := {
      kind := "call"
      edges := [⟨.arg 0, ⟨-1⟩⟩]
      pieces := [.text "f(", .input (.arg 0), .text ")"] }
    let closing : Leaf := {
      kind := "inner"
      edges := [⟨.arg 0, ⟨0⟩⟩]
      pieces := [.input (.arg 0), .text " + 1"] }
    let last : Leaf := {
      kind := "outer"
      edges := [⟨.arg 0, ⟨0⟩⟩]
      pieces := [.input (.arg 0), .text " + 2"] }
    let block : BlockHead := {
      kind := "block", before := "\x7b ", separator := "; ", after := " \x7d" }
    let program : Program := { items := .leaf call (.block block .nil closing .nil), last }
    let printer : Printer := {
      platform := .letBinding, stem := "s", fanIn := fanIn (existing ++ program.blueprints) }
    ∃ origin result final,
      createWith { platform := some .letBinding } (existing.map .seed) = .ok origin ∧
      ((origin.run (registrations program.blueprints)).step .finalize).2.step .generate =
        (.ok (.result result), final) ∧
      printer.Unrepeated program (Page.start existing) ∧
      final.render result = ["let s0 = f(in);", "\x7b s0 + 1 \x7d", "s0 + 2"] := by
  intro existing call closing last block program printer
  have created : createWith { platform := some .letBinding } (existing.map .seed) = .ok _ := rfl
  have reads : program.ReadsBackwards (-existing.length) := by
    simp [program, call, closing, last, existing, Program.ReadsBackwards, Items.ReadsBackwards,
      Leaf.ReadsBackwards, Leaf.dependencies, Dependencies.ofEdges, Dependencies.insert, Edge.put,
      Dependencies.get?, Dependencies.empty, Items.size]
  have hunrepeated : printer.Unrepeated program (Page.start existing) := by decide +kernel
  have hlines : (printer.program program (Page.start existing)).map Prod.fst =
      some ["let s0 = f(in);", "\x7b s0 + 1 \x7d", "s0 + 2"] := by decide +kernel
  obtain ⟨platform, hplatform, lines, page, printed, result, final, hprinted, -, hgenerated, hexact,
      -, -⟩ :=
    generates_printed_program created (by simp [existing]) reads (by simp) (by decide +kernel)
  obtain rfl : Platform.letBinding = platform := Option.some.inj hplatform
  refine ⟨_, result, final, rfl, hgenerated, hunrepeated, (hexact.2 hunrepeated).1.trans ?_⟩
  exact Option.some.inj ((congrArg (Option.map Prod.fst) hprinted).symm.trans hlines)

/-- A block and, behind it, a leaf that reads like the block: the line of the leaf, which is the
result of the program, is not rendered. -/
theorem repeated_result_left_out :
    let closing : Leaf := { kind := "closing", pieces := [.text "x"] }
    let last : Leaf := { kind := "last", pieces := [.text "\x7b x \x7d"] }
    let block : BlockHead := {
      kind := "block", before := "\x7b ", separator := "; ", after := " \x7d" }
    let program : Program := { items := .block block .nil closing .nil, last }
    let printer : Printer := {
      platform := .letBinding, stem := "s", fanIn := fanIn program.blueprints }
    let session := ((blank.run (registrations program.blueprints)).step .finalize).2
    program.ReadsBackwards 0 ∧
    ((blank.run (registrations program.blueprints)).step .finalize).1 = .ok .done ∧
    (printer.program program (Page.start [])).map Prod.fst =
      some ["\x7b x \x7d", "\x7b x \x7d"] ∧
    (session.step .generate).1 = .ok (.result (some (.code "\x7b x \x7d"))) ∧
    (session.step .generate).2.render (some (.code "\x7b x \x7d")) = ["\x7b x \x7d"] := by
  intro closing last block program printer session
  have reads : program.ReadsBackwards 0 := by
    simp [program, closing, last, Program.ReadsBackwards, Items.ReadsBackwards,
      Leaf.ReadsBackwards]
  exact ⟨reads, by decide +kernel, by decide +kernel, by decide +kernel, by decide +kernel⟩

end Session

end SeedGraph
