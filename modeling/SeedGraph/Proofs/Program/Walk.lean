import SeedGraph.Proofs.Program.Hooks

/-!
# Walking over a structured program

A walk goes over seeds by index and knows nothing about blocks.  It compiles the seed of a block,
whose hook walks over the items of the block; then it comes to those items itself, and passes over
each of them since it has a result.  So a walk over the seeds of a list of items agrees with
printing the list (`answers_walk_items`), whatever comes after it.

The statement is for a walk that goes on over `rest`, and for a printer that goes on with `next`:
items are always followed by something, and it is the whole of both that has to agree.
-/

namespace SeedGraph

/-! ### Consecutive identifiers -/

/-- The `count` identifiers from `index` on. -/
def SeedId.range (index : Int) (count : Nat) : List SeedId :=
  (List.range count).map fun k => ⟨index + (k : Nat)⟩

namespace SeedId

theorem range_succ (index : Int) (count : Nat) :
    range index (count + 1) = ⟨index⟩ :: range (index + 1) count := by
  unfold range
  rw [List.range_succ_eq_map, List.map_cons, List.map_map]
  congr 1
  · simp
  · apply List.map_congr_left
    intro k _
    simp only [Function.comp_apply, SeedId.mk.injEq]
    omega

theorem range_add (index : Int) (first second : Nat) :
    range index (first + second) = range index first ++ range (index + first) second := by
  induction first generalizing index with
  | zero => simp [range]
  | succ first ih =>
    rw [Nat.add_right_comm, range_succ, range_succ, ih, List.cons_append, Int.natCast_add,
      Int.natCast_one, Int.add_assoc index 1, Int.add_comm 1]

theorem getLast?_range (index : Int) (count : Nat) :
    (range index (count + 1)).getLast? = some ⟨index + count⟩ := by
  rw [range_add]
  simp [range]

theorem mem_range {index : Int} {count : Nat} {id : SeedId} :
    id ∈ range index count ↔ index ≤ id.index ∧ id.index < index + count := by
  unfold range
  rw [List.mem_map]
  constructor
  · rintro ⟨k, hk, rfl⟩
    have hlt := List.mem_range.1 hk
    simp only
    omega
  · rintro ⟨hlower, hupper⟩
    refine ⟨(id.index - index).toNat, List.mem_range.2 (by omega), ?_⟩
    cases id
    simp only [SeedId.mk.injEq] at hlower ⊢
    omega

end SeedId

/-- The stored identifiers are consecutive. -/
theorem Store.ids_eq_range {κ : Type} (store : Store κ) :
    store.ids = SeedId.range store.lower store.seeds.length := by
  unfold Store.ids SeedId.range
  apply List.map_congr_left
  intro k _
  exact store.idAt_eq k

/-- The identifiers from a stored one on are consecutive. -/
theorem Store.idsFrom_eq {κ : Type} (store : Store κ) {index : Int} (hlower : store.lower ≤ index)
    (hupper : index ≤ store.upper) :
    store.idsFrom ⟨index⟩ = SeedId.range index (store.upper - index).toNat := by
  have hlength : store.seeds.length =
      (index - store.lower).toNat + (store.upper - index).toNat := by
    have hall := store.upper_sub_lower
    omega
  have hstart : store.lower + ((index - store.lower).toNat : Int) = index := by omega
  unfold Store.idsFrom
  rw [store.ids_eq_range, hlength, SeedId.range_add, hstart, List.filter_append]
  have hbefore : (SeedId.range store.lower (index - store.lower).toNat).filter
      (fun id => decide (index ≤ id.index)) = [] := by
    rw [List.filter_eq_nil_iff]
    intro id hid
    have hrange := SeedId.mem_range.1 hid
    simp only [decide_eq_true_eq]
    omega
  have hafter : (SeedId.range index (store.upper - index).toNat).filter
      (fun id => decide (index ≤ id.index)) = SeedId.range index (store.upper - index).toNat := by
    rw [List.filter_eq_self]
    intro id hid
    simpa using (SeedId.mem_range.1 hid).1
  rw [hbefore, hafter, List.nil_append]

/-! ### Steps of a walk -/

namespace Generator

variable {compile : SeedId → GenM Hook Compiled} {gen : Session}

/-- A seed with a result is passed over. -/
theorem run_walk_of_mention {id : SeedId} {result : Compiled} (rest : List SeedId)
    (latest : Option Compiled) (mentioned : gen.mention? id = some result) :
    (walk compile (id :: rest) latest).run gen = (walk compile rest (some result)).run gen := by
  obtain ⟨slot, hslot, hcurrent⟩ := Option.bind_eq_some_iff.1 mentioned
  obtain ⟨seed, hstored, rfl⟩ := Option.map_eq_some_iff.1 hslot
  rw [walk, run_bind_ok (run_lookup_of_some hstored), hcurrent]

/-- Seeds with results are passed over, and the last of these results remains. -/
theorem run_walk_of_mentions (ids rest : List SeedId) (latest : Option Compiled)
    (mentioned : ∀ id ∈ ids, (gen.mention? id).isSome) :
    (walk compile (ids ++ rest) latest).run gen =
      (walk compile rest (ids.getLast?.elim latest gen.mention?)).run gen := by
  induction ids generalizing latest with
  | nil => rfl
  | cons id others ih =>
    obtain ⟨result, hresult⟩ := Option.isSome_iff_exists.1 (mentioned id (by simp))
    rw [List.cons_append, run_walk_of_mention _ _ hresult,
      ih _ fun other hother => mentioned other (List.mem_cons_of_mem _ hother)]
    cases others with
    | nil => rw [← hresult]; rfl
    | cons other others => rw [List.getLast?_cons_cons]; rfl

/-- A seed without a result is compiled, and ends the walk if it closes a region. -/
theorem run_walk_of_unset {id : SeedId} {seed : Seed Hook} (rest : List SeedId)
    (latest : Option Compiled) (stored : gen.store.get? id = some seed)
    (unset : seed.slot = .unset) :
    (walk compile (id :: rest) latest).run gen =
      (do
        let result ← compile id
        let seed ← lookup id
        if seed.boundary = Boundary.closes then return some result
        else walk compile rest (some result)).run gen := by
  rw [walk, run_bind_ok (run_lookup_of_some stored), unset]
  rfl

end Generator

/-! ### Agreement with the printer -/

namespace Generator

variable {origin gen : Session} {page : Page} {traversal : Traversal Hook}

/-- A seed that was planned is still looked up as planned. -/
theorem run_lookup_of_planned {id : SeedId} {seed : Seed Hook} (shows : Shows origin gen page)
    (planned : origin.plan id = some seed) :
    ∃ slot, (lookup id).run gen = .ok { seed with slot } gen := by
  obtain ⟨slot, hstored, -⟩ := shows.stored planned
  exact ⟨slot, run_lookup_of_some hstored⟩

/-- What a walk does at a seed whose compilation agrees with printing it: it goes on, unless the
seed closes a region. -/
theorem answers_walk_cons {β β' : Type} {seed : Seed Hook} {expected : Option β}
    {next : β → Option β'} {related : β → Compiled → Session → Prop}
    {related' : β' → Option Compiled → Session → Prop} (rest : List SeedId)
    (latest : Option Compiled)
    (shows : Shows origin gen page) (planned : origin.plan ⟨page.next⟩ = some seed)
    (compiled : Answers ((compile traversal ⟨page.next⟩).run gen) expected related)
    (shown : ∀ value result gen', related value result gen' → ∃ page', Shows origin gen' page')
    (ends : seed.boundary = .closes → ∀ value result gen', related value result gen' →
      Answers (.ok (some result) gen') (next value) related')
    (goesOn : seed.boundary ≠ .closes → ∀ value result gen', expected = some value →
      related value result gen' →
        Answers ((walk (compile traversal) rest (some result)).run gen') (next value) related') :
    Answers ((walk (compile traversal) (⟨page.next⟩ :: rest) latest).run gen) (expected.bind next)
      related' := by
  have hstored := shows.stored_unset planned (shows.fresh _ (Int.le_refl _))
  rw [run_walk_of_unset rest latest hstored rfl]
  refine compiled.bind fun value result gen' hexpected hrelated => ?_
  obtain ⟨page', hshows⟩ := shown value result gen' hrelated
  obtain ⟨slot, hlookup⟩ := run_lookup_of_planned hshows planned
  rw [run_bind_ok hlookup]
  by_cases hcloses : seed.boundary = .closes
  · rw [if_pos hcloses]
    exact ends hcloses value result gen' hrelated
  · rw [if_neg hcloses]
    exact goesOn hcloses value result gen' hexpected hrelated

/-- A walk ends with a leaf that closes a region, or that is the last seed of all. -/
theorem answers_walk_last {boundary : Boundary} {node : Leaf} {seed : Seed Hook}
    {rest : List SeedId} (latest : Option Compiled) (shows : Shows origin gen page)
    (planned : origin.plan ⟨page.next⟩ = some seed)
    (realizes : seed.Realizes (node.blueprint boundary)) (leaf : boundary ≠ .opens)
    (last : boundary = .closes ∨ rest = []) :
    Answers ((walk (compile traversal) (⟨page.next⟩ :: rest) latest).run gen)
      (origin.printer.leaf boundary node page) fun printed result gen' =>
        result = some (.code printed.1) ∧ Shows origin gen' printed.2.2 ∧
          Written gen gen' printed.2.1 := by
  rw [← Option.bind_fun_some (origin.printer.leaf boundary node page)]
  refine answers_walk_cons rest latest shows planned
    (answers_compile_leaf shows planned realizes leaf)
    (fun printed _ _ hcompiled => ⟨printed.2.2, hcompiled.2.1⟩) ?_ ?_
  · rintro - printed result gen' ⟨rfl, hshows, hwritten⟩
    exact ⟨_, _, rfl, rfl, hshows, hwritten⟩
  · rintro hcloses printed result gen' - ⟨rfl, hshows, hwritten⟩
    have hboundary : seed.boundary = boundary := realizes.boundary
    have hnil : rest = [] := last.resolve_left (by rw [← hboundary]; exact hcloses)
    rw [hnil]
    exact ⟨_, _, rfl, rfl, hshows, hwritten⟩

/-- A traversal does what its walk does. -/
theorem answers_traverseWith {β : Type} {compile : SeedId → GenM Hook Compiled}
    {initial : Option Compiled} {start : SeedId} {expected : Option β}
    {related : β → Option Compiled → Session → Prop}
    (complete : gen.finalized = true)
    (walked : Answers ((walk compile (gen.store.idsFrom start) initial).run
      (gen.noted .traversalBegan)) expected related) :
    Answers ((traverseWith compile initial start).run gen) expected fun value result gen' =>
      ∃ inside, related value result inside ∧ gen' = inside.noted (.traversalEnded none) := by
  have hfinalized : requireFinalized.run (gen.noted .traversalBegan) =
      .ok () (gen.noted .traversalBegan) := by
    rw [run_requireFinalized]
    exact if_pos complete
  have hwalk : (walkFrom compile initial start).run (gen.noted .traversalBegan) =
      (walk compile (gen.store.idsFrom start) initial).run (gen.noted .traversalBegan) := by
    rw [walkFrom, run_bind_ok hfinalized, run_get_bind]
    rfl
  cases expected with
  | none =>
    obtain ⟨failure, inside, hrun⟩ := walked
    exact ⟨_, _, run_traverseWith_error (hwalk.trans hrun)⟩
  | some value =>
    obtain ⟨result, inside, hrun, hrelated⟩ := walked
    exact ⟨_, _, run_traverseWith_ok (hwalk.trans hrun), inside, hrelated, rfl⟩

/-- A planned seed is stored. -/
theorem plan_range {id : SeedId} {seed : Seed Hook} (planned : gen.plan id = some seed) :
    gen.store.lower ≤ id.index ∧ id.index < gen.store.upper := by
  obtain ⟨found, hfound, -⟩ := Option.map_eq_some_iff.1 planned
  exact (gen.store.get?_isSome_iff id).1 (by rw [hfound]; rfl)

/-- **A walk over the seeds of `items`, with hooks `depth` deep, agrees with printing the items**:
if what comes after agrees for everything that the items can leave, the whole agrees. -/
def Walks (origin : Session) (depth : Nat) (items : Items) : Prop :=
  ∀ {β : Type} {gen : Session} {page : Page} {next : List Line × Page → Option β}
    {related : β → Option Compiled → Session → Prop} (rest : List SeedId)
    (latest : Option Compiled),
    origin.Laid page.next items.blueprints → Shows origin gen page →
    (∀ lines page' gen' latest', origin.printer.items items page = some (lines, page') →
      Shows origin gen' page' → Written gen gen' lines →
        Answers ((walk (compile (traverse depth)) rest latest').run gen') (next (lines, page'))
          related) →
    Answers
      ((walk (compile (traverse depth)) (SeedId.range page.next items.size ++ rest) latest).run
        gen)
      ((origin.printer.items items page).bind next) related

/-- The identifiers from `start` on: some that were passed, items, a last leaf, and what lies behind
it. -/
theorem idsFrom_split {start : Int} {size : Nat} (shows : Shows origin gen page)
    (hlower : origin.store.lower ≤ start) (hstart : start ≤ page.next)
    (hupper : page.next + size < origin.store.upper) :
    gen.store.idsFrom ⟨start⟩ = SeedId.range start (page.next - start).toNat ++
      (SeedId.range page.next size ++ ⟨page.next + size⟩ ::
        SeedId.range (page.next + size + 1)
          (origin.store.upper - (page.next + size + 1)).toNat) := by
  have hsame : gen.store.idsFrom ⟨start⟩ = origin.store.idsFrom ⟨start⟩ := by
    unfold Store.idsFrom
    rw [shows.same.ids]
  have hcount : (origin.store.upper - start).toNat = (page.next - start).toNat +
      (size + ((origin.store.upper - (page.next + size + 1)).toNat + 1)) := by omega
  have hnext : start + ((page.next - start).toNat : Int) = page.next := by omega
  rw [hsame, origin.store.idsFrom_eq hlower (by omega), hcount, SeedId.range_add, hnext,
    SeedId.range_add, SeedId.range_succ]

/-- A traversal does what its walk does: nothing that matters happens when it begins and ends. -/
theorem answers_traverse_of_walk {β : Type} {depth : Nat} {start : SeedId} {expected : Option β}
    {mention : β → String} {after : β → Page} {lines : β → List Line}
    (shows : Shows origin gen page) (walked : ∀ began, Shows origin began page →
      Answers ((walk (compile (traverse depth)) (gen.store.idsFrom start) none).run began) expected
        fun value result inside => result = some (.code (mention value)) ∧
          Shows origin inside (after value) ∧ Written began inside (lines value)) :
    Answers ((traverse (depth + 1) none start).run gen) expected fun value result gen' =>
      result = some (.code (mention value)) ∧ Shows origin gen' (after value) ∧
        Written gen gen' (lines value) := by
  have hbegan : Shows origin (gen.noted .traversalBegan) page :=
    shows.keep rfl rfl rfl rfl (List.Subset.refl _)
  refine (answers_traverseWith shows.same.complete (walked _ hbegan)).mono ?_
  rintro value result gen' ⟨inside, ⟨hresult, hshows, hwritten⟩, rfl⟩
  have hbegin : Written gen (gen.noted .traversalBegan) [] := .quiet rfl rfl rfl rfl
  have hend : Written inside (inside.noted (.traversalEnded none)) [] := .quiet rfl rfl rfl rfl
  refine ⟨hresult, hshows.keep rfl rfl rfl rfl (List.Subset.refl _), ?_⟩
  rw [← List.append_nil (lines value)]
  exact hbegin.trans (hwritten.trans hend)

/-- **A traversal of items and a last leaf agrees with printing them.**  Before the items it may
come to seeds that can be mentioned already. -/
theorem answers_traverse {depth : Nat} {start : Int} {body : Items} {boundary : Boundary}
    {closing : Leaf} (walks : Walks origin depth body) (shows : Shows origin gen page)
    (laid : origin.Laid page.next (body.blueprints ++ [closing.blueprint boundary]))
    (leaf : boundary ≠ .opens) (hlower : origin.store.lower ≤ start) (hstart : start ≤ page.next)
    (passed : ∀ id : SeedId, start ≤ id.index → id.index < page.next → (page.text id).isSome)
    (last : boundary = .closes ∨ origin.store.upper = page.next + body.size + 1) :
    Answers ((traverse (depth + 1) none ⟨start⟩).run gen)
      (origin.printer.region body boundary closing page) fun printed result gen' =>
        result = some (.code printed.1) ∧ Shows origin gen' printed.2.2 ∧
          Written gen gen' printed.2.1 := by
  obtain ⟨hbody, hclosing⟩ := laid.append
  obtain ⟨seed, hplanned, hrealizes⟩ := hclosing.head
  rw [Items.length_blueprints] at hplanned
  refine answers_traverse_of_walk shows fun began hbegan => ?_
  rw [idsFrom_split shows hlower hstart (plan_range hplanned).2, run_walk_of_mentions]
  · refine walks _ _ hbody hbegan fun lines page' gen' latest' hprinted hshows hwritten => ?_
    have hnext : page'.next = page.next + body.size := (Printer.grows_items hprinted).next
    rw [← hnext] at hplanned ⊢
    refine (answers_walk_last latest' hshows hplanned hrealizes leaf ?_).map _ ?_
    · refine last.imp id fun hupper => ?_
      rw [hnext, hupper, Int.sub_self]
      rfl
    · rintro ⟨mention, more, page''⟩ result gen'' ⟨rfl, hshows', hwritten'⟩
      exact ⟨rfl, hshows', hwritten.trans hwritten'⟩
  · intro id hid
    have hrange := SeedId.mem_range.1 hid
    rw [hbegan.mentions, Option.isSome_map]
    exact passed id hrange.1 (by omega)

/-! ### Blocks -/

/-- What was written in a nested region is not written around it, and it can be rendered. -/
theorem written_region {gen' : Session} {lines : List Line} {result : String}
    (written : Written gen.openRegion gen' lines) :
    Written gen (gen'.closeRegion (regionSince gen gen' (some (.code result)))) [] ∧
      (gen'.closeRegion (regionSince gen gen' (some (.code result)))).renderRegion
        (regionSince gen gen' (some (.code result))) = Line.abridge lines result := by
  obtain ⟨added, hadded, hdeep, hlines⟩ := written.emissions
  have hdepth : gen'.regionDepth = gen.regionDepth + 1 := written.depth
  have hplatform : gen'.platform = gen.platform := written.platform
  constructor
  · refine ⟨written.running, ?_, hplatform, added, hadded, fun emission hemission => ?_, ?_⟩
    · show gen'.regionDepth - 1 = gen.regionDepth
      omega
    · obtain ⟨hinside, hcode⟩ := hdeep emission hemission
      have hinside' : gen.regionDepth + 1 ≤ emission.depth := hinside
      exact ⟨by omega, hcode⟩
    · rw [List.map_eq_nil_iff, List.filter_eq_nil_iff]
      intro emission hemission
      have hinside : gen.regionDepth + 1 ≤ emission.depth := (hdeep emission hemission).1
      simp only [decide_eq_true_eq]
      omega
  -- The statements of the region are those emitted one level deeper; deeper ones are inside of
  -- blocks.
  · have hemissions : gen'.emissions = gen.emissions ++ added := hadded
    have hstatements : (regionSince gen gen' (some (.code result))).statements =
        (added.filter fun emission => emission.depth = gen.regionDepth + 1).map
          Emission.statement := by
      unfold regionSince emittedSince
      dsimp only
      rw [hemissions, List.drop_left, hdepth]
    have hprinted : (regionSince gen gen' (some (.code result))).statements.map gen.platform.print =
        lines := by
      rw [hstatements, List.map_map, ← hlines]
      rfl
    rw [renderRegion, ← hprinted]
    show gen'.platform.lines _ (some (.code result)) = _
    rw [hplatform]
    refine gen.platform.lines_eq_abridge (fun statement hstatement => ?_) result
    rw [hstatements] at hstatement
    obtain ⟨emission, hemission, rfl⟩ := List.mem_map.1 hstatement
    exact (hdeep emission (List.mem_filter.1 hemission).1).2

/-- The generation of a nested region agrees with printing it. -/
theorem answers_generateRegion {depth : Nat} {body : Items} {closing : Leaf}
    (walks : Walks origin depth body) (shows : Shows origin gen page)
    (laid : origin.Laid page.next (body.blueprints ++ [closing.blueprint .closes]))
    (hlower : origin.store.lower ≤ page.next) :
    Answers ((generateRegion (traverse (depth + 1)) ⟨page.next⟩).run gen)
      (origin.printer.region body .closes closing page) fun printed region gen' =>
        Shows origin gen' printed.2.2 ∧ Written gen gen' [] ∧
          gen'.renderRegion region = Line.abridge printed.2.1 printed.1 := by
  have hopened : Shows origin gen.openRegion page :=
    shows.keep rfl rfl rfl rfl (List.Subset.refl _)
  have htraversed := answers_traverse walks hopened laid (by simp) hlower (Int.le_refl _)
    (fun id hid hid' => by omega) (.inl rfl)
  cases hprinted : origin.printer.region body .closes closing page with
  | none =>
    rw [hprinted] at htraversed
    obtain ⟨failure, gen', hrun⟩ := htraversed
    exact ⟨_, _, run_generateRegion_error hrun⟩
  | some printed =>
    rw [hprinted] at htraversed
    obtain ⟨result, gen', hrun, rfl, hshows, hwritten⟩ := htraversed
    obtain ⟨hquiet, hrendered⟩ := written_region hwritten
    exact ⟨_, _, run_generateRegion_ok hrun, hshows.keep rfl rfl rfl rfl (List.Subset.refl _),
      hquiet, hrendered⟩

/-- The text of a printed block. -/
def blockText (head : BlockHead) (printed : String × List Line × Page) : String :=
  head.wrap (Line.abridge printed.2.1 printed.1)

/-- The end of the hook of a block emits it. -/
theorem concluded_block {head : BlockHead} {seed : Seed Hook} {id : SeedId}
    (shows : Shows origin gen page) (earlier : id.index < page.next)
    (stored : gen.store.get? id = some { seed with slot := .unset })
    (realizes : seed.Realizes head.blueprint) (text : String) :
    Shows origin (gen.concluded id { seed with slot := .unset } text) (page.write id text) ∧
      Written gen (gen.concluded id { seed with slot := .unset } text) [⟨text, true⟩] := by
  obtain ⟨hshows, hquiet⟩ := shows.announced stored earlier text
  have hopens : seed.boundary = .opens := realizes.boundary
  have hpolicy :
      shouldBind seed.bindingWish seed.boundary seed.mode seed.referents.length = false := by
    rw [hopens, realizes.bindingWish]
    unfold BlockHead.blueprint
    dsimp only
    cases head.unbound <;> rfl
  have hcode : (Statement.block id (.code text)).IsCode := ⟨text, rfl⟩
  unfold concluded settled
  dsimp only
  rw [hpolicy, if_neg (by simp), if_pos hopens]
  exact ⟨hshows.keep rfl rfl rfl rfl (List.Subset.refl _), hquiet.trans (.emitted _ hcode)⟩

/-- The hook of a block up to its end: the text of the block is gathered. -/
theorem answers_block_lines {depth : Nat} {head : BlockHead} {body : Items} {closing : Leaf}
    (walks : Walks origin depth body) (shows : Shows origin gen page.advance)
    (laid : origin.Laid page.advance.next (body.blueprints ++ [closing.blueprint .closes]))
    (hlower : origin.store.lower ≤ page.advance.next) :
    Answers ((Hook.run (traverse (depth + 1))
        [.text head.before, .region .afterSelf head.separator, .text head.after]).run
          { id := ⟨page.next⟩, generator := gen })
      (origin.printer.region body .closes closing page.advance) fun printed _ cx =>
        ∃ gen', cx = { id := ⟨page.next⟩, buffer := blockText head printed, generator := gen' } ∧
          Shows origin gen' printed.2.2 ∧ Written gen gen' [] := by
  have hregion := answers_generateRegion walks shows laid hlower
  have hbefore : (Action.run (traverse (depth + 1)) (.text head.before)).run
      { id := ⟨page.next⟩, generator := gen } =
        .ok () { id := ⟨page.next⟩, buffer := "" ++ head.before, generator := gen } := rfl
  rw [Hook.run, forM_cons, run_bind_ok hbefore, forM_cons, String.empty_append, Action.run,
    bind_assoc, run_get_bind]
  cases hprinted : origin.printer.region body .closes closing page.advance with
  | none =>
    rw [hprinted] at hregion
    obtain ⟨failure, gen', hrun⟩ := hregion
    rw [bind_assoc, run_bind_error (Compilation.run_onGenerator_error hrun)]
    exact ⟨failure, _, rfl⟩
  | some printed =>
    rw [hprinted] at hregion
    obtain ⟨region, gen', hrun, hshows, hquiet, hrendered⟩ := hregion
    rw [bind_assoc, run_bind_ok (Compilation.run_onGenerator_ok hrun), bind_assoc, run_get_bind]
    dsimp only
    rw [hrendered]
    exact ⟨(), _, rfl, gen', rfl, hshows, hquiet⟩

/-- **Compiling a block agrees with printing it.** -/
theorem answers_compile_block {depth : Nat} {head : BlockHead} {body : Items} {closing : Leaf}
    {seed : Seed Hook} (walks : Walks origin depth body) (shows : Shows origin gen page)
    (planned : origin.plan ⟨page.next⟩ = some seed) (realizes : seed.Realizes head.blueprint)
    (laid : origin.Laid page.advance.next (body.blueprints ++ [closing.blueprint .closes])) :
    Answers ((compile (traverse (depth + 1)) ⟨page.next⟩).run gen)
      (origin.printer.region body .closes closing page.advance) fun printed result gen' =>
        result = .code (blockText head printed) ∧
        Shows origin gen' (printed.2.2.write ⟨page.next⟩ (blockText head printed)) ∧
        Written gen gen' [⟨blockText head printed, true⟩] := by
  have hunset : page.text ⟨page.next⟩ = none := shows.fresh _ (Int.le_refl _)
  have hstored := shows.stored_unset planned hunset
  have hidle : ⟨page.next⟩ ∉ gen.running := fun hrunning =>
    absurd (shows.running _ hrunning) (Int.lt_irrefl _)
  have hlower : origin.store.lower ≤ page.advance.next := by
    have hrange := (plan_range planned).1
    simp only [Page.advance] at hrange ⊢
    omega
  have hhook : Answers ((Hook.run (traverse (depth + 1)) seed.hook).run
      { id := ⟨page.next⟩, generator := gen.entered ⟨page.next⟩ })
      (origin.printer.region body .closes closing page.advance) fun printed _ cx =>
        cx.continuations = 1 ∧
        cx.generator.mention? ⟨page.next⟩ = some (.code (blockText head printed)) ∧
        Shows origin cx.generator (printed.2.2.write ⟨page.next⟩ (blockText head printed)) ∧
        Written (gen.entered ⟨page.next⟩) cx.generator [⟨blockText head printed, true⟩] := by
    rw [realizes.hook, ← Option.bind_fun_some (origin.printer.region body .closes closing _)]
    show Answers ((Hook.run _ ([.text head.before, .region .afterSelf head.separator,
      .text head.after] ++ [.setResult, .proceed])).run _) _ _
    rw [Hook.run_append]
    refine (answers_block_lines walks shows.entered laid hlower).bind
      fun printed _ cx hprinted hlines => ?_
    obtain ⟨gen', rfl, hshows, hquiet⟩ := hlines
    -- The block itself was not touched while its region was generated.
    have hgrows := Printer.grows_region hprinted
    have hearlier : (⟨page.next⟩ : SeedId).index < page.advance.next := by
      simp only [Page.advance]
      omega
    have hunset' : printed.2.2.text ⟨page.next⟩ = none := (hgrows.earlier _ hearlier).trans hunset
    have hstored' := hshows.stored_unset planned hunset'
    have hnext := hgrows.next
    obtain ⟨hend, hwritten⟩ := concluded_block hshows (by omega) hstored' realizes
      (blockText head printed)
    have hmention := hend.mentions ⟨page.next⟩
    rw [show (printed.2.2.write ⟨page.next⟩ (blockText head printed)).text ⟨page.next⟩ =
      some (blockText head printed) from if_pos rfl] at hmention
    exact ⟨(), _, Hook.run_ending hshows.same.complete rfl hstored' rfl, rfl, hmention, hend,
      hquiet.trans hwritten⟩
  have hcompiled := answers_compile (blockText head)
    (fun printed inside =>
      Shows origin inside (printed.2.2.write ⟨page.next⟩ (blockText head printed)) ∧
        Written (gen.entered ⟨page.next⟩) inside [⟨blockText head printed, true⟩])
    hidle hstored hhook
  refine hcompiled.mono fun printed result gen' hend => ?_
  obtain ⟨hresult, inside, ⟨hshows, hwritten⟩, rfl⟩ := hend
  exact ⟨hresult, shows_closed hshows _, written_closed hidle hwritten⟩

/-- A block and the items after it are printed one after the other. -/
theorem items_block_printer (origin : Session) (head : BlockHead) (body : Items) (closing : Leaf)
    (others : Items) (page : Page) :
    origin.printer.items (.block head body closing others) page =
      (origin.printer.region body .closes closing page.advance).bind fun printed =>
        (origin.printer.items others (printed.2.2.write ⟨page.next⟩ (blockText head printed))).bind
          fun more => some (⟨blockText head printed, true⟩ :: more.1, more.2) :=
  origin.printer.items_block_eq head body closing others page

/-- **A walk over the seeds of items agrees with printing them**, if hooks may run inside one
another as deeply as blocks do. -/
theorem walks_items {items : Items} {depth : Nat} (deep : items.height ≤ depth) :
    Walks origin depth items := by
  induction items generalizing depth with
  | nil =>
    intro β gen page next related rest latest _ shows goesOn
    exact goesOn [] page gen latest rfl shows (.quiet rfl rfl rfl rfl)
  | leaf node others ih =>
    intro β gen page next related rest latest laid shows goesOn
    obtain ⟨seed, hplanned, hrealizes⟩ := laid.head
    have hleaf : seed.boundary ≠ .closes := by
      rw [show seed.boundary = .ordinary from hrealizes.boundary]
      simp
    rw [Items.size, Nat.add_comm, SeedId.range_succ, List.cons_append, Printer.items_leaf,
      Option.bind_assoc]
    refine answers_walk_cons _ latest shows hplanned
      (answers_compile_leaf shows hplanned hrealizes (by simp))
      (fun printed _ _ hcompiled => ⟨printed.2.2, hcompiled.2.1⟩)
      (fun hcloses => absurd hcloses hleaf) ?_
    rintro - ⟨mention, lines, page'⟩ result gen' hprinted ⟨rfl, hshows, hwritten⟩
    have hnext : page'.next = page.next + 1 := (Printer.grows_leaf hprinted).1.next
    rw [Option.bind_assoc, ← hnext]
    refine ih deep rest _ (by rw [hnext]; exact laid.tail) hshows
      fun more page'' gen'' latest' hmore hshows' hwritten' => ?_
    refine goesOn (lines ++ more) page'' gen'' latest' ?_ hshows' (hwritten.trans hwritten')
    rw [Printer.items_leaf, hprinted, Option.bind_some, hmore]
    rfl
  | block head body closing others ihBody ihOthers =>
    intro β gen page next related rest latest laid shows goesOn
    rw [Items.height] at deep
    -- The hook of the block runs a traversal of its own, so one level of depth is used up.
    obtain ⟨depth, rfl⟩ : ∃ depth', depth = depth' + 1 := ⟨depth - 1, by omega⟩
    obtain ⟨seed, hplanned, hrealizes⟩ := laid.head
    have hinside : origin.Laid (page.next + 1)
        ((body.blueprints ++ [closing.blueprint .closes]) ++ others.blueprints) := by
      rw [List.append_assoc]
      exact laid.tail
    obtain ⟨hregion, hothers⟩ := hinside.append
    rw [List.length_append, List.length_singleton, Items.length_blueprints] at hothers
    have hopens : seed.boundary ≠ .closes := by
      rw [show seed.boundary = .opens from hrealizes.boundary]
      simp
    have hsize : 1 + (body.size + (1 + others.size)) = (body.size + 1) + others.size + 1 := by omega
    rw [Items.size, hsize, SeedId.range_succ, SeedId.range_add, List.cons_append, List.append_assoc,
      items_block_printer, Option.bind_assoc]
    refine answers_walk_cons _ latest shows hplanned
      (answers_compile_block (ihBody (by omega)) shows hplanned hrealizes hregion)
      (fun printed _ _ hcompiled => ⟨_, hcompiled.2.1⟩) (fun hcloses => absurd hcloses hopens) ?_
    rintro - printed result gen' hprinted ⟨rfl, hshows, hwritten⟩
    have hgrows := (Printer.grows_region hprinted).enclose (blockText head printed)
    have hnext := hgrows.next
    have hindex : page.next + 1 + ((body.size + 1 : Nat) : Int) =
        (printed.2.2.write ⟨page.next⟩ (blockText head printed)).next := by omega
    -- The walk comes to the seeds of the block, which all have results by now.
    rw [run_walk_of_mentions]
    · rw [Option.bind_assoc, hindex]
      refine ihOthers (by omega) rest _ (by rw [← hindex]; exact hothers) hshows
        fun more page'' gen'' latest' hmore hshows' hwritten' => ?_
      refine goesOn (⟨blockText head printed, true⟩ :: more) page'' gen'' latest' ?_ hshows'
        (hwritten.trans hwritten')
      rw [items_block_printer, hprinted, Option.bind_some, hmore]
      rfl
    · intro id hid
      have hrange := SeedId.mem_range.1 hid
      rw [hshows.mentions, Option.isSome_map]
      exact hgrows.printed id (by omega) (by omega)

end Generator

end SeedGraph
