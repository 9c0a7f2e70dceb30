import SeedGraph.Proofs.Program.Printer

/-!
# Results that repeat a block

A printer ends every region with the line of its result.  Its abridged form leaves this line out
where it would repeat the block printed last.  This module says what comes of that.

* `Printer.blocks`: the blocks of a list of items, each with what is printed inside of it.
* `PrintedBlock.Cut`: leaving out the result makes the text of the block another one.
* `Printer.items_abridged`: as long as no block is cut, both printers do the same.
* `Printer.not_cut_of_text_eq`: if every seed is mentioned by both in the same way, no block is cut.

The first block that is cut is mentioned differently, so the two statements together are exact.
-/

namespace SeedGraph

/-! ### The end of a region -/

namespace Line

theorem abridge_of_not_repeats {lines : List Line} {result : String}
    (h : ¬ Repeats lines result) : abridge lines result = finish lines result := by
  rw [abridge, if_neg h, finish]

/-- A repeated result is the one line that is left out. -/
theorem finish_of_repeats {lines : List Line} {result : String} (h : Repeats lines result) :
    finish lines result = abridge lines result ++ [result] := by
  rw [abridge, if_pos h, List.append_nil, finish]

theorem abridge_eq (lines : List Line) (result : String) :
    abridge lines result =
      if Repeats lines result then (finish lines result).dropLast else finish lines result := by
  by_cases h : Repeats lines result
  · rw [if_pos h, finish_of_repeats h, List.dropLast_concat]
  · rw [if_neg h, abridge_of_not_repeats h]

theorem abridge_eq_finish_iff {lines : List Line} {result : String} :
    abridge lines result = finish lines result ↔ ¬ Repeats lines result := by
  refine ⟨fun heq h => ?_, abridge_of_not_repeats⟩
  rw [finish_of_repeats h] at heq
  have hlength := congrArg List.length heq
  rw [List.length_append, List.length_singleton] at hlength
  omega

end Line

/-! ### Blocks -/

/-- A block with what is printed inside of it. -/
structure PrintedBlock where
  /-- The texts around and between the lines. -/
  head : BlockHead
  /-- The lines, without that of the result. -/
  lines : List Line
  /-- The result of the region. -/
  result : String

namespace PrintedBlock

/-- The block has another text if its result is left out where it repeats the block printed last:
it would have been joined to the lines by a separator, and these two texts are not both empty. -/
def Cut (block : PrintedBlock) : Prop :=
  Line.Repeats block.lines block.result ∧ (block.head.separator ≠ "" ∨ block.result ≠ "")

instance (block : PrintedBlock) : Decidable block.Cut :=
  inferInstanceAs (Decidable (_ ∧ _))

/-- **A block has the same text with and without a repeated result just if it is not cut.** -/
theorem wrap_abridge_eq_iff (block : PrintedBlock) :
    block.head.wrap (Line.abridge block.lines block.result) =
      block.head.wrap (Line.finish block.lines block.result) ↔ ¬ block.Cut := by
  by_cases hrepeats : Line.Repeats block.lines block.result
  · have hlast : Line.abridge block.lines block.result ≠ [] := by
      obtain ⟨front, hfront⟩ := List.getLast?_eq_some_iff.1 hrepeats
      rw [Line.abridge, hfront]
      simp
    have hjoined : block.head.separator.intercalate (Line.finish block.lines block.result) =
        block.head.separator.intercalate (Line.abridge block.lines block.result) ++
          block.head.separator ++ block.result := by
      rw [Line.finish_of_repeats hrepeats, String.intercalate_append_of_ne_nil hlast (by simp),
        String.intercalate_singleton]
    have hcut : ¬ block.Cut ↔ block.head.separator = "" ∧ block.result = "" := by
      simp [Cut, hrepeats]
    rw [hcut, BlockHead.wrap, BlockHead.wrap, hjoined]
    constructor
    · intro heq
      have hlength := congrArg String.length heq
      simp only [String.length_append] at hlength
      exact ⟨String.length_eq_zero_iff.1 (by omega), String.length_eq_zero_iff.1 (by omega)⟩
    · rintro ⟨hseparator, hresult⟩
      rw [hseparator, hresult, String.append_empty, String.append_empty]
  · rw [Line.abridge_of_not_repeats hrepeats]
    simp [Cut, hrepeats]

end PrintedBlock

namespace Printer

/-- The blocks of a list of items as they are printed, inner ones before those around them. -/
def blocks (printer : Printer) : Items → Page → List PrintedBlock
  | .nil, _ => []
  | .leaf node rest, page =>
    match printer.leaf .ordinary node page with
    | some (_, _, page') => printer.blocks rest page'
    | none => []
  | .block head body closing rest, page =>
    printer.blocks body page.advance ++
      match printer.region body .closes closing page.advance with
      | some (result, lines, page') =>
        ⟨head, lines, result⟩ :: printer.blocks rest
          (page'.write ⟨page.next⟩ (head.wrap (printer.finish lines result)))
      | none => []

variable {printer : Printer}

theorem blocks_leaf {node : Leaf} {rest : Items} {page page' : Page} {mention : String}
    {lines : List Line} (h : printer.leaf .ordinary node page = some (mention, lines, page')) :
    printer.blocks (.leaf node rest) page = printer.blocks rest page' := by
  rw [blocks, h]

theorem blocks_block {head : BlockHead} {body : Items} {closing : Leaf} {rest : Items}
    {page page' : Page} {result : String} {lines : List Line}
    (h : printer.region body .closes closing page.advance = some (result, lines, page')) :
    printer.blocks (.block head body closing rest) page =
      printer.blocks body page.advance ++ ⟨head, lines, result⟩ ::
        printer.blocks rest
          (page'.write ⟨page.next⟩ (head.wrap (printer.finish lines result))) := by
  rw [blocks, h]

/-- Leaves are printed alike. -/
theorem leaf_abridged (printer : Printer) : printer.abridged.leaf = printer.leaf := rfl

theorem region_congr {other : Printer} {body : Items} {page : Page}
    (items : other.items body page = printer.items body page) (leaf : other.leaf = printer.leaf)
    (boundary : Boundary) (closing : Leaf) :
    other.region body boundary closing page = printer.region body boundary closing page := by
  rw [region, region, items, leaf]

/-! ### Printers that agree -/

section

variable (direct : printer.finish = Line.finish)

include direct

/-- **As long as no block is cut, leaving out repeated results changes nothing.** -/
theorem items_abridged {items : Items} {page : Page}
    (uncut : ∀ block ∈ printer.blocks items page, ¬ block.Cut) :
    printer.abridged.items items page = printer.items items page := by
  induction items generalizing page with
  | nil => rfl
  | leaf node rest ih =>
    rw [items_leaf, items_leaf, leaf_abridged]
    cases hleaf : printer.leaf .ordinary node page with
    | none => rfl
    | some printed =>
      rw [blocks_leaf hleaf] at uncut
      rw [Option.bind_some, Option.bind_some, ih uncut]
  | block head body closing rest ihBody ihRest =>
    rw [items_block_eq, items_block_eq, region_congr (ihBody fun block mem =>
      uncut block (List.mem_append_left _ mem)) (leaf_abridged printer)]
    cases hregion : printer.region body .closes closing page.advance with
    | none => rfl
    | some printed =>
      obtain ⟨result, lines, page'⟩ := printed
      rw [blocks_block hregion] at uncut
      have hsame : head.wrap (printer.abridged.finish lines result) =
          head.wrap (printer.finish lines result) := by
        rw [direct]
        exact (PrintedBlock.wrap_abridge_eq_iff ⟨head, lines, result⟩).2
          (uncut _ (List.mem_append_right _ List.mem_cons_self))
      rw [Option.bind_some, Option.bind_some]
      dsimp only
      rw [hsame, ihRest fun block mem =>
        uncut block (List.mem_append_right _ (List.mem_cons_of_mem _ mem))]

theorem region_abridged {body : Items} {page : Page}
    (uncut : ∀ block ∈ printer.blocks body page, ¬ block.Cut) (boundary : Boundary)
    (closing : Leaf) :
    printer.abridged.region body boundary closing page =
      printer.region body boundary closing page :=
  region_congr (items_abridged direct uncut) (leaf_abridged printer) boundary closing

end

end Printer

/-- Two ways to print the same number of seeds from one page on leave the same texts if they agree
on these seeds. -/
theorem Page.Grows.text_eq {page page' page'' : Page} {count : Nat} (h : page.Grows page' count)
    (h' : page.Grows page'' count) (inside : ∀ id : SeedId, page.next ≤ id.index →
      id.index < page'.next → page'.text id = page''.text id) : page'.text = page''.text := by
  have hnext : page''.next = page'.next := h'.next.trans h.next.symm
  funext id
  by_cases hearlier : id.index < page.next
  · rw [h.earlier id hearlier, h'.earlier id hearlier]
  · by_cases hlater : page'.next ≤ id.index
    · rw [h.later id hlater, h'.later id (by omega)]
    · exact inside id (by omega) (by omega)

namespace Printer

variable {printer : Printer}

/-- What is left of a region when all is printed: the items before its last leaf are mentioned as
they were. -/
theorem exists_items_of_region {body : Items} {boundary : Boundary} {closing : Leaf} {page : Page}
    {printed : String × List Line × Page}
    (h : printer.region body boundary closing page = some printed) :
    ∃ lines inner, printer.items body page = some (lines, inner) ∧
      ∀ id : SeedId, id.index < inner.next → printed.2.2.text id = inner.text id := by
  obtain ⟨⟨lines, inner⟩, hbody, hlast⟩ := Option.bind_eq_some_iff.1 h
  obtain ⟨⟨mention, more, final⟩, hleaf, rfl⟩ := Option.map_eq_some_iff.1 hlast
  exact ⟨lines, inner, hbody, (grows_leaf hleaf).1.earlier⟩

/-- Two printers that mention the seeds of a region alike mention those before its last leaf
alike. -/
theorem text_items_eq {other : Printer} {body : Items} {boundary : Boundary} {closing : Leaf}
    {page : Page} {printed printed' : String × List Line × Page}
    (h : printer.region body boundary closing page = some printed)
    (h' : other.region body boundary closing page = some printed')
    (same : ∀ id : SeedId, page.next ≤ id.index → id.index < printed.2.2.next →
      printed'.2.2.text id = printed.2.2.text id) :
    ∃ lines inner lines' inner', printer.items body page = some (lines, inner) ∧
      other.items body page = some (lines', inner') ∧ inner'.text = inner.text := by
  obtain ⟨lines, inner, hbody, hkept⟩ := exists_items_of_region h
  obtain ⟨lines', inner', hbody', hkept'⟩ := exists_items_of_region h'
  have hgrows := grows_items hbody
  have hgrows' := grows_items hbody'
  have hnext : printed.2.2.next = page.next + ((body.size + 1 : Nat) : Int) := (grows_region h).next
  have hinner : inner'.next = inner.next := hgrows'.next.trans hgrows.next.symm
  refine ⟨lines, inner, lines', inner', hbody, hbody',
    hgrows'.text_eq hgrows fun id hlow hhigh => ?_⟩
  have hsize := hgrows.next
  rw [← hkept' id hhigh, ← hkept id (by omega)]
  exact same id hlow (by omega)

/-- What is left of a leaf and the items after it. -/
theorem exists_of_items_leaf {node : Leaf} {rest : Items} {page page' : Page} {lines : List Line}
    (h : printer.items (.leaf node rest) page = some (lines, page')) :
    ∃ printed more, printer.leaf .ordinary node page = some printed ∧
      printer.items rest printed.2.2 = some (more, page') := by
  rw [items_leaf] at h
  obtain ⟨printed, hleaf, hrest⟩ := Option.bind_eq_some_iff.1 h
  obtain ⟨⟨more, final⟩, hmore, hresult⟩ := Option.bind_eq_some_iff.1 hrest
  obtain rfl : final = page' := (Prod.mk.inj (Option.some.inj hresult)).2
  exact ⟨printed, more, hleaf, hmore⟩

/-- What is left of a block and the items after it: in the end the block is mentioned by its text,
and the seeds inside of it as they were when its region was done. -/
theorem exists_of_items_block {head : BlockHead} {body : Items} {closing : Leaf} {rest : Items}
    {page page' : Page} {lines : List Line}
    (h : printer.items (.block head body closing rest) page = some (lines, page')) :
    ∃ printed more, printer.region body .closes closing page.advance = some printed ∧
      printer.items rest (printed.2.2.write ⟨page.next⟩
        (head.wrap (printer.finish printed.2.1 printed.1))) = some (more, page') ∧
      page'.text ⟨page.next⟩ = some (head.wrap (printer.finish printed.2.1 printed.1)) ∧
      ∀ id : SeedId, page.advance.next ≤ id.index → id.index < printed.2.2.next →
        page'.text id = printed.2.2.text id := by
  rw [items_block_eq] at h
  obtain ⟨printed, hregion, hrest⟩ := Option.bind_eq_some_iff.1 h
  obtain ⟨⟨more, final⟩, hmore, hresult⟩ := Option.bind_eq_some_iff.1 hrest
  obtain rfl : final = page' := (Prod.mk.inj (Option.some.inj hresult)).2
  have hkept := (grows_items hmore).earlier
  have hfirst : page.advance.next = page.next + 1 := rfl
  have hnext := (grows_region hregion).next
  refine ⟨printed, more, hregion, hmore, ?_, fun id hlow hhigh => ?_⟩
  · refine (hkept ⟨page.next⟩ ?_).trans (if_pos rfl)
    show page.next < printed.2.2.next
    omega
  · refine (hkept id hhigh).trans (if_neg ?_)
    rintro rfl
    dsimp only at hlow
    omega

section

variable (direct : printer.finish = Line.finish)

include direct

/-- **If all seeds are mentioned alike, no block is cut.** -/
theorem not_cut_of_text_eq {items : Items} {page page' page'' : Page} {lines lines' : List Line}
    (h : printer.items items page = some (lines, page'))
    (h' : printer.abridged.items items page = some (lines', page''))
    (same : page''.text = page'.text) :
    ∀ block ∈ printer.blocks items page, ¬ block.Cut := by
  induction items generalizing page page' page'' lines lines' with
  | nil =>
    intro block mem
    exact absurd mem List.not_mem_nil
  | leaf node rest ih =>
    obtain ⟨printed, more, hleaf, hmore⟩ := exists_of_items_leaf h
    obtain ⟨printed', more', hleaf', hmore'⟩ := exists_of_items_leaf h'
    obtain rfl : printed = printed' := Option.some.inj (hleaf.symm.trans hleaf')
    rw [blocks_leaf hleaf]
    exact ih hmore hmore' same
  | block head body closing rest ihBody ihRest =>
    obtain ⟨printed, more, hregion, hmore, htext, hinside⟩ := exists_of_items_block h
    obtain ⟨printed', more', hregion', hmore', htext', hinside'⟩ := exists_of_items_block h'
    have hnext : printed'.2.2.next = printed.2.2.next :=
      (grows_region hregion').next.trans (grows_region hregion).next.symm
    obtain ⟨bodyLines, bodyPage, bodyLines', bodyPage', hbody, hbody', hsame⟩ :=
      text_items_eq hregion hregion' fun id hlow hhigh => by
        rw [← hinside id hlow hhigh, ← hinside' id hlow (by rw [hnext]; exact hhigh), same]
    have huncut := ihBody hbody hbody' hsame
    -- The region was printed alike, so only the text of the block itself is in question.
    rw [region_abridged direct huncut, hregion] at hregion'
    obtain rfl : printed = printed' := Option.some.inj hregion'
    have hwrap : head.wrap (Line.abridge printed.2.1 printed.1) =
        head.wrap (printer.finish printed.2.1 printed.1) := by
      rw [same, htext] at htext'
      exact (Option.some.inj htext').symm
    rw [blocks_block hregion]
    intro block mem
    rcases List.mem_append.1 mem with hmem | hmem
    · exact huncut block hmem
    rcases List.mem_cons.1 hmem with rfl | hmem
    · rw [direct] at hwrap
      exact (PrintedBlock.wrap_abridge_eq_iff ⟨head, printed.2.1, printed.1⟩).1 hwrap
    · rw [show printer.abridged.finish = Line.abridge from rfl, hwrap] at hmore'
      exact ihRest hmore hmore' same block hmem

end

/-! ### Programs -/

/-- No result of the program is left out for repeating a block, as far as that makes a difference:
no block is cut, and the result of the program does not repeat the block printed last. -/
structure Unrepeated (printer : Printer) (program : Program) (page : Page) : Prop where
  /-- The blocks. -/
  blocks : ∀ block ∈ printer.blocks program.items page, ¬ block.Cut
  /-- The program itself. -/
  last : ∀ printed, printer.region program.items .ordinary program.last page = some printed →
    ¬ Line.Repeats printed.2.1 printed.1

instance (printer : Printer) (program : Program) (page : Page) :
    Decidable (printer.Unrepeated program page) :=
  decidable_of_iff ((∀ block ∈ printer.blocks program.items page, ¬ block.Cut) ∧
      ∀ printed ∈ (printer.region program.items .ordinary program.last page).toList,
        ¬ Line.Repeats printed.2.1 printed.1)
    ⟨fun ⟨hblocks, hlast⟩ => ⟨hblocks, fun printed h => hlast printed (Option.mem_toList.2 h)⟩,
      fun h => ⟨h.blocks, fun printed mem => h.last printed (Option.mem_toList.1 mem)⟩⟩

section

variable (direct : printer.finish = Line.finish) {program : Program} {page : Page}
  {lines lines' : List String} {page' page'' : Page}

include direct

/-- If no block is cut, at most the last line is missing. -/
theorem program_abridged (h : printer.program program page = some (lines, page'))
    (uncut : ∀ block ∈ printer.blocks program.items page, ¬ block.Cut) :
    ∃ printed, printer.region program.items .ordinary program.last page = some printed ∧
      printer.abridged.program program page =
        some (if Line.Repeats printed.2.1 printed.1 then lines.dropLast else lines, page') := by
  obtain ⟨printed, hregion, hprogram⟩ := Option.map_eq_some_iff.1 h
  obtain ⟨rfl, rfl⟩ := Prod.mk.inj hprogram
  refine ⟨printed, hregion, ?_⟩
  rw [Printer.program, region_abridged direct uncut, hregion, direct, ← Line.abridge_eq]
  rfl

/-- **The abridged program is the program, and all seeds are mentioned alike, just if no result
repeats a block.** -/
theorem program_abridged_iff (h : printer.program program page = some (lines, page'))
    (h' : printer.abridged.program program page = some (lines', page'')) :
    lines' = lines ∧ page''.text = page'.text ↔ printer.Unrepeated program page := by
  constructor
  · rintro ⟨rfl, htext⟩
    obtain ⟨printed, hregion, hprogram⟩ := Option.map_eq_some_iff.1 h
    obtain ⟨printed', hregion', hprogram'⟩ := Option.map_eq_some_iff.1 h'
    obtain ⟨hlines, rfl⟩ := Prod.mk.inj hprogram
    obtain ⟨hlines', rfl⟩ := Prod.mk.inj hprogram'
    obtain ⟨_, _, _, _, hitems, hitems', hsame⟩ :=
      text_items_eq hregion hregion' fun id _ _ => congrFun htext id
    have huncut := not_cut_of_text_eq direct hitems hitems' hsame
    refine ⟨huncut, fun other hother => ?_⟩
    obtain rfl : printed = other := Option.some.inj (hregion.symm.trans hother)
    rw [region_abridged direct huncut, hregion] at hregion'
    obtain rfl : printed = printed' := Option.some.inj hregion'
    rw [direct] at hlines
    exact Line.abridge_eq_finish_iff.1 (hlines'.trans hlines.symm)
  · intro hunrepeated
    obtain ⟨printed, hregion, habridged⟩ := program_abridged direct h hunrepeated.blocks
    rw [if_neg (hunrepeated.last printed hregion), h', Option.some.injEq,
      Prod.mk.injEq] at habridged
    exact ⟨habridged.1, by rw [habridged.2]⟩

end

end Printer

end SeedGraph
