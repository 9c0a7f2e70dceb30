import SeedGraph.Session

/-!
# Structured programs and their printer

A structured program is a tree of leaves and blocks.  A leaf is a text with places for the results
of other seeds; a block is a list of items and a closing leaf, wrapped in fixed texts.  A program is
a list of items and a last leaf.  Its seeds are registered in preorder: a block before its items,
and its closing leaf after them.

The printer goes through the tree and writes the lines of the program directly.  It never looks at
indices other than to count seeds, and prints each block where it stands.  Every region ends with
the line of its result; a printer that leaves this line out where it would repeat a block is
obtained by exchanging `Printer.finish`.

## Main definitions

* `Leaf`, `BlockHead`, `Items`, `Program`: the syntax, with the blueprints of the seeds.
* `Page`: what the printer remembers, namely how the seeds printed so far are mentioned.
* `Printer.items`, `Printer.region`, `Printer.program`: the printer.  It has nothing to say about a
  leaf that mentions a seed which is not printed yet.
* `Program.ReadsBackwards`: every leaf mentions only earlier seeds, and no block that it is inside
  of.
-/

namespace SeedGraph

/-! ### Syntax -/

/-- A part of the text of a leaf. -/
inductive Piece where
  /-- A fixed text. -/
  | text (s : String)
  /-- The code of the dependency under a key. -/
  | input (key : Key)

/-- A seed whose code is put together from fixed texts and the code of its dependencies. -/
structure Leaf where
  /-- A description of the kind of node. -/
  kind : String
  /-- How far the moment of evaluation matters. -/
  mode : Mode := .pure
  /-- An explicit wish to be bound to a local, or not to be. -/
  bindingWish : Option Bool := none
  /-- The edges to add, in order. -/
  edges : List Edge := []
  /-- Data that the hook does not look at. -/
  payload : Option Json := none
  /-- The text. -/
  pieces : List Piece

/-- A seed that stands for a block: the texts around its lines, and the text between them. -/
structure BlockHead where
  /-- A description of the kind of node. -/
  kind : String
  /-- How far the moment of evaluation matters. -/
  mode : Mode := .pure
  /-- Is there an explicit wish not to be bound?  Without one, a block is not bound either. -/
  unbound : Bool := false
  /-- The edges to add, in order. -/
  edges : List Edge := []
  /-- Data that the hook does not look at. -/
  payload : Option Json := none
  /-- The text before the lines. -/
  before : String
  /-- The text between two lines. -/
  separator : String
  /-- The text after the lines. -/
  after : String

/-- A list of items, each a leaf or a block.  A block holds a list of items and a closing leaf. -/
inductive Items where
  /-- No items. -/
  | nil
  /-- A leaf, and the items after it. -/
  | leaf (node : Leaf) (rest : Items)
  /-- A block, and the items after it. -/
  | block (head : BlockHead) (body : Items) (closing : Leaf) (rest : Items)

/-- A program: items, and a last leaf. -/
structure Program where
  /-- The items. -/
  items : Items
  /-- The leaf whose result ends the program. -/
  last : Leaf

/-! ### Seeds -/

/-- The action of a hook for a part of a text. -/
def Piece.action : Piece → Action
  | .text s => .text s
  | .input key => .inputCode key

namespace Leaf

/-- The edges of a leaf by key. -/
def dependencies (leaf : Leaf) : Dependencies :=
  .ofEdges leaf.edges

/-- The hook of a leaf: put the text together, make it the result, and proceed. -/
def hook (leaf : Leaf) : Hook :=
  leaf.pieces.map Piece.action ++ [.setResult, .proceed]

/-- The seed of a leaf. -/
def blueprint (boundary : Boundary) (leaf : Leaf) : Blueprint Hook where
  kind := leaf.kind
  mode := leaf.mode
  boundary := boundary
  bindingWish := leaf.bindingWish
  edges := leaf.edges
  payload := leaf.payload
  hook := leaf.hook

end Leaf

namespace BlockHead

/-- The hook of a block: generate the region after it, wrap its lines, and proceed. -/
def hook (head : BlockHead) : Hook :=
  [.text head.before, .region .afterSelf head.separator, .text head.after, .setResult, .proceed]

/-- The seed of a block. -/
def blueprint (head : BlockHead) : Blueprint Hook where
  kind := head.kind
  mode := head.mode
  boundary := .opens
  bindingWish := if head.unbound then some false else none
  edges := head.edges
  payload := head.payload
  hook := head.hook

/-- The text of a block whose lines are given. -/
def wrap (head : BlockHead) (lines : List String) : String :=
  head.before ++ head.separator.intercalate lines ++ head.after

end BlockHead

namespace Items

/-- The seeds of a list of items in preorder. -/
def blueprints : Items → List (Blueprint Hook)
  | .nil => []
  | .leaf node rest => node.blueprint .ordinary :: rest.blueprints
  | .block head body closing rest =>
    head.blueprint :: (body.blueprints ++ closing.blueprint .closes :: rest.blueprints)

/-- How many seeds a list of items has. -/
def size : Items → Nat
  | .nil => 0
  | .leaf _ rest => 1 + rest.size
  | .block _ body _ rest => 1 + (body.size + (1 + rest.size))

/-- How deeply blocks stand inside one another. -/
def height : Items → Nat
  | .nil => 0
  | .leaf _ rest => rest.height
  | .block _ body _ rest => max (body.height + 1) rest.height

theorem length_blueprints (items : Items) : items.blueprints.length = items.size := by
  induction items with
  | nil => rfl
  | leaf node rest ih =>
    rw [blueprints, List.length_cons, ih, size]
    omega
  | block head body closing rest ihBody ihRest =>
    rw [blueprints, List.length_cons, List.length_append, List.length_cons, ihBody, ihRest, size]
    omega

theorem height_le_size (items : Items) : items.height ≤ items.size := by
  induction items with
  | nil => exact Nat.le_refl 0
  | leaf node rest ih =>
    rw [height, size]
    omega
  | block head body closing rest ihBody ihRest =>
    rw [height, size]
    omega

end Items

/-- The seeds of a program in preorder. -/
def Program.blueprints (program : Program) : List (Blueprint Hook) :=
  program.items.blueprints ++ [program.last.blueprint .ordinary]

/-! ### The printer -/

/-- A printed line. -/
structure Line where
  /-- Its text. -/
  text : String
  /-- Is it the text of a block? -/
  isBlock : Bool
  deriving DecidableEq, Repr

/-- The lines of a region that ends with a result. -/
def Line.finish (lines : List Line) (result : String) : List String :=
  lines.map Line.text ++ [result]

/-- The result repeats the block that is printed last. -/
def Line.Repeats (lines : List Line) (result : String) : Prop :=
  lines.getLast? = some ⟨result, true⟩

instance (lines : List Line) (result : String) : Decidable (Line.Repeats lines result) :=
  inferInstanceAs (Decidable (_ = _))

/-- The lines of a region that ends with a result, which is left out if it repeats the block printed
last. -/
def Line.abridge (lines : List Line) (result : String) : List String :=
  lines.map Line.text ++ if Line.Repeats lines result then [] else [result]

/-- What the printer remembers. -/
structure Page where
  /-- The index of the seed that is printed next. -/
  next : Int
  /-- How many locals were declared. -/
  locals : Nat
  /-- How a seed is mentioned, once it is printed. -/
  text : SeedId → Option String

namespace Page

/-- Remember how a seed is mentioned. -/
def write (page : Page) (id : SeedId) (text : String) : Page :=
  { page with text := fun other => if other = id then some text else page.text other }

theorem write_write (page : Page) (id : SeedId) (text text' : String) :
    (page.write id text).write id text' = page.write id text' := by
  unfold write
  congr 1
  funext other
  by_cases heq : other = id
  · rw [if_pos heq, if_pos heq]
  · rw [if_neg heq, if_neg heq]
    exact if_neg heq

/-- Go on to the next seed. -/
def advance (page : Page) : Page :=
  { page with next := page.next + 1 }

end Page

/-- How a program is printed. -/
structure Printer where
  /-- How locals are written. -/
  platform : Platform
  /-- The text that starts the name of every local. -/
  stem : String
  /-- How many edges lead to a seed. -/
  fanIn : SeedId → Nat
  /-- How a region ends: with the line of its result. -/
  finish : List Line → String → List String := Line.finish

/-- The printer that leaves out a result which repeats the block printed last. -/
def Printer.abridged (printer : Printer) : Printer :=
  { printer with finish := Line.abridge }

/-- How many edges of the described seeds lead to a seed. -/
def fanIn (blueprints : List (Blueprint Hook)) (id : SeedId) : Nat :=
  ((blueprints.flatMap fun blueprint => (Dependencies.ofEdges blueprint.edges).edges).filter
    fun edge => edge.target = id).length

/-- The page before the first seed is printed, on which only the pre-existing seeds can be
mentioned: of `n` of them the first has the index `-n` and the last `-1`. -/
def Page.start (existing : List (Blueprint Hook)) : Page where
  next := 0
  locals := 0
  text id :=
    if 0 ≤ id.index + existing.length then
      existing[(id.index + existing.length).toNat]?.bind fun blueprint =>
        blueprint.preset.bind Compiled.code?
    else none

namespace Printer

/-- The text of a list of pieces, if `mention` says how seeds are mentioned. -/
def pieces (dependencies : Dependencies) (mention : SeedId → Option String) :
    List Piece → Option String
  | [] => some ""
  | .text s :: rest => (pieces dependencies mention rest).map (s ++ ·)
  | .input key :: rest => do
    let read ← (dependencies.get? key).bind mention
    (pieces dependencies mention rest).map (read ++ ·)

/-- The next seed has the code `code`, which is held in a local if it is worth one.  The answer is
how the seed is mentioned, and what was printed. -/
def hold (printer : Printer) (boundary : Boundary) (node : Leaf) (page : Page) (code : String) :
    String × List Line × Page :=
  let id : SeedId := ⟨page.next⟩
  if shouldBind node.bindingWish boundary node.mode (printer.fanIn id) then
    let name := printer.stem ++ toString page.locals
    let mention := printer.platform.reference name
    (mention, [⟨printer.platform.declaration name code, false⟩],
      { page.advance.write id mention with locals := page.locals + 1 })
  else
    (code, [], page.advance.write id code)

/-- Print a leaf. -/
def leaf (printer : Printer) (boundary : Boundary) (node : Leaf) (page : Page) :
    Option (String × List Line × Page) :=
  (pieces node.dependencies page.text node.pieces).map (printer.hold boundary node page)

/-- Print a list of items. -/
def items (printer : Printer) : Items → Page → Option (List Line × Page)
  | .nil, page => some ([], page)
  | .leaf node rest, page => do
    let (_, lines, page') ← printer.leaf .ordinary node page
    let (more, page'') ← printer.items rest page'
    return (lines ++ more, page'')
  | .block head body closing rest, page => do
    let (lines, inner) ← printer.items body page.advance
    let (result, last, inner') ← printer.leaf .closes closing inner
    let text := head.wrap (printer.finish (lines ++ last) result)
    let (more, page') ← printer.items rest (inner'.write ⟨page.next⟩ text)
    return (⟨text, true⟩ :: more, page')

/-- Print items and a last leaf: how the leaf is mentioned, the lines and the page. -/
def region (printer : Printer) (body : Items) (boundary : Boundary) (closing : Leaf) (page : Page) :
    Option (String × List Line × Page) :=
  (printer.items body page).bind fun inner =>
    (printer.leaf boundary closing inner.2).map fun last => (last.1, inner.1 ++ last.2.1, last.2.2)

/-- **The lines of a program**, and the page on which all of its seeds are printed. -/
def program (printer : Printer) (program : Program) (page : Page) : Option (List String × Page) :=
  (printer.region program.items .ordinary program.last page).map fun printed =>
    (printer.finish printed.2.1 printed.1, printed.2.2)

end Printer

/-! ### Backward reads -/

/-- The leaf number `index` mentions only earlier seeds from `lower` on, and none of `enclosing`. -/
def Leaf.ReadsBackwards (lower : Int) (enclosing : List SeedId) (index : Int) (leaf : Leaf) :
    Prop :=
  ∀ key, .input key ∈ leaf.pieces → ∃ target, leaf.dependencies.get? key = some target ∧
    lower ≤ target.index ∧ target.index < index ∧ target ∉ enclosing

/-- The items from number `index` on, inside of the blocks `enclosing`, read backwards. -/
def Items.ReadsBackwards (lower : Int) : List SeedId → Int → Items → Prop
  | _, _, .nil => True
  | enclosing, index, .leaf node rest =>
    node.ReadsBackwards lower enclosing index ∧ rest.ReadsBackwards lower enclosing (index + 1)
  | enclosing, index, .block _ body closing rest =>
    body.ReadsBackwards lower (⟨index⟩ :: enclosing) (index + 1) ∧
    closing.ReadsBackwards lower (⟨index⟩ :: enclosing) (index + 1 + body.size) ∧
    rest.ReadsBackwards lower enclosing (index + 1 + body.size + 1)

/-- Every leaf of the program mentions only earlier seeds, and no block that it is inside of. -/
def Program.ReadsBackwards (lower : Int) (program : Program) : Prop :=
  program.items.ReadsBackwards lower [] 0 ∧
    program.last.ReadsBackwards lower [] program.items.size

/-! ### What printing does to the page -/

/-- From `page` to `page'` exactly the next `count` seeds were printed. -/
structure Page.Grows (page page' : Page) (count : Nat) : Prop where
  /-- They were counted. -/
  next : page'.next = page.next + count
  /-- What was printed before is mentioned as before. -/
  earlier : ∀ id : SeedId, id.index < page.next → page'.text id = page.text id
  /-- They can be mentioned. -/
  printed : ∀ id : SeedId, page.next ≤ id.index → id.index < page'.next → (page'.text id).isSome
  /-- Nothing is known about what comes later. -/
  later : ∀ id : SeedId, page'.next ≤ id.index → page'.text id = page.text id

namespace Page.Grows

variable {page page' page'' : Page} {first second : Nat}

theorem refl (page : Page) : page.Grows page 0 where
  next := by omega
  earlier _ _ := rfl
  printed id hlower hupper := by omega
  later _ _ := rfl

theorem trans (h : page.Grows page' first) (h' : page'.Grows page'' second) :
    page.Grows page'' (first + second) where
  next := by
    rw [h'.next, h.next]
    omega
  earlier id hid := by
    have hnext := h.next
    rw [h'.earlier id (by omega), h.earlier id hid]
  printed id hlower hupper := by
    by_cases hfirst : id.index < page'.next
    · rw [h'.earlier id hfirst]
      exact h.printed id hlower hfirst
    · exact h'.printed id (by omega) hupper
  later id hid := by
    have hnext := h'.next
    rw [h'.later id hid, h.later id (by omega)]

/-- A single seed. -/
theorem single {text : String} (hnext : page'.next = page.next + 1)
    (htext : page'.text = (page.write ⟨page.next⟩ text).text) : page.Grows page' 1 where
  next := hnext
  earlier id hid := by
    rw [htext]
    refine if_neg ?_
    rintro rfl
    exact absurd hid (by simp)
  printed id hlower hupper := by
    obtain rfl : id = ⟨page.next⟩ := by
      cases id
      simp only [SeedId.mk.injEq] at hlower hupper ⊢
      omega
    rw [htext]
    simp [Page.write]
  later id hid := by
    rw [htext]
    refine if_neg ?_
    rintro rfl
    simp only [hnext] at hid
    omega

/-- A block: its seed comes first but is printed last. -/
theorem enclose (h : page.advance.Grows page' first) (text : String) :
    page.Grows (page'.write ⟨page.next⟩ text) (1 + first) where
  next := by
    have hnext := h.next
    simp only [Page.advance, Page.write] at hnext ⊢
    omega
  earlier id hid := by
    have hne : id ≠ ⟨page.next⟩ := by
      rintro rfl
      exact absurd hid (by simp)
    have hinner := h.earlier id (by simp only [Page.advance]; omega)
    simpa [Page.write, Page.advance, hne] using hinner
  printed id hlower hupper := by
    by_cases heq : id = ⟨page.next⟩
    · simp [Page.write, heq]
    · have hindex : page.next ≠ id.index := by
        intro hsame
        cases id
        exact heq (congrArg SeedId.mk hsame.symm)
      have hinner := h.printed id (by simp only [Page.advance]; omega) hupper
      simpa [Page.write, heq] using hinner
  later id hid := by
    have hnext := h.next
    have hne : id ≠ ⟨page.next⟩ := by
      rintro rfl
      simp only [Page.advance, Page.write] at hnext hid
      omega
    have hinner := h.later id hid
    simpa [Page.write, Page.advance, hne] using hinner

end Page.Grows

namespace Printer

variable (printer : Printer)

theorem items_leaf (node : Leaf) (rest : Items) (page : Page) :
    printer.items (.leaf node rest) page =
      (printer.leaf .ordinary node page).bind fun printed =>
        (printer.items rest printed.2.2).bind fun more =>
          some (printed.2.1 ++ more.1, more.2) := rfl

theorem items_block (head : BlockHead) (body : Items) (closing : Leaf) (rest : Items)
    (page : Page) :
    printer.items (.block head body closing rest) page =
      (printer.items body page.advance).bind fun inner =>
        (printer.leaf .closes closing inner.2).bind fun last =>
          (printer.items rest (last.2.2.write ⟨page.next⟩
            (head.wrap (printer.finish (inner.1 ++ last.2.1) last.1)))).bind fun more =>
              some (⟨head.wrap (printer.finish (inner.1 ++ last.2.1) last.1), true⟩ :: more.1,
                more.2) :=
  rfl

/-- A block and the items after it are printed one after the other. -/
theorem items_block_eq (head : BlockHead) (body : Items) (closing : Leaf) (rest : Items)
    (page : Page) :
    printer.items (.block head body closing rest) page =
      (printer.region body .closes closing page.advance).bind fun printed =>
        (printer.items rest (printed.2.2.write ⟨page.next⟩
          (head.wrap (printer.finish printed.2.1 printed.1)))).bind fun more =>
            some (⟨head.wrap (printer.finish printed.2.1 printed.1), true⟩ :: more.1, more.2) := by
  rw [items_block, region, Option.bind_assoc]
  congr 1
  funext inner
  rw [Option.bind_map]
  rfl

variable {printer}

theorem text_hold (boundary : Boundary) (node : Leaf) (page : Page) (code : String) :
    (printer.hold boundary node page code).2.2.text =
      (page.write ⟨page.next⟩ (printer.hold boundary node page code).1).text := by
  unfold hold
  dsimp only
  split <;> rfl

theorem grows_leaf {boundary : Boundary} {node : Leaf} {page page' : Page} {mention : String}
    {lines : List Line} (h : printer.leaf boundary node page = some (mention, lines, page')) :
    page.Grows page' 1 ∧ page'.text ⟨page.next⟩ = some mention := by
  obtain ⟨code, -, hhold⟩ := Option.map_eq_some_iff.1 h
  have htext := printer.text_hold boundary node page code
  rw [hhold] at htext
  have hnext : page'.next = page.next + 1 := by
    have hsame : (printer.hold boundary node page code).2.2.next = page.next + 1 := by
      unfold hold
      dsimp only
      split <;> rfl
    rw [hhold] at hsame
    exact hsame
  refine ⟨.single hnext htext, ?_⟩
  rw [htext]
  exact if_pos rfl

/-- Printing items prints their seeds and no others. -/
theorem grows_items {items : Items} {page page' : Page} {lines : List Line}
    (h : printer.items items page = some (lines, page')) : page.Grows page' items.size := by
  induction items generalizing page lines page' with
  | nil =>
    obtain ⟨-, rfl⟩ : [] = lines ∧ page = page' := by simpa [items] using h
    exact .refl page
  | leaf node rest ih =>
    rw [items_leaf] at h
    obtain ⟨⟨mention, first, middle⟩, hleaf, hrest⟩ := Option.bind_eq_some_iff.1 h
    obtain ⟨⟨more, final⟩, hmore, hresult⟩ := Option.bind_eq_some_iff.1 hrest
    obtain ⟨-, rfl⟩ : first ++ more = lines ∧ final = page' := by simpa using hresult
    exact (grows_leaf hleaf).1.trans (ih hmore)
  | block head body closing rest ihBody ihRest =>
    rw [items_block] at h
    obtain ⟨⟨inside, inner⟩, hbody, hafter⟩ := Option.bind_eq_some_iff.1 h
    obtain ⟨⟨mention, last, outer⟩, hclosing, hrest⟩ := Option.bind_eq_some_iff.1 hafter
    obtain ⟨⟨more, final⟩, hmore, hresult⟩ := Option.bind_eq_some_iff.1 hrest
    obtain rfl : final = page' := (Prod.mk.inj (Option.some.inj hresult)).2
    -- The page grows from the seed after the block on, and the block itself is written at the end.
    have hblock := ((ihBody hbody).trans (grows_leaf hclosing).1).enclose
      (head.wrap (printer.finish (inside ++ last) mention))
    have hall := hblock.trans (ihRest hmore)
    rw [Items.size]
    rw [Nat.add_assoc, Nat.add_assoc] at hall
    exact hall

/-- Printing a region prints its seeds and no others. -/
theorem grows_region {body : Items} {boundary : Boundary} {closing : Leaf} {page : Page}
    {printed : String × List Line × Page}
    (h : printer.region body boundary closing page = some printed) :
    page.Grows printed.2.2 (body.size + 1) := by
  obtain ⟨⟨inside, inner⟩, hbody, hlast⟩ := Option.bind_eq_some_iff.1 h
  obtain ⟨⟨mention, more, final⟩, hleaf, rfl⟩ := Option.map_eq_some_iff.1 hlast
  exact (grows_items hbody).trans (grows_leaf hleaf).1

end Printer

/-! ### Programs that read backwards can be printed -/

/-- Every seed from `lower` on that was passed can be mentioned, apart from those of `enclosing`. -/
def Page.Offers (page : Page) (lower : Int) (enclosing : List SeedId) : Prop :=
  ∀ id : SeedId, lower ≤ id.index → id.index < page.next → id ∉ enclosing → (page.text id).isSome

theorem Page.Offers.grows {page page' : Page} {lower : Int} {enclosing : List SeedId} {count : Nat}
    (h : page.Offers lower enclosing) (hgrows : page.Grows page' count) :
    page'.Offers lower enclosing := by
  intro id hlower hupper hfree
  by_cases hearlier : id.index < page.next
  · rw [hgrows.earlier id hearlier]
    exact h id hlower hearlier hfree
  · exact hgrows.printed id (by omega) hupper

theorem Page.Offers.advance {page : Page} {lower : Int} {enclosing : List SeedId}
    (h : page.Offers lower enclosing) :
    page.advance.Offers lower (⟨page.next⟩ :: enclosing) := by
  intro id hlower hupper hfree
  rw [List.mem_cons, not_or] at hfree
  have hindex : id.index ≠ page.next := by
    intro hsame
    cases id
    exact hfree.1 (congrArg SeedId.mk hsame)
  have hbefore : id.index < page.next := by
    simp only [Page.advance] at hupper
    omega
  exact h id hlower hbefore hfree.2

/-- Pre-existing seeds that come with code can be mentioned. -/
theorem Page.offers_start {existing : List (Blueprint Hook)}
    (presets : ∀ blueprint ∈ existing, ∃ text, blueprint.preset = some (.code text)) :
    (Page.start existing).Offers (-existing.length) [] := by
  intro id hlower hupper _
  unfold Page.start at hupper ⊢
  dsimp only at hupper ⊢
  have hposition : (id.index + existing.length).toNat < existing.length := by omega
  rw [if_pos (by omega), List.getElem?_eq_getElem hposition]
  obtain ⟨text, htext⟩ := presets _ (List.getElem_mem hposition)
  rw [Option.bind_some, htext]
  rfl

namespace Printer

variable {lower : Int} {enclosing : List SeedId} {page : Page}

theorem isSome_pieces {dependencies : Dependencies} {pieces : List Piece}
    (h : ∀ key, .input key ∈ pieces → ∃ target, dependencies.get? key = some target ∧
      (page.text target).isSome) : (Printer.pieces dependencies page.text pieces).isSome := by
  induction pieces with
  | nil => rfl
  | cons piece rest ih =>
    have hrest := ih fun key hkey => h key (List.mem_cons_of_mem _ hkey)
    cases piece with
    | text s =>
      rw [Printer.pieces, Option.isSome_map]
      exact hrest
    | input key =>
      obtain ⟨target, htarget, hmention⟩ := h key (by simp)
      obtain ⟨mention, hmention⟩ := Option.isSome_iff_exists.1 hmention
      have hread : (dependencies.get? key).bind page.text = some mention := by
        rw [htarget]
        exact hmention
      rw [Printer.pieces, hread]
      exact (Option.isSome_map ..).trans hrest

theorem exists_leaf (printer : Printer) (boundary : Boundary) {node : Leaf}
    (offers : page.Offers lower enclosing) (reads : node.ReadsBackwards lower enclosing page.next) :
    ∃ mention lines page', printer.leaf boundary node page = some (mention, lines, page') := by
  have hsome : (Printer.pieces node.dependencies page.text node.pieces).isSome := by
    refine isSome_pieces fun key hkey => ?_
    obtain ⟨target, htarget, hlower, hupper, hfree⟩ := reads key hkey
    exact ⟨target, htarget, offers target hlower hupper hfree⟩
  obtain ⟨code, hcode⟩ := Option.isSome_iff_exists.1 hsome
  refine ⟨(printer.hold boundary node page code).1, (printer.hold boundary node page code).2.1,
    (printer.hold boundary node page code).2.2, ?_⟩
  rw [Printer.leaf, hcode]
  rfl

/-- Items that read backwards can be printed. -/
theorem exists_items (printer : Printer) {items : Items} (offers : page.Offers lower enclosing)
    (reads : items.ReadsBackwards lower enclosing page.next) :
    ∃ lines page', printer.items items page = some (lines, page') := by
  induction items generalizing page enclosing with
  | nil => exact ⟨[], page, rfl⟩
  | leaf node rest ih =>
    obtain ⟨hnode, hrest⟩ := reads
    obtain ⟨mention, lines, page', hleaf⟩ := exists_leaf printer .ordinary offers hnode
    have hgrows := (grows_leaf hleaf).1
    have hnext : page'.next = page.next + 1 := hgrows.next
    rw [← hnext] at hrest
    obtain ⟨more, page'', hmore⟩ := ih (offers.grows hgrows) hrest
    exact ⟨lines ++ more, page'', by rw [items_leaf, hleaf, Option.bind_some, hmore]; rfl⟩
  | block head body closing rest ihBody ihRest =>
    obtain ⟨hbody, hclosing, hrest⟩ := reads
    obtain ⟨inside, inner, hinside⟩ := ihBody offers.advance hbody
    have hinner := grows_items hinside
    have hnext : inner.next = page.next + 1 + body.size := hinner.next
    rw [← hnext] at hclosing
    obtain ⟨mention, last, outer, hlast⟩ :=
      exists_leaf printer .closes (offers.advance.grows hinner) hclosing
    have houter := (grows_leaf hlast).1
    have hblock :=
      (hinner.trans houter).enclose (head.wrap (printer.finish (inside ++ last) mention))
    have hafter :
        (outer.write ⟨page.next⟩ (head.wrap (printer.finish (inside ++ last) mention))).next =
          page.next + 1 + body.size + 1 := by
      rw [hblock.next]
      omega
    rw [← hafter] at hrest
    obtain ⟨more, final, hmore⟩ := ihRest (offers.grows hblock) hrest
    exact ⟨_, _, by
      rw [items_block, hinside, Option.bind_some, hlast, Option.bind_some, hmore]; rfl⟩

/-- Items and a last leaf that read backwards can be printed. -/
theorem exists_region (printer : Printer) (boundary : Boundary) {body : Items} {closing : Leaf}
    (offers : page.Offers lower enclosing)
    (reads : body.ReadsBackwards lower enclosing page.next)
    (last : closing.ReadsBackwards lower enclosing (page.next + body.size)) :
    ∃ printed, printer.region body boundary closing page = some printed := by
  obtain ⟨inside, inner, hbody⟩ := exists_items printer offers reads
  have hgrows := grows_items hbody
  rw [← hgrows.next] at last
  obtain ⟨mention, more, final, hlast⟩ := exists_leaf printer boundary (offers.grows hgrows) last
  exact ⟨(mention, inside ++ more, final), by rw [region, hbody, Option.bind_some, hlast]; rfl⟩

/-- A program that reads backwards can be printed. -/
theorem exists_program (printer : Printer) {program : Program} {existing : List (Blueprint Hook)}
    (presets : ∀ blueprint ∈ existing, ∃ text, blueprint.preset = some (.code text))
    (reads : program.ReadsBackwards (-existing.length)) :
    ∃ printed,
      printer.region program.items .ordinary program.last (Page.start existing) = some printed := by
  refine exists_region printer .ordinary (Page.offers_start presets) reads.1 ?_
  rw [show (Page.start existing).next + (program.items.size : Int) = program.items.size from
    Int.zero_add _]
  exact reads.2

end Printer

end SeedGraph
