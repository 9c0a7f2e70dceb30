import SeedGraph.Wire.Report

/-!
# Reading undoes writing

A serialized type is written in one way and read in several.  Both directions of the round trip are
proved here: what is written is read back as the value it was written from, and whatever form a
value was read from, writing it gives a form that is read as the same value and written as itself.

Indices are unbounded integers in this library and 32-bit words in the format, so a value can only
be written faithfully if its indices fit.  Reading never gives another value, and this is what makes
the second direction follow from the first.

## Main definitions

* `Wire.Lossless`: the two laws of a type from which the round trips follow.
* `Compiled.Representable`, …, `Report.Representable`: all indices in a value fit.
* `Wire.RoundTrips`: the two directions.

## Main statements

* `Wire.Lossless.list`, `Report.lossless` and the lemmas before it: one for each type, in the order
  in which the types contain each other.
* `Wire.decode_undoes_encode`: the round trips of all serialized types.
-/

namespace SeedGraph

namespace Wire

variable {α : Type}

/-- Reading undoes writing for the values that fit, and gives no value that does not. -/
structure Lossless [Wire α] (Fits : α → Prop) : Prop where
  decode_encode : ∀ value, Fits value → decode (encode value) = some value
  fits_of_decode : ∀ json value, decode json = some value → Fits value

/-- The value of a field that was read fits. -/
theorem Lossless.fits_of_field [Wire α] {Fits : α → Prop} (lossless : Lossless Fits)
    {json : Option Json} {value : α} (read : field json = some value) : Fits value := by
  obtain ⟨data, -, found⟩ := Option.bind_eq_some_iff.1 read
  exact lossless.fits_of_decode data value found

theorem lossless_string : Lossless fun _ : String => True where
  decode_encode _ _ := rfl
  fits_of_decode _ _ _ := trivial

theorem lossless_bool : Lossless fun _ : Bool => True where
  decode_encode _ _ := rfl
  fits_of_decode _ _ _ := trivial

theorem lossless_uint16 : Lossless fun _ : UInt16 => True where
  decode_encode n _ := by
    have bound := n.toNat_lt
    have : (0 : Int) ≤ n.toNat ∧ (n.toNat : Int) < 65536 := by omega
    simp [decode, encode, Json.int, Json.intBetween?, this]
  fits_of_decode _ _ _ := trivial

theorem lossless_uint32 : Lossless fun _ : UInt32 => True where
  decode_encode n _ := by
    have bound := n.toNat_lt
    have : (0 : Int) ≤ n.toNat ∧ (n.toNat : Int) < 4294967296 := by omega
    simp [decode, encode, Json.int, Json.intBetween?, this]
  fits_of_decode _ _ _ := trivial

/-- A list is written item by item. -/
theorem Lossless.list [Wire α] {Fits : α → Prop} (lossless : Lossless Fits) :
    Lossless fun values : List α => ∀ value ∈ values, Fits value where
  decode_encode values := by
    intro fits
    change (values.map encode).mapM decode = some values
    induction values with
    | nil => rfl
    | cons value rest ih =>
      have first := lossless.decode_encode value (fits value List.mem_cons_self)
      have others := ih fun other mem => fits other (List.mem_cons_of_mem _ mem)
      simp [List.mapM_cons, first, others]
  fits_of_decode json values := by
    intro read
    cases json with
    | list items =>
      change items.mapM decode = some values at read
      induction items generalizing values with
      | nil =>
        simp only [List.mapM_nil, Option.pure_def, Option.some.injEq] at read
        subst read
        simp
      | cons item rest ih =>
        simp only [List.mapM_cons, Option.pure_def, Option.bind_eq_bind, Option.bind_eq_some_iff,
          Option.some.injEq] at read
        obtain ⟨value, found, others, readOthers, rfl⟩ := read
        have first := lossless.fits_of_decode item value found
        have restFits := ih others readOthers
        simpa using ⟨first, restFits⟩
    | null | bool | number | text | object => exact absurd read nofun

/-- A text that may be absent is never written as the sign for its absence. -/
theorem lossless_text? : Lossless fun _ : Option String => True where
  decode_encode
    | none, _ => rfl
    | some _, _ => rfl
  fits_of_decode _ _ _ := trivial


end Wire

open Wire

/-! ### Identifiers, keys and results -/

theorem Json.word?_eq_some_iff (json : Json) (n : Int) :
    json.word? = some n ↔ json = .int n ∧ (⟨n⟩ : SeedId).Representable := by
  constructor
  · intro read
    unfold Json.word? Json.intBetween? at read
    split at read
    · split at read
      · cases read
        exact ⟨rfl, ‹_›⟩
      · cases read
    · cases read
  · rintro ⟨rfl, low, high⟩
    simp_all [Json.word?, Json.intBetween?, Json.int]

theorem SeedId.lossless : Lossless SeedId.Representable where
  decode_encode id fits := by
    have read := (Json.word?_eq_some_iff (.int id.index) id.index).2 ⟨rfl, fits⟩
    change (Json.int id.index).word?.map SeedId.mk = some id
    simp [read]
  fits_of_decode json id read := by
    obtain ⟨n, found, rfl⟩ := Option.map_eq_some_iff.1 read
    exact ((Json.word?_eq_some_iff json n).1 found).2

theorem Mode.lossless : Lossless fun _ : Mode => True where
  decode_encode mode _ := by cases mode <;> rfl
  fits_of_decode _ _ _ := trivial

theorem Boundary.lossless : Lossless fun _ : Boundary => True where
  decode_encode boundary _ := by cases boundary <;> rfl
  fits_of_decode _ _ _ := trivial

theorem EdgeKind.lossless : Lossless fun _ : EdgeKind => True where
  decode_encode kind _ := by cases kind <;> rfl
  fits_of_decode _ _ _ := trivial

theorem Key.lossless : Lossless fun _ : Key => True where
  decode_encode key _ := by
    cases key with
    | arg position =>
      exact congrArg (Option.map Key.arg) (lossless_uint16.decode_encode _ trivial)
    | named name => rfl
    | ordering ordinal =>
      exact congrArg (Option.map Key.ordering) (lossless_uint32.decode_encode _ trivial)
  fits_of_decode _ _ _ := trivial

/-- The seed that is mentioned has a 32-bit index. -/
def Compiled.Representable : Compiled → Prop
  | .code _ => True
  | .seed id => id.Representable

theorem Compiled.lossless : Lossless Compiled.Representable where
  decode_encode value fits := by
    cases value with
    | code text => rfl
    | seed id => exact congrArg (Option.map Compiled.seed) (SeedId.lossless.decode_encode id fits)
  fits_of_decode json value read := by
    simp only [decode] at read
    split at read
    · obtain ⟨text, -, rfl⟩ := Option.map_eq_some_iff.1 read
      trivial
    · rename_i data _
      obtain ⟨id, found, rfl⟩ := Option.map_eq_some_iff.1 read
      exact SeedId.lossless.fits_of_decode data id found
    · cases read

/-! ### Records -/

theorem Referent.lossless : Lossless fun referent : Referent => referent.source.Representable where
  decode_encode referent fits := by
    change (do
      return Referent.mk (← decode (encode referent.source))
        (← decode (encode referent.key))) = some referent
    rw [SeedId.lossless.decode_encode _ fits, Key.lossless.decode_encode _ trivial]
    rfl
  fits_of_decode json referent read := by
    simp only [decode] at read
    split at read
    · simp only [Option.pure_def, Option.bind_eq_bind, Option.bind_eq_some_iff,
        Option.some.injEq] at read
      obtain ⟨source, readSource, key, -, rfl⟩ := read
      exact SeedId.lossless.fits_of_field readSource
    · cases read

theorem Placeholder.lossless : Lossless fun _ : Placeholder => True where
  decode_encode _ _ := rfl
  fits_of_decode _ _ _ := trivial

/-- The seed of the local and the seed that its value mentions have 32-bit indices. -/
def Binding.Representable (binding : Binding) : Prop :=
  binding.seed.Representable ∧ binding.value.Representable

theorem Binding.lossless : Lossless Binding.Representable where
  decode_encode binding fits := by
    change (do
      return Binding.mk (← decode (encode binding.seed)) (← decode (encode binding.name))
        (← decode (encode binding.value))) = some binding
    rw [SeedId.lossless.decode_encode _ fits.1, lossless_string.decode_encode _ trivial,
      Compiled.lossless.decode_encode _ fits.2]
    rfl
  fits_of_decode json binding read := by
    simp only [decode] at read
    split at read
    · simp only [Option.pure_def, Option.bind_eq_bind, Option.bind_eq_some_iff,
        Option.some.injEq] at read
      obtain ⟨seed, readSeed, name, -, value, readValue, rfl⟩ := read
      exact ⟨SeedId.lossless.fits_of_field readSeed, Compiled.lossless.fits_of_field readValue⟩
    · cases read

/-- All seeds in a statement have 32-bit indices. -/
def Statement.Representable : Statement → Prop
  | .declare binding => binding.Representable
  | .block seed code => seed.Representable ∧ code.Representable

theorem Statement.lossless : Lossless Statement.Representable where
  decode_encode statement fits := by
    cases statement with
    | declare binding =>
      exact congrArg (Option.map Statement.declare) (Binding.lossless.decode_encode binding fits)
    | block seed code =>
      change (do return Statement.block (← decode (encode seed)) (← decode (encode code))) = _
      rw [SeedId.lossless.decode_encode _ fits.1, Compiled.lossless.decode_encode _ fits.2]
      rfl
  fits_of_decode json statement read := by
    simp only [decode] at read
    split at read
    · rename_i data _
      obtain ⟨binding, found, rfl⟩ := Option.map_eq_some_iff.1 read
      exact Binding.lossless.fits_of_decode data binding found
    · split at read
      · simp only [Option.pure_def, Option.bind_eq_bind, Option.bind_eq_some_iff,
          Option.some.injEq] at read
        obtain ⟨seed, readSeed, code, readCode, rfl⟩ := read
        exact ⟨SeedId.lossless.fits_of_field readSeed, Compiled.lossless.fits_of_field readCode⟩
      · cases read
    · cases read

/-! ### Reports -/

theorem EdgeRow.lossless : Lossless fun row : EdgeRow => row.seed.Representable where
  decode_encode row fits := by
    change (do
      return EdgeRow.mk (← decode (encode row.key)) (← decode (encode row.kind))
        (← decode (encode row.seed))) = some row
    rw [lossless_string.decode_encode _ trivial, EdgeKind.lossless.decode_encode _ trivial,
      SeedId.lossless.decode_encode _ fits]
    rfl
  fits_of_decode json row read := by
    simp only [decode] at read
    split at read
    · simp only [Option.pure_def, Option.bind_eq_bind, Option.bind_eq_some_iff,
        Option.some.injEq] at read
      obtain ⟨key, -, kind, -, seed, readSeed, rfl⟩ := read
      exact SeedId.lossless.fits_of_field readSeed
    · cases read

/-- The seed of the row and the seeds at the other ends of its edges have 32-bit indices. -/
structure SeedRow.Representable (row : SeedRow) : Prop where
  id : row.id.Representable
  dependencies : ∀ edge ∈ row.dependencies, edge.seed.Representable
  referents : ∀ edge ∈ row.referents, edge.seed.Representable

theorem SeedRow.lossless : Lossless SeedRow.Representable where
  decode_encode row fits := by
    change (do
      return SeedRow.mk (← decode (encode row.id)) (← decode (encode row.kind))
        (← decode (encode row.mode)) (← decode (encode row.boundary))
        (← decode (encode row.result)) (← decode (encode row.boundTo))
        (← decode (encode row.dependencies)) (← decode (encode row.referents))) = some row
    rw [SeedId.lossless.decode_encode _ fits.id, lossless_string.decode_encode _ trivial,
      Mode.lossless.decode_encode _ trivial, Boundary.lossless.decode_encode _ trivial,
      lossless_text?.decode_encode _ trivial, lossless_text?.decode_encode _ trivial,
      EdgeRow.lossless.list.decode_encode _ fits.dependencies,
      EdgeRow.lossless.list.decode_encode _ fits.referents]
    rfl
  fits_of_decode json row read := by
    simp only [decode] at read
    split at read
    · simp only [Option.pure_def, Option.bind_eq_bind, Option.bind_eq_some_iff,
        Option.some.injEq] at read
      obtain ⟨id, readId, kind, -, mode, -, boundary, -, result, -, boundTo, -, dependencies,
        readDependencies, referents, readReferents, rfl⟩ := read
      exact ⟨SeedId.lossless.fits_of_field readId,
        EdgeRow.lossless.list.fits_of_field readDependencies,
        EdgeRow.lossless.list.fits_of_field readReferents⟩
    · cases read

/-- The ends of the stored range and all indices in the rows are 32-bit integers. -/
structure Report.Representable (report : Report) : Prop where
  lower : (⟨report.lower⟩ : SeedId).Representable
  upper : (⟨report.upper⟩ : SeedId).Representable
  seeds : ∀ row ∈ report.seeds, row.Representable
  bindings : ∀ binding ∈ report.bindings, binding.Representable

theorem Report.lossless : Lossless Report.Representable where
  decode_encode report fits := by
    change (do
      return Report.mk (← (Json.int report.lower).word?) (← (Json.int report.upper).word?)
        (← decode (encode report.finalized)) (← decode (encode report.seeds))
        (← decode (encode report.bindings))) = some report
    rw [(Json.word?_eq_some_iff _ _).2 ⟨rfl, fits.lower⟩,
      (Json.word?_eq_some_iff _ _).2 ⟨rfl, fits.upper⟩,
      lossless_bool.decode_encode _ trivial,
      SeedRow.lossless.list.decode_encode _ fits.seeds,
      Binding.lossless.list.decode_encode _ fits.bindings]
    rfl
  fits_of_decode json report read := by
    simp only [decode] at read
    split at read
    · simp only [Option.pure_def, Option.bind_eq_bind, Option.bind_eq_some_iff,
        Option.some.injEq] at read
      obtain ⟨lower, ⟨_, -, readLower⟩, upper, ⟨_, -, readUpper⟩, finalized, -, seeds, readSeeds,
        bindings, readBindings, rfl⟩ := read
      exact ⟨((Json.word?_eq_some_iff _ _).1 readLower).2,
        ((Json.word?_eq_some_iff _ _).1 readUpper).2,
        SeedRow.lossless.list.fits_of_field readSeeds,
        Binding.lossless.list.fits_of_field readBindings⟩
    · cases read

/-! ### The round trips -/

namespace Wire

variable {α : Type}

/-- The round trips of a type: of every value that fits, and of every form that is read. -/
def RoundTrips [Wire α] (Fits : α → Prop) : Prop :=
  (∀ value, Fits value → decode (encode value) = some value) ∧
    ∀ (json : Json) (value : α), decode json = some value →
      Fits value ∧ decode (encode value) = some value ∧
        (decode (encode value) : Option α).map encode = some (encode value)

theorem Lossless.roundTrips [Wire α] {Fits : α → Prop} (lossless : Lossless Fits) :
    RoundTrips Fits := by
  refine ⟨lossless.decode_encode, fun json value read => ?_⟩
  have fits := lossless.fits_of_decode json value read
  have back := lossless.decode_encode value fits
  exact ⟨fits, back, by rw [back, Option.map_some]⟩

/-- For every serialized type, a value whose indices fit is read back from its written form; and a
value that was read, from whatever form, is written in a form that is read as the same value and
written as itself. -/
theorem decode_undoes_encode :
    RoundTrips SeedId.Representable ∧
      RoundTrips (fun _ : Mode => True) ∧
      RoundTrips (fun _ : Boundary => True) ∧
      RoundTrips (fun _ : Key => True) ∧
      RoundTrips (fun _ : EdgeKind => True) ∧
      RoundTrips (fun referent : Referent => referent.source.Representable) ∧
      RoundTrips Compiled.Representable ∧
      RoundTrips (fun _ : Placeholder => True) ∧
      RoundTrips Binding.Representable ∧
      RoundTrips Statement.Representable ∧
      RoundTrips (fun row : EdgeRow => row.seed.Representable) ∧
      RoundTrips SeedRow.Representable ∧
      RoundTrips Report.Representable :=
  ⟨SeedId.lossless.roundTrips, Mode.lossless.roundTrips, Boundary.lossless.roundTrips,
    Key.lossless.roundTrips, EdgeKind.lossless.roundTrips, Referent.lossless.roundTrips,
    Compiled.lossless.roundTrips, Placeholder.lossless.roundTrips, Binding.lossless.roundTrips,
    Statement.lossless.roundTrips, EdgeRow.lossless.roundTrips, SeedRow.lossless.roundTrips,
    Report.lossless.roundTrips⟩

/-- A report as a list, with one row that is a list and one that is an object without the fields
that may be absent, and with a member that means nothing. -/
def looseReport : Json :=
  .list [.int (-1), .int 1, .bool true,
    .list [
      .list [.int (-1), .text "Op", .object [("Pure", .null)], .text "Ordinary", .text "x", .null,
        .list [], .list [.list [.text "#0", .object [("Data", .null)], .int 0]]],
      .object [("referents", .list []), ("colour", .int 3), ("id", .int 0), ("kind", .text "Op"),
        ("mode", .text "SideEffectful"), ("boundary", .object [("End", .null)]),
        ("dependencies", .list [.object [("kind", .text "Data"), ("seed", .int (-1)),
          ("key", .text "#0")]])]],
    .list [.list [.int (-1), .text "s0", .object [("Seed", .int (-2147483648))]]]]

/-- A report that was read from mixed forms is read again from its one written form. -/
theorem looseReport_roundTrip :
    ∃ report : Report, decode looseReport = some report ∧ report.seeds.length = 2 ∧
      decode (encode report) = some report :=
  have read : decode looseReport = some (⟨-1, 1, true,
      [⟨⟨-1⟩, "Op", .pure, .ordinary, some "x", none, [], [⟨"#0", .data, ⟨0⟩⟩]⟩,
        ⟨⟨0⟩, "Op", .sideEffectful, .closes, none, none, [⟨"#0", .data, ⟨-1⟩⟩], []⟩],
      [⟨⟨-1⟩, "s0", .seed ⟨-2147483648⟩⟩]⟩ : Report) := rfl
  have ⟨_, _, _, _, _, _, _, _, _, _, _, _, ofReports⟩ := decode_undoes_encode
  ⟨_, read, rfl, (ofReports.2 _ _ read).2.1⟩

end Wire

end SeedGraph
