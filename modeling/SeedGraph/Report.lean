import SeedGraph.Locals
import SeedGraph.Effect

/-!
# Reports

A report is a table of a whole session that can be serialized: one row for each seed, with its
result and its edges in both directions, and the locals.  `Report.dump` is the same table as text
for a reader.

## Main definitions

* `EdgeRow`, `SeedRow`, `Report`: the table.
* `Report.dump`: its text.
-/

namespace SeedGraph

/-- An edge as seen from one of its ends. -/
structure EdgeRow where
  /-- The displayed key of the edge. -/
  key : String
  /-- The kind of the edge. -/
  kind : EdgeKind
  /-- The seed at the other end. -/
  seed : SeedId
  deriving DecidableEq, Repr

/-- The row of one seed. -/
structure SeedRow where
  /-- The seed. -/
  id : SeedId
  /-- The description of its kind. -/
  kind : String
  /-- Its mode. -/
  mode : Mode
  /-- Its boundary. -/
  boundary : Boundary
  /-- The displayed value that it compiled to. -/
  result : Option String
  /-- The local that holds the value. -/
  boundTo : Option String
  /-- The edges that start at the seed. -/
  dependencies : List EdgeRow
  /-- The edges that lead to the seed. -/
  referents : List EdgeRow
  deriving DecidableEq, Repr

/-- The table of a session. -/
structure Report where
  /-- The least stored index. -/
  lower : Int
  /-- The index after the greatest stored one. -/
  upper : Int
  /-- Is the graph complete? -/
  finalized : Bool
  /-- One row for each stored seed, in ascending order. -/
  seeds : List SeedRow
  /-- The locals, in order of allocation. -/
  bindings : List Binding
  deriving DecidableEq, Repr

/-- Pad a text on the left with blanks to at least `width` characters. -/
def alignRight (width : Nat) (s : String) : String :=
  String.ofList (List.replicate (width - s.length) ' ') ++ s

namespace EdgeRow

/-- A list of edges, each as its key and its other end. -/
def listText (rows : List EdgeRow) : String :=
  if rows.isEmpty then "none"
  else String.intercalate ", " (rows.map fun row => row.key ++ " " ++ row.seed.display)

end EdgeRow

namespace SeedRow

/-- The result of a seed: nothing yet, a value, or a value in a local. -/
def resultText (row : SeedRow) : String :=
  match row.result, row.boundTo with
  | none, _ => "unset"
  | some value, none => "= " ++ value
  | some value, some name => "= " ++ name ++ " <- " ++ value

/-- The three lines of a seed. -/
def dump (row : SeedRow) : String :=
  " - " ++ alignRight 4 (toString row.id.index) ++ " " ++ row.kind ++ " " ++ row.mode.name ++ "/" ++
    row.boundary.name ++ " " ++ row.resultText ++ "\n" ++
  "        deps: " ++ EdgeRow.listText row.dependencies ++ "\n" ++
  "        refs: " ++ EdgeRow.listText row.referents ++ "\n"

end SeedRow

/-- The text of a report: a heading with the stored range, then the seeds. -/
def Report.dump (report : Report) : String :=
  s!"=== State [{report.lower}, {report.upper})" ++
    (if report.finalized then " finalized" else "") ++ " ===\n" ++
    String.join (report.seeds.map SeedRow.dump)

end SeedGraph
