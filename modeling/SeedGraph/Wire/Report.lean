import SeedGraph.Report
import SeedGraph.Wire.Graph

/-!
# The serialized forms of reports
-/

namespace SeedGraph

open Wire

instance : Wire EdgeRow where
  encode row := .object [
    ("key", encode row.key), ("kind", encode row.kind), ("seed", encode row.seed)]
  decode json :=
    match json.fields? ["key", "kind", "seed"] with
    | some [key, kind, seed] => return ⟨← field key, ← field kind, ← field seed⟩
    | _ => none

/-- The result and the local of a seed may be absent. -/
instance : Wire SeedRow where
  encode row := .object [
    ("id", encode row.id), ("kind", encode row.kind), ("mode", encode row.mode),
    ("boundary", encode row.boundary), ("result", encode row.result),
    ("bound_to", encode row.boundTo), ("dependencies", encode row.dependencies),
    ("referents", encode row.referents)]
  decode json :=
    match json.fields? ["id", "kind", "mode", "boundary", "result", "bound_to", "dependencies",
      "referents"] with
    | some [id, kind, mode, boundary, result, boundTo, dependencies, referents] => return {
        id := ← field id
        kind := ← field kind
        mode := ← field mode
        boundary := ← field boundary
        result := ← field? result
        boundTo := ← field? boundTo
        dependencies := ← field dependencies
        referents := ← field referents }
    | _ => none

/-- The ends of the stored range are 32-bit signed integers. -/
instance : Wire Report where
  encode report := .object [
    ("lower", .int report.lower), ("upper", .int report.upper),
    ("finalized", encode report.finalized), ("seeds", encode report.seeds),
    ("bindings", encode report.bindings)]
  decode json :=
    match json.fields? ["lower", "upper", "finalized", "seeds", "bindings"] with
    | some [lower, upper, finalized, seeds, bindings] => return {
        lower := ← lower.bind Json.word?
        upper := ← upper.bind Json.word?
        finalized := ← field finalized
        seeds := ← field seeds
        bindings := ← field bindings }
    | _ => none

end SeedGraph
