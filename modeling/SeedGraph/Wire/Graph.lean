import SeedGraph.Seed
import SeedGraph.Statement
import SeedGraph.Wire

/-!
# The serialized forms of seeds' attributes, results and statements
-/

namespace SeedGraph

open Wire

/-- An identifier is its index, a 32-bit signed integer. -/
instance : Wire SeedId where
  encode id := .int id.index
  decode json := json.word?.map SeedId.mk

instance : Wire Mode where
  encode mode := .text mode.name
  decode := decodePlain Mode.name [.pure, .ordered, .sideEffectful]

instance : Wire Boundary where
  encode boundary := .text boundary.name
  decode := decodePlain Boundary.name [.ordinary, .opens, .closes]

instance : Wire EdgeKind where
  encode kind := .text kind.name
  decode := decodePlain EdgeKind.name [.data, .ordering]

instance : Wire Key where
  encode
    | .arg position => .variant "Arg" (encode position)
    | .named name => .variant "Named" (encode name)
    | .ordering ordinal => .variant "Ordering" (encode ordinal)
  decode json :=
    match json.variant? with
    | some ("Arg", data) => (decode data).map Key.arg
    | some ("Named", data) => (decode data).map Key.named
    | some ("Ordering", data) => (decode data).map Key.ordering
    | _ => none

instance : Wire Referent where
  encode referent := .object [("from", encode referent.source), ("key", encode referent.key)]
  decode json :=
    match json.fields? ["from", "key"] with
    | some [source, key] => return ⟨← field source, ← field key⟩
    | _ => none

instance : Wire Compiled where
  encode
    | .code text => .variant "Code" (encode text)
    | .seed id => .variant "Seed" (encode id)
  decode json :=
    match json.variant? with
    | some ("Code", data) => (decode data).map Compiled.code
    | some ("Seed", data) => (decode data).map Compiled.seed
    | _ => none

instance : Wire Placeholder where
  encode placeholder := .object [("type_tag", encode placeholder.typeTag)]
  decode json :=
    match json.fields? ["type_tag"] with
    | some [typeTag] => return ⟨← field typeTag⟩
    | _ => none

instance : Wire Binding where
  encode binding := .object [("seed", encode binding.seed), ("var_name", encode binding.name),
    ("value", encode binding.value)]
  decode json :=
    match json.fields? ["seed", "var_name", "value"] with
    | some [seed, name, value] => return ⟨← field seed, ← field name, ← field value⟩
    | _ => none

/-- The data of a block is read from an object only. -/
instance : Wire Statement where
  encode
    | .declare binding => .variant "Let" (encode binding)
    | .block seed code => .variant "Scope" (.object [("seed", encode seed), ("code", encode code)])
  decode json :=
    match json.variant? with
    | some ("Let", data) => (decode data).map Statement.declare
    | some ("Scope", data) =>
      match data.members? ["seed", "code"] with
      | some [seed, code] => return .block (← field seed) (← field code)
      | _ => none
    | _ => none

end SeedGraph
