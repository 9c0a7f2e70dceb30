import SeedGraph.Json

/-!
# Serialization

A type with a serialized form is written as a JSON value in one way and read in every way that the
format admits:

* a *record* is written as an object.  It is read from an object, whose further members do not
  matter, or from a list of the values of its fields in order;
* a field that may be absent is written as `null` in that case, and a missing member is read so;
* a *variant* without data is written as its name, and also read from an object that gives the name
  the value `null`;
* a variant with data is an object that gives its name the data.

## Main definitions

* `Wire α`: how values of `α` are written and read.
* `Json.fields?`, `Json.plainVariant?`, `Json.variant?`: the shapes above.
-/

namespace SeedGraph

/-- A type with a serialized form. -/
class Wire (α : Type) where
  /-- Write a value. -/
  encode : α → Json
  /-- Read a value, if the JSON value is a form of one. -/
  decode : Json → Option α

namespace Json

/-- An integer from `low` up to `high`. -/
def intBetween? (low high : Int) : Json → Option Int
  | .number n 0 => if low ≤ n ∧ n < high then some n else none
  | _ => none

/-- A 32-bit signed integer. -/
def word? (json : Json) : Option Int :=
  json.intBetween? (-2147483648) 2147483648

/-- The members of an object with the given names. -/
def members? (names : List String) : Json → Option (List (Option Json))
  | .object members => some (names.map fun name => members.lookup name)
  | _ => none

/-- The fields of a record, by name or by position. -/
def fields? (names : List String) : Json → Option (List (Option Json))
  | .object members => some (names.map fun name => members.lookup name)
  | .list items => if items.length = names.length then some (items.map some) else none
  | _ => none

/-- The name of a variant without data. -/
def plainVariant? : Json → Option String
  | .text name => some name
  | .object [(name, .null)] => some name
  | _ => none

/-- The name and the data of a variant with data. -/
def variant? : Json → Option (String × Json)
  | .object [(name, data)] => some (name, data)
  | _ => none

/-- A variant with data. -/
def variant (name : String) (data : Json) : Json :=
  .object [(name, data)]

end Json

namespace Wire

variable {α : Type}

/-- A field that has to be there. -/
def field [Wire α] (json : Option Json) : Option α :=
  json.bind decode

/-- Read a variant without data, out of all values of the type. -/
def decodePlain (name : α → String) (all : List α) (json : Json) : Option α :=
  json.plainVariant?.bind fun found => all.find? fun value => name value = found

instance : Wire String where
  encode := .text
  decode
    | .text s => some s
    | _ => none

instance : Wire Bool where
  encode := .bool
  decode
    | .bool b => some b
    | _ => none

instance : Wire UInt16 where
  encode n := .int n.toNat
  decode json := (json.intBetween? 0 65536).map fun n => UInt16.ofNat n.toNat

instance : Wire UInt32 where
  encode n := .int n.toNat
  decode json := (json.intBetween? 0 4294967296).map fun n => UInt32.ofNat n.toNat

instance [Wire α] : Wire (List α) where
  encode values := .list (values.map encode)
  decode
    | .list items => items.mapM decode
    | _ => none

instance [Wire α] : Wire (Option α) where
  encode
    | none => .null
    | some value => encode value
  decode
    | .null => some none
    | json => (decode json).map some

/-- A field that may be absent. -/
def field? [Wire α] : Option Json → Option (Option α)
  | none => some none
  | some json => decode json

end Wire

end SeedGraph
