/-!
# JSON values

Payloads of seeds and serialized reports are JSON values.  Members of an object are kept as they
come; it is the printed form that puts them in ascending order of their keys.

## Main definitions

* `Json`: a value.  A number is `mantissa / 10 ^ scale`, so an integer has scale zero.
* `Json.render`: the compact text of a value.
-/

namespace SeedGraph

/-- A JSON value. -/
inductive Json where
  | null
  | bool (value : Bool)
  /-- The number `mantissa / 10 ^ scale`. -/
  | number (mantissa : Int) (scale : Nat)
  | text (value : String)
  | list (items : List Json)
  | object (members : List (String × Json))
  deriving Repr

namespace Json

instance : Inhabited Json := ⟨.null⟩

/-- An integer. -/
@[match_pattern] def int (value : Int) : Json := .number value 0

/-- The two lower digits of the escape `\u00xx` of a control character. -/
def hexPair (n : Nat) : String :=
  String.ofList [Nat.digitChar (n / 16 % 16), Nat.digitChar (n % 16)]

/-- A character inside a quoted text: quotes, backslashes and control characters are escaped, all
others stand for themselves. -/
def escape (c : Char) : String :=
  if c = '"' then "\\\""
  else if c = '\\' then "\\\\"
  else if c = '\n' then "\\n"
  else if c = '\r' then "\\r"
  else if c = '\t' then "\\t"
  else if c = '\x08' then "\\b"
  else if c = '\x0c' then "\\f"
  else if c.toNat < 32 then "\\u00" ++ hexPair c.toNat
  else c.toString

/-- A text in quotes. -/
def quote (s : String) : String :=
  "\"" ++ String.join (s.toList.map escape) ++ "\""

/-- A number in decimal, with as many places as its scale says. -/
def decimal (mantissa : Int) (scale : Nat) : String :=
  if scale = 0 then toString mantissa
  else
    let sign := if mantissa < 0 then "-" else ""
    let unit := Nat.pow 10 scale
    let places := toString (mantissa.natAbs % unit)
    sign ++ toString (mantissa.natAbs / unit) ++ "." ++
      String.ofList (List.replicate (scale - places.length) '0') ++ places

/-- Printed members in ascending order of their keys, put in the braces of an object. -/
def renderObject (members : List (String × String)) : String :=
  let sorted := members.mergeSort fun a b => decide (a.1 ≤ b.1)
  "\x7b" ++ String.intercalate "," (sorted.map fun member => quote member.1 ++ ":" ++ member.2) ++
    "\x7d"

mutual

/-- The compact text of a value: no blanks, and keys in ascending order. -/
def render : Json → String
  | .null => "null"
  | .bool value => if value then "true" else "false"
  | .number mantissa scale => decimal mantissa scale
  | .text value => quote value
  | .list items => "[" ++ String.intercalate "," (renderItems items) ++ "]"
  | .object members => renderObject (renderMembers members)

/-- The texts of the items of a list. -/
def renderItems : List Json → List String
  | [] => []
  | item :: rest => render item :: renderItems rest

/-- The texts of the members of an object, with their keys. -/
def renderMembers : List (String × Json) → List (String × String)
  | [] => []
  | (key, value) :: rest => (key, render value) :: renderMembers rest

end

end Json

end SeedGraph
