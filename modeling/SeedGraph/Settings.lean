import SeedGraph.Error

/-!
# Settings of a session

The text of a generated program depends on the language it is written in only through a
`Platform`, which says how a local is mentioned and how it is declared.  The other settings name
the locals, bound the number of seeds, and turn the search for cycles on or off.

## Main definitions

* `Platform`, with `Platform.letBinding` and `Platform.affixed`.
* `Settings`, `Settings.check`: settings, and the platform of those that are usable.
-/

namespace SeedGraph

/-- How the generated language writes locals. -/
structure Platform where
  /-- A mention of the local `name`. -/
  reference : String → String
  /-- The declaration that gives the local `name` the value `value`. -/
  declaration (name value : String) : String

/-- Locals are mentioned by their bare name and declared by `let name = value;`. -/
def Platform.letBinding : Platform where
  reference name := name
  declaration name value := "let " ++ name ++ " = " ++ value ++ ";"

/-- Locals are written with fixed texts around and between name and value. -/
def Platform.affixed (beforeMention afterMention beforeName between afterValue : String) :
    Platform where
  reference name := beforeMention ++ name ++ afterMention
  declaration name value := beforeName ++ name ++ between ++ value ++ afterValue

/-- May the character start an identifier? -/
def startsIdentifier (c : Char) : Bool :=
  c.isAlpha || c == '_'

/-- May the character stand inside an identifier? -/
def continuesIdentifier (c : Char) : Bool :=
  c.isAlphanum || c == '_'

/-- An ASCII letter or underscore, followed by ASCII letters, digits and underscores. -/
def isIdentifier (s : String) : Bool :=
  match s.toList with
  | [] => false
  | first :: rest => startsIdentifier first && rest.all continuesIdentifier

/-- The settings of a session. -/
structure Settings where
  /-- How locals are written; a session needs one. -/
  platform : Option Platform := none
  /-- The text that starts the name of every local. -/
  stem : String := "s"
  /-- The greatest number of seeds that may be registered, if there is one. -/
  limit : Option Nat := none
  /-- Is a graph with a cycle refused? -/
  checkCycles : Bool := true

/-- The platform of usable settings.  A missing platform is reported before a bad stem, and a bad
stem before a limit of zero. -/
def Settings.check (settings : Settings) : Except Error Platform :=
  match settings.platform with
  | none => .error (.invalidSettings .noPlatform)
  | some platform =>
    if isIdentifier settings.stem = false then
      .error (.invalidSettings (.notIdentifier settings.stem))
    else if settings.limit = some 0 then
      .error (.invalidSettings .zeroLimit)
    else
      .ok platform

end SeedGraph
