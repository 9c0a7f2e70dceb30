import SeedGraph.Locals
import SeedGraph.Settings

/-!
# Emitted statements and their lines

While seeds are compiled, statements are emitted: the declaration of each local, and the code of
each seed that opens a region and is not held in a local.  A program, or a region of it, is a list
of statements with a final result; its text has one line for each statement and one for the result.

## Main definitions

* `Statement`, `Region`: what is emitted.
* `Platform.lines`: the lines of statements and a result.  A result that is the code of the block
  written last is not written again.
-/

namespace SeedGraph

/-- A statement of a generated program. -/
inductive Statement where
  /-- The declaration of a local. -/
  | declare (binding : Binding)
  /-- The code of a seed that opens a region, at the place where it was compiled. -/
  | block (seed : SeedId) (code : Compiled)
  deriving DecidableEq, Repr

/-- A statement together with the depth of the region it was emitted in; the program itself is at
depth zero. -/
structure Emission where
  /-- How many regions were open around the statement. -/
  depth : Nat
  /-- The statement. -/
  statement : Statement
  deriving DecidableEq, Repr

/-- The statements emitted directly inside a nested region, and its result. -/
structure Region where
  /-- The statements, in order of emission. -/
  statements : List Statement
  /-- The result of the last seed of the region, if it has seeds. -/
  result : Option Compiled
  deriving DecidableEq, Repr

namespace Statement

/-- Is the statement a block with just the code `result`? -/
def isBlockOf (result : Compiled) : Statement → Bool
  | .declare _ => false
  | .block _ code => code = result

end Statement

namespace Platform

/-- The line of a statement. -/
def line (platform : Platform) : Statement → String
  | .declare binding => platform.declaration binding.name binding.value.display
  | .block _ code => code.display

/-- The line of a result after `statements`, unless the last of them already is that line. -/
def resultLine (statements : List Statement) : Option Compiled → List String
  | none => []
  | some result =>
    if statements.getLast?.any (Statement.isBlockOf result) then [] else [result.display]

/-- The lines of statements and the result that follows them. -/
def lines (platform : Platform) (statements : List Statement) (result : Option Compiled) :
    List String :=
  statements.map platform.line ++ resultLine statements result

end Platform

end SeedGraph
