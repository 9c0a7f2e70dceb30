import SeedGraph.Generator

/-!
# Whole programs and nested regions

Both are generated by a traversal, which compiles seeds from some start on and answers with the last
result.  The traversal is a parameter here: hooks run inside of it and generate regions themselves,
and each such region is generated by a traversal one level further in.

## Main definitions

* `Traversal κ`: the type of a traversal.
* `Generator.generate`: the whole program.
* `Generator.generateRegion`: a nested region.  What is emitted directly inside of it is tagged with
  a depth one greater than that of its surroundings, and collected afterwards.
-/

namespace SeedGraph

/-- Compile the seeds from a start on; the answer is the last result, or the given one if there was
nothing to compile. -/
abbrev Traversal (κ : Type) := Option Compiled → SeedId → GenM κ (Option Compiled)

namespace Generator

variable {κ : Type}

/-- Generate all seeds from the lowest index on.  No scope may be open. -/
def generate (traversal : Traversal κ) : GenM κ (Option Compiled) := do
  let gen ← get
  require (gen.scopes = []) (.unbalancedScopes gen.scopes.length)
  traversal none ⟨gen.lower⟩

/-- Go one region deeper. -/
def openRegion (gen : Generator κ) : Generator κ :=
  { gen with regionDepth := gen.regionDepth + 1, journal := gen.journal ++ [.regionOpened] }

/-- Come back from a nested region. -/
def closeRegion (region : Option Region) (gen : Generator κ) : Generator κ :=
  { gen with regionDepth := gen.regionDepth - 1, journal := gen.journal ++ [.regionClosed region] }

/-- The statements emitted at `depth` after the first `mark` ones. -/
def emittedSince (gen : Generator κ) (mark depth : Nat) : List Statement :=
  ((gen.emissions.drop mark).filter fun e => e.depth = depth).map Emission.statement

/-- Generate the nested region that starts at `start`, and collect what was emitted in it.  Whether
this succeeds or fails, the depth is in the end what it was. -/
def generateRegion (traversal : Traversal κ) (start : SeedId) : GenM κ Region := fun gen =>
  match (traversal none start).run gen.openRegion with
  | .ok result gen' =>
    let region := { statements := gen'.emittedSince gen.emissions.length gen'.regionDepth, result }
    .ok region (gen'.closeRegion region)
  | .error failure gen' => .error failure (gen'.closeRegion none)

end Generator

end SeedGraph
