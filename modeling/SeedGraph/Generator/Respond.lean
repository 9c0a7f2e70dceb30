import SeedGraph.Generator.Binding
import SeedGraph.Generator.Region
import SeedGraph.Generator.Report
import SeedGraph.Generator.Scope
import SeedGraph.Graph.Dot
import SeedGraph.Request

/-!
# Responding to requests

Each request is one operation of a generator, and its value is made into an answer.  The generation
of code is left to a traversal that is given from outside, since a request may come from the session
itself or from a hook that is running in a traversal.
-/

namespace SeedGraph

namespace Generator

/-- Remember the result of a generation as the latest one. -/
def remember (result : Option Compiled) : GenM Hook Answer := do
  modify fun gen => { gen with latest := result }
  return .result result

/-- The result that a rendered program is to end with. -/
def finalResult (gen : Generator Hook) : FinalResult → Option Compiled
  | .given result => result
  | .latest => gen.latest

/-- Carry out a request, with `traversal` to generate code. -/
def respond (traversal : Traversal Hook) : Request → GenM Hook Answer
  | .register candidate => return .id (← register (candidate.map Blueprint.build))
  | .registerCopy id => do
    let seed ← lookup id
    return .id (← register (.seed seed))
  | .addDependency source key target => do
    addDependency source key target
    return .done
  | .addOrdering source target => return .key (← addOrdering source target)
  | .setPayload id payload => do
    setPayload id payload
    return .done
  | .payload id => return .payload (← lookup id).payload
  | .beginScope anchor depending => do
    beginScope anchor depending
    return .done
  | .endScope => do
    let (anchor, mode) ← endScope
    return .scopeEnded anchor mode
  | .memo key => return .memo ((← get).memo? key)
  | .memoize key id => return .memo (← memoize key id)
  | .propagateOrdering id => do
    propagateOrdering id
    return .done
  | .finalize => do
    finalize
    return .done
  | .referentCount id => return .count (← referentCount id)
  | .referents id => return .referents (← lookup id).referents
  | .shouldBind id => return .decision (← policy id)
  | .bind id => do
    bind id
    return .done
  | .setOutput output => do
    modify fun gen => { gen with output := some output }
    return .done
  | .output => return .result (← get).output
  | .generate => do remember (← generate traversal)
  | .generateFrom initial start => do remember (← traversal initial start)
  | .generateRegion start => do
    let region ← generateRegion traversal start
    return .region region ((← get).renderRegion region)
  | .render result => do
    let gen ← get
    return .lines (gen.render (gen.finalResult result))
  | .renderRegion region => return .lines ((← get).renderRegion region)
  | .seed id => return .seed (← lookup id).forgetHook
  | .result id => do
    let seed ← lookup id
    return .result (some (← MonadExcept.ofExcept seed.result))
  | .seeds => return .stored ((← get).store.entries.map fun (id, seed) => (id, seed.id))
  | .bindings => return .bindings (← get).locals.bindings
  | .bindingFor id => return .binding ((← get).locals.bindingFor? id)
  | .report => return .report (← get).report
  | .dump => return .text (← get).report.dump
  | .dot => return .text (← get).store.dependencyGraph.toDot
  | .graph => return .graph (← get).store.dependencyGraph
  | .writeLocal name value => do
    let platform := (← get).platform
    return .rendering (platform.reference name) (platform.declaration name value)
  | .settings => return .settings (← get).settings

end Generator

end SeedGraph
