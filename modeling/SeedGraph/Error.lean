import SeedGraph.Edge

/-!
# Failures

An operation of a generation session fails for one of finitely many reasons.  Each reason is a
constructor that carries what it is about; `Error.message` holds all of the wording.

## Main definitions

* `Operation`: the graph operations that a type-only placeholder refuses.
* `SettingsFault`: what can be wrong with settings.
* `Error`, `Error.message`: the reasons and their text.
-/

namespace SeedGraph

/-- The operations that make sense for seeds of the graph and for no placeholder. -/
inductive Operation where
  | id
  | assignId
  | dependencies
  | mode
  | boundary
  | bindingOverride
  | payload
  | setPayload
  | compilationResult
  | setCompilationResult
  | compile
  deriving DecidableEq, Repr

/-- The name of an operation in a message. -/
def Operation.name : Operation → String
  | .id => "id"
  | .assignId => "assign_id"
  | .dependencies => "dependencies"
  | .mode => "mode"
  | .boundary => "boundary"
  | .bindingOverride => "binding_override"
  | .payload => "payload"
  | .setPayload => "set_payload"
  | .compilationResult => "compilation_result"
  | .setCompilationResult => "set_compilation_result"
  | .compile => "compile"

/-- What can be wrong with the settings of a session. -/
inductive SettingsFault where
  /-- Nothing says how locals are written. -/
  | noPlatform
  /-- Locals could not be named after `stem`. -/
  | notIdentifier (stem : String)
  /-- A limit of no seeds at all. -/
  | zeroLimit
  /-- A fault found and worded elsewhere. -/
  | stated (reason : String)
  deriving DecidableEq, Repr

/-- The wording of a fault. -/
def SettingsFault.reason : SettingsFault → String
  | .noPlatform => "no platform functions provided"
  | .notIdentifier stem => "local variable prefix '" ++ stem ++ "' is not an identifier"
  | .zeroLimit => "max_seeds must be at least 1"
  | .stated reason => reason

/-- Why an operation failed. -/
inductive Error where
  /-- The settings are unusable. -/
  | invalidSettings (fault : SettingsFault)
  /-- The seed already has the identifier `id`. -/
  | alreadyRegistered (id : SeedId)
  /-- A placeholder was asked for what only a seed of the graph can do. -/
  | unsupported (operation : Operation)
  /-- No seed is stored at `id`. -/
  | seedNotFound (id : SeedId)
  /-- The seed has not been given a result. -/
  | missingResult (id : SeedId)
  /-- The seed was given a second result. -/
  | resultAlreadySet (id : SeedId)
  /-- The seed already is in a local, which is reported as `name`. -/
  | alreadyBound (id : SeedId) (name : String)
  /-- The seed has no edge under `key`. -/
  | missingDependency (id : SeedId) (key : Key)
  /-- The seed was reached again while its own hook was running. -/
  | reentrantCompile (id : SeedId)
  /-- The hook of the seed ended without its continuation. -/
  | continuationNotInvoked (id : SeedId)
  /-- The hook of the seed invoked its continuation again. -/
  | continuationInvokedTwice (id : SeedId)
  /-- The seed compiled to a reference to the seed `leaked` and not to code. -/
  | malformedResult (id leaked : SeedId)
  /-- The graph is still being built. -/
  | notFinalized
  /-- The graph can no longer be changed. -/
  | alreadyFinalized
  /-- There is no scope to end. -/
  | noOpenScope
  /-- Scopes were left open. -/
  | unbalancedScopes (count : Nat)
  /-- The edge from `source` leads to no stored seed. -/
  | danglingDependency (source target : SeedId)
  /-- The seed lies on a cycle of edges. -/
  | cyclicDependency (id : SeedId)
  /-- There is no room for another seed. -/
  | seedLimit (limit : Nat)
  deriving DecidableEq, Repr

/-- The text of an error.  Identifiers are displayed, except that a failed lookup shows the bare
index that was looked up. -/
def Error.message : Error → String
  | .invalidSettings fault => "invalid settings: " ++ fault.reason
  | .alreadyRegistered id => s!"cannot register seed {id.display}: it is already registered"
  | .unsupported operation => "unsupported operation on typed seed: " ++ operation.name
  | .seedNotFound id => s!"seed not found: {id.index}"
  | .missingResult id => s!"no compilation result set for seed {id.display}"
  | .resultAlreadySet id => s!"compilation result of seed {id.display} is already set"
  | .alreadyBound id name => s!"seed {id.display} is already bound to '{name}'"
  | .missingDependency id key => s!"seed {id.display} has no dependency '{key.display}'"
  | .reentrantCompile id => s!"seed {id.display} re-entered while its continuation is pending"
  | .continuationNotInvoked id => s!"continuation never invoked when compiling seed {id.display}"
  | .continuationInvokedTwice id =>
    s!"continuation invoked more than once when compiling seed {id.display}"
  | .malformedResult id leaked => s!"the result of seed {id.display} is seed {leaked.display}"
  | .notFinalized => "state is not finalized"
  | .alreadyFinalized => "state is already finalized"
  | .noOpenScope => "no open scope to end"
  | .unbalancedScopes count => s!"{count} scope(s) still open"
  | .danglingDependency source target =>
    s!"seed {source.display} depends on missing seed {target.display}"
  | .cyclicDependency id => s!"cyclic dependency through seed {id.display}"
  | .seedLimit limit => s!"seed limit of {limit} reached"

end SeedGraph
