import SeedGraph.Traversal

/-!
# Sessions

A session is a generator whose hooks are lists of actions.  It is created from settings, and then
carries out requests one after the other; a request that fails leaves a session that can go on.

## Main definitions

* `Session.create`, `Session.createWith`: new sessions.
* `Session.perform`: one request.
* `Session.run`: a sequence of requests, whatever becomes of them.
-/

namespace SeedGraph

/-- A generation session. -/
abbrev Session := Generator Hook

namespace Session

/-- A session without seeds. -/
def create (settings : Settings) : Except Error Session :=
  Generator.create settings

/-- A session over pre-existing seeds. -/
def createWith (settings : Settings) (candidates : List (Candidate (Blueprint Hook))) :
    Except Error Session :=
  Generator.createWith settings (candidates.map (Candidate.map Blueprint.build))

/-- Carry out a request.  Hooks may run inside one another as deeply as there are seeds. -/
def perform (request : Request) : GenM Hook Answer := do
  Generator.respond (Generator.traverse (← get).store.seeds.length) request

/-- The outcome of a request, and the session after it. -/
def step (session : Session) (request : Request) : Except Error Answer × Session :=
  match (perform request).run session with
  | .ok answer session' => (.ok answer, session')
  | .error failure session' => (.error failure, session')

/-- The session after a sequence of requests. -/
def run (session : Session) (requests : List Request) : Session :=
  requests.foldl (fun session request => (session.step request).2) session

end Session

end SeedGraph
