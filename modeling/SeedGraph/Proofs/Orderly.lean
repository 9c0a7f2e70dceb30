import SeedGraph.Proofs.Creation

/-!
# Requests as moves

An operation is *orderly* if, whether it succeeds or fails, it takes the session from where it is to
where it ends by moves alone, has then closed every frame that it opened, and closed no other frame
on the way.  Orderly operations compose, so it is enough to look at each primitive once; a request
that generates code is orderly as soon as the traversal behind it is.

Most operations open no frame at all.  They are *level*: only generating code begins anything that
has to end again.

The one fact about the session that this needs is that every stored seed carries the identifier
under which it is stored.  It is what makes registering a copy of a stored seed fail.
-/

namespace SeedGraph

/-! ### Stored seeds carry their identifiers -/

/-- Every stored seed carries the identifier under which it is stored. -/
def Store.Numbered {κ : Type} (store : Store κ) : Prop :=
  ∀ id seed, store.get? id = some seed → seed.id = some id

namespace Store.Numbered

variable {κ : Type} {store : Store κ}

/-- Replacing a seed by one with the same identifier keeps the numbering. -/
theorem set (h : store.Numbered) {id : SeedId} {seed : Seed κ} (stored : store.get? id = some seed)
    {seed' : Seed κ} (same : seed'.id = seed.id) : (store.set id seed').Numbered := by
  intro other found hfound
  rw [store.get?_set _ _ _ (by rw [stored]; rfl)] at hfound
  by_cases heq : id = other
  · rw [if_pos heq, Option.some.injEq] at hfound
    rw [← hfound, same, ← heq]
    exact h id seed stored
  · rw [if_neg heq] at hfound
    exact h other found hfound

theorem push (h : store.Numbered) {seed : Seed κ} (own : seed.id = some ⟨store.upper⟩) :
    (store.push seed).Numbered := by
  intro other found hfound
  rw [store.get?_push] at hfound
  by_cases heq : other.index = store.upper
  · rw [if_pos heq, Option.some.injEq] at hfound
    rw [← hfound, own, ← heq]
  · rw [if_neg heq] at hfound
    exact h other found hfound

theorem record (h : store.Numbered) (entries : List (SeedId × Referent)) :
    (store.record entries).Numbered := by
  intro other found hfound
  rw [store.get?_record] at hfound
  obtain ⟨seed, hseed, rfl⟩ := Option.map_eq_some_iff.1 hfound
  exact h other seed hseed

theorem ofBlueprints (blueprints : List (Blueprint Hook)) :
    (Store.ofBlueprints blueprints).Numbered := by
  intro id seed hstored
  obtain ⟨blueprint, -, rfl⟩ := Store.exists_of_get?_ofBlueprints hstored
  rfl

end Store.Numbered

theorem Move.numbered {gen gen' : Session} (move : Move gen gen') (h : gen.store.Numbered) :
    gen'.store.Numbered := by
  cases move with
  | register blueprint _ _ _ => exact h.push rfl
  | addEdge _ _ _ stored => exact h.set stored rfl
  | addOrdering _ _ stored => exact h.set stored rfl
  | setPayload _ stored => exact h.set stored rfl
  | complete _ _ _ => exact h.record _
  | bind stored _ => exact h.set stored rfl
  | write _ _ stored _ => exact h.set stored rfl
  | _ => exact h

theorem Moves.numbered {gen gen' : Session} (moves : Moves gen gen') (h : gen.store.Numbered) :
    gen'.store.Numbered := by
  induction moves with
  | refl => exact h
  | tail _ move ih => exact move.numbered ih

theorem Reachable.numbered {gen : Session} (h : Reachable gen) : gen.store.Numbered := by
  obtain ⟨settings, candidates, origin, created, moves⟩ := h
  obtain ⟨platform, blueprints, -, -, -, rfl⟩ := createWith_eq_ok created
  exact moves.numbered (Store.Numbered.ofBlueprints blueprints)

/-- A complete graph stays complete. -/
theorem Move.finalized {gen gen' : Session} (move : Move gen gen') (h : gen.finalized = true) :
    gen'.finalized = true := by
  cases move with
  | complete _ _ _ => rfl
  | _ => exact h

theorem Moves.finalized {gen gen' : Session} (moves : Moves gen gen') (h : gen.finalized = true) :
    gen'.finalized = true := by
  induction moves with
  | refl => exact h
  | tail _ move ih => exact move.finalized ih

/-- The depth of a session counts the regions whose generation is going on. -/
theorem Move.regionDepth {gen gen' : Session} (move : Move gen gen')
    (h : gen.regionDepth = gen.frames.count .region) :
    gen'.regionDepth = gen'.frames.count .region := by
  cases move with
  | register _ _ _ _ => rw [Generator.frames_enroll]; exact h
  | openRegion => rw [Generator.frames_openRegion, List.count_cons_self, ← h]; rfl
  | closeRegion _ innermost =>
    rw [innermost, List.count_cons_self] at h
    rw [Generator.frames_closeRegion, innermost, List.tail_cons]
    exact congrArg (· - 1) h
  | remark event plain => rw [Generator.frames_noted, Event.nest_of_isRemark plain]; exact h
  | endTraversal _ innermost =>
    rw [innermost] at h
    rw [Generator.frames_noted, innermost]
    exact h
  | proceed innermost =>
    rw [innermost] at h
    rw [Generator.frames_noted, innermost]
    exact h
  | proceedBlock innermost _ _ _ =>
    rw [innermost] at h
    rw [Generator.frames_emitted, Generator.frames_noted, innermost]
    exact h
  | accept innermost _ _ =>
    rw [innermost] at h
    rw [Generator.frames_noted, Generator.frames_left, innermost]
    exact h
  | reject _ _ innermost =>
    rw [innermost] at h
    rw [Generator.frames_noted, Generator.frames_left, innermost]
    exact h
  | openScope _ _ _ => rw [Generator.frames_noted]; exact h
  | closeScope _ => rw [Generator.frames_noted]; exact h
  | memoize _ _ => rw [Generator.frames_noted]; exact h
  | beginTraversal => rw [Generator.frames_noted]; exact h
  | enter _ _ _ _ _ => rw [Generator.frames_entered]; exact h
  | write _ _ _ _ => rw [Generator.frames_withResult]; exact h
  | _ => exact h

theorem Moves.regionDepth {gen gen' : Session} (moves : Moves gen gen')
    (h : gen.regionDepth = gen.frames.count .region) :
    gen'.regionDepth = gen'.frames.count .region := by
  induction moves with
  | refl => exact h
  | tail _ move ih => exact move.regionDepth ih

/-! ### Routes -/

/-- Moves on which at least `floor` frames stay open.  On a level route there are never more. -/
def Route (level : Bool) (floor : Nat) : Session → Session → Prop :=
  Relation.ReflTransGen fun gen gen' =>
    Move gen gen' ∧ floor ≤ gen'.frames.length ∧ (level = true → gen'.frames.length = floor)

namespace Route

variable {level : Bool} {floor : Nat} {gen gen' gen'' : Session}

theorem refl (gen : Session) : Route level floor gen gen := Relation.ReflTransGen.refl

theorem trans (route : Route level floor gen gen') (route' : Route level floor gen' gen'') :
    Route level floor gen gen'' :=
  Relation.ReflTransGen.trans route route'

theorem moves (route : Route level floor gen gen') : Moves gen gen' :=
  Relation.ReflTransGen.mono (fun _ _ step => step.1) _ _ route

/-- A move that leaves just `floor` frames open. -/
theorem single (move : Move gen gen') (depth : gen'.frames.length = floor) :
    Route level floor gen gen' :=
  Relation.ReflTransGen.single ⟨move, Nat.le_of_eq depth.symm, fun _ => depth⟩

/-- A move that may open a frame. -/
theorem opening (move : Move gen gen') (depth : floor ≤ gen'.frames.length) :
    Route false floor gen gen' :=
  Relation.ReflTransGen.single ⟨move, depth, by simp⟩

/-- Where many frames are open, few are. -/
theorem lower {few : Nat} (route : Route level floor gen gen') (h : few ≤ floor) :
    Route false few gen gen' :=
  Relation.ReflTransGen.mono (fun _ _ step => ⟨step.1, Nat.le_trans h step.2.1, by simp⟩) _ _ route

/-- On a level route there are as many frames in the end as everywhere on it. -/
theorem length_eq (route : Route true floor gen gen') (h : gen.frames.length = floor) :
    gen'.frames.length = floor := by
  cases route with
  | refl => exact h
  | tail _ step => exact step.2.2 rfl

end Route

/-! ### Orderly operations -/

/-- A route that closes no frame but those that it opens; a level one opens none. -/
structure Passage (level : Bool) (gen gen' : Session) : Prop where
  /-- The frames that are open stay open. -/
  route : Route level gen.frames.length gen gen'
  /-- Whatever was opened on the way is closed. -/
  frames : gen'.frames = gen.frames

namespace Passage

variable {level : Bool}

theorem moves {gen gen' : Session} (h : Passage level gen gen') : Moves gen gen' := h.route.moves

theorem refl (gen : Session) : Passage level gen gen := ⟨.refl gen, rfl⟩

theorem trans {first second third : Session} (h : Passage level first second)
    (h' : Passage level second third) : Passage level first third := by
  have hroute := h'.route
  rw [h.frames] at hroute
  exact ⟨h.route.trans hroute, h'.frames.trans h.frames⟩

theorem single {gen gen' : Session} (move : Move gen gen') (same : gen'.frames = gen.frames) :
    Passage level gen gen' :=
  ⟨.single move (congrArg List.length same), same⟩

end Passage

/-- An operation that takes a session along moves and closes the frames that it opens and no others,
whether it succeeds or fails.  If it is to be level, it opens none at all. -/
def Orderly {α : Type} (level : Bool) (operation : GenM Hook α) : Prop :=
  ∀ gen : Session, gen.store.Numbered → Passage level gen (stateAfter operation gen)

namespace Orderly

variable {α β : Type} {level : Bool}

theorem moves_of_ok {operation : GenM Hook α} (h : Orderly level operation) {gen gen' : Session}
    {value : α} (reachable : Reachable gen) (hrun : operation.run gen = .ok value gen') :
    Moves gen gen' := by
  have hmoves := (h gen reachable.numbered).moves
  rw [stateAfter_of_ok hrun] at hmoves
  exact hmoves

theorem of_readsOnly {operation : GenM Hook α} (h : ReadsOnly operation) :
    Orderly level operation := by
  intro gen _
  rw [h gen]
  exact .refl gen

theorem pure (value : α) : Orderly level (Pure.pure value : GenM Hook α) :=
  of_readsOnly (.pure value)

theorem bind {x : GenM Hook α} {f : α → GenM Hook β} (hx : Orderly level x)
    (hf : ∀ value, Orderly level (f value)) : Orderly level (x >>= f) := by
  intro gen numbered
  have hfirst := hx gen numbered
  rw [stateAfter_bind]
  cases hrun : x.run gen with
  | error failure gen' =>
    rw [stateAfter_of_error hrun] at hfirst
    exact hfirst
  | ok value gen' =>
    rw [stateAfter_of_ok hrun] at hfirst
    exact hfirst.trans (hf value gen' (hfirst.moves.numbered numbered))

/-- An operation that fails without a trace, or makes one move. -/
theorem of_cases {operation : GenM Hook α}
    (h : ∀ gen : Session, (∃ failure, operation.run gen = .error failure gen) ∨
      ∃ value gen', operation.run gen = .ok value gen' ∧ Move gen gen' ∧
        gen'.frames = gen.frames) : Orderly level operation := by
  intro gen _
  obtain ⟨failure, hrun⟩ | ⟨value, gen', hrun, move, same⟩ := h gen
  · rw [stateAfter_of_error hrun]
    exact .refl gen
  · rw [stateAfter_of_ok hrun]
    exact .single move same

end Orderly

namespace Generator

variable {level : Bool}

/-! ### Building and completing the graph -/

theorem orderly_register (candidate : Candidate (Blueprint Hook)) :
    Orderly level (register (candidate.map Blueprint.build)) := by
  refine .of_cases fun gen => ?_
  obtain hfail | ⟨seed, hseed, opened, hid, room, hrun⟩ :=
    register_cases (candidate.map Blueprint.build) gen
  · exact .inl hfail
  · cases candidate with
    | placeholder tagged => exact absurd hseed (by simp [Candidate.map])
    | seed blueprint =>
      obtain rfl : blueprint.build = seed := by simpa [Candidate.map] using hseed
      exact .inr ⟨_, _, hrun, .register blueprint opened hid room, frames_enroll _ _ _⟩

/-- A stored seed has an identifier, so registering it again fails. -/
theorem orderly_registerCopy (id : SeedId) :
    Orderly level (do let seed ← lookup id; register (.seed seed)) := by
  intro gen numbered
  cases hstored : gen.store.get? id with
  | none =>
    rw [stateAfter_of_error (run_bind_error (run_lookup_of_none hstored))]
    exact .refl gen
  | some seed =>
    have hrun := run_bind_ok (f := fun seed => register (.seed seed)) (run_lookup_of_some hstored)
    obtain ⟨failure, hfail⟩ | ⟨other, hother, -, hid, -, -⟩ := register_cases (.seed seed) gen
    · rw [stateAfter_of_error (hrun.trans hfail)]
      exact .refl gen
    · obtain rfl : seed = other := by simpa using hother
      rw [numbered id seed hstored] at hid
      exact absurd hid (by simp)

theorem orderly_addDependency (source : SeedId) (key : Key) (target : SeedId) :
    Orderly level (addDependency source key target) := by
  refine .of_cases fun gen => ?_
  obtain hfail | ⟨seed, opened, stored, hrun⟩ := addDependency_cases source key target gen
  · exact .inl hfail
  · exact .inr ⟨_, _, hrun, .addEdge key target opened stored, rfl⟩

theorem orderly_addOrdering (source target : SeedId) :
    Orderly level (addOrdering source target) := by
  refine .of_cases fun gen => ?_
  rw [addOrdering, EStateM.run_bind, run_requireOpen]
  cases hopen : gen.finalized with
  | true => exact .inl ⟨_, rfl⟩
  | false =>
    obtain hfail | ⟨seed, stored, hrun⟩ := insertOrdering_cases source target gen
    · exact .inl hfail
    · exact .inr ⟨_, _, hrun, .addOrdering target hopen stored, rfl⟩

theorem orderly_setPayload (id : SeedId) (payload : Json) :
    Orderly level (setPayload id payload) := by
  refine .of_cases fun gen => ?_
  obtain hfail | ⟨seed, stored, hrun⟩ :=
    lookup_replace_cases id (fun seed => { seed with payload := some payload }) gen
  · exact .inl hfail
  · exact .inr ⟨_, _, hrun, .setPayload payload stored, rfl⟩

theorem orderly_beginScope (anchor : SeedId) (depending : Bool) :
    Orderly level (beginScope anchor depending) := by
  refine .of_cases fun gen => ?_
  cases hstored : gen.store.get? anchor with
  | none => exact .inl ⟨_, run_bind_error (run_lookup_of_none hstored)⟩
  | some seed =>
    exact .inr ⟨_, _, run_bind_ok (run_lookup_of_some hstored), .openScope anchor depending hstored,
      frames_noted _ _⟩

theorem orderly_endScope : Orderly level endScope := by
  refine .of_cases fun gen => ?_
  rw [endScope, run_get_bind]
  cases hscopes : gen.scopes with
  | nil => exact .inl ⟨_, rfl⟩
  | cons scope rest => exact .inr ⟨_, _, rfl, .closeScope hscopes, frames_noted _ _⟩

theorem orderly_memoize (key : String) (id : SeedId) : Orderly level (memoize key id) :=
  .of_cases fun _ => .inr ⟨_, _, rfl, .memoize key id, frames_noted _ _⟩

/-- Adding ordering edges to several seeds of an open graph. -/
theorem passage_insertOrderings (id : SeedId) (anchors : List SeedId) (gen : Session)
    (opened : gen.finalized = false) :
    Passage level gen (stateAfter (anchors.forM fun anchor => do
      let _ ← insertOrdering anchor id) gen) := by
  induction anchors generalizing gen with
  | nil => exact .refl gen
  | cons anchor rest ih =>
    rw [forM_cons, stateAfter_bind, EStateM.run_bind]
    obtain ⟨failure, hfail⟩ | ⟨seed, stored, hrun⟩ := insertOrdering_cases anchor id gen
    · rw [hfail]
      exact .refl gen
    · rw [hrun]
      exact (Passage.single (.addOrdering id opened stored) rfl).trans (ih _ opened)

theorem orderly_propagateOrdering (id : SeedId) : Orderly level (propagateOrdering id) := by
  intro gen _
  cases hopen : gen.finalized with
  | true =>
    have hfail := run_requireOpen_of_finalized hopen
    rw [propagateOrdering, stateAfter_of_error (run_bind_error hfail)]
    exact .refl gen
  | false =>
    have hpass := run_requireOpen_of_open hopen
    rw [propagateOrdering, stateAfter_bind, hpass]
    dsimp only
    rw [stateAfter_bind]
    cases hstored : gen.store.get? id with
    | none =>
      rw [run_lookup_of_none hstored]
      exact .refl gen
    | some seed =>
      rw [run_lookup_of_some hstored]
      exact passage_insertOrderings id _ gen hopen

theorem orderly_finalize : Orderly level finalize := by
  refine .of_cases fun gen => ?_
  obtain hfail | ⟨opened, targets, acyclic, hrun⟩ := finalize_cases gen
  · exact .inl hfail
  · exact .inr ⟨_, _, hrun, .complete opened targets acyclic, rfl⟩

/-! ### Binding and remembering -/

theorem orderly_bind (id : SeedId) : Orderly level (bind id) := by
  refine .of_cases fun gen => ?_
  obtain hfail | ⟨seed, value, stored, unbound, hrun⟩ := bind_cases id gen
  · exact .inl hfail
  · exact .inr ⟨_, _, hrun, .bind stored unbound, rfl⟩

theorem orderly_remember (result : Option Compiled) : Orderly level (remember result) :=
  .of_cases fun gen => .inr ⟨_, _, rfl, .putAside gen.output result, rfl⟩

theorem orderly_setOutput (output : Compiled) :
    Orderly level (modify fun gen : Session => { gen with output := some output }) :=
  .of_cases fun gen => .inr ⟨_, _, rfl, .putAside (some output) gen.latest, rfl⟩

theorem orderly_remark {event : Event} (plain : event.isRemark = true) :
    Orderly level (note event : GenM Hook Unit) := by
  refine .of_cases fun gen => .inr ⟨_, _, rfl, .remark event plain, ?_⟩
  cases event with
  | caught _ _ => exact frames_noted _ _
  | answered _ _ => exact frames_noted _ _
  | _ => exact absurd plain (by simp [Event.isRemark])

/-! ### Generating code -/

variable {traversal : Traversal Hook}

theorem orderly_generate (h : ∀ initial start, Orderly false (traversal initial start)) :
    Orderly false (generate traversal) := by
  intro gen numbered
  rw [generate, stateAfter, run_get_bind, run_require_bind]
  by_cases balanced : gen.scopes = []
  · rw [if_pos balanced]
    exact h none ⟨gen.lower⟩ gen numbered
  · rw [if_neg balanced]
    exact .refl gen

/-- A region is opened, traversed and closed; a failure in between does not keep it open. -/
theorem orderly_generateRegion (h : ∀ initial start, Orderly false (traversal initial start))
    (start : SeedId) : Orderly false (generateRegion traversal start) := by
  intro gen numbered
  have hinside := h none start gen.openRegion numbered
  have hdeeper : gen.frames.length ≤ gen.openRegion.frames.length := by
    rw [frames_openRegion]
    exact Nat.le_succ _
  have hopened : Route false gen.frames.length gen gen.openRegion := .opening .openRegion hdeeper
  -- The region is closed however its traversal ended.
  have hclosed : ∀ inside : Session, Passage false gen.openRegion inside → ∀ region,
      Passage false gen (inside.closeRegion region) := by
    intro inside passage region
    have hframes : inside.frames = .region :: gen.frames := by
      rw [passage.frames, frames_openRegion]
    have hback : (inside.closeRegion region).frames = gen.frames := by
      rw [frames_closeRegion, hframes]
      rfl
    have hclose : Route false gen.frames.length inside (inside.closeRegion region) :=
      .single (.closeRegion region hframes) (congrArg List.length hback)
    exact ⟨(hopened.trans (passage.route.lower hdeeper)).trans hclose, hback⟩
  cases hrun : (traversal none start).run gen.openRegion with
  | ok result gen' =>
    rw [stateAfter_of_ok hrun] at hinside
    rw [stateAfter_of_ok (run_generateRegion_ok hrun)]
    exact hclosed gen' hinside _
  | error failure gen' =>
    rw [stateAfter_of_error hrun] at hinside
    rw [stateAfter_of_error (run_generateRegion_error hrun)]
    exact hclosed gen' hinside none

end Generator

/-- Does the request generate code? -/
def Request.generates : Request → Bool
  | .generate | .generateFrom .. | .generateRegion _ => true
  | _ => false

namespace Generator

variable {level : Bool} {traversal : Traversal Hook}

/-- **Every request is orderly**, if traversals are; and level, unless it generates code. -/
theorem orderly_respond (h : ∀ initial start, Orderly false (traversal initial start))
    (request : Request) (quiet : level = true → request.generates = false) :
    Orderly level (respond traversal request) := by
  have hsteep : request.generates = true → level = false := fun hgenerates =>
    Bool.eq_false_iff.2 fun hlevel => absurd hgenerates (by rw [quiet hlevel]; simp)
  have hlook : ∀ {α : Type} {operation : GenM Hook α} (answer : α → Answer),
      ReadsOnly operation → Orderly level (do return answer (← operation)) :=
    fun answer hreads => .of_readsOnly (hreads.bind fun _ => .pure _)
  cases request with
  | register candidate => exact (orderly_register candidate).bind fun _ => .pure _
  | registerCopy id =>
    have hcopy := (@orderly_registerCopy level id).bind fun id => Orderly.pure (Answer.id id)
    rw [bind_assoc] at hcopy
    exact hcopy
  | addDependency source key target =>
    exact (orderly_addDependency source key target).bind fun _ => .pure _
  | addOrdering source target => exact (orderly_addOrdering source target).bind fun _ => .pure _
  | setPayload id payload => exact (orderly_setPayload id payload).bind fun _ => .pure _
  | beginScope anchor depending => exact (orderly_beginScope anchor depending).bind fun _ => .pure _
  | endScope => exact orderly_endScope.bind fun _ => .pure _
  | memoize key id => exact (orderly_memoize key id).bind fun _ => .pure _
  | propagateOrdering id => exact (orderly_propagateOrdering id).bind fun _ => .pure _
  | finalize => exact orderly_finalize.bind fun _ => .pure _
  | bind id => exact (orderly_bind id).bind fun _ => .pure _
  | setOutput output => exact (orderly_setOutput output).bind fun _ => .pure _
  | generate =>
    obtain rfl := hsteep rfl
    exact (orderly_generate h).bind fun _ => orderly_remember _
  | generateFrom initial start =>
    obtain rfl := hsteep rfl
    exact (h initial start).bind fun _ => orderly_remember _
  | generateRegion start =>
    obtain rfl := hsteep rfl
    exact (orderly_generateRegion h start).bind fun _ => hlook _ .get
  | payload id => exact hlook _ (readsOnly_lookup id)
  | referents id => exact hlook _ (readsOnly_lookup id)
  | seed id => exact hlook _ (readsOnly_lookup id)
  | referentCount id => exact hlook _ (readsOnly_referentCount id)
  | shouldBind id => exact hlook _ (readsOnly_policy id)
  | result id =>
    exact .of_readsOnly ((readsOnly_lookup id).bind fun _ => (ReadsOnly.ofExcept _).bind fun _ =>
      .pure _)
  | _ => exact hlook _ .get

end Generator

end SeedGraph
