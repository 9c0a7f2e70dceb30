import SeedGraph.Proofs.Tour

/-!
# Traversing once more

The first traversal from a seed on may run hooks, bind results to locals and start regions; a second
one from the same seed only looks.  They give the same answer, for two reasons.  Unless some seed
closes a region the first traversal comes to the last seed of all, so it leaves every seed on its
way with a result (`Generator.exists_tour_to_last`).  And its answer is what the last seed shows in
the end, not what its hook had set, so a result that moved to a local in between is answered by the
local's name both times.
-/

namespace SeedGraph

theorem SeedId.getLast?_through {index : Int} {last : SeedId} (nonempty : index ≤ last.index) :
    (through index last).getLast? = some last := by
  obtain ⟨count, hcount⟩ : ∃ count : Nat, index + count = last.index :=
    ⟨(last.index - index).toNat, by omega⟩
  have hlength : (last.index + 1 - index).toNat = count + 1 := by omega
  rw [through, hlength, getLast?_range, hcount]

theorem Store.idsFrom_eq_through {κ : Type} (store : Store κ) (start : SeedId) :
    store.idsFrom start = SeedId.through (max start.index store.lower) ⟨store.upper - 1⟩ := by
  rw [idsFrom_eq_range, SeedId.through, Int.sub_add_cancel]

theorem Store.closes_eq_false {κ : Type} {store : Store κ}
    (h : ∀ seed ∈ store.seeds, seed.boundary ≠ .closes) (id : SeedId) :
    store.closes id = false := by
  rw [Bool.eq_false_iff]
  intro hcloses
  obtain ⟨seed, stored, hboundary⟩ := Option.any_eq_true _ _ |>.1 hcloses
  exact h seed (mem_seeds_of_get? stored) (of_decide_eq_true hboundary)

namespace Generator

/-- The session in whose journal one more traversal is noted, in which no hook was entered. -/
def retraced (gen : Session) : Session :=
  { gen with journal := gen.journal ++ [.traversalBegan, .traversalEnded none] }

theorem noted_noted_traversal (gen : Session) :
    (gen.noted .traversalBegan).noted (.traversalEnded none) = gen.retraced := by
  simp [noted, retraced]

/-! ### The second traversal -/

/-- A traversal over seeds that have results enters no hook, and answers what the last of them
shows. -/
theorem run_traverse_of_hasResult {gen : Session} (complete : gen.finalized = true) {start : SeedId}
    (results : ∀ id ∈ gen.store.idsFrom start, gen.HasResult id) (depth : Nat)
    (initial : Option Compiled) :
    (traverse depth initial start).run gen =
      .ok ((gen.store.idsFrom start).getLast?.elim initial gen.mention?) gen.retraced := by
  rw [traverse_eq, ← noted_noted_traversal]
  refine run_traverseWith_ok ?_
  rw [run_walkFrom_of_finalized (show (gen.noted .traversalBegan).finalized = true from complete),
    ← List.append_nil ((gen.noted .traversalBegan).store.idsFrom start)]
  exact run_walk_of_mentions _ [] initial fun id hid => (isSome_mention? id).2 (results id hid)

/-! ### The first traversal -/

/-- **A traversal on whose way no seed closes a region comes to all seeds from its start on**, and
its answer is what the last of these shows in the end. -/
theorem exists_tour_to_last {gen gen' : Session} (numbered : gen.store.Numbered)
    (complete : gen.finalized = true) {depth : Nat} {initial result : Option Compiled}
    {start : SeedId} (endless : ∀ id : SeedId, start.index ≤ id.index → gen.store.closes id = false)
    (ran : (traverse depth initial start).run gen = .ok result gen') :
    ∃ visits last, Tour (compileAt depth) (gen.noted .traversalBegan) visits last ∧
      gen' = last.noted (.traversalEnded none) ∧
      visits.map Prod.fst = gen.store.idsFrom start ∧
      result = (gen.store.idsFrom start).getLast?.elim initial gen'.mention? := by
  by_cases hsome : max start.index gen.lower < gen.upper
  · obtain ⟨visits, last, stop, htour, hend, hstop, hle, -, hvisits, hresult⟩ :=
      exists_tour_of_traverse numbered complete rfl hsome ran
    -- None of the hooks that were entered belongs to a closing seed, so the stop is the last seed.
    have hnone : (freshIds visits).find? gen.store.closes = none := by
      rw [List.find?_eq_none]
      intro id hid
      have hcame := (freshIds_sublist visits).subset hid
      rw [hvisits, SeedId.mem_through] at hcame
      rw [endless id (Int.le_trans (Int.le_max_left _ _) hcame.1)]
      simp
    have hlast : stop = ⟨gen.upper - 1⟩ := by
      rw [hstop, stopAmong, hnone]
      rfl
    have hids : gen.store.idsFrom start = SeedId.through (max start.index gen.lower) stop := by
      rw [hlast]
      exact gen.store.idsFrom_eq_through start
    refine ⟨visits, last, htour, hend, hvisits.trans hids.symm, ?_⟩
    rw [hids, SeedId.getLast?_through hle]
    exact hresult
  · have hids : gen.store.idsFrom start = [] := by
      rw [List.eq_nil_iff_forall_not_mem]
      intro id hid
      rw [Store.idsFrom_eq_through, SeedId.mem_through] at hid
      exact hsome (Int.lt_of_le_sub_one (Int.le_trans hid.1 hid.2))
    rw [run_traverse_of_upper_le complete depth initial (Int.not_lt.1 hsome)] at ran
    obtain ⟨rfl, rfl⟩ := EStateM.Result.ok.inj ran
    rw [hids]
    exact ⟨[], _, .done _, rfl, rfl, rfl⟩

/-- What a traversal did that came to the last seed is not done a second time, whichever result is
remembered as the latest in between. -/
theorem traverse_again {gen gen' : Session} (reachable : Reachable gen)
    (complete : gen.finalized = true) {depth : Nat} {initial result : Option Compiled}
    {start : SeedId} (endless : ∀ id : SeedId, start.index ≤ id.index → gen.store.closes id = false)
    (ran : (traverse depth initial start).run gen = .ok result gen') (depth' : Nat)
    (latest : Option Compiled) :
    (traverse depth' initial start).run { gen' with latest } =
      .ok result { gen' with latest }.retraced := by
  obtain ⟨visits, last, htour, rfl, hvisits, hanswer⟩ :=
    exists_tour_to_last reachable.numbered complete endless ran
  have hmoves := (orderly_traverse depth initial start).moves_of_ok reachable ran
  have hids : last.store.idsFrom start = gen.store.idsFrom start := by
    rw [Store.idsFrom, Store.idsFrom, ← (hmoves.sameGraph complete).ids]
    rfl
  rw [← hids] at hvisits hanswer
  rw [hanswer]
  refine @run_traverse_of_hasResult { last.noted (.traversalEnded none) with latest }
    (hmoves.finalized complete) start (fun id hid => ?_) depth' initial
  refine htour.hasResult (reachable.moves (.single .beginTraversal)) id ?_
  rw [hvisits]
  exact hid

end Generator

namespace Session

theorem step_generateFrom {session session' : Session} {initial result : Option Compiled}
    {start : SeedId}
    (h : (Generator.traverse session.store.seeds.length initial start).run session =
      .ok result session') :
    session.step (.generateFrom initial start) =
      (.ok (.result result), { session' with latest := result }) :=
  step_of_ok ((run_bind_ok h).trans rfl)

theorem step_generateFrom_of_ok {session final : Session} {initial result : Option Compiled}
    {start : SeedId}
    (generated : session.step (.generateFrom initial start) = (.ok (.result result), final)) :
    ∃ session', (Generator.traverse session.store.seeds.length initial start).run session =
      .ok result session' ∧ final = { session' with latest := result } := by
  cases htraversed :
      (Generator.traverse session.store.seeds.length initial start).run session with
  | error failure session' =>
    have hstep : session.step (.generateFrom initial start) = (.error failure, session') :=
      step_of_error (run_bind_error htraversed)
    rw [generated] at hstep
    exact absurd hstep (by simp)
  | ok found session' =>
    rw [step_generateFrom htraversed] at generated
    obtain ⟨hanswer, rfl⟩ := Prod.mk.inj generated
    obtain rfl : found = result := Answer.result.inj (Except.ok.inj hanswer)
    exact ⟨session', rfl, rfl⟩

/-- **A traversal that has succeeded is not carried out twice.**  At any moment of any run with a
complete graph, in the middle of a hook or not, let there be no seed at or after `start` that closes
a region.  If a traversal from `start` succeeds, then the same traversal, begun at once afterwards,
has the same answer.  It enters no hook, and the entries of the journal for its beginning and its
end are the only change to the session.  The same holds of the request for such a traversal. -/
theorem generation_repeats {gen : Session} (reachable : Reachable gen)
    (complete : gen.finalized = true) (initial : Option Compiled) {start : SeedId}
    (endless : ∀ id : SeedId, start.index ≤ id.index → gen.store.closes id = false) :
    (∀ depth result gen', (Generator.traverse depth initial start).run gen = .ok result gen' →
      ∀ depth', (Generator.traverse depth' initial start).run gen' =
        .ok result
          { gen' with journal := gen'.journal ++ [.traversalBegan, .traversalEnded none] }) ∧
    ∀ result gen', gen.step (.generateFrom initial start) = (.ok (.result result), gen') →
      gen'.step (.generateFrom initial start) = (.ok (.result result),
        { gen' with journal := gen'.journal ++ [.traversalBegan, .traversalEnded none] }) := by
  constructor
  · intro depth result gen' ran depth'
    exact Generator.traverse_again reachable complete endless ran depth' gen'.latest
  · intro result gen' generated
    obtain ⟨session', ran, rfl⟩ := step_generateFrom_of_ok generated
    exact step_generateFrom (Generator.traverse_again reachable complete endless ran _ result)

/-- A block whose hook generates the seeds after it, the last of which is bound to a local.  The
traversal runs three hooks, and once more none. -/
theorem generation_repeats_block :
    let block : Blueprint Hook := {
      kind := "block"
      boundary := .opens
      hook := [.region .afterSelf "; ", .setResult, .proceed] }
    let leaf : Blueprint Hook := { kind := "leaf", hook := [.text "x", .setResult, .proceed] }
    let call : Blueprint Hook := {
      kind := "call"
      mode := .sideEffectful
      edges := [⟨.arg 0, ⟨1⟩⟩]
      hook := [.text "f(", .input (.arg 0), .text ")", .setResult, .proceed] }
    let requests : List Request := [.register (.seed block), .register (.seed leaf),
      .register (.seed call), .finalize]
    ∃ result gen',
      (Generator.traverse 3 none ⟨0⟩).run (blank.run requests) = .ok result gen' ∧
      result = some (.code "s0") ∧
      gen'.journal.filterMap Event.enteredId? = [⟨0⟩, ⟨1⟩, ⟨2⟩] ∧
      (Generator.traverse 3 none ⟨0⟩).run gen' = .ok result
        { gen' with journal := gen'.journal ++ [.traversalBegan, .traversalEnded none] } := by
  intro block leaf call requests
  have reachable := reachable_run_blank requests
  have complete : (blank.run requests).finalized = true := by decide +kernel
  have hopen : ((blank.run requests).store.seeds.all fun seed =>
      decide (seed.boundary ≠ .closes)) = true := by decide +kernel
  have endless := Store.closes_eq_false fun seed hseed =>
    of_decide_eq_true (List.all_eq_true.1 hopen seed hseed)
  have hseen : seenAfter? (fun result gen' => (result, gen'.journal.filterMap Event.enteredId?))
      (Generator.traverse 3 none ⟨0⟩) (blank.run requests) =
        some (some (.code "s0"), [⟨0⟩, ⟨1⟩, ⟨2⟩]) := by
    decide +kernel
  obtain ⟨result, gen', hrun, hview⟩ := run_of_seenAfter? hseen
  obtain ⟨hresult, hentered⟩ := Prod.mk.inj hview
  exact ⟨result, gen', hrun, hresult, hentered,
    (generation_repeats reachable complete none fun id _ => endless id).1 3 result gen' hrun 3⟩

end Session

end SeedGraph
