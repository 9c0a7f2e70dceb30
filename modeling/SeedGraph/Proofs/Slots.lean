import SeedGraph.Proofs.ExactlyOnce
import SeedGraph.Proofs.Program.Shows

/-!
# Results only move forward

The slot of a seed is empty, then holds a result, and then holds a mention of the local to which the
result was moved.  It never moves back and never skips to another result, whatever happens in
between: other hooks, nested traversals, and failures that a hook survives or that end a request.

* `Slot.Becomes`: the order of the three stages.
* `Move.becomes`, `Moves.becomes`: moves go along that order.
* `Session.slots_move_forward`: from any moment of a run to any later one a slot goes along that
  order, and it is filled only when the hook of its own seed sets the result.

All of it comes from the one lemma that says what a move can do to a slot, `Move.slotMove`.
-/

namespace SeedGraph

/-! ### The order of the stages -/

/-- What a slot may become: it stays what it is, an empty slot is filled, and a result is bound. -/
inductive Slot.Becomes : Slot → Slot → Prop
  /-- Nothing happened. -/
  | same (slot : Slot) : Becomes slot slot
  /-- The seed got a result, which may have been bound since. -/
  | filled (slot : Slot) : Becomes .unset slot
  /-- The result was moved to a local. -/
  | bound (name : String) (reference value : Compiled) :
      Becomes (.set value) (.bound name reference value)

theorem Slot.Becomes.trans {first second third : Slot} (h : first.Becomes second)
    (h' : second.Becomes third) : first.Becomes third := by
  cases h with
  | same => exact h'
  | filled _ => exact .filled third
  | bound name reference value =>
    cases h' with
    | same => exact .bound name reference value

/-- **A slot only moves forward.** -/
theorem Move.becomes {gen gen' : Session} (move : Move gen gen') {id : SeedId} {slot : Slot}
    (h : gen.slot? id = some slot) : ∃ slot', gen'.slot? id = some slot' ∧ slot.Becomes slot' := by
  cases move.slotMove id with
  | kept same => exact ⟨slot, same.trans h, .same slot⟩
  | registered _ new _ =>
    rw [new, Generator.slot?_upper] at h
    exact absurd h (by simp)
  | written value _ stored unset after =>
    rw [Generator.slot?_of_stored stored, unset, Option.some.injEq] at h
    rw [after, Generator.slot?_withResult stored, if_pos rfl, ← h]
    exact ⟨_, rfl, .filled _⟩
  | bound stored unbound after =>
    rw [Generator.slot?_of_stored stored, unbound, Option.some.injEq] at h
    rw [after, Generator.slot?_moveToLocal stored, if_pos rfl, ← h]
    exact ⟨_, rfl, .bound _ _ _⟩

theorem Moves.becomes {gen gen' : Session} (moves : Moves gen gen') {id : SeedId} {slot : Slot}
    (h : gen.slot? id = some slot) : ∃ slot', gen'.slot? id = some slot' ∧ slot.Becomes slot' := by
  induction moves with
  | refl => exact ⟨slot, h, .same slot⟩
  | tail _ move ih =>
    obtain ⟨middle, hmiddle, hfirst⟩ := ih
    obtain ⟨last, hlast, hsecond⟩ := move.becomes hmiddle
    exact ⟨last, hlast, hfirst.trans hsecond⟩

theorem Generator.isSome_slot? {gen : Session} {id : SeedId} {seed : Seed Hook}
    (stored : gen.store.get? id = some seed) : (gen.slot? id).isSome := by
  rw [slot?_of_stored stored]
  rfl

/-- What is stored stays stored. -/
theorem Move.stored {gen gen' : Session} (move : Move gen gen') {id : SeedId}
    (h : (gen.slot? id).isSome) : (gen'.slot? id).isSome := by
  obtain ⟨slot, hslot⟩ := Option.isSome_iff_exists.1 h
  obtain ⟨slot', hslot', -⟩ := move.becomes hslot
  rw [hslot']
  rfl

namespace Moves

variable {gen gen' : Session} {id : SeedId} {value : Compiled}

/-- A result stays, or is bound. -/
theorem slot?_of_set (moves : Moves gen gen') (h : gen.slot? id = some (.set value)) :
    gen'.slot? id = some (.set value) ∨
      ∃ name reference, gen'.slot? id = some (.bound name reference value) := by
  obtain ⟨slot, hslot, hbecomes⟩ := moves.becomes h
  cases hbecomes with
  | same => exact .inl hslot
  | bound name reference _ => exact .inr ⟨name, reference, hslot⟩

/-- A bound result stays as it is. -/
theorem slot?_of_bound {name : String} {reference : Compiled} (moves : Moves gen gen')
    (h : gen.slot? id = some (.bound name reference value)) :
    gen'.slot? id = some (.bound name reference value) := by
  obtain ⟨slot, hslot, hbecomes⟩ := moves.becomes h
  cases hbecomes with
  | same => exact hslot

/-- What consumers see changes only when a result is bound, and is then fixed. -/
theorem bound_of_mention?_ne (moves : Moves gen gen') (h : gen.mention? id = some value)
    (changed : gen'.mention? id ≠ some value) :
    ∃ name reference compiled, gen'.slot? id = some (.bound name reference compiled) := by
  obtain ⟨slot, hslot, hcurrent⟩ := Option.bind_eq_some_iff.1 h
  cases slot with
  | unset => exact absurd hcurrent (by simp [Slot.current])
  | set held =>
    rcases moves.slot?_of_set hslot with hsame | ⟨name, reference, hbound⟩
    · rw [Generator.mention?, hsame] at changed
      exact absurd hcurrent changed
    · exact ⟨name, reference, held, hbound⟩
  | bound name reference held => exact ⟨name, reference, held, moves.slot?_of_bound hslot⟩

end Moves

/-! ### The main result -/

/-- **Results only move forward.**  Requests lead a new session from moment to moment, and between
any two of these, whatever hooks ran and whatever failed:

* a result stays what it is, or is bound as the value of a local;
* a bound result stays as it is;
* what consumers see of a result changes at most once.

An empty slot is filled by a single move, and only by one: the hook of its seed, which is the
innermost running hook, sets the result. -/
theorem Session.slots_move_forward {settings : Settings}
    {candidates : List (Candidate (Blueprint Hook))} {origin : Session}
    (created : createWith settings candidates = .ok origin) :
    (∀ requests, Moves origin (origin.run requests)) ∧
    (∀ moment later id, Moves origin moment → Moves moment later →
      (∀ value, moment.slot? id = some (.set value) → later.slot? id = some (.set value) ∨
        ∃ name reference, later.slot? id = some (.bound name reference value)) ∧
      (∀ name reference value, moment.slot? id = some (.bound name reference value) →
        later.slot? id = some (.bound name reference value)) ∧
      ∀ last value, Moves later last → moment.mention? id = some value →
        later.mention? id ≠ some value → last.mention? id = later.mention? id) ∧
    ∀ moment next id, Moves origin moment → Move moment next →
      moment.slot? id = some .unset → next.slot? id ≠ some .unset →
      ∃ (cx cx' : Compilation) (value : Compiled) (outer : List Frame),
        cx.id = id ∧ cx.generator = moment ∧
        moment.frames = .hook id cx.continuations :: outer ∧ moment.running = id :: hooksIn outer ∧
        (Compilation.setResult value).run cx = .ok () cx' ∧
        cx'.generator = next ∧ next.slot? id = some (.set value) := by
  refine ⟨moves_run created, fun moment later id _ between => ⟨fun value hset => ?_,
    fun name reference value hbound => between.slot?_of_bound hbound,
    fun last value on hmention hchanged => ?_⟩, fun moment next id before move hunset hfilled => ?_⟩
  · exact between.slot?_of_set hset
  · obtain ⟨name, reference, compiled, hbound⟩ := between.bound_of_mention?_ne hmention hchanged
    rw [Generator.mention?, Generator.mention?, hbound, Moves.slot?_of_bound on hbound]
  · cases move.slotMove id with
    | kept same => exact absurd (same.trans hunset) hfilled
    | registered _ new _ =>
      rw [new, Generator.slot?_upper] at hunset
      exact absurd hunset (by simp)
    | bound stored unbound _ =>
      rw [Generator.slot?_of_stored stored, unbound] at hunset
      exact absurd hunset (by simp)
    | @written seed continuations outer value innermost stored unset after =>
      have hrunning : moment.running = hooksIn moment.frames :=
        (Reachable.disciplined ⟨settings, candidates, origin, created, before⟩).running
      rw [innermost, hooksIn_hook] at hrunning
      refine ⟨{ id, continuations, generator := moment }, _, value, outer, rfl, rfl, innermost,
        hrunning, Compilation.run_setResult_of_unset value stored unset, after.symm, ?_⟩
      rw [after, Generator.slot?_withResult stored, if_pos rfl]

/-- A hook sets its result and has it bound, and survives the failure of setting and binding it a
second time.  No request can change what is then in the slot. -/
theorem Session.slots_move_forward_twice :
    let seed : Blueprint Hook := {
      kind := "call"
      hook := [.text "f()", .setResult, .attempt .setResult, .request (.bind ⟨0⟩),
        .attempt (.request (.bind ⟨0⟩)), .proceed] }
    let requests : List Request := [.register (.seed seed), .finalize, .generate]
    (blank.run (requests.take 2)).slot? ⟨0⟩ = some .unset ∧
    (blank.run requests).slot? ⟨0⟩ = some (.bound "s0" (.code "s0") (.code "f()")) ∧
    ∀ more, ((blank.run requests).run more).slot? ⟨0⟩ =
      some (.bound "s0" (.code "s0") (.code "f()")) := by
  intro seed requests
  have hbound : (blank.run requests).slot? ⟨0⟩ =
      some (.bound "s0" (.code "s0") (.code "f()")) := by decide +kernel
  obtain ⟨hmoves, hmoments, -⟩ := slots_move_forward createWith_blank
  refine ⟨by decide +kernel, hbound, fun more => ?_⟩
  have numbered : (blank.run requests).store.Numbered :=
    Reachable.numbered ⟨_, _, blank, createWith_blank, hmoves requests⟩
  have hlater := (passage_run (blank.run requests) more numbered).moves
  exact (hmoments _ _ ⟨0⟩ (hmoves requests) hlater).2.1 _ _ _ hbound

end SeedGraph
