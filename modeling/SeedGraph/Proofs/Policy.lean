import Mathlib.Tactic.ByContra
import SeedGraph.Proofs.Turn.Runs

/-!
# When the binding policy is applied

A continuation applies the binding policy to the result of its seed, and a traversal accepts a hook
that invoked its continuation once and left code.  The two checks are made at different times.  A
hook may invoke the continuation before it has a result, survive the failure, and set the result
afterwards: the continuation counts, code is left, and the hook is accepted, but no policy was ever
applied to the result.  It stays unbound whatever the policy says, and a seed that opens a region is
not emitted.

So the policy is applied to an accepted seed just if its result was *announced*, that is if a
continuation came after the result in the journal.

## The invariant

While a hook has not invoked its continuation, nothing has happened to the result of its seed
(`Untouched`).  Once it has, either still nothing has happened and the result was not announced, or
the result was announced and treated as the policy says (`Treated`).  What is on record about a seed
changes only while its own hook is the innermost frame (`Turn.account`), so it is enough to look at
the three turns of that hook.
-/

namespace SeedGraph

/-! ### What is on record about a seed -/

/-- The code of a statement that is a block of the seed `id`. -/
def Statement.blockCode? (id : SeedId) : Statement → Option Compiled
  | .declare _ => none
  | .block seed code => if seed = id then some code else none

/-- What the policy says about a seed of a complete graph. -/
def Seed.wantsLocal (seed : Seed Hook) : Bool :=
  shouldBind seed.bindingWish seed.boundary seed.mode seed.referents.length

theorem Seed.wantsLocal_of_design {seed seed' : Seed Hook} (h : seed.design = seed'.design) :
    seed.wantsLocal = seed'.wantsLocal := by
  show seed.design.wantsLocal = seed'.design.wantsLocal
  rw [h]

theorem pair_sublist_snoc {α : Type} {first second last : α} {items : List α} :
    [first, second].Sublist (items ++ [last]) ↔
      [first, second].Sublist items ∨ (second = last ∧ first ∈ items) := by
  have hreverse : ∀ others : List α,
      [first, second].Sublist others ↔ [second, first].Sublist others.reverse :=
    fun _ => List.reverse_sublist.symm
  rw [hreverse, hreverse, List.reverse_append]
  show [second, first].Sublist (last :: items.reverse) ↔ _
  rw [List.sublist_cons_iff]
  refine or_congr_right ⟨?_, ?_⟩
  · rintro ⟨rest, heq, hrest⟩
    obtain ⟨rfl, rfl⟩ := List.cons.inj heq
    exact ⟨rfl, List.mem_reverse.1 (List.singleton_sublist.1 hrest)⟩
  · rintro ⟨rfl, hfirst⟩
    exact ⟨[first], rfl, List.singleton_sublist.2 (List.mem_reverse.2 hfirst)⟩

namespace Generator

/-- A continuation of the seed `id` came after its result. -/
def Announced (gen : Session) (id : SeedId) : Prop :=
  [Event.resulted id, .continued id].Sublist gen.journal

/-- The code of the blocks that were emitted for the seed `id`, at all depths and in order. -/
def blockCodes (gen : Session) (id : SeedId) : List Compiled :=
  gen.emissions.filterMap fun emission => emission.statement.blockCode? id

theorem announced_of_journal {gen gen' : Session} {event : Event} {id : SeedId}
    (journal : gen'.journal = gen.journal ++ [event]) :
    gen'.Announced id ↔
      gen.Announced id ∨ (.continued id = event ∧ .resulted id ∈ gen.journal) := by
  unfold Announced
  rw [journal, pair_sublist_snoc]

/-- Events that are no deeds announce nothing. -/
theorem announced_of_plain {gen gen' : Session} {events : List Event} (id : SeedId)
    (journal : gen'.journal = gen.journal ++ events)
    (plain : ∀ event ∈ events, event.isDeed = false) : gen'.Announced id ↔ gen.Announced id := by
  induction events generalizing gen with
  | nil =>
    unfold Announced
    rw [journal, List.append_nil]
  | cons event rest ih =>
    have hrest : gen'.Announced id ↔ (gen.noted event).Announced id := by
      refine ih ?_ fun other hother => plain other (List.mem_cons_of_mem _ hother)
      rw [journal, noted]
      simp
    rw [hrest, announced_of_journal (show (gen.noted event).journal = _ from rfl)]
    refine or_iff_left ?_
    rintro ⟨rfl, -⟩
    exact absurd (plain _ List.mem_cons_self) (by simp [Event.isDeed])

/-- What was announced has a result. -/
theorem Announced.resulted {gen : Session} {id : SeedId} (h : gen.Announced id) :
    .resulted id ∈ gen.journal :=
  h.subset List.mem_cons_self

theorem blockCodes_emitted (gen : Session) (id other : SeedId) (code : Compiled) :
    (gen.emitted (.block other code)).blockCodes id =
      gen.blockCodes id ++ if other = id then [code] else [] := by
  unfold blockCodes emitted
  rw [List.filterMap_append, List.filterMap_cons]
  unfold Statement.blockCode?
  split <;> simp_all

theorem blockCodes_moveToLocal (gen : Session) (id other : SeedId) (seed : Seed Hook)
    (value : Compiled) : (gen.moveToLocal other seed value).blockCodes id = gen.blockCodes id := by
  simp [blockCodes, moveToLocal, Statement.blockCode?]

theorem blockCodes_eq_nil {gen : Session} {id : SeedId} (h : id ∉ gen.blocks) :
    gen.blockCodes id = [] := by
  refine List.filterMap_eq_nil_iff.2 fun emission hemission => ?_
  cases hstatement : emission.statement with
  | declare binding => rfl
  | block seed code =>
    refine if_neg ?_
    rintro rfl
    exact h (List.mem_filterMap.2 ⟨emission, hemission, by rw [hstatement]; rfl⟩)

/-! ### Settling -/

theorem journal_settled (gen : Session) (id : SeedId) (seed : Seed Hook) (value : Compiled) :
    (gen.settled id seed value).journal = gen.journal := by
  unfold settled
  split
  · rfl
  · split <;> rfl

theorem frames_settled (gen : Session) (id : SeedId) (seed : Seed Hook) (value : Compiled) :
    (gen.settled id seed value).frames = gen.frames := by
  unfold frames
  rw [journal_settled]

theorem slot?_settled_of_ne {gen : Session} {own id : SeedId} {seed : Seed Hook}
    (stored : gen.store.get? own = some seed) (value : Compiled) (hne : id ≠ own) :
    (gen.settled own seed value).slot? id = gen.slot? id := by
  unfold settled
  split
  · rw [slot?_moveToLocal stored, if_neg hne]
  · split <;> rfl

theorem blockCodes_settled_of_ne (gen : Session) {own id : SeedId} (seed : Seed Hook)
    (value : Compiled) (hne : id ≠ own) :
    (gen.settled own seed value).blockCodes id = gen.blockCodes id := by
  unfold settled
  split
  · exact blockCodes_moveToLocal _ _ _ _ _
  · split
    · rw [blockCodes_emitted, if_neg hne.symm, List.append_nil]
    · rfl

end Generator

/-! ### Accounts -/

/-- The same is on record about the seed `id`. -/
structure SameAccount (id : SeedId) (gen gen' : Session) : Prop where
  /-- Its slot. -/
  slot : gen'.slot? id = gen.slot? id
  /-- Whether its result was announced. -/
  announced : gen'.Announced id ↔ gen.Announced id
  /-- The blocks that were emitted for it. -/
  blocks : gen'.blockCodes id = gen.blockCodes id

/-- A seed that is not stored in a complete graph is not stored later. -/
theorem Moves.slot?_none {gen gen' : Session} (moves : Moves gen gen')
    (complete : gen.finalized = true) {id : SeedId} (missing : gen.slot? id = none) :
    gen'.slot? id = none := by
  rw [Generator.slot?, Option.map_eq_none_iff] at missing ⊢
  cases hstored : gen'.store.get? id with
  | none => rfl
  | some seed' =>
    obtain ⟨seed, hseed, -⟩ := (moves.sameGraph complete).stored hstored
    rw [missing] at hseed
    exact absurd hseed (by simp)

/-- A move without a deed changes nothing that is on record. -/
theorem Move.sameAccount {gen gen' : Session} (move : Move gen gen')
    (quiet : gen'.deeds = gen.deeds) (complete : gen.finalized = true) (id : SeedId) :
    SameAccount id gen gen' := by
  have hsame := move.undisturbed quiet
  obtain ⟨events, hjournal, hplain⟩ := hsame.journal
  refine ⟨?_, Generator.announced_of_plain id hjournal hplain, ?_⟩
  · by_cases hmissing : gen.slot? id = none
    · rw [hmissing]
      exact Moves.slot?_none (.single move) complete hmissing
    · exact hsame.slots id hmissing
  · unfold Generator.blockCodes
    rw [hsame.emissions]

/-- **What is on record about a seed changes only while its own hook is the innermost frame**, if no
result is bound on request. -/
theorem Turn.account {gen gen' : Session} (turn : Turn false gen gen')
    (complete : gen.finalized = true) (id : SeedId) :
    SameAccount id gen gen' ∨
      ∃ continuations outer, gen.frames = .hook id continuations :: outer := by
  cases turn with
  | plain move quiet => exact .inl (move.sameAccount quiet complete id)
  | register _ opened _ _ =>
    rw [complete] at opened
    exact absurd opened (by simp)
  | @write own seed continuations outer value innermost stored _ _ =>
    by_cases hown : id = own
    · rw [hown]
      exact .inr ⟨continuations, outer, innermost⟩
    · refine .inl ⟨?_, ?_, rfl⟩
      · rw [Generator.slot?_withResult stored, if_neg hown]
      · rw [Generator.announced_of_journal
          (show (gen.withResult own seed value).journal = _ from rfl)]
        exact or_iff_left fun hnew => absurd hnew.1 (by simp)
  | @settle own seed text outer _ innermost stored _ =>
    by_cases hown : id = own
    · rw [hown]
      exact .inr ⟨0, outer, innermost⟩
    · have hslot := @Generator.slot?_settled_of_ne (gen.noted (.continued own)) own id seed stored
        (.code text) hown
      have hblocks := (gen.noted (.continued own)).blockCodes_settled_of_ne seed (.code text) hown
      have hjournal : ((gen.noted (.continued own)).settled own seed (.code text)).journal =
          gen.journal ++ [.continued own] := Generator.journal_settled _ _ _ _
      refine .inl ⟨hslot, ?_, hblocks⟩
      rw [Generator.announced_of_journal hjournal]
      exact or_iff_left fun hnew => hown (by simpa using hnew.1)
  | @proceedInVain own continuations outer innermost _ =>
    by_cases hown : id = own
    · rw [hown]
      exact .inr ⟨continuations, outer, innermost⟩
    · refine .inl ⟨rfl, ?_, rfl⟩
      rw [Generator.announced_of_journal (show (gen.noted (.continued own)).journal = _ from rfl)]
      exact or_iff_left fun hnew => hown (by simpa using hnew.1)
  | bind allowed _ _ => exact absurd allowed (by simp)

/-- Nothing has happened to the result of the seed, if it has one. -/
structure Untouched (gen : Session) (id : SeedId) : Prop where
  /-- It was not announced. -/
  silent : ¬ gen.Announced id
  /-- It is in no local. -/
  unbound : ∀ slot, gen.slot? id = some slot → slot.isBound = false
  /-- It was not emitted as a block. -/
  hidden : gen.blockCodes id = []

/-- The result of the seed was announced, and it is code that was treated as the policy says, or no
code at all. -/
def Treated (gen : Session) (id : SeedId) : Prop :=
  gen.Announced id ∧ ∃ seed, gen.store.get? id = some seed ∧
    ((∃ leaked, seed.slot = .set (.seed leaked)) ∨
      ∃ text, seed.slot.compiled = some (.code text) ∧ seed.slot.isBound = seed.wantsLocal ∧
        gen.blockCodes id =
          if seed.boundary = .opens ∧ seed.slot.isBound = false then [.code text] else [])

theorem Untouched.congr {gen gen' : Session} {id : SeedId} (h : Untouched gen id)
    (same : SameAccount id gen gen') : Untouched gen' id where
  silent := fun hannounced => h.silent (same.announced.1 hannounced)
  unbound slot hslot := h.unbound slot (same.slot.symm.trans hslot)
  hidden := same.blocks.trans h.hidden

theorem Treated.congr {gen gen' : Session} {id : SeedId} (h : Treated gen id)
    (same : SameAccount id gen gen') (graph : gen.store.SameGraph gen'.store) :
    Treated gen' id := by
  obtain ⟨hannounced, seed, stored, htreated⟩ := h
  obtain ⟨seed', stored', hdesign⟩ := graph.symm.stored stored
  have hslot : seed'.slot = seed.slot := by
    have hsame := same.slot
    rw [Generator.slot?_of_stored stored, Generator.slot?_of_stored stored'] at hsame
    exact Option.some.inj hsame
  refine ⟨same.announced.2 hannounced, seed', stored', ?_⟩
  rw [hslot, Seed.wantsLocal_of_design hdesign, Seed.boundary_of_design hdesign, same.blocks]
  exact htreated

/-- Nothing can have happened to a result that is not there. -/
theorem Reachable.untouched {gen : Session} (reachable : Reachable gen) {id : SeedId}
    (none : ¬ gen.HasResult id) : Untouched gen id where
  silent := fun hannounced => none ((reachable.disciplined.results id).2 hannounced.resulted)
  unbound slot hslot := by
    cases slot with
    | bound name reference value => exact absurd ⟨_, hslot, rfl⟩ none
    | _ => rfl
  hidden := by
    obtain ⟨settings, candidates, origin, created, moves⟩ := reachable
    exact Generator.blockCodes_eq_nil fun hblock =>
      none ((Moves.ledger created moves).emittedResult id hblock)

/-! ### The invariant -/

/-- The results of running and of accepted seeds are accounted for. -/
structure Accounted (gen : Session) : Prop where
  /-- A hook that has not invoked its continuation. -/
  pending : ∀ id, .hook id 0 ∈ gen.frames → Untouched gen id
  /-- A hook that has invoked it once, or was accepted. -/
  answered : ∀ id, .hook id 1 ∈ gen.frames ∨ .accepted id ∈ gen.journal →
    Untouched gen id ∨ Treated gen id

/-- No hook runs inside itself. -/
theorem Disciplined.alone {gen : Session} (h : Disciplined gen) {id : SeedId} {continuations : Nat}
    {outer : List Frame} (innermost : gen.frames = .hook id continuations :: outer)
    (other : Nat) : .hook id other ∉ outer := by
  intro hmem
  have hnodup := h.nodup
  rw [h.running, innermost, hooksIn_hook, List.nodup_cons] at hnodup
  exact hnodup.1 (List.mem_filterMap.2 ⟨_, hmem, rfl⟩)

namespace Accounted

variable {gen gen' : Session}

/-- A turn of the innermost hook keeps the accounts, if it keeps the one of its own seed. -/
theorem own (h : Accounted gen) (reachable : Reachable gen) (complete : gen.finalized = true)
    (turn : Turn false gen gen') {id : SeedId} {continuations continuations' : Nat}
    {outer : List Frame} (innermost : gen.frames = .hook id continuations :: outer)
    (innermost' : gen'.frames = .hook id continuations' :: outer)
    (accepted : ∀ other, .accepted other ∈ gen'.journal → .accepted other ∈ gen.journal)
    (pending : continuations' = 0 → Untouched gen' id)
    (answered : continuations' = 1 → Untouched gen' id ∨ Treated gen' id) : Accounted gen' := by
  have hdisciplined := reachable.disciplined
  have hothers : ∀ other, other ≠ id → SameAccount other gen gen' := by
    intro other hne
    refine (turn.account complete other).resolve_right ?_
    rintro ⟨count, frames, hframes⟩
    rw [innermost] at hframes
    injection hframes with hframe
    exact hne (Frame.hook.inj hframe).1.symm
  -- Of the hook itself there is one frame only, and it was not accepted while it runs.
  have hframe : ∀ other count, .hook other count ∈ gen'.frames → other ≠ id →
      .hook other count ∈ gen.frames := by
    intro other count hmem hne
    rw [innermost', List.mem_cons] at hmem
    rw [innermost]
    exact List.mem_cons_of_mem _ (hmem.resolve_left fun heq => hne (Frame.hook.inj heq).1)
  have hcount : ∀ count, .hook id count ∈ gen'.frames → continuations' = count := by
    intro count hmem
    rw [innermost', List.mem_cons] at hmem
    have heq := hmem.resolve_right (hdisciplined.alone innermost count)
    exact (Frame.hook.inj heq).2.symm
  have hrunning : .accepted id ∉ gen.journal := by
    refine hdisciplined.pending id ?_
    rw [hdisciplined.running, innermost]
    exact List.mem_cons_self
  refine ⟨fun other hmem => ?_, fun other hmem => ?_⟩
  · by_cases hown : other = id
    · subst hown
      exact pending (hcount 0 hmem)
    · exact (h.pending other (hframe other 0 hmem hown)).congr (hothers other hown)
  · by_cases hown : other = id
    · subst hown
      rcases hmem with hmem | hmem
      · exact answered (hcount 1 hmem)
      · exact absurd (accepted other hmem) hrunning
    · have hbefore : .hook other 1 ∈ gen.frames ∨ .accepted other ∈ gen.journal :=
        hmem.imp (fun hmem => hframe other 1 hmem hown) (accepted other)
      exact (h.answered other hbefore).imp (·.congr (hothers other hown))
        (·.congr (hothers other hown) (turn.moves.sameGraph complete))

/-- A turn that is no deed. -/
theorem plain (h : Accounted gen) (reachable : Reachable gen) (complete : gen.finalized = true)
    (move : Move gen gen') (quiet : gen'.deeds = gen.deeds) : Accounted gen' := by
  have hsame := move.undisturbed quiet
  have haccount := move.sameAccount quiet complete
  refine ⟨fun id hmem => ?_, fun id hmem => ?_⟩
  · rcases hsame.frames id 0 hmem with hbefore | ⟨-, hunset⟩
    · exact (h.pending id hbefore).congr (haccount id)
    · refine (reachable.untouched ?_).congr (haccount id)
      rintro ⟨slot, hslot, hset⟩
      rw [hunset, Option.some.injEq] at hslot
      exact absurd hset (by simp [← hslot, Slot.isSet])
  · have hbefore : .hook id 1 ∈ gen.frames ∨ .accepted id ∈ gen.journal := by
      rcases hmem with hmem | hmem
      · exact .inl ((hsame.frames id 1 hmem).resolve_right (by simp))
      · exact (move.accepted hmem).symm.imp_left And.left
    exact (h.answered id hbefore).imp (·.congr (haccount id))
      (·.congr (haccount id) (move.sameGraph complete))

/-- The innermost hook sets the result of its seed. -/
theorem write (h : Accounted gen) (reachable : Reachable gen) (complete : gen.finalized = true)
    {id : SeedId} {seed : Seed Hook} {continuations : Nat} {outer : List Frame} {value : Compiled}
    (innermost : gen.frames = .hook id continuations :: outer)
    (stored : gen.store.get? id = some seed) (unset : seed.slot = .unset)
    (forwards : gen.Forwards seed value) : Accounted (gen.withResult id seed value) := by
  have hnone : ¬ gen.HasResult id := by
    rintro ⟨slot, hslot, hset⟩
    rw [Generator.slot?_of_stored stored, unset, Option.some.injEq] at hslot
    exact absurd hset (by simp [← hslot, Slot.isSet])
  have hbefore := reachable.untouched hnone
  -- The result is the last thing in the journal, so no continuation came after it.
  have hafter : Untouched (gen.withResult id seed value) id := by
    refine ⟨?_, fun slot hslot => ?_, hbefore.hidden⟩
    · rw [Generator.announced_of_journal (show (gen.withResult id seed value).journal = _ from rfl)]
      rintro (hearlier | ⟨hother, -⟩)
      · exact hbefore.silent hearlier
      · exact absurd hother (by simp)
    · rw [Generator.slot?_withResult stored, if_pos rfl, Option.some.injEq] at hslot
      rw [← hslot]
      rfl
  refine h.own reachable complete (.write value innermost stored unset forwards) innermost
    (by rw [Generator.frames_withResult, innermost]) (fun other hother => ?_) (fun _ => hafter)
    fun _ => .inl hafter
  simpa [Generator.withResult, Generator.noted, Generator.withSeed] using hother

/-- The innermost hook invokes its continuation, and the policy is applied. -/
theorem settle (h : Accounted gen) (reachable : Reachable gen) (complete : gen.finalized = true)
    {id : SeedId} {seed : Seed Hook} {text : String} {outer : List Frame}
    (innermost : gen.frames = .hook id 0 :: outer) (stored : gen.store.get? id = some seed)
    (code : seed.slot = .set (.code text)) :
    Accounted ((gen.noted (.continued id)).settled id seed (.code text)) := by
  have hbefore := h.pending id (by rw [innermost]; exact List.mem_cons_self)
  have hjournal : ((gen.noted (.continued id)).settled id seed (.code text)).journal =
      gen.journal ++ [.continued id] := Generator.journal_settled _ _ _ _
  have hresulted : .resulted id ∈ gen.journal :=
    (reachable.disciplined.results id).1 ⟨_, Generator.slot?_of_stored stored, by rw [code]; rfl⟩
  have htreated : Treated ((gen.noted (.continued id)).settled id seed (.code text)) id := by
    refine ⟨(Generator.announced_of_journal hjournal).2 (.inr ⟨rfl, hresulted⟩), ?_⟩
    unfold Generator.settled
    by_cases hlocal :
        shouldBind seed.bindingWish seed.boundary seed.mode seed.referents.length = true
    · rw [if_pos hlocal]
      refine ⟨_, (gen.store.get?_set _ _ _ (by rw [stored]; rfl)).trans (if_pos rfl),
        .inr ⟨text, rfl, hlocal.symm, ?_⟩⟩
      rw [Generator.blockCodes_moveToLocal,
        if_neg fun hboth => absurd hboth.2 (by simp [Slot.isBound])]
      exact hbefore.hidden
    · have hunbound : seed.slot.isBound = false := by
        rw [code]
        rfl
      rw [if_neg hlocal]
      by_cases hopens : seed.boundary = .opens
      · rw [if_pos hopens]
        refine ⟨seed, stored, .inr ⟨text, by rw [code]; rfl, ?_, ?_⟩⟩
        · rw [hunbound, Seed.wantsLocal, Bool.eq_false_iff.2 hlocal]
        · rw [Generator.blockCodes_emitted, if_pos rfl, if_pos ⟨hopens, hunbound⟩]
          show gen.blockCodes id ++ _ = _
          rw [hbefore.hidden]
          rfl
      · rw [if_neg hopens]
        refine ⟨seed, stored, .inr ⟨text, by rw [code]; rfl, ?_, ?_⟩⟩
        · rw [hunbound, Seed.wantsLocal, Bool.eq_false_iff.2 hlocal]
        · rw [if_neg fun hboth => hopens hboth.1]
          exact hbefore.hidden
  have hframes : ((gen.noted (.continued id)).settled id seed (.code text)).frames =
      .hook id 1 :: outer := by
    rw [Generator.frames_settled, Generator.frames_noted, innermost]
    rfl
  refine h.own reachable complete (.settle complete innermost stored code) innermost hframes
    (fun other hother => ?_) (by simp) fun _ => .inr htreated
  rw [hjournal] at hother
  simpa using hother

/-- The innermost hook invokes its continuation in vain. -/
theorem proceedInVain (h : Accounted gen) (reachable : Reachable gen)
    (complete : gen.finalized = true) {id : SeedId} {continuations : Nat} {outer : List Frame}
    (innermost : gen.frames = .hook id continuations :: outer)
    (vain : continuations = 0 → ∀ text, gen.slot? id ≠ some (.set (.code text))) :
    Accounted (gen.noted (.continued id)) := by
  have hframes : (gen.noted (.continued id)).frames = .hook id (continuations + 1) :: outer := by
    rw [Generator.frames_noted, innermost]
    rfl
  refine h.own reachable complete (.proceedInVain innermost vain) innermost hframes
    (fun other hother => by simpa [Generator.noted] using hother) (by simp) fun honce => ?_
  obtain rfl : continuations = 0 := by omega
  have hbefore := h.pending id (by rw [innermost]; exact List.mem_cons_self)
  have hannounced := @Generator.announced_of_journal gen (gen.noted (.continued id)) _ id rfl
  by_cases hresult : gen.HasResult id
  -- There is a result and it was announced, but it is not code.
  · right
    obtain ⟨slot, hslot, hset⟩ := hresult
    obtain ⟨seed, stored, rfl⟩ := Option.map_eq_some_iff.1 hslot
    have hresulted : .resulted id ∈ gen.journal :=
      (reachable.disciplined.results id).1 ⟨_, hslot, hset⟩
    refine ⟨hannounced.2 (.inr ⟨rfl, hresulted⟩), seed, stored, .inl ?_⟩
    cases hvalue : seed.slot with
    | unset =>
      rw [hvalue] at hset
      exact absurd hset (by simp [Slot.isSet])
    | bound name reference value =>
      have hunbound := hbefore.unbound _ hslot
      rw [hvalue] at hunbound
      exact absurd hunbound (by simp [Slot.isBound])
    | set value =>
      cases value with
      | seed leaked => exact ⟨leaked, rfl⟩
      | code text =>
        rw [hvalue] at hslot
        exact absurd hslot (vain rfl text)
  · left
    refine ⟨fun hnow => ?_, hbefore.unbound, hbefore.hidden⟩
    rcases hannounced.1 hnow with hearlier | ⟨-, hresulted⟩
    · exact hbefore.silent hearlier
    · exact hresult ((reachable.disciplined.results id).2 hresulted)

/-- **Every turn keeps the accounts.** -/
theorem turn (h : Accounted gen) (reachable : Reachable gen) (complete : gen.finalized = true)
    (turn : Turn false gen gen') : Accounted gen' := by
  cases turn with
  | plain move quiet => exact h.plain reachable complete move quiet
  | register _ opened _ _ =>
    rw [complete] at opened
    exact absurd opened (by simp)
  | write value innermost stored unset forwards =>
    exact h.write reachable complete innermost stored unset forwards
  | settle _ innermost stored code => exact h.settle reachable complete innermost stored code
  | proceedInVain innermost vain => exact h.proceedInVain reachable complete innermost vain
  | bind allowed _ _ => exact absurd allowed (by simp)

/-- As long as no seed has a result there is nothing to account for. -/
theorem of_unset (reachable : Reachable gen) (unset : ∀ id, ¬ gen.HasResult id) :
    Accounted gen where
  pending id _ := reachable.untouched (unset id)
  answered id _ := .inl (reachable.untouched (unset id))

theorem turns (h : Accounted gen) (reachable : Reachable gen) (complete : gen.finalized = true)
    (turns : Turns false gen gen') : Accounted gen' := by
  induction turns with
  | refl => exact h
  | tail earlier turn ih =>
    exact ih.turn (reachable.moves (Turns.moves earlier))
      ((Turns.moves earlier).finalized complete) turn

end Accounted

/-! ### The main result -/

/-- A complete graph whose hooks ask for no binding permits none. -/
theorem Generator.permits_of_free {gen : Session} (complete : gen.finalized = true)
    (free : ∀ seed ∈ gen.store.seeds, seed.hook.binds = false) : gen.Permits false :=
  fun _ => ⟨complete, fun _ seed stored => free seed (Store.mem_seeds_of_get? stored)⟩

/-- **The policy is applied to an accepted seed just if its result was announced.**  Take a session
with a complete graph, without results and with hooks that ask for no binding, and let it go on with
requests that ask for none either; hooks may survive whatever failure they meet.  At every moment,
also in the middle of a hook, what was accepted has code as its result, and

* if a continuation came after the result, the result is in a local just if the policy says so, and
  one block with the code was emitted if the seed opens a region and is in no local;
* otherwise the result is in no local and no block was emitted, whatever the policy says. -/
theorem Session.policy_applied_when_announced {gen : Session} (reachable : Reachable gen)
    (complete : gen.finalized = true) (unset : ∀ seed ∈ gen.store.seeds, seed.slot = .unset)
    (free : ∀ seed ∈ gen.store.seeds, seed.hook.binds = false) :
    (∀ requests : List Request, (∀ request ∈ requests, request.binds = false) →
      Turns false gen (gen.run requests)) ∧
    ∀ moment, Turns false gen moment → ∀ id, .accepted id ∈ moment.journal →
      ∃ seed text, moment.store.get? id = some seed ∧ seed.slot.compiled = some (.code text) ∧
        (moment.Announced id →
          (Generator.policy id).run moment = .ok seed.slot.isBound moment ∧
          moment.blockCodes id =
            if seed.boundary = .opens ∧ seed.slot.isBound = false then [.code text] else []) ∧
        (¬ moment.Announced id → seed.slot.isBound = false ∧ moment.blockCodes id = []) := by
  refine ⟨fun requests hfree => ?_, fun moment turns id haccepted => ?_⟩
  · exact turns_run reachable.numbered (Generator.permits_of_free complete free) requests
      fun _ => hfree
  have hreachable := reachable.moves turns.moves
  have hcomplete := turns.moves.finalized complete
  obtain ⟨text, hmention⟩ := hreachable.accepted_code haccepted
  obtain ⟨slot, hslot, hcode⟩ := Option.bind_eq_some_iff.1 hmention
  obtain ⟨seed, stored, rfl⟩ := Option.map_eq_some_iff.1 hslot
  have haccounted := (Accounted.of_unset reachable (Generator.not_hasResult_of_unset unset)).turns
    reachable complete turns
  rcases haccounted.answered id (.inr haccepted) with
    huntouched | ⟨hannounced, found, hfound, htreated⟩
  · have hunbound := huntouched.unbound _ hslot
    have hcompiled : seed.slot.compiled = some (.code text) := by
      cases hvalue : seed.slot with
      | bound name reference value =>
        rw [hvalue] at hunbound
        exact absurd hunbound (by simp [Slot.isBound])
      | _ =>
        rw [hvalue] at hcode
        exact hcode
    exact ⟨seed, text, stored, hcompiled, fun hannounced => absurd hannounced huntouched.silent,
      fun _ => ⟨hunbound, huntouched.hidden⟩⟩
  · obtain rfl : seed = found := Option.some.inj (stored.symm.trans hfound)
    rcases htreated with ⟨leaked, hleaked⟩ | ⟨compiled, hcompiled, hpolicy, hblocks⟩
    -- A result that is no code is never accepted.
    · rw [hleaked] at hcode
      exact absurd hcode (by simp [Slot.current])
    · refine ⟨seed, compiled, stored, hcompiled, fun _ => ⟨?_, hblocks⟩, fun hsilent => ?_⟩
      · rw [Generator.run_policy hcomplete stored, hpolicy]
        rfl
      · exact absurd hannounced hsilent

/-- One hook proceeds with its result and the other before it; both are accepted, and the policy
wants both in a local. -/
theorem Session.policy_applied_when_announced_late :
    let prompt : Blueprint Hook := {
      kind := "prompt"
      mode := .sideEffectful
      hook := [.text "f()", .setResult, .proceed] }
    let late : Blueprint Hook := { prompt with
      kind := "late"
      hook := [.attempt .proceed, .text "g()", .setResult] }
    let session := blank.run [.register (.seed prompt), .register (.seed late), .finalize]
    let final := session.run [.generate]
    .accepted ⟨0⟩ ∈ final.journal ∧ .accepted ⟨1⟩ ∈ final.journal ∧
    final.Announced ⟨0⟩ ∧ ¬ final.Announced ⟨1⟩ ∧
    final.slot? ⟨0⟩ = some (.bound "s0" (.code "s0") (.code "f()")) ∧
    final.slot? ⟨1⟩ = some (.set (.code "g()")) := by
  intro prompt late session final
  have hfirst : .accepted ⟨0⟩ ∈ final.journal := by decide +kernel
  have hsecond : .accepted ⟨1⟩ ∈ final.journal := by decide +kernel
  have hbound : final.slot? ⟨0⟩ = some (.bound "s0" (.code "s0") (.code "f()")) := by
    decide +kernel
  have hunbound : final.slot? ⟨1⟩ = some (.set (.code "g()")) := by decide +kernel
  have hpolicy : seenAfter? (fun decision _ => decision) (Generator.policy ⟨1⟩) final =
      some true := by decide +kernel
  obtain ⟨hturns, hmoments⟩ := policy_applied_when_announced (reachable_run_blank _)
    (show session.finalized = true by decide +kernel) (by decide +kernel) (by decide +kernel)
  have hgenerated := hturns [.generate] (by simp [Request.binds])
  refine ⟨hfirst, hsecond, ?_, ?_, hbound, hunbound⟩
  · by_contra hsilent
    obtain ⟨seed, text, stored, -, -, hfree⟩ := hmoments final hgenerated ⟨0⟩ hfirst
    rw [Generator.slot?_of_stored stored, Option.some.injEq] at hbound
    have hnot := (hfree hsilent).1
    rw [hbound] at hnot
    exact absurd hnot (by simp [Slot.isBound])
  · intro hannounced
    obtain ⟨seed, text, stored, -, happlied, -⟩ := hmoments final hgenerated ⟨1⟩ hsecond
    obtain ⟨decision, after, hrun, hdecision⟩ := run_of_seenAfter? hpolicy
    rw [Generator.slot?_of_stored stored, Option.some.injEq] at hunbound
    rw [(happlied hannounced).1, hunbound] at hrun
    have hvalue : false = decision := (EStateM.Result.ok.inj hrun).1
    exact absurd (hvalue.trans hdecision) (by simp)

/-- A seed that the policy wants in a local, and one that opens a region: both hooks proceed before
they have a result and survive that, and both are accepted.  The first is in no local, the second
was not emitted, and no failure is reported. -/
theorem Session.late_results_escape_policy :
    let late : Blueprint Hook := {
      kind := "late"
      mode := .sideEffectful
      hook := [.attempt .proceed, .text "x", .setResult] }
    let block : Blueprint Hook := { late with kind := "block", mode := .pure, boundary := .opens }
    let session := blank.run [.register (.seed late), .register (.seed block), .finalize]
    let final := (session.step .generate).2
    session.finalized = true ∧
    (∀ seed ∈ session.store.seeds, seed.slot = .unset ∧ seed.hook.binds = false) ∧
    (session.step .generate).1 = .ok (.result (some (.code "x"))) ∧
    .accepted ⟨0⟩ ∈ final.journal ∧ .accepted ⟨1⟩ ∈ final.journal ∧
    final.slot? ⟨0⟩ = some (.set (.code "x")) ∧ final.slot? ⟨1⟩ = some (.set (.code "x")) ∧
    final.blockCodes ⟨1⟩ = [] ∧
    seenAfter? (fun decision _ => decision) (Generator.policy ⟨0⟩) final = some true := by
  decide +kernel

end SeedGraph
