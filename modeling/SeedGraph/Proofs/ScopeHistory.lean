import Mathlib.Data.List.Induction
import Mathlib.Data.List.Infix
import SeedGraph.Proofs.Slots

/-!
# Scopes and their history

A session keeps the memo and the greatest mode of the innermost scope at hand, and sets them aside
when a scope is opened.  This module compares that with the plain history of the session, in which
nothing is ever set aside: the journal says when scopes were opened and closed, which seeds were
registered and which were memoized.

* `openings`: the scopes that were opened and not yet closed.  Two scopes with the same anchor are
  told apart by the time at which they were opened.
* `during`: the events that were recorded while a given scope was the innermost one.
* `contextOf`: the memo and the greatest mode that such events amount to.
* `Layered`: the context at hand is that of the innermost scope, and the contexts set aside are
  those of the scopes around it.
* `ScopeMove`: all that a move can do about scopes.

What happens in one scope is never recorded during another, so an event can only change the
innermost context (`during_outer`); and a scope that is closed gives way to the scope around it as
it was before.
-/

namespace SeedGraph

/-! ### Openings -/

/-- A scope that was opened. -/
structure Opening where
  /-- The length of the journal before the scope was opened. -/
  time : Nat
  /-- The seed at which it was opened. -/
  anchor : SeedId
  /-- Does the anchor have to come after seeds that are registered late? -/
  depending : Bool
  deriving DecidableEq, Repr

/-- The scopes that are open after an event at the given time, if `current` were open before it. -/
def Event.scope (time : Nat) (current : List Opening) : Event → List Opening
  | .scopeOpened anchor depending => ⟨time, anchor, depending⟩ :: current
  | .scopeClosed => current.tail
  | _ => current

/-- The scopes that were opened and not closed, innermost first. -/
def openings (journal : List Event) : List Opening :=
  journal.zipIdx.foldl (fun current entry => entry.1.scope entry.2 current) []

@[simp] theorem openings_snoc (journal : List Event) (event : Event) :
    openings (journal ++ [event]) = event.scope journal.length (openings journal) := by
  simp [openings, List.zipIdx_append]

/-- Events are numbered, and an opening bears the number of its event. -/
theorem getElem?_of_mem_openings {journal : List Event} {opening : Opening}
    (mem : opening ∈ openings journal) :
    journal[opening.time]? = some (.scopeOpened opening.anchor opening.depending) := by
  induction journal using List.reverseRecOn with
  | nil => exact absurd mem List.not_mem_nil
  | append_singleton journal event ih =>
    have hearlier : opening ∈ openings journal → (journal ++ [event])[opening.time]? =
        some (.scopeOpened opening.anchor opening.depending) := by
      intro hopen
      have hfound := ih hopen
      rw [List.getElem?_append_left (List.getElem?_eq_some_iff.1 hfound).1]
      exact hfound
    rw [openings_snoc] at mem
    cases event with
    | scopeOpened anchor depending =>
      rcases List.mem_cons.1 mem with rfl | hopen
      · simp
      · exact hearlier hopen
    | scopeClosed => exact hearlier (List.mem_of_mem_tail mem)
    | _ => exact hearlier mem

theorem time_lt_length {journal : List Event} {opening : Opening}
    (mem : opening ∈ openings journal) : opening.time < journal.length :=
  (List.getElem?_eq_some_iff.1 (getElem?_of_mem_openings mem)).1

/-- A scope is opened later than the scopes around it. -/
theorem pairwise_openings (journal : List Event) :
    (openings journal).Pairwise fun inner outer => outer.time < inner.time := by
  induction journal using List.reverseRecOn with
  | nil => exact .nil
  | append_singleton journal event ih =>
    rw [openings_snoc]
    cases event with
    | scopeOpened anchor depending => exact .cons (fun outer mem => time_lt_length mem) ih
    | scopeClosed => exact ih.tail
    | _ => exact ih

/-- The innermost scope is none of the scopes around an open one. -/
theorem head?_openings_ne {journal : List Event} {opening : Opening} {outer : List Opening}
    (hopen : opening :: outer <:+ openings journal) :
    (openings journal).head? ≠ outer.head? := by
  have hpairwise := pairwise_openings journal
  obtain ⟨inner, hopenings⟩ := hopen
  rw [← hopenings] at hpairwise ⊢
  cases outer with
  | nil => simp
  | cons next rest =>
    intro hhead
    have hlater : ∀ first ∈ inner ++ [opening], next.time < first.time := by
      intro first mem
      rw [List.append_cons, List.pairwise_append] at hpairwise
      exact hpairwise.2.2 first mem next List.mem_cons_self
    cases inner with
    | nil =>
      obtain rfl : opening = next := by simpa using hhead
      exact Nat.lt_irrefl _ (hlater opening (by simp))
    | cons first others =>
      obtain rfl : first = next := by simpa using hhead
      exact Nat.lt_irrefl _ (hlater first (by simp))

/-! ### What happened in a scope -/

/-- The events that were recorded while the given scope was innermost, or while none was open. -/
def during (scope? : Option Opening) (journal : List Event) : List Event :=
  (journal.zipIdx.filter fun entry =>
    (openings (journal.take entry.2)).head? = scope?).map Prod.fst

theorem during_snoc (scope? : Option Opening) (journal : List Event) (event : Event) :
    during scope? (journal ++ [event]) =
      during scope? journal ++ if (openings journal).head? = scope? then [event] else [] := by
  have hearlier : ∀ entry ∈ journal.zipIdx,
      (journal ++ [event]).take entry.2 = journal.take entry.2 := by
    intro entry mem
    have hlt := List.snd_lt_of_mem_zipIdx mem
    rw [Nat.add_zero] at hlt
    exact List.take_append_of_le_length (Nat.le_of_lt hlt)
  unfold during
  rw [List.zipIdx_append, List.filter_append, List.map_append]
  congr 1
  · congr 1
    refine List.filter_congr fun entry mem => ?_
    rw [hearlier entry mem]
  · rw [Nat.zero_add, List.zipIdx_singleton]
    by_cases hinner : (openings journal).head? = scope?
    · simp [hinner]
    · simp [hinner]

/-- **What happens while one scope is innermost is not recorded during a scope around it.** -/
theorem during_outer {journal : List Event} {opening : Opening} {outer : List Opening}
    (hopen : opening :: outer <:+ openings journal) (event : Event) :
    during outer.head? (journal ++ [event]) = during outer.head? journal := by
  rw [during_snoc, if_neg (head?_openings_ne hopen), List.append_nil]

/-- Nothing was recorded during a scope that is yet to be opened. -/
theorem during_of_length_le {journal : List Event} {opening : Opening}
    (new : journal.length ≤ opening.time) : during (some opening) journal = [] := by
  unfold during
  rw [List.map_eq_nil_iff, List.filter_eq_nil_iff]
  intro entry _ hinner
  have hopen := List.mem_of_head? (of_decide_eq_true hinner)
  have htime := time_lt_length hopen
  rw [List.length_take] at htime
  omega

/-- The mode of a seed that was registered. -/
def Event.mode? : Event → Option Mode
  | .registered _ mode => some mode
  | _ => none

/-- What was memoized, with its key. -/
def Event.memo? : Event → Option (String × SeedId)
  | .memoized key id => some (key, id)
  | _ => none

/-- The join of the modes of all seeds that were registered. -/
def joinedModes (events : List Event) : Mode :=
  (events.filterMap Event.mode?).foldl Mode.join .pure

/-- The greatest of some modes, or `pure` if there are none. -/
structure Mode.IsGreatest (greatest : Mode) (modes : List Mode) : Prop where
  /-- No mode is greater. -/
  bounds : ∀ mode ∈ modes, mode.rank ≤ greatest.rank
  /-- It is one of the modes. -/
  attained : greatest ∈ modes ∨ modes = [] ∧ greatest = .pure

namespace Mode.IsGreatest

/-- Another mode is either passed over or becomes the greatest. -/
theorem snoc {greatest : Mode} {modes : List Mode} (h : greatest.IsGreatest modes) (mode : Mode) :
    (greatest.join mode).IsGreatest (modes ++ [mode]) := by
  refine ⟨fun other mem => ?_, .inl ?_⟩
  · rw [rank_join]
    rcases List.mem_append.1 mem with hearlier | hlast
    · exact Nat.le_trans (h.bounds other hearlier) (Nat.le_max_left _ _)
    · rw [List.mem_singleton.1 hlast]
      exact Nat.le_max_right _ _
  · rcases h.attained with hmem | ⟨hnone, hpure⟩
    · rcases join_eq_or greatest mode with hjoin | hjoin
      · rw [hjoin]
        exact List.mem_append_left _ hmem
      · rw [hjoin]
        exact List.mem_append_right _ (List.mem_singleton_self mode)
    · rw [hpure, pure_join]
      exact List.mem_append_right _ (List.mem_singleton_self mode)

end Mode.IsGreatest

theorem isGreatest_joinedModes (events : List Event) :
    (joinedModes events).IsGreatest (events.filterMap Event.mode?) := by
  unfold joinedModes
  induction events.filterMap Event.mode? using List.reverseRecOn with
  | nil => exact ⟨by simp, .inr ⟨rfl, rfl⟩⟩
  | append_singleton modes mode ih =>
    rw [List.foldl_append]
    exact ih.snoc mode

/-- The seed that was memoized last under a key. -/
def lastMemo? (key : String) (events : List Event) : Option SeedId :=
  ((events.filterMap Event.memo?).filter fun entry => entry.1 = key).getLast?.map Prod.snd

/-- The context to which some events amount. -/
def contextOf (events : List Event) : Context where
  memo := (events.filterMap Event.memo?).reverse
  maxMode := joinedModes events

/-- What an event adds to the context in which it happens. -/
def Event.count (context : Context) : Event → Context
  | .registered _ mode => { context with maxMode := context.maxMode.join mode }
  | .memoized key id => { context with memo := (key, id) :: context.memo }
  | _ => context

theorem contextOf_snoc (events : List Event) (event : Event) :
    contextOf (events ++ [event]) = event.count (contextOf events) := by
  unfold contextOf joinedModes
  rw [List.filterMap_append, List.filterMap_append, List.reverse_append, List.foldl_append]
  cases event <;> rfl

/-- Of several entries for a key the last one counts. -/
theorem lookup_memo_contextOf (key : String) (events : List Event) :
    (contextOf events).memo.lookup key = lastMemo? key events := by
  unfold lastMemo? contextOf
  dsimp only
  generalize events.filterMap Event.memo? = entries
  induction entries using List.reverseRecOn with
  | nil => rfl
  | append_singleton entries entry ih =>
    rw [List.reverse_append, List.reverse_singleton, List.singleton_append, List.lookup_cons,
      List.filter_append]
    by_cases hkey : entry.1 = key
    · simp [hkey]
    · have hother : (key == entry.1) = false := beq_eq_false_iff_ne.2 fun h => hkey h.symm
      rw [hother, ih]
      simp [hkey]

/-! ### Layers -/

/-- The open scopes with the contexts that history gives the scopes around them. -/
def scopesOf (journal : List Event) : List Opening → List Scope
  | [] => []
  | opening :: outer =>
    ⟨opening.anchor, opening.depending, contextOf (during outer.head? journal)⟩ ::
      scopesOf journal outer

/-- No event changes what is set aside. -/
theorem scopesOf_snoc {journal : List Event} {opened : List Opening}
    (hopen : opened <:+ openings journal) (event : Event) :
    scopesOf (journal ++ [event]) opened = scopesOf journal opened := by
  induction opened with
  | nil => rfl
  | cons opening outer ih =>
    rw [scopesOf, scopesOf, during_outer hopen, ih ((List.suffix_cons _ _).trans hopen)]

/-- A context and a stack of scopes are what a journal says. -/
structure Layered (journal : List Event) (context : Context) (scopes : List Scope) : Prop where
  /-- The context is that of the innermost scope. -/
  context : context = contextOf (during (openings journal).head? journal)
  /-- The scopes are those that are open, each with the context of the scope around it. -/
  scopes : scopes = scopesOf journal (openings journal)

namespace Layered

variable {journal : List Event} {context : Context} {scopes : List Scope}

/-- An event that opens and closes no scope belongs to the innermost one. -/
theorem count (h : Layered journal context scopes) {event : Event}
    (same : ∀ time current, event.scope time current = current) :
    Layered (journal ++ [event]) (event.count context) scopes := by
  refine ⟨?_, ?_⟩
  · rw [openings_snoc, same, during_snoc, if_pos rfl, contextOf_snoc, ← h.context]
  · rw [openings_snoc, same, scopesOf_snoc List.suffix_rfl, ← h.scopes]

/-- A scope that is opened starts afresh, and the context around it is set aside. -/
theorem opened (h : Layered journal context scopes) (anchor : SeedId) (depending : Bool) :
    Layered (journal ++ [.scopeOpened anchor depending]) {}
      (⟨anchor, depending, context⟩ :: scopes) := by
  have hopenings : openings (journal ++ [.scopeOpened anchor depending]) =
      ⟨journal.length, anchor, depending⟩ :: openings journal := openings_snoc _ _
  refine ⟨?_, ?_⟩
  · have hnew : (openings journal).head? ≠ some ⟨journal.length, anchor, depending⟩ := fun hhead =>
      Nat.lt_irrefl _ (time_lt_length (List.mem_of_head? hhead))
    rw [hopenings, List.head?_cons, during_snoc, if_neg hnew,
      during_of_length_le (Nat.le_refl _)]
    rfl
  · rw [hopenings, scopesOf, scopesOf_snoc List.suffix_rfl, ← h.scopes, during_snoc, if_pos rfl,
      contextOf_snoc, ← h.context]
    rfl

/-- A scope that is closed gives way to the scope around it. -/
theorem closed {scope : Scope} (h : Layered journal context (scope :: scopes)) :
    Layered (journal ++ [.scopeClosed]) scope.enclosing scopes := by
  have hscopes := h.scopes
  cases hopenings : openings journal with
  | nil =>
    rw [hopenings] at hscopes
    exact absurd hscopes (by simp [scopesOf])
  | cons opening outer =>
    rw [hopenings, scopesOf] at hscopes
    obtain ⟨rfl, rfl⟩ := List.cons.inj hscopes
    have hopen : opening :: outer <:+ openings journal := by rw [hopenings]
    have hclosed : openings (journal ++ [.scopeClosed]) = outer := by
      rw [openings_snoc, hopenings]
      rfl
    refine ⟨?_, ?_⟩
    · rw [hclosed, during_outer hopen]
    · rw [hclosed, scopesOf_snoc ((List.suffix_cons _ _).trans hopen)]

end Layered

/-- **What is set aside is what was at hand when the scope was opened.** -/
theorem layered_take {journal : List Event} {opening : Opening} {outer : List Opening}
    (hopen : opening :: outer <:+ openings journal) :
    Layered (journal.take opening.time) (contextOf (during outer.head? journal))
      (scopesOf journal outer) := by
  induction journal using List.reverseRecOn with
  | nil => exact absurd hopen.length_le (by simp [openings])
  | append_singleton journal event ih =>
    -- A scope that was open before stays as it is, whatever the event.
    have hearlier : opening :: outer <:+ openings journal →
        Layered ((journal ++ [event]).take opening.time)
          (contextOf (during outer.head? (journal ++ [event])))
          (scopesOf (journal ++ [event]) outer) := by
      intro hsuffix
      have htime := time_lt_length (hsuffix.subset List.mem_cons_self)
      rw [List.take_append_of_le_length (Nat.le_of_lt htime), during_outer hsuffix,
        scopesOf_snoc ((List.suffix_cons _ _).trans hsuffix)]
      exact ih hsuffix
    rw [openings_snoc] at hopen
    cases event with
    | scopeOpened anchor depending =>
      rcases List.suffix_cons_iff.1 hopen with heq | hsuffix
      · obtain ⟨rfl, rfl⟩ := List.cons.inj heq
        rw [List.take_left, during_snoc, if_pos rfl, contextOf_snoc, scopesOf_snoc List.suffix_rfl]
        exact ⟨rfl, rfl⟩
      · exact hearlier hsuffix
    | scopeClosed => exact hearlier (hopen.trans (List.tail_suffix _))
    | _ => exact hearlier hopen

/-- Is the event about scopes, or about what is remembered of one? -/
def Event.concernsScopes : Event → Bool
  | .registered .. | .memoized .. | .scopeOpened .. | .scopeClosed => true
  | _ => false

namespace Event

variable {event : Event}

theorem scope_of_plain (plain : event.concernsScopes = false) (time : Nat)
    (current : List Opening) : event.scope time current = current := by
  cases event with
  | scopeOpened _ _ => exact absurd plain (by simp [concernsScopes])
  | scopeClosed => exact absurd plain (by simp [concernsScopes])
  | _ => rfl

theorem count_of_plain (plain : event.concernsScopes = false) (context : Context) :
    event.count context = context := by
  cases event with
  | registered _ _ => exact absurd plain (by simp [concernsScopes])
  | memoized _ _ => exact absurd plain (by simp [concernsScopes])
  | _ => rfl

/-- A remark of a hook is about something else. -/
theorem concernsScopes_of_isRemark (plain : event.isRemark = true) :
    event.concernsScopes = false := by
  cases event with
  | caught _ _ => rfl
  | answered _ _ => rfl
  | _ => exact absurd plain (by simp [isRemark])

end Event

/-- Other events change nothing. -/
theorem Layered.plain {journal events : List Event} {context : Context} {scopes : List Scope}
    (h : Layered journal context scopes)
    (plain : ∀ event ∈ events, event.concernsScopes = false) :
    Layered (journal ++ events) context scopes := by
  induction events generalizing journal with
  | nil =>
    rw [List.append_nil]
    exact h
  | cons event rest ih =>
    have hevent := plain event List.mem_cons_self
    have hcounted := h.count (Event.scope_of_plain hevent)
    rw [Event.count_of_plain hevent] at hcounted
    rw [List.append_cons]
    exact ih hcounted fun other mem => plain other (List.mem_cons_of_mem _ mem)

/-! ### The operations -/

namespace Generator

variable {gen next : Session}

theorem beginScope_eq_ok {anchor : SeedId} {depending : Bool}
    (hrun : (beginScope anchor depending).run gen = .ok () next) :
    next = noted { gen with
      scopes := ⟨anchor, depending, gen.context⟩ :: gen.scopes
      context := {} } (.scopeOpened anchor depending) := by
  cases hstored : gen.store.get? anchor with
  | none =>
    rw [beginScope, run_bind_error (run_lookup_of_none hstored)] at hrun
    exact absurd hrun (by simp)
  | some seed =>
    rw [beginScope, run_bind_ok (run_lookup_of_some hstored)] at hrun
    injection hrun with _ hnext
    exact hnext.symm

theorem run_endScope_of_none (h : gen.scopes = []) :
    endScope.run gen = .error .noOpenScope gen := by
  rw [endScope, run_get_bind, h]
  rfl

theorem run_endScope {scope : Scope} {rest : List Scope} (h : gen.scopes = scope :: rest) :
    endScope.run gen = .ok (scope.anchor, gen.maxMode)
      (noted { gen with scopes := rest, context := scope.enclosing } .scopeClosed) := by
  rw [endScope, run_get_bind, h]
  rfl

theorem endScope_eq_ok {answer : SeedId × Mode} (hrun : endScope.run gen = .ok answer next) :
    ∃ scope rest, gen.scopes = scope :: rest ∧
      next = noted { gen with scopes := rest, context := scope.enclosing } .scopeClosed := by
  cases hscopes : gen.scopes with
  | nil =>
    rw [run_endScope_of_none hscopes] at hrun
    exact absurd hrun (by simp)
  | cons scope rest =>
    rw [run_endScope hscopes] at hrun
    injection hrun with _ hnext
    exact ⟨scope, rest, rfl, hnext.symm⟩

theorem run_memoize (key : String) (id : SeedId) (gen : Session) :
    (memoize key id).run gen = .ok (gen.memo? key) (noted
      { gen with context := { gen.context with memo := (key, id) :: gen.context.memo } }
      (.memoized key id)) := rfl

/-- The journal records the calls that succeed, each by an event of its own. -/
structure RecordsCalls (gen : Session) : Prop where
  /-- A registration. -/
  register : ∀ candidate id next, (register candidate).run gen = .ok id next →
    ∃ seed events, candidate = .seed seed ∧
      next.journal = gen.journal ++ .registered id seed.mode :: events ∧
      ∀ event ∈ events, event.concernsScopes = false
  /-- A seed is memoized. -/
  memoize : ∀ key id previous next, (memoize key id).run gen = .ok previous next →
    next.journal = gen.journal ++ [.memoized key id]
  /-- A scope is opened. -/
  beginScope : ∀ anchor depending next, (beginScope anchor depending).run gen = .ok () next →
    next.journal = gen.journal ++ [.scopeOpened anchor depending]
  /-- A scope is closed. -/
  endScope : ∀ answer next, endScope.run gen = .ok answer next →
    next.journal = gen.journal ++ [.scopeClosed]

theorem concernsScopes_givenResult {id : SeedId} {seed : Seed Hook} {event : Event}
    (mem : event ∈ givenResult id seed) : event.concernsScopes = false := by
  obtain ⟨-, rfl⟩ := mem_givenResult.1 mem
  rfl

theorem recordsCalls (gen : Session) : gen.RecordsCalls where
  register candidate id next hrun := by
    obtain ⟨failure, hfail⟩ | ⟨seed, rfl, -, -, -, hdone⟩ := register_cases candidate gen
    · rw [hfail] at hrun
      exact absurd hrun (by simp)
    · rw [hdone] at hrun
      injection hrun with hid hnext
      rw [← hid, ← hnext]
      exact ⟨seed, _, rfl, rfl, fun event mem => concernsScopes_givenResult mem⟩
  memoize key id previous next hrun := by
    rw [run_memoize] at hrun
    injection hrun with _ hnext
    rw [← hnext]
    rfl
  beginScope anchor depending next hrun := by
    rw [beginScope_eq_ok hrun]
    rfl
  endScope answer next hrun := by
    obtain ⟨scope, rest, -, rfl⟩ := endScope_eq_ok hrun
    rfl

end Generator

/-! ### Moves -/

/-- **All that a move from `gen` to `gen'` can do about scopes**: one of four calls that succeeds,
or nothing. -/
inductive ScopeMove (gen gen' : Session) : Prop
  /-- Nothing is done, and nothing recorded. -/
  | kept (events : List Event) (journal : gen'.journal = gen.journal ++ events)
      (plain : ∀ event ∈ events, event.concernsScopes = false)
      (context : gen'.context = gen.context) (scopes : gen'.scopes = gen.scopes)
  /-- A seed is registered. -/
  | registered (seed : Seed Hook) (id : SeedId)
      (ran : (Generator.register (.seed seed)).run gen = .ok id gen')
  /-- A seed is memoized. -/
  | memoized (key : String) (id : SeedId) (previous : Option SeedId)
      (ran : (Generator.memoize key id).run gen = .ok previous gen')
  /-- A scope is opened. -/
  | opened (anchor : SeedId) (depending : Bool)
      (ran : (Generator.beginScope anchor depending).run gen = .ok () gen')
  /-- The innermost scope is closed. -/
  | closed (answer : SeedId × Mode) (ran : Generator.endScope.run gen = .ok answer gen')

theorem Move.scopeMove {gen gen' : Session} (move : Move gen gen') : ScopeMove gen gen' := by
  have hnone : gen'.journal = gen.journal → gen'.context = gen.context →
      gen'.scopes = gen.scopes → ScopeMove gen gen' := fun hjournal hcontext hscopes =>
    .kept [] (by rw [hjournal, List.append_nil]) (by simp) hcontext hscopes
  have hsingle : ∀ event : Event, gen'.journal = gen.journal ++ [event] →
      event.concernsScopes = false → gen'.context = gen.context → gen'.scopes = gen.scopes →
      ScopeMove gen gen' := fun event hjournal hplain hcontext hscopes =>
    .kept [event] hjournal (by simpa using hplain) hcontext hscopes
  have hdouble : ∀ event event' : Event, gen'.journal = (gen.journal ++ [event]) ++ [event'] →
      event.concernsScopes = false → event'.concernsScopes = false → gen'.context = gen.context →
      gen'.scopes = gen.scopes → ScopeMove gen gen' :=
    fun event event' hjournal hplain hplain' hcontext hscopes =>
      .kept [event, event'] (by rw [hjournal, List.append_assoc]; rfl)
        (by simpa using ⟨hplain, hplain'⟩) hcontext hscopes
  cases move with
  | register blueprint opened unnumbered room =>
    exact .registered blueprint.build ⟨gen.upper⟩ (Generator.run_register opened unnumbered room)
  | openScope anchor depending stored =>
    exact .opened anchor depending (run_bind_ok (Generator.run_lookup_of_some stored))
  | closeScope innermost => exact .closed _ (Generator.run_endScope innermost)
  | memoize key id => exact .memoized key id _ (Generator.run_memoize key id gen)
  | remark event plain =>
    exact hsingle event rfl (Event.concernsScopes_of_isRemark plain) rfl rfl
  | openRegion => exact hsingle _ rfl rfl rfl rfl
  | closeRegion _ _ => exact hsingle _ rfl rfl rfl rfl
  | beginTraversal => exact hsingle _ rfl rfl rfl rfl
  | endTraversal _ _ => exact hsingle _ rfl rfl rfl rfl
  | enter _ _ _ _ _ => exact hsingle _ rfl rfl rfl rfl
  | write _ _ _ _ => exact hsingle _ rfl rfl rfl rfl
  | proceed _ => exact hsingle _ rfl rfl rfl rfl
  | proceedBlock _ _ _ _ => exact hsingle _ rfl rfl rfl rfl
  | accept _ _ _ => exact hdouble _ _ rfl rfl rfl rfl rfl
  | reject _ _ _ => exact hdouble _ _ rfl rfl rfl rfl rfl
  | _ => exact hnone rfl rfl rfl

namespace ScopeMove

variable {gen gen' : Session}

/-- The journal grows, and by nothing else when a scope is opened. -/
theorem journal (move : ScopeMove gen gen') :
    ∃ events, gen'.journal = gen.journal ++ events ∧
      ∀ anchor depending, .scopeOpened anchor depending ∈ events →
        events = [.scopeOpened anchor depending] ∧
        (Generator.beginScope anchor depending).run gen = .ok () gen' := by
  cases move with
  | kept events journal plain _ _ =>
    exact ⟨events, journal, fun anchor depending mem => absurd (plain _ mem) (by
      simp [Event.concernsScopes])⟩
  | registered seed id ran =>
    obtain ⟨_, events, -, hjournal, hplain⟩ := gen.recordsCalls.register _ _ _ ran
    refine ⟨_, hjournal, fun anchor depending mem => ?_⟩
    rcases List.mem_cons.1 mem with heq | mem
    · exact absurd heq (by simp)
    · exact absurd (hplain _ mem) (by simp [Event.concernsScopes])
  | memoized key id previous ran =>
    exact ⟨_, gen.recordsCalls.memoize _ _ _ _ ran, by simp⟩
  | opened anchor depending ran =>
    refine ⟨_, gen.recordsCalls.beginScope _ _ _ ran, fun other depending' mem => ?_⟩
    obtain ⟨rfl, rfl⟩ : other = anchor ∧ depending' = depending := by simpa using mem
    exact ⟨rfl, ran⟩
  | closed answer ran => exact ⟨_, gen.recordsCalls.endScope _ _ ran, by simp⟩

theorem layered (move : ScopeMove gen gen') (h : Layered gen.journal gen.context gen.scopes) :
    Layered gen'.journal gen'.context gen'.scopes := by
  cases move with
  | kept events journal plain context scopes =>
    rw [journal, context, scopes]
    exact h.plain plain
  | registered seed id ran =>
    obtain ⟨failure, hfail⟩ | ⟨other, hsame, -, -, -, hdone⟩ :=
      Generator.register_cases (.seed seed) gen
    · rw [hfail] at ran
      exact absurd ran (by simp)
    · rw [hdone] at ran
      injection ran with hid hnext
      obtain rfl : seed = other := by simpa using hsame
      rw [← hnext, Generator.enroll]
      dsimp only
      rw [List.append_cons]
      exact (h.count fun _ _ => rfl).plain fun event mem =>
        Generator.concernsScopes_givenResult mem
  | memoized key id previous ran =>
    rw [Generator.run_memoize] at ran
    injection ran with _ hnext
    rw [← hnext]
    exact h.count fun _ _ => rfl
  | opened anchor depending ran =>
    rw [Generator.beginScope_eq_ok ran]
    exact h.opened anchor depending
  | closed answer ran =>
    obtain ⟨scope, rest, hscopes, rfl⟩ := Generator.endScope_eq_ok ran
    rw [hscopes] at h
    exact h.closed

end ScopeMove

/-! ### Runs -/

/-- A new session has no history. -/
theorem concernsScopes_of_createWith {settings : Settings}
    {candidates : List (Candidate (Blueprint Hook))} {origin : Session}
    (created : Session.createWith settings candidates = .ok origin) {event : Event}
    (mem : event ∈ origin.journal) : event.concernsScopes = false := by
  obtain ⟨platform, blueprints, -, -, -, rfl⟩ := createWith_eq_ok created
  obtain ⟨entry, -, hgiven⟩ := List.mem_flatMap.1 mem
  exact Generator.concernsScopes_givenResult hgiven

theorem Reachable.layered {gen : Session} (h : Reachable gen) :
    Layered gen.journal gen.context gen.scopes := by
  refine h.induction (fun settings candidates origin created => ?_) fun _ _ hbefore move =>
    move.scopeMove.layered hbefore
  have hblank : Layered [] {} [] := ⟨rfl, rfl⟩
  have hplain := hblank.plain fun event => concernsScopes_of_createWith created
  obtain ⟨platform, blueprints, -, -, -, rfl⟩ := createWith_eq_ok created
  exact hplain

/-- **Every opening on record was a call that succeeded**, at the moment that the record says. -/
theorem Moves.opening {origin gen : Session} (moves : Moves origin gen)
    (new : ∀ anchor depending, .scopeOpened anchor depending ∉ origin.journal) {time : Nat}
    {anchor : SeedId} {depending : Bool}
    (recorded : gen.journal[time]? = some (.scopeOpened anchor depending)) :
    ∃ before opened, Moves origin before ∧ before.journal = gen.journal.take time ∧
      (Generator.beginScope anchor depending).run before = .ok () opened ∧ Moves opened gen := by
  induction moves with
  | refl => exact absurd (List.mem_of_getElem? recorded) (new anchor depending)
  | @tail moment next earlier move ih =>
    obtain ⟨events, hjournal, hopened⟩ := move.scopeMove.journal
    rw [hjournal] at recorded ⊢
    by_cases htime : time < moment.journal.length
    · rw [List.getElem?_append_left htime] at recorded
      obtain ⟨before, opened, hbefore, htake, hrun, hon⟩ := ih recorded
      rw [List.take_append_of_le_length (Nat.le_of_lt htime)]
      exact ⟨before, opened, hbefore, htake, hrun, hon.tail move⟩
    · rw [List.getElem?_append_right (Nat.le_of_not_lt htime)] at recorded
      obtain ⟨hsingle, hrun⟩ := hopened anchor depending (List.mem_of_getElem? recorded)
      -- The event stands alone, so it was recorded at the end of the journal.
      have hfirst := (List.getElem?_eq_some_iff.1 recorded).1
      rw [hsingle, List.length_singleton] at hfirst
      obtain rfl : time = moment.journal.length := by omega
      exact ⟨moment, next, earlier, (List.take_left).symm, hrun, .refl⟩

/-! ### The main result -/

theorem depending_scopesOf (journal : List Event) (opened : List Opening) :
    ((scopesOf journal opened).filter Scope.depending).map Scope.anchor =
      (opened.filter Opening.depending).map Opening.anchor := by
  induction opened with
  | nil => rfl
  | cons opening outer ih =>
    rw [scopesOf, List.filter_cons, List.filter_cons]
    cases opening.depending with
    | true => exact congrArg (opening.anchor :: ·) ih
    | false => exact ih

/-- What a session shows of its scopes is what its history says. -/
structure Generator.ShowsHistory (gen : Session) : Prop where
  /-- The greatest mode is the join of the modes of just those seeds that were registered while the
  present scope was the innermost one. -/
  maxMode : gen.maxMode = joinedModes (during (openings gen.journal).head? gen.journal)
  /-- It bounds the modes of those seeds, and is one of them unless there are none. -/
  greatest : gen.maxMode.IsGreatest
    ((during (openings gen.journal).head? gen.journal).filterMap Event.mode?)
  /-- The memo knows for each key the seed that was memoized last while the present scope was the
  innermost one. -/
  memo : ∀ key, gen.memo? key = lastMemo? key (during (openings gen.journal).head? gen.journal)
  /-- There are as many scopes as were opened and not closed. -/
  depth : gen.scopes.length = (openings gen.journal).length
  /-- The current scope is the one that was opened last of these. -/
  current : gen.currentScope? = (openings gen.journal).head?.map Opening.anchor
  /-- The anchors of those that are depending are listed, outermost first. -/
  depending : gen.dependingScopes =
    ((openings gen.journal).reverse.filter Opening.depending).map Opening.anchor

theorem Layered.showsHistory {gen : Session} (h : Layered gen.journal gen.context gen.scopes) :
    gen.ShowsHistory where
  maxMode := by
    rw [Generator.maxMode, h.context]
    rfl
  greatest := by
    rw [Generator.maxMode, h.context]
    exact isGreatest_joinedModes _
  memo key := by
    rw [Generator.memo?, h.context, lookup_memo_contextOf]
  depth := by
    rw [h.scopes]
    induction openings gen.journal with
    | nil => rfl
    | cons opening outer ih => exact congrArg (· + 1) ih
  current := by
    rw [Generator.currentScope?, h.scopes]
    cases openings gen.journal with
    | nil => rfl
    | cons opening outer => rfl
  depending := by
    rw [Generator.dependingScopes, h.scopes, depending_scopesOf, List.filter_reverse,
      List.map_reverse]

/-- **Scopes follow their history.**  Requests lead a new session from moment to moment.  What its
journal records about scopes are just the calls that succeeded: at any moment such a call is
recorded when it succeeds, and a move that is none of them neither records anything of the kind nor
touches the scopes.  At each moment, also in the middle of a hook and after any failure:

* the greatest mode, the memo, the number of scopes, the current one and the depending ones are what
  this history says;
* if no scope is open, none can be closed, and nothing changes;
* otherwise, closing a scope answers the anchor with which it was opened and the join of the modes
  that were registered in it and not in a scope inside of it, which is the greatest of them.  Then
  the greatest mode, the memo and the scopes are what they were just before it was opened. -/
theorem Session.scopes_follow_history {settings : Settings}
    {candidates : List (Candidate (Blueprint Hook))} {origin : Session}
    (created : createWith settings candidates = .ok origin) :
    (∀ requests, Moves origin (origin.run requests)) ∧
    ∀ moment, Moves origin moment →
      moment.RecordsCalls ∧ (∀ next, Move moment next → ScopeMove moment next) ∧
      moment.ShowsHistory ∧
      (openings moment.journal = [] → Generator.endScope.run moment = .error .noOpenScope moment) ∧
      ∀ opening outer, openings moment.journal = opening :: outer →
        ∃ before opened next, Moves origin before ∧
          before.journal = moment.journal.take opening.time ∧
          (Generator.beginScope opening.anchor opening.depending).run before = .ok () opened ∧
          Moves opened moment ∧
          Generator.endScope.run moment =
            .ok (opening.anchor, joinedModes (during (some opening) moment.journal)) next ∧
          (joinedModes (during (some opening) moment.journal)).IsGreatest
            ((during (some opening) moment.journal).filterMap Event.mode?) ∧
          next.maxMode = before.maxMode ∧ next.memo? = before.memo? ∧
          next.scopes = before.scopes := by
  refine ⟨moves_run created, fun moment hmoment => ?_⟩
  have hlayered : Layered moment.journal moment.context moment.scopes :=
    Reachable.layered ⟨settings, candidates, origin, created, hmoment⟩
  have hshows := hlayered.showsHistory
  refine ⟨moment.recordsCalls, fun next move => move.scopeMove, hshows, fun hnone => ?_,
    fun opening outer hopenings => ?_⟩
  · refine Generator.run_endScope_of_none ?_
    rw [hlayered.scopes, hnone]
    rfl
  have hscopes := hlayered.scopes
  rw [hopenings, scopesOf] at hscopes
  have hmode := hshows.maxMode
  rw [hopenings, List.head?_cons] at hmode
  have hsuffix : opening :: outer <:+ openings moment.journal := by rw [hopenings]
  obtain ⟨before, opened, hbefore, hjournal, hrun, hon⟩ := Moves.opening hmoment
    (fun anchor depending mem => absurd (concernsScopes_of_createWith created mem) (by
      simp [Event.concernsScopes]))
    (getElem?_of_mem_openings (hsuffix.subset List.mem_cons_self))
  -- The scope around is as it was left, and the session was in it when the scope was opened.
  have haside := layered_take hsuffix
  have hthen : Layered before.journal before.context before.scopes :=
    Reachable.layered ⟨settings, candidates, origin, created, hbefore⟩
  rw [hjournal] at hthen
  have hcontext := haside.context.trans hthen.context.symm
  have hend := Generator.run_endScope hscopes
  rw [hmode] at hend
  refine ⟨before, opened, _, hbefore, hjournal, hrun, hon, hend, isGreatest_joinedModes _, ?_, ?_,
    haside.scopes.trans hthen.scopes.symm⟩
  · exact congrArg Context.maxMode hcontext
  · funext key
    exact congrArg (fun context => context.memo.lookup key) hcontext

/-- A scope and one inside of it have the same anchor; the inner one has been closed, and an attempt
to open a third one has failed.  Of the three modes that were registered in the present scope the
second is the greatest.  What was registered and memoized outside of it does not count, and is found
again when the scope is closed. -/
theorem Session.scopes_follow_history_nested :
    let seed (mode : Mode) : Request := .register (.seed { kind := "seed", mode, hook := [] })
    let requests : List Request := [seed .sideEffectful, .memoize "k" ⟨0⟩, .beginScope ⟨0⟩ true,
      seed .pure, seed .ordered, .beginScope ⟨0⟩ false, seed .sideEffectful, .memoize "k" ⟨3⟩,
      .endScope, seed .pure, .beginScope ⟨9⟩ true]
    let gen := blank.run requests
    gen.maxMode = .ordered ∧ gen.memo? "k" = none ∧ gen.dependingScopes = [⟨0⟩] ∧
    gen.maxMode.IsGreatest [.pure, .ordered, .pure] ∧
    ∃ next, Generator.endScope.run gen = .ok (⟨0⟩, .ordered) next ∧
      next.maxMode = .sideEffectful ∧ next.memo? "k" = some ⟨0⟩ := by
  intro seed requests gen
  have hopenings : openings gen.journal = [⟨2, ⟨0⟩, true⟩] := by decide +kernel
  have hmodes : (during (some ⟨2, ⟨0⟩, true⟩) gen.journal).filterMap Event.mode? =
      [.pure, .ordered, .pure] := by decide +kernel
  have hmemo : lastMemo? "k" (during (some ⟨2, ⟨0⟩, true⟩) gen.journal) = none := by
    decide +kernel
  have hjoined : joinedModes (during (some ⟨2, ⟨0⟩, true⟩) gen.journal) = .ordered := by
    rw [joinedModes, hmodes]
    rfl
  obtain ⟨hmoves, hmoments⟩ := scopes_follow_history createWith_blank
  obtain ⟨-, -, hshows, -, hclose⟩ := hmoments gen (hmoves requests)
  have hnow := hshows.maxMode
  have hgreatest := hshows.greatest
  have hknown := hshows.memo "k"
  have hdepending := hshows.depending
  rw [hopenings, List.head?_cons] at hnow hgreatest hknown
  rw [hmodes] at hgreatest
  rw [hopenings] at hdepending
  refine ⟨hnow.trans hjoined, hknown.trans hmemo, hdepending, hgreatest, ?_⟩
  obtain ⟨before, opened, next, hbefore, hjournal, -, -, hend, -, hmode, hcache, -⟩ :=
    hclose _ _ hopenings
  rw [hjoined] at hend
  -- What the scope gives way to is what the history before it says.
  obtain ⟨-, -, hearlier, -⟩ := hmoments before hbefore
  have hmode' := hearlier.maxMode
  have hcache' := hearlier.memo "k"
  rw [hjournal] at hmode' hcache'
  refine ⟨next, hend, hmode.trans (hmode'.trans ?_), (congrFun hcache "k").trans (hcache'.trans ?_)⟩
  · decide +kernel
  · decide +kernel

end SeedGraph
