import Mathlib.Data.List.Basic
import Mathlib.Logic.Relation
import SeedGraph.Graph.Cycle

/-!
# What the search for a cycle finds

A vertex that the search reports lies on a cycle, and if the search reports nothing then there is no
cycle: `find?_eq_some` and `not_cycle_of_find?_eq_none`.

## The first pass

Three kinds of vertices are told apart while the first pass is under way: those not yet discovered,
the *open* ones, which are discovered but not complete, and the complete ones.  An open vertex
stands on the stack, and every vertex above it can be reached from it.  Hence an arrow that leads
back to an open vertex closes a cycle, and every other arrow leads to a vertex that is completed
earlier.  `Searched` holds these facts together; each step of the pass keeps them.

## The second pass

The completed vertices are listed last one first.  Where no predecessor of a vertex stands behind it
in that list, the list is a topological order; where one does, the arrow from it leads back to a
vertex that was open when it was discovered.
-/

namespace SeedGraph

namespace Cycle

open Relation

variable {α : Type} [DecidableEq α]

/-- There is an arrow from one vertex to another. -/
def LeadsTo (successors : α → List α) (v w : α) : Prop :=
  w ∈ successors v

/-! ### Places on a stack -/

/-- The part of a list before the first place of `v`. -/
def above (v : α) (stack : List α) : List α :=
  stack.takeWhile fun w => decide (w ≠ v)

@[simp] theorem above_cons_self (v : α) (rest : List α) : above v (v :: rest) = [] := by
  simp [above]

theorem above_cons_of_ne {v w : α} (h : w ≠ v) (rest : List α) :
    above v (w :: rest) = w :: above v rest := by
  simp [above, h]

theorem above_append_of_notMem {v : α} {front : List α} (h : v ∉ front) (rest : List α) :
    above v (front ++ rest) = front ++ above v rest := by
  induction front with
  | nil => rfl
  | cons w front ih =>
    have hne : w ≠ v := fun heq => h (by simp [heq])
    have hfront : v ∉ front := fun hmem => h (List.mem_cons_of_mem _ hmem)
    rw [List.cons_append, above_cons_of_ne hne, ih hfront, List.cons_append]

theorem mem_without {v w : α} {vertices : List α} :
    w ∈ without v vertices ↔ w ∈ vertices ∧ w ≠ v := by
  simp [without]

theorem mem_among {fresh vertices : List α} {w : α} :
    w ∈ among fresh vertices ↔ w ∈ vertices ∧ w ∈ fresh := by
  simp [among]

/-! ### The first pass -/

/-- What holds while the first pass over `vertices` is under way. -/
structure Searched (successors : α → List α) (vertices fresh stack finished : List α) : Prop where
  /-- Only vertices are put on the stack. -/
  stack_vertices : ∀ v ∈ stack, v ∈ vertices
  /-- What is not discovered is still to come. -/
  fresh_stack : ∀ v ∈ fresh, v ∈ stack
  /-- What is complete was discovered. -/
  finished_discovered : ∀ v ∈ finished, v ∉ fresh
  /-- An open vertex is on the stack. -/
  open_stack : ∀ v ∈ vertices, v ∉ fresh → v ∉ finished → v ∈ stack
  /-- An open vertex leads to everything above it. -/
  open_reaches : ∀ v ∈ vertices, v ∉ fresh → v ∉ finished → ∀ w ∈ above v stack,
    ReflTransGen (LeadsTo successors) v w
  /-- A successor of an open vertex leads back to it, is complete, or is going to be complete before
  it. -/
  open_arrows : ∀ v ∈ vertices, v ∉ fresh → v ∉ finished → ∀ w ∈ successors v,
    ReflTransGen (LeadsTo successors) w v ∨ w ∈ finished ∨ w ∈ above v stack
  /-- A successor of a complete vertex leads back to it or was completed before it. -/
  finished_arrows : ∀ v ∈ finished, ∀ w ∈ successors v,
    ReflTransGen (LeadsTo successors) w v ∨ (w ∈ finished ∧ w ∉ above v finished)
  /-- No discovered vertex is its own successor. -/
  loopless : ∀ v ∈ vertices, v ∉ fresh → v ∉ successors v

namespace Searched

variable {successors : α → List α} {vertices fresh rest finished : List α} {v : α}

/-- At the beginning nothing is discovered, and every vertex is on the stack. -/
theorem start (successors : α → List α) (vertices : List α) :
    Searched successors vertices vertices vertices [] where
  stack_vertices _ hv := hv
  fresh_stack _ hv := hv
  finished_discovered _ hv := absurd hv List.not_mem_nil
  open_stack _ hv hfresh := absurd hv hfresh
  open_reaches _ hv hfresh := absurd hv hfresh
  open_arrows _ hv hfresh := absurd hv hfresh
  finished_arrows _ hv := absurd hv List.not_mem_nil
  loopless _ hv hfresh := absurd hv hfresh

/-- The vertex on top is discovered, and its undiscovered successors are put above it. -/
theorem discover (h : Searched successors vertices fresh (v :: rest) finished)
    (closed : ∀ u w, w ∈ successors u → w ∈ vertices) (hv : v ∈ fresh)
    (hloop : v ∉ successors v) :
    Searched successors vertices (without v fresh)
      (among (without v fresh) (successors v) ++ v :: rest) finished := by
  -- A vertex that was discovered before is not among those that are pushed now.
  have hpushed : ∀ u, u ∉ without v fresh → u ∉ among (without v fresh) (successors v) :=
    fun u hu hmem => hu (mem_among.1 hmem).2
  have hown : v ∉ without v fresh := fun hmem => (mem_without.1 hmem).2 rfl
  have hearlier : ∀ u, u ∉ without v fresh → u ≠ v → u ∉ fresh :=
    fun u hu hne hmem => hu (mem_without.2 ⟨hmem, hne⟩)
  -- Everything that is open already leads to the vertex discovered now.
  have hreaches : ∀ u ∈ vertices, u ∉ fresh → u ∉ finished →
      ReflTransGen (LeadsTo successors) u v := by
    intro u hu hfresh hfinished
    refine h.open_reaches u hu hfresh hfinished v ?_
    have hne : v ≠ u := fun heq => hfresh (heq ▸ hv)
    rw [above_cons_of_ne hne]
    exact List.mem_cons_self
  refine ⟨fun u hu => ?_, fun u hu => ?_, fun u hu hmem => ?_, fun u hu hfresh hfinished => ?_,
    fun u hu hfresh hfinished w hw => ?_, fun u hu hfresh hfinished w hw => ?_,
    h.finished_arrows, fun u hu hfresh => ?_⟩
  · rcases List.mem_append.1 hu with hmem | hmem
    · exact closed v u (mem_among.1 hmem).1
    · exact h.stack_vertices u hmem
  · exact List.mem_append_right _ (h.fresh_stack u (mem_without.1 hu).1)
  · exact h.finished_discovered u hu (mem_without.1 hmem).1
  · by_cases heq : u = v
    · simp [heq]
    · exact List.mem_append_right _ (h.open_stack u hu (hearlier u hfresh heq) hfinished)
  · rw [above_append_of_notMem (hpushed u hfresh)] at hw
    by_cases heq : u = v
    · subst heq
      rw [above_cons_self, List.append_nil] at hw
      exact .single (mem_among.1 hw).1
    · have hopen := hearlier u hfresh heq
      rcases List.mem_append.1 hw with hmem | hmem
      · exact (hreaches u hu hopen hfinished).tail (mem_among.1 hmem).1
      · exact h.open_reaches u hu hopen hfinished w hmem
  · rw [above_append_of_notMem (hpushed u hfresh)]
    by_cases heq : u = v
    -- A successor of the vertex discovered now is undiscovered, complete, or open and leads to it.
    · subst heq
      have hne : w ≠ u := fun hsame => hloop (hsame ▸ hw)
      by_cases hundiscovered : w ∈ fresh
      · refine .inr (.inr (List.mem_append_left _ ?_))
        exact mem_among.2 ⟨hw, mem_without.2 ⟨hundiscovered, hne⟩⟩
      · by_cases hcomplete : w ∈ finished
        · exact .inr (.inl hcomplete)
        · exact .inl (hreaches w (closed u w hw) hundiscovered hcomplete)
    · rcases h.open_arrows u hu (hearlier u hfresh heq) hfinished w hw with hback | hdone | hmem
      · exact .inl hback
      · exact .inr (.inl hdone)
      · exact .inr (.inr (List.mem_append_right _ hmem))
  · by_cases heq : u = v
    · rw [heq]
      exact hloop
    · exact h.loopless u hu (hearlier u hfresh heq)

/-- A complete vertex is taken off the stack. -/
theorem drop (h : Searched successors vertices fresh (v :: rest) finished)
    (hv : v ∉ fresh) (hcomplete : v ∈ finished) :
    Searched successors vertices fresh rest finished := by
  have hother : ∀ u, u ∉ finished → above u (v :: rest) = v :: above u rest := by
    intro u hu
    have hne : v ≠ u := fun heq => hu (heq ▸ hcomplete)
    rw [above_cons_of_ne hne]
  refine ⟨fun u hu => h.stack_vertices u (List.mem_cons_of_mem _ hu), fun u hu => ?_,
    h.finished_discovered, fun u hu hfresh hfinished => ?_,
    fun u hu hfresh hfinished w hw => ?_, fun u hu hfresh hfinished w hw => ?_,
    h.finished_arrows, h.loopless⟩
  · exact (List.mem_cons.1 (h.fresh_stack u hu)).resolve_left fun heq => hv (heq ▸ hu)
  · exact (List.mem_cons.1 (h.open_stack u hu hfresh hfinished)).resolve_left
      fun heq => hfinished (heq ▸ hcomplete)
  · refine h.open_reaches u hu hfresh hfinished w ?_
    rw [hother u hfinished]
    exact List.mem_cons_of_mem _ hw
  · rcases h.open_arrows u hu hfresh hfinished w hw with hback | hdone | hmem
    · exact .inl hback
    · exact .inr (.inl hdone)
    · rw [hother u hfinished] at hmem
      rcases List.mem_cons.1 hmem with rfl | hmem
      · exact .inr (.inl hcomplete)
      · exact .inr (.inr hmem)

/-- An open vertex that comes to the top has no successors above it any more, and is complete. -/
theorem complete (h : Searched successors vertices fresh (v :: rest) finished)
    (hv : v ∉ fresh) (hopen : v ∉ finished) :
    Searched successors vertices fresh rest (v :: finished) := by
  have hvertex : v ∈ vertices := h.stack_vertices v List.mem_cons_self
  have hother : ∀ u, u ∉ v :: finished → u ∉ finished ∧
      above u (v :: rest) = v :: above u rest := by
    intro u hu
    refine ⟨fun hmem => hu (List.mem_cons_of_mem _ hmem), above_cons_of_ne (fun heq => ?_) rest⟩
    exact hu (by simp [heq])
  refine ⟨fun u hu => h.stack_vertices u (List.mem_cons_of_mem _ hu), fun u hu => ?_,
    fun u hu => ?_, fun u hu hfresh hfinished => ?_,
    fun u hu hfresh hfinished w hw => ?_, fun u hu hfresh hfinished w hw => ?_,
    fun u hu w hw => ?_, h.loopless⟩
  · exact (List.mem_cons.1 (h.fresh_stack u hu)).resolve_left fun heq => hv (heq ▸ hu)
  · rcases List.mem_cons.1 hu with rfl | hmem
    · exact hv
    · exact h.finished_discovered u hmem
  · have hstack := h.open_stack u hu hfresh (hother u hfinished).1
    exact (List.mem_cons.1 hstack).resolve_left fun heq => hfinished (by simp [heq])
  · refine h.open_reaches u hu hfresh (hother u hfinished).1 w ?_
    rw [(hother u hfinished).2]
    exact List.mem_cons_of_mem _ hw
  · rcases h.open_arrows u hu hfresh (hother u hfinished).1 w hw with hback | hdone | hmem
    · exact .inl hback
    · exact .inr (.inl (List.mem_cons_of_mem _ hdone))
    · rw [(hother u hfinished).2] at hmem
      rcases List.mem_cons.1 hmem with rfl | hmem
      · exact .inr (.inl List.mem_cons_self)
      · exact .inr (.inr hmem)
  · rcases List.mem_cons.1 hu with rfl | hmem
    · rcases h.open_arrows u hvertex hv hopen w hw with hback | hdone | hmem
      · exact .inl hback
      · exact .inr ⟨List.mem_cons_of_mem _ hdone, by simp⟩
      · exact absurd hmem (by simp)
    · have hne : v ≠ u := fun heq => hopen (heq ▸ hmem)
      rcases h.finished_arrows u hmem w hw with hback | ⟨hdone, hbelow⟩
      · exact .inl hback
      · refine .inr ⟨List.mem_cons_of_mem _ hdone, ?_⟩
        rw [above_cons_of_ne hne, List.mem_cons, not_or]
        exact ⟨fun heq => hopen (heq ▸ hdone), hbelow⟩

/-- At the end every vertex is complete. -/
theorem listed {order : List α} (h : Searched successors vertices [] [] order) :
    ∀ u ∈ vertices, u ∈ order := by
  intro u hu
  by_cases hfinished : u ∈ order
  · exact hfinished
  · exact absurd (h.open_stack u hu List.not_mem_nil hfinished) List.not_mem_nil

end Searched

section Search

variable {successors predecessors : α → List α} {vertices : List α}

/-- **The first pass.**  It stops at a vertex that is its own successor, or completes every vertex.
-/
theorem finishOrder_cases (closed : ∀ u w, w ∈ successors u → w ∈ vertices)
    {fresh stack finished : List α} (h : Searched successors vertices fresh stack finished) :
    (∃ v, finishOrder successors fresh stack finished = .error v ∧ v ∈ successors v) ∨
      ∃ order, finishOrder successors fresh stack finished = .ok order ∧
        Searched successors vertices [] [] order := by
  fun_induction finishOrder successors fresh stack finished with
  | case1 fresh finished =>
    -- The stack is empty, so nothing is left undiscovered.
    have hfresh : fresh = [] := by
      rw [List.eq_nil_iff_forall_not_mem]
      exact fun v hv => List.not_mem_nil (h.fresh_stack v hv)
    subst hfresh
    exact .inr ⟨finished, rfl, h⟩
  | case2 fresh finished v rest hv hloop => exact .inl ⟨v, rfl, hloop⟩
  | case3 fresh finished v rest hv hloop ih => exact ih (h.discover closed hv hloop)
  | case4 fresh finished v rest hv ih =>
    apply ih
    by_cases hcomplete : v ∈ finished
    · rw [dif_pos hcomplete]
      exact h.drop hv hcomplete
    · rw [dif_neg hcomplete]
      exact h.complete hv hcomplete

/-! ### The second pass -/

/-- A reported vertex is the predecessor of a listed one and does not stand before it. -/
theorem unseenPredecessor?_eq_some {seen order : List α} {w : α}
    (h : unseenPredecessor? predecessors seen order = some w) :
    ∃ before v after, order = before ++ v :: after ∧ w ∈ predecessors v ∧ w ≠ v ∧ w ∉ before ∧
      w ∉ seen := by
  induction order generalizing seen with
  | nil => exact absurd h (by simp [unseenPredecessor?])
  | cons v rest ih =>
    rw [unseenPredecessor?] at h
    cases hfound : (predecessors v).find? fun w => decide (w ∉ v :: seen) with
    | some found =>
      rw [hfound] at h
      obtain rfl : found = w := Option.some.inj h
      have hunseen : found ∉ v :: seen := by simpa using List.find?_some hfound
      rw [List.mem_cons, not_or] at hunseen
      exact ⟨[], v, rest, rfl, List.mem_of_find?_eq_some hfound, hunseen.1, List.not_mem_nil,
        hunseen.2⟩
    | none =>
      rw [hfound] at h
      obtain ⟨before, u, after, rfl, hpredecessor, hne, hbefore, hunseen⟩ := ih h
      rw [List.mem_cons, not_or] at hunseen
      refine ⟨v :: before, u, after, rfl, hpredecessor, hne, ?_, hunseen.2⟩
      rw [List.mem_cons, not_or]
      exact ⟨hunseen.1, hbefore⟩

/-- If nothing is reported, the predecessors of a listed vertex are itself, listed before it, or
seen before the list. -/
theorem mem_of_unseenPredecessor?_eq_none {seen order : List α}
    (h : unseenPredecessor? predecessors seen order = none) {before after : List α} {v w : α}
    (hsplit : order = before ++ v :: after) (hw : w ∈ predecessors v) :
    w = v ∨ w ∈ before ∨ w ∈ seen := by
  induction before generalizing seen order with
  | nil =>
    rw [hsplit, List.nil_append, unseenPredecessor?] at h
    cases hfound : (predecessors v).find? fun w => decide (w ∉ v :: seen) with
    | some found =>
      rw [hfound] at h
      exact absurd h (by simp)
    | none =>
      have hseen : w ∈ v :: seen :=
        Decidable.not_not.1 fun hunseen =>
          List.find?_eq_none.1 hfound w hw (decide_eq_true hunseen)
      rcases List.mem_cons.1 hseen with heq | hmem
      · exact .inl heq
      · exact .inr (.inr hmem)
  | cons u before ih =>
    rw [hsplit, List.cons_append, unseenPredecessor?] at h
    cases hfound : (predecessors u).find? fun w => decide (w ∉ u :: seen) with
    | some found =>
      rw [hfound] at h
      exact absurd h (by simp)
    | none =>
      rw [hfound] at h
      rcases ih h rfl with heq | hmem | hmem
      · exact .inl heq
      · exact .inr (.inl (List.mem_cons_of_mem _ hmem))
      · rcases List.mem_cons.1 hmem with heq | hmem
        · exact .inr (.inl (by simp [heq]))
        · exact .inr (.inr hmem)

/-! ### The whole search -/

/-- **A reported vertex lies on a cycle.** -/
theorem find?_eq_some (closed : ∀ u w, w ∈ successors u → w ∈ vertices)
    (mirrored : ∀ u w, u ∈ predecessors w ↔ w ∈ successors u)
    (sources : ∀ u w, w ∈ successors u → u ∈ vertices) {v : α}
    (h : find? vertices successors predecessors = some v) :
    TransGen (LeadsTo successors) v v := by
  rw [find?] at h
  obtain ⟨u, hrun, hloop⟩ | ⟨order, hrun, hsearched⟩ :=
    finishOrder_cases closed (Searched.start successors vertices)
  · rw [hrun] at h
    obtain rfl : u = v := Option.some.inj h
    exact .single hloop
  · rw [hrun] at h
    obtain ⟨before, u, after, hsplit, hpredecessor, hne, hbefore, -⟩ :=
      unseenPredecessor?_eq_some h
    have harrow : u ∈ successors v := (mirrored v u).1 hpredecessor
    have hfinished : v ∈ order := hsearched.listed v (sources v u harrow)
    -- The arrow from `v` to `u` was not there to be completed in time, so it leads back.
    rcases hsearched.finished_arrows v hfinished u harrow with hback | ⟨-, hbelow⟩
    · exact TransGen.head' harrow hback
    · refine absurd ?_ hbelow
      rw [hsplit, above_append_of_notMem hbefore, above_cons_of_ne hne.symm]
      simp

/-- **If nothing is reported, there is no cycle**: the vertices are listed in topological order. -/
theorem not_cycle_of_find?_eq_none (closed : ∀ u w, w ∈ successors u → w ∈ vertices)
    (mirrored : ∀ u w, u ∈ predecessors w ↔ w ∈ successors u)
    (h : find? vertices successors predecessors = none) (v : α) :
    ¬ TransGen (LeadsTo successors) v v := by
  rw [find?] at h
  obtain ⟨u, hrun, -⟩ | ⟨order, hrun, hsearched⟩ :=
    finishOrder_cases closed (Searched.start successors vertices)
  · rw [hrun] at h
    exact absurd h (by simp)
  · rw [hrun] at h
    have hforward : ∀ u w, LeadsTo successors u w → order.idxOf u < order.idxOf w := by
      intro u w harrow
      have hw : w ∈ vertices := closed u w harrow
      obtain ⟨before, after, hsplit, hfirst⟩ := List.eq_append_cons_of_mem (hsearched.listed w hw)
      have hindex : order.idxOf w = before.length := by
        rw [hsplit, List.idxOf_append_of_notMem hfirst, List.idxOf_cons_self, Nat.add_zero]
      rcases mem_of_unseenPredecessor?_eq_none h hsplit ((mirrored u w).2 harrow) with
        heq | hmem | hmem
      · exact absurd (heq ▸ harrow) (hsearched.loopless w hw List.not_mem_nil)
      · rw [hindex, hsplit, List.idxOf_append_of_mem hmem]
        exact List.idxOf_lt_length_of_mem hmem
      · exact absurd hmem List.not_mem_nil
    intro hcycle
    have hless : ∀ w, TransGen (LeadsTo successors) v w → order.idxOf v < order.idxOf w := by
      intro w hpath
      induction hpath with
      | single harrow => exact hforward _ _ harrow
      | tail _ harrow ih => exact Nat.lt_trans ih (hforward _ _ harrow)
    exact Nat.lt_irrefl _ (hless v hcycle)

end Search

end Cycle

end SeedGraph
