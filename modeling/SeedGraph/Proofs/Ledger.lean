import Mathlib.Data.List.Nodup
import SeedGraph.Proofs.ExactlyOnce

/-!
# Locals, bound slots and declarations

When a result is moved to a local, three records are made of it: the allocated binding, the
declaration among the emitted statements, and the slot of the seed.  They always agree.  Local
number `k` is named by the stem followed by `k`, the declarations are the bindings in order of
allocation, and a slot is bound just as a binding says.  No seed has two locals, and none is emitted
as a block twice.

## The invariant

`Ledger` holds these facts together with what is needed to keep them: a seed emitted as a block has
a result, and a seed whose running hook has not yet invoked its continuation was not emitted.  The
second is why a block is emitted once.  Only two kinds of moves write to the ledger, moving a result
to a local and emitting a block; every other move leaves it alone (`Ledger.keep`).
-/

namespace SeedGraph

/-! ### Statements -/

namespace Statement

/-- The local that a statement declares. -/
def binding? : Statement → Option Binding
  | .declare binding => some binding
  | .block .. => none

/-- The seed whose code a statement is. -/
def blockSeed? : Statement → Option SeedId
  | .declare _ => none
  | .block seed _ => some seed

end Statement

namespace Generator

/-- The locals that the emitted statements declare, at all depths and in order. -/
def declarations (gen : Session) : List Binding :=
  gen.emissions.filterMap fun emission => emission.statement.binding?

/-- The seeds that were emitted as blocks, at all depths and in order. -/
def blocks (gen : Session) : List SeedId :=
  gen.emissions.filterMap fun emission => emission.statement.blockSeed?

theorem declarations_moveToLocal (gen : Session) (id : SeedId) (seed : Seed Hook)
    (value : Compiled) :
    (gen.moveToLocal id seed value).declarations =
      gen.declarations ++ [⟨id, gen.locals.nameOf gen.locals.counter, value⟩] := by
  simp [declarations, moveToLocal, Statement.binding?]

theorem blocks_moveToLocal (gen : Session) (id : SeedId) (seed : Seed Hook) (value : Compiled) :
    (gen.moveToLocal id seed value).blocks = gen.blocks := by
  simp [blocks, moveToLocal, Statement.blockSeed?]

theorem declarations_emitted_block (gen : Session) (id : SeedId) (code : Compiled) :
    (gen.emitted (.block id code)).declarations = gen.declarations := by
  simp [declarations, emitted, Statement.binding?]

theorem blocks_emitted_block (gen : Session) (id : SeedId) (code : Compiled) :
    (gen.emitted (.block id code)).blocks = gen.blocks ++ [id] := by
  simp [blocks, emitted, Statement.blockSeed?]

end Generator

/-- A new seed is not bound. -/
theorem Blueprint.isBound_registered (blueprint : Blueprint Hook) (id : SeedId) :
    (blueprint.registered id).slot.isBound = false := by
  unfold Blueprint.registered Blueprint.build
  cases blueprint.preset with
  | none => rfl
  | some value => rfl

/-! ### Names -/

namespace Locals

theorem nameOf_injective (locals : Locals) : Function.Injective locals.nameOf := by
  intro k k' heq
  have hdigits : Nat.toDigits 10 k = Nat.toDigits 10 k' := by
    have htoList := congrArg String.toList heq
    rw [nameOf, nameOf, String.toList_append, String.toList_append] at htoList
    rw [← Nat.toList_repr, ← Nat.toList_repr]
    exact List.append_cancel_left htoList
  rw [← Nat.ofDigitChars_ten_toDigits (n := k), hdigits, Nat.ofDigitChars_ten_toDigits]

theorem continuesIdentifier_of_mem_toString {k : Nat} {c : Char} (mem : c ∈ (toString k).toList) :
    continuesIdentifier c = true := by
  have hdigit : c.isDigit = true := by
    rw [show toString k = k.repr from rfl, Nat.toList_repr] at mem
    exact Nat.isDigit_of_mem_toDigits (by decide) (by decide) mem
  rw [continuesIdentifier, Char.isAlphanum, hdigit]
  simp

/-- A number after an identifier makes an identifier. -/
theorem isIdentifier_nameOf {locals : Locals} (stem : isIdentifier locals.stem = true) (k : Nat) :
    isIdentifier (locals.nameOf k) = true := by
  rw [isIdentifier] at stem ⊢
  rw [nameOf, String.toList_append]
  cases hstem : locals.stem.toList with
  | nil =>
    rw [hstem] at stem
    exact absurd stem (by simp)
  | cons first rest =>
    rw [hstem, Bool.and_eq_true] at stem
    rw [List.cons_append, Bool.and_eq_true, List.all_append, Bool.and_eq_true]
    exact ⟨stem.1, stem.2, List.all_eq_true.2 fun c mem => continuesIdentifier_of_mem_toString mem⟩

end Locals

/-! ### The invariant -/

/-- The records of the locals of a session agree, and no block was emitted twice. -/
structure Ledger (settings : Settings) (gen : Session) : Prop where
  /-- The platform is the one of the settings. -/
  platform : settings.platform = some gen.platform
  /-- The stem is the one of the settings. -/
  stem : gen.locals.stem = settings.stem
  /-- Names are numbered in order of allocation. -/
  names : gen.locals.bindings.map Binding.name =
    (List.range gen.locals.counter).map gen.locals.nameOf
  /-- The declarations are the bindings. -/
  declared : gen.declarations = gen.locals.bindings
  /-- No seed has two locals. -/
  single : (gen.locals.bindings.map Binding.seed).Nodup
  /-- The bound slots are those that the bindings say. -/
  bound : ∀ id name reference value, gen.slot? id = some (.bound name reference value) ↔
    ⟨id, name, value⟩ ∈ gen.locals.bindings ∧ reference = .code (gen.platform.reference name)
  /-- No seed was emitted as a block twice. -/
  emittedOnce : gen.blocks.Nodup
  /-- What was emitted as a block has a result. -/
  emittedResult : ∀ id ∈ gen.blocks, gen.HasResult id
  /-- A seed whose hook has not invoked its continuation was not emitted as a block. -/
  pending : ∀ id, .hook id 0 ∈ gen.frames → id ∉ gen.blocks

namespace Ledger

variable {settings : Settings} {gen gen' : Session}

/-- Nothing was written to the ledger. -/
theorem keep (h : Ledger settings gen) (samePlatform : gen'.platform = gen.platform)
    (sameLocals : gen'.locals = gen.locals) (sameEmissions : gen'.emissions = gen.emissions)
    (bound : ∀ id name reference value, gen'.slot? id = some (.bound name reference value) ↔
      gen.slot? id = some (.bound name reference value))
    (results : ∀ id, gen.HasResult id → gen'.HasResult id)
    (pending : ∀ id, .hook id 0 ∈ gen'.frames → .hook id 0 ∈ gen.frames ∨ ¬ gen.HasResult id) :
    Ledger settings gen' where
  platform := by rw [samePlatform]; exact h.platform
  stem := by rw [sameLocals]; exact h.stem
  names := by rw [sameLocals]; exact h.names
  declared := by rw [Generator.declarations, sameEmissions, sameLocals]; exact h.declared
  single := by rw [sameLocals]; exact h.single
  bound id name reference value := by
    rw [bound, sameLocals, samePlatform]
    exact h.bound id name reference value
  emittedOnce := by rw [Generator.blocks, sameEmissions]; exact h.emittedOnce
  emittedResult id hid := by
    rw [Generator.blocks, sameEmissions] at hid
    exact results id (h.emittedResult id hid)
  pending id hid := by
    rw [Generator.blocks, sameEmissions]
    rcases pending id hid with hopen | hunset
    · exact h.pending id hopen
    · exact fun hblock => hunset (h.emittedResult id hblock)

/-- A result is moved to a local. -/
theorem moveToLocal (h : Ledger settings gen) {id : SeedId} {seed : Seed Hook} {value : Compiled}
    (stored : gen.store.get? id = some seed) (unbound : seed.slot = .set value) :
    Ledger settings (gen.moveToLocal id seed value) := by
  have hslot : gen.slot? id = some (.set value) := by
    rw [Generator.slot?_of_stored stored, unbound]
  -- A seed with a binding would be bound already, and its result would not be moved.
  have hfresh : id ∉ gen.locals.bindings.map Binding.seed := by
    intro hmem
    obtain ⟨⟨other, name, old⟩, hbinding, rfl⟩ := List.mem_map.1 hmem
    have hbound := (h.bound other name _ old).2 ⟨hbinding, rfl⟩
    rw [hslot] at hbound
    exact absurd hbound (by simp)
  have hbindings : (gen.moveToLocal id seed value).locals.bindings =
      gen.locals.bindings ++ [⟨id, gen.locals.nameOf gen.locals.counter, value⟩] := rfl
  have hcounter : (gen.moveToLocal id seed value).locals.counter = gen.locals.counter + 1 := rfl
  exact {
    platform := h.platform
    stem := h.stem
    names := by
      rw [hbindings, hcounter, List.map_append, h.names, List.range_succ, List.map_append]
      rfl
    declared := by rw [Generator.declarations_moveToLocal, h.declared, hbindings]
    single := by
      rw [hbindings, List.map_append, List.map_singleton, List.nodup_append_comm]
      exact List.nodup_cons.2 ⟨hfresh, h.single⟩
    bound := fun other name reference old => by
      rw [Generator.slot?_moveToLocal stored, hbindings, List.mem_append, List.mem_singleton]
      by_cases heq : other = id
      · subst heq
        have hold : ⟨other, name, old⟩ ∉ gen.locals.bindings := fun hmem =>
          hfresh (List.mem_map.2 ⟨_, hmem, rfl⟩)
        rw [if_pos rfl]
        simp only [hold, false_or, Option.some.injEq, Slot.bound.injEq, Binding.mk.injEq, true_and]
        constructor
        · rintro ⟨rfl, rfl, rfl⟩
          exact ⟨⟨rfl, rfl⟩, rfl⟩
        · rintro ⟨⟨rfl, rfl⟩, rfl⟩
          exact ⟨rfl, rfl, rfl⟩
      · rw [if_neg heq, h.bound]
        simp only [Binding.mk.injEq, heq, false_and, or_false]
        exact Iff.rfl
    emittedOnce := by rw [Generator.blocks_moveToLocal]; exact h.emittedOnce
    emittedResult := fun other hother => by
      rw [Generator.blocks_moveToLocal] at hother
      rw [Generator.hasResult_moveToLocal stored unbound]
      exact h.emittedResult other hother
    pending := fun other hother => by
      rw [Generator.blocks_moveToLocal]
      exact h.pending other hother }

/-- The hook of a seed invokes its continuation for the first time, and the code of the seed is
emitted as a block. -/
theorem emittedBlock (h : Ledger settings gen) {id : SeedId} {value : Compiled} {outer : List Frame}
    (innermost : gen.frames = .hook id 0 :: outer) (alone : id ∉ hooksIn outer)
    (set : gen.HasResult id) :
    Ledger settings ((gen.noted (.continued id)).emitted (.block id value)) := by
  have hblocks : ((gen.noted (.continued id)).emitted (.block id value)).blocks =
      gen.blocks ++ [id] := Generator.blocks_emitted_block _ _ _
  have hframes : ((gen.noted (.continued id)).emitted (.block id value)).frames =
      .hook id 1 :: outer := by
    rw [Generator.frames_emitted, Generator.frames_noted, innermost]
    rfl
  have hfresh : id ∉ gen.blocks := h.pending id (by rw [innermost]; simp)
  exact {
    platform := h.platform
    stem := h.stem
    names := h.names
    declared := (Generator.declarations_emitted_block _ _ _).trans h.declared
    single := h.single
    bound := h.bound
    emittedOnce := by
      rw [hblocks, List.nodup_append_comm]
      exact List.nodup_cons.2 ⟨hfresh, h.emittedOnce⟩
    emittedResult := fun other hother => by
      rw [hblocks, List.mem_append, List.mem_singleton] at hother
      rcases hother with hother | rfl
      · exact h.emittedResult other hother
      · exact set
    pending := fun other hother => by
      rw [hframes, List.mem_cons] at hother
      rw [hblocks, List.mem_append, List.mem_singleton]
      -- The hook that proceeded is pending no more, and it does not run in an outer frame.
      have houter : .hook other 0 ∈ outer := hother.resolve_left (by simp)
      rintro (hblock | rfl)
      · exact h.pending other (by rw [innermost]; exact List.mem_cons_of_mem _ houter) hblock
      · exact alone (List.mem_filterMap.2 ⟨_, houter, rfl⟩) }

/-- Nothing was written to the ledger, and no hook began. -/
theorem still (h : Ledger settings gen) (samePlatform : gen'.platform = gen.platform)
    (sameLocals : gen'.locals = gen.locals) (sameEmissions : gen'.emissions = gen.emissions)
    (sameSlots : gen'.slot? = gen.slot?)
    (frames : ∀ id, .hook id 0 ∈ gen'.frames → .hook id 0 ∈ gen.frames) : Ledger settings gen' :=
  h.keep samePlatform sameLocals sameEmissions (fun _ _ _ _ => by rw [sameSlots])
    (fun id => (Generator.hasResult_congr sameSlots id).2) fun id hid => .inl (frames id hid)

/-- A seed is registered, and not bound. -/
theorem enroll (h : Ledger settings gen) {seed : Seed Hook} (unbound : seed.slot.isBound = false) :
    Ledger settings (gen.enroll ⟨gen.upper⟩ seed) := by
  refine h.keep rfl rfl rfl (fun id name reference value => ?_) (fun id hid => ?_) fun id hid => ?_
  · rw [Generator.slot?_enroll]
    by_cases heq : id = ⟨gen.upper⟩
    · rw [if_pos heq, heq, Generator.slot?_upper]
      refine ⟨fun hslot => ?_, fun hslot => absurd hslot (by simp)⟩
      rw [Option.some.inj hslot] at unbound
      exact absurd unbound (by simp [Slot.isBound])
    · rw [if_neg heq]
  · exact (Generator.hasResult_enroll gen seed id).2 (.inl hid)
  · rw [Generator.frames_enroll] at hid
    exact .inl hid

/-- **Every move keeps the ledger.** -/
theorem move (h : Ledger settings gen) (disciplined : Disciplined gen) (move : Move gen gen') :
    Ledger settings gen' := by
  cases move with
  | register blueprint _ _ _ =>
    exact h.enroll (blueprint.isBound_registered _)
  | addEdge _ _ _ stored =>
    exact h.still rfl rfl rfl (Generator.slot?_withSeed_of_same stored rfl) fun _ hid => hid
  | addOrdering _ _ stored =>
    exact h.still rfl rfl rfl (Generator.slot?_withSeed_of_same stored rfl) fun _ hid => hid
  | setPayload _ stored =>
    exact h.still rfl rfl rfl (Generator.slot?_withSeed_of_same stored rfl) fun _ hid => hid
  | openScope _ _ _ =>
    exact h.still rfl rfl rfl rfl fun id hid => by rwa [Generator.frames_noted] at hid
  | closeScope _ =>
    exact h.still rfl rfl rfl rfl fun id hid => by rwa [Generator.frames_noted] at hid
  | memoize _ _ =>
    exact h.still rfl rfl rfl rfl fun id hid => by rwa [Generator.frames_noted] at hid
  | complete _ _ _ =>
    exact h.still rfl rfl rfl (Generator.slot?_completed _) fun _ hid => hid
  | putAside _ _ => exact h.still rfl rfl rfl rfl fun _ hid => hid
  | bind stored unbound => exact h.moveToLocal stored unbound
  | remark event plain =>
    refine h.still rfl rfl rfl rfl fun id hid => ?_
    rw [Generator.frames_noted, Event.nest_of_isRemark plain] at hid
    exact hid
  | openRegion =>
    refine h.still rfl rfl rfl rfl fun id hid => ?_
    rw [Generator.frames_openRegion] at hid
    exact (List.mem_cons.1 hid).resolve_left (by simp)
  | closeRegion _ _ =>
    refine h.still rfl rfl rfl rfl fun id hid => ?_
    rw [Generator.frames_closeRegion] at hid
    exact List.mem_of_mem_tail hid
  | beginTraversal =>
    refine h.still rfl rfl rfl rfl fun id hid => ?_
    rw [Generator.frames_noted] at hid
    exact (List.mem_cons.1 hid).resolve_left (by simp)
  | endTraversal _ _ =>
    refine h.still rfl rfl rfl rfl fun id hid => ?_
    rw [Generator.frames_noted] at hid
    exact List.mem_of_mem_tail hid
  | enter _ _ stored unset _ =>
    refine h.keep rfl rfl rfl (fun _ _ _ _ => Iff.rfl) (fun _ hid => hid) fun id hid => ?_
    rw [Generator.frames_entered] at hid
    rcases List.mem_cons.1 hid with heq | hid
    · obtain rfl : id = _ := (Frame.hook.inj heq).1
      refine .inr ?_
      rintro ⟨slot, hslot, hset⟩
      rw [Generator.slot?_of_stored stored, unset, Option.some.injEq] at hslot
      exact absurd hset (by simp [← hslot, Slot.isSet])
    · exact .inl hid
  | @write written _ _ _ value _ stored unset =>
    refine h.keep rfl rfl rfl (fun id name reference old => ?_) (fun id hid => ?_) fun id hid => ?_
    · rw [Generator.slot?_withResult stored]
      by_cases heq : id = written
      · rw [if_pos heq, heq, Generator.slot?_of_stored stored, unset]
        simp
      · rw [if_neg heq]
    · exact (Generator.hasResult_withResult stored value id).2 (.inl hid)
    · rw [Generator.frames_withResult] at hid
      exact .inl hid
  | proceed innermost =>
    refine h.still rfl rfl rfl rfl fun id hid => ?_
    rw [Generator.frames_noted, innermost] at hid
    rw [innermost]
    exact List.mem_cons_of_mem _ ((List.mem_cons.1 hid).resolve_left (by simp))
  | proceedBlock innermost stored unbound _ =>
    refine h.emittedBlock innermost ?_ ⟨_, Generator.slot?_of_stored stored, by rw [unbound]; rfl⟩
    have hnodup := disciplined.nodup
    rw [disciplined.running, innermost] at hnodup
    exact (List.nodup_cons.1 hnodup).1
  | accept _ _ _ =>
    refine h.still rfl rfl rfl rfl fun id hid => ?_
    rw [Generator.frames_noted] at hid
    exact List.mem_of_mem_tail ((Generator.frames_left _ _ _) ▸ hid)
  | reject _ _ _ =>
    refine h.still rfl rfl rfl rfl fun id hid => ?_
    rw [Generator.frames_noted] at hid
    exact List.mem_of_mem_tail (List.mem_of_mem_tail ((Generator.frames_left _ _ _) ▸ hid))

/-- Nothing is written yet in a new session. -/
theorem ofBlueprints {platform : Platform} (usable : settings.check = .ok platform)
    (blueprints : List (Blueprint Hook)) :
    Ledger settings (Generator.ofStore settings platform (.ofBlueprints blueprints)) := by
  exact {
    platform := (Settings.check_eq_ok usable).1
    stem := rfl
    names := rfl
    declared := rfl
    single := List.nodup_nil
    bound := fun id name reference value => by
      refine ⟨fun hslot => ?_, fun hbinding => absurd hbinding.1 List.not_mem_nil⟩
      obtain ⟨seed, hstored, hbound⟩ := Option.map_eq_some_iff.1 hslot
      obtain ⟨blueprint, -, rfl⟩ := Store.exists_of_get?_ofBlueprints hstored
      have hunbound := blueprint.isBound_registered id
      rw [hbound] at hunbound
      exact absurd hunbound (by simp [Slot.isBound])
    emittedOnce := List.nodup_nil
    emittedResult := fun id hid => absurd hid List.not_mem_nil
    pending := fun id hid => List.not_mem_nil }

/-! ### What follows from the invariant -/

theorem name_getElem (h : Ledger settings gen) {k : Nat} {binding : Binding}
    (hk : gen.locals.bindings[k]? = some binding) : binding.name = settings.stem ++ toString k := by
  have hrange : k < gen.locals.counter := by
    rw [gen.locals.counted]
    exact (List.getElem?_eq_some_iff.1 hk).1
  have hname : (gen.locals.bindings.map Binding.name)[k]? = some binding.name := by
    rw [List.getElem?_map, hk]
    rfl
  rw [h.names, List.getElem?_map, List.getElem?_range hrange] at hname
  rw [← h.stem]
  exact (Option.some.inj hname).symm

theorem names_nodup (h : Ledger settings gen) : (gen.locals.bindings.map Binding.name).Nodup := by
  rw [h.names]
  exact List.nodup_range.map gen.locals.nameOf_injective

theorem isIdentifier_name (h : Ledger settings gen) (stem : isIdentifier settings.stem = true) :
    ∀ binding ∈ gen.locals.bindings, isIdentifier binding.name = true := by
  intro binding hbinding
  have hname : binding.name ∈ gen.locals.bindings.map Binding.name := List.mem_map_of_mem hbinding
  rw [h.names] at hname
  obtain ⟨k, -, hk⟩ := List.mem_map.1 hname
  rw [← hk]
  exact Locals.isIdentifier_nameOf (by rw [h.stem]; exact stem) k

/-- There are no more locals than seeds, since every local belongs to a seed of its own. -/
theorem counter_le (h : Ledger settings gen) :
    gen.locals.counter ≤ gen.store.seeds.length := by
  rw [gen.locals.counted]
  have hsubset : gen.locals.bindings.map Binding.seed ⊆ gen.store.ids := by
    intro id hid
    obtain ⟨⟨_, name, value⟩, hbinding, rfl⟩ := List.mem_map.1 hid
    have hslot := (h.bound _ name _ value).2 ⟨hbinding, rfl⟩
    obtain ⟨seed, hstored, -⟩ := Option.map_eq_some_iff.1 hslot
    rw [Store.mem_ids_iff, ← Store.get?_isSome_iff, hstored]
    rfl
  have hlength := List.Nodup.length_le_of_subset h.single hsubset
  rw [List.length_map, Store.length_ids] at hlength
  exact hlength

/-- As long as no seed has a result, there are no locals and nothing was emitted. -/
theorem blank (h : Ledger settings gen) (unset : ∀ id, ¬ gen.HasResult id) :
    gen.locals.bindings = [] ∧ gen.emissions = [] := by
  have hbindings : gen.locals.bindings = [] := by
    rw [List.eq_nil_iff_forall_not_mem]
    rintro ⟨id, name, value⟩ hbinding
    exact unset id ⟨_, (h.bound id name _ value).2 ⟨hbinding, rfl⟩, rfl⟩
  refine ⟨hbindings, ?_⟩
  rw [List.eq_nil_iff_forall_not_mem]
  rintro ⟨depth, statement⟩ hemission
  cases statement with
  | declare binding =>
    have hdeclared : binding ∈ gen.declarations := List.mem_filterMap.2 ⟨_, hemission, rfl⟩
    rw [h.declared, hbindings] at hdeclared
    exact List.not_mem_nil hdeclared
  | block id code =>
    have hblock : id ∈ gen.blocks := List.mem_filterMap.2 ⟨_, hemission, rfl⟩
    exact unset id (h.emittedResult id hblock)

end Ledger

/-- **At every moment the records of the locals agree.** -/
theorem Moves.ledger {settings : Settings} {candidates : List (Candidate (Blueprint Hook))}
    {origin : Session} (created : Session.createWith settings candidates = .ok origin)
    {moment : Session} (moves : Moves origin moment) : Ledger settings moment := by
  induction moves with
  | refl =>
    obtain ⟨platform, blueprints, usable, -, -, rfl⟩ := createWith_eq_ok created
    exact .ofBlueprints usable blueprints
  | tail earlier move ih =>
    exact ih.move (Reachable.disciplined ⟨settings, candidates, origin, created, earlier⟩) move

/-- A move adds to the locals and to the statements at the end only. -/
theorem Move.logs {gen gen' : Session} (move : Move gen gen') :
    gen.locals.bindings <+: gen'.locals.bindings ∧ gen.emissions <+: gen'.emissions := by
  cases move with
  | bind _ _ => exact ⟨List.prefix_append _ _, List.prefix_append _ _⟩
  | proceedBlock _ _ _ _ => exact ⟨List.prefix_rfl, List.prefix_append _ _⟩
  | _ => exact ⟨List.prefix_rfl, List.prefix_rfl⟩

theorem Moves.logs {gen gen' : Session} (moves : Moves gen gen') :
    gen.locals.bindings <+: gen'.locals.bindings ∧ gen.emissions <+: gen'.emissions := by
  induction moves with
  | refl => exact ⟨List.prefix_rfl, List.prefix_rfl⟩
  | tail _ move ih => exact ⟨ih.1.trans move.logs.1, ih.2.trans move.logs.2⟩

/-- **Locals, bound slots and declarations are one record.**  Requests lead a new session from
moment to moment.  At each of these, also in the middle of a hook and after any failure:

* local number `k` is named by the stem followed by `k`;
* the declarations among the emitted statements, at all depths and in order, are the locals;
* no seed has two locals, and no seed was emitted as a block twice;
* a slot is bound just as a local of its seed says, and refers to it as the platform writes it.

So all names differ and are identifiers, the counter says how many locals there are and is at most
the number of seeds, and what comes later is only ever added at the end. -/
theorem Session.locals_slots_declarations {settings : Settings}
    {candidates : List (Candidate (Blueprint Hook))} {origin : Session}
    (created : createWith settings candidates = .ok origin) :
    (∀ requests, Moves origin (origin.run requests)) ∧
    ∀ moment, Moves origin moment →
      (∀ (k : Nat) (binding : Binding), moment.locals.bindings[k]? = some binding →
        binding.name = settings.stem ++ toString k) ∧
      moment.declarations = moment.locals.bindings ∧
      (moment.locals.bindings.map Binding.seed).Nodup ∧
      moment.blocks.Nodup ∧
      settings.platform = some moment.platform ∧
      (∀ id name reference value, moment.slot? id = some (.bound name reference value) ↔
        ⟨id, name, value⟩ ∈ moment.locals.bindings ∧
          reference = .code (moment.platform.reference name)) ∧
      (moment.locals.bindings.map Binding.name).Nodup ∧
      (∀ binding ∈ moment.locals.bindings, isIdentifier binding.name = true) ∧
      moment.locals.counter = moment.locals.bindings.length ∧
      moment.locals.counter ≤ moment.store.seeds.length ∧
      ∀ later, Moves moment later →
        moment.locals.bindings <+: later.locals.bindings ∧
          moment.emissions <+: later.emissions := by
  refine ⟨moves_run created, fun moment hmoment => ?_⟩
  have hledger := Moves.ledger created hmoment
  obtain ⟨_, _, usable, -, -, -⟩ := createWith_eq_ok created
  have hstem : isIdentifier settings.stem = true := (Settings.check_eq_ok usable).2
  exact ⟨fun k binding hk => hledger.name_getElem hk, hledger.declared, hledger.single,
    hledger.emittedOnce, hledger.platform, hledger.bound, hledger.names_nodup,
    hledger.isIdentifier_name hstem, moment.locals.counted,
    hledger.counter_le, fun later => Moves.logs⟩

/-- A local of a nested region and one of the program around it. -/
theorem Session.locals_slots_declarations_nested :
    let block : Blueprint Hook := {
      kind := "block"
      boundary := .opens
      bindingWish := some true
      hook := [.text "\x7b ", .region .afterSelf "; ", .text " \x7d", .setResult, .proceed] }
    let leaf : Blueprint Hook := {
      kind := "leaf"
      boundary := .closes
      bindingWish := some true
      hook := [.text "f()", .setResult, .proceed] }
    let requests : List Request :=
      [.register (.seed block), .register (.seed leaf), .finalize, .generate]
    (blank.run requests).locals.bindings =
      [⟨⟨1⟩, "s0", .code "f()"⟩, ⟨⟨0⟩, "s1", .code "\x7b let s0 = f();; s0 \x7d"⟩] ∧
    (blank.run requests).declarations = (blank.run requests).locals.bindings := by
  obtain ⟨hmoves, hmoments⟩ := locals_slots_declarations createWith_blank
  exact ⟨by decide +kernel, (hmoments _ (hmoves _)).2.1⟩

end SeedGraph
