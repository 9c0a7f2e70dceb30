import SeedGraph.Proofs.Runs

/-!
# How often a hook invokes its continuation

A running hook counts the invocations of its continuation, and the traversal looks at the count when
the hook has ended.  The count is at most the number of invocations that the hook is made of
(`Hook.invokes_run`), whatever the hooks do that it runs in turn: these have counts of their own.
So a word of 32 bits is enough for every hook with fewer invocations than there are words, and the
verdict on such a hook is the same (`Generator.runHook_word`).
-/

namespace SeedGraph

/-- An operation of a hook that invokes the continuation at most `count` times. -/
def Invokes {α : Type} (count : Nat) (operation : HookM α) : Prop :=
  ∀ cx, (stateAfter operation cx).continuations ≤ cx.continuations + count

namespace Invokes

variable {α β : Type} {count first second : Nat}

theorem of_same {operation : HookM α}
    (h : ∀ cx, (stateAfter operation cx).continuations = cx.continuations) :
    Invokes 0 operation :=
  fun cx => Nat.le_of_eq (h cx)

theorem of_readsOnly {operation : HookM α} (h : ReadsOnly operation) : Invokes 0 operation :=
  of_same fun cx => by rw [h cx]

theorem bind {x : HookM α} {f : α → HookM β} (hx : Invokes first x)
    (hf : ∀ value, Invokes second (f value)) : Invokes (first + second) (x >>= f) := by
  intro cx
  have hfirst := hx cx
  rw [stateAfter_bind]
  cases hrun : x.run cx with
  | error failure cx' =>
    rw [stateAfter_of_error hrun] at hfirst
    dsimp only
    omega
  | ok value cx' =>
    rw [stateAfter_of_ok hrun] at hfirst
    have hsecond := hf value cx'
    dsimp only
    omega

/-- A failure that is survived counts, and so does what comes after it. -/
theorem tryCatch {x : HookM α} {handler : Error → HookM α} (hx : Invokes first x)
    (hhandler : ∀ failure, Invokes second (handler failure)) :
    Invokes (first + second) (MonadExcept.tryCatch x handler) := by
  intro cx
  have hfirst := hx cx
  cases hrun : x.run cx with
  | ok value cx' =>
    rw [stateAfter_of_ok hrun] at hfirst
    rw [stateAfter_of_ok (run_tryCatch_ok hrun)]
    omega
  | error failure cx' =>
    rw [stateAfter_of_error hrun] at hfirst
    have hsecond := hhandler failure cx'
    rw [stateAfter_tryCatch_error hrun]
    omega

theorem get : Invokes 0 (MonadState.get : HookM Compilation) :=
  of_readsOnly .get

theorem modify_buffer (f : Compilation → String) :
    Invokes 0 (modify fun cx => { cx with buffer := f cx }) :=
  of_same fun _ => rfl

theorem onGenerator (operation : GenM Hook α) : Invokes 0 (Compilation.onGenerator operation) :=
  of_same fun cx => by rw [Compilation.stateAfter_onGenerator]

theorem setResult (value : Compiled) : Invokes 0 (Compilation.setResult value) := by
  refine of_same fun cx => ?_
  obtain ⟨failure, hrun⟩ | ⟨seed, -, -, hrun⟩ := Compilation.setResult_cases value cx
  · rw [stateAfter_of_error hrun]
  · rw [stateAfter_of_ok hrun]

theorem proceed : Invokes 1 Compilation.proceed :=
  show Invokes (1 + (0 + (0 + (0 + 0)))) Compilation.proceed from
    bind (fun _ => Nat.le_refl _) fun _ => get.bind fun _ => (onGenerator _).bind fun _ =>
      (of_readsOnly (.require _ _)).bind fun _ => onGenerator _

end Invokes

/-- How often an action invokes the continuation, or attempts to. -/
def Action.invocations : Action → Nat
  | .proceed => 1
  | .attempt action => action.invocations
  | _ => 0

/-- How often a hook invokes the continuation if all of its actions are carried out. -/
def Hook.invocations : Hook → Nat
  | [] => 0
  | action :: rest => action.invocations + invocations rest

variable {traversal : Traversal Hook}

open Compilation in
theorem Action.invokes_run : ∀ action : Action, Invokes action.invocations (action.run traversal)
  | .text s => .modify_buffer fun cx => cx.buffer ++ s
  | .clear => .modify_buffer fun _ => ""
  | .ownId => Invokes.get.bind fun _ => .modify_buffer _
  | .ownKind => (Invokes.of_readsOnly readsOnly_self).bind fun _ => .modify_buffer _
  | .ownPayload => (Invokes.of_readsOnly readsOnly_self).bind fun _ => .modify_buffer _
  | .target key => (Invokes.of_readsOnly (readsOnly_target key)).bind fun _ => .modify_buffer _
  | .input key => (Invokes.of_readsOnly (readsOnly_input key)).bind fun _ => .modify_buffer _
  | .inputCode key =>
    (Invokes.of_readsOnly (readsOnly_inputCode key)).bind fun _ => .modify_buffer _
  | .setResult => Invokes.get.bind fun _ => .setResult _
  | .setSeed _ => .setResult _
  | .leak key => (Invokes.of_readsOnly (readsOnly_target key)).bind fun _ => .setResult _
  | .proceed => .proceed
  | .region _ _ => Invokes.get.bind fun _ => (Invokes.onGenerator _).bind fun _ =>
      Invokes.get.bind fun _ => .modify_buffer _
  | .request _ => (Invokes.onGenerator _).bind fun _ => Invokes.get.bind fun _ => .onGenerator _
  | .attempt action => (Action.invokes_run action).tryCatch fun _ =>
      Invokes.get.bind fun _ => .onGenerator _
  | .fail _ => .of_readsOnly (.throw _)

/-- **A hook invokes its continuation no more often than it says.** -/
theorem Hook.invokes_run (hook : Hook) : Invokes hook.invocations (hook.run traversal) := by
  induction hook with
  | nil => exact .of_readsOnly (.pure ())
  | cons action rest ih => exact action.invokes_run.bind fun _ => ih

namespace Generator

/-- The verdict on a hook whose invocations were counted in a word. -/
def wordVerdict (id : SeedId) (failure : Option Error) (count : UInt32) : Except Error Unit :=
  match failure with
  | some failure => .error failure
  | none =>
    if count = 0 then .error (.continuationNotInvoked id)
    else if count = 1 then .ok ()
    else .error (.continuationInvokedTwice id)

theorem wordVerdict_eq {count : Nat} (fits : count < UInt32.size) (id : SeedId)
    (failure : Option Error) :
    wordVerdict id failure (UInt32.ofNat count) = verdict id (failure, count) := by
  have hword (other : Nat) (hother : other < UInt32.size) :
      UInt32.ofNat count = UInt32.ofNat other ↔ count = other := by
    rw [← UInt32.toNat_inj, UInt32.toNat_ofNat_of_lt' fits, UInt32.toNat_ofNat_of_lt' hother]
  cases failure with
  | some failure => rfl
  | none =>
    show (if UInt32.ofNat count = UInt32.ofNat 0 then _ else
      if UInt32.ofNat count = UInt32.ofNat 1 then _ else _) = _
    simp only [hword 0 (by decide), hword 1 (by decide)]
    match count with
    | 0 => rfl
    | 1 => rfl
    | _ + 2 => rfl

/-- **A word is enough to count the invocations of a hook** that has fewer of them than there are
words. -/
theorem runHook_word {hook : Hook} (few : hook.invocations < UInt32.size)
    (traversal : Traversal Hook) (id : SeedId) (gen : Session) :
    ∃ failure count gen', (runHook traversal id hook).run gen = .ok (failure, count) gen' ∧
      count ≤ hook.invocations ∧
      wordVerdict id failure (UInt32.ofNat count) = verdict id (failure, count) := by
  obtain ⟨failure, hrun⟩ := run_runHook traversal id hook gen
  have hcount : _ ≤ 0 + hook.invocations :=
    @Hook.invokes_run traversal hook { id, generator := gen }
  rw [Nat.zero_add] at hcount
  exact ⟨failure, _, _, hrun, hcount, wordVerdict_eq (Nat.lt_of_le_of_lt hcount few) id failure⟩

end Generator

end SeedGraph
