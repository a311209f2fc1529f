import NotiMapper.Engine

/-! Changes to an engine that bringing the outputs up to date does not see. -/
namespace NotiMapper.Engine

/-- What is read to settle and to dispatch pushes is the same after the change, and what is
written then is written as well before it. -/
structure Overlooked (g : Engine → Engine) : Prop where
  desired : ∀ s n, (g s).desired n = s.desired n
  applied : ∀ s n, (g s).lastApplied n = s.lastApplied n
  pending : ∀ s n, (g s).store.pendingPush n = s.store.pendingPush n
  due : ∀ s now, (g s).store.pendingPushesDue now = s.store.pendingPushesDue now
  inFlight : ∀ s, (g s).inFlight = s.inFlight
  plugins : ∀ s, (g s).plugins = s.plugins
  update : ∀ s n d, (g s).buildUpdate n d = s.buildUpdate n d
  written : ∀ s n push,
    (g s).onStore (·.writePendingPush n push) = g (s.onStore (·.writePendingPush n push))
  deleted : ∀ s n, (g s).onStore (·.deletePendingPush n) = g (s.onStore (·.deletePendingPush n))
  dispatched : ∀ s request, (g s).dispatch request = g (s.dispatch request)

variable {g : Engine → Engine} (overlooked : Overlooked g)
include overlooked

theorem Overlooked.syncOutput (now : Time) (force : Bool) (n : Name) (s : Engine) :
    (g s).syncOutput now force n = g (s.syncOutput now force n) := by
  simp only [Engine.syncOutput, overlooked.desired, overlooked.applied, overlooked.pending]
  split_ifs
  · exact overlooked.deleted _ _
  · rfl
  · rfl
  · exact overlooked.written _ _ _

omit overlooked in
theorem foldl_commutes {α : Type} {f : Engine → α → Engine}
    (each : ∀ s x, f (g s) x = g (f s x)) (xs : List α) (s : Engine) :
    xs.foldl f (g s) = g (xs.foldl f s) := by
  induction xs generalizing s with
  | nil => rfl
  | cons x xs ih => rw [List.foldl_cons, each, ih, List.foldl_cons]

theorem Overlooked.syncOutputs (now : Time) (names : List Name) (s : Engine) :
    (g s).syncOutputs now names = g (s.syncOutputs now names) :=
  foldl_commutes (fun s n => overlooked.syncOutput now false n s) names s

theorem Overlooked.forceOutputs (now : Time) (names : List Name) (s : Engine) :
    (g s).forceOutputs now names = g (s.forceOutputs now names) :=
  foldl_commutes (fun s n => overlooked.syncOutput now true n s) names s

theorem Overlooked.prepareDue (s : Engine) (ready : List PushRequest) (due : Name × PendingPush) :
    Engine.prepareDue (g s, ready) due =
      (g (Engine.prepareDue (s, ready) due).1, (Engine.prepareDue (s, ready) due).2) := by
  obtain ⟨n, push⟩ := due
  simp only [Engine.prepareDue, overlooked.inFlight, overlooked.plugins, overlooked.desired]
  split_ifs
  · rfl
  · rw [overlooked.written, overlooked.update]
  · rw [overlooked.update]
  · rw [overlooked.deleted]

theorem Overlooked.dispatchDuePushes (now : Time) (s : Engine) :
    (g s).dispatchDuePushes now = g (s.dispatchDuePushes now) := by
  have prepared (due : List (Name × PendingPush)) (s : Engine) (ready : List PushRequest) :
      due.foldl Engine.prepareDue (g s, ready) =
        (g (due.foldl Engine.prepareDue (s, ready)).1,
          (due.foldl Engine.prepareDue (s, ready)).2) := by
    induction due generalizing s ready with
    | nil => rfl
    | cons first due ih => rw [List.foldl_cons, overlooked.prepareDue, ih, List.foldl_cons]
  simp only [Engine.dispatchDuePushes, overlooked.due, prepared]
  exact foldl_commutes (fun _ _ => overlooked.dispatched _ _) _ _

end NotiMapper.Engine
