import NotiMapper.Engine.Overlooking
import NotiMapper.Library.Lockstep
import NotiMapper.Storage.EventLog

/-! The engine with an operator who deletes rows of the event log, and the engine without.
Whatever the log holds, a handler reads and writes the same of everything else, and raises
where it would have raised. -/
namespace NotiMapper

open Python Effect Engine

namespace Engine

def withLog (log : EventLog) (s : Engine) : Engine :=
  { s with store := { s.store with eventLog := log } }

/-- All is the same but the event log: the tables, what is dispatched, the timers. -/
def Unlogged (s t : Engine) : Prop := ∃ log, t = s.withLog log

abbrev Keeping := EventLogEntry → Bool

def deleteEvents (keep : Keeping) : Core Unit := modify (onStore (·.deleteEvents keep))

/- Deletions inside of a step, before each transaction of it that writes the log. -/

def forEach {α : Type} (act : Nat → α → Core Unit) (k : Nat) : List α → Core Unit
  | [] => pure ()
  | a :: as => do
    act k a
    forEach act (k + 1) as

def handleCatchUpRetryAmid (keeps : Nat → Keeping) (w : World) (message : CatchUpMessage) :
    Core Unit := do
  if message.instanceName ∉ (← get).plugins.inputs then return
  match w.catchUp message.instanceName message.since with
  | .error _ =>
    let delay ← raising (retryDelay message.attempt)
    schedule w delay (.catchUp { message with attempt := message.attempt + 1 })
  | .ok events =>
    forEach (fun k event => do
      deleteEvents (keeps k)
      handleInputEvent w ⟨message.instanceName, event⟩) 0 events

def handleAmid (keeps : Nat → Keeping) (w : World) : CoreMessage → Core Unit
  | .catchUp message => handleCatchUpRetryAmid keeps w message
  | message => handle w message

def fireDueTimersAmid (keeps : Nat → Nat → Keeping) (w : World) : Core Unit := do
  let due := (← get).timers.filter (·.dueAt ≤ w.now)
  modify fun s => { s with timers := s.timers.filter fun timer => ¬ timer.dueAt ≤ w.now }
  forEach (fun k timer => do
    deleteEvents (keeps k 0)
    handleAmid (fun j => keeps k (j + 1)) w timer.message) 0 due

def tickAmid (keeps : Nat → Nat → Keeping) (w : World) : Core Unit := do
  modify fun s => { s with heartbeat := some w.now }
  fireDueTimersAmid keeps w
  modify (dispatchDuePushes w.now)
  modify (maybeWriteLastSeen w.now)

/-- What happens in a run: the start, the turns of the loop, and deletions. -/
inductive Move
  | reconcile (w : World)
  | handle (keeps : Nat → Keeping) (w : World) (message : CoreMessage)
  | tick (keeps : Nat → Nat → Keeping) (w : World)
  | delete (keep : Keeping)

def Move.perform : Move → Core Unit
  | .reconcile w => Engine.reconcile w
  | .handle keeps w message => handleAmid keeps w message
  | .tick keeps w => tickAmid keeps w
  | .delete keep => deleteEvents keep

/-- The same without the deletions. -/
def Move.undisturbed : Move → Core Unit
  | .reconcile w => Engine.reconcile w
  | .handle _ w message => Engine.handle w message
  | .tick _ w => Engine.tick w
  | .delete _ => pure ()

/- No part of the engine sees the log. -/

theorem overlooked_withLog (log : EventLog) : Overlooked (withLog log) :=
  ⟨fun _ _ => rfl, fun _ _ => rfl, fun _ _ => rfl, fun _ _ => rfl, fun _ => rfl, fun _ => rfl,
    fun _ _ _ => rfl, fun _ _ _ => rfl, fun _ _ => rfl, fun _ _ => rfl⟩

variable {s t : Engine}

theorem unlogged_modify {f : Engine → Engine}
    (blind : ∀ s log, ∃ log', f (s.withLog log) = (f s).withLog log') :
    Respects Unlogged (modify f : Core Unit) := by
  refine respects_modify ?_
  rintro s t ⟨log, rfl⟩
  exact blind s log

theorem unlogged_blind {f : Engine → Engine} (blind : ∀ s log, f (s.withLog log) = (f s).withLog log) :
    Respects Unlogged (modify f : Core Unit) :=
  unlogged_modify fun s log => ⟨log, blind s log⟩

theorem unlogged_get_bind {α : Type} {f : Engine → Core α} (hf : ∀ s, Respects Unlogged (f s))
    (reads : ∀ s log, f (withLog log s) = f s) : Respects Unlogged (get >>= f) := by
  refine respects_get_bind hf ?_
  rintro s t ⟨log, rfl⟩
  exact reads s log

theorem unlogged_appendEvent (now : Time) (kind : EventKind) (i r : Option Name)
    (detail : String) : Respects Unlogged (modify (appendEvent now kind i r detail) : Core Unit) :=
  unlogged_modify fun s log =>
    ⟨(appendEvent now kind i r detail (s.withLog log)).store.eventLog, rfl⟩

theorem unlogged_transaction {body : Core Unit} (respects : Respects Unlogged body) :
    Respects Unlogged (transaction body) := by
  refine Respects.restoring respects ?_
  rintro s t s' t' ⟨log, rfl⟩ ⟨log', rfl⟩
  exact ⟨log, rfl⟩

theorem unlogged_writeLatch (n : Name) (record : LatchRecord) :
    Respects Unlogged (writeLatch n record) := by
  constructor
  rintro s t ⟨log, rfl⟩
  have run (u : Engine) : writeLatch n record u = (raising (u.store.writeLatch n record) >>=
      fun store => modify fun u => { u with store := store, latches := u.latches.insert n record } :
        Core Unit) u := rfl
  rw [run, run]
  by_cases known : n ∈ s.store.rules
  · have left : s.store.writeLatch n record =
      .ok { s.store with latches := s.store.latches.insert n record } := if_pos known
    have right : (s.withLog log).store.writeLatch n record =
      .ok { (s.withLog log).store with latches := s.store.latches.insert n record } := if_pos known
    rw [left, right]
    exact .returned ⟨log, rfl⟩
  · have left : s.store.writeLatch n record = .error .integrityError := if_neg known
    have right : (s.withLog log).store.writeLatch n record = .error .integrityError := if_neg known
    rw [left, right]
    exact .raised ⟨log, rfl⟩

theorem unlogged_schedule (w : World) (delay : PyFloat) (message : CoreMessage)
    (scheduled : message.SelfScheduled) :
    Respects Unlogged (schedule w delay message scheduled) :=
  Respects.bind (respects_raising _) fun _ => unlogged_blind fun _ _ => rfl

theorem unlogged_syncOutputs (now : Time) (names : Engine → List Name)
    (reads : ∀ s log, names (withLog log s) = names s) :
    Respects Unlogged (modify fun s => s.syncOutputs now (names s) : Core Unit) :=
  unlogged_blind fun s log => by
    simp only [reads]
    exact (overlooked_withLog log).syncOutputs now _ s

theorem unlogged_dispatchDuePushes (now : Time) :
    Respects Unlogged (modify (Engine.dispatchDuePushes now) : Core Unit) :=
  unlogged_blind fun s log => (overlooked_withLog log).dispatchDuePushes now s

theorem unlogged_applyTrigger (w : World) (message : InputEventMessage) (n : Name) :
    Respects Unlogged (applyTrigger w message n) := by
  refine unlogged_get_bind (fun s => ?_) fun _ _ => rfl
  simp only
  split
  · exact Respects.bind (unlogged_writeLatch _ _) fun _ => unlogged_appendEvent _ _ _ _ _
  · exact Respects.bind (unlogged_writeLatch _ _) fun _ => unlogged_appendEvent _ _ _ _ _

theorem unlogged_handleInputEvent (w : World) (message : InputEventMessage) :
    Respects Unlogged (handleInputEvent w message) := by
  refine unlogged_get_bind (fun s => ?_) fun _ _ => rfl
  refine unlogged_transaction (Respects.bind (unlogged_appendEvent _ _ _ _ _) fun _ => ?_)
  split
  · exact respects_pure _
  · exact Respects.bind (Respects.forM _ fun rule => unlogged_applyTrigger w message rule.name)
      fun _ => unlogged_syncOutputs _ _ fun _ _ => rfl

theorem unlogged_handleUnlatch (w : World) (message : UnlatchRequestMessage) :
    Respects Unlogged (handleUnlatch w message) := by
  refine unlogged_get_bind (fun s => unlogged_transaction ?_) fun _ _ => rfl
  split
  · exact unlogged_appendEvent _ _ _ _ _
  · refine Respects.bind (Respects.forM _ fun rule => ?_) fun _ =>
      unlogged_syncOutputs _ _ fun _ _ => rfl
    refine unlogged_get_bind (fun s => ?_) fun _ _ => rfl
    exact Respects.bind (unlogged_writeLatch _ _) fun _ => unlogged_appendEvent _ _ _ _ _

theorem unlogged_recordPushFailure (w : World) (message : PushResultMessage) :
    Respects Unlogged (recordPushFailure w message) := by
  refine unlogged_get_bind (fun s => ?_) fun _ _ => rfl
  refine Respects.bind (respects_raising _) fun delay => ?_
  refine Respects.bind (respects_raising _) fun nextAttemptAt => ?_
  exact Respects.bind (unlogged_blind fun _ _ => rfl) fun _ => unlogged_appendEvent _ _ _ _ _

theorem unlogged_recordPushSuccess (w : World) (message : PushResultMessage) :
    Respects Unlogged (modify (recordPushSuccess w message) : Core Unit) :=
  unlogged_modify fun s log => ⟨(recordPushSuccess w message (s.withLog log)).store.eventLog, rfl⟩

theorem unlogged_handlePushResult (w : World) (message : PushResultMessage) :
    Respects Unlogged (handlePushResult w message) := by
  refine Respects.bind (unlogged_blind fun _ _ => rfl) fun _ => unlogged_transaction ?_
  have synced := unlogged_syncOutputs w.now (fun _ => [message.instanceName]) fun _ _ => rfl
  split
  · exact Respects.bind (unlogged_recordPushSuccess w message) fun _ => synced
  · exact Respects.bind (unlogged_recordPushFailure w message) fun _ => synced

theorem unlogged_handleReload (w : World) (message : ReloadMessage) :
    Respects Unlogged (handleReload w message) := by
  refine unlogged_get_bind (fun s => ?_) fun _ _ => rfl
  refine Respects.bind (unlogged_blind fun s log => ?_) fun _ => ?_
  · unfold adopt
    cases message.plugins <;> rfl
  · refine Respects.bind (unlogged_transaction ?_) fun _ => unlogged_blind fun _ _ => rfl
    exact Respects.bind (unlogged_appendEvent _ _ _ _ _) fun _ =>
      unlogged_syncOutputs _ _ fun _ _ => rfl

theorem unlogged_handlePollHealth (w : World) : Respects Unlogged (handlePollHealth w) := by
  refine Respects.bind (unlogged_transaction ?_) fun _ => unlogged_schedule _ _ _ _
  refine unlogged_get_bind (fun s => ?_) fun _ _ => rfl
  refine Respects.bind (Respects.forM _ fun n => unlogged_blind fun _ _ => rfl) fun _ => ?_
  refine unlogged_get_bind (fun s => ?_) fun _ _ => rfl
  exact Respects.forM _ fun n => unlogged_blind fun _ _ => rfl

theorem unlogged_applyReconcileOutcome (w : World) (n : Name) (outcome : ReconcileOutcome)
    (extraTriggers : Nat) :
    Respects Unlogged (applyReconcileOutcome w n outcome extraTriggers) := by
  refine unlogged_get_bind (fun s => ?_) fun _ _ => rfl
  simp only
  split
  · exact Respects.bind (unlogged_writeLatch _ _) fun _ => unlogged_appendEvent _ _ _ _ _
  · exact unlogged_appendEvent _ _ _ _ _

theorem unlogged_handleReconcileRetry (w : World) (message : ReconcileOutputMessage) :
    Respects Unlogged (handleReconcileRetry w message) := by
  refine unlogged_get_bind (fun s => ?_) fun _ _ => rfl
  split
  · exact respects_pure _
  · simp only
    split
    · exact Respects.bind (respects_raising _) fun _ => unlogged_schedule _ _ _ _
    · refine unlogged_get_bind (fun s => unlogged_transaction ?_) fun _ _ => rfl
      refine Respects.bind (Respects.forM _ fun rule => ?_) fun _ =>
        unlogged_syncOutputs _ _ fun _ _ => rfl
      exact unlogged_get_bind (fun s => unlogged_applyReconcileOutcome _ _ _ _) fun _ _ => rfl

theorem unlogged_delete (keep : Keeping) (s t : Engine) (same : Unlogged s t) :
    Unlogged (s.onStore (·.deleteEvents keep)) t := by
  obtain ⟨log, rfl⟩ := same
  exact ⟨log, rfl⟩

theorem aligned_forEach {α : Type} {act : Nat → α → Core Unit} {plain : α → Core Unit}
    (each : ∀ k a, Effect.Aligned Unlogged (act k a) (plain a)) (k : Nat) (as : List α) :
    Effect.Aligned Unlogged (forEach act k as) (as.forM plain) := by
  induction as generalizing k with
  | nil => exact (respects_pure PUnit.unit).aligned
  | cons a as ih => exact Effect.Aligned.bind (each k a) fun _ => ih (k + 1)

theorem aligned_handleCatchUpRetry (keeps : Nat → Keeping) (w : World) (message : CatchUpMessage) :
    Effect.Aligned Unlogged (handleCatchUpRetryAmid keeps w message) (handleCatchUpRetry w message) := by
  refine aligned_get_bind (fun s => ?_) ?_
  · split
    · exact (respects_pure _).aligned
    · cases w.catchUp message.instanceName message.since with
      | error e =>
        exact (Respects.bind (respects_raising _) fun _ => unlogged_schedule _ _ _ _).aligned
      | ok events =>
        refine aligned_forEach (fun k event => ?_) 0 _
        exact (unlogged_handleInputEvent w _).aligned.after_modify (unlogged_delete (keeps k))
  · rintro s t ⟨log, rfl⟩
    rfl

theorem aligned_handle (keeps : Nat → Keeping) (w : World) (message : CoreMessage) :
    Effect.Aligned Unlogged (handleAmid keeps w message) (handle w message) := by
  cases message with
  | inputEvent message => exact (unlogged_handleInputEvent w message).aligned
  | unlatchRequest message => exact (unlogged_handleUnlatch w message).aligned
  | pushResult message => exact (unlogged_handlePushResult w message).aligned
  | reload message => exact (unlogged_handleReload w message).aligned
  | reconcileOutput message => exact (unlogged_handleReconcileRetry w message).aligned
  | catchUp message => exact aligned_handleCatchUpRetry keeps w message
  | pollHealth => exact (unlogged_handlePollHealth w).aligned
  | shutdown => exact (unlogged_blind fun _ _ => rfl).aligned

theorem aligned_tick (keeps : Nat → Nat → Keeping) (w : World) :
    Effect.Aligned Unlogged (tickAmid keeps w) (tick w) := by
  refine Effect.Aligned.bind (unlogged_blind fun _ _ => rfl).aligned fun _ => ?_
  refine Effect.Aligned.bind ?_ fun _ => ?_
  · refine aligned_get_bind (fun s => ?_) ?_
    · refine Effect.Aligned.bind (unlogged_blind fun _ _ => rfl).aligned fun _ => ?_
      refine aligned_forEach (fun k timer => ?_) 0 _
      exact (aligned_handle _ w timer.message).after_modify (unlogged_delete (keeps k 0))
    · rintro s t ⟨log, rfl⟩
      rfl
  · refine Effect.Aligned.bind (unlogged_dispatchDuePushes _).aligned fun _ => ?_
    refine (unlogged_blind fun s log => ?_).aligned
    have recently : (s.withLog log).lastSeenWrittenAt = s.lastSeenWrittenAt := rfl
    unfold maybeWriteLastSeen
    rw [recently]
    split <;> rfl

theorem unlogged_askDowntime (w : World) (since : Option Time) (plugins : PluginSet)
    (collected : Table (List ObservedEvent)) (n : Name) :
    Respects Unlogged (askDowntime w since plugins collected n) := by
  unfold askDowntime
  split
  · exact respects_pure _
  · cases w.catchUp n since with
    | ok events => exact respects_pure _
    | error e => exact Respects.bind (unlogged_schedule _ _ _ _) fun _ => respects_pure _

theorem unlogged_askRemote (w : World) (plugins : PluginSet) (collected : Table RemoteState)
    (n : Name) : Respects Unlogged (askRemote w plugins collected n) := by
  unfold askRemote
  split
  · exact respects_pure _
  · simp only
    split
    · exact Respects.bind (unlogged_schedule _ _ _ _) fun _ => respects_pure _
    · exact respects_pure _

theorem unlogged_reconcileRule (w : World) (downtime : Table (List ObservedEvent))
    (reports : Table RemoteState) (rule : Rule) :
    Respects Unlogged (reconcileRule w downtime reports rule) := by
  unfold reconcileRule
  exact unlogged_get_bind (fun s => unlogged_applyReconcileOutcome _ _ _ _) fun _ _ => rfl

theorem unlogged_reconcile (w : World) : Respects Unlogged (reconcile w) := by
  refine unlogged_get_bind (fun s => ?_) fun _ _ => rfl
  refine Respects.bind (unlogged_get_bind (fun s => ?_) fun _ _ => rfl) fun downtime => ?_
  · exact Respects.foldlM _ (fun collected n => unlogged_askDowntime _ _ _ collected n) _
  refine Respects.bind (unlogged_get_bind (fun s => ?_) fun _ _ => rfl) fun reports => ?_
  · exact Respects.foldlM _ (fun collected n => unlogged_askRemote _ _ collected n) _
  refine Respects.bind (unlogged_transaction ?_) fun _ => ?_
  · refine Respects.bind (unlogged_appendEvent _ _ _ _ _) fun _ => ?_
    refine unlogged_get_bind (fun s => ?_) fun _ _ => rfl
    refine Respects.bind (Respects.forM _ fun rule => unlogged_reconcileRule _ _ _ rule) fun _ => ?_
    refine Respects.bind (unlogged_blind fun s log => ?_) fun _ => unlogged_blind fun _ _ => rfl
    exact (overlooked_withLog log).forceOutputs w.now _ s
  · refine Respects.bind (unlogged_blind fun _ _ => rfl) fun _ => ?_
    exact Respects.bind (unlogged_dispatchDuePushes _) fun _ => unlogged_blind fun _ _ => rfl

theorem aligned_move (move : Move) : Effect.Aligned Unlogged move.perform move.undisturbed := by
  cases move with
  | reconcile w => exact (unlogged_reconcile w).aligned
  | handle keeps w message => exact aligned_handle keeps w message
  | tick keeps w => exact aligned_tick keeps w
  | delete keep => exact aligned_modify_left (unlogged_delete keep)

/-- Without deletions a step is the engine's own, as a list of moves the run. -/
theorem moves_unlogged (moves : List Move) (s : Engine) :
    Alike Unlogged (moves.forM Move.perform s) (moves.forM Move.undisturbed s) :=
  (Effect.Aligned.forM moves aligned_move).alike s s ⟨s.store.eventLog, rfl⟩

end Engine

end NotiMapper
