import NotiMapper.Engine.Handling

/-! What handling a message leaves alone, also when it raises. A relation between stores
that allows for writes to the tables of latches and pushes, and for entries in the event
log, is kept by every handler but those of the two messages that do something else: an
unlatch request logs clears, and a poll writes health rows. -/
namespace NotiMapper

open Python Effect

namespace Engine

structure Framed (R : Engine → Engine → Prop) : Prop where
  tables : ∀ s t, t.store = { s.store with
    latches := t.store.latches
    outputState := t.store.outputState
    pendingPushes := t.store.pendingPushes } → R s t
  logs : ∀ now kind i r detail s, kind ≠ .latchCleared → R s (appendEvent now kind i r detail s)

namespace Framed

variable {R : Engine → Engine → Prop}

theorem outside (framed : Framed R) {f : Engine → Engine} (same : ∀ s, (f s).store = s.store) :
    Keeps R (modify f : Core Unit) :=
  keeps_modify fun s => framed.tables s (f s) (by rw [same])

theorem transaction (framed : Framed R) {body : Core Unit} (kept : Keeps R body) :
    Keeps R (Engine.transaction body) :=
  Keeps.restoring kept fun _ _ _ => framed.tables _ _ rfl

theorem appendEvent (framed : Framed R) (now : Time) {kind : EventKind}
    (other : kind ≠ .latchCleared) (i r : Option Name) (detail : String) :
    Keeps R (modify (Engine.appendEvent now kind i r detail) : Core Unit) :=
  keeps_modify fun s => framed.logs now kind i r detail s other

theorem syncOutputs (framed : Framed R) (now : Time) (names : Engine → List Name) :
    Keeps R (modify fun s => s.syncOutputs now (names s) : Core Unit) :=
  keeps_modify fun s => framed.tables _ _ (by rw [(syncOutputs_only now (names s) s).eq])

variable [IsPreorder Engine R]

theorem writeLatch (framed : Framed R) (n : Name) (record : LatchRecord) :
    Keeps R (Engine.writeLatch n record) := by
  intro s
  have run : Engine.writeLatch n record s = (raising (s.store.writeLatch n record) >>= fun store =>
      modify fun s => { s with store := store, latches := s.latches.insert n record } :
        Core Unit) s := rfl
  rw [final, run]
  cases written : s.store.writeLatch n record with
  | error e => exact refl_of R s
  | ok store =>
    obtain ⟨_, rfl⟩ := Store.writeLatch_ok.mp written
    exact framed.tables _ _ rfl

theorem schedule (framed : Framed R) (w : World) (delay : PyFloat) (message : CoreMessage)
    (scheduled : message.SelfScheduled) : Keeps R (Engine.schedule w delay message scheduled) :=
  Keeps.bind (keeps_raising _) fun _ => framed.outside fun _ => rfl

theorem applyTrigger (framed : Framed R) (w : World) (message : InputEventMessage) (n : Name) :
    Keeps R (Engine.applyTrigger w message n) := by
  refine Keeps.bind keeps_get fun s => ?_
  simp only
  split
  · exact Keeps.bind (framed.writeLatch _ _) fun _ => framed.appendEvent _ (by decide) _ _ _
  · exact Keeps.bind (framed.writeLatch _ _) fun _ => framed.appendEvent _ (by decide) _ _ _

theorem handleInputEvent (framed : Framed R) (w : World) (message : InputEventMessage) :
    Keeps R (Engine.handleInputEvent w message) := by
  refine Keeps.bind keeps_get fun s => framed.transaction ?_
  refine Keeps.bind (framed.appendEvent _ (by decide) _ _ _) fun _ => ?_
  split
  · exact keeps_pure _
  · exact Keeps.bind (Keeps.forM _ fun _ _ => framed.applyTrigger _ _ _) fun _ =>
      framed.syncOutputs _ _

theorem handleUnlatch (framed : Framed R)
    (clears : ∀ now i r detail s, R s (Engine.appendEvent now .latchCleared i r detail s))
    (w : World) (message : UnlatchRequestMessage) : Keeps R (Engine.handleUnlatch w message) := by
  refine Keeps.bind keeps_get fun s => framed.transaction ?_
  split
  · exact framed.appendEvent _ (by decide) _ _ _
  · refine Keeps.bind (Keeps.forM _ fun r _ => ?_) fun _ => framed.syncOutputs _ _
    exact Keeps.bind keeps_get fun s => Keeps.bind (framed.writeLatch _ _) fun _ =>
      keeps_modify fun s => clears _ _ _ _ s

theorem handlePushResult (framed : Framed R) (w : World) (message : PushResultMessage) :
    Keeps R (Engine.handlePushResult w message) := by
  refine Keeps.bind (framed.outside fun _ => rfl) fun _ => framed.transaction ?_
  have synced := framed.syncOutputs w.now fun _ => [message.instanceName]
  split
  · refine Keeps.bind ?_ fun _ => synced
    refine keeps_modify fun s => trans_of R (framed.tables _ _ ?_)
      (framed.logs w.now .outputPushSucceeded _ _ _ _ (by decide))
    rfl
  · refine Keeps.bind (Keeps.bind keeps_get fun s => ?_) fun _ => synced
    refine Keeps.bind (keeps_raising _) fun _ => Keeps.bind (keeps_raising _) fun _ => ?_
    exact Keeps.bind (keeps_modify fun _ => framed.tables _ _ rfl) fun _ =>
      framed.appendEvent _ (by decide) _ _ _

theorem handleReload (framed : Framed R) (w : World) (message : ReloadMessage) :
    Keeps R (Engine.handleReload w message) := by
  refine Keeps.bind keeps_get fun s => ?_
  refine Keeps.bind (framed.outside (adopt_store message)) fun _ => ?_
  refine Keeps.bind (framed.transaction ?_) fun _ => framed.outside fun _ => rfl
  exact Keeps.bind (framed.appendEvent _ (by decide) _ _ _) fun _ => framed.syncOutputs _ _

theorem handleReconcileRetry (framed : Framed R) (w : World) (message : ReconcileOutputMessage) :
    Keeps R (Engine.handleReconcileRetry w message) := by
  refine Keeps.bind keeps_get fun s => ?_
  split
  · exact keeps_pure _
  · simp only
    split
    · exact Keeps.bind (keeps_raising _) fun _ => framed.schedule _ _ _ _
    · refine Keeps.bind keeps_get fun s => framed.transaction ?_
      refine Keeps.bind (Keeps.forM _ fun r _ => ?_) fun _ => framed.syncOutputs _ _
      refine Keeps.bind keeps_get fun s => Keeps.bind keeps_get fun s => ?_
      simp only
      split
      · exact Keeps.bind (framed.writeLatch _ _) fun _ =>
          framed.appendEvent _ (by decide) _ _ _
      · exact framed.appendEvent _ (by decide) _ _ _

theorem handleCatchUpRetry (framed : Framed R) (w : World) (message : CatchUpMessage) :
    Keeps R (Engine.handleCatchUpRetry w message) := by
  refine Keeps.bind keeps_get fun s => ?_
  split
  · exact keeps_pure _
  · split
    · exact Keeps.bind (keeps_raising _) fun _ => framed.schedule _ _ _ _
    · exact Keeps.forM _ fun _ _ => framed.handleInputEvent _ _

theorem handlePollHealth (framed : Framed R)
    (polls : ∀ direction name w s, R s (recordHealth w direction name s)) (w : World) :
    Keeps R (Engine.handlePollHealth w) :=
  handlePollHealth_keeps (fun direction name s => polls direction name w s)
    (fun _ _ _ => framed.tables _ _ rfl) (framed.schedule _ _ _ _)

/-- Every handler keeps the relation, given for these two messages what they also do. -/
theorem handle (framed : Framed R) (w : World) {message : CoreMessage}
    (clears : (∃ request, message = .unlatchRequest request) →
      ∀ now i r detail s, R s (Engine.appendEvent now .latchCleared i r detail s))
    (polls : message = .pollHealth →
      ∀ direction name w s, R s (recordHealth w direction name s)) :
    Keeps R (Engine.handle w message) := by
  cases message with
  | inputEvent message => exact framed.handleInputEvent w message
  | unlatchRequest message => exact framed.handleUnlatch (clears ⟨message, rfl⟩) w message
  | pushResult message => exact framed.handlePushResult w message
  | reload message => exact framed.handleReload w message
  | reconcileOutput message => exact framed.handleReconcileRetry w message
  | catchUp message => exact framed.handleCatchUpRetry w message
  | pollHealth => exact framed.handlePollHealth (polls rfl) w
  | shutdown => exact framed.outside fun _ => rfl

theorem fireDueTimers (framed : Framed R)
    (polls : ∀ direction name w s, R s (recordHealth w direction name s)) (w : World) :
    Keeps R (Engine.fireDueTimers w) := by
  refine Keeps.bind keeps_get fun s => Keeps.bind (framed.outside fun _ => rfl) fun _ => ?_
  refine Keeps.forM _ fun timer _ => framed.handle w ?_ fun _ => polls
  rintro ⟨request, same⟩
  have scheduled := timer.scheduled
  rw [same] at scheduled
  exact scheduled.elim

theorem tick (framed : Framed R)
    (polls : ∀ direction name w s, R s (recordHealth w direction name s))
    (notes : ∀ now s, R s (s.onStore (·.writeLastSeenAt now))) (w : World) :
    Keeps R (Engine.tick w) := by
  refine Keeps.bind (framed.outside fun _ => rfl) fun _ => ?_
  refine Keeps.bind (framed.fireDueTimers polls w) fun _ => ?_
  refine Keeps.bind (keeps_modify fun s => framed.tables _ _ ?_) fun _ => keeps_modify fun s => ?_
  · rw [(dispatchDuePushes_spec w.now s).only]
  · simp only [maybeWriteLastSeen]
    split
    · exact refl_of R s
    · refine trans_of R (notes w.now s) (framed.tables _ _ ?_)
      rfl

end Framed

end Engine

end NotiMapper
