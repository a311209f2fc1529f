import NotiMapper.Engine.Startup

/-! Only a reload that is handled is acknowledged, and it is acknowledged when it is. -/
namespace NotiMapper

open Python Effect

namespace Engine

def SameAnswers (s t : Engine) : Prop := t.acknowledged = s.acknowledged

instance : IsPreorder Engine SameAnswers where
  refl _ := rfl
  trans _ _ _ first second := second.trans first

theorem answers_modify {f : Engine → Engine} (same : ∀ s, (f s).acknowledged = s.acknowledged) :
    Keeps SameAnswers (modify f : Core Unit) := keeps_modify same

theorem answers_transaction {body : Core Unit} (kept : Keeps SameAnswers body) :
    Keeps SameAnswers (transaction body) :=
  Keeps.restoring kept fun _ _ same => same

theorem answers_syncOutputs (now : Time) (names : Engine → List Name) :
    Keeps SameAnswers (modify fun s => s.syncOutputs now (names s) : Core Unit) := by
  refine answers_modify fun s => ?_
  rw [(syncOutputs_only now (names s) s).eq]

theorem answers_writeLatch (n : Name) (record : LatchRecord) :
    Keeps SameAnswers (writeLatch n record) :=
  Keeps.bind keeps_get fun _ => Keeps.bind (keeps_raising _) fun _ => answers_modify fun _ => rfl

theorem answers_schedule (w : World) (delay : PyFloat) (message : CoreMessage)
    (scheduled : message.SelfScheduled) : Keeps SameAnswers (schedule w delay message scheduled) :=
  Keeps.bind (keeps_raising _) fun _ => answers_modify fun _ => rfl

theorem answers_handleInputEvent (w : World) (message : InputEventMessage) :
    Keeps SameAnswers (handleInputEvent w message) := by
  refine Keeps.bind keeps_get fun s => ?_
  refine answers_transaction ?_
  refine Keeps.bind (answers_modify fun _ => rfl) fun _ => ?_
  split
  · exact keeps_pure _
  · refine Keeps.bind (Keeps.forM _ fun rule _ => ?_) fun _ => answers_syncOutputs _ _
    refine Keeps.bind keeps_get fun t => ?_
    simp only
    split <;> exact Keeps.bind (answers_writeLatch _ _) fun _ => answers_modify fun _ => rfl

theorem answers_handleUnlatch (w : World) (message : UnlatchRequestMessage) :
    Keeps SameAnswers (handleUnlatch w message) := by
  refine Keeps.bind keeps_get fun s => ?_
  refine answers_transaction ?_
  split
  · exact answers_modify fun _ => rfl
  · refine Keeps.bind (Keeps.forM _ fun rule _ => ?_) fun _ => answers_syncOutputs _ _
    exact Keeps.bind keeps_get fun _ => Keeps.bind (answers_writeLatch _ _) fun _ =>
      answers_modify fun _ => rfl

theorem answers_handlePushResult (w : World) (message : PushResultMessage) :
    Keeps SameAnswers (handlePushResult w message) := by
  refine Keeps.bind (answers_modify fun _ => rfl) fun _ => ?_
  refine answers_transaction ?_
  have synced := answers_syncOutputs w.now fun _ => [message.instanceName]
  split
  · exact Keeps.bind (answers_modify fun _ => rfl) fun _ => synced
  · refine Keeps.bind (Keeps.bind keeps_get fun s => ?_) fun _ => synced
    exact Keeps.bind (keeps_raising _) fun _ => Keeps.bind (keeps_raising _) fun _ =>
      Keeps.bind (answers_modify fun _ => rfl) fun _ => answers_modify fun _ => rfl

theorem answers_handleReconcileRetry (w : World) (message : ReconcileOutputMessage) :
    Keeps SameAnswers (handleReconcileRetry w message) := by
  refine Keeps.bind keeps_get fun s => ?_
  split
  · exact keeps_pure _
  · simp only
    split
    · exact Keeps.bind (keeps_raising _) fun _ => answers_schedule _ _ _ _
    · refine Keeps.bind keeps_get fun s => answers_transaction ?_
      refine Keeps.bind (Keeps.forM _ fun r _ => ?_) fun _ => answers_syncOutputs _ _
      refine Keeps.bind keeps_get fun s => Keeps.bind keeps_get fun s => ?_
      simp only
      split
      · exact Keeps.bind (answers_writeLatch _ _) fun _ => answers_modify fun _ => rfl
      · exact answers_modify fun _ => rfl

theorem answers_handleCatchUpRetry (w : World) (message : CatchUpMessage) :
    Keeps SameAnswers (handleCatchUpRetry w message) := by
  refine Keeps.bind keeps_get fun s => ?_
  split
  · exact keeps_pure _
  · split
    · exact Keeps.bind (keeps_raising _) fun _ => answers_schedule _ _ _ _
    · exact Keeps.forM _ fun _ _ => answers_handleInputEvent _ _

/-- What is handled, if it is no reload, acknowledges nothing. -/
theorem answers_handle (w : World) {message : CoreMessage}
    (keeping : ∀ reload, message ≠ .reload reload) : Keeps SameAnswers (handle w message) := by
  cases message with
  | inputEvent message => exact answers_handleInputEvent w message
  | unlatchRequest message => exact answers_handleUnlatch w message
  | pushResult message => exact answers_handlePushResult w message
  | reload message => exact absurd rfl (keeping message)
  | reconcileOutput message => exact answers_handleReconcileRetry w message
  | catchUp message => exact answers_handleCatchUpRetry w message
  | pollHealth =>
    exact handlePollHealth_keeps (fun _ _ _ => rfl) (fun _ _ same => same)
      (answers_schedule _ _ _ _)
  | shutdown => exact answers_modify fun _ => rfl

theorem answers_tick (w : World) : Keeps SameAnswers (tick w) := by
  refine Keeps.bind (answers_modify fun _ => rfl) fun _ => ?_
  refine Keeps.bind ?_ fun _ => Keeps.bind (answers_modify fun s => ?_) fun _ =>
    answers_modify fun s => ?_
  · refine Keeps.bind keeps_get fun s => Keeps.bind (answers_modify fun _ => rfl) fun _ => ?_
    exact Keeps.forM _ fun timer _ => answers_handle w (scheduled_own timer).2
  · rw [(dispatchDuePushes_spec w.now s).only]
  · rw [maybeWriteLastSeen_only]

theorem answers_foldlM {α β : Type} {f : β → α → Core β} (each : ∀ b a, Keeps SameAnswers (f b a))
    (as : List α) (b : β) : Keeps SameAnswers (as.foldlM f b) := by
  induction as generalizing b with
  | nil => exact keeps_pure b
  | cons a as ih =>
    rw [List.foldlM_cons]
    exact Keeps.bind (each b a) ih

theorem answers_collectDowntimeEvents (w : World) (since : Option Time) :
    Keeps SameAnswers (collectDowntimeEvents w since) := by
  refine Keeps.bind keeps_get fun s => ?_
  refine answers_foldlM (fun collected name => ?_) _ _
  unfold askDowntime
  split
  · exact keeps_pure _
  · split
    · exact keeps_pure _
    · exact Keeps.bind (answers_schedule _ _ _ _) fun _ => keeps_pure _

theorem answers_collectRemoteStates (w : World) : Keeps SameAnswers (collectRemoteStates w) := by
  refine Keeps.bind keeps_get fun s => ?_
  refine answers_foldlM (fun collected name => ?_) _ _
  unfold askRemote
  split
  · exact keeps_pure _
  · simp only
    split
    · exact Keeps.bind (answers_schedule _ _ _ _) fun _ => keeps_pure _
    · exact keeps_pure _

theorem answers_reconcile (w : World) : Keeps SameAnswers (reconcile w) := by
  refine Keeps.bind keeps_get fun s => ?_
  refine Keeps.bind (answers_collectDowntimeEvents w _) fun downtime => ?_
  refine Keeps.bind (answers_collectRemoteStates w) fun reports => ?_
  refine Keeps.bind (answers_transaction ?_) fun _ => Keeps.bind (answers_modify fun _ => rfl)
    fun _ => Keeps.bind (answers_modify fun s => ?_) fun _ => answers_modify fun _ => rfl
  · refine Keeps.bind (answers_modify fun _ => rfl) fun _ => Keeps.bind keeps_get fun t => ?_
    refine Keeps.bind (Keeps.forM _ fun rule _ => ?_) fun _ =>
      Keeps.bind (answers_modify fun s => ?_) fun _ => answers_modify fun _ => rfl
    · refine Keeps.bind keeps_get fun _ => Keeps.bind keeps_get fun _ => ?_
      simp only
      split
      · exact Keeps.bind (answers_writeLatch _ _) fun _ => answers_modify fun _ => rfl
      · exact answers_modify fun _ => rfl
    · rw [(forceOutputs_spec w.now _ s).1.eq]
  · rw [(dispatchDuePushes_spec w.now s).only]

theorem reloaded_acknowledged (now : Time) (message : ReloadMessage) (s : Engine) :
    (reloaded now message s).acknowledged = message.acknowledged :: s.acknowledged := by
  rw [reloaded_only]
  cases plugins : message.plugins <;> simp only [adopt, plugins] <;> rfl

end Engine

end NotiMapper
