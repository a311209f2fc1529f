import NotiMapper.Engine.Retry

/-! What a handler does to the timers: it may append some that are due later than now, and
takes none away. The settings it leaves alone. Both hold also when it raises. -/
namespace NotiMapper

open Python Effect

namespace Engine

def Timed (now : Time) (s t : Engine) : Prop :=
  t.settings = s.settings ∧
  ∃ later, t.timers = s.timers ++ later ∧ ∀ timer ∈ later, now < timer.dueAt

instance (now : Time) : IsPreorder Engine (Timed now) where
  refl s := ⟨rfl, [], (List.append_nil _).symm, fun _ member => nomatch member⟩
  trans s m t := by
    rintro ⟨same, first, grown, later⟩ ⟨same', second, grown', later'⟩
    refine ⟨same'.trans same, first ++ second, ?_, ?_⟩
    · rw [grown', grown, List.append_assoc]
    · intro timer member
      rcases List.mem_append.mp member with member | member
      · exact later timer member
      · exact later' timer member

theorem timed_aside {now : Time} {s t : Engine} (settings : t.settings = s.settings)
    (timers : t.timers = s.timers) : Timed now s t :=
  ⟨settings, [], by rw [timers, List.append_nil], fun _ member => nomatch member⟩

section Handlers

variable {now : Time} {w : World}

theorem aside_timed {f : Engine → Engine} (settings : ∀ s, (f s).settings = s.settings)
    (timers : ∀ s, (f s).timers = s.timers) : Keeps (Timed now) (modify f : Core Unit) :=
  keeps_modify fun s => timed_aside (settings s) (timers s)

theorem transaction_timed {body : Core Unit} (kept : Keeps (Timed now) body) :
    Keeps (Timed now) (transaction body) :=
  Keeps.restoring kept fun _ _ h => h

theorem appendEvent_timed (at_ : Time) (kind : EventKind) (i r : Option Name) (detail : String) :
    Keeps (Timed now) (modify (appendEvent at_ kind i r detail) : Core Unit) :=
  aside_timed (fun _ => rfl) fun _ => rfl

theorem syncOutputs_timed (names : Engine → List Name) :
    Keeps (Timed now) (modify fun s => s.syncOutputs w.now (names s) : Core Unit) := by
  refine aside_timed (fun s => ?_) fun s => ?_ <;> rw [(syncOutputs_only w.now (names s) s).eq]

theorem writeLatch_timed (n : Name) (record : LatchRecord) :
    Keeps (Timed now) (writeLatch n record) :=
  Keeps.bind keeps_get fun _ => Keeps.bind (keeps_raising _) fun _ =>
    aside_timed (fun _ => rfl) fun _ => rfl

/-- A message that is scheduled for later than now. -/
theorem schedule_timed {delay : PyFloat} (message : CoreMessage)
    (scheduled : message.SelfScheduled)
    (later : ∀ dueAt, addSeconds w.now delay = .ok dueAt → w.now < dueAt) :
    Keeps (Timed w.now) (schedule w delay message scheduled) := by
  intro s
  have run : schedule w delay message scheduled s = (raising (addSeconds w.now delay) >>=
    fun dueAt => modify fun s => { s with timers := s.timers ++ [⟨dueAt, message, scheduled⟩] } :
      Core Unit) s := rfl
  rw [final, run]
  cases due : addSeconds w.now delay with
  | error e => exact refl_of _ s
  | ok dueAt =>
    refine ⟨rfl, [⟨dueAt, message, scheduled⟩], rfl, fun timer member => ?_⟩
    rw [List.mem_singleton.mp member]
    exact later dueAt due

theorem retry_later {attempt : Nat} {delay : PyFloat} (known : retryDelay attempt = .ok delay)
    {dueAt : Time} (added : addSeconds w.now delay = .ok dueAt) : w.now < dueAt := by
  by_cases small : attempt < 1024
  · cases (retryDelay_ok small).symm.trans known
    rw [addSeconds_retry] at added
    split at added
    · cases added
      exact Nat.lt_add_of_pos_right (Nat.mul_pos (retrySeconds_pos attempt) (by decide))
    · cases added
  · cases (retryDelay_overflow small).symm.trans known

theorem healthPoll_later {dueAt : Time}
    (added : addSeconds w.now healthPollIntervalSeconds = .ok dueAt) : w.now < dueAt := by
  rw [show healthPollIntervalSeconds = .finite (30 : Nat) from rfl,
    addSeconds_whole w.now 30 (by decide)] at added
  split at added
  · cases added
    exact Nat.lt_add_of_pos_right (by decide)
  · cases added

theorem applyTrigger_timed (message : InputEventMessage) (n : Name) :
    Keeps (Timed now) (applyTrigger w message n) := by
  refine Keeps.bind keeps_get fun s => ?_
  simp only
  split
  · exact Keeps.bind (writeLatch_timed _ _) fun _ => appendEvent_timed _ _ _ _ _
  · exact Keeps.bind (writeLatch_timed _ _) fun _ => appendEvent_timed _ _ _ _ _

theorem handleInputEvent_timed (message : InputEventMessage) :
    Keeps (Timed now) (handleInputEvent w message) := by
  refine Keeps.bind keeps_get fun s => transaction_timed ?_
  refine Keeps.bind (appendEvent_timed _ _ _ _ _) fun _ => ?_
  split
  · exact keeps_pure _
  · exact Keeps.bind (Keeps.forM _ fun _ _ => applyTrigger_timed _ _) fun _ => syncOutputs_timed _

theorem handleUnlatch_timed (message : UnlatchRequestMessage) :
    Keeps (Timed now) (handleUnlatch w message) := by
  refine Keeps.bind keeps_get fun s => transaction_timed ?_
  split
  · exact appendEvent_timed _ _ _ _ _
  · refine Keeps.bind (Keeps.forM _ fun r _ => ?_) fun _ => syncOutputs_timed _
    exact Keeps.bind keeps_get fun s => Keeps.bind (writeLatch_timed _ _) fun _ =>
      appendEvent_timed _ _ _ _ _

theorem handlePushResult_timed (message : PushResultMessage) :
    Keeps (Timed now) (handlePushResult w message) := by
  refine Keeps.bind (aside_timed (fun _ => rfl) fun _ => rfl) fun _ => transaction_timed ?_
  have synced := @syncOutputs_timed now w fun _ => [message.instanceName]
  split
  · exact Keeps.bind (aside_timed (fun _ => rfl) fun _ => rfl) fun _ => synced
  · refine Keeps.bind (Keeps.bind keeps_get fun s => ?_) fun _ => synced
    refine Keeps.bind (keeps_raising _) fun _ => Keeps.bind (keeps_raising _) fun _ => ?_
    exact Keeps.bind (aside_timed (fun _ => rfl) fun _ => rfl) fun _ => appendEvent_timed _ _ _ _ _

theorem adopt_timed (message : ReloadMessage) (s : Engine) : Timed now s (adopt message s) := by
  unfold adopt
  cases message.plugins <;> exact timed_aside rfl rfl

theorem handleReload_timed (message : ReloadMessage) :
    Keeps (Timed now) (handleReload w message) := by
  refine Keeps.bind keeps_get fun s => Keeps.bind (keeps_modify (adopt_timed message)) fun _ => ?_
  refine Keeps.bind (transaction_timed ?_) fun _ => aside_timed (fun _ => rfl) fun _ => rfl
  exact Keeps.bind (appendEvent_timed _ _ _ _ _) fun _ => syncOutputs_timed _

theorem handleReconcileRetry_timed (message : ReconcileOutputMessage) :
    Keeps (Timed w.now) (handleReconcileRetry w message) := by
  refine Keeps.bind keeps_get fun s => ?_
  split
  · exact keeps_pure _
  · simp only
    split
    · cases delay : retryDelay message.attempt with
      | error e => exact fun s => refl_of _ s
      | ok delay' => exact schedule_timed _ _ fun dueAt added => retry_later delay added
    · refine Keeps.bind keeps_get fun s => transaction_timed ?_
      refine Keeps.bind (Keeps.forM _ fun r _ => ?_) fun _ => syncOutputs_timed _
      refine Keeps.bind keeps_get fun s => Keeps.bind keeps_get fun s => ?_
      simp only
      split
      · exact Keeps.bind (writeLatch_timed _ _) fun _ => appendEvent_timed _ _ _ _ _
      · exact appendEvent_timed _ _ _ _ _

theorem handleCatchUpRetry_timed (message : CatchUpMessage) :
    Keeps (Timed w.now) (handleCatchUpRetry w message) := by
  refine Keeps.bind keeps_get fun s => ?_
  split
  · exact keeps_pure _
  · split
    · cases delay : retryDelay message.attempt with
      | error e => exact fun s => refl_of _ s
      | ok delay' => exact schedule_timed _ _ fun dueAt added => retry_later delay added
    · exact Keeps.forM _ fun _ _ => handleInputEvent_timed _

theorem handlePollHealth_timed : Keeps (Timed w.now) (handlePollHealth w) :=
  handlePollHealth_keeps (fun _ _ _ => timed_aside rfl rfl) (fun _ _ h => h)
    (schedule_timed _ _ fun _ => healthPoll_later)

theorem handle_timed (message : CoreMessage) : Keeps (Timed w.now) (handle w message) := by
  cases message with
  | inputEvent message => exact handleInputEvent_timed message
  | unlatchRequest message => exact handleUnlatch_timed message
  | pushResult message => exact handlePushResult_timed message
  | reload message => exact handleReload_timed message
  | reconcileOutput message => exact handleReconcileRetry_timed message
  | catchUp message => exact handleCatchUpRetry_timed message
  | pollHealth => exact handlePollHealth_timed
  | shutdown => exact aside_timed (fun _ => rfl) fun _ => rfl

end Handlers

/-- When the due timers have fired, none that is left is due. -/
theorem fireDueTimers_later {w : World} {s t : Engine} (ran : fireDueTimers w s = .ok ⟨⟩ t) :
    t.settings = s.settings ∧ ∀ timer ∈ t.timers, w.now < timer.dueAt := by
  simp only [fireDueTimers, get_bind_ok, modify_bind_ok] at ran
  have fired := (Keeps.forM _ fun timer _ => handle_timed timer.message).leads _ _ _ ran
  obtain ⟨settings, later, grown, beyond⟩ := fired
  refine ⟨settings, fun timer member => ?_⟩
  rw [grown] at member
  rcases List.mem_append.mp member with kept | fresh
  · simpa using (List.mem_filter.mp kept).2
  · exact beyond timer fresh

theorem tick_later {w : World} {s t : Engine} (ran : tick w s = .ok ⟨⟩ t) :
    t.settings = s.settings ∧ ∀ timer ∈ t.timers, w.now < timer.dueAt := by
  obtain ⟨m, fired, rfl⟩ := tick_ok ran
  have left := fireDueTimers_later fired
  rw [maybeWriteLastSeen_only, (dispatchDuePushes_spec w.now m).only]
  exact left

theorem advance_settings {s t : Engine} {step : Step} (stepped : advance s step = some t) :
    t.settings = s.settings := by
  cases step with
  | handle w message => exact ((handle_timed message).leads _ _ _ (advance_handle.mp stepped)).1
  | tick w => exact (tick_later (advance_tick.mp stepped)).1

end Engine

end NotiMapper
