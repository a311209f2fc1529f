import NotiMapper.Engine.Automaton
import NotiMapper.Engine.Backoff
import NotiMapper.Engine.Retry

/-! Whether the core gets through a message. What a handler raises ends the thread, so this
is whether the daemon goes on. There are two things to stumble over: the row a latch refers
to may be gone, and the moment of a retry may not exist. -/
namespace NotiMapper

open Python Effect

namespace Engine

/-- Every rule of the graph has its row. -/
def Grounded (s : Engine) : Prop := ∀ r ∈ s.graph.entries, r.name ∈ s.store.rules

/-- The moments that handling the message asks for exist. -/
def Bearable (w : World) (s : Engine) : CoreMessage → Prop
  | .pushResult message => message.succeeded = false →
      ∃ delay, backoffSeconds s.settings (attemptsOf s message.instanceName) = .ok delay ∧
        ∃ dueAt, addSeconds w.now delay = .ok dueAt
  | .reconcileOutput message =>
      (Retry.output message.instanceName).Unanswered w s → Affordable w message.attempt
  | .catchUp message =>
      (Retry.input message.instanceName message.since).Unanswered w s →
        Affordable w message.attempt
  | .pollHealth => ∃ dueAt, addSeconds w.now healthPollIntervalSeconds = .ok dueAt
  | .inputEvent _ | .unlatchRequest _ | .reload _ | .shutdown => True

/- The handlers that only have rows to stumble over. -/

section Returning

variable {known : Table RuleRow}

theorem applyReconcileOutcome_returns {w : World} {n : Name} (row : n ∈ known)
    (outcome : LatchRecord → ReconcileOutcome) (extraTriggers : Nat) :
    Returns (fun s : Engine => s.store.rules = known) (do
      let persisted := (← get).latch n
      applyReconcileOutcome w n (outcome persisted) extraTriggers) := by
  refine Returns.bind returns_get fun s => Returns.bind returns_get fun t => ?_
  simp only
  split
  · exact Returns.bind (writeLatch_returns row _) fun _ => appendEvent_returns _ _ _ _ _
  · exact appendEvent_returns _ _ _ _ _

end Returning

variable {w : World} {s : Engine}

theorem Grounded.moved {f : Rule → LatchRecord → LatchRecord} {t : Engine} (covered : Grounded s)
    (moved : Moves f s t) : Grounded t := by
  rw [Grounded, moved.graph, moved.known]
  exact covered

theorem forM_events_returns (name : Name) (events : List ObservedEvent) (covered : Grounded s) :
    ∃ t, events.forM (fun event => handleInputEvent w ⟨name, event⟩) s = .ok ⟨⟩ t := by
  induction events generalizing s with
  | nil => exact ⟨s, rfl⟩
  | cons event events ih =>
    obtain ⟨m, first⟩ := handleInputEvent_returns w ⟨name, event⟩ s covered
    obtain ⟨t, rest⟩ := ih (covered.moved (handleInputEvent_moves first))
    exact ⟨t, forM_cons_ok.mpr ⟨m, first, rest⟩⟩

theorem handleReconcileRetry_returns {message : ReconcileOutputMessage} (covered : Grounded s)
    (answered : ¬ (Retry.output message.instanceName).Unanswered w s) :
    ∃ t, handleReconcileRetry w message s = .ok ⟨⟩ t := by
  by_cases live : message.instanceName ∈ s.plugins.outputs
  · have known : (queryOutput w message.instanceName).belief ≠ .unknown :=
      fun unknown => answered ⟨live, unknown⟩
    simp only [handleReconcileRetry, get_bind_ok, live, not_true_eq_false, if_false, known]
    refine Returns.from_state (P := fun u => u.store.rules = s.store.rules) ?_ rfl
    refine Returns.restoring (Returns.bind (Returns.forM _ fun r listed => ?_) fun _ =>
      syncOutputs_returns _)
    exact applyReconcileOutcome_returns (covered r (RuleGraph.mem_rulesForOutput.mp listed).1)
      (fun persisted => resolveRule w.now persisted none [queryOutput w message.instanceName]) 0
  · refine ⟨s, ?_⟩
    simp only [handleReconcileRetry, get_bind_ok, live, not_false_eq_true, if_true, pure_ok,
      and_self]

theorem handleCatchUpRetry_returns {message : CatchUpMessage} (covered : Grounded s)
    (answered : ¬ (Retry.input message.instanceName message.since).Unanswered w s) :
    ∃ t, handleCatchUpRetry w message s = .ok ⟨⟩ t := by
  simp only [handleCatchUpRetry, get_bind_ok]
  by_cases live : message.instanceName ∈ s.plugins.inputs
  · simp only [live, not_true_eq_false, if_false]
    cases answer : w.catchUp message.instanceName message.since with
    | error failure => exact absurd ⟨live, failure, answer⟩ answered
    | ok events => exact forM_events_returns message.instanceName events covered
  · refine ⟨s, ?_⟩
    simp only [live, not_false_eq_true, if_true, pure_ok, and_self]

/- Those that ask for a moment. -/

/-- Only a retry that is left unanswered asks for one. -/
theorem retry_returns_iff {retry : Retry} {attempt : Nat}
    (answered : ¬ retry.Unanswered w s → ∃ t, handle w (retry.message attempt) s = .ok ⟨⟩ t) :
    (∃ t, handle w (retry.message attempt) s = .ok ⟨⟩ t) ↔
      (retry.Unanswered w s → Affordable w attempt) := by
  constructor
  · rintro ⟨t, ran⟩ unanswered
    exact ((handle_unanswered_iff unanswered).mp ran).1
  · intro bearable
    by_cases unanswered : retry.Unanswered w s
    · exact ⟨_, (handle_unanswered_iff unanswered).mpr ⟨bearable unanswered, rfl⟩⟩
    · exact answered unanswered

theorem handlePollHealth_returns_iff : (∃ t, handlePollHealth w s = .ok ⟨⟩ t) ↔
    ∃ dueAt, addSeconds w.now healthPollIntervalSeconds = .ok dueAt := by
  have recorded : ∃ m, transaction (do
      (← get).plugins.inputs.keys.forM fun name => modify (recordHealth w .input name)
      (← get).plugins.outputs.keys.forM fun name => modify (recordHealth w .output name)) s =
        .ok ⟨⟩ m := by
    refine Returns.from_state (P := fun _ => True) (Returns.restoring ?_) trivial
    have each : ∀ direction name, Returns (fun _ : Engine => True)
        (modify (recordHealth w direction name) : Core Unit) :=
      fun direction name => returns_modify fun _ _ => trivial
    exact Returns.bind returns_get fun _ => Returns.bind (Returns.forM _ fun name _ =>
      each .input name) fun _ => Returns.bind returns_get fun _ => Returns.forM _ fun name _ =>
        each .output name
  obtain ⟨m, recorded⟩ := recorded
  constructor
  · rintro ⟨t, ran⟩
    obtain ⟨_, _, _, scheduled⟩ := bind_ok.mp ran
    obtain ⟨dueAt, known, _⟩ := raising_bind_ok.mp scheduled
    exact ⟨dueAt, known⟩
  · rintro ⟨dueAt, known⟩
    exact ⟨_, bind_ok.mpr ⟨⟨⟩, m, recorded, raising_bind_ok.mpr ⟨dueAt, known, modify_ok.mpr rfl⟩⟩⟩

theorem handlePushResult_returns_iff {message : PushResultMessage} :
    (∃ t, handle w (.pushResult message) s = .ok ⟨⟩ t) ↔ Bearable w s (.pushResult message) := by
  cases succeeded : message.succeeded with
  | false =>
    have failed := @failure_returns_iff s w message succeeded
    simp only [advance_handle] at failed
    exact failed.trans ⟨fun bearable _ => bearable, fun bearable => bearable succeeded⟩
  | true =>
    refine iff_of_true ?_ fun failed => absurd (succeeded.symm.trans failed) (by decide)
    refine Returns.from_state (P := fun _ => True) ?_ trivial
    refine Returns.bind (returns_modify fun _ _ => trivial) fun _ => Returns.restoring ?_
    rw [if_pos succeeded]
    exact Returns.bind (returns_modify fun _ _ => trivial) fun _ =>
      returns_modify fun _ _ => trivial

/-- With its rows in place, the core gets through a message exactly if the message is bearable. -/
theorem handle_returns_iff (covered : Grounded s) (message : CoreMessage) :
    (∃ t, handle w message s = .ok ⟨⟩ t) ↔ Bearable w s message := by
  cases message with
  | inputEvent message => exact iff_of_true (handleInputEvent_returns w message s covered) trivial
  | unlatchRequest message => exact iff_of_true (handleUnlatch_returns w message s covered) trivial
  | pushResult message => exact handlePushResult_returns_iff
  | reload message => exact iff_of_true ⟨_, handleReload_ok.mpr rfl⟩ trivial
  | pollHealth => exact handlePollHealth_returns_iff
  | shutdown => exact iff_of_true ⟨_, rfl⟩ trivial
  | reconcileOutput message =>
    exact @retry_returns_iff w s (.output message.instanceName) message.attempt
      fun answered => handleReconcileRetry_returns covered answered
  | catchUp message =>
    exact @retry_returns_iff w s (.input message.instanceName message.since) message.attempt
      fun answered => handleCatchUpRetry_returns covered answered

/-- What a timer's message asks for depends on nothing that handling another one changes. -/
theorem bearable_scheduled {t : Engine} {message : CoreMessage} (plugins : t.plugins = s.plugins)
    (scheduled : message.SelfScheduled) : Bearable w t message ↔ Bearable w s message := by
  cases message with
  | reconcileOutput message => simp only [Bearable, Retry.Unanswered, plugins]
  | catchUp message => simp only [Bearable, Retry.Unanswered, plugins]
  | pollHealth => exact Iff.rfl
  | _ => exact absurd scheduled id

theorem fire_returns_iff (due : List ScheduledMessage) (covered : Grounded s) :
    (∃ t, due.forM (fun timer => handle w timer.message) s = .ok ⟨⟩ t) ↔
      ∀ timer ∈ due, Bearable w s timer.message := by
  induction due generalizing s with
  | nil => exact iff_of_true ⟨s, rfl⟩ (List.forall_mem_nil _)
  | cons timer due ih =>
    rw [List.forall_mem_cons, ← handle_returns_iff covered]
    have later : ∀ {m}, handle w timer.message s = .ok ⟨⟩ m →
        ((∃ t, due.forM (fun timer => handle w timer.message) m = .ok ⟨⟩ t) ↔
          ∀ timer ∈ due, Bearable w s timer.message) := by
      intro m first
      have moved := handle_moves (scheduled_own timer).1 (scheduled_own timer).2 first
      rw [ih (covered.moved moved)]
      exact forall₂_congr fun timer _ => bearable_scheduled moved.plugins timer.scheduled
    constructor
    · rintro ⟨t, ran⟩
      obtain ⟨m, first, rest⟩ := forM_cons_ok.mp ran
      exact ⟨⟨m, first⟩, (later first).mp ⟨t, rest⟩⟩
    · rintro ⟨⟨m, first⟩, bearable⟩
      obtain ⟨t, rest⟩ := (later first).mpr bearable
      exact ⟨t, forM_cons_ok.mpr ⟨m, first, rest⟩⟩

/-- What a step of the loop asks for. -/
def StepBearable (s : Engine) : Step → Prop
  | .handle w message => Bearable w s message
  | .tick w => ∀ timer ∈ s.timers, timer.dueAt ≤ w.now → Bearable w s timer.message

theorem advance_returns_iff (covered : Grounded s) (step : Step) :
    (∃ t, advance s step = some t) ↔ StepBearable s step := by
  cases step with
  | handle w message =>
    simp only [advance_handle]
    exact handle_returns_iff covered message
  | tick w =>
    simp only [advance_tick]
    let begun : Engine := { s with
      heartbeat := some w.now
      timers := s.timers.filter fun timer => ¬ timer.dueAt ≤ w.now }
    have fired := @fire_returns_iff w begun (s.timers.filter (·.dueAt ≤ w.now)) covered
    have same := fun timer : ScheduledMessage =>
      @bearable_scheduled w s begun timer.message rfl timer.scheduled
    have due : (∀ timer ∈ s.timers.filter (·.dueAt ≤ w.now), Bearable w s timer.message) ↔
        StepBearable s (.tick w) := by
      simp only [List.mem_filter, decide_eq_true_eq, and_imp, StepBearable]
    rw [← due]
    refine Iff.trans ?_ (fired.trans (forall₂_congr fun timer _ => same timer))
    constructor
    · rintro ⟨t, ran⟩
      obtain ⟨m, fires, _⟩ := tick_ok ran
      simp only [fireDueTimers, get_bind_ok, modify_bind_ok] at fires
      exact ⟨m, fires⟩
    · rintro ⟨m, fires⟩
      refine ⟨maybeWriteLastSeen w.now (m.dispatchDuePushes w.now), ?_⟩
      simp only [tick, modify_bind_ok]
      refine bind_ok.mpr ⟨⟨⟩, m, ?_, ?_⟩
      · simp only [fireDueTimers, get_bind_ok, modify_bind_ok]
        exact fires
      · simp only [modify_bind_ok, modify_ok]

/- A row that is gone. -/

theorem forM_applyTrigger_covered {message : InputEventMessage} {rules : List Rule} {t : Engine}
    (ran : rules.forM (fun rule => applyTrigger w message rule.name) s = .ok ⟨⟩ t) :
    ∀ rule ∈ rules, rule.name ∈ s.store.rules := by
  induction rules generalizing s with
  | nil => exact List.forall_mem_nil _
  | cons rule rules ih =>
    obtain ⟨m, first, rest⟩ := forM_cons_ok.mp ran
    have wrote : rule.name ∈ s.store.rules ∧ m.store.rules = s.store.rules := by
      simp only [applyTrigger, get_bind_ok] at first
      split at first <;>
      · obtain ⟨_, u, written, logged⟩ := bind_ok.mp first
        simp only [writeLatch, get_bind_ok, raising_bind_ok, modify_ok, Store.writeLatch_ok] at written
        obtain ⟨store, ⟨known, rfl⟩, rfl⟩ := written
        rw [modify_ok.mp logged]
        exact ⟨known, rfl⟩
    have later := ih rest
    rw [wrote.2] at later
    exact List.forall_mem_cons.mpr ⟨wrote.1, later⟩

/-- An event is only got through if each of its rules has its row. -/
theorem advance_event_covered {message : InputEventMessage} {t : Engine}
    (stepped : advance s (.handle w (.inputEvent message)) = some t) :
    ∀ rule ∈ s.graph.rulesForInput message.instanceName, rule.name ∈ s.store.rules := by
  have ran := advance_handle.mp stepped
  simp only [handle, handleInputEvent, get_bind_ok, transaction, restoring_ok, modify_bind_ok] at ran
  split at ran
  · rename_i none
    rw [List.isEmpty_iff.mp none]
    exact List.forall_mem_nil _
  · obtain ⟨_, m, fired, _⟩ := bind_ok.mp ran
    have rows := forM_applyTrigger_covered fired
    exact rows

end Engine

end NotiMapper
