import NotiMapper.Library.Lockstep
import NotiMapper.Library.Transition
import NotiMapper.Engine.Backoff
import NotiMapper.Engine.Handling
import NotiMapper.Engine.Overlooking

/-! A reloaded engine beside one that is newly constructed over what it has: the store, the
in-flight set, the new plugins and the graph of the new configuration. What both go on to do
with the messages of the plugins is the same, but for what the daemon settings decide; a
reload does not take those over. -/
namespace NotiMapper

open Python Effect Engine

/-- What the handlers of plugin messages do not read, and the settings. -/
structure Aside where
  settings : DaemonSettings
  timers : List ScheduledMessage
  stopping : Bool
  ready : Bool
  lastSeenWrittenAt : Option Time
  heartbeat : Option Time
  acknowledged : List Nat
  instanceHealth : Table HealthRecord
  daemonState : Table Time
  eventLog : EventLog

namespace Engine

def within (s : Engine) (a : Aside) : Engine :=
  { s with
    settings := a.settings
    timers := a.timers
    stopping := a.stopping
    ready := a.ready
    lastSeenWrittenAt := a.lastSeenWrittenAt
    heartbeat := a.heartbeat
    acknowledged := a.acknowledged
    store := { s.store with
      instanceHealth := a.instanceHealth
      daemonState := a.daemonState
      eventLog := a.eventLog } }

/-- When a push that failed for the `attempts`th time is tried again. -/
def nextAttemptAt (settings : DaemonSettings) (now : Time) (attempts : Nat) :
    Except PyError Time := do
  let delay ← backoffSeconds settings attempts
  addSeconds now delay

/-- The settings lead to the same retries and to event logs of the same length. -/
def SameEffect (old new : DaemonSettings) : Prop :=
  old.eventLogMaxRows = new.eventLogMaxRows ∧
  ∀ now attempts, nextAttemptAt old now (attempts + 1) = nextAttemptAt new now (attempts + 1)

/-- `Engine(...)` over the store, the in-flight set and the queue of `s`. -/
def constructed (now : Time) (configuration : Configuration) (plugins : PluginSet) (s : Engine) :
    Engine :=
  { Engine.init now s.store (RuleGraph.fromConfiguration configuration) plugins
      ⟨plugins.outputs, s.dispatcher.queue⟩ configuration.daemon with
    inFlight := s.inFlight }

/-- What plugins ask of the core, and the part of a tick that answers it. -/
inductive Further
  | inputEvent (w : World) (message : InputEventMessage)
  | unlatchRequest (w : World) (message : UnlatchRequestMessage)
  | pushResult (w : World) (message : PushResultMessage)
  | dispatchDuePushes (now : Time)

def Further.perform : Further → Core Unit
  | .inputEvent w message => Engine.handle w (.inputEvent message)
  | .unlatchRequest w message => Engine.handle w (.unlatchRequest message)
  | .pushResult w message => Engine.handle w (.pushResult message)
  | .dispatchDuePushes now => modify (Engine.dispatchDuePushes now)

/-- The same latches, pushes, output states and dispatches, and as long an event log. -/
structure Matches (s t : Engine) : Prop where
  latches : s.latches = t.latches
  stored : s.store.latches = t.store.latches
  pendingPushes : s.store.pendingPushes = t.store.pendingPushes
  outputState : s.store.outputState = t.store.outputState
  dispatched : s.dispatcher.queue = t.dispatcher.queue
  inFlight : s.inFlight = t.inFlight
  logged : s.store.eventLog.rows.length = t.store.eventLog.rows.length

/-- Reachable from a newly constructed engine. -/
def Reachable (s : Engine) : Prop :=
  ∃ now store graph plugins dispatcher settings steps,
    Transition.run advance (Engine.init now store graph plugins dispatcher settings) steps = some s

/-- A reload from the settings `old` to `new` gives an engine like a newly constructed one. -/
def ReloadsLikeNew (old new : DaemonSettings) : Prop :=
  ∀ s, Reachable s → s.settings = old → ∀ w message plugins, message.configuration.daemon = new →
    message.plugins = some plugins → ∀ t, handleReload w message s = .ok ⟨⟩ t →
    ∀ now (further : List Further), Alike Matches (further.forM Further.perform t)
      (further.forM Further.perform (constructed now message.configuration plugins t))

section Beside

/-- Two engines that differ only in what is aside, and whose settings have the same effect. -/
structure Beside (s t : Engine) : Prop where
  within : ∃ a : Aside, t = s.within a
  identifiers : t.store.eventLog.rows.map (·.identifier) = s.store.eventLog.rows.map (·.identifier)
  sequence : t.store.eventLog.sequence = s.store.eventLog.sequence
  settings : SameEffect s.settings t.settings

variable {s t : Engine}

theorem Beside.matches (beside : Beside s t) : Matches s t := by
  obtain ⟨⟨a, rfl⟩, identifiers, -, -⟩ := beside
  exact ⟨rfl, rfl, rfl, rfl, rfl, rfl, by simpa using (congrArg List.length identifiers).symm⟩

/-- A change that does not touch what is aside, and does not read it either. -/
theorem beside_modify {f : Engine → Engine} (commutes : ∀ s a, f (s.within a) = (f s).within a)
    (log : ∀ s, (f s).store.eventLog = s.store.eventLog)
    (settings : ∀ s, (f s).settings = s.settings) : Respects Beside (modify f : Core Unit) := by
  refine respects_modify ?_
  rintro s t ⟨⟨a, rfl⟩, identifiers, sequence, same⟩
  rw [commutes]
  refine ⟨⟨a, rfl⟩, ?_, ?_, ?_⟩
  · rw [log]
    exact identifiers
  · rw [log]
    exact sequence
  · rw [settings]
    exact same

theorem appendEvent_identifiers (now : Time) (kind : EventKind) (i r : Option Name)
    (detail : String) (s : Engine) :
    (appendEvent now kind i r detail s).store.eventLog.rows.map (·.identifier) =
      (s.store.eventLog.rows.map (·.identifier) ++ [s.store.eventLog.sequence + 1]).filter
        (s.store.eventLog.sequence + 1 - s.settings.eventLogMaxRows < ·) := by
  have last : [s.store.eventLog.sequence + 1] =
    [EventLogEntry.mk (s.store.eventLog.sequence + 1) now kind i r detail].map (·.identifier) := rfl
  rw [last, ← List.map_append, List.filter_map]
  rfl

/-- The entries may say different things. -/
theorem Beside.appended (beside : Beside s t) (now : Time) (kind : EventKind) (i r : Option Name)
    (detail detail' : String) :
    Beside (appendEvent now kind i r detail s) (appendEvent now kind i r detail' t) := by
  obtain ⟨⟨a, rfl⟩, identifiers, sequence, same⟩ := beside
  refine ⟨⟨{ a with eventLog := (appendEvent now kind i r detail' (s.within a)).store.eventLog }, rfl⟩,
    ?_, congrArg (· + 1) sequence, same⟩
  rw [appendEvent_identifiers, appendEvent_identifiers, identifiers, sequence, same.1]

theorem beside_appendEvent (now : Time) (kind : EventKind) (i r : Option Name) (detail : String) :
    Respects Beside (modify (appendEvent now kind i r detail) : Core Unit) :=
  respects_modify fun _ _ beside => beside.appended now kind i r detail detail

theorem beside_transaction {body : Core Unit} (respects : Respects Beside body) :
    Respects Beside (transaction body) := by
  refine Respects.restoring respects ?_
  rintro s t s' t' ⟨⟨a, rfl⟩, identifiers, sequence, -⟩ ⟨⟨b, rfl⟩, -, -, same⟩
  refine ⟨⟨{ b with
    instanceHealth := a.instanceHealth
    daemonState := a.daemonState
    eventLog := a.eventLog }, rfl⟩, identifiers, sequence, same⟩

theorem beside_writeLatch (n : Name) (record : LatchRecord) :
    Respects Beside (writeLatch n record) := by
  constructor
  rintro s t ⟨⟨a, rfl⟩, identifiers, sequence, same⟩
  have run (u : Engine) : writeLatch n record u = (raising (u.store.writeLatch n record) >>=
      fun store => modify fun u => { u with store := store, latches := u.latches.insert n record } :
        Core Unit) u := rfl
  rw [run, run]
  by_cases known : n ∈ s.store.rules
  · have left : s.store.writeLatch n record =
      .ok { s.store with latches := s.store.latches.insert n record } := if_pos known
    have right : (s.within a).store.writeLatch n record =
      .ok { (s.within a).store with latches := s.store.latches.insert n record } := if_pos known
    rw [left, right]
    exact .returned ⟨⟨a, rfl⟩, identifiers, sequence, same⟩
  · have left : s.store.writeLatch n record = .error .integrityError := if_neg known
    have right : (s.within a).store.writeLatch n record = .error .integrityError := if_neg known
    rw [left, right]
    exact .raised ⟨⟨a, rfl⟩, identifiers, sequence, same⟩

theorem overlooked_within (a : Aside) : Overlooked fun s => s.within a :=
  ⟨fun _ _ => rfl, fun _ _ => rfl, fun _ _ => rfl, fun _ _ => rfl, fun _ => rfl, fun _ => rfl,
    fun _ _ _ => rfl, fun _ _ _ => rfl, fun _ _ => rfl, fun _ _ => rfl⟩

theorem beside_syncOutputs (now : Time) (names : Engine → List Name)
    (reads : ∀ s a, names (Engine.within s a) = names s) :
    Respects Beside (modify fun s => s.syncOutputs now (names s) : Core Unit) := by
  refine beside_modify (fun s a => ?_) (fun s => ?_) (fun s => ?_)
  · simp only [reads]
    exact (overlooked_within a).syncOutputs now _ s
  · rw [(syncOutputs_only now (names s) s).eq]
  · rw [(syncOutputs_only now (names s) s).eq]

theorem beside_dispatchDuePushes (now : Time) :
    Respects Beside (modify (Engine.dispatchDuePushes now) : Core Unit) := by
  refine beside_modify (fun s a => (overlooked_within a).dispatchDuePushes now s) (fun s => ?_)
    (fun s => ?_)
  · rw [(dispatchDuePushes_spec now s).only]
  · rw [(dispatchDuePushes_spec now s).only]

theorem beside_handleInputEvent (w : World) (message : InputEventMessage) :
    Respects Beside (handleInputEvent w message) := by
  refine respects_get_bind (fun s => ?_) ?_
  · refine beside_transaction (Respects.bind (beside_appendEvent _ _ _ _ _) fun _ => ?_)
    split
    · exact respects_pure _
    · refine Respects.bind (Respects.forM _ fun r => ?_) fun _ =>
        beside_syncOutputs _ _ fun _ _ => rfl
      refine respects_get_bind (fun s => ?_) ?_
      · simp only
        split
        · exact Respects.bind (beside_writeLatch _ _) fun _ => beside_appendEvent _ _ _ _ _
        · exact Respects.bind (beside_writeLatch _ _) fun _ => beside_appendEvent _ _ _ _ _
      · rintro s t ⟨⟨a, rfl⟩, -, -, -⟩
        rfl
  · rintro s t ⟨⟨a, rfl⟩, -, -, -⟩
    rfl

theorem beside_handleUnlatch (w : World) (message : UnlatchRequestMessage) :
    Respects Beside (handleUnlatch w message) := by
  refine respects_get_bind (fun s => beside_transaction ?_) ?_
  · split
    · exact beside_appendEvent _ _ _ _ _
    · refine Respects.bind (Respects.forM _ fun r => ?_) fun _ =>
        beside_syncOutputs _ _ fun _ _ => rfl
      refine respects_get_bind (fun s => ?_) ?_
      · exact Respects.bind (beside_writeLatch _ _) fun _ => beside_appendEvent _ _ _ _ _
      · rintro s t ⟨⟨a, rfl⟩, -, -, -⟩
        rfl
  · rintro s t ⟨⟨a, rfl⟩, -, -, -⟩
    rfl

theorem nextAttemptAt_error {settings : DaemonSettings} {now : Time} {attempts : Nat} {e : PyError} :
    nextAttemptAt settings now attempts = .error e ↔ backoffSeconds settings attempts = .error e ∨
      ∃ delay, backoffSeconds settings attempts = .ok delay ∧ addSeconds now delay = .error e := by
  unfold nextAttemptAt
  generalize backoffSeconds settings attempts = computed
  cases computed <;> simp [bind, Except.bind]

theorem nextAttemptAt_ok {settings : DaemonSettings} {now : Time} {attempts : Nat} {moment : Time} :
    nextAttemptAt settings now attempts = .ok moment ↔
      ∃ delay, backoffSeconds settings attempts = .ok delay ∧ addSeconds now delay = .ok moment := by
  unfold nextAttemptAt
  generalize backoffSeconds settings attempts = computed
  cases computed <;> simp [bind, Except.bind]

/-- A failed push raises where its next attempt cannot be dated. -/
theorem recordPushFailure_error {w : World} {message : PushResultMessage} {e : PyError}
    (late : nextAttemptAt s.settings w.now (attemptsOf s message.instanceName) = .error e) :
    recordPushFailure w message s = .error e s := by
  simp only [recordPushFailure, get_bind_error, raising_bind_error]
  rcases nextAttemptAt_error.mp late with beyond | ⟨delay, known, beyond⟩
  · exact .inl ⟨beyond, trivial⟩
  · exact .inr ⟨delay, known, .inl ⟨beyond, trivial⟩⟩

theorem recordPushFailure_ok {w : World} {message : PushResultMessage} {moment : Time}
    (dated : nextAttemptAt s.settings w.now (attemptsOf s message.instanceName) = .ok moment) :
    ∃ detail, recordPushFailure w message s = .ok ⟨⟩
      (appendEvent w.now .outputPushFailed (some message.instanceName) none detail
        (s.onStore (·.writePendingPush message.instanceName
          ⟨message.pushedValue, attemptsOf s message.instanceName, moment, message.error⟩))) := by
  obtain ⟨delay, known, added⟩ := nextAttemptAt_ok.mp dated
  obtain ⟨t, ran⟩ := recordPushFailure_returns.mpr ⟨delay, known, moment, added⟩
  rw [ran]
  simp only [recordPushFailure, get_bind_ok, raising_bind_ok, modify_bind_ok, modify_ok] at ran
  obtain ⟨delay', known', moment', added', rfl⟩ := ran
  cases Except.ok.inj (known.symm.trans known')
  cases Except.ok.inj (added.symm.trans added')
  exact ⟨_, rfl⟩

theorem attemptsOf_pos (s : Engine) (n : Name) : ∃ k, attemptsOf s n = k + 1 := by
  unfold attemptsOf
  split
  · exact ⟨0, rfl⟩
  · exact ⟨_, rfl⟩

/-- Both sides date the next attempt alike. -/
theorem Beside.nextAttemptAt (beside : Beside s t) (now : Time) (n : Name) :
    nextAttemptAt t.settings now (attemptsOf t n) = nextAttemptAt s.settings now (attemptsOf s n) := by
  obtain ⟨⟨a, rfl⟩, -, -, settings⟩ := beside
  have counted : attemptsOf (s.within a) n = attemptsOf s n := rfl
  rw [counted]
  obtain ⟨k, positive⟩ := attemptsOf_pos s n
  rw [positive]
  exact (settings.2 now k).symm

theorem beside_recordPushFailure (w : World) (message : PushResultMessage) :
    Respects Beside (recordPushFailure w message) := by
  refine ⟨fun s t beside => ?_⟩
  have same := beside.nextAttemptAt w.now message.instanceName
  cases dated : Engine.nextAttemptAt s.settings w.now (attemptsOf s message.instanceName) with
  | error e =>
    rw [dated] at same
    rw [recordPushFailure_error dated, recordPushFailure_error same]
    exact .raised beside
  | ok moment =>
    rw [dated] at same
    obtain ⟨detail, left⟩ := recordPushFailure_ok dated
    obtain ⟨detail', right⟩ := recordPushFailure_ok same
    rw [left, right]
    refine .returned (Beside.appended ?_ _ _ _ _ _ _)
    obtain ⟨⟨a, rfl⟩, identifiers, sequence, settings⟩ := beside
    exact ⟨⟨a, rfl⟩, identifiers, sequence, settings⟩

theorem beside_recordPushSuccess (w : World) (message : PushResultMessage) :
    Respects Beside (modify (recordPushSuccess w message) : Core Unit) := by
  refine respects_modify ?_
  rintro s t ⟨⟨a, rfl⟩, identifiers, sequence, same⟩
  unfold recordPushSuccess
  refine Beside.appended ?_ _ _ _ _ _ _
  exact ⟨⟨a, rfl⟩, identifiers, sequence, same⟩

theorem beside_handlePushResult (w : World) (message : PushResultMessage) :
    Respects Beside (handlePushResult w message) := by
  refine Respects.bind (beside_modify (fun _ _ => rfl) (fun _ => rfl) fun _ => rfl) fun _ => ?_
  refine beside_transaction ?_
  have synced := beside_syncOutputs w.now (fun _ => [message.instanceName]) fun _ _ => rfl
  split
  · exact Respects.bind (beside_recordPushSuccess w message) fun _ => synced
  · exact Respects.bind (beside_recordPushFailure w message) fun _ => synced

theorem beside_further (further : List Further) :
    Respects Beside (further.forM Further.perform) := by
  refine Respects.forM _ fun step => ?_
  cases step with
  | inputEvent w message => exact beside_handleInputEvent w message
  | unlatchRequest w message => exact beside_handleUnlatch w message
  | pushResult w message => exact beside_handlePushResult w message
  | dispatchDuePushes now => exact beside_dispatchDuePushes now

/-- A reload leaves everything as a construction does, but the settings. -/
theorem reloaded_beside {w : World} {message : ReloadMessage} {plugins : PluginSet}
    (given : message.plugins = some plugins)
    (same : SameEffect s.settings message.configuration.daemon)
    (ran : handleReload w message s = .ok ⟨⟩ t) (now : Time) :
    Beside t (constructed now message.configuration plugins t) := by
  rw [handleReload_ok] at ran
  have only := reloaded_only w.now message s
  rw [← ran] at only
  simp only [adopt, given] at only
  have settings : t.settings = s.settings := by
    rw [only]
    rfl
  refine ⟨⟨⟨message.configuration.daemon, [⟨now, .pollHealth, trivial⟩], false, false, none, none, [],
    t.store.instanceHealth, t.store.daemonState, t.store.eventLog⟩, ?_⟩, rfl, rfl, settings ▸ same⟩
  rw [only]
  rfl

theorem reloadsLikeNew {old new : DaemonSettings} (same : SameEffect old new) :
    ReloadsLikeNew old new := by
  rintro s - rfl w message plugins rfl given t ran now further
  exact ((beside_further further).alike _ _ (reloaded_beside given same ran now)).imp
    fun _ _ => Beside.matches

end Beside

/- A tick, where no retry is due, is the dispatch of due pushes. -/

def SetAside (s t : Engine) : Prop := ∃ a : Aside, a.eventLog = s.store.eventLog ∧ t = s.within a

instance : IsPreorder Engine SetAside where
  refl s := ⟨⟨s.settings, s.timers, s.stopping, s.ready, s.lastSeenWrittenAt, s.heartbeat,
    s.acknowledged, s.store.instanceHealth, s.store.daemonState, s.store.eventLog⟩, rfl, rfl⟩
  trans := by
    rintro s m t ⟨a, log, rfl⟩ ⟨b, again, rfl⟩
    exact ⟨b, again.trans log, rfl⟩

theorem handlePollHealth_aside (w : World) : Keeps SetAside (handlePollHealth w) := by
  refine handlePollHealth_keeps (fun direction name s => ?_) (fun s t aside => ?_) ?_
  · exact ⟨⟨s.settings, s.timers, s.stopping, s.ready, s.lastSeenWrittenAt, s.heartbeat,
      s.acknowledged, (recordHealth w direction name s).store.instanceHealth, s.store.daemonState,
      s.store.eventLog⟩, rfl, rfl⟩
  · obtain ⟨a, log, rfl⟩ := aside
    exact ⟨{ a with
      instanceHealth := s.store.instanceHealth
      daemonState := s.store.daemonState
      eventLog := s.store.eventLog }, rfl, rfl⟩
  · refine Keeps.bind (keeps_raising _) fun dueAt => keeps_modify fun s => ?_
    exact ⟨⟨s.settings, s.timers ++ [⟨dueAt, .pollHealth, trivial⟩], s.stopping, s.ready,
      s.lastSeenWrittenAt, s.heartbeat, s.acknowledged, s.store.instanceHealth, s.store.daemonState,
      s.store.eventLog⟩, rfl, rfl⟩

theorem fireDueTimers_aside {w : World} {s t : Engine}
    (polls : ∀ timer ∈ s.timers, timer.dueAt ≤ w.now → timer.message = .pollHealth)
    (ran : fireDueTimers w s = .ok ⟨⟩ t) : SetAside s t := by
  simp only [fireDueTimers, get_bind_ok, modify_bind_ok] at ran
  have each : Keeps SetAside ((s.timers.filter (·.dueAt ≤ w.now)).forM fun timer =>
      handle w timer.message) := by
    refine Keeps.forM _ fun timer member => ?_
    obtain ⟨listed, due⟩ := List.mem_filter.mp member
    rw [polls timer listed (of_decide_eq_true due)]
    exact handlePollHealth_aside w
  refine trans_of SetAside ?_ (each.leads _ _ _ ran)
  exact ⟨⟨s.settings, s.timers.filter fun timer => ¬ timer.dueAt ≤ w.now, s.stopping, s.ready,
    s.lastSeenWrittenAt, s.heartbeat, s.acknowledged, s.store.instanceHealth, s.store.daemonState,
    s.store.eventLog⟩, rfl, rfl⟩

/-- So a run's ticks may be read as dispatches, while no reconciliation retry is waiting. -/
theorem tick_matches {w : World} {s t : Engine}
    (polls : ∀ timer ∈ s.timers, timer.dueAt ≤ w.now → timer.message = .pollHealth)
    (ran : tick w s = .ok ⟨⟩ t) : Matches (s.dispatchDuePushes w.now) t := by
  obtain ⟨m, fired, rfl⟩ := tick_ok ran
  have beat : SetAside s { s with heartbeat := some w.now } :=
    ⟨⟨s.settings, s.timers, s.stopping, s.ready, s.lastSeenWrittenAt, some w.now, s.acknowledged,
      s.store.instanceHealth, s.store.daemonState, s.store.eventLog⟩, rfl, rfl⟩
  obtain ⟨a, log, rfl⟩ := trans_of SetAside beat (@fireDueTimers_aside w _ _ polls fired)
  have unlogged : (s.dispatchDuePushes w.now).store.eventLog = s.store.eventLog := by
    rw [(dispatchDuePushes_spec w.now s).only]
  have aside : (s.within a).dispatchDuePushes w.now = (s.dispatchDuePushes w.now).within a :=
    (overlooked_within a).dispatchDuePushes w.now s
  rw [maybeWriteLastSeen_only, aside]
  exact ⟨rfl, rfl, rfl, rfl, rfl, rfl, congrArg (·.rows.length) (unlogged.trans log.symm)⟩

/- Engines without rules, which tell settings of another effect apart. -/

section Apart

variable {old new : DaemonSettings} {s t : Engine}

def withoutRules (store : Store) (settings : DaemonSettings) : Engine :=
  Engine.init 0 store ⟨[], List.nodup_nil⟩ .empty .empty settings

def emptyReload (settings : DaemonSettings) : ReloadMessage where
  configuration := ⟨[], [], settings, List.nodup_nil, List.nodup_nil⟩
  plugins := some .empty
  acknowledged := 0

def emptied (store : Store) (old new : DaemonSettings) : Engine :=
  reloaded 0 (emptyReload new) (withoutRules store old)

/-- What one step makes of a reloaded and of a constructed engine without rules. -/
theorem ReloadsLikeNew.step (like : ReloadsLikeNew old new) (store : Store) (step : Further) :
    Alike Matches (step.perform (emptied store old new)) (step.perform
      (constructed 0 (emptyReload new).configuration .empty (emptied store old new))) := by
  have once := like (withoutRules store old) ⟨0, store, _, _, _, old, [], rfl⟩ rfl
    (Sample.quiet 0) (emptyReload new) .empty rfl rfl _ (handleReload_ok.mpr rfl) 0 [step]
  rwa [forM_singleton, forM_singleton] at once

/-- A log of consecutive entries. -/
def entries (n : Nat) : EventLog where
  rows := (List.range' 1 n).map fun identifier => ⟨identifier, 0, .inputEvent, none, none, ""⟩
  sequence := n

theorem filter_range' (c a n : Nat) :
    (List.range' a n).filter (c < ·) = List.range' (max a (c + 1)) (a + n - max a (c + 1)) := by
  induction n generalizing a with
  | zero =>
    have none : a + 0 - max a (c + 1) = 0 := by omega
    rw [none]
    rfl
  | succ n ih =>
    rw [List.range'_succ, List.filter_cons, ih]
    by_cases above : c < a
    · have here : max a (c + 1) = a := by omega
      have next : max (a + 1) (c + 1) = a + 1 := by omega
      have left : a + 1 + n - (a + 1) = n := by omega
      have all : a + (n + 1) - a = n + 1 := by omega
      rw [if_pos (decide_eq_true above), here, next, left, all, List.range'_succ]
    · have here : max a (c + 1) = c + 1 := by omega
      have next : max (a + 1) (c + 1) = c + 1 := by omega
      have same : a + 1 + n - (c + 1) = a + (n + 1) - (c + 1) := by omega
      rw [if_neg (by simpa using above), here, next, same]

theorem appendEvent_consecutive (now : Time) (kind : EventKind) (i r : Option Name) (detail : String)
    {s : Engine} {a n : Nat}
    (identifiers : s.store.eventLog.rows.map (·.identifier) = List.range' a n)
    (sequence : s.store.eventLog.sequence + 1 = a + n) :
    (appendEvent now kind i r detail s).store.eventLog.rows.map (·.identifier) =
      List.range' (max a (a + n - s.settings.eventLogMaxRows + 1))
        (a + n + 1 - max a (a + n - s.settings.eventLogMaxRows + 1)) := by
  have longer : List.range' a n ++ [a + n] = List.range' a (n + 1) := by
    rw [List.range'_1_concat]
  rw [appendEvent_identifiers, identifiers, sequence, longer, filter_range']
  rfl

/-- An event that no rule listens for is only logged. -/
theorem handleInputEvent_unheard {w : World} {message : InputEventMessage} {s : Engine}
    (unheard : s.graph.rulesForInput message.instanceName = []) :
    handleInputEvent w message s = .ok ⟨⟩ (appendEvent w.now .inputEvent
      (some message.instanceName) none message.event.summary s) := by
  simp only [handleInputEvent, transaction, get_bind_ok, restoring_ok, modify_bind_ok, unheard,
    List.isEmpty_nil, if_true, pure_ok, true_and]

/-- How many rows the next entry leaves, after the log has been filled to `n` rows. -/
theorem appendEvent_rows (now : Time) (kind : EventKind) (i r : Option Name) (detail : String)
    {s : Engine} {n : Nat}
    (identifiers : s.store.eventLog.rows.map (·.identifier) = List.range' 2 n)
    (sequence : s.store.eventLog.sequence = n + 1) :
    (appendEvent now kind i r detail s).store.eventLog.rows.length =
      min s.settings.eventLogMaxRows (n + 1) := by
  have next := appendEvent_consecutive now kind i r detail identifiers (by rw [sequence]; omega)
  have length := congrArg List.length next
  rw [List.length_map, List.length_range'] at length
  rw [length]
  omega

def fullLog (settings : DaemonSettings) : Store :=
  { Store.empty with eventLog := entries settings.eventLogMaxRows }

theorem emptied_identifiers (old new : DaemonSettings) :
    (emptied (fullLog old) old new).store.eventLog.rows.map (·.identifier) =
      List.range' 2 old.eventLogMaxRows := by
  have start : (fullLog old).eventLog.rows.map (·.identifier) =
      List.range' 1 old.eventLogMaxRows := by
    simp [fullLog, entries, List.map_map, Function.comp_def]
  have logged := fun detail => @appendEvent_consecutive 0 .configLoaded none none detail
    (adopt (emptyReload new) (withoutRules (fullLog old) old)) 1 old.eventLogMaxRows start
    (Nat.add_comm _ _)
  have settings : (adopt (emptyReload new) (withoutRules (fullLog old) old)).settings = old := rfl
  have first : max 1 (1 + old.eventLogMaxRows - old.eventLogMaxRows + 1) = 2 := by omega
  have rest : 1 + old.eventLogMaxRows + 1 - 2 = old.eventLogMaxRows := by omega
  simp only [settings, first, rest] at logged
  exact logged _

theorem ReloadsLikeNew.eventLogMaxRows (like : ReloadsLikeNew old new) :
    old.eventLogMaxRows = new.eventLogMaxRows := by
  have alike := like.step (fullLog old) (.inputEvent (Sample.quiet 0) ⟨"mail", ⟨0, ""⟩⟩)
  simp only [Further.perform, handle] at alike
  rw [handleInputEvent_unheard rfl, handleInputEvent_unheard rfl] at alike
  have left := @appendEvent_rows 0 .inputEvent (some "mail") none ""
    (emptied (fullLog old) old new) _ (emptied_identifiers old new) rfl
  have right := @appendEvent_rows 0 .inputEvent (some "mail") none ""
    (constructed 0 (emptyReload new).configuration .empty (emptied (fullLog old) old new)) _
    (emptied_identifiers old new) rfl
  cases alike with
  | returned same =>
    have both : min old.eventLogMaxRows (old.eventLogMaxRows + 1) =
      min new.eventLogMaxRows (old.eventLogMaxRows + 1) := left.symm.trans (same.logged.trans right)
    omega

/-- A failed push that was to leave an output as it is wanted is put off to its next attempt. -/
theorem put_off (now : Time) {name : Name} {push : PendingPush} {detail : String} {s : Engine}
    (wanted : push.targetValue = s.desired name) (unapplied : s.lastApplied name = none) :
    (Engine.syncOutputs now [name] (appendEvent now .outputPushFailed (some name) none detail
      (s.onStore (·.writePendingPush name push)))).store.pendingPush name = some push := by
  generalize known : appendEvent now .outputPushFailed (some name) none detail
    (s.onStore (·.writePendingPush name push)) = m
  have desired : m.desired name = s.desired name := by
    subst known
    rfl
  have applied : m.lastApplied name = none := by
    subst known
    exact unapplied
  have pending : m.store.pendingPush name = some push := by
    subst known
    exact (Store.pendingPush_write ..).trans (if_pos rfl)
  simp [syncOutputs, syncOutput, desired, applied, pending, wanted]

theorem transaction_raised {x : Core Unit} (f : Unit → Core Unit) {e : PyError} {m u : Engine}
    (raised : x m = .error e u) :
    transaction (x >>= f) m = .error e { u with store := m.store } := by
  simp only [transaction, Effect.restoring, bind, EStateM.bind, raised]

theorem transaction_returned {x : Core Unit} {f : Engine → Engine} {m u : Engine}
    (returned : x m = .ok ⟨⟩ u) : transaction (x >>= fun _ => modify f) m = .ok ⟨⟩ (f u) :=
  restoring_ok.mpr (bind_ok.mpr ⟨⟨⟩, u, returned, modify_ok.mpr rfl⟩)

def landed (s : Engine) (name : Name) : Engine := { s with inFlight := s.inFlight.erase name }

theorem handlePushResult_failed {message : PushResultMessage} (failed : message.succeeded = false)
    (w : World) (s : Engine) :
    handlePushResult w message s = transaction (recordPushFailure w message >>= fun _ =>
      modify (Engine.syncOutputs w.now [message.instanceName])) (s.landed message.instanceName) := by
  simp only [handlePushResult, failed, Bool.false_eq_true, if_false]
  generalize recordPushFailure w message = recording
  rfl

theorem failing_push_error {message : PushResultMessage} (failed : message.succeeded = false)
    {w : World} {e : PyError}
    (late : nextAttemptAt s.settings w.now (attemptsOf s message.instanceName) = .error e) :
    ∃ t, handlePushResult w message s = .error e t := by
  have raised := @recordPushFailure_error (s.landed message.instanceName) w message e late
  rw [handlePushResult_failed failed]
  exact ⟨_, transaction_raised _ raised⟩

theorem failing_push_ok {message : PushResultMessage} (failed : message.succeeded = false)
    {w : World} {moment : Time}
    (dated : nextAttemptAt s.settings w.now (attemptsOf s message.instanceName) = .ok moment)
    (wanted : message.pushedValue = s.desired message.instanceName)
    (unapplied : s.lastApplied message.instanceName = none) :
    ∃ t, handlePushResult w message s = .ok ⟨⟩ t ∧
      (t.store.pendingPush message.instanceName).map (·.nextAttemptAt) = some moment := by
  have recorded := @recordPushFailure_ok (s.landed message.instanceName) w message moment dated
  obtain ⟨detail, recorded⟩ := recorded
  rw [handlePushResult_failed failed]
  refine ⟨_, transaction_returned recorded, ?_⟩
  rw [put_off w.now]
  · rfl
  · exact wanted
  · exact unapplied

/-- Where both engines end alike, the next attempts were dated alike. -/
theorem same_attempt {message : PushResultMessage} (failed : message.succeeded = false) {w : World}
    (wanted : message.pushedValue = s.desired message.instanceName)
    (unapplied : s.lastApplied message.instanceName = none)
    (wanted' : message.pushedValue = t.desired message.instanceName)
    (unapplied' : t.lastApplied message.instanceName = none)
    (alike : Alike Matches (handlePushResult w message s) (handlePushResult w message t)) :
    nextAttemptAt s.settings w.now (attemptsOf s message.instanceName) =
      nextAttemptAt t.settings w.now (attemptsOf t message.instanceName) := by
  cases left : nextAttemptAt s.settings w.now (attemptsOf s message.instanceName) with
  | error e =>
    obtain ⟨u, ran⟩ := failing_push_error failed left
    rw [ran] at alike
    cases right : nextAttemptAt t.settings w.now (attemptsOf t message.instanceName) with
    | error e' =>
      obtain ⟨v, ran'⟩ := failing_push_error failed right
      rw [ran'] at alike
      cases alike with
      | raised => rfl
    | ok moment =>
      obtain ⟨v, ran', -⟩ := failing_push_ok failed right wanted' unapplied'
      rw [ran'] at alike
      cases alike
  | ok moment =>
    obtain ⟨u, ran, stored⟩ := failing_push_ok failed left wanted unapplied
    rw [ran] at alike
    cases right : nextAttemptAt t.settings w.now (attemptsOf t message.instanceName) with
    | error e =>
      obtain ⟨v, ran'⟩ := failing_push_error failed right
      rw [ran'] at alike
      cases alike
    | ok moment' =>
      obtain ⟨v, ran', stored'⟩ := failing_push_ok failed right wanted' unapplied'
      rw [ran'] at alike
      cases alike with
      | returned same =>
        have pending : u.store.pendingPush message.instanceName =
          v.store.pendingPush message.instanceName := by
          unfold Store.pendingPush
          rw [same.pendingPushes]
        rw [pending, stored'] at stored
        exact congrArg Except.ok (Option.some.inj stored).symm

/-- A store in which the push for `lamp` has failed so often. -/
def waiting (attempts : Nat) : Store :=
  { Store.empty with pendingPushes := AList.singleton "lamp" ⟨false, attempts, 0, none⟩ }

theorem ReloadsLikeNew.nextAttemptAt (like : ReloadsLikeNew old new) (now : Time) (attempts : Nat) :
    nextAttemptAt old now (attempts + 1) = nextAttemptAt new now (attempts + 1) := by
  have alike := like.step (waiting attempts)
    (.pushResult (Sample.quiet now) ⟨"lamp", false, false, none⟩)
  generalize left : emptied (waiting attempts) old new = s at alike
  generalize right : constructed 0 (emptyReload new).configuration .empty s = t at alike
  have failed_before : attemptsOf s "lamp" = attempts + 1 ∧ attemptsOf t "lamp" = attempts + 1 := by
    subst left right
    exact ⟨rfl, rfl⟩
  have settings : s.settings = old ∧ t.settings = new := by
    subst left right
    exact ⟨rfl, rfl⟩
  have dated := same_attempt rfl (by subst left; rfl) (by subst left; rfl)
    (by subst left right; rfl) (by subst left right; rfl) alike
  rwa [failed_before.1, failed_before.2, settings.1, settings.2] at dated

end Apart

/-- A reload is like a construction exactly when it does not change what the daemon settings
decide: it keeps those the engine was constructed with. -/
theorem reloads_like_new_iff (old new : DaemonSettings) :
    ReloadsLikeNew old new ↔ SameEffect old new :=
  ⟨fun like => ⟨like.eventLogMaxRows, like.nextAttemptAt⟩, reloadsLikeNew⟩

/-- With a configuration that retries after a minute, the reloaded engine still retries after
five seconds. -/
theorem reload_keeps_settings : ¬ ∀ old new : DaemonSettings, ReloadsLikeNew old new := by
  intro always
  have same := (always {} { retryInitialSeconds := .finite 60 }).nextAttemptAt 0 0
  revert same
  decide +kernel

end Engine

end NotiMapper
