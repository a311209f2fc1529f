import NotiMapper.Library.Effect
import NotiMapper.Dispatcher
import NotiMapper.Reconcile
import Mathlib.Data.Finset.Basic

/-! The core thread's state machine. A handler is a computation on the engine that
may raise; the message and the world it runs in are its arguments. One world, and
so one clock reading, is used for the whole of a handler or a tick. The latch
cache is read through `latch`, which answers a fresh record for a missing one. -/
namespace NotiMapper

open Python Effect

def healthPollIntervalSeconds : PyFloat := .finite 30
def lastSeenIntervalSeconds : Nat := 60
def reconcileRetryInitialSeconds : PyFloat := .finite 30
def reconcileRetryMaxSeconds : PyFloat := .finite 900
def maxDrainRounds : Nat := 100

structure ScheduledMessage where
  dueAt : Time
  message : CoreMessage
  scheduled : message.SelfScheduled

structure Engine where
  store : Store
  graph : RuleGraph
  plugins : PluginSet
  dispatcher : Dispatcher
  settings : DaemonSettings
  timers : List ScheduledMessage
  inFlight : Finset Name
  latches : Table LatchRecord
  stopping : Bool
  ready : Bool
  lastSeenWrittenAt : Option Time
  heartbeat : Option Time
  acknowledged : List Nat

abbrev Core (α : Type) := EStateM PyError Engine α

namespace Engine

/- Small helpers. -/

def latch (s : Engine) (ruleName : Name) : LatchRecord :=
  (s.latches.lookup ruleName).getD .fresh

/-- `latch_states().get(name, False)`. -/
def latchStates (s : Engine) (ruleName : Name) : Bool := (s.latch ruleName).state

def desired (s : Engine) (instanceName : Name) : Bool :=
  s.graph.desiredOutputState instanceName s.latchStates

def reloadLatches (s : Engine) : Engine := { s with latches := s.store.latches }

def onStore (f : Store → Store) (s : Engine) : Engine := { s with store := f s.store }

def appendEvent (loggedAt : Time) (kind : EventKind) (instanceName ruleName : Option Name)
    (detail : String) (s : Engine) : Engine :=
  s.onStore fun store =>
    store.appendEvent s.settings.eventLogMaxRows loggedAt kind instanceName ruleName detail

/-- `with self._store.database.transaction()`: a raise rolls the tables back and
leaves what was changed in memory. -/
def transaction {α : Type} (body : Core α) : Core α :=
  restoring (fun before raised => { raised with store := before.store }) body

def writeLatch (ruleName : Name) (record : LatchRecord) : Core Unit := do
  let s ← get
  let store ← raising (s.store.writeLatch ruleName record)
  modify fun s => { s with store := store, latches := s.latches.insert ruleName record }

def schedule (w : World) (afterSeconds : PyFloat) (message : CoreMessage)
    (scheduled : message.SelfScheduled := by trivial) : Core Unit := do
  let dueAt ← raising (addSeconds w.now afterSeconds)
  modify fun s => { s with timers := s.timers ++ [⟨dueAt, message, scheduled⟩] }

/- Output synchronisation. -/

def lastApplied (s : Engine) (instanceName : Name) : Option Bool :=
  (s.store.outputStateOf instanceName).bind (·.lastApplied)

/-- Make the pending-push table agree with what this output should be. -/
def syncOutput (now : Time) (force : Bool) (instanceName : Name) (s : Engine) : Engine :=
  let desired := s.desired instanceName
  let existing := s.store.pendingPush instanceName
  if !force && s.lastApplied instanceName == some desired then
    if existing.isSome then s.onStore (·.deletePendingPush instanceName) else s
  else if !force && existing.any (·.targetValue == desired) then s
  else s.onStore (·.writePendingPush instanceName ⟨desired, 0, now, none⟩)

def syncOutputs (now : Time) (instanceNames : List Name) (s : Engine) : Engine :=
  instanceNames.foldl (fun s name => s.syncOutput now false name) s

/-- Step 5 of `reconcile`: push every output, whether or not it is believed correct. -/
def forceOutputs (now : Time) (instanceNames : List Name) (s : Engine) : Engine :=
  instanceNames.foldl (fun s name => s.syncOutput now true name) s

def isNewer (candidate current : Option Time) : Bool :=
  match candidate, current with
  | none, _ => false
  | some _, none => true
  | some candidate, some current => current < candidate

/-- Describe why an output is being driven, not just to what. -/
def buildUpdate (s : Engine) (instanceName : Name) (desired : Bool) : OutputUpdate :=
  if !desired then { state := false }
  else
    let driving := ((s.graph.rulesForOutput instanceName).map
      fun rule => (rule.name, s.latch rule.name)).filter (·.2.state)
    match driving with
    | [] => { state := desired }
    | first :: _ =>
      let newest := driving.foldl (fun newest record =>
        if isNewer record.2.setAt newest.2.setAt then record else newest) first
      { state := true
        cause := newest.2.lastCause.getD ""
        detail := newest.2.lastDetail.getD ""
        triggerCount := (driving.map (·.2.triggerCount)).sum
        rules := (driving.map (·.1)).insertionSort (· ≤ ·)
        since := newest.2.setAt }

/-- One round of the loop in `_dispatch_due_pushes`; the value is recomputed here. -/
def prepareDue (acc : Engine × List PushRequest) (due : Name × PendingPush) :
    Engine × List PushRequest :=
  let (s, ready) := acc
  let (name, push) := due
  if name ∈ s.inFlight then (s, ready)
  else if name ∉ s.plugins.outputs then (s.onStore (·.deletePendingPush name), ready)
  else
    let desired := s.desired name
    let s := if desired != push.targetValue then
      s.onStore (·.writePendingPush name { push with targetValue := desired }) else s
    (s, ready ++ [⟨name, s.buildUpdate name desired⟩])

def dispatch (s : Engine) (request : PushRequest) : Engine :=
  { s with
    inFlight := insert request.instanceName s.inFlight
    dispatcher := s.dispatcher.dispatch request.instanceName request.update }

def dispatchDuePushes (now : Time) (s : Engine) : Engine :=
  let (s, ready) := (s.store.pendingPushesDue now).foldl prepareDue (s, [])
  ready.foldl dispatch s

/- Input events. -/

/-- What a trigger leaves, whether the latch was set before or not. -/
def triggered (record : LatchRecord) (occurredAt : Time) (cause : Name) (summary : String) :
    LatchRecord :=
  { record with
    state := true
    setAt := some occurredAt
    triggerCount := record.triggerCount + 1
    lastCause := some cause
    lastDetail := some summary }

def applyTrigger (w : World) (message : InputEventMessage) (ruleName : Name) : Core Unit := do
  let record := (← get).latch ruleName
  let cause := message.instanceName
  let summary := message.event.summary
  if record.state then
    -- The record moves, so that an output can render a count, but no output does.
    let updated := { record with
      setAt := some message.event.occurredAt
      triggerCount := record.triggerCount + 1
      lastCause := some cause
      lastDetail := some summary }
    writeLatch ruleName updated
    modify (appendEvent w.now .latchRetriggered (some cause) (some ruleName)
      s!"count={updated.triggerCount} {summary}")
  else
    writeLatch ruleName { record with
      state := true
      setAt := some message.event.occurredAt
      triggerCount := record.triggerCount + 1
      lastCause := some cause
      lastDetail := some summary }
    modify (appendEvent w.now .latchSet (some cause) (some ruleName) summary)

def handleInputEvent (w : World) (message : InputEventMessage) : Core Unit := do
  let rules := (← get).graph.rulesForInput message.instanceName
  transaction do
    modify (appendEvent w.now .inputEvent (some message.instanceName) none message.event.summary)
    if rules.isEmpty then return
    rules.forM fun rule => applyTrigger w message rule.name
    modify fun s =>
      s.syncOutputs w.now (s.graph.outputsAffectedBy (rules.map (·.name)))

/- Unlatch. -/

def unlatched (record : LatchRecord) (now : Time) (cause : Name) : LatchRecord :=
  { record with state := false, clearedAt := some now, lastCause := some cause }

def clearLatch (w : World) (message : UnlatchRequestMessage) (ruleName : Name) : Core Unit := do
  let record := (← get).latch ruleName
  writeLatch ruleName (unlatched record w.now message.instanceName)
  modify (appendEvent w.now .latchCleared (some message.instanceName) (some ruleName)
    message.cause)

def handleUnlatch (w : World) (message : UnlatchRequestMessage) : Core Unit := do
  let s ← get
  let rules := s.graph.rulesForOutput message.instanceName
  let setRules := rules.filter fun rule => (s.latch rule.name).state
  transaction do
    if setRules.isEmpty then
      -- Loop prevention: a second clear of the same state is not a transition.
      modify (appendEvent w.now .unlatchIgnored (some message.instanceName) none message.cause)
    else
      setRules.forM fun rule => clearLatch w message rule.name
      modify fun s =>
        s.syncOutputs w.now (s.graph.outputsAffectedBy (rules.map (·.name)))

/- Push results. -/

def backoffSeconds (settings : DaemonSettings) (attempts : Nat) : Except PyError PyFloat :=
  match floatOfInt (2 ^ (attempts - 1)) with
  | .error e => .error e
  | .ok factor =>
    let delay := settings.retryInitialSeconds.mul factor
    .ok (if settings.retryMaxSeconds.lt delay then settings.retryMaxSeconds else delay)

def recordPushFailure (w : World) (message : PushResultMessage) : Core Unit := do
  let s ← get
  let attempts := match s.store.pendingPush message.instanceName with
    | none => 1
    | some existing => existing.attemptCount + 1
  let delay ← raising (backoffSeconds s.settings attempts)
  let nextAttemptAt ← raising (addSeconds w.now delay)
  let error := message.error.getD ""
  modify fun s => s.onStore (·.writePendingPush message.instanceName
    ⟨message.pushedValue, attempts, nextAttemptAt, message.error⟩)
  modify (appendEvent w.now .outputPushFailed (some message.instanceName) none
    (strip s!"attempt={attempts} retry_in={formatWhole delay}s {error}"))

def recordPushSuccess (w : World) (message : PushResultMessage) (s : Engine) : Engine :=
  (s.onStore (·.writeOutputState message.instanceName
    ⟨some message.pushedValue, some message.pushedValue, some w.now⟩)).appendEvent w.now
      .outputPushSucceeded (some message.instanceName) none
      s!"value={formatBool message.pushedValue}"

def handlePushResult (w : World) (message : PushResultMessage) : Core Unit := do
  modify fun s => { s with inFlight := s.inFlight.erase message.instanceName }
  transaction do
    if message.succeeded then modify (recordPushSuccess w message)
    else recordPushFailure w message
    modify (syncOutputs w.now [message.instanceName])

/- Reload. -/

def adopt (message : ReloadMessage) (s : Engine) : Engine :=
  let s := match message.plugins with
    | none => s
    | some plugins =>
      { s with plugins := plugins, dispatcher := s.dispatcher.setOutputs plugins.outputs }
  { s with graph := RuleGraph.fromConfiguration message.configuration }.reloadLatches

def handleReload (w : World) (message : ReloadMessage) : Core Unit := do
  let previousOutputs := (← get).graph.outputNames
  modify (adopt message)
  transaction do
    modify (appendEvent w.now .configLoaded none none
      s!"{message.configuration.rules.length} rules, {message.configuration.instances.length} instances")
    modify fun s =>
      s.syncOutputs w.now (RuleGraph.sortedNames (previousOutputs ++ s.graph.outputNames))
  modify fun s => { s with acknowledged := message.acknowledged :: s.acknowledged }

/- Health. -/

def askHealth (w : World) (direction : PluginDirection) (name : Name) : PluginHealth :=
  match w.health direction name with
  | .ok health => health
  | .error error => ⟨.failed, error⟩

def recordHealth (w : World) (direction : PluginDirection) (name : Name) (s : Engine) : Engine :=
  let health := askHealth w direction name
  s.onStore (·.writeHealth name ⟨health.status, health.detail, w.now⟩)

def handlePollHealth (w : World) : Core Unit := do
  transaction do
    (← get).plugins.inputs.keys.forM fun name => modify (recordHealth w .input name)
    (← get).plugins.outputs.keys.forM fun name => modify (recordHealth w .output name)
  schedule w healthPollIntervalSeconds .pollHealth

/- Reconciliation. -/

def applyReconcileOutcome (w : World) (ruleName : Name) (outcome : ReconcileOutcome)
    (extraTriggers : Nat) : Core Unit := do
  let record := (← get).latch ruleName
  let updated := outcome.applyTo record extraTriggers
  if updated ≠ record then writeLatch ruleName updated
  modify (appendEvent w.now .reconciled none (some ruleName)
    s!"state={formatBool outcome.state} reason={outcome.reason}")

/-- The latest event time across these inputs, and how many events there were. -/
def summarize (downtime : Table (List ObservedEvent)) (instanceNames : List Name) :
    Option Time × Nat :=
  let events := instanceNames.flatMap fun name => (downtime.lookup name).getD []
  ((events.map (·.occurredAt)).max?, events.length)

/-- One round of the loop in `_collect_downtime_events`. -/
def askDowntime (w : World) (since : Option Time) (plugins : PluginSet)
    (collected : Table (List ObservedEvent)) (name : Name) : Core (Table (List ObservedEvent)) := do
  if name ∉ plugins.inputs then return collected
  match w.catchUp name since with
  | .ok events => return collected.insert name events
  | .error _ =>
    schedule w reconcileRetryInitialSeconds (.catchUp ⟨name, 1, since⟩)
    return collected

def collectDowntimeEvents (w : World) (since : Option Time) :
    Core (Table (List ObservedEvent)) := do
  let s ← get
  s.graph.inputNames.foldlM (askDowntime w since s.plugins) ∅

/-- A `query` that raises counts as UNKNOWN. -/
def queryOutput (w : World) (name : Name) : RemoteState :=
  match w.query name with
  | .ok state => state
  | .error _ => ⟨.unknown, none⟩

/-- One round of the loop in `_collect_remote_states`. -/
def askRemote (w : World) (plugins : PluginSet) (collected : Table RemoteState) (name : Name) :
    Core (Table RemoteState) := do
  if name ∉ plugins.outputs then return collected
  let state := queryOutput w name
  if state.belief = .unknown then
    schedule w reconcileRetryInitialSeconds (.reconcileOutput ⟨name, 1⟩)
    return collected
  return collected.insert name state

def collectRemoteStates (w : World) : Core (Table RemoteState) := do
  let s ← get
  s.graph.outputNames.foldlM (askRemote w s.plugins) ∅

def reconcileRule (w : World) (downtime : Table (List ObservedEvent))
    (reports : Table RemoteState) (rule : Rule) : Core Unit := do
  let (latestEvent, eventCount) := summarize downtime rule.inputs
  let ruleReports := rule.outputs.filterMap reports.lookup
  let persisted := (← get).latch rule.name
  applyReconcileOutcome w rule.name (resolveRule w.now persisted latestEvent ruleReports) eventCount

def reconcile (w : World) : Core Unit := do
  let since := (← get).store.lastSeenAt
  let downtime ← collectDowntimeEvents w since
  let reports ← collectRemoteStates w
  transaction do
    modify (appendEvent w.now .daemonStarted none none "")
    (← get).graph.rules.forM (reconcileRule w downtime reports)
    modify fun s => s.forceOutputs w.now s.graph.outputNames
    modify (onStore (·.writeLastSeenAt w.now))
  modify fun s => { s with lastSeenWrittenAt := some w.now }
  modify (dispatchDuePushes w.now)
  modify fun s => { s with ready := true }

/-- The delay before retry number `attempt + 1`. -/
def retryDelay (attempt : Nat) : Except PyError PyFloat :=
  match floatOfInt (2 ^ attempt) with
  | .error e => .error e
  | .ok factor => .ok ((reconcileRetryInitialSeconds.mul factor).min reconcileRetryMaxSeconds)

def handleReconcileRetry (w : World) (message : ReconcileOutputMessage) : Core Unit := do
  if message.instanceName ∉ (← get).plugins.outputs then return
  let state := queryOutput w message.instanceName
  if state.belief = .unknown then
    let delay ← raising (retryDelay message.attempt)
    schedule w delay (.reconcileOutput ⟨message.instanceName, message.attempt + 1⟩)
  else
    let rules := (← get).graph.rulesForOutput message.instanceName
    transaction do
      rules.forM fun rule => do
        let persisted := (← get).latch rule.name
        applyReconcileOutcome w rule.name (resolveRule w.now persisted none [state]) 0
      modify fun s =>
        s.syncOutputs w.now (s.graph.outputsAffectedBy (rules.map (·.name)))

def handleCatchUpRetry (w : World) (message : CatchUpMessage) : Core Unit := do
  if message.instanceName ∉ (← get).plugins.inputs then return
  match w.catchUp message.instanceName message.since with
  | .error _ =>
    let delay ← raising (retryDelay message.attempt)
    schedule w delay (.catchUp { message with attempt := message.attempt + 1 })
  | .ok events =>
    events.forM fun event => handleInputEvent w ⟨message.instanceName, event⟩

/- Message dispatch and the tick. -/

def handle (w : World) : CoreMessage → Core Unit
  | .inputEvent message => handleInputEvent w message
  | .unlatchRequest message => handleUnlatch w message
  | .pushResult message => handlePushResult w message
  | .reload message => handleReload w message
  | .reconcileOutput message => handleReconcileRetry w message
  | .catchUp message => handleCatchUpRetry w message
  | .pollHealth => handlePollHealth w
  | .shutdown => modify fun s => { s with stopping := true }

def fireDueTimers (w : World) : Core Unit := do
  let due := (← get).timers.filter (·.dueAt ≤ w.now)
  modify fun s => { s with timers := s.timers.filter fun timer => ¬ timer.dueAt ≤ w.now }
  due.forM fun timer => handle w timer.message

def writtenRecently (now : Time) (lastSeenWrittenAt : Option Time) : Bool :=
  lastSeenWrittenAt.any fun previous => now < previous + seconds lastSeenIntervalSeconds

def maybeWriteLastSeen (now : Time) (s : Engine) : Engine :=
  if writtenRecently now s.lastSeenWrittenAt then s
  else { s with store := s.store.writeLastSeenAt now, lastSeenWrittenAt := some now }

def tick (w : World) : Core Unit := do
  modify fun s => { s with heartbeat := some w.now }
  fireDueTimers w
  modify (dispatchDuePushes w.now)
  modify (maybeWriteLastSeen w.now)

/-- What one turn of the loop in `run` or `drain` does: handle a message, or tick. -/
inductive Step
  | handle (w : World) (message : CoreMessage)
  | tick (w : World)

def Step.perform : Step → Core Unit
  | .handle w message => Engine.handle w message
  | .tick w => Engine.tick w

/-- The loop goes on only when the step returned. -/
def advance (s : Engine) (step : Step) : Option Engine :=
  match step.perform s with
  | .ok _ t => some t
  | .error _ _ => none

/-- `Engine(...)`: the latch cache is read from the store and a first health poll
is due at once. -/
def init (now : Time) (store : Store) (graph : RuleGraph) (plugins : PluginSet)
    (dispatcher : Dispatcher) (settings : DaemonSettings) : Engine where
  store := store
  graph := graph
  plugins := plugins
  dispatcher := dispatcher
  settings := settings
  timers := [⟨now, .pollHealth, trivial⟩]
  inFlight := ∅
  latches := store.latches
  stopping := false
  ready := false
  lastSeenWrittenAt := none
  heartbeat := none
  acknowledged := []

end Engine

/- The smallest daemon: one rule from `mail` to `lamp`, for concrete runs. -/
namespace Sample

def rule : Rule where
  name := "notify"
  inputs := ["mail"]
  outputs := ["lamp"]
  inputs_nodup := by decide
  outputs_nodup := by decide

def graph : RuleGraph := ⟨[rule], by decide⟩

def plugins : PluginSet := ⟨AList.singleton "mail" 0, AList.singleton "lamp" 1⟩

def store (latch : LatchRecord) : Store :=
  { Store.empty with
    rules := AList.singleton "notify" ⟨true, false⟩
    latches := AList.singleton "notify" latch }

def engine (store : Store) : Engine :=
  Engine.init 0 store graph plugins ⟨plugins.outputs, []⟩ {}

def quiet (now : Time) : World where
  now := now
  catchUp := fun _ _ => .ok []
  query := fun _ => .ok ⟨.active, none⟩
  health := fun _ _ => .ok ⟨.ok, ""⟩

def started (store : Store) : Engine := final (Engine.reconcile (quiet 5)) (engine store)

def post (now : Time) : Engine.Step := .handle (quiet now) (.inputEvent ⟨"mail", ⟨now, "post"⟩⟩)

end Sample

end NotiMapper
