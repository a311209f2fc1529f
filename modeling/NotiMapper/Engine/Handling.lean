import NotiMapper.Engine.Latching
import NotiMapper.Engine.Pushing

/-! What handling one message does, said once for each kind of it. `Rule.react` is
the latch of a rule as an automaton of its own; `Moves` says that the engine's latches
follow such a function and that every output is settled again. -/
namespace NotiMapper

open Python Effect Engine

namespace Rule

/-- An event sets the latch of every rule that lists its input. -/
def hear (rule : Rule) (message : InputEventMessage) (record : LatchRecord) : LatchRecord :=
  if message.instanceName ∈ rule.inputs then
    triggered record message.event.occurredAt message.instanceName message.event.summary
  else record

/-- An unlatch request clears the latch of every rule that lists its output. -/
def obey (rule : Rule) (now : Time) (message : UnlatchRequestMessage) (record : LatchRecord) :
    LatchRecord :=
  if message.instanceName ∈ rule.outputs ∧ record.state then
    unlatched record now message.instanceName
  else record

/-- A late answer to a query decides the latch again, from this answer alone. -/
def consult (rule : Rule) (w : World) (name : Name) (record : LatchRecord) : LatchRecord :=
  if (queryOutput w name).belief ≠ .unknown ∧ name ∈ rule.outputs then
    answered w.now (queryOutput w name) record
  else record

/-- Late downtime events are heard like live ones. -/
def replay (rule : Rule) (name : Name) (events : List ObservedEvent) (record : LatchRecord) :
    LatchRecord :=
  events.foldl (fun record event => rule.hear ⟨name, event⟩ record) record

/-- What a message makes of the rule's latch. A reload is not one of these: it
replaces the rules. -/
def react (rule : Rule) (plugins : PluginSet) (w : World) :
    CoreMessage → LatchRecord → LatchRecord
  | .inputEvent message, record => rule.hear message record
  | .unlatchRequest message, record => rule.obey w.now message record
  | .reconcileOutput message, record =>
    if message.instanceName ∈ plugins.outputs then rule.consult w message.instanceName record
    else record
  | .catchUp message, record =>
    if message.instanceName ∈ plugins.inputs then
      match w.catchUp message.instanceName message.since with
      | .ok events => rule.replay message.instanceName events record
      | .error _ => record
    else record
  | .pushResult _, record | .reload _, record | .pollHealth, record | .shutdown, record => record

end Rule

namespace Engine

/-- Every latch of the graph followed `f`, and every output was left alone or
synchronised; the rest that outlives a message is unchanged. -/
structure Moves (f : Rule → LatchRecord → LatchRecord) (s t : Engine) : Prop where
  graph : t.graph = s.graph
  plugins : t.plugins = s.plugins
  dispatcher : t.dispatcher = s.dispatcher
  inFlight : t.inFlight = s.inFlight
  mirror : t.store.mirror = s.store.mirror
  outputState : t.store.outputState = s.store.outputState
  lastSeen : t.store.daemonState = s.store.daemonState
  seenAt : t.lastSeenWrittenAt = s.lastSeenWrittenAt
  latch : ∀ r ∈ s.graph.entries, t.latch r.name = f r (s.latch r.name)
  others : ∀ n, n ∉ s.graph.entries.map (·.name) → t.latch n = s.latch n
  writes : SameWrites s t
  outputs : ∀ o, Settles o s t

namespace Moves

variable {f g : Rule → LatchRecord → LatchRecord} {s m t : Engine}

theorem trans (first : Moves f s m) (second : Moves g m t) :
    Moves (fun r record => g r (f r record)) s t where
  graph := second.graph.trans first.graph
  plugins := second.plugins.trans first.plugins
  dispatcher := second.dispatcher.trans first.dispatcher
  inFlight := second.inFlight.trans first.inFlight
  mirror := second.mirror.trans first.mirror
  outputState := second.outputState.trans first.outputState
  lastSeen := second.lastSeen.trans first.lastSeen
  seenAt := second.seenAt.trans first.seenAt
  latch := by
    intro r hr
    rw [second.latch r (first.graph ▸ hr), first.latch r hr]
  others := by
    intro n absent
    rw [second.others n (first.graph ▸ absent), first.others n absent]
  writes := trans_of SameWrites first.writes second.writes
  outputs := fun o => trans_of (Settles o) (first.outputs o) (second.outputs o)

theorem known (moved : Moves f s t) : t.store.rules = s.store.rules :=
  congrArg (·.2.1) moved.mirror

theorem congr (moved : Moves f s t)
    (same : ∀ r ∈ s.graph.entries, f r (s.latch r.name) = g r (s.latch r.name)) : Moves g s t :=
  { moved with latch := fun r hr => by rw [moved.latch r hr, same r hr] }

end Moves

def Apart (s t : Engine) : Prop :=
  t = { s with
    timers := t.timers
    heartbeat := t.heartbeat
    stopping := t.stopping
    store := { s.store with
      instanceHealth := t.store.instanceHealth
      eventLog := t.store.eventLog } }

instance : IsPreorder Engine Apart where
  refl _ := rfl
  trans s m t first second := by
    unfold Apart at second ⊢
    rw [second, first]

theorem Apart.eq {s t : Engine} (apart : Apart s t) : t = { s with
    timers := t.timers
    heartbeat := t.heartbeat
    stopping := t.stopping
    store := { s.store with
      instanceHealth := t.store.instanceHealth
      eventLog := t.store.eventLog } } := apart

theorem Apart.undone {s t : Engine} (apart : Apart s t) :
    Apart s { t with store := s.store } := by
  unfold Apart
  rw [apart.eq]

theorem Apart.moves {s t : Engine} (apart : Apart s t) : Moves (fun _ record => record) s t := by
  rw [apart.eq]
  exact ⟨rfl, rfl, rfl, rfl, rfl, rfl, rfl, rfl, fun _ _ => rfl, fun _ _ => rfl,
    ⟨[], rfl, rfl⟩, fun _ => .inl ⟨rfl, rfl, rfl⟩⟩

theorem schedule_apart (w : World) (delay : PyFloat) (message : CoreMessage)
    (scheduled : message.SelfScheduled) : Keeps Apart (schedule w delay message scheduled) :=
  Keeps.bind (keeps_raising _) fun _ => keeps_modify fun _ => rfl

theorem desired_congr {s t : Engine} {o : Name} (graph : t.graph = s.graph)
    (same : ∀ r ∈ s.graph.entries, o ∈ r.outputs → t.latch r.name = s.latch r.name) :
    t.desired o = s.desired o := by
  simp only [desired, graph]
  exact RuleGraph.desired_congr fun r hr ho => by simp only [latchStates, same r hr ho]

theorem Latching.moves {now : Time} {rules : List Rule}
    {change : Rule → LatchRecord → LatchRecord} {s t : Engine}
    (known : ∀ r ∈ rules, r ∈ s.graph.entries) (latching : Latching now rules change s t) :
    Moves (fun r record => if r ∈ rules then change r record else record) s t := by
  obtain ⟨m, synced, loop, rfl, covered⟩ := latching
  have only := syncOutputs_only now synced m
  have untouched : ∀ r ∈ s.graph.entries, r ∉ rules → m.latch r.name = s.latch r.name := by
    intro r hr unlisted
    refine loop.kept r.name fun listed => unlisted ?_
    obtain ⟨q, hq, same⟩ := List.mem_map.mp listed
    exact RuleGraph.eq_of_name (known q hq) hr same ▸ hq
  constructor
  case latch =>
    intro r hr
    rw [only.latch]
    split
    · rename_i listed
      exact loop.written r listed
    · rename_i unlisted
      exact untouched r hr unlisted
  case others =>
    intro n absent
    rw [only.latch]
    refine loop.kept n fun listed => absent ?_
    obtain ⟨q, hq, rfl⟩ := List.mem_map.mp listed
    exact List.mem_map_of_mem (known q hq)
  case outputs =>
    intro o
    by_cases listed : o ∈ synced
    · exact .inr (syncOutputs_synced now listed m)
    · have same : SameOutput s m o := by
        refine ⟨desired_congr loop.only.graph fun r hr ho => ?_, loop.only.lastApplied o,
          loop.only.pendingPush o⟩
        exact untouched r hr fun rewritten => listed (covered r rewritten o ho)
      exact trans_of (Settles o) (.inl same) (syncOutputs_settles now synced o m)
  case writes =>
    rw [only.eq]
    exact loop.writes
  case mirror =>
    rw [only.eq, loop.only.eq]
    rfl
  all_goals rw [only.eq, loop.only.eq]

theorem handleInputEvent_moves {w : World} {message : InputEventMessage} {s t : Engine}
    (ran : handleInputEvent w message s = .ok ⟨⟩ t) :
    Moves (fun r => r.hear message) s t := by
  have known : ∀ r ∈ s.graph.rulesForInput message.instanceName, r ∈ s.graph.entries :=
    fun r hr => (RuleGraph.mem_rulesForInput.mp hr).1
  refine ((handleInputEvent_latching ran).moves known).congr fun r hr => ?_
  simp only [Rule.hear, RuleGraph.mem_rulesForInput, hr, true_and]

theorem handleUnlatch_moves {w : World} {message : UnlatchRequestMessage} {s t : Engine}
    (ran : handleUnlatch w message s = .ok ⟨⟩ t) :
    Moves (fun r => r.obey w.now message) s t := by
  have known : ∀ r ∈ (s.graph.rulesForOutput message.instanceName).filter
      (fun rule => (s.latch rule.name).state), r ∈ s.graph.entries :=
    fun r hr => (RuleGraph.mem_rulesForOutput.mp (List.mem_of_mem_filter hr)).1
  refine ((handleUnlatch_latching ran).moves known).congr fun r hr => ?_
  simp only [Rule.obey, List.mem_filter, RuleGraph.mem_rulesForOutput, hr, true_and]

theorem handleReconcileRetry_moves {w : World} {message : ReconcileOutputMessage} {s t : Engine}
    (ran : handleReconcileRetry w message s = .ok ⟨⟩ t) :
    Moves (fun r => r.react s.plugins w (.reconcileOutput message)) s t := by
  by_cases live : message.instanceName ∈ s.plugins.outputs
  · by_cases unknown : (queryOutput w message.instanceName).belief = .unknown
    · have waited : Moves (fun _ record => record) s t := by
        simp only [handleReconcileRetry, get_bind_ok, live, unknown, not_true_eq_false, if_false,
          if_true, raising_bind_ok] at ran
        obtain ⟨delay, _, ran⟩ := ran
        exact ((schedule_apart _ _ _ _).leads _ _ _ ran).moves
      refine waited.congr fun r hr => ?_
      simp only [Rule.react, Rule.consult, unknown, ne_eq, not_true_eq_false, false_and, if_false,
        ite_self]
    · have known : ∀ r ∈ s.graph.rulesForOutput message.instanceName, r ∈ s.graph.entries :=
        fun r hr => (RuleGraph.mem_rulesForOutput.mp hr).1
      refine ((handleReconcileRetry_latching live unknown ran).moves known).congr fun r hr => ?_
      simp only [Rule.react, Rule.consult, live, unknown, RuleGraph.mem_rulesForOutput, hr,
        ne_eq, not_false_eq_true, true_and, if_true]
  · simp only [handleReconcileRetry, get_bind_ok, live, not_false_eq_true, if_true, pure_ok] at ran
    rw [← ran.2]
    refine (refl_of Apart s).moves.congr fun r hr => ?_
    simp only [Rule.react, live, if_false]

theorem replay_moves {w : World} {name : Name} (events : List ObservedEvent) {s t : Engine}
    (ran : events.forM (fun event => handleInputEvent w ⟨name, event⟩) s = .ok ⟨⟩ t) :
    Moves (fun r => r.replay name events) s t := by
  induction events generalizing s with
  | nil =>
    rw [← forM_nil_ok.mp ran]
    exact (refl_of Apart s).moves
  | cons event events ih =>
    obtain ⟨m, hm, rest⟩ := forM_cons_ok.mp ran
    exact (handleInputEvent_moves hm).trans (ih rest)

theorem handleCatchUpRetry_moves {w : World} {message : CatchUpMessage} {s t : Engine}
    (ran : handleCatchUpRetry w message s = .ok ⟨⟩ t) :
    Moves (fun r => r.react s.plugins w (.catchUp message)) s t := by
  simp only [handleCatchUpRetry, get_bind_ok] at ran
  by_cases live : message.instanceName ∈ s.plugins.inputs
  · simp only [live, not_true_eq_false, if_false] at ran
    cases answer : w.catchUp message.instanceName message.since with
    | error failure =>
      simp only [answer, raising_bind_ok] at ran
      obtain ⟨delay, _, ran⟩ := ran
      refine ((schedule_apart _ _ _ _).leads _ _ _ ran).moves.congr fun r hr => ?_
      simp only [Rule.react, live, answer, if_true]
    | ok events =>
      simp only [answer] at ran
      refine (replay_moves events ran).congr fun r hr => ?_
      simp only [Rule.react, live, answer, if_true]
  · simp only [live, not_false_eq_true, if_true, pure_ok] at ran
    rw [← ran.2]
    refine (refl_of Apart s).moves.congr fun r hr => ?_
    simp only [Rule.react, live, if_false]

theorem handlePollHealth_keeps {R : Engine → Engine → Prop} [IsPreorder Engine R] {w : World}
    (recorded : ∀ direction name s, R s (recordHealth w direction name s))
    (undone : ∀ s t, R s t → R s { t with store := s.store })
    (scheduled : Keeps R (schedule w healthPollIntervalSeconds .pollHealth)) :
    Keeps R (handlePollHealth w) := by
  have all : ∀ direction (names : List Name),
      Keeps R (names.forM fun name => modify (recordHealth w direction name) : Core Unit) :=
    fun direction names => Keeps.forM names fun name _ => keeps_modify (recorded direction name)
  refine Keeps.bind (Keeps.restoring ?_ undone) fun _ => scheduled
  exact Keeps.bind keeps_get fun s => Keeps.bind (all _ _) fun _ =>
    Keeps.bind keeps_get fun t => all _ _

theorem handlePollHealth_apart (w : World) : Keeps Apart (handlePollHealth w) :=
  handlePollHealth_keeps (fun _ _ _ => rfl) (fun _ _ => Apart.undone) (schedule_apart _ _ _ _)

structure Resulted (message : PushResultMessage) (s t : Engine) : Prop where
  graph : t.graph = s.graph
  plugins : t.plugins = s.plugins
  dispatcher : t.dispatcher = s.dispatcher
  inFlight : t.inFlight = s.inFlight.erase message.instanceName
  mirror : t.store.mirror = s.store.mirror
  cache : t.latches = s.latches
  stored : t.store.latches = s.store.latches
  latch : ∀ n, t.latch n = s.latch n
  lastApplied : ∀ o, t.lastApplied o =
    if message.succeeded ∧ o = message.instanceName then some message.pushedValue
    else s.lastApplied o
  synced : Synced t message.instanceName
  others : ∀ o, o ≠ message.instanceName → SameOutput s t o

/-- A result is recorded before the output is synchronised: a success as the last
applied value, a failure as a row with its backoff. -/
structure Recorded (message : PushResultMessage) (s t : Engine) : Prop where
  only : t = { s with store := { s.store with
    pendingPushes := t.store.pendingPushes
    outputState := t.store.outputState
    eventLog := t.store.eventLog } }
  lastApplied : ∀ o, t.lastApplied o =
    if message.succeeded ∧ o = message.instanceName then some message.pushedValue
    else s.lastApplied o
  others : ∀ o, o ≠ message.instanceName → t.store.pendingPush o = s.store.pendingPush o

theorem recordPushSuccess_recorded {w : World} {message : PushResultMessage} (s : Engine)
    (succeeded : message.succeeded) : Recorded message s (recordPushSuccess w message s) := by
  refine ⟨rfl, fun o => ?_, fun _ _ => rfl⟩
  simp only [recordPushSuccess, appendEvent, onStore, Store.writeOutputState, Store.appendEvent,
    lastApplied, Store.outputStateOf, succeeded, true_and]
  by_cases same : o = message.instanceName
  · subst same
    simp
  · simp [same, AList.lookup_insert_ne same]

theorem recordPushFailure_recorded {w : World} {message : PushResultMessage} {s t : Engine}
    (failed : ¬ message.succeeded) (ran : recordPushFailure w message s = .ok ⟨⟩ t) :
    Recorded message s t := by
  simp only [recordPushFailure, get_bind_ok, raising_bind_ok, modify_bind_ok, modify_ok] at ran
  obtain ⟨delay, _, dueAt, _, rfl⟩ := ran
  refine ⟨rfl, fun o => ?_, fun o other => ?_⟩
  · rw [if_neg fun h => failed h.1]
    rfl
  · exact (Store.pendingPush_write ..).trans (if_neg other)

theorem handlePushResult_recorded {w : World} {message : PushResultMessage} {s t : Engine}
    (ran : handlePushResult w message s = .ok ⟨⟩ t) :
    ∃ m, Recorded message { s with inFlight := s.inFlight.erase message.instanceName } m ∧
      t = m.syncOutputs w.now [message.instanceName] := by
  simp only [handlePushResult, transaction, modify_bind_ok, restoring_ok] at ran
  split at ran
  · rename_i succeeded
    simp only [modify_bind_ok, modify_ok] at ran
    exact ⟨_, recordPushSuccess_recorded _ succeeded, ran⟩
  · rename_i failed
    obtain ⟨_, m, recorded, synced⟩ := bind_ok.mp ran
    exact ⟨m, recordPushFailure_recorded failed recorded, modify_ok.mp synced⟩

theorem handlePushResult_resulted {w : World} {message : PushResultMessage} {s t : Engine}
    (ran : handlePushResult w message s = .ok ⟨⟩ t) : Resulted message s t := by
  obtain ⟨m, recorded, rfl⟩ := handlePushResult_recorded ran
  have only := syncOutputs_only w.now [message.instanceName] m
  constructor
  case lastApplied =>
    intro o
    rw [only.lastApplied, recorded.lastApplied]
    rfl
  case latch =>
    intro n
    rw [only.latch, recorded.only]
    rfl
  case mirror =>
    rw [only.eq, recorded.only]
    rfl
  case synced => exact syncOutputs_synced w.now (List.mem_singleton.mpr rfl) m
  case others =>
    intro o differs
    refine ⟨?_, ?_, ?_⟩
    · rw [only.desired, recorded.only]
      rfl
    · rw [only.lastApplied, recorded.lastApplied, if_neg fun h => differs h.2]
      rfl
    · exact (syncOutput_other w.now false differs m).trans (recorded.others o differs)
  all_goals rw [only.eq, recorded.only]

theorem Resulted.settles {message : PushResultMessage} {s t : Engine}
    (resulted : Resulted message s t) (o : Name) : Settles o s t := by
  by_cases same : o = message.instanceName
  · exact .inr (same ▸ resulted.synced)
  · exact .inl (resulted.others o same)

def reloaded (now : Time) (message : ReloadMessage) (s : Engine) : Engine :=
  let a := appendEvent now .configLoaded none none
    s!"{message.configuration.rules.length} rules, {message.configuration.instances.length} instances"
    (adopt message s)
  let t := a.syncOutputs now (RuleGraph.sortedNames (s.graph.outputNames ++ a.graph.outputNames))
  { t with acknowledged := message.acknowledged :: t.acknowledged }

theorem handleReload_ok {w : World} {message : ReloadMessage} {s t : Engine} :
    handleReload w message s = .ok ⟨⟩ t ↔ t = reloaded w.now message s := by
  simp only [handleReload, transaction, get_bind_ok, modify_bind_ok]
  simp only [bind_ok, restoring_ok, modify_ok, reloaded]
  constructor
  · rintro ⟨_, _, ⟨_, _, rfl, rfl⟩, rfl⟩
    rfl
  · rintro rfl
    exact ⟨⟨⟩, _, ⟨⟨⟩, _, rfl, rfl⟩, rfl⟩

theorem adopt_store (message : ReloadMessage) (s : Engine) : (adopt message s).store = s.store := by
  cases plugins : message.plugins <;> simp only [adopt, plugins] <;> rfl

theorem reloaded_only (now : Time) (message : ReloadMessage) (s : Engine) :
    reloaded now message s = { adopt message s with
      store := { s.store with
        pendingPushes := (reloaded now message s).store.pendingPushes
        eventLog := (reloaded now message s).store.eventLog }
      acknowledged := message.acknowledged :: (adopt message s).acknowledged } := by
  simp only [reloaded]
  rw [(syncOutputs_only now _ _).eq, appendEvent, onStore, adopt_store]
  rfl

theorem reloaded_graph (now : Time) (message : ReloadMessage) (s : Engine) :
    (reloaded now message s).graph = RuleGraph.fromConfiguration message.configuration := by
  rw [reloaded_only]
  rfl

theorem reloaded_plugins (now : Time) (message : ReloadMessage) (s : Engine) :
    (reloaded now message s).plugins = message.plugins.getD s.plugins := by
  rw [reloaded_only]
  cases plugins : message.plugins <;> simp only [adopt, plugins] <;> rfl

theorem reloaded_pushing (now : Time) (message : ReloadMessage) (s : Engine) :
    (reloaded now message s).inFlight = s.inFlight ∧
      (reloaded now message s).dispatcher.queue = s.dispatcher.queue ∧
      ∀ o, (reloaded now message s).lastApplied o = s.lastApplied o := by
  rw [reloaded_only]
  cases plugins : message.plugins <;> simp only [adopt, plugins] <;> exact ⟨rfl, rfl, fun _ => rfl⟩

theorem reloaded_served (now : Time) (message : ReloadMessage) {s : Engine}
    (served : s.dispatcher.outputs = s.plugins.outputs) :
    (reloaded now message s).dispatcher.outputs = (reloaded now message s).plugins.outputs := by
  rw [reloaded_only]
  cases plugins : message.plugins with
  | none =>
    simp only [adopt, plugins]
    exact served
  | some own =>
    simp only [adopt, plugins]
    rfl

/-- A reload synchronises every output of the old graph and of the new one, and any
other output is desired clear before and after. -/
theorem handleReload_settled {w : World} {message : ReloadMessage} {s t : Engine}
    (ran : handleReload w message s = .ok ⟨⟩ t) :
    (∀ o ∈ t.graph.outputNames, Synced t o) ∧ ∀ o, Settles o s t := by
  rw [handleReload_ok] at ran
  subst ran
  simp only [reloaded]
  generalize logged : appendEvent _ _ _ _ _ (adopt message s) = a
  have applied : ∀ o, a.lastApplied o = s.lastApplied o := by
    intro o
    simp only [← logged, lastApplied, appendEvent, onStore, adopt_store]
    rfl
  have pending : ∀ o, a.store.pendingPush o = s.store.pendingPush o := by
    intro o
    simp only [← logged, appendEvent, onStore, adopt_store]
    rfl
  generalize names : RuleGraph.sortedNames (s.graph.outputNames ++ a.graph.outputNames) = synced
  have only := syncOutputs_only w.now synced a
  have acknowledged : ∀ o, Synced (a.syncOutputs w.now synced) o →
      Synced { a.syncOutputs w.now synced with
        acknowledged := message.acknowledged :: (a.syncOutputs w.now synced).acknowledged } o :=
    fun o synced => ⟨synced.behind, synced.target⟩
  refine ⟨fun o member => acknowledged o (syncOutputs_synced w.now ?_ a), fun o => ?_⟩
  · rw [← names, RuleGraph.mem_sortedNames, List.mem_append, ← only.graph]
    exact .inr member
  · by_cases listed : o ∈ synced
    · exact .inr (acknowledged o (syncOutputs_synced w.now listed a))
    · rw [← names, RuleGraph.mem_sortedNames, List.mem_append, not_or] at listed
      have same : SameOutput s a o := by
        refine ⟨?_, applied o, pending o⟩
        simp only [desired, RuleGraph.desired_absent listed.1, RuleGraph.desired_absent listed.2]
      have settled := trans_of (Settles o) (.inl same) (syncOutputs_settles w.now synced o a)
      refine trans_of (Settles o) settled ?_
      exact .inl ⟨rfl, rfl, rfl⟩

/- Any message, and the timers of a tick. -/

theorem advance_handle {w : World} {message : CoreMessage} {s t : Engine} :
    advance s (.handle w message) = some t ↔ handle w message s = .ok ⟨⟩ t := by
  simp only [advance, Step.perform]
  cases handle w message s <;> simp

theorem advance_tick {w : World} {s t : Engine} :
    advance s (.tick w) = some t ↔ tick w s = .ok ⟨⟩ t := by
  simp only [advance, Step.perform]
  cases tick w s <;> simp

theorem handle_moves {w : World} {message : CoreMessage} {s t : Engine}
    (own : ∀ result, message ≠ .pushResult result) (keeping : ∀ reload, message ≠ .reload reload)
    (ran : handle w message s = .ok ⟨⟩ t) : Moves (fun r => r.react s.plugins w message) s t := by
  cases message with
  | inputEvent message => exact handleInputEvent_moves ran
  | unlatchRequest message => exact handleUnlatch_moves ran
  | pushResult result => exact absurd rfl (own result)
  | reload reload => exact absurd rfl (keeping reload)
  | reconcileOutput message => exact handleReconcileRetry_moves ran
  | catchUp message => exact handleCatchUpRetry_moves ran
  | pollHealth => exact ((handlePollHealth_apart w).leads _ _ _ ran).moves
  | shutdown =>
    rw [modify_ok.mp ran]
    exact Apart.moves rfl

theorem handle_settles (w : World) (message : CoreMessage) (o : Name) :
    Leads (Settles o) (handle w message) := by
  intro s _ t ran
  cases message with
  | pushResult result => exact (handlePushResult_resulted ran).settles o
  | reload reload => exact (handleReload_settled ran).2 o
  | _ => exact (handle_moves (by simp) (by simp) ran).outputs o

theorem scheduled_own (timer : ScheduledMessage) :
    (∀ result, timer.message ≠ .pushResult result) ∧ ∀ reload, timer.message ≠ .reload reload := by
  have scheduled := timer.scheduled
  refine ⟨fun result same => ?_, fun reload same => ?_⟩ <;>
  · rw [same] at scheduled
    exact scheduled

def firing (plugins : PluginSet) (w : World) (due : List ScheduledMessage) (rule : Rule)
    (record : LatchRecord) : LatchRecord :=
  due.foldl (fun record timer => rule.react plugins w timer.message record) record

theorem fire_moves {w : World} (due : List ScheduledMessage) {s t : Engine}
    (ran : due.forM (fun timer => handle w timer.message) s = .ok ⟨⟩ t) :
    Moves (firing s.plugins w due) s t := by
  induction due generalizing s with
  | nil =>
    rw [← forM_nil_ok.mp ran]
    exact (refl_of Apart s).moves
  | cons timer due ih =>
    obtain ⟨m, hm, rest⟩ := forM_cons_ok.mp ran
    have first : Moves (fun r => r.react s.plugins w timer.message) s m :=
      handle_moves (scheduled_own timer).1 (scheduled_own timer).2 hm
    have later := ih rest
    rw [first.plugins] at later
    exact first.trans later

theorem fireDueTimers_moves {w : World} {s t : Engine}
    (ran : fireDueTimers w s = .ok ⟨⟩ t) :
    Moves (firing s.plugins w (s.timers.filter (·.dueAt ≤ w.now))) s t := by
  simp only [fireDueTimers, get_bind_ok, modify_bind_ok] at ran
  have taken : Apart s { s with timers := s.timers.filter fun timer => ¬ timer.dueAt ≤ w.now } :=
    rfl
  exact taken.moves.trans (fire_moves _ ran)

theorem tick_ok {w : World} {s t : Engine} (ran : tick w s = .ok ⟨⟩ t) :
    ∃ m, fireDueTimers w { s with heartbeat := some w.now } = .ok ⟨⟩ m ∧
      t = maybeWriteLastSeen w.now (m.dispatchDuePushes w.now) := by
  simp only [tick, modify_bind_ok] at ran
  obtain ⟨_, m, fired, rest⟩ := bind_ok.mp ran
  simp only [modify_bind_ok, modify_ok] at rest
  exact ⟨m, fired, rest⟩

theorem maybeWriteLastSeen_only (now : Time) (s : Engine) :
    maybeWriteLastSeen now s = { s with
      store := { s.store with daemonState := (maybeWriteLastSeen now s).store.daemonState }
      lastSeenWrittenAt := (maybeWriteLastSeen now s).lastSeenWrittenAt } := by
  simp only [maybeWriteLastSeen]
  split <;> rfl

end Engine

end NotiMapper
