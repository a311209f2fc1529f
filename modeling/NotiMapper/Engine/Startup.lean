import NotiMapper.Engine.Handling

/-! What startup reconciliation leaves: each latch decided once, from the answers of
the plugins that could be reached, and a row forced for every output that has a
plugin. -/
namespace NotiMapper

open Python Effect Engine

def downtimeOf (w : World) (plugins : PluginSet) (since : Option Time) (name : Name) :
    Option (List ObservedEvent) :=
  if name ∈ plugins.inputs then (w.catchUp name since).toOption else none

def reportOf (w : World) (plugins : PluginSet) (name : Name) : Option RemoteState :=
  if name ∈ plugins.outputs ∧ (queryOutput w name).belief ≠ .unknown then some (queryOutput w name)
  else none

namespace Rule

def eventsFrom (rule : Rule) (answer : Name → Option (List ObservedEvent)) :
    List ObservedEvent :=
  rule.inputs.flatMap fun name => (answer name).getD []

def reportsFrom (rule : Rule) (answer : Name → Option RemoteState) : List RemoteState :=
  rule.outputs.filterMap answer

def resolve (rule : Rule) (now : Time) (events : Name → Option (List ObservedEvent))
    (reports : Name → Option RemoteState) (record : LatchRecord) : ReconcileOutcome :=
  resolveRule now record ((rule.eventsFrom events).map (·.occurredAt)).max?
    (rule.reportsFrom reports)

end Rule

namespace Engine

/-- Asking plugins in turn, and keeping what they answer, only moves the timers. -/
theorem collect_ok {β : Type} {ask : Table β → Name → Core (Table β)} {answer : Name → Option β}
    (each : ∀ table n s table' t, ask table n s = .ok table' t →
      Apart s t ∧ table' = (answer n).elim table (table.insert n ·))
    {names : List Name} {table table' : Table β} {s t : Engine}
    (ran : names.foldlM ask table s = .ok table' t) :
    Apart s t ∧ ∀ n, table'.lookup n =
      if n ∈ names ∧ (answer n).isSome then answer n else table.lookup n := by
  induction names generalizing table s with
  | nil =>
    obtain ⟨rfl, rfl⟩ := pure_ok.mp ran
    exact ⟨refl_of Apart s, by simp⟩
  | cons name names ih =>
    rw [List.foldlM_cons, bind_ok] at ran
    obtain ⟨next, m, asked, rest⟩ := ran
    obtain ⟨first, rfl⟩ := each _ _ _ _ _ asked
    obtain ⟨later, found⟩ := ih rest
    refine ⟨trans_of Apart first later, fun n => ?_⟩
    rw [found n]
    by_cases same : n = name
    · subst same
      cases answer n with
      | none => simp
      | some x => simp
    · have apart : ((answer name).elim table (table.insert name ·)).lookup n = table.lookup n := by
        cases answer name with
        | none => rfl
        | some x => exact AList.lookup_insert_ne same
      rw [apart]
      simp only [List.mem_cons, same, false_or]

theorem askDowntime_ok {w : World} {since : Option Time} {plugins : PluginSet}
    {table table' : Table (List ObservedEvent)} {n : Name} {s t : Engine}
    (asked : askDowntime w since plugins table n s = .ok table' t) :
    Apart s t ∧ table' = (downtimeOf w plugins since n).elim table (table.insert n ·) := by
  unfold askDowntime at asked
  by_cases live : n ∈ plugins.inputs
  · simp only [live, not_true_eq_false, if_false] at asked
    simp only [downtimeOf, live, if_true]
    cases answer : w.catchUp n since with
    | ok events =>
      simp only [answer, pure_ok] at asked
      obtain ⟨rfl, rfl⟩ := asked
      exact ⟨refl_of Apart s, rfl⟩
    | error failure =>
      simp only [answer, bind_ok, pure_ok] at asked
      obtain ⟨_, _, scheduled, rfl, rfl⟩ := asked
      exact ⟨(schedule_apart _ _ _ _).leads _ _ _ scheduled, rfl⟩
  · simp only [live, not_false_eq_true, if_true, pure_ok] at asked
    obtain ⟨rfl, rfl⟩ := asked
    exact ⟨refl_of Apart s, by simp only [downtimeOf, live, if_false, Option.elim_none]⟩

theorem askRemote_ok {w : World} {plugins : PluginSet} {table table' : Table RemoteState}
    {n : Name} {s t : Engine} (asked : askRemote w plugins table n s = .ok table' t) :
    Apart s t ∧ table' = (reportOf w plugins n).elim table (table.insert n ·) := by
  unfold askRemote at asked
  by_cases live : n ∈ plugins.outputs
  · simp only [live, not_true_eq_false, if_false] at asked
    simp only [reportOf, live, true_and]
    by_cases unknown : (queryOutput w n).belief = .unknown
    · simp only [unknown, if_true, bind_ok, pure_ok] at asked
      obtain ⟨_, _, scheduled, rfl, rfl⟩ := asked
      refine ⟨(schedule_apart _ _ _ _).leads _ _ _ scheduled, ?_⟩
      simp only [unknown, ne_eq, not_true_eq_false, if_false, Option.elim_none]
    · simp only [unknown, if_false, pure_ok] at asked
      obtain ⟨rfl, rfl⟩ := asked
      refine ⟨refl_of Apart s, ?_⟩
      simp only [unknown, ne_eq, not_false_eq_true, if_true, Option.elim_some]
  · simp only [live, not_false_eq_true, if_true, pure_ok] at asked
    obtain ⟨rfl, rfl⟩ := asked
    exact ⟨refl_of Apart s, by simp only [reportOf, live, false_and, if_false, Option.elim_none]⟩

theorem collectDowntimeEvents_ok {w : World} {since : Option Time} {s t : Engine}
    {downtime : Table (List ObservedEvent)}
    (ran : collectDowntimeEvents w since s = .ok downtime t) :
    Apart s t ∧ ∀ n ∈ s.graph.inputNames, downtime.lookup n = downtimeOf w s.plugins since n := by
  simp only [collectDowntimeEvents, get_bind_ok] at ran
  obtain ⟨apart, found⟩ := collect_ok (fun _ _ _ _ _ => askDowntime_ok) ran
  refine ⟨apart, fun n member => ?_⟩
  rw [found n]
  cases known : downtimeOf w s.plugins since n with
  | none => simp
  | some events => simp [member]

theorem collectRemoteStates_ok {w : World} {s t : Engine} {reports : Table RemoteState}
    (ran : collectRemoteStates w s = .ok reports t) :
    Apart s t ∧ ∀ n ∈ s.graph.outputNames, reports.lookup n = reportOf w s.plugins n := by
  simp only [collectRemoteStates, get_bind_ok] at ran
  obtain ⟨apart, found⟩ := collect_ok (fun _ _ _ _ _ => askRemote_ok) ran
  refine ⟨apart, fun n member => ?_⟩
  rw [found n]
  cases known : reportOf w s.plugins n with
  | none => simp
  | some report => simp [member]

/- Forced synchronisation. -/

theorem syncOutput_forced (now : Time) (o q : Name) (s : Engine) :
    (s.syncOutput now true o).store.pendingPush q =
      if q = o then some ⟨s.desired o, 0, now, none⟩ else s.store.pendingPush q := by
  simp only [syncOutput, Bool.not_true, Bool.false_and, Bool.false_eq_true, if_false]
  exact Store.pendingPush_write ..

theorem forceOutputs_spec (now : Time) (names : List Name) (s : Engine) :
    PushesOnly s (s.forceOutputs now names) ∧
    ∀ q, (s.forceOutputs now names).store.pendingPush q =
      if q ∈ names then some ⟨s.desired q, 0, now, none⟩ else s.store.pendingPush q := by
  induction names generalizing s with
  | nil => exact ⟨rfl, by simp [forceOutputs]⟩
  | cons o names ih =>
    have only := syncOutput_only now true o s
    obtain ⟨rest, pushes⟩ := ih (s.syncOutput now true o)
    refine ⟨only.trans rest, fun q => (pushes q).trans ?_⟩
    rw [only.desired, syncOutput_forced]
    by_cases same : q = o
    · subst same
      simp
    · simp only [same, if_false, List.mem_cons, false_or]

/-- The end of the transaction: a row is forced for each of these outputs. -/
structure Forced (now : Time) (names : List Name) (s t : Engine) : Prop where
  graph : t.graph = s.graph
  plugins : t.plugins = s.plugins
  inFlight : t.inFlight = s.inFlight
  latch : ∀ n, t.latch n = s.latch n
  lastApplied : ∀ o, t.lastApplied o = s.lastApplied o
  pushes : ∀ o ∈ names, t.store.pendingPush o = some ⟨t.desired o, 0, now, none⟩

theorem forced_ok (now : Time) (names : List Name) (s : Engine) :
    Forced now names s { onStore (·.writeLastSeenAt now) (s.forceOutputs now names) with
      lastSeenWrittenAt := some now } := by
  obtain ⟨pushed, rows⟩ := forceOutputs_spec now names s
  refine ⟨pushed.graph, pushed.plugins, pushed.inFlight, pushed.latch, pushed.lastApplied, ?_⟩
  intro o member
  refine (rows o).trans ?_
  rw [if_pos member, ← pushed.desired o]
  rfl

theorem Forced.dispatched {now : Time} {names : List Name} {s m t : Engine}
    (forced : Forced now names s m) (sent : Dispatched now m t) {o : Name} (member : o ∈ names) :
    t.store.pendingPush o =
      if o ∈ s.inFlight ∨ o ∈ s.plugins.outputs then some ⟨t.desired o, 0, now, none⟩
      else none := by
  rw [sent.due (forced.pushes o member) (Nat.le_refl now), sent.desired, ← forced.inFlight,
    ← forced.plugins]
  simp only [dispatchedPush, Option.map_some, retarget]
  by_cases flying : o ∈ m.inFlight
  · simp only [flying, if_true, true_or]
  · simp only [flying, if_false, false_or]

structure Reconciled (w : World) (s t : Engine) : Prop where
  graph : t.graph = s.graph
  plugins : t.plugins = s.plugins
  latch : ∀ r ∈ s.graph.entries, t.latch r.name =
    (r.resolve w.now (downtimeOf w s.plugins s.store.lastSeenAt) (reportOf w s.plugins)
      (s.latch r.name)).applyTo (s.latch r.name)
        (r.eventsFrom (downtimeOf w s.plugins s.store.lastSeenAt)).length
  others : ∀ n, n ∉ s.graph.entries.map (·.name) → t.latch n = s.latch n
  writes : SameWrites s t
  lastApplied : ∀ o, t.lastApplied o = s.lastApplied o
  pushes : ∀ o ∈ s.graph.outputNames, t.store.pendingPush o =
    if o ∈ s.inFlight ∨ o ∈ s.plugins.outputs then some ⟨t.desired o, 0, w.now, none⟩ else none

theorem summarize_eq {downtime : Table (List ObservedEvent)} {rule : Rule}
    {answer : Name → Option (List ObservedEvent)}
    (found : ∀ name ∈ rule.inputs, downtime.lookup name = answer name) :
    summarize downtime rule.inputs =
      (((rule.eventsFrom answer).map (·.occurredAt)).max?, (rule.eventsFrom answer).length) := by
  have events : (rule.inputs.flatMap fun name => (downtime.lookup name).getD []) =
      rule.eventsFrom answer :=
    List.flatMap_congr fun name member => by rw [found name member]
  simp only [summarize, events]

section Decided

variable {w : World} {downtime : Table (List ObservedEvent)} {reports : Table RemoteState}
variable {events : Name → Option (List ObservedEvent)} {answers : Name → Option RemoteState}

theorem reconcileRule_relatched {r : Rule}
    (heard : ∀ name ∈ r.inputs, downtime.lookup name = events name)
    (reported : ∀ name ∈ r.outputs, reports.lookup name = answers name) {s t : Engine}
    (ran : reconcileRule w downtime reports r s = .ok ⟨⟩ t) :
    Relatched [r] (fun r record =>
      (r.resolve w.now events answers record).applyTo record (r.eventsFrom events).length) s t := by
  have asked : r.outputs.filterMap reports.lookup = r.reportsFrom answers :=
    List.filterMap_congr reported
  simp only [reconcileRule, summarize_eq heard, asked, get_bind_ok] at ran
  exact applyReconcileOutcome_relatched rfl ran

theorem reconcileRules_relatched {s t : Engine}
    (heard : ∀ name ∈ s.graph.inputNames, downtime.lookup name = events name)
    (reported : ∀ name ∈ s.graph.outputNames, reports.lookup name = answers name)
    (ran : s.graph.rules.forM (reconcileRule w downtime reports) s = .ok ⟨⟩ t) :
    Relatched s.graph.rules (fun r record =>
      (r.resolve w.now events answers record).applyTo record (r.eventsFrom events).length) s t := by
  refine Relatched.forM _ (fun r hr m m' ran => ?_) s.graph.rules_names_nodup ran
  have known := RuleGraph.mem_rules.mp hr
  exact reconcileRule_relatched
    (fun name member => heard name (RuleGraph.mem_inputNames.mpr ⟨r, known, member⟩))
    (fun name member => reported name (RuleGraph.mem_outputNames.mpr ⟨r, known, member⟩)) ran

end Decided

/-- Reconciliation asks the plugins, decides each rule, forces the outputs and dispatches. -/
structure ReconcileRun (w : World) (s t : Engine) where
  asked : Engine
  decided : Engine
  forced : Engine
  sent : Engine
  apart : Apart s asked
  relatched : Relatched s.graph.rules (fun r record =>
    (r.resolve w.now (downtimeOf w s.plugins s.store.lastSeenAt) (reportOf w s.plugins)
      record).applyTo record (r.eventsFrom (downtimeOf w s.plugins s.store.lastSeenAt)).length)
    (appendEvent w.now .daemonStarted none none "" asked) decided
  forcing : forced = { onStore (·.writeLastSeenAt w.now)
    (decided.forceOutputs w.now decided.graph.outputNames) with lastSeenWrittenAt := some w.now }
  dispatched : Dispatched w.now forced sent
  ready : t = { sent with ready := true }

theorem reconcile_run {w : World} {s t : Engine} (ran : reconcile w s = .ok ⟨⟩ t) :
    Nonempty (ReconcileRun w s t) := by
  simp only [reconcile, get_bind_ok] at ran
  obtain ⟨downtime, m₁, collected, ran⟩ := bind_ok.mp ran
  obtain ⟨reports, m₂, asked, ran⟩ := bind_ok.mp ran
  obtain ⟨_, m₃, decided, ran⟩ := bind_ok.mp ran
  simp only [modify_bind_ok, modify_ok] at ran
  simp only [transaction, restoring_ok, modify_bind_ok, get_bind_ok] at decided
  obtain ⟨_, m, looped, written⟩ := bind_ok.mp decided
  simp only [modify_bind_ok, modify_ok] at written
  obtain ⟨quiet₁, heard⟩ := collectDowntimeEvents_ok collected
  obtain ⟨quiet₂, reported⟩ := collectRemoteStates_ok asked
  have apart := trans_of Apart quiet₁ quiet₂
  have graph : m₂.graph = s.graph := apart.moves.graph
  have heard : ∀ name ∈ m₂.graph.inputNames,
      downtime.lookup name = downtimeOf w s.plugins s.store.lastSeenAt name :=
    fun name member => heard name (graph ▸ member)
  have reported : ∀ name ∈ m₂.graph.outputNames, reports.lookup name = reportOf w s.plugins name := by
    intro name member
    rw [graph, ← quiet₁.moves.graph] at member
    rw [reported name member, quiet₁.moves.plugins]
  have loop := reconcileRules_relatched (s := appendEvent w.now .daemonStarted none none "" m₂)
    heard reported looped
  have rules : (appendEvent w.now .daemonStarted none none "" m₂).graph.rules = s.graph.rules :=
    congrArg RuleGraph.rules graph
  rw [rules] at loop
  rw [written] at ran
  exact ⟨⟨m₂, m, _, _, apart, loop, rfl, dispatchDuePushes_spec _ _, ran⟩⟩

namespace ReconcileRun

variable {w : World} {s t : Engine}

theorem forced_eq (run : ReconcileRun w s t) : run.forced = { run.forced with
    graph := s.graph, plugins := s.plugins, dispatcher := s.dispatcher, inFlight := s.inFlight } := by
  have moved := run.apart.moves
  have pushed := (forceOutputs_spec w.now run.decided.graph.outputNames run.decided).1
  rw [run.forcing, pushed.eq, run.relatched.only.eq, ← moved.graph, ← moved.plugins,
    ← moved.dispatcher, ← moved.inFlight]
  rfl

theorem forced_pool (run : ReconcileRun w s t) : run.forced.plugins = s.plugins ∧
    run.forced.dispatcher = s.dispatcher ∧ run.forced.inFlight = s.inFlight := by
  rw [run.forced_eq]
  exact ⟨rfl, rfl, rfl⟩

theorem sent_pool (run : ReconcileRun w s t) :
    t.dispatcher = run.sent.dispatcher ∧ t.inFlight = run.sent.inFlight := by
  have dispatcher := congrArg Engine.dispatcher run.ready
  have inFlight := congrArg Engine.inFlight run.ready
  exact ⟨dispatcher, inFlight⟩

theorem forced_ok (run : ReconcileRun w s t) :
    Forced w.now s.graph.outputNames run.decided run.forced := by
  have graph : run.decided.graph = s.graph := run.relatched.only.graph.trans run.apart.moves.graph
  have forced := Engine.forced_ok w.now run.decided.graph.outputNames run.decided
  rwa [← run.forcing, graph] at forced

end ReconcileRun

theorem reconcile_spec {w : World} {s t : Engine} (ran : reconcile w s = .ok ⟨⟩ t) :
    Reconciled w s t := by
  obtain ⟨run⟩ := reconcile_run ran
  have moved := run.apart.moves
  have same := run.forced_eq
  have sent := run.dispatched
  rw [run.ready]
  constructor
  · rw [sent.graph, same]
  · rw [sent.plugins, same]
  · intro r hr
    have before : run.asked.latch r.name = s.latch r.name := moved.latch r hr
    have decided := run.relatched.written r (RuleGraph.mem_rules.mpr hr)
    rw [← before]
    exact (sent.latch r.name).trans ((run.forced_ok.latch r.name).trans decided)
  · intro n absent
    have kept : n ∉ s.graph.rules.map (·.name) := by
      simpa only [List.mem_map, RuleGraph.mem_rules] using absent
    exact (sent.latch n).trans ((run.forced_ok.latch n).trans
      ((run.relatched.kept n kept).trans (moved.others n absent)))
  · have decided : SameWrites s run.decided := trans_of SameWrites moved.writes run.relatched.writes
    rw [sent.only, run.forcing,
      (forceOutputs_spec w.now run.decided.graph.outputNames run.decided).1.eq]
    exact decided
  · intro o
    have applied : run.asked.lastApplied o = s.lastApplied o := by
      simp only [lastApplied, Store.outputStateOf, moved.outputState]
    rw [← applied]
    exact (sent.lastApplied o).trans
      ((run.forced_ok.lastApplied o).trans (run.relatched.only.lastApplied o))
  · intro o member
    have row := run.forced_ok.dispatched sent member
    rw [← run.forced_ok.inFlight, ← run.forced_ok.plugins, same] at row
    exact row

/-- A turn of the core thread: the reconciliation it starts with, or a step of its loop. -/
inductive Turn
  | reconcile (w : World)
  | step (step : Step)

def turn (s : Engine) : Turn → Option Engine
  | .reconcile w =>
    match Engine.reconcile w s with
    | .ok _ t => some t
    | .error _ _ => none
  | .step step => advance s step

theorem turn_reconcile {w : World} {s t : Engine} :
    turn s (.reconcile w) = some t ↔ Engine.reconcile w s = .ok ⟨⟩ t := by
  simp only [turn]
  cases Engine.reconcile w s <;> simp

end Engine

end NotiMapper
