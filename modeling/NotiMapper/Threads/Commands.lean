import NotiMapper.Engine.Surviving
import NotiMapper.Storage.Orphans
import NotiMapper.Threads.AbandonedReload
import NotiMapper.Threads.LatchHistory

/-! The commands that write to the database of a daemon that runs. `purge` and `rename` take
rows of rules away, to which the core's latches refer; so they must leave those of every
graph that the core runs or is still handed. -/
namespace NotiMapper

open Python Effect Engine

namespace Service

/-- A transaction of `_purge` or `_rename`. -/
inductive Command
  | purgeOrphans
  | renameRule (oldName newName : Name)
  | appendEvent (loggedAt : Time) (kind : EventKind) (ruleName : Option Name) (detail : String)

/-- What `append_event` keeps unless it is told otherwise. -/
def defaultMaxRows : Nat := 10000

def Command.perform (command : Command) (store : Store) : Store :=
  match command with
  | .purgeOrphans => store.purgeOrphans.2
  | .renameRule oldName newName => store.committed (store.renameRule oldName newName)
  | .appendEvent loggedAt kind ruleName detail =>
    store.appendEvent defaultMaxRows loggedAt kind none ruleName detail

inductive Act
  | step (step : Step)
  | command (command : Command)

/-- The daemon takes a step, or a command comes in between. -/
def act (s : Service) : Act → Option Service
  | .step step => advance s step
  | .command command => some { s with engine := s.engine.onStore command.perform }

/-- The graph the core runs, and those it is to run: of the reloads on its queue, and of the
configuration that the reload thread has mirrored. -/
def graphs (s : Service) : List RuleGraph :=
  s.engine.graph :: (s.queue.filterMap (·.1.graph) ++
    s.outside.reloading.configuration.toList.map RuleGraph.fromConfiguration)

/-- The command leaves the rows of the rules in these graphs. -/
def Harmless (s : Service) : Act → Prop
  | .step _ | .command (.appendEvent _ _ _ _) => True
  | .command .purgeOrphans => ∀ g ∈ graphs s, ∀ r ∈ g.entries,
    s.engine.store.orphanFlag r.name ≠ some true
  | .command (.renameRule oldName _) => ∀ g ∈ graphs s, ∀ r ∈ g.entries, r.name ≠ oldName

instance (s : Service) (a : Act) : Decidable (Harmless s a) :=
  match a with
  | .step _ | .command (.appendEvent _ _ _ _) => isTrue trivial
  | .command .purgeOrphans => inferInstanceAs (Decidable (∀ g ∈ graphs s, ∀ r ∈ g.entries,
    s.engine.store.orphanFlag r.name ≠ some true))
  | .command (.renameRule oldName _) => inferInstanceAs (Decidable
    (∀ g ∈ graphs s, ∀ r ∈ g.entries, r.name ≠ oldName))

/-- Every rule of these graphs has its row. -/
def Rooted (s : Service) : Prop :=
  ∀ g ∈ graphs s, ∀ r ∈ g.entries, r.name ∈ s.engine.store.rules

variable {s t : Service} {step : Step}

/- What a step of the daemon does to the graphs and to the rows. -/

theorem graphs_kept {g : RuleGraph} (here : g ∈ graphs t)
    (graph : t.engine.graph ∈ graphs s)
    (queued : ∀ entry ∈ t.queue, ∀ g ∈ entry.1.graph, g ∈ graphs s)
    (held : ∀ c ∈ t.outside.reloading.configuration, RuleGraph.fromConfiguration c ∈ graphs s) :
    g ∈ graphs s := by
  rcases List.mem_cons.mp here with rfl | here
  · exact graph
  · rcases List.mem_append.mp here with here | here
    · obtain ⟨entry, member, found⟩ := List.mem_filterMap.mp here
      exact queued entry member g found
    · obtain ⟨c, member, rfl⟩ := List.mem_map.mp here
      exact held c (Option.mem_toList.mp member)

theorem graph_mem (s : Service) : s.engine.graph ∈ graphs s := List.mem_cons_self

theorem queued_mem (s : Service) {entry : CoreMessage × Unit} (member : entry ∈ s.queue) {g : RuleGraph}
    (found : g ∈ entry.1.graph) : g ∈ graphs s :=
  List.mem_cons_of_mem _ (List.mem_append_left _ (List.mem_filterMap.mpr ⟨entry, member, found⟩))

theorem held_mem (s : Service) {c : Configuration} (held : c ∈ s.outside.reloading.configuration) :
    RuleGraph.fromConfiguration c ∈ graphs s :=
  List.mem_cons_of_mem _ (List.mem_append_right _
    (List.mem_map.mpr ⟨c, Option.mem_toList.mpr held, rfl⟩))

/-- A submitted message that is no reload brings no graph. -/
theorem graphs_submitted {message : CoreMessage} (none : message.graph = none) {g : RuleGraph}
    (here : g ∈ graphs (s.submit message ())) : g ∈ graphs s := by
  refine graphs_kept here (graph_mem s) (fun entry member g found => ?_) fun c => held_mem s
  rcases List.mem_append.mp member with before | added
  · exact queued_mem s before found
  · rw [List.mem_singleton.mp added, none] at found
    cases found

theorem graphs_advanced (stepped : advance s step = some t) {g : RuleGraph} (here : g ∈ graphs t) :
    g ∈ graphs s ∨ ∃ c, step = .reload (.mirror c) ∧ g = RuleGraph.fromConfiguration c := by
  cases step with
  | receive w =>
    obtain ⟨message, note, rest, engine, waiting, handled, rfl⟩ := Threads.receive_eq_some.mp stepped
    have later : ∀ entry ∈ rest, entry ∈ s.queue :=
      fun entry member => waiting ▸ List.mem_cons_of_mem _ member
    refine .inl (graphs_kept here ?_ (fun entry member g => queued_mem s (later entry member))
      fun c => held_mem s)
    rcases Engine.advance_cases handled with ⟨_, reacted⟩ | ⟨_, reload, same, rfl⟩
    · exact reacted.graph ▸ graph_mem s
    · cases same
      rw [reloaded_graph]
      exact queued_mem s (waiting ▸ List.mem_cons_self) rfl
  | tick w =>
    obtain ⟨engine, ticked, rfl⟩ := Threads.tick_eq_some.mp stepped
    rcases Engine.advance_cases ticked with ⟨_, reacted⟩ | ⟨_, _, same, _⟩
    · exact .inl (graphs_kept here (reacted.graph ▸ graph_mem s) (fun entry member g =>
        queued_mem s member) fun c => held_mem s)
    · cases same
  | emit message =>
    cases stepped
    exact .inl (graphs_submitted rfl here)
  | requestUnlatch message =>
    cases stepped
    exact .inl (graphs_submitted rfl here)
  | requestStop =>
    cases stepped
    exact .inl (graphs_submitted rfl here)
  | perform k applied =>
    obtain ⟨request, _, rfl⟩ := Threads.perform_eq_some.mp stepped
    refine .inl (graphs_kept here (graph_mem s) (fun entry member g => queued_mem s member)
      fun c held => ?_)
    rw [call_shown] at held
    exact held_mem s held
  | report k =>
    obtain ⟨result, _, rfl⟩ := Threads.report_eq_some.mp stepped
    have silent : (CoreMessage.pushResult result).graph = none := rfl
    exact .inl (graphs_submitted silent here)
  | reload action =>
    have unheld : t.engine.graph = s.engine.graph → t.queue = s.queue →
        (∀ c ∈ t.outside.reloading.configuration, RuleGraph.fromConfiguration c ∈ graphs s) →
          g ∈ graphs s := fun graph queue held =>
      graphs_kept here (graph ▸ graph_mem s) (fun entry member g => queued_mem s (queue ▸ member)) held
    cases reload_took stepped with
    | rejected idle => exact .inl here
    | @mirrored configuration idle =>
      rcases List.mem_cons.mp here with rfl | here
      · exact .inl (graph_mem s)
      · rcases List.mem_append.mp here with here | here
        · obtain ⟨entry, member, found⟩ := List.mem_filterMap.mp here
          exact .inl (queued_mem s member found)
        · obtain ⟨c, member, rfl⟩ := List.mem_map.mp here
          cases Option.mem_toList.mp member
          exact .inr ⟨configuration, rfl, rfl⟩
    | read held => exact .inl (unheld rfl rfl fun c here => held_mem s (held ▸ here))
    | assigned held => exact .inl (unheld rfl rfl fun c here => held_mem s (held ▸ here))
    | @submitted configuration shop built next held made =>
      refine .inl (graphs_kept here (graph_mem s) (fun entry member g found => ?_) nofun)
      rcases List.mem_append.mp member with before | added
      · exact queued_mem s before found
      · rw [List.mem_singleton.mp added] at found
        cases found
        exact held_mem s (held ▸ rfl)
    | _ => exact .inl (unheld rfl rfl nofun)

theorem mirrorConfiguration_rules (store : Store) (configuration : Configuration) {n : Name}
    (known : n ∈ store.rules) : n ∈ (Daemon.mirrorConfiguration store configuration).rules := by
  have names : (configuration.rules.map Daemon.ruleRecord).map (·.name) =
      configuration.rules.map (·.name) := List.map_map
  have mirrored := Store.syncRules_mirrored
    (store.syncInstances (configuration.instances.map Daemon.instanceRecord)).2
    (configuration.rules.map Daemon.ruleRecord) (names ▸ configuration.rules_nodup)
  have rules := Daemon.syncInstances_keeps (·.rules) (fun _ _ => rfl) store
    (configuration.instances.map Daemon.instanceRecord)
  exact (mirrored.mem_rules n).mpr (.inr (rules ▸ known))

theorem rules_advanced (stepped : advance s step = some t) {n : Name}
    (known : n ∈ s.engine.store.rules) : n ∈ t.engine.store.rules := by
  by_cases requested : step.Requests
  · cases step with
    | reload action =>
      cases reload_took stepped with
      | mirrored idle => exact mirrorConfiguration_rules _ _ known
      | _ => exact known
    | _ => cases requested
  · have same : t.engine.store.rules = s.engine.store.rules :=
      congrArg (·.2.1) (advance_mirror requested stepped)
    exact same ▸ known

theorem Rooted.advanced (rooted : Rooted s) (stepped : advance s step = some t) : Rooted t := by
  intro g here r known
  rcases graphs_advanced stepped here with before | ⟨c, rfl, rfl⟩
  · exact rules_advanced stepped (rooted g before r known)
  · cases reload_took stepped
    exact (Daemon.mirrorConfiguration_registered s.engine.store c known).1

/- What a command does to the rows. -/

theorem renameRule_rules {store renamed : Store} {oldName newName n : Name} (other : n ≠ oldName)
    (done : store.renameRule oldName newName = .ok renamed) (known : n ∈ store.rules) :
    n ∈ renamed.rules := by
  unfold Store.renameRule at done
  split at done
  · cases done
  · split_ifs at done
    cases done
    exact AList.mem_erase.mpr ⟨other, (AList.mem_insert _).mpr (.inr known)⟩

theorem Rooted.commanded {command : Command} (rooted : Rooted s)
    (harmless : Harmless s (.command command)) :
    Rooted { s with engine := s.engine.onStore command.perform } := by
  intro g here r member
  have known := rooted g here r member
  cases command with
  | purgeOrphans =>
    have purged := Store.purgeOrphans_purged s.engine.store
    exact (purged.mem_rules r.name).mpr ⟨harmless g here r member, known⟩
  | renameRule oldName newName =>
    simp only [Engine.onStore, Command.perform]
    cases done : s.engine.store.renameRule oldName newName with
    | error failure => exact known
    | ok renamed => exact renameRule_rules (harmless g here r member) done known
  | appendEvent loggedAt kind ruleName detail => exact known

theorem Rooted.acted {a : Act} (rooted : Rooted s) (harmless : Harmless s a)
    (acted : act s a = some t) : Rooted t := by
  cases a with
  | step step => exact rooted.advanced acted
  | command command =>
    cases acted
    exact rooted.commanded harmless

/- From the start on. -/

theorem reconcile_rules {w : World} {s t : Engine} (ran : reconcile w s = .ok ⟨⟩ t) :
    t.store.rules = s.store.rules := by
  obtain ⟨steps⟩ := reconcile_run ran
  have asked : steps.asked.store.rules = s.store.rules := steps.apart.moves.known
  have decided : steps.decided.store.rules = steps.asked.store.rules := by
    rw [steps.relatched.only.eq]
    rfl
  have forced : steps.forced.store.rules = steps.decided.store.rules := by
    rw [steps.forcing, (forceOutputs_spec w.now _ _).1.eq]
    rfl
  have sent : steps.sent.store.rules = steps.forced.store.rules := by
    rw [steps.dispatched.only]
  rw [steps.ready]
  exact sent.trans (forced.trans (decided.trans asked))

theorem Launched.rooted {boot : Daemon.Boot} {store : Store} {configuration : Configuration}
    (launched : Launched boot store configuration s) : Rooted s := by
  obtain ⟨graph, _, _⟩ := started_tracked launched.started
  obtain ⟨_, m, handedOver, reconciled⟩ := bind_ok.mp launched.started
  obtain ⟨m₁, m₂, reloaded, first, second⟩ := Daemon.handOver_ok handedOver
  have begun : m₁.store.rules = (Daemon.mirrorConfiguration store configuration).rules := by
    rw [handleReload_ok.mp reloaded, reloaded_only]
    rfl
  have ticked : m.store.rules = m₁.store.rules :=
    (congrArg (·.2.1) (tick_reacted second).mirror).trans
      (congrArg (·.2.1) (tick_reacted first).mirror)
  have rows := (reconcile_rules reconciled).trans (ticked.trans begun)
  have only : graphs s = [RuleGraph.fromConfiguration configuration] := by
    rw [graphs, graph, launched.queue, launched.idle]
    rfl
  intro g here r known
  rw [only, List.mem_singleton] at here
  subst here
  rw [rows]
  exact (Daemon.mirrorConfiguration_registered store configuration known).1

theorem Rooted.grounded (rooted : Rooted s) : s.engine.Grounded := rooted _ (graph_mem s)

/-- However the threads interleave, and whatever harmless commands come in between, the core
gets through its next message, or its next tick, exactly if the moments it asks for exist:
no latch it writes lacks its row. -/
theorem core_goes_on (boot : Daemon.Boot) (store : Store) (configuration : Configuration)
    (s t : Service) (acts : List Act) (launched : Launched boot store configuration s)
    (harmless : Transition.Throughout act Harmless s acts)
    (ran : Transition.run act s acts = some t) (w : World) :
    (∀ message note rest, t.queue = (message, note) :: rest →
      ((∃ u, act t (.step (.receive w)) = some u) ↔ Bearable w t.engine message)) ∧
    ((∃ u, act t (.step (.tick w)) = some u) ↔ ∀ timer ∈ t.engine.timers,
      timer.dueAt ≤ w.now → Bearable w t.engine timer.message) := by
  have rooted : Rooted t := Transition.guarded_invariant
    (fun _ _ _ rooted harmless acted => rooted.acted harmless acted) launched.rooted harmless ran
  constructor
  · intro message note rest waiting
    rw [← handle_returns_iff rooted.grounded]
    simp only [act, advance, Threads.receive, waiting, Option.map_eq_some_iff, ← advance_handle]
    constructor
    · rintro ⟨_, engine, handled, _⟩
      exact ⟨engine, handled⟩
    · rintro ⟨engine, handled⟩
      exact ⟨_, engine, handled, rfl⟩
  · have ticks := advance_returns_iff rooted.grounded (.tick w)
    rw [← StepBearable, ← ticks]
    simp only [act, advance, Threads.tick, Option.map_eq_some_iff]
    constructor
    · rintro ⟨_, engine, ticked, _⟩
      exact ⟨engine, ticked⟩
    · rintro ⟨engine, ticked⟩
      exact ⟨_, engine, ticked, rfl⟩

/-- An event one of whose rules has lost its row is where the core ends. -/
theorem lost_row_halts {w : World} {message : InputEventMessage} {note : Unit}
    {rest : List (CoreMessage × Unit)} (waiting : s.queue = (.inputEvent message, note) :: rest)
    {r : Rule} (listed : r ∈ s.engine.graph.rulesForInput message.instanceName)
    (lost : r.name ∉ s.engine.store.rules) : act s (.step (.receive w)) = none := by
  simp only [act, advance, Threads.receive, waiting, Option.map_eq_none_iff]
  cases handled : Engine.advance s.engine (.handle w (.inputEvent message)) with
  | none => rfl
  | some engine => exact absurd (advance_event_covered handled r listed) lost

namespace Sample

/-- The rule is taken out, its orphan purged, and the rule put back. -/
def purging : List Act :=
  (reloading unruled 111).map .step ++
    [.command .purgeOrphans, .command (.appendEvent 112 .purged none "1 rules, 0 instances")] ++
    (reloading Daemon.sampleConfiguration 113).map .step

/-- The same, but that the reload has only just begun. -/
def purgingEarly : List Act := [.step (.reload (.mirror unruled)), .command .purgeOrphans]

def mail : InputEventMessage := ⟨"mail", ⟨114, "post"⟩⟩

end Sample

theorem run_mail {acts : List Act} {m : Service} (ran : Transition.run act s acts = some m)
    (empty : m.queue.isEmpty = true) : ∃ t, Transition.run act s
      (acts ++ [.step (.emit Sample.mail)]) = some t ∧ t.engine = m.engine ∧
        t.queue = [(.inputEvent Sample.mail, ())] := by
  refine ⟨_, Transition.run_snoc.mpr ⟨m, ran, rfl⟩, rfl, ?_⟩
  exact congrArg (· ++ [(CoreMessage.inputEvent Sample.mail, ())]) (List.isEmpty_iff.mp empty)

theorem purged_goes_on : ∃ t, Transition.run act Sample.launched
    (Sample.purging ++ [.step (.emit Sample.mail)]) = some t ∧
      ∃ u, act t (.step (.receive (Sample.quiet 114))) = some u := by
  have purged : Transition.run act Sample.launched Sample.purging = _ :=
    (Option.some_get (by decide +kernel)).symm
  obtain ⟨t, ran, -, waiting⟩ := run_mail purged (by decide +kernel)
  have goes := core_goes_on _ _ _ _ _ _ Sample.launched_launched (by decide +kernel) ran
    (Sample.quiet 114)
  exact ⟨t, ran, (goes.1 _ _ _ waiting).mpr trivial⟩

/-- The core still runs the rule whose row the command has purged. -/
theorem purged_early_halts : ∃ t, Transition.run act Sample.launched
    (Sample.purgingEarly ++ [.step (.emit Sample.mail)]) = some t ∧
      ∀ w, act t (.step (.receive w)) = none := by
  have purged : Transition.run act Sample.launched Sample.purgingEarly = _ :=
    (Option.some_get (by decide +kernel)).symm
  obtain ⟨t, ran, same, waiting⟩ := run_mail purged (by decide +kernel)
  refine ⟨t, ran, fun w => lost_row_halts (r := NotiMapper.Sample.rule) waiting ?_ ?_⟩
  · rw [same]
    decide +kernel
  · rw [same]
    decide +kernel

end Service

end NotiMapper
