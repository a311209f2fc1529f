import NotiMapper.Config.Wiring
import NotiMapper.Threads.Lifetimes

/-! Whether a rule's members are there. The graph and the objects are replaced together, by
one message, so along any run every member of a rule of the graph has an object on the side
it is listed on, if every configuration that is mirrored was provided for. -/
namespace NotiMapper

open Python Effect Engine

/-- Every member of a rule has an object on its side. -/
def Wired (graph : RuleGraph) (plugins : PluginSet) : Prop :=
  ∀ rule ∈ graph.entries, (∀ i ∈ rule.inputs, i ∈ plugins.inputs) ∧ ∀ o ∈ rule.outputs, o ∈ plugins.outputs

def LiveInstance.side (live : LiveInstance) : PluginDirection → Option PluginRef
  | .input => live.inputPlugin
  | .output => live.outputPlugin

section Serving

variable {discovered : Table LoadedPlugin} {configuration : Configuration}
  {live : Table LiveInstance}

theorem Serves.has (serves : Serves discovered configuration live)
    (provided : configuration.Provided discovered) {rule : RuleConfig}
    (member : rule ∈ configuration.rules) (direction : PluginDirection) {name : Name}
    (listed : name ∈ rule.members direction)
    (enabled : name ∈ configuration.enabledInstances.map (·.name)) :
    ∃ object, (live.lookup name).bind (·.side direction) = some object := by
  obtain ⟨i, there, rfl, plugin, found, side⟩ := provided.sided rule member direction name listed
  obtain ⟨c, running, named⟩ := List.mem_map.mp enabled
  have same : c = i := List.inj_on_of_nodup_map configuration.instances_nodup
    (mem_enabledInstances.mp running).1 there named
  subst same
  obtain ⟨l, held⟩ := Option.isSome_iff_exists.mp
    (AList.lookup_isSome.mpr ((serves.names c.name).mpr ⟨c, running, rfl⟩))
  obtain ⟨_, loaded, also, inputs, outputs⟩ := serves.made c running l held
  cases found.symm.trans also
  rw [held, Option.bind_some]
  cases direction with
  | input => exact Option.isSome_iff_exists.mp (inputs.trans side)
  | output => exact Option.isSome_iff_exists.mp (outputs.trans side)

theorem Serves.wired (serves : Serves discovered configuration live)
    (provided : configuration.Provided discovered) :
    Wired (RuleGraph.fromConfiguration configuration) (pluginSet live) := by
  intro rule member
  obtain ⟨configured, enabled, rfl⟩ := List.mem_map.mp member
  have known : configured ∈ configuration.rules := by
    rw [Configuration.enabledRules, List.mem_insertionSort] at enabled
    exact List.mem_of_mem_filter enabled
  have wired (side : LiveInstance → Option PluginRef) (name : Name)
      (has : ∃ object, (live.lookup name).bind side = some object) : name ∈ pluginsOf side live := by
    rw [← AList.lookup_isSome, lookup_pluginsOf]
    exact Option.isSome_iff_exists.mpr has
  constructor
  · intro i listed
    obtain ⟨listed, on⟩ := List.mem_filter.mp listed
    exact wired _ i (serves.has provided known .input listed (of_decide_eq_true on))
  · intro o listed
    obtain ⟨listed, on⟩ := List.mem_filter.mp listed
    exact wired _ o (serves.has provided known .output listed (of_decide_eq_true on))

end Serving

namespace Service

variable {s t : Service} {step : Step}

/-- The graph and the objects stay, or a reload that was waiting replaces both. -/
theorem advance_graph (stepped : advance s step = some t) :
    t.engine.graph = s.engine.graph ∧ t.engine.plugins = s.engine.plugins ∨
      ∃ message ∈ s.reloads,
        t.engine.graph = RuleGraph.fromConfiguration message.configuration ∧
          t.engine.plugins = message.plugins.getD s.engine.plugins := by
  cases step with
  | receive w =>
    obtain ⟨message, note, rest, engine, waiting, handled, rfl⟩ := Threads.receive_eq_some.mp stepped
    rcases Engine.advance_cases handled with ⟨_, reacted⟩ | ⟨_, reload, same, rfl⟩
    · exact .inl ⟨reacted.graph, reacted.plugins⟩
    · cases same
      refine .inr ⟨reload, ?_, reloaded_graph _ _ _, reloaded_plugins _ _ _⟩
      rw [reloads_cons waiting]
      exact List.mem_cons_self
  | tick w =>
    obtain ⟨engine, ticked, rfl⟩ := Threads.tick_eq_some.mp stepped
    exact .inl ⟨(tick_carried ticked).graph, (tick_carried ticked).plugins⟩
  | perform k applied =>
    obtain ⟨request, _, rfl⟩ := Threads.perform_eq_some.mp stepped
    exact .inl ⟨rfl, rfl⟩
  | report k =>
    obtain ⟨result, _, rfl⟩ := Threads.report_eq_some.mp stepped
    exact .inl ⟨rfl, rfl⟩
  | reload action => cases reload_took stepped <;> exact .inl ⟨rfl, rfl⟩
  | _ =>
    cases stepped
    exact .inl ⟨rfl, rfl⟩

theorem advance_configuration (stepped : advance s step = some t) {configuration : Configuration}
    (held : t.outside.reloading.configuration = some configuration) :
    s.outside.reloading.configuration = some configuration ∨
      step = .reload (.mirror configuration) := by
  cases step with
  | receive w =>
    obtain ⟨message, note, rest, engine, _, _, rfl⟩ := Threads.receive_eq_some.mp stepped
    exact .inl held
  | tick w =>
    obtain ⟨engine, _, rfl⟩ := Threads.tick_eq_some.mp stepped
    exact .inl held
  | perform k applied =>
    obtain ⟨request, _, rfl⟩ := Threads.perform_eq_some.mp stepped
    dsimp only at held
    rw [call_shown] at held
    exact .inl held
  | report k =>
    obtain ⟨result, _, rfl⟩ := Threads.report_eq_some.mp stepped
    exact .inl held
  | reload action =>
    cases reload_took stepped with
    | rejected => exact .inl held
    | mirrored =>
      cases held
      exact .inr rfl
    | read before | assigned before =>
      cases held
      rw [before]
      exact .inl rfl
    | _ => cases held
  | _ =>
    cases stepped
    exact .inl held

theorem Launched.graph {boot : Daemon.Boot} {store : Store} {configuration : Configuration}
    (launched : Launched boot store configuration s) :
    s.engine.graph = RuleGraph.fromConfiguration configuration := by
  obtain ⟨_, m, handedOver, reconciled⟩ := bind_ok.mp launched.started
  obtain ⟨m₁, m₂, reload, first, second⟩ := Daemon.handOver_ok handedOver
  have first := (tick_carried (Engine.advance_tick.mpr first)).graph
  have second := (tick_carried (Engine.advance_tick.mpr second)).graph
  have adopted := reloaded_graph boot.reloading.now ⟨configuration, some boot.plugins, 0⟩
    (Daemon.assemble boot.constructed store configuration)
  rw [← handleReload_ok.mp reload] at adopted
  rw [(reconcile_spec reconciled).graph, second, first, adopted]

end Service

namespace Lifecycle

/-- What is mirrored was provided for, and is built with what was discovered. -/
def Provides (discovered : Table LoadedPlugin) : Service.Step → Prop
  | .reload (.mirror configuration) => configuration.Provided discovered
  | .reload (.build shop) => shop.plugins = discovered
  | _ => True

structure Connected (discovered : Table LoadedPlugin) (l : Lifecycle) : Prop where
  tended : Tended discovered l
  engine : Wired l.service.engine.graph l.service.engine.plugins
  queued : ∀ message ∈ l.service.reloads, ∃ plugins, message.plugins = some plugins ∧
    Wired (RuleGraph.fromConfiguration message.configuration) plugins
  mirrored : ∀ configuration ∈ l.service.outside.reloading.configuration,
    configuration.Provided discovered

variable {discovered : Table LoadedPlugin} {s t : Lifecycle} {step : Service.Step}

theorem Provides.discovers (provides : Provides discovered step) : Discovers discovered step := by
  cases step with
  | reload action => cases action <;> first | exact provides | trivial
  | _ => trivial

theorem Connected.advanced (connected : Connected discovered s)
    (provides : Provides discovered step) (stepped : advance s step = some t) :
    Connected discovered t := by
  have moved := advance_service stepped
  refine ⟨connected.tended.advanced provides.discovers stepped, ?_, ?_, ?_⟩
  · rcases Service.advance_graph moved with ⟨graph, plugins⟩ | ⟨message, member, graph, plugins⟩
    · rw [graph, plugins]
      exact connected.engine
    · obtain ⟨own, given, wired⟩ := connected.queued message member
      rw [graph, plugins, given]
      exact wired
  · rcases Service.advance_reloads moved with old | ⟨shop, configuration, built, next, rfl, submits⟩
    · exact fun message member => connected.queued message (old message member)
    · intro own member
      rw [submits.reloads, List.mem_append, List.mem_singleton] at member
      rcases member with member | rfl
      · exact connected.queued own member
      · have from_ := Workshop.buildInstances_built submits.made
        rw [show shop.plugins = discovered from provides] at from_
        have provided : configuration.Provided discovered :=
          connected.mirrored configuration (by rw [submits.held]; rfl)
        exact ⟨_, rfl, (rebuilt_serves connected.tended.steady.serves from_).wired provided⟩
  · intro configuration held
    rcases Service.advance_configuration moved held with before | rfl
    · exact connected.mirrored configuration before
    · exact provides

theorem Begun.connected {boot : Daemon.Boot} {store : Store} {configuration : Configuration}
    (begun : Begun discovered boot store configuration s)
    (provided : configuration.Provided discovered) : Connected discovered s := by
  obtain ⟨_, plugins, none⟩ := begun.launched.outset
  have serves := begun.steady.serves
  rw [begun.running] at serves
  refine ⟨begun.tended, ?_, fun message member => ?_, fun configuration held => ?_⟩
  · rw [begun.launched.graph, plugins]
    exact serves.wired provided
  · rw [none] at member
    cases member
  · rw [begun.launched.idle] at held
    cases held

/-- Whatever is reloaded, rejected or given up on, every member of a rule of the graph has an
object on its side, and every output of the graph has one with the pool. -/
theorem always_wired (discovered : Table LoadedPlugin) (boot : Daemon.Boot) (store : Store)
    (configuration : Configuration) (s : Lifecycle) (steps : List Service.Step)
    (begun : Begun discovered boot store configuration s)
    (provided : configuration.Provided discovered)
    (provides : ∀ step ∈ steps, Provides discovered step) :
    Transition.Always advance (fun l => Wired l.service.engine.graph l.service.engine.plugins ∧
      ∀ o ∈ l.service.engine.graph.outputNames, o ∈ l.service.engine.dispatcher.outputs) s steps := by
  have meets : Transition.Throughout advance (fun _ step => Provides discovered step) s steps :=
    Transition.throughout_of_forall fun step member _ => provides step member
  have kept : ∀ s step t, Connected discovered s → Provides discovered step →
      advance s step = some t → Connected discovered t :=
    fun _ _ _ connected provides stepped => connected.advanced provides stepped
  refine Transition.always_of_invariant kept (fun l connected => ⟨connected.engine, ?_⟩)
    (begun.connected provided) meets
  intro o listed
  obtain ⟨rule, member, own⟩ := RuleGraph.mem_outputNames.mp listed
  rw [connected.tended.served]
  exact (connected.engine rule member).2 o own

instance (plugins : Table LoadedPlugin) (configuration : Configuration) :
    Decidable (configuration.Provided plugins) :=
  decidable_of_iff ((∀ i ∈ configuration.instances, i.plugin ∈ plugins) ∧
    ∀ rule ∈ configuration.rules, ∀ direction ∈ [PluginDirection.input, .output],
      ∀ name ∈ rule.members direction, ∃ i ∈ configuration.instances, i.name = name ∧
        (plugins.lookup i.plugin).any (·.has direction) = true)
    ⟨fun ⟨found, sided⟩ => ⟨found, fun rule member direction name listed => by
      obtain ⟨i, there, named, has⟩ := sided rule member direction (by cases direction <;> simp)
        name listed
      exact ⟨i, there, named, by rwa [Option.any_eq_true] at has⟩⟩,
    fun provided => ⟨provided.found, fun rule member direction _ name listed => by
      obtain ⟨i, there, named, has⟩ := provided.sided rule member direction name listed
      exact ⟨i, there, named, by rwa [Option.any_eq_true]⟩⟩⟩

theorem rekeyed_wired : ∃ t,
    Transition.run advance Sample.begun (Sample.rekeying ++ [.reload .adopt]) = some t ∧
      t.service.engine.graph.outputNames = ["lamp"] ∧
        "lamp" ∈ t.service.engine.dispatcher.outputs := by
  have ran : Transition.run advance Sample.begun (Sample.rekeying ++ [.reload .adopt]) = _ :=
    (Option.some_get (by decide +kernel)).symm
  have provided : Daemon.sampleConfiguration.Provided Service.Sample.shop.plugins := by
    decide +kernel
  have rekeyed : Sample.rekeyed.Provided Service.Sample.shop.plugins := by decide +kernel
  have provides : ∀ step ∈ Sample.rekeying ++ [.reload .adopt],
      Provides Service.Sample.shop.plugins step := by simp [Sample.rekeying, Provides, rekeyed]
  have wired := (always_wired _ _ _ _ _ _ Sample.begun_begun provided provides).last ran
  have names : (Option.get (Transition.run advance Sample.begun
      (Sample.rekeying ++ [.reload .adopt])) (by decide +kernel)).service.engine.graph.outputNames =
        ["lamp"] := by decide +kernel
  exact ⟨_, ran, names, wired.2 "lamp" (names ▸ List.mem_singleton_self _)⟩

end Lifecycle

end NotiMapper
