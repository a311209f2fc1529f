import NotiMapper.Threads.Replacement

/-! What a reload disturbs. Along any run of the daemon the live instances are the enabled
ones of the running configuration, each of their objects was started once and never
stopped, and an object that is built later is none of those that were ever seen. From that
the adoption of a reload stops what is dropped and starts what is new. -/
namespace NotiMapper

open Python Effect

namespace Lifecycle

def live (l : Lifecycle) : Table LiveInstance := l.service.outside.live

def objects (l : Lifecycle) : List PluginRef := objectsOf l.live.entries

/-- The object is live, or it was started or stopped. -/
def Knows (l : Lifecycle) (plugin : PluginRef) : Prop :=
  plugin ∈ l.objects ∨ .start plugin ∈ l.calls ∨ .stop plugin ∈ l.calls

/-- The daemon has just started, and has started the instances it built. -/
structure Begun (discovered : Table LoadedPlugin) (boot : Daemon.Boot) (store : Store)
    (configuration : Configuration) (l : Lifecycle) : Prop where
  launched : Service.Launched boot store configuration l.service
  built : ∃ shop : Workshop, shop.plugins = discovered ∧
    shop.buildInstances 0 configuration = .ok (l.live, l.service.outside.nextPlugin)
  running : l.running = configuration
  calls : l.calls = startInstances l.live.entries

/-- What is built is built with the plugins that were discovered. -/
def Discovers (discovered : Table LoadedPlugin) : Service.Step → Prop
  | .reload (.build shop) => shop.plugins = discovered
  | _ => True

/-- A reload from `s` to `t` disturbs what changed, and nothing else. -/
structure Disturbs (discovered : Table LoadedPlugin) (s t : Lifecycle) : Prop where
  serves : Serves discovered t.running t.live
  inputs : ∀ name plugin, t.service.engine.plugins.inputs.lookup name = some plugin ↔
    ∃ l, t.live.lookup name = some l ∧ l.inputPlugin = some plugin
  outputs : ∀ name plugin, t.service.engine.plugins.outputs.lookup name = some plugin ↔
    ∃ l, t.live.lookup name = some l ∧ l.outputPlugin = some plugin
  kept : ∀ name l, s.live.lookup name = some l →
    (t.live.lookup name = some l ↔ Unaltered s.running t.running name) ∧
      ∀ plugin ∈ l.objects, plugin ∈ t.objects ↔ Unaltered s.running t.running name
  calls : ∃ calls, t.calls = s.calls ++ calls ∧ ∀ plugin,
    (PluginCall.stop plugin ∈ calls ↔ plugin ∈ s.objects ∧ plugin ∉ t.objects) ∧
      (PluginCall.start plugin ∈ calls ↔ plugin ∈ t.objects ∧ plugin ∉ s.objects)
  stopped : ∀ plugin ∈ s.objects, t.calls.count (.stop plugin) = if plugin ∈ t.objects then 0 else 1
  started : ∀ plugin ∈ t.objects, t.calls.count (.start plugin) = 1 ∧ t.calls.count (.stop plugin) = 0

/-- What the reload thread waits with is what building found to be replaced. -/
structure Holds (discovered : Table LoadedPlugin) (l : Lifecycle) (rebuilt : Table LiveInstance)
    (configuration : Configuration) (built : Table LiveInstance) (first : PluginRef) : Prop where
  pending : l.pending = some (.of l.live configuration built)
  rebuilt : rebuilt = retain l.live configuration built
  from_ : BuiltFrom discovered configuration.enabledInstances first l.service.outside.nextPlugin built
  below : ∀ plugin, l.Knows plugin → plugin < first

structure Steady (discovered : Table LoadedPlugin) (l : Lifecycle) : Prop where
  numbered : l.service.Numbered
  serves : Serves discovered l.running l.live
  once : OnceEach l.live
  known : ∀ plugin, l.Knows plugin → plugin < l.service.outside.nextPlugin
  counted : ∀ plugin ∈ l.objects,
    l.calls.count (.start plugin) = 1 ∧ l.calls.count (.stop plugin) = 0
  held : ∀ rebuilt a, l.service.outside.reloading = .submitted rebuilt a →
    ∃ configuration built first, Holds discovered l rebuilt configuration built first

variable {discovered : Table LoadedPlugin} {s t : Lifecycle} {step : Service.Step}

theorem Begun.steady {boot : Daemon.Boot} {store : Store} {configuration : Configuration}
    (begun : Begun discovered boot store configuration s) : Steady discovered s := by
  obtain ⟨shop, rfl, made⟩ := begun.built
  have from_ := Workshop.buildInstances_built made
  have below : ∀ plugin ∈ s.objects, plugin < s.service.outside.nextPlugin := by
    intro plugin member
    obtain ⟨name, l, found, object⟩ := mem_objectsOf.mp member
    exact (from_.fresh name l found plugin object).2
  refine ⟨begun.launched.numbered, ⟨?_, ?_⟩, from_.once, ?_, ?_, fun rebuilt a held => ?_⟩
  · rw [begun.running]
    exact from_.names
  · rw [begun.running]
    exact from_.made
  · intro plugin known
    rcases known with member | started | stopped
    · exact below plugin member
    · rw [begun.calls, startInstances_eq] at started
      obtain ⟨other, member, same⟩ := List.mem_map.mp started
      cases same
      exact below plugin member
    · rw [begun.calls, startInstances_eq] at stopped
      obtain ⟨other, _, same⟩ := List.mem_map.mp stopped
      cases same
  · intro plugin member
    rw [begun.calls, count_start_starting, count_stop_starting]
    exact ⟨List.count_eq_one_of_mem (from_.once.nodup (List.Sublist.refl _)) member, rfl⟩
  · rw [begun.launched.idle] at held
    cases held

/- Steps. -/

/-- The step builds instances, or adopts those that were built. -/
def Replaces : Service.Step → Prop
  | .reload (.build _) | .reload .adopt => True
  | _ => False

theorem advance_frame {a b : Service} (plain : ¬ Replaces step)
    (stepped : Service.advance a step = some b) : b.outside.live = a.outside.live ∧
      b.outside.nextPlugin = a.outside.nextPlugin ∧
      ∀ rebuilt n, b.outside.reloading = .submitted rebuilt n →
        a.outside.reloading = .submitted rebuilt n := by
  cases step with
  | receive w =>
    obtain ⟨message, note, rest, engine, _, _, rfl⟩ := Threads.receive_eq_some.mp stepped
    exact ⟨rfl, rfl, fun _ _ held => held⟩
  | tick w =>
    obtain ⟨engine, _, rfl⟩ := Threads.tick_eq_some.mp stepped
    exact ⟨rfl, rfl, fun _ _ held => held⟩
  | perform k applied =>
    obtain ⟨request, _, rfl⟩ := Threads.perform_eq_some.mp stepped
    have outside := Service.call_shown a a.engine.dispatcher.outputs applied request
    have live := congrArg Surroundings.live outside
    have plugins := congrArg Surroundings.nextPlugin outside
    refine ⟨live, plugins, fun _ _ held => ?_⟩
    dsimp only at held
    rwa [outside] at held
  | report k =>
    obtain ⟨result, _, rfl⟩ := Threads.report_eq_some.mp stepped
    exact ⟨rfl, rfl, fun _ _ held => held⟩
  | reload action =>
    cases Service.reload_took stepped with
    | rejected idle => exact ⟨rfl, rfl, fun _ _ held => held⟩
    | unbuilt | submitted | adopted => exact absurd trivial plain
    | _ => exact ⟨rfl, rfl, fun _ _ held => by cases held⟩
  | _ =>
    cases stepped
    exact ⟨rfl, rfl, fun _ _ held => held⟩

/-- How the lifecycle goes along with the service. -/
inductive Goes (s : Lifecycle) : Service.Step → Service → Lifecycle → Prop
  | plain {step : Service.Step} {next : Service} (plain : ¬ Replaces step) :
    Goes s step next { s with service := next }
  | built {shop : Workshop} {next : Service} : Goes s (.reload (.build shop)) next
      { s with service := next, pending := replacement s.service shop }
  | adopted {held : Replacement} {next : Service} (pending : s.pending = some held) :
    Goes s (.reload .adopt) next ⟨next, held.configuration, none,
      s.calls ++ stopInstances held.removed ++ startInstances held.started⟩
  | nothing {next : Service} (pending : s.pending = none) :
    Goes s (.reload .adopt) next { s with service := next }

theorem advance_goes (stepped : advance s step = some t) :
    ∃ next, s.service.advance step = some next ∧ Goes s step next t := by
  obtain ⟨next, moved, rfl⟩ := Option.map_eq_some_iff.mp stepped
  refine ⟨next, moved, ?_⟩
  cases step with
  | reload action =>
    cases action with
    | build shop => exact .built
    | adopt =>
      dsimp only
      split
      · rename_i pending
        exact .nothing pending
      · rename_i held pending
        exact .adopted pending
    | _ => exact .plain nofun
  | _ => exact .plain nofun

theorem Steady.framed {next : Service} (steady : Steady discovered s)
    (stepped : s.service.advance step = some next) (plain : ¬ Replaces step) :
    Steady discovered { s with service := next } := by
  obtain ⟨live, plugins, waits⟩ := advance_frame plain stepped
  have same : Lifecycle.live { s with service := next } = s.live := live
  have knows (plugin : PluginRef) : Knows { s with service := next } plugin ↔ s.Knows plugin := by
    rw [Knows, objects, same]
    rfl
  refine ⟨steady.numbered.advanced stepped, ?_, ?_, ?_, ?_, ?_⟩
  · rw [same]
    exact steady.serves
  · rw [same]
    exact steady.once
  · intro plugin known
    dsimp only
    rw [plugins]
    exact steady.known plugin ((knows plugin).mp known)
  · rw [objects, same]
    exact steady.counted
  · intro rebuilt a held
    obtain ⟨configuration, built, first, holds⟩ := steady.held rebuilt a (waits rebuilt a held)
    refine ⟨configuration, built, first, ?_, ?_, ?_, ?_⟩
    · rw [same]
      exact holds.pending
    · rw [same]
      exact holds.rebuilt
    · dsimp only
      rw [plugins]
      exact holds.from_
    · intro plugin known
      exact holds.below plugin ((knows plugin).mp known)

theorem Steady.built {shop : Workshop} {next : Service} (steady : Steady discovered s)
    (same : shop.plugins = discovered)
    (stepped : s.service.advance (.reload (.build shop)) = some next) :
    Steady discovered { s with service := next, pending := replacement s.service shop } := by
  have numbered := steady.numbered.advanced stepped
  cases Service.reload_took stepped with
  | unbuilt held failed =>
    exact ⟨numbered, steady.serves, steady.once, steady.known, steady.counted,
      fun _ _ waits => by cases waits⟩
  | @submitted configuration _ built last held made =>
    have from_ := Workshop.buildInstances_built made
    rw [same] at from_
    refine ⟨numbered, steady.serves, steady.once, ?_, steady.counted, fun rebuilt a waits => ?_⟩
    · intro plugin known
      exact Nat.lt_of_lt_of_le (steady.known plugin known) from_.le
    · cases waits
      refine ⟨configuration, built, _, ?_, rfl, from_, steady.known⟩
      dsimp only [replacement]
      rw [held]
      dsimp only
      rw [made]
      rfl

/- Adoption. -/

section Adopting

variable {rebuilt : Table LiveInstance} {configuration : Configuration}
  {built : Table LiveInstance} {first : PluginRef} {next : Service}

/-- What adopting leaves. -/
def adopted (s : Lifecycle) (configuration : Configuration) (built : Table LiveInstance)
    (next : Service) : Lifecycle :=
  ⟨next, configuration, none, s.calls ++ stopInstances (Replacement.of s.live configuration built).removed ++
    startInstances (Replacement.of s.live configuration built).started⟩

theorem adopted_counts (s : Lifecycle) (configuration : Configuration)
    (built : Table LiveInstance) (next : Service) (plugin : PluginRef) :
    (adopted s configuration built next).calls.count (.stop plugin) = s.calls.count (.stop plugin) +
        (objectsOf (Replacement.of s.live configuration built).removed).count plugin ∧
      (adopted s configuration built next).calls.count (.start plugin) =
        s.calls.count (.start plugin) +
          (objectsOf (Replacement.of s.live configuration built).started).count plugin := by
  simp only [adopted, List.count_append, count_stop_stopping, count_stop_starting,
    count_start_stopping, count_start_starting]
  omega

variable (steady : Steady discovered s) (holds : Holds discovered s rebuilt configuration built first)

include holds

theorem Holds.objects_below : ∀ plugin ∈ objectsOf s.live.entries, plugin < first :=
  fun plugin member => holds.below plugin (.inl member)

/-- A new object has never been seen. -/
theorem Holds.unseen {plugin : PluginRef} (member : plugin ∈ objectsOf rebuilt.entries)
    (new : plugin ∉ s.objects) : ¬ s.Knows plugin := by
  intro known
  rw [holds.rebuilt] at member
  obtain ⟨name, l, found, object⟩ := mem_objectsOf.mp member
  rcases (rebuilt_cases found).2 with kept | ⟨_, fresh⟩
  · exact new (mem_objectsOf.mpr ⟨name, l, (retained_eq_some.mp kept).1, object⟩)
  · exact absurd (holds.from_.fresh name l fresh plugin object).1
      (Nat.not_le_of_lt (holds.below plugin known))

include steady

theorem Holds.removed_count (plugin : PluginRef) :
    (objectsOf (Replacement.of s.live configuration built).removed).count plugin =
      if plugin ∈ s.objects ∧ plugin ∉ objectsOf rebuilt.entries then 1 else 0 := by
  have nodup : (objectsOf (Replacement.of s.live configuration built).removed).Nodup :=
    steady.once.nodup List.filter_sublist
  have member : plugin ∈ objectsOf (Replacement.of s.live configuration built).removed ↔ _ :=
    removed_objects steady.once holds.from_ holds.objects_below
  rw [nodup.count, holds.rebuilt]
  exact if_congr member rfl rfl

theorem Holds.started_count (plugin : PluginRef) :
    (objectsOf (Replacement.of s.live configuration built).started).count plugin =
      if plugin ∈ objectsOf rebuilt.entries ∧ plugin ∉ s.objects then 1 else 0 := by
  have once := rebuilt_once steady.once holds.from_ holds.objects_below
  have nodup : (objectsOf (Replacement.of s.live configuration built).started).Nodup :=
    once.nodup List.filter_sublist
  have member : plugin ∈ objectsOf (Replacement.of s.live configuration built).started ↔ _ :=
    started_objects holds.from_ holds.objects_below
  rw [nodup.count, holds.rebuilt]
  exact if_congr member rfl rfl

theorem Holds.counted {plugin : PluginRef} (member : plugin ∈ objectsOf rebuilt.entries) :
    (adopted s configuration built next).calls.count (.start plugin) = 1 ∧
      (adopted s configuration built next).calls.count (.stop plugin) = 0 := by
  obtain ⟨stops, starts⟩ := adopted_counts s configuration built next plugin
  rw [holds.removed_count steady, if_neg fun gone => gone.2 member] at stops
  rw [holds.started_count steady] at starts
  by_cases old : plugin ∈ s.objects
  · obtain ⟨started, stopped⟩ := steady.counted plugin old
    rw [if_neg fun new => new.2 old] at starts
    omega
  · have unseen := holds.unseen member old
    have started : s.calls.count (.start plugin) = 0 :=
      List.count_eq_zero.mpr fun call => unseen (.inr (.inl call))
    have stopped : s.calls.count (.stop plugin) = 0 :=
      List.count_eq_zero.mpr fun call => unseen (.inr (.inr call))
    rw [if_pos ⟨member, old⟩] at starts
    omega

/-- What the thread that was waiting goes on with. -/
structure Resumed (s : Lifecycle) (rebuilt : Table LiveInstance) (next : Service) : Prop where
  numbered : next.Numbered
  live : next.outside.live = rebuilt
  nextPlugin : next.outside.nextPlugin = s.service.outside.nextPlugin
  idle : next.outside.reloading = .idle
  plugins : next.engine.plugins = pluginSet rebuilt

variable (resumed : Resumed s rebuilt next)

omit steady holds in
include resumed in
theorem Resumed.objects : (adopted s configuration built next).objects = objectsOf rebuilt.entries := by
  show objectsOf next.outside.live.entries = _
  rw [resumed.live]

include resumed

theorem Resumed.serves : Serves discovered configuration next.outside.live := by
  rw [resumed.live, holds.rebuilt]
  exact rebuilt_serves steady.serves holds.from_

theorem Resumed.kept : Steady discovered (adopted s configuration built next) := by
  have objects : (adopted s configuration built next).objects = objectsOf rebuilt.entries :=
    resumed.objects
  have below : ∀ plugin ∈ objectsOf rebuilt.entries, plugin < s.service.outside.nextPlugin := by
    intro plugin member
    rw [holds.rebuilt] at member
    exact rebuilt_below holds.from_ holds.objects_below holds.from_.le member
  refine ⟨resumed.numbered, resumed.serves steady holds, ?_, fun plugin known => ?_, ?_, ?_⟩
  · show OnceEach next.outside.live
    rw [resumed.live, holds.rebuilt]
    exact rebuilt_once steady.once holds.from_ holds.objects_below
  · show plugin < next.outside.nextPlugin
    rw [resumed.nextPlugin]
    obtain ⟨stops, starts⟩ := adopted_counts s configuration built next plugin
    rw [holds.removed_count steady] at stops
    rw [holds.started_count steady] at starts
    by_cases member : plugin ∈ objectsOf rebuilt.entries
    · exact below plugin member
    · refine steady.known plugin ?_
      rcases known with live | started | stopped
      · exact absurd (objects ▸ live) member
      · rw [if_neg fun new => member new.1] at starts
        rw [← List.count_pos_iff, starts] at started
        exact .inr (.inl (List.count_pos_iff.mp started))
      · by_cases old : plugin ∈ s.objects
        · exact .inl old
        · rw [if_neg fun gone => old gone.1] at stops
          rw [← List.count_pos_iff, stops] at stopped
          exact .inr (.inr (List.count_pos_iff.mp stopped))
  · intro plugin member
    rw [objects] at member
    exact holds.counted steady member
  · intro rebuilt a held
    change next.outside.reloading = _ at held
    rw [resumed.idle] at held
    cases held

theorem Resumed.disturbs : Disturbs discovered s (adopted s configuration built next) := by
  have objects : (adopted s configuration built next).objects = objectsOf rebuilt.entries :=
    resumed.objects
  have lived : (adopted s configuration built next).live = rebuilt := resumed.live
  have plugins : (adopted s configuration built next).service.engine.plugins = pluginSet rebuilt :=
    resumed.plugins
  refine ⟨resumed.serves steady holds, fun name plugin => ?_, fun name plugin => ?_,
    fun name l own => ?_, ⟨stopInstances (Replacement.of s.live configuration built).removed ++
      startInstances (Replacement.of s.live configuration built).started, List.append_assoc _ _ _,
      fun plugin => ⟨?_, ?_⟩⟩, fun plugin member => ?_, fun plugin member => ?_⟩
  · rw [plugins, lived, pluginSet, lookup_pluginsOf, Option.bind_eq_some_iff]
  · rw [plugins, lived, pluginSet, lookup_pluginsOf, Option.bind_eq_some_iff]
  · have stays : rebuilt.lookup name = some l ↔ Unaltered s.running configuration name := by
      rw [holds.rebuilt]
      exact rebuilt_keeps_iff steady.serves holds.from_ own
    rw [lived, objects]
    refine ⟨stays, fun plugin object => ?_⟩
    refine Iff.trans ?_ stays
    rw [holds.rebuilt]
    exact rebuilt_object_iff steady.once holds.from_ holds.objects_below own object
  · rw [objects, ← List.count_pos_iff, List.count_append, count_stop_stopping,
      count_stop_starting, holds.removed_count steady]
    split <;> simp_all
  · rw [objects, ← List.count_pos_iff, List.count_append, count_start_stopping,
      count_start_starting, holds.started_count steady]
    split <;> simp_all
  · obtain ⟨stops, _⟩ := adopted_counts s configuration built next plugin
    rw [(steady.counted plugin member).2, holds.removed_count steady] at stops
    rw [objects, stops]
    by_cases stays : plugin ∈ objectsOf rebuilt.entries <;> simp [member, stays]
  · rw [objects] at member
    exact holds.counted steady member

end Adopting

theorem Steady.adopting (steady : Steady discovered s)
    (stepped : advance s (.reload .adopt) = some t) :
    ∃ rebuilt configuration built first next, Holds discovered s rebuilt configuration built first ∧
      Resumed s rebuilt next ∧ t = adopted s configuration built next := by
  obtain ⟨next, moved, goes⟩ := advance_goes stepped
  have numbered := steady.numbered.advanced moved
  obtain ⟨rebuilt, a, held, answered, after⟩ : ∃ rebuilt a,
      s.service.outside.reloading = .submitted rebuilt a ∧ a ∈ s.service.engine.acknowledged ∧
        next = s.service.within fun outside =>
          { outside with reloading := .idle, live := rebuilt } := by
    cases Service.reload_took moved with
    | adopted held answered => exact ⟨_, _, held, answered, rfl⟩
  obtain ⟨configuration, built, first, holds⟩ := steady.held rebuilt a held
  have plugins := (steady.numbered.waiting rebuilt a held).answered answered
  refine ⟨rebuilt, configuration, built, first, next, holds, ?_, ?_⟩
  · rw [after] at numbered ⊢
    exact ⟨numbered, rfl, rfl, rfl, plugins.1⟩
  · cases goes with
    | plain plain => exact absurd trivial plain
    | adopted pending =>
      cases pending.symm.trans holds.pending
      rfl
    | nothing pending => cases pending.symm.trans holds.pending

theorem Steady.advanced (steady : Steady discovered s) (same : Discovers discovered step)
    (stepped : advance s step = some t) : Steady discovered t := by
  obtain ⟨next, moved, goes⟩ := advance_goes stepped
  cases goes with
  | plain plain => exact steady.framed moved plain
  | built => exact steady.built same moved
  | adopted pending =>
    obtain ⟨rebuilt, configuration, built, first, next, holds, resumed, after⟩ :=
      steady.adopting stepped
    rw [after]
    exact resumed.kept steady holds
  | nothing pending =>
    obtain ⟨rebuilt, configuration, built, first, next, holds, resumed, after⟩ :=
      steady.adopting stepped
    rw [after]
    exact resumed.kept steady holds

/-- Whatever was reloaded before, a reload that is adopted disturbs what changed. -/
theorem reload_disturbs_changed (discovered : Table LoadedPlugin) (boot : Daemon.Boot)
    (store : Store) (configuration : Configuration) (s t u : Lifecycle) (steps : List Service.Step)
    (begun : Begun discovered boot store configuration s)
    (same : ∀ step ∈ steps, Discovers discovered step)
    (ran : Transition.run advance s steps = some t)
    (adopts : advance t (.reload .adopt) = some u) : Disturbs discovered t u := by
  have steady : Steady discovered t := by
    refine Transition.guarded_invariant (fun s step t steady same stepped =>
      Steady.advanced steady same stepped) begun.steady ?_ ran
    exact Transition.throughout_of_forall fun step member _ => same step member
  obtain ⟨rebuilt, configuration, built, first, next, holds, resumed, rfl⟩ := steady.adopting adopts
  exact resumed.disturbs steady holds

namespace Sample

def begun : Lifecycle where
  service := Service.Sample.launched
  running := Daemon.sampleConfiguration
  pending := none
  calls := startInstances Service.Sample.launched.outside.live.entries

theorem begun_begun : Begun Service.Sample.shop.plugins Service.Sample.boot .empty
    Daemon.sampleConfiguration begun where
  launched := Service.Sample.launched_launched
  built := ⟨Service.Sample.shop, rfl, except_ok (by decide +kernel)⟩
  running := rfl
  calls := rfl

def rekeyed : Configuration where
  instances := [⟨"mail", "file-input", true, "{}"⟩,
    ⟨"lamp", "pagerduty-output", true, "\x7b\"routing_key\":\"R2\"\x7d"⟩]
  rules := Daemon.sampleConfiguration.rules
  instances_nodup := by decide
  rules_nodup := Daemon.sampleConfiguration.rules_nodup

def rekeying : List Service.Step :=
  [.reload (.mirror rekeyed), .reload .read, .reload .assign, .reload (.build Service.Sample.shop),
    .receive (NotiMapper.Sample.quiet 120)]

end Sample

/-- The output has another routing key: only its object is replaced. -/
theorem rekeyed_replaced : ∃ t u, Transition.run advance Sample.begun Sample.rekeying = some t ∧
    advance t (.reload .adopt) = some u ∧ t.calls = [.start 1, .start 0] ∧
    u.calls = t.calls ++ [.stop 0, .start 2] ∧ Disturbs Service.Sample.shop.plugins t u := by
  have ran : Transition.run advance Sample.begun Sample.rekeying = _ :=
    (Option.some_get (by decide +kernel)).symm
  have adopts : advance (Option.get (Transition.run advance Sample.begun Sample.rekeying)
      (by decide +kernel)) (.reload .adopt) = _ := (Option.some_get (by decide +kernel)).symm
  have same : ∀ step ∈ Sample.rekeying, Discovers Service.Sample.shop.plugins step := by
    simp [Sample.rekeying, Discovers]
  exact ⟨_, _, ran, adopts, by decide +kernel, by decide +kernel,
    reload_disturbs_changed _ _ _ _ _ _ _ _ Sample.begun_begun same ran adopts⟩

end Lifecycle

end NotiMapper
