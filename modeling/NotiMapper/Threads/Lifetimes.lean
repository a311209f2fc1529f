import NotiMapper.Threads.Disturbance
import NotiMapper.Threads.RebuiltOutputs

/-! The life of a plugin object. Whatever is reloaded, rejected or given up on, an object is
started at most once and stopped at most once, after it was started; and one that was stopped
is out of reach of the core, of the pool, and of every reload still to be handled. An object
that was not started can be reached only while a reload is waited for, unless one was given
up on. -/
namespace NotiMapper

open Python Effect Engine

def PluginSet.Has (plugins : PluginSet) (plugin : PluginRef) : Prop :=
  ∃ name, plugins.inputs.lookup name = some plugin ∨ plugins.outputs.lookup name = some plugin

def PluginCall.plugin : PluginCall → PluginRef
  | .start plugin | .stop plugin => plugin

theorem pluginSet_has {live : Table LiveInstance} {plugin : PluginRef} :
    (pluginSet live).Has plugin ↔ plugin ∈ objectsOf live.entries := by
  have objects (l : LiveInstance) : plugin ∈ l.objects ↔
      l.inputPlugin = some plugin ∨ l.outputPlugin = some plugin := by
    rw [LiveInstance.objects, List.mem_append, Option.mem_toList, Option.mem_toList, or_comm]
  simp only [PluginSet.Has, pluginSet, lookup_pluginsOf, Option.bind_eq_some_iff, mem_objectsOf,
    objects]
  constructor
  · rintro ⟨name, ⟨l, found, own⟩ | ⟨l, found, own⟩⟩
    · exact ⟨name, l, found, .inl own⟩
    · exact ⟨name, l, found, .inr own⟩
  · rintro ⟨name, l, found, own | own⟩
    · exact ⟨name, .inl ⟨l, found, own⟩⟩
    · exact ⟨name, .inr ⟨l, found, own⟩⟩

namespace Service

/-- The pool's table is the core's. -/
def Served (s : Service) : Prop := s.engine.dispatcher.outputs = s.engine.plugins.outputs

/-- The core or the pool has the object, or a reload that is still to be handled. -/
def Reaches (s : Service) (plugin : PluginRef) : Prop :=
  s.engine.plugins.Has plugin ∨
    (∃ name, s.engine.dispatcher.outputs.lookup name = some plugin) ∨
    ∃ message ∈ s.reloads, ∃ plugins ∈ message.plugins, plugins.Has plugin

/-- The object that a step has the pool push to. -/
def Applies (s : Service) (step : Step) (plugin : PluginRef) : Prop :=
  match step with
  | .perform k _ => ∃ request ∈ s.engine.dispatcher.queue[k]?,
      s.engine.dispatcher.outputs.lookup request.instanceName = some plugin
  | _ => False

variable {s t : Service} {step : Step}

theorem Served.reaches (served : Served s) {plugin : PluginRef} : s.Reaches plugin ↔
    s.engine.plugins.Has plugin ∨
      ∃ message ∈ s.reloads, ∃ plugins ∈ message.plugins, plugins.Has plugin := by
  constructor
  · rintro (core | ⟨name, found⟩ | waiting)
    · exact .inl core
    · exact .inl ⟨name, .inr (served ▸ found)⟩
    · exact .inr waiting
  · rintro (core | waiting)
    · exact .inl core
    · exact .inr (.inr waiting)

theorem Applies.reaches {plugin : PluginRef} (applies : Applies s step plugin) :
    s.Reaches plugin := by
  cases step with
  | perform k applied =>
    obtain ⟨request, _, found⟩ := applies
    exact .inr (.inl ⟨request.instanceName, found⟩)
  | _ => exact applies.elim

theorem Served.advanced (served : Served s) (stepped : advance s step = some t) : Served t := by
  cases step with
  | receive w =>
    obtain ⟨message, note, rest, engine, waiting, handled, rfl⟩ := Threads.receive_eq_some.mp stepped
    cases message with
    | reload message =>
      have after := handleReload_ok.mp (Engine.advance_handle.mp handled)
      rw [Served, after]
      exact reloaded_served w.now message served
    | pushResult result =>
      have resulted := handlePushResult_resulted (Engine.advance_handle.mp handled)
      rw [Served, resulted.dispatcher, resulted.plugins]
      exact served
    | _ =>
      have carried := handle_carried (by simp) (by simp) handled
      rw [Served, carried.served, carried.plugins]
      exact served
  | tick w =>
    obtain ⟨engine, ticked, rfl⟩ := Threads.tick_eq_some.mp stepped
    have carried := tick_carried ticked
    rw [Served, carried.served, carried.plugins]
    exact served
  | perform k applied =>
    obtain ⟨request, _, rfl⟩ := Threads.perform_eq_some.mp stepped
    exact served
  | report k =>
    obtain ⟨result, _, rfl⟩ := Threads.report_eq_some.mp stepped
    exact served
  | reload action => cases reload_took stepped <;> exact served
  | _ =>
    cases stepped
    exact served

/-- The reload thread has built, and hands over what it keeps of it. -/
structure Submits (shop : Workshop) (s t : Service) (configuration : Configuration)
    (built : Table LiveInstance) (next : PluginRef) : Prop where
  held : s.outside.reloading = .refreshed configuration
  made : shop.buildInstances s.outside.nextPlugin configuration = .ok (built, next)
  waits : t.outside.reloading =
    .submitted (retain s.outside.live configuration built) s.outside.nextAcknowledged
  reloads : t.reloads = s.reloads ++ [⟨configuration,
    some (pluginSet (retain s.outside.live configuration built)), s.outside.nextAcknowledged⟩]

/-- Only building submits a reload; all others leave the queue's or take the first. -/
theorem advance_reloads (stepped : advance s step = some t) :
    (∀ message ∈ t.reloads, message ∈ s.reloads) ∨ ∃ shop configuration built next,
      step = .reload (.build shop) ∧ Submits shop s t configuration built next := by
  have grown {t : Service} {message : CoreMessage}
      (queue : t.queue = s.queue ++ [(message, ())])
      (other : ∀ reload, message ≠ .reload reload) : ∀ own ∈ t.reloads, own ∈ s.reloads := by
    rw [reloads_grown queue other]
    exact fun _ => id
  cases step with
  | receive w =>
    obtain ⟨message, note, rest, engine, waiting, _, rfl⟩ := Threads.receive_eq_some.mp stepped
    refine .inl fun own member => ?_
    rw [reloads_cons waiting]
    exact List.mem_append_right _ member
  | tick w =>
    obtain ⟨engine, _, rfl⟩ := Threads.tick_eq_some.mp stepped
    exact .inl fun _ => id
  | perform k applied =>
    obtain ⟨request, _, rfl⟩ := Threads.perform_eq_some.mp stepped
    exact .inl fun _ => id
  | report k =>
    obtain ⟨result, _, rfl⟩ := Threads.report_eq_some.mp stepped
    exact .inl (grown rfl fun reload same => by cases same)
  | reload action =>
    cases reload_took stepped with
    | submitted held made =>
      exact .inr ⟨_, _, _, _, rfl, held, made, rfl, List.filterMap_append⟩
    | _ => exact .inl fun _ => id
  | _ =>
    cases stepped
    exact .inl (grown rfl fun reload same => by cases same)

/-- What can be reached after a step could be before, unless it is in what was just built. -/
theorem Served.advance_reaches (served : Served s) (stepped : advance s step = some t)
    {plugin : PluginRef} (reached : t.Reaches plugin) : s.Reaches plugin ∨
      ∃ rebuilt a, t.outside.reloading = .submitted rebuilt a ∧
        plugin ∈ objectsOf rebuilt.entries := by
  rcases (served.advanced stepped).reaches.mp reached with core | ⟨message, member, plugins, own, has⟩
  · rcases advance_plugins stepped with same | ⟨w, message, rest, rfl, waiting, rfl⟩
    · exact .inl (.inl (same ▸ core))
    · rw [reloaded_plugins] at core
      cases own : message.plugins with
      | none =>
        rw [own] at core
        exact .inl (.inl core)
      | some plugins =>
        rw [own] at core
        have first : message ∈ s.reloads := by
          rw [reloads_cons waiting]
          exact List.mem_cons_self
        exact .inl (.inr (.inr ⟨message, first, plugins, own, core⟩))
  · rcases advance_reloads stepped with old | ⟨shop, configuration, built, next, _, submits⟩
    · exact .inl (.inr (.inr ⟨message, old message member, plugins, own, has⟩))
    · rw [submits.reloads, List.mem_append, List.mem_singleton] at member
      rcases member with member | rfl
      · exact .inl (.inr (.inr ⟨message, member, plugins, own, has⟩))
      · cases own
        exact .inr ⟨_, _, submits.waits, pluginSet_has.mp has⟩

theorem Launched.outset {boot : Daemon.Boot} {store : Store} {configuration : Configuration}
    (launched : Launched boot store configuration s) :
    Served s ∧ s.engine.plugins = pluginSet s.outside.live ∧ s.reloads = [] := by
  refine ⟨launched.sound.served, ?_, ?_⟩
  · obtain ⟨_, m, handedOver, reconciled⟩ := bind_ok.mp launched.started
    obtain ⟨m₁, m₂, reload, first, second⟩ := Daemon.handOver_ok handedOver
    have first := (tick_carried (Engine.advance_tick.mpr first)).plugins
    have second := (tick_carried (Engine.advance_tick.mpr second)).plugins
    have adopted := reloaded_plugins boot.reloading.now ⟨configuration, some boot.plugins, 0⟩
      (Daemon.assemble boot.constructed store configuration)
    rw [← handleReload_ok.mp reload] at adopted
    rw [(reconcile_spec reconciled).plugins, second, first, adopted]
    exact launched.live
  · rw [reloads, launched.queue]
    rfl

end Service

namespace Lifecycle

/-- The calls of `start` and `stop` that the object has had, in order. -/
def callsOf (l : Lifecycle) (plugin : PluginRef) : List PluginCall :=
  l.calls.filter (·.plugin = plugin)

/-- What becomes of objects: one that lives was started, any other was not yet or was stopped as
well, and what was stopped cannot be reached. -/
structure Lived (l : Lifecycle) : Prop where
  live : ∀ plugin ∈ l.objects, l.callsOf plugin = [.start plugin]
  others : ∀ plugin, plugin ∉ l.objects →
    l.callsOf plugin = [] ∨ l.callsOf plugin = [.start plugin, .stop plugin]
  reached : ∀ plugin, l.service.Reaches plugin → .stop plugin ∉ l.calls

/-- The core has the live objects, and no others are on their way. -/
def HandedOver (l : Lifecycle) : Prop :=
  l.service.engine.plugins = pluginSet l.live ∧ l.service.reloads = []

def Waits (l : Lifecycle) : Prop := ∃ rebuilt a, l.service.outside.reloading = .submitted rebuilt a

def Patient (step : Service.Step) : Prop := step ≠ .reload .giveUp

variable {discovered : Table LoadedPlugin} {s t : Lifecycle} {step : Service.Step}
  {plugin : PluginRef}

/- Calls. -/

theorem callsOf_eq_nil : s.callsOf plugin = [] ↔ .start plugin ∉ s.calls ∧ .stop plugin ∉ s.calls := by
  rw [callsOf, List.filter_eq_nil_iff]
  constructor
  · intro none
    exact ⟨fun member => none _ member (decide_eq_true rfl),
      fun member => none _ member (decide_eq_true rfl)⟩
  · rintro ⟨unstarted, unstopped⟩ call member about
    cases call with
    | start other => exact unstarted (of_decide_eq_true about ▸ member)
    | stop other => exact unstopped (of_decide_eq_true about ▸ member)

theorem stop_mem_callsOf : .stop plugin ∈ s.calls ↔ .stop plugin ∈ s.callsOf plugin := by
  rw [callsOf, List.mem_filter]
  exact ⟨fun member => ⟨member, decide_eq_true rfl⟩, fun own => own.1⟩

theorem filter_starting (entries : List LiveEntry) (plugin : PluginRef) :
    (startInstances entries).filter (·.plugin = plugin) =
      List.replicate ((objectsOf entries).count plugin) (.start plugin) := by
  rw [← count_start_starting, startInstances_eq, ← List.filter_eq]
  refine List.filter_congr fun call member => ?_
  obtain ⟨other, _, rfl⟩ := List.mem_map.mp member
  simp [PluginCall.plugin, eq_comm]

theorem filter_stopping (entries : List LiveEntry) (plugin : PluginRef) :
    (stopInstances entries).filter (·.plugin = plugin) =
      List.replicate ((objectsOf entries).count plugin) (.stop plugin) := by
  rw [← count_stop_stopping, ← List.filter_eq]
  refine List.filter_congr fun call member => ?_
  obtain ⟨other, _, rfl⟩ := List.mem_map.mp ((stopInstances_perm entries).mem_iff.mp member)
  simp [PluginCall.plugin, eq_comm]

theorem Begun.lived {boot : Daemon.Boot} {store : Store} {configuration : Configuration}
    (begun : Begun discovered boot store configuration s) : Lived s := by
  have steady := begun.steady
  have nodup : (objectsOf s.live.entries).Nodup := steady.once.nodup (List.Sublist.refl _)
  have calls (plugin : PluginRef) : s.callsOf plugin =
      List.replicate ((objectsOf s.live.entries).count plugin) (.start plugin) := by
    rw [callsOf, begun.calls, filter_starting]
  have stops (plugin : PluginRef) : .stop plugin ∉ s.calls := by
    rw [stop_mem_callsOf, calls]
    intro member
    cases (List.mem_replicate.mp member).2
  refine ⟨fun plugin member => ?_, fun plugin absent => .inl ?_, fun plugin _ => stops plugin⟩
  · rw [calls, List.count_eq_one_of_mem nodup member]
    rfl
  · have none : (objectsOf s.live.entries).count plugin = 0 := List.count_eq_zero.mpr absent
    rw [calls, none]
    rfl

/-- The step replaces no instances, or it has built and not yet adopted. -/
theorem Lived.framed {next : Service} {pending : Option Replacement} (lived : Lived s)
    (served : s.service.Served) (steady : Steady discovered { s with service := next, pending })
    (stepped : s.service.advance step = some next) (live : next.outside.live = s.service.outside.live) :
    Lived { s with service := next, pending } := by
  have same : Lifecycle.live { s with service := next, pending } = s.live := live
  have objects : Lifecycle.objects { s with service := next, pending } = s.objects := by
    rw [Lifecycle.objects, same]
    rfl
  constructor
  case live =>
    rw [objects]
    exact lived.live
  case others =>
    rw [objects]
    exact lived.others
  case reached =>
    intro plugin reached
    rcases served.advance_reaches stepped reached with before | ⟨rebuilt, a, held, member⟩
    · exact lived.reached plugin before
    · obtain ⟨configuration, built, first, holds⟩ := steady.held rebuilt a held
      by_cases old : plugin ∈ s.objects
      · rw [stop_mem_callsOf]
        show _ ∉ s.callsOf plugin
        rw [lived.live plugin old]
        simp
      · exact fun stopped => holds.unseen member (objects ▸ old) (.inr (.inr stopped))

theorem callsOf_adopted {rebuilt built : Table LiveInstance} {configuration : Configuration}
    {first : PluginRef} {next : Service} (steady : Steady discovered s)
    (holds : Holds discovered s rebuilt configuration built first) (plugin : PluginRef) :
    (adopted s configuration built next).callsOf plugin = s.callsOf plugin ++
      List.replicate (if plugin ∈ s.objects ∧ plugin ∉ objectsOf rebuilt.entries then 1 else 0)
        (.stop plugin) ++
      List.replicate (if plugin ∈ objectsOf rebuilt.entries ∧ plugin ∉ s.objects then 1 else 0)
        (.start plugin) := by
  rw [callsOf, adopted, List.filter_append, List.filter_append, filter_stopping, filter_starting,
    holds.removed_count steady, holds.started_count steady]
  rfl

theorem advance_service (stepped : advance s step = some t) :
    s.service.advance step = some t.service := by
  obtain ⟨next, moved, goes⟩ := advance_goes stepped
  cases goes <;> exact moved

theorem Lived.adopting (lived : Lived s) (steady : Steady discovered s)
    (served : s.service.Served) (stepped : advance s (.reload .adopt) = some t) :
    Lived t ∧ HandedOver t := by
  have moved := advance_service stepped
  obtain ⟨rebuilt, configuration, built, first, next, holds, resumed, rfl⟩ :=
    steady.adopting stepped
  have none : next.reloads = [] := by
    cases Service.reload_took moved with
    | adopted held answered => exact ((steady.numbered.waiting _ _ held).answered answered).2
  have calls : ∀ plugin, (adopted s configuration built next).callsOf plugin = _ :=
    callsOf_adopted steady holds
  have objects : (adopted s configuration built next).objects = objectsOf rebuilt.entries :=
    resumed.objects
  have live : ∀ plugin ∈ objectsOf rebuilt.entries,
      (adopted s configuration built next).callsOf plugin = [.start plugin] := by
    intro plugin member
    rw [calls, if_neg fun gone => gone.2 member]
    by_cases old : plugin ∈ s.objects
    · rw [lived.live plugin old, if_neg fun new => new.2 old]
      rfl
    · have unseen := holds.unseen member old
      have before : s.callsOf plugin = [] := callsOf_eq_nil.mpr
        ⟨fun call => unseen (.inr (.inl call)), fun call => unseen (.inr (.inr call))⟩
      rw [before, if_pos ⟨member, old⟩]
      rfl
  refine ⟨⟨?_, ?_, ?_⟩, ?_, none⟩
  · rw [objects]
    exact live
  · intro plugin absent
    rw [objects] at absent
    rw [calls, if_neg (c := _ ∧ plugin ∉ s.objects) fun new => absent new.1]
    by_cases old : plugin ∈ s.objects
    · rw [lived.live plugin old, if_pos ⟨old, absent⟩]
      exact .inr rfl
    · rw [if_neg fun gone => old gone.1]
      simpa using lived.others plugin old
  · intro plugin reached
    have member : plugin ∈ objectsOf rebuilt.entries := by
      have served : next.Served := served.advanced moved
      rcases served.reaches.mp reached with core | ⟨message, waiting, _⟩
      · exact pluginSet_has.mp (resumed.plugins ▸ core)
      · change message ∈ next.reloads at waiting
        rw [none] at waiting
        cases waiting
    rw [stop_mem_callsOf, live plugin member]
    simp
  · show next.engine.plugins = pluginSet next.outside.live
    rw [resumed.plugins, resumed.live]

/-- All of what is kept along a run. -/
structure Tended (discovered : Table LoadedPlugin) (l : Lifecycle) : Prop where
  steady : Steady discovered l
  served : l.service.Served
  lived : Lived l

theorem Tended.advanced (tended : Tended discovered s) (same : Discovers discovered step)
    (stepped : advance s step = some t) : Tended discovered t := by
  have steady := tended.steady.advanced same stepped
  have served := tended.served.advanced (advance_service stepped)
  refine ⟨steady, served, ?_⟩
  obtain ⟨next, moved, goes⟩ := advance_goes stepped
  cases goes with
  | plain plain => exact tended.lived.framed tended.served steady moved (advance_frame plain moved).1
  | built =>
    refine tended.lived.framed tended.served steady moved ?_
    cases Service.reload_took moved <;> rfl
  | adopted pending => exact (tended.lived.adopting tended.steady tended.served stepped).1
  | nothing pending => exact (tended.lived.adopting tended.steady tended.served stepped).1

theorem Begun.tended {boot : Daemon.Boot} {store : Store} {configuration : Configuration}
    (begun : Begun discovered boot store configuration s) : Tended discovered s :=
  ⟨begun.steady, begun.launched.outset.1, begun.lived⟩

/-- Whatever is reloaded, rejected or given up on, every object is started once at most and
stopped once at most, after it was started; and none that was stopped can be reached. -/
theorem stopped_out_of_reach (discovered : Table LoadedPlugin) (boot : Daemon.Boot)
    (store : Store) (configuration : Configuration) (s : Lifecycle) (steps : List Service.Step)
    (begun : Begun discovered boot store configuration s)
    (same : ∀ step ∈ steps, Discovers discovered step) :
    Transition.Always advance Lived s steps ∧ Transition.Throughout advance
      (fun l step => ∀ plugin, l.service.Applies step plugin → .stop plugin ∉ l.calls) s steps := by
  have meets : Transition.Throughout advance (fun _ step => Discovers discovered step) s steps :=
    Transition.throughout_of_forall fun step member _ => same step member
  have kept : ∀ s step t, Tended discovered s → Discovers discovered step →
      advance s step = some t → Tended discovered t :=
    fun _ _ _ tended same stepped => tended.advanced same stepped
  exact ⟨Transition.always_of_invariant kept (fun _ tended => tended.lived) begun.tended meets,
    Transition.throughout_of_invariant kept
      (fun _ _ tended _ plugin applies => tended.lived.reached plugin applies.reaches)
      begun.tended meets⟩

/-- The object that was replaced has been stopped, and is out of reach. -/
theorem rekeyed_out_of_reach : ∃ t,
    Transition.run advance Sample.begun (Sample.rekeying ++ [.reload .adopt]) = some t ∧
      t.callsOf 0 = [.start 0, .stop 0] ∧ ¬ t.service.Reaches 0 := by
  have ran : Transition.run advance Sample.begun (Sample.rekeying ++ [.reload .adopt]) = _ :=
    (Option.some_get (by decide +kernel)).symm
  have same : ∀ step ∈ Sample.rekeying ++ [.reload .adopt],
      Discovers Service.Sample.shop.plugins step := by simp [Sample.rekeying, Discovers]
  have lived := (stopped_out_of_reach _ _ _ _ _ _ Sample.begun_begun same).1.last ran
  refine ⟨_, ran, by decide +kernel, fun reached => lived.reached 0 reached ?_⟩
  decide +kernel

/- What is not started. -/

theorem waits_on {a b : Service} (patient : Patient step) (unadopted : step ≠ .reload .adopt)
    {rebuilt : Table LiveInstance} {n : Nat} (held : a.outside.reloading = .submitted rebuilt n)
    (stepped : a.advance step = some b) : b.outside.reloading = .submitted rebuilt n := by
  cases step with
  | receive w =>
    obtain ⟨message, note, rest, engine, _, _, rfl⟩ := Threads.receive_eq_some.mp stepped
    exact held
  | tick w =>
    obtain ⟨engine, _, rfl⟩ := Threads.tick_eq_some.mp stepped
    exact held
  | perform k applied =>
    obtain ⟨request, _, rfl⟩ := Threads.perform_eq_some.mp stepped
    dsimp only
    rw [Service.call_shown]
    exact held
  | report k =>
    obtain ⟨result, _, rfl⟩ := Threads.report_eq_some.mp stepped
    exact held
  | reload action =>
    cases Service.reload_took stepped with
    | rejected => exact held
    | adopted => exact absurd rfl unadopted
    | gaveUp => exact absurd rfl patient
    | mirrored other | read other | assigned other | unbuilt other | submitted other =>
      cases held.symm.trans other
  | _ =>
    cases stepped
    exact held

theorem HandedOver.advanced (tended : Tended discovered s) (patient : Patient step)
    (own : ¬ Waits s → HandedOver s) (stepped : advance s step = some t) (free : ¬ Waits t) :
    HandedOver t := by
  by_cases adopts : step = .reload .adopt
  · subst adopts
    exact (tended.lived.adopting tended.steady tended.served stepped).2
  have moved := advance_service stepped
  have idle : ¬ Waits s := fun ⟨rebuilt, a, held⟩ =>
    free ⟨rebuilt, a, waits_on patient adopts held moved⟩
  obtain ⟨plugins, none⟩ := own idle
  constructor
  · have live : t.live = s.live := by
      obtain ⟨next, moved, goes⟩ := advance_goes stepped
      cases goes with
      | plain plain => exact (advance_frame plain moved).1
      | built => cases Service.reload_took moved <;> rfl
      | adopted | nothing => exact absurd rfl adopts
    rw [live, ← plugins]
    rcases Service.advance_plugins moved with same | ⟨w, message, rest, rfl, waiting, _⟩
    · exact same
    · rw [Service.reloads_cons waiting] at none
      cases none
  · rcases Service.advance_reloads moved with old | ⟨_, _, _, _, _, submits⟩
    · refine List.eq_nil_iff_forall_not_mem.mpr fun message member => ?_
      have earlier := old message member
      rw [none] at earlier
      cases earlier
    · exact absurd ⟨_, _, submits.waits⟩ free

/-- What is kept along a run in which no reload is given up on. -/
structure Attended (discovered : Table LoadedPlugin) (l : Lifecycle) : Prop where
  tended : Tended discovered l
  own : ¬ Waits l → HandedOver l

theorem Attended.advanced (attended : Attended discovered s) (same : Discovers discovered step)
    (patient : Patient step) (stepped : advance s step = some t) : Attended discovered t where
  tended := attended.tended.advanced same stepped
  own := HandedOver.advanced attended.tended patient attended.own stepped

theorem Attended.reaches (attended : Attended discovered s) : Waits s ∨ ∀ plugin,
    s.service.Reaches plugin ↔ s.callsOf plugin = [.start plugin] := by
  by_cases waits : Waits s
  · exact .inl waits
  refine .inr fun plugin => ?_
  obtain ⟨plugins, none⟩ := attended.own waits
  have lived := attended.tended.lived
  rw [attended.tended.served.reaches, plugins, none, pluginSet_has]
  constructor
  · rintro (live | ⟨message, member, _⟩)
    · exact lived.live plugin live
    · cases member
  · intro started
    by_contra absent
    rcases lived.others plugin fun live => absent (.inl live) with calls | calls <;>
      cases started.symm.trans calls

/-- As long as no reload was given up on, what the core or the pool can reach was started and
not stopped, or a reload is being waited for. -/
theorem unstarted_only_meanwhile (discovered : Table LoadedPlugin) (boot : Daemon.Boot)
    (store : Store) (configuration : Configuration) (s : Lifecycle) (steps : List Service.Step)
    (begun : Begun discovered boot store configuration s)
    (same : ∀ step ∈ steps, Discovers discovered step) (patient : ∀ step ∈ steps, Patient step) :
    Transition.Always advance (fun l => Waits l ∨ ∀ plugin,
      l.service.Reaches plugin ↔ l.callsOf plugin = [.start plugin]) s steps := by
  have meets : Transition.Throughout advance
      (fun _ step => Discovers discovered step ∧ Patient step) s steps :=
    Transition.throughout_of_forall fun step member _ => ⟨same step member, patient step member⟩
  have kept : ∀ s step t, Attended discovered s → Discovers discovered step ∧ Patient step →
      advance s step = some t → Attended discovered t :=
    fun _ _ _ attended met stepped => attended.advanced met.1 met.2 stepped
  obtain ⟨_, plugins, none⟩ := begun.launched.outset
  have start : Attended discovered s := ⟨begun.tended, fun _ => ⟨plugins, none⟩⟩
  exact Transition.always_of_invariant kept (fun _ attended => attended.reaches) start meets

instance (l : Lifecycle) : Decidable (Waits l) :=
  match held : l.service.outside.reloading with
  | .submitted rebuilt a => isTrue ⟨rebuilt, a, held⟩
  | .idle | .mirrored _ | .read _ _ | .refreshed _ => isFalse (by rintro ⟨_, _, waits⟩; simp_all)

namespace Sample

/-- The reload is given up on before the core handles its message. -/
def abandoning : List Service.Step :=
  Sample.rekeying.take 4 ++ [.reload .giveUp] ++ Sample.rekeying.drop 4

end Sample

/-- Once the reload is adopted the new object is reached, and was started; if it was given up
on, it is reached and was not. -/
theorem rekeyed_started : (∃ t,
    Transition.run advance Sample.begun (Sample.rekeying ++ [.reload .adopt]) = some t ∧
      ¬ Waits t ∧ t.callsOf 2 = [.start 2] ∧ t.service.Reaches 2) ∧
    ∃ t, Transition.run advance Sample.begun Sample.abandoning = some t ∧ ¬ Waits t ∧
      t.callsOf 2 = [] ∧ t.service.Reaches 2 := by
  have ran : Transition.run advance Sample.begun (Sample.rekeying ++ [.reload .adopt]) = _ :=
    (Option.some_get (by decide +kernel)).symm
  have abandoned : Transition.run advance Sample.begun Sample.abandoning = _ :=
    (Option.some_get (by decide +kernel)).symm
  have same : ∀ step ∈ Sample.rekeying ++ [.reload .adopt],
      Discovers Service.Sample.shop.plugins step := by simp [Sample.rekeying, Discovers]
  have patient : ∀ step ∈ Sample.rekeying ++ [.reload .adopt], Patient step := by
    simp [Sample.rekeying, Patient]
  have idle : ¬ Waits (Option.get (Transition.run advance Sample.begun
      (Sample.rekeying ++ [.reload .adopt])) (by decide +kernel)) := by decide +kernel
  have reached := ((unstarted_only_meanwhile _ _ _ _ _ _ Sample.begun_begun same patient).last
    ran).resolve_left idle 2
  have calls : (Option.get (Transition.run advance Sample.begun
      (Sample.rekeying ++ [.reload .adopt])) (by decide +kernel)).callsOf 2 = [.start 2] := by
    decide +kernel
  exact ⟨⟨_, ran, idle, calls, reached.mpr calls⟩, ⟨_, abandoned, by decide +kernel,
    by decide +kernel, .inr (.inl ⟨"lamp", by decide +kernel⟩)⟩⟩

end Lifecycle

end NotiMapper
