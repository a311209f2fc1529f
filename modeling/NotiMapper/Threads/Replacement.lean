import NotiMapper.Threads.Acknowledging
import NotiMapper.Threads.Retention

/-! What a reload does to the plugin objects: which it starts, which it stops, and which it
leaves alone. New objects are built for every instance, and those whose instance is unchanged
are thrown away again before anyone has seen them. -/
namespace NotiMapper

/-- What `_reload` has worked out when it submits its message. -/
structure Replacement where
  configuration : Configuration
  rebuilt : Table LiveInstance
  started : List LiveEntry
  removed : List LiveEntry

def Replacement.of (previous : Table LiveInstance) (configuration : Configuration)
    (built : Table LiveInstance) : Replacement :=
  let rebuilt := retain previous configuration built
  let kept := built.keys.filterMap fun name =>
    (retained previous configuration name).map (Sigma.mk name)
  ⟨configuration, rebuilt, rebuilt.entries.filter (· ∉ kept),
    previous.entries.filter fun entry => rebuilt.lookup entry.1 ≠ some entry.2⟩

inductive PluginCall
  | start (plugin : PluginRef)
  | stop (plugin : PluginRef)
  deriving DecidableEq

/-- `_start_instances`, in the table's order, which is not that of insertion. -/
def startInstances (instances : List LiveEntry) : List PluginCall :=
  instances.flatMap fun live => live.2.objects.map .start

/-- `_stop_instances`: the input of an instance before its output. -/
def stopInstances (instances : List LiveEntry) : List PluginCall :=
  instances.flatMap fun live =>
    (live.2.inputPlugin.toList ++ live.2.outputPlugin.toList).map .stop

/-- The service, with the configuration that is running, what the reload thread holds, and
every call of `start` and `stop` that was made. -/
structure Lifecycle where
  service : Service
  running : Configuration
  pending : Option Replacement
  calls : List PluginCall

namespace Lifecycle

/-- What building finds to be replaced. -/
def replacement (s : Service) (shop : Workshop) : Option Replacement :=
  match s.outside.reloading with
  | .refreshed configuration =>
    (shop.buildInstances s.outside.nextPlugin configuration).toOption.map fun built =>
      .of s.outside.live configuration built.1
  | _ => none

def advance (l : Lifecycle) (step : Service.Step) : Option Lifecycle :=
  (l.service.advance step).map fun next =>
    match step with
    | .reload (.build shop) => { l with service := next, pending := replacement l.service shop }
    | .reload .adopt =>
      match l.pending with
      | none => { l with service := next }
      | some held => ⟨next, held.configuration, none,
          l.calls ++ stopInstances held.removed ++ startInstances held.started⟩
    | _ => { l with service := next }

end Lifecycle

/-- The live instances are the enabled ones of the configuration. -/
structure Serves (discovered : Table LoadedPlugin) (configuration : Configuration)
    (live : Table LiveInstance) : Prop where
  names : ∀ name, name ∈ live ↔ ∃ c ∈ configuration.enabledInstances, c.name = name
  made : ∀ c ∈ configuration.enabledInstances, ∀ l, live.lookup c.name = some l →
    MadeFor discovered c l

/-- The instance is enabled in both configurations, with the same plugin and settings. -/
def Unaltered (old new : Configuration) (name : Name) : Prop :=
  ∃ before ∈ old.enabledInstances, ∃ after ∈ new.enabledInstances, before.name = name ∧
    after.name = name ∧ after.plugin = before.plugin ∧ after.settings = before.settings

/- One replacement. -/

theorem mem_enabledInstances {configuration : Configuration} {c : InstanceConfig} :
    c ∈ configuration.enabledInstances ↔ c ∈ configuration.instances ∧ c.enabled = true := by
  rw [Configuration.enabledInstances, List.mem_insertionSort, List.mem_filter]

theorem LiveInstance.matches_iff {live : LiveInstance} {c : InstanceConfig} :
    live.matches c = true ↔ live.pluginName = c.plugin ∧ live.settings = c.settings := by
  simp [LiveInstance.matches]

theorem startInstances_eq (entries : List LiveEntry) :
    startInstances entries = (objectsOf entries).map .start := by
  rw [objectsOf, List.map_flatMap, startInstances]

theorem stopInstances_perm (entries : List LiveEntry) :
    (stopInstances entries).Perm ((objectsOf entries).map .stop) := by
  induction entries with
  | nil => exact List.Perm.refl _
  | cons entry entries ih =>
    have objects : (objectsOf (entry :: entries)).map PluginCall.stop =
        entry.2.objects.map .stop ++ (objectsOf entries).map .stop := by
      rw [objectsOf, List.flatMap_cons, List.map_append, objectsOf]
    rw [stopInstances, List.flatMap_cons, objects]
    exact (List.perm_append_comm.map _).append ih

section Replacing

variable {discovered : Table LoadedPlugin} {old new : Configuration}
  {previous built : Table LiveInstance} {first next : PluginRef}

theorem rebuilt_cases {name : Name} {l : LiveInstance}
    (found : (retain previous new built).lookup name = some l) : name ∈ built ∧
      (retained previous new name = some l ∨
        retained previous new name = none ∧ built.lookup name = some l) := by
  rw [lookup_retain, Option.map_eq_some_iff] at found
  obtain ⟨k, own, rfl⟩ := found
  refine ⟨AList.lookup_isSome.mp (Option.isSome_iff_exists.mpr ⟨k, own⟩), ?_⟩
  cases kept : retained previous new name with
  | none => exact .inr ⟨rfl, own⟩
  | some existing => exact .inl rfl

theorem rebuilt_of_retained {name : Name} {l : LiveInstance} (known : name ∈ built)
    (kept : retained previous new name = some l) :
    (retain previous new built).lookup name = some l := by
  obtain ⟨k, own⟩ := Option.isSome_iff_exists.mp (AList.lookup_isSome.mpr known)
  rw [lookup_retain, own, kept]
  rfl

/-- A retained instance matches the one that is enabled under its name. -/
theorem retained_matches {c : InstanceConfig} {l : LiveInstance}
    (enabled : c ∈ new.enabledInstances) (kept : retained previous new c.name = some l) :
    previous.lookup c.name = some l ∧ l.matches c = true := by
  obtain ⟨own, other, member, named, matched⟩ := retained_eq_some.mp kept
  have same : other = c := List.inj_on_of_nodup_map new.instances_nodup member
    (mem_enabledInstances.mp enabled).1 named
  exact ⟨own, same ▸ matched⟩

variable (serves : Serves discovered old previous) (once : OnceEach previous)
  (from_ : BuiltFrom discovered new.enabledInstances first next built)
  (below : ∀ plugin ∈ objectsOf previous.entries, plugin < first)

include from_ in
theorem rebuilt_names (name : Name) : name ∈ retain previous new built ↔
    ∃ c ∈ new.enabledInstances, c.name = name := by
  rw [← from_.names, ← AList.lookup_isSome, ← AList.lookup_isSome, lookup_retain,
    Option.isSome_map]

include serves from_ in
theorem rebuilt_serves : Serves discovered new (retain previous new built) := by
  refine ⟨rebuilt_names from_, fun c enabled l found => ?_⟩
  rcases (rebuilt_cases found).2 with kept | ⟨_, own⟩
  · obtain ⟨own, matched⟩ := retained_matches enabled kept
    obtain ⟨before, member, named⟩ := (serves.names c.name).mp
      (AList.lookup_isSome.mp (Option.isSome_iff_exists.mpr ⟨l, own⟩))
    obtain ⟨matchedBefore, loaded, plugin, directions⟩ :=
      serves.made before member l (named ▸ own)
    have same : c.plugin = before.plugin :=
      (LiveInstance.matches_iff.mp matched).1.symm.trans (LiveInstance.matches_iff.mp matchedBefore).1
    exact ⟨matched, loaded, same ▸ plugin, directions⟩
  · exact from_.made c enabled l own

include serves from_ in
/-- An instance stays exactly if its configuration is unaltered. -/
theorem rebuilt_keeps_iff {name : Name} {l : LiveInstance} (own : previous.lookup name = some l) :
    (retain previous new built).lookup name = some l ↔ Unaltered old new name := by
  obtain ⟨before, member, rfl⟩ := (serves.names name).mp
    (AList.lookup_isSome.mp (Option.isSome_iff_exists.mpr ⟨l, own⟩))
  obtain ⟨plugin, settings⟩ := LiveInstance.matches_iff.mp (serves.made before member l own).1
  constructor
  · intro found
    obtain ⟨after, enabled, named⟩ := (rebuilt_names from_ before.name).mp
      (AList.lookup_isSome.mp (Option.isSome_iff_exists.mpr ⟨l, found⟩))
    have matched := ((rebuilt_serves serves from_).made after enabled l (named ▸ found)).1
    obtain ⟨plugin', settings'⟩ := LiveInstance.matches_iff.mp matched
    exact ⟨before, member, after, enabled, rfl, named, plugin'.symm.trans plugin,
      settings'.symm.trans settings⟩
  · rintro ⟨other, member', after, enabled, same, named, plugin', settings'⟩
    have equal : other = before :=
      List.inj_on_of_nodup_map old.enabledInstances_nodup member' member same
    subst equal
    have matched : l.matches after = true :=
      LiveInstance.matches_iff.mpr ⟨plugin.trans plugin'.symm, settings.trans settings'.symm⟩
    refine rebuilt_of_retained ((from_.names _).mpr ⟨after, enabled, named⟩) ?_
    exact retained_eq_some.mpr ⟨own, after, (mem_enabledInstances.mp enabled).1, named, matched⟩

include once from_ below in
theorem rebuilt_object_iff {name : Name} {l : LiveInstance} (own : previous.lookup name = some l)
    {plugin : PluginRef} (object : plugin ∈ l.objects) :
    plugin ∈ objectsOf (retain previous new built).entries ↔
      (retain previous new built).lookup name = some l := by
  rw [mem_objectsOf]
  constructor
  · rintro ⟨m, k, found, member⟩
    rcases (rebuilt_cases found).2 with kept | ⟨_, fresh⟩
    · obtain ⟨before, _⟩ := retained_eq_some.mp kept
      have same := once.across name m l k own before plugin object member
      subst same
      cases own.symm.trans before
      exact found
    · have old := below plugin (mem_objectsOf.mpr ⟨name, l, own, object⟩)
      exact absurd (from_.fresh m k fresh plugin member).1 (Nat.not_le_of_lt old)
  · exact fun found => ⟨name, l, found, object⟩

include once from_ below in
theorem rebuilt_once : OnceEach (retain previous new built) := by
  constructor
  · intro name l found
    rcases (rebuilt_cases found).2 with kept | ⟨_, fresh⟩
    · exact once.within name l (retained_eq_some.mp kept).1
    · exact from_.once.within name l fresh
  · intro n m l k foundN foundM plugin objectN objectM
    have old {name : Name} {l : LiveInstance} (kept : retained previous new name = some l)
        (object : plugin ∈ l.objects) : plugin < first :=
      below plugin (mem_objectsOf.mpr ⟨name, l, (retained_eq_some.mp kept).1, object⟩)
    rcases (rebuilt_cases foundN).2 with keptN | ⟨_, freshN⟩
    · rcases (rebuilt_cases foundM).2 with keptM | ⟨_, freshM⟩
      · exact once.across n m l k (retained_eq_some.mp keptN).1 (retained_eq_some.mp keptM).1
          plugin objectN objectM
      · exact absurd (from_.fresh m k freshM plugin objectM).1
          (Nat.not_le_of_lt (old keptN objectN))
    · rcases (rebuilt_cases foundM).2 with keptM | ⟨_, freshM⟩
      · exact absurd (from_.fresh n l freshN plugin objectN).1
          (Nat.not_le_of_lt (old keptM objectM))
      · exact from_.once.across n m l k freshN freshM plugin objectN objectM

include from_ below in
theorem rebuilt_below (le : first ≤ next) {plugin : PluginRef}
    (member : plugin ∈ objectsOf (retain previous new built).entries) : plugin < next := by
  obtain ⟨name, l, found, object⟩ := mem_objectsOf.mp member
  rcases (rebuilt_cases found).2 with kept | ⟨_, fresh⟩
  · have old := below plugin
      (mem_objectsOf.mpr ⟨name, l, (retained_eq_some.mp kept).1, object⟩)
    exact Nat.lt_of_lt_of_le old le
  · exact (from_.fresh name l fresh plugin object).2

/-- Started is what is new in the table. -/
theorem mem_started {name : Name} {l : LiveInstance} :
    (⟨name, l⟩ : LiveEntry) ∈ (Replacement.of previous new built).started ↔
      (retain previous new built).lookup name = some l ∧ retained previous new name = none := by
  have entry : (⟨name, l⟩ : LiveEntry) ∈ (retain previous new built).entries ↔
      (retain previous new built).lookup name = some l := AList.mem_lookup_iff.symm
  simp only [Replacement.of, List.mem_filter, decide_eq_true_eq, entry]
  refine and_congr_right fun found => ?_
  constructor
  · intro apart
    rcases (rebuilt_cases found).2 with kept | ⟨none, _⟩
    · refine absurd (List.mem_filterMap.mpr ⟨name, ?_, ?_⟩) apart
      · exact AList.mem_keys.mp (rebuilt_cases found).1
      · rw [kept]
        rfl
    · exact none
  · intro none member
    obtain ⟨other, _, same⟩ := List.mem_filterMap.mp member
    obtain ⟨k, kept, same⟩ := Option.map_eq_some_iff.mp same
    cases same
    rw [none] at kept
    cases kept

include from_ below in
theorem started_objects {plugin : PluginRef} :
    plugin ∈ objectsOf (Replacement.of previous new built).started ↔
      plugin ∈ objectsOf (retain previous new built).entries ∧
        plugin ∉ objectsOf previous.entries := by
  rw [mem_objectsOf, objectsOf, List.mem_flatMap]
  constructor
  · rintro ⟨⟨name, l⟩, member, object⟩
    obtain ⟨found, none⟩ := mem_started.mp member
    refine ⟨⟨name, l, found, object⟩, fun old => ?_⟩
    rcases (rebuilt_cases found).2 with kept | ⟨_, fresh⟩
    · rw [none] at kept
      cases kept
    · exact absurd (from_.fresh name l fresh plugin object).1 (Nat.not_le_of_lt (below plugin old))
  · rintro ⟨⟨name, l, found, object⟩, new⟩
    refine ⟨⟨name, l⟩, mem_started.mpr ⟨found, ?_⟩, object⟩
    rcases (rebuilt_cases found).2 with kept | ⟨none, _⟩
    · exact absurd (mem_objectsOf.mpr ⟨name, l, (retained_eq_some.mp kept).1, object⟩) new
    · exact none

include once from_ below in
theorem removed_objects {plugin : PluginRef} :
    plugin ∈ objectsOf (Replacement.of previous new built).removed ↔
      plugin ∈ objectsOf previous.entries ∧
        plugin ∉ objectsOf (retain previous new built).entries := by
  rw [objectsOf, List.mem_flatMap]
  constructor
  · rintro ⟨⟨name, l⟩, member, object⟩
    obtain ⟨entry, gone⟩ := List.mem_filter.mp member
    have own : previous.lookup name = some l := AList.mem_lookup_iff.mpr entry
    refine ⟨mem_objectsOf.mpr ⟨name, l, own, object⟩, ?_⟩
    rw [rebuilt_object_iff once from_ below own object]
    exact of_decide_eq_true gone
  · rintro ⟨member, gone⟩
    obtain ⟨name, l, own, object⟩ := mem_objectsOf.mp member
    rw [rebuilt_object_iff once from_ below own object] at gone
    exact ⟨⟨name, l⟩, List.mem_filter.mpr ⟨AList.mem_lookup_iff.mp own, decide_eq_true gone⟩, object⟩

end Replacing

/- Calls. -/

theorem start_injective : Function.Injective PluginCall.start :=
  fun _ _ same => PluginCall.start.inj same

theorem stop_injective : Function.Injective PluginCall.stop :=
  fun _ _ same => PluginCall.stop.inj same

theorem count_start_starting (entries : List LiveEntry) (plugin : PluginRef) :
    (startInstances entries).count (.start plugin) = (objectsOf entries).count plugin := by
  rw [startInstances_eq, List.count_map_of_injective _ _ start_injective]

theorem count_stop_starting (entries : List LiveEntry) (plugin : PluginRef) :
    (startInstances entries).count (.stop plugin) = 0 := by
  rw [startInstances_eq, List.count_eq_zero]
  intro member
  obtain ⟨_, _, same⟩ := List.mem_map.mp member
  cases same

theorem count_stop_stopping (entries : List LiveEntry) (plugin : PluginRef) :
    (stopInstances entries).count (.stop plugin) = (objectsOf entries).count plugin := by
  rw [(stopInstances_perm entries).count_eq, List.count_map_of_injective _ _ stop_injective]

theorem count_start_stopping (entries : List LiveEntry) (plugin : PluginRef) :
    (stopInstances entries).count (.start plugin) = 0 := by
  rw [(stopInstances_perm entries).count_eq, List.count_eq_zero]
  intro member
  obtain ⟨_, _, same⟩ := List.mem_map.mp member
  cases same

end NotiMapper
