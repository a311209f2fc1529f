import NotiMapper.Config.Discovery
import NotiMapper.Config.Layout

/-! From discovery through the loader to the configuration the daemon runs on. What a loader
accepts that knows the plugins which were discovered, can be built from them: an instance
names a plugin that was found, and a rule lists instances on the side their plugins have. -/
namespace NotiMapper

open Python Report

/-- The classes there are, as building the instances asks for them. -/
def Discovery.LoadedPlugin.exposed (plugin : Discovery.LoadedPlugin) : NotiMapper.LoadedPlugin :=
  ⟨plugin.inputClass.isSome, plugin.outputClass.isSome⟩

def Discovery.DiscoveryResult.exposed (result : Discovery.DiscoveryResult) :
    Table NotiMapper.LoadedPlugin := result.each LoadedPlugin.exposed

def LoadedPlugin.has (plugin : LoadedPlugin) : PluginDirection → Bool
  | .input => plugin.inputClass
  | .output => plugin.outputClass

def LoadedRule.members (rule : LoadedRule) : PluginDirection → List Name
  | .input => rule.inputs
  | .output => rule.outputs

def RuleConfig.members (rule : RuleConfig) : PluginDirection → List Name
  | .input => rule.inputs
  | .output => rule.outputs

/-- The plugins provide what the configuration asks of them. -/
structure Configuration.Provided (plugins : Table LoadedPlugin) (configuration : Configuration) :
    Prop where
  found : ∀ i ∈ configuration.instances, i.plugin ∈ plugins
  sided : ∀ rule ∈ configuration.rules, ∀ direction, ∀ name ∈ rule.members direction,
    ∃ i ∈ configuration.instances, i.name = name ∧
      ∃ plugin, plugins.lookup i.plugin = some plugin ∧ plugin.has direction = true

namespace Loader

variable {l : Loader}

/-- Every instance has a plugin that is known and has nothing against its settings; every
member of a rule is an instance that has that side. -/
structure Admits (l : Loader) (c : LoadedConfiguration) : Prop where
  instances : ∀ name i, c.instances.lookup name = some i →
    ∃ known, l.knownPlugins.lookup i.plugin = some known ∧ i.directions = known.directions ∧
      ∀ validate, known.validateSettings = some validate → validate i.settings = []
  rules : ∀ name rule, c.rules.lookup name = some rule → ∀ direction,
    ∀ member ∈ rule.members direction, ∃ i, c.instances.lookup member = some i ∧
      direction ∈ i.directions

theorem lookup_foldl_instance {drafts : List Draft} {built : BuiltInstances} {name : Name}
    {configured : LoadedInstance}
    (found : (drafts.foldl l.addInstance built).instances.lookup name = some configured) :
    built.instances.lookup name = some configured ∨
      ∃ draft ∈ drafts, l.instanceOf draft = some configured := by
  induction drafts generalizing built with
  | nil => exact .inl found
  | cons draft drafts ih =>
    rcases ih found with held | ⟨other, member, made⟩
    · rw [lookup_addInstance] at held
      split at held
      · rcases Option.or_eq_some_iff.mp held with made | ⟨_, before⟩
        · exact .inr ⟨draft, List.mem_cons_self, made⟩
        · exact .inl before
      · exact .inl held
    · exact .inr ⟨other, List.mem_cons_of_mem draft member, made⟩

theorem instanceOf_admits {draft : Draft} {configured : LoadedInstance}
    (ok : l.InstanceOk draft.body) (made : l.instanceOf draft = some configured) :
    ∃ known, l.knownPlugins.lookup configured.plugin = some known ∧
      configured.directions = known.directions ∧
        ∀ validate, known.validateSettings = some validate → validate configured.settings = [] := by
  obtain ⟨plugin, known, settings, isKnown, held, rfl⟩ := instanceOf_eq_some.mp made
  obtain ⟨_, _, config, ofConfig, _, fine⟩ := (instanceOk_iff isKnown).mp ok
  cases held.symm.trans (settingsOf_config ofConfig)
  exact ⟨known, isKnown.2, rfl, fine⟩

/-- Whatever the files are: what is returned, is admitted. -/
theorem check_admits {directory : String}
    {found : Option (List (String × Checked (Option Members)))} {c : LoadedConfiguration}
    (passed : l.check directory found = pure c) : Admits l c := by
  obtain ⟨files, _, passed⟩ := bind_eq_pure.mp passed
  obtain ⟨collected, _, passed⟩ := bind_eq_pure.mp passed
  obtain ⟨daemon, _, passed⟩ := bind_eq_pure.mp passed
  obtain ⟨built, making, passed⟩ := bind_eq_pure.mp passed
  obtain ⟨rules, ruling, passed⟩ := bind_eq_pure.mp passed
  cases pure_eq_pure.mp passed
  have shallow := buildInstances_returns.mp (making ▸ returns_pure built)
  obtain ⟨ok, rfl⟩ := (buildInstances_gives shallow).eq_pure.mp making
  have unbroken : (l.builtFrom collected.instanceDrafts).broken = [] := by
    rw [List.eq_nil_iff_forall_not_mem]
    intro name broken
    obtain ⟨draft, member, _, none⟩ := mem_broken_builtFrom.mp broken
    obtain ⟨configured, made⟩ := instanceOf_ok (ok draft member)
    cases none.symm.trans made
  have start : Ruled (l.builtFrom collected.instanceDrafts) [] ∅ :=
    ⟨List.forall_mem_nil _, List.forall_mem_nil _, fun _ _ absent => nomatch absent⟩
  have ruled := buildRules_sound unbroken start ruling
  constructor
  · intro name i held
    rcases lookup_foldl_instance held with absent | ⟨draft, member, made⟩
    · cases absent
    · exact instanceOf_admits (ok draft member) made
  · intro name rule held direction member listed
    obtain ⟨_, _, _, _, inputs, outputs⟩ := ruled.drafted name rule held
    cases direction with
    | input => exact inputs.2.2 member listed
    | output => exact outputs.2.2 member listed

end Loader

namespace Discovery

theorem foldl_new_eq_nil {found problems : List String} :
    found.foldl (fun problems problem =>
      if problem ∈ problems then problems else problems ++ [problem]) problems = [] ↔
      problems = [] ∧ found = [] := by
  induction found generalizing problems with
  | nil => simp
  | cons first found ih =>
    rw [List.foldl_cons, ih]
    constructor
    · rintro ⟨none, _⟩
      split at none
      · rename_i listed
        rw [none] at listed
        cases listed
      · simp at none
    · rintro ⟨_, none⟩
      cases none

/-- Nothing is found wrong exactly if neither class finds anything. -/
theorem settingsValidator_eq_nil {plugin : LoadedPlugin} {settings : Members} :
    settingsValidator plugin settings = [] ↔
      (∀ c ∈ plugin.inputClass, c.validateSettings settings = []) ∧
        ∀ c ∈ plugin.outputClass, c.validateSettings settings = [] := by
  unfold settingsValidator
  cases plugin.inputClass <;> cases plugin.outputClass <;> simp [foldl_new_eq_nil]

theorem mem_directions {plugin : LoadedPlugin} {direction : PluginDirection} :
    direction ∈ plugin.directions ↔ plugin.exposed.has direction = true := by
  cases direction <;>
    simp [LoadedPlugin.directions, LoadedPlugin.exposed, NotiMapper.LoadedPlugin.has]

variable {result : DiscoveryResult} {l : Loader} {c : LoadedConfiguration}

/-- What is admitted, of the plugins that were found. -/
theorem admits_found (known : l.knownPlugins = knownPlugins result) (admits : l.Admits c)
    {name : Name} {i : LoadedInstance} (held : c.instances.lookup name = some i) :
    ∃ plugin, result.plugins.lookup i.plugin = some plugin ∧
      i.directions = plugin.directions ∧ settingsValidator plugin i.settings = [] := by
  obtain ⟨known', found, directions, fine⟩ := admits.instances name i held
  rw [known, knownPlugins, DiscoveryResult.lookup_each, Option.map_eq_some_iff] at found
  obtain ⟨plugin, found, rfl⟩ := found
  exact ⟨plugin, found, directions, fine _ rfl⟩

theorem running_instance {render : Members → Settings} {configured : InstanceConfig} :
    configured ∈ (c.running render).instances ↔ ∃ i, c.instances.lookup configured.name = some i ∧
      configured = ⟨configured.name, i.plugin, i.enabled, render (sortedMembers i.settings)⟩ := by
  simp only [LoadedConfiguration.running, List.mem_map]
  constructor
  · rintro ⟨⟨name, i⟩, member, rfl⟩
    exact ⟨i, AList.mem_lookup_iff.mpr member, rfl⟩
  · rintro ⟨i, held, same⟩
    exact ⟨⟨configured.name, i⟩, AList.mem_lookup_iff.mp held, same.symm⟩

theorem running_provided (render : Members → Settings)
    (known : l.knownPlugins = knownPlugins result) (admits : l.Admits c) :
    (c.running render).Provided result.exposed := by
  constructor
  · intro configured member
    obtain ⟨i, held, same⟩ := running_instance.mp member
    obtain ⟨plugin, found, _⟩ := admits_found known admits held
    have there : result.exposed.lookup configured.plugin = some plugin.exposed := by
      rw [same, DiscoveryResult.exposed, DiscoveryResult.lookup_each, found]
      rfl
    exact AList.lookup_isSome.mp (Option.isSome_iff_exists.mpr ⟨_, there⟩)
  · intro rule member direction name listed
    obtain ⟨⟨key, loaded⟩, held, rfl⟩ := List.mem_map.mp member
    have listed : name ∈ loaded.members direction := by
      cases direction <;> exact listed
    obtain ⟨i, there, side⟩ :=
      admits.rules key loaded (AList.mem_lookup_iff.mpr held) direction name listed
    obtain ⟨plugin, found, directions, _⟩ := admits_found known admits there
    refine ⟨⟨name, i.plugin, i.enabled, render (sortedMembers i.settings)⟩, running_instance.mpr ⟨i, there, rfl⟩,
      rfl, plugin.exposed, ?_, mem_directions.mp (directions ▸ side)⟩
    rw [DiscoveryResult.exposed, DiscoveryResult.lookup_each, found]
    rfl

end Discovery

namespace Workshop

variable {shop : Workshop} {failure : String}

theorem make_error {name : Name} {direction : PluginDirection} {exposed : Bool} {next : PluginRef}
    (failed : shop.make name direction exposed next = .error failure) :
    shop.construct name direction = .error failure := by
  unfold make at failed
  split at failed
  · cases made : shop.construct name direction with
    | error other =>
      rw [made] at failed
      cases failed
      rfl
    | ok _ =>
      rw [made] at failed
      cases failed
  · cases failed

theorem buildInstance_error {built : Table LiveInstance × PluginRef} {configured : InstanceConfig}
    (loaded : configured.plugin ∈ shop.plugins)
    (failed : shop.buildInstance built configured = .error failure) :
    ∃ direction, shop.construct configured.name direction = .error failure := by
  obtain ⟨plugin, found⟩ := Option.isSome_iff_exists.mp (AList.lookup_isSome.mpr loaded)
  simp only [buildInstance, found, Bind.bind, Except.bind] at failed
  split at failed
  · rename_i made
    cases failed
    exact ⟨.input, make_error made⟩
  · split at failed
    · rename_i made
      cases failed
      exact ⟨.output, make_error made⟩
    · cases failed

/-- Where every plugin is there, only a constructor can fail. -/
theorem foldlM_error {configured : List InstanceConfig}
    (loaded : ∀ i ∈ configured, i.plugin ∈ shop.plugins) (built : Table LiveInstance × PluginRef)
    (failed : configured.foldlM shop.buildInstance built = .error failure) :
    ∃ i ∈ configured, ∃ direction, shop.construct i.name direction = .error failure := by
  induction configured generalizing built with
  | nil => cases failed
  | cons first rest ih =>
    obtain ⟨here, later⟩ := List.forall_mem_cons.mp loaded
    rw [List.foldlM_cons] at failed
    cases made : shop.buildInstance built first with
    | error other =>
      rw [made] at failed
      cases failed
      exact ⟨first, List.mem_cons_self, buildInstance_error here made⟩
    | ok next =>
      rw [made] at failed
      obtain ⟨i, member, raised⟩ := ih later next failed
      exact ⟨i, List.mem_cons_of_mem first member, raised⟩

end Workshop

namespace Discovery

/-- What is accepted with the plugins that were discovered, they provide: no class has anything
against the settings of its instances, and building fails only where a constructor does. -/
theorem accepted_provided (result : DiscoveryResult) (l : Loader) (directory : String)
    (files : Option (List (String × Checked (Option Members)))) (c : LoadedConfiguration)
    (render : Members → Settings) (known : l.knownPlugins = knownPlugins result)
    (accepted : l.load directory files = .ok c) :
    (c.running render).Provided result.exposed ∧
    (∀ name i, c.instances.lookup name = some i →
      ∃ plugin, result.plugins.lookup i.plugin = some plugin ∧
        (∀ cls ∈ plugin.inputClass, cls.validateSettings i.settings = []) ∧
          ∀ cls ∈ plugin.outputClass, cls.validateSettings i.settings = []) ∧
    ∀ construct first failure,
      Workshop.buildInstances ⟨result.exposed, construct⟩ first (c.running render) = .error failure →
        ∃ i ∈ (c.running render).enabledInstances, ∃ direction,
          construct i.name direction = .error failure := by
  have admits := Loader.check_admits (concluded_ok.mp accepted)
  have provided := running_provided render known admits
  refine ⟨provided, fun name i held => ?_, fun construct first failure failed => ?_⟩
  · obtain ⟨plugin, found, _, fine⟩ := admits_found known admits held
    exact ⟨plugin, found, settingsValidator_eq_nil.mp fine⟩
  · have loaded : ∀ i ∈ (c.running render).enabledInstances, i.plugin ∈ result.exposed := by
      intro i member
      rw [Configuration.enabledInstances, List.mem_insertionSort, List.mem_filter] at member
      exact provided.found i member.1
    exact Workshop.foldlM_error loaded _ failed

namespace Sample

def plugins : DiscoveryResult where
  plugins := ((∅ : Table LoadedPlugin).insert "file_input"
      ⟨"file_input", "/usr/lib/noti-mapper/plugins/file_input", some ⟨fun _ => []⟩, none⟩).insert
    "pagerduty_output"
      ⟨"pagerduty_output", "/usr/lib/noti-mapper/plugins/pagerduty", none, some ⟨fun _ => []⟩⟩
  failures := []

def loader : Loader := { Loader.plain with knownPlugins := knownPlugins plugins }

end Sample

theorem small_configuration_provided : ∃ c, Sample.loader.load "/etc/noti-mapper.d"
      (some (Loader.parsed Loader.smallConfiguration)) = .ok c ∧
    (c.running fun _ => "").Provided Sample.plugins.exposed := by
  have returned : (Sample.loader.load "/etc/noti-mapper.d"
      (some (Loader.parsed Loader.smallConfiguration))).isOk = true := by decide +kernel
  have given := accepted_provided Sample.plugins Sample.loader "/etc/noti-mapper.d"
    (some (Loader.parsed Loader.smallConfiguration))
  generalize Sample.loader.load "/etc/noti-mapper.d"
    (some (Loader.parsed Loader.smallConfiguration)) = outcome at *
  cases outcome with
  | error failure => cases returned
  | ok c => exact ⟨c, rfl, (given c (fun _ => "") rfl rfl).1⟩

end Discovery

end NotiMapper
