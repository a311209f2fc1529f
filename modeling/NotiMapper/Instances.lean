import NotiMapper.Rules

/-! The live plugin instances. Building makes new objects, for each enabled instance one
for each direction its plugin has; an instance whose plugin and settings are unchanged
gives its old objects back. -/
namespace NotiMapper

/-- The classes a plugin directory exposes. -/
structure LoadedPlugin where
  inputClass : Bool
  outputClass : Bool

/-- One running plugin instance, and what it was built from. -/
structure LiveInstance where
  pluginName : String
  settings : Settings
  inputPlugin : Option PluginRef := none
  outputPlugin : Option PluginRef := none
  deriving DecidableEq

def LiveInstance.matches (live : LiveInstance) (configured : InstanceConfig) : Bool :=
  live.pluginName = configured.plugin && live.settings = configured.settings

/-- What building finds: the plugins that were discovered, and what the constructors answer. -/
structure Workshop where
  plugins : Table LoadedPlugin
  construct : Name → PluginDirection → Except String Unit

namespace Workshop

/-- One object is constructed, with the next free identity. -/
def make (shop : Workshop) (name : Name) (direction : PluginDirection) (exposed : Bool)
    (next : PluginRef) : Except String (Option PluginRef × PluginRef) :=
  if exposed then (shop.construct name direction).map fun _ => (some next, next + 1)
  else .ok (none, next)

/-- One round of the loop in `_build_instances`. -/
def buildInstance (shop : Workshop) (built : Table LiveInstance × PluginRef)
    (configured : InstanceConfig) : Except String (Table LiveInstance × PluginRef) := do
  let some loaded := shop.plugins.lookup configured.plugin
    | .error s!"instance '{configured.name}' needs plugin '{configured.plugin}', which is not loaded"
  let (input, next) ← shop.make configured.name .input loaded.inputClass built.2
  let (output, next) ← shop.make configured.name .output loaded.outputClass next
  return (built.1.insert configured.name ⟨configured.plugin, configured.settings, input, output⟩, next)

def buildInstances (shop : Workshop) (next : PluginRef) (configuration : Configuration) :
    Except String (Table LiveInstance × PluginRef) :=
  configuration.enabledInstances.foldlM shop.buildInstance (∅, next)

end Workshop

/-- The instances that have an object in this direction. -/
def pluginsOf (side : LiveInstance → Option PluginRef) (live : Table LiveInstance) :
    Table PluginRef :=
  live.entries.foldl (fun plugins entry =>
    match side entry.2 with
    | some plugin => plugins.insert entry.1 plugin
    | none => plugins) ∅

/-- `_plugin_set`. -/
def pluginSet (live : Table LiveInstance) : PluginSet where
  inputs := pluginsOf (·.inputPlugin) live
  outputs := pluginsOf (·.outputPlugin) live

/-- The instance a reload keeps under this name, if it keeps one. -/
def retained (previous : Table LiveInstance) (configuration : Configuration) (name : Name) :
    Option LiveInstance :=
  (previous.lookup name).filter fun existing =>
    (configuration.instances.find? (·.name = name)).any existing.matches

/-- What is unchanged keeps running; only what changed is replaced. -/
def retain (previous : Table LiveInstance) (configuration : Configuration)
    (rebuilt : Table LiveInstance) : Table LiveInstance :=
  rebuilt.keys.foldl (fun table name =>
    match retained previous configuration name with
    | some existing => table.insert name existing
    | none => table) rebuilt

end NotiMapper
