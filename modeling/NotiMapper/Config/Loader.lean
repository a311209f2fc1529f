import NotiMapper.Library.Report
import NotiMapper.Config.Secrets
import NotiMapper.Instances

/-! Loading the configuration: the files are merged into drafts, and the drafts built into
the instances, the rules and the daemon's settings. Every problem is reported, with its
place, and the load fails in the end if there was one. -/
namespace NotiMapper

open Python Report

/-- Where in a configuration file something is. -/
structure ConfigPath where
  file : String
  steps : List String := []
  deriving DecidableEq

namespace ConfigPath

def key (path : ConfigPath) (name : String) : ConfigPath :=
  { path with steps := path.steps ++ [name] }

def named (u : Unicode) (path : ConfigPath) (value : String) : ConfigPath :=
  { path with steps := path.steps ++ [u.repr value] }

/-- Subscript the step above an array element. -/
def element (path : ConfigPath) (index : Nat) : ConfigPath :=
  match path.steps.getLast? with
  | none => { path with steps := [s!"[{index}]"] }
  | some last => { path with steps := path.steps.dropLast ++ [s!"{last}[{index}]"] }

def toText (path : ConfigPath) : String :=
  if path.steps.isEmpty then path.file else s!"{path.file}: " ++ " → ".intercalate path.steps

end ConfigPath

structure ConfigError where
  message : String
  location : Option ConfigPath := none
  deriving DecidableEq

/-- What leaves the loader besides its own error. -/
inductive Escape
  | overflowError
  | recursionError
  | unicodeDecodeError
  deriving DecidableEq, Repr

abbrev Checked (α : Type) := Report ConfigError Escape α

def problem (message : String) (location : Option ConfigPath := none) : Checked Unit :=
  tell ⟨message, location⟩

/-- A plugin that was loaded: the sides of the rule graph it can sit on, and what its class
has against an instance's settings. -/
structure KnownPlugin where
  directions : List PluginDirection
  validateSettings : Option (Members → List String) := none

def PluginDirection.value : PluginDirection → String
  | .input => "input"
  | .output => "output"

/-- `InstanceConfig`, as it is loaded. -/
structure LoadedInstance where
  name : Name
  plugin : String
  directions : List PluginDirection
  settings : Members
  enabled : Bool
  origin : ConfigPath

/-- `RuleConfig`, as it is loaded: no member is listed twice, or on both sides. -/
structure LoadedRule where
  name : Name
  inputs : List Name
  outputs : List Name
  enabled : Bool
  origin : ConfigPath
  inputs_nodup : inputs.Nodup
  outputs_nodup : outputs.Nodup
  disjoint : ∀ n ∈ inputs, n ∉ outputs

structure LoadedConfiguration where
  instances : Table LoadedInstance
  rules : Table LoadedRule
  files : List String
  daemon : DaemonSettings

/-- A named object collected from a file, not yet checked. -/
structure Draft where
  name : Name
  body : Members
  origin : ConfigPath

def topLevelKeys : List String := ["daemon", "instances", "rules"]
def instanceKeys : List String := ["plugin", "config", "enabled"]
def ruleKeys : List String := ["inputs", "outputs", "enabled"]
def daemonKeys : List String :=
  ["event_log_max_rows", "dispatcher_threads", "retry_initial_seconds", "retry_max_seconds"]

/-- What the merging of the files leaves. -/
structure Collected where
  registry : NameRegistry := {}
  instanceDrafts : List Draft := []
  ruleDrafts : List Draft := []
  daemon : Option (Members × ConfigPath) := none

/-- The instances that were built, and the names of those that could not be. -/
structure BuiltInstances where
  instances : Table LoadedInstance := ∅
  broken : List Name := []

/-- What the loader is given; `frames` is how many nested calls Python has left. -/
structure Loader where
  unicode : Unicode
  secrets : SecretStore
  knownPlugins : Table KnownPlugin
  frames : Nat

namespace Loader

variable (l : Loader)

def expected (names : List String) : String := ", ".intercalate (names.map l.unicode.repr)

/- Shared field helpers. -/

def rejectUnknownKeys (body : Members) (path : ConfigPath) (allowed : List String)
    (subject : String) : Checked Unit :=
  (body.filter (·.1 ∉ allowed)).forM fun member => problem
    s!"{subject}: unknown key {l.unicode.repr member.1}; expected one of {l.expected allowed}"
    (path.key member.1)

def requireString (body : Members) (path : ConfigPath) (key subject : String) :
    Checked (Option String) :=
  match body.lookup key with
  | none => do
    problem s!"{subject} has no \"{key}\"" path
    return none
  | some (.string text) => return some text
  | some _ => do
    problem s!"{subject}: \"{key}\" must be a string" (path.key key)
    return none

def optionalBool (body : Members) (path : ConfigPath) (key subject : String) (default : Bool) :
    Checked Bool :=
  match body.lookup key with
  | none => return default
  | some (.bool value) => return value
  | some _ => do
    problem s!"{subject}: \"{key}\" must be true or false" (path.key key)
    return default

/- Merging the files. -/

def addDraft (space : Namespace) (draft : Draft) (c : Collected) : Collected :=
  let c := { c with
    registry := c.registry.register l.unicode space draft.name draft.origin.toText }
  match space with
  | .instances => { c with instanceDrafts := c.instanceDrafts ++ [draft] }
  | .rules => { c with ruleDrafts := c.ruleDrafts ++ [draft] }

/-- One round of the loop in `_collect_named`. -/
def collectNamed (space : Namespace) (path : ConfigPath) (c : Collected)
    (entry : String × Json) : Checked Collected :=
  let raw := entry.1
  let place := path.named l.unicode raw
  match l.unicode.findNameProblems raw with
  | first :: rest => do
    (first :: rest).forM fun found =>
      problem s!"{space.value} name {l.unicode.repr raw}: {found}" place
    return c
  | [] =>
    let name := normalizeName raw
    match c.registry.findConflict l.unicode space name with
    | some conflict => do
      problem (s!"duplicate {space.value} name {l.unicode.repr name}; already defined as " ++
        s!"{l.unicode.repr conflict.name} at {conflict.origin}. Names are unique " ++
        "case-insensitively, and later files may not redefine them.") place
      return c
    | none =>
      match entry.2 with
      | .object body => return l.addDraft space ⟨name, body, place⟩ c
      | _ => do
        problem s!"{space.value} {l.unicode.repr name} must be an object" place
        return c

def collectDaemon (body : Members) (path : ConfigPath) (c : Collected) : Checked Collected :=
  match c.daemon with
  | some (_, origin) => do
    problem ("a second \"daemon\" block; it is already defined in " ++
      s!"{origin.file}. Daemon-wide settings live in exactly one file.") path
    return c
  | none => return { c with daemon := some (body, path) }

/-- One round of the loop in `_collect_document`. -/
def collectMember (file : String) (c : Collected) (member : String × Json) : Checked Collected :=
  let path : ConfigPath := ConfigPath.key ⟨file, []⟩ member.1
  if member.1 ∉ topLevelKeys then do
    problem (s!"unknown top-level key {l.unicode.repr member.1}; expected one of " ++
      l.expected topLevelKeys) path
    return c
  else
    match member.2 with
    | .object body =>
      if member.1 = "daemon" then collectDaemon body path c
      else if member.1 = "instances" then body.foldlM (l.collectNamed .instances path) c
      else body.foldlM (l.collectNamed .rules path) c
    | _ => do
      problem s!"{l.unicode.repr member.1} must be an object" path
      return c

def collectDocument (file : String) (document : Members) (c : Collected) : Checked Collected :=
  document.foldlM (l.collectMember file) c

/- Daemon-wide settings. -/

def positiveInt (body : Members) (path : ConfigPath) (key : String) (default : Nat) :
    Checked Nat :=
  match body.lookup key with
  | none => return default
  | some (.int value) =>
    if value < 1 then do
      problem s!"\"daemon\": \"{key}\" must be a positive integer" (path.key key)
      return default
    else return value.toNat
  | some _ => do
    problem s!"\"daemon\": \"{key}\" must be a positive integer" (path.key key)
    return default

/-- `float(value)`; the conversion of an integer can overflow. -/
def positiveNumber (body : Members) (path : ConfigPath) (key : String) (default : PyFloat) :
    Checked PyFloat :=
  match body.lookup key with
  | none => return default
  | some (.int value) =>
    if value ≤ 0 then do
      problem s!"\"daemon\": \"{key}\" must be a positive number" (path.key key)
      return default
    else
      match floatOfInt value.toNat with
      | .ok float => return float
      | .error _ => raise .overflowError
  | some (.float value) =>
    if value.negative ∨ value.magnitude = .finite 0 then do
      problem s!"\"daemon\": \"{key}\" must be a positive number" (path.key key)
      return default
    else return value.magnitude
  | some _ => do
    problem s!"\"daemon\": \"{key}\" must be a positive number" (path.key key)
    return default

def buildDaemon : Option (Members × ConfigPath) → Checked DaemonSettings
  | none => return {}
  | some (body, path) => do
    l.rejectUnknownKeys body path daemonKeys "\"daemon\""
    let defaults : DaemonSettings := {}
    let eventLogMaxRows ← positiveInt body path "event_log_max_rows" defaults.eventLogMaxRows
    let dispatcherThreads ← positiveInt body path "dispatcher_threads" defaults.dispatcherThreads
    let retryInitialSeconds ←
      positiveNumber body path "retry_initial_seconds" defaults.retryInitialSeconds
    let retryMaxSeconds ← positiveNumber body path "retry_max_seconds" defaults.retryMaxSeconds
    return { eventLogMaxRows, dispatcherThreads, retryInitialSeconds, retryMaxSeconds }

/- Instances. -/

def resolveText (text : String) (path : ConfigPath) : Checked String := do
  let result := substitute text l.secrets
  let known := if l.secrets.names.isEmpty then "(none defined)" else ", ".intercalate l.secrets.names
  result.missing.forM fun name => problem
    s!"undefined secret {l.unicode.repr name}; {l.secrets.path} defines: {known}" path
  return result.text

mutual

/-- An object takes two calls, its own and that of `_resolve_secrets_object`. -/
def resolveSecrets : Nat → Json → ConfigPath → Checked Json
  | 0, _, _ => raise .recursionError
  | _ + 1, .string text, path => do
    return .string (← l.resolveText text path)
  | frames + 1, .array elements, path => do
    return .array (← resolveElements frames 0 elements path)
  | 1, .object _, _ => raise .recursionError
  | frames + 2, .object members, path => do
    return .object (← resolveMembers frames members path)
  | _ + 1, .null, _ => return .null
  | _ + 1, .bool value, _ => return .bool value
  | _ + 1, .int value, _ => return .int value
  | _ + 1, .float value, _ => return .float value

/-- The loop over a list in `_resolve_secrets`. -/
def resolveElements : Nat → Nat → List Json → ConfigPath → Checked (List Json)
  | _, _, [], _ => return []
  | frames, index, element :: rest, path => do
    let resolved ← resolveSecrets frames element (path.element index)
    let others ← resolveElements frames (index + 1) rest path
    return resolved :: others

/-- The loop in `_resolve_secrets_object`. -/
def resolveMembers : Nat → Members → ConfigPath → Checked Members
  | _, [], _ => return []
  | frames, (key, value) :: rest, path => do
    let resolved ← resolveSecrets frames value (path.key key)
    let others ← resolveMembers frames rest path
    return (key, resolved) :: others

end

def resolveSecretsObject : Nat → Members → ConfigPath → Checked Members
  | 0, _, _ => raise .recursionError
  | frames + 1, members, path => l.resolveMembers frames members path

/-- What the plugin has against the settings is reported; they are kept all the same. -/
def validated (known : KnownPlugin) (subject : String) (path : ConfigPath) (settings : Members) :
    Checked (Option Members) :=
  match known.validateSettings with
  | none => return some settings
  | some validate => do
    (validate settings).forM fun found => problem s!"{subject}: {found}" path
    return some settings

def buildSettings (draft : Draft) (known : KnownPlugin) : Checked (Option Members) :=
  let path := draft.origin.key "config"
  let subject := s!"instance {l.unicode.repr draft.name}"
  match draft.body.lookup "config" with
  | none => validated known subject path []
  | some (.object config) => do
    let settings ← l.resolveSecretsObject l.frames config path
    validated known subject path settings
  | some _ => do
    problem s!"{subject}: \"config\" must be an object" path
    return none

def buildInstance (draft : Draft) : Checked (Option LoadedInstance) := do
  let subject := s!"instance {l.unicode.repr draft.name}"
  l.rejectUnknownKeys draft.body draft.origin instanceKeys subject
  match ← requireString draft.body draft.origin "plugin" subject with
  | none => return none
  | some plugin =>
    match l.knownPlugins.lookup plugin with
    | none => do
      let names := l.knownPlugins.keys.insertionSort (· ≤ ·)
      let available := if names.isEmpty then "(none loaded)" else ", ".intercalate names
      problem (s!"{subject} refers to unknown plugin {l.unicode.repr plugin}. " ++
        s!"Plugins that loaded: {available}") (draft.origin.key "plugin")
      return none
    | some known => do
      let enabled ← optionalBool draft.body draft.origin "enabled" subject true
      match ← l.buildSettings draft known with
      | none => return none
      | some settings =>
        return some ⟨draft.name, plugin, known.directions, settings, enabled, draft.origin⟩

/-- One round of the loop in `_build_instances`. -/
def buildOne (built : BuiltInstances) (draft : Draft) : Checked BuiltInstances := do
  match ← l.buildInstance draft with
  | none => return { built with broken := built.broken ++ [draft.name] }
  | some configured =>
    return { built with instances := built.instances.insert configured.name configured }

def buildInstances (drafts : List Draft) : Checked BuiltInstances := drafts.foldlM l.buildOne {}

/- Rules. -/

def suggestionFor (registry : NameRegistry) (name : String) : String :=
  match registry.suggest l.unicode .instances name with
  | some suggestion => s!"; did you mean {l.unicode.repr suggestion}?"
  | none =>
    let names := registry.names .instances
    let known := if names.isEmpty then "(none)" else ", ".intercalate names
    s!". Defined instances: {known}"

/-- The names resolved so far, each once. -/
abbrev Resolved := { names : List Name // names.Nodup }

/-- One round of the loop in `_resolve_members`; the flag is `ok`. -/
def resolveMember (registry : NameRegistry) (built : BuiltInstances) (draft : Draft)
    (key : String) (direction : PluginDirection) (acc : Resolved × Bool)
    (listed : Json × Nat) : Checked (Resolved × Bool) :=
  let path := (draft.origin.key key).element listed.2
  let subject := s!"rule {l.unicode.repr draft.name}"
  let failed : Resolved × Bool := (acc.1, false)
  match listed.1 with
  | .string text =>
    let name := normalizeName text
    if fresh : name ∈ acc.1.1 then do
      problem s!"{subject}: {l.unicode.repr name} is listed twice in \"{key}\"" path
      return failed
    else
      match built.instances.lookup name with
      | none => do
        if name ∉ built.broken then
          problem (s!"{subject} references unknown instance {l.unicode.repr name}" ++
            l.suggestionFor registry name) path
        return failed
      | some configured =>
        if direction ∉ configured.directions then do
          let actual := ", ".intercalate
            ((configured.directions.map PluginDirection.value).insertionSort (· ≤ ·))
          problem (s!"{subject} lists {l.unicode.repr name} under \"{key}\", but plugin " ++
            s!"{l.unicode.repr configured.plugin} provides only: {actual}") path
          return failed
        else
          return (⟨acc.1.1 ++ [name], by
            rw [List.nodup_append]
            refine ⟨acc.1.2, List.nodup_singleton name, ?_⟩
            intro n member m last same
            exact fresh (List.mem_singleton.mp last ▸ same ▸ member)⟩, acc.2)
  | _ => do
    problem s!"{subject}: \"{key}\" entries must be instance names" path
    return failed

def ruleMembers (registry : NameRegistry) (built : BuiltInstances) (draft : Draft)
    (key : String) (direction : PluginDirection) : Checked (Option Resolved) :=
  let path := draft.origin.key key
  let subject := s!"rule {l.unicode.repr draft.name}"
  match draft.body.lookup key with
  | none => do
    problem s!"{subject} has no \"{key}\"" draft.origin
    return none
  | some (.array []) => do
    problem (s!"{subject}: \"{key}\" is empty; a rule with no {key} can " ++
      "never do anything") path
    return none
  | some (.array listed) => do
    let (names, ok) ← listed.zipIdx.foldlM
      (l.resolveMember registry built draft key direction) (⟨[], List.nodup_nil⟩, true)
    return if ok then some names else none
  | some _ => do
    problem s!"{subject}: \"{key}\" must be an array of instance names" path
    return none

def buildRule (registry : NameRegistry) (built : BuiltInstances) (draft : Draft) :
    Checked (Option LoadedRule) := do
  let subject := s!"rule {l.unicode.repr draft.name}"
  l.rejectUnknownKeys draft.body draft.origin ruleKeys subject
  let inputs ← l.ruleMembers registry built draft "inputs" .input
  let outputs ← l.ruleMembers registry built draft "outputs" .output
  match inputs, outputs with
  | some inputs, some outputs =>
    let overlap := (inputs.1.filter (· ∈ outputs.1)).insertionSort (· ≤ ·)
    if apart : overlap = [] then do
      let enabled ← optionalBool draft.body draft.origin "enabled" subject true
      return some
        { name := draft.name
          inputs := inputs.1
          outputs := outputs.1
          enabled
          origin := draft.origin
          inputs_nodup := inputs.2
          outputs_nodup := outputs.2
          disjoint := by
            intro n listed also
            have member : n ∈ overlap := (List.mem_insertionSort _).mpr
              (List.mem_filter.mpr ⟨listed, decide_eq_true also⟩)
            rw [apart] at member
            cases member }
    else do
      overlap.forM fun name => problem
        (s!"{subject} lists instance {l.unicode.repr name} as both an input and " ++
          "an output, which would make the rule latch itself") draft.origin
      return none
  | _, _ => return none

/-- One round of the loop in `_build_rules`. -/
def buildOneRule (registry : NameRegistry) (built : BuiltInstances) (rules : Table LoadedRule)
    (draft : Draft) : Checked (Table LoadedRule) := do
  match ← l.buildRule registry built draft with
  | none => return rules
  | some rule => return rules.insert rule.name rule

def buildRules (registry : NameRegistry) (built : BuiltInstances) (drafts : List Draft) :
    Checked (Table LoadedRule) := drafts.foldlM (l.buildOneRule registry built) ∅

/- The load. -/

/-- One round of the loop in `load`; a file that is not an object has no document. -/
def collectFile (c : Collected) (file : String × Checked (Option Members)) : Checked Collected := do
  match ← file.2 with
  | none => return c
  | some document => l.collectDocument file.1 document c

/-- The files in order, each with what `_parse` makes of it, if there is a directory. -/
def readFiles (directory : String) :
    Option (List (String × Checked (Option Members))) →
    Checked (List (String × Checked (Option Members)))
  | none => do
    problem s!"configuration directory {directory} does not exist"
    return []
  | some [] => do
    problem s!"no *.json configuration files in {directory}"
    return []
  | some files => return files

/-- `load`, but for how it ends. -/
def check (directory : String) (found : Option (List (String × Checked (Option Members)))) :
    Checked LoadedConfiguration := do
  let files ← readFiles directory found
  let collected ← files.foldlM l.collectFile {}
  let daemon ← l.buildDaemon collected.daemon
  let built ← l.buildInstances collected.instanceDrafts
  let rules ← l.buildRules collected.registry built collected.ruleDrafts
  return ⟨built.instances, rules, files.map (·.1), daemon⟩

end Loader

/- How the load ends. -/

/-- Tuples are compared at their first difference. -/
def stepsBefore : List String → List String → Bool
  | [], _ => true
  | _ :: _, [] => false
  | a :: as, b :: bs => a < b || (a = b && stepsBefore as bs)

/-- The order of the problems in the report: by file and place, those without one last. -/
def ConfigError.before (a b : ConfigError) : Bool :=
  match a.location, b.location with
  | none, none | some _, none => true
  | none, some _ => false
  | some a, some b => a.file < b.file || (a.file = b.file && stepsBefore a.steps b.steps)

inductive Failure
  | configurationError (errors : List ConfigError)
  | escaped (raised : Escape)

/-- The configuration, if nothing was raised and no problem reported. -/
def concluded (checked : Checked LoadedConfiguration) : Except Failure LoadedConfiguration :=
  match checked.result with
  | .error raised => .error (.escaped raised)
  | .ok configuration =>
    if checked.problems.isEmpty then .ok configuration
    else .error (.configurationError
      (checked.problems.insertionSort fun a b => a.before b = true))

def Loader.load (l : Loader) (directory : String)
    (found : Option (List (String × Checked (Option Members)))) :
    Except Failure LoadedConfiguration := concluded (l.check directory found)

theorem concluded_ok {checked : Checked LoadedConfiguration}
    {configuration : LoadedConfiguration} :
    concluded checked = .ok configuration ↔ checked = pure configuration := by
  obtain ⟨result, problems⟩ := checked
  unfold concluded
  cases result with
  | error raised =>
    simp only [reduceCtorEq, false_iff]
    exact fun same => (nomatch same)
  | ok known =>
    cases problems with
    | nil => exact ⟨fun same => by cases same; rfl, fun same => by cases same; rfl⟩
    | cons first rest =>
      simp only [List.isEmpty_cons, Bool.false_eq_true, if_false, reduceCtorEq, false_iff]
      exact fun same => (nomatch same)

end NotiMapper
