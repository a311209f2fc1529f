import NotiMapper.Library.Floating
import NotiMapper.Plugins.SenderAllowlist
import NotiMapper.Plugins.Webhook

/-! What the shipped plugins accept as settings, and what their construction makes of it. -/
namespace NotiMapper

open Python

/-- What `re.compile` does with a pattern. -/
inductive Compiled
  | pattern
  | malformed (error : String)
  | raised (error : String)

structure PluginEnv where
  writer : Writer
  lowerCase : LowerCase
  compile : String → Compiled

inductive BuildError
  | setting (error : SettingError)
  | pattern (error : String)
  deriving DecidableEq

namespace SettingsObject

variable (settings : SettingsObject)

/- Validation. -/

def isBool : Json → Bool
  | .bool _ => true
  | _ => false

/-- A number above zero, which a Boolean is not. -/
def isPositive : Json → Bool
  | .int n => 0 < n
  | .float value => !value.negative && decide (value.magnitude ≠ .finite 0)
  | _ => false

/- Construction. -/

/-- `bool(value)`. -/
def truth : Json → Bool
  | .null => false
  | .bool value => value
  | .int n => n ≠ 0
  | .float value => value.magnitude ≠ .finite 0
  | .string text => text ≠ ""
  | .array elements => !elements.isEmpty
  | .object members => !members.isEmpty

/-- `bool(settings.get(key, default))`. -/
def flag (key : String) (default : Bool) : Bool :=
  match settings.members.lookup key with
  | none => default
  | some value => truth value

/-- The text of a setting, or None for None. -/
def optionalText (w : Writer) (key : String) : Option String := (settings.given key).map (Json.str w)

/-- `float(str(settings.get(key, default)))`. -/
def number (w : Writer) (key : String) (default : Double) : Except SettingError Double :=
  match settings.members.lookup key with
  | none => .ok default
  | some value =>
    match float (value.str w) with
    | none =>
      .error (.valueError ("could not convert string to float: " ++ w.quoted (value.str w)))
    | some number => .ok number

/- What is documented. -/

/-- An integer setting is the given one, or the default. -/
def UsesInteger (key : String) (default used : Int) : Prop :=
  match settings.given key with
  | none => used = default
  | some value => value = .int used

/-- A number of seconds is the given one, or the default. -/
def UsesNumber (key : String) (default : Int) (used : Double) : Prop :=
  match settings.given key with
  | none => used.Is default
  | some (.int n) => used.Is n
  | some (.float value) => used = .number value
  | some _ => False

/-- A setting is left out, or it is a number that a float can hold. -/
def Floatable (key : String) : Prop :=
  match settings.members.lookup key with
  | none => True
  | some (.int n) => IsDouble n.natAbs
  | some (.float _) => True
  | some _ => False

/-- `repr` writes a float so that it is read as it is. -/
def FloatsRead (w : Writer) : Prop :=
  ∀ key value, settings.members.lookup key = some (.float value) →
    float (w.float value) = some (.number value)

variable {settings} {w : Writer} {key : String}

/-- An integer that is accepted is used, unless it is null; the defaults have to agree where
it is left out. -/
theorem integer_uses {minimum default documented : Int}
    (valid : ∀ value, settings.given key = some value → isIntegerFrom minimum value = true) :
    (∃ used, settings.integer w key default = .ok used ∧
        settings.UsesInteger key documented used) ↔
      settings.isNull key = false ∧
        (settings.members.lookup key = none → default = documented) := by
  rw [integer_of_valid valid]
  unfold UsesInteger integerOr
  unfold given isNull at *
  cases found : settings.members.lookup key with
  | none => simp
  | some value =>
    by_cases null : value = .null
    · subst null
      simp
    · rw [found] at valid
      obtain ⟨n, rfl, _⟩ := isIntegerFrom_iff.mp (valid value (by simp [null]))
      simp

theorem integer_uses_default {minimum : Int} (default : Int)
    (valid : ∀ value, settings.given key = some value → isIntegerFrom minimum value = true) :
    (∃ used, settings.integer w key default = .ok used ∧ settings.UsesInteger key default used) ↔
      settings.isNull key = false := by
  rw [integer_uses valid]
  exact and_iff_left fun _ => rfl

variable (key) in
/-- A number of seconds is used as it is given exactly where a float can hold it. -/
theorem number_uses (reads : settings.FloatsRead w) (default : Nat) (small : default < 2 ^ 53) :
    (∃ used, settings.number w key (.whole default) = .ok used ∧
        settings.UsesNumber key default used) ↔ settings.Floatable key := by
  unfold number UsesNumber Floatable given
  cases found : settings.members.lookup key with
  | none =>
    simp only [Except.ok.injEq, exists_eq_left', iff_true]
    exact Double.whole_is small
  | some value =>
    cases value with
    | null => simp [Json.str, Json.repr, float_none]
    | int n =>
      have written : (Json.int n).str w = toString n := rfl
      simp only [written, float_toString, Except.ok.injEq, exists_eq_left']
      exact Double.is_nearest rfl rfl rfl
    | float value =>
      have written : (Json.float value).str w = w.float value := rfl
      simp [written, reads key value found]
    | bool value => simp
    | string text => simp
    | array elements => simp
    | object members => simp

end SettingsObject

/- The file watcher. -/

structure FileSettings where
  root : String
  glob : Option String
  pollSeconds : Double
  debounceSeconds : Double
  emitOnModify : Bool

namespace FileSettings

def knownSettings : List String :=
  ["path", "glob", "poll_seconds", "debounce_seconds", "emit_on_modify"]

def pathProblems (settings : SettingsObject) : List String :=
  match settings.given "path" with
  | none => ["\"path\" is required"]
  | some (.string path) =>
    if strip path = "" then [SettingsObject.mustBe "path" "a non-empty string"]
    else if path.toList.head? = some '/' then []
    else [SettingsObject.mustBe "path" "absolute"]
  | some _ => [SettingsObject.mustBe "path" "a non-empty string"]

def validateSettings (settings : SettingsObject) : List String :=
  settings.unknownSettings knownSettings ++ pathProblems settings ++
    settings.optional SettingsObject.isText "a non-empty string" "glob" ++
    ["poll_seconds", "debounce_seconds"].flatMap
      (settings.optional SettingsObject.isPositive "a positive number") ++
    settings.optional SettingsObject.isBool "true or false" "emit_on_modify"

def defaultPollSeconds : Double := .whole 1
def defaultDebounceSeconds : Double := .whole 2

/-- `__init__`, as far as the settings go. -/
def init (w : Writer) (settings : SettingsObject) : Except SettingError FileSettings := do
  let root ← settings.required w "path"
  let glob := settings.optionalText w "glob"
  let pollSeconds ← settings.number w "poll_seconds" defaultPollSeconds
  let debounceSeconds ← settings.number w "debounce_seconds" defaultDebounceSeconds
  let emitOnModify := settings.flag "emit_on_modify" true
  return ⟨root, glob, pollSeconds, debounceSeconds, emitOnModify⟩

end FileSettings

/- The HomeKit output. -/

structure HomeKitSettings where
  displayName : String
  port : Int
  address : Option Json
  manufacturer : String
  model : String

namespace HomeKitSettings

def knownSettings : List String := ["display_name", "port", "address", "manufacturer", "model"]

def isPort : Json → Bool
  | .int n => 0 ≤ n && n ≤ 65535
  | _ => false

def validateSettings (settings : SettingsObject) : List String :=
  settings.unknownSettings knownSettings ++
    ["display_name", "address", "manufacturer", "model"].flatMap
      (settings.optional SettingsObject.isText "a non-empty string") ++
    settings.optional isPort "an integer between 0 and 65535" "port"

def defaultPort : Int := 51826

/-- `__init__`, as far as the settings go. -/
def init (w : Writer) (name : Name) (settings : SettingsObject) :
    Except SettingError HomeKitSettings := do
  let displayName := settings.text w "display_name" name
  let port ← settings.integer w "port" defaultPort
  let address := settings.given "address"
  let manufacturer := settings.text w "manufacturer" "noti-mapper"
  let model := settings.text w "model" "Latch Switch"
  return ⟨displayName, port, address, manufacturer, model⟩

end HomeKitSettings

/- The PagerDuty output. -/

structure PagerDutySettings where
  routingKey : String
  apiToken : String
  dedupKey : String
  severity : String
  summary : String
  source : String
  component : Option String
  group : Option String
  class_ : Option String
  pollSeconds : Int
  eventsUrl : String
  apiUrl : String

namespace PagerDutySettings

def requiredKeys : List String := ["routing_key", "api_token"]

def optionalKeys : List String :=
  ["dedup_key", "severity", "summary", "source", "component", "group", "class", "poll_seconds",
    "events_url", "api_url"]

def validSeverities : List String := ["critical", "error", "warning", "info"]

def isSeverity : Json → Bool
  | .string text => text ∈ validSeverities
  | _ => false

/-- A key that has to be there, and that null does not leave out. -/
def credentialProblems (settings : SettingsObject) (key missing : String) : List String :=
  match settings.members.lookup key with
  | none => [missing]
  | some value =>
    if SettingsObject.isText value then [] else [SettingsObject.mustBe key "a non-empty string"]

def routingKeyMissing : String :=
  "\"routing_key\" is required. This is the Events API v2 integration " ++
    "key from the PagerDuty service's Integrations tab, and it is not " ++
    "the same credential as \"api_token\". It is what writes incidents."

def apiTokenMissing : String :=
  "\"api_token\" is required. This is a REST API token from PagerDuty's " ++
    "API Access page, and it is not the same credential as \"routing_key\". " ++
    "It is what reads incident status, which is how an unlatch gets back " ++ "here."

def validateSettings (settings : SettingsObject) : List String :=
  settings.unknownSettings (requiredKeys ++ optionalKeys) ++
    credentialProblems settings "routing_key" routingKeyMissing ++
    credentialProblems settings "api_token" apiTokenMissing ++
    settings.optional isSeverity ("one of: " ++ ", ".intercalate validSeverities) "severity" ++
    ["dedup_key", "summary", "source", "component", "group", "class"].flatMap
      (settings.optional SettingsObject.isText "a non-empty string") ++
    settings.optional (SettingsObject.isIntegerFrom 5) "an integer of at least 5" "poll_seconds"

def defaultPollSeconds : Int := 45

/-- `url.rstrip("/")`. -/
def withoutSlashes (url : String) : String :=
  String.ofList (url.toList.reverse.dropWhile (· = '/')).reverse

/-- `__init__`, as far as the settings go. -/
def init (w : Writer) (name : Name) (settings : SettingsObject) :
    Except SettingError PagerDutySettings := do
  let routingKey ← settings.required w "routing_key"
  let apiToken ← settings.required w "api_token"
  let dedupKey := settings.text w "dedup_key" ("noti-mapper/" ++ name)
  let severity := settings.text w "severity" "warning"
  let summary := settings.text w "summary" ("noti-mapper: " ++ name)
  let source := settings.text w "source" name
  let component := settings.optionalText w "component"
  let group := settings.optionalText w "group"
  let class_ := settings.optionalText w "class"
  let pollSeconds ← settings.integer w "poll_seconds" defaultPollSeconds
  let eventsUrl := settings.text w "events_url" "https://events.pagerduty.com/v2/enqueue"
  let apiUrl := withoutSlashes (settings.text w "api_url" "https://api.pagerduty.com")
  return ⟨routingKey, apiToken, dedupKey, severity, summary, source, component, group, class_,
    pollSeconds, eventsUrl, apiUrl⟩

end PagerDutySettings

/- The IMAP input. -/

structure ImapSettings where
  host : String
  port : Int
  useSsl : Bool
  username : String
  password : String
  folder : String
  senders : List String
  subjectPatterns : List String
  idleRefreshSeconds : Int
  pollSeconds : Int
  dryRun : Bool
  reconnectInitialSeconds : Double
  reconnectMaxSeconds : Double
  catchUpLimit : Int

namespace ImapSettings

def requiredKeys : List String := ["host", "username", "password"]

def optionalKeys : List String :=
  ["senders", "subject_patterns", "port", "ssl", "folder", "idle_refresh_seconds", "poll_seconds",
    "dry_run", "reconnect_initial_seconds", "reconnect_max_seconds", "catch_up_limit"]

def stringListProblems (settings : SettingsObject) (key : String) : List String :=
  match settings.given key with
  | none => []
  | some (.array []) => ["\"" ++ key ++ "\" is empty; omit it entirely to match any value"]
  | some (.array items) =>
    if items.all SettingsObject.isText then []
    else ["\"" ++ key ++ "\" entries must be non-empty strings"]
  | some _ => [SettingsObject.mustBe key "an array of strings"]

/-- `compile_problems`, where `re.compile` raises nothing but `re.error`. -/
def compileProblems (env : PluginEnv) : List String → Except BuildError (List String)
  | [] => .ok []
  | pattern :: rest =>
    match env.compile pattern with
    | .pattern => compileProblems env rest
    | .malformed error =>
      (compileProblems env rest).map (("\"subject_patterns\" entry " ++ env.writer.quoted pattern ++
        " is not a valid regex: " ++ error) :: ·)
    | .raised error => .error (.pattern error)

def textsIn (items : List Json) : List String :=
  items.filterMap fun
    | .string text => some text
    | _ => none

def patternProblems (env : PluginEnv) (settings : SettingsObject) :
    Except BuildError (List String) :=
  match settings.given "subject_patterns" with
  | some (.array items) => compileProblems env (textsIn items)
  | _ => .ok []

/-- `validate`. -/
def validate (env : PluginEnv) (settings : SettingsObject) : Except BuildError (List String) := do
  let patterns ← patternProblems env settings
  return settings.unknownSettings (requiredKeys ++ optionalKeys) ++
    (requiredKeys.filter fun key => (settings.members.lookup key).isNone).map
      (fun key => "\"" ++ key ++ "\" is required") ++
    ["host", "username", "password", "folder"].flatMap
      (settings.optional SettingsObject.isText "a non-empty string") ++
    ["senders", "subject_patterns"].flatMap (stringListProblems settings) ++ patterns ++
    ["port", "idle_refresh_seconds", "poll_seconds", "catch_up_limit"].flatMap
      (settings.optional (SettingsObject.isIntegerFrom 1) "a positive integer") ++
    ["ssl", "dry_run"].flatMap (settings.optional SettingsObject.isBool "true or false")

/-- `_as_list(settings.get(key))`, each as its text. -/
def asTexts (w : Writer) (settings : SettingsObject) (key : String) : List String :=
  match settings.given key with
  | some (.array items) => items.map (Json.str w)
  | _ => []

/-- The patterns of a `Criteria`, compiled one by one. -/
def compileAll (env : PluginEnv) : List String → Except BuildError Unit
  | [] => .ok ()
  | pattern :: rest =>
    match env.compile pattern with
    | .pattern => compileAll env rest
    | .malformed error => .error (.pattern error)
    | .raised error => .error (.pattern error)

def defaultPortTls : Int := 993
def defaultPortPlain : Int := 143

/-- `build`. -/
def build (env : PluginEnv) (settings : SettingsObject) : Except BuildError ImapSettings := do
  let w := env.writer
  let useSsl := settings.flag "ssl" true
  let defaultPort := if useSsl then defaultPortTls else defaultPortPlain
  let senders := asTexts w settings "senders"
  let patterns := asTexts w settings "subject_patterns"
  let host ← (settings.required w "host").mapError .setting
  let port ← (settings.integer w "port" defaultPort).mapError .setting
  let username ← (settings.required w "username").mapError .setting
  let password ← (settings.required w "password").mapError .setting
  let folder := settings.text w "folder" "INBOX"
  compileAll env patterns
  let idleRefreshSeconds ← (settings.integer w "idle_refresh_seconds" 1500).mapError .setting
  let pollSeconds ← (settings.integer w "poll_seconds" 60).mapError .setting
  let dryRun := settings.flag "dry_run" false
  let reconnectInitialSeconds ←
    (settings.number w "reconnect_initial_seconds" (.whole 5)).mapError .setting
  let reconnectMaxSeconds ←
    (settings.number w "reconnect_max_seconds" (.whole 300)).mapError .setting
  let catchUpLimit ← (settings.integer w "catch_up_limit" 200).mapError .setting
  return ⟨host, port, useSsl, username, password, folder,
    Allowlist.entriesOf env.lowerCase senders, patterns, idleRefreshSeconds, pollSeconds, dryRun,
    reconnectInitialSeconds, reconnectMaxSeconds, catchUpLimit⟩

end ImapSettings

/- The five plugins. -/

inductive ShippedPlugin
  | imapInput
  | webhookInput
  | fileInput
  | homekitOutput
  | pagerdutyOutput
  deriving DecidableEq

namespace ShippedPlugin

def validateSettings (env : PluginEnv) (settings : SettingsObject) :
    ShippedPlugin → Except BuildError (List String)
  | imapInput => ImapSettings.validate env settings
  | webhookInput => .ok (WebhookInput.validateSettings settings)
  | fileInput => .ok (FileSettings.validateSettings settings)
  | homekitOutput => .ok (HomeKitSettings.validateSettings settings)
  | pagerdutyOutput => .ok (PagerDutySettings.validateSettings settings)

/-- The port of the IMAP input follows `ssl`, which is on by default. -/
def documentedImapPort (settings : SettingsObject) : Int :=
  match settings.given "ssl" with
  | some (.bool false) => 143
  | _ => 993

/-- The plugin can be constructed, and has the numbers that are documented. -/
def Builds (env : PluginEnv) (name : Name) (settings : SettingsObject) : ShippedPlugin → Prop
  | imapInput => ∃ built, ImapSettings.build env settings = .ok built ∧
      settings.UsesInteger "port" (documentedImapPort settings) built.port ∧
      settings.UsesInteger "idle_refresh_seconds" 1500 built.idleRefreshSeconds ∧
      settings.UsesInteger "poll_seconds" 60 built.pollSeconds ∧
      settings.UsesNumber "reconnect_initial_seconds" 5 built.reconnectInitialSeconds ∧
      settings.UsesNumber "reconnect_max_seconds" 300 built.reconnectMaxSeconds ∧
      settings.UsesInteger "catch_up_limit" 200 built.catchUpLimit
  | webhookInput => ∃ built, WebhookInput.init env.writer settings = .ok built ∧
      settings.UsesInteger "port" 9736 built.port ∧
      settings.UsesInteger "max_body_bytes" 65536 built.maxBody
  | fileInput => ∃ built, FileSettings.init env.writer settings = .ok built ∧
      settings.UsesNumber "poll_seconds" 1 built.pollSeconds ∧
      settings.UsesNumber "debounce_seconds" 2 built.debounceSeconds
  | homekitOutput => ∃ built, HomeKitSettings.init env.writer name settings = .ok built ∧
      settings.UsesInteger "port" 51826 built.port
  | pagerdutyOutput => ∃ built, PagerDutySettings.init env.writer name settings = .ok built ∧
      settings.UsesInteger "poll_seconds" 45 built.pollSeconds

/-- No number is null, those of the reconnecting and of the file watcher are ones that a float
can hold, and the port of the IMAP input is given if `ssl` is null. -/
def Convertible (settings : SettingsObject) : ShippedPlugin → Prop
  | imapInput =>
    (∀ key ∈ ["port", "idle_refresh_seconds", "poll_seconds", "catch_up_limit"],
        settings.isNull key = false) ∧
      (settings.isNull "ssl" = true → (settings.members.lookup "port").isSome) ∧
      settings.Floatable "reconnect_initial_seconds" ∧ settings.Floatable "reconnect_max_seconds"
  | webhookInput => settings.isNull "port" = false ∧ settings.isNull "max_body_bytes" = false
  | fileInput => settings.Floatable "poll_seconds" ∧ settings.Floatable "debounce_seconds"
  | homekitOutput => settings.isNull "port" = false
  | pagerdutyOutput => settings.isNull "poll_seconds" = false

end ShippedPlugin

/- What is built of accepted settings. -/

theorem except_bind_ok {ε α β : Type} {x : Except ε α} {f : α → Except ε β} {b : β} :
    x >>= f = .ok b ↔ ∃ a, x = .ok a ∧ f a = .ok b := by
  cases x <;> simp [bind, Except.bind]

theorem required_ok {settings : SettingsObject} {w : Writer} {key : String}
    (there : (settings.members.lookup key).isSome = true) :
    ∃ text, settings.required w key = .ok text := by
  obtain ⟨value, found⟩ := Option.isSome_iff_exists.mp there
  exact ⟨value.str w, by rw [SettingsObject.required, found]⟩

namespace FileSettings

variable {settings : SettingsObject} {w : Writer}

theorem path_given (valid : validateSettings settings = []) :
    (settings.members.lookup "path").isSome = true := by
  have checked : pathProblems settings = [] := by
    simp only [validateSettings, List.append_eq_nil_iff] at valid
    exact valid.1.1.1.2
  cases found : settings.members.lookup "path" with
  | none =>
    have absent : settings.given "path" = none := by rw [SettingsObject.given, found]
    rw [pathProblems, absent] at checked
    cases checked
  | some value => rfl

theorem init_uses (valid : validateSettings settings = []) (reads : settings.FloatsRead w) :
    (∃ built, init w settings = .ok built ∧ settings.UsesNumber "poll_seconds" 1 built.pollSeconds ∧
        settings.UsesNumber "debounce_seconds" 2 built.debounceSeconds) ↔
      settings.Floatable "poll_seconds" ∧ settings.Floatable "debounce_seconds" := by
  obtain ⟨root, there⟩ := required_ok (w := w) (path_given valid)
  rw [← SettingsObject.number_uses "poll_seconds" reads 1 (by decide),
    ← SettingsObject.number_uses "debounce_seconds" reads 2 (by decide)]
  simp only [init, there, except_bind_ok, pure, Except.pure, Except.ok.injEq]
  constructor
  · rintro ⟨built, ⟨_, _, poll, polled, debounce, debounced, rfl⟩, uses, also⟩
    exact ⟨⟨poll, polled, uses⟩, debounce, debounced, also⟩
  · rintro ⟨⟨poll, polled, uses⟩, debounce, debounced, also⟩
    exact ⟨_, ⟨root, rfl, poll, polled, debounce, debounced, rfl⟩, uses, also⟩

end FileSettings

namespace HomeKitSettings

variable {settings : SettingsObject} {w : Writer}

theorem port_valid (valid : validateSettings settings = []) (value : Json)
    (found : settings.given "port" = some value) :
    SettingsObject.isIntegerFrom 0 value = true := by
  simp only [validateSettings, List.append_eq_nil_iff] at valid
  have port := SettingsObject.optional_nil.mp valid.2 value found
  cases value <;> simp_all [isPort, SettingsObject.isIntegerFrom]

theorem init_uses (valid : validateSettings settings = []) (name : Name) :
    (∃ built, init w name settings = .ok built ∧
        settings.UsesInteger "port" 51826 built.port) ↔ settings.isNull "port" = false := by
  rw [← SettingsObject.integer_uses_default defaultPort (port_valid valid)]
  simp only [init, except_bind_ok, pure, Except.pure, Except.ok.injEq]
  constructor
  · rintro ⟨built, ⟨port, read, rfl⟩, uses⟩
    exact ⟨port, read, uses⟩
  · rintro ⟨port, read, uses⟩
    exact ⟨_, ⟨port, read, rfl⟩, uses⟩

end HomeKitSettings

namespace PagerDutySettings

variable {settings : SettingsObject} {w : Writer}

theorem credential_given {key missing : String}
    (valid : credentialProblems settings key missing = []) :
    (settings.members.lookup key).isSome = true := by
  unfold credentialProblems at valid
  cases found : settings.members.lookup key with
  | none =>
    rw [found] at valid
    cases valid
  | some value => rfl

theorem init_uses (valid : validateSettings settings = []) (name : Name) :
    (∃ built, init w name settings = .ok built ∧
        settings.UsesInteger "poll_seconds" 45 built.pollSeconds) ↔
      settings.isNull "poll_seconds" = false := by
  simp only [validateSettings, List.append_eq_nil_iff] at valid
  obtain ⟨⟨⟨⟨⟨_, routing⟩, api⟩, _⟩, _⟩, polls⟩ := valid
  obtain ⟨routingKey, routes⟩ := required_ok (w := w) (credential_given routing)
  obtain ⟨apiToken, reads⟩ := required_ok (w := w) (credential_given api)
  rw [← SettingsObject.integer_uses_default defaultPollSeconds (SettingsObject.optional_nil.mp polls)]
  simp only [init, routes, reads, except_bind_ok, pure, Except.pure, Except.ok.injEq]
  constructor
  · rintro ⟨built, ⟨_, _, _, _, poll, read, rfl⟩, uses⟩
    exact ⟨poll, read, uses⟩
  · rintro ⟨poll, read, uses⟩
    exact ⟨_, ⟨routingKey, rfl, apiToken, rfl, poll, read, rfl⟩, uses⟩

end PagerDutySettings

namespace ImapSettings

variable {settings : SettingsObject} {env : PluginEnv}

theorem mapError_ok {ε δ α : Type} {x : Except ε α} {f : ε → δ} {a : α} :
    x.mapError f = .ok a ↔ x = .ok a := by
  cases x <;> simp [Except.mapError]

/-- What validation has compiled is compiled again. -/
theorem compileAll_of_problems {patterns : List String}
    (fine : compileProblems env patterns = .ok []) : compileAll env patterns = .ok () := by
  induction patterns with
  | nil => rfl
  | cons pattern rest ih =>
    rw [compileProblems] at fine
    rw [compileAll]
    cases made : env.compile pattern with
    | pattern =>
      rw [made] at fine
      exact ih fine
    | malformed error =>
      rw [made] at fine
      cases others : compileProblems env rest with
      | ok _ => simp [others, Except.map] at fine
      | error _ => simp [others, Except.map] at fine
    | raised error =>
      rw [made] at fine
      cases fine

/-- What is needed of validation. -/
structure Valid (env : PluginEnv) (settings : SettingsObject) : Prop where
  required : ∀ key ∈ requiredKeys, (settings.members.lookup key).isSome = true
  listed : stringListProblems settings "subject_patterns" = []
  patterns : patternProblems env settings = .ok []
  integers : ∀ key ∈ ["port", "idle_refresh_seconds", "poll_seconds", "catch_up_limit"],
    ∀ value, settings.given key = some value → SettingsObject.isIntegerFrom 1 value = true
  flags : ∀ key ∈ ["ssl", "dry_run"],
    ∀ value, settings.given key = some value → SettingsObject.isBool value = true

theorem valid_of_validate (accepted : validate env settings = .ok []) : Valid env settings := by
  rw [validate, except_bind_ok] at accepted
  obtain ⟨patterns, compiled, none⟩ := accepted
  simp only [pure, Except.pure, Except.ok.injEq, List.append_eq_nil_iff, List.map_eq_nil_iff,
    List.filter_eq_nil_iff, List.flatMap_eq_nil_iff] at none
  obtain ⟨⟨⟨⟨⟨⟨_, required⟩, _⟩, lists⟩, rfl⟩, integers⟩, flags⟩ := none
  refine ⟨fun key one => ?_, lists _ (by decide), compiled,
    fun key one => SettingsObject.optional_nil.mp (integers key one),
    fun key one => SettingsObject.optional_nil.mp (flags key one)⟩
  rw [Option.isSome_iff_ne_none]
  intro absent
  exact required key one (by rw [absent]; rfl)

/-- The texts of a list of texts are its elements. -/
theorem asTexts_of_valid (valid : Valid env settings) :
    compileAll env (asTexts env.writer settings "subject_patterns") = .ok () := by
  have listed := valid.listed
  have patterns := valid.patterns
  unfold stringListProblems at listed
  unfold patternProblems at patterns
  unfold asTexts
  cases found : settings.given "subject_patterns" with
  | none => rfl
  | some value =>
    cases value with
    | array items =>
      rw [found] at patterns
      have texts : items.map (Json.str env.writer) = textsIn items := by
        cases items with
        | nil => rfl
        | cons item items =>
          rw [found] at listed
          dsimp only at listed
          split at listed
          · rename_i all
            rw [List.all_eq_true] at all
            generalize item :: items = whole at all
            induction whole with
            | nil => rfl
            | cons first rest ih =>
              obtain ⟨text, rfl, _⟩ := SettingsObject.isText_iff.mp (all first List.mem_cons_self)
              rw [List.map_cons, ih fun other member => all other (List.mem_cons_of_mem _ member)]
              rfl
          · cases listed
      dsimp only
      rw [texts]
      exact compileAll_of_problems patterns
    | _ => rfl

/-- The default port is the documented one, unless `ssl` is null. -/
theorem default_port (valid : Valid env settings) :
    (if settings.flag "ssl" true then defaultPortTls else defaultPortPlain) =
        ShippedPlugin.documentedImapPort settings ↔ settings.isNull "ssl" = false := by
  have flags := valid.flags "ssl" (by decide)
  unfold SettingsObject.flag ShippedPlugin.documentedImapPort
  unfold SettingsObject.given SettingsObject.isNull at *
  cases found : settings.members.lookup "ssl" with
  | none => simp [defaultPortTls]
  | some value =>
    cases value with
    | null => simp [SettingsObject.truth, defaultPortPlain]
    | bool value => cases value <;> simp [SettingsObject.truth, defaultPortPlain, defaultPortTls]
    | _ =>
      rw [found] at flags
      cases flags _ rfl

theorem build_uses (accepted : validate env settings = .ok [])
    (reads : settings.FloatsRead env.writer) (name : Name) :
    ShippedPlugin.Builds env name settings .imapInput ↔
      ShippedPlugin.Convertible settings .imapInput := by
  have valid := valid_of_validate accepted
  obtain ⟨host, hosted⟩ := required_ok (w := env.writer) (valid.required "host" (by decide))
  obtain ⟨username, named⟩ := required_ok (w := env.writer) (valid.required "username" (by decide))
  obtain ⟨password, kept⟩ := required_ok (w := env.writer) (valid.required "password" (by decide))
  have compiled := asTexts_of_valid valid
  have port : (∃ used, settings.integer env.writer "port"
      (if settings.flag "ssl" true then defaultPortTls else defaultPortPlain) = .ok used ∧
        settings.UsesInteger "port" (ShippedPlugin.documentedImapPort settings) used) ↔ _ :=
    SettingsObject.integer_uses (valid.integers "port" (by decide))
  rw [default_port valid] at port
  have idle := SettingsObject.integer_uses_default (w := env.writer) 1500
    (valid.integers "idle_refresh_seconds" (by decide))
  have poll := SettingsObject.integer_uses_default (w := env.writer) 60
    (valid.integers "poll_seconds" (by decide))
  have limit := SettingsObject.integer_uses_default (w := env.writer) 200
    (valid.integers "catch_up_limit" (by decide))
  have initial := SettingsObject.number_uses "reconnect_initial_seconds" reads 5 (by decide)
  have maximum := SettingsObject.number_uses "reconnect_max_seconds" reads 300 (by decide)
  have absent : (settings.members.lookup "port" = none → settings.isNull "ssl" = false) ↔
      (settings.isNull "ssl" = true → (settings.members.lookup "port").isSome = true) := by
    cases settings.members.lookup "port" <;> cases settings.isNull "ssl" <;> simp
  simp only [ShippedPlugin.Builds, build, except_bind_ok, mapError_ok, hosted, named, kept,
    compiled, pure, Except.pure, Except.ok.injEq, exists_eq_left']
  constructor
  · rintro ⟨built, ⟨_, read, _, _, _, idled, _, polled, _, first, _, last, _, limited, rfl⟩,
      uses, idles, polls, firsts, lasts, limits⟩
    obtain ⟨given, default⟩ := port.mp ⟨_, read, uses⟩
    refine ⟨?_, absent.mp default, initial.mp ⟨_, first, firsts⟩, maximum.mp ⟨_, last, lasts⟩⟩
    have idle := idle.mp ⟨_, idled, idles⟩
    have poll := poll.mp ⟨_, polled, polls⟩
    have limit := limit.mp ⟨_, limited, limits⟩
    simp [given, idle, poll, limit]
  · rintro ⟨integers, ssl, firsts, lasts⟩
    obtain ⟨_, read, uses⟩ := port.mpr ⟨integers "port" (by decide), absent.mpr ssl⟩
    obtain ⟨_, idled, idles⟩ := idle.mpr (integers "idle_refresh_seconds" (by decide))
    obtain ⟨_, polled, polls⟩ := poll.mpr (integers "poll_seconds" (by decide))
    obtain ⟨_, first, firsts⟩ := initial.mpr firsts
    obtain ⟨_, last, lasts⟩ := maximum.mpr lasts
    obtain ⟨_, limited, limits⟩ := limit.mpr (integers "catch_up_limit" (by decide))
    exact ⟨_, ⟨_, read, ⟨⟩, ⟨⟩, _, idled, _, polled, _, first, _, last, _, limited, rfl⟩,
      uses, idles, polls, firsts, lasts, limits⟩

end ImapSettings

theorem WebhookInput.init_uses {settings : SettingsObject} {w : Writer}
    (valid : WebhookInput.validateSettings settings = []) :
    (∃ built, WebhookInput.init w settings = .ok built ∧
        settings.UsesInteger "port" 9736 built.port ∧
        settings.UsesInteger "max_body_bytes" 65536 built.maxBody) ↔
      settings.isNull "port" = false ∧ settings.isNull "max_body_bytes" = false := by
  obtain ⟨secret, found⟩ := WebhookInput.valid_secret valid
  obtain ⟨secret, there⟩ := required_ok (w := w) (show (settings.members.lookup "secret").isSome = true
    by rw [found]; rfl)
  rw [← SettingsObject.integer_uses_default defaultPort (WebhookInput.valid_port valid),
    ← SettingsObject.integer_uses_default maxBodyBytes (WebhookInput.valid_maxBody valid)]
  simp only [WebhookInput.init, there, except_bind_ok, pure, Except.pure, Except.ok.injEq]
  constructor
  · rintro ⟨built, ⟨port, read, _, _, most, limited, rfl⟩, uses, limits⟩
    exact ⟨⟨port, read, uses⟩, most, limited, limits⟩
  · rintro ⟨⟨port, read, uses⟩, most, limited, limits⟩
    exact ⟨_, ⟨port, read, secret, rfl, most, limited, rfl⟩, uses, limits⟩

/-- Accepted settings make a plugin that has their numbers, or the documented ones, exactly
where its construction can convert them. -/
theorem accepted_builds_iff (env : PluginEnv) (name : Name) (plugin : ShippedPlugin)
    (settings : SettingsObject) (accepted : plugin.validateSettings env settings = .ok [])
    (reads : settings.FloatsRead env.writer) :
    plugin.Builds env name settings ↔ plugin.Convertible settings := by
  cases plugin with
  | imapInput => exact ImapSettings.build_uses accepted reads name
  | webhookInput => exact WebhookInput.init_uses (Except.ok.inj accepted)
  | fileInput => exact FileSettings.init_uses (Except.ok.inj accepted) reads
  | homekitOutput => exact HomeKitSettings.init_uses (Except.ok.inj accepted) name
  | pagerdutyOutput => exact PagerDutySettings.init_uses (Except.ok.inj accepted) name

def plainEnv : PluginEnv where
  writer := plainWriter
  lowerCase := Allowlist.asciiLower
  compile _ := .pattern

/-- A directory that is watched, with a quiet period that is given. -/
def droppedFiles : SettingsObject where
  members := [("path", .string "/srv/in"), ("debounce_seconds", .int 3)]
  distinct := by decide
  short key n found := by
    simp only [List.lookup_cons, List.lookup_nil] at found
    split at found
    · cases found
    · split at found <;> cases found
      have digits : 1 ≤ JsonText.maxDigits := by decide
      exact lt_of_lt_of_le (by decide) (Nat.pow_le_pow_right (show 10 > 0 by decide) digits)

/-- One that is watched as often as null says. -/
def nullPolled : SettingsObject where
  members := [("path", .string "/srv/in"), ("poll_seconds", .null)]
  distinct := by decide
  short key n found := by
    simp only [List.lookup_cons, List.lookup_nil] at found
    split at found
    · cases found
    · split at found <;> cases found

theorem droppedFiles_read : droppedFiles.FloatsRead plainEnv.writer := by
  intro key value found
  simp only [droppedFiles, List.lookup_cons, List.lookup_nil] at found
  split at found
  · cases found
  · split at found <;> cases found

theorem nullPolled_read : nullPolled.FloatsRead plainEnv.writer := by
  intro key value found
  simp only [nullPolled, List.lookup_cons, List.lookup_nil] at found
  split at found
  · cases found
  · split at found <;> cases found

theorem accepted_builds_droppedFiles :
    ShippedPlugin.fileInput.Builds plainEnv "Drop" droppedFiles :=
  (accepted_builds_iff plainEnv "Drop" .fileInput droppedFiles rfl droppedFiles_read).mpr
    ⟨trivial, isDouble_natCast (by decide)⟩

/-- Null is accepted for the seconds between two looks, and cannot be converted. -/
theorem null_accepted_unbuilt :
    ShippedPlugin.fileInput.validateSettings plainEnv nullPolled = .ok [] ∧
      nullPolled.FloatsRead plainEnv.writer ∧
      ¬ ShippedPlugin.fileInput.Builds plainEnv "Drop" nullPolled := by
  refine ⟨rfl, nullPolled_read, fun builds => ?_⟩
  have floatable := (FileSettings.init_uses rfl nullPolled_read).mp builds
  exact floatable.1

end NotiMapper
