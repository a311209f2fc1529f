import NotiMapper.Config.Discovery
import NotiMapper.Config.SecretsFile

/-! The commands that load the configuration: the daemon, `validate`, and `status`, which goes
on without the secrets where it cannot read them. -/
namespace NotiMapper

open Python

/-- What a command finds: the plugin directories, the secrets, and the configuration files. -/
structure Installation where
  unicode : Unicode
  undecodable : ByteArray → String
  limit : Nat
  frames : Nat
  searchPath : List SearchDirectory
  secretsPath : String
  secrets : SecretsContent
  configDirectory : String
  files : Option (List (String × Content))

/-- `StartupError`, or what the commands do not catch. -/
inductive CommandFailure
  | osError (message : String)
  | secretsError (message : String)
  | configurationError (errors : List ConfigError)
  | escaped (raised : Escape)

def CommandFailure.ofSecrets : SecretsFailure → CommandFailure
  | .secretsError message => .secretsError message
  | .escaped raised => .escaped raised

def CommandFailure.ofLoad : Failure → CommandFailure
  | .configurationError errors => .configurationError errors
  | .escaped raised => .escaped raised

namespace Installation

variable (s : Installation)

def discovery : Except CommandFailure Discovery.DiscoveryResult :=
  (Discovery.discover s.unicode s.searchPath).mapError .osError

def loadSecrets : Except SecretsFailure SecretStore :=
  NotiMapper.loadSecrets s.unicode s.limit s.undecodable s.secretsPath s.secrets

def loader (discovery : Discovery.DiscoveryResult) (secrets : SecretStore) : Loader :=
  ⟨s.unicode, secrets, Discovery.knownPlugins discovery, s.frames⟩

def loadConfiguration (discovery : Discovery.DiscoveryResult) (secrets : SecretStore) :
    Except Failure LoadedConfiguration :=
  let l := s.loader discovery secrets
  l.load s.configDirectory (s.files.map fun files => files.map (l.parseFile s.limit))

/-- `Daemon._load_configuration`, after the discovery; `validate` does the same. -/
def daemonConfiguration : Except CommandFailure LoadedConfiguration := do
  let discovery ← s.discovery
  let secrets ← s.loadSecrets.mapError .ofSecrets
  (s.loadConfiguration discovery secrets).mapError .ofLoad

/-- `_configuration_or_none`. -/
def configurationOrNone : Except CommandFailure (Option LoadedConfiguration) := do
  let discovery ← s.discovery
  let secrets ← match s.loadSecrets with
    | .ok secrets => .ok secrets
    | .error (.secretsError _) => .ok (emptyStore s.secretsPath)
    | .error (.escaped raised) => .error (.escaped raised)
  match s.loadConfiguration discovery secrets with
  | .ok configuration => return some configuration
  | .error (.configurationError _) => return none
  | .error (.escaped raised) => .error (.escaped raised)

variable {s}

/-- The daemon's load, once discovery has an answer. -/
theorem daemonConfiguration_ok {c : LoadedConfiguration} :
    s.daemonConfiguration = .ok c ↔ ∃ discovery secrets, s.discovery = .ok discovery ∧
      s.loadSecrets = .ok secrets ∧ s.loadConfiguration discovery secrets = .ok c := by
  unfold daemonConfiguration
  cases s.discovery with
  | error failure => simp [Bind.bind, Except.bind]
  | ok discovery =>
    cases s.loadSecrets with
    | error failure => simp [Bind.bind, Except.bind, Except.mapError]
    | ok secrets =>
      cases loaded : s.loadConfiguration discovery secrets with
      | error failure => simp [Bind.bind, Except.bind, Except.mapError, loaded]
      | ok other => simp [Bind.bind, Except.bind, Except.mapError, loaded]

/-- The same of `status`, whose store may be an empty one. -/
theorem configurationOrNone_some {c : LoadedConfiguration} :
    s.configurationOrNone = .ok (some c) ↔ ∃ discovery secrets, s.discovery = .ok discovery ∧
      (s.loadSecrets = .ok secrets ∨ secrets = emptyStore s.secretsPath ∧
        ∃ message, s.loadSecrets = .error (.secretsError message)) ∧
      s.loadConfiguration discovery secrets = .ok c := by
  unfold configurationOrNone
  cases s.discovery with
  | error failure => simp [Bind.bind, Except.bind]
  | ok discovery =>
    cases s.loadSecrets with
    | error failure =>
      cases failure with
      | escaped raised => simp [Bind.bind, Except.bind]
      | secretsError message =>
        cases loaded : s.loadConfiguration discovery (emptyStore s.secretsPath) with
        | error failure => cases failure <;> simp [Bind.bind, Except.bind, loaded, pure, Except.pure]
        | ok other => simp [Bind.bind, Except.bind, loaded, pure, Except.pure]
    | ok secrets =>
      cases loaded : s.loadConfiguration discovery secrets with
      | error failure => cases failure <;> simp [Bind.bind, Except.bind, loaded, pure, Except.pure]
      | ok other => simp [Bind.bind, Except.bind, loaded, pure, Except.pure]

theorem loadConfiguration_emptyStore {discovery : Discovery.DiscoveryResult} {path : String}
    {c : LoadedConfiguration} (store : SecretStore)
    (loaded : s.loadConfiguration discovery (emptyStore path) = .ok c) :
    s.loadConfiguration discovery store = .ok c := by
  have more : Loader.Extends (s.loader discovery (emptyStore path)) (s.loader discovery store) :=
    ⟨rfl, (fun _ _ held => nomatch held), (fun _ _ held => held), le_refl _⟩
  have parsed : (s.loader discovery (emptyStore path)).parseFile s.limit =
      (s.loader discovery store).parseFile s.limit := rfl
  rw [loadConfiguration, Loader.load, concluded_ok] at loaded ⊢
  rw [← parsed]
  exact Loader.check_carries more _ _ c loaded

/-- What the daemon loads, `status` shows. It shows a configuration that the daemon does not
load only if the secrets cannot be used, and then one that needs none of them: as soon as
they can, whatever they are, the daemon loads it. -/
theorem status_shows (s : Installation) :
    (∀ c, s.daemonConfiguration = .ok c → s.configurationOrNone = .ok (some c)) ∧
    ∀ c, s.configurationOrNone = .ok (some c) → s.daemonConfiguration = .ok c ∨
      (∃ message, s.daemonConfiguration = .error (.secretsError message)) ∧
        ∀ content secrets, { s with secrets := content }.loadSecrets = .ok secrets →
          { s with secrets := content }.daemonConfiguration = .ok c := by
  constructor
  · intro c loads
    obtain ⟨discovery, secrets, found, opened, loaded⟩ := daemonConfiguration_ok.mp loads
    exact configurationOrNone_some.mpr ⟨discovery, secrets, found, .inl opened, loaded⟩
  · intro c shows
    obtain ⟨discovery, secrets, found, opened | ⟨rfl, message, refused⟩, loaded⟩ :=
      configurationOrNone_some.mp shows
    · exact .inl (daemonConfiguration_ok.mpr ⟨discovery, secrets, found, opened, loaded⟩)
    · refine .inr ⟨⟨message, ?_⟩, fun content secrets opened => ?_⟩
      · simp [daemonConfiguration, found, refused, Bind.bind, Except.bind, Except.mapError,
          CommandFailure.ofSecrets]
      · exact daemonConfiguration_ok.mpr
          ⟨discovery, secrets, found, opened, loadConfiguration_emptyStore secrets loaded⟩

end Installation

end NotiMapper
