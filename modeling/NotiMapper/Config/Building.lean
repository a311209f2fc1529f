import NotiMapper.Config.Loader

/-! What the building passes accept: a daemon block, an instance with its settings, and a
rule whose members are resolved among the instances that were built. -/
namespace NotiMapper

open Python Report

namespace Loader

variable (l : Loader)

mutual

/-- The value with every reference expanded. -/
def expanded : Json → Json
  | .string text => .string (substitute text l.secrets).text
  | .array elements => .array (expandedElements elements)
  | .object members => .object (expandedMembers members)
  | .null => .null
  | .bool value => .bool value
  | .int value => .int value
  | .float value => .float value

def expandedElements : List Json → List Json
  | [] => []
  | element :: rest => expanded element :: expandedElements rest

def expandedMembers : Members → Members
  | [] => []
  | (key, value) :: rest => (key, expanded value) :: expandedMembers rest

end

/-- Every reference in the text is to a secret there is. -/
def Defined (text : String) : Prop := ∀ name ∈ referencesIn text, name ∈ l.secrets.values

theorem resolveText_gives (text : String) (path : ConfigPath) :
    Gives (l.resolveText text path) (l.Defined text) (substitute text l.secrets).text := by
  have none_missing : (substitute text l.secrets).missing = [] ↔ l.Defined text := by
    rw [List.eq_nil_iff_forall_not_mem]
    simp only [mem_missing, not_and, not_not, Defined]
  exact (Gives.forM_tell (substitute text l.secrets).missing).then_pure.congr none_missing

mutual

theorem resolveSecrets_gives : (frames : Nat) → (value : Json) → (path : ConfigPath) →
    value.calls ≤ frames →
    Gives (l.resolveSecrets frames value path) (∀ text ∈ value.texts, l.Defined text)
      (l.expanded value)
  | 0, value, _, enough => by cases value <;> simp [Json.calls] at enough
  | frames + 1, .string text, path, _ => by
    rw [resolveSecrets]
    exact (l.resolveText_gives text path).then_pure.congr (by simp [Json.texts])
  | frames + 1, .array elements, path, enough => by
    have below : elementCalls elements ≤ frames := Nat.le_of_succ_le_succ enough
    have resolved := resolveElements_gives frames 0 elements path below
    rw [resolveSecrets]
    exact resolved.then_pure.congr (by simp [Json.texts])
  | 1, .object members, path, enough => by simp [Json.calls] at enough
  | frames + 2, .object members, path, enough => by
    have below : memberCalls members ≤ frames := Nat.le_of_add_le_add_right enough
    have resolved := resolveMembers_gives frames members path below
    rw [resolveSecrets]
    exact resolved.then_pure.congr (by simp [Json.texts])
  | _ + 1, .null, _, _ => by
    rw [resolveSecrets]
    exact (Gives.pure _).congr (by simp [Json.texts])
  | _ + 1, .bool value, _, _ => by
    rw [resolveSecrets]
    exact (Gives.pure _).congr (by simp [Json.texts])
  | _ + 1, .int value, _, _ => by
    rw [resolveSecrets]
    exact (Gives.pure _).congr (by simp [Json.texts])
  | _ + 1, .float value, _, _ => by
    rw [resolveSecrets]
    exact (Gives.pure _).congr (by simp [Json.texts])

theorem resolveElements_gives : (frames index : Nat) → (elements : List Json) →
    (path : ConfigPath) → elementCalls elements ≤ frames →
    Gives (l.resolveElements frames index elements path)
      (∀ text ∈ elementTexts elements, l.Defined text) (l.expandedElements elements)
  | _, _, [], _, _ => by
    rw [resolveElements]
    exact (Gives.pure _).congr (by simp [elementTexts])
  | frames, index, element :: rest, path, enough => by
    rw [elementCalls, Nat.max_le] at enough
    have here := resolveSecrets_gives frames element (path.element index) enough.1
    have later := resolveElements_gives frames (index + 1) rest path enough.2
    rw [resolveElements]
    refine (here.bind later.then_pure).congr ?_
    rw [elementTexts, List.forall_mem_append]

theorem resolveMembers_gives : (frames : Nat) → (members : Members) → (path : ConfigPath) →
    memberCalls members ≤ frames →
    Gives (l.resolveMembers frames members path)
      (∀ text ∈ memberTexts members, l.Defined text) (l.expandedMembers members)
  | _, [], _, _ => by
    rw [resolveMembers]
    exact (Gives.pure _).congr (by simp [memberTexts])
  | frames, (key, value) :: rest, path, enough => by
    rw [memberCalls, Nat.max_le] at enough
    have here := resolveSecrets_gives frames value (path.key key) enough.1
    have later := resolveMembers_gives frames rest path enough.2
    rw [resolveMembers]
    refine (here.bind later.then_pure).congr ?_
    rw [memberTexts, List.forall_mem_append]

end

/- Where the calls do not suffice, Python's limit is met on the way. -/

mutual

theorem resolveSecrets_returns : (frames : Nat) → (value : Json) → (path : ConfigPath) →
    Returns (l.resolveSecrets frames value path) → value.calls ≤ frames
  | 0, _, _, returned => by
    rw [resolveSecrets] at returned
    exact absurd returned not_returns_raise
  | frames + 1, .array elements, path, returned => by
    rw [resolveSecrets] at returned
    exact Nat.succ_le_succ (resolveElements_returns frames 0 elements path returned.of_bind)
  | 1, .object members, path, returned => by
    rw [resolveSecrets] at returned
    exact absurd returned not_returns_raise
  | frames + 2, .object members, path, returned => by
    rw [resolveSecrets] at returned
    exact Nat.add_le_add_right (resolveMembers_returns frames members path returned.of_bind) 2
  | frames + 1, .string _, _, _ => Nat.le_add_left 1 frames
  | frames + 1, .null, _, _ => Nat.le_add_left 1 frames
  | frames + 1, .bool _, _, _ => Nat.le_add_left 1 frames
  | frames + 1, .int _, _, _ => Nat.le_add_left 1 frames
  | frames + 1, .float _, _, _ => Nat.le_add_left 1 frames

theorem resolveElements_returns : (frames index : Nat) → (elements : List Json) →
    (path : ConfigPath) → Returns (l.resolveElements frames index elements path) →
    elementCalls elements ≤ frames
  | frames, _, [], _, _ => Nat.zero_le frames
  | frames, index, element :: rest, path, returned => by
    rw [resolveElements] at returned
    have here := resolveSecrets_returns frames element (path.element index) returned.of_bind
    obtain ⟨resolved, _, others⟩ := returns_bind.mp returned
    exact Nat.max_le.mpr
      ⟨here, resolveElements_returns frames (index + 1) rest path others.of_bind⟩

theorem resolveMembers_returns : (frames : Nat) → (members : Members) → (path : ConfigPath) →
    Returns (l.resolveMembers frames members path) → memberCalls members ≤ frames
  | frames, [], _, _ => Nat.zero_le frames
  | frames, (key, value) :: rest, path, returned => by
    rw [resolveMembers] at returned
    have here := resolveSecrets_returns frames value (path.key key) returned.of_bind
    obtain ⟨resolved, _, others⟩ := returns_bind.mp returned
    exact Nat.max_le.mpr ⟨here, resolveMembers_returns frames rest path others.of_bind⟩

end

theorem resolveSecretsObject_gives {frames : Nat} {members : Members} (path : ConfigPath)
    (enough : memberCalls members < frames) : Gives (l.resolveSecretsObject frames members path)
      (∀ text ∈ memberTexts members, l.Defined text) (l.expandedMembers members) := by
  cases frames with
  | zero => exact absurd enough (Nat.not_lt_zero _)
  | succ frames => exact l.resolveMembers_gives frames members path (Nat.le_of_lt_succ enough)

theorem resolveSecretsObject_returns {frames : Nat} {members : Members} {path : ConfigPath}
    (returned : Returns (l.resolveSecretsObject frames members path)) :
    memberCalls members < frames := by
  cases frames with
  | zero => exact absurd returned not_returns_raise
  | succ frames => exact Nat.lt_succ_of_le (l.resolveMembers_returns frames members path returned)

/- The daemon block. -/

def PositiveInt (body : Members) (key : String) : Prop :=
  ∀ value, body.lookup key = some value → ∃ n : Int, value = .int n ∧ 0 < n

def PositiveNumber (body : Members) (key : String) : Prop :=
  ∀ value, body.lookup key = some value → (∃ n : Int, value = .int n ∧ 0 < n) ∨
    ∃ f, value = .float f ∧ f.negative = false ∧ f.magnitude ≠ .finite 0

/-- An integer here is one that has a float. -/
def Converts (body : Members) (key : String) : Prop :=
  ∀ n : Int, body.lookup key = some (.int n) → n < floatLimit

/-- Only known keys, and positive values. -/
structure DaemonOk (body : Members) : Prop where
  keys : ∀ member ∈ body, member.1 ∈ daemonKeys
  eventLogMaxRows : PositiveInt body "event_log_max_rows"
  dispatcherThreads : PositiveInt body "dispatcher_threads"
  retryInitialSeconds : PositiveNumber body "retry_initial_seconds"
  retryMaxSeconds : PositiveNumber body "retry_max_seconds"

def RetriesConvert (body : Members) : Prop :=
  Converts body "retry_initial_seconds" ∧ Converts body "retry_max_seconds"

variable {l}

theorem rejectUnknownKeys_gives (body : Members) (path : ConfigPath) (allowed : List String)
    (subject : String) : Gives (l.rejectUnknownKeys body path allowed subject)
      (∀ member ∈ body, member.1 ∈ allowed) () := by
  refine (Gives.forM_tell (body.filter (·.1 ∉ allowed))).congr ?_
  simp only [List.filter_eq_nil_iff, decide_not, Bool.not_eq_true', decide_eq_false_iff_not,
    not_not]

theorem positiveInt_gives (body : Members) (path : ConfigPath) (key : String) (default : Nat) :
    ∃ value, Gives (positiveInt body path key default) (PositiveInt body key) value := by
  unfold positiveInt PositiveInt
  cases body.lookup key with
  | none => exact ⟨default, Gives.accepted fun _ absent => nomatch absent⟩
  | some value =>
    cases value with
    | int n =>
      by_cases low : n < 1
      · refine ⟨default, ?_⟩
        simp only [if_pos low]
        apply Gives.rejected
        simp only [Option.some.injEq, forall_eq', Json.int.injEq, exists_eq_left']
        omega
      · refine ⟨n.toNat, ?_⟩
        simp only [if_neg low]
        apply Gives.accepted
        simp only [Option.some.injEq, forall_eq', Json.int.injEq, exists_eq_left']
        omega
    | _ => exact ⟨default, Gives.rejected (by simp)⟩

theorem positiveNumber_gives (body : Members) (path : ConfigPath) (key : String)
    (default : PyFloat) (converts : Converts body key) :
    ∃ value, Gives (positiveNumber body path key default) (PositiveNumber body key) value := by
  unfold Converts at converts
  unfold positiveNumber PositiveNumber
  cases found : body.lookup key with
  | none => exact ⟨default, Gives.accepted fun _ absent => nomatch absent⟩
  | some value =>
    rw [found] at converts
    cases value with
    | int n =>
      by_cases low : n ≤ 0
      · refine ⟨default, ?_⟩
        simp only [if_pos low]
        apply Gives.rejected
        simpa using low
      · have fits : n.toNat < floatLimit := by
          have below := converts n rfl
          omega
        refine ⟨.finite n.toNat, ?_⟩
        simp only [if_neg low, floatOfInt_ok fits]
        apply Gives.accepted
        simpa using low
    | float f =>
      by_cases low : f.negative ∨ f.magnitude = .finite 0
      · refine ⟨default, ?_⟩
        simp only [if_pos low]
        apply Gives.rejected
        intro fine
        rcases fine _ rfl with ⟨_, other, _⟩ | ⟨_, same, positive, nonzero⟩
        · cases other
        · cases same
          exact low.elim (fun negative => nomatch positive.symm.trans negative) nonzero
      · refine ⟨f.magnitude, ?_⟩
        simp only [if_neg low]
        apply Gives.accepted
        simpa [not_or] using low
    | _ => exact ⟨default, Gives.rejected (by simp)⟩

theorem positiveNumber_returns {body : Members} {path : ConfigPath} {key : String}
    {default : PyFloat} : Returns (positiveNumber body path key default) ↔ Converts body key := by
  constructor
  · intro returned n found
    by_contra beyond
    have limit := floatLimit_pos
    have positive : ¬ n ≤ 0 := by omega
    have overflow : ¬ n.toNat < floatLimit := by omega
    rw [positiveNumber, found] at returned
    simp only [if_neg positive, floatOfInt_overflow overflow] at returned
    exact not_returns_raise returned
  · intro converts
    obtain ⟨value, given⟩ := positiveNumber_gives body path key default converts
    exact ⟨value, given.result⟩

theorem buildDaemon_gives {daemon : Option (Members × ConfigPath)}
    (convert : ∀ body, daemon.map (·.1) = some body → RetriesConvert body) :
    ∃ settings, Gives (l.buildDaemon daemon)
      (∀ body, daemon.map (·.1) = some body → DaemonOk body) settings := by
  cases daemon with
  | none => exact ⟨{}, Gives.accepted fun _ absent => nomatch absent⟩
  | some block =>
    obtain ⟨body, path⟩ := block
    obtain ⟨initial, maximum⟩ := convert body rfl
    obtain ⟨rows, rowsGiven⟩ := positiveInt_gives body path "event_log_max_rows" 10000
    obtain ⟨threads, threadsGiven⟩ := positiveInt_gives body path "dispatcher_threads" 4
    obtain ⟨first, firstGiven⟩ :=
      positiveNumber_gives body path "retry_initial_seconds" (.finite 5) initial
    obtain ⟨last, lastGiven⟩ :=
      positiveNumber_gives body path "retry_max_seconds" (.finite 900) maximum
    have keys := l.rejectUnknownKeys_gives body path daemonKeys "\"daemon\""
    refine ⟨⟨rows, threads, first, last⟩, ?_⟩
    refine (keys.bind (rowsGiven.bind (threadsGiven.bind
      (firstGiven.bind lastGiven.then_pure)))).congr ?_
    constructor
    · rintro ⟨keys, rows, threads, first, last⟩ _ found
      cases found
      exact ⟨keys, rows, threads, first, last⟩
    · intro ok
      obtain ⟨keys, rows, threads, first, last⟩ := ok body rfl
      exact ⟨keys, rows, threads, first, last⟩

theorem buildDaemon_returns {daemon : Option (Members × ConfigPath)} :
    Returns (l.buildDaemon daemon) ↔
      ∀ body, daemon.map (·.1) = some body → RetriesConvert body := by
  constructor
  · intro returned body found
    obtain ⟨⟨body, path⟩, rfl, rfl⟩ := Option.map_eq_some_iff.mp found
    obtain ⟨_, _, returned⟩ := returns_bind.mp returned
    obtain ⟨_, _, returned⟩ := returns_bind.mp returned
    obtain ⟨_, _, returned⟩ := returns_bind.mp returned
    obtain ⟨_, _, rest⟩ := returns_bind.mp returned
    exact ⟨positiveNumber_returns.mp returned.of_bind, positiveNumber_returns.mp rest.of_bind⟩
  · intro convert
    obtain ⟨settings, given⟩ := buildDaemon_gives (l := l) convert
    exact ⟨settings, given.result⟩

/- Instances. -/

def BoolOrAbsent (body : Members) (key : String) : Prop :=
  ∀ value, body.lookup key = some value → ∃ flag, value = .bool flag

/-- The object under "config", an absent one being empty. -/
def ConfigOf (body config : Members) : Prop :=
  body.lookup "config" = none ∧ config = [] ∨ body.lookup "config" = some (.object config)

variable (l)

/-- The plugin an instance names, which is one of those known. -/
def PluginIs (body : Members) (plugin : String) (known : KnownPlugin) : Prop :=
  body.lookup "plugin" = some (.string plugin) ∧ l.knownPlugins.lookup plugin = some known

/-- All references are to secrets there are, and the plugin has no problem with the rest. -/
def SettingsOk (known : KnownPlugin) (config : Members) : Prop :=
  (∀ text ∈ memberTexts config, l.Defined text) ∧
    ∀ validate, known.validateSettings = some validate → validate (l.expandedMembers config) = []

def InstanceOk (body : Members) : Prop :=
  (∀ member ∈ body, member.1 ∈ instanceKeys) ∧
    ∃ plugin known config, l.PluginIs body plugin known ∧ BoolOrAbsent body "enabled" ∧
      ConfigOf body config ∧ l.SettingsOk known config

/-- The config can be walked through in the calls there are. -/
def Shallow (body : Members) : Prop :=
  ∀ config, body.lookup "config" = some (.object config) → memberCalls config < l.frames

def settingsOf (body : Members) : Option Members :=
  match body.lookup "config" with
  | none => some []
  | some value => value.object?.map l.expandedMembers

/-- The string under a key. -/
def stringAt (body : Members) (key : String) : Option String :=
  match body.lookup key with
  | some (.string text) => some text
  | _ => none

/-- The flag under a key. -/
def flagAt (body : Members) (key : String) (default : Bool) : Bool :=
  match body.lookup key with
  | some (.bool flag) => flag
  | _ => default

/-- What a draft is built into, if its plugin is known and its config an object. -/
def instanceOf (draft : Draft) : Option LoadedInstance :=
  (stringAt draft.body "plugin").bind fun plugin =>
    (l.knownPlugins.lookup plugin).bind fun known =>
      (l.settingsOf draft.body).map fun settings =>
        ⟨draft.name, plugin, known.directions, settings, flagAt draft.body "enabled" true,
          draft.origin⟩

def addInstance (built : BuiltInstances) (draft : Draft) : BuiltInstances :=
  match l.instanceOf draft with
  | none => { built with broken := built.broken ++ [draft.name] }
  | some configured =>
    { built with instances := built.instances.insert configured.name configured }

def builtFrom (drafts : List Draft) : BuiltInstances := drafts.foldl l.addInstance {}

variable {l}

theorem stringAt_eq_some {body : Members} {key text : String} :
    stringAt body key = some text ↔ body.lookup key = some (.string text) := by
  unfold stringAt
  split
  · simp [*]
  · rename_i other
    exact iff_of_false (fun none => nomatch none) (other text)

theorem instanceOf_eq_some {draft : Draft} {configured : LoadedInstance} :
    l.instanceOf draft = some configured ↔ ∃ plugin known settings,
      l.PluginIs draft.body plugin known ∧ l.settingsOf draft.body = some settings ∧
        configured = ⟨draft.name, plugin, known.directions, settings,
          flagAt draft.body "enabled" true, draft.origin⟩ := by
  simp only [instanceOf, Option.bind_eq_some_iff, Option.map_eq_some_iff, PluginIs,
    stringAt_eq_some]
  constructor
  · rintro ⟨plugin, named, known, found, settings, held, rfl⟩
    exact ⟨plugin, known, settings, ⟨named, found⟩, held, rfl⟩
  · rintro ⟨plugin, known, settings, ⟨named, found⟩, held, rfl⟩
    exact ⟨plugin, named, known, found, settings, held, rfl⟩

theorem requireString_gives (body : Members) (path : ConfigPath) (key subject : String) :
    Gives (requireString body path key subject) (stringAt body key ≠ none)
      (stringAt body key) := by
  unfold requireString stringAt
  cases body.lookup key with
  | none => exact Gives.rejected fun some => some rfl
  | some value =>
    cases value with
    | string text => exact Gives.accepted (Option.some_ne_none text)
    | _ => exact Gives.rejected fun some => some rfl

theorem optionalBool_gives (body : Members) (path : ConfigPath) (key subject : String)
    (default : Bool) : Gives (optionalBool body path key subject default) (BoolOrAbsent body key)
      (flagAt body key default) := by
  unfold optionalBool BoolOrAbsent flagAt
  cases body.lookup key with
  | none => exact Gives.accepted fun _ absent => nomatch absent
  | some value =>
    cases value with
    | bool flag => exact Gives.accepted (by simp)
    | _ => exact Gives.rejected (by simp)

theorem validated_gives (known : KnownPlugin) (subject : String) (path : ConfigPath)
    (settings : Members) : Gives (validated known subject path settings)
      (∀ validate, known.validateSettings = some validate → validate settings = [])
      (some settings) := by
  unfold validated
  cases known.validateSettings with
  | none => exact Gives.accepted fun _ absent => nomatch absent
  | some validate => exact (Gives.forM_tell (validate settings)).then_pure.congr (by simp)

theorem buildSettings_gives (draft : Draft) (known : KnownPlugin) (shallow : l.Shallow draft.body) :
    Gives (l.buildSettings draft known)
      (∃ config, ConfigOf draft.body config ∧ l.SettingsOk known config)
      (l.settingsOf draft.body) := by
  unfold Shallow at shallow
  unfold buildSettings ConfigOf settingsOf
  cases found : draft.body.lookup "config" with
  | none =>
    refine (validated_gives known _ _ []).congr ?_
    simp [SettingsOk, memberTexts, expandedMembers]
  | some value =>
    cases value with
    | object config =>
      have resolved := l.resolveSecretsObject_gives (draft.origin.key "config")
        (shallow config found)
      refine (resolved.bind (validated_gives known _ _ _)).congr ?_
      simp [SettingsOk]
    | _ => exact Gives.rejected (by simp)

theorem buildSettings_returns {draft : Draft} {known : KnownPlugin} :
    Returns (l.buildSettings draft known) ↔ l.Shallow draft.body := by
  constructor
  · intro returned config found
    rw [buildSettings, found] at returned
    exact l.resolveSecretsObject_returns returned.of_bind
  · intro shallow
    exact ⟨_, (buildSettings_gives draft known shallow).result⟩

theorem settingsOf_config {body config : Members} (held : ConfigOf body config) :
    l.settingsOf body = some (l.expandedMembers config) := by
  rcases held with ⟨absent, rfl⟩ | present
  · rw [settingsOf, absent, expandedMembers]
  · rw [settingsOf, present]
    rfl

theorem instanceOk_iff {body : Members} {plugin : String} {known : KnownPlugin}
    (isKnown : l.PluginIs body plugin known) : l.InstanceOk body ↔
      (∀ member ∈ body, member.1 ∈ instanceKeys) ∧ BoolOrAbsent body "enabled" ∧
        ∃ config, ConfigOf body config ∧ l.SettingsOk known config := by
  constructor
  · rintro ⟨keys, other, also, config, ⟨there, found⟩, flag, held, fine⟩
    cases isKnown.1.symm.trans there
    cases isKnown.2.symm.trans found
    exact ⟨keys, flag, config, held, fine⟩
  · rintro ⟨keys, flag, config, held, fine⟩
    exact ⟨keys, plugin, known, config, isKnown, flag, held, fine⟩

theorem buildInstance_gives {draft : Draft}
    (shallow : ∀ plugin known, l.PluginIs draft.body plugin known → l.Shallow draft.body) :
    Gives (l.buildInstance draft) (l.InstanceOk draft.body) (l.instanceOf draft) := by
  let subject := s!"instance {l.unicode.repr draft.name}"
  have keys := l.rejectUnknownKeys_gives draft.body draft.origin instanceKeys subject
  have required := requireString_gives draft.body draft.origin "plugin" subject
  unfold buildInstance instanceOf
  cases named : stringAt draft.body "plugin" with
  | none =>
    have unnamed : ¬ l.InstanceOk draft.body := by
      rintro ⟨_, plugin, known, _, ⟨there, _⟩, _⟩
      cases named.symm.trans (stringAt_eq_some.mpr there)
    rw [named] at required
    refine (keys.bind (required.bind (Q := True) ?_)).congr ?_
    · exact Gives.pure none
    · exact iff_of_false (fun both => both.2.1 rfl) unnamed
  | some plugin =>
    rw [named] at required
    have there := stringAt_eq_some.mp named
    cases available : l.knownPlugins.lookup plugin with
    | none =>
      have unknown : ¬ l.InstanceOk draft.body := by
        rintro ⟨_, other, known, _, ⟨also, found⟩, _⟩
        cases there.symm.trans also
        cases available.symm.trans found
      refine (keys.bind (required.bind (Q := False) ?_)).congr ?_
      · simp only [available, Option.bind_some, Option.bind_none]
        exact Gives.rejected id
      · exact iff_of_false (fun both => both.2.2) unknown
    | some known =>
      have isKnown : l.PluginIs draft.body plugin known := ⟨there, available⟩
      have flag := optionalBool_gives draft.body draft.origin "enabled" subject true
      have settings := buildSettings_gives draft known (shallow plugin known isKnown)
      rw [instanceOk_iff isKnown]
      refine (keys.bind (required.bind (Q := BoolOrAbsent draft.body "enabled" ∧
        ∃ config, ConfigOf draft.body config ∧ l.SettingsOk known config) ?_)).congr (by simp)
      simp only [available, Option.bind_some]
      refine flag.bind ((settings.bind (Q := True) ?_).congr (and_iff_left trivial))
      cases l.settingsOf draft.body <;> exact Gives.pure _

theorem buildInstance_returns {draft : Draft} : Returns (l.buildInstance draft) ↔
    ∀ plugin known, l.PluginIs draft.body plugin known → l.Shallow draft.body := by
  constructor
  · intro returned plugin known isKnown
    have required := requireString_gives draft.body draft.origin "plugin"
      s!"instance {l.unicode.repr draft.name}"
    rw [stringAt_eq_some.mpr isKnown.1] at required
    obtain ⟨_, _, returned⟩ := returns_bind.mp returned
    obtain ⟨named, same, returned⟩ := returns_bind.mp returned
    cases required.result.symm.trans same
    simp only [isKnown.2] at returned
    obtain ⟨_, _, returned⟩ := returns_bind.mp returned
    exact buildSettings_returns.mp returned.of_bind
  · intro shallow
    exact ⟨_, (buildInstance_gives shallow).result⟩

/-- An instance that is fine is built. -/
theorem instanceOf_ok {draft : Draft} (ok : l.InstanceOk draft.body) :
    ∃ configured, l.instanceOf draft = some configured := by
  obtain ⟨_, plugin, known, config, isKnown, _, held, _⟩ := ok
  exact ⟨_, instanceOf_eq_some.mpr
    ⟨plugin, known, _, isKnown, settingsOf_config held, rfl⟩⟩

theorem instanceOf_name {draft : Draft} {configured : LoadedInstance}
    (found : l.instanceOf draft = some configured) : configured.name = draft.name := by
  obtain ⟨_, _, _, _, _, rfl⟩ := instanceOf_eq_some.mp found
  rfl

theorem buildOne_gives {draft : Draft} (built : BuiltInstances)
    (shallow : ∀ plugin known, l.PluginIs draft.body plugin known → l.Shallow draft.body) :
    Gives (l.buildOne built draft) (l.InstanceOk draft.body) (l.addInstance built draft) := by
  refine ((buildInstance_gives shallow).bind (Q := True) ?_).congr (and_iff_left trivial)
  unfold addInstance
  cases l.instanceOf draft <;> exact Gives.pure _

theorem buildInstances_gives {drafts : List Draft}
    (shallow : ∀ draft ∈ drafts, ∀ plugin known, l.PluginIs draft.body plugin known →
      l.Shallow draft.body) :
    Gives (l.buildInstances drafts) (∀ draft ∈ drafts, l.InstanceOk draft.body)
      (l.builtFrom drafts) :=
  (Gives.foldlM (fun built draft member => buildOne_gives built (shallow draft member)) {}).congr
    along_const

theorem buildInstances_returns {drafts : List Draft} : Returns (l.buildInstances drafts) ↔
    ∀ draft ∈ drafts, ∀ plugin known, l.PluginIs draft.body plugin known →
      l.Shallow draft.body := by
  refine returns_foldlM (fun built draft => ?_) ({} : BuiltInstances) drafts
  rw [← buildInstance_returns]
  constructor
  · exact Returns.of_bind
  · intro returned
    refine Returns.bind returned fun outcome => ?_
    cases outcome <;> exact returns_pure _

/- What is built, name by name. -/

theorem lookup_addInstance {built : BuiltInstances} {draft : Draft} {name : Name} :
    (l.addInstance built draft).instances.lookup name =
      if name = draft.name then (l.instanceOf draft).or (built.instances.lookup name)
      else built.instances.lookup name := by
  unfold addInstance
  cases found : l.instanceOf draft with
  | none => simp
  | some configured =>
    have named := instanceOf_name found
    by_cases same : name = draft.name
    · rw [if_pos same, same, ← named, AList.lookup_insert, Option.some_or]
    · rw [if_neg same, AList.lookup_insert_ne (named ▸ same)]

theorem mem_broken_addInstance {built : BuiltInstances} {draft : Draft} {name : Name} :
    name ∈ (l.addInstance built draft).broken ↔
      name ∈ built.broken ∨ draft.name = name ∧ l.instanceOf draft = none := by
  unfold addInstance
  cases l.instanceOf draft with
  | none => simp [eq_comm]
  | some configured => simp

theorem lookup_foldl_addInstance {drafts : List Draft} (nodup : (drafts.map (·.name)).Nodup)
    {built : BuiltInstances} (free : ∀ draft ∈ drafts, draft.name ∉ built.instances)
    {name : Name} {configured : LoadedInstance} :
    (drafts.foldl l.addInstance built).instances.lookup name = some configured ↔
      built.instances.lookup name = some configured ∨
        ∃ draft ∈ drafts, draft.name = name ∧ l.instanceOf draft = some configured := by
  induction drafts generalizing built with
  | nil => simp
  | cons draft drafts ih =>
    rw [List.map_cons, List.nodup_cons] at nodup
    obtain ⟨here, later⟩ := List.forall_mem_cons.mp free
    have absent : built.instances.lookup draft.name = none := AList.lookup_eq_none.mpr here
    have others : ∀ other ∈ drafts, other.name ∉ (l.addInstance built draft).instances := by
      intro other member
      have apart : other.name ≠ draft.name := fun same =>
        nodup.1 (same ▸ List.mem_map_of_mem member)
      rw [← AList.lookup_eq_none, lookup_addInstance, if_neg apart]
      exact AList.lookup_eq_none.mpr (later other member)
    rw [List.foldl_cons, ih nodup.2 others, lookup_addInstance, List.exists_mem_cons_iff]
    by_cases same : name = draft.name
    · subst same
      rw [if_pos rfl, absent, Option.or_none]
      simp
    · rw [if_neg same]
      simp [Ne.symm same]

theorem mem_broken_foldl {drafts : List Draft} {built : BuiltInstances} {name : Name} :
    name ∈ (drafts.foldl l.addInstance built).broken ↔
      name ∈ built.broken ∨ ∃ draft ∈ drafts, draft.name = name ∧ l.instanceOf draft = none := by
  induction drafts generalizing built with
  | nil => simp
  | cons draft drafts ih =>
    rw [List.foldl_cons, ih, mem_broken_addInstance, List.exists_mem_cons_iff, or_assoc]

/-- The instances that are built are those of the drafts, by name. -/
theorem lookup_builtFrom {drafts : List Draft} (nodup : (drafts.map (·.name)).Nodup)
    {name : Name} {configured : LoadedInstance} :
    (l.builtFrom drafts).instances.lookup name = some configured ↔
      ∃ draft ∈ drafts, draft.name = name ∧ l.instanceOf draft = some configured := by
  have empty : ({} : BuiltInstances).instances.lookup name = none := rfl
  have free : ∀ draft ∈ drafts, draft.name ∉ ({} : BuiltInstances).instances :=
    fun draft _ => AList.notMem_empty draft.name
  rw [builtFrom, lookup_foldl_addInstance nodup free, empty]
  simp

theorem mem_broken_builtFrom {drafts : List Draft} {name : Name} :
    name ∈ (l.builtFrom drafts).broken ↔
      ∃ draft ∈ drafts, draft.name = name ∧ l.instanceOf draft = none := by
  rw [builtFrom, mem_broken_foldl]
  simp

/-- All the drafts, and nothing else, are among the instances. -/
structure Built (l : Loader) (drafts : List Draft) (built : BuiltInstances) : Prop where
  broken : built.broken = []
  all : ∀ draft ∈ drafts, draft.name ∈ built.instances
  drafted : ∀ name configured, built.instances.lookup name = some configured →
    ∃ draft ∈ drafts, draft.name = name ∧ configured.name = name ∧
      ∃ known, l.PluginIs draft.body configured.plugin known ∧
        configured.directions = known.directions

theorem built_builtFrom {drafts : List Draft} (nodup : (drafts.map (·.name)).Nodup)
    (ok : ∀ draft ∈ drafts, l.InstanceOk draft.body) : Built l drafts (l.builtFrom drafts) := by
  constructor
  · rw [List.eq_nil_iff_forall_not_mem]
    intro name broken
    obtain ⟨draft, member, _, none⟩ := mem_broken_builtFrom.mp broken
    obtain ⟨configured, found⟩ := instanceOf_ok (ok draft member)
    cases none.symm.trans found
  · intro draft member
    obtain ⟨configured, found⟩ := instanceOf_ok (ok draft member)
    have there := (lookup_builtFrom nodup).mpr ⟨draft, member, rfl, found⟩
    exact AList.lookup_isSome.mp (Option.isSome_iff_exists.mpr ⟨configured, there⟩)
  · intro name configured found
    obtain ⟨draft, member, named, made⟩ := (lookup_builtFrom nodup).mp found
    obtain ⟨plugin, known, settings, isKnown, held, rfl⟩ := instanceOf_eq_some.mp made
    exact ⟨draft, member, named, named, known, isKnown, rfl⟩

end Loader

end NotiMapper
