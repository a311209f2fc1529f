import NotiMapper.Config.Expansion
import NotiMapper.Config.Spelling

/-! What is accepted stays accepted, and as it is, where there are more secrets, more plugins
and more room on Python's stack. Only what passes in silence has to be followed: a problem
is the end of it. -/
namespace Report

variable {ε χ α β : Type}

/-- What the first returns in silence, the second does. -/
def Carries (x y : Report ε χ α) : Prop := ∀ a, x = pure a → y = pure a

theorem Carries.refl (x : Report ε χ α) : Carries x x := fun _ passed => passed

theorem Carries.bind {x y : Report ε χ α} {f g : α → Report ε χ β} (first : Carries x y)
    (next : ∀ a, Carries (f a) (g a)) : Carries (x >>= f) (y >>= g) := by
  intro b passed
  obtain ⟨a, here, later⟩ := bind_eq_pure.mp passed
  exact bind_eq_pure.mpr ⟨a, first a here, next a b later⟩

theorem Carries.foldlM {f g : β → α → Report ε χ β} (each : ∀ b a, Carries (f b a) (g b a))
    (b : β) (as : List α) : Carries (as.foldlM f b) (as.foldlM g b) := by
  induction as generalizing b with
  | nil => exact Carries.refl _
  | cons a as ih =>
    rw [List.foldlM_cons, List.foldlM_cons]
    exact (each b a).bind ih

theorem carries_tell {problem : ε} {f : Unit → Report ε χ α} {y : Report ε χ α} :
    Carries (tell problem >>= f) y := fun _ passed => absurd passed tell_bind_ne

theorem carries_raise {raised : χ} {y : Report ε χ α} : Carries (raise raised) y :=
  fun _ passed => nomatch congrArg Report.result passed

end Report

namespace NotiMapper

open Python Report

namespace Loader

/-- What the first has, the second has too. -/
structure Extends (a b : Loader) : Prop where
  unicode : a.unicode = b.unicode
  secrets : ∀ name value, a.secrets.values.lookup name = some value →
    b.secrets.values.lookup name = some value
  plugins : ∀ name known, a.knownPlugins.lookup name = some known →
    b.knownPlugins.lookup name = some known
  frames : a.frames ≤ b.frames

variable {a b : Loader}

theorem Extends.defined (more : Extends a b) {text : String} (defined : a.Defined text) :
    b.Defined text := by
  intro name referred
  obtain ⟨value, held⟩ := Option.isSome_iff_exists.mp (AList.lookup_isSome.mpr (defined name referred))
  exact AList.lookup_isSome.mp (Option.isSome_iff_exists.mpr ⟨value, more.secrets name value held⟩)

theorem Extends.agree (more : Extends a b) {text : String} (defined : a.Defined text) :
    AgreeOn a.secrets b.secrets (referencesIn text) := by
  intro name referred
  obtain ⟨value, held⟩ := Option.isSome_iff_exists.mp (AList.lookup_isSome.mpr (defined name referred))
  rw [held, more.secrets name value held]

theorem resolveText_carries (more : Extends a b) (text : String) (path : ConfigPath) :
    Carries (a.resolveText text path) (b.resolveText text path) := by
  intro resolved passed
  obtain ⟨defined, rfl⟩ := (a.resolveText_gives text path).eq_pure.mp passed
  rw [(b.resolveText_gives text path).eq_pure, substitute_agree (more.agree defined)]
  exact ⟨more.defined defined, rfl⟩

mutual

theorem resolveSecrets_carries (more : Extends a b) : (value : Json) → (frames others : Nat) →
    frames ≤ others → (path : ConfigPath) →
    Carries (a.resolveSecrets frames value path) (b.resolveSecrets others value path)
  | value, 0, others, _, path => by
    rw [resolveSecrets]
    exact carries_raise
  | .string text, frames + 1, others + 1, _, path => by
    rw [resolveSecrets, resolveSecrets]
    exact (resolveText_carries more text path).bind fun _ => Carries.refl _
  | .array elements, frames + 1, others + 1, room, path => by
    rw [resolveSecrets, resolveSecrets]
    exact (resolveElements_carries more elements frames others (by omega) 0 path).bind
      fun _ => Carries.refl _
  | .object members, 1, others, _, path => by
    rw [resolveSecrets]
    exact carries_raise
  | .object members, frames + 2, others + 2, room, path => by
    rw [resolveSecrets, resolveSecrets]
    exact (resolveMembers_carries more members frames others (by omega) path).bind
      fun _ => Carries.refl _
  | .null, frames + 1, others + 1, _, path => by
    rw [resolveSecrets, resolveSecrets]
    exact Carries.refl _
  | .bool value, frames + 1, others + 1, _, path => by
    rw [resolveSecrets, resolveSecrets]
    exact Carries.refl _
  | .int value, frames + 1, others + 1, _, path => by
    rw [resolveSecrets, resolveSecrets]
    exact Carries.refl _
  | .float value, frames + 1, others + 1, _, path => by
    rw [resolveSecrets, resolveSecrets]
    exact Carries.refl _

theorem resolveElements_carries (more : Extends a b) : (elements : List Json) →
    (frames others : Nat) → frames ≤ others → (index : Nat) → (path : ConfigPath) →
    Carries (a.resolveElements frames index elements path)
      (b.resolveElements others index elements path)
  | [], _, _, _, _, _ => by
    rw [resolveElements, resolveElements]
    exact Carries.refl _
  | element :: rest, frames, others, room, index, path => by
    rw [resolveElements, resolveElements]
    refine (resolveSecrets_carries more element frames others room _).bind fun resolved => ?_
    exact (resolveElements_carries more rest frames others room _ path).bind
      fun _ => Carries.refl _

theorem resolveMembers_carries (more : Extends a b) : (members : Members) →
    (frames others : Nat) → frames ≤ others → (path : ConfigPath) →
    Carries (a.resolveMembers frames members path) (b.resolveMembers others members path)
  | [], _, _, _, _ => by
    rw [resolveMembers, resolveMembers]
    exact Carries.refl _
  | (key, value) :: rest, frames, others, room, path => by
    rw [resolveMembers, resolveMembers]
    refine (resolveSecrets_carries more value frames others room _).bind fun resolved => ?_
    exact (resolveMembers_carries more rest frames others room path).bind fun _ => Carries.refl _

end

theorem resolveSecretsObject_carries (more : Extends a b) (members : Members)
    (path : ConfigPath) :
    Carries (a.resolveSecretsObject a.frames members path)
      (b.resolveSecretsObject b.frames members path) := by
  have room := more.frames
  revert room
  cases a.frames with
  | zero => exact fun _ => carries_raise
  | succ frames =>
    cases b.frames with
    | zero =>
      intro room
      omega
    | succ others => exact fun room => resolveMembers_carries more members _ _ (by omega) path

theorem buildSettings_carries (more : Extends a b) (draft : Draft) (known : KnownPlugin) :
    Carries (a.buildSettings draft known) (b.buildSettings draft known) := by
  unfold buildSettings
  rw [more.unicode]
  split
  · exact Carries.refl _
  · exact (resolveSecretsObject_carries more _ _).bind fun _ => Carries.refl _
  · exact carries_tell

theorem expected_congr (same : a.unicode = b.unicode) : a.expected = b.expected := by
  funext names
  rw [expected, expected, same]

theorem rejectUnknownKeys_congr (same : a.unicode = b.unicode) :
    a.rejectUnknownKeys = b.rejectUnknownKeys := by
  funext body path allowed subject
  simp only [rejectUnknownKeys, expected_congr same, same]

theorem buildInstance_carries (more : Extends a b) (draft : Draft) :
    Carries (a.buildInstance draft) (b.buildInstance draft) := by
  simp only [buildInstance, rejectUnknownKeys_congr more.unicode, more.unicode]
  refine (Carries.refl _).bind fun _ => (Carries.refl _).bind fun named => ?_
  cases named with
  | none => exact Carries.refl _
  | some plugin =>
    dsimp only
    cases found : a.knownPlugins.lookup plugin with
    | none => exact carries_tell
    | some known =>
      rw [more.plugins plugin known found]
      refine (Carries.refl _).bind fun enabled => ?_
      refine (buildSettings_carries more draft known).bind fun settings => ?_
      exact Carries.refl _

/- The rest looks at the texts only. -/

theorem collectFile_congr (same : a.unicode = b.unicode) : a.collectFile = b.collectFile := by
  have named : a.collectNamed = b.collectNamed := by
    funext space path c entry
    simp only [collectNamed, addDraft, same]
  have member : a.collectMember = b.collectMember := by
    funext file c member
    rw [collectMember, collectMember, expected_congr same, named, same]
  funext c file
  simp only [collectFile, collectDocument, member]

theorem buildDaemon_congr (same : a.unicode = b.unicode) : a.buildDaemon = b.buildDaemon := by
  funext daemon
  cases daemon with
  | none => rfl
  | some block => rw [buildDaemon, buildDaemon, rejectUnknownKeys_congr same]

theorem buildRules_congr (same : a.unicode = b.unicode) : a.buildRules = b.buildRules := by
  have members : a.ruleMembers = b.ruleMembers := by
    have member : a.resolveMember = b.resolveMember := by
      funext registry built draft key direction acc listed
      simp only [resolveMember, suggestionFor, same]
    funext registry built draft key direction
    simp only [ruleMembers, member, same]
  have one : a.buildOneRule = b.buildOneRule := by
    funext registry built rules draft
    simp only [buildOneRule, buildRule, rejectUnknownKeys_congr same, members, same]
  funext registry built drafts
  rw [buildRules, buildRules, one]

theorem check_carries (more : Extends a b) (directory : String)
    (found : Option (List ParsedFile)) :
    Carries (a.check directory found) (b.check directory found) := by
  have one (built : BuiltInstances) (draft : Draft) :
      Carries (a.buildOne built draft) (b.buildOne built draft) :=
    (buildInstance_carries more draft).bind fun _ => Carries.refl _
  have building (drafts : List Draft) :
      Carries (a.buildInstances drafts) (b.buildInstances drafts) := Carries.foldlM one {} drafts
  unfold check
  rw [collectFile_congr more.unicode, buildDaemon_congr more.unicode,
    buildRules_congr more.unicode]
  refine (Carries.refl _).bind fun files => (Carries.refl _).bind fun collected => ?_
  refine (Carries.refl _).bind fun daemon => (building _).bind fun built => ?_
  exact (Carries.refl _).bind fun rules => Carries.refl _

/-- What is accepted stays accepted, and as it is, with more secrets, plugins and room. -/
theorem accepted_stays (a b : Loader) (more : Extends a b) (limit : Nat) (directory : String)
    (files : List (String × Content)) (c : LoadedConfiguration)
    (accepted : a.loadConfiguration limit directory files = .ok c) :
    b.loadConfiguration limit directory files = .ok c := by
  have parses : files.map (a.parseFile limit) = files.map (b.parseFile limit) := by
    refine List.map_congr_left fun file _ => ?_
    rw [parseFile, parseFile, more.unicode]
  rw [loadConfiguration, load, concluded_ok] at accepted ⊢
  rw [← parses]
  exact check_carries more directory _ c accepted

namespace Sample

def doorText : String :=
  "\x7b\"instances\":\x7b\"Door\":\x7b\"plugin\":\"file_input\"," ++
    "\"config\":\x7b\"path\":\"$\x7bsecret:user\x7d\"\x7d\x7d\x7d\x7d"

def doorFile : List (String × Content) := [("/etc/noti-mapper.d/a.json", .ok doorText.toUTF8)]

/-- The plain loader, with a secret and a plugin more. -/
def further : Loader :=
  { plain with
    secrets := { plain.secrets with values := plain.secrets.values.insert "token" "secret" }
    knownPlugins := plain.knownPlugins.insert "webhook_input" { directions := [.input] }
    frames := 1000 }

theorem further_extends : Extends plain further where
  unicode := rfl
  secrets := by
    intro name value held
    have other : name ≠ "token" := by
      rintro rfl
      cases (held : plain.secrets.values.lookup "token" = some value)
    rw [further, AList.lookup_insert_ne other]
    exact held
  plugins := by
    intro name known held
    have other : name ≠ "webhook_input" := by
      rintro rfl
      cases (held : plain.knownPlugins.lookup "webhook_input" = some known)
    rw [further, AList.lookup_insert_ne other]
    exact held
  frames := by decide

end Sample

theorem door_stays_accepted : ∃ c,
    plain.loadConfiguration 900 "/etc/noti-mapper.d" Sample.doorFile = .ok c ∧
      Sample.further.loadConfiguration 900 "/etc/noti-mapper.d" Sample.doorFile = .ok c := by
  have loaded : (plain.loadConfiguration 900 "/etc/noti-mapper.d" Sample.doorFile).isOk = true := by
    decide +kernel
  cases outcome : plain.loadConfiguration 900 "/etc/noti-mapper.d" Sample.doorFile with
  | error failure =>
    rw [outcome] at loaded
    cases loaded
  | ok c => exact ⟨c, rfl, accepted_stays plain Sample.further Sample.further_extends _ _ _ c outcome⟩

end Loader

end NotiMapper
