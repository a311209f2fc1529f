import NotiMapper.Config.Quoting
import NotiMapper.Config.Outcome

/-! What the passes of the loader report, and where. The merging and the daemon block have
their problems at the top of a file, at most two steps below it; an instance or a rule has
its own at or below its place. -/
namespace NotiMapper

open Python Report

/- How a report begins. -/

namespace Unicode

variable (u : Unicode)

/-- The message tells of a rule that it names an instance `n`, which there is not. -/
def ReportsUnknown (message : String) (n : Name) : Prop :=
  ∃ rule tail, message = s!"rule {u.repr rule} references unknown instance {u.repr n}" ++ tail

/-- Nothing that begins so tells of an unknown instance. -/
def Quiet (message : String) : Prop := ∀ more n, ¬ u.ReportsUnknown (message ++ more) n

variable {u}

theorem ReportsUnknown.text {message : String} {n : Name} (reports : u.ReportsUnknown message n) :
    ∃ rule tail, message.toList = "rule ".toList ++ ((u.repr rule).toList ++
      (" references unknown instance ".toList ++ ((u.repr n).toList ++ tail))) := by
  obtain ⟨rule, tail, rfl⟩ := reports
  refine ⟨rule, tail.toList, ?_⟩
  simp only [String.toList_append, List.append_assoc]
  rfl

/-- The name is the one that is shown. -/
theorem ReportsUnknown.name {rule n m : Name} {tail : String}
    (reports : u.ReportsUnknown
      (s!"rule {u.repr rule} references unknown instance {u.repr n}" ++ tail) m) : m = n := by
  obtain ⟨other, more, text⟩ := reports.text
  have shown : (s!"rule {u.repr rule} references unknown instance {u.repr n}" ++ tail).toList =
      "rule ".toList ++ ((u.repr rule).toList ++
        (" references unknown instance ".toList ++ ((u.repr n).toList ++ tail.toList))) := by
    simp only [String.toList_append, List.append_assoc]
    rfl
  have rules := List.append_cancel_left (shown.symm.trans text)
  have names := List.append_cancel_left (u.repr_delimited.read rules).2
  exact (u.repr_delimited.read names).1.symm

theorem Quiet.append {message : String} (quiet : u.Quiet message) (more : String) :
    u.Quiet (message ++ more) := by
  intro rest n
  rw [String.append_assoc]
  exact quiet (more ++ rest) n

theorem Quiet.silent {message : String} (quiet : u.Quiet message) (n : Name) :
    ¬ u.ReportsUnknown message n := by
  have whole := quiet "" n
  rwa [String.append_empty] at whole

theorem quiet_of_head {message : String} (c : Char) (head : message.toList.head? = some c)
    (other : c ≠ 'r') : u.Quiet message := by
  intro more n reports
  obtain ⟨rule, tail, text⟩ := reports.text
  obtain ⟨rest, start⟩ := List.head?_eq_some_iff.mp head
  rw [String.toList_append, start] at text
  exact other (List.cons.inj text).1

theorem quiet_repr (name : Name) : u.Quiet (u.repr name) := by
  obtain ⟨quote, quoting, shown⟩ := u.repr_toList name
  refine quiet_of_head quote (by rw [shown]; rfl) ?_
  rcases quoting with rfl | rfl <;> decide

/-- After "rule ", the report of an unknown instance has a quote. -/
theorem quiet_rule_name : u.Quiet ("rule" ++ " name ") := by
  intro more n reports
  obtain ⟨rule, tail, text⟩ := reports.text
  obtain ⟨quote, quoting, shown⟩ := u.repr_toList rule
  have split : ("rule" ++ " name " ++ more).toList =
      "rule ".toList ++ ('n' :: ("ame ".toList ++ more.toList)) := String.toList_append
  have after := List.append_cancel_left (split.symm.trans text)
  rw [shown] at after
  have first : 'n' = quote := (List.cons.inj after).1
  rcases quoting with rfl | rfl <;> exact absurd first (by decide)

/-- After the rule, it has " r". -/
theorem quiet_rule (rule : Name) {literal : String} (a b : Char)
    (start : literal.toList.take 2 = [a, b]) (other : [a, b] ≠ [' ', 'r']) :
    u.Quiet (s!"rule {u.repr rule}" ++ literal) := by
  intro more n reports
  obtain ⟨shown, tail, text⟩ := reports.text
  have split : (s!"rule {u.repr rule}" ++ literal ++ more).toList =
      "rule ".toList ++ ((u.repr rule).toList ++ (literal.toList ++ more.toList)) := by
    simp only [String.toList_append, List.append_assoc]
    rfl
  have rules := List.append_cancel_left (split.symm.trans text)
  obtain ⟨-, after⟩ := u.repr_delimited.read rules
  have known : " references unknown instance ".toList =
      [' ', 'r'] ++ "eferences unknown instance ".toList := rfl
  rw [← List.take_append_drop 2 literal.toList, start, known, List.append_assoc,
    List.append_assoc] at after
  exact other (List.append_inj_left after rfl)

end Unicode

/- Problems at the top of a file. -/

/-- A problem at most two steps below a file, that is not about an unknown instance. -/
structure Early (u : Unicode) (e : ConfigError) : Prop where
  quiet : u.Quiet e.message
  near : ∀ place, e.location = some place → place.steps.length ≤ 2

theorem early_of {u : Unicode} {message : String} {place : ConfigPath} (quiet : u.Quiet message)
    (near : place.steps.length ≤ 2) : Early u ⟨message, some place⟩ := by
  refine ⟨quiet, fun other same => ?_⟩
  cases same
  exact near

def Part.path : Part → ConfigPath
  | .daemon _ path => path
  | .named _ path _ => path

namespace Loader

open Unicode

variable {l : Loader}

theorem collectNamed_early {space : Namespace} {path : ConfigPath} (top : path.steps.length = 1)
    (c : Collected) (entry : String × Json) :
    Reports (Early l.unicode) (l.collectNamed space path c entry) := by
  have near : (path.named l.unicode entry.1).steps.length ≤ 2 := by
    rw [ConfigPath.named, List.length_append, top]
    exact Nat.le_refl 2
  simp only [collectNamed]
  cases l.unicode.findNameProblems entry.1 with
  | cons first rest =>
    refine Reports.bind (Reports.forM fun found _ => reports_tell.mpr ?_) fun _ _ => reports_pure _
    refine early_of ?_ near
    cases space with
    | instances => exact (((quiet_of_head 'i' (by decide) (by decide)).append _).append _).append _
    | rules => exact ((quiet_rule_name.append _).append _).append _
  | nil =>
    cases c.registry.findConflict l.unicode space (normalizeName entry.1) with
    | some conflict =>
      refine reports_tell_pure (early_of ?_ near)
      have quiet : l.unicode.Quiet "duplicate " := quiet_of_head 'd' (by decide) (by decide)
      repeat apply Quiet.append
      exact quiet
    | none =>
      cases entry.2 with
      | object body => exact reports_pure _
      | _ =>
        refine reports_tell_pure (early_of ?_ near)
        cases space with
        | instances =>
          have quiet : l.unicode.Quiet "instance" := quiet_of_head 'i' (by decide) (by decide)
          repeat apply Quiet.append
          exact quiet
        | rules => exact quiet_rule _ ' ' 'm' (by decide) (by decide)

theorem collectDaemon_early {body : Members} {path : ConfigPath} (top : path.steps.length = 1)
    (c : Collected) : Reports (Early l.unicode) (collectDaemon body path c) := by
  unfold collectDaemon
  cases c.daemon with
  | none => exact reports_pure _
  | some block =>
    refine reports_tell_pure (early_of ?_ (top.trans_le (by decide)))
    have quiet : l.unicode.Quiet "a second \"daemon\" block; it is already defined in " :=
      quiet_of_head 'a' (by decide) (by decide)
    exact quiet.append _

theorem collectMember_early (file : String) (c : Collected) (member : String × Json) :
    Reports (Early l.unicode) (l.collectMember file c member) := by
  have top : (ConfigPath.key ⟨file, []⟩ member.1).steps.length = 1 := rfl
  have named (space : Namespace) (body : Members) : Reports (Early l.unicode)
      (body.foldlM (l.collectNamed space (ConfigPath.key ⟨file, []⟩ member.1)) c) :=
    Reports.foldlM (I := fun _ => True) (fun _ _ _ _ _ _ => trivial)
      (fun c _ entry _ => collectNamed_early top c entry) trivial
  unfold collectMember
  dsimp only
  by_cases known : member.1 ∈ topLevelKeys
  · rw [if_neg (not_not_intro known)]
    cases member.2 with
    | object body =>
      dsimp only
      split
      · exact collectDaemon_early top c
      · split
        · exact named .instances body
        · exact named .rules body
    | _ =>
      refine reports_tell_pure (early_of ?_ (top.trans_le (by decide)))
      exact (quiet_repr member.1).append _
  · rw [if_pos known]
    refine reports_tell_pure (early_of ?_ (top.trans_le (by decide)))
    have quiet : l.unicode.Quiet "unknown top-level key " :=
      quiet_of_head 'u' (by decide) (by decide)
    repeat apply Quiet.append
    exact quiet

/-- Documents that were parsed, merged. -/
theorem collectFiles_early (documents : List Document) :
    Reports (Early l.unicode) ((parsed documents).foldlM l.collectFile {}) := by
  refine Reports.foldlM (I := fun _ => True) (fun _ _ _ _ _ _ => trivial) ?_ trivial
  intro c _ file member
  obtain ⟨document, _, rfl⟩ := List.mem_map.mp member
  exact Reports.foldlM (I := fun _ => True) (fun _ _ _ _ _ _ => trivial)
    (fun c _ member _ => collectMember_early document.1 c member) trivial

variable (l) in
def unknownKey (path : ConfigPath) (allowed : List String) (subject key : String) : ConfigError where
  message := s!"{subject}: unknown key {l.unicode.repr key}; expected one of {l.expected allowed}"
  location := some (path.key key)

theorem rejectUnknownKeys_reports {kind : ConfigError → Prop} {body : Members} {path : ConfigPath}
    {allowed : List String} {subject : String}
    (each : ∀ member ∈ body, member.1 ∉ allowed →
      kind (l.unknownKey path allowed subject member.1)) :
    Reports kind (l.rejectUnknownKeys body path allowed subject) := by
  refine Reports.forM fun member listed => reports_tell.mpr ?_
  obtain ⟨there, unknown⟩ := List.mem_filter.mp listed
  exact each member there (of_decide_eq_true unknown)

theorem positiveInt_reports {kind : ConfigError → Prop} {body : Members} {path : ConfigPath}
    {key : String} {default : Nat}
    (wrong : kind ⟨s!"\"daemon\": \"{key}\" must be a positive integer", some (path.key key)⟩) :
    Reports kind (positiveInt body path key default) := by
  unfold positiveInt
  split
  · exact reports_pure _
  · split
    · exact reports_tell_pure wrong
    · exact reports_pure _
  · exact reports_tell_pure wrong

theorem positiveNumber_reports {kind : ConfigError → Prop} {body : Members} {path : ConfigPath}
    {key : String} {default : PyFloat}
    (wrong : kind ⟨s!"\"daemon\": \"{key}\" must be a positive number", some (path.key key)⟩) :
    Reports kind (positiveNumber body path key default) := by
  unfold positiveNumber
  split
  · exact reports_pure _
  · split
    · exact reports_tell_pure wrong
    · split
      · exact reports_pure _
      · exact reports_raise _
  · split
    · exact reports_tell_pure wrong
    · exact reports_pure _
  · exact reports_tell_pure wrong

theorem buildDaemon_early {daemon : Option (Members × ConfigPath)}
    (top : ∀ body path, daemon = some (body, path) → path.steps.length = 1) :
    Reports (Early l.unicode) (l.buildDaemon daemon) := by
  cases daemon with
  | none => exact reports_pure _
  | some block =>
    obtain ⟨body, path⟩ := block
    have near (key : String) : (path.key key).steps.length ≤ 2 := by
      rw [ConfigPath.key, List.length_append, top body path rfl]
      exact Nat.le_refl 2
    have wrong (key : String) {more : String} :
        Early l.unicode ⟨"\"daemon\": \"" ++ key ++ more, some (path.key key)⟩ := by
      have quiet : l.unicode.Quiet "\"daemon\": \"" := quiet_of_head '"' (by decide) (by decide)
      exact early_of ((quiet.append _).append _) (near key)
    refine Reports.bind (rejectUnknownKeys_reports fun member _ _ => ?_) fun _ _ => ?_
    · have quiet : l.unicode.Quiet "\"daemon\"" := quiet_of_head '"' (by decide) (by decide)
      exact early_of ((((quiet.append _).append _).append _).append _) (near member.1)
    refine Reports.bind (positiveInt_reports (wrong _)) fun _ _ => ?_
    refine Reports.bind (positiveInt_reports (wrong _)) fun _ _ => ?_
    refine Reports.bind (positiveNumber_reports (wrong _)) fun _ _ => ?_
    exact Reports.bind (positiveNumber_reports (wrong _)) fun _ _ => reports_pure _

/- The texts of a config, and what is undefined in them. -/

variable (l) in
def undefinedSecret (name : String) (path : ConfigPath) : ConfigError :=
  let known := if l.secrets.names.isEmpty then "(none defined)" else ", ".intercalate l.secrets.names
  ⟨s!"undefined secret {l.unicode.repr name}; {l.secrets.path} defines: {known}", some path⟩

variable (l) in
/-- What is reported of the text at a place. -/
def undefinedIn (placed : ConfigPath × String) : List ConfigError :=
  (substitute placed.2 l.secrets).missing.map fun name => l.undefinedSecret name placed.1

mutual

/-- The texts of a value, each with its place. -/
def textsAt : Json → ConfigPath → List (ConfigPath × String)
  | .string text, path => [(path, text)]
  | .array elements, path => elementTextsAt 0 elements path
  | .object members, path => memberTextsAt members path
  | .null, _ => []
  | .bool _, _ => []
  | .int _, _ => []
  | .float _, _ => []

def elementTextsAt : Nat → List Json → ConfigPath → List (ConfigPath × String)
  | _, [], _ => []
  | index, element :: rest, path =>
    textsAt element (path.element index) ++ elementTextsAt (index + 1) rest path

def memberTextsAt : Members → ConfigPath → List (ConfigPath × String)
  | [], _ => []
  | (key, value) :: rest, path => textsAt value (path.key key) ++ memberTextsAt rest path

end

theorem resolveText_problems (text : String) (path : ConfigPath) :
    (l.resolveText text path).problems = l.undefinedIn (path, text) := by
  have told := problems_forM_tell (χ := Escape) (f := fun name => l.undefinedSecret name path)
    (substitute text l.secrets).missing
  have returned := (Gives.forM_tell (χ := Escape)
    (f := fun name => l.undefinedSecret name path) (substitute text l.secrets).missing).result
  refine (problems_bind_of_ok returned).trans ?_
  rw [told]
  exact List.append_nil _

mutual

theorem resolveSecrets_problems : (frames : Nat) → (value : Json) → (path : ConfigPath) →
    value.calls ≤ frames →
    (l.resolveSecrets frames value path).problems = (textsAt value path).flatMap l.undefinedIn
  | 0, value, _, enough => by cases value <;> simp [Json.calls] at enough
  | frames + 1, .string text, path, _ => by
    rw [resolveSecrets, problems_bind_of_ok (l.resolveText_gives text path).result,
      resolveText_problems, textsAt, List.flatMap_singleton]
    exact List.append_nil _
  | frames + 1, .array elements, path, enough => by
    have below : elementCalls elements ≤ frames := Nat.le_of_succ_le_succ enough
    rw [resolveSecrets, problems_bind_of_ok (l.resolveElements_gives frames 0 elements path below).result,
      resolveElements_problems frames 0 elements path below, textsAt]
    exact List.append_nil _
  | 1, .object members, path, enough => by simp [Json.calls] at enough
  | frames + 2, .object members, path, enough => by
    have below : memberCalls members ≤ frames := Nat.le_of_add_le_add_right enough
    rw [resolveSecrets, problems_bind_of_ok (l.resolveMembers_gives frames members path below).result,
      resolveMembers_problems frames members path below, textsAt]
    exact List.append_nil _
  | _ + 1, .null, _, _ => by rw [resolveSecrets, textsAt]; rfl
  | _ + 1, .bool value, _, _ => by rw [resolveSecrets, textsAt]; rfl
  | _ + 1, .int value, _, _ => by rw [resolveSecrets, textsAt]; rfl
  | _ + 1, .float value, _, _ => by rw [resolveSecrets, textsAt]; rfl

theorem resolveElements_problems : (frames index : Nat) → (elements : List Json) →
    (path : ConfigPath) → elementCalls elements ≤ frames →
    (l.resolveElements frames index elements path).problems =
      (elementTextsAt index elements path).flatMap l.undefinedIn
  | _, _, [], _, _ => by rw [resolveElements, elementTextsAt]; rfl
  | frames, index, element :: rest, path, enough => by
    rw [elementCalls, Nat.max_le] at enough
    have here := l.resolveSecrets_gives frames element (path.element index) enough.1
    have later := l.resolveElements_gives frames (index + 1) rest path enough.2
    rw [resolveElements, problems_bind_of_ok here.result, problems_bind_of_ok later.result,
      resolveSecrets_problems frames element (path.element index) enough.1,
      resolveElements_problems frames (index + 1) rest path enough.2, elementTextsAt,
      List.flatMap_append]
    exact congrArg _ (List.append_nil _)

theorem resolveMembers_problems : (frames : Nat) → (members : Members) → (path : ConfigPath) →
    memberCalls members ≤ frames →
    (l.resolveMembers frames members path).problems =
      (memberTextsAt members path).flatMap l.undefinedIn
  | _, [], _, _ => by rw [resolveMembers, memberTextsAt]; rfl
  | frames, (key, value) :: rest, path, enough => by
    rw [memberCalls, Nat.max_le] at enough
    have here := l.resolveSecrets_gives frames value (path.key key) enough.1
    have later := l.resolveMembers_gives frames rest path enough.2
    rw [resolveMembers, problems_bind_of_ok here.result, problems_bind_of_ok later.result,
      resolveSecrets_problems frames value (path.key key) enough.1,
      resolveMembers_problems frames rest path enough.2, memberTextsAt, List.flatMap_append]
    exact congrArg _ (List.append_nil _)

end

theorem resolveSecretsObject_problems {frames : Nat} {members : Members} (path : ConfigPath)
    (enough : memberCalls members < frames) :
    (l.resolveSecretsObject frames members path).problems =
      (memberTextsAt members path).flatMap l.undefinedIn := by
  cases frames with
  | zero => exact absurd enough (Nat.not_lt_zero _)
  | succ frames => exact resolveMembers_problems frames members path (Nat.le_of_lt_succ enough)

/- The problems of an instance. -/

variable (l) in
def instanceSubject (draft : Draft) : String := s!"instance {l.unicode.repr draft.name}"

variable (l) in
def unknownPlugin (draft : Draft) (plugin : String) : ConfigError :=
  let names := l.knownPlugins.keys.insertionSort (· ≤ ·)
  let available := if names.isEmpty then "(none loaded)" else ", ".intercalate names
  ⟨s!"{l.instanceSubject draft} refers to unknown plugin {l.unicode.repr plugin}. " ++
    s!"Plugins that loaded: {available}", some (draft.origin.key "plugin")⟩

theorem requireString_problems {body : Members} {path : ConfigPath} {key subject : String}
    {e : ConfigError} (reported : e ∈ (requireString body path key subject).problems) :
    stringAt body key = none ∧ (e = ⟨s!"{subject} has no \"{key}\"", some path⟩ ∨
      e = ⟨s!"{subject}: \"{key}\" must be a string", some (path.key key)⟩) := by
  unfold requireString stringAt at *
  cases found : body.lookup key with
  | none =>
    rw [found] at reported
    exact ⟨rfl, .inl (List.mem_singleton.mp reported)⟩
  | some value =>
    rw [found] at reported
    cases value with
    | string text => cases reported
    | _ => exact ⟨rfl, .inr (List.mem_singleton.mp reported)⟩

theorem mem_optionalBool {body : Members} {path : ConfigPath} {key subject : String}
    {default : Bool} {e : ConfigError} :
    e ∈ (optionalBool body path key subject default).problems ↔ ¬ BoolOrAbsent body key ∧
      e = ⟨s!"{subject}: \"{key}\" must be true or false", some (path.key key)⟩ := by
  unfold optionalBool BoolOrAbsent
  cases body.lookup key with
  | none => exact iff_of_false List.not_mem_nil (fun both => both.1 fun _ absent => nomatch absent)
  | some value =>
    cases value with
    | bool flag =>
      exact iff_of_false List.not_mem_nil fun both => both.1 fun value same => by
        cases same
        exact ⟨flag, rfl⟩
    | _ =>
      refine List.mem_singleton.trans (iff_and_self.mpr fun _ fine => ?_)
      obtain ⟨flag, same⟩ := fine _ rfl
      cases same

/-- What is reported of an instance: its unknown keys, what keeps its plugin from being
found, and when it is found, the flag and the settings. -/
theorem mem_buildInstance {draft : Draft} {e : ConfigError}
    (shallow : ∀ plugin known, l.PluginIs draft.body plugin known → l.Shallow draft.body) :
    e ∈ (l.buildInstance draft).problems ↔
      e ∈ (l.rejectUnknownKeys draft.body draft.origin instanceKeys
        (l.instanceSubject draft)).problems ∨
      e ∈ (requireString draft.body draft.origin "plugin" (l.instanceSubject draft)).problems ∨
      (∃ plugin, draft.body.lookup "plugin" = some (.string plugin) ∧
        l.knownPlugins.lookup plugin = none ∧ e = l.unknownPlugin draft plugin) ∨
      ∃ plugin known, l.PluginIs draft.body plugin known ∧
        (e ∈ (optionalBool draft.body draft.origin "enabled" (l.instanceSubject draft)
          true).problems ∨ e ∈ (l.buildSettings draft known).problems) := by
  have keys := l.rejectUnknownKeys_gives draft.body draft.origin instanceKeys
    (l.instanceSubject draft)
  have required := requireString_gives draft.body draft.origin "plugin" (l.instanceSubject draft)
  refine (mem_bind_of_ok keys.result).trans (or_congr_right ?_)
  refine (mem_bind_of_ok required.result).trans (or_congr_right ?_)
  cases named : stringAt draft.body "plugin" with
  | none =>
    refine iff_of_false List.not_mem_nil ?_
    rintro (⟨plugin, there, _⟩ | ⟨plugin, known, ⟨there, _⟩, _⟩)
    all_goals cases named.symm.trans (stringAt_eq_some.mpr there)
  | some plugin =>
    have there := stringAt_eq_some.mp named
    cases available : l.knownPlugins.lookup plugin with
    | none =>
      have unknown : ∀ known, ¬ l.PluginIs draft.body plugin known := fun known isKnown =>
        nomatch available.symm.trans isKnown.2
      simp only [available]
      refine List.mem_singleton.trans ?_
      constructor
      · rintro rfl
        exact .inl ⟨plugin, there, available, rfl⟩
      · rintro (⟨other, also, _, rfl⟩ | ⟨other, known, isKnown, _⟩)
        · cases there.symm.trans also
          rfl
        · cases there.symm.trans isKnown.1
          exact absurd isKnown (unknown known)
    | some known =>
      have isKnown : l.PluginIs draft.body plugin known := ⟨there, available⟩
      have flag := optionalBool_gives draft.body draft.origin "enabled" (l.instanceSubject draft)
        true
      have settings := buildSettings_gives draft known (shallow plugin known isKnown)
      have parts : (∃ other also, l.PluginIs draft.body other also ∧
          (e ∈ (optionalBool draft.body draft.origin "enabled" (l.instanceSubject draft)
            true).problems ∨ e ∈ (l.buildSettings draft also).problems)) ↔
          e ∈ (optionalBool draft.body draft.origin "enabled" (l.instanceSubject draft)
            true).problems ∨ e ∈ (l.buildSettings draft known).problems := by
        constructor
        · rintro ⟨other, also, isAlso, reported⟩
          cases there.symm.trans isAlso.1
          cases available.symm.trans isAlso.2
          exact reported
        · exact fun reported => ⟨plugin, known, isKnown, reported⟩
      rw [parts]
      simp only [available]
      refine (mem_bind_of_ok flag.result).trans ?_
      rw [mem_bind_of_ok settings.result]
      constructor
      · rintro (first | second | last)
        · exact .inr (.inl first)
        · exact .inr (.inr second)
        · cases held : l.settingsOf draft.body <;> rw [held] at last <;> cases last
      · rintro (⟨other, also, absent, _⟩ | first | second)
        · cases there.symm.trans also
          cases available.symm.trans absent
        · exact .inl first
        · exact .inr (.inl second)

theorem mem_validated {known : KnownPlugin} {subject : String} {path : ConfigPath}
    {settings : Members} {e : ConfigError}
    (reported : e ∈ (validated known subject path settings).problems) :
    ∃ found : String, e = ⟨s!"{subject}: {found}", some path⟩ := by
  unfold validated at reported
  cases validates : known.validateSettings with
  | none =>
    rw [validates] at reported
    cases reported
  | some validate =>
    rw [validates] at reported
    have told := problems_forM_tell (χ := Escape)
      (f := fun found => (⟨s!"{subject}: {found}", some path⟩ : ConfigError)) (validate settings)
    rcases (mem_bind_of_ok (Gives.forM_tell (validate settings)).result).mp reported with here | last
    · have member : e ∈ (validate settings).map fun found =>
          (⟨s!"{subject}: {found}", some path⟩ : ConfigError) := told ▸ here
      obtain ⟨found, _, rfl⟩ := List.mem_map.mp member
      exact ⟨found, rfl⟩
    · cases last

/-- What is reported of the settings: what is undefined in the config, what the plugin has
against it, or that it is no object. -/
theorem mem_buildSettings {draft : Draft} {known : KnownPlugin} {e : ConfigError}
    (shallow : l.Shallow draft.body) (reported : e ∈ (l.buildSettings draft known).problems) :
    (∃ config, draft.body.lookup "config" = some (.object config) ∧
        e ∈ (memberTextsAt config (draft.origin.key "config")).flatMap l.undefinedIn) ∨
      ∃ more, e = ⟨l.instanceSubject draft ++ more, some (draft.origin.key "config")⟩ := by
  unfold buildSettings at reported
  have unsuited {settings : Members} (here : e ∈ (validated known (l.instanceSubject draft)
      (draft.origin.key "config") settings).problems) :
      ∃ more, e = ⟨l.instanceSubject draft ++ more, some (draft.origin.key "config")⟩ := by
    obtain ⟨found, rfl⟩ := mem_validated here
    exact ⟨": " ++ found, by rw [← String.append_assoc]; rfl⟩
  cases found : draft.body.lookup "config" with
  | none =>
    rw [found] at reported
    exact .inr (unsuited reported)
  | some value =>
    rw [found] at reported
    cases value with
    | object config =>
      have enough := shallow config found
      have resolved := l.resolveSecretsObject_gives (draft.origin.key "config") enough
      rcases (mem_bind_of_ok resolved.result).mp reported with here | there
      · rw [resolveSecretsObject_problems _ enough] at here
        exact .inl ⟨config, rfl, here⟩
      · exact .inr (unsuited there)
    | _ => exact .inr ⟨_, List.mem_singleton.mp reported⟩

theorem undefined_mem_buildSettings {draft : Draft} {known : KnownPlugin} {config : Members}
    (shallow : l.Shallow draft.body) (found : draft.body.lookup "config" = some (.object config))
    {e : ConfigError}
    (undefined : e ∈ (memberTextsAt config (draft.origin.key "config")).flatMap l.undefinedIn) :
    e ∈ (l.buildSettings draft known).problems := by
  have enough := shallow config found
  rw [buildSettings, found]
  refine mem_bind_of_left ?_
  rwa [resolveSecretsObject_problems _ enough]

/- The problems of a rule. -/

variable (l) in
def ruleSubject (draft : Draft) : String := s!"rule {l.unicode.repr draft.name}"

variable (l) in
/-- The place of an element in a list of a rule. -/
def elementPlace (draft : Draft) (key : String) (index : Nat) : ConfigPath :=
  (draft.origin.key key).element index

variable (l) in
def notAName (draft : Draft) (key : String) (index : Nat) : ConfigError :=
  ⟨s!"{l.ruleSubject draft}: \"{key}\" entries must be instance names",
    some (elementPlace draft key index)⟩

variable (l) in
def listedTwice (draft : Draft) (key : String) (name : Name) (index : Nat) : ConfigError :=
  ⟨s!"{l.ruleSubject draft}: {l.unicode.repr name} is listed twice in \"{key}\"",
    some (elementPlace draft key index)⟩

variable (l) in
def unknownInstance (registry : NameRegistry) (draft : Draft) (key : String) (name : Name)
    (index : Nat) : ConfigError :=
  ⟨s!"{l.ruleSubject draft} references unknown instance {l.unicode.repr name}" ++
    l.suggestionFor registry name, some (elementPlace draft key index)⟩

variable (l) in
def wrongSide (draft : Draft) (key : String) (configured : LoadedInstance) (name : Name)
    (index : Nat) : ConfigError :=
  let actual := ", ".intercalate
    ((configured.directions.map PluginDirection.value).insertionSort (· ≤ ·))
  ⟨s!"{l.ruleSubject draft} lists {l.unicode.repr name} under \"{key}\", but plugin " ++
    s!"{l.unicode.repr configured.plugin} provides only: {actual}",
    some (elementPlace draft key index)⟩

variable {registry : NameRegistry} {built : BuiltInstances} {draft : Draft} {key : String}
  {direction : PluginDirection}

variable (l) in
/-- A problem with one element, when these names are resolved already. -/
inductive MemberProblem (registry : NameRegistry) (built : BuiltInstances) (draft : Draft)
    (key : String) (direction : PluginDirection) (resolved : List Name) (index : Nat) :
    Json → ConfigError → Prop
  | notAName {value : Json} (other : ∀ text, value ≠ .string text) :
      MemberProblem registry built draft key direction resolved index value
        (l.notAName draft key index)
  | listedTwice {text : String} (again : normalizeName text ∈ resolved) :
      MemberProblem registry built draft key direction resolved index (.string text)
        (l.listedTwice draft key (normalizeName text) index)
  | unknown {text : String} (fresh : normalizeName text ∉ resolved)
      (absent : normalizeName text ∉ built.instances) (whole : normalizeName text ∉ built.broken) :
      MemberProblem registry built draft key direction resolved index (.string text)
        (l.unknownInstance registry draft key (normalizeName text) index)
  | wrongSide {text : String} {configured : LoadedInstance} (fresh : normalizeName text ∉ resolved)
      (found : built.instances.lookup (normalizeName text) = some configured)
      (side : direction ∉ configured.directions) :
      MemberProblem registry built draft key direction resolved index (.string text)
        (l.wrongSide draft key configured (normalizeName text) index)

theorem mem_resolveMember {acc : Resolved × Bool} {listed : Json × Nat} {e : ConfigError} :
    e ∈ (l.resolveMember registry built draft key direction acc listed).problems ↔
      l.MemberProblem registry built draft key direction acc.1.1 listed.2 listed.1 e := by
  obtain ⟨value, index⟩ := listed
  cases value with
  | string text =>
    simp only [resolveMember]
    by_cases again : normalizeName text ∈ acc.1.1
    · rw [dif_pos again]
      refine List.mem_singleton.trans ⟨?_, ?_⟩
      · rintro rfl
        exact .listedTwice again
      · intro wrong
        cases wrong with
        | notAName other => exact absurd rfl (other text)
        | listedTwice _ => rfl
        | unknown fresh _ _ => exact absurd again fresh
        | wrongSide fresh _ _ => exact absurd again fresh
    · rw [dif_neg again]
      cases found : built.instances.lookup (normalizeName text) with
      | none =>
        have absent : normalizeName text ∉ built.instances := AList.lookup_eq_none.mp found
        by_cases broken : normalizeName text ∈ built.broken
        · simp only [broken, not_true, if_false]
          refine iff_of_false List.not_mem_nil fun wrong => ?_
          cases wrong with
          | notAName other => exact other text rfl
          | listedTwice again' => exact again again'
          | unknown _ _ whole => exact whole broken
          | wrongSide _ found' _ => cases found.symm.trans found'
        · simp only [broken, not_false_eq_true, if_true]
          refine List.mem_singleton.trans ⟨?_, ?_⟩
          · rintro rfl
            exact .unknown again absent broken
          · intro wrong
            cases wrong with
            | notAName other => exact absurd rfl (other text)
            | listedTwice again' => exact absurd again' again
            | unknown _ _ _ => rfl
            | wrongSide _ found' _ => cases found.symm.trans found'
      | some configured =>
        by_cases side : direction ∈ configured.directions
        · simp only [side, not_true, if_false]
          refine iff_of_false List.not_mem_nil fun wrong => ?_
          cases wrong with
          | notAName other => exact other text rfl
          | listedTwice again' => exact again again'
          | unknown _ absent _ => cases found.symm.trans (AList.lookup_eq_none.mpr absent)
          | wrongSide _ found' side' =>
            cases found.symm.trans found'
            exact side' side
        · simp only [side, not_false_eq_true, if_true]
          refine List.mem_singleton.trans ⟨?_, ?_⟩
          · rintro rfl
            exact .wrongSide again found side
          · intro wrong
            cases wrong with
            | notAName other => exact absurd rfl (other text)
            | listedTwice again' => exact absurd again' again
            | unknown _ absent _ => cases found.symm.trans (AList.lookup_eq_none.mpr absent)
            | wrongSide _ found' _ =>
              cases found.symm.trans found'
              rfl
  | _ =>
    refine List.mem_singleton.trans ⟨?_, ?_⟩
    · rintro rfl
      exact .notAName fun text same => by cases same
    · intro wrong
      cases wrong
      rfl

variable (built direction) in
/-- The element is the name of an instance with this side, not yet resolved. -/
def Resolves (resolved : List Name) (value : Json) (name : Name) : Prop :=
  ∃ text, value = .string text ∧ normalizeName text = name ∧ name ∉ resolved ∧
    built.Provides direction name

/-- A round resolves its element, or fails and leaves the names. -/
theorem resolveMember_result (acc : Resolved × Bool) (listed : Json × Nat) :
    ∃ next, (l.resolveMember registry built draft key direction acc listed).result = .ok next ∧
      ((∃ name, Resolves built direction acc.1.1 listed.1 name ∧
          next.1.1 = acc.1.1 ++ [name] ∧ next.2 = acc.2) ∨
        (∀ name, ¬ Resolves built direction acc.1.1 listed.1 name) ∧ next = (acc.1, false)) := by
  obtain ⟨value, index⟩ := listed
  cases value with
  | string text =>
    have unresolved (reason : normalizeName text ∈ acc.1.1 ∨
        ¬ built.Provides direction (normalizeName text)) (name : Name) :
        ¬ Resolves built direction acc.1.1 (.string text) name := by
      rintro ⟨other, same, rfl, fresh, provided⟩
      cases same
      exact reason.elim fresh (· provided)
    simp only [resolveMember]
    by_cases again : normalizeName text ∈ acc.1.1
    · rw [dif_pos again]
      exact ⟨_, rfl, .inr ⟨unresolved (.inl again), rfl⟩⟩
    · rw [dif_neg again]
      cases found : built.instances.lookup (normalizeName text) with
      | none =>
        refine ⟨(acc.1, false), ?_, .inr ⟨unresolved (.inr ?_), rfl⟩⟩
        · dsimp only
          split <;> rfl
        · rintro ⟨configured, there, _⟩
          cases found.symm.trans there
      | some configured =>
        by_cases side : direction ∈ configured.directions
        · simp only [side, not_true, if_false]
          refine ⟨_, rfl, .inl ⟨normalizeName text, ⟨text, rfl, rfl, again, ?_⟩, rfl, rfl⟩⟩
          exact ⟨configured, found, side⟩
        · simp only [side, not_false_eq_true, if_true]
          refine ⟨_, rfl, .inr ⟨unresolved (.inr ?_), rfl⟩⟩
          rintro ⟨other, there, also⟩
          cases found.symm.trans there
          exact side also
  | _ =>
    refine ⟨_, rfl, .inr ⟨?_, rfl⟩⟩
    rintro name ⟨text, same, _⟩
    cases same

/-- What is resolved is provided, and stays resolved. -/
theorem resolveMember_keeps {acc next : Resolved × Bool} {listed : Json × Nat}
    (result : (l.resolveMember registry built draft key direction acc listed).result = .ok next) :
    (∀ name ∈ acc.1.1, name ∈ next.1.1) ∧
      ((∀ name ∈ acc.1.1, built.Provides direction name) →
        ∀ name ∈ next.1.1, built.Provides direction name) := by
  obtain ⟨other, same, step⟩ : ∃ next,
      (l.resolveMember registry built draft key direction acc listed).result = .ok next ∧
      ((∃ name, Resolves built direction acc.1.1 listed.1 name ∧
          next.1.1 = acc.1.1 ++ [name] ∧ next.2 = acc.2) ∨
        (∀ name, ¬ Resolves built direction acc.1.1 listed.1 name) ∧ next = (acc.1, false)) :=
    l.resolveMember_result acc listed
  cases same.symm.trans result
  rcases step with ⟨added, ⟨_, _, _, _, provided⟩, grown, _⟩ | ⟨_, rfl⟩
  · rw [grown]
    refine ⟨fun name => List.mem_append_left _, fun before name member => ?_⟩
    rcases List.mem_append.mp member with earlier | last
    · exact before name earlier
    · exact List.mem_singleton.mp last ▸ provided
  · exact ⟨fun _ => id, id⟩

/-- The problems of a list are those of its rounds, each in a state where only what is
provided is resolved. -/
theorem resolveMembers_reports {kind : ConfigError → Prop} {listed : List Json}
    (each : ∀ resolved : List Name, (∀ name ∈ resolved, built.Provides direction name) →
      ∀ value ∈ listed, ∀ index e,
        l.MemberProblem registry built draft key direction resolved index value e → kind e) :
    Reports kind (listed.zipIdx.foldlM (l.resolveMember registry built draft key direction)
      (⟨[], List.nodup_nil⟩, true)) := by
  refine Reports.foldlM (I := fun acc => ∀ name ∈ acc.1.1, built.Provides direction name) ?_ ?_
    (List.forall_mem_nil _)
  · exact fun acc provided listed _ next result => (resolveMember_keeps result).2 provided
  · intro acc provided listed member e reported
    have value := List.fst_mem_of_mem_zipIdx member
    exact each acc.1.1 provided listed.1 value listed.2 e (mem_resolveMember.mp reported)

variable (l) in
def noMembers (draft : Draft) (key : String) : ConfigError :=
  ⟨s!"{l.ruleSubject draft} has no \"{key}\"", some draft.origin⟩

variable (l) in
def emptyMembers (draft : Draft) (key : String) : ConfigError :=
  ⟨s!"{l.ruleSubject draft}: \"{key}\" is empty; a rule with no {key} can " ++
    "never do anything", some (draft.origin.key key)⟩

variable (l) in
def notMembers (draft : Draft) (key : String) : ConfigError :=
  ⟨s!"{l.ruleSubject draft}: \"{key}\" must be an array of instance names",
    some (draft.origin.key key)⟩

/-- What is reported of the members under a key: what is wrong with the field, or with its
elements. -/
theorem mem_ruleMembers {e : ConfigError} :
    e ∈ (l.ruleMembers registry built draft key direction).problems ↔
      draft.body.lookup key = none ∧ e = l.noMembers draft key ∨
      draft.body.lookup key = some (.array []) ∧ e = l.emptyMembers draft key ∨
      (∃ listed, draft.body.lookup key = some (.array listed) ∧
        e ∈ (listed.zipIdx.foldlM (l.resolveMember registry built draft key direction)
          (⟨[], List.nodup_nil⟩, true)).problems) ∨
      ∃ value, draft.body.lookup key = some value ∧ (∀ listed, value ≠ .array listed) ∧
        e = l.notMembers draft key := by
  unfold ruleMembers
  cases found : draft.body.lookup key with
  | none =>
    refine List.mem_singleton.trans ?_
    simp only [true_and, reduceCtorEq, false_and, exists_false, or_false]
    exact Iff.rfl
  | some value =>
    cases value with
    | array listed =>
      cases listed with
      | nil =>
        refine List.mem_singleton.trans ?_
        simp [problems_pure, emptyMembers, ruleSubject]
      | cons first rest =>
        obtain ⟨last, result⟩ : Returns ((first :: rest).zipIdx.foldlM
            (l.resolveMember registry built draft key direction) (⟨[], List.nodup_nil⟩, true)) := by
          refine (returns_foldlM (R := fun _ => True) (fun acc listed => ?_) _ _).mpr
            fun _ _ => trivial
          exact iff_of_true (l.resolveMember_returns registry built draft key direction acc listed)
            trivial
        refine (mem_bind_of_ok result).trans ?_
        simp [problems_pure]
    | _ =>
      refine List.mem_singleton.trans ?_
      simp [notMembers, ruleSubject]

variable (l) in
def onBothSides (draft : Draft) (name : Name) : ConfigError :=
  ⟨s!"{l.ruleSubject draft} lists instance {l.unicode.repr name} as both an input and " ++
    "an output, which would make the rule latch itself", some draft.origin⟩

/-- What is reported of a rule: its unknown keys, its inputs and outputs, and when these are
resolved, the names on both sides, or else the flag. -/
theorem mem_buildRule {e : ConfigError} :
    e ∈ (l.buildRule registry built draft).problems ↔
      e ∈ (l.rejectUnknownKeys draft.body draft.origin ruleKeys (l.ruleSubject draft)).problems ∨
      e ∈ (l.ruleMembers registry built draft "inputs" .input).problems ∨
      e ∈ (l.ruleMembers registry built draft "outputs" .output).problems ∨
      ∃ inputs outputs : Resolved,
        (l.ruleMembers registry built draft "inputs" .input).result = .ok (some inputs) ∧
        (l.ruleMembers registry built draft "outputs" .output).result = .ok (some outputs) ∧
        ((∃ name, name ∈ inputs.1 ∧ name ∈ outputs.1 ∧ e = l.onBothSides draft name) ∨
          (∀ name ∈ inputs.1, name ∉ outputs.1) ∧
            e ∈ (optionalBool draft.body draft.origin "enabled" (l.ruleSubject draft)
              true).problems) := by
  have keys := l.rejectUnknownKeys_gives draft.body draft.origin ruleKeys (l.ruleSubject draft)
  obtain ⟨inputs?, first⟩ := l.ruleMembers_returns registry built draft "inputs" .input
  obtain ⟨outputs?, second⟩ := l.ruleMembers_returns registry built draft "outputs" .output
  refine (mem_bind_of_ok keys.result).trans (or_congr_right ?_)
  refine (mem_bind_of_ok first).trans (or_congr_right ?_)
  refine (mem_bind_of_ok second).trans (or_congr_right ?_)
  simp only [first, second, Except.ok.injEq]
  cases inputs? with
  | none =>
    refine iff_of_false List.not_mem_nil ?_
    rintro ⟨_, _, absent, _⟩
    cases absent
  | some inputs =>
    cases outputs? with
    | none =>
      refine iff_of_false List.not_mem_nil ?_
      rintro ⟨_, _, _, absent, _⟩
      cases absent
    | some outputs =>
      have enabled := optionalBool_gives draft.body draft.origin "enabled" (l.ruleSubject draft)
        true
      have parts : (∃ others also : Resolved, some inputs = some others ∧
          some outputs = some also ∧
          ((∃ name, name ∈ others.1 ∧ name ∈ also.1 ∧ e = l.onBothSides draft name) ∨
            (∀ name ∈ others.1, name ∉ also.1) ∧
              e ∈ (optionalBool draft.body draft.origin "enabled" (l.ruleSubject draft)
                true).problems)) ↔
          ((∃ name, name ∈ inputs.1 ∧ name ∈ outputs.1 ∧ e = l.onBothSides draft name) ∨
            (∀ name ∈ inputs.1, name ∉ outputs.1) ∧
              e ∈ (optionalBool draft.body draft.origin "enabled" (l.ruleSubject draft)
                true).problems) := by
        constructor
        · rintro ⟨_, _, same, also, told⟩
          cases same
          cases also
          exact told
        · exact fun told => ⟨inputs, outputs, rfl, rfl, told⟩
      rw [parts]
      dsimp only
      by_cases apart : (inputs.1.filter (· ∈ outputs.1)).insertionSort (· ≤ ·) = []
      · have disjoint := overlap_eq_nil.mp apart
        rw [dif_pos apart]
        refine (mem_bind_of_ok enabled.result).trans ?_
        constructor
        · rintro (here | last)
          · exact .inr ⟨disjoint, here⟩
          · cases last
        · rintro (⟨name, input, output, _⟩ | ⟨_, here⟩)
          · exact absurd output (disjoint name input)
          · exact .inl here
      · rw [dif_neg apart]
        have told := problems_forM_tell (χ := Escape) (f := l.onBothSides draft)
          ((inputs.1.filter (· ∈ outputs.1)).insertionSort (· ≤ ·))
        have returned := (Gives.forM_tell (χ := Escape) (f := l.onBothSides draft)
          ((inputs.1.filter (· ∈ outputs.1)).insertionSort (· ≤ ·))).result
        refine (mem_bind_of_ok returned).trans ?_
        rw [told, List.mem_map]
        simp only [List.mem_insertionSort, List.mem_filter, decide_eq_true_eq]
        constructor
        · rintro (⟨name, ⟨input, output⟩, rfl⟩ | last)
          · exact .inl ⟨name, input, output, rfl⟩
          · cases last
        · rintro (⟨name, input, output, rfl⟩ | ⟨disjoint, _⟩)
          · exact .inl ⟨name, ⟨input, output⟩, rfl⟩
          · exact absurd (overlap_eq_nil.mpr disjoint) apart

/- The whole report. -/

theorem path_of_mem_partsOf {file : String} {member : String × Json} {part : Part}
    (there : part ∈ partsOf file member) : part.path = ConfigPath.key ⟨file, []⟩ member.1 := by
  unfold partsOf at there
  cases object : member.2.object? with
  | none =>
    rw [object] at there
    cases there
  | some body =>
    rw [object] at there
    dsimp only at there
    split_ifs at there
    · rw [List.mem_singleton.mp there]
      rfl
    · obtain ⟨entry, _, rfl⟩ := List.mem_map.mp there
      rfl
    · obtain ⟨entry, _, rfl⟩ := List.mem_map.mp there
      rfl
    · cases there

theorem gathered_daemon_top {documents : List Document} {body : Members} {path : ConfigPath}
    (found : (l.gathered documents).daemon = some (body, path)) : path.steps.length = 1 := by
  have step (parts : List Part) (tops : ∀ part ∈ parts, part.path.steps.length = 1) (c : Collected)
      (start : ∀ block, c.daemon = some block → block.2.steps.length = 1) :
      ∀ block, (parts.foldl l.takePart c).daemon = some block → block.2.steps.length = 1 := by
    induction parts generalizing c with
    | nil => exact start
    | cons part parts ih =>
      obtain ⟨here, later⟩ := List.forall_mem_cons.mp tops
      refine ih later _ fun block taken => ?_
      cases part with
      | daemon body path =>
        cases known : c.daemon with
        | none =>
          have first : (l.takePart c (.daemon body path)).daemon = some (body, path) := by
            simp only [takePart, known, Option.none_or]
          cases first.symm.trans taken
          exact here
        | some other =>
          have kept : (l.takePart c (.daemon body path)).daemon = some other := by
            simp only [takePart, known, Option.some_or]
          cases kept.symm.trans taken
          exact start _ known
      | named space path entry =>
        rw [daemon_takePart_named] at taken
        exact start block taken
  refine step (partsIn documents) ?_ {} (fun _ absent => by cases absent) (body, path) found
  intro part member
  obtain ⟨document, _, there⟩ := List.mem_flatMap.mp member
  obtain ⟨entry, _, there⟩ := List.mem_flatMap.mp there
  rw [path_of_mem_partsOf there]
  rfl

variable (l) in
/-- The load of these documents fails, and this is among what it reports. -/
def Told (directory : String) (documents : List Document) (e : ConfigError) : Prop :=
  ∃ errors, l.load directory (some (parsed documents)) = .error (.configurationError errors) ∧
    e ∈ errors

theorem mem_configurationError {checked : Checked LoadedConfiguration} {e : ConfigError} :
    (∃ errors, concluded checked = .error (.configurationError errors) ∧ e ∈ errors) ↔
      Returns checked ∧ e ∈ checked.problems := by
  obtain ⟨result, problems⟩ := checked
  cases result with
  | error raised =>
    refine iff_of_false ?_ ?_
    · rintro ⟨errors, same, _⟩
      cases same
    · rintro ⟨⟨c, same⟩, _⟩
      cases same
  | ok c =>
    cases problems with
    | nil =>
      refine iff_of_false ?_ fun both => List.not_mem_nil both.2
      rintro ⟨errors, same, _⟩
      cases same
    | cons first rest =>
      constructor
      · rintro ⟨errors, same, member⟩
        cases same
        exact ⟨⟨c, rfl⟩, (List.mem_insertionSort _).mp member⟩
      · rintro ⟨_, member⟩
        exact ⟨_, rfl, (List.mem_insertionSort _).mpr member⟩

variable (l) in
/-- What is reported before the instances: no file, or what the merging and the daemon block
have. -/
def earlyProblems (directory : String) (documents : List Document) : List ConfigError :=
  (readFiles directory (some (parsed documents))).problems ++
    ((parsed documents).foldlM l.collectFile {}).problems ++
      (l.buildDaemon (l.gathered documents).daemon).problems

/-- What is reported, pass by pass. -/
theorem told_iff {directory : String} {documents : List Document} {e : ConfigError} :
    l.Told directory documents e ↔ l.Manageable documents ∧
      (e ∈ l.earlyProblems directory documents ∨
        (∃ draft ∈ (l.gathered documents).instanceDrafts, e ∈ (l.buildInstance draft).problems) ∨
        ∃ draft ∈ (l.gathered documents).ruleDrafts,
          e ∈ (l.buildRule (l.gathered documents).registry
            (l.builtFrom (l.gathered documents).instanceDrafts) draft).problems) := by
  have read : ∀ file ∈ parsed documents, Returns file.2 :=
    List.forall_mem_map.mpr fun document _ => returns_pure _
  have returns : Returns (l.check directory (some (parsed documents))) ↔
      (∀ file ∈ parsed documents, Returns file.2) ∧
        l.Manageable (documentsOf (parsed documents)) := check_returns
  rw [documentsOf_parsed] at returns
  rw [Told, load, mem_configurationError, returns, and_iff_right read, earlyProblems,
    List.mem_append, List.mem_append, or_assoc, or_assoc]
  refine and_congr_right fun manageable => ?_
  obtain ⟨daemons, instances⟩ := manageable_iff.mp manageable
  have listed : (readFiles directory (some (parsed documents))).result = .ok (parsed documents) := by
    cases parsed documents <;> rfl
  have collecting := (collectFiles_gives (l := l) read).result
  rw [documentsOf_parsed] at collecting
  have shallow := buildInstances_returns.mp instances
  have building := (buildInstances_gives shallow).result
  obtain ⟨settings, daemon⟩ := daemons
  obtain ⟨rules, ruling⟩ := l.buildRules_returns (l.gathered documents).registry
    (l.builtFrom (l.gathered documents).instanceDrafts) (l.gathered documents).ruleDrafts
  refine (mem_bind_of_ok listed).trans (or_congr_right ?_)
  refine (mem_bind_of_ok collecting).trans (or_congr_right ?_)
  refine (mem_bind_of_ok daemon).trans (or_congr_right ?_)
  refine (mem_bind_of_ok building).trans (or_congr ?_ ?_)
  · have each (built : BuiltInstances) (draft : Draft)
        (member : draft ∈ (l.gathered documents).instanceDrafts) :
        (l.buildOne built draft).problems = (l.buildInstance draft).problems := by
      refine (problems_bind_of_ok (buildInstance_gives (shallow draft member)).result).trans ?_
      cases l.instanceOf draft <;> exact List.append_nil _
    rw [buildInstances, problems_foldlM each instances, List.mem_flatMap]
  · refine (mem_bind_of_ok ruling).trans ((or_iff_left List.not_mem_nil).trans ?_)
    have each (rules : Table LoadedRule) (draft : Draft)
        (_ : draft ∈ (l.gathered documents).ruleDrafts) :
        (l.buildOneRule (l.gathered documents).registry
          (l.builtFrom (l.gathered documents).instanceDrafts) rules draft).problems =
        (l.buildRule (l.gathered documents).registry
          (l.builtFrom (l.gathered documents).instanceDrafts) draft).problems := by
      obtain ⟨outcome, result⟩ := l.buildRule_returns (l.gathered documents).registry
        (l.builtFrom (l.gathered documents).instanceDrafts) draft
      refine (problems_bind_of_ok result).trans ?_
      cases outcome <;> exact List.append_nil _
    rw [buildRules, problems_foldlM each ⟨rules, ruling⟩, List.mem_flatMap]

theorem early_of_mem {directory : String} {documents : List Document} :
    ∀ e ∈ l.earlyProblems directory documents, Early l.unicode e := by
  intro e reported
  rw [earlyProblems, List.mem_append, List.mem_append] at reported
  rcases reported with (none | merging) | daemon
  · cases files : parsed documents with
    | nil =>
      rw [files] at none
      have quiet : l.unicode.Quiet "no *.json configuration files in " :=
        quiet_of_head 'n' (by decide) (by decide)
      cases List.mem_singleton.mp none
      exact ⟨quiet.append directory, fun _ absent => by cases absent⟩
    | cons file files' =>
      rw [files] at none
      cases none
  · exact collectFiles_early documents e merging
  · exact buildDaemon_early (fun body path found => gathered_daemon_top found) e daemon

end Loader

end NotiMapper
