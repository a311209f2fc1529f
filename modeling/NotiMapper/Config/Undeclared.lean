import NotiMapper.Config.Reported

/-! Which instances a rule is said to reference although there are none: the names it lists
that the merging made no draft of. An instance that was declared, and rejected before it
became a draft, is one of them. -/
namespace NotiMapper

open Python Report

namespace Loader

open Unicode

variable (l : Loader)

/-- A document has an entry under "instances" with this name, which is valid. -/
def Declares (documents : List Document) (n : Name) : Prop :=
  ∃ entry ∈ declared .instances documents,
    l.unicode.ValidName (normalizeName entry.1) ∧ normalizeName entry.1 = n

/-- One of the entries is an object, and its name was not taken. -/
def Drafted (documents : List Document) (n : Name) : Prop :=
  ∃ entry, l.Reached (declared .instances documents) entry ∧ normalizeName entry.1 = n

def Lists (body : Members) (n : Name) : Prop :=
  ∃ key ∈ ["inputs", "outputs"], ∃ listed, body.lookup key = some (.array listed) ∧
    ∃ text, .string text ∈ listed ∧ normalizeName text = n

/-- A rule, which is an object and whose name was not taken, lists the name. -/
def ListedByRule (documents : List Document) (n : Name) : Prop :=
  ∃ entry, l.Reached (declared .rules documents) entry ∧
    ∃ body, entry.2 = .object body ∧ Lists body n

variable {l} {registry : NameRegistry} {built : BuiltInstances} {draft : Draft} {key : String}
  {direction : PluginDirection}

/- An instance has nothing to say about the instances of a rule. -/

theorem buildInstance_quiet
    (shallow : ∀ plugin known, l.PluginIs draft.body plugin known → l.Shallow draft.body) :
    Reports (fun e => l.unicode.Quiet e.message) (l.buildInstance draft) := by
  have subject : l.unicode.Quiet (l.instanceSubject draft) := by
    have opening : l.unicode.Quiet "instance " := quiet_of_head 'i' (by decide) (by decide)
    exact opening.append _
  intro e reported
  rcases (mem_buildInstance shallow).mp reported with
    key | plugin | ⟨plugin, _, _, rfl⟩ | ⟨plugin, known, isKnown, flag | settings⟩
  · have keys : Reports (fun e => l.unicode.Quiet e.message) (l.rejectUnknownKeys draft.body
        draft.origin instanceKeys (l.instanceSubject draft)) :=
      rejectUnknownKeys_reports fun member _ _ =>
        (((subject.append _).append _).append _).append _
    exact keys e key
  · rcases requireString_problems plugin with ⟨_, rfl | rfl⟩
    · exact ((subject.append _).append _).append _
    · exact ((subject.append _).append _).append _
  · exact (((subject.append _).append _).append _).append _
  · obtain ⟨_, rfl⟩ := mem_optionalBool.mp flag
    exact ((subject.append _).append _).append _
  · rcases mem_buildSettings (shallow plugin known isKnown) settings with
      ⟨config, _, undefined⟩ | ⟨more, rfl⟩
    · obtain ⟨placed, _, told⟩ := List.mem_flatMap.mp undefined
      obtain ⟨name, _, rfl⟩ := List.mem_map.mp told
      have opening : l.unicode.Quiet "undefined secret " := quiet_of_head 'u' (by decide) (by decide)
      exact ((((opening.append _).append _).append _).append _).append _
    · exact subject.append more

/- A rule is said to reference an unknown instance for each such name it lists. -/

theorem quiet_subject (a b : Char) {literal : String} (start : literal.toList.take 2 = [a, b])
    (other : [a, b] ≠ [' ', 'r']) : l.unicode.Quiet (l.ruleSubject draft ++ literal) :=
  quiet_rule draft.name a b start other

/-- The only such report of an element is the one made of an unknown name. -/
theorem memberProblem_unknown {resolved : List Name} {index : Nat} {value : Json}
    {e : ConfigError} {n : Name}
    (wrong : l.MemberProblem registry built draft key direction resolved index value e)
    (reports : l.unicode.ReportsUnknown e.message n) :
    (∃ text, value = .string text ∧ normalizeName text = n) ∧ n ∉ built.instances ∧
      n ∉ built.broken := by
  cases wrong with
  | notAName other =>
    have quiet : l.unicode.Quiet (l.ruleSubject draft ++ ": \"") :=
      quiet_subject ':' ' ' (by decide) (by decide)
    exact absurd reports (((quiet.append _).append _).silent n)
  | listedTwice again =>
    have quiet : l.unicode.Quiet (l.ruleSubject draft ++ ": ") :=
      quiet_subject ':' ' ' (by decide) (by decide)
    exact absurd reports (((((quiet.append _).append _).append _).append _).silent n)
  | unknown fresh absent whole =>
    cases reports.name
    exact ⟨⟨_, rfl, rfl⟩, absent, whole⟩
  | wrongSide fresh found side =>
    have quiet : l.unicode.Quiet (l.ruleSubject draft ++ " lists ") :=
      quiet_subject ' ' 'l' (by decide) (by decide)
    exact absurd reports ((((((quiet.append _).append _).append _).append _).append _).silent n)

theorem ruleMembers_unknown {e : ConfigError} {n : Name}
    (reported : e ∈ (l.ruleMembers registry built draft key direction).problems)
    (reports : l.unicode.ReportsUnknown e.message n) :
    (∃ listed, draft.body.lookup key = some (.array listed) ∧
      ∃ text, .string text ∈ listed ∧ normalizeName text = n) ∧
        n ∉ built.instances ∧ n ∉ built.broken := by
  rcases mem_ruleMembers.mp reported with
    ⟨_, rfl⟩ | ⟨_, rfl⟩ | ⟨listed, found, member⟩ | ⟨value, _, _, rfl⟩
  · have quiet : l.unicode.Quiet (l.ruleSubject draft ++ " has no \"") :=
      quiet_subject ' ' 'h' (by decide) (by decide)
    exact absurd reports (((quiet.append _).append _).silent n)
  · have quiet : l.unicode.Quiet (l.ruleSubject draft ++ ": \"") :=
      quiet_subject ':' ' ' (by decide) (by decide)
    exact absurd reports ((((((quiet.append _).append _).append _).append _).append _).silent n)
  · have rounds : Reports (fun e => l.unicode.ReportsUnknown e.message n →
        (∃ text, .string text ∈ listed ∧ normalizeName text = n) ∧
          n ∉ built.instances ∧ n ∉ built.broken) (listed.zipIdx.foldlM
        (l.resolveMember registry built draft key direction) (⟨[], List.nodup_nil⟩, true)) := by
      refine resolveMembers_reports fun resolved _ value there index e wrong reports => ?_
      obtain ⟨⟨text, rfl, named⟩, absent⟩ := memberProblem_unknown wrong reports
      exact ⟨⟨text, there, named⟩, absent⟩
    obtain ⟨named, absent⟩ := rounds e member reports
    exact ⟨⟨listed, found, named⟩, absent⟩
  · have quiet : l.unicode.Quiet (l.ruleSubject draft ++ ": \"") :=
      quiet_subject ':' ' ' (by decide) (by decide)
    exact absurd reports (((quiet.append _).append _).silent n)

theorem buildRule_unknown {e : ConfigError} {n : Name}
    (reported : e ∈ (l.buildRule registry built draft).problems)
    (reports : l.unicode.ReportsUnknown e.message n) :
    Lists draft.body n ∧ n ∉ built.instances ∧ n ∉ built.broken := by
  rcases mem_buildRule.mp reported with
    unknown | inputs | outputs | ⟨inputs, outputs, _, _, ⟨name, _, _, rfl⟩ | ⟨_, flag⟩⟩
  · have keys : Reports (fun e => l.unicode.Quiet e.message) (l.rejectUnknownKeys draft.body
        draft.origin ruleKeys (l.ruleSubject draft)) := by
      refine rejectUnknownKeys_reports fun member _ _ => ?_
      have quiet : l.unicode.Quiet (l.ruleSubject draft ++ ": unknown key ") :=
        quiet_subject ':' ' ' (by decide) (by decide)
      exact ((quiet.append _).append _).append _
    exact absurd reports ((keys e unknown).silent n)
  · obtain ⟨⟨listed, found, named⟩, absent⟩ := ruleMembers_unknown inputs reports
    exact ⟨⟨"inputs", by simp, listed, found, named⟩, absent⟩
  · obtain ⟨⟨listed, found, named⟩, absent⟩ := ruleMembers_unknown outputs reports
    exact ⟨⟨"outputs", by simp, listed, found, named⟩, absent⟩
  · have quiet : l.unicode.Quiet (l.ruleSubject draft ++ " lists instance ") :=
      quiet_subject ' ' 'l' (by decide) (by decide)
    exact absurd reports ((((quiet.append _).append _).append _).silent n)
  · obtain ⟨_, rfl⟩ := mem_optionalBool.mp flag
    have quiet : l.unicode.Quiet (l.ruleSubject draft ++ ": \"") :=
      quiet_subject ':' ' ' (by decide) (by decide)
    exact absurd reports (((quiet.append _).append _).silent n)

/-- No name that is listed escapes: its element is reported, whatever is resolved before it. -/
theorem buildRule_tells_unknown {n : Name} (lists : Lists draft.body n)
    (absent : n ∉ built.instances) (whole : n ∉ built.broken) :
    ∃ e ∈ (l.buildRule registry built draft).problems, l.unicode.ReportsUnknown e.message n := by
  obtain ⟨key, among, listed, found, text, member, rfl⟩ := lists
  obtain ⟨index, at_index⟩ := List.mem_iff_getElem?.mp member
  have there : (Json.string text, index) ∈ listed.zipIdx := List.mem_zipIdx_iff_getElem?.mpr at_index
  let e := l.unknownInstance registry draft key (normalizeName text) index
  have reports : l.unicode.ReportsUnknown e.message (normalizeName text) := ⟨draft.name, _, rfl⟩
  have told (direction : PluginDirection) :
      e ∈ (l.ruleMembers registry built draft key direction).problems := by
    refine mem_ruleMembers.mpr (.inr (.inr (.inl ⟨listed, found, ?_⟩)))
    refine mem_foldlM (I := fun acc => ∀ name ∈ acc.1.1, built.Provides direction name)
      (fun acc provided round _ next result => (resolveMember_keeps result).2 provided)
      (List.forall_mem_nil _) ?_ there ?_
    · refine (returns_foldlM (R := fun _ => True) (fun acc listed => ?_) _ _).mpr
        fun _ _ => trivial
      exact iff_of_true (l.resolveMember_returns registry built draft key direction acc listed)
        trivial
    · intro acc provided
      refine mem_resolveMember.mpr (.unknown (fun resolved => ?_) absent whole)
      obtain ⟨configured, lookup, _⟩ := provided _ resolved
      exact absent (AList.lookup_isSome.mp (Option.isSome_iff_exists.mpr ⟨configured, lookup⟩))
  refine ⟨e, mem_buildRule.mpr ?_, reports⟩
  rcases List.mem_cons.mp among with rfl | second
  · exact .inr (.inl (told .input))
  · cases List.mem_singleton.mp second
    exact .inr (.inr (.inl (told .output)))

theorem built_or_broken {documents : List Document} {n : Name} :
    n ∈ (l.builtFrom (l.gathered documents).instanceDrafts).instances ∨
        n ∈ (l.builtFrom (l.gathered documents).instanceDrafts).broken ↔
      l.Drafted documents n := by
  have nodup := gathered_nodup (l := l) documents .instances
  have drafted := exists_draft (l := l) documents .instances fun name _ => name = n
  have entries : (∃ entry, l.Reached (declared .instances documents) entry ∧
      ∃ body, entry.2 = .object body ∧ normalizeName entry.1 = n) ↔ l.Drafted documents n := by
    constructor
    · rintro ⟨entry, reached, _, _, named⟩
      exact ⟨entry, reached, named⟩
    · rintro ⟨entry, reached, named⟩
      obtain ⟨body, object⟩ := reached.1.2
      exact ⟨entry, reached, body, object, named⟩
  rw [← entries, ← drafted, mem_broken_builtFrom]
  constructor
  · rintro (member | ⟨draft, member, named, _⟩)
    · obtain ⟨configured, found⟩ := Option.isSome_iff_exists.mp (AList.lookup_isSome.mpr member)
      obtain ⟨draft, there, named, _⟩ := (lookup_builtFrom nodup).mp found
      exact ⟨draft, there, named⟩
    · exact ⟨draft, member, named⟩
  · rintro ⟨draft, member, named⟩
    cases made : l.instanceOf draft with
    | none => exact .inr ⟨draft, member, named, made⟩
    | some configured =>
      have found := (lookup_builtFrom nodup).mpr ⟨draft, member, named, made⟩
      exact .inl (AList.lookup_isSome.mp (Option.isSome_iff_exists.mpr ⟨configured, found⟩))

/-- The names that are told to be unknown: a rule lists them, and no draft has them. -/
theorem told_unknown_iff {directory : String} {documents : List Document} {n : Name} :
    (∃ e, l.Told directory documents e ∧ l.unicode.ReportsUnknown e.message n) ↔
      l.Manageable documents ∧ l.ListedByRule documents n ∧ ¬ l.Drafted documents n := by
  have lists := exists_draft (l := l) documents .rules fun _ body => Lists body n
  rw [ListedByRule, ← lists, ← built_or_broken, not_or]
  constructor
  · rintro ⟨e, told, reports⟩
    obtain ⟨manageable, stages⟩ := told_iff.mp told
    have shallow := buildInstances_returns.mp (manageable_iff.mp manageable).2
    refine ⟨manageable, ?_⟩
    rcases stages with early | ⟨draft, member, here⟩ | ⟨draft, member, here⟩
    · exact absurd reports ((early_of_mem e early).quiet.silent n)
    · exact absurd reports ((buildInstance_quiet (shallow draft member) e here).silent n)
    · obtain ⟨listed, absent⟩ := buildRule_unknown here reports
      exact ⟨⟨draft, member, listed⟩, absent⟩
  · rintro ⟨manageable, ⟨draft, member, listed⟩, absent, whole⟩
    obtain ⟨e, here, reports⟩ : ∃ e ∈ (l.buildRule (l.gathered documents).registry
        (l.builtFrom (l.gathered documents).instanceDrafts) draft).problems,
        l.unicode.ReportsUnknown e.message n := buildRule_tells_unknown listed absent whole
    exact ⟨e, told_iff.mpr ⟨manageable, .inr (.inr ⟨draft, member, here⟩)⟩, reports⟩

/-- No declared instance is told to be unknown, exactly when each declared name that a rule
lists is that of a draft. -/
theorem declared_known_iff (directory : String) (documents : List Document) :
    (∀ e, l.Told directory documents e → ∀ n, l.unicode.ReportsUnknown e.message n →
        ¬ l.Declares documents n) ↔
      (l.Manageable documents → ∀ n, l.ListedByRule documents n → l.Declares documents n →
        l.Drafted documents n) := by
  constructor
  · intro known manageable n listed declares
    by_contra absent
    obtain ⟨e, told, reports⟩ := told_unknown_iff.mpr ⟨manageable, listed, absent⟩
    exact known e told n reports declares
  · intro drafted e told n reports declares
    obtain ⟨manageable, listed, absent⟩ := told_unknown_iff.mp ⟨e, told, reports⟩
    exact absent (drafted manageable n listed declares)

/-- An instance that is no object, and a rule that names it. -/
def instanceNoObject : List Document :=
  [("/etc/noti-mapper.d/a.json",
    [("instances", .object [("In", .int 5),
      ("Out", .object [("plugin", .string "pagerduty_output")])]),
     ("rules", .object [("R", .object
      [("inputs", .array [.string "In"]), ("outputs", .array [.string "Out"])])])])]

theorem no_object_told_unknown :
    ¬ ∀ e, plain.Told "/etc/noti-mapper.d" instanceNoObject e →
      ∀ n, plain.unicode.ReportsUnknown e.message n → ¬ plain.Declares instanceNoObject n := by
  let e : ConfigError :=
    ⟨"rule 'R' references unknown instance 'In'" ++ ". Defined instances: Out",
      some ⟨"/etc/noti-mapper.d/a.json", ["rules", "'R'", "inputs[0]"]⟩⟩
  have returned : (plain.check "/etc/noti-mapper.d" (some (parsed instanceNoObject))).result.isOk =
      true := by decide +kernel
  have reported : e ∈
      (plain.check "/etc/noti-mapper.d" (some (parsed instanceNoObject))).problems := by
    decide +kernel
  have returns : Returns (plain.check "/etc/noti-mapper.d" (some (parsed instanceNoObject))) := by
    cases result : (plain.check "/etc/noti-mapper.d" (some (parsed instanceNoObject))).result with
    | error raised =>
      rw [result] at returned
      cases returned
    | ok c => exact ⟨c, result⟩
  have told := mem_configurationError.mpr ⟨returns, reported⟩
  have shown : plain.unicode.repr "In" = "'In'" ∧ plain.unicode.repr "R" = "'R'" := by
    decide +kernel
  have declares : plain.Declares instanceNoObject "In" := by
    refine ⟨("In", .int 5), ?_, plain.unicode.findNameProblems_nil.mp ?_, ?_⟩
    · exact List.mem_cons_self
    · decide +kernel
    · decide +kernel
  intro known
  refine known e told "In" ⟨"R", ". Defined instances: Out", ?_⟩ declares
  rw [shown.1, shown.2]
  rfl

end Loader

end NotiMapper
