import NotiMapper.Config.Building
import NotiMapper.Config.Collecting

/-! The configurations that are accepted, and what is returned for them. -/
namespace NotiMapper

open Python Report

def BuiltInstances.Provides (built : BuiltInstances) (direction : PluginDirection) (name : Name) :
    Prop := ∃ configured, built.instances.lookup name = some configured ∧
      direction ∈ configured.directions

namespace Loader

variable {l : Loader}

/- Rules. -/

/-- The names under a key of a rule: an array of strings, stripped. -/
def Listed (body : Members) (key : String) (names : List Name) : Prop :=
  ∃ texts : List String, texts ≠ [] ∧ body.lookup key = some (.array (texts.map .string)) ∧
    names = texts.map normalizeName

def MembersOk (provided : Name → Prop) (body : Members) (key : String) (names : List Name) : Prop :=
  Listed body key names ∧ names.Nodup ∧ ∀ name ∈ names, provided name

/-- `provides direction name`: there is such an instance, and it has that side. -/
def RuleOk (provides : PluginDirection → Name → Prop) (body : Members) : Prop :=
  (∀ member ∈ body, member.1 ∈ ruleKeys) ∧
    ∃ inputs outputs, MembersOk (provides .input) body "inputs" inputs ∧
      MembersOk (provides .output) body "outputs" outputs ∧ (∀ name ∈ inputs, name ∉ outputs) ∧
        BoolOrAbsent body "enabled"

variable {registry : NameRegistry} {built : BuiltInstances} {draft : Draft} {key : String}
  {direction : PluginDirection}

theorem resolveMember_eq_pure (unbroken : built.broken = []) {acc next : Resolved × Bool}
    {listed : Json × Nat} :
    l.resolveMember registry built draft key direction acc listed = pure next ↔
      ∃ text, listed.1 = .string text ∧ normalizeName text ∉ acc.1.1 ∧
        built.Provides direction (normalizeName text) ∧
          next.1.1 = acc.1.1 ++ [normalizeName text] ∧ next.2 = acc.2 := by
  obtain ⟨⟨names, nodup⟩, ok⟩ := acc
  obtain ⟨value, index⟩ := listed
  cases value with
  | string text =>
    simp only [resolveMember, Json.string.injEq, exists_eq_left', BuiltInstances.Provides]
    by_cases listed : normalizeName text ∈ names
    · simp only [dif_pos listed, problem, tell_bind_ne, listed, not_true, false_and]
    · simp only [listed, not_false_eq_true, true_and]
      cases built.instances.lookup (normalizeName text) with
      | none =>
        simp [unbroken, problem]
      | some configured =>
        by_cases side : direction ∈ configured.directions
        · have grown (more : (names ++ [normalizeName text]).Nodup) : next = (⟨_, more⟩, ok) ↔
              next.1.1 = names ++ [normalizeName text] ∧ next.2 = ok := by
            rw [Prod.ext_iff, Subtype.ext_iff]
          simp [side, eq_comm (b := next), grown]
        · simp [side, problem]
  | _ => simp [resolveMember, problem]

theorem resolveMembers_eq_pure (unbroken : built.broken = []) {listed : List Json} {index : Nat}
    {acc last : Resolved × Bool} :
    (listed.zipIdx index).foldlM (l.resolveMember registry built draft key direction) acc =
        pure last ↔
      ∃ texts : List String, listed = texts.map .string ∧
        (∀ text ∈ texts, built.Provides direction (normalizeName text)) ∧
          last.1.1 = acc.1.1 ++ texts.map normalizeName ∧ last.2 = acc.2 := by
  induction listed generalizing index acc with
  | nil =>
    rw [List.zipIdx_nil, List.foldlM_nil, pure_eq_pure]
    constructor
    · rintro rfl
      exact ⟨[], rfl, List.forall_mem_nil _, by simp, rfl⟩
    · rintro ⟨texts, empty, _, names, ok⟩
      cases List.map_eq_nil_iff.mp empty.symm
      rw [List.map_nil, List.append_nil] at names
      exact Prod.ext (Subtype.ext names.symm) ok.symm
  | cons value listed ih =>
    rw [List.zipIdx_cons, foldlM_cons_eq_pure]
    simp only [resolveMember_eq_pure unbroken, ih]
    constructor
    · rintro ⟨next, ⟨text, rfl, _, provided, names, ok⟩, texts, rfl, others, last, same⟩
      refine ⟨text :: texts, rfl, List.forall_mem_cons.mpr ⟨provided, others⟩, ?_, same.trans ok⟩
      rw [last, names, List.append_assoc, List.map_cons, List.singleton_append]
    · rintro ⟨texts, same, provided, last, ok⟩
      cases texts with
      | nil => cases same
      | cons text texts =>
        rw [List.map_cons] at same last
        obtain ⟨rfl, rfl⟩ := List.cons.inj same
        obtain ⟨here, others⟩ := List.forall_mem_cons.mp provided
        have nodup : (acc.1.1 ++ normalizeName text :: texts.map normalizeName).Nodup :=
          last ▸ Subtype.prop _
        have start : (acc.1.1 ++ [normalizeName text]).Nodup := by
          refine nodup.sublist ?_
          exact List.Sublist.append_left (List.singleton_sublist.mpr List.mem_cons_self) _
        have fresh : normalizeName text ∉ acc.1.1 := fun member =>
          (List.nodup_append.mp nodup).2.2 _ member _ List.mem_cons_self rfl
        refine ⟨(⟨_, start⟩, acc.2), ⟨text, rfl, fresh, here, rfl, rfl⟩, texts, rfl, others, ?_, ok⟩
        rw [last, List.append_assoc, List.singleton_append]

theorem ruleMembers_eq_pure (unbroken : built.broken = []) {found : Option Resolved} :
    l.ruleMembers registry built draft key direction = pure found ↔
      ∃ names, found = some names ∧ MembersOk (built.Provides direction) draft.body key names.1 := by
  unfold ruleMembers MembersOk Listed
  cases listed : draft.body.lookup key with
  | none => simp [problem]
  | some value =>
    cases value with
    | array elements =>
      cases elements with
      | nil => simp [problem, eq_comm (a := ([] : List Json))]
      | cons first rest =>
        simp only [bind_eq_pure, resolveMembers_eq_pure unbroken, pure_eq_pure, List.nil_append]
        constructor
        · rintro ⟨⟨names, ok⟩, ⟨texts, same, provided, resolved, fine⟩, rfl⟩
          replace fine : ok = true := fine
          replace resolved : names.1 = texts.map normalizeName := resolved
          refine ⟨names, if_pos fine, ⟨texts, ?_, by rw [same], resolved⟩, names.2, ?_⟩
          · rintro rfl
            cases same
          · rw [resolved]
            exact List.forall_mem_map.mpr provided
        · rintro ⟨names, rfl, ⟨texts, _, same, resolved⟩, _, provided⟩
          rw [resolved, List.forall_mem_map] at provided
          exact ⟨(names, true), ⟨texts, Json.array.inj (Option.some.inj same), provided, resolved,
            rfl⟩, if_pos rfl⟩
    | _ => simp [problem]

theorem overlap_eq_nil {inputs outputs : List Name} :
    (inputs.filter (· ∈ outputs)).insertionSort (· ≤ ·) = [] ↔ ∀ name ∈ inputs, name ∉ outputs := by
  simp only [← List.length_eq_zero_iff, List.length_insertionSort]
  simp only [List.length_eq_zero_iff, List.filter_eq_nil_iff, decide_eq_true_eq]

theorem buildRule_sound (unbroken : built.broken = []) {found : Option LoadedRule}
    (passed : l.buildRule registry built draft = pure found) :
    RuleOk built.Provides draft.body ∧ ∃ rule, found = some rule ∧ rule.name = draft.name ∧
      MembersOk (built.Provides .input) draft.body "inputs" rule.inputs ∧
      MembersOk (built.Provides .output) draft.body "outputs" rule.outputs := by
  have keys := l.rejectUnknownKeys_gives draft.body draft.origin ruleKeys
    s!"rule {l.unicode.repr draft.name}"
  have enabled := optionalBool_gives draft.body draft.origin "enabled"
    s!"rule {l.unicode.repr draft.name}" true
  obtain ⟨_, listed, passed⟩ := bind_eq_pure.mp passed
  obtain ⟨inputs?, first, passed⟩ := bind_eq_pure.mp passed
  obtain ⟨outputs?, second, passed⟩ := bind_eq_pure.mp passed
  obtain ⟨inputs, rfl, inputsOk⟩ := (ruleMembers_eq_pure unbroken).mp first
  obtain ⟨outputs, rfl, outputsOk⟩ := (ruleMembers_eq_pure unbroken).mp second
  dsimp only at passed
  split at passed
  · rename_i apart
    obtain ⟨value, third, rest⟩ := bind_eq_pure.mp passed
    cases pure_eq_pure.mp rest
    have known := (keys.eq_pure.mp listed).1
    have switch := (enabled.eq_pure.mp third).1
    exact ⟨⟨known, inputs.1, outputs.1, inputsOk, outputsOk, overlap_eq_nil.mp apart, switch⟩,
      _, rfl, rfl, inputsOk, outputsOk⟩
  · rename_i shared
    obtain ⟨_, told, _⟩ := bind_eq_pure.mp passed
    exact absurd (forM_tell_eq_pure.mp told) shared

theorem buildRule_complete (registry : NameRegistry) (unbroken : built.broken = [])
    (ok : RuleOk built.Provides draft.body) :
    ∃ found, l.buildRule registry built draft = pure found := by
  obtain ⟨known, inputs, outputs, inputsOk, outputsOk, apart, switch⟩ := ok
  have keys := l.rejectUnknownKeys_gives draft.body draft.origin ruleKeys
    s!"rule {l.unicode.repr draft.name}"
  have enabled := optionalBool_gives draft.body draft.origin "enabled"
    s!"rule {l.unicode.repr draft.name}" true
  have first : l.ruleMembers registry built draft "inputs" .input = pure _ :=
    (ruleMembers_eq_pure unbroken).mpr ⟨⟨inputs, inputsOk.2.1⟩, rfl, inputsOk⟩
  have second : l.ruleMembers registry built draft "outputs" .output = pure _ :=
    (ruleMembers_eq_pure unbroken).mpr ⟨⟨outputs, outputsOk.2.1⟩, rfl, outputsOk⟩
  apply exists_bind_eq_pure.mpr
  refine ⟨(), keys.eq_pure.mpr ⟨known, rfl⟩, ?_⟩
  apply exists_bind_eq_pure.mpr
  refine ⟨_, first, ?_⟩
  apply exists_bind_eq_pure.mpr
  refine ⟨_, second, ?_⟩
  dsimp only
  rw [dif_pos (overlap_eq_nil.mpr apart)]
  apply exists_bind_eq_pure.mpr
  exact ⟨_, enabled.eq_pure.mpr ⟨switch, rfl⟩, _, rfl⟩

/-- All the drafts, and nothing else, are among the rules, with their members. -/
structure Ruled (built : BuiltInstances) (drafts : List Draft) (rules : Table LoadedRule) :
    Prop where
  ok : ∀ draft ∈ drafts, RuleOk built.Provides draft.body
  all : ∀ draft ∈ drafts, draft.name ∈ rules
  drafted : ∀ name rule, rules.lookup name = some rule →
    ∃ draft ∈ drafts, draft.name = name ∧ rule.name = name ∧
      MembersOk (built.Provides .input) draft.body "inputs" rule.inputs ∧
      MembersOk (built.Provides .output) draft.body "outputs" rule.outputs

theorem Ruled.insert {drafts : List Draft} {rules : Table LoadedRule}
    (so : Ruled built drafts rules) {rule : LoadedRule}
    (ok : RuleOk built.Provides draft.body) (named : rule.name = draft.name)
    (inputs : MembersOk (built.Provides .input) draft.body "inputs" rule.inputs)
    (outputs : MembersOk (built.Provides .output) draft.body "outputs" rule.outputs) :
    Ruled built (drafts ++ [draft]) (rules.insert rule.name rule) := by
  refine ⟨?_, ?_, ?_⟩
  · intro other member
    rcases List.mem_append.mp member with earlier | last
    · exact so.ok other earlier
    · exact List.mem_singleton.mp last ▸ ok
  · intro other member
    rw [AList.mem_insert, named]
    rcases List.mem_append.mp member with earlier | last
    · exact .inr (so.all other earlier)
    · exact .inl (List.mem_singleton.mp last ▸ rfl)
  · intro name found lookup
    by_cases same : name = rule.name
    · subst same
      cases (AList.lookup_insert _).symm.trans lookup
      exact ⟨draft, List.mem_append_right _ (List.mem_singleton_self draft), named.symm, rfl,
        inputs, outputs⟩
    · rw [AList.lookup_insert_ne same] at lookup
      obtain ⟨other, member, rest⟩ := so.drafted name found lookup
      exact ⟨other, List.mem_append_left _ member, rest⟩

theorem buildRules_sound (unbroken : built.broken = []) {drafts earlier : List Draft}
    {acc rules : Table LoadedRule} (so : Ruled built earlier acc)
    (passed : drafts.foldlM (l.buildOneRule registry built) acc = pure rules) :
    Ruled built (earlier ++ drafts) rules := by
  induction drafts generalizing earlier acc with
  | nil =>
    cases pure_eq_pure.mp passed
    rwa [List.append_nil]
  | cons draft drafts ih =>
    obtain ⟨next, step, rest⟩ := foldlM_cons_eq_pure.mp passed
    obtain ⟨found, once, grown⟩ := bind_eq_pure.mp step
    obtain ⟨ok, rule, rfl, named, inputs, outputs⟩ := buildRule_sound unbroken once
    cases pure_eq_pure.mp grown
    have whole := ih (so.insert ok named inputs outputs) rest
    rwa [List.append_assoc] at whole

theorem buildRules_complete (registry : NameRegistry) (unbroken : built.broken = [])
    {drafts : List Draft} (ok : ∀ draft ∈ drafts, RuleOk built.Provides draft.body) (acc : Table LoadedRule) :
    ∃ rules, drafts.foldlM (l.buildOneRule registry built) acc = pure rules := by
  induction drafts generalizing acc with
  | nil => exact ⟨acc, rfl⟩
  | cons draft drafts ih =>
    obtain ⟨here, later⟩ := List.forall_mem_cons.mp ok
    obtain ⟨found, once⟩ := buildRule_complete (l := l) registry unbroken here
    obtain ⟨_, rule, rfl, _⟩ := buildRule_sound unbroken once
    obtain ⟨rules, rest⟩ := ih later (acc.insert rule.name rule)
    exact ⟨rules, foldlM_cons_eq_pure.mpr ⟨_, bind_eq_pure.mpr ⟨_, once, rfl⟩, rest⟩⟩

/- The whole of it. -/

variable (l)

/-- The documents declare an instance of that name, whose plugin has that side. -/
def Offers (documents : List Document) (direction : PluginDirection) (name : Name) : Prop :=
  ∃ entry ∈ declared .instances documents, normalizeName entry.1 = name ∧
    ∃ body, entry.2 = .object body ∧
      ∃ plugin known, l.PluginIs body plugin known ∧ direction ∈ known.directions

structure WellFormed (documents : List Document) : Prop where
  members : ∀ document ∈ documents, ∀ member ∈ document.2, Known member
  oneDaemon : (blocks "daemon" documents).length ≤ 1
  daemon : ∀ body ∈ blocks "daemon" documents, DaemonOk body
  names : ∀ space, ∀ entry ∈ declared space documents, l.Declarable entry
  unique : ∀ space, ((declared space documents).map l.entryKey).Nodup
  instances : ∀ entry ∈ declared .instances documents, ∀ body, entry.2 = .object body →
    l.InstanceOk body
  rules : ∀ entry ∈ declared .rules documents, ∀ body, entry.2 = .object body →
    RuleOk (l.Offers documents) body

/-- No integer for a retry delay is beyond the floats, and no config is nested beyond
Python's limit, where they are looked at. -/
structure Manageable (documents : List Document) : Prop where
  retries : ∀ body, (blocks "daemon" documents).head? = some body → RetriesConvert body
  configs : ∀ entry, l.Reached (declared .instances documents) entry →
    ∀ body, entry.2 = .object body →
      ∀ plugin known, l.PluginIs body plugin known → l.Shallow body

/-- What is returned has what the documents declare, under stripped names. -/
structure Faithful (documents : List Document) (c : LoadedConfiguration) : Prop where
  instances : ∀ name, name ∈ c.instances ↔
    ∃ entry ∈ declared .instances documents, normalizeName entry.1 = name
  rules : ∀ name, name ∈ c.rules ↔
    ∃ entry ∈ declared .rules documents, normalizeName entry.1 = name
  stripped : ∀ name, name ∈ c.instances ∨ name ∈ c.rules → normalizeName name = name
  instanceNamed : ∀ name configured, c.instances.lookup name = some configured →
    configured.name = name
  ruleNamed : ∀ name rule, c.rules.lookup name = some rule → rule.name = name
  members : ∀ name rule, c.rules.lookup name = some rule →
    ∀ member ∈ rule.inputs ++ rule.outputs, member ∈ c.instances
  apart : ∀ name rule, c.rules.lookup name = some rule →
    ∀ member ∈ rule.inputs, member ∉ rule.outputs

variable {l}

theorem provides_iff {documents : List Document}
    (good : ∀ entry ∈ declared .instances documents, l.Declarable entry)
    (unique : ((declared .instances documents).map l.entryKey).Nodup)
    (so : Built l (l.gathered documents).instanceDrafts built) :
    built.Provides direction = l.Offers documents direction := by
  funext name
  have drafted := exists_draft (l := l) documents .instances fun n body =>
    n = name ∧ ∃ plugin known, l.PluginIs body plugin known ∧ direction ∈ known.directions
  simp only [reached_iff good unique] at drafted
  rw [eq_iff_iff]
  constructor
  · rintro ⟨configured, found, side⟩
    obtain ⟨draft, member, named, _, known, isKnown, directions⟩ := so.drafted _ _ found
    obtain ⟨entry, there, body, object, same, rest⟩ :=
      drafted.mp ⟨draft, member, named, _, known, isKnown, directions ▸ side⟩
    exact ⟨entry, there, same, body, object, rest⟩
  · rintro ⟨entry, there, same, body, object, rest⟩
    obtain ⟨draft, member, rfl, plugin, known, isKnown, side⟩ :=
      drafted.mpr ⟨entry, there, body, object, same, rest⟩
    obtain ⟨configured, found⟩ := Option.isSome_iff_exists.mp
      (AList.lookup_isSome.mpr (so.all draft member))
    obtain ⟨other, also, named, _, known', isKnown', directions⟩ := so.drafted _ _ found
    have nodup := gathered_nodup (l := l) documents .instances
    cases List.inj_on_of_nodup_map nodup also member named
    cases isKnown.1.symm.trans isKnown'.1
    cases isKnown.2.symm.trans isKnown'.2
    exact ⟨configured, found, directions ▸ side⟩

theorem rulesOk_iff {documents : List Document}
    (good : ∀ space, ∀ entry ∈ declared space documents, l.Declarable entry)
    (unique : ∀ space, ((declared space documents).map l.entryKey).Nodup)
    (so : Built l (l.gathered documents).instanceDrafts built) :
    (∀ draft ∈ (l.gathered documents).ruleDrafts, RuleOk built.Provides draft.body) ↔
      ∀ entry ∈ declared .rules documents, ∀ body, entry.2 = .object body →
        RuleOk (l.Offers documents) body := by
  have provides : built.Provides = l.Offers documents :=
    funext fun direction => provides_iff (good .instances) (unique .instances) so
  have drafted := forall_draft (l := l) documents .rules fun _ body =>
    RuleOk (l.Offers documents) body
  simp only [reached_iff (good .rules) (unique .rules)] at drafted
  rw [provides]
  exact drafted

theorem instancesOk_iff {documents : List Document}
    (good : ∀ space, ∀ entry ∈ declared space documents, l.Declarable entry)
    (unique : ∀ space, ((declared space documents).map l.entryKey).Nodup) :
    (∀ draft ∈ (l.gathered documents).instanceDrafts, l.InstanceOk draft.body) ↔
      ∀ entry ∈ declared .instances documents, ∀ body, entry.2 = .object body →
        l.InstanceOk body := by
  have drafted := forall_draft (l := l) documents .instances fun _ body => l.InstanceOk body
  simp only [reached_iff (good .instances) (unique .instances)] at drafted
  exact drafted

theorem draft_name_iff {documents : List Document} {space : Namespace} {name : Name}
    (good : ∀ space, ∀ entry ∈ declared space documents, l.Declarable entry)
    (unique : ∀ space, ((declared space documents).map l.entryKey).Nodup) :
    (∃ draft ∈ (l.gathered documents).drafts space, draft.name = name) ↔
      ∃ entry ∈ declared space documents, normalizeName entry.1 = name := by
  have drafted := exists_draft (l := l) documents space fun n _ => n = name
  simp only [reached_iff (good space) (unique space)] at drafted
  rw [drafted]
  constructor
  · rintro ⟨entry, there, _, _, named⟩
    exact ⟨entry, there, named⟩
  · rintro ⟨entry, there, named⟩
    obtain ⟨body, object⟩ := (good space entry there).2
    exact ⟨entry, there, body, object, named⟩

theorem faithful_of {documents : List Document}
    (good : ∀ space, ∀ entry ∈ declared space documents, l.Declarable entry)
    (unique : ∀ space, ((declared space documents).map l.entryKey).Nodup)
    {rules : Table LoadedRule} {files : List String} {daemon : DaemonSettings}
    (so : Built l (l.gathered documents).instanceDrafts built)
    (ruled : Ruled built (l.gathered documents).ruleDrafts rules) :
    Faithful documents ⟨built.instances, rules, files, daemon⟩ := by
  have instances (name : Name) : name ∈ built.instances ↔
      ∃ entry ∈ declared .instances documents, normalizeName entry.1 = name := by
    rw [← draft_name_iff good unique]
    constructor
    · intro member
      obtain ⟨configured, found⟩ := Option.isSome_iff_exists.mp (AList.lookup_isSome.mpr member)
      obtain ⟨draft, there, named, _⟩ := so.drafted _ _ found
      exact ⟨draft, there, named⟩
    · rintro ⟨draft, there, rfl⟩
      exact so.all draft there
  have members (name : Name) : name ∈ rules ↔
      ∃ entry ∈ declared .rules documents, normalizeName entry.1 = name := by
    rw [← draft_name_iff good unique]
    constructor
    · intro member
      obtain ⟨rule, found⟩ := Option.isSome_iff_exists.mp (AList.lookup_isSome.mpr member)
      obtain ⟨draft, there, named, _⟩ := ruled.drafted _ _ found
      exact ⟨draft, there, named⟩
    · rintro ⟨draft, there, rfl⟩
      exact ruled.all draft there
  refine ⟨instances, members, ?_, ?_, ?_, ?_, fun _ rule _ => rule.disjoint⟩
  · rintro name (member | member)
    · obtain ⟨entry, _, rfl⟩ := (instances name).mp member
      exact normalizeName_idem entry.1
    · obtain ⟨entry, _, rfl⟩ := (members name).mp member
      exact normalizeName_idem entry.1
  · intro name configured found
    obtain ⟨_, _, _, named, _⟩ := so.drafted _ _ found
    exact named
  · intro name rule found
    obtain ⟨_, _, _, named, _⟩ := ruled.drafted _ _ found
    exact named
  · intro name rule found member listed
    obtain ⟨_, _, _, _, inputs, outputs⟩ := ruled.drafted _ _ found
    have provided : ∃ direction, built.Provides direction member :=
      (List.mem_append.mp listed).elim (fun input => ⟨_, inputs.2.2 member input⟩)
        (fun output => ⟨_, outputs.2.2 member output⟩)
    obtain ⟨_, configured, lookup, _⟩ := provided
    exact AList.lookup_isSome.mp (Option.isSome_iff_exists.mpr ⟨configured, lookup⟩)

variable {directory : String}

theorem check_files {files : List ParsedFile} (some : files ≠ []) :
    l.check directory (.some files) = do
      let collected ← files.foldlM l.collectFile {}
      let daemon ← l.buildDaemon collected.daemon
      let built ← l.buildInstances collected.instanceDrafts
      let rules ← l.buildRules collected.registry built collected.ruleDrafts
      return ⟨built.instances, rules, files.map (·.1), daemon⟩ := by
  cases files with
  | nil => exact absurd rfl some
  | cons file files => rfl

theorem knownMembers_iff {files : List ParsedFile} :
    (∀ file ∈ files, file.2.problems = [] ∧
        ∀ document ∈ documentIn file, ∀ member ∈ document.2, Known member) ↔
      (∀ file ∈ files, file.2.problems = []) ∧
        ∀ document ∈ documentsOf files, ∀ member ∈ document.2, Known member := by
  simp only [documentsOf, List.mem_filterMap]
  constructor
  · intro all
    refine ⟨fun file member => (all file member).1, ?_⟩
    rintro document ⟨file, member, held⟩
    exact (all file member).2 document held
  · rintro ⟨silent, known⟩ file member
    exact ⟨silent file member, fun document held => known document ⟨file, member, held⟩⟩

/-- The load, once what it can meet is manageable: each stage passes on a condition of its
own, and the last of them goes on from what the others leave. -/
theorem check_eq_pure {files : List ParsedFile} (some : files ≠ [])
    (read : ∀ file ∈ files, Returns file.2) (manageable : l.Manageable (documentsOf files)) :
    ∃ settings, ∀ c, l.check directory (.some files) = pure c ↔
        (((∀ file ∈ files, file.2.problems = []) ∧
          ∀ document ∈ documentsOf files, ∀ member ∈ document.2, Known member) ∧
          (blocks "daemon" (documentsOf files)).length ≤ 1 ∧
          ∀ space, (∀ entry ∈ declared space (documentsOf files), l.Declarable entry) ∧
            ((declared space (documentsOf files)).map l.entryKey).Nodup) ∧
        (∀ body, (blocks "daemon" (documentsOf files)).head? = .some body → DaemonOk body) ∧
        (∀ draft ∈ (l.gathered (documentsOf files)).instanceDrafts, l.InstanceOk draft.body) ∧
        ∃ rules, l.buildRules (l.gathered (documentsOf files)).registry
            (l.builtFrom (l.gathered (documentsOf files)).instanceDrafts)
            (l.gathered (documentsOf files)).ruleDrafts = pure rules ∧
          c = ⟨(l.builtFrom (l.gathered (documentsOf files)).instanceDrafts).instances, rules,
            files.map (·.1), settings⟩ := by
  have collecting := collectFiles_gives (l := l) read
  rw [along_gathered, knownMembers_iff] at collecting
  generalize documentsOf files = documents at *
  have retries : ∀ body, (l.gathered documents).daemon.map (·.1) = .some body →
      RetriesConvert body := by
    rw [gathered_daemon]
    exact manageable.retries
  have configs : ∀ draft ∈ (l.gathered documents).instanceDrafts,
      ∀ plugin known, l.PluginIs draft.body plugin known → l.Shallow draft.body :=
    (forall_draft documents .instances fun _ body =>
      ∀ plugin known, l.PluginIs body plugin known → l.Shallow body).mpr manageable.configs
  obtain ⟨settings, daemonGiven⟩ := buildDaemon_gives (l := l) retries
  rw [gathered_daemon] at daemonGiven
  have builtGiven := buildInstances_gives configs
  refine ⟨settings, fun c => ?_⟩
  rw [check_files some]
  rw [collecting.bind_eq_pure, daemonGiven.bind_eq_pure, builtGiven.bind_eq_pure, bind_eq_pure]
  refine and_congr Iff.rfl (and_congr Iff.rfl (and_congr Iff.rfl (exists_congr fun rules => ?_)))
  rw [pure_eq_pure, eq_comm (a := c)]

theorem daemonOk_iff {documents : List Document}
    (one : (blocks "daemon" documents).length ≤ 1) :
    (∀ body, (blocks "daemon" documents).head? = .some body → DaemonOk body) ↔
      ∀ body ∈ blocks "daemon" documents, DaemonOk body := by
  generalize blocks "daemon" documents = bodies at *
  match bodies, one with
  | [], _ => simp
  | [body], _ => simp

theorem check_sound {files : List ParsedFile} (some : files ≠ [])
    (read : ∀ file ∈ files, Returns file.2) (manageable : l.Manageable (documentsOf files))
    {c : LoadedConfiguration} (passed : l.check directory (.some files) = pure c) :
    l.WellFormed (documentsOf files) ∧ Faithful (documentsOf files) c := by
  obtain ⟨settings, stages⟩ := check_eq_pure some read manageable
  obtain ⟨⟨⟨_, known⟩, one, entries⟩, daemonOk, instancesOk, rules, last, rfl⟩ :=
    (stages c).mp passed
  have whole := built_builtFrom (gathered_nodup _ .instances) instancesOk
  have good (space : Namespace) := (entries space).1
  have unique (space : Namespace) := (entries space).2
  have start : Ruled (l.builtFrom (l.gathered (documentsOf files)).instanceDrafts) [] ∅ :=
    ⟨List.forall_mem_nil _, List.forall_mem_nil _, fun _ _ absent => nomatch absent⟩
  have ruled := buildRules_sound whole.broken start last
  refine ⟨⟨known, one, (daemonOk_iff one).mp daemonOk, good, unique, ?_, ?_⟩,
    faithful_of good unique whole ruled⟩
  · exact (instancesOk_iff good unique).mp instancesOk
  · exact (rulesOk_iff good unique whole).mp ruled.ok

theorem check_complete {files : List ParsedFile} (some : files ≠ [])
    (read : ∀ file ∈ files, Returns file.2) (manageable : l.Manageable (documentsOf files))
    (silent : ∀ file ∈ files, file.2.problems = []) (fine : l.WellFormed (documentsOf files)) :
    ∃ c, l.check directory (.some files) = pure c := by
  obtain ⟨settings, stages⟩ := check_eq_pure some read manageable
  have instancesOk := (instancesOk_iff fine.names fine.unique).mpr fine.instances
  have whole := built_builtFrom (gathered_nodup _ .instances) instancesOk
  have rulesOk := (rulesOk_iff fine.names fine.unique whole).mpr fine.rules
  obtain ⟨rules, last⟩ := buildRules_complete (l := l)
    (l.gathered (documentsOf files)).registry whole.broken rulesOk ∅
  have entries (space : Namespace) := And.intro (fine.names space) (fine.unique space)
  exact ⟨_, (stages _).mpr ⟨⟨⟨silent, fine.members⟩, fine.oneDaemon, entries⟩,
    (daemonOk_iff fine.oneDaemon).mpr fine.daemon, instancesOk, rules, last, rfl⟩⟩

/-- Documents that were parsed, as files. -/
def parsed (documents : List Document) : List ParsedFile :=
  documents.map fun document => (document.1, pure (some document.2))

theorem documentsOf_parsed (documents : List Document) :
    documentsOf (parsed documents) = documents := by
  rw [documentsOf, parsed, List.filterMap_map]
  exact List.filterMap_some

/-- A loader with one plugin of each side, and one secret. -/
def plain : Loader where
  unicode :=
    { isAlnum := Char.isAlphanum
      isPrintable := fun _ => true
      name := fun _ => none
      nfc := id
      casefold := fun text => String.ofList (text.toList.map Char.toLower) }
  secrets := ⟨"/etc/noti-mapper/secrets.json", (∅ : Table String).insert "user" "porch"⟩
  knownPlugins := ((∅ : Table KnownPlugin).insert "file_input" { directions := [.input] }).insert
    "pagerduty_output" { directions := [.output] }
  frames := 900

def smallConfiguration : List Document :=
  [("/etc/noti-mapper.d/a.json",
    [("instances", .object
      [(" Door ", .object [("plugin", .string "file_input"),
        ("config", .object [("path", .string "/home/$\x7bsecret:user\x7d/door")])]),
       ("Pager", .object [("plugin", .string "pagerduty_output")])])]),
   ("/etc/noti-mapper.d/b.json",
    [("rules", .object [("Porch", .object
      [("inputs", .array [.string "Door"]), ("outputs", .array [.string "Pager"])])])])]

/-- One daemon block, whose delay no float is as large as. -/
def longDelay : List Document :=
  [("/etc/noti-mapper.d/a.json",
    [("daemon", .object [("retry_max_seconds", .int floatLimit)])])]

theorem one_delay_wellFormed {delay : Int} (positive : 0 < delay) :
    plain.WellFormed [("/etc/noti-mapper.d/a.json",
      [("daemon", .object [("retry_max_seconds", .int delay)])])] := by
  generalize documents_eq : [("/etc/noti-mapper.d/a.json",
    [("daemon", Json.object [("retry_max_seconds", .int delay)])])] = documents
  have bodies : blocks "daemon" documents = [[("retry_max_seconds", .int delay)]] := by
    subst documents_eq
    rfl
  have none_declared (space : Namespace) : declared space documents = [] := by
    subst documents_eq
    cases space <;> rfl
  constructor
  · subst documents_eq
    simp [Known, topLevelKeys]
  · rw [bodies]
    exact Nat.le_refl 1
  · rw [bodies]
    intro body only
    cases List.mem_singleton.mp only
    constructor <;> simp [daemonKeys, PositiveInt, PositiveNumber, List.lookup_cons, positive]
  all_goals simp [none_declared]

end Loader

end NotiMapper
