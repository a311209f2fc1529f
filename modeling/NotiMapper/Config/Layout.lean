import NotiMapper.Library.Effect
import NotiMapper.Library.KeyOrder
import NotiMapper.Config.Outcome
import NotiMapper.Plugins.Construction

/-! Layouts. The same definitions can be spread over files in many ways: in other files,
in another order, and with the keys of every object in another order. The files are merged
in order, but a merge of the same definitions is accepted or rejected whatever the order,
and what is returned is the same but for the origins. -/
namespace NotiMapper

open Python Report

def sortedEntry (entry : String × Json) : String × Json := (entry.1, entry.2.sorted)

/-- Two layouts of the same definitions, in files that have nothing else. -/
structure SameDefinitions (first second : List Document) : Prop where
  known : ∀ document ∈ first ++ second, ∀ member ∈ document.2, Loader.Known member
  daemon : ((blocks "daemon" first).map sortedMembers).Perm
    ((blocks "daemon" second).map sortedMembers)
  named : ∀ space,
    ((declared space first).map sortedEntry).Perm ((declared space second).map sortedEntry)

/-- The instance, but for its origin and the order of the keys in its settings. -/
def LoadedInstance.bare (configured : LoadedInstance) : LoadedInstance :=
  { configured with settings := sortedMembers configured.settings, origin := ⟨"", []⟩ }

def LoadedRule.bare (rule : LoadedRule) : LoadedRule := { rule with origin := ⟨"", []⟩ }

namespace LoadedConfiguration

def enabledInstances (c : LoadedConfiguration) : List LoadedInstance :=
  ((c.instances.entries.map (·.2)).filter (·.enabled)).insertionSort fun a b => a.name ≤ b.name

def enabledRules (c : LoadedConfiguration) : List LoadedRule :=
  ((c.rules.entries.map (·.2)).filter (·.enabled)).insertionSort fun a b => a.name ≤ b.name

/-- The configuration that the daemon runs on; `render` writes settings whose keys are in
order. -/
def running (render : Members → Settings) (c : LoadedConfiguration) : Configuration where
  instances := c.instances.entries.map fun entry =>
    ⟨entry.1, entry.2.plugin, entry.2.enabled, render (sortedMembers entry.2.settings)⟩
  rules := c.rules.entries.map fun entry =>
    ⟨entry.1, entry.2.inputs, entry.2.outputs, entry.2.enabled, entry.2.inputs_nodup,
      entry.2.outputs_nodup⟩
  daemon := c.daemon
  instances_nodup := by
    rw [List.map_map]
    exact c.instances.nodupKeys
  rules_nodup := by
    rw [List.map_map]
    exact c.rules.nodupKeys

/-- The same but for origins, and for the order of keys in settings. -/
structure Same (c d : LoadedConfiguration) : Prop where
  instances : ∀ name, (c.instances.lookup name).map LoadedInstance.bare =
    (d.instances.lookup name).map LoadedInstance.bare
  rules : ∀ name, (c.rules.lookup name).map LoadedRule.bare = (d.rules.lookup name).map LoadedRule.bare
  daemon : c.daemon = d.daemon
  enabledInstances : c.enabledInstances.map LoadedInstance.bare =
    d.enabledInstances.map LoadedInstance.bare
  enabledRules : c.enabledRules.map LoadedRule.bare = d.enabledRules.map LoadedRule.bare
  graph : ∀ render, RuleGraph.fromConfiguration (c.running render) =
    RuleGraph.fromConfiguration (d.running render)

end LoadedConfiguration

/- Spreading. -/

section Spread

variable {α β : Type} {f : α → β} {first second : List α} {P : α → Prop}

theorem exists_spread (perm : (first.map f).Perm (second.map f))
    (kept : ∀ x y, f x = f y → P x → P y) : (∃ x ∈ first, P x) → ∃ y ∈ second, P y := by
  rintro ⟨x, member, holds⟩
  obtain ⟨y, there, same⟩ := List.mem_map.mp (perm.mem_iff.mp (List.mem_map_of_mem member))
  exact ⟨y, there, kept x y same.symm holds⟩

theorem forall_spread (perm : (first.map f).Perm (second.map f))
    (kept : ∀ x y, f x = f y → P x → P y) (all : ∀ x ∈ first, P x) : ∀ y ∈ second, P y := by
  intro y member
  obtain ⟨x, there, same⟩ := List.mem_map.mp (perm.mem_iff.mpr (List.mem_map_of_mem member))
  exact kept x y same (all x there)

/-- Of at most one, the first is the same. -/
theorem head?_spread (perm : (first.map f).Perm (second.map f)) (one : first.length ≤ 1) :
    first.head?.map f = second.head?.map f := by
  match first, one with
  | [], _ =>
    have none : second = [] := List.map_eq_nil_iff.mp (List.nil_perm.mp perm)
    rw [none]
  | [x], _ =>
    have only : [f x] = second.map f := List.singleton_perm.mp perm
    have head : (second.map f).head? = some (f x) := by rw [← only, List.head?_cons]
    rw [List.head?_map] at head
    exact head.symm

end Spread

theorem map_eq_of_both {α β : Type} {f : α → β} {o p : Option α}
    (there : ∀ x, o = some x → ∃ y, p = some y ∧ f y = f x)
    (back : ∀ y, p = some y → ∃ x, o = some x ∧ f x = f y) : o.map f = p.map f := by
  cases o with
  | some x =>
    obtain ⟨y, rfl, same⟩ := there x rfl
    exact congrArg some same.symm
  | none =>
    cases p with
    | none => rfl
    | some y =>
      obtain ⟨x, absent, _⟩ := back y rfl
      cases absent

/-- What is found under every name determines the entries, but for their order. -/
theorem entries_perm {α β : Type} {f : α → β} {c d : Table α}
    (same : ∀ name, (c.lookup name).map f = (d.lookup name).map f) :
    (c.entries.map fun entry => (entry.1, f entry.2)).Perm
      (d.entries.map fun entry => (entry.1, f entry.2)) := by
  have nodup (t : Table α) : (t.entries.map fun entry => (entry.1, f entry.2)).Nodup := by
    refine List.Nodup.of_map Prod.fst ?_
    rw [List.map_map]
    exact t.nodupKeys
  have found (t : Table α) (x : Name × β) :
      x ∈ t.entries.map (fun entry => (entry.1, f entry.2)) ↔ (t.lookup x.1).map f = some x.2 := by
    rw [List.mem_map, Option.map_eq_some_iff]
    constructor
    · rintro ⟨entry, member, rfl⟩
      exact ⟨entry.2, AList.mem_lookup_iff.mpr member, rfl⟩
    · rintro ⟨value, there, equal⟩
      exact ⟨⟨x.1, value⟩, AList.mem_lookup_iff.mp there, Prod.ext rfl equal⟩
  refine (List.perm_ext_iff_of_nodup (nodup c) (nodup d)).mpr fun x => ?_
  rw [found, found, same]

theorem entry_name {x y : String × Json} (same : sortedEntry x = sortedEntry y) : x.1 = y.1 :=
  (Prod.ext_iff.mp same).1

theorem entry_object {x y : String × Json} {body : Members} (same : sortedEntry x = sortedEntry y)
    (object : y.2 = .object body) : ∃ other, x.2 = .object other ∧ Alike other body := by
  have values : x.2.sorted = y.2.sorted := congrArg Prod.snd same
  rw [object, Json.sorted_object] at values
  cases known : x.2 with
  | object other =>
    rw [known, Json.sorted_object, Json.object.injEq] at values
    exact ⟨other, rfl, values⟩
  | _ =>
    rw [known] at values
    simp [Json.sorted] at values

theorem SameDefinitions.symm {first second : List Document} (same : SameDefinitions first second) :
    SameDefinitions second first where
  known := fun document member => same.known document (by
    rw [List.mem_append] at member ⊢
    exact member.symm)
  daemon := same.daemon.symm
  named := fun space => (same.named space).symm

namespace Loader

variable {l : Loader} {a b : Members}

/- A body, with its keys in another order. -/

theorem DaemonOk.alike (alike : Alike a b) (ok : DaemonOk a) : DaemonOk b := by
  have positiveInt {key : String} (positive : PositiveInt a key) : PositiveInt b key := by
    intro value found
    obtain ⟨other, there, same⟩ := alike.symm.found found
    obtain ⟨n, rfl, above⟩ := positive other there
    exact ⟨n, Json.sorted_eq_int.mp same.symm, above⟩
  have positiveNumber {key : String} (positive : PositiveNumber a key) : PositiveNumber b key := by
    intro value found
    obtain ⟨other, there, same⟩ := alike.symm.found found
    rcases positive other there with ⟨n, rfl, above⟩ | ⟨f, rfl, above⟩
    · exact .inl ⟨n, Json.sorted_eq_int.mp same.symm, above⟩
    · exact .inr ⟨f, Json.sorted_eq_float.mp same.symm, above⟩
  exact ⟨alike.keys_iff.mp ok.keys, positiveInt ok.eventLogMaxRows,
    positiveInt ok.dispatcherThreads, positiveNumber ok.retryInitialSeconds,
    positiveNumber ok.retryMaxSeconds⟩

theorem RetriesConvert.alike (alike : Alike a b) (converts : RetriesConvert a) :
    RetriesConvert b := by
  have each {key : String} (below : Converts a key) : Converts b key := by
    intro n found
    exact below n ((alike.plain_iff fun _ => Json.sorted_eq_int).mpr found)
  exact ⟨each converts.1, each converts.2⟩

theorem PluginIs.alike {plugin : String} {known : KnownPlugin} (alike : Alike a b)
    (isKnown : l.PluginIs a plugin known) : l.PluginIs b plugin known :=
  ⟨alike.string_iff.mp isKnown.1, isKnown.2⟩

theorem BoolOrAbsent.alike {key : String} (alike : Alike a b) (flag : BoolOrAbsent a key) :
    BoolOrAbsent b key := by
  intro value found
  obtain ⟨other, there, same⟩ := alike.symm.found found
  obtain ⟨flag, rfl⟩ := flag other there
  exact ⟨flag, Json.sorted_eq_bool.mp same.symm⟩

theorem ConfigOf.alike {config : Members} (alike : Alike a b) (held : ConfigOf a config) :
    ∃ other, ConfigOf b other ∧ Alike config other := by
  rcases held with ⟨absent, rfl⟩ | present
  · exact ⟨[], .inl ⟨alike.absent_iff.mp absent, rfl⟩, rfl⟩
  · obtain ⟨other, there, same⟩ := alike.object present
    exact ⟨other, .inr there, same⟩

theorem Shallow.alike (alike : Alike a b) (shallow : l.Shallow a) : l.Shallow b := by
  intro config found
  obtain ⟨other, there, same⟩ := alike.symm.object found
  exact same.calls_eq ▸ shallow other there

theorem expandedMembers_eq_map (members : Members) :
    l.expandedMembers members = members.map fun member => (member.1, l.expanded member.2) := by
  induction members with
  | nil => rfl
  | cons member members ih => rw [expandedMembers, ih, List.map_cons]

theorem expandedMembers_insertionSort (members : Members) :
    l.expandedMembers (members.insertionSort fun a b => a.1 ≤ b.1) =
      (l.expandedMembers members).insertionSort fun a b => a.1 ≤ b.1 := by
  rw [expandedMembers_eq_map, expandedMembers_eq_map]
  exact List.map_insertionSort _ _ _ _ fun _ _ _ _ => Iff.rfl

mutual

theorem expanded_sorted : (value : Json) → (l.expanded value).sorted = l.expanded value.sorted
  | .array elements => by
    rw [expanded, Json.sorted, Json.sorted, expanded, expandedElements_sorted elements]
  | .object members => by
    rw [expanded, Json.sorted, Json.sorted, expanded, expandedMembers_insertionSort,
      expandedMembers_sorted members]
  | .null => rfl
  | .bool _ => rfl
  | .int _ => rfl
  | .float _ => rfl
  | .string _ => rfl

theorem expandedElements_sorted : (elements : List Json) →
    sortedElements (l.expandedElements elements) = l.expandedElements (sortedElements elements)
  | [] => rfl
  | element :: rest => by
    rw [expandedElements, sortedElements, sortedElements, expandedElements,
      expanded_sorted element, expandedElements_sorted rest]

theorem expandedMembers_sorted : (members : Members) →
    sortedValues (l.expandedMembers members) = l.expandedMembers (sortedValues members)
  | [] => rfl
  | (key, value) :: rest => by
    rw [expandedMembers, sortedValues, sortedValues, expandedMembers, expanded_sorted value,
      expandedMembers_sorted rest]

end

/-- Expanding the references leaves the keys where they are. -/
theorem expandedMembers_alike (alike : Alike a b) :
    Alike (l.expandedMembers a) (l.expandedMembers b) := by
  have sorted (c : Members) : sortedMembers (l.expandedMembers c) =
      l.expandedMembers (sortedMembers c) := by
    rw [sortedMembers, sortedMembers, expandedMembers_sorted, expandedMembers_insertionSort]
  rw [Alike, sorted, sorted, alike]

variable (l) in
/-- The plugins have something against settings, or nothing, whatever the order of keys. -/
def Impartial : Prop := ∀ plugin known validate, l.knownPlugins.lookup plugin = some known →
  known.validateSettings = some validate → ∀ a b, Alike a b → validate a = [] → validate b = []

theorem InstanceOk.alike (fair : l.Impartial) (alike : Alike a b) (ok : l.InstanceOk a) :
    l.InstanceOk b := by
  obtain ⟨keys, plugin, known, config, isKnown, flag, held, defined, silent⟩ := ok
  obtain ⟨other, there, same⟩ := held.alike alike
  refine ⟨alike.keys_iff.mp keys, plugin, known, other, isKnown.alike alike, flag.alike alike,
    there, fun text member => defined text (same.texts_perm.mem_iff.mpr member), ?_⟩
  intro validate found
  exact fair plugin known validate isKnown.2 found _ _ (expandedMembers_alike same)
    (silent validate found)

theorem Listed.alike {key : String} {names : List Name} (alike : Alike a b)
    (listed : Listed a key names) : Listed b key names := by
  obtain ⟨texts, some, found, rfl⟩ := listed
  exact ⟨texts, some, alike.texts_iff.mp found, rfl⟩

theorem RuleOk.alike {provides others : PluginDirection → Name → Prop}
    (kept : ∀ direction name, provides direction name → others direction name)
    (alike : Alike a b) (ok : RuleOk provides a) : RuleOk others b := by
  obtain ⟨keys, inputs, outputs, ⟨listed, once, provided⟩, ⟨also, twice, given⟩, apart, flag⟩ := ok
  exact ⟨alike.keys_iff.mp keys, inputs, outputs,
    ⟨listed.alike alike, once, fun name member => kept _ _ (provided name member)⟩,
    ⟨also.alike alike, twice, fun name member => kept _ _ (given name member)⟩, apart,
    flag.alike alike⟩

/- The definitions, spread in another way. -/

section Spread

variable {first second : List Document} (same : SameDefinitions first second)
include same

theorem offers_spread {direction : PluginDirection} {name : Name}
    (offers : l.Offers first direction name) : l.Offers second direction name := by
  refine exists_spread (same.named .instances) ?_ offers
  rintro x y equal ⟨named, body, object, plugin, known, isKnown, side⟩
  obtain ⟨other, there, alike⟩ := entry_object equal.symm object
  exact ⟨entry_name equal ▸ named, other, there, plugin, known, isKnown.alike alike.symm, side⟩

/-- What holds of the bodies in one layout holds of those in the other. -/
theorem bodies_spread {space : Namespace} {P Q : Members → Prop}
    (kept : ∀ a b, Alike a b → P a → Q b)
    (all : ∀ entry ∈ declared space first, ∀ body, entry.2 = .object body → P body) :
    ∀ entry ∈ declared space second, ∀ body, entry.2 = .object body → Q body := by
  intro entry member body object
  obtain ⟨x, there, equal⟩ := List.mem_map.mp
    ((same.named space).mem_iff.mpr (List.mem_map_of_mem member))
  obtain ⟨other, known, alike⟩ := entry_object equal object
  exact kept other body alike (all x there other known)

theorem wellFormed_spread (fair : l.Impartial) (fine : l.WellFormed first) :
    l.WellFormed second := by
  constructor
  · exact fun document member => same.known document (List.mem_append_right _ member)
  · have lengths := same.daemon.length_eq
    rw [List.length_map, List.length_map] at lengths
    exact lengths ▸ fine.oneDaemon
  · exact forall_spread same.daemon (fun _ _ alike => DaemonOk.alike alike) fine.daemon
  · intro space
    refine forall_spread (same.named space) ?_ (fine.names space)
    rintro x y equal ⟨valid, body, object⟩
    obtain ⟨other, there, _⟩ := entry_object equal.symm object
    exact ⟨entry_name equal ▸ valid, other, there⟩
  · intro space
    have keys := (same.named space).map fun entry => l.unicode.uniquenessKey (normalizeName entry.1)
    rw [List.map_map, List.map_map] at keys
    exact keys.nodup_iff.mp (fine.unique space)
  · exact bodies_spread same (fun _ _ alike => InstanceOk.alike fair alike) fine.instances
  · exact bodies_spread same (fun _ _ alike => RuleOk.alike
      (fun _ _ offers => offers_spread same offers) alike) fine.rules

theorem manageable_spread (fine : l.WellFormed first) (manageable : l.Manageable first) :
    l.Manageable second := by
  constructor
  · intro body found
    obtain ⟨other, there, alike⟩ := List.mem_map.mp (same.daemon.mem_iff.mpr
      (List.mem_map_of_mem (List.mem_of_mem_head? found)))
    refine RetriesConvert.alike alike (manageable.retries other ?_)
    have one := fine.oneDaemon
    generalize blocks "daemon" first = bodies at there one
    match bodies, one with
    | [only], _ => rw [List.mem_singleton.mp there]; rfl
  · rintro entry ⟨_, before, after, split, _⟩ body object plugin known isKnown
    have member : entry ∈ declared .instances second := by
      rw [split]
      exact List.mem_append_right _ List.mem_cons_self
    have kept : ∀ a b, Alike a b → (∀ plugin known, l.PluginIs a plugin known → l.Shallow a) →
        ∀ plugin known, l.PluginIs b plugin known → l.Shallow b :=
      fun a b alike shallow plugin known isKnown =>
        (shallow plugin known (isKnown.alike alike.symm)).alike alike
    refine bodies_spread same kept (fun x there other => ?_) entry member body object plugin known
      isKnown
    have reached := reached_of_nodup (fine.unique .instances) (fine.names .instances x there) there
    exact manageable.configs x reached other

end Spread

theorem load_passed {directory : String} {documents : List Document} {c : LoadedConfiguration}
    (loaded : l.load directory (some (parsed documents)) = .ok c) :
    documents ≠ [] ∧ l.check directory (some (parsed documents)) = pure c ∧
      l.Manageable documents ∧ l.WellFormed documents ∧ Faithful documents c := by
  have some : documents ≠ [] := by
    rintro rfl
    cases loaded
  have files : parsed documents ≠ [] := fun none => some (List.map_eq_nil_iff.mp none)
  have read : ∀ file ∈ parsed documents, Returns file.2 :=
    List.forall_mem_map.mpr fun document _ => returns_pure _
  have passed := concluded_ok.mp loaded
  have returns : Returns (l.check directory (.some (parsed documents))) := ⟨c, by rw [passed]; rfl⟩
  have manageable := (check_returns.mp returns).2
  obtain ⟨fine, faithful⟩ := check_sound files read manageable passed
  rw [documentsOf_parsed] at manageable fine faithful
  exact ⟨some, passed, manageable, fine, faithful⟩

theorem load_succeeds (directory : String) {documents : List Document} (some : documents ≠ [])
    (manageable : l.Manageable documents) (fine : l.WellFormed documents) :
    ∃ c, l.load directory (.some (parsed documents)) = .ok c := by
  have files : parsed documents ≠ [] := fun none => some (List.map_eq_nil_iff.mp none)
  have read : ∀ file ∈ parsed documents, Returns file.2 :=
    List.forall_mem_map.mpr fun document _ => returns_pure _
  have silent : ∀ file ∈ parsed documents, file.2.problems = [] :=
    List.forall_mem_map.mpr fun document _ => rfl
  rw [← documentsOf_parsed documents] at manageable fine
  obtain ⟨c, passed⟩ := check_complete files read manageable silent fine
  exact ⟨c, concluded_ok.mpr passed⟩

/- What an instance is built into. -/

theorem stringAt_alike (alike : Alike a b) (key : String) : stringAt a key = stringAt b key := by
  refine Option.ext fun text => ?_
  rw [stringAt_eq_some, stringAt_eq_some, alike.string_iff]

theorem flagAt_alike (alike : Alike a b) (key : String) (default : Bool) :
    flagAt a key default = flagAt b key default := by
  have sorted (c : Members) : flagAt c key default = flagAt (sortedMembers c) key default := by
    rw [flagAt, flagAt, lookup_sortedMembers]
    cases c.lookup key with
    | none => rfl
    | some value => cases value <;> rfl
  rw [sorted a, sorted b, alike]

theorem settingsOf_alike (alike : Alike a b) :
    (l.settingsOf a).map sortedMembers = (l.settingsOf b).map sortedMembers := by
  unfold settingsOf
  cases found : a.lookup "config" with
  | none => rw [alike.absent_iff.mp found]
  | some value =>
    obtain ⟨other, there, same⟩ := alike.found found
    rw [there]
    cases value with
    | object config =>
      obtain ⟨others, known, configs⟩ := alike.object found
      cases there.symm.trans known
      exact congrArg some (expandedMembers_alike configs)
    | _ =>
      cases other with
      | object others => simp [Json.sorted] at same
      | _ => rfl

/-- What is built has what the body says, wherever it stands. -/
theorem instanceOf_alike (alike : Alike a b) (name : Name) (origin other : ConfigPath) :
    (l.instanceOf ⟨name, a, origin⟩).map LoadedInstance.bare =
      (l.instanceOf ⟨name, b, other⟩).map LoadedInstance.bare := by
  unfold instanceOf
  dsimp only
  rw [stringAt_alike alike, flagAt_alike alike]
  cases stringAt b "plugin" with
  | none => rfl
  | some plugin =>
    rw [Option.bind_some, Option.bind_some]
    cases l.knownPlugins.lookup plugin with
    | none => rfl
    | some known =>
      rw [Option.bind_some, Option.bind_some, Option.map_map, Option.map_map]
      have made (settings : Option Members) (place : ConfigPath) :
          settings.map (LoadedInstance.bare ∘ fun settings => ⟨name, plugin, known.directions,
            settings, flagAt b "enabled" true, place⟩) =
          (settings.map sortedMembers).map fun settings => ⟨name, plugin, known.directions,
            settings, flagAt b "enabled" true, ⟨"", []⟩⟩ := by
        rw [Option.map_map]
        rfl
      rw [made, made, settingsOf_alike alike]

/- What a rule is built into. -/

/-- The rule has the name, and what the body says. -/
structure RuleIs (name : Name) (body : Members) (rule : LoadedRule) : Prop where
  named : rule.name = name
  inputs : Listed body "inputs" rule.inputs
  outputs : Listed body "outputs" rule.outputs
  enabled : rule.enabled = flagAt body "enabled" true

theorem Listed.unique {body : Members} {key : String} {names others : List Name}
    (listed : Listed body key names) (also : Listed body key others) : names = others := by
  obtain ⟨texts, _, found, rfl⟩ := listed
  obtain ⟨more, _, there, rfl⟩ := also
  rw [found, Option.some.injEq, Json.array.injEq] at there
  rw [List.map_injective_iff.mpr (fun _ _ same => Json.string.inj same) there]

theorem RuleIs.unique {name : Name} {body : Members} {rule other : LoadedRule}
    (is : RuleIs name body rule) (also : RuleIs name body other) : rule.bare = other.bare := by
  obtain ⟨named, inputs, outputs, enabled⟩ := is
  obtain ⟨same, listed, others, flag⟩ := also
  obtain ⟨n, i, o, e, p, _, _, _⟩ := rule
  obtain ⟨m, j, q, f, r, _, _, _⟩ := other
  dsimp only at *
  subst named same
  cases inputs.unique listed
  cases outputs.unique others
  cases enabled.trans flag.symm
  rfl

theorem RuleIs.alike {name : Name} {rule : LoadedRule} (alike : Alike a b) (is : RuleIs name a rule) :
    RuleIs name b rule :=
  ⟨is.named, is.inputs.alike alike, is.outputs.alike alike,
    is.enabled.trans (flagAt_alike alike _ _)⟩

section Rules

variable {registry : NameRegistry} {built : BuiltInstances} {draft : Draft}

theorem buildRule_is (unbroken : built.broken = []) {rule : LoadedRule}
    (passed : l.buildRule registry built draft = pure (some rule)) :
    RuleIs draft.name draft.body rule := by
  obtain ⟨_, other, same, named, inputs, outputs⟩ := buildRule_sound unbroken passed
  cases same
  refine ⟨named, inputs.1, outputs.1, ?_⟩
  obtain ⟨_, _, passed⟩ := bind_eq_pure.mp passed
  obtain ⟨inputs?, _, passed⟩ := bind_eq_pure.mp passed
  obtain ⟨outputs?, _, passed⟩ := bind_eq_pure.mp passed
  split at passed
  · dsimp only at passed
    split at passed
    · obtain ⟨flag, third, rest⟩ := bind_eq_pure.mp passed
      have enabled := optionalBool_gives draft.body draft.origin "enabled"
        s!"rule {l.unicode.repr draft.name}" true
      cases pure_eq_pure.mp rest
      exact (enabled.eq_pure.mp third).2
    · obtain ⟨_, _, last⟩ := bind_eq_pure.mp passed
      cases pure_eq_pure.mp last
  · cases pure_eq_pure.mp passed

theorem buildRules_are (unbroken : built.broken = []) {drafts : List Draft}
    {acc rules : Table LoadedRule}
    (passed : drafts.foldlM (l.buildOneRule registry built) acc = pure rules) {name : Name}
    {rule : LoadedRule} (found : rules.lookup name = some rule) :
    acc.lookup name = some rule ∨ ∃ draft ∈ drafts, draft.name = name ∧ RuleIs name draft.body rule := by
  induction drafts generalizing acc with
  | nil =>
    cases pure_eq_pure.mp passed
    exact .inl found
  | cons draft drafts ih =>
    obtain ⟨next, step, rest⟩ := foldlM_cons_eq_pure.mp passed
    rcases ih rest with earlier | ⟨other, member, is⟩
    · obtain ⟨made, once, grown⟩ := bind_eq_pure.mp step
      cases made with
      | none =>
        cases pure_eq_pure.mp grown
        exact .inl earlier
      | some first =>
        cases pure_eq_pure.mp grown
        have is := buildRule_is unbroken once
        by_cases same : name = first.name
        · subst same
          cases (AList.lookup_insert _).symm.trans earlier
          exact .inr ⟨draft, List.mem_cons_self, is.named.symm, is.named.symm ▸ is⟩
        · rw [AList.lookup_insert_ne same] at earlier
          exact .inl earlier
    · exact .inr ⟨other, List.mem_cons_of_mem _ member, is⟩

end Rules

/- The daemon's settings. -/

theorem positiveInt_sorted (body : Members) (path other : ConfigPath) (key : String)
    (default : Nat) : (positiveInt body path key default).result =
      (positiveInt (sortedMembers body) other key default).result := by
  unfold positiveInt
  rw [lookup_sortedMembers]
  cases body.lookup key with
  | none => rfl
  | some value =>
    cases value with
    | int n =>
      dsimp only [Option.map_some, Json.sorted]
      split <;> rfl
    | _ => rfl

theorem positiveNumber_sorted (body : Members) (path other : ConfigPath) (key : String)
    (default : PyFloat) : (positiveNumber body path key default).result =
      (positiveNumber (sortedMembers body) other key default).result := by
  unfold positiveNumber
  rw [lookup_sortedMembers]
  cases body.lookup key with
  | none => rfl
  | some value =>
    cases value with
    | int n =>
      dsimp only [Option.map_some, Json.sorted]
      split
      · rfl
      · cases floatOfInt n.toNat <;> rfl
    | float f =>
      dsimp only [Option.map_some, Json.sorted]
      split <;> rfl
    | _ => rfl

theorem buildDaemon_alike (alike : Alike a b) (path other : ConfigPath) :
    (l.buildDaemon (some (a, path))).result = (l.buildDaemon (some (b, other))).result := by
  have sorted (c : Members) (p q : ConfigPath) : (l.buildDaemon (some (c, p))).result =
      (l.buildDaemon (some (sortedMembers c, q))).result := by
    have keys (d : Members) (p : ConfigPath) :
        (l.rejectUnknownKeys d p daemonKeys "\"daemon\"").result = .ok () :=
      (l.rejectUnknownKeys_gives d p daemonKeys "\"daemon\"").result
    refine result_congr ((keys c p).trans (keys _ q).symm) fun _ => ?_
    refine result_congr (positiveInt_sorted c p q _ _) fun _ => ?_
    refine result_congr (positiveInt_sorted c p q _ _) fun _ => ?_
    refine result_congr (positiveNumber_sorted c p q _ _) fun _ => ?_
    exact result_congr (positiveNumber_sorted c p q _ _) fun _ => rfl
  rw [sorted a path other, alike, sorted b other other]

/- What is returned for a layout, and for another. -/

/-- What a load that passes has gone through. -/
structure Passed (l : Loader) (documents : List Document) (c : LoadedConfiguration) : Prop where
  fine : l.WellFormed documents
  faithful : Faithful documents c
  daemon : (l.buildDaemon (l.gathered documents).daemon).result = .ok c.daemon
  instances : c.instances = (l.builtFrom (l.gathered documents).instanceDrafts).instances
  rules : l.buildRules (l.gathered documents).registry
    (l.builtFrom (l.gathered documents).instanceDrafts) (l.gathered documents).ruleDrafts =
      pure c.rules

theorem passed_of_load {directory : String} {documents : List Document} {c : LoadedConfiguration}
    (loaded : l.load directory (some (parsed documents)) = .ok c) : Passed l documents c := by
  obtain ⟨some, passed, manageable, fine, faithful⟩ := load_passed loaded
  have files : parsed documents ≠ [] := fun none => some (List.map_eq_nil_iff.mp none)
  have read : ∀ file ∈ parsed documents, Returns file.2 :=
    List.forall_mem_map.mpr fun document _ => returns_pure _
  have collecting := (collectFiles_gives (l := l) read).result
  have shallow := buildInstances_returns.mp (manageable_iff.mp manageable).2
  have building := (buildInstances_gives shallow).result
  rw [check_files files] at passed
  obtain ⟨collected, first, merged⟩ := bind_eq_pure.mp passed
  obtain ⟨settings, second, settled⟩ := bind_eq_pure.mp merged
  obtain ⟨built, third, instances⟩ := bind_eq_pure.mp settled
  obtain ⟨rules, last, returned⟩ := bind_eq_pure.mp instances
  rw [first, documentsOf_parsed] at collecting
  cases collecting
  rw [third] at building
  cases building
  cases pure_eq_pure.mp returned
  exact ⟨fine, faithful, by rw [second]; rfl, rfl, last⟩

section Returned

variable {first second : List Document} {c d : LoadedConfiguration}
  (same : SameDefinitions first second) (one : Passed l first c) (other : Passed l second d)
include same one other

theorem instances_spread {name : Name} {configured : LoadedInstance}
    (found : c.instances.lookup name = some configured) :
    ∃ also, d.instances.lookup name = some also ∧ also.bare = configured.bare := by
  rw [one.instances] at found
  obtain ⟨draft, member, named, made⟩ := (lookup_builtFrom (gathered_nodup _ .instances)).mp found
  let content (n : Name) (body : Members) : Prop := n = name ∧
    (l.instanceOf ⟨name, body, ⟨"", []⟩⟩).map LoadedInstance.bare = some configured.bare
  have own (draft : Draft) (named : draft.name = name) :
      (l.instanceOf ⟨name, draft.body, ⟨"", []⟩⟩).map LoadedInstance.bare =
        (l.instanceOf draft).map LoadedInstance.bare := by
    subst named
    exact instanceOf_alike rfl draft.name ⟨"", []⟩ draft.origin
  have drafted : content draft.name draft.body := by
    refine ⟨named, (own draft named).trans ?_⟩
    rw [made, Option.map_some]
  obtain ⟨x, reached, body, object, built⟩ :=
    (exists_draft first .instances content).mp ⟨draft, member, drafted⟩
  rw [reached_iff (one.fine.names .instances) (one.fine.unique .instances)] at reached
  obtain ⟨y, there, others, known, again⟩ : ∃ y ∈ declared .instances second, ∃ body,
      y.2 = .object body ∧ content (normalizeName y.1) body := by
    refine exists_spread (same.named .instances) ?_ ⟨x, reached, body, object, built⟩
    rintro x y equal ⟨body, object, key, made⟩
    obtain ⟨other, known, alike⟩ := entry_object equal.symm object
    refine ⟨other, known, entry_name equal ▸ key, ?_⟩
    rwa [instanceOf_alike alike]
  rw [← reached_iff (other.fine.names .instances) (other.fine.unique .instances)] at there
  obtain ⟨also, also_member, key, built⟩ :=
    (exists_draft second .instances content).mpr ⟨y, there, others, known, again⟩
  rw [own also key, Option.map_eq_some_iff] at built
  obtain ⟨result, made, equal⟩ := built
  refine ⟨result, ?_, equal⟩
  rw [other.instances]
  exact (lookup_builtFrom (gathered_nodup _ .instances)).mpr ⟨also, also_member, key, made⟩

omit same other in
/-- A rule that is loaded is what an entry says. -/
theorem Passed.rule {name : Name} {rule : LoadedRule} (found : c.rules.lookup name = some rule) :
    ∃ entry ∈ declared .rules first, ∃ body, entry.2 = .object body ∧
      normalizeName entry.1 = name ∧ RuleIs name body rule := by
  have instancesOk := (instancesOk_iff one.fine.names one.fine.unique).mpr one.fine.instances
  have whole := built_builtFrom (gathered_nodup (l := l) first .instances) instancesOk
  rcases buildRules_are whole.broken one.rules found with absent | ⟨draft, member, named, is⟩
  · cases absent
  obtain ⟨entry, reached, body, object, key, is⟩ := (exists_draft first .rules fun n body =>
    n = name ∧ RuleIs name body rule).mp ⟨draft, member, named, is⟩
  rw [reached_iff (one.fine.names .rules) (one.fine.unique .rules)] at reached
  exact ⟨entry, reached, body, object, key, is⟩

theorem rules_spread {name : Name} {rule : LoadedRule} (found : c.rules.lookup name = some rule) :
    ∃ also, d.rules.lookup name = some also ∧ also.bare = rule.bare := by
  obtain ⟨y, there, body, object, key, is⟩ : ∃ y ∈ declared .rules second, ∃ body,
      y.2 = .object body ∧ normalizeName y.1 = name ∧ RuleIs name body rule := by
    refine exists_spread (same.named .rules) ?_ (one.rule found)
    rintro x y equal ⟨body, object, key, is⟩
    obtain ⟨other, known, alike⟩ := entry_object equal.symm object
    exact ⟨other, known, entry_name equal ▸ key, is.alike alike.symm⟩
  obtain ⟨also, loaded⟩ : ∃ also, d.rules.lookup name = some also :=
    Option.isSome_iff_exists.mp (AList.lookup_isSome.mpr
      ((other.faithful.rules name).mpr ⟨y, there, key⟩))
  obtain ⟨z, member, others, known, named, isAlso⟩ := other.rule loaded
  have one : z = y := by
    refine List.inj_on_of_nodup_map (other.fine.unique .rules) member there ?_
    exact congrArg l.unicode.uniquenessKey (named.trans key.symm)
  subst one
  cases object.symm.trans known
  exact ⟨also, loaded, isAlso.unique is⟩

theorem daemon_spread : c.daemon = d.daemon := by
  have heads : ((l.gathered first).daemon.map (·.1)).map sortedMembers =
      ((l.gathered second).daemon.map (·.1)).map sortedMembers := by
    rw [gathered_daemon, gathered_daemon]
    exact head?_spread same.daemon one.fine.oneDaemon
  have ended : (l.buildDaemon (l.gathered first).daemon).result =
      (l.buildDaemon (l.gathered second).daemon).result := by
    cases here : (l.gathered first).daemon with
    | none =>
      rw [here] at heads
      rw [Option.map_eq_none_iff.mp (Option.map_eq_none_iff.mp heads.symm)]
    | some block =>
      rw [here] at heads
      obtain ⟨body, found, alike⟩ := Option.map_eq_some_iff.mp heads.symm
      obtain ⟨also, there, rfl⟩ := Option.map_eq_some_iff.mp found
      rw [there]
      exact buildDaemon_alike alike.symm block.2 also.2
  rw [one.daemon, other.daemon] at ended
  exact Except.ok.inj ended

end Returned

end Loader

/- The lists of what is enabled, and the graph. -/

namespace LoadedConfiguration

variable {c d : LoadedConfiguration}

/-- Sorting what is enabled goes along with forgetting where it is from. -/
theorem map_enabled {α : Type} {name : α → Name} {enabled : α → Bool} {bare : α → α}
    (named : ∀ x, name (bare x) = name x) (flagged : ∀ x, enabled (bare x) = enabled x)
    (table : Table α) :
    (((table.entries.map (·.2)).filter enabled).insertionSort fun x y => name x ≤ name y).map bare =
      (((table.entries.map fun entry => (entry.1, bare entry.2)).map Prod.snd).filter
        enabled).insertionSort fun x y => name x ≤ name y := by
  have bared : ((table.entries.map fun entry => (entry.1, bare entry.2)).map Prod.snd) =
      (table.entries.map (·.2)).map bare := by
    rw [List.map_map, List.map_map]
    rfl
  have filtered (l : List α) : (l.map bare).filter enabled = (l.filter enabled).map bare := by
    rw [List.filter_map]
    exact congrArg (List.map bare) (List.filter_congr fun x _ => flagged x)
  rw [bared, filtered]
  exact List.map_insertionSort _ _ _ _ fun x _ y _ => by rw [named, named]

/-- Tables of the same content have the same sorted lists of what is enabled. -/
theorem enabled_bare {α : Type} {name : α → Name} {enabled : α → Bool} {bare : α → α}
    (named : ∀ x, name (bare x) = name x) (flagged : ∀ x, enabled (bare x) = enabled x)
    {first second : Table α} (keyed : ∀ key x, first.lookup key = some x → name x = key)
    (same : ∀ key, (first.lookup key).map bare = (second.lookup key).map bare) :
    (((first.entries.map (·.2)).filter enabled).insertionSort fun x y => name x ≤ name y).map bare =
      (((second.entries.map (·.2)).filter enabled).insertionSort fun x y =>
        name x ≤ name y).map bare := by
  rw [map_enabled named flagged, map_enabled named flagged]
  refine insertionSort_perm (((entries_perm same).map Prod.snd).filter _) ?_
  have keys : (first.entries.map fun entry => (entry.1, bare entry.2)).map (fun x => name x.2) =
      first.entries.map Sigma.fst := by
    rw [List.map_map]
    refine List.map_congr_left fun entry member => ?_
    exact (named entry.2).trans (keyed entry.1 entry.2 (AList.mem_lookup_iff.mpr member))
  have apart : ((first.entries.map fun entry => (entry.1, bare entry.2)).map Prod.snd |>.map
      name).Nodup := by
    rw [List.map_map]
    exact keys ▸ first.nodupKeys
  exact apart.sublist (List.filter_sublist.map _)

theorem running_instances (render : Members → Settings)
    (same : ∀ name, (c.instances.lookup name).map LoadedInstance.bare =
      (d.instances.lookup name).map LoadedInstance.bare) :
    (c.running render).enabledInstances = (d.running render).enabledInstances := by
  have perm := (entries_perm same).map fun entry : Name × LoadedInstance =>
    (⟨entry.1, entry.2.plugin, entry.2.enabled, render entry.2.settings⟩ : InstanceConfig)
  rw [List.map_map, List.map_map] at perm
  refine insertionSort_perm (List.Perm.filter _ perm) ?_
  exact (c.running render).instances_nodup.sublist (List.filter_sublist.map _)

theorem running_rules (render : Members → Settings)
    (same : ∀ name, (c.rules.lookup name).map LoadedRule.bare =
      (d.rules.lookup name).map LoadedRule.bare) :
    (c.running render).enabledRules = (d.running render).enabledRules := by
  have perm := (entries_perm same).map fun entry : Name × LoadedRule =>
    (⟨entry.1, entry.2.inputs, entry.2.outputs, entry.2.enabled, entry.2.inputs_nodup,
      entry.2.outputs_nodup⟩ : RuleConfig)
  rw [List.map_map, List.map_map] at perm
  refine insertionSort_perm (List.Perm.filter _ perm) ?_
  exact (c.running render).rules_nodup.sublist (List.filter_sublist.map _)

/-- The graph is made of what is enabled. -/
theorem graph_congr {a b : Configuration} (instances : a.enabledInstances = b.enabledInstances)
    (rules : a.enabledRules = b.enabledRules) :
    RuleGraph.fromConfiguration a = RuleGraph.fromConfiguration b := by
  simp only [RuleGraph.fromConfiguration, instances, rules]

end LoadedConfiguration

namespace Loader

/-- A layout is loaded exactly if the other is, if both have a file at all, and what is
returned differs in nothing but origins and the order of keys. -/
theorem layout_independent (l : Loader) (fair : l.Impartial) (directory other : String)
    (first second : List Document) (same : SameDefinitions first second) (some : first ≠ [])
    (also : second ≠ []) :
    ((∃ c, l.load directory (.some (parsed first)) = .ok c) ↔
        ∃ d, l.load other (.some (parsed second)) = .ok d) ∧
      ∀ c d, l.load directory (.some (parsed first)) = .ok c →
        l.load other (.some (parsed second)) = .ok d → c.Same d := by
  constructor
  · constructor
    · rintro ⟨c, loaded⟩
      obtain ⟨_, _, manageable, fine, _⟩ := load_passed loaded
      exact load_succeeds other also (manageable_spread same fine manageable)
        (wellFormed_spread same fair fine)
    · rintro ⟨d, loaded⟩
      obtain ⟨_, _, manageable, fine, _⟩ := load_passed loaded
      exact load_succeeds directory some (manageable_spread same.symm fine manageable)
        (wellFormed_spread same.symm fair fine)
  · intro c d loaded again
    have one := passed_of_load loaded
    have two := passed_of_load again
    have instances : ∀ name, (c.instances.lookup name).map LoadedInstance.bare =
        (d.instances.lookup name).map LoadedInstance.bare := fun _ => map_eq_of_both
      (fun _ => instances_spread same one two) (fun _ => instances_spread same.symm two one)
    have rules : ∀ name, (c.rules.lookup name).map LoadedRule.bare =
        (d.rules.lookup name).map LoadedRule.bare := fun _ => map_eq_of_both
      (fun _ => rules_spread same one two) (fun _ => rules_spread same.symm two one)
    refine ⟨instances, rules, daemon_spread same one two, ?_, ?_, fun render => ?_⟩
    · have named (i : LoadedInstance) : i.bare.name = i.name := rfl
      have flagged (i : LoadedInstance) : i.bare.enabled = i.enabled := rfl
      exact LoadedConfiguration.enabled_bare named flagged one.faithful.instanceNamed instances
    · have named (r : LoadedRule) : r.bare.name = r.name := rfl
      have flagged (r : LoadedRule) : r.bare.enabled = r.enabled := rfl
      exact LoadedConfiguration.enabled_bare named flagged one.faithful.ruleNamed rules
    · exact LoadedConfiguration.graph_congr (LoadedConfiguration.running_instances render instances)
        (LoadedConfiguration.running_rules render rules)

/-- What the file watcher has against settings that it does not know. -/
def unknownSettings (members : Members) : List String :=
  (members.filter (·.1 ∉ FileSettings.knownSettings)).map fun member =>
    "unknown setting \"" ++ member.1 ++ "\""

/-- The sample loader, where the file watcher has a validator. -/
def strict : Loader :=
  { plain with
    knownPlugins := ((∅ : Table KnownPlugin).insert "file_input"
      { directions := [.input], validateSettings := some unknownSettings }).insert
      "pagerduty_output" { directions := [.output] } }

theorem strict_impartial : strict.Impartial := by
  intro plugin known validate found validates a b alike silent
  by_cases output : plugin = "pagerduty_output"
  · subst output
    cases (AList.lookup_insert _).symm.trans found
    cases validates
  · replace found := (AList.lookup_insert_ne output).symm.trans found
    by_cases input : plugin = "file_input"
    · subst input
      cases (AList.lookup_insert _).symm.trans found
      cases validates
      have known (c : Members) : unknownSettings c = [] ↔
          ∀ member ∈ c, member.1 ∈ FileSettings.knownSettings := by
        simp [unknownSettings, List.filter_eq_nil_iff]
      exact (known b).mpr (alike.keys_iff.mp ((known a).mp silent))
    · cases (AList.lookup_insert_ne input).symm.trans found

/-- The small configuration in one file, with the keys in another order. -/
def smallLayout : List Document :=
  [("/etc/noti-mapper.d/z.json",
    [("rules", .object [("Porch", .object
      [("outputs", .array [.string "Pager"]), ("inputs", .array [.string "Door"])])]),
     ("instances", .object
      [("Pager", .object [("plugin", .string "pagerduty_output")]),
       (" Door ", .object [("config", .object [("path", .string "/home/$\x7bsecret:user\x7d/door")]),
        ("plugin", .string "file_input")])])])]

theorem small_same : SameDefinitions smallConfiguration smallLayout := by
  have swapped (name : String) {first second : String × Json} (apart : first.1 ≠ second.1) :
      sortedEntry (name, .object [first, second]) = sortedEntry (name, .object [second, first]) := by
    have alike : Alike [first, second] [second, first] :=
      Alike.of_perm (List.Perm.swap _ _ _) (by simp [apart])
    rw [sortedEntry, sortedEntry, Json.sorted_object, Json.sorted_object, alike]
  refine ⟨?_, List.Perm.refl _, fun space => ?_⟩
  · simp only [smallConfiguration, smallLayout, List.cons_append, List.nil_append,
      List.forall_mem_cons, List.not_mem_nil, false_imp_iff, implies_true, and_true]
    exact ⟨⟨by decide, _, rfl⟩, ⟨by decide, _, rfl⟩, ⟨by decide, _, rfl⟩, ⟨by decide, _, rfl⟩⟩
  · cases space with
    | instances =>
      refine List.Perm.trans ?_ (List.Perm.swap _ _ [])
      exact List.Perm.of_eq (congrArg (· :: _) (swapped _ (by decide)))
    | rules => exact List.Perm.of_eq (congrArg (· :: []) (swapped _ (by decide)))

theorem small_layout_loaded : ∃ c d, strict.load "/etc/noti-mapper.d"
      (some (parsed smallConfiguration)) = .ok c ∧
    strict.load "/etc/noti-mapper.d" (some (parsed smallLayout)) = .ok d ∧
    c.instances.keys = ["Pager", "Door"] ∧ c.Same d := by
  have loaded : strict.load "/etc/noti-mapper.d" (some (parsed smallConfiguration)) = _ :=
    Effect.except_ok (by decide +kernel)
  have both := layout_independent strict strict_impartial "/etc/noti-mapper.d" "/etc/noti-mapper.d"
    smallConfiguration smallLayout small_same (List.cons_ne_nil _ _) (List.cons_ne_nil _ _)
  obtain ⟨d, again⟩ := both.1.mp ⟨_, loaded⟩
  exact ⟨_, d, loaded, again, by decide +kernel, both.2 _ _ loaded again⟩

/-- No file, and a file with nothing in it. -/
theorem empty_layout_rejected : ¬ ∀ (l : Loader) (directory other : String)
    (first second : List Document), l.Impartial → SameDefinitions first second →
    ((∃ c, l.load directory (some (parsed first)) = .ok c) ↔
      ∃ d, l.load other (some (parsed second)) = .ok d) := by
  intro independent
  have same : SameDefinitions [] [("/etc/noti-mapper.d/a.json", [])] := by
    refine ⟨by simp, List.Perm.refl _, fun space => ?_⟩
    cases space <;> exact List.Perm.refl _
  have loaded : ∃ d, strict.load "/etc/noti-mapper.d"
      (some (parsed [("/etc/noti-mapper.d/a.json", [])])) = .ok d := ⟨_, rfl⟩
  obtain ⟨c, none⟩ := (independent strict "/etc/noti-mapper.d" "/etc/noti-mapper.d" _ _
    strict_impartial same).mpr loaded
  cases none

end Loader

end NotiMapper
