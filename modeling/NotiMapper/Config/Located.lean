import NotiMapper.Config.Reported

/-! Where a problem is from. What is reported of a draft is at or below the place of the
entry it was made of, and in documents whose keys and files are there once, no other entry
has that place. So a report below it is the entry's own. -/
namespace NotiMapper

open Python Report

/-- A file is there once, and so is each key of an object that the merge walks through. -/
structure Distinct (documents : List Document) : Prop where
  files : (documents.map Prod.fst).Nodup
  keys : ∀ document ∈ documents, (document.2.map Prod.fst).Nodup
  names : ∀ document ∈ documents, ∀ member ∈ document.2, ∀ body, member.2 = .object body →
    (body.map Prod.fst).Nodup

theorem Namespace.key_injective {a b : Namespace} (same : a.key = b.key) : a = b := by
  cases a <;> cases b
  all_goals first | rfl | exact absurd same (by decide)

theorem Unicode.repr_injective (u : Unicode) {a b : String} (same : u.repr a = u.repr b) : a = b := by
  have texts : (u.repr a).toList ++ [] = (u.repr b).toList ++ [] := by rw [same]
  exact (u.repr_delimited.read texts).1

/- Places. -/

namespace ConfigPath

/-- The place is below these steps. -/
def Under (file : String) (steps : List String) (place : ConfigPath) : Prop :=
  place.file = file ∧ ∃ last more, place.steps = steps ++ last :: more

variable {file : String} {steps : List String} {place : ConfigPath}

@[simp] theorem key_steps (path : ConfigPath) (name : String) :
    (path.key name).steps = path.steps ++ [name] := rfl

@[simp] theorem key_file (path : ConfigPath) (name : String) : (path.key name).file = path.file := rfl

/-- An element is a step of its own in the place of the one above. -/
theorem element_key_steps (path : ConfigPath) (name : String) (index : Nat) :
    ((path.key name).element index).steps = path.steps ++ [s!"{name}[{index}]"] := by
  simp only [element, key_steps, List.getLast?_append, List.getLast?_singleton, Option.some_or,
    List.dropLast_append_of_ne_nil (List.cons_ne_nil name []), List.dropLast_singleton,
    List.append_nil]

@[simp] theorem element_file (path : ConfigPath) (index : Nat) :
    (path.element index).file = path.file := by
  unfold element
  split <;> rfl

theorem under_key (path : ConfigPath) (name : String) :
    (path.key name).Under path.file path.steps := ⟨rfl, name, [], rfl⟩

theorem Under.key (under : place.Under file steps) (name : String) :
    (place.key name).Under file steps := by
  obtain ⟨same, last, more, split⟩ := under
  exact ⟨same, last, more ++ [name], by rw [key_steps, split, List.append_assoc]; rfl⟩

theorem Under.element (under : place.Under file steps) (index : Nat) :
    (place.element index).Under file steps := by
  obtain ⟨same, first, more, split⟩ := under
  refine ⟨(element_file place index).trans same, ?_⟩
  cases more using List.reverseRecOn with
  | nil =>
    have end_ : place.steps.getLast? = some first := by rw [split, List.getLast?_concat]
    refine ⟨s!"{first}[{index}]", [], ?_⟩
    simp only [ConfigPath.element, end_]
    rw [split, List.dropLast_concat]
  | append_singleton more last =>
    have shape : place.steps = (steps ++ first :: more) ++ [last] := by
      rw [split, List.append_assoc]
      rfl
    have end_ : place.steps.getLast? = some last := by rw [shape, List.getLast?_concat]
    refine ⟨first, more ++ [s!"{last}[{index}]"], ?_⟩
    simp only [ConfigPath.element, end_]
    rw [shape, List.dropLast_concat, List.append_assoc]
    rfl

theorem Under.length (under : place.Under file steps) : steps.length < place.steps.length := by
  obtain ⟨_, last, more, split⟩ := under
  rw [split, List.length_append, List.length_cons]
  omega

end ConfigPath

namespace Loader

variable {l : Loader}

mutual

/-- The texts of a value are where it is, or below. -/
theorem textsAt_under {file : String} {steps : List String} : (value : Json) →
    (path : ConfigPath) → path.Under file steps → ∀ placed ∈ textsAt value path,
      placed.1.Under file steps
  | .string text, path, under => by
    rw [textsAt]
    intro placed only
    rw [List.mem_singleton.mp only]
    exact under
  | .array elements, path, under => by
    rw [textsAt]
    exact elementTextsAt_under 0 elements path under
  | .object members, path, under => by
    rw [textsAt]
    exact memberTextsAt_under members path fun key => under.key key
  | .null, _, _ => by simp [textsAt]
  | .bool _, _, _ => by simp [textsAt]
  | .int _, _, _ => by simp [textsAt]
  | .float _, _, _ => by simp [textsAt]

theorem elementTextsAt_under {file : String} {steps : List String} : (index : Nat) →
    (elements : List Json) → (path : ConfigPath) → path.Under file steps →
      ∀ placed ∈ elementTextsAt index elements path, placed.1.Under file steps
  | _, [], _, _ => by simp [elementTextsAt]
  | index, element :: rest, path, under => by
    rw [elementTextsAt]
    exact List.forall_mem_append.mpr
      ⟨textsAt_under element (path.element index) (under.element index),
        elementTextsAt_under (index + 1) rest path under⟩

theorem memberTextsAt_under {file : String} {steps : List String} : (members : Members) →
    (path : ConfigPath) → (∀ key, (path.key key).Under file steps) →
      ∀ placed ∈ memberTextsAt members path, placed.1.Under file steps
  | [], _, _ => by simp [memberTextsAt]
  | (key, value) :: rest, path, under => by
    rw [memberTextsAt]
    exact List.forall_mem_append.mpr
      ⟨textsAt_under value (path.key key) (under key), memberTextsAt_under rest path under⟩

end

/-- The texts of a config are below its key. -/
theorem undefined_under {config : Members} {path : ConfigPath} {e : ConfigError}
    (undefined : e ∈ (memberTextsAt config path).flatMap l.undefinedIn) :
    ∃ place, e.location = some place ∧ place.Under path.file path.steps := by
  obtain ⟨placed, member, told⟩ := List.mem_flatMap.mp undefined
  obtain ⟨name, _, rfl⟩ := List.mem_map.mp told
  exact ⟨placed.1, rfl, memberTextsAt_under config path path.under_key placed member⟩

/-- The problem is at the place, or below. -/
def AtOrBelow (place : ConfigPath) (e : ConfigError) : Prop :=
  e.location = some place ∨
    ∃ other, e.location = some other ∧ other.Under place.file place.steps

theorem atOrBelow_key {place : ConfigPath} {message name : String} :
    AtOrBelow place ⟨message, some (place.key name)⟩ := .inr ⟨_, rfl, place.under_key name⟩

theorem rejectUnknownKeys_below {body : Members} {place : ConfigPath} {allowed : List String}
    {subject : String} : Reports (AtOrBelow place) (l.rejectUnknownKeys body place allowed subject) :=
  rejectUnknownKeys_reports fun _ _ _ => atOrBelow_key

theorem buildInstance_below {draft : Draft}
    (shallow : ∀ plugin known, l.PluginIs draft.body plugin known → l.Shallow draft.body) :
    Reports (AtOrBelow draft.origin) (l.buildInstance draft) := by
  intro e reported
  rcases (mem_buildInstance shallow).mp reported with
    key | plugin | ⟨plugin, _, _, rfl⟩ | ⟨plugin, known, isKnown, flag | settings⟩
  · exact rejectUnknownKeys_below e key
  · rcases requireString_problems plugin with ⟨_, rfl | rfl⟩
    · exact .inl rfl
    · exact atOrBelow_key
  · exact atOrBelow_key
  · obtain ⟨_, rfl⟩ := mem_optionalBool.mp flag
    exact atOrBelow_key
  · rcases mem_buildSettings (shallow plugin known isKnown) settings with
      ⟨config, _, undefined⟩ | ⟨more, rfl⟩
    · obtain ⟨place, there, same, last, more, split⟩ := undefined_under undefined
      refine .inr ⟨place, there, same, "config", last :: more, ?_⟩
      rw [split, ConfigPath.key_steps, List.append_assoc]
      rfl
    · exact atOrBelow_key

section Rules

variable {registry : NameRegistry} {built : BuiltInstances} {draft : Draft} {key : String}
  {direction : PluginDirection}

theorem elementPlace_under (draft : Draft) (key : String) (index : Nat) :
    (elementPlace draft key index).Under draft.origin.file draft.origin.steps := by
  have file : (elementPlace draft key index).file = draft.origin.file :=
    ConfigPath.element_file (draft.origin.key key) index
  exact ⟨file, s!"{key}[{index}]", [], ConfigPath.element_key_steps draft.origin key index⟩

theorem MemberProblem.place {resolved : List Name} {index : Nat} {value : Json} {e : ConfigError}
    (wrong : l.MemberProblem registry built draft key direction resolved index value e) :
    e.location = some (elementPlace draft key index) := by
  cases wrong <;> rfl

/-- Where the problems of a list are: at the rule, at the key, or at an element. -/
theorem ruleMembers_place {e : ConfigError}
    (reported : e ∈ (l.ruleMembers registry built draft key direction).problems) :
    e.location = some draft.origin ∨ e.location = some (draft.origin.key key) ∨
      ∃ index, e.location = some (elementPlace draft key index) := by
  rcases mem_ruleMembers.mp reported with
    ⟨_, rfl⟩ | ⟨_, rfl⟩ | ⟨listed, _, member⟩ | ⟨value, _, _, rfl⟩
  · exact .inl rfl
  · exact .inr (.inl rfl)
  · have rounds : Reports (fun e => ∃ index, e.location = some (elementPlace draft key index))
        (listed.zipIdx.foldlM (l.resolveMember registry built draft key direction)
          (⟨[], List.nodup_nil⟩, true)) :=
      resolveMembers_reports fun _ _ _ _ index _ wrong => ⟨index, wrong.place⟩
    exact .inr (.inr (rounds e member))
  · exact .inr (.inl rfl)

theorem ruleMembers_below :
    Reports (AtOrBelow draft.origin) (l.ruleMembers registry built draft key direction) := by
  intro e reported
  rcases ruleMembers_place reported with there | there | ⟨index, there⟩
  · exact .inl there
  · exact .inr ⟨_, there, draft.origin.under_key key⟩
  · exact .inr ⟨_, there, elementPlace_under draft key index⟩

theorem buildRule_below : Reports (AtOrBelow draft.origin) (l.buildRule registry built draft) := by
  intro e reported
  rcases mem_buildRule.mp reported with
    unknown | inputs | outputs | ⟨inputs, outputs, _, _, ⟨name, _, _, rfl⟩ | ⟨_, flag⟩⟩
  · exact rejectUnknownKeys_below e unknown
  · exact ruleMembers_below e inputs
  · exact ruleMembers_below e outputs
  · exact .inl rfl
  · obtain ⟨_, rfl⟩ := mem_optionalBool.mp flag
    exact atOrBelow_key

end Rules

/- The entry a draft was made of. -/

/-- The first entry that is good in itself and has its name. -/
def FirstIn (l : Loader) (parts : List Part) (space : Namespace) (path : ConfigPath)
    (entry : String × Json) : Prop :=
  ∃ before after, parts = before ++ .named space path entry :: after ∧
    ∀ other also, .named space other also ∈ before → l.Declarable also →
      l.entryKey also ≠ l.entryKey entry

/-- No earlier declaration has the name. -/
def First (l : Loader) (documents : List Document) : Namespace → ConfigPath → String × Json → Prop :=
  l.FirstIn (partsIn documents)

/-- The draft that is made of an entry, if its name is not taken. -/
def draftAt (l : Loader) (path : ConfigPath) (raw : String) (body : Members) : Draft :=
  ⟨normalizeName raw, body, path.named l.unicode raw⟩

variable {space : Namespace} {path : ConfigPath} {entry : String × Json}

theorem firstIn_cons {part : Part} {parts : List Part} :
    l.FirstIn (part :: parts) space path entry ↔ part = .named space path entry ∨
      l.FirstIn parts space path entry ∧ ∀ other also, part = .named space other also →
        l.Declarable also → l.entryKey also ≠ l.entryKey entry := by
  constructor
  · rintro ⟨before, after, split, apart⟩
    cases before with
    | nil => exact .inl (List.cons.inj split).1
    | cons first before =>
      obtain ⟨rfl, rest⟩ := List.cons.inj split
      refine .inr ⟨⟨before, after, rest, fun other also member => ?_⟩, fun other also same => ?_⟩
      · exact apart other also (List.mem_cons_of_mem _ member)
      · exact apart other also (same ▸ List.mem_cons_self)
  · rintro (rfl | ⟨⟨before, after, rfl, apart⟩, here⟩)
    · exact ⟨[], parts, rfl, fun _ _ member => by cases member⟩
    · refine ⟨part :: before, after, rfl, fun other also member => ?_⟩
      rcases List.mem_cons.mp member with same | member
      · exact here other also same.symm
      · exact apart other also member

theorem mem_drafts_part {c : Collected} {other : Namespace} {draft : Draft} :
    draft ∈ (l.takePart c (.named other path entry)).drafts space ↔ draft ∈ c.drafts space ∨
      other = space ∧ l.entryKey entry ∉ c.registry.of space ∧ l.Declarable entry ∧
        ∃ body, entry.2 = .object body ∧ draft = l.draftAt path entry.1 body := by
  by_cases fine : l.Fine c (.named other path entry)
  · obtain ⟨⟨valid, body, object⟩, free⟩ := fine
    rw [takePart_fine valid object free, drafts_addDraft]
    by_cases same : space = other
    · subst same
      have good : l.Declarable entry := ⟨valid, body, object⟩
      simp [List.mem_append, free, good, object, draftAt]
    · rw [if_neg same]
      exact ⟨.inl, fun either => either.resolve_right fun there => same there.1.symm⟩
  · rw [takePart_not_fine fine]
    refine ⟨.inl, ?_⟩
    rintro (there | ⟨rfl, free, good, _⟩)
    · exact there
    · exact absurd ⟨good, free⟩ fine

theorem mem_drafts_parts {draft : Draft} (parts : List Part) (c : Collected) :
    draft ∈ (parts.foldl l.takePart c).drafts space ↔ draft ∈ c.drafts space ∨
      ∃ path entry, l.FirstIn parts space path entry ∧ l.entryKey entry ∉ c.registry.of space ∧
        l.Declarable entry ∧ ∃ body, entry.2 = .object body ∧ draft = l.draftAt path entry.1 body := by
  induction parts generalizing c with
  | nil =>
    refine ⟨.inl, fun either => either.resolve_right ?_⟩
    rintro ⟨path, entry, ⟨before, after, split, _⟩, _⟩
    exact absurd split.symm (by simp)
  | cons part parts ih =>
    rw [List.foldl_cons, ih]
    cases part with
    | daemon body place =>
      refine or_congr (by cases space <;> rfl) (exists_congr fun path => exists_congr fun entry => ?_)
      rw [firstIn_cons]
      have first : l.FirstIn parts space path entry ↔ Part.daemon body place = .named space path entry ∨
          l.FirstIn parts space path entry ∧ ∀ other also, Part.daemon body place =
            .named space other also → l.Declarable also → l.entryKey also ≠ l.entryKey entry := by
        simp
      rw [← first]
      exact Iff.rfl
    | named other place first =>
      rw [mem_drafts_part, or_assoc]
      refine or_congr_right ?_
      simp only [firstIn_cons, mem_registry_takePart, not_or, not_and, Part.named.injEq]
      constructor
      · rintro (⟨rfl, free, good, content⟩ | ⟨path, entry, there, ⟨free, apart⟩, good, content⟩)
        · exact ⟨place, first, .inl ⟨rfl, rfl, rfl⟩, free, good, content⟩
        · refine ⟨path, entry, .inr ⟨there, ?_⟩, free, good, content⟩
          rintro place' also ⟨rfl, rfl, rfl⟩ fine same
          exact apart rfl fine same
      · rintro ⟨path, entry, ⟨rfl, rfl, rfl⟩ | ⟨there, apart⟩, free, good, content⟩
        · exact .inl ⟨rfl, free, good, content⟩
        · refine .inr ⟨path, entry, there, ⟨free, ?_⟩, good, content⟩
          rintro rfl fine same
          exact apart place first ⟨rfl, rfl, rfl⟩ fine same

/-- The drafts are made of the first entries that are good in themselves. -/
theorem mem_drafts {documents : List Document} {draft : Draft} :
    draft ∈ (l.gathered documents).drafts space ↔ ∃ path entry, l.First documents space path entry ∧
      l.Declarable entry ∧ ∃ body, entry.2 = .object body ∧ draft = l.draftAt path entry.1 body := by
  rw [gathered, mem_drafts_parts]
  cases space <;> simp [Collected.drafts, NameRegistry.of, First]

/- The place of an entry is its own. -/

theorem named_mem_partsIn {documents : List Document} :
    .named space path entry ∈ partsIn documents ↔ ∃ document ∈ documents, ∃ body,
      (space.key, .object body) ∈ document.2 ∧ entry ∈ body ∧
        path = ConfigPath.key ⟨document.1, []⟩ space.key := by
  have part (file : String) (member : String × Json) :
      .named space path entry ∈ partsOf file member ↔ ∃ body, member = (space.key, .object body) ∧
        entry ∈ body ∧ path = ConfigPath.key ⟨file, []⟩ space.key := by
    obtain ⟨key, value⟩ := member
    unfold partsOf
    cases value with
    | object body =>
      simp only [Json.object?]
      split_ifs with daemon instances rules
      all_goals cases space
      all_goals simp_all [Namespace.key, eq_comm]
    | _ => simp [Json.object?]
  simp only [partsIn, List.mem_flatMap, part]
  constructor
  · rintro ⟨document, member, _, there, body, rfl, content⟩
    exact ⟨document, member, body, there, content⟩
  · rintro ⟨document, member, body, there, content⟩
    exact ⟨document, member, _, there, body, rfl, content⟩

theorem entry_unique {documents : List Document} (distinct : Distinct documents)
    {other : Namespace} {also : String × Json} (there : .named space path entry ∈ partsIn documents)
    (again : .named other path also ∈ partsIn documents) (raw : entry.1 = also.1) :
    space = other ∧ entry = also := by
  obtain ⟨document, member, body, listed, declared, rfl⟩ := named_mem_partsIn.mp there
  obtain ⟨second, known, content, shown, written, same⟩ := named_mem_partsIn.mp again
  obtain ⟨files, steps⟩ := (ConfigPath.mk.injEq ..).mp same
  have spaces : space = other := Namespace.key_injective (List.singleton_inj.mp steps)
  subst spaces
  have documents_same : document = second :=
    List.inj_on_of_nodup_map distinct.files member known files
  subst documents_same
  have blocks_same := List.inj_on_of_nodup_map (distinct.keys document member) listed shown rfl
  cases blocks_same
  have names := distinct.names document member _ listed body rfl
  exact ⟨rfl, List.inj_on_of_nodup_map names declared written raw⟩

/- What is told of an entry is its own. -/

variable (l) in
/-- What is reported of a draft, once the merging is done. -/
def ownProblems (documents : List Document) : Namespace → Draft → List ConfigError
  | .instances, draft => (l.buildInstance draft).problems
  | .rules, draft => (l.buildRule (l.gathered documents).registry
      (l.builtFrom (l.gathered documents).instanceDrafts) draft).problems

theorem told_of_drafts {directory : String} {documents : List Document} {e : ConfigError} :
    l.Told directory documents e ↔ l.Manageable documents ∧
      (e ∈ l.earlyProblems directory documents ∨
        ∃ space, ∃ draft ∈ (l.gathered documents).drafts space, e ∈ l.ownProblems documents space draft) := by
  rw [told_iff]
  apply and_congr_right
  intro _
  apply or_congr_right
  constructor
  · rintro (⟨draft, member, here⟩ | ⟨draft, member, here⟩)
    · exact ⟨.instances, draft, member, here⟩
    · exact ⟨.rules, draft, member, here⟩
  · rintro ⟨space, draft, member, here⟩
    cases space with
    | instances => exact .inl ⟨draft, member, here⟩
    | rules => exact .inr ⟨draft, member, here⟩

theorem ownProblems_below {documents : List Document} (manageable : l.Manageable documents)
    {draft : Draft} (member : draft ∈ (l.gathered documents).drafts space) :
    ∀ e ∈ l.ownProblems documents space draft, AtOrBelow draft.origin e := by
  cases space with
  | instances => exact buildInstance_below (buildInstances_returns.mp (manageable_iff.mp manageable).2 draft member)
  | rules => exact buildRule_below

/-- Below the place of an entry only its own problems are told, and those when it is the
first of its name. -/
theorem told_below_iff {directory : String} {documents : List Document} {e : ConfigError}
    {body : Members} {place : ConfigPath} (distinct : Distinct documents)
    (there : .named space path entry ∈ partsIn documents) (good : l.Declarable entry)
    (object : entry.2 = .object body) (located : e.location = some place)
    (under : place.Under (path.named l.unicode entry.1).file (path.named l.unicode entry.1).steps) :
    l.Told directory documents e ↔ l.Manageable documents ∧ l.First documents space path entry ∧
      e ∈ l.ownProblems documents space (l.draftAt path entry.1 body) := by
  obtain ⟨document, _, _, _, _, top⟩ := named_mem_partsIn.mp there
  rw [told_of_drafts]
  apply and_congr_right
  intro manageable
  constructor
  · rintro (early | ⟨other, draft, member, here⟩)
    · have near := (early_of_mem e early).near place located
      have far := under.length
      rw [top, ConfigPath.named, ConfigPath.key_steps] at far
      simp only [List.nil_append, List.length_append, List.length_singleton] at far
      omega
    · obtain ⟨shown, also, first, fine, content, written, rfl⟩ := mem_drafts.mp member
      obtain ⟨before, after, split, _⟩ := id first
      have listed : .named other shown also ∈ partsIn documents := by
        rw [split]
        exact List.mem_append_right _ List.mem_cons_self
      obtain ⟨second, _, _, _, _, above⟩ := named_mem_partsIn.mp listed
      have same : path.named l.unicode entry.1 = shown.named l.unicode also.1 := by
        obtain ⟨file, last, more, steps⟩ := under
        have short : (path.named l.unicode entry.1).steps.length = 2 := by rw [top]; rfl
        have brief : (shown.named l.unicode also.1).steps.length = 2 := by rw [above]; rfl
        rcases ownProblems_below manageable member e here with at_ | ⟨wide, at_, also_file, first, rest, split⟩
        · have origin : place = shown.named l.unicode also.1 :=
            Option.some.inj (located.symm.trans at_)
          have sizes := congrArg List.length steps
          rw [origin, brief, List.length_append, List.length_cons, short] at sizes
          omega
        · cases located.symm.trans at_
          have begins := List.append_inj_left (steps.symm.trans split) (short.trans brief.symm)
          exact (ConfigPath.mk.injEq ..).mpr ⟨file.symm.trans also_file, begins⟩
      obtain ⟨files, steps⟩ := (ConfigPath.mk.injEq ..).mp same
      have sizes (a b : String) : [a].length = [b].length := rfl
      obtain ⟨tops, last⟩ := List.append_inj' steps (sizes _ _)
      have raw : entry.1 = also.1 := l.unicode.repr_injective (List.singleton_inj.mp last)
      have paths : path = shown := (ConfigPath.mk.injEq ..).mpr ⟨files, tops⟩
      subst paths
      obtain ⟨rfl, rfl⟩ := entry_unique distinct there listed raw
      cases object.symm.trans written
      exact ⟨first, here⟩
  · rintro ⟨first, here⟩
    exact .inr ⟨space, _, mem_drafts.mpr ⟨path, entry, first, good, body, object, rfl⟩, here⟩

end Loader

end NotiMapper
