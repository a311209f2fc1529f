import NotiMapper.Config.Loader

/-! What the merging of the files leaves, as one pass over what the documents declare: the
first daemon block, and of the named objects those that are valid and not taken. -/
namespace NotiMapper

open Python Report

abbrev Document := String × Members

/-- The objects under a top-level key, through the files. -/
def blocks (key : String) (documents : List Document) : List Members :=
  documents.flatMap fun document =>
    document.2.filterMap fun member => if member.1 = key then member.2.object? else none

def Namespace.key : Namespace → String
  | .instances => "instances"
  | .rules => "rules"

/-- The named objects that the documents declare, under their names as they are written. -/
def declared (space : Namespace) (documents : List Document) : List (String × Json) :=
  (blocks space.key documents).flatten

/-- What one member of a document has for the merge. -/
inductive Part
  | daemon (body : Members) (path : ConfigPath)
  | named (space : Namespace) (path : ConfigPath) (entry : String × Json)

def Part.daemon? : Part → Option Members
  | .daemon body _ => some body
  | .named _ _ _ => none

def Part.entry? (space : Namespace) : Part → Option (String × Json)
  | .daemon _ _ => none
  | .named other _ entry => if other = space then some entry else none

def partsOf (file : String) (member : String × Json) : List Part :=
  let path : ConfigPath := ConfigPath.key ⟨file, []⟩ member.1
  match member.2.object? with
  | none => []
  | some body =>
    if member.1 = "daemon" then [.daemon body path]
    else if member.1 = "instances" then body.map (.named .instances path)
    else if member.1 = "rules" then body.map (.named .rules path)
    else []

def partsIn (documents : List Document) : List Part :=
  documents.flatMap fun document => document.2.flatMap (partsOf document.1)

theorem filterMap_partsOf_daemon (file : String) (member : String × Json) :
    (partsOf file member).filterMap Part.daemon? =
      (if member.1 = "daemon" then member.2.object? else none).toList := by
  unfold partsOf
  cases member.2.object? with
  | none => simp
  | some body =>
    simp only
    split_ifs with daemon instances rules
    · rfl
    all_goals simp [List.filterMap_eq_nil_iff, Part.daemon?]

theorem filterMap_partsOf_entry (space : Namespace) (file : String) (member : String × Json) :
    (partsOf file member).filterMap (Part.entry? space) =
      (if member.1 = space.key then member.2.object? else none).toList.flatten := by
  unfold partsOf
  cases member.2.object? with
  | none => simp
  | some body =>
    simp only
    split_ifs with daemon here instances there rules
    all_goals cases space <;>
      simp_all [Namespace.key, Part.entry?, List.filterMap_map, Function.comp_def]

theorem partsIn_daemon (documents : List Document) :
    (partsIn documents).filterMap Part.daemon? = blocks "daemon" documents := by
  simp only [partsIn, blocks, List.filterMap_flatMap, filterMap_partsOf_daemon]
  simp only [List.filterMap_eq_flatMap_toList]

theorem partsIn_entry (space : Namespace) (documents : List Document) :
    (partsIn documents).filterMap (Part.entry? space) = declared space documents := by
  simp only [partsIn, declared, blocks, List.filterMap_flatMap, filterMap_partsOf_entry]
  simp only [List.filterMap_eq_flatMap_toList, ← List.flatMap_id, List.flatMap_assoc]

namespace Loader

variable (l : Loader)

/-- The key under which a declared name is registered. -/
def entryKey (entry : String × Json) : String :=
  l.unicode.uniquenessKey (normalizeName entry.1)

/-- An entry that can be registered, if its name is not taken. -/
def Declarable (entry : String × Json) : Prop :=
  l.unicode.ValidName (normalizeName entry.1) ∧ ∃ body, entry.2 = .object body

def Fine (c : Collected) : Part → Prop
  | .daemon _ _ => c.daemon = none
  | .named space _ entry => l.Declarable entry ∧ l.entryKey entry ∉ c.registry.of space

/-- What a part leaves; what is reported leaves nothing. -/
def takePart (c : Collected) : Part → Collected
  | .daemon body path => { c with daemon := c.daemon.or (some (body, path)) }
  | .named space path entry =>
    if l.unicode.findNameProblems entry.1 = [] ∧ l.entryKey entry ∉ c.registry.of space then
      match entry.2.object? with
      | some body => l.addDraft space ⟨normalizeName entry.1, body, path.named l.unicode entry.1⟩ c
      | none => c
    else c

def collectPart (c : Collected) : Part → Checked Collected
  | .daemon body path => collectDaemon body path c
  | .named space path entry => l.collectNamed space path c entry

theorem collectDaemon_gives (body : Members) (path : ConfigPath) (c : Collected) :
    Gives (collectDaemon body path c) (c.daemon = none)
      { c with daemon := c.daemon.or (some (body, path)) } := by
  rcases c with ⟨registry, instanceDrafts, ruleDrafts, _ | ⟨known, origin⟩⟩
  · exact (Gives.pure _).congr (by simp)
  · have kept := Gives.pure (ε := ConfigError) (χ := Escape)
      (Collected.mk registry instanceDrafts ruleDrafts (some (known, origin)))
    exact (Gives.tell_bind kept).congr (iff_of_false id (Option.some_ne_none _))

theorem findConflict_eq_none {c : Collected} {space : Namespace} {entry : String × Json} :
    c.registry.findConflict l.unicode space (normalizeName entry.1) = none ↔
      l.entryKey entry ∉ c.registry.of space := by
  rw [NameRegistry.findConflict, normalizeName_idem, AList.lookup_eq_none, entryKey]

theorem collectNamed_gives (space : Namespace) (path : ConfigPath) (c : Collected)
    (entry : String × Json) : Gives (l.collectNamed space path c entry)
      (l.Fine c (.named space path entry)) (l.takePart c (.named space path entry)) := by
  have valid : l.unicode.findNameProblems entry.1 = [] ↔ _ := l.unicode.findNameProblems_nil
  have free : c.registry.findConflict l.unicode space (normalizeName entry.1) = none ↔ _ :=
    l.findConflict_eq_none
  simp only [collectNamed, takePart, Fine, Declarable, ← valid, ← free]
  cases l.unicode.findNameProblems entry.1 with
  | cons first rest =>
    rw [if_neg (by simp)]
    exact ((Gives.forM_tell (first :: rest)).bind (Gives.pure c)).congr (by simp)
  | nil =>
    cases c.registry.findConflict l.unicode space (normalizeName entry.1) with
    | some conflict =>
      rw [if_neg (by simp)]
      exact (Gives.tell_bind (Gives.pure c)).congr (by simp)
    | none =>
      rw [if_pos ⟨rfl, rfl⟩]
      cases entry.2 with
      | object body => exact (Gives.pure _).congr (by simp)
      | _ => exact (Gives.tell_bind (Gives.pure c)).congr (by simp)

theorem collectPart_gives (c : Collected) (part : Part) :
    Gives (l.collectPart c part) (l.Fine c part) (l.takePart c part) := by
  cases part with
  | daemon body path => exact collectDaemon_gives body path c
  | named space path entry => exact l.collectNamed_gives space path c entry

/-- A member of a document that is not reported as a whole. -/
def Known (member : String × Json) : Prop :=
  member.1 ∈ topLevelKeys ∧ ∃ body, member.2 = .object body

theorem collectMember_object {file key : String} {body : Members} {c : Collected}
    (known : key ∈ topLevelKeys) : l.collectMember file c (key, .object body) =
      (partsOf file (key, .object body)).foldlM l.collectPart c := by
  rw [collectMember, if_neg (not_not_intro known)]
  simp only [topLevelKeys, List.mem_cons, List.not_mem_nil, or_false] at known
  rcases known with rfl | rfl | rfl
  · exact (bind_pure _).symm
  · have named : partsOf file ("instances", .object body) =
        body.map (.named .instances (ConfigPath.key ⟨file, []⟩ "instances")) := rfl
    rw [named, List.foldlM_map]
    rfl
  · have named : partsOf file ("rules", .object body) =
        body.map (.named .rules (ConfigPath.key ⟨file, []⟩ "rules")) := rfl
    rw [named, List.foldlM_map]
    rfl

theorem partsOf_unknown {file : String} {member : String × Json}
    (unknown : ¬ Known member) : partsOf file member = [] := by
  unfold partsOf
  cases object : member.2.object? with
  | none => rfl
  | some body =>
    have stray : member.1 ∉ topLevelKeys := fun known =>
      unknown ⟨known, body, Json.object?_eq_some.mp object⟩
    simp only [topLevelKeys, List.mem_cons, List.not_mem_nil, or_false, not_or] at stray
    simp only [if_neg stray.1, if_neg stray.2.1, if_neg stray.2.2]

theorem collectMember_gives (file : String) (c : Collected) (member : String × Json) :
    Gives (l.collectMember file c member)
      (Known member ∧ Along l.Fine l.takePart c (partsOf file member))
      ((partsOf file member).foldl l.takePart c) := by
  by_cases known : Known member
  · obtain ⟨key, value⟩ := member
    obtain ⟨listed, body, rfl⟩ := known
    rw [l.collectMember_object listed]
    refine Gives.congr (Gives.foldlM (fun c part _ => l.collectPart_gives c part) c) ?_
    simp [Known, listed]
  · have reported : Gives (l.collectMember file c member) False c := by
      unfold collectMember
      split
      · exact Gives.tell_bind (Gives.pure c)
      · rename_i listed
        split
        · rename_i body object
          exact absurd ⟨not_not.mp listed, body, object⟩ known
        · exact Gives.tell_bind (Gives.pure c)
    rw [partsOf_unknown known]
    exact reported.congr (by simp [known])

theorem collectDocument_gives (file : String) (document : Members) (c : Collected) :
    Gives (l.collectDocument file document c)
      ((∀ member ∈ document, Known member) ∧
        Along l.Fine l.takePart c (document.flatMap (partsOf file)))
      ((document.flatMap (partsOf file)).foldl l.takePart c) :=
  Gives.foldlM_flatMap (fun c member _ => l.collectMember_gives file c member) c

/- What is left, in terms of what was declared. -/

variable {l}

theorem takePart_fine {c : Collected} {space : Namespace} {path : ConfigPath}
    {entry : String × Json} {body : Members} (valid : l.unicode.ValidName (normalizeName entry.1))
    (object : entry.2 = .object body) (free : l.entryKey entry ∉ c.registry.of space) :
    l.takePart c (.named space path entry) =
      l.addDraft space ⟨normalizeName entry.1, body, path.named l.unicode entry.1⟩ c := by
  rw [takePart, if_pos ⟨l.unicode.findNameProblems_nil.mpr valid, free⟩, object]
  rfl

theorem takePart_not_fine {c : Collected} {space : Namespace} {path : ConfigPath}
    {entry : String × Json} (bad : ¬ l.Fine c (.named space path entry)) :
    l.takePart c (.named space path entry) = c := by
  rw [takePart]
  split
  · rename_i fine
    cases object : entry.2.object? with
    | none => rfl
    | some body =>
      have valid := l.unicode.findNameProblems_nil.mp fine.1
      exact absurd ⟨⟨valid, body, Json.object?_eq_some.mp object⟩, fine.2⟩ bad
  · rfl

end Loader

def Collected.drafts (c : Collected) : Namespace → List Draft
  | .instances => c.instanceDrafts
  | .rules => c.ruleDrafts

namespace Loader

variable (l : Loader)

/-- What a document declares under a name that no earlier entry, good in itself, has. -/
def Reached (entries : List (String × Json)) (entry : String × Json) : Prop :=
  l.Declarable entry ∧ ∃ before after, entries = before ++ entry :: after ∧
    ∀ other ∈ before, l.Declarable other → l.entryKey other ≠ l.entryKey entry

def draftKey (draft : Draft) : String := l.unicode.uniquenessKey draft.name

/-- The drafts have keys of their own, and these are the ones registered. -/
def Registered (c : Collected) : Prop :=
  ∀ space, ((c.drafts space).map l.draftKey).Nodup ∧
    ∀ key, key ∈ c.registry.of space ↔ key ∈ (c.drafts space).map l.draftKey

variable {l}

@[simp] theorem drafts_addDraft {c : Collected} {space other : Namespace} {draft : Draft} :
    (l.addDraft space draft c).drafts other =
      if other = space then c.drafts other ++ [draft] else c.drafts other := by
  cases space <;> cases other <;> rfl

@[simp] theorem registry_addDraft {c : Collected} {space : Namespace} {draft : Draft} :
    (l.addDraft space draft c).registry =
      c.registry.register l.unicode space draft.name draft.origin.toText := by
  cases space <;> rfl

@[simp] theorem daemon_addDraft {c : Collected} {space : Namespace} {draft : Draft} :
    (l.addDraft space draft c).daemon = c.daemon := by
  cases space <;> rfl

theorem Registered.takePart {c : Collected} (registered : l.Registered c) (part : Part) :
    l.Registered (l.takePart c part) := by
  cases part with
  | daemon body path => exact registered
  | named space path entry =>
    by_cases fine : l.Fine c (.named space path entry)
    · obtain ⟨⟨valid, body, object⟩, free⟩ := fine
      rw [takePart_fine valid object free]
      intro other
      rw [drafts_addDraft, registry_addDraft, NameRegistry.of_register]
      by_cases same : other = space
      · subst same
        obtain ⟨nodup, keys⟩ := registered other
        simp only [if_pos, normalizeName_idem, List.map_append, List.map_cons, List.map_nil]
        constructor
        · refine List.Nodup.append nodup (List.nodup_singleton _) ?_
          intro key drafted last
          rw [List.mem_singleton] at last
          have same : key = l.entryKey entry := last
          exact free ((keys _).mpr (same ▸ drafted))
        · intro key
          rw [AList.mem_insert, keys key, List.mem_append, List.mem_singleton, or_comm]
          rfl
      · simpa only [if_neg same] using registered other
    · rw [takePart_not_fine fine]
      exact registered

theorem Registered.foldl {c : Collected} (registered : l.Registered c) (parts : List Part) :
    l.Registered (parts.foldl l.takePart c) := by
  induction parts generalizing c with
  | nil => exact registered
  | cons part parts ih => exact ih (registered.takePart part)

theorem registered_empty : l.Registered {} := by
  intro space
  cases space <;> exact ⟨List.nodup_nil, fun key => by simp [NameRegistry.of, Collected.drafts]⟩

theorem daemon_takePart_named {c : Collected} {space : Namespace} {path : ConfigPath}
    {entry : String × Json} : (l.takePart c (.named space path entry)).daemon = c.daemon := by
  by_cases fine : l.Fine c (.named space path entry)
  · obtain ⟨⟨valid, body, object⟩, free⟩ := fine
    rw [takePart_fine valid object free, daemon_addDraft]
  · rw [takePart_not_fine fine]

theorem daemon_foldl (parts : List Part) (c : Collected) :
    ((parts.foldl l.takePart c).daemon.map (·.1)) =
      (c.daemon.map (·.1)).or (parts.filterMap Part.daemon?).head? := by
  induction parts generalizing c with
  | nil => simp
  | cons part parts ih =>
    rw [List.foldl_cons, ih]
    cases part with
    | daemon body path =>
      cases daemon : c.daemon <;> simp [Loader.takePart, daemon, Part.daemon?]
    | named space path entry =>
      rw [daemon_takePart_named]
      rfl

theorem reached_cons {first entry : String × Json} {entries : List (String × Json)} :
    l.Reached (first :: entries) entry ↔ l.Declarable entry ∧ entry = first ∨
      l.Reached entries entry ∧ (l.Declarable first → l.entryKey first ≠ l.entryKey entry) := by
  constructor
  · rintro ⟨good, before, after, split, apart⟩
    cases before with
    | nil => exact .inl ⟨good, (List.cons.inj split).1.symm⟩
    | cons other before =>
      obtain ⟨rfl, rest⟩ := List.cons.inj split
      obtain ⟨here, later⟩ := List.forall_mem_cons.mp apart
      exact .inr ⟨⟨good, before, after, rest, later⟩, here⟩
  · rintro (⟨good, rfl⟩ | ⟨⟨good, before, after, rfl, apart⟩, here⟩)
    · exact ⟨good, [], entries, rfl, List.forall_mem_nil _⟩
    · exact ⟨good, first :: before, after, rfl, List.forall_mem_cons.mpr ⟨here, apart⟩⟩

theorem mem_registry_takePart {c : Collected} {space other : Namespace} {path : ConfigPath}
    {entry : String × Json} {key : String} :
    key ∈ (l.takePart c (.named other path entry)).registry.of space ↔
      key ∈ c.registry.of space ∨ other = space ∧ l.Declarable entry ∧ l.entryKey entry = key := by
  by_cases fine : l.Fine c (.named other path entry)
  · obtain ⟨good, free⟩ := fine
    obtain ⟨valid, body, object⟩ := good
    rw [takePart_fine valid object free, registry_addDraft, NameRegistry.of_register]
    by_cases same : space = other
    · subst same
      rw [if_pos rfl, AList.mem_insert, normalizeName_idem, or_comm, eq_comm]
      simp only [true_and, entryKey]
      exact or_congr_right ⟨fun same => ⟨⟨valid, body, object⟩, same⟩, (·.2)⟩
    · rw [if_neg same]
      exact ⟨.inl, fun either => either.resolve_right fun there => same there.1.symm⟩
  · rw [takePart_not_fine fine]
    refine ⟨.inl, ?_⟩
    rintro (there | ⟨rfl, good, rfl⟩)
    · exact there
    · exact not_not.mp fun free => fine ⟨good, free⟩

theorem mem_drafts_takePart {c : Collected} {space other : Namespace} {path : ConfigPath}
    {entry : String × Json} {P : Name → Members → Prop} :
    (∃ draft ∈ (l.takePart c (.named other path entry)).drafts space, P draft.name draft.body) ↔
      (∃ draft ∈ c.drafts space, P draft.name draft.body) ∨
        other = space ∧ l.entryKey entry ∉ c.registry.of space ∧ l.Declarable entry ∧
          ∃ body, entry.2 = .object body ∧ P (normalizeName entry.1) body := by
  by_cases fine : l.Fine c (.named other path entry)
  · obtain ⟨⟨valid, body, object⟩, free⟩ := fine
    rw [takePart_fine valid object free, drafts_addDraft]
    by_cases same : space = other
    · subst same
      have good : l.Declarable entry := ⟨valid, body, object⟩
      simp [List.mem_append, or_and_right, exists_or, free, good, object]
    · rw [if_neg same]
      exact ⟨.inl, fun either => either.resolve_right fun there => same there.1.symm⟩
  · rw [takePart_not_fine fine]
    refine ⟨.inl, ?_⟩
    rintro (there | ⟨rfl, free, good, _⟩)
    · exact there
    · exact absurd ⟨good, free⟩ fine

/-- A draft is made of each entry that is reached, unless its key was taken before. -/
theorem mem_drafts_foldl {space : Namespace} {P : Name → Members → Prop} (parts : List Part)
    (c : Collected) :
    (∃ draft ∈ (parts.foldl l.takePart c).drafts space, P draft.name draft.body) ↔
      (∃ draft ∈ c.drafts space, P draft.name draft.body) ∨
        ∃ entry, l.Reached (parts.filterMap (Part.entry? space)) entry ∧
          l.entryKey entry ∉ c.registry.of space ∧
          ∃ body, entry.2 = .object body ∧ P (normalizeName entry.1) body := by
  induction parts generalizing c with
  | nil =>
    refine ⟨.inl, fun either => either.resolve_right ?_⟩
    rintro ⟨entry, ⟨_, before, after, split, _⟩, _⟩
    exact absurd split.symm (by simp)
  | cons part parts ih =>
    rw [List.foldl_cons, ih]
    cases part with
    | daemon body path => cases space <;> rfl
    | named other path first =>
      rw [mem_drafts_takePart, or_assoc]
      refine or_congr_right ?_
      by_cases same : other = space
      · subst same
        have entries : (Part.named other path first :: parts).filterMap (Part.entry? other) =
            first :: parts.filterMap (Part.entry? other) := by simp [Part.entry?]
        simp only [entries, reached_cons, mem_registry_takePart, true_and, not_or, not_and]
        constructor
        · rintro (⟨free, good, body, object, holds⟩ | ⟨entry, reached, ⟨free, apart⟩, content⟩)
          · exact ⟨first, .inl ⟨good, rfl⟩, free, body, object, holds⟩
          · exact ⟨entry, .inr ⟨reached, apart⟩, free, content⟩
        · rintro ⟨entry, ⟨good, rfl⟩ | ⟨reached, apart⟩, free, content⟩
          · exact .inl ⟨free, good, content⟩
          · exact .inr ⟨entry, reached, ⟨free, apart⟩, content⟩
      · have entries : (Part.named other path first :: parts).filterMap (Part.entry? space) =
            parts.filterMap (Part.entry? space) := by simp [Part.entry?, same]
        simp only [entries, mem_registry_takePart, same, false_and, or_false, false_or]

theorem reached_of_nodup {entries : List (String × Json)} {entry : String × Json}
    (nodup : (entries.map l.entryKey).Nodup) (good : l.Declarable entry) (member : entry ∈ entries) :
    l.Reached entries entry := by
  obtain ⟨before, after, rfl⟩ := List.append_of_mem member
  refine ⟨good, before, after, rfl, fun other earlier _ same => ?_⟩
  rw [List.map_append, List.nodup_append] at nodup
  exact nodup.2.2 _ (List.mem_map_of_mem earlier) _ (List.mem_map_of_mem List.mem_cons_self) same

/- All of it is fine when there is one daemon block, and the entries are good and have keys
of their own. -/

variable (l) in
def New (c : Collected) (space : Namespace) (entries : List (String × Json)) : Prop :=
  (∀ entry ∈ entries, l.Declarable entry ∧ l.entryKey entry ∉ c.registry.of space) ∧
    (entries.map l.entryKey).Nodup

theorem new_cons {c : Collected} {space : Namespace} {path : ConfigPath} {first : String × Json}
    {entries : List (String × Json)} : l.New c space (first :: entries) ↔
      l.Fine c (.named space path first) ∧
        l.New (l.takePart c (.named space path first)) space entries := by
  simp only [New, Fine, List.forall_mem_cons, List.map_cons, List.nodup_cons, List.mem_map,
    mem_registry_takePart, true_and, not_or, not_and, not_exists]
  constructor
  · rintro ⟨⟨fine, later⟩, apart, nodup⟩
    refine ⟨fine, fun entry member => ⟨(later entry member).1, (later entry member).2, ?_⟩, nodup⟩
    exact fun _ same => apart entry member same.symm
  · rintro ⟨fine, later, nodup⟩
    refine ⟨⟨fine, fun entry member => ⟨(later entry member).1, (later entry member).2.1⟩⟩, ?_, nodup⟩
    exact fun entry member same => (later entry member).2.2 fine.1 same.symm

theorem new_other {c : Collected} {space other : Namespace} {path : ConfigPath}
    {first : String × Json} {entries : List (String × Json)} (apart : other ≠ space) :
    l.New (l.takePart c (.named other path first)) space entries ↔ l.New c space entries := by
  simp only [New, mem_registry_takePart, apart, false_and, or_false]

theorem along_fine (parts : List Part) (c : Collected) :
    Along l.Fine l.takePart c parts ↔
      c.daemon.toList.length + (parts.filterMap Part.daemon?).length ≤ 1 ∧
        ∀ space, l.New c space (parts.filterMap (Part.entry? space)) := by
  induction parts generalizing c with
  | nil =>
    refine iff_of_true trivial ⟨?_, fun space => ⟨List.forall_mem_nil _, List.nodup_nil⟩⟩
    cases c.daemon <;> simp
  | cons part parts ih =>
    rw [Along, ih]
    cases part with
    | daemon body path =>
      have spaces (space : Namespace) : l.New (l.takePart c (.daemon body path)) space
          (parts.filterMap (Part.entry? space)) ↔
          l.New c space ((Part.daemon body path :: parts).filterMap (Part.entry? space)) := Iff.rfl
      simp only [spaces, ← and_assoc]
      refine and_congr_left' ?_
      cases daemon : c.daemon <;> simp [Fine, takePart, daemon, Part.daemon?]
    | named other path first =>
      rw [daemon_takePart_named, and_left_comm]
      refine and_congr Iff.rfl ?_
      have there : (Part.named other path first :: parts).filterMap (Part.entry? other) =
          first :: parts.filterMap (Part.entry? other) := by simp [Part.entry?]
      have elsewhere {space : Namespace} (apart : other ≠ space) :
          (Part.named other path first :: parts).filterMap (Part.entry? space) =
            parts.filterMap (Part.entry? space) := by simp [Part.entry?, apart]
      constructor
      · rintro ⟨fine, later⟩ space
        by_cases same : other = space
        · subst same
          rw [there]
          exact new_cons.mpr ⟨fine, later other⟩
        · rw [elsewhere same]
          exact (new_other same).mp (later space)
      · intro all
        have whole : l.New c other (first :: parts.filterMap (Part.entry? other)) :=
          there ▸ all other
        obtain ⟨fine, later⟩ : l.Fine c (.named other path first) ∧ _ := new_cons.mp whole
        refine ⟨fine, fun space => ?_⟩
        by_cases same : other = space
        · exact same ▸ later
        · exact (new_other same).mpr (elsewhere same ▸ all space)

end Loader

abbrev ParsedFile := String × Checked (Option Members)

/-- The document a file holds. -/
def documentIn (file : ParsedFile) : Option Document :=
  match file.2.result with
  | .ok document => document.map (file.1, ·)
  | .error _ => none

def documentsOf (files : List ParsedFile) : List Document := files.filterMap documentIn

namespace Loader

variable (l : Loader)

/-- What is left of the documents. -/
def gathered (documents : List Document) : Collected :=
  (partsIn documents).foldl l.takePart {}

variable {l}

theorem gathered_daemon (documents : List Document) :
    (l.gathered documents).daemon.map (·.1) = (blocks "daemon" documents).head? := by
  rw [gathered, daemon_foldl, partsIn_daemon]
  rfl

theorem exists_draft (documents : List Document) (space : Namespace)
    (P : Name → Members → Prop) :
    (∃ draft ∈ (l.gathered documents).drafts space, P draft.name draft.body) ↔
      ∃ entry, l.Reached (declared space documents) entry ∧
        ∃ body, entry.2 = .object body ∧ P (normalizeName entry.1) body := by
  rw [gathered, mem_drafts_foldl, partsIn_entry]
  cases space <;> simp [Collected.drafts, NameRegistry.of]

theorem forall_draft (documents : List Document) (space : Namespace)
    (P : Name → Members → Prop) :
    (∀ draft ∈ (l.gathered documents).drafts space, P draft.name draft.body) ↔
      ∀ entry, l.Reached (declared space documents) entry →
        ∀ body, entry.2 = .object body → P (normalizeName entry.1) body := by
  have none_bad := not_congr (exists_draft (l := l) documents space fun n b => ¬ P n b)
  push Not at none_bad
  exact none_bad

theorem gathered_nodup (documents : List Document) (space : Namespace) :
    (((l.gathered documents).drafts space).map (·.name)).Nodup := by
  have nodup : (((l.gathered documents).drafts space).map l.draftKey).Nodup :=
    (registered_empty.foldl (partsIn documents) space).1
  have keys : ((l.gathered documents).drafts space).map l.draftKey =
      (((l.gathered documents).drafts space).map (·.name)).map l.unicode.uniquenessKey := by
    rw [List.map_map]
    rfl
  rw [keys] at nodup
  exact nodup.of_map _

theorem reached_iff {documents : List Document} {space : Namespace} {entry : String × Json}
    (good : ∀ entry ∈ declared space documents, l.Declarable entry)
    (unique : ((declared space documents).map l.entryKey).Nodup) :
    l.Reached (declared space documents) entry ↔ entry ∈ declared space documents := by
  constructor
  · rintro ⟨_, before, after, split, _⟩
    rw [split]
    exact List.mem_append_right _ List.mem_cons_self
  · intro member
    exact reached_of_nodup unique (good entry member) member

theorem along_gathered (documents : List Document) :
    Along l.Fine l.takePart {} (partsIn documents) ↔
      (blocks "daemon" documents).length ≤ 1 ∧ ∀ space,
        (∀ entry ∈ declared space documents, l.Declarable entry) ∧
          ((declared space documents).map l.entryKey).Nodup := by
  rw [along_fine, partsIn_daemon, Option.toList_none, List.length_nil, Nat.zero_add]
  refine and_congr Iff.rfl (forall_congr' fun space => ?_)
  rw [partsIn_entry, New]
  cases space <;> simp [NameRegistry.of]

theorem collectFile_gives {file : ParsedFile} (read : Returns file.2) (c : Collected) :
    Gives (l.collectFile c file)
      ((file.2.problems = [] ∧
          ∀ document ∈ documentIn file, ∀ member ∈ document.2, Known member) ∧
        Along l.Fine l.takePart c (partsIn (documentIn file).toList))
      ((partsIn (documentIn file).toList).foldl l.takePart c) := by
  obtain ⟨path, parsed⟩ := file
  obtain ⟨found, returned⟩ := read
  replace returned : parsed.result = .ok found := returned
  have reading : Gives parsed (parsed.problems = []) found := ⟨returned, Iff.rfl⟩
  cases found with
  | none =>
    have empty : documentIn (path, parsed) = none := by simp only [documentIn, returned, Option.map]
    rw [empty]
    exact (reading.bind (Gives.pure c)).congr (by simp [partsIn, Along])
  | some document =>
    have held : documentIn (path, parsed) = some (path, document) := by
      simp only [documentIn, returned, Option.map]
    rw [held]
    simp only [partsIn, Option.toList_some, List.flatMap_cons, List.flatMap_nil, List.append_nil]
    refine (Gives.bind reading (l.collectDocument_gives path document c)).congr ?_
    simp [and_assoc]

theorem collectFiles_gives {files : List ParsedFile} (read : ∀ file ∈ files, Returns file.2) :
    Gives (files.foldlM l.collectFile {})
      ((∀ file ∈ files, file.2.problems = [] ∧
          ∀ document ∈ documentIn file, ∀ member ∈ document.2, Known member) ∧
        Along l.Fine l.takePart {} (partsIn (documentsOf files)))
      (l.gathered (documentsOf files)) := by
  have flat : partsIn (documentsOf files) =
      files.flatMap fun file => partsIn (documentIn file).toList := by
    simp only [partsIn, documentsOf, List.filterMap_eq_flatMap_toList, List.flatMap_assoc]
  rw [gathered, flat]
  exact Gives.foldlM_flatMap (fun c file member => collectFile_gives (read file member) c) {}

end Loader

end NotiMapper
