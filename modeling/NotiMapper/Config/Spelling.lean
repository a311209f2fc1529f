import NotiMapper.Library.JsonGrammar
import NotiMapper.Config.Outcome
import NotiMapper.Config.Layout
import NotiMapper.Config.Wiring

/-! The load, from the bytes of the files. A file holds the document that its text spells, and
no object in it repeats a key; what is accepted keeps that, secrets and all. -/
namespace NotiMapper

open Python JsonText Report

variable {u : Unicode}

theorem firstRepeated_eq_none {seen : List String} {pairs : Members} :
    firstRepeated seen pairs = none ↔
      (pairs.map (·.1)).Nodup ∧ ∀ key ∈ pairs.map (·.1), key ∉ seen := by
  induction pairs generalizing seen with
  | nil => simp [firstRepeated]
  | cons pair rest ih =>
    obtain ⟨key, value⟩ := pair
    rw [firstRepeated, List.map_cons, List.nodup_cons, List.forall_mem_cons]
    by_cases again : key ∈ seen
    · simp [again]
    · rw [if_neg again, ih]
      simp only [List.mem_append, List.mem_singleton, not_or]
      constructor
      · rintro ⟨nodup, fresh⟩
        exact ⟨⟨fun member => (fresh key member).2 rfl, nodup⟩, again,
          fun other member => (fresh other member).1⟩
      · rintro ⟨⟨first, nodup⟩, _, fresh⟩
        exact ⟨nodup, fun other member => ⟨fresh other member, fun same => first (same ▸ member)⟩⟩

theorem rejectDuplicateKeys_ok {pairs : Members} {v : Json} :
    rejectDuplicateKeys u pairs = .ok v ↔ v = .object pairs ∧ (pairs.map (·.1)).Nodup := by
  have nodup : firstRepeated [] pairs = none ↔ (pairs.map (·.1)).Nodup := by
    simp [firstRepeated_eq_none]
  rw [rejectDuplicateKeys, ← nodup]
  cases firstRepeated [] pairs with
  | none => simp [eq_comm]
  | some key => simp

/-- The parser returns what the grammar of JSON makes of the text, where no object repeats a
key and nothing is nested beyond the limit; and it returns nothing else. -/
theorem parse_eq_ok {limit : Nat} {text : String} {v : Json} :
    parse u limit text = .ok v ↔
      Spells asWritten (lexemes (jsonHooks u) 0 0 text.toList) (.value v) ∧ v.Unambiguous ∧
        v.nesting ≤ limit := by
  have read : parse u limit text = .ok v ↔ loads (jsonHooks u) limit text = .ok v := by
    rw [parse]
    split <;> simp [*]
  rw [read, loads_ok_nesting fun pairs v made => (rejectDuplicateKeys_ok.mp made).1, ← and_assoc]
  apply and_congr_left
  intro shallow
  constructor
  · intro spells
    exact spells.unambiguous (lexemes_flat 0 0 text.toList)
      fun pairs v made => rejectDuplicateKeys_ok.mp made
  · rintro ⟨spells, unambiguous⟩
    exact spells.strictly unambiguous fun pairs nodup => rejectDuplicateKeys_ok.mpr ⟨rfl, nodup⟩

/-- The document that the bytes of a file spell. -/
def Holds (u : Unicode) (limit : Nat) (file : String × Content) (document : Document) : Prop :=
  document.1 = file.1 ∧ ∃ bytes text, file.2 = .ok bytes ∧ decode bytes = some text ∧
    Spells asWritten (lexemes (jsonHooks u) 0 0 text.toList) (.value (.object document.2)) ∧
      (Json.object document.2).Unambiguous ∧ (Json.object document.2).nesting ≤ limit

theorem readObject_ok {limit : Nat} {content : Content} {members : Members} :
    readObject u limit content = .ok members ↔ ∃ bytes text, content = .ok bytes ∧
      decode bytes = some text ∧ parse u limit text = .ok (.object members) := by
  cases content with
  | error strerror =>
    apply iff_of_false
    · intro same
      cases same
    · rintro ⟨bytes, text, absent, _⟩
      cases absent
  | ok bytes =>
    cases decoded : decode bytes with
    | none =>
      rw [readObject, readText, decoded]
      apply iff_of_false
      · intro same
        cases same
      · rintro ⟨other, text, same, absent, _⟩
        cases same
        cases decoded.symm.trans absent
    | some text =>
      have read : readObject u limit (.ok bytes) = .ok members ↔
          parse u limit text = .ok (.object members) := by
        rw [readObject, readText, decoded]
        cases found : parse u limit text with
        | error error => simp [Bind.bind, Except.bind, found]
        | ok value =>
          cases value <;> simp [Bind.bind, Except.bind, found, pure, Except.pure]
      rw [read]
      constructor
      · exact fun parsed => ⟨bytes, text, rfl, decoded, parsed⟩
      · rintro ⟨other, spelled, same, held, parsed⟩
        cases same
        cases decoded.symm.trans held
        exact parsed

namespace Loader

variable {l : Loader} {limit : Nat}

theorem parseFile_eq_pure {file : String × Content} {found : Option Members} :
    (l.parseFile limit file).2 = pure found ↔
      ∃ members, found = some members ∧ Holds l.unicode limit file (file.1, members) := by
  have holds (members : Members) : Holds l.unicode limit file (file.1, members) ↔
      readObject l.unicode limit file.2 = .ok members := by
    simp only [Holds, readObject_ok, parse_eq_ok, true_and]
  simp only [holds, parseFile]
  cases readObject l.unicode limit file.2 with
  | ok members => simp [eq_comm]
  | error error =>
    cases error with
    | jsonFileError detail => simp [problem]
    | escaped raised =>
      apply iff_of_false
      · intro same
        cases congrArg Report.result same
      · simp

/-- The files are read as documents exactly when these are what they hold. -/
theorem map_parseFile {files : List (String × Content)} {documents : List Document} :
    files.map (l.parseFile limit) = parsed documents ↔
      List.Forall₂ (Holds l.unicode limit) files documents := by
  induction files generalizing documents with
  | nil => cases documents <;> simp [parsed]
  | cons file files ih =>
    cases documents with
    | nil => simp [parsed]
    | cons document documents =>
      have first : l.parseFile limit file = (document.1, pure (some document.2)) ↔
          Holds l.unicode limit file document := by
        have named : (l.parseFile limit file).1 = file.1 := rfl
        rw [Prod.ext_iff, named, parseFile_eq_pure]
        constructor
        · rintro ⟨same, members, found, holds⟩
          cases found
          rwa [← Prod.mk.eta (p := document), ← same]
        · intro holds
          refine ⟨holds.1.symm, document.2, rfl, ?_⟩
          rwa [← holds.1]
      rw [List.map_cons, List.forall₂_cons, ← first, ← ih, parsed, List.map_cons]
      exact List.cons.injEq _ _ _ _ ▸ Iff.rfl

theorem holds_unambiguous {files : List (String × Content)} {documents : List Document}
    (holds : List.Forall₂ (Holds l.unicode limit) files documents) :
    ∀ document ∈ documents, (Json.object document.2).Unambiguous := by
  induction holds with
  | nil => exact List.forall_mem_nil _
  | cons one _ ih =>
    obtain ⟨_, _, _, _, _, _, unambiguous, _⟩ := one
    exact List.forall_mem_cons.mpr ⟨unambiguous, ih⟩

theorem declared_unambiguous {documents : List Document} {space : Namespace}
    {entry : String × Json}
    (unambiguous : ∀ document ∈ documents, (Json.object document.2).Unambiguous)
    (listed : entry ∈ declared space documents) : entry.2.Unambiguous := by
  simp only [declared, blocks, List.mem_flatten, List.mem_flatMap, List.mem_filterMap,
    Option.ite_none_right_eq_some, Json.object?_eq_some] at listed
  obtain ⟨block, ⟨document, held, member, there, _, whole⟩, inside⟩ := listed
  have all := membersUnambiguous_iff.mp (unambiguous document held).2 member there
  rw [whole] at all
  exact membersUnambiguous_iff.mp all.2 entry inside

theorem lookup_unambiguous {members : Members} {key : String} {value : Json}
    (unambiguous : (Json.object members).Unambiguous) (found : members.lookup key = some value) :
    value.Unambiguous := by
  obtain ⟨before, after, rfl, _⟩ := List.lookup_eq_some_iff.mp found
  exact membersUnambiguous_iff.mp unambiguous.2 (key, value)
    (List.mem_append_right before List.mem_cons_self)

mutual

/-- What references expand to leaves the keys as they are. -/
theorem expanded_unambiguous : (value : Json) → value.Unambiguous → (l.expanded value).Unambiguous
  | .array elements, unambiguous => expandedElements_unambiguous elements unambiguous
  | .object members, ⟨nodup, unambiguous⟩ => by
    refine ⟨?_, expandedMembers_unambiguous members unambiguous⟩
    rwa [expandedMembers_eq_map, List.map_map]
  | .string _, _ => trivial
  | .null, _ => trivial
  | .bool _, _ => trivial
  | .int _, _ => trivial
  | .float _, _ => trivial

theorem expandedElements_unambiguous : (elements : List Json) → ElementsUnambiguous elements →
    ElementsUnambiguous (l.expandedElements elements)
  | [], _ => trivial
  | element :: rest, ⟨here, later⟩ =>
    ⟨expanded_unambiguous element here, expandedElements_unambiguous rest later⟩

theorem expandedMembers_unambiguous : (members : Members) → MembersUnambiguous members →
    MembersUnambiguous (l.expandedMembers members)
  | [], _ => trivial
  | (_, value) :: rest, ⟨here, later⟩ =>
    ⟨expanded_unambiguous value here, expandedMembers_unambiguous rest later⟩

end

/-- An instance has the settings its entry declares, expanded. -/
structure AsDeclared (l : Loader) (documents : List Document) (name : Name) (i : LoadedInstance) :
    Prop where
  entry : ∃ entry ∈ declared .instances documents, normalizeName entry.1 = name ∧
    ∃ body config, entry.2 = .object body ∧ ConfigOf body config ∧
      i.settings = l.expandedMembers config
  unambiguous : (Json.object i.settings).Unambiguous

theorem asDeclared {documents : List Document}
    (unambiguous : ∀ document ∈ documents, (Json.object document.2).Unambiguous)
    {name : Name} {i : LoadedInstance}
    (ok : ∀ draft ∈ (l.gathered documents).instanceDrafts, l.InstanceOk draft.body)
    (held : (l.builtFrom (l.gathered documents).instanceDrafts).instances.lookup name = some i) :
    AsDeclared l documents name i := by
  obtain ⟨draft, drafted, rfl, made⟩ :=
    (lookup_builtFrom (gathered_nodup documents .instances)).mp held
  obtain ⟨plugin, known, settings, isKnown, expands, rfl⟩ := instanceOf_eq_some.mp made
  obtain ⟨_, _, config, ofConfig, _⟩ := (instanceOk_iff isKnown).mp (ok draft drafted)
  cases expands.symm.trans (settingsOf_config ofConfig)
  obtain ⟨entry, reached, _, whole, named, rfl⟩ :=
    (exists_draft documents .instances fun n b => n = draft.name ∧ b = draft.body).mp
      ⟨draft, drafted, rfl, rfl⟩
  obtain ⟨_, before, after, split, _⟩ := reached
  have listed : entry ∈ declared .instances documents :=
    split ▸ List.mem_append_right before List.mem_cons_self
  refine ⟨⟨entry, listed, named, draft.body, config, whole, ofConfig, rfl⟩, ?_⟩
  have all := whole ▸ declared_unambiguous unambiguous listed
  rcases ofConfig with ⟨_, rfl⟩ | present
  · exact ⟨List.nodup_nil, trivial⟩
  · exact expanded_unambiguous (.object config) (lookup_unambiguous all present)

/-- What was read without a word, is what the files hold. -/
theorem holds_of_silent {files : List (String × Content)}
    (read : ∀ file ∈ files.map (l.parseFile limit), Returns file.2)
    (silent : ∀ file ∈ files.map (l.parseFile limit), file.2.problems = []) :
    ∃ documents, List.Forall₂ (Holds l.unicode limit) files documents := by
  induction files with
  | nil => exact ⟨[], .nil⟩
  | cons file files ih =>
    rw [List.map_cons, List.forall_mem_cons] at read silent
    obtain ⟨documents, others⟩ := ih read.2 silent.2
    obtain ⟨found, returned⟩ := read.1
    have passed : (l.parseFile limit file).2 = pure found := by
      have quiet := silent.1
      revert returned quiet
      generalize (l.parseFile limit file).2 = report
      obtain ⟨result, problems⟩ := report
      rintro rfl rfl
      rfl
    obtain ⟨members, _, holds⟩ := parseFile_eq_pure.mp passed
    exact ⟨(file.1, members) :: documents, .cons holds others⟩

/-- A directory is accepted exactly when every file is UTF-8 and spells an unambiguous object
that does not nest too deep, and these documents are well formed and manageable. The
configuration is then the one they declare. -/
theorem loadConfiguration_ok_iff (l : Loader) (limit : Nat) (directory : String)
    (files : List (String × Content)) :
    ((∃ c, l.loadConfiguration limit directory files = .ok c) ↔ files ≠ [] ∧
      ∃ documents, List.Forall₂ (Holds l.unicode limit) files documents ∧
        l.WellFormed documents ∧ l.Manageable documents) ∧
    ∀ c documents, l.loadConfiguration limit directory files = .ok c →
      List.Forall₂ (Holds l.unicode limit) files documents → Faithful documents c ∧
        ∀ name i, c.instances.lookup name = some i → AsDeclared l documents name i := by
  have stages {c : LoadedConfiguration}
      (passed : l.check directory (some (files.map (l.parseFile limit))) = pure c) :
      files.map (l.parseFile limit) ≠ [] ∧
        (∀ file ∈ files.map (l.parseFile limit), Returns file.2) ∧
          l.Manageable (documentsOf (files.map (l.parseFile limit))) := by
    refine ⟨fun none => ?_, check_returns.mp (passed ▸ returns_pure c)⟩
    rw [none] at passed
    simp [check, readFiles, problem] at passed
  simp only [loadConfiguration, load, concluded_ok]
  refine ⟨⟨?_, ?_⟩, ?_⟩
  · rintro ⟨c, passed⟩
    obtain ⟨some, read, manageable⟩ := stages passed
    obtain ⟨settings, iff⟩ := @check_eq_pure l directory _ some read manageable
    obtain ⟨⟨⟨silent, _⟩, _⟩, _⟩ := (iff c).mp passed
    obtain ⟨documents, holds⟩ := holds_of_silent read silent
    have fine := (check_sound some read manageable passed).1
    rw [map_parseFile.mpr holds, documentsOf_parsed] at fine manageable
    exact ⟨fun none => some (List.map_eq_nil_iff.mpr none), documents, holds, fine, manageable⟩
  · rintro ⟨some, documents, holds, fine, manageable⟩
    have some : files.map (l.parseFile limit) ≠ [] := fun none => some (List.map_eq_nil_iff.mp none)
    have parsing := map_parseFile.mpr holds
    rw [parsing] at some ⊢
    rw [← documentsOf_parsed documents] at fine manageable
    exact check_complete some (List.forall_mem_map.mpr fun document _ => returns_pure _)
      manageable (List.forall_mem_map.mpr fun document _ => rfl) fine
  · intro c documents passed holds
    obtain ⟨some, read, manageable⟩ := stages passed
    have faithful := (check_sound some read manageable passed).2
    obtain ⟨settings, iff⟩ := @check_eq_pure l directory _ some read manageable
    obtain ⟨_, _, instancesOk, rules, _, rfl⟩ := (iff c).mp passed
    rw [map_parseFile.mpr holds, documentsOf_parsed] at instancesOk faithful ⊢
    refine ⟨faithful, fun name i held => asDeclared (holds_unambiguous holds) instancesOk held⟩

end Loader

end NotiMapper
