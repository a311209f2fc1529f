import NotiMapper.Config.Building

/-! The expansion of secret references, in terms of where the references are in a text: the
pieces it is cut into are the references and the characters between them, and what is put in
their place depends on nothing else. -/
namespace NotiMapper

open Python Report

def referenceText (name : List Char) : List Char := referenceOpening ++ name ++ ['\x7d']

def isReferenceName (name : List Char) : Prop := name ≠ [] ∧ ∀ c ∈ name, isSecretNameChar c = true

/-- There is a reference to this name at this position of the text. -/
def OccursAt (chars : List Char) (position : Nat) (name : List Char) : Prop :=
  isReferenceName name ∧ referenceText name <+: chars.drop position

/-- A fragment as it is written. -/
def Fragment.source : Fragment → List Char
  | .literal c => [c]
  | .reference name => referenceText name

theorem takeWhile_name {name rest : List Char} (allowed : ∀ c ∈ name, isSecretNameChar c = true) :
    (name ++ '\x7d' :: rest).takeWhile isSecretNameChar = name := by
  rw [List.takeWhile_append_of_pos allowed, List.takeWhile_cons_of_neg (by decide),
    List.append_nil]

theorem drop_takeWhile {rest : List Char} :
    rest.drop (rest.takeWhile isSecretNameChar).length = rest.dropWhile isSecretNameChar := by
  conv_lhs =>
    arg 2
    rw [← List.takeWhile_append_dropWhile (p := isSecretNameChar) (l := rest)]
  exact List.drop_left

theorem matchReference_eq_some {chars name : List Char} : matchReference chars = some name ↔
    isReferenceName name ∧ ∃ rest, chars = referenceText name ++ rest := by
  unfold matchReference
  constructor
  · intro found
    split at found
    · rename_i opens
      obtain ⟨rest, rfl⟩ := List.isPrefixOf_iff_prefix.mp opens
      simp only [List.drop_left] at found
      split at found
      · rename_i closed
        obtain ⟨nonempty, brace⟩ := closed
        cases found
        refine ⟨⟨nonempty, fun c member => List.mem_takeWhile_imp member⟩, ?_⟩
        rw [drop_takeWhile] at brace
        obtain ⟨tail, shape⟩ := List.head?_eq_some_iff.mp brace
        refine ⟨tail, ?_⟩
        rw [referenceText, List.append_assoc, List.append_assoc, List.singleton_append, ← shape,
          List.takeWhile_append_dropWhile]
      · cases found
    · cases found
  · rintro ⟨⟨nonempty, allowed⟩, rest, rfl⟩
    have opens : referenceOpening.isPrefixOf (referenceText name ++ rest) = true := by
      rw [List.isPrefixOf_iff_prefix, referenceText, List.append_assoc, List.append_assoc]
      exact List.prefix_append _ _
    have after : (referenceText name ++ rest).drop referenceOpening.length =
        name ++ '\x7d' :: rest := by
      rw [referenceText, List.append_assoc, List.append_assoc, List.drop_left]
      rfl
    rw [if_pos opens]
    simp only [after, takeWhile_name allowed, List.drop_left, List.head?_cons, and_true]
    exact if_pos nonempty

theorem fragments_skip (skip : Nat) (chars : List Char) :
    fragments skip chars = fragments 0 (chars.drop skip) := by
  induction skip generalizing chars with
  | zero => rfl
  | succ skip ih =>
    cases chars with
    | nil => simp [fragments]
    | cons c rest => rw [fragments, ih, List.drop_succ_cons]

theorem fragments_reference {name rest : List Char} (isName : isReferenceName name) :
    fragments 0 (referenceText name ++ rest) = .reference name :: fragments 0 rest := by
  have found : matchReference (referenceText name ++ rest) = some name :=
    matchReference_eq_some.mpr ⟨isName, rest, rfl⟩
  have shape : referenceText name ++ rest =
      '$' :: ("\x7bsecret:".toList ++ name ++ ['\x7d'] ++ rest) := rfl
  rw [shape] at found ⊢
  rw [fragments, found]
  simp only
  rw [fragments_skip]
  have length : ("\x7bsecret:".toList ++ name ++ ['\x7d']).length =
      referenceOpening.length + name.length := by
    rw [List.length_append, List.length_append, Nat.add_right_comm]
    rfl
  rw [← length, List.drop_left]

theorem fragments_literal {c : Char} {rest : List Char} (plain : matchReference (c :: rest) = none) :
    fragments 0 (c :: rest) = .literal c :: fragments 0 rest := by
  rw [fragments, plain]

/-- The text is cut at each reference, and at every other character. -/
theorem fragments_induction {P : List Char → Prop} (nil : P [])
    (reference : ∀ name rest, isReferenceName name → P rest → P (referenceText name ++ rest))
    (literal : ∀ c rest, matchReference (c :: rest) = none → P rest → P (c :: rest))
    (chars : List Char) : P chars := by
  induction length : chars.length using Nat.strong_induction_on generalizing chars with
  | _ n ih =>
    subst length
    cases found : matchReference chars with
    | none =>
      cases chars with
      | nil => exact nil
      | cons c rest => exact literal c rest found (ih rest.length (Nat.lt_succ_self _) rest rfl)
    | some name =>
      obtain ⟨isName, rest, rfl⟩ := matchReference_eq_some.mp found
      refine reference name rest isName (ih rest.length ?_ rest rfl)
      have long : 0 < (referenceText name).length := by
        rw [referenceText, List.length_append]
        exact Nat.lt_add_left _ (by decide)
      rw [List.length_append]
      omega

/-- Put back together, the fragments are the text. -/
theorem fragments_source (chars : List Char) :
    (fragments 0 chars).flatMap Fragment.source = chars := by
  induction chars using fragments_induction with
  | nil => rfl
  | reference name rest isName ih =>
    rw [fragments_reference isName, List.flatMap_cons, ih, Fragment.source]
  | literal c rest plain ih =>
    rw [fragments_literal plain, List.flatMap_cons, ih, Fragment.source, List.singleton_append]

theorem occursAt_zero {chars name : List Char} :
    OccursAt chars 0 name ↔ matchReference chars = some name := by
  rw [matchReference_eq_some, OccursAt, List.drop_zero]
  refine and_congr_right fun _ => ?_
  constructor
  · rintro ⟨rest, same⟩
    exact ⟨rest, same.symm⟩
  · rintro ⟨rest, same⟩
    exact ⟨rest, same.symm⟩

/-- A dollar sign is the only one of its reference. -/
theorem dollar_not_mem {name : List Char} (isName : isReferenceName name) :
    '$' ∉ (referenceText name).tail := by
  have shape : (referenceText name).tail = "\x7bsecret:".toList ++ name ++ ['\x7d'] := rfl
  rw [shape, List.mem_append, List.mem_append]
  rintro ((opening | inside) | closing)
  · exact absurd opening (by decide)
  · exact absurd (isName.2 '$' inside) (by decide)
  · exact absurd closing (by decide)

/-- So no reference starts inside another. -/
theorem not_occursAt_inside {name other rest : List Char} {position : Nat}
    (isName : isReferenceName name) (after : 0 < position)
    (before : position < (referenceText name).length) :
    ¬ OccursAt (referenceText name ++ rest) position other := by
  rintro ⟨_, tail, same⟩
  have inside : position < (referenceText name ++ rest).length := by
    rw [List.length_append]
    omega
  rw [List.drop_eq_getElem_cons inside, List.getElem_append_left before] at same
  have first : '$' = (referenceText name)[position] := (List.cons.inj same).1
  have member : (referenceText name)[position] ∈ (referenceText name).tail := by
    cases position with
    | zero => cases after
    | succ position =>
      have short : position < (referenceText name).tail.length := by
        rw [List.length_tail]
        omega
      rw [← List.getElem_tail short]
      exact List.getElem_mem _
  exact dollar_not_mem isName (first ▸ member)

/-- A reference stands at this position of the text that the fragments make. -/
def ReferenceAt (pieces : List Fragment) (position : Nat) (name : List Char) : Prop :=
  ∃ before after, pieces = before ++ .reference name :: after ∧
    (before.flatMap Fragment.source).length = position

theorem referenceAt_cons {piece : Fragment} {pieces : List Fragment} {position : Nat}
    {name : List Char} : ReferenceAt (piece :: pieces) position name ↔
      piece = .reference name ∧ position = 0 ∨
        ∃ later, ReferenceAt pieces later name ∧ position = piece.source.length + later := by
  constructor
  · rintro ⟨before, after, split, rfl⟩
    cases before with
    | nil => exact .inl ⟨(List.cons.inj split).1, rfl⟩
    | cons first before =>
      obtain ⟨rfl, rest⟩ := List.cons.inj split
      refine .inr ⟨_, ⟨before, after, rest, rfl⟩, ?_⟩
      rw [List.flatMap_cons, List.length_append]
  · rintro (⟨rfl, rfl⟩ | ⟨later, ⟨before, after, rfl, rfl⟩, rfl⟩)
    · exact ⟨[], pieces, rfl, rfl⟩
    · refine ⟨piece :: before, after, rfl, ?_⟩
      rw [List.flatMap_cons, List.length_append]

theorem occursAt_shift {front rest name : List Char} {later : Nat} :
    OccursAt (front ++ rest) (front.length + later) name ↔ OccursAt rest later name := by
  rw [OccursAt, OccursAt, List.drop_length_add_append]

/-- The references among the fragments are the ones in the text, each where it is. -/
theorem occursAt_iff {chars name : List Char} {position : Nat} :
    OccursAt chars position name ↔ ReferenceAt (fragments 0 chars) position name := by
  induction chars using fragments_induction generalizing position with
  | nil =>
    refine iff_of_false ?_ ?_
    · rintro ⟨_, none⟩
      rw [List.drop_nil, List.prefix_nil] at none
      cases none
    · rintro ⟨before, after, split, _⟩
      exact absurd split (List.append_ne_nil_of_right_ne_nil _ (List.cons_ne_nil _ _)).symm
  | reference first rest isName ih =>
    rw [fragments_reference isName, referenceAt_cons, Fragment.source]
    rcases Nat.lt_or_ge position (referenceText first).length with inside | beyond
    · rcases Nat.eq_zero_or_pos position with rfl | after
      · have found : matchReference (referenceText first ++ rest) = some first :=
          matchReference_eq_some.mpr ⟨isName, rest, rfl⟩
        rw [occursAt_zero, found, Option.some.injEq]
        constructor
        · rintro rfl
          exact .inl ⟨rfl, rfl⟩
        · rintro (⟨same, _⟩ | ⟨later, _, zero⟩)
          · exact Fragment.reference.inj same
          · omega
      · refine iff_of_false (not_occursAt_inside isName after inside) ?_
        rintro (⟨_, zero⟩ | ⟨later, _, past⟩)
        · omega
        · omega
    · obtain ⟨later, rfl⟩ := Nat.exists_eq_add_of_le beyond
      rw [occursAt_shift, ih]
      constructor
      · exact fun there => .inr ⟨later, there, rfl⟩
      · rintro (⟨_, zero⟩ | ⟨other, there, same⟩)
        · have long : 0 < (referenceText first).length := by
            rw [referenceText, List.length_append]
            exact Nat.lt_add_left _ (by decide)
          omega
        · exact Nat.add_left_cancel same ▸ there
  | literal c rest plain ih =>
    rw [fragments_literal plain, referenceAt_cons, Fragment.source]
    cases position with
    | zero =>
      rw [occursAt_zero, plain]
      refine iff_of_false (fun none => by cases none) ?_
      rintro (⟨other, _⟩ | ⟨later, _, zero⟩)
      · cases other
      · rw [List.length_singleton] at zero
        omega
    | succ later =>
      have shifted : OccursAt ([c] ++ rest) ([c].length + later) name ↔ OccursAt rest later name :=
        occursAt_shift
      rw [List.singleton_append, List.length_singleton, Nat.add_comm] at shifted
      rw [shifted, ih]
      constructor
      · exact fun there => .inr ⟨later, there, Nat.add_comm later 1⟩
      · rintro (⟨other, _⟩ | ⟨after, there, same⟩)
        · cases other
        · rw [List.length_singleton] at same
          have index : later = after := by omega
          exact index ▸ there

/- What is missing. -/

theorem dedup_filter {p : String → Bool} (names : List String) :
    (names.filter p).dedup = names.dedup.filter p := by
  induction names with
  | nil => rfl
  | cons name names ih =>
    by_cases holds : p name = true
    · rw [List.filter_cons_of_pos holds]
      by_cases again : name ∈ names
      · have kept : name ∈ names.filter p := List.mem_filter.mpr ⟨again, holds⟩
        rw [List.dedup_cons_of_mem again, List.dedup_cons_of_mem kept, ih]
      · have fresh : name ∉ names.filter p := fun member => again (List.mem_filter.mp member).1
        rw [List.dedup_cons_of_notMem again, List.dedup_cons_of_notMem fresh, ih,
          List.filter_cons_of_pos holds]
    · rw [List.filter_cons_of_neg holds, ih]
      by_cases again : name ∈ names
      · rw [List.dedup_cons_of_mem again]
      · rw [List.dedup_cons_of_notMem again, List.filter_cons_of_neg holds]

/-- The missing names are the referenced ones that are not there, in the same order. -/
theorem missing_eq_filter (text : String) (store : SecretStore) :
    (substitute text store).missing = (referencesIn text).filter (· ∉ store.values) := by
  simp only [substitute, referencesIn, firstAppearances, ← List.filter_reverse, dedup_filter]

/- The stores that agree on the references. -/

theorem mem_referencesIn {text name : String} : name ∈ referencesIn text ↔
    ∃ chars, .reference chars ∈ fragments 0 text.toList ∧ String.ofList chars = name := by
  rw [referencesIn, mem_firstAppearances, List.mem_filterMap]
  constructor
  · rintro ⟨piece, member, named⟩
    cases piece with
    | literal c => cases named
    | reference chars => exact ⟨chars, member, Option.some.inj named⟩
  · rintro ⟨chars, member, rfl⟩
    exact ⟨_, member, rfl⟩

def AgreeOn (a b : SecretStore) (names : List String) : Prop :=
  ∀ name ∈ names, a.values.lookup name = b.values.lookup name

theorem substitute_agree {text : String} {a b : SecretStore}
    (agree : AgreeOn a b (referencesIn text)) : substitute text a = substitute text b := by
  have replaced : (fragments 0 text.toList).flatMap (replacement a) =
      (fragments 0 text.toList).flatMap (replacement b) := by
    refine List.flatMap_congr fun piece member => ?_
    cases piece with
    | literal c => rfl
    | reference chars =>
      have same := agree _ (mem_referencesIn.mpr ⟨chars, member, rfl⟩)
      rw [replacement, replacement, same]
  have missing : (substitute text a).missing = (substitute text b).missing := by
    rw [missing_eq_filter, missing_eq_filter]
    refine List.filter_congr fun name member => ?_
    have same := agree name member
    rw [decide_eq_decide, not_iff_not, ← AList.lookup_isSome, ← AList.lookup_isSome, same]
  have texts : (substitute text a).text = (substitute text b).text := congrArg String.ofList replaced
  cases first : substitute text a
  cases second : substitute text b
  rw [first, second] at missing texts
  cases missing
  cases texts
  rfl

namespace Loader

variable {l : Loader} {a b : SecretStore}

/-- The loader, with other secrets. -/
def withSecrets (l : Loader) (store : SecretStore) : Loader := { l with secrets := store }

theorem resolveText_agree {text : String} {path : ConfigPath}
    (agree : AgreeOn a b (referencesIn text)) :
    ((l.withSecrets a).resolveText text path).result =
      ((l.withSecrets b).resolveText text path).result := by
  rw [((l.withSecrets a).resolveText_gives text path).result,
    ((l.withSecrets b).resolveText_gives text path).result]
  exact congrArg _ (congrArg Substitution.text (substitute_agree agree))

mutual

theorem resolveSecrets_agree : (frames : Nat) → (value : Json) → (path : ConfigPath) →
    (∀ text ∈ value.texts, AgreeOn a b (referencesIn text)) →
    ((l.withSecrets a).resolveSecrets frames value path).result =
      ((l.withSecrets b).resolveSecrets frames value path).result
  | 0, value, path, _ => by rw [resolveSecrets, resolveSecrets]
  | frames + 1, .string text, path, agree => by
    rw [resolveSecrets, resolveSecrets]
    exact result_bind_congr (resolveText_agree (agree text (List.mem_singleton_self text)))
      fun _ => rfl
  | frames + 1, .array elements, path, agree => by
    rw [resolveSecrets, resolveSecrets]
    exact result_bind_congr (resolveElements_agree frames 0 elements path agree) fun _ => rfl
  | 1, .object members, path, _ => by rw [resolveSecrets, resolveSecrets]
  | frames + 2, .object members, path, agree => by
    rw [resolveSecrets, resolveSecrets]
    exact result_bind_congr (resolveMembers_agree frames members path agree) fun _ => rfl
  | _ + 1, .null, _, _ => by rw [resolveSecrets, resolveSecrets]
  | _ + 1, .bool value, _, _ => by rw [resolveSecrets, resolveSecrets]
  | _ + 1, .int value, _, _ => by rw [resolveSecrets, resolveSecrets]
  | _ + 1, .float value, _, _ => by rw [resolveSecrets, resolveSecrets]

theorem resolveElements_agree : (frames index : Nat) → (elements : List Json) →
    (path : ConfigPath) → (∀ text ∈ elementTexts elements, AgreeOn a b (referencesIn text)) →
    ((l.withSecrets a).resolveElements frames index elements path).result =
      ((l.withSecrets b).resolveElements frames index elements path).result
  | _, _, [], _, _ => by rw [resolveElements, resolveElements]
  | frames, index, element :: rest, path, agree => by
    rw [elementTexts, List.forall_mem_append] at agree
    rw [resolveElements, resolveElements]
    refine result_bind_congr (resolveSecrets_agree frames element _ agree.1) fun resolved => ?_
    exact result_bind_congr (resolveElements_agree frames (index + 1) rest path agree.2)
      fun _ => rfl

theorem resolveMembers_agree : (frames : Nat) → (members : Members) → (path : ConfigPath) →
    (∀ text ∈ memberTexts members, AgreeOn a b (referencesIn text)) →
    ((l.withSecrets a).resolveMembers frames members path).result =
      ((l.withSecrets b).resolveMembers frames members path).result
  | _, [], _, _ => by rw [resolveMembers, resolveMembers]
  | frames, (key, value) :: rest, path, agree => by
    rw [memberTexts, List.forall_mem_append] at agree
    rw [resolveMembers, resolveMembers]
    refine result_bind_congr (resolveSecrets_agree frames value _ agree.1) fun resolved => ?_
    exact result_bind_congr (resolveMembers_agree frames rest path agree.2) fun _ => rfl

end

theorem resolveSecretsObject_agree {frames : Nat} {members : Members} {path : ConfigPath}
    (agree : ∀ text ∈ memberTexts members, AgreeOn a b (referencesIn text)) :
    ((l.withSecrets a).resolveSecretsObject frames members path).result =
      ((l.withSecrets b).resolveSecretsObject frames members path).result := by
  cases frames with
  | zero => rfl
  | succ frames => exact resolveMembers_agree frames members path agree

end Loader

/-- The expansion of a text is decided by its own references, each met where it is, and so
are the resolved settings by those in the configuration. -/
theorem expansion_one_pass :
    (∀ text store, (substitute text store).missing =
      (referencesIn text).filter (· ∉ store.values)) ∧
    (∀ text : String, ∃ pieces : List Fragment, pieces.flatMap Fragment.source = text.toList ∧
      (∀ position name, OccursAt text.toList position name ↔ ReferenceAt pieces position name) ∧
      ∀ store, (substitute text store).text =
        String.ofList (pieces.flatMap (replacement store))) ∧
    (∀ text a b, AgreeOn a b (referencesIn text) → substitute text a = substitute text b) ∧
    ∀ (l : Loader) (a b : SecretStore) frames members path,
      (∀ text ∈ memberTexts members, AgreeOn a b (referencesIn text)) →
        ((l.withSecrets a).resolveSecretsObject frames members path).result =
          ((l.withSecrets b).resolveSecretsObject frames members path).result := by
  refine ⟨missing_eq_filter, fun text => ?_, fun text a b => substitute_agree, ?_⟩
  · exact ⟨fragments 0 text.toList, fragments_source _, fun _ _ => occursAt_iff, fun _ => rfl⟩
  · exact fun l a b frames members path => Loader.resolveSecretsObject_agree

end NotiMapper
