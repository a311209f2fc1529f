import NotiMapper.Config.Extension

/-! The file of the secrets. It is read only where its mode keeps other users out and its group
from writing; every name in it is one that a reference can have. -/
namespace NotiMapper

open Python JsonText

/-- What opening the secrets file comes to: its `st_mode` and its bytes. -/
inductive SecretsContent
  | missing
  | unreadable (strerror : String)
  | opened (status : Nat) (raw : ByteArray)

inductive SecretsFailure
  | secretsError (message : String)
  | escaped (raised : Escape)
  deriving DecidableEq

def forbiddenModeBits : Nat := 0o027

/-- `S_IMODE`. -/
def modeBits (status : Nat) : Nat := status &&& 0o7777

def emptyStore (path : String) : SecretStore := ⟨path, ∅⟩

/-- `SECRET_NAME_PATTERN.fullmatch`. -/
def isSecretName (name : String) : Bool :=
  !name.toList.isEmpty && name.toList.all isSecretNameChar

variable (u : Unicode) (limit : Nat) (undecodable : ByteArray → String)

/-- One round of the loop in `load_secrets`. -/
def takeSecret (path : String) (values : Table String) (entry : String × Json) :
    Except SecretsFailure (Table String) :=
  if isSecretName entry.1 then
    match entry.2 with
    | .string text => .ok (values.insert entry.1 text)
    | _ => .error (.secretsError s!"{path}: secret {u.repr entry.1} must be a string")
  else .error (.secretsError
    s!"{path}: secret name {u.repr entry.1} contains characters outside [A-Za-z0-9_.-]")

def readSecrets (path text : String) : Except SecretsFailure SecretStore :=
  match parse u limit text with
  | .error (.jsonFileError detail) => .error (.secretsError s!"{path}: {detail}")
  | .error (.escaped raised) => .error (.escaped raised)
  | .ok (.object members) => (members.foldlM (takeSecret u path) ∅).map (SecretStore.mk path)
  | .ok _ => .error (.secretsError s!"{path}: the top level must be an object")

/-- `undecodable` is what Python says about bytes that are not UTF-8. -/
def loadSecrets (path : String) : SecretsContent → Except SecretsFailure SecretStore
  | .missing => .ok (emptyStore path)
  | .unreadable strerror => .error (.secretsError
    (s!"{path}: cannot be read: {strerror}. The file is there, so this " ++
      "is a permissions problem rather than a missing file: reaching it needs " ++
      "search permission on every directory above it as well as read " ++
      "permission on the file itself."))
  | .opened status raw =>
    let mode := modeBits status
    if mode &&& forbiddenModeBits ≠ 0 then .error (.secretsError
      (s!"{path} is mode {padded 4 (Nat.toDigits 8 mode)}, which is readable by other users or " ++
        "writable by its group. Use 0600 owned by the user the daemon runs " ++
        "as, or 0640 owned by root with the daemon's group -- the second is " ++
        "better, since then the daemon cannot rewrite its own credentials. " ++
        s!"Fix it with: chmod 0640 {path}"))
    else
      match String.fromUTF8? raw with
      | none => .error (.secretsError s!"{path}: is not valid UTF-8: {undecodable raw}")
      | some text => readSecrets u limit path text

variable {u limit undecodable}

/-- Others have no access, and the group cannot write. -/
def Guarded (status : Nat) : Prop :=
  status.testBit 0 = false ∧ status.testBit 1 = false ∧ status.testBit 2 = false ∧
    status.testBit 4 = false

theorem guarded_iff {status : Nat} : modeBits status &&& forbiddenModeBits = 0 ↔ Guarded status := by
  have inside : modeBits status &&& forbiddenModeBits = status &&& 0o027 := by
    rw [modeBits, Nat.and_assoc]
    rfl
  rw [inside]
  constructor
  · intro clear
    have bit (i : Nat) (forbidden : Nat.testBit 0o027 i = true) : status.testBit i = false := by
      have off := congrArg (Nat.testBit · i) clear
      simpa [Nat.testBit_and, forbidden] using off
    exact ⟨bit 0 (by decide), bit 1 (by decide), bit 2 (by decide), bit 4 (by decide)⟩
  · rintro ⟨reads, writes, runs, group⟩
    refine Nat.eq_of_testBit_eq fun i => ?_
    rw [Nat.testBit_and, Nat.zero_testBit]
    match i with
    | 0 => rw [reads, Bool.false_and]
    | 1 => rw [writes, Bool.false_and]
    | 2 => rw [runs, Bool.false_and]
    | 3 => rw [show Nat.testBit 0o027 3 = false by decide, Bool.and_false]
    | 4 => rw [group, Bool.false_and]
    | i + 5 =>
      have small : (0o027 : Nat) < 2 ^ (i + 5) :=
        lt_of_lt_of_le (by decide) (Nat.pow_le_pow_right (by decide) (Nat.le_add_left 5 i))
      rw [Nat.testBit_lt_two_pow small, Bool.and_false]

theorem isSecretName_iff {name : String} : isSecretName name = true ↔ isReferenceName name.toList := by
  simp [isSecretName, isReferenceName]

theorem takeSecret_ok {path : String} {values next : Table String} {entry : String × Json} :
    takeSecret u path values entry = .ok next ↔ isReferenceName entry.1.toList ∧
      ∃ text, entry.2 = .string text ∧ next = values.insert entry.1 text := by
  rw [← isSecretName_iff, takeSecret]
  split_ifs with named
  · obtain ⟨name, value⟩ := entry
    cases value <;> simp [named, eq_comm]
  · simp [named]

/-- The names can all be referred to, and the values are all texts. -/
def Secretive (members : Members) : Prop :=
  ∀ member ∈ members, isReferenceName member.1.toList ∧ ∃ text, member.2 = .string text

theorem foldlM_takeSecret {members : Members} (u : Unicode) (path : String)
    (values : Table String) :
    (∃ kept, members.foldlM (takeSecret u path) values = .ok kept) ↔ Secretive members := by
  induction members generalizing values with
  | nil => exact iff_of_true ⟨values, rfl⟩ (List.forall_mem_nil _)
  | cons entry rest ih =>
    rw [Secretive, List.forall_mem_cons, List.foldlM_cons]
    cases taken : takeSecret u path values entry with
    | error failure =>
      refine iff_of_false (fun ⟨_, same⟩ => nomatch same) ?_
      rintro ⟨⟨named, text, string⟩, _⟩
      have kept : takeSecret u path values entry = .ok (values.insert entry.1 text) :=
        takeSecret_ok.mpr ⟨named, text, string, rfl⟩
      cases taken.symm.trans kept
    | ok next =>
      obtain ⟨named, text, string, _⟩ := takeSecret_ok.mp taken
      exact (ih next).trans (and_iff_right ⟨named, text, string⟩).symm

theorem lookup_foldlM {path : String} {members : Members} {values kept : Table String}
    (nodup : (members.map (·.1)).Nodup)
    (ran : members.foldlM (takeSecret u path) values = .ok kept) (name value : String) :
    kept.lookup name = some value ↔ members.lookup name = some (.string value) ∨
      name ∉ members.map (·.1) ∧ values.lookup name = some value := by
  induction members generalizing values with
  | nil =>
    cases ran
    simp
  | cons entry rest ih =>
    obtain ⟨key, json⟩ := entry
    rw [List.map_cons, List.nodup_cons] at nodup
    rw [List.foldlM_cons] at ran
    cases taken : takeSecret u path values (key, json) with
    | error failure =>
      rw [taken] at ran
      cases ran
    | ok next =>
      rw [taken] at ran
      obtain ⟨_, text, string, rfl⟩ := takeSecret_ok.mp taken
      obtain rfl : json = .string text := string
      rw [ih nodup.2 ran, List.lookup_cons, List.map_cons, List.mem_cons, not_or]
      by_cases here : name = key
      · subst here
        have absent : rest.lookup name = none := by
          rw [List.lookup_eq_none_iff]
          intro other member
          have differs : name ≠ other.1 :=
            fun same => nodup.1 (List.mem_map.mpr ⟨other, member, same.symm⟩)
          simpa using differs
        simp [absent, nodup.1]
      · have other : (name == key) = false := beq_eq_false_iff_ne.mpr here
        rw [other, AList.lookup_insert_ne here]
        simp [here]

theorem readSecrets_ok {path text : String} {store : SecretStore} :
    readSecrets u limit path text = .ok store ↔ ∃ members values,
      parse u limit text = .ok (.object members) ∧
        members.foldlM (takeSecret u path) ∅ = .ok values ∧ store = ⟨path, values⟩ := by
  unfold readSecrets
  split
  · simp [*]
  · simp [*]
  · rename_i members parsed
    cases taken : members.foldlM (takeSecret u path) ∅ with
    | error failure => simp [parsed, taken, Except.map]
    | ok values => simp [parsed, taken, Except.map, eq_comm]
  · rename_i value other parsed
    simp only [parsed, reduceCtorEq, Except.ok.injEq, false_iff, not_exists, not_and]
    rintro members _ rfl
    exact absurd rfl (other members)

/-- The reference to a name. -/
def reference (name : String) : String := String.ofList (referenceText name.toList)

theorem substitute_reference {store : SecretStore} {name value : String}
    (isName : isReferenceName name.toList) (held : store.values.lookup name = some value) :
    substitute (reference name) store = ⟨value, []⟩ := by
  have cut : fragments 0 (reference name).toList = [.reference name.toList] := by
    have alone := @fragments_reference _ [] isName
    rw [List.append_nil] at alone
    rw [reference, String.toList_ofList, alone]
    rfl
  have there : name ∈ store.values := AList.lookup_isSome.mp (held ▸ rfl)
  have named : String.ofList name.toList = name := String.ofList_toList
  have replaced : replacement store (.reference name.toList) = value.toList := by
    rw [replacement, named, held]
  simp [substitute, cut, replaced, Fragment.name?, firstAppearances, there]

/-- The object of secrets that a file's text spells. -/
def SpellsSecrets (u : Unicode) (limit : Nat) (text : String) (members : Members) : Prop :=
  Spells asWritten (lexemes (jsonHooks u) 0 0 text.toList) (.value (.object members)) ∧
    (Json.object members).Unambiguous ∧ (Json.object members).nesting ≤ limit ∧ Secretive members

theorem loadSecrets_opened {undecodable : ByteArray → String} {path : String} {status : Nat}
    {raw : ByteArray} {store : SecretStore} :
    loadSecrets u limit undecodable path (.opened status raw) = .ok store ↔ Guarded status ∧
      ∃ text, String.fromUTF8? raw = some text ∧ readSecrets u limit path text = .ok store := by
  rw [← guarded_iff, loadSecrets]
  by_cases clear : modeBits status &&& forbiddenModeBits = 0
  · simp only [clear, ne_eq, not_true, if_false, true_and]
    cases String.fromUTF8? raw <;> simp
  · simp [clear]

/-- A text is read as secrets exactly when it spells them. -/
theorem readSecrets_spells (path : String) {text : String} :
    (∃ store, readSecrets u limit path text = .ok store) ↔
      ∃ members, SpellsSecrets u limit text members := by
  constructor
  · rintro ⟨store, read⟩
    obtain ⟨members, values, parsed, taken, _⟩ := readSecrets_ok.mp read
    obtain ⟨spells, unambiguous, shallow⟩ := parse_eq_ok.mp parsed
    exact ⟨members, spells, unambiguous, shallow, (foldlM_takeSecret u path ∅).mp ⟨values, taken⟩⟩
  · rintro ⟨members, spells, unambiguous, shallow, secretive⟩
    have parsed := parse_eq_ok.mpr ⟨spells, unambiguous, shallow⟩
    obtain ⟨values, taken⟩ := (foldlM_takeSecret u path ∅).mpr secretive
    exact ⟨⟨path, values⟩, readSecrets_ok.mpr ⟨members, values, parsed, taken, rfl⟩⟩

theorem readSecrets_lookup {path text : String} {store : SecretStore} {members : Members}
    (read : readSecrets u limit path text = .ok store)
    (spelled : SpellsSecrets u limit text members) (name value : String) :
    store.values.lookup name = some value ↔ members.lookup name = some (.string value) := by
  obtain ⟨others, values, parsed, taken, rfl⟩ := readSecrets_ok.mp read
  obtain ⟨spells, unambiguous, shallow, _⟩ := spelled
  have also := parse_eq_ok.mpr ⟨spells, unambiguous, shallow⟩
  cases parsed.symm.trans also
  rw [lookup_foldlM unambiguous.1 taken]
  exact or_iff_left (fun both => nomatch both.2)

/-- Secrets are loaded if there is no file, or if it is guarded and spells a text for each of
some names that a reference can have; and then each of these is what its reference expands to. -/
theorem loadSecrets_ok_iff (u : Unicode) (limit : Nat) (undecodable : ByteArray → String)
    (path : String) (content : SecretsContent) :
    ((∃ store, loadSecrets u limit undecodable path content = .ok store) ↔
      content = .missing ∨ ∃ status raw text members, content = .opened status raw ∧
        Guarded status ∧ String.fromUTF8? raw = some text ∧ SpellsSecrets u limit text members) ∧
    ∀ store, loadSecrets u limit undecodable path content = .ok store →
      (content = .missing → store.values = ∅) ∧
      (∀ name value, store.values.lookup name = some value →
        substitute (reference name) store = ⟨value, []⟩) ∧
      ∀ status raw text members, content = .opened status raw → String.fromUTF8? raw = some text →
        SpellsSecrets u limit text members → ∀ name value,
          store.values.lookup name = some value ↔ members.lookup name = some (.string value) := by
  cases content with
  | missing =>
    refine ⟨iff_of_true ⟨_, rfl⟩ (.inl rfl), fun store loaded => ?_⟩
    cases loaded
    refine ⟨fun _ => rfl, ?_, fun _ _ _ _ absent => nomatch absent⟩
    intro name value held
    cases held
  | unreadable strerror =>
    refine ⟨iff_of_false (fun ⟨_, loaded⟩ => nomatch loaded) ?_, fun _ loaded => nomatch loaded⟩
    rintro (absent | ⟨_, _, _, _, absent, _⟩) <;> cases absent
  | opened status raw =>
    simp only [loadSecrets_opened]
    constructor
    · constructor
      · rintro ⟨store, guarded, text, decoded, read⟩
        obtain ⟨members, spelled⟩ := (readSecrets_spells path).mp ⟨store, read⟩
        exact .inr ⟨status, raw, text, members, rfl, guarded, decoded, spelled⟩
      · rintro (absent | ⟨_, _, text, members, same, guarded, decoded, spelled⟩)
        · cases absent
        · cases same
          obtain ⟨store, read⟩ := (readSecrets_spells path).mpr ⟨members, spelled⟩
          exact ⟨store, guarded, text, decoded, read⟩
    · rintro store ⟨_, text, decoded, read⟩
      refine ⟨(fun absent => nomatch absent), fun name value held => ?_, ?_⟩
      · obtain ⟨members, spelled⟩ := (readSecrets_spells path).mp ⟨store, read⟩
        have listed := (readSecrets_lookup read spelled name value).mp held
        obtain ⟨before, after, split, _⟩ := List.lookup_eq_some_iff.mp listed
        have member : (name, Json.string value) ∈ members :=
          split ▸ List.mem_append_right before List.mem_cons_self
        obtain ⟨_, _, _, secretive⟩ := spelled
        exact substitute_reference (secretive _ member).1 held
      · intro _ _ other members same also spelled
        cases same
        cases decoded.symm.trans also
        exact readSecrets_lookup read spelled

end NotiMapper
