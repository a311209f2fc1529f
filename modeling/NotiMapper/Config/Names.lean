import Mathlib.Data.List.Dedup
import Mathlib.Data.List.DropRight
import NotiMapper.Storage

/-! Names, the one kind of identifier a configuration has: which are valid, and when two of
them are the same. What Python takes from the Unicode character database is a parameter. -/
namespace NotiMapper

open Python

/-- `str.isalnum` and `str.isprintable` of a character, `unicodedata.name`, normalization
to NFC and `str.casefold`. -/
structure Unicode where
  isAlnum : Char → Bool
  isPrintable : Char → Bool
  name : Char → Option String
  nfc : String → String
  casefold : String → String

def padded (width : Nat) (digits : List Char) : String :=
  String.ofList (List.replicate (width - digits.length) '0' ++ digits)

namespace Unicode

variable (u : Unicode)

/-- One character of `repr(text)`, where `quote` surrounds it. -/
def reprChar (quote c : Char) : String :=
  let digits := Nat.toDigits 16 c.toNat
  if c = quote ∨ c = '\\' then String.ofList ['\\', c]
  else if c = '\t' then "\\t"
  else if c = '\n' then "\\n"
  else if c = '\r' then "\\r"
  else if 32 ≤ c.toNat ∧ c.toNat < 127 then String.ofList [c]
  else if 127 < c.toNat ∧ u.isPrintable c then String.ofList [c]
  else if c.toNat ≤ 0xff then "\\x" ++ padded 2 digits
  else if c.toNat ≤ 0xffff then "\\u" ++ padded 4 digits
  else "\\U" ++ padded 8 digits

def repr (text : String) : String :=
  let quote := if '\'' ∈ text.toList ∧ '"' ∉ text.toList then '"' else '\''
  String.ofList [quote] ++ String.join (text.toList.map (u.reprChar quote)) ++ String.ofList [quote]

end Unicode

def maxNameLength : Nat := 128

def allowedPunctuation : List Char := [' ', '-', '_', '.']

inductive Namespace
  | instances
  | rules
  deriving DecidableEq

def Namespace.value : Namespace → String
  | instances => "instance"
  | rules => "rule"

def normalizeName (raw : String) : String := strip raw

namespace Unicode

variable (u : Unicode)

def uniquenessKey (name : String) : String := u.casefold (u.nfc name)

def characterIsAllowed (c : Char) : Bool := c ∈ allowedPunctuation || u.isAlnum c

def describeCharacter (c : Char) : String :=
  let shown := u.repr (String.ofList [c])
  match u.name c with
  | some name => s!"{shown} ({name})"
  | none => s!"{shown} (U+{padded 4 ((Nat.toDigits 16 c.toNat).map Char.toUpper)})"

/-- Every problem with a name; none if it is valid. -/
def findNameProblems (raw : String) : List String :=
  let name := normalizeName raw
  if name = "" then ["name is empty"]
  else
    let rejected := (name.toList.filter (!u.characterIsAllowed ·)).reverse.dedup.reverse
    (if maxNameLength < name.length then
      [s!"name is {name.length} characters long; the maximum is {maxNameLength}"] else []) ++
    (if rejected.isEmpty then [] else
      ["name contains disallowed characters: " ++
        ", ".intercalate (rejected.map u.describeCharacter) ++
        ". Allowed characters are letters, digits, spaces, hyphens, underscores, and periods."])

/-- Not empty once it is stripped, not too long, and made of letters, digits, spaces,
hyphens, underscores and periods. -/
structure ValidName (name : String) : Prop where
  nonempty : name ≠ ""
  short : name.length ≤ maxNameLength
  allowed : ∀ c ∈ name.toList, c ∈ allowedPunctuation ∨ u.isAlnum c = true

theorem findNameProblems_nil {raw : String} :
    u.findNameProblems raw = [] ↔ u.ValidName (normalizeName raw) := by
  unfold findNameProblems
  generalize normalizeName raw = name
  have rejected : ((name.toList.filter (!u.characterIsAllowed ·)).reverse.dedup.reverse).isEmpty =
      true ↔ ∀ c ∈ name.toList, c ∈ allowedPunctuation ∨ u.isAlnum c = true := by
    rw [List.isEmpty_iff, List.eq_nil_iff_forall_not_mem]
    simp only [List.mem_reverse, List.mem_dedup, List.mem_filter, characterIsAllowed, not_and,
      Bool.not_eq_true, Bool.not_eq_false', Bool.or_eq_true, decide_eq_true_eq]
  simp only
  split
  · rename_i empty
    exact ⟨fun none => (nomatch none), fun valid => absurd empty valid.nonempty⟩
  · rename_i nonempty
    rw [List.append_eq_nil_iff]
    constructor
    · rintro ⟨short, allowed⟩
      refine ⟨nonempty, ?_, ?_⟩
      · by_contra long
        rw [if_pos (Nat.lt_of_not_le long)] at short
        cases short
      · rw [← rejected]
        by_contra some
        rw [if_neg some] at allowed
        cases allowed
    · rintro ⟨_, short, allowed⟩
      exact ⟨if_neg (Nat.not_lt.mpr short), if_pos (rejected.mpr allowed)⟩

end Unicode

/- Names that have been used. -/

structure RegisteredName where
  name : String
  origin : String

/-- The names of each namespace, by the key that makes them unique. -/
structure NameRegistry where
  instances : Table RegisteredName := ∅
  rules : Table RegisteredName := ∅

namespace NameRegistry

def of (registry : NameRegistry) : Namespace → Table RegisteredName
  | .instances => registry.instances
  | .rules => registry.rules

variable (u : Unicode)

def findConflict (registry : NameRegistry) (space : Namespace) (name : String) :
    Option RegisteredName := (registry.of space).lookup (u.uniquenessKey (normalizeName name))

/-- The caller has checked that there is no conflict. -/
def register (registry : NameRegistry) (space : Namespace) (name origin : String) : NameRegistry :=
  let entry : RegisteredName := ⟨normalizeName name, origin⟩
  let key := u.uniquenessKey (normalizeName name)
  match space with
  | .instances => { registry with instances := registry.instances.insert key entry }
  | .rules => { registry with rules := registry.rules.insert key entry }

/-- A registered name that differs only by case. -/
def suggest (registry : NameRegistry) (space : Namespace) (name : String) : Option String :=
  (registry.findConflict u space name).bind fun entry =>
    if entry.name = normalizeName name then none else some entry.name

def names (registry : NameRegistry) (space : Namespace) : List String :=
  ((registry.of space).entries.map (·.2.name)).insertionSort (· ≤ ·)

@[simp] theorem of_register {registry : NameRegistry} {space other : Namespace}
    {name origin : String} : (registry.register u space name origin).of other =
      if other = space then (registry.of space).insert (u.uniquenessKey (normalizeName name))
        ⟨normalizeName name, origin⟩ else registry.of other := by
  cases space <;> cases other <;> rfl

end NameRegistry

/- Stripping twice is stripping once. -/

theorem strip_toList (text : String) :
    (strip text).toList = (text.toList.dropWhile isSpace).rdropWhile isSpace := by
  rw [strip, String.toList_ofList, List.rdropWhile]

theorem normalizeName_idem (raw : String) :
    normalizeName (normalizeName raw) = normalizeName raw := by
  apply String.toList_injective
  simp only [normalizeName, strip_toList]
  generalize dropped : raw.toList.dropWhile isSpace = chars
  have starts : chars.dropWhile isSpace = chars := by
    rw [← dropped, List.dropWhile_idempotent]
  have left : (chars.rdropWhile isSpace).dropWhile isSpace = chars.rdropWhile isSpace := by
    obtain ⟨tail, whole⟩ := List.rdropWhile_prefix isSpace (l := chars)
    cases known : chars.rdropWhile isSpace with
    | nil => rfl
    | cons first rest =>
      have solid : ¬ isSpace first = true := by
        intro space
        rw [← whole, known, List.cons_append, List.dropWhile_cons_of_pos space] at starts
        have shorter := List.length_dropWhile_le isSpace (rest ++ tail)
        rw [starts, List.length_cons] at shorter
        omega
      exact List.dropWhile_cons_of_neg solid
  rw [left, List.rdropWhile_idempotent]

end NotiMapper
