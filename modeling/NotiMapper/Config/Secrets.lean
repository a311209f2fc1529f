import NotiMapper.Config.Names
import NotiMapper.Library.Json

/-! The secrets, and the expansion of `${secret:name}` references in a text. A reference
starts with the only dollar sign it has, so one pass over the text meets each of them. -/
namespace NotiMapper

open Python

structure SecretStore where
  path : String
  values : Table String

def SecretStore.names (store : SecretStore) : List String :=
  store.values.keys.insertionSort (· ≤ ·)

/-- What stands before the name in a reference. -/
def referenceOpening : List Char := "$\x7bsecret:".toList

def isSecretNameChar (c : Char) : Bool := c.isAlphanum || c = '_' || c = '.' || c = '-'

/-- The name, if `SECRET_REFERENCE_PATTERN` matches here. -/
def matchReference (chars : List Char) : Option (List Char) :=
  if referenceOpening.isPrefixOf chars then
    let rest := chars.drop referenceOpening.length
    let name := rest.takeWhile isSecretNameChar
    if name ≠ [] ∧ (rest.drop name.length).head? = some '\x7d' then some name else none
  else none

inductive Fragment
  | literal (c : Char)
  | reference (name : List Char)
  deriving DecidableEq

/-- The text as the pattern cuts it up; `skip` counts what is left of the last match. -/
def fragments : Nat → List Char → List Fragment
  | _, [] => []
  | skip + 1, _ :: rest => fragments skip rest
  | 0, c :: rest =>
    match matchReference (c :: rest) with
    | some name => .reference name :: fragments (referenceOpening.length + name.length) rest
    | none => .literal c :: fragments 0 rest

def Fragment.name? : Fragment → Option String
  | literal _ => none
  | reference name => some (String.ofList name)

/-- Each name once, in the order of its first appearance. -/
def firstAppearances (names : List String) : List String := names.reverse.dedup.reverse

def referencesIn (text : String) : List String :=
  firstAppearances ((fragments 0 text.toList).filterMap Fragment.name?)

structure Substitution where
  text : String
  missing : List String

/-- What a match is replaced by; an undefined reference stays as it is. -/
def replacement (store : SecretStore) : Fragment → List Char
  | .literal c => [c]
  | .reference name =>
    match store.values.lookup (String.ofList name) with
    | some value => value.toList
    | none => referenceOpening ++ name ++ ['\x7d']

def substitute (text : String) (store : SecretStore) : Substitution where
  text := String.ofList ((fragments 0 text.toList).flatMap (replacement store))
  missing := firstAppearances (((fragments 0 text.toList).filterMap Fragment.name?).filter
    (· ∉ store.values))

theorem mem_firstAppearances {name : String} {names : List String} :
    name ∈ firstAppearances names ↔ name ∈ names := by
  simp only [firstAppearances, List.mem_reverse, List.mem_dedup]

theorem mem_missing {text name : String} {store : SecretStore} :
    name ∈ (substitute text store).missing ↔ name ∈ referencesIn text ∧ name ∉ store.values := by
  simp only [substitute, referencesIn, mem_firstAppearances, List.mem_filter, decide_not,
    Bool.not_eq_true', decide_eq_false_iff_not]

example : referencesIn "$\x7bsecret:a\x7d$\x7bsecret:$\x7bsecret:b\x7d$\x7bsecret:\x7d" = ["a", "b"] := by
  decide

end NotiMapper
