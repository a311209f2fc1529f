import NotiMapper.Library.JsonText
import NotiMapper.Config.Loader

/-! Reading a JSON file, strictly. What makes a file unusable is a `JsonFileError`, except
for bytes that are not UTF-8, and for more nesting than Python's limit allows. -/
namespace NotiMapper

open Python JsonText

/-- The first key that comes a second time. -/
def firstRepeated : List String → Members → Option String
  | _, [] => none
  | seen, (key, _) :: rest => if key ∈ seen then some key else firstRepeated (seen ++ [key]) rest

def rejectDuplicateKeys (u : Unicode) (pairs : Members) : Except String Json :=
  match firstRepeated [] pairs with
  | some key => .error s!"duplicate key {u.repr key}"
  | none => .ok (.object pairs)

def rejectConstant (name : String) : String := s!"{name} is not valid JSON"

def jsonHooks (u : Unicode) : JsonHooks := ⟨rejectDuplicateKeys u, rejectConstant⟩

/-- What `read_object` raises: `JsonFileError` with its detail, or what it does not catch. -/
inductive ReadError
  | jsonFileError (detail : String)
  | escaped (raised : Escape)
  deriving DecidableEq

/-- The line and the column of a position in a text. -/
def lineAndColumn (text : String) (position : Nat) : Nat × Nat :=
  let before := text.toList.take position
  (before.count '\n' + 1, (before.reverse.takeWhile (· ≠ '\n')).length + 1)

def parse (u : Unicode) (limit : Nat) (text : String) : Except ReadError Json :=
  match loads (jsonHooks u) limit text with
  | .ok value => .ok value
  | .error (.invalid (.decodeError message position)) =>
    let (line, column) := lineAndColumn text position
    .error (.jsonFileError s!"line {line}, column {column}: {message}")
  | .error (.invalid (.valueError message)) => .error (.jsonFileError message)
  | .error .recursionError => .error (.escaped .recursionError)

def universalNewlines : List Char → List Char
  | '\r' :: '\n' :: rest => '\n' :: universalNewlines rest
  | '\r' :: rest => '\n' :: universalNewlines rest
  | c :: rest => c :: universalNewlines rest
  | [] => []

/-- The text of valid UTF-8. -/
def decode (bytes : ByteArray) : Option String :=
  (String.fromUTF8? bytes).map fun text => String.ofList (universalNewlines text.toList)

/-- A file's bytes, or why the system could not read them. -/
abbrev Content := Except String ByteArray

def readText : Content → Except ReadError String
  | .error strerror => .error (.jsonFileError s!"cannot be read: {strerror}")
  | .ok bytes =>
    match decode bytes with
    | some text => .ok text
    | none => .error (.escaped .unicodeDecodeError)

def readObject (u : Unicode) (limit : Nat) (content : Content) : Except ReadError Members := do
  let text ← readText content
  match ← parse u limit text with
  | .object members => return members
  | _ => .error (.jsonFileError "the top level must be an object")

/-- A file that, if it can be read at all, is valid UTF-8 and does not nest beyond the limit. -/
def Readable (u : Unicode) (limit : Nat) (content : Content) : Prop :=
  ∀ bytes, content = .ok bytes →
    ∃ text, decode bytes = some text ∧ NestsWithin (jsonHooks u) limit text

theorem parse_escaped {u : Unicode} {limit : Nat} {text : String} {raised : Escape} :
    parse u limit text = .error (.escaped raised) ↔
      raised = .recursionError ∧ ¬ NestsWithin (jsonHooks u) limit text := by
  rw [← loads_recursionError, parse]
  split
  all_goals simp [*, eq_comm]

theorem readObject_escaped {u : Unicode} {limit : Nat} {content : Content} :
    (∃ raised, readObject u limit content = .error (.escaped raised)) ↔
      ¬ Readable u limit content := by
  cases content with
  | error strerror =>
    refine iff_of_false ?_ (not_not.mpr fun bytes absent => nomatch absent)
    rintro ⟨raised, same⟩
    cases same
  | ok bytes =>
    cases decoded : decode bytes with
    | none =>
      refine iff_of_true ⟨.unicodeDecodeError, ?_⟩ fun readable => ?_
      · rw [readObject, readText, decoded]
        rfl
      · obtain ⟨text, same, _⟩ := readable bytes rfl
        cases decoded.symm.trans same
    | some text =>
      have readable : Readable u limit (.ok bytes) ↔ NestsWithin (jsonHooks u) limit text := by
        constructor
        · intro all
          obtain ⟨_, same, nests⟩ := all bytes rfl
          cases decoded.symm.trans same
          exact nests
        · intro nests other same
          cases same
          exact ⟨text, decoded, nests⟩
      have read : readObject u limit (.ok bytes) = (parse u limit text >>= fun
          | .object members => .ok members
          | _ => .error (.jsonFileError "the top level must be an object")) := by
        rw [readObject, readText, decoded]
        rfl
      rw [readable, read]
      constructor
      · rintro ⟨raised, same⟩
        cases parsed : parse u limit text with
        | error error =>
          rw [parsed] at same
          cases same
          exact (parse_escaped.mp parsed).2
        | ok value =>
          rw [parsed] at same
          cases value <;> cases same
      · intro deep
        rw [parse_escaped.mpr ⟨rfl, deep⟩]
        exact ⟨.recursionError, rfl⟩

end NotiMapper
