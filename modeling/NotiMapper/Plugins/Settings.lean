import NotiMapper.Library.Numeral

/-! The settings object of a plugin, and what the plugins' validation and construction have
in common. Validation takes null for absent; construction takes its text. -/
namespace NotiMapper

open Python

/-- The settings as JSON gives them: each key once, and no integer that is too long to be
read. -/
structure SettingsObject where
  members : Members
  distinct : (members.map Prod.fst).Nodup
  short : ∀ key n, members.lookup key = some (.int n) → n.natAbs < 10 ^ JsonText.maxDigits

inductive SettingError
  | keyError (key : String)
  | valueError (message : String)
  deriving DecidableEq

namespace SettingsObject

variable (settings : SettingsObject)

/-- `settings.get(key)`, if it is not None. -/
def given (key : String) : Option Json :=
  match settings.members.lookup key with
  | some .null => none
  | found => found

def isNull (key : String) : Bool :=
  match settings.members.lookup key with
  | some .null => true
  | _ => false

/- Validation. -/

def unknownSettings (known : List String) : List String :=
  (settings.members.filter (·.1 ∉ known)).map fun member => "unknown setting \"" ++ member.1 ++ "\""

def mustBe (key what : String) : String := "\"" ++ key ++ "\" must be " ++ what

/-- `isinstance(value, str)` and not blank. -/
def isText : Json → Bool
  | .string text => strip text ≠ ""
  | _ => false

/-- An integer, which a Boolean is not, and not below the minimum. -/
def isIntegerFrom (minimum : Int) : Json → Bool
  | .int n => minimum ≤ n
  | _ => false

/-- The check of a setting that may be left out. -/
def optional (check : Json → Bool) (what key : String) : List String :=
  match settings.given key with
  | none => []
  | some value => if check value then [] else [mustBe key what]

/- Construction. -/

/-- `str(settings.get(key, default))`. -/
def text (w : Writer) (key default : String) : String :=
  match settings.members.lookup key with
  | none => default
  | some value => value.str w

/-- `int(str(settings.get(key, default)))`. -/
def integer (w : Writer) (key : String) (default : Int) : Except SettingError Int :=
  match settings.members.lookup key with
  | none => .ok default
  | some value =>
    match int (value.str w) with
    | none => .error (.valueError ("invalid literal for int() with base 10: " ++ value.str w))
    | some n => .ok n

/-- `str(settings[key])`. -/
def required (w : Writer) (key : String) : Except SettingError String :=
  match settings.members.lookup key with
  | none => .error (.keyError key)
  | some value => .ok (value.str w)

/-- The value of a text setting, the default where it is absent or null. -/
def textOr (key default : String) : String :=
  match settings.given key with
  | some (.string text) => text
  | _ => default

def integerOr (key : String) (default : Int) : Int :=
  match settings.given key with
  | some (.int n) => n
  | _ => default

variable {settings} {w : Writer} {key default : String}

theorem given_eq_some {value : Json} : settings.given key = some value ↔
    settings.members.lookup key = some value ∧ value ≠ .null := by
  unfold given
  split
  · rename_i null
    simp only [null, Option.some.injEq, reduceCtorEq, false_iff, not_and, not_not]
    exact Eq.symm
  · rename_i other
    constructor
    · intro found
      refine ⟨found, ?_⟩
      rintro rfl
      exact other found
    · exact And.left

theorem optional_nil {check : Json → Bool} {what : String} :
    settings.optional check what key = [] ↔
      ∀ value, settings.given key = some value → check value = true := by
  unfold optional
  cases settings.given key with
  | none => simp
  | some value => cases check value <;> simp

theorem isText_iff {value : Json} :
    isText value = true ↔ ∃ text, value = .string text ∧ strip text ≠ "" := by
  cases value <;> simp [isText]

theorem isIntegerFrom_iff {minimum : Int} {value : Json} :
    isIntegerFrom minimum value = true ↔ ∃ n, value = .int n ∧ minimum ≤ n := by
  cases value <;> simp [isIntegerFrom]

/-- Where validation takes a text or nothing, construction takes the text of null too. -/
theorem text_of_valid (valid : ∀ value, settings.given key = some value → isText value = true) :
    settings.text w key default =
      if settings.isNull key then "None" else settings.textOr key default := by
  unfold text textOr given isNull
  cases found : settings.members.lookup key with
  | none => simp
  | some value =>
    by_cases null : value = .null
    · subst null
      rfl
    · obtain ⟨text, rfl, _⟩ := isText_iff.mp (valid value (given_eq_some.mpr ⟨found, null⟩))
      simp [Json.str]

theorem textOr_of_null (null : settings.isNull key = true) :
    settings.textOr key default = default := by
  unfold isNull at null
  unfold textOr given
  split at null
  · rfl
  · cases null

theorem integer_of_valid {minimum default : Int}
    (valid : ∀ value, settings.given key = some value → isIntegerFrom minimum value = true) :
    settings.integer w key default =
      if settings.isNull key then
        .error (.valueError ("invalid literal for int() with base 10: " ++ "None"))
      else .ok (settings.integerOr key default) := by
  unfold integer integerOr given isNull
  cases found : settings.members.lookup key with
  | none => simp
  | some value =>
    by_cases null : value = .null
    · subst null
      have word : int "None" = none := by decide +kernel
      simp [Json.str, Json.repr, word]
    · obtain ⟨n, rfl, _⟩ := isIntegerFrom_iff.mp (valid value (given_eq_some.mpr ⟨found, null⟩))
      have read : int (toString n) = some n := int_toString (settings.short key n found)
      have written : (Json.int n).str w = toString n := rfl
      simp only [written, read]
      simp

end SettingsObject

end NotiMapper
