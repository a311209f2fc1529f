import NotiMapper.Library.Python

/-! JSON values as Python has them once they are parsed. -/
namespace Python

/-- A float that is a number: its sign and its magnitude. -/
structure FloatValue where
  negative : Bool
  magnitude : PyFloat
  bounded : ∀ q, magnitude = .finite q → 0 ≤ q ∧ q < floatLimit

/-- What `json.loads` returns. An object has each of its keys once. -/
inductive Json
  | null
  | bool (value : Bool)
  | int (value : Int)
  | float (value : FloatValue)
  | string (text : String)
  | array (elements : List Json)
  | object (members : List (String × Json))

abbrev Members := List (String × Json)

def Json.object? : Json → Option Members
  | .object members => some members
  | _ => none

theorem Json.object?_eq_some {value : Json} {body : Members} :
    value.object? = some body ↔ value = .object body := by
  cases value <;> simp [Json.object?]

mutual

/-- The strings in a value, at any depth. -/
def Json.texts : Json → List String
  | .string text => [text]
  | .array elements => elementTexts elements
  | .object members => memberTexts members
  | .null => []
  | .bool _ => []
  | .int _ => []
  | .float _ => []

def elementTexts : List Json → List String
  | [] => []
  | element :: rest => element.texts ++ elementTexts rest

def memberTexts : Members → List String
  | [] => []
  | (_, value) :: rest => value.texts ++ memberTexts rest

end

mutual

/-- How many calls it takes to walk through a value. -/
def Json.calls : Json → Nat
  | .array elements => elementCalls elements + 1
  | .object members => memberCalls members + 2
  | .string _ => 1
  | .null => 1
  | .bool _ => 1
  | .int _ => 1
  | .float _ => 1

def elementCalls : List Json → Nat
  | [] => 0
  | element :: rest => max element.calls (elementCalls rest)

def memberCalls : Members → Nat
  | [] => 0
  | (_, value) :: rest => max value.calls (memberCalls rest)

end

/-- How `repr` writes a string and a float. A float is written in digits, with an exponent,
or as an infinity. -/
structure Writer where
  quoted : String → String
  float : FloatValue → String
  numeric : ∀ value, ∀ c ∈ (float value).toList, c ∈ "0123456789+-.einf".toList

mutual

/-- `repr(value)`. -/
def Json.repr (w : Writer) : Json → String
  | .null => "None"
  | .bool value => formatBool value
  | .int value => toString value
  | .float value => w.float value
  | .string text => w.quoted text
  | .array elements => "[" ++ ", ".intercalate (elementReprs w elements) ++ "]"
  | .object members => "\x7b" ++ ", ".intercalate (memberReprs w members) ++ "\x7d"

def elementReprs (w : Writer) : List Json → List String
  | [] => []
  | element :: rest => element.repr w :: elementReprs w rest

def memberReprs (w : Writer) : Members → List String
  | [] => []
  | (key, value) :: rest => (w.quoted key ++ ": " ++ value.repr w) :: memberReprs w rest

end

/-- `str(value)`. -/
def Json.str (w : Writer) : Json → String
  | .string text => text
  | value => value.repr w

theorem toString_int_not_lower (n : Int) : ∃ c ∈ (toString n).toList, c.isLower = false := by
  rw [Int.toString_eq_repr, Int.repr_eq_if]
  split
  · obtain ⟨c, member⟩ := List.exists_mem_of_ne_nil _ (Nat.toDigits_ne_nil (n := n.toNat) (b := 10))
    have digit := Nat.isDigit_of_mem_toDigits (by decide) (by decide) member
    refine ⟨c, by rwa [Nat.toList_repr], ?_⟩
    have lower : c.isLower = (decide (c.val ≥ 97) && decide (c.val ≤ 122)) := rfl
    simp only [Char.isDigit, lower, Bool.and_eq_true, decide_eq_true_eq] at digit ⊢
    grind
  · exact ⟨'-', by simp, by decide⟩

/-- What is not a string is not written as a word in small letters. -/
theorem Json.str_eq_word {w : Writer} {value : Json} {word : String}
    (small : ∀ c ∈ word.toList, c.isLower = true)
    (foreign : ∃ c ∈ word.toList, c ∉ "0123456789+-.einf".toList) :
    value.str w = word ↔ value = .string word := by
  constructor
  · intro written
    have large {text : String} (shape : text = word) {c : Char} (member : c ∈ text.toList) :
        c.isLower = true := small c (shape ▸ member)
    cases value with
    | string text => exact congrArg Json.string written
    | null => exact absurd (large written (show 'N' ∈ "None".toList by decide)) (by decide)
    | bool value =>
      cases value with
      | false => exact absurd (large written (show 'F' ∈ "False".toList by decide)) (by decide)
      | true => exact absurd (large written (show 'T' ∈ "True".toList by decide)) (by decide)
    | int value =>
      obtain ⟨c, member, capital⟩ := toString_int_not_lower value
      exact absurd (large written member) (by simp [capital])
    | float value =>
      obtain ⟨c, member, strange⟩ := foreign
      have digits : w.float value = word := written
      exact absurd (w.numeric value c (digits ▸ member)) strange
    | array elements =>
      exact absurd (large (c := '[') written (by simp [Json.str, Json.repr])) (by decide)
    | object members =>
      exact absurd (large (c := '\x7b') written (by simp [Json.str, Json.repr])) (by decide)
  · rintro rfl
    rfl

theorem zero_numeric : ∀ c ∈ "0.0".toList, c ∈ "0123456789+-.einf".toList :=
  forall_chars (by decide +kernel)

/-- One that quotes a text as it is, where all floats are zero. -/
def plainWriter : Writer := ⟨fun text => "'" ++ text ++ "'", fun _ => "0.0", fun _ => zero_numeric⟩

end Python
