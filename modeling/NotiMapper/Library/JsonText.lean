import NotiMapper.Library.Json

/-! `json.loads`, with the hooks it is given. The text is cut into lexemes, each with its
position, and a machine with a stack of open arrays and objects goes over them. A string or
a number that cannot be read is an error only where one is expected. -/
namespace Python

/-- Either error is a `ValueError`. -/
inductive TextError
  | decodeError (message : String) (position : Nat)
  | valueError (message : String)
  deriving DecidableEq, Repr

/-- `object_pairs_hook`, and what `parse_constant` raises. -/
structure JsonHooks where
  objectPairs : Members → Except String Json
  constant : String → String

namespace JsonText

inductive Token
  | mark (c : Char)
  | string (read : Except TextError String)
  | scalar (read : Except TextError Json)
  | stray

structure Lexeme where
  token : Token
  position : Nat

def isWhitespace (c : Char) : Bool := c = ' ' || c = '\t' || c = '\n' || c = '\r'

/- Strings. Positions count from the opening quote. -/

def hexDigit (c : Char) : Option Nat :=
  if c.isDigit then some (c.toNat - '0'.toNat)
  else if 'a' ≤ c ∧ c ≤ 'f' then some (c.toNat - 'a'.toNat + 10)
  else if 'A' ≤ c ∧ c ≤ 'F' then some (c.toNat - 'A'.toNat + 10)
  else none

def hexValue (digits : List Char) : Option Nat :=
  digits.foldlM (fun value c => (hexDigit c).map (16 * value + ·)) 0

def isHighSurrogate (n : Nat) : Bool := 0xd800 ≤ n && n < 0xdc00
def isLowSurrogate (n : Nat) : Bool := 0xdc00 ≤ n && n < 0xe000

/-- A surrogate on its own is no `Char`; the replacement character stands for it. -/
def charOf (n : Nat) : Char :=
  if isHighSurrogate n || isLowSurrogate n then '\ufffd' else Char.ofNat n

/-- The four digits after `\u`, and the second half of a pair after a first one. -/
def readUnicodeEscape (position : Nat) (rest : List Char) : Except TextError (Char × Nat) :=
  let invalid := TextError.decodeError "Invalid \\uXXXX escape" (position + 1)
  if rest.length ≤ 4 then .error invalid
  else
    match hexValue (rest.take 4) with
    | none => .error invalid
    | some n =>
      if isHighSurrogate n ∧ 10 < rest.length ∧ (rest.drop 4).take 2 = ['\\', 'u'] then
        match hexValue ((rest.drop 6).take 4) with
        | none => .error (.decodeError "Invalid \\uXXXX escape" (position + 7))
        | some m =>
          if isLowSurrogate m then
            .ok (Char.ofNat (0x10000 + (n - 0xd800) * 0x400 + (m - 0xdc00)), 11)
          else .ok (charOf n, 5)
      else .ok (charOf n, 5)

/-- What stands after a backslash: the character meant, and the length. -/
def readEscape (start position : Nat) : List Char → Except TextError (Char × Nat)
  | [] => .error (.decodeError "Unterminated string starting at" start)
  | 'u' :: rest => readUnicodeEscape position rest
  | '"' :: _ => .ok ('"', 1)
  | '\\' :: _ => .ok ('\\', 1)
  | '/' :: _ => .ok ('/', 1)
  | 'b' :: _ => .ok ('\x08', 1)
  | 'f' :: _ => .ok ('\x0c', 1)
  | 'n' :: _ => .ok ('\n', 1)
  | 'r' :: _ => .ok ('\r', 1)
  | 't' :: _ => .ok ('\t', 1)
  | _ :: _ => .error (.decodeError "Invalid \\escape" position)

/-- The string that `start` opens, and where it ends; `skip` counts what is left of an escape. -/
def scanString (start : Nat) : Nat → Nat → List Char → Except TextError (List Char × Nat)
  | _, _, [] => .error (.decodeError "Unterminated string starting at" start)
  | skip + 1, position, _ :: rest => scanString start skip (position + 1) rest
  | 0, position, c :: rest =>
    if c = '"' then .ok ([], position + 1)
    else if c = '\\' then do
      let (meant, length) ← readEscape start position rest
      let (chars, stop) ← scanString start length (position + 1) rest
      return (meant :: chars, stop)
    else if c.toNat < 0x20 then .error (.decodeError "Invalid control character at" position)
    else do
      let (chars, stop) ← scanString start 0 (position + 1) rest
      return (c :: chars, stop)

/- Numbers. -/

def digitsValue (digits : List Char) : Nat :=
  digits.foldl (fun n c => 10 * n + (c.toNat - '0'.toNat)) 0

/-- `sys.get_int_max_str_digits()`. -/
def maxDigits : Nat := 4300

def readInt (negative : Bool) (digits : List Char) : Except TextError Json :=
  if maxDigits < digits.length then
    .error (.valueError (s!"Exceeds the limit ({maxDigits} digits) for integer string conversion: " ++
      s!"value has {digits.length} digits; use sys.set_int_max_str_digits() to increase the limit"))
  else
    let n : Int := digitsValue digits
    .ok (.int (if negative then -n else n))

/-- From here on a decimal is rounded to a power of two no float reaches. -/
def decimalLimit : Rat := 2 ^ 1024 - 2 ^ 970

theorem power_difference {a b : Nat} (less : a < b) :
    0 < (2 : Rat) ^ b - 2 ^ a ∧ (2 : Rat) ^ b - 2 ^ a < ((2 ^ b : Nat) : Rat) := by
  have grows : (2 : Rat) ^ a < 2 ^ b := pow_lt_pow_right₀ (by norm_num) less
  have positive : (0 : Rat) < 2 ^ a := by positivity
  rw [Nat.cast_pow, Nat.cast_ofNat]
  exact ⟨sub_pos.mpr grows, sub_lt_self _ positive⟩

theorem decimalLimit_pos : 0 < decimalLimit := (power_difference (by decide)).1

theorem decimalLimit_lt : decimalLimit < floatLimit := (power_difference (by decide)).2

/-- A decimal as a float, taken exactly where it is neither rounded to zero nor too large. -/
def floatOfDecimal (negative : Bool) (digits : Nat) (exponent : Int) : FloatValue where
  negative
  magnitude :=
    let q : Rat := digits * 10 ^ exponent
    if q ≤ 1 / 2 ^ 1075 then .finite 0 else if q < decimalLimit then .finite q else .infinity
  bounded := by
    have beyond := decimalLimit_lt
    have positive := decimalLimit_pos.trans beyond
    generalize decimalLimit = limit at *
    generalize floatLimit = floats at *
    intro q found
    simp only at found
    split_ifs at found with small below
    · cases found
      exact ⟨le_refl 0, positive⟩
    · cases found
      exact ⟨mul_nonneg (Nat.cast_nonneg _) (zpow_nonneg (by norm_num) _), below.trans beyond⟩

/-- The digits after a point. -/
def fractionDigits : List Char → List Char
  | '.' :: rest => rest.takeWhile Char.isDigit
  | _ => []

structure Exponent where
  value : Int
  length : Nat

def readExponent : List Char → Option Exponent
  | e :: rest =>
    if e = 'e' ∨ e = 'E' then
      let signed := rest.head? = some '-' ∨ rest.head? = some '+'
      let digits := (if signed then rest.drop 1 else rest).takeWhile Char.isDigit
      if digits = [] then none
      else
        let n : Int := digitsValue digits
        some ⟨if rest.head? = some '-' then -n else n,
          digits.length + (if signed then 2 else 1)⟩
    else none
  | [] => none

/-- `_match_number`: the number that stands here, and its length. -/
def readNumber (chars : List Char) : Option (Except TextError Json × Nat) :=
  let negative := chars.head? = some '-'
  let signLength := if negative then 1 else 0
  let start := chars.drop signLength
  let whole := if start.head? = some '0' then ['0'] else start.takeWhile Char.isDigit
  if whole = [] then none
  else
    let rest := start.drop whole.length
    let fraction := fractionDigits rest
    let fractionLength := if fraction = [] then 0 else fraction.length + 1
    match fraction, readExponent (rest.drop fractionLength) with
    | [], none => some (readInt negative whole, signLength + whole.length)
    | _, exponent =>
      let power := (exponent.map (·.value)).getD 0 - fraction.length
      let length := signLength + whole.length + fractionLength + (exponent.map (·.length)).getD 0
      some (.ok (.float (floatOfDecimal negative (digitsValue (whole ++ fraction)) power)), length)

/- Lexemes. -/

/-- The words that stand for a value. -/
def literals : List (List Char × Json) :=
  [("null".toList, .null), ("true".toList, .bool true), ("false".toList, .bool false)]

/-- The words that are numbers to Python, but not in JSON. -/
def constants : List String := ["NaN", "Infinity", "-Infinity"]

/-- What stands at a position, and its length. -/
def readToken (hooks : JsonHooks) (position : Nat) (c : Char) (rest : List Char) : Token × Nat :=
  if c ∈ ['{', '}', '[', ']', ',', ':'] then (.mark c, 1)
  else if c = '"' then
    match scanString position 0 (position + 1) rest with
    | .ok (chars, stop) => (.string (.ok (String.ofList chars)), stop - position)
    | .error error => (.string (.error error), 1)
  else
    match literals.find? (·.1.isPrefixOf (c :: rest)) with
    | some (word, value) => (.scalar (.ok value), word.length)
    | none =>
      match constants.find? (·.toList.isPrefixOf (c :: rest)) with
      | some name => (.scalar (.error (.valueError (hooks.constant name))), name.length)
      | none =>
        match readNumber (c :: rest) with
        | some (read, length) => (.scalar read, length)
        | none => (.stray, 1)

def lexemes (hooks : JsonHooks) : Nat → Nat → List Char → List Lexeme
  | _, _, [] => []
  | skip + 1, position, _ :: rest => lexemes hooks skip (position + 1) rest
  | 0, position, c :: rest =>
    if isWhitespace c then lexemes hooks 0 (position + 1) rest
    else
      let (token, length) := readToken hooks position c rest
      ⟨token, position⟩ :: lexemes hooks (length - 1) (position + 1) rest

/- The machine. -/

/-- A container whose next member is being read. -/
inductive Frame
  | array (elements : List Json)
  | member (pairs : Members) (key : String)

/-- What comes next: a value, or the end of an array just opened; a key, or the end of an
object just opened; a colon; or what may follow a value. -/
inductive Machine
  | value (stack : List Frame)
  | element (stack : List Frame)
  | firstKey (stack : List Frame)
  | key (pairs : Members) (stack : List Frame)
  | colon (pairs : Members) (key : String) (stack : List Frame)
  | after (value : Json) (stack : List Frame)

/-- How many arrays and objects are open. -/
def Machine.depth : Machine → Nat
  | .value stack => stack.length
  | .element stack => stack.length + 1
  | .firstKey stack => stack.length + 1
  | .key _ stack => stack.length + 1
  | .colon _ _ stack => stack.length + 1
  | .after _ stack => stack.length

def readValue (stack : List Frame) (lexeme : Lexeme) : Except TextError Machine :=
  match lexeme.token with
  | .mark c =>
    if c = '[' then .ok (.element stack)
    else if c = '{' then .ok (.firstKey stack)
    else .error (.decodeError "Expecting value" lexeme.position)
  | .string read => read.map fun text => .after (.string text) stack
  | .scalar read => read.map fun value => .after value stack
  | .stray => .error (.decodeError "Expecting value" lexeme.position)

def readKey (pairs : Members) (stack : List Frame) (lexeme : Lexeme) : Except TextError Machine :=
  match lexeme.token with
  | .string read => read.map fun text => .colon pairs text stack
  | _ => .error (.decodeError "Expecting property name enclosed in double quotes" lexeme.position)

def closeObject (hooks : JsonHooks) (pairs : Members) (stack : List Frame) :
    Except TextError Machine :=
  match hooks.objectPairs pairs with
  | .ok value => .ok (.after value stack)
  | .error message => .error (.valueError message)

def Token.isMark (token : Token) (c : Char) : Bool :=
  match token with
  | .mark d => d = c
  | _ => false

def step (hooks : JsonHooks) (machine : Machine) (lexeme : Lexeme) : Except TextError Machine :=
  match machine with
  | .value stack => readValue stack lexeme
  | .element stack =>
    if lexeme.token.isMark ']' then .ok (.after (.array []) stack)
    else readValue (.array [] :: stack) lexeme
  | .firstKey stack =>
    if lexeme.token.isMark '}' then closeObject hooks [] stack else readKey [] stack lexeme
  | .key pairs stack => readKey pairs stack lexeme
  | .colon pairs key stack =>
    if lexeme.token.isMark ':' then .ok (.value (.member pairs key :: stack))
    else .error (.decodeError "Expecting ':' delimiter" lexeme.position)
  | .after _ [] => .error (.decodeError "Extra data" lexeme.position)
  | .after value (.array elements :: stack) =>
    if lexeme.token.isMark ']' then .ok (.after (.array (elements ++ [value])) stack)
    else if lexeme.token.isMark ',' then .ok (.value (.array (elements ++ [value]) :: stack))
    else .error (.decodeError "Expecting ',' delimiter" lexeme.position)
  | .after value (.member pairs key :: stack) =>
    if lexeme.token.isMark '}' then closeObject hooks (pairs ++ [(key, value)]) stack
    else if lexeme.token.isMark ',' then .ok (.key (pairs ++ [(key, value)]) stack)
    else .error (.decodeError "Expecting ',' delimiter" lexeme.position)

/-- At the end of the text. -/
def finish (position : Nat) : Machine → Except TextError Json
  | .value _ => .error (.decodeError "Expecting value" position)
  | .element _ => .error (.decodeError "Expecting value" position)
  | .firstKey _ =>
    .error (.decodeError "Expecting property name enclosed in double quotes" position)
  | .key _ _ =>
    .error (.decodeError "Expecting property name enclosed in double quotes" position)
  | .colon _ _ _ => .error (.decodeError "Expecting ':' delimiter" position)
  | .after value [] => .ok value
  | .after _ (_ :: _) => .error (.decodeError "Expecting ',' delimiter" position)

inductive LoadsError
  | invalid (error : TextError)
  | recursionError
  deriving DecidableEq, Repr

/-- One step, unless it opens more than Python's limit allows. -/
def stepWithin (hooks : JsonHooks) (limit : Nat) (machine : Machine) (lexeme : Lexeme) :
    Except LoadsError Machine :=
  match step hooks machine lexeme with
  | .error error => .error (.invalid error)
  | .ok next => if next.depth ≤ limit then .ok next else .error .recursionError

def byteOrderMark : Char := '\ufeff'

def loads (hooks : JsonHooks) (limit : Nat) (text : String) : Except LoadsError Json :=
  let chars := text.toList
  if chars.head? = some byteOrderMark then
    .error (.invalid (.decodeError "Unexpected UTF-8 BOM (decode using utf-8-sig)" 0))
  else
    match (lexemes hooks 0 0 chars).foldlM (stepWithin hooks limit) (.value []) with
    | .error error => .error error
    | .ok machine =>
      match finish chars.length machine with
      | .error error => .error (.invalid error)
      | .ok value => .ok value

/- Nesting. -/

def markOpens (c : Char) : Int :=
  if c = '[' ∨ c = '{' then 1 else if c = ']' ∨ c = '}' then -1 else 0

/-- What a lexeme adds to the arrays and objects that are open. -/
def Lexeme.opens (lexeme : Lexeme) : Int :=
  match lexeme.token with
  | .mark c => markOpens c
  | _ => 0

def opened (read : List Lexeme) : Int := (read.map Lexeme.opens).sum

/-- Wherever the reading of the text gets to without an error, at most `limit` arrays and
objects are open. -/
def NestsWithin (hooks : JsonHooks) (limit : Nat) (text : String) : Prop :=
  ∀ read rest, lexemes hooks 0 0 text.toList = read ++ rest →
    ∀ machine, read.foldlM (step hooks) (.value []) = .ok machine → opened read ≤ limit

variable {hooks : JsonHooks}

theorem Token.isMark_iff {token : Token} {c : Char} : token.isMark c = true ↔ token = .mark c := by
  cases token <;> simp [Token.isMark]

theorem readValue_depth {stack : List Frame} {next : Machine} {lexeme : Lexeme}
    (taken : readValue stack lexeme = .ok next) :
    (next.depth : Int) = stack.length + lexeme.opens := by
  obtain ⟨token, position⟩ := lexeme
  cases token with
  | mark c =>
    simp only [readValue] at taken
    split_ifs at taken with array object
    · cases taken
      simp [Machine.depth, Lexeme.opens, markOpens, array]
    · cases taken
      simp [Machine.depth, Lexeme.opens, markOpens, object]
  | string read =>
    cases read with
    | error error => cases taken
    | ok text =>
      cases taken
      simp [Machine.depth, Lexeme.opens]
  | scalar read =>
    cases read with
    | error error => cases taken
    | ok value =>
      cases taken
      simp [Machine.depth, Lexeme.opens]
  | stray => cases taken

theorem readKey_depth {pairs : Members} {stack : List Frame} {next : Machine} {lexeme : Lexeme}
    (taken : readKey pairs stack lexeme = .ok next) :
    (next.depth : Int) = stack.length + 1 + lexeme.opens := by
  obtain ⟨token, position⟩ := lexeme
  cases token with
  | string read =>
    cases read with
    | error error => cases taken
    | ok text =>
      cases taken
      simp [Machine.depth, Lexeme.opens]
  | _ => cases taken

theorem closeObject_depth {pairs : Members} {stack : List Frame} {next : Machine}
    (taken : closeObject hooks pairs stack = .ok next) : next.depth = stack.length := by
  unfold closeObject at taken
  cases made : hooks.objectPairs pairs with
  | error message =>
    rw [made] at taken
    cases taken
  | ok value =>
    rw [made] at taken
    cases taken
    rfl

theorem opens_isMark {lexeme : Lexeme} {c : Char} (is : lexeme.token.isMark c = true) :
    lexeme.opens = markOpens c := by
  rw [Lexeme.opens, Token.isMark_iff.mp is]

/-- A step opens and closes what its lexeme does. -/
theorem step_depth {machine next : Machine} {lexeme : Lexeme}
    (taken : step hooks machine lexeme = .ok next) :
    (next.depth : Int) = machine.depth + lexeme.opens := by
  rcases machine with stack | stack | stack | ⟨pairs, stack⟩ | ⟨pairs, key, stack⟩ |
    ⟨value, _ | ⟨⟨elements⟩ | ⟨pairs, key⟩, stack⟩⟩
  all_goals simp only [step] at taken
  · exact readValue_depth taken
  · split_ifs at taken with closed
    · cases taken
      rw [opens_isMark closed]
      simp [Machine.depth, markOpens]
    · have deeper := readValue_depth taken
      simpa [Machine.depth] using deeper
  · split_ifs at taken with closed
    · rw [closeObject_depth taken, opens_isMark closed]
      simp [Machine.depth, markOpens]
    · have deeper := readKey_depth taken
      simpa [Machine.depth] using deeper
  · have deeper := readKey_depth taken
    simpa [Machine.depth] using deeper
  · split_ifs at taken with colon
    cases taken
    rw [opens_isMark colon]
    simp [Machine.depth, markOpens]
  · cases taken
  · split_ifs at taken with closed comma
    · cases taken
      rw [opens_isMark closed]
      simp [Machine.depth, markOpens]
    · cases taken
      rw [opens_isMark comma]
      simp [Machine.depth, markOpens]
  · split_ifs at taken with closed comma
    · rw [closeObject_depth taken, opens_isMark closed]
      simp [Machine.depth, markOpens]
    · cases taken
      rw [opens_isMark comma]
      simp [Machine.depth, markOpens]

theorem foldlM_depth {machine next : Machine} {read : List Lexeme}
    (ran : read.foldlM (step hooks) machine = .ok next) :
    (next.depth : Int) = machine.depth + opened read := by
  induction read generalizing machine with
  | nil =>
    cases ran
    simp [opened]
  | cons lexeme read ih =>
    rw [List.foldlM_cons] at ran
    cases taken : step hooks machine lexeme with
    | error error =>
      rw [taken] at ran
      cases ran
    | ok between =>
      rw [taken] at ran
      have here := step_depth taken
      have later := ih ran
      simp only [opened, List.map_cons, List.sum_cons] at later ⊢
      omega

/-- The limit is met exactly where the reading without a limit gets beyond it. -/
theorem foldlM_stepWithin {limit : Nat} {machine : Machine} {all : List Lexeme}
    (within : machine.depth ≤ limit) :
    all.foldlM (stepWithin hooks limit) machine = .error .recursionError ↔
      ∃ read rest next, all = read ++ rest ∧ read.foldlM (step hooks) machine = .ok next ∧
        limit < next.depth := by
  induction all generalizing machine with
  | nil =>
    refine iff_of_false (fun same => nomatch same) ?_
    rintro ⟨read, rest, next, empty, ran, beyond⟩
    obtain ⟨rfl, _⟩ := List.append_eq_nil_iff.mp empty.symm
    cases ran
    omega
  | cons lexeme all ih =>
    rw [List.foldlM_cons]
    have shift : (∃ read rest next, lexeme :: all = read ++ rest ∧
        read.foldlM (step hooks) machine = .ok next ∧ limit < next.depth) ↔
        ∃ between, step hooks machine lexeme = .ok between ∧ ∃ read rest next, all = read ++ rest ∧
          read.foldlM (step hooks) between = .ok next ∧ limit < next.depth := by
      constructor
      · rintro ⟨read, rest, next, split, ran, beyond⟩
        cases read with
        | nil =>
          cases ran
          omega
        | cons first read =>
          obtain ⟨rfl, others⟩ := List.cons.inj split
          rw [List.foldlM_cons] at ran
          cases taken : step hooks machine lexeme with
          | error error =>
            rw [taken] at ran
            cases ran
          | ok between =>
            rw [taken] at ran
            exact ⟨between, rfl, read, rest, next, others, ran, beyond⟩
      · rintro ⟨between, taken, read, rest, next, rfl, ran, beyond⟩
        refine ⟨lexeme :: read, rest, next, rfl, ?_, beyond⟩
        rw [List.foldlM_cons, taken]
        exact ran
    rw [shift]
    cases taken : step hooks machine lexeme with
    | error error =>
      simp only [stepWithin, taken, reduceCtorEq, false_and, exists_false, iff_false]
      exact fun same => nomatch same
    | ok between =>
      simp only [Except.ok.injEq, exists_eq_left']
      by_cases shallow : between.depth ≤ limit
      · simp only [stepWithin, taken, if_pos shallow]
        exact ih shallow
      · simp only [stepWithin, taken, if_neg shallow]
        exact iff_of_true rfl ⟨[], all, between, rfl, rfl, Nat.lt_of_not_le shallow⟩

theorem readToken_byteOrderMark (position : Nat) (rest : List Char) :
    readToken hooks position byteOrderMark rest = (.stray, 1) := by
  simp [readToken, byteOrderMark, literals, constants, readNumber]

/-- Python's limit is met exactly when the text nests beyond it. -/
theorem loads_recursionError {limit : Nat} {text : String} :
    loads hooks limit text = .error .recursionError ↔ ¬ NestsWithin hooks limit text := by
  have beyond_iff (read : List Lexeme) (next : Machine)
      (ran : read.foldlM (step hooks) (.value []) = .ok next) :
      limit < next.depth ↔ ¬ opened read ≤ limit := by
    have depth := foldlM_depth ran
    simp only [Machine.depth, List.length_nil, Nat.cast_zero, Int.zero_add] at depth ⊢
    omega
  have met : (lexemes hooks 0 0 text.toList).foldlM (stepWithin hooks limit) (.value []) =
      .error .recursionError ↔ ¬ NestsWithin hooks limit text := by
    rw [foldlM_stepWithin (Nat.zero_le limit)]
    simp only [NestsWithin, not_forall]
    constructor
    · rintro ⟨read, rest, next, split, ran, beyond⟩
      exact ⟨read, rest, split, next, ran, (beyond_iff read next ran).mp beyond⟩
    · rintro ⟨read, rest, split, next, ran, beyond⟩
      exact ⟨read, rest, next, split, ran, (beyond_iff read next ran).mpr beyond⟩
  rw [← met]
  unfold loads
  by_cases marked : text.toList.head? = some byteOrderMark
  · obtain ⟨rest, chars⟩ := List.head?_eq_some_iff.mp marked
    have stray : lexemes hooks 0 0 text.toList =
        ⟨.stray, 0⟩ :: lexemes hooks 0 1 rest := by
      rw [chars, lexemes, readToken_byteOrderMark]
      rfl
    rw [if_pos marked, stray]
    exact iff_of_false (fun same => nomatch same) (fun same => nomatch same)
  · simp only [if_neg marked]
    cases (lexemes hooks 0 0 text.toList).foldlM (stepWithin hooks limit) (.value []) with
    | error error => simp
    | ok machine =>
      cases ended : finish text.toList.length machine with
      | error error => simp [ended]
      | ok value => simp [ended]

end JsonText

end Python
