import NotiMapper.Library.JsonText

/-! `int(text)`, of a text without digits from outside ASCII. -/
namespace Python

open JsonText

/-- `int` and `float` do not take the separators of ASCII for whitespace. -/
def isNumeralSpace (c : Char) : Bool := isSpace c && !(28 ≤ c.toNat && c.toNat ≤ 31)

def trimmed (text : List Char) : List Char :=
  ((text.dropWhile isNumeralSpace).reverse.dropWhile isNumeralSpace).reverse

/-- The digits of a numeral, in which a single underscore may stand between two. -/
def ungrouped (text : List Char) : Option (List Char) :=
  let groups := text.splitOn '_'
  if groups.all fun group => !group.isEmpty && group.all Char.isDigit then some groups.flatten
  else none

structure Numeral where
  negative : Bool
  digits : List Char
  deriving DecidableEq

def Numeral.value (numeral : Numeral) : Int :=
  if numeral.negative then -digitsValue numeral.digits else digitsValue numeral.digits

def signed : List Char → Bool × List Char
  | '-' :: rest => (true, rest)
  | '+' :: rest => (false, rest)
  | rest => (false, rest)

/-- The numeral that a text is, of any length. -/
def numeral (text : String) : Option Numeral :=
  let (negative, body) := signed (trimmed text.toList)
  (ungrouped body).map fun digits => ⟨negative, digits⟩

/-- `int(text)`; a `ValueError` otherwise. -/
def int (text : String) : Option Int :=
  match numeral text with
  | none => none
  | some numeral => if maxDigits < numeral.digits.length then none else some numeral.value

theorem digitsValue_snoc (digits : List Char) (c : Char) :
    digitsValue (digits ++ [c]) = 10 * digitsValue digits + (c.toNat - '0'.toNat) := by
  rw [digitsValue, List.foldl_append]
  rfl

theorem digitsValue_toDigits (n : Nat) : digitsValue (Nat.toDigits 10 n) = n := by
  induction n using Nat.strongRecOn with
  | ind n ih =>
    rw [Nat.toDigits_eq_if (by decide)]
    split
    · rename_i small
      simpa [digitsValue] using Nat.toNat_digitChar_sub_48_of_lt_ten small
    · have before : digitsValue (Nat.toDigits 10 (n / 10)) = n / 10 := ih (n / 10) (by omega)
      have last := Nat.toNat_digitChar_sub_48_of_lt_ten (Nat.mod_lt n (show 10 > 0 by decide))
      have zero : '0'.toNat = 48 := by decide
      rw [digitsValue_snoc, before, zero, last]
      omega

theorem not_space_of_isDigit {c : Char} (digit : c.isDigit = true) : isNumeralSpace c = false := by
  simp only [Char.isDigit, Bool.and_eq_true, decide_eq_true_eq] at digit
  have low : 48 ≤ c.toNat := digit.1
  have high : c.toNat ≤ 57 := digit.2
  simp only [isNumeralSpace, isSpace, Bool.and_eq_false_iff, Bool.or_eq_false_iff,
    decide_eq_false_iff_not, beq_eq_false_iff_ne]
  omega

theorem trimmed_eq_self {text : List Char} (solid : ∀ c ∈ text, isNumeralSpace c = false) :
    trimmed text = text := by
  have kept {text : List Char} (solid : ∀ c ∈ text, isNumeralSpace c = false) :
      text.dropWhile isNumeralSpace = text := by
    cases text with
    | nil => rfl
    | cons c text => simp [solid c List.mem_cons_self]
  rw [trimmed, kept solid, kept fun c member => solid c (List.mem_reverse.mp member),
    List.reverse_reverse]

theorem ungrouped_digits {digits : List Char} (nonempty : digits ≠ [])
    (all : ∀ c ∈ digits, c.isDigit = true) : ungrouped digits = some digits := by
  have single : digits.splitOn '_' = [digits] := by
    apply List.splitOn_eq_singleton
    intro member
    exact absurd (all _ member) (by decide)
  have fine : digits.all Char.isDigit = true := List.all_eq_true.mpr all
  simp [ungrouped, single, nonempty, fine]

theorem signed_digit {c : Char} {rest : List Char} (digit : c.isDigit = true) :
    signed (c :: rest) = (false, c :: rest) := by
  unfold signed
  split
  · rename_i same
    cases (List.cons.inj same).1
    cases digit
  · rename_i same
    cases (List.cons.inj same).1
    cases digit
  · rfl

theorem isDigit_toDigits {n : Nat} : ∀ c ∈ Nat.toDigits 10 n, c.isDigit = true := fun _ member =>
  Nat.isDigit_of_mem_toDigits (by decide) (by decide) member

theorem signed_toString (n : Int) :
    signed (trimmed (toString n).toList) = (decide (n < 0), Nat.toDigits 10 n.natAbs) := by
  have solid (m : Nat) : ∀ c ∈ Nat.toDigits 10 m, isNumeralSpace c = false := fun c member =>
    not_space_of_isDigit (isDigit_toDigits c member)
  rw [Int.toString_eq_repr, Int.repr_eq_if]
  by_cases positive : 0 ≤ n
  · have size : n.toNat = n.natAbs := by omega
    obtain ⟨first, rest, shape⟩ := List.exists_cons_of_ne_nil
      (Nat.toDigits_ne_nil (n := n.natAbs) (b := 10))
    have sign : signed (Nat.toDigits 10 n.natAbs) = (false, Nat.toDigits 10 n.natAbs) := by
      rw [shape]
      exact signed_digit (isDigit_toDigits first (shape ▸ List.mem_cons_self))
    rw [if_pos positive, size, Nat.toList_repr, trimmed_eq_self (solid _), sign,
      decide_eq_false (not_lt.mpr positive)]
  · have size : (-n).toNat = n.natAbs := by omega
    have minus : ("-" ++ n.natAbs.repr).toList = '-' :: Nat.toDigits 10 n.natAbs := by
      rw [String.toList_append, Nat.toList_repr]
      rfl
    have solid' : ∀ c ∈ '-' :: Nat.toDigits 10 n.natAbs, isNumeralSpace c = false :=
      List.forall_mem_cons.mpr ⟨by decide, solid _⟩
    rw [if_neg positive, size, minus, trimmed_eq_self solid', decide_eq_true (not_le.mp positive)]
    rfl

theorem numeral_toString (n : Int) :
    numeral (toString n) = some ⟨decide (n < 0), Nat.toDigits 10 n.natAbs⟩ := by
  rw [numeral, signed_toString]
  simp only [ungrouped_digits Nat.toDigits_ne_nil isDigit_toDigits, Option.map_some]

/-- An integer that can be written at all is read back. -/
theorem int_toString {n : Int} (short : n.natAbs < 10 ^ maxDigits) :
    int (toString n) = some n := by
  have fits : ¬ maxDigits < (Nat.toDigits 10 n.natAbs).length :=
    not_lt.mpr ((Nat.length_toDigits_le_iff (by decide) (by decide)).mpr short)
  rw [int, numeral_toString]
  simp only [if_neg fits, Numeral.value, digitsValue_toDigits, decide_eq_true_eq, Option.some.injEq]
  split <;> omega

end Python
