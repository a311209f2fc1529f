import Mathlib.Data.Int.Log
import Mathlib.Data.List.TakeWhile
import Mathlib.Data.Rat.Floor
import NotiMapper.Library.Numeral

/-! `float(text)`, of a text without digits from outside ASCII, and the doubles it gives. -/
namespace Python

open JsonText

/-- The last bit that the doubles around a number have. -/
def lastBit (q : Rat) : Int := max (Int.log 2 q - 52) (-1074)

/-- The double nearest to a number that is not negative, of two the even one. -/
def nearestDouble (q : Rat) : PyFloat :=
  let rounded : Rat := roundHalfEven (q / 2 ^ lastBit q) * 2 ^ lastBit q
  if rounded < floatLimit then .finite rounded else .infinity

/-- A number that is a double as it is. -/
def IsDouble (q : Rat) : Prop :=
  q < floatLimit ∧ ∃ m : Nat, ∃ e : Int, m < 2 ^ 53 ∧ -1074 ≤ e ∧ q = m * 2 ^ e

theorem roundHalfEven_nonneg {q : Rat} (positive : 0 ≤ q) : 0 ≤ roundHalfEven q := by
  have below : 0 ≤ q.floor := Rat.le_floor_iff.mpr (by exact_mod_cast positive)
  unfold roundHalfEven
  dsimp only
  split_ifs <;> omega

theorem nearestDouble_bounded {q r : Rat} (positive : 0 ≤ q) (found : nearestDouble q = .finite r) :
    0 ≤ r ∧ r < floatLimit := by
  unfold nearestDouble at found
  dsimp only at found
  split_ifs at found with below
  cases found
  have power : (0 : Rat) < 2 ^ lastBit q := zpow_pos (by norm_num) _
  have rounded := roundHalfEven_nonneg (div_nonneg positive power.le)
  exact ⟨mul_nonneg (Int.cast_nonneg rounded) power.le, below⟩

/-- In the place of its last bit a double is an integer. -/
theorem lastBit_le {m : Nat} {e : Int} (small : m < 2 ^ 53) (fine : -1074 ≤ e)
    (some : 0 < m) : lastBit (m * 2 ^ e) ≤ e := by
  have power : (0 : Rat) < 2 ^ e := zpow_pos (by norm_num) _
  have positive : (0 : Rat) < m * 2 ^ e := mul_pos (Nat.cast_pos.mpr some) power
  have bound : (m : Rat) * 2 ^ e < 2 ^ (e + 53) := by
    have less : (m : Rat) < 2 ^ (53 : Int) := by exact_mod_cast small
    rw [zpow_add₀ (by norm_num), mul_comm (2 ^ e : Rat)]
    exact mul_lt_mul_of_pos_right less power
  have logarithm : Int.log 2 ((m : Rat) * 2 ^ e) < e + 53 := by
    have cast : ((m : Rat) * 2 ^ e) < ((2 : Nat) : Rat) ^ (e + 53) := by exact_mod_cast bound
    exact (Int.lt_zpow_iff_log_lt (by decide) positive).mp cast
  unfold lastBit
  omega

theorem nearestDouble_of_isDouble {q : Rat} (double : IsDouble q) : nearestDouble q = .finite q := by
  obtain ⟨below, m, e, small, fine, rfl⟩ := double
  rcases Nat.eq_zero_or_pos m with rfl | some
  · have zero : ((0 : Nat) : Rat) * 2 ^ e = 0 := by rw [Nat.cast_zero, zero_mul]
    have rounded : roundHalfEven (0 : Rat) = 0 := roundHalfEven_intCast 0
    rw [zero] at below ⊢
    simp only [nearestDouble, zero_div, rounded, Int.cast_zero, zero_mul, if_pos below]
  · have place := lastBit_le small fine some
    have power : (2 : Rat) ^ lastBit (m * 2 ^ e) ≠ 0 := zpow_ne_zero _ (by norm_num)
    obtain ⟨k, shift⟩ := Int.eq_ofNat_of_zero_le (sub_nonneg.mpr place)
    have whole : (m : Rat) * 2 ^ e / 2 ^ lastBit (m * 2 ^ e) = ((m * 2 ^ k : Nat) : Int) := by
      rw [mul_div_assoc, ← zpow_sub₀ (by norm_num), shift, zpow_natCast]
      push_cast
      rfl
    have rounded : ((roundHalfEven (m * 2 ^ e / 2 ^ lastBit (m * 2 ^ e)) : Int) : Rat) *
        2 ^ lastBit (m * 2 ^ e) = m * 2 ^ e := by
      rw [whole, roundHalfEven_intCast, ← whole, div_mul_cancel₀ _ power]
    simp only [nearestDouble, rounded, if_pos below]

theorem isDouble_of_nearest {q : Rat} (positive : 0 ≤ q) (same : nearestDouble q = .finite q) :
    IsDouble q := by
  unfold nearestDouble at same
  dsimp only at same
  split_ifs at same with below
  rw [PyFloat.finite.injEq] at same
  refine ⟨same ▸ below, (roundHalfEven (q / 2 ^ lastBit q)).toNat, lastBit q, ?_,
    le_max_right _ _, ?_⟩
  · have power : (0 : Rat) < 2 ^ lastBit q := zpow_pos (by norm_num) _
    have rounded := roundHalfEven_nonneg (div_nonneg positive power.le)
    rcases positive.eq_or_lt with rfl | some
    · rw [zero_div, show roundHalfEven (0 : Rat) = 0 from roundHalfEven_intCast 0]
      decide
    · have above : q < 2 ^ (lastBit q + 53) := by
        have log : q < ((2 : Nat) : Rat) ^ (Int.log 2 q + 1) := Int.lt_zpow_succ_log_self (by decide) q
        have grows : (2 : Rat) ^ (Int.log 2 q + 1) ≤ 2 ^ (lastBit q + 53) := by
          apply zpow_le_zpow_right₀ (by norm_num)
          unfold lastBit
          omega
        exact lt_of_lt_of_le (by exact_mod_cast log) grows
      have quotient : ((roundHalfEven (q / 2 ^ lastBit q) : Int) : Rat) < ((2 ^ 53 : Int) : Rat) := by
        have parts : (roundHalfEven (q / 2 ^ lastBit q) : Rat) * 2 ^ lastBit q <
            2 ^ (53 : Int) * 2 ^ lastBit q := by
          rw [same, ← zpow_add₀ (by norm_num), add_comm]
          exact above
        have less := lt_of_mul_lt_mul_right parts power.le
        exact_mod_cast less
      have less : roundHalfEven (q / 2 ^ lastBit q) < 2 ^ 53 := by exact_mod_cast quotient
      omega
  · have power : (0 : Rat) < 2 ^ lastBit q := zpow_pos (by norm_num) _
    have rounded := roundHalfEven_nonneg (div_nonneg positive power.le)
    have cast : ((roundHalfEven (q / 2 ^ lastBit q)).toNat : Rat) =
        (roundHalfEven (q / 2 ^ lastBit q) : Rat) := by
      exact_mod_cast congrArg (Int.cast (R := Rat)) (Int.toNat_of_nonneg rounded)
    rw [cast, same]

theorem nearestDouble_eq_iff {q : Rat} (positive : 0 ≤ q) :
    nearestDouble q = .finite q ↔ IsDouble q :=
  ⟨isDouble_of_nearest positive, nearestDouble_of_isDouble⟩

theorem isDouble_natCast {n : Nat} (small : n < 2 ^ 53) : IsDouble n := by
  refine ⟨?_, n, 0, small, by decide, by rw [zpow_zero, mul_one]⟩
  have beyond : 2 ^ 53 < floatLimit := pow_lt_floatLimit.mpr (by decide)
  exact Nat.cast_lt.mpr (small.trans beyond)

inductive Double
  | nan
  | number (value : FloatValue)

/-- A decimal, correctly rounded. -/
def FloatValue.nearest (negative : Bool) (digits : Nat) (exponent : Int) : FloatValue where
  negative
  magnitude := nearestDouble (digits * 10 ^ exponent)
  bounded _ := nearestDouble_bounded (mul_nonneg (Nat.cast_nonneg _) (zpow_nonneg (by norm_num) _))

def FloatValue.infinite (negative : Bool) : FloatValue := ⟨negative, .infinity, fun _ no => by cases no⟩

/-- The digits on one side of a point, which may be missing. -/
def pointDigits : List Char → Option (List Char)
  | [] => some []
  | text => ungrouped text

/-- The exponent behind an `e`, if there is one. -/
def exponentOf : List Char → Option Int
  | [] => some 0
  | _ :: text =>
    let (negative, body) := signed text
    (ungrouped body).map fun digits => if negative then -digitsValue digits else digitsValue digits

def decimal (negative : Bool) (text : List Char) : Option FloatValue := do
  let mantissa := text.takeWhile (· ≠ 'e')
  let whole ← pointDigits (mantissa.takeWhile (· ≠ '.'))
  let fraction ← pointDigits ((mantissa.dropWhile (· ≠ '.')).drop 1)
  let exponent ← exponentOf (text.dropWhile (· ≠ 'e'))
  if whole = [] ∧ fraction = [] then none
  else some (.nearest negative (digitsValue (whole ++ fraction)) (exponent - fraction.length))

/-- `float(text)`; a `ValueError` otherwise. -/
def float (text : String) : Option Double :=
  let (negative, body) := signed (trimmed text.toList)
  let small := body.map Char.toLower
  if small = "nan".toList then some .nan
  else if small = "inf".toList ∨ small = "infinity".toList then
    some (.number (.infinite negative))
  else (decimal negative small).map Double.number

def Double.whole (n : Nat) : Double := .number (.nearest false n 0)

/-- The double is this integer. -/
def Double.Is (double : Double) (n : Int) : Prop :=
  ∃ value, double = .number value ∧ value.negative = decide (n < 0) ∧
    value.magnitude = .finite n.natAbs

theorem Double.is_nearest {n : Nat} {negative : Bool} {exponent : Int} {m : Int}
    (zero : exponent = 0) (sign : negative = decide (m < 0)) (size : n = m.natAbs) :
    (Double.number (.nearest negative n exponent)).Is m ↔ IsDouble m.natAbs := by
  subst zero size
  have magnitude : (FloatValue.nearest negative m.natAbs 0).magnitude = nearestDouble m.natAbs := by
    simp only [FloatValue.nearest, zpow_zero, mul_one]
  rw [← nearestDouble_eq_iff (Nat.cast_nonneg m.natAbs), ← magnitude]
  constructor
  · rintro ⟨value, same, _, exact⟩
    cases same
    exact exact
  · intro exact
    exact ⟨_, rfl, sign, exact⟩

theorem Double.whole_is {n : Nat} (small : n < 2 ^ 53) : (Double.whole n).Is n := by
  have sign : false = decide ((n : Int) < 0) := (decide_eq_false (by omega)).symm
  have double : IsDouble ((n : Int).natAbs : Rat) := by
    rw [Int.natAbs_natCast]
    exact isDouble_natCast small
  unfold Double.whole
  exact (Double.is_nearest rfl sign (Int.natAbs_natCast n).symm).mpr double

theorem decimal_digits {negative : Bool} {digits : List Char} (nonempty : digits ≠ [])
    (all : ∀ c ∈ digits, c.isDigit = true) :
    decimal negative digits = some (.nearest negative (digitsValue digits) 0) := by
  have other {sign : Char} (foreign : sign.isDigit = false) (c : Char) (member : c ∈ digits) :
      decide (c ≠ sign) = true := by
    rw [decide_eq_true_eq]
    rintro rfl
    rw [all _ member] at foreign
    cases foreign
  have mantissa : digits.takeWhile (fun c => decide (c ≠ 'e')) = digits :=
    List.takeWhile_eq_self_iff.mpr (other (by decide))
  have exponent : digits.dropWhile (fun c => decide (c ≠ 'e')) = [] :=
    List.dropWhile_eq_nil_iff.mpr (other (by decide))
  have whole : digits.takeWhile (fun c => decide (c ≠ '.')) = digits :=
    List.takeWhile_eq_self_iff.mpr (other (by decide))
  have fraction : digits.dropWhile (fun c => decide (c ≠ '.')) = [] :=
    List.dropWhile_eq_nil_iff.mpr (other (by decide))
  have read : pointDigits digits = some digits := by
    cases digits with
    | nil => exact absurd rfl nonempty
    | cons c rest => exact ungrouped_digits nonempty all
  have none : pointDigits [] = some [] := rfl
  unfold decimal
  simp only [mantissa, exponent, whole, fraction, read, none, exponentOf, nonempty, List.drop_nil,
    Option.bind_eq_bind, Option.bind_some, List.append_nil, List.length_nil, false_and, if_false,
    Nat.cast_zero, sub_zero]

theorem toLower_of_isDigit {c : Char} (digit : c.isDigit = true) : c.toLower = c := by
  simp only [Char.isDigit, Bool.and_eq_true, decide_eq_true_eq] at digit
  unfold Char.toLower
  rw [dif_neg]
  rintro ⟨large, _⟩
  have bound : 'A'.val ≤ '9'.val := UInt32.le_trans large digit.2
  exact absurd bound (by decide)

theorem float_of_numeral {text : String} {sign : Bool} {digits : List Char}
    (spelled : signed (trimmed text.toList) = (sign, digits)) (nonempty : digits ≠ [])
    (all : ∀ c ∈ digits, c.isDigit = true) :
    float text = some (.number (.nearest sign (digitsValue digits) 0)) := by
  have small : digits.map Char.toLower = digits := by
    conv_rhs => rw [← List.map_id digits]
    exact List.map_congr_left fun c member => toLower_of_isDigit (all c member)
  have word {text : List Char} (letter : ∃ c ∈ text, c.isDigit = false) : digits ≠ text := by
    rintro rfl
    obtain ⟨c, member, foreign⟩ := letter
    rw [all c member] at foreign
    cases foreign
  simp only [float, spelled, small, word (show ∃ c ∈ "nan".toList, c.isDigit = false from ⟨'n', by decide, by decide⟩), if_false, or_self,
    word (show ∃ c ∈ "inf".toList, c.isDigit = false from ⟨'i', by decide, by decide⟩),
    word (show ∃ c ∈ "infinity".toList, c.isDigit = false from ⟨'i', by decide, by decide⟩),
    decimal_digits nonempty all, Option.map_some]

/-- An integer is read as the double nearest to it. -/
theorem float_toString (n : Int) : float (toString n) =
    some (.number (.nearest (decide (n < 0)) n.natAbs 0)) := by
  rw [float_of_numeral (signed_toString n) Nat.toDigits_ne_nil isDigit_toDigits,
    digitsValue_toDigits]

theorem float_none : float "None" = none := by decide +kernel

end Python
