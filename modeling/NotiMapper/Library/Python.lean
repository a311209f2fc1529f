import Mathlib.Algebra.Order.Ring.Rat
import Mathlib.Order.WithBot
import Mathlib.Tactic.Linarith
import Mathlib.Tactic.NormNum

/-! The parts of Python's semantics the program leans on: which exceptions its
built-in operations raise, non-negative floats taken as exact rationals with an
infinity, the rounding of `timedelta`, and `str.strip`. -/
namespace Python

inductive PyError
  | overflowError
  | integrityError
  deriving DecidableEq, Repr

inductive PyFloat
  | finite (value : Rat)
  | infinity
  deriving DecidableEq, Repr

/-- No float is as large as this. -/
def floatLimit : Nat := 2 ^ 1024

theorem floatLimit_pos : 0 < floatLimit := by
  unfold floatLimit
  positivity

namespace PyFloat

/-- A product beyond the largest float is the infinity. -/
def mul : PyFloat → PyFloat → PyFloat
  | finite a, finite b => if a * b < floatLimit then finite (a * b) else infinity
  | _, _ => infinity

def lt : PyFloat → PyFloat → Bool
  | finite a, finite b => decide (a < b)
  | finite _, infinity => true
  | infinity, _ => false

/-- `min(a, b)`: the first argument unless the second is strictly smaller. -/
def min (a b : PyFloat) : PyFloat := if b.lt a then b else a

/-- The order of the floats: the infinity is above every number. -/
def value : PyFloat → WithTop Rat
  | finite q => q
  | infinity => ⊤

@[simp] theorem value_finite (q : Rat) : (finite q).value = q := rfl

@[simp] theorem value_infinity : infinity.value = ⊤ := rfl

theorem lt_iff {a b : PyFloat} : a.lt b = true ↔ a.value < b.value := by
  cases a <;> cases b <;> simp [lt]

theorem value_min (a b : PyFloat) : (a.min b).value = Min.min a.value b.value := by
  unfold min
  split
  · rename_i less
    exact (min_eq_right_of_lt (lt_iff.mp less)).symm
  · rename_i least
    rw [lt_iff, not_lt] at least
    exact (min_eq_left least).symm

theorem value_injective {a b : PyFloat} (same : a.value = b.value) : a = b := by
  cases a <;> cases b <;> simp_all [value]

/-- Twice as much, `k` times over, however large. -/
def doubled (k : Nat) : PyFloat → PyFloat
  | finite q => finite (q * 2 ^ k)
  | infinity => infinity

/-- As a product of floats it is the same, or the infinity. -/
theorem mul_two_pow (a : PyFloat) (k : Nat) : a.mul (.finite (2 ^ k : Nat)) =
    if (a.doubled k).value < (finite floatLimit).value then a.doubled k else infinity := by
  cases a with
  | infinity => exact (ite_self infinity).symm
  | finite q =>
    have below : (finite (q * 2 ^ k)).value < (finite floatLimit).value ↔
        q * 2 ^ k < floatLimit := WithTop.coe_lt_coe
    simp only [mul, doubled, below, Nat.cast_pow, Nat.cast_ofNat]

/-- What a configuration can give as a positive number: a float, or the infinity. -/
def Positive : PyFloat → Prop
  | finite q => 0 < q ∧ q < floatLimit
  | infinity => True

theorem Positive.doubled_mono {a : PyFloat} (positive : a.Positive) {j k : Nat} (le : j ≤ k) :
    (a.doubled j).value ≤ (a.doubled k).value := by
  cases a with
  | infinity => exact le_refl _
  | finite q =>
    have power : (2 : Rat) ^ j ≤ 2 ^ k := pow_le_pow_right₀ (by norm_num) le
    exact WithTop.coe_le_coe.mpr (mul_le_mul_of_nonneg_left power positive.1.le)

theorem Positive.lt_limit {q : Rat} (positive : (finite q).Positive) :
    (finite q).value < (finite floatLimit).value := by
  obtain ⟨_, below⟩ := positive
  exact WithTop.coe_lt_coe.mpr below

end PyFloat

/-- The conversion `int` to `float`, of a non-negative integer. -/
def floatOfInt (n : Nat) : Except PyError PyFloat :=
  if n < floatLimit then .ok (.finite n) else .error .overflowError

theorem pow_lt_floatLimit {n : Nat} : 2 ^ n < floatLimit ↔ n < 1024 := by
  unfold floatLimit
  exact Nat.pow_lt_pow_iff_right (by decide)

theorem floatOfInt_ok {n : Nat} (fits : n < floatLimit) : floatOfInt n = .ok (.finite n) :=
  if_pos fits

theorem floatOfInt_overflow {n : Nat} (beyond : ¬ n < floatLimit) :
    floatOfInt n = .error .overflowError := if_neg beyond

/-- Round to the nearest integer, a tie to the even one. -/
def roundHalfEven (q : Rat) : Int :=
  let below := q.floor
  if q - below < 1 / 2 then below
  else if 1 / 2 < q - below then below + 1
  else if below % 2 = 0 then below
  else below + 1

theorem roundHalfEven_intCast (z : Int) : roundHalfEven (z : Rat) = z := by
  have exact_floor : ((z : Rat)).floor = z := Rat.floor_intCast z
  have tie : (z : Rat) - (z : Rat) < 1 / 2 := by
    rw [sub_self]
    norm_num
  simp only [roundHalfEven, exact_floor, if_pos tie]

theorem lt_roundHalfEven_add_one (q : Rat) : q < roundHalfEven q + 1 := by
  have above : q < q.floor + 1 := by
    have next := Rat.lt_floor_add_one q
    push_cast at next
    exact next
  have next : (q.floor : Rat) + 1 < ((q.floor + 1 : Int) : Rat) + 1 := by
    push_cast
    linarith
  unfold roundHalfEven
  simp only
  split
  · exact above
  · split
    · exact above.trans next
    · split
      · exact above
      · exact above.trans next

/-- `timedelta.max`, in microseconds. -/
def timedeltaMax : Nat := 1000000000 * 86400 * 1000000 - 1

/-- `timedelta(seconds=...)` of a non-negative float, in microseconds. -/
def timedelta : PyFloat → Except PyError Nat
  | .infinity => .error .overflowError
  | .finite seconds =>
    let micros := (roundHalfEven (seconds * 1000000)).toNat
    if micros ≤ timedeltaMax then .ok micros else .error .overflowError

/-- The format specification `.0f`. -/
def formatWhole : PyFloat → String
  | .finite q => toString (roundHalfEven q)
  | .infinity => "inf"

/-- What holds of each character of a text, checked one after the other. -/
theorem forall_chars {text : String} {p : Char → Prop} [DecidablePred p]
    (each : text.toList.all (fun c => decide (p c)) = true) : ∀ c ∈ text.toList, p c := by
  intro c member
  exact of_decide_eq_true (List.all_eq_true.mp each c member)

def formatBool (b : Bool) : String := if b then "True" else "False"

/-- `str.isspace` on one character. -/
def isSpace (c : Char) : Bool :=
  let n := c.toNat
  (9 ≤ n && n ≤ 13) || (28 ≤ n && n ≤ 32) || n == 0x85 || n == 0xa0 || n == 0x1680 ||
    (0x2000 ≤ n && n ≤ 0x200a) || n == 0x2028 || n == 0x2029 || n == 0x202f || n == 0x205f ||
    n == 0x3000

/-- `str.strip()`. -/
def strip (text : String) : String :=
  String.ofList (((text.toList.dropWhile isSpace).reverse.dropWhile isSpace).reverse)

end Python
