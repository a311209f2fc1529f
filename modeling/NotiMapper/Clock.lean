import NotiMapper.Library.Python

/-! Wall-clock time. An aware datetime is its UTC instant, counted in microseconds
from `datetime.min`; every clock reading and every stored timestamp is one. -/
namespace NotiMapper

open Python

abbrev Time := Nat

/-- `datetime.max`: the last microsecond of the year 9999. -/
def datetimeMax : Time := 3652059 * 86400 * 1000000 - 1

def seconds (n : Nat) : Nat := n * 1000000

/-- `moment + timedelta(seconds=delay)`. -/
def addSeconds (moment : Time) (delay : PyFloat) : Except PyError Time :=
  match timedelta delay with
  | .error e => .error e
  | .ok micros => if moment + micros ≤ datetimeMax then .ok (moment + micros)
                  else .error .overflowError

theorem seconds_mono {n m : Nat} (le : n ≤ m) : seconds n ≤ seconds m := Nat.mul_le_mul_right _ le

/-- A whole number of seconds is added exactly, if the sum is still a datetime. -/
theorem addSeconds_whole (moment : Time) (n : Nat) (small : seconds n ≤ timedeltaMax) :
    addSeconds moment (.finite n) =
      if moment + seconds n ≤ datetimeMax then .ok (moment + seconds n)
      else .error .overflowError := by
  have micros : (roundHalfEven ((n : Rat) * 1000000)).toNat = seconds n := by
    have whole : (n : Rat) * 1000000 = ((seconds n : Int) : Rat) := by
      simp [seconds]
    rw [whole, roundHalfEven_intCast, Int.toNat_natCast]
  simp only [addSeconds, timedelta, micros, if_pos small]

end NotiMapper
