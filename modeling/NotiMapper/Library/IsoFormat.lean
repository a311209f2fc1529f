import NotiMapper.Library.Calendar

/-! Aware datetimes and the text `isoformat` makes of them. Every field has a width of its
own, so the texts of two datetimes with one offset compare as the datetimes do. -/
namespace Python

def dayMicros : Nat := 86400000000

structure TimeOfDay where
  hour : Nat
  minute : Nat
  second : Nat
  microsecond : Nat
  hour_lt : hour < 24
  minute_lt : minute < 60
  second_lt : second < 60
  microsecond_lt : microsecond < 1000000
  deriving DecidableEq

def TimeOfDay.micros (time : TimeOfDay) : Nat :=
  ((time.hour * 60 + time.minute) * 60 + time.second) * 1000000 + time.microsecond

/-- What a timezone says at some moment: less than a day, either way. -/
abbrev Offset := { micros : Int // micros.natAbs < dayMicros }

def Offset.utc : Offset := ⟨0, by decide⟩

/-- Naive when there is no offset. -/
structure Datetime where
  date : Date
  time : TimeOfDay
  utcoffset : Option Offset
  deriving DecidableEq

namespace TimeOfDay

theorem micros_lt (time : TimeOfDay) : time.micros < dayMicros := by
  obtain ⟨hour, minute, second, microsecond, _, _, _, _⟩ := time
  unfold micros dayMicros
  simp only
  omega

def ofMicros (micros : Nat) (within : micros < dayMicros) : TimeOfDay where
  hour := micros / 3600000000
  minute := micros / 60000000 % 60
  second := micros / 1000000 % 60
  microsecond := micros % 1000000
  hour_lt := by unfold dayMicros at within; omega
  minute_lt := Nat.mod_lt _ (by decide)
  second_lt := Nat.mod_lt _ (by decide)
  microsecond_lt := Nat.mod_lt _ (by decide)

@[simp] theorem micros_ofMicros (micros : Nat) (within : micros < dayMicros) :
    (ofMicros micros within).micros = micros := by
  unfold TimeOfDay.micros ofMicros
  simp only
  omega

/-- By hour, minute, second and microsecond. -/
def Before (a b : TimeOfDay) : Prop :=
  a.hour < b.hour ∨ a.hour = b.hour ∧ (a.minute < b.minute ∨ a.minute = b.minute ∧
    (a.second < b.second ∨ a.second = b.second ∧ a.microsecond < b.microsecond))

theorem micros_lt_iff {a b : TimeOfDay} : a.micros < b.micros ↔ a.Before b := by
  obtain ⟨hour, minute, second, microsecond, _, _, _, _⟩ := a
  obtain ⟨hour', minute', second', microsecond', _, _, _, _⟩ := b
  unfold micros Before
  simp only
  omega

theorem micros_injective {a b : TimeOfDay} (same : a.micros = b.micros) : a = b := by
  obtain ⟨hour, minute, second, microsecond, _, _, _, _⟩ := a
  obtain ⟨hour', minute', second', microsecond', _, _, _, _⟩ := b
  unfold micros at same
  simp only [mk.injEq] at same ⊢
  omega

end TimeOfDay

namespace Datetime

/-- Microseconds since `datetime.min`, by the datetime's own clock. -/
def localMicros (moment : Datetime) : Nat :=
  (moment.date.toordinal - 1) * dayMicros + moment.time.micros

/-- The instant, in microseconds since `datetime.min` in UTC. -/
def instant (moment : Datetime) : Int :=
  moment.localMicros - (moment.utcoffset.getD Offset.utc).1

/-- One past the last microsecond of the year 9999. -/
def limit : Nat := maxOrdinal * dayMicros

/-- The datetime in UTC with an instant. -/
def utc (micros : Nat) (small : micros < limit) : Datetime where
  date := Date.fromordinal (micros / dayMicros + 1)
    ⟨Nat.le_add_left _ _, Nat.div_lt_of_lt_mul (Nat.mul_comm _ _ ▸ small)⟩
  time := TimeOfDay.ofMicros (micros % dayMicros) (Nat.mod_lt _ (by decide))
  utcoffset := some Offset.utc

@[simp] theorem localMicros_utc (micros : Nat) (small : micros < limit) :
    (utc micros small).localMicros = micros := by
  simp only [localMicros, utc, Date.toordinal_fromordinal, TimeOfDay.micros_ofMicros,
    Nat.add_sub_cancel]
  exact Nat.div_add_mod' micros dayMicros

@[simp] theorem instant_utc (micros : Nat) (small : micros < limit) :
    (utc micros small).instant = micros := by
  rw [instant, localMicros_utc]
  exact sub_zero _

theorem localMicros_lt_limit (moment : Datetime) : moment.localMicros < limit := by
  have day := moment.date.toordinal_le_max
  have positive := moment.date.toordinal_pos
  have time := moment.time.micros_lt
  calc
    moment.localMicros < (moment.date.toordinal - 1) * dayMicros + dayMicros :=
      Nat.add_lt_add_left time _
    _ = moment.date.toordinal * dayMicros := by
      rw [← Nat.succ_mul, Nat.succ_eq_add_one, Nat.sub_add_cancel positive]
    _ ≤ limit := Nat.mul_le_mul_right _ day

theorem localMicros_lt_iff {a b : Datetime} : a.localMicros < b.localMicros ↔
    a.date.Before b.date ∨ a.date = b.date ∧ a.time.Before b.time := by
  rw [← Date.toordinal_lt_iff, ← TimeOfDay.micros_lt_iff]
  have dates : a.date = b.date ↔ a.date.toordinal = b.date.toordinal :=
    ⟨fun same => by rw [same], Date.toordinal_injective⟩
  rw [dates]
  have first := a.date.toordinal_pos
  have first' := b.date.toordinal_pos
  have within := a.time.micros_lt
  have within' := b.time.micros_lt
  unfold localMicros dayMicros at *
  omega

theorem localMicros_injective {a b : Datetime} (same : a.localMicros = b.localMicros)
    (offsets : a.utcoffset = b.utcoffset) : a = b := by
  have first := a.date.toordinal_pos
  have first' := b.date.toordinal_pos
  have within := a.time.micros_lt
  have within' := b.time.micros_lt
  have dates : a.date.toordinal = b.date.toordinal := by
    unfold localMicros dayMicros at *
    omega
  have times : a.time.micros = b.time.micros := by
    rw [localMicros, localMicros, dates] at same
    exact Nat.add_left_cancel same
  obtain ⟨date, time, _⟩ := a
  obtain ⟨date', time', _⟩ := b
  cases Date.toordinal_injective dates
  cases TimeOfDay.micros_injective times
  cases offsets
  rfl

end Datetime

/- The text. -/

/-- The last `width` digits of a number. -/
def digits : Nat → Nat → List Char
  | 0, _ => []
  | width + 1, n => digits width (n / 10) ++ [Nat.digitChar (n % 10)]

/-- `isoformat(timespec="microseconds")` of a date and a time, without the offset. -/
def formatFields (date : Date) (time : TimeOfDay) : List Char :=
  digits 4 date.year ++ '-' :: (digits 2 date.month ++ '-' :: (digits 2 date.day ++
    'T' :: (digits 2 time.hour ++ ':' :: (digits 2 time.minute ++ ':' :: (digits 2 time.second ++
      '.' :: digits 6 time.microsecond)))))

/-- The offset, with its seconds and microseconds if it has any. -/
def formatOffset (offset : Offset) : List Char :=
  let micros := offset.1.natAbs
  let seconds := micros / 1000000
  let fraction := micros % 1000000
  (if offset.1 < 0 then '-' else '+') ::
    (digits 2 (seconds / 3600) ++ ':' :: (digits 2 (seconds / 60 % 60) ++
      if seconds % 60 = 0 ∧ fraction = 0 then []
      else ':' :: (digits 2 (seconds % 60) ++
        if fraction = 0 then [] else '.' :: digits 6 fraction)))

/-- `moment.isoformat(timespec="microseconds")`. -/
def isoformat (moment : Datetime) : String :=
  String.ofList (formatFields moment.date moment.time ++
    (moment.utcoffset.elim [] formatOffset))

@[simp] theorem digits_length (width n : Nat) : (digits width n).length = width := by
  induction width generalizing n with
  | zero => rfl
  | succ width ih => rw [digits, List.length_append, ih, List.length_singleton]

/- Texts compare at their first difference. -/

theorem append_lt_append {a b x y : List Char} (even : a.length = b.length) :
    a ++ x < b ++ y ↔ a < b ∨ a = b ∧ x < y := by
  induction a generalizing b with
  | nil =>
    cases List.length_eq_zero_iff.mp even.symm
    simp
  | cons c a ih =>
    cases b with
    | nil => cases even
    | cons d b =>
      have rest := ih (Nat.succ.inj even)
      simp only [List.cons_append, List.cons_lt_cons_iff, rest, List.cons.injEq]
      tauto

theorem digitChar_lt {m n : Nat} (small : m < 10) (small' : n < 10) :
    Nat.digitChar m < Nat.digitChar n ↔ m < n := by
  interval_cases m <;> interval_cases n <;> decide

theorem digitChar_inj {m n : Nat} (small : m < 10) (small' : n < 10) :
    Nat.digitChar m = Nat.digitChar n ↔ m = n := by
  interval_cases m <;> interval_cases n <;> decide

theorem digits_inj {width m n : Nat} (fits : m < 10 ^ width) (fits' : n < 10 ^ width) :
    digits width m = digits width n ↔ m = n := by
  refine ⟨fun same => ?_, fun same => by rw [same]⟩
  induction width generalizing m n with
  | zero =>
    rw [Nat.pow_zero] at fits fits'
    omega
  | succ width ih =>
    rw [Nat.pow_succ] at fits fits'
    obtain ⟨front, last⟩ := List.append_inj' same rfl
    have tens := ih (Nat.div_lt_of_lt_mul (by omega)) (Nat.div_lt_of_lt_mul (by omega)) front
    have ones := (digitChar_inj (Nat.mod_lt _ (by decide)) (Nat.mod_lt _ (by decide))).mp
      (List.singleton_inj.mp last)
    omega

theorem digits_lt {width m n : Nat} (fits : m < 10 ^ width) (fits' : n < 10 ^ width) :
    digits width m < digits width n ↔ m < n := by
  induction width generalizing m n with
  | zero =>
    rw [Nat.pow_zero] at fits fits'
    simp [digits]
    omega
  | succ width ih =>
    rw [Nat.pow_succ] at fits fits'
    have small : m / 10 < 10 ^ width := Nat.div_lt_of_lt_mul (by omega)
    have small' : n / 10 < 10 ^ width := Nat.div_lt_of_lt_mul (by omega)
    have last : [Nat.digitChar (m % 10)] < [Nat.digitChar (n % 10)] ↔ m % 10 < n % 10 := by
      rw [List.cons_lt_cons_iff, digitChar_lt (Nat.mod_lt _ (by decide)) (Nat.mod_lt _ (by decide))]
      simp
    rw [digits, digits, append_lt_append (by simp), ih small small', digits_inj small small', last]
    omega

/-- A field decides, and where it is the same what follows it does. -/
theorem field_lt {width m n : Nat} {x y : List Char} (fits : m < 10 ^ width)
    (fits' : n < 10 ^ width) :
    digits width m ++ x < digits width n ++ y ↔ m < n ∨ m = n ∧ x < y := by
  rw [append_lt_append (by simp), digits_lt fits fits', digits_inj fits fits']

theorem cons_lt_same {c : Char} {x y : List Char} : c :: x < c :: y ↔ x < y := by simp

theorem daysInMonth_le (leap : Bool) {month : Nat} (range : 1 ≤ month ∧ month ≤ 12) :
    daysInMonth leap month ≤ 31 := by
  obtain ⟨low, high⟩ := range
  cases leap <;> interval_cases month <;> decide

theorem Date.day_le (date : Date) : date.day ≤ 31 :=
  date.day_range.2.trans (daysInMonth_le _ date.month_range)

theorem formatFields_length (date : Date) (time : TimeOfDay) :
    (formatFields date time).length = 26 := by simp [formatFields]

theorem formatFields_lt {a b : Date} {s t : TimeOfDay} :
    formatFields a s < formatFields b t ↔ a.Before b ∨ a = b ∧ s.Before t := by
  have year := a.year_range
  have year' := b.year_range
  have month := a.month_range
  have month' := b.month_range
  have day := a.day_le
  have day' := b.day_le
  unfold formatFields
  rw [field_lt (by omega) (by omega), cons_lt_same, field_lt (by omega) (by omega), cons_lt_same,
    field_lt (by omega) (by omega), cons_lt_same]
  have hour := s.hour_lt
  have hour' := t.hour_lt
  have minute := s.minute_lt
  have minute' := t.minute_lt
  have second := s.second_lt
  have second' := t.second_lt
  rw [field_lt (by omega) (by omega), cons_lt_same, field_lt (by omega) (by omega), cons_lt_same,
    field_lt (by omega) (by omega), cons_lt_same, digits_lt s.microsecond_lt t.microsecond_lt]
  have dates : a = b ↔ a.year = b.year ∧ a.month = b.month ∧ a.day = b.day := by
    obtain ⟨y, m, d, _, _, _⟩ := a
    obtain ⟨y', m', d', _, _, _⟩ := b
    exact Date.mk.injEq _ _ _ _ _ _ _ _ _ _ _ _ ▸ Iff.rfl
  rw [dates, Date.Before, TimeOfDay.Before]
  simp only [and_or_left, and_assoc, or_assoc]

/-- Of two datetimes with one offset, the earlier has the smaller text. -/
theorem isoformat_lt {a b : Datetime} (offsets : a.utcoffset = b.utcoffset) :
    isoformat a < isoformat b ↔ a.localMicros < b.localMicros := by
  rw [Datetime.localMicros_lt_iff, ← formatFields_lt]
  unfold isoformat
  rw [String.lt_iff, String.toList_ofList, String.toList_ofList, offsets,
    append_lt_append (by rw [formatFields_length, formatFields_length])]
  constructor
  · rintro (less | ⟨_, same⟩)
    · exact less
    · exact absurd same (List.lt_irrefl _)
  · exact .inl

/- Reading it back. -/

abbrev Reading := StateT (List Char) Option

namespace Reading

def digit : Reading Nat
  | c :: rest => if '0' ≤ c ∧ c ≤ '9' then some (c.toNat - 48, rest) else none
  | [] => none

/-- A number of so many digits. -/
def number : Nat → Reading Nat
  | 0 => return 0
  | width + 1 => do
    let front ← number width
    let last ← digit
    return front * 10 + last

def anyChar : Reading Char
  | c :: rest => some (c, rest)
  | [] => none

def char (c : Char) : Reading Unit
  | d :: rest => if d = c then some ((), rest) else none
  | [] => none

/-- A part that is there if the character before it is. -/
def after {α : Type} (c : Char) (part : Reading α) (absent : α) : Reading α
  | d :: rest => if d = c then part rest else some (absent, d :: rest)
  | [] => some (absent, [])

def date : Reading (Nat × Nat × Nat) := do
  let year ← number 4
  char '-'
  let month ← number 2
  char '-'
  let day ← number 2
  return (year, month, day)

def time : Reading (Nat × Nat × Nat × Nat) := do
  let hour ← number 2
  char ':'
  let minute ← number 2
  char ':'
  let second ← number 2
  let microsecond ← after '.' (number 6) 0
  return (hour, minute, second, microsecond)

/-- The microseconds of the offset, after its sign. -/
def offsetMicros : Reading Nat := do
  let hours ← number 2
  char ':'
  let minutes ← number 2
  let (seconds, fraction) ← after ':' (do
    let seconds ← number 2
    let fraction ← after '.' (number 6) 0
    return (seconds, fraction)) (0, 0)
  return ((hours * 60 + minutes) * 60 + seconds) * 1000000 + fraction

def offset : Reading (Option Int)
  | [] => some (none, [])
  | '+' :: rest => (offsetMicros rest).map fun (micros, rest) => (some (micros : Int), rest)
  | '-' :: rest => (offsetMicros rest).map fun (micros, rest) => (some (-(micros : Int)), rest)
  | _ :: _ => none

end Reading

def Date.of? (year month day : Nat) : Option Date :=
  if fine : (1 ≤ year ∧ year ≤ 9999) ∧ (1 ≤ month ∧ month ≤ 12) ∧
      (1 ≤ day ∧ day ≤ daysInMonth (isLeap year) month) then
    some ⟨year, month, day, fine.1, fine.2.1, fine.2.2⟩
  else none

def TimeOfDay.of? (hour minute second microsecond : Nat) : Option TimeOfDay :=
  if fine : hour < 24 ∧ minute < 60 ∧ second < 60 ∧ microsecond < 1000000 then
    some ⟨hour, minute, second, microsecond, fine.1, fine.2.1, fine.2.2.1, fine.2.2.2⟩
  else none

def Offset.of? : Option Int → Option (Option Offset)
  | none => some none
  | some micros => if fine : micros.natAbs < dayMicros then some (some ⟨micros, fine⟩) else none

/-- `datetime.fromisoformat`, of the formats that `isoformat` writes; it reads others of the
standard too. -/
def fromisoformat (text : String) : Option Datetime := do
  let ((year, month, day), rest) ← Reading.date.run text.toList
  let (_, rest) ← Reading.anyChar.run rest
  let ((hour, minute, second, microsecond), rest) ← Reading.time.run rest
  let (micros, rest) ← Reading.offset.run rest
  guard (rest = [])
  let date ← Date.of? year month day
  let time ← TimeOfDay.of? hour minute second microsecond
  let utcoffset ← Offset.of? micros
  return { date, time, utcoffset }

namespace Reading

theorem digit_digitChar {n : Nat} (small : n < 10) (rest : List Char) :
    digit (Nat.digitChar n :: rest) = some (n, rest) := by
  interval_cases n <;> rfl

theorem number_digits {width n : Nat} (fits : n < 10 ^ width) (rest : List Char) :
    (number width).run (digits width n ++ rest) = some (n, rest) := by
  induction width generalizing n rest with
  | zero =>
    rw [Nat.pow_zero] at fits
    cases Nat.lt_one_iff.mp fits
    rfl
  | succ width ih =>
    rw [Nat.pow_succ] at fits
    have front := ih (n := n / 10) (Nat.div_lt_of_lt_mul (by omega))
      (Nat.digitChar (n % 10) :: rest)
    have last : digit.run (Nat.digitChar (n % 10) :: rest) = some (n % 10, rest) :=
      digit_digitChar (Nat.mod_lt _ (by decide)) rest
    have sum : n / 10 * 10 + n % 10 = n := Nat.div_add_mod' n 10
    simp [number, digits, front, last, sum]

theorem number_digits_end {width n : Nat} (fits : n < 10 ^ width) :
    (number width).run (digits width n) = some (n, []) := by
  have read := number_digits fits []
  rwa [List.append_nil] at read

@[simp] theorem char_cons (c : Char) (rest : List Char) : (char c).run (c :: rest) = some ((), rest) :=
  if_pos rfl

@[simp] theorem after_cons {α : Type} (c : Char) (part : Reading α) (absent : α)
    (rest : List Char) : (after c part absent).run (c :: rest) = part.run rest := if_pos rfl

@[simp] theorem after_nil {α : Type} (c : Char) (part : Reading α) (absent : α) :
    (after c part absent).run [] = some (absent, []) := rfl

theorem offsetMicros_format (offset : Offset) : ∃ sign rest, formatOffset offset = sign :: rest ∧
    sign = (if offset.1 < 0 then '-' else '+') ∧ offsetMicros.run rest = some (offset.1.natAbs, []) := by
  refine ⟨_, _, rfl, rfl, ?_⟩
  have within := offset.2
  generalize offset.1.natAbs = n at *
  unfold dayMicros at within
  have hours : n / 1000000 / 3600 < 10 ^ 2 := by omega
  have minutes : n / 1000000 / 60 % 60 < 10 ^ 2 := by omega
  have seconds : n / 1000000 % 60 < 10 ^ 2 := by omega
  have fraction : n % 1000000 < 10 ^ 6 := Nat.mod_lt _ (by decide)
  simp only [offsetMicros, StateT.run_bind, number_digits hours, number_digits minutes, char_cons,
    Option.bind_eq_bind, Option.bind_some]
  split
  · rename_i whole
    have sum : ((n / 1000000 / 3600 * 60 + n / 1000000 / 60 % 60) * 60 + 0) * 1000000 + 0 = n := by
      omega
    simpa [number_digits minutes] using sum
  · split
    · simp [number_digits_end seconds]
      omega
    · simp [number_digits seconds, number_digits_end fraction]
      omega

theorem offset_format (utcoffset : Option Offset) :
    offset.run (utcoffset.elim [] formatOffset) = some (utcoffset.map (·.1), []) := by
  cases utcoffset with
  | none => rfl
  | some known =>
    obtain ⟨sign, rest, whole, rfl, read⟩ := offsetMicros_format known
    rw [Option.elim_some, whole]
    replace read : offsetMicros rest = some (known.1.natAbs, []) := read
    by_cases negative : known.1 < 0
    · have value : -(known.1.natAbs : Int) = known.1 := by omega
      simp only [if_pos negative, offset, StateT.run, read, Option.map_some, value]
    · have value : (known.1.natAbs : Int) = known.1 := by omega
      simp only [if_neg negative, offset, StateT.run, read, Option.map_some, value]

theorem date_format (known : Date) (rest : List Char) :
    date.run (digits 4 known.year ++ '-' :: (digits 2 known.month ++ '-' ::
      (digits 2 known.day ++ rest))) = some ((known.year, known.month, known.day), rest) := by
  have year : known.year < 10 ^ 4 := Nat.lt_succ_of_le known.year_range.2
  have month : known.month < 10 ^ 2 := known.month_range.2.trans_lt (by decide)
  have day : known.day < 10 ^ 2 := known.day_le.trans_lt (by decide)
  simp [date, number_digits year, number_digits month, number_digits day]

theorem time_format (known : TimeOfDay) (rest : List Char) :
    time.run (digits 2 known.hour ++ ':' :: (digits 2 known.minute ++ ':' ::
      (digits 2 known.second ++ '.' :: (digits 6 known.microsecond ++ rest)))) =
      some ((known.hour, known.minute, known.second, known.microsecond), rest) := by
  have hour : known.hour < 10 ^ 2 := known.hour_lt.trans (by decide)
  have minute : known.minute < 10 ^ 2 := known.minute_lt.trans (by decide)
  have second : known.second < 10 ^ 2 := known.second_lt.trans (by decide)
  have microsecond : known.microsecond < 10 ^ 6 := known.microsecond_lt
  simp [time, number_digits hour, number_digits minute, number_digits second,
    number_digits microsecond]

end Reading

theorem Date.of?_self (date : Date) : Date.of? date.year date.month date.day = some date :=
  dif_pos ⟨date.year_range, date.month_range, date.day_range⟩

theorem TimeOfDay.of?_self (time : TimeOfDay) :
    TimeOfDay.of? time.hour time.minute time.second time.microsecond = some time :=
  dif_pos ⟨time.hour_lt, time.minute_lt, time.second_lt, time.microsecond_lt⟩

theorem Offset.of?_self (utcoffset : Option Offset) :
    Offset.of? (utcoffset.map (·.1)) = some utcoffset := by
  cases utcoffset with
  | none => rfl
  | some known => exact dif_pos known.2

theorem fromisoformat_isoformat (moment : Datetime) :
    fromisoformat (isoformat moment) = some moment := by
  obtain ⟨date, time, utcoffset⟩ := moment
  simp only [fromisoformat, isoformat, formatFields, String.toList_ofList, List.append_assoc,
    List.cons_append, Reading.date_format, Option.bind_eq_bind, Option.bind_some]
  simp only [StateT.run, Reading.anyChar, Option.bind_some]
  have read := Reading.time_format time (utcoffset.elim [] formatOffset)
  have rest := Reading.offset_format utcoffset
  rw [StateT.run] at read rest
  simp only [read, rest, Option.bind_some, guard, Date.of?_self, TimeOfDay.of?_self,
    Offset.of?_self, if_true]
  rfl

end Python
