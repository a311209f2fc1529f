import Mathlib.Data.Nat.Digits.Lemmas

/-! The HomeKit setup URI: a bit field with the category, the flags and the setup code,
written in base 36, and the setup id after it. -/
namespace NotiMapper.HomeKit

def base36Digits : List Char := "0123456789ABCDEFGHIJKLMNOPQRSTUVWXYZ".toList

def encodedPayloadLength : Nat := 9

/-- "Pair over IP". -/
def setupFlagIp : Nat := 2

def base36Digit (remainder : Nat) : Char := base36Digits.getD remainder '0'

/-- The loop of `base36_encode`, least significant digit first. -/
def base36Loop (value : Nat) : List Char :=
  if value = 0 then [] else base36Digit (value % 36) :: base36Loop (value / 36)
termination_by value
decreasing_by omega

def base36Encode (value : Nat) : String :=
  if value = 0 then String.ofList [base36Digit 0] else String.ofList (base36Loop value).reverse

def withoutDashes (setupCode : String) : List Char := setupCode.toList.filter (· ≠ '-')

def decimalValue (c : Char) : Nat := c.toNat - '0'.toNat

/-- `int(digits, 10)`, of the ten ASCII digits. -/
def codeNumber (digits : List Char) : Option Nat :=
  if digits ≠ [] ∧ digits.all Char.isDigit then
    some (Nat.ofDigits 10 (digits.reverse.map decimalValue))
  else none

/-- Version, reserved bits, category, flags, and the code. -/
def setupPayload (category number : Nat) : Nat :=
  let payload := 0 ||| 0 &&& 0x7
  let payload := payload <<< 4 ||| 0 &&& 0xF
  let payload := payload <<< 8 ||| category &&& 0xFF
  let payload := payload <<< 4 ||| setupFlagIp &&& 0xF
  payload <<< 27 ||| number &&& 0x7FFFFFFF

def rjust (width : Nat) (fill : Char) (text : String) : String :=
  String.ofList (List.replicate (width - text.length) fill ++ text.toList)

/-- What is written for a category, a code number and a setup id. -/
def uriOf (category number : Nat) (setupId : String) : String :=
  "X-HM://" ++ rjust encodedPayloadLength '0' (base36Encode (setupPayload category number)) ++
    setupId

/-- `ValueError` if the code is not a number. -/
def setupUri (setupCode setupId : String) (category : Nat) : Option String :=
  (codeNumber (withoutDashes setupCode)).map fun number => uriOf category number setupId

/- Reading it back. -/

def base36Value (c : Char) : Nat := base36Digits.idxOf c

def base36Decode (text : List Char) : Nat := Nat.ofDigits 36 (text.reverse.map base36Value)

structure SetupFields where
  category : Nat
  flags : Nat
  number : Nat
  setupId : String
  deriving DecidableEq

def readSetupUri (uri : String) : SetupFields :=
  let rest := uri.toList.drop "X-HM://".length
  let payload := base36Decode (rest.take encodedPayloadLength)
  ⟨payload / 2 ^ 31, payload / 2 ^ 27 % 16, payload % 2 ^ 27,
    String.ofList (rest.drop encodedPayloadLength)⟩

/- Base 36. -/

theorem base36Value_digit : ∀ remainder < 36, base36Value (base36Digit remainder) = remainder := by
  decide

theorem base36Loop_eq_digits (value : Nat) :
    base36Loop value = (Nat.digits 36 value).map base36Digit := by
  induction value using Nat.strong_induction_on with
  | _ value ih =>
    rw [base36Loop]
    by_cases zero : value = 0
    · rw [if_pos zero, zero, Nat.digits_zero, List.map_nil]
    · have smaller : value / 36 < value := by omega
      rw [if_neg zero, ih (value / 36) smaller,
        Nat.digits_def' (by decide) (Nat.pos_of_ne_zero zero), List.map_cons]

theorem values_of_digits {digits : List Nat} (small : ∀ d ∈ digits, d < 36) :
    (digits.map base36Digit).map base36Value = digits := by
  rw [List.map_map]
  conv_rhs => rw [← List.map_id digits]
  exact List.map_congr_left fun d member => base36Value_digit d (small d member)

theorem base36Encode_toList (value : Nat) : (base36Encode value).toList =
    if value = 0 then ['0'] else ((Nat.digits 36 value).map base36Digit).reverse := by
  unfold base36Encode
  split
  · exact String.toList_ofList
  · rw [String.toList_ofList, base36Loop_eq_digits]

theorem base36Decode_encode (value : Nat) :
    base36Decode (base36Encode value).toList = value := by
  rw [base36Encode_toList]
  split
  · rename_i zero
    rw [zero]
    decide
  · have small : ∀ d ∈ Nat.digits 36 value, d < 36 := fun d member =>
      Nat.digits_lt_base (by decide) member
    rw [base36Decode, List.reverse_reverse, values_of_digits small, Nat.ofDigits_digits]

/-- The first digit is not a zero, unless it is the only one. -/
theorem base36Encode_head {value : Nat}
    (zero : (base36Encode value).toList.head? = some '0') : value = 0 := by
  by_contra nonzero
  have some_digit : Nat.digits 36 value ≠ [] := Nat.digits_ne_nil_iff_ne_zero.mpr nonzero
  rw [base36Encode_toList, if_neg nonzero, List.head?_reverse, List.getLast?_map,
    List.getLast?_eq_some_getLast some_digit, Option.map_some, Option.some.injEq] at zero
  have leading := Nat.getLast_digit_ne_zero 36 nonzero
  have small : (Nat.digits 36 value).getLast some_digit < 36 :=
    Nat.digits_lt_base (by decide) (List.getLast_mem some_digit)
  have value_zero := base36Value_digit _ small
  rw [zero] at value_zero
  exact leading value_zero.symm

theorem base36Encode_length {value : Nat} (fits : value < 36 ^ 9) :
    (base36Encode value).length ≤ encodedPayloadLength := by
  rw [← String.length_toList, base36Encode_toList]
  split
  · decide
  · rw [List.length_reverse, List.length_map]
    exact (Nat.digits_length_le_iff (by decide) value).mpr fits

theorem rjust_length {width : Nat} {fill : Char} {text : String} (short : text.length ≤ width) :
    (rjust width fill text).length = width := by
  rw [rjust, ← String.length_toList, String.toList_ofList, List.length_append,
    List.length_replicate, String.length_toList]
  omega

/-- Zeros in front change nothing. -/
theorem base36Decode_rjust (width : Nat) (text : String) :
    base36Decode (rjust width '0' text).toList = base36Decode text.toList := by
  have zero : base36Value '0' = 0 := by decide
  rw [rjust, String.toList_ofList, base36Decode, List.reverse_append, List.reverse_replicate,
    List.map_append, List.map_replicate, zero, Nat.ofDigits_append_replicate_zero, base36Decode]

/- The fields. -/

theorem setupPayload_eq {category number : Nat} (byte : category < 256) (code : number < 2 ^ 27) :
    setupPayload category number = (category * 16 + setupFlagIp) * 2 ^ 27 + number := by
  have category_kept : category &&& 0xFF = category := by
    have masked := Nat.and_two_pow_sub_one_eq_mod category 8
    rw [Nat.mod_eq_of_lt (by omega)] at masked
    exact masked
  have number_kept : number &&& 0x7FFFFFFF = number := by
    have masked := Nat.and_two_pow_sub_one_eq_mod number 31
    rw [Nat.mod_eq_of_lt (by omega)] at masked
    exact masked
  have flags : category <<< 4 ||| setupFlagIp = category * 16 + setupFlagIp := by
    rw [← Nat.shiftLeft_add_eq_or_of_lt (by decide), Nat.shiftLeft_eq]
  have whole : setupPayload category number =
      (category <<< 4 ||| setupFlagIp) <<< 27 ||| number := by
    simp only [setupPayload, category_kept, number_kept]
    simp [setupFlagIp]
  rw [whole, flags, ← Nat.shiftLeft_add_eq_or_of_lt code, Nat.shiftLeft_eq]

/-- Eight digits, once the dashes are out. -/
structure EightDigits (setupCode : String) : Prop where
  length : (withoutDashes setupCode).length = 8
  digits : ∀ c ∈ withoutDashes setupCode, c.isDigit = true

theorem isDigit_bounds {c : Char} (digit : c.isDigit = true) : 48 ≤ c.toNat ∧ c.toNat ≤ 57 := by
  rw [Char.isDigit, Bool.and_eq_true, decide_eq_true_eq, decide_eq_true_eq] at digit
  exact digit

theorem decimalValue_lt {c : Char} (digit : c.isDigit = true) : decimalValue c < 10 := by
  have bounds := isDigit_bounds digit
  have zero : '0'.toNat = 48 := rfl
  rw [decimalValue, zero]
  omega

theorem ofNat_decimalValue {c : Char} (digit : c.isDigit = true) :
    Char.ofNat (48 + decimalValue c) = c := by
  have bounds := isDigit_bounds digit
  have zero : '0'.toNat = 48 := rfl
  have code : 48 + decimalValue c = c.toNat := by
    rw [decimalValue, zero]
    omega
  rw [code, Char.ofNat_toNat]

namespace EightDigits

variable {setupCode : String}

theorem nonempty (eight : EightDigits setupCode) : withoutDashes setupCode ≠ [] := by
  intro empty
  have length := eight.length
  rw [empty] at length
  cases length

theorem values_lt (eight : EightDigits setupCode) :
    ∀ d ∈ (withoutDashes setupCode).reverse.map decimalValue, d < 10 := by
  intro d member
  obtain ⟨c, there, rfl⟩ := List.mem_map.mp member
  exact decimalValue_lt (eight.digits c (List.mem_reverse.mp there))

theorem values_length (eight : EightDigits setupCode) :
    ((withoutDashes setupCode).reverse.map decimalValue).length = 8 := by
  rw [List.length_map, List.length_reverse, eight.length]

theorem digits_of_values (eight : EightDigits setupCode) :
    ((withoutDashes setupCode).reverse.map decimalValue).map (fun d => Char.ofNat (48 + d)) =
      (withoutDashes setupCode).reverse := by
  rw [List.map_map]
  conv_rhs => rw [← List.map_id (withoutDashes setupCode).reverse]
  exact List.map_congr_left fun c there =>
    ofNat_decimalValue (eight.digits c (List.mem_reverse.mp there))

theorem codeNumber_eq (eight : EightDigits setupCode) : codeNumber (withoutDashes setupCode) =
    some (Nat.ofDigits 10 ((withoutDashes setupCode).reverse.map decimalValue)) :=
  if_pos ⟨eight.nonempty, List.all_eq_true.mpr eight.digits⟩

/-- Below the 27 bits of its field, though the mask has 31. -/
theorem number_lt (eight : EightDigits setupCode) :
    Nat.ofDigits 10 ((withoutDashes setupCode).reverse.map decimalValue) < 2 ^ 27 := by
  have bound := Nat.ofDigits_lt_base_pow_length (by decide) eight.values_lt
  rw [eight.values_length] at bound
  omega

/-- The number has all eight digits, zeros in front included. -/
theorem codeNumber_injective {other : String} (eight : EightDigits setupCode)
    (also : EightDigits other)
    (same : codeNumber (withoutDashes setupCode) = codeNumber (withoutDashes other)) :
    withoutDashes setupCode = withoutDashes other := by
  rw [eight.codeNumber_eq, also.codeNumber_eq, Option.some.injEq] at same
  have values := Nat.ofDigits_inj_of_len_eq (by decide)
    (eight.values_length.trans also.values_length.symm) eight.values_lt also.values_lt same
  apply List.reverse_injective
  rw [← eight.digits_of_values, ← also.digits_of_values, values]

end EightDigits

theorem payload_length {category number : Nat} (byte : category < 256) (code : number < 2 ^ 27) :
    (rjust encodedPayloadLength '0' (base36Encode (setupPayload category number))).length = 9 := by
  refine rjust_length (base36Encode_length ?_)
  rw [setupPayload_eq byte code, setupFlagIp]
  omega

theorem readSetupUri_uriOf {category number : Nat} (setupId : String) (byte : category < 256)
    (code : number < 2 ^ 27) :
    readSetupUri (uriOf category number setupId) = ⟨category, setupFlagIp, number, setupId⟩ := by
  have length := payload_length byte code
  have decoded : base36Decode (rjust encodedPayloadLength '0'
      (base36Encode (setupPayload category number))).toList =
        (category * 16 + setupFlagIp) * 2 ^ 27 + number := by
    rw [base36Decode_rjust, base36Decode_encode, setupPayload_eq byte code]
  unfold readSetupUri uriOf
  generalize rjust encodedPayloadLength '0' (base36Encode (setupPayload category number)) = encoded
    at *
  rw [← String.length_toList] at length
  have rest : ("X-HM://" ++ encoded ++ setupId).toList.drop "X-HM://".length =
      encoded.toList ++ setupId.toList := by
    rw [String.append_assoc, String.toList_append, ← String.length_toList, List.drop_left,
      String.toList_append]
  have first : (encoded.toList ++ setupId.toList).take encodedPayloadLength = encoded.toList :=
    List.take_left' length
  have last : (encoded.toList ++ setupId.toList).drop encodedPayloadLength = setupId.toList :=
    List.drop_left' length
  simp only [rest, first, last, decoded, String.ofList_toList, SetupFields.mk.injEq, and_true,
    setupFlagIp]
  omega

/-- Base 36 is read back, and so is each field of a setup URI. -/
theorem setup_uri_loses_nothing :
    (∀ value, base36Decode (base36Encode value).toList = value ∧
      ((base36Encode value).toList.head? = some '0' → value = 0)) ∧
    ∀ setupCode setupId category, EightDigits setupCode → setupId.length = 4 → category < 256 →
      ∃ uri encoded number, setupUri setupCode setupId category = some uri ∧
        uri = "X-HM://" ++ encoded ++ setupId ∧ encoded.length = 9 ∧
        codeNumber (withoutDashes setupCode) = some number ∧
        readSetupUri uri = ⟨category, setupFlagIp, number, setupId⟩ ∧
        ∀ otherCode otherId otherCategory, EightDigits otherCode → otherId.length = 4 →
          otherCategory < 256 → setupUri otherCode otherId otherCategory = some uri →
            otherCategory = category ∧ withoutDashes otherCode = withoutDashes setupCode ∧
              otherId = setupId := by
  refine ⟨fun value => ⟨base36Decode_encode value, base36Encode_head⟩, ?_⟩
  intro setupCode setupId category eight _ byte
  have written {code id : String} {kind : Nat} (eight : EightDigits code) :
      setupUri code id kind = some (uriOf kind
        (Nat.ofDigits 10 ((withoutDashes code).reverse.map decimalValue)) id) := by
    rw [setupUri, eight.codeNumber_eq]
    rfl
  refine ⟨_, _, _, written eight, rfl, payload_length byte eight.number_lt, eight.codeNumber_eq,
    readSetupUri_uriOf setupId byte eight.number_lt, ?_⟩
  intro otherCode otherId otherCategory also _ small same
  rw [written also, Option.some.injEq] at same
  have fields := congrArg readSetupUri same
  rw [readSetupUri_uriOf otherId small also.number_lt,
    readSetupUri_uriOf setupId byte eight.number_lt] at fields
  obtain ⟨categories, _, numbers, ids⟩ := SetupFields.mk.inj fields
  refine ⟨categories, also.codeNumber_injective eight ?_, ids⟩
  rw [also.codeNumber_eq, eight.codeNumber_eq, numbers]

example : setupUri "518-08-582" "7OSX" 8 = some "X-HM://0081F45S67OSX" := by decide +kernel

end NotiMapper.HomeKit
