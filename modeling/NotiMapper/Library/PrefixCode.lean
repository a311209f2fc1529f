import Mathlib.Data.List.Basic
import Mathlib.Tactic.Linarith

/-! Codes that are read from the front: where a code word ends, and what it stands for, is
settled before what follows it. -/
namespace PrefixCode

variable {α β γ : Type}

structure Delimited (code : α → List β) : Prop where
  read : ∀ {a b : α} {x y : List β}, code a ++ x = code b ++ y → a = b ∧ x = y

theorem Delimited.injective {code : α → List β} (delimited : Delimited code) {a b : α}
    (same : code a = code b) : a = b := by
  have unmarked : code a ++ [] = code b ++ [] := by rw [same]
  exact (delimited.read unmarked).1

/-- Code words one after the other are delimited by a mark that none of them starts with. -/
theorem Delimited.closed {code : α → List β} (delimited : Delimited code) {stop : β}
    (apart : ∀ a x y, code a ++ x ≠ stop :: y) :
    Delimited fun all : List α => all.flatMap code ++ [stop] := by
  refine ⟨fun {all} => ?_⟩
  induction all with
  | nil =>
    intro other x y same
    cases other with
    | nil => exact ⟨rfl, (List.cons.inj same).2⟩
    | cons b other =>
      simp only [List.flatMap_nil, List.nil_append, List.flatMap_cons, List.append_assoc,
        List.singleton_append] at same
      exact absurd same.symm (apart b _ _)
  | cons a all ih =>
    intro other x y same
    cases other with
    | nil =>
      simp only [List.flatMap_nil, List.nil_append, List.flatMap_cons, List.append_assoc,
        List.singleton_append] at same
      exact absurd same (apart a _ _)
    | cons b other =>
      simp only [List.flatMap_cons, List.append_assoc] at same
      obtain ⟨rfl, rest⟩ := delimited.read same
      simp only [← List.append_assoc] at rest
      obtain ⟨rfl, last⟩ := ih rest
      exact ⟨rfl, last⟩

/- Numbers in a fixed number of hexadecimal digits. -/

def hexDigit (c : Char) : Nat := if c.toNat < 58 then c.toNat - 48 else c.toNat - 87

def hexValue (digits : List Char) : Nat :=
  digits.foldl (fun value c => 16 * value + hexDigit c) 0

theorem hexDigit_digitChar : ∀ d < 16, hexDigit (Nat.digitChar d) = d := by decide

theorem hexValue_toDigits (n : Nat) : hexValue (Nat.toDigits 16 n) = n := by
  induction n using Nat.strong_induction_on with
  | _ n ih =>
    rw [Nat.toDigits_eq_if (by decide)]
    split
    · rename_i small
      simp [hexValue, hexDigit_digitChar n small]
    · rename_i large
      have last : n % 16 < 16 := Nat.mod_lt n (by decide)
      have before : hexValue (Nat.toDigits 16 (n / 16)) = n / 16 := ih (n / 16) (by omega)
      rw [hexValue] at before ⊢
      rw [List.foldl_append, before, List.foldl_cons, List.foldl_nil, hexDigit_digitChar _ last]
      omega

theorem hexValue_zeros (k : Nat) (digits : List Char) :
    hexValue (List.replicate k '0' ++ digits) = hexValue digits := by
  have zeros : (List.replicate k '0').foldl (fun value c => 16 * value + hexDigit c) 0 = 0 := by
    induction k with
    | zero => rfl
    | succ k ih => exact ih
  rw [hexValue, List.foldl_append, zeros, hexValue]

end PrefixCode
