import NotiMapper.Config.Names
import NotiMapper.Library.PrefixCode

/-! A name as the reports show it can be read back from them: `repr` is delimited by its
quotes, since what is escaped starts with a backslash. -/
namespace NotiMapper

open PrefixCode

/-- How many digits stand after the letter of an escape. -/
def escapeWidth (letter : Char) : Nat :=
  if letter = 'x' then 2 else if letter = 'u' then 4 else if letter = 'U' then 8 else 0

/-- What an escape stands for. -/
def unescape (letter : Char) (digits : List Char) : Char :=
  if letter = 't' then '\t'
  else if letter = 'n' then '\n'
  else if letter = 'r' then '\r'
  else if escapeWidth letter = 0 then letter
  else Char.ofNat (hexValue digits)

theorem unescape_digits {letter : Char} {digits : List Char} (wide : 0 < escapeWidth letter) :
    unescape letter digits = Char.ofNat (hexValue digits) := by
  have letters (other : Char) (none : escapeWidth other = 0) : letter ≠ other := by
    rintro rfl
    omega
  rw [unescape, if_neg (letters 't' rfl), if_neg (letters 'n' rfl), if_neg (letters 'r' rfl),
    if_neg (Nat.ne_of_gt wide)]

theorem unescape_padded {letter c : Char} {width : Nat} (wide : escapeWidth letter = width)
    (positive : 0 < width) (fits : c.toNat < 16 ^ width) :
    (padded width (Nat.toDigits 16 c.toNat)).toList.length = escapeWidth letter ∧
      unescape letter (padded width (Nat.toDigits 16 c.toNat)).toList = c := by
  have short : (Nat.toDigits 16 c.toNat).length ≤ width :=
    (Nat.length_toDigits_le_iff (by decide) positive).mpr fits
  constructor
  · rw [padded, String.toList_ofList, List.length_append, List.length_replicate, wide]
    omega
  · rw [unescape_digits (wide ▸ positive), padded, String.toList_ofList, hexValue_zeros,
      hexValue_toDigits, Char.ofNat_toNat]

theorem backslash_toList (letter : Char) (digits : String) :
    (String.ofList ['\\', letter] ++ digits).toList = '\\' :: letter :: digits.toList := by
  rw [String.toList_append, String.toList_ofList, List.cons_append, List.cons_append,
    List.nil_append]

namespace Unicode

variable (u : Unicode) {quote : Char}

/-- A character stands for itself, or an escape of a known width stands for it. -/
theorem reprChar_cases (quoting : quote = '\'' ∨ quote = '"') (c : Char) :
    (u.reprChar quote c).toList = [c] ∧ c ≠ quote ∧ c ≠ '\\' ∨
      ∃ letter digits, (u.reprChar quote c).toList = '\\' :: letter :: digits ∧
        digits.length = escapeWidth letter ∧ unescape letter digits = c := by
  unfold reprChar
  dsimp only
  by_cases special : c = quote ∨ c = '\\'
  · rw [if_pos special]
    refine .inr ⟨c, [], String.toList_ofList, ?_⟩
    rcases special with rfl | rfl
    · rcases quoting with rfl | rfl <;> exact ⟨rfl, rfl⟩
    · exact ⟨rfl, rfl⟩
  rw [if_neg special]
  by_cases tab : c = '\t'
  · rw [if_pos tab]
    exact .inr ⟨'t', [], rfl, rfl, tab.symm⟩
  rw [if_neg tab]
  by_cases newline : c = '\n'
  · rw [if_pos newline]
    exact .inr ⟨'n', [], rfl, rfl, newline.symm⟩
  rw [if_neg newline]
  by_cases carriage : c = '\r'
  · rw [if_pos carriage]
    exact .inr ⟨'r', [], rfl, rfl, carriage.symm⟩
  rw [if_neg carriage]
  by_cases ascii : 32 ≤ c.toNat ∧ c.toNat < 127
  · rw [if_pos ascii]
    exact .inl ⟨String.toList_ofList, not_or.mp special⟩
  rw [if_neg ascii]
  by_cases printable : 127 < c.toNat ∧ u.isPrintable c
  · rw [if_pos printable]
    exact .inl ⟨String.toList_ofList, not_or.mp special⟩
  rw [if_neg printable]
  by_cases byte : c.toNat ≤ 0xff
  · rw [if_pos byte]
    have fits : c.toNat < 16 ^ 2 := Nat.lt_succ_of_le byte
    exact .inr ⟨'x', _, backslash_toList 'x' _, unescape_padded rfl (by decide) fits⟩
  rw [if_neg byte]
  by_cases short : c.toNat ≤ 0xffff
  · rw [if_pos short]
    have fits : c.toNat < 16 ^ 4 := Nat.lt_succ_of_le short
    exact .inr ⟨'u', _, backslash_toList 'u' _, unescape_padded rfl (by decide) fits⟩
  rw [if_neg short]
  have fits : c.toNat < 16 ^ 8 := c.val.toNat_lt
  exact .inr ⟨'U', _, backslash_toList 'U' _, unescape_padded rfl (by decide) fits⟩

theorem reprChar_delimited (quoting : quote = '\'' ∨ quote = '"') :
    Delimited fun c => (u.reprChar quote c).toList := by
  refine ⟨fun {a b x y} same => ?_⟩
  rcases u.reprChar_cases quoting a with ⟨first, _, solid⟩ | ⟨letter, digits, first, width, read⟩
  all_goals
    rcases u.reprChar_cases quoting b with ⟨second, _, apart⟩ | ⟨other, more, second, length, also⟩
    all_goals simp only [first, second, List.cons_append, List.nil_append] at same
  · exact List.cons.inj same
  · exact absurd (List.cons.inj same).1 solid
  · exact absurd (List.cons.inj same).1.symm apart
  · obtain ⟨rfl, rest⟩ := List.cons.inj (List.cons.inj same).2
    obtain ⟨rfl, last⟩ := List.append_inj rest (width.trans length.symm)
    exact ⟨read.symm.trans also, last⟩

theorem reprChar_quote (quoting : quote = '\'' ∨ quote = '"') (c : Char) (x y : List Char) :
    (u.reprChar quote c).toList ++ x ≠ quote :: y := by
  intro same
  rcases u.reprChar_cases quoting c with ⟨text, other, _⟩ | ⟨letter, digits, text, _⟩
  · rw [text] at same
    exact other (List.cons.inj same).1
  · rw [text] at same
    have slash : '\\' = quote := (List.cons.inj same).1
    rcases quoting with rfl | rfl <;> exact absurd slash (by decide)

/-- The quotes are the ones the text starts with. -/
theorem repr_toList (text : String) : ∃ quote, (quote = '\'' ∨ quote = '"') ∧
    (u.repr text).toList =
      quote :: (text.toList.flatMap (fun c => (u.reprChar quote c).toList) ++ [quote]) := by
  refine ⟨if '\'' ∈ text.toList ∧ '"' ∉ text.toList then '"' else '\'', ?_, ?_⟩
  · split
    · exact .inr rfl
    · exact .inl rfl
  · simp only [repr, String.toList_append, String.toList_ofList, String.toList_join,
      List.flatMap_map, List.cons_append, List.nil_append]

theorem repr_delimited : Delimited fun text => (u.repr text).toList := by
  refine ⟨fun {a b x y} same => ?_⟩
  obtain ⟨quote, quoting, first⟩ := u.repr_toList a
  obtain ⟨other, _, second⟩ := u.repr_toList b
  simp only [first, second, List.cons_append] at same
  obtain ⟨rfl, rest⟩ := List.cons.inj same
  obtain ⟨chars, last⟩ := ((u.reprChar_delimited quoting).closed (u.reprChar_quote quoting)).read rest
  exact ⟨String.toList_injective chars, last⟩

end Unicode

end NotiMapper
