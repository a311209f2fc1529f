import NotiMapper.Config.Names

/-! The sender allowlist of the IMAP input: whole addresses, and domains with what is under
them. The domain of a sender is taken from the first at sign of the address on. -/
namespace NotiMapper

open Python

/-- Unicode's lower case of a character, and what decides between the two small sigmas. -/
structure LowerCase where
  lower : Char → List Char
  cased : Char → Bool
  caseIgnorable : Char → Bool
  lower_ne_nil : ∀ c, lower c ≠ []
  lower_at : lower '@' = ['@']

def capitalSigma : Char := 'Σ'

namespace LowerCase

variable (table : LowerCase)

/-- At the end of a word: after a cased letter, and before none. -/
def finalSigma (before after : List Char) : Bool :=
  (before.dropWhile table.caseIgnorable).head?.any table.cased &&
    !(after.dropWhile table.caseIgnorable).head?.any table.cased

def lowerAt (before : List Char) (c : Char) (after : List Char) : List Char :=
  if c = capitalSigma then [if table.finalSigma before after then 'ς' else 'σ'] else table.lower c

/-- What stands before is kept backwards. -/
def lowerFrom : List Char → List Char → List Char
  | _, [] => []
  | before, c :: after => table.lowerAt before c after ++ lowerFrom (c :: before) after

/-- `str.lower()`. -/
def lowerText (text : String) : String := String.ofList (table.lowerFrom [] text.toList)

variable {table}

variable (table) in
theorem lowerAt_length (before : List Char) (c : Char) (after : List Char) :
    1 ≤ (table.lowerAt before c after).length := by
  unfold lowerAt
  split
  · exact Nat.le_refl 1
  · exact List.length_pos_iff.mpr (table.lower_ne_nil c)

variable (table) in
theorem lowerFrom_length (before chars : List Char) :
    chars.length ≤ (table.lowerFrom before chars).length := by
  induction chars generalizing before with
  | nil => exact Nat.le_refl 0
  | cons c after ih =>
    have first := table.lowerAt_length before c after
    have rest := ih (c :: before)
    rw [lowerFrom, List.length_append, List.length_cons]
    omega

/-- A text that is its own lower case is so character by character. -/
theorem lowerFrom_eq_self {before chars : List Char} : table.lowerFrom before chars = chars ↔
    ∀ c ∈ chars, c ≠ capitalSigma ∧ table.lower c = [c] := by
  induction chars generalizing before with
  | nil => exact iff_of_true rfl (List.forall_mem_nil _)
  | cons c after ih =>
    have others : table.lowerFrom (c :: before) after = after ↔
        ∀ c ∈ after, c ≠ capitalSigma ∧ table.lower c = [c] := ih
    rw [lowerFrom, List.forall_mem_cons, ← others]
    constructor
    · intro same
      have first := table.lowerAt_length before c after
      have rest := table.lowerFrom_length (c :: before) after
      have whole := congrArg List.length same
      rw [List.length_append, List.length_cons] at whole
      obtain ⟨d, single⟩ : ∃ d, table.lowerAt before c after = [d] :=
        List.length_eq_one_iff.mp (by omega)
      rw [single, List.singleton_append] at same
      obtain ⟨rfl, later⟩ := List.cons.inj same
      refine ⟨?_, later⟩
      by_cases sigma : d = capitalSigma
      · rw [lowerAt, if_pos sigma] at single
        rw [sigma] at single
        split at single <;> exact absurd single (by decide)
      · rw [lowerAt, if_neg sigma] at single
        exact ⟨sigma, single⟩
    · rintro ⟨⟨sigma, single⟩, later⟩
      rw [lowerAt, if_neg sigma, single, later, List.singleton_append]

theorem lowerText_eq_self {text : String} : table.lowerText text = text ↔
    ∀ c ∈ text.toList, c ≠ capitalSigma ∧ table.lower c = [c] := by
  have chars : table.lowerFrom [] text.toList = text.toList ↔
      ∀ c ∈ text.toList, c ≠ capitalSigma ∧ table.lower c = [c] := lowerFrom_eq_self
  rw [← chars, lowerText]
  constructor
  · intro same
    have chars := congrArg String.toList same
    rwa [String.toList_ofList] at chars
  · intro same
    rw [same, String.ofList_toList]

end LowerCase

/-- What follows the first at sign, as `partition("@")` gives it. -/
def afterAt (address : List Char) : List Char := (address.dropWhile (· ≠ '@')).tail

namespace Allowlist

variable (table : LowerCase)

/-- `_senders`, as the criteria keep them. -/
def entriesOf (senders : List String) : List String :=
  senders.map fun sender => table.lowerText (strip sender)

/-- One round of the loop over the entries. -/
def admits (candidate entry : String) : Bool :=
  if '@' ∈ entry.toList then candidate = entry
  else
    let domain := afterAt candidate.toList
    domain = entry.toList || decide (('.' :: entry.toList) <:+ domain)

def senderAllowed (senders : List String) (address : String) : Bool :=
  let entries := entriesOf table senders
  if entries.isEmpty then true
  else
    let candidate := table.lowerText (strip address)
    if candidate = "" then false else entries.any (admits candidate)

/-- `_sender_of`, for an address that has both parts. -/
def senderOf (mailbox host : String) : String := table.lowerText s!"{mailbox}@{host}"

/-- The two parts of a sender's address, as they are compared. -/
structure Envelope where
  mailbox : String
  host : String
  mailbox_nonempty : mailbox ≠ ""
  host_nonempty : host ≠ ""
  mailbox_lower : table.lowerText mailbox = mailbox
  host_lower : table.lowerText host = host
  mailbox_stripped : strip mailbox = mailbox
  host_stripped : strip host = host
  host_plain : '@' ∉ host.toList

variable {table}

/-- A whole address, or a domain the host is under. -/
def ListedApart (entries : List String) (sender : Envelope table) : Prop :=
  ∃ entry ∈ entries, '@' ∈ entry.toList ∧ entry = s!"{sender.mailbox}@{sender.host}" ∨
    '@' ∉ entry.toList ∧ ('.' :: entry.toList) <:+ sender.host.toList

def Listed (entries : List String) (sender : Envelope table) : Prop :=
  entries = [] ∨ sender.host ∈ entries ∨ ListedApart entries sender

/- The address is compared as it is. -/

theorem ends_solid {text : String} (stripped : strip text = text) :
    (∀ c, text.toList.head? = some c → isSpace c = false) ∧
      ∀ c, text.toList.getLast? = some c → isSpace c = false := by
  have chars := strip_toList text
  rw [stripped] at chars
  have left : text.toList.dropWhile isSpace = text.toList := by
    refine (List.dropWhile_suffix isSpace).eq_of_length_le ?_
    have shorter := (List.rdropWhile_prefix isSpace (l := text.toList.dropWhile isSpace)).length_le
    rw [← chars] at shorter
    exact shorter
  rw [left] at chars
  constructor
  · intro c head
    obtain ⟨rest, shape⟩ := List.head?_eq_some_iff.mp head
    by_contra space
    rw [shape, List.dropWhile_cons_of_pos (by simpa using space)] at left
    have shorter := List.length_dropWhile_le isSpace rest
    rw [left, List.length_cons] at shorter
    omega
  · intro c last
    obtain ⟨before, shape⟩ := List.getLast?_eq_some_iff.mp last
    by_contra space
    rw [shape, List.rdropWhile_concat_pos _ _ _ (by simpa using space)] at chars
    have shorter := (List.rdropWhile_prefix isSpace (l := before)).length_le
    rw [← chars, List.length_append, List.length_singleton] at shorter
    omega

theorem strip_of_ends {text : String}
    (first : ∀ c, text.toList.head? = some c → isSpace c = false)
    (last : ∀ c, text.toList.getLast? = some c → isSpace c = false) : strip text = text := by
  apply String.toList_injective
  rw [strip_toList]
  have left : text.toList.dropWhile isSpace = text.toList := by
    cases shape : text.toList with
    | nil => rfl
    | cons c rest =>
      have solid := first c (by rw [shape]; rfl)
      exact List.dropWhile_cons_of_neg (by simp [solid])
  rw [left]
  refine List.rdropWhile_eq_self_iff.mpr fun nonempty => ?_
  have solid := last _ (List.getLast?_eq_some_getLast nonempty)
  simp [solid]

namespace Envelope

variable (sender : Envelope table)

def address : String := s!"{sender.mailbox}@{sender.host}"

theorem address_toList : sender.address.toList = sender.mailbox.toList ++ '@' :: sender.host.toList := by
  have text : sender.address = sender.mailbox ++ "@" ++ sender.host := rfl
  rw [text, String.append_assoc, String.toList_append, String.toList_append]
  rfl

theorem address_nonempty : sender.address ≠ "" := by
  intro empty
  have chars := sender.address_toList
  rw [empty] at chars
  exact absurd chars (List.append_ne_nil_of_right_ne_nil _ (List.cons_ne_nil _ _)).symm

theorem address_lower : table.lowerText sender.address = sender.address := by
  rw [LowerCase.lowerText_eq_self, sender.address_toList]
  intro c member
  rcases List.mem_append.mp member with mailbox | rest
  · exact LowerCase.lowerText_eq_self.mp sender.mailbox_lower c mailbox
  · rcases List.mem_cons.mp rest with rfl | host
    · exact ⟨by decide, table.lower_at⟩
    · exact LowerCase.lowerText_eq_self.mp sender.host_lower c host

theorem address_stripped : strip sender.address = sender.address := by
  have mailbox : sender.mailbox.toList ≠ [] := fun empty =>
    sender.mailbox_nonempty (String.toList_eq_nil_iff.mp empty)
  have host : sender.host.toList ≠ [] := fun empty =>
    sender.host_nonempty (String.toList_eq_nil_iff.mp empty)
  refine strip_of_ends (fun c head => ?_) (fun c last => ?_)
  · rw [sender.address_toList, List.head?_append_of_ne_nil _ mailbox] at head
    exact (ends_solid sender.mailbox_stripped).1 c head
  · have split : sender.mailbox.toList ++ '@' :: sender.host.toList =
        (sender.mailbox.toList ++ ['@']) ++ sender.host.toList := by simp
    rw [sender.address_toList, split, List.getLast?_append_of_ne_nil _ host] at last
    exact (ends_solid sender.host_stripped).2 c last

end Envelope

/- The domain. -/

theorem afterAt_plain {mailbox host : List Char} (plain : '@' ∉ mailbox) :
    afterAt (mailbox ++ '@' :: host) = host := by
  have solid : ∀ c ∈ mailbox, decide (c ≠ '@') = true := by
    intro c member
    rw [decide_eq_true_eq]
    rintro rfl
    exact plain member
  rw [afterAt, List.dropWhile_append_of_pos solid, List.dropWhile_cons_of_neg (by decide),
    List.tail_cons]

/-- A mailbox with an at sign leaves a part of itself in the domain. -/
theorem afterAt_quoted {mailbox : List Char} (host : List Char) (quoted : '@' ∈ mailbox) :
    ∃ more, afterAt (mailbox ++ '@' :: host) = more ++ '@' :: host := by
  obtain ⟨before, after, rfl, plain⟩ := List.eq_append_cons_of_mem quoted
  refine ⟨after, ?_⟩
  rw [List.append_assoc, List.cons_append, afterAt_plain plain]

/-- Without an at sign, an ending of the domain is an ending of the host. -/
theorem suffix_past_at {entry more host : List Char} (plain : '@' ∉ entry) :
    entry <:+ more ++ '@' :: host ↔ entry <:+ host := by
  constructor
  · intro ending
    rcases List.suffix_or_suffix_of_suffix ending (List.suffix_append more ('@' :: host)) with
      inside | beyond
    · rcases List.suffix_cons_iff.mp inside with whole | inside
      · exact absurd (whole ▸ List.mem_cons_self) plain
      · exact inside
    · exact absurd (beyond.subset List.mem_cons_self) plain
  · intro ending
    exact (ending.trans (List.suffix_cons '@' host)).trans (List.suffix_append more _)

/-- What an entry admits: the address itself; or a domain the host is under, or, if no part
of the mailbox is in the way, the host. -/
theorem admits_iff (sender : Envelope table) (entry : String) :
    admits sender.address entry = true ↔
      ('@' ∈ entry.toList ∧ entry = sender.address ∨
        '@' ∉ entry.toList ∧ ('.' :: entry.toList) <:+ sender.host.toList) ∨
      '@' ∉ sender.mailbox.toList ∧ entry = sender.host := by
  unfold admits
  by_cases whole : '@' ∈ entry.toList
  · have other : entry ≠ sender.host := fun same => sender.host_plain (same ▸ whole)
    rw [if_pos whole, decide_eq_true_eq]
    simp only [whole, true_and, not_true, false_and, or_false, other, and_false]
    exact eq_comm
  · have dotted : '@' ∉ '.' :: entry.toList := by
      rw [List.mem_cons, not_or]
      exact ⟨by decide, whole⟩
    rw [if_neg whole, Bool.or_eq_true, decide_eq_true_eq, decide_eq_true_eq]
    simp only [whole, false_and, false_or, not_false_eq_true, true_and, sender.address_toList]
    by_cases quoted : '@' ∈ sender.mailbox.toList
    · obtain ⟨more, domain⟩ := afterAt_quoted sender.host.toList quoted
      have apart : more ++ '@' :: sender.host.toList ≠ entry.toList := by
        intro same
        exact whole (same ▸ List.mem_append_right _ List.mem_cons_self)
      simp only [domain, suffix_past_at dotted, apart, false_or, quoted, not_true, false_and,
        or_false]
    · have same : sender.host.toList = entry.toList ↔ entry = sender.host := by
        rw [String.toList_inj, eq_comm]
      simp only [afterAt_plain quoted, same, quoted, not_false_eq_true, true_and]
      exact or_comm

/-- What the allowlist admits, of any sender. -/
theorem senderAllowed_iff (senders : List String) (sender : Envelope table) :
    senderAllowed table senders (senderOf table sender.mailbox sender.host) = true ↔
      entriesOf table senders = [] ∨ ListedApart (entriesOf table senders) sender ∨
        '@' ∉ sender.mailbox.toList ∧ sender.host ∈ entriesOf table senders := by
  have built : senderOf table sender.mailbox sender.host = sender.address := sender.address_lower
  simp only [senderAllowed, built, sender.address_stripped, sender.address_lower,
    if_neg sender.address_nonempty]
  cases entriesOf table senders with
  | nil => exact iff_of_true rfl (.inl rfl)
  | cons first rest =>
    simp only [List.isEmpty_cons, Bool.false_eq_true, if_false, List.any_eq_true, admits_iff,
      reduceCtorEq, false_or]
    constructor
    · rintro ⟨entry, member, apart | ⟨plain, rfl⟩⟩
      · exact .inl ⟨entry, member, apart⟩
      · exact .inr ⟨plain, member⟩
    · rintro (⟨entry, member, apart⟩ | ⟨plain, member⟩)
      · exact ⟨entry, member, .inl apart⟩
      · exact ⟨_, member, .inr ⟨plain, rfl⟩⟩

/-- Nobody is let in who is not listed. -/
theorem listed_of_allowed {senders : List String} {sender : Envelope table}
    (allowed : senderAllowed table senders (senderOf table sender.mailbox sender.host) = true) :
    Listed (entriesOf table senders) sender := by
  rcases (senderAllowed_iff senders sender).mp allowed with empty | apart | ⟨_, member⟩
  · exact .inl empty
  · exact .inr (.inr apart)
  · exact .inr (.inl member)

/-- Allowed is listed, but for a mailbox with an at sign in it at a host that is itself listed
and under no other entry. -/
theorem allowed_iff_listed_iff (senders : List String) (sender : Envelope table) :
    (senderAllowed table senders (senderOf table sender.mailbox sender.host) = true ↔
        Listed (entriesOf table senders) sender) ↔
      ('@' ∈ sender.mailbox.toList → sender.host ∈ entriesOf table senders →
        ListedApart (entriesOf table senders) sender) := by
  constructor
  · intro same quoted member
    rcases (senderAllowed_iff senders sender).mp (same.mpr (.inr (.inl member))) with
      empty | apart | ⟨plain, _⟩
    · rw [empty] at member
      cases member
    · exact apart
    · exact absurd quoted plain
  · intro enough
    refine ⟨listed_of_allowed, fun listed => (senderAllowed_iff senders sender).mpr ?_⟩
    rcases listed with empty | member | apart
    · exact .inl empty
    · by_cases quoted : '@' ∈ sender.mailbox.toList
      · exact .inr (.inl (enough quoted member))
      · exact .inr (.inr ⟨quoted, member⟩)
    · exact .inr (.inl apart)

/-- The letters of ASCII. -/
def asciiLower : LowerCase where
  lower c := [c.toLower]
  cased := Char.isAlpha
  caseIgnorable c := c = '.' || c = '\''
  lower_ne_nil _ := List.cons_ne_nil _ _
  lower_at := by decide

/-- A quoted mailbox with an at sign, at a carrier's own host. -/
def quotedSender : Envelope asciiLower where
  mailbox := "\"a@b\""
  host := "ups.com"
  mailbox_nonempty := by decide
  host_nonempty := by decide
  mailbox_lower := by decide +kernel
  host_lower := by decide +kernel
  mailbox_stripped := by decide +kernel
  host_stripped := by decide +kernel
  host_plain := by decide

theorem quoted_mailbox_refused :
    Listed (entriesOf asciiLower ["ups.com"]) quotedSender ∧
      senderAllowed asciiLower ["ups.com"]
        (senderOf asciiLower quotedSender.mailbox quotedSender.host) = false := by
  refine ⟨.inr (.inl ?_), by decide +kernel⟩
  decide +kernel

end Allowlist

end NotiMapper
