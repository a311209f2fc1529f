import NotiMapper.Library.Transition
import NotiMapper.Plugins.ImapInput

/-! The watch thread of the IMAP input, connection after connection. A batch is evaluated
message by message, each event being emitted as soon as it is found, and the cursor moves
past the batch only at its end: a header that cannot be decoded ends the batch, and the
next connection starts the same batch again. -/
namespace NotiMapper

open Python Transition

/-- One entry of what `email.header.decode_header` returns. -/
inductive Piece
  | text (payload : String)
  | encoded (payload : List UInt8) (charset : Option String)

inductive DecodeError
  | lookupError
  | raised (error : String)

/-- Python's `email` package and its codecs, which replace what they cannot decode. -/
structure EmailLibrary where
  decodeHeader : String → Except String (List Piece)
  decode : String → List UInt8 → Except DecodeError String
  parseaddr : String → String × String
  lower : String → String

structure Address where
  mailbox : Option String
  host : Option String

/-- The envelope as the server sends it. -/
structure RawEnvelope where
  fromAddresses : List Address := []
  sender : Option String := none
  subject : Option String := none

structure RawMessage where
  uid : Nat
  envelope : Option RawEnvelope
  occurredAt : Time

namespace EmailLibrary

variable (lib : EmailLibrary)

def charsetName : Option String → String
  | none | some "" => "utf-8"
  | some charset => charset

def decodeAs (charset : String) (payload : List UInt8) : Except String String :=
  match lib.decode charset payload with
  | .ok text => .ok text
  | .error .lookupError => .error "LookupError"
  | .error (.raised error) => .error error

def decodePiece : Piece → Except String String
  | .text payload => .ok payload
  | .encoded payload charset =>
    match lib.decode (charsetName charset) payload with
    | .error .lookupError => lib.decodeAs "utf-8" payload
    | _ => lib.decodeAs (charsetName charset) payload

def decodeSubject : Option String → Except String String
  | none => .ok ""
  | some raw => do
    let pieces ← lib.decodeHeader raw
    let texts ← pieces.mapM lib.decodePiece
    return strip (String.join texts)

def senderAddress : Option String → Except String String
  | none => .ok ""
  | some raw => do
    let text ← lib.decodeSubject (some raw)
    return lib.lower (strip (lib.parseaddr text).2)

/-- The first address that has both parts, or else the sender. -/
def senderOf (envelope : RawEnvelope) : Except String String :=
  match envelope.fromAddresses.find? fun address =>
      address.mailbox.getD "" ≠ "" && address.host.getD "" ≠ "" with
  | some address => .ok (lib.lower (address.mailbox.getD "" ++ "@" ++ address.host.getD ""))
  | none => lib.senderAddress envelope.sender

def decodeEnvelope (raw : RawEnvelope) : Except String Envelope := do
  let sender ← lib.senderOf raw
  let subject ← lib.decodeSubject raw.subject
  return ⟨sender, subject⟩

/-- Both headers that are looked at can be decoded, or there is no envelope. -/
def Readable (message : RawMessage) : Prop :=
  ∀ raw, message.envelope = some raw → ∃ envelope, lib.decodeEnvelope raw = .ok envelope

end EmailLibrary

namespace ImapInput

def verdict (f : ImapInput) (message : RawMessage) (envelope : Envelope) : Option ObservedEvent :=
  if !f.matched envelope || f.dryRun then none
  else some ⟨message.occurredAt, f.render envelope message.occurredAt message.uid⟩

variable (lib : EmailLibrary) (f : ImapInput)

/-- One round of the loop of `_evaluate`: a message without an envelope has no verdict. -/
def judge (message : RawMessage) : Except String (List (Nat × Option ObservedEvent)) :=
  match message.envelope with
  | none => .ok []
  | some raw =>
    match lib.decodeEnvelope raw with
    | .error error => .error error
    | .ok envelope => .ok [(message.uid, f.verdict message envelope)]

/-- The loop itself: the verdicts it reaches, and the exception that ends it. -/
def evaluateEach : List RawMessage → List (Nat × Option ObservedEvent) × Option String
  | [] => ([], none)
  | message :: rest =>
    match judge lib f message with
    | .error error => ([], some error)
    | .ok verdicts => (verdicts ++ (evaluateEach rest).1, (evaluateEach rest).2)

theorem judge_readable {message : RawMessage} :
    lib.Readable message ↔ ∃ verdicts, judge lib f message = .ok verdicts := by
  unfold judge EmailLibrary.Readable
  cases message.envelope with
  | none => simp
  | some raw => cases decoded : lib.decodeEnvelope raw <;> simp [decoded]

theorem judge_verdicts {message : RawMessage} {verdicts : List (Nat × Option ObservedEvent)}
    (judged : judge lib f message = .ok verdicts) :
    verdicts.map (·.1) = if message.envelope.isSome then [message.uid] else [] := by
  unfold judge at judged
  split at judged
  · rename_i missing
    cases judged
    simp [missing]
  · rename_i raw known
    split at judged
    · cases judged
    · cases judged
      simp [known]

/-- The evaluation ends without an exception exactly when every header can be decoded. -/
theorem evaluateEach_returns (messages : List RawMessage) :
    (evaluateEach lib f messages).2 = none ↔ ∀ message ∈ messages, lib.Readable message := by
  induction messages with
  | nil => simp [evaluateEach]
  | cons message rest ih =>
    rw [List.forall_mem_cons, ← ih, judge_readable lib f]
    cases judged : judge lib f message <;> simp [evaluateEach, judged]

theorem evaluateEach_verdicts (messages : List RawMessage) :
    ((evaluateEach lib f messages).1.map (·.1)).Sublist (messages.map (·.uid)) := by
  induction messages with
  | nil => exact .slnil
  | cons message rest ih =>
    cases judged : judge lib f message with
    | error error => simp [evaluateEach, judged]
    | ok verdicts =>
      simp only [evaluateEach, judged, List.map_append, judge_verdicts lib f judged, List.map_cons]
      split
      · exact ih.cons_cons _
      · exact ih.cons _

/-- It has then reached a verdict on every message that has an envelope. -/
theorem evaluateEach_reached {messages : List RawMessage} {message : RawMessage}
    (readable : ∀ message ∈ messages, lib.Readable message) (member : message ∈ messages)
    (enveloped : message.envelope.isSome) :
    message.uid ∈ (evaluateEach lib f messages).1.map (·.1) := by
  induction messages with
  | nil => cases member
  | cons first rest ih =>
    obtain ⟨here, later⟩ := List.forall_mem_cons.mp readable
    obtain ⟨verdicts, judged⟩ := (judge_readable lib f).mp here
    simp only [evaluateEach, judged, List.map_append, List.mem_append, judge_verdicts lib f judged]
    rcases List.mem_cons.mp member with rfl | member
    · simp [enveloped]
    · exact .inr (ih later member)

/-- The message as it is when its headers have been decoded. -/
def decoded (message : RawMessage) : Fetched where
  uid := message.uid
  envelope := message.envelope.bind fun raw => (lib.decodeEnvelope raw).toOption
  occurredAt := message.occurredAt

/-- Where every header can be decoded, what the loop emits is what evaluating the decoded
messages gives. -/
theorem evaluateEach_emits (messages : List RawMessage)
    (readable : ∀ message ∈ messages, lib.Readable message) :
    ((evaluateEach lib f (messages.insertionSort (·.uid ≤ ·.uid))).1.filterMap fun verdict =>
      verdict.2.map (verdict.1, ·)) = f.evaluate (messages.map (decoded lib)) := by
  have sorted : (messages.map (decoded lib)).insertionSort (·.uid ≤ ·.uid) =
      (messages.insertionSort (·.uid ≤ ·.uid)).map (decoded lib) :=
    (List.map_insertionSort (·.uid ≤ ·.uid) (·.uid ≤ ·.uid) (decoded lib) messages
      fun _ _ _ _ => Iff.rfl).symm
  have all : ∀ message ∈ messages.insertionSort (·.uid ≤ ·.uid), lib.Readable message :=
    fun message member => readable message ((List.mem_insertionSort _).mp member)
  rw [evaluate, sorted]
  generalize messages.insertionSort (·.uid ≤ ·.uid) = inOrder at all
  induction inOrder with
  | nil => rfl
  | cons message rest ih =>
    obtain ⟨here, later⟩ := List.forall_mem_cons.mp all
    rw [List.map_cons, List.filterMap_cons]
    cases known : message.envelope with
    | none =>
      simp only [evaluateEach, judge, known, List.nil_append, ih later, decoded, Option.bind_none]
    | some raw =>
      obtain ⟨envelope, read⟩ := here raw known
      simp only [evaluateEach, judge, known, read, decoded, Option.bind_some, Except.toOption,
        List.cons_append, List.nil_append, List.filterMap_cons, ih later, verdict]
      cases !f.matched envelope || f.dryRun <;> rfl

end ImapInput

/-- What the server returns on a connection; UIDs are unique in a folder. -/
structure Folder where
  messages : List RawMessage
  uids_nodup : (messages.map (·.uid)).Nodup

/-- The stored cursor, and for the record the verdicts reached so far. -/
structure Watching where
  lastUid : Nat
  verdicts : List (Nat × Option ObservedEvent) := []

namespace Watching

/-- What was emitted, with the UID each event is the event of. -/
def emitted (s : Watching) : List (Nat × ObservedEvent) :=
  s.verdicts.filterMap fun verdict => verdict.2.map (verdict.1, ·)

/-- `_new_uids`. -/
def above (s : Watching) (folder : Folder) : List Nat :=
  ImapInput.newUids ⟨none, some s.lastUid⟩ (folder.messages.map (·.uid))

def fetch (folder : Folder) (uids : List Nat) : List RawMessage :=
  (folder.messages.filter (·.uid ∈ uids)).insertionSort (·.uid ≤ ·.uid)

variable (lib : EmailLibrary) (f : ImapInput)

/-- `_process_new`: an exception leaves what was emitted, and the cursor where it was. -/
def processNew (s : Watching) (folder : Folder) : Watching :=
  match (s.above folder).max? with
  | none => s
  | some highest =>
    let (verdicts, raised) := f.evaluateEach lib (fetch folder (s.above folder))
    { lastUid := if raised.isNone then highest else s.lastUid
      verdicts := s.verdicts ++ verdicts }

/-- What the loop of `start` meets: a connection that breaks before anything is evaluated,
or a batch. -/
inductive Attempt
  | broken
  | batch (folder : Folder)

def attempt (s : Watching) : Attempt → Option Watching
  | .broken => some s
  | .batch folder => some (s.processNew lib f folder)

/-- The batch gets through: there is a verdict on each new message, and the cursor is past
everything the server returned. -/
def GetsThrough (s : Watching) : Attempt → Prop
  | .broken => True
  | .batch folder => ∀ message ∈ folder.messages,
    message.uid ≤ (s.processNew lib f folder).lastUid ∧
    (s.lastUid < message.uid → message.envelope.isSome →
      ∃ verdict, (message.uid, verdict) ∈ (s.processNew lib f folder).verdicts)

def EmitsOnce (s : Watching) : Prop := (s.emitted.map (·.1)).Nodup

/-- No new message has a header that cannot be decoded. -/
def AllReadable (s : Watching) : Attempt → Prop
  | .broken => True
  | .batch folder => ∀ message ∈ folder.messages, s.lastUid < message.uid → lib.Readable message

section Batches

variable {lib f} {s : Watching} {folder : Folder}

theorem mem_above {uid : Nat} : uid ∈ s.above folder ↔
    s.lastUid < uid ∧ ∃ message ∈ folder.messages, message.uid = uid := by
  simp only [above, ImapInput.newUids, List.mem_insertionSort, List.mem_filter, List.mem_map,
    decide_eq_true_eq]
  exact and_comm

theorem mem_fetch {uids : List Nat} {message : RawMessage} :
    message ∈ fetch folder uids ↔ message ∈ folder.messages ∧ message.uid ∈ uids := by
  simp only [fetch, List.mem_insertionSort, List.mem_filter, decide_eq_true_eq]

theorem fetch_nodup (folder : Folder) (uids : List Nat) :
    ((fetch folder uids).map (·.uid)).Nodup := by
  have sorted := (List.perm_insertionSort (fun a b : RawMessage => a.uid ≤ b.uid)
    (folder.messages.filter (·.uid ∈ uids))).map (·.uid)
  exact sorted.nodup_iff.mpr (folder.uids_nodup.sublist (List.filter_sublist.map _))

theorem processNew_nothing (none : (s.above folder).max? = none) :
    s.processNew lib f folder = s ∧ ∀ message ∈ folder.messages, message.uid ≤ s.lastUid := by
  refine ⟨by simp only [processNew, none], fun message member => ?_⟩
  by_contra new
  have listed := mem_above.mpr ⟨not_le.mp new, message, member, rfl⟩
  rw [List.max?_eq_none_iff.mp none] at listed
  cases listed

theorem allReadable_iff : AllReadable lib s (.batch folder) ↔
    ∀ message ∈ fetch folder (s.above folder), lib.Readable message := by
  simp only [AllReadable, mem_fetch, mem_above]
  constructor
  · rintro readable message ⟨member, new, -⟩
    exact readable message member new
  · intro readable message member new
    exact readable message ⟨member, new, message, member, rfl⟩

/-- A batch whose headers can all be decoded moves the cursor to its highest UID. -/
theorem processNew_readable {highest : Nat} (some : (s.above folder).max? = some highest)
    (readable : AllReadable lib s (.batch folder)) :
    s.processNew lib f folder = ⟨highest, s.verdicts ++
      (f.evaluateEach lib (fetch folder (s.above folder))).1⟩ := by
  have returned := (f.evaluateEach_returns lib _).mpr (allReadable_iff.mp readable)
  simp only [processNew, some, returned, Option.isNone_none, if_true]

theorem getsThrough_iff (s : Watching) (a : Attempt) :
    GetsThrough lib f s a ↔ AllReadable lib s a := by
  cases a with
  | broken => exact Iff.rfl
  | batch folder =>
    cases highest : (s.above folder).max? with
    | none =>
      obtain ⟨same, passed⟩ := @processNew_nothing lib f s folder highest
      constructor
      · intro _ message member new
        exact absurd (passed message member) (not_le.mpr new)
      · intro _ message member
        rw [same]
        exact ⟨passed message member, fun new => absurd (passed message member) (not_le.mpr new)⟩
    | some highest_uid =>
      obtain ⟨listed, bound⟩ := List.max?_eq_some_iff.mp highest
      constructor
      · intro through
        obtain ⟨new, message, member, same⟩ := mem_above.mp listed
        have passed := (through message member).1
        rw [allReadable_iff, ← f.evaluateEach_returns lib]
        by_contra raised
        have stuck : (s.processNew lib f folder).lastUid = s.lastUid := by
          simp only [processNew, highest, Option.isNone_iff_eq_none, if_neg raised]
        rw [stuck, same] at passed
        exact absurd passed (not_le.mpr new)
      · intro readable message member
        rw [processNew_readable highest readable]
        have below : s.lastUid ≤ highest_uid := (mem_above.mp listed).1.le
        constructor
        · by_cases new : s.lastUid < message.uid
          · exact bound _ (mem_above.mpr ⟨new, message, member, rfl⟩)
          · exact (not_lt.mp new).trans below
        · intro new enveloped
          have fetched := mem_fetch.mpr ⟨member, mem_above.mpr ⟨new, message, member, rfl⟩⟩
          have reached := f.evaluateEach_reached lib (allReadable_iff.mp readable) fetched enveloped
          obtain ⟨⟨uid, verdict⟩, judged, rfl⟩ := List.mem_map.mp reached
          exact ⟨verdict, List.mem_append_right _ judged⟩

/-- Each UID has one verdict, and is below the cursor. -/
def Settled (s : Watching) : Prop :=
  (s.verdicts.map (·.1)).Nodup ∧ ∀ verdict ∈ s.verdicts, verdict.1 ≤ s.lastUid

theorem Settled.emitsOnce (settled : Settled s) : EmitsOnce s := by
  refine settled.1.sublist ?_
  unfold emitted
  induction s.verdicts with
  | nil => exact .slnil
  | cons verdict verdicts ih =>
    rw [List.filterMap_cons, List.map_cons]
    cases verdict.2 with
    | none => exact ih.cons _
    | some event => exact ih.cons_cons _

theorem Settled.attempted {t : Watching} {a : Attempt} (settled : Settled s)
    (readable : AllReadable lib s a) (attempted : s.attempt lib f a = some t) : Settled t := by
  cases a with
  | broken => exact Option.some.inj attempted ▸ settled
  | batch folder =>
    cases Option.some.inj attempted
    cases highest : (s.above folder).max? with
    | none =>
      rw [(@processNew_nothing lib f s folder highest).1]
      exact settled
    | some highest_uid =>
      obtain ⟨listed, bound⟩ := List.max?_eq_some_iff.mp highest
      rw [processNew_readable highest readable]
      have judged := f.evaluateEach_verdicts lib (fetch folder (s.above folder))
      have new : ∀ uid ∈ (f.evaluateEach lib (fetch folder (s.above folder))).1.map (·.1),
          uid ∈ s.above folder := by
        intro uid member
        obtain ⟨message, fetched, rfl⟩ := List.mem_map.mp (judged.subset member)
        exact (mem_fetch.mp fetched).2
      constructor
      · rw [List.map_append, List.nodup_append]
        refine ⟨settled.1, (fetch_nodup folder _).sublist judged, ?_⟩
        rintro old earlier uid member rfl
        obtain ⟨verdict, known, rfl⟩ := List.mem_map.mp earlier
        exact absurd (settled.2 verdict known) (not_le.mpr (mem_above.mp (new _ member)).1)
      · intro verdict member
        rcases List.mem_append.mp member with earlier | member
        · exact (settled.2 verdict earlier).trans (mem_above.mp listed).1.le
        · exact bound _ (new _ (List.mem_map.mpr ⟨verdict, member, rfl⟩))

end Batches

/-- Every batch gets through, and nothing is emitted twice, exactly when no batch has a
header above the cursor that cannot be decoded. -/
theorem batches_get_through_iff (lastUid : Nat) (attempts : List Attempt) :
    (Throughout (attempt lib f) (GetsThrough lib f) ⟨lastUid, []⟩ attempts ∧
      Always (attempt lib f) EmitsOnce ⟨lastUid, []⟩ attempts) ↔
    Throughout (attempt lib f) (AllReadable lib) ⟨lastUid, []⟩ attempts := by
  rw [throughout_congr getsThrough_iff]
  constructor
  · exact fun both => both.1
  · intro readable
    refine ⟨readable, always_of_invariant (fun _ _ _ => Settled.attempted)
      (fun _ => Settled.emitsOnce) ⟨List.nodup_nil, ?_⟩ readable⟩
    exact fun _ member => (nomatch member)

/- A delivery notice, and after it a message whose subject has one base64 digit. -/

def sampleEmail : EmailLibrary where
  decodeHeader raw :=
    if raw = "=?utf-8?b?A?=" then .error "HeaderParseError: Base64 decoding error"
    else .ok [.text raw]
  decode charset payload :=
    if charset = "utf-8" then .ok (String.ofList (payload.map fun byte => Char.ofNat byte.toNat))
    else .error .lookupError
  parseaddr raw := ("", raw)
  lower text := String.ofList (text.toList.map Char.toLower)

def sampleInput : ImapInput where
  matched envelope := envelope.subject = "Delivered"
  render envelope _ _ := envelope.subject

def spoiltFolder : Folder where
  messages :=
    [⟨5, some { fromAddresses := [⟨some "track", some "ups.com"⟩], subject := some "Delivered" }, 50⟩,
      ⟨6, some { fromAddresses := [⟨some "ad", some "shop.com"⟩], subject := some "=?utf-8?b?A?=" }, 60⟩]
  uids_nodup := by decide

/-- Each connection emits the delivery notice again, and none gets past the other message. -/
theorem spoilt_batch_replayed :
    ¬ ∀ (lib : EmailLibrary) (f : ImapInput) (lastUid : Nat) (attempts : List Attempt),
      Throughout (attempt lib f) (GetsThrough lib f) ⟨lastUid, []⟩ attempts ∧
      Always (attempt lib f) EmitsOnce ⟨lastUid, []⟩ attempts := by
  intro always
  have once := (always sampleEmail sampleInput 4 [.batch spoiltFolder, .batch spoiltFolder]).2.last rfl
  revert once
  unfold EmitsOnce
  decide +kernel

end Watching

end NotiMapper
