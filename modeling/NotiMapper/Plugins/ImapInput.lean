import NotiMapper.Plugin

/-! The IMAP input. It keeps a cursor, the highest UID it has processed, for one UID
validity of the folder; what lies above the cursor is new. Both the watch thread and
`catch_up` visit the folder in the same stages, each with its own durable write. The
cursor is kept as a number, not as its text. -/
namespace NotiMapper

structure Envelope where
  sender : String
  subject : String

/-- A message as it is fetched, with the date that goes on its event. -/
structure Fetched where
  uid : Nat
  envelope : Option Envelope
  occurredAt : Time

/-- `matched` is the verdict of the criteria; `render` the one-line rendering of the
metadata: sender, subject, date and UID. -/
structure ImapInput where
  matched : Envelope → Bool
  dryRun : Bool := false
  catchUpLimit : Nat := 200
  render : Envelope → Time → Nat → String

/-- What is stored under `uidvalidity` and `last_uid`. -/
structure Cursor where
  uidvalidity : Option Nat := none
  lastUid : Option Nat := none

/-- How far a visit to the folder has got: its cursor is being baselined, it is selected,
or new messages were evaluated and the cursor is still to move past them. -/
inductive Visit
  | baselining (uidvalidity highest : Nat)
  | selected (uidvalidity : Nat)
  | evaluated (uidvalidity : Nat) (uids : List Nat) (events : List (Nat × ObservedEvent))

namespace ImapInput

/-- `_reconcile_uidvalidity`, up to the first of its two writes. -/
def select (uidvalidity highest : Nat) (cursor : Cursor) : Cursor × Visit :=
  if cursor.uidvalidity = some uidvalidity ∧ cursor.lastUid.isSome then
    (cursor, .selected uidvalidity)
  else ({ cursor with uidvalidity := some uidvalidity }, .baselining uidvalidity highest)

/-- The server answers a search above the cursor with its highest UID at least. -/
def newUids (cursor : Cursor) (found : List Nat) : List Nat :=
  match cursor.lastUid with
  | none => []
  | some lastUid => (found.filter (lastUid < ·)).insertionSort (· ≤ ·)

def evaluate (f : ImapInput) (fetched : List Fetched) : List (Nat × ObservedEvent) :=
  (fetched.insertionSort (·.uid ≤ ·.uid)).filterMap fun message =>
    message.envelope.bind fun envelope =>
      if !f.matched envelope || f.dryRun then none
      else some (message.uid,
        ⟨message.occurredAt, f.render envelope message.occurredAt message.uid⟩)

/-- Fetch and evaluate these messages, if there are any. -/
def examine (f : ImapInput) (uidvalidity : Nat) (uids : List Nat) (mailbox : List Fetched) :
    Visit :=
  if uids.isEmpty then .selected uidvalidity
  else .evaluated uidvalidity uids (f.evaluate (mailbox.filter (·.uid ∈ uids)))

def newest (f : ImapInput) (uids : List Nat) : List Nat := uids.drop (uids.length - f.catchUpLimit)

def processNew (f : ImapInput) (cursor : Cursor) (uidvalidity : Nat) (mailbox : List Fetched) :
    Visit := f.examine uidvalidity (newUids cursor (mailbox.map (·.uid))) mailbox

def catchUpNew (f : ImapInput) (cursor : Cursor) (uidvalidity : Nat) (mailbox : List Fetched) :
    Visit := f.examine uidvalidity (f.newest (newUids cursor (mailbox.map (·.uid)))) mailbox

/-- `_advance_cursor(max(uids))`. -/
def advanceCursor (uids : List Nat) (cursor : Cursor) : Cursor :=
  { cursor with lastUid := uids.max? }

theorem newUids_above {cursor : Cursor} {found : List Nat} {uid lastUid : Nat}
    (stored : cursor.lastUid = some lastUid) (new : uid ∈ newUids cursor found) :
    lastUid < uid := by
  simp only [newUids, stored, List.mem_insertionSort, List.mem_filter, decide_eq_true_eq] at new
  exact new.2

theorem evaluate_fetched {f : ImapInput} {fetched : List Fetched} {uid : Nat}
    {event : ObservedEvent} (found : (uid, event) ∈ f.evaluate fetched) :
    ∃ message ∈ fetched, message.uid = uid := by
  obtain ⟨message, member, made⟩ := List.mem_filterMap.mp found
  obtain ⟨envelope, _, made⟩ := Option.bind_eq_some_iff.mp made
  split at made
  · cases made
  · cases made
    exact ⟨message, (List.mem_insertionSort _).mp member, rfl⟩

theorem catchUpNew_above {f : ImapInput} {cursor : Cursor} {uidvalidity lastUid : Nat}
    {mailbox : List Fetched} {uids : List Nat} {events : List (Nat × ObservedEvent)}
    (stored : cursor.lastUid = some lastUid)
    (found : f.catchUpNew cursor uidvalidity mailbox = .evaluated uidvalidity uids events) :
    ∀ event ∈ events, lastUid < event.1 := by
  intro event member
  unfold catchUpNew examine at found
  split at found
  · cases found
  · cases found
    obtain ⟨message, fetched, same⟩ := evaluate_fetched member
    have examined := List.mem_filter.mp fetched
    rw [← same]
    exact newUids_above stored (List.mem_of_mem_drop (of_decide_eq_true examined.2))

end ImapInput

end NotiMapper
