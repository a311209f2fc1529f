import NotiMapper.Threads.CursorRace

/-! The cursor of one IMAP input over mailbox rebuilds. The cursor and the UID validity it
belongs to are two rows, written one after the other; the watch thread and a catch-up each
open connections of their own, and any connection may end after any of its steps. A server
raises the UID validity when it rebuilds a folder, and answers nothing more on a connection
that selected the folder before. -/
namespace NotiMapper

open Transition

/-- `present` is what was in the folder when it was last rebuilt; UIDs start at one. -/
structure Server where
  uidvalidity : Nat
  box : Mailbox
  present : List Nat := []
  started : 0 < box.uidNext
  present_below : ∀ uid ∈ present, uid < box.uidNext

def Mailbox.expunge (box : Mailbox) (gone : List Nat) : Mailbox where
  messages := box.messages.filter (·.uid ∉ gone)
  uidNext := box.uidNext
  uids_nodup := box.uids_nodup.sublist (List.filter_sublist.map _)
  uids_below message member := box.uids_below message (List.mem_of_mem_filter member)

namespace Server

def deliver (server : Server) (gap : Nat) (envelope : Option Envelope) (occurredAt : Time) :
    Server where
  uidvalidity := server.uidvalidity
  box := server.box.deliver gap envelope occurredAt
  present := server.present
  started := Nat.succ_pos _
  present_below uid member := (server.present_below uid member).trans_le
    (Nat.le_succ_of_le (Nat.le_add_right _ _))

def expunge (server : Server) (gone : List Nat) : Server where
  uidvalidity := server.uidvalidity
  box := server.box.expunge gone
  present := server.present
  started := server.started
  present_below := server.present_below

/-- The folder with other messages under other UIDs. -/
def rebuilt (uidvalidity : Nat) (box : Mailbox) (started : 0 < box.uidNext) : Server where
  uidvalidity := uidvalidity
  box := box
  present := box.messages.map (·.uid)
  started := started
  present_below := by
    intro uid member
    obtain ⟨message, known, rfl⟩ := List.mem_map.mp member
    exact box.uids_below message known

/-- `_highest_uid`. -/
def highestUid (server : Server) : Nat := (server.box.messages.map (·.uid)).max?.getD 0

end Server

/-- Under which UID validity a UID was read from the server, and which UID was to come next. -/
structure Reading where
  uidvalidity : Nat
  uidNext : Nat

/-- The UID had been given out at that reading, and is not below any message that was there at
the rebuild. -/
def Server.Covers (server : Server) (seen : Reading) (uid : Nat) : Prop :=
  uid < seen.uidNext ∧ seen.uidNext ≤ server.box.uidNext ∧
  ∀ message ∈ server.box.messages, message.uid ∈ server.present → message.uid ≤ uid

/-- A connection of one party: what is stored did not fit and is to be written anew, the
first of the two rows is written, the folder is selected, the cursor was read, or new
messages were evaluated and the cursor is still to move past them. -/
inductive Connection
  | closed
  | deciding (seen : Reading) (highest : Nat)
  | baselining (seen : Reading) (highest : Nat)
  | selected (uidvalidity : Nat)
  | comparing (uidvalidity lastUid : Nat) (recorded : Option Reading)
  | evaluated (seen : Reading) (uids : List Nat)

/-- `recorded` is, for the record, how the stored last UID was read. -/
structure Epochs where
  server : Server
  cursor : Cursor
  recorded : Option Reading
  connections : Party → Connection := fun _ => .closed

namespace Epochs

inductive Step
  | deliver (gap : Nat) (envelope : Option Envelope) (occurredAt : Time)
  | expunge (gone : List Nat)
  | rebuild (uidvalidity : Nat) (box : Mailbox)
  | connect (party : Party)
  | writeUidvalidity (party : Party)
  | writeHighest (party : Party)
  | readCursor (party : Party)
  | compare (party : Party)
  | advance (party : Party)
  | drop (party : Party)

def set (s : Epochs) (party : Party) (connection : Connection) : Epochs :=
  { s with connections := Function.update s.connections party connection }

/-- What the server would say now. -/
def now (s : Epochs) : Reading := ⟨s.server.uidvalidity, s.server.box.uidNext⟩

def newUids (s : Epochs) (lastUid : Nat) : List Nat :=
  ImapInput.newUids ⟨none, some lastUid⟩ (s.server.box.messages.map (·.uid))

/-- The events of the messages that a comparison with this UID picks. -/
def batch (f : ImapInput) (s : Epochs) (party : Party) (lastUid : Nat) :
    List (Nat × ObservedEvent) :=
  f.evaluate (s.server.box.messages.filter (·.uid ∈ Race.examined f party (s.newUids lastUid)))

/-- `drop` is a crash, a storage failure or a lost connection. -/
def step (f : ImapInput) (s : Epochs) : Step → Option Epochs
  | .deliver gap envelope occurredAt =>
    some { s with server := s.server.deliver gap envelope occurredAt }
  | .expunge gone => some { s with server := s.server.expunge gone }
  | .rebuild uidvalidity box =>
    if new : s.server.uidvalidity < uidvalidity ∧ 0 < box.uidNext then
      some { s with server := .rebuilt uidvalidity box new.2 }
    else none
  | .connect party =>
    match s.connections party with
    | .closed =>
      match (ImapInput.select s.server.uidvalidity s.server.highestUid s.cursor).2 with
      | .baselining _ highest => some (s.set party (.deciding s.now highest))
      | _ => some (s.set party (.selected s.server.uidvalidity))
    | _ => none
  | .writeUidvalidity party =>
    match s.connections party with
    | .deciding seen highest => some { s.set party (.baselining seen highest) with
        cursor := { s.cursor with uidvalidity := some seen.uidvalidity } }
    | _ => none
  | .writeHighest party =>
    match s.connections party with
    | .baselining seen highest => some { s.set party (.selected seen.uidvalidity) with
        cursor := { s.cursor with lastUid := some highest }
        recorded := some seen }
    | _ => none
  | .readCursor party =>
    match s.connections party, s.cursor.lastUid with
    | .selected uidvalidity, some lastUid =>
      some (s.set party (.comparing uidvalidity lastUid s.recorded))
    | _, _ => none
  | .compare party =>
    match s.connections party with
    | .comparing uidvalidity lastUid _ =>
      if uidvalidity ≠ s.server.uidvalidity then none
      else if (Race.examined f party (s.newUids lastUid)).isEmpty then
        some (s.set party (.selected uidvalidity))
      else some (s.set party (.evaluated s.now (Race.examined f party (s.newUids lastUid))))
    | _ => none
  | .advance party =>
    match s.connections party with
    | .evaluated seen uids => some { s.set party (.selected seen.uidvalidity) with
        cursor := ImapInput.advanceCursor uids s.cursor
        recorded := some seen }
    | _ => none
  | .drop party =>
    match s.connections party with
    | .closed => none
    | _ => some (s.set party .closed)

/-- A comparison uses a UID that was recorded under the UID validity the server reports;
no message that was there at the rebuild is emitted, and none is left out that came since
that UID was read. -/
def ComparesInEpoch (f : ImapInput) (s : Epochs) : Step → Prop
  | .compare party =>
    match s.connections party with
    | .comparing uidvalidity lastUid recorded => uidvalidity = s.server.uidvalidity →
      ∃ seen, recorded = some seen ∧ seen.uidvalidity = s.server.uidvalidity ∧
        (∀ event ∈ s.batch f party lastUid, event.1 ∉ s.server.present) ∧
        ∀ message ∈ s.server.box.messages, seen.uidNext ≤ message.uid →
          message.uid ∈ s.newUids lastUid
    | _ => True
  | _ => True

/-- The party writes the highest UID next, for the folder as it is now. -/
def Baselines (s : Epochs) (party : Party) : Prop :=
  match s.connections party with
  | .baselining seen _ => seen.uidvalidity = s.server.uidvalidity
  | _ => False

/-- The party works with the cursor, in the folder as it is now. -/
def Uses (s : Epochs) (party : Party) : Prop :=
  match s.connections party with
  | .selected uidvalidity | .comparing uidvalidity _ _ => uidvalidity = s.server.uidvalidity
  | .evaluated seen _ => seen.uidvalidity = s.server.uidvalidity
  | _ => False

/-- The stored last UID was recorded under the UID validity the server reports. -/
def InEpoch (s : Epochs) : Prop :=
  s.cursor.lastUid.isSome ∧ s.recorded.map (·.uidvalidity) = some s.server.uidvalidity

/-- The stored last UID is of an earlier epoch. -/
def Stale (s : Epochs) : Prop :=
  s.cursor.lastUid.isSome ∧ s.recorded.map (·.uidvalidity) ≠ some s.server.uidvalidity

/-- While a UID of an earlier epoch is stored, no party stops between its two writes, nor
connects when the other is between them. None writes a UID of an earlier epoch where it
would be taken for one of the present. -/
def Uncut (s : Epochs) : Step → Prop
  | .drop party => s.Stale → s.Baselines party → s.Baselines party.other
  | .connect party => ¬ (s.Stale ∧ s.Baselines party.other)
  | .writeHighest party | .advance party => s.Baselines party ∨ s.Uses party ∨
    ¬ s.Uses party.other ∧
      (s.cursor.uidvalidity = some s.server.uidvalidity → s.Baselines party.other)
  | _ => True

/-- Nothing is connected, and what is stored was recorded together, from this folder. -/
structure Coherent (s : Epochs) : Prop where
  closed : ∀ party, s.connections party = .closed
  together : s.recorded.map (·.uidvalidity) = s.cursor.lastUid.bind fun _ => s.cursor.uidvalidity
  earlier : ∀ uidvalidity, s.cursor.uidvalidity = some uidvalidity →
    uidvalidity ≤ s.server.uidvalidity
  covers : ∀ lastUid seen, s.cursor.lastUid = some lastUid → s.recorded = some seen →
    seen.uidvalidity = s.server.uidvalidity → s.server.Covers seen lastUid

instance (s : Epochs) (party : Party) : Decidable (s.Baselines party) := by
  unfold Baselines; split <;> infer_instance

instance (s : Epochs) (party : Party) : Decidable (s.Uses party) := by
  unfold Uses; split <;> infer_instance

instance (s : Epochs) : Decidable s.Stale := inferInstanceAs (Decidable (_ ∧ _))

instance (s : Epochs) (a : Step) : Decidable (Uncut s a) := by
  unfold Uncut; split <;> infer_instance

section Safety

variable {f : ImapInput} {s t : Epochs} {party : Party}

/-- What a connection knows is true of the epoch it belongs to. -/
def Fits (s : Epochs) : Connection → Prop
  | .closed => True
  | .deciding seen highest | .baselining seen highest =>
    seen.uidvalidity ≤ s.server.uidvalidity ∧
    (seen.uidvalidity = s.server.uidvalidity → s.server.Covers seen highest)
  | .selected uidvalidity => uidvalidity ≤ s.server.uidvalidity ∧
    (uidvalidity = s.server.uidvalidity → s.InEpoch)
  | .comparing uidvalidity lastUid recorded => uidvalidity ≤ s.server.uidvalidity ∧
    (uidvalidity = s.server.uidvalidity → s.InEpoch ∧ ∃ seen, recorded = some seen ∧
      seen.uidvalidity = s.server.uidvalidity ∧ s.server.Covers seen lastUid)
  | .evaluated seen uids => seen.uidvalidity ≤ s.server.uidvalidity ∧
    ∃ highest, uids.max? = some highest ∧
      (seen.uidvalidity = s.server.uidvalidity → s.InEpoch ∧ s.server.Covers seen highest)

/-- A pair of rows that a connection would accept is of the present epoch, or about to be. -/
structure Aligned (s : Epochs) : Prop where
  earlier : ∀ uidvalidity, s.cursor.uidvalidity = some uidvalidity →
    uidvalidity ≤ s.server.uidvalidity
  older : ∀ seen, s.recorded = some seen → seen.uidvalidity ≤ s.server.uidvalidity
  covers : ∀ lastUid seen, s.cursor.lastUid = some lastUid → s.recorded = some seen →
    seen.uidvalidity = s.server.uidvalidity → s.server.Covers seen lastUid
  stored : s.cursor.uidvalidity = some s.server.uidvalidity → s.Stale → ∃ party, s.Baselines party
  fits : ∀ party, s.Fits (s.connections party)

theorem Coherent.aligned (coherent : Coherent s) : Aligned s where
  earlier := coherent.earlier
  older := by
    intro seen recorded
    have together := coherent.together
    rw [recorded] at together
    cases stored : s.cursor.lastUid with
    | none => simp [stored] at together
    | some lastUid =>
      rw [stored] at together
      exact coherent.earlier _ together.symm
  covers := coherent.covers
  stored := by
    rintro same ⟨known, other⟩
    obtain ⟨lastUid, stored⟩ := Option.isSome_iff_exists.mp known
    refine absurd (coherent.together.trans ?_) other
    rw [stored]
    exact same
  fits := by
    intro party
    rw [coherent.closed party]
    trivial

theorem set_self (s : Epochs) (party : Party) (connection : Connection) :
    (s.set party connection).connections party = connection := Function.update_self ..

theorem set_other (s : Epochs) (party : Party) (connection : Connection) :
    (s.set party connection).connections party.other = s.connections party.other :=
  Function.update_of_ne (Race.other_ne party) ..

theorem Aligned.set {connection : Connection} (aligned : Aligned s) (fits : s.Fits connection)
    (left : s.Stale → s.Baselines party → s.Baselines party.other) :
    Aligned (s.set party connection) where
  earlier := aligned.earlier
  older := aligned.older
  covers := aligned.covers
  stored := by
    intro same stale
    have another : ∃ p, p ≠ party ∧ s.Baselines p := by
      obtain ⟨p, writes⟩ := aligned.stored same stale
      by_cases self : p = party
      · subst self
        exact ⟨p.other, Race.other_ne p, left stale writes⟩
      · exact ⟨p, self, writes⟩
    obtain ⟨p, distinct, writes⟩ := another
    refine ⟨p, ?_⟩
    have unchanged : (s.set party connection).connections p = s.connections p :=
      Function.update_of_ne distinct ..
    unfold Baselines
    rw [unchanged]
    exact writes
  fits := by
    intro p
    rcases Race.party_cases party p with rfl | rfl
    · rw [set_self]
      exact fits
    · rw [set_other]
      exact aligned.fits _

/-- The messages of the folder come and go, in one epoch. -/
theorem Aligned.served {server : Server} (aligned : Aligned s)
    (same : server.uidvalidity = s.server.uidvalidity)
    (kept : ∀ seen uid, s.server.Covers seen uid → server.Covers seen uid) :
    Aligned { s with server := server } where
  earlier := by rw [same]; exact aligned.earlier
  older := by rw [same]; exact aligned.older
  covers := by
    rw [same]
    exact fun lastUid seen stored recorded epoch => kept _ _ (aligned.covers _ _ stored recorded epoch)
  stored := by
    have stored := aligned.stored
    unfold Stale Baselines at stored ⊢
    rwa [same]
  fits := by
    intro p
    have fits := aligned.fits p
    show Fits _ (s.connections p)
    cases connection : s.connections p <;> rw [connection] at fits <;>
      simp only [Fits, InEpoch, same] at fits ⊢
    case deciding | baselining => exact ⟨fits.1, fun epoch => kept _ _ (fits.2 epoch)⟩
    case selected => exact fits
    case comparing =>
      refine ⟨fits.1, fun epoch => ?_⟩
      obtain ⟨current, seen, recorded, same, covers⟩ := fits.2 epoch
      exact ⟨current, seen, recorded, same, kept _ _ covers⟩
    case evaluated =>
      obtain ⟨highest, known, covers⟩ := fits.2
      exact ⟨fits.1, highest, known, fun epoch => (covers epoch).imp_right (kept _ _)⟩

theorem Server.Covers.delivered {server : Server} {seen : Reading} {uid gap : Nat}
    {envelope : Option Envelope} {occurredAt : Time} (covers : server.Covers seen uid) :
    (server.deliver gap envelope occurredAt).Covers seen uid := by
  obtain ⟨given, asked, above⟩ := covers
  refine ⟨given, asked.trans (Nat.le_succ_of_le (Nat.le_add_right _ _)), ?_⟩
  intro message member present
  rcases List.mem_append.mp member with known | new
  · exact above message known present
  · have before := server.present_below _ present
    rw [List.mem_singleton.mp new] at before
    exact absurd before (not_lt.mpr (Nat.le_add_right _ _))

/-- After a rebuild nothing that is stored or known is of the present epoch. -/
theorem Aligned.rebuilt {server : Server} (aligned : Aligned s)
    (newer : s.server.uidvalidity < server.uidvalidity) :
    Aligned { s with server := server } where
  earlier uidvalidity stored := (aligned.earlier _ stored).trans newer.le
  older seen recorded := (aligned.older _ recorded).trans newer.le
  covers lastUid seen _ recorded epoch :=
    absurd ((aligned.older _ recorded).trans_lt newer) (epoch ▸ lt_irrefl _)
  stored same _ := absurd ((aligned.earlier _ same).trans_lt newer) (lt_irrefl _)
  fits := by
    intro p
    have fits := aligned.fits p
    show Fits _ (s.connections p)
    have never {epoch : Nat} (old : epoch ≤ s.server.uidvalidity) : epoch ≠ server.uidvalidity :=
      (old.trans_lt newer).ne
    cases connection : s.connections p <;> rw [connection] at fits
    case closed => trivial
    case deciding | baselining | selected | comparing =>
      exact ⟨fits.1.trans newer.le, fun epoch => absurd epoch (never fits.1)⟩
    case evaluated =>
      obtain ⟨highest, known, -⟩ := fits.2
      exact ⟨fits.1.trans newer.le, highest, known, fun epoch => absurd epoch (never fits.1)⟩

/-- The first of the two rows is written, and the second comes next. -/
theorem Aligned.begun {seen : Reading} {highest : Nat} (aligned : Aligned s)
    (fits : s.Fits (.baselining seen highest)) :
    Aligned { s.set party (.baselining seen highest) with
      cursor := { s.cursor with uidvalidity := some seen.uidvalidity } } where
  earlier := by
    intro uidvalidity stored
    cases stored
    exact fits.1
  older := aligned.older
  covers := aligned.covers
  stored := by
    intro same _
    refine ⟨party, ?_⟩
    unfold Baselines
    rw [show (_ : Epochs).connections party = _ from set_self ..]
    exact Option.some.inj same
  fits := by
    intro p
    rcases Race.party_cases party p with rfl | rfl
    · show Fits _ ((s.set p _).connections p)
      rw [set_self]
      exact fits
    · show Fits _ ((s.set party _).connections party.other)
      rw [set_other]
      exact aligned.fits party.other

/-- A party writes a UID, as the one it read at `seen`. -/
theorem Aligned.recorded {seen : Reading} {uid : Nat} (aligned : Aligned s)
    (older : seen.uidvalidity ≤ s.server.uidvalidity)
    (covers : seen.uidvalidity = s.server.uidvalidity → s.server.Covers seen uid)
    (timely : seen.uidvalidity = s.server.uidvalidity ∨ ¬ s.Uses party.other ∧
      (s.cursor.uidvalidity = some s.server.uidvalidity → s.Baselines party.other)) :
    Aligned { s.set party (.selected seen.uidvalidity) with
      cursor := { s.cursor with lastUid := some uid }
      recorded := some seen } where
  earlier := aligned.earlier
  older := by
    intro known recorded
    cases recorded
    exact older
  covers := by
    intro lastUid known stored recorded epoch
    cases stored
    cases recorded
    exact covers epoch
  stored := by
    rintro same ⟨-, stale⟩
    rcases timely with current | ⟨-, writes⟩
    · exact absurd (congrArg some current) stale
    · refine ⟨party.other, ?_⟩
      have next := writes same
      unfold Baselines at next ⊢
      rwa [show (_ : Epochs).connections party.other = _ from set_other ..]
  fits := by
    intro p
    rcases Race.party_cases party p with rfl | rfl
    · show Fits _ ((s.set p _).connections p)
      rw [set_self]
      exact ⟨older, fun epoch => ⟨rfl, congrArg some epoch⟩⟩
    · show Fits _ ((s.set party _).connections party.other)
      rw [set_other]
      have fits := aligned.fits party.other
      have current : s.Uses party.other → seen.uidvalidity = s.server.uidvalidity :=
        fun uses => timely.resolve_right fun late => late.1 uses
      unfold Uses at current
      cases connection : s.connections party.other <;> rw [connection] at fits current
      case closed | deciding | baselining => exact fits
      case selected =>
        exact ⟨fits.1, fun epoch => ⟨rfl, congrArg some (current epoch)⟩⟩
      case comparing =>
        exact ⟨fits.1, fun epoch => ⟨⟨rfl, congrArg some (current epoch)⟩, (fits.2 epoch).2⟩⟩
      case evaluated =>
        obtain ⟨highest, known, inside⟩ := fits.2
        exact ⟨fits.1, highest, known,
          fun epoch => ⟨⟨rfl, congrArg some (current epoch)⟩, (inside epoch).2⟩⟩

theorem mem_newUids {lastUid uid : Nat} : uid ∈ s.newUids lastUid ↔
    lastUid < uid ∧ ∃ message ∈ s.server.box.messages, message.uid = uid := by
  simp only [newUids, ImapInput.newUids, List.mem_insertionSort, List.mem_filter, List.mem_map,
    decide_eq_true_eq]
  exact and_comm

/-- The highest UID in the folder covers all that is in it. -/
theorem highestUid_covers (s : Epochs) : s.server.Covers s.now s.server.highestUid := by
  unfold Server.highestUid
  cases highest : (s.server.box.messages.map (·.uid)).max? with
  | none =>
    have empty := List.map_eq_nil_iff.mp (List.max?_eq_none_iff.mp highest)
    refine ⟨s.server.started, le_rfl, ?_⟩
    rw [empty]
    exact fun _ member => (nomatch member)
  | some uid =>
    obtain ⟨listed, bound⟩ := List.max?_eq_some_iff.mp highest
    obtain ⟨message, known, rfl⟩ := List.mem_map.mp listed
    refine ⟨s.server.box.uids_below message known, le_rfl, fun other member _ => ?_⟩
    exact bound _ (List.mem_map_of_mem member)

/-- A connection is accepted with what is stored only if that is of the present epoch. -/
theorem Aligned.connected (aligned : Aligned s) (closed : s.connections party = .closed)
    (apart : ¬ (s.Stale ∧ s.Baselines party.other)) (stepped : step f s (.connect party) = some t) :
    Aligned t := by
  have idle : ¬ s.Baselines party := by
    unfold Baselines
    rw [closed]
    exact not_false
  simp only [step, closed, ImapInput.select] at stepped
  split at stepped
  · rename_i decided
    cases Option.some.inj stepped
    split at decided
    · cases decided
    · cases decided
      exact aligned.set ⟨le_rfl, fun _ => highestUid_covers s⟩ fun _ writes => absurd writes idle
  · rename_i decided
    cases Option.some.inj stepped
    by_cases accepted : s.cursor.uidvalidity = some s.server.uidvalidity ∧ s.cursor.lastUid.isSome
    · refine aligned.set ⟨le_rfl, fun _ => ?_⟩ fun _ writes => absurd writes idle
      by_contra outside
      have stale : s.Stale := ⟨accepted.2, fun epoch => outside ⟨accepted.2, epoch⟩⟩
      obtain ⟨p, writes⟩ := aligned.stored accepted.1 stale
      rcases Race.party_cases party p with rfl | rfl
      · exact idle writes
      · exact apart ⟨stale, writes⟩
    · rw [if_neg accepted] at decided
      exact absurd rfl (decided _ _)

/-- What is found above a UID of the present epoch is of it too. -/
theorem Aligned.compared {uidvalidity lastUid : Nat} {recorded : Option Reading}
    (aligned : Aligned s) (connection : s.connections party = .comparing uidvalidity lastUid recorded)
    (stepped : step f s (.compare party) = some t) : Aligned t := by
  have fits := aligned.fits party
  rw [connection] at fits
  have idle : ¬ s.Baselines party := by
    unfold Baselines
    rw [connection]
    exact not_false
  simp only [step, connection] at stepped
  split at stepped
  · cases stepped
  · rename_i same
    obtain ⟨inside, seen, -, -, covers⟩ := fits.2 (not_not.mp same)
    split at stepped
    · cases Option.some.inj stepped
      exact aligned.set ⟨fits.1, fun _ => inside⟩ fun _ writes => absurd writes idle
    · rename_i some
      cases Option.some.inj stepped
      refine aligned.set ⟨le_rfl, ?_⟩ fun _ writes => absurd writes idle
      obtain ⟨highest, known⟩ := Option.ne_none_iff_exists'.mp
        (mt List.max?_eq_none_iff.mp (mt List.isEmpty_iff.mpr some))
      have listed := Race.examined_subset f party _ (List.max?_eq_some_iff.mp known).1
      obtain ⟨above, message, member, rfl⟩ := mem_newUids.mp listed
      refine ⟨message.uid, known, fun _ => ⟨inside, s.server.box.uids_below message member, le_rfl, ?_⟩⟩
      exact fun other held present => (covers.2.2 other held present).trans above.le

theorem Aligned.step {a : Step} (aligned : Aligned s) (uncut : Uncut s a)
    (stepped : step f s a = some t) : Aligned t := by
  cases a with
  | deliver gap envelope occurredAt =>
    cases Option.some.inj stepped
    exact aligned.served rfl fun _ _ => Server.Covers.delivered
  | expunge gone =>
    cases Option.some.inj stepped
    refine aligned.served rfl fun seen uid covers => ⟨covers.1, covers.2.1, ?_⟩
    exact fun message member => covers.2.2 message (List.mem_of_mem_filter member)
  | rebuild uidvalidity box =>
    simp only [Epochs.step] at stepped
    split at stepped
    · rename_i new
      cases Option.some.inj stepped
      exact aligned.rebuilt new.1
    · cases stepped
  | connect party =>
    have closed : s.connections party = .closed := by
      simp only [Epochs.step] at stepped
      split at stepped
      · assumption
      · cases stepped
    exact aligned.connected closed uncut stepped
  | writeUidvalidity party =>
    have fits := aligned.fits party
    simp only [Epochs.step] at stepped
    split at stepped
    · rename_i seen highest connection
      cases Option.some.inj stepped
      rw [connection] at fits
      exact aligned.begun fits
    · cases stepped
  | writeHighest party =>
    have fits := aligned.fits party
    simp only [Epochs.step] at stepped
    split at stepped
    · rename_i seen highest connection
      cases Option.some.inj stepped
      rw [connection] at fits
      refine aligned.recorded fits.1 fits.2 ?_
      simp only [Uncut, Baselines, Uses, connection, false_or] at uncut
      exact uncut
    · cases stepped
  | readCursor party =>
    have fits := aligned.fits party
    simp only [Epochs.step] at stepped
    split at stepped
    · rename_i uidvalidity lastUid connection stored
      cases Option.some.inj stepped
      rw [connection] at fits
      refine aligned.set ⟨fits.1, fun epoch => ⟨fits.2 epoch, ?_⟩⟩ fun _ writes => ?_
      · obtain ⟨seen, recorded, same⟩ := Option.map_eq_some_iff.mp (fits.2 epoch).2
        exact ⟨seen, recorded, same, aligned.covers lastUid seen stored recorded same⟩
      · simp only [Baselines, connection] at writes
    · cases stepped
  | compare party =>
    cases connection : s.connections party with
    | comparing uidvalidity lastUid recorded => exact aligned.compared connection stepped
    | _ => simp [Epochs.step, connection] at stepped
  | advance party =>
    have fits := aligned.fits party
    simp only [Epochs.step] at stepped
    split at stepped
    · rename_i seen uids connection
      cases Option.some.inj stepped
      rw [connection] at fits
      obtain ⟨older, highest, known, inside⟩ := fits
      simp only [ImapInput.advanceCursor, known]
      refine aligned.recorded older (fun epoch => (inside epoch).2) ?_
      simp only [Uncut, Baselines, Uses, connection, false_or] at uncut
      exact uncut
    · cases stepped
  | drop party =>
    simp only [Epochs.step] at stepped
    split at stepped
    · cases stepped
    · cases Option.some.inj stepped
      exact aligned.set trivial uncut

theorem Aligned.comparesInEpoch (aligned : Aligned s) (a : Step) : ComparesInEpoch f s a := by
  cases a with
  | compare party =>
    have fits := aligned.fits party
    cases connection : s.connections party with
    | comparing uidvalidity lastUid recorded =>
      simp only [ComparesInEpoch, connection]
      intro same
      rw [connection] at fits
      obtain ⟨-, seen, known, epoch, below, -, above⟩ := fits.2 same
      refine ⟨seen, known, epoch, ?_, ?_⟩
      · rintro ⟨uid, event⟩ emitted present
        obtain ⟨message, fetched, rfl⟩ := ImapInput.evaluate_fetched emitted
        obtain ⟨member, examined⟩ := List.mem_filter.mp fetched
        have found := Race.examined_subset f party _ (of_decide_eq_true examined)
        exact absurd (above message member present) (not_le.mpr (mem_newUids.mp found).1)
      · intro message member later
        exact mem_newUids.mpr ⟨below.trans_le later, message, member, rfl⟩
    | _ => simp only [ComparesInEpoch, connection]
  | _ => trivial

end Safety

/-- In every run in which no re-baselining is cut between its two writes, nothing that was in
the folder at a rebuild is emitted, and nothing that comes later is left out. -/
theorem uncut_compares_in_epoch (f : ImapInput) (s : Epochs) (as : List Step)
    (coherent : Coherent s) (uncut : Throughout (step f) Uncut s as) :
    Throughout (step f) (ComparesInEpoch f) s as :=
  throughout_of_invariant (fun _ _ _ aligned held stepped => aligned.step held stepped)
    (fun _ _ aligned _ => aligned.comparesInEpoch _) coherent.aligned uncut

/- A folder with one message, which the cursor has passed; it is rebuilt with two. -/

def sampleMessage (uid : Nat) : Fetched :=
  ⟨uid, some ⟨"track@ups.com", "Delivered"⟩, 50⟩

def oneMessage : Mailbox where
  messages := [sampleMessage 1]
  uidNext := 2
  uids_nodup := by decide
  uids_below := by decide

def twoMessages : Mailbox where
  messages := [sampleMessage 1, sampleMessage 2]
  uidNext := 3
  uids_nodup := by decide
  uids_below := by decide

def beforeRebuild : Epochs where
  server := ⟨7, oneMessage, [], by decide, by decide⟩
  cursor := ⟨some 7, some 1⟩
  recorded := some ⟨7, 2⟩

theorem beforeRebuild_coherent : Coherent beforeRebuild where
  closed _ := rfl
  together := rfl
  earlier := by decide
  covers := by
    intro lastUid seen stored recorded _
    cases stored
    cases recorded
    exact ⟨by decide, by decide, by decide⟩

/-- A visit of the watch thread up to the comparison. -/
def visit : List Step :=
  [.connect .watch, .writeUidvalidity .watch, .writeHighest .watch, .readCursor .watch]

theorem uncut_visit_compares : Throughout (step Race.sampleReader) (ComparesInEpoch Race.sampleReader)
    beforeRebuild (.rebuild 8 twoMessages :: visit ++ [.deliver 0 none 60, .compare .watch]) :=
  uncut_compares_in_epoch _ _ _ beforeRebuild_coherent (by decide +kernel)

/-- The visit that finds the rebuilt folder is cut between its two writes, and the next one
takes the second message for a new one. -/
theorem cut_rebaselining_emits :
    ¬ ∀ (f : ImapInput) (s : Epochs) (as : List Step), Coherent s →
      Throughout (step f) (ComparesInEpoch f) s as := by
  intro always
  have compares := always Race.sampleReader beforeRebuild
    ([.rebuild 8 twoMessages, .connect .watch, .writeUidvalidity .watch, .drop .watch,
      .connect .watch, .readCursor .watch] ++ [.compare .watch]) beforeRebuild_coherent
  obtain ⟨seen, recorded, same, -⟩ := (throughout_append compares rfl).1 rfl
  cases recorded
  exact absurd same (by decide)

end Epochs

end NotiMapper
