import NotiMapper.Library.Transition
import NotiMapper.Plugins.ImapInput

/-! The cursor of one IMAP input while the daemon starts: the watch thread is already
running when the core thread asks the input to catch up. Both read the cursor, search and
fetch above it, evaluate what they fetched, and write the highest UID back; nothing keeps
one from reading while the other is at work. The folder keeps its UID validity. -/
namespace NotiMapper

open Transition

/-- The folder, where a new message gets a UID above all that were given out before. -/
structure Mailbox where
  messages : List Fetched
  uidNext : Nat
  uids_nodup : (messages.map (·.uid)).Nodup
  uids_below : ∀ message ∈ messages, message.uid < uidNext

/-- A message arrives; a server may leave UIDs out. -/
def Mailbox.deliver (box : Mailbox) (gap : Nat) (envelope : Option Envelope) (occurredAt : Time) :
    Mailbox where
  messages := box.messages ++ [⟨box.uidNext + gap, envelope, occurredAt⟩]
  uidNext := box.uidNext + gap + 1
  uids_nodup := by
    rw [List.map_append, List.nodup_append]
    refine ⟨box.uids_nodup, List.nodup_singleton _, ?_⟩
    rintro old earlier uid member rfl
    obtain ⟨message, known, rfl⟩ := List.mem_map.mp earlier
    have below := box.uids_below message known
    have same : message.uid = box.uidNext + gap := by simpa using member
    omega
  uids_below := by
    intro message member
    rcases List.mem_append.mp member with member | member
    · have below := box.uids_below message member
      omega
    · rw [List.mem_singleton.mp member]
      exact Nat.lt_succ_self _

/-- The verdict on one message, with its UID. -/
def ImapInput.report (f : ImapInput) (message : Fetched) : Option (Nat × ObservedEvent) :=
  message.envelope.bind fun envelope =>
    if !f.matched envelope || f.dryRun then none
    else some (message.uid, ⟨message.occurredAt, f.render envelope message.occurredAt message.uid⟩)

theorem ImapInput.evaluate_eq (f : ImapInput) (fetched : List Fetched) :
    f.evaluate fetched = (fetched.insertionSort (·.uid ≤ ·.uid)).filterMap f.report := rfl

/-- The watch thread's `_process_new`, and the core thread's `catch_up`. -/
inductive Party
  | watch
  | core
  deriving DecidableEq

def Party.other : Party → Party
  | .watch => .core
  | .core => .watch

/-- How far a party is: it has read the cursor, or is evaluating what it fetched. `found`
is the list that `catch_up` will return. -/
inductive Stage
  | idle
  | read (lastUid : Nat)
  | evaluating (uids : List Nat) (left : List Fetched) (found : List (Nat × ObservedEvent))

/-- The stored cursor, and for the record what was reported, by `emit` or in a result of
`catch_up`, and what a catch-up left out because of its limit. -/
structure Race where
  box : Mailbox
  lastUid : Nat
  stages : Party → Stage := fun _ => .idle
  reported : List (Nat × ObservedEvent) := []
  leftOut : List Nat := []

namespace Race

inductive Step
  | deliver (gap : Nat) (envelope : Option Envelope) (occurredAt : Time)
  | read (party : Party)
  | search (party : Party)
  | evaluate (party : Party)
  | write (party : Party)

def setStage (s : Race) (party : Party) (stage : Stage) : Race :=
  { s with stages := Function.update s.stages party stage }

/-- The UIDs above a cursor, in order. -/
def above (s : Race) (lastUid : Nat) : List Nat :=
  ImapInput.newUids ⟨none, some lastUid⟩ (s.box.messages.map (·.uid))

/-- Of these, what the party examines: a catch-up is limited to the newest. -/
def examined (f : ImapInput) (party : Party) (uids : List Nat) : List Nat :=
  match party with
  | .watch => uids
  | .core => f.newest uids

def fetch (s : Race) (uids : List Nat) : List Fetched :=
  (s.box.messages.filter (·.uid ∈ uids)).insertionSort (·.uid ≤ ·.uid)

def step (f : ImapInput) (s : Race) : Step → Option Race
  | .deliver gap envelope occurredAt => some { s with box := s.box.deliver gap envelope occurredAt }
  | .read party =>
    match s.stages party with
    | .idle => some (s.setStage party (.read s.lastUid))
    | _ => none
  | .search party =>
    match s.stages party with
    | .read lastUid =>
      let uids := examined f party (s.above lastUid)
      if uids.isEmpty then some (s.setStage party .idle)
      else some { s.setStage party (.evaluating uids (s.fetch uids) []) with
        leftOut := s.leftOut ++ (s.above lastUid).filter (· ∉ uids) }
    | _ => none
  | .evaluate party =>
    match s.stages party with
    | .evaluating uids (message :: left) found =>
      match party with
      | .watch => some { s.setStage party (.evaluating uids left found) with
          reported := s.reported ++ (f.report message).toList }
      | .core => some (s.setStage party (.evaluating uids left (found ++ (f.report message).toList)))
    | _ => none
  | .write party =>
    match s.stages party with
    | .evaluating uids [] found => some { s.setStage party .idle with
        lastUid := uids.max?.getD s.lastUid
        reported := s.reported ++ found }
    | _ => none

/-- The cursor does not move back. -/
def Forward (f : ImapInput) (s : Race) (a : Step) : Prop :=
  ∀ t, step f s a = some t → s.lastUid ≤ t.lastUid

/-- Nothing is reported twice, nothing but matches above the initial cursor, and each of
those that the cursor has passed, unless a catch-up left it out. -/
structure ReportsOnce (f : ImapInput) (initial : Nat) (s : Race) : Prop where
  nodup : (s.reported.map (·.1)).Nodup
  genuine : ∀ report ∈ s.reported, ∃ message ∈ s.box.messages, initial < message.uid ∧
    f.report message = some report
  complete : ∀ message ∈ s.box.messages, initial < message.uid → message.uid ≤ s.lastUid →
    ∀ report, f.report message = some report → report ∈ s.reported ∨ message.uid ∈ s.leftOut

/-- A party reads the cursor only while the other is not at work. -/
def Alone (s : Race) : Step → Prop
  | .read party => s.stages party.other = .idle
  | _ => True

instance (stage : Stage) : Decidable (stage = .idle) :=
  match stage with
  | .idle => isTrue rfl
  | .read _ => isFalse nofun
  | .evaluating _ _ _ => isFalse nofun

instance (s : Race) (a : Step) : Decidable (Alone s a) :=
  match a with
  | .read party => inferInstanceAs (Decidable (s.stages party.other = .idle))
  | .deliver _ _ _ | .search _ | .evaluate _ | .write _ => isTrue trivial

section Safety

variable {f : ImapInput} {initial : Nat} {s t : Race} {party : Party}

/-- Nobody is between a search and a write. -/
structure Quiet (f : ImapInput) (initial : Nat) (s : Race) : Prop extends
    ReportsOnce f initial s where
  passed : ∀ report ∈ s.reported, report.1 ≤ s.lastUid
  cursor : initial ≤ s.lastUid ∧ (s.lastUid = initial ∨ s.lastUid < s.box.uidNext)

/-- One party is evaluating: `total` is what was reported, with what it will return. -/
structure Working (f : ImapInput) (initial : Nat) (s : Race) (total : List (Nat × ObservedEvent))
    (uids : List Nat) (left : List Fetched) : Prop where
  cursor : initial ≤ s.lastUid ∧ (s.lastUid = initial ∨ s.lastUid < s.box.uidNext)
  busy : uids ≠ []
  above : ∀ uid ∈ uids, s.lastUid < uid ∧ uid < s.box.uidNext
  left_fetched : ∀ message ∈ left, message ∈ s.box.messages ∧ message.uid ∈ uids
  left_nodup : (left.map (·.uid)).Nodup
  nodup : (total.map (·.1)).Nodup
  genuine : ∀ report ∈ total, ∃ message ∈ s.box.messages, initial < message.uid ∧
    f.report message = some report
  done : ∀ report ∈ total, report.1 ≤ s.lastUid ∨ report.1 ∈ uids ∧ report.1 ∉ left.map (·.uid)
  complete : ∀ message ∈ s.box.messages, initial < message.uid → message.uid ≤ s.lastUid →
    ∀ report, f.report message = some report → report ∈ s.reported ∨ message.uid ∈ s.leftOut
  covered : ∀ message ∈ s.box.messages, s.lastUid < message.uid →
    message.uid ∈ s.leftOut ∨ (∀ uid ∈ uids, uid < message.uid) ∨
    message ∈ left ∨ (∀ report, f.report message = some report → report ∈ total)

/-- At most one party is at work at a time. -/
inductive Orderly (f : ImapInput) (initial : Nat) (s : Race) : Prop
  | resting (idle : ∀ party, s.stages party = .idle) (quiet : Quiet f initial s)
  | reading (party : Party) (stage : s.stages party = .read s.lastUid)
      (idle : s.stages party.other = .idle) (quiet : Quiet f initial s)
  | working (party : Party) (uids : List Nat) (left : List Fetched)
      (found : List (Nat × ObservedEvent))
      (stage : s.stages party = .evaluating uids left found)
      (idle : s.stages party.other = .idle) (emits : party = .watch → found = [])
      (work : Working f initial s (s.reported ++ found) uids left)

theorem report_uid {message : Fetched} {report : Nat × ObservedEvent}
    (reported : f.report message = some report) : report.1 = message.uid := by
  obtain ⟨envelope, -, made⟩ := Option.bind_eq_some_iff.mp reported
  split at made
  · cases made
  · cases made
    rfl

theorem party_cases (party p : Party) : p = party ∨ p = party.other := by
  cases party <;> cases p <;> simp [Party.other]

theorem other_ne (party : Party) : party.other ≠ party := by
  cases party <;> simp [Party.other]

theorem setStage_self (s : Race) (party : Party) (stage : Stage) :
    (s.setStage party stage).stages party = stage := Function.update_self ..

theorem setStage_other (s : Race) (party : Party) (stage : Stage) :
    (s.setStage party stage).stages party.other = s.stages party.other :=
  Function.update_of_ne (other_ne party) ..

/-- If one party rests and the other is set to rest, all rest. -/
theorem setStage_idle (idle : s.stages party.other = .idle) (p : Party) :
    (s.setStage party .idle).stages p = .idle := by
  rcases party_cases party p with rfl | rfl
  · exact setStage_self ..
  · exact (setStage_other ..).trans idle

theorem mem_above {lastUid uid : Nat} : uid ∈ s.above lastUid ↔
    lastUid < uid ∧ ∃ message ∈ s.box.messages, message.uid = uid := by
  simp only [above, ImapInput.newUids, List.mem_insertionSort, List.mem_filter, List.mem_map,
    decide_eq_true_eq]
  exact and_comm

theorem mem_fetch {uids : List Nat} {message : Fetched} :
    message ∈ s.fetch uids ↔ message ∈ s.box.messages ∧ message.uid ∈ uids := by
  simp only [fetch, List.mem_insertionSort, List.mem_filter, decide_eq_true_eq]

theorem fetch_nodup (s : Race) (uids : List Nat) : ((s.fetch uids).map (·.uid)).Nodup := by
  have sorted := (List.perm_insertionSort (fun a b : Fetched => a.uid ≤ b.uid)
    (s.box.messages.filter (·.uid ∈ uids))).map (·.uid)
  exact sorted.nodup_iff.mpr (s.box.uids_nodup.sublist (List.filter_sublist.map _))

theorem examined_subset (f : ImapInput) (party : Party) (uids : List Nat) :
    examined f party uids ⊆ uids := by
  cases party with
  | watch => exact List.Subset.refl _
  | core => exact (List.drop_suffix _ _).subset

/-- A message that arrives has a UID that no cursor has passed and no search has found. -/
theorem mem_deliver {gap : Nat} {envelope : Option Envelope} {occurredAt : Time}
    {message : Fetched} (member : message ∈ (s.box.deliver gap envelope occurredAt).messages) :
    message ∈ s.box.messages ∨ s.box.uidNext ≤ message.uid := by
  rcases List.mem_append.mp member with member | member
  · exact .inl member
  · rw [List.mem_singleton.mp member]
    exact .inr (Nat.le_add_right _ _)

/-- Each match that the cursor has passed is accounted for. -/
def Complete (f : ImapInput) (initial : Nat) (s : Race) : Prop :=
  ∀ message ∈ s.box.messages, initial < message.uid → message.uid ≤ s.lastUid →
    ∀ report, f.report message = some report → report ∈ s.reported ∨ message.uid ∈ s.leftOut

section Delivery

variable {gap : Nat} {envelope : Option Envelope} {occurredAt : Time}

theorem Complete.delivered (complete : Complete f initial s)
    (cursor : s.lastUid = initial ∨ s.lastUid < s.box.uidNext) :
    Complete f initial { s with box := s.box.deliver gap envelope occurredAt } := by
  intro message member new passed
  rcases mem_deliver member with known | fresh
  · exact complete message known new passed
  · rcases cursor with still | below
    · exact absurd (passed.trans_eq still) (not_le.mpr new)
    · exact absurd (fresh.trans passed) (not_le.mpr below)

theorem cursor_delivered (cursor : initial ≤ s.lastUid ∧
    (s.lastUid = initial ∨ s.lastUid < s.box.uidNext)) : initial ≤ s.lastUid ∧
    (s.lastUid = initial ∨ s.lastUid < (s.box.deliver gap envelope occurredAt).uidNext) := by
  refine ⟨cursor.1, cursor.2.imp_right fun below => ?_⟩
  exact below.trans_le (Nat.le_succ_of_le (Nat.le_add_right _ _))

theorem genuine_delivered {reports : List (Nat × ObservedEvent)}
    (genuine : ∀ report ∈ reports, ∃ message ∈ s.box.messages, initial < message.uid ∧
      f.report message = some report) :
    ∀ report ∈ reports, ∃ message ∈ (s.box.deliver gap envelope occurredAt).messages,
      initial < message.uid ∧ f.report message = some report := by
  intro report member
  obtain ⟨message, known, facts⟩ := genuine report member
  exact ⟨message, List.mem_append_left _ known, facts⟩

theorem Quiet.delivered (quiet : Quiet f initial s) :
    Quiet f initial { s with box := s.box.deliver gap envelope occurredAt } where
  nodup := quiet.nodup
  genuine := genuine_delivered quiet.genuine
  complete := Complete.delivered quiet.complete quiet.cursor.2
  passed := quiet.passed
  cursor := cursor_delivered quiet.cursor

theorem Working.delivered {total : List (Nat × ObservedEvent)} {uids : List Nat}
    {left : List Fetched} (work : Working f initial s total uids left) :
    Working f initial { s with box := s.box.deliver gap envelope occurredAt } total uids left where
  cursor := cursor_delivered work.cursor
  busy := work.busy
  above := by
    intro uid member
    obtain ⟨new, below⟩ := work.above uid member
    exact ⟨new, below.trans_le (Nat.le_succ_of_le (Nat.le_add_right _ _))⟩
  left_fetched := by
    intro message member
    obtain ⟨known, listed⟩ := work.left_fetched message member
    exact ⟨List.mem_append_left _ known, listed⟩
  left_nodup := work.left_nodup
  nodup := work.nodup
  genuine := genuine_delivered work.genuine
  done := work.done
  complete := Complete.delivered work.complete work.cursor.2
  covered := by
    intro message member new
    rcases mem_deliver member with known | fresh
    · exact work.covered message known new
    · exact .inr (.inl fun uid listed => (work.above uid listed).2.trans_le fresh)

end Delivery

/-- The party has searched above the cursor and fetched what it will examine. -/
theorem Quiet.searched (quiet : Quiet f initial s) (party : Party)
    (some : examined f party (s.above s.lastUid) ≠ []) :
    Working f initial { s with leftOut := s.leftOut ++
        (s.above s.lastUid).filter (· ∉ examined f party (s.above s.lastUid)) }
      s.reported (examined f party (s.above s.lastUid))
      (s.fetch (examined f party (s.above s.lastUid))) where
  cursor := quiet.cursor
  busy := some
  above := by
    intro uid member
    obtain ⟨new, message, known, rfl⟩ := mem_above.mp (examined_subset f party _ member)
    exact ⟨new, s.box.uids_below message known⟩
  left_fetched := fun message member => mem_fetch.mp member
  left_nodup := fetch_nodup s _
  nodup := quiet.nodup
  genuine := quiet.genuine
  done := fun report member => .inl (quiet.passed report member)
  complete := by
    intro message known new passed report reported
    rcases quiet.complete message known new passed report reported with told | out
    · exact .inl told
    · exact .inr (List.mem_append_left _ out)
  covered := by
    intro message known new
    have found : message.uid ∈ s.above s.lastUid := mem_above.mpr ⟨new, message, known, rfl⟩
    by_cases taken : message.uid ∈ examined f party (s.above s.lastUid)
    · exact .inr (.inr (.inl (mem_fetch.mpr ⟨known, taken⟩)))
    · exact .inl (List.mem_append_right _ (List.mem_filter.mpr ⟨found, by simpa using taken⟩))

/-- The next message gets its verdict. -/
theorem Working.evaluated {total : List (Nat × ObservedEvent)} {uids : List Nat}
    {message : Fetched} {left : List Fetched}
    (work : Working f initial s total uids (message :: left)) :
    Working f initial s (total ++ (f.report message).toList) uids left := by
  obtain ⟨known, listed⟩ := work.left_fetched message List.mem_cons_self
  have fresh := work.left_nodup
  rw [List.map_cons, List.nodup_cons] at fresh
  have new := (work.above _ listed).1
  have told : ∀ report ∈ (f.report message).toList, f.report message = some report :=
    fun report member => Option.mem_toList.mp member
  have others : ∀ report ∈ total, report.1 ≠ message.uid := by
    intro report member same
    rcases work.done report member with passed | ⟨_, gone⟩
    · exact absurd (same ▸ passed) (not_le.mpr new)
    · exact gone (same ▸ List.mem_cons_self)
  constructor
  case cursor => exact work.cursor
  case busy => exact work.busy
  case above => exact work.above
  case left_fetched => exact fun m member => work.left_fetched m (List.mem_cons_of_mem _ member)
  case left_nodup => exact fresh.2
  case complete => exact work.complete
  case nodup =>
    rw [List.map_append, List.nodup_append]
    refine ⟨work.nodup, ?_, ?_⟩
    · cases f.report message <;> simp
    · rintro old earlier uid member rfl
      obtain ⟨before, held, rfl⟩ := List.mem_map.mp earlier
      obtain ⟨report, made, same⟩ := List.mem_map.mp member
      exact others before held (same ▸ report_uid (told report made))
  case genuine =>
    intro report member
    rcases List.mem_append.mp member with member | member
    · exact work.genuine report member
    · exact ⟨message, known, work.cursor.1.trans_lt new, told report member⟩
  case done =>
    intro report member
    rcases List.mem_append.mp member with member | member
    · refine (work.done report member).imp_right fun ⟨examined, gone⟩ => ⟨examined, ?_⟩
      exact fun later => gone (List.mem_cons_of_mem _ later)
    · rw [report_uid (told report member)]
      exact .inr ⟨listed, fresh.1⟩
  case covered =>
    intro m member above
    rcases work.covered m member above with out | later | held | done
    · exact .inl out
    · exact .inr (.inl later)
    · rcases List.mem_cons.mp held with rfl | held
      · exact .inr (.inr (.inr fun report made => List.mem_append_right _ (by simp [made])))
      · exact .inr (.inr (.inl held))
    · exact .inr (.inr (.inr fun report made => List.mem_append_left _ (done report made)))

/-- The party writes the highest UID it examined. -/
theorem Working.written {found : List (Nat × ObservedEvent)} {uids : List Nat}
    (work : Working f initial s (s.reported ++ found) uids []) :
    s.lastUid ≤ uids.max?.getD s.lastUid ∧
    Quiet f initial { s with lastUid := uids.max?.getD s.lastUid, reported := s.reported ++ found } := by
  obtain ⟨highest, known⟩ : ∃ highest, uids.max? = some highest :=
    Option.ne_none_iff_exists'.mp (mt List.max?_eq_none_iff.mp work.busy)
  obtain ⟨listed, bound⟩ := List.max?_eq_some_iff.mp known
  obtain ⟨above, below⟩ := work.above highest listed
  rw [known, Option.getD_some]
  refine ⟨above.le, ⟨work.nodup, work.genuine, ?_⟩, ?_,
    work.cursor.1.trans above.le, .inr below⟩
  · intro message member new passed report made
    by_cases old : message.uid ≤ s.lastUid
    · exact (work.complete message member new old report made).imp_left (List.mem_append_left _)
    · rcases work.covered message member (not_le.mp old) with out | later | held | done
      · exact .inr out
      · exact absurd passed (not_le.mpr (later highest listed))
      · cases held
      · exact .inl (done report made)
  · intro report member
    rcases work.done report member with passed | ⟨examined, -⟩
    · exact passed.trans above.le
    · exact bound _ examined

theorem Quiet.staged (quiet : Quiet f initial s) (p : Party) (stage : Stage) :
    Quiet f initial (s.setStage p stage) :=
  ⟨⟨quiet.nodup, quiet.genuine, quiet.complete⟩, quiet.passed, quiet.cursor⟩

theorem Working.staged {total : List (Nat × ObservedEvent)} {uids : List Nat}
    {left : List Fetched} (work : Working f initial s total uids left) (p : Party) (stage : Stage)
    (reported : List (Nat × ObservedEvent)) (more : s.reported ⊆ reported) :
    Working f initial { s.setStage p stage with reported := reported } total uids left :=
  ⟨work.cursor, work.busy, work.above, work.left_fetched, work.left_nodup, work.nodup,
    work.genuine, work.done,
    fun message member new passed report made =>
      (work.complete message member new passed report made).imp_left (more ·),
    work.covered⟩

theorem Working.reportsOnce {found : List (Nat × ObservedEvent)} {uids : List Nat}
    {left : List Fetched} (work : Working f initial s (s.reported ++ found) uids left) :
    ReportsOnce f initial s where
  nodup := work.nodup.sublist ((List.sublist_append_left _ _).map _)
  genuine := fun report member => work.genuine report (List.mem_append_left _ member)
  complete := work.complete

theorem Orderly.reportsOnce (orderly : Orderly f initial s) : ReportsOnce f initial s := by
  cases orderly with
  | resting _ quiet => exact quiet.toReportsOnce
  | reading _ _ _ quiet => exact quiet.toReportsOnce
  | working _ _ _ _ _ _ _ work => exact work.reportsOnce

/-- The party that is not idle is the one at work. -/
theorem Orderly.busy (orderly : Orderly f initial s) {party : Party} {stage : Stage}
    (at_stage : s.stages party = stage) (busy : stage ≠ .idle) :
    s.stages party.other = .idle ∧
    ((stage = .read s.lastUid ∧ Quiet f initial s) ∨
      ∃ uids left found, stage = .evaluating uids left found ∧ (party = .watch → found = []) ∧
        Working f initial s (s.reported ++ found) uids left) := by
  cases orderly with
  | resting idle quiet => exact absurd (at_stage.symm.trans (idle party)) busy
  | reading p reading idle quiet =>
    rcases party_cases p party with rfl | rfl
    · exact ⟨idle, .inl ⟨at_stage.symm.trans reading, quiet⟩⟩
    · exact absurd (at_stage.symm.trans idle) busy
  | working p uids left found working idle emits work =>
    rcases party_cases p party with rfl | rfl
    · exact ⟨idle, .inr ⟨uids, left, found, at_stage.symm.trans working, emits, work⟩⟩
    · exact absurd (at_stage.symm.trans idle) busy

theorem Orderly.rests (orderly : Orderly f initial s) {party : Party}
    (idle : s.stages party = .idle) (other : s.stages party.other = .idle) : Quiet f initial s := by
  have all : ∀ p, s.stages p = .idle := by
    intro p
    rcases party_cases party p with rfl | rfl
    · exact idle
    · exact other
  cases orderly with
  | resting _ quiet => exact quiet
  | reading _ _ _ quiet => exact quiet
  | working p _ _ _ working => exact absurd ((all p).symm.trans working) (by simp)

theorem Orderly.stepped {a : Step} (orderly : Orderly f initial s) (alone : Alone s a)
    (stepped : step f s a = some t) : Orderly f initial t ∧ s.lastUid ≤ t.lastUid := by
  cases a with
  | deliver gap envelope occurredAt =>
    cases Option.some.inj stepped
    refine ⟨?_, le_refl _⟩
    cases orderly with
    | resting idle quiet => exact .resting idle quiet.delivered
    | reading p reading idle quiet => exact .reading p reading idle quiet.delivered
    | working p uids left found working idle emits work =>
      exact .working p uids left found working idle emits work.delivered
  | read party =>
    simp only [step] at stepped
    split at stepped
    · rename_i idle
      cases Option.some.inj stepped
      have quiet := orderly.rests idle alone
      refine ⟨.reading party (setStage_self ..) ?_ (quiet.staged ..), le_refl _⟩
      exact (setStage_other ..).trans alone
    · cases stepped
  | search party =>
    simp only [step] at stepped
    split at stepped
    · rename_i lastUid reading
      obtain ⟨idle, ⟨here, quiet⟩ | ⟨_, _, _, evaluating, -⟩⟩ := orderly.busy reading (by simp)
      · cases here
        split at stepped
        · cases Option.some.inj stepped
          exact ⟨.resting (setStage_idle idle) (quiet.staged ..), le_refl _⟩
        · rename_i some
          rw [List.isEmpty_iff] at some
          cases Option.some.inj stepped
          refine ⟨.working party _ _ [] (setStage_self ..) ((setStage_other ..).trans idle)
            (fun _ => rfl) ?_, le_refl _⟩
          rw [List.append_nil]
          exact (quiet.searched party some).staged party _ s.reported (List.Subset.refl _)
      · cases evaluating
    · cases stepped
  | evaluate party =>
    simp only [step] at stepped
    split at stepped
    · rename_i uids message left found evaluating
      obtain ⟨idle, ⟨here, -⟩ | ⟨_, _, _, here, emits, work⟩⟩ := orderly.busy evaluating (by simp)
      · cases here
      · cases here
        have next := work.evaluated
        cases party with
        | watch =>
          cases Option.some.inj stepped
          cases emits rfl
          refine ⟨.working .watch uids left [] (setStage_self s .watch _)
            ((setStage_other s .watch (.evaluating uids left [])).trans idle) (fun _ => rfl) ?_, le_refl _⟩
          rw [List.append_nil] at next ⊢
          exact next.staged .watch _ _ (List.subset_append_left _ _)
        | core =>
          cases Option.some.inj stepped
          refine ⟨.working .core uids left _ (setStage_self ..) ((setStage_other ..).trans idle)
            (fun h => nomatch h) ?_, le_refl _⟩
          rw [List.append_assoc] at next
          exact next.staged .core _ s.reported (List.Subset.refl _)
    · cases stepped
  | write party =>
    simp only [step] at stepped
    split at stepped
    · rename_i uids found evaluating
      obtain ⟨idle, ⟨here, -⟩ | ⟨_, _, _, here, -, work⟩⟩ := orderly.busy evaluating (by simp)
      · cases here
      · cases here
        cases Option.some.inj stepped
        obtain ⟨forward, quiet⟩ := work.written
        exact ⟨.resting (setStage_idle idle) (quiet.staged party .idle), forward⟩
    · cases stepped

/-- The start: nobody is at work, and nothing has been reported. -/
def start (box : Mailbox) (lastUid : Nat) : Race := { box := box, lastUid := lastUid }

theorem start_orderly (f : ImapInput) (box : Mailbox) (lastUid : Nat) :
    Orderly f lastUid (start box lastUid) := by
  refine .resting (fun _ => rfl) ⟨⟨List.nodup_nil, ?_, ?_⟩, ?_, le_refl _, .inl rfl⟩
  · exact fun _ member => (nomatch member)
  · exact fun message _ new passed => absurd passed (not_le.mpr new)
  · exact fun _ member => (nomatch member)

/-- In every run in which a party reads the cursor only while the other is not at work, the
cursor never moves back and each match it passes is reported once. -/
theorem cursor_safe (f : ImapInput) (box : Mailbox) (initial : Nat) (steps : List Step)
    (alone : Throughout (step f) Alone (start box initial) steps) :
    Throughout (step f) (Forward f) (start box initial) steps ∧
    Always (step f) (ReportsOnce f initial) (start box initial) steps := by
  have kept : ∀ s a t, Orderly f initial s → Alone s a → step f s a = some t →
      Orderly f initial t := fun s a t orderly alone stepped => (orderly.stepped alone stepped).1
  have orderly := start_orderly f box initial
  refine ⟨throughout_of_invariant kept ?_ orderly alone, ?_⟩
  · exact fun s a orderly alone t stepped => (orderly.stepped alone stepped).2
  · exact always_of_invariant kept (fun s => Orderly.reportsOnce) orderly alone

end Safety

/- A folder with one new message above the cursor, at 4. -/

def sampleBox : Mailbox where
  messages := [⟨5, some ⟨"track@ups.com", "Delivered"⟩, 50⟩]
  uidNext := 6
  uids_nodup := by decide
  uids_below := by decide

def sampleReader : ImapInput where
  matched envelope := envelope.subject = "Delivered"
  render envelope _ _ := envelope.subject

/-- What one party does with one new message. -/
def visit (party : Party) : List Step :=
  [.read party, .search party, .evaluate party, .write party]

/-- The watch thread reads the cursor, finds and reports the message; a catch-up that read
the cursor before it was written reports it again, and when another message has come in
between, the slower write moves the cursor back. -/
def overlapping : List Step :=
  [.read .watch, .search .watch, .evaluate .watch,
    .deliver 0 (some ⟨"track@ups.com", "Delivered"⟩) 60,
    .read .core, .search .core, .evaluate .core, .evaluate .core, .write .core, .write .watch]

theorem overlapping_reads_race :
    ¬ ∀ (f : ImapInput) (box : Mailbox) (initial : Nat) (steps : List Step),
      Throughout (step f) (Forward f) (start box initial) steps ∧
      Always (step f) (ReportsOnce f initial) (start box initial) steps := by
  intro safe
  obtain ⟨t, ran, twice⟩ : ∃ t, run (step sampleReader) (start sampleBox 4) overlapping = some t ∧
      ¬ (t.reported.map (·.1)).Nodup :=
    ⟨_, (Option.some_get (by decide +kernel)).symm, by decide +kernel⟩
  exact twice ((safe sampleReader sampleBox 4 overlapping).2.last ran).nodup

/-- The catch-up comes first, then the watch thread takes what has arrived since. -/
theorem separate_reads_safe :
    Throughout (step sampleReader) (Forward sampleReader) (start sampleBox 4)
      (visit .core ++ .deliver 0 none 60 :: visit .watch) ∧
    Always (step sampleReader) (ReportsOnce sampleReader 4) (start sampleBox 4)
      (visit .core ++ .deliver 0 none 60 :: visit .watch) :=
  cursor_safe sampleReader sampleBox 4 _ (by decide +kernel)

end Race

end NotiMapper
