import NotiMapper.Plugins.FileInput
import NotiMapper.Plugins.ImapInput
import NotiMapper.Threads

/-! How an observed event gets from an input to the latches. An input marks what it has
seen durably, in its own storage; until the core commits it the event is only in memory:
on the core's queue, or in a list that a catch-up has returned or is still building. A
cut, by a crash or after a shutdown, leaves what is durable and nothing else.

Input threads run concurrently with the core: an IMAP input's watch thread emits what it
has evaluated and then advances the cursor, a file input's poll emits and then remembers.
When the debounce lets a file through is left open. The core asks the inputs to catch up
during reconciliation and again for each one that raised; a note on a message says which
item it is the event of. -/
namespace NotiMapper

open Python Effect

/-- What an event is the event of: a message, or a file in one state. -/
inductive Item
  | message (instanceName : Name) (uidvalidity uid : Nat)
  | file (instanceName : Name) (path : String) (fingerprint : Fingerprint)
  deriving DecidableEq

inductive Source
  | imap (plugin : ImapInput)
  | file (plugin : FileInput)

/-- What a catch-up has found: events with their items. -/
abbrev Findings := List (Item × ObservedEvent)

/-- A `catch_up` under way, with what it has found. -/
inductive Asking
  | visiting (instanceName : Name) (visit : Visit)
  | listing (instanceName : Name) (todo : List Observation) (found : Findings)

/-- Whether the answers are for `reconcile` or for one input that raised before. -/
inductive Occasion
  | reconcile
  | retry (message : CatchUpMessage)

def Occasion.since (engine : Engine) : Occasion → Option Time
  | .reconcile => engine.store.lastSeenAt
  | .retry message => message.since

/-- What the core thread is at: between messages, collecting downtime events from the
inputs left, handling those a retry brought, or dead of an exception. An input that
raised has the answer `none`. -/
inductive Phase
  | looping
  | collecting (occasion : Occasion) (left : List Name)
      (answers : List (Name × Option Findings)) (asking : Option Asking)
  | replaying (instanceName : Name) (found : Findings)
  | dead

/-- The inputs' storage, which is durable, and what the threads hold in memory; and, for
the record, which items were observed, committed, or thrown away with an exception. -/
structure Intake where
  cursors : Name → Cursor
  seen : Name → Seen
  visits : Name → Option Visit
  firing : Name → Option (Observation × Bool)
  phase : Phase
  observed : List Item := []
  committed : List Item := []
  discarded : List Item := []

abbrev Handoff := Threads (Option Item) Intake

def Item.ofMessage (name : Name) (uidvalidity : Nat) (event : Nat × ObservedEvent) :
    Item × ObservedEvent := (.message name uidvalidity event.1, event.2)

def Item.ofFile (name : Name) (observation : Observation) : Item :=
  .file name observation.path observation.fingerprint

def Asking.found : Asking → Findings
  | .visiting name (.evaluated uidvalidity _ events) => events.map (Item.ofMessage name uidvalidity)
  | .visiting _ _ => []
  | .listing _ _ found => found

def gathered (answers : List (Name × Option Findings)) : Findings :=
  answers.flatMap fun answer => answer.2.getD []

def Phase.found : Phase → Findings
  | .collecting _ _ answers asking => gathered answers ++ asking.elim [] (·.found)
  | .replaying _ found => found
  | .looping | .dead => []

@[simp] theorem gathered_nil : gathered [] = [] := rfl

@[simp] theorem gathered_append (answers : List (Name × Option Findings)) (name : Name)
    (found : Option Findings) :
    gathered (answers ++ [(name, found)]) = gathered answers ++ found.getD [] := by
  simp [gathered]

@[simp] theorem Phase.found_looping : Phase.looping.found = [] := rfl

@[simp] theorem Phase.found_dead : Phase.dead.found = [] := rfl

@[simp] theorem Phase.found_replaying (name : Name) (found : Findings) :
    (Phase.replaying name found).found = found := rfl

@[simp] theorem Phase.found_waiting (occasion : Occasion) (left : List Name)
    (answers : List (Name × Option Findings)) :
    (Phase.collecting occasion left answers none).found = gathered answers := List.append_nil _

@[simp] theorem Phase.found_asking (occasion : Occasion) (left : List Name)
    (answers : List (Name × Option Findings)) (asking : Asking) :
    (Phase.collecting occasion left answers (some asking)).found =
      gathered answers ++ asking.found := rfl

namespace Intake

def observe (items : List Item) (i : Intake) : Intake := { i with observed := i.observed ++ items }

def commit (items : List Item) (i : Intake) : Intake := { i with committed := i.committed ++ items }

/-- An exception has reached the top of the core thread. -/
def die (items : List Item) (i : Intake) : Intake :=
  { i with phase := .dead, discarded := i.discarded ++ items }

def setCursor (name : Name) (cursor : Cursor) (i : Intake) : Intake :=
  { i with cursors := Function.update i.cursors name cursor }

def setSeen (name : Name) (seen : Seen) (i : Intake) : Intake :=
  { i with seen := Function.update i.seen name seen }

def setVisit (name : Name) (visit : Option Visit) (i : Intake) : Intake :=
  { i with visits := Function.update i.visits name visit }

def setFiring (name : Name) (firing : Option (Observation × Bool)) (i : Intake) : Intake :=
  { i with firing := Function.update i.firing name firing }

end Intake

namespace Handoff

/-- A step of an IMAP input's watch thread. -/
inductive WatchStep
  | select (uidvalidity highest : Nat)
  | baseline
  | process (mailbox : List Fetched)
  | emit
  | advance
  | disconnect

def watch (f : ImapInput) (name : Name) (s : Handoff) (step : WatchStep) : Option Handoff :=
  let cursor := s.outside.cursors name
  match step, s.outside.visits name with
  | .select uidvalidity highest, none =>
    let (cursor, visit) := ImapInput.select uidvalidity highest cursor
    some (s.within fun i => (i.setCursor name cursor).setVisit name (some visit))
  | .baseline, some (.baselining uidvalidity highest) =>
    some (s.within fun i => (i.setCursor name { cursor with lastUid := some highest }).setVisit
      name (some (.selected uidvalidity)))
  | .process mailbox, some (.selected uidvalidity) =>
    some (s.within (·.setVisit name (some (f.processNew cursor uidvalidity mailbox))))
  | .emit, some (.evaluated uidvalidity uids (event :: events)) =>
    let (item, observed) := Item.ofMessage name uidvalidity event
    some ((s.within fun i => (i.observe [item]).setVisit
      name (some (.evaluated uidvalidity uids events))).submit (.inputEvent ⟨name, observed⟩) item)
  | .advance, some (.evaluated uidvalidity uids []) =>
    some (s.within fun i => (i.setCursor name (ImapInput.advanceCursor uids cursor)).setVisit
      name (some (.selected uidvalidity)))
  | .disconnect, some _ => some (s.within (·.setVisit name none))
  | _, _ => none

/-- A step of a file input's polling thread. -/
inductive PollStep
  | notice (observation : Observation)
  | emit
  | remember
  | abandon

def poll (f : FileInput) (name : Name) (s : Handoff) (step : PollStep) : Option Handoff :=
  let seen := s.outside.seen name
  match step, s.outside.firing name with
  | .notice observation, none =>
    if f.isNew seen observation then
      some (s.within (·.setFiring name (some (observation, false))))
    else none
  | .emit, some (observation, false) =>
    some ((s.within fun i => (i.observe [Item.ofFile name observation]).setFiring
      name (some (observation, true))).submit
        (.inputEvent ⟨name, f.eventFor observation "watch"⟩) (Item.ofFile name observation))
  | .remember, some (observation, true) =>
    some (s.within fun i => (i.setSeen name (FileInput.remember seen observation)).setFiring
      name none)
  | .abandon, some _ => some (s.within (·.setFiring name none))
  | _, _ => none

/-- A step of the core thread: a turn of its loop, or a part of a catch-up. -/
inductive CoreStep
  | receive (w : World)
  | tick (w : World)
  | retry (now : Time) (k : Nat)
  | skip
  | select (uidvalidity highest : Nat)
  | list (observations : List Observation)
  | baseline
  | process (mailbox : List Fetched)
  | advance
  | examine
  | answer
  | fail
  | conclude (w : World)
  | replay (w : World)

def handling (body : Core Unit) (items : List Item) (next : Phase) (lost : List Item)
    (s : Handoff) : Handoff :=
  let ran := { s with engine := final body s.engine }
  if returned body s.engine then ran.within fun i => { i.commit items with phase := next }
  else ran.within (·.die lost)

def isCatchUp : CoreMessage → Bool
  | .catchUp _ => true
  | _ => false

/-- The loop of `run`. A tick fires the timers that are due, except that the retries of
catch-ups among them are steps of their own. -/
def loop (s : Handoff) : CoreStep → Option Handoff
  | .receive w =>
    match s.queue with
    | [] => none
    | (message, note) :: rest =>
      some (handling (Engine.handle w message) note.toList .looping note.toList
        { s with queue := rest })
  | .tick w =>
    if s.engine.timers.any fun timer => timer.dueAt ≤ w.now && isCatchUp timer.message then none
    else some (handling (Engine.tick w) [] .looping [] s)
  | .retry now k =>
    match s.engine.timers[k]? with
    | some ⟨dueAt, .catchUp message, _⟩ =>
      if now < dueAt then none
      else
        let s := { s with engine := { s.engine with timers := s.engine.timers.eraseIdx k } }
        if message.instanceName ∈ s.engine.plugins.inputs then
          some (s.within ({ · with
            phase := .collecting (.retry message) [message.instanceName] [] none }))
        else some s
    | _ => none
  | _ => none

/-- The answers of the plugins in this world are the ones collected. -/
def answered (w : World) (since : Option Time) (answers : List (Name × Option Findings)) : Bool :=
  answers.all fun answer =>
    match w.catchUp answer.1 since, answer.2 with
    | .ok events, some found => events = found.map (·.2)
    | .error _, none => true
    | _, _ => false

/-- A catch-up begins: the next input is asked, unless it has no plugin. -/
def ask (source : Name → Option Source) (s : Handoff) (occasion : Occasion) (name : Name)
    (left : List Name) (answers : List (Name × Option Findings)) : CoreStep → Option Handoff
  | .skip =>
    if name ∈ s.engine.plugins.inputs then none
    else some (s.within ({ · with phase := .collecting occasion left answers none }))
  | .select uidvalidity highest =>
    match source name with
    | some (.imap _) =>
      let (cursor, visit) := ImapInput.select uidvalidity highest (s.outside.cursors name)
      some (s.within fun i => { i.setCursor name cursor with
        phase := .collecting occasion left answers (some (.visiting name visit)) })
    | _ => none
  | .list observations =>
    match source name with
    | some (.file _) => some (s.within ({ · with
        phase := .collecting occasion left answers (some (.listing name observations [])) }))
    | _ => none
  | _ => none

/-- A stage of a `catch_up`. One that raises returns nothing of what it had found. -/
def pursue (source : Name → Option Source) (s : Handoff) (occasion : Occasion)
    (left : List Name) (answers : List (Name × Option Findings)) (asking : Asking)
    (step : CoreStep) : Option Handoff :=
  let proceed (i : Intake) (asking : Asking) : Intake :=
    { i with phase := .collecting occasion left answers (some asking) }
  let conclude (name : Name) (found : Option Findings) (i : Intake) : Intake :=
    { i with phase := .collecting occasion left (answers ++ [(name, found)]) none }
  match step, asking with
  | .baseline, .visiting name (.baselining uidvalidity highest) =>
    some (s.within fun i => proceed
      (i.setCursor name { i.cursors name with lastUid := some highest })
      (.visiting name (.selected uidvalidity)))
  | .process mailbox, .visiting name (.selected uidvalidity) =>
    match source name with
    | some (.imap f) =>
      let asking := .visiting name
        (f.catchUpNew (s.outside.cursors name) uidvalidity mailbox)
      some (s.within fun i => proceed (i.observe (asking.found.map (·.1))) asking)
    | _ => none
  | .advance, .visiting name (.evaluated _ uids _) =>
    some (s.within fun i => conclude name (some asking.found)
      (i.setCursor name (ImapInput.advanceCursor uids (i.cursors name))))
  | .examine, .listing name (observation :: todo) found =>
    match source name with
    | some (.file f) =>
      let (events, seen) :=
        f.catchUpOne (occasion.since s.engine) ([], s.outside.seen name) observation
      let more := events.map fun event => (Item.ofFile name observation, event)
      some (s.within fun i => proceed ((i.observe (more.map (·.1))).setSeen name seen)
        (.listing name todo (found ++ more)))
    | _ => none
  | .answer, .visiting name (.selected _) => some (s.within (conclude name (some [])))
  | .answer, .listing name [] found => some (s.within (conclude name (some found)))
  | .fail, .visiting name _ | .fail, .listing name _ _ =>
    some (s.within fun i => conclude name none
      { i with discarded := i.discarded ++ asking.found.map (·.1) })
  | _, _ => none

/-- All answers are in: `reconcile` commits them in one transaction; a retry goes on to
handle the events it brought, or schedules the next one. -/
def conclude (s : Handoff) (occasion : Occasion) (answers : List (Name × Option Findings))
    (w : World) : Option Handoff :=
  let items := (gathered answers).map (·.1)
  if !answered w (occasion.since s.engine) answers then none
  else match occasion, answers with
    | .reconcile, _ => some (handling (Engine.reconcile w) items .looping items s)
    | .retry _, [(name, some found)] =>
      some (s.within ({ · with phase := .replaying name found }))
    | .retry message, _ => some (handling (Engine.handle w (.catchUp message)) items .looping items s)

def core (source : Name → Option Source) (s : Handoff) (step : CoreStep) : Option Handoff :=
  match s.outside.phase with
  | .looping => if s.engine.stopping then none else loop s step
  | .collecting occasion (name :: left) answers none => ask source s occasion name left answers step
  | .collecting occasion left answers (some asking) =>
    pursue source s occasion left answers asking step
  | .collecting occasion [] answers none =>
    match step with
    | .conclude w => conclude s occasion answers w
    | _ => none
  | .replaying name found =>
    match step, found with
    | .replay w, (item, event) :: found =>
      some (handling (Engine.handle w (.inputEvent ⟨name, event⟩)) [item] (.replaying name found)
        (item :: found.map (·.1)) s)
    | .replay _, [] => some (s.within ({ · with phase := .looping }))
    | _, _ => none
  | .dead => none

/-- What happens next. Any other message may be submitted too, a shutdown among them, and
events of inputs that mark nothing. -/
inductive Step
  | watch (name : Name) (step : WatchStep)
  | poll (name : Name) (step : PollStep)
  | submit (message : CoreMessage)
  | core (step : CoreStep)

def tracked (source : Name → Option Source) : CoreMessage → Bool
  | .inputEvent message => (source message.instanceName).isSome
  | _ => false

def advance (source : Name → Option Source) (s : Handoff) : Step → Option Handoff
  | .watch name step =>
    match source name with
    | some (.imap f) => watch f name s step
    | _ => none
  | .poll name step =>
    match source name with
    | some (.file f) => poll f name s step
    | _ => none
  | .submit message => if tracked source message then none else some (s.submit message none)
  | .core step => core source s step

/-- What a crash wipes out: the items of the events queued or held by the core. -/
def memory (s : Handoff) : List Item :=
  s.queue.filterMap (·.2) ++ s.outside.phase.found.map (·.1)

/-- The input has durably marked the item as seen. -/
def Marked (i : Intake) : Item → Prop
  | .message name uidvalidity uid => (i.cursors name).uidvalidity = some uidvalidity ∧
      ∃ lastUid, (i.cursors name).lastUid = some lastUid ∧ uid ≤ lastUid
  | .file name path fingerprint => (i.seen name).lookup path = some fingerprint

/-- A later `catch_up`, of a mailbox or a directory that still has it, would return it. -/
def Recoverable (source : Name → Option Source) (i : Intake) : Item → Prop
  | .message name uidvalidity uid => ∃ f mailbox uids events, source name = some (.imap f) ∧
      f.catchUpNew (i.cursors name) uidvalidity mailbox = .evaluated uidvalidity uids events ∧
      uid ∈ events.map (·.1)
  | .file name path fingerprint => ∃ f since, source name = some (.file f) ∧
      (f.catchUp since [⟨path, fingerprint.modifiedAt, fingerprint.size⟩] (i.seen name)).1 ≠ []

/-- Cut here: every observed event that is marked was committed, or comes back. -/
def NoLoss (source : Name → Option Source) (s : Handoff) : Prop :=
  ∀ item ∈ s.outside.observed, Marked s.outside item →
    item ∈ s.outside.committed ∨ Recoverable source s.outside item

structure Fresh (s : Handoff) : Prop where
  memory : memory s = []
  observed : s.outside.observed = []
  committed : s.outside.committed = []
  discarded : s.outside.discarded = []

/-- Observed items are committed, in memory, or were thrown away with an exception. -/
def Accounted (s : Handoff) : Prop :=
  ∀ item, item ∈ s.outside.observed ↔
    item ∈ s.outside.committed ∨ item ∈ memory s ∨ item ∈ s.outside.discarded

variable {source : Name → Option Source} {s t : Handoff}

theorem marked_unrecoverable {i : Intake} {item : Item} (marked : Marked i item) :
    ¬ Recoverable source i item := by
  cases item with
  | message name uidvalidity uid =>
    rintro ⟨f, mailbox, uids, events, _, found, listed⟩
    obtain ⟨_, lastUid, stored, low⟩ := marked
    obtain ⟨event, member, rfl⟩ := List.mem_map.mp listed
    exact absurd (ImapInput.catchUpNew_above stored found event member) (Nat.not_lt.mpr low)
  | file name path fingerprint =>
    rintro ⟨f, since, _, returned⟩
    have known : f.isNew (i.seen name) ⟨path, fingerprint.modifiedAt, fingerprint.size⟩ = false := by
      have stored : (i.seen name).lookup path = some fingerprint := marked
      simp [FileInput.isNew, stored, Observation.fingerprint]
    refine returned ?_
    simp [FileInput.catchUp, FileInput.catchUpOne, known]

theorem Fresh.accounted (fresh : Fresh s) : Accounted s := by
  intro item
  rw [fresh.observed, fresh.committed, fresh.discarded, fresh.memory]
  simp

theorem Accounted.handled {body : Core Unit} {items lost : List Item} {next : Phase}
    {queue : List (CoreMessage × Option Item)} (accounted : Accounted s)
    (held : ∀ item, item ∈ memory s ↔
      item ∈ queue.filterMap (·.2) ∨ item ∈ items ∨ item ∈ next.found.map (·.1))
    (thrown : ∀ item, item ∈ lost ↔ item ∈ items ∨ item ∈ next.found.map (·.1)) :
    Accounted (handling body items next lost { s with queue := queue }) := by
  intro item
  have before := accounted item
  rw [held] at before
  unfold handling
  simp only
  split
  · simp only [Threads.within, Intake.commit, memory, List.mem_append]
    grind
  · simp only [Threads.within, Intake.die, memory, List.mem_append, thrown, Phase.found_dead, List.map_nil, List.not_mem_nil]
    grind

/-- An input thread emits: the item is observed, and its event is on the queue. -/
theorem Accounted.emitted {item : Item} {message : CoreMessage} (accounted : Accounted s)
    (queue : t.queue = s.queue ++ [(message, some item)])
    (observed : t.outside.observed = s.outside.observed ++ [item])
    (committed : t.outside.committed = s.outside.committed)
    (discarded : t.outside.discarded = s.outside.discarded)
    (phase : t.outside.phase = s.outside.phase) : Accounted t := by
  intro other
  have before := accounted other
  simp only [memory, List.mem_append] at before
  simp only [memory, queue, observed, committed, discarded, phase, List.filterMap_append,
    List.filterMap_cons, List.filterMap_nil, List.mem_append, List.mem_singleton, before]
  grind

theorem Accounted.watched {f : ImapInput} {name : Name} {step : WatchStep}
    (accounted : Accounted s) (stepped : watch f name s step = some t) : Accounted t := by
  unfold watch at stepped
  simp only at stepped
  split at stepped
  case h_4 =>
    cases stepped
    exact accounted.emitted rfl rfl rfl rfl rfl
  case h_7 => cases stepped
  all_goals
    cases stepped
    exact accounted

theorem Accounted.polled {f : FileInput} {name : Name} {step : PollStep}
    (accounted : Accounted s) (stepped : poll f name s step = some t) : Accounted t := by
  unfold poll at stepped
  simp only at stepped
  split at stepped
  case h_1 =>
    split at stepped
    · cases stepped
      exact accounted
    · cases stepped
  case h_2 =>
    cases stepped
    exact accounted.emitted rfl rfl rfl rfl rfl
  case h_5 => cases stepped
  all_goals
    cases stepped
    exact accounted

theorem Accounted.looped {step : CoreStep} (accounted : Accounted s)
    (phase : s.outside.phase = .looping) (stepped : loop s step = some t) : Accounted t := by
  cases step with
  | receive w =>
    simp only [loop] at stepped
    cases queue : s.queue with
    | nil =>
      rw [queue] at stepped
      cases stepped
    | cons first rest =>
      rw [queue] at stepped
      cases stepped
      refine accounted.handled (fun item => ?_) (by simp)
      obtain ⟨message, note⟩ := first
      cases note <;> simp [memory, queue, phase, or_comm]
  | tick w =>
    simp only [loop] at stepped
    split at stepped
    · cases stepped
    · cases stepped
      refine accounted.handled (s := s) (fun item => ?_) (by simp)
      simp [memory, phase]
  | retry now k =>
    simp only [loop] at stepped
    split at stepped
    · split at stepped
      · cases stepped
      · split at stepped
        · cases stepped
          intro item
          have before := accounted item
          simpa [memory, Threads.within, phase] using before
        · cases stepped
          exact accounted
    · cases stepped
  | _ => cases stepped

/-- The core finds these items in a catch-up and goes on with them in hand. -/
theorem Accounted.found (items : List Item) (accounted : Accounted s) (queue : t.queue = s.queue)
    (observed : t.outside.observed = s.outside.observed ++ items)
    (committed : t.outside.committed = s.outside.committed)
    (held : ∀ item, (item ∈ t.outside.phase.found.map (·.1) ∨ item ∈ t.outside.discarded) ↔
      item ∈ items ∨ item ∈ s.outside.phase.found.map (·.1) ∨ item ∈ s.outside.discarded) :
    Accounted t := by
  intro item
  have before := accounted item
  simp only [memory, List.mem_append] at before
  simp only [memory, observed, committed, queue, List.mem_append, before, or_assoc, held]
  grind

theorem Accounted.moved (accounted : Accounted s) (queue : t.queue = s.queue)
    (observed : t.outside.observed = s.outside.observed)
    (committed : t.outside.committed = s.outside.committed)
    (held : ∀ item, (item ∈ t.outside.phase.found.map (·.1) ∨ item ∈ t.outside.discarded) ↔
      item ∈ s.outside.phase.found.map (·.1) ∨ item ∈ s.outside.discarded) : Accounted t :=
  accounted.found [] queue (observed.trans (List.append_nil _).symm) committed
    (by simpa using held)

theorem Accounted.asked {occasion : Occasion} {name : Name} {left : List Name}
    {answers : List (Name × Option Findings)} {step : CoreStep} (accounted : Accounted s)
    (phase : s.outside.phase = .collecting occasion (name :: left) answers none)
    (stepped : ask source s occasion name left answers step = some t) : Accounted t := by
  cases step with
  | skip =>
    simp only [ask] at stepped
    split at stepped
    · cases stepped
    · cases stepped
      exact accounted.moved rfl rfl rfl (by simp [Threads.within, phase])
  | select uidvalidity highest =>
    simp only [ask] at stepped
    split at stepped
    · cases stepped
      refine accounted.moved rfl rfl rfl fun item => ?_
      unfold ImapInput.select
      split <;> simp [Threads.within, Intake.setCursor, phase, Asking.found]
    · cases stepped
  | list observations =>
    simp only [ask] at stepped
    split at stepped
    · cases stepped
      exact accounted.moved rfl rfl rfl
        (by simp [Threads.within, phase, Asking.found])
    · cases stepped
  | _ => cases stepped

theorem Accounted.pursued {occasion : Occasion} {left : List Name}
    {answers : List (Name × Option Findings)} {asking : Asking} {step : CoreStep}
    (accounted : Accounted s)
    (phase : s.outside.phase = .collecting occasion left answers (some asking))
    (stepped : pursue source s occasion left answers asking step = some t) : Accounted t := by
  unfold pursue at stepped
  simp only at stepped
  split at stepped
  case h_1 =>
    cases stepped
    exact accounted.moved rfl rfl rfl
      (by simp [Threads.within, Intake.setCursor, phase, Asking.found])
  case h_2 =>
    split at stepped
    · cases stepped
      refine accounted.found _ rfl rfl rfl fun item => ?_
      simp only [Threads.within, Intake.observe, phase, Phase.found_asking, List.map_append,
        List.mem_append]
      simp only [Asking.found, List.map_nil, List.not_mem_nil]
      grind
    · cases stepped
  case h_4 =>
    split at stepped
    · cases stepped
      refine accounted.found _ rfl rfl rfl fun item => ?_
      simp only [Threads.within, Intake.observe, Intake.setSeen, phase, Phase.found_asking,
        Asking.found, List.map_append, List.mem_append]
      grind
    · cases stepped
  case h_7 | h_8 =>
    cases stepped
    refine accounted.moved rfl rfl rfl fun item => ?_
    simp only [Threads.within, phase, Phase.found_asking, Phase.found_waiting, gathered_append,
      Option.getD_none, List.map_append, List.mem_append, List.append_nil]
    grind
  case h_9 => cases stepped
  all_goals
    cases stepped
    refine accounted.moved rfl rfl rfl fun item => ?_
    simp only [Threads.within, Intake.setCursor, phase, Phase.found_asking, Phase.found_waiting,
      gathered_append, Option.getD_some, Asking.found]

theorem Accounted.concluded {occasion : Occasion} {answers : List (Name × Option Findings)}
    {w : World} (accounted : Accounted s)
    (phase : s.outside.phase = .collecting occasion [] answers none)
    (stepped : conclude s occasion answers w = some t) : Accounted t := by
  have held : ∀ item, item ∈ memory s ↔ item ∈ s.queue.filterMap (·.2) ∨
      item ∈ (gathered answers).map (·.1) ∨ item ∈ Phase.looping.found.map (·.1) := by
    intro item
    simp only [memory, phase, Phase.found_waiting, Phase.found_looping, List.map_nil,
      List.not_mem_nil, or_false, List.mem_append]
  unfold conclude at stepped
  simp only at stepped
  split at stepped
  · cases stepped
  · split at stepped
    · cases stepped
      exact accounted.handled held (by simp)
    · cases stepped
      refine accounted.moved rfl rfl rfl fun item => ?_
      simp [Threads.within, phase, gathered]
    · cases stepped
      exact accounted.handled held (by simp)

theorem Accounted.advancedCore {step : CoreStep} (accounted : Accounted s)
    (stepped : core source s step = some t) : Accounted t := by
  unfold core at stepped
  cases phase : s.outside.phase with
  | looping =>
    rw [phase] at stepped
    simp only at stepped
    split at stepped
    · cases stepped
    · exact accounted.looped phase stepped
  | collecting occasion left answers asking =>
    rw [phase] at stepped
    cases asking with
    | some asking => cases left <;> exact accounted.pursued phase stepped
    | none =>
      cases left with
      | cons name left => exact accounted.asked phase stepped
      | nil =>
        cases step with
        | conclude w => exact accounted.concluded phase stepped
        | _ => cases stepped
  | replaying name found =>
    rw [phase] at stepped
    simp only at stepped
    split at stepped
    · cases stepped
      refine accounted.handled (s := s) (fun item => ?_) (by simp)
      simp only [memory, phase, Phase.found_replaying, List.map_cons, List.mem_append,
        List.mem_cons, List.not_mem_nil, or_false]
    · cases stepped
      exact accounted.moved rfl rfl rfl (by simp [Threads.within, phase])
    · cases stepped
  | dead =>
    rw [phase] at stepped
    cases stepped

theorem Accounted.advanced {step : Step} (accounted : Accounted s)
    (stepped : advance source s step = some t) : Accounted t := by
  cases step with
  | watch name step =>
    simp only [advance] at stepped
    split at stepped
    · exact accounted.watched stepped
    · cases stepped
  | poll name step =>
    simp only [advance] at stepped
    split at stepped
    · exact accounted.polled stepped
    · cases stepped
  | submit message =>
    simp only [advance] at stepped
    split at stepped
    · cases stepped
    · cases stepped
      intro item
      have before := accounted item
      simpa [memory, Threads.submit] using before
  | core step => exact accounted.advancedCore stepped

/-- A mailbox whose cursor is at 4, at the moment the inputs are asked to catch up. -/
def mailAt4 : Handoff where
  engine := Sample.engine (Sample.store .fresh)
  queue := []
  results := []
  outside :=
    { cursors := fun _ => ⟨some 1, some 4⟩
      seen := fun _ => ∅
      visits := fun _ => none
      firing := fun _ => none
      phase := .collecting .reconcile ["mail"] [] none }

def mailOnly : Name → Option Source := fun name =>
  if name = "mail" then some (.imap ⟨fun _ => true, false, 200, fun envelope _ _ => envelope.subject⟩)
  else none

theorem mailAt4_fresh : Fresh mailAt4 := ⟨rfl, rfl, rfl, rfl⟩

def startup : List Step :=
  [.core (.select 1 4), .core (.process []), .core .answer, .core (.conclude (Sample.quiet 5)),
    .watch "mail" (.select 1 4)]

def newMail : List Step :=
  [.watch "mail" (.process [⟨5, some ⟨"carrier", "post"⟩, 10⟩]), .watch "mail" .emit]

/-- The shutdown is queued before the event, the cursor is advanced behind it, and the core
stops at the shutdown: the event stays on the queue. -/
def stopped : Handoff :=
  (Transition.run (advance mailOnly) mailAt4 (startup ++ [.submit .shutdown] ++ newMail ++
    [.watch "mail" .advance, .core (.receive (Sample.quiet 11))])).get (by decide +kernel)

/-- The core handles the event before the cursor is advanced. -/
def handled : Handoff :=
  (Transition.run (advance mailOnly) mailAt4 (startup ++ newMail ++
    [.core (.receive (Sample.quiet 11)), .watch "mail" .advance])).get (by decide +kernel)

end Handoff

end NotiMapper
