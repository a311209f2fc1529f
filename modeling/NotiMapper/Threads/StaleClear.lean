import NotiMapper.Engine.Reacting
import NotiMapper.Plugins.PagerDuty
import NotiMapper.Threads

/-! The core and the poller of one PagerDuty output. A poll that reads a resolution asks
for an unlatch, and the request does not say when the incident was resolved; here a note
on it does. A latch that was set after the resolution is safe as long as no poll reads an
older resolution than the latches it is about, and no newer event overtakes its request. -/
namespace NotiMapper

open Python Effect Engine

namespace Rule

def told (plugins : PluginSet) : World × CoreMessage → List InputEventMessage
  | (_, .inputEvent message) => [message]
  | (w, .catchUp message) =>
    if message.instanceName ∈ plugins.inputs then
      match w.catchUp message.instanceName message.since with
      | .ok events => events.map (⟨message.instanceName, ·⟩)
      | .error _ => []
    else []
  | _ => []

end Rule

/-- The latch is set, and was set later than `c`. -/
def LatchRecord.NewerThan (record : LatchRecord) (c : Time) : Prop :=
  record.state = true ∧ ∃ t, record.setAt = some t ∧ c < t

namespace Rule

variable {rule : Rule} {plugins : PluginSet} {w : World} {c : Time} {record : LatchRecord}

theorem hear_newer {message : InputEventMessage}
    (newer : (rule.hear message record).NewerThan c) :
    record.NewerThan c ∨ message.instanceName ∈ rule.inputs ∧ c < message.event.occurredAt := by
  unfold hear at newer
  split at newer
  · rename_i listed
    obtain ⟨_, t, set, later⟩ := newer
    cases Option.some.inj set
    exact .inr ⟨listed, later⟩
  · exact .inl newer

theorem replay_newer {name : Name} {events : List ObservedEvent}
    (newer : (rule.replay name events record).NewerThan c) :
    record.NewerThan c ∨ name ∈ rule.inputs ∧ ∃ event ∈ events, c < event.occurredAt := by
  induction events generalizing record with
  | nil => exact .inl newer
  | cons event events ih =>
    rcases ih newer with newer | ⟨listed, late, member, later⟩
    · rcases hear_newer newer with newer | ⟨listed, later⟩
      · exact .inl newer
      · exact .inr ⟨listed, event, List.mem_cons_self, later⟩
    · exact .inr ⟨listed, late, List.mem_cons_of_mem event member, later⟩

theorem answered_newer {now : Time} {state : RemoteState}
    (newer : (answered now state record).NewerThan c) : record.NewerThan c := by
  obtain ⟨set, t, setAt, later⟩ := newer
  rw [answered_state, Bool.and_eq_true] at set
  rw [answered, ReconcileOutcome.applyTo_setAt, resolveRule_eventless.1] at setAt
  exact ⟨set.1, t, setAt, later⟩

theorem consult_newer {name : Name} (newer : (rule.consult w name record).NewerThan c) :
    record.NewerThan c := by
  unfold consult at newer
  split at newer
  · exact answered_newer newer
  · exact newer

theorem obey_newer {now : Time} {message : UnlatchRequestMessage}
    (newer : (rule.obey now message record).NewerThan c) : record.NewerThan c := by
  unfold obey at newer
  split at newer
  · cases newer.1
  · exact newer

/-- Only an event later than `c`, told to the rule, makes its latch newer than `c`. -/
theorem react_newer {message : CoreMessage}
    (newer : (rule.react plugins w message record).NewerThan c) :
    record.NewerThan c ∨ ∃ event ∈ told plugins (w, message),
      event.instanceName ∈ rule.inputs ∧ c < event.event.occurredAt := by
  cases message with
  | inputEvent message =>
    rcases hear_newer newer with newer | late
    · exact .inl newer
    · exact .inr ⟨message, List.mem_singleton.mpr rfl, late⟩
  | unlatchRequest message => exact .inl (obey_newer newer)
  | reconcileOutput message =>
    simp only [react] at newer
    split at newer
    · exact .inl (consult_newer newer)
    · exact .inl newer
  | catchUp message =>
    simp only [react] at newer
    simp only [told]
    split at newer
    · rename_i live
      cases answer : w.catchUp message.instanceName message.since with
      | error failure =>
        rw [answer] at newer
        exact .inl newer
      | ok events =>
        rw [answer] at newer
        rcases replay_newer newer with newer | ⟨listed, event, member, later⟩
        · exact .inl newer
        · simp only [live, if_true]
          exact .inr ⟨_, List.mem_map_of_mem member, listed, later⟩
    · exact .inl newer
  | pushResult message => exact .inl newer
  | reload message => exact .inl newer
  | pollHealth => exact .inl newer
  | shutdown => exact .inl newer

theorem reacting_newer {heard : List (World × CoreMessage)}
    (newer : (heard.foldl (reacting plugins rule) record).NewerThan c) :
    record.NewerThan c ∨ ∃ message ∈ heard, ∃ event ∈ told plugins message,
      event.instanceName ∈ rule.inputs ∧ c < event.event.occurredAt := by
  induction heard generalizing record with
  | nil => exact .inl newer
  | cons first heard ih =>
    rcases ih newer with newer | ⟨message, member, late⟩
    · rcases react_newer newer with newer | late
      · exact .inl newer
      · exact .inr ⟨first, List.mem_cons_self, late⟩
    · exact .inr ⟨message, List.mem_cons_of_mem first member, late⟩

end Rule

/-- The incidents of the output's dedup key, and the answer `poll_once` has in hand. -/
structure Pager where
  incidents : List Incident
  reading : Option RemoteState

/-- The note on the poller's requests is when the latest of the incidents it saw was
resolved; other messages carry none. -/
abbrev Paging := Threads (Option Time) Pager

namespace Paging

/-- What happens next: the core handles a message or ticks, an input observes an event,
another output asks for an unlatch, a pool thread performs or reports a push, somebody
resolves the incident, or the poller reads the incidents or acts on what it has read. -/
inductive Step
  | receive (w : World)
  | tick (w : World)
  | observe (message : InputEventMessage)
  | unlatchElsewhere (message : UnlatchRequestMessage)
  | perform (k : Nat) (now : Time) (delivery : PagerDuty.Delivery)
  | report (k : Nat)
  | resolve (now : Time)
  | query (reachable : Bool)
  | request

/-- A push to another output leaves PagerDuty alone. -/
def push (output : Name) (now : Time) (delivery : PagerDuty.Delivery) (request : PushRequest)
    (pager : Pager) : Except String Unit × Pager :=
  let (answer, incidents) := PagerDuty.apply now delivery request.update pager.incidents
  if request.instanceName = output then (answer, { pager with incidents := incidents })
  else (answer, pager)

def read (reachable : Bool) (pager : Pager) : RemoteState :=
  PagerDuty.query (PagerDuty.fetchIncidents reachable pager.incidents)

/-- The end of `poll_once`: an unlatch is requested on a CLEARED answer only. -/
def act (output : Name) (s : Paging) : Option Paging :=
  s.outside.reading.map fun reading =>
    let s := { s with outside := { s.outside with reading := none } }
    if reading.belief = .cleared then
      s.submit (.unlatchRequest (PagerDuty.unlatchRequest output)) reading.clearedAt
    else s

def advance (output : Name) (s : Paging) : Step → Option Paging
  | .receive w => s.receive w
  | .tick w => s.tick w
  | .observe message => some (s.submit (.inputEvent message) none)
  | .unlatchElsewhere message =>
    if message.instanceName = output then none else some (s.submit (.unlatchRequest message) none)
  | .perform k now delivery => s.perform (push output now delivery) k
  | .report k => s.report none k
  | .resolve now =>
    some { s with outside :=
      { s.outside with incidents := PagerDuty.resolve now s.outside.incidents } }
  | .query reachable =>
    if s.outside.reading.isSome then none
    else some { s with outside := { s.outside with reading := some (read reachable s.outside) } }
  | .request => act output s

/-- The poller has not polled yet, and nothing is waiting for the core. -/
structure Idle (s : Paging) : Prop where
  queue : s.queue = []
  reading : s.outside.reading = none

/-- An unlatch request of the poller never clears a latch set later than the resolution
it is about. -/
def KeepsNewer (output : Name) (s : Paging) (step : Step) : Prop :=
  ∀ w c rest t, step = .receive w →
    s.queue = (.unlatchRequest (PagerDuty.unlatchRequest output), some c) :: rest →
    advance output s step = some t →
    ∀ r ∈ s.engine.graph.entries, (s.engine.latch r.name).NewerThan c →
      (t.engine.latch r.name).state = true

/-- The resolutions about which a request is under way: in the poller's hand or queued. -/
def UnderWay (s : Paging) (c : Time) : Prop :=
  (∃ message, (message, some c) ∈ s.queue) ∨ s.outside.reading = some ⟨.cleared, some c⟩

/-- None of the latches that the output can clear was set later than `c`. -/
def Covers (output : Name) (s : Engine) (c : Time) : Prop :=
  ∀ r ∈ s.graph.entries, output ∈ r.outputs → ¬ (s.latch r.name).NewerThan c

/-- What is told is no later than `c`, as far as it concerns rules the output can clear. -/
def Early (output : Name) (s : Engine) (heard : List (World × CoreMessage)) (c : Time) : Prop :=
  ∀ r ∈ s.graph.entries, output ∈ r.outputs → ∀ message ∈ heard,
    ∀ event ∈ Rule.told s.plugins message, event.instanceName ∈ r.inputs →
      event.event.occurredAt ≤ c

/-- The condition on a step. A poll reads a resolution no older than the latches it is
about; while a request about it is under way, the core is told of no later event. -/
def Heeded (output : Name) (s : Paging) : Step → Prop
  | .query reachable =>
    ∀ c, read reachable s.outside = ⟨.cleared, some c⟩ → Covers output s.engine c
  | .receive w =>
    ∀ message note rest, s.queue = (message, note) :: rest →
      ∀ c, UnderWay s c → Early output s.engine [(w, message)] c
  | .tick w => ∀ c, UnderWay s c → Early output s.engine ((Engine.Step.tick w).messages s.engine) c
  | _ => True

structure Fresh (output : Name) (s : Paging) : Prop where
  covered : ∀ c, UnderWay s c → Covers output s.engine c
  keeping : ∀ entry ∈ s.queue, ∀ reload, entry.1 ≠ .reload reload

variable {output : Name} {s t : Paging}

theorem Idle.fresh (idle : Idle s) : Fresh output s where
  covered := by
    rintro c (⟨message, queued⟩ | reading)
    · rw [idle.queue] at queued
      cases queued
    · rw [idle.reading] at reading
      cases reading
  keeping := by
    rw [idle.queue]
    exact fun _ member => by cases member

theorem Covers.reacted {heard : List (World × CoreMessage)} {c : Time} {s t : Engine}
    (covers : Covers output s c) (reacted : Reacted heard s t)
    (early : Early output s heard c) : Covers output t c := by
  intro r known listed newer
  rw [reacted.graph] at known
  rw [reacted.latch r known] at newer
  rcases Rule.reacting_newer newer with newer | ⟨message, member, event, told, hears, later⟩
  · exact covers r known listed newer
  · exact absurd later (Nat.not_lt.mpr (early r known listed message member event told hears))

theorem Fresh.submitted (fresh : Fresh output s) (message : CoreMessage)
    (keeping : ∀ reload, message ≠ .reload reload) : Fresh output (s.submit message none) where
  covered := by
    rintro c (⟨other, queued⟩ | reading)
    · rcases List.mem_append.mp queued with queued | added
      · exact fresh.covered c (.inl ⟨other, queued⟩)
      · simp at added
    · exact fresh.covered c (.inr reading)
  keeping := by
    intro entry member
    rcases List.mem_append.mp member with member | added
    · exact fresh.keeping entry member
    · rw [List.mem_singleton.mp added]
      exact keeping

theorem Fresh.received {w : World} (fresh : Fresh output s) (heeded : Heeded output s (.receive w))
    (received : s.receive w = some t) : Fresh output t := by
  obtain ⟨message, note, rest, engine, waiting, handled, rfl⟩ := Threads.receive_eq_some.mp received
  have stays : ∀ entry ∈ rest, entry ∈ s.queue := by
    intro entry member
    rw [waiting]
    exact List.mem_cons_of_mem _ member
  have keeping : ∀ heard ∈ (Engine.Step.handle w message).messages s.engine,
      ∀ reload, heard.2 ≠ .reload reload := by
    intro heard member
    rw [List.mem_singleton.mp member]
    exact fresh.keeping (message, note) (by rw [waiting]; exact List.mem_cons_self)
  have reacted := advance_reacted keeping handled
  constructor
  · intro c underWay
    have before : UnderWay s c :=
      underWay.imp (fun ⟨other, queued⟩ => ⟨other, stays _ queued⟩) id
    exact (fresh.covered c before).reacted reacted (heeded message note rest waiting c before)
  · exact fun entry member => fresh.keeping entry (stays entry member)

theorem Fresh.ticked {w : World} (fresh : Fresh output s) (heeded : Heeded output s (.tick w))
    (ticked : s.tick w = some t) : Fresh output t := by
  obtain ⟨engine, ran, rfl⟩ := Threads.tick_eq_some.mp ticked
  have keeping : ∀ heard ∈ (Engine.Step.tick w).messages s.engine,
      ∀ reload, heard.2 ≠ .reload reload := by
    intro heard member
    obtain ⟨timer, _, rfl⟩ := List.mem_map.mp member
    exact (scheduled_own timer).2
  have reacted := advance_reacted keeping ran
  exact ⟨fun c underWay => (fresh.covered c underWay).reacted reacted (heeded c underWay),
    fresh.keeping⟩

/-- A request that joins the queue is about the resolution the poller had read. -/
theorem Fresh.acted (fresh : Fresh output s) (acted : act output s = some t) :
    Fresh output t := by
  obtain ⟨reading, read, rfl⟩ := Option.map_eq_some_iff.mp acted
  split
  · rename_i cleared
    constructor
    · rintro c (⟨other, queued⟩ | gone)
      · rcases List.mem_append.mp queued with queued | added
        · exact fresh.covered c (.inl ⟨other, queued⟩)
        · have dated : reading = ⟨.cleared, some c⟩ := by
            cases reading
            cases cleared
            cases List.mem_singleton.mp added
            rfl
          exact fresh.covered c (.inr (dated ▸ read))
      · cases gone
    · intro entry member
      rcases List.mem_append.mp member with member | added
      · exact fresh.keeping entry member
      · rw [List.mem_singleton.mp added]
        simp
  · refine ⟨?_, fresh.keeping⟩
    rintro c (queued | gone)
    · exact fresh.covered c (.inl queued)
    · cases gone

theorem perform_reading {k : Nat} {now : Time} {delivery : PagerDuty.Delivery}
    (performed : s.perform (push output now delivery) k = some t) :
    t.outside.reading = s.outside.reading ∧ t.queue = s.queue ∧
      t.engine = { s.engine with dispatcher := t.engine.dispatcher } := by
  obtain ⟨request, _, rfl⟩ := Threads.perform_eq_some.mp performed
  refine ⟨?_, rfl, rfl⟩
  simp only [Threads.call, push]
  split
  · split <;> rfl
  · rfl

theorem Fresh.advanced {step : Step} (fresh : Fresh output s) (heeded : Heeded output s step)
    (stepped : advance output s step = some t) : Fresh output t := by
  cases step with
  | receive w => exact fresh.received heeded stepped
  | tick w => exact fresh.ticked heeded stepped
  | observe message =>
    cases stepped
    exact fresh.submitted _ (by simp)
  | unlatchElsewhere message =>
    unfold advance at stepped
    simp only at stepped
    split at stepped
    · cases stepped
    · cases stepped
      exact fresh.submitted _ (by simp)
  | perform k now delivery =>
    obtain ⟨reading, queue, engine⟩ := perform_reading stepped
    constructor
    · intro c underWay
      unfold UnderWay at underWay
      rw [queue, reading] at underWay
      rw [engine]
      exact fresh.covered c underWay
    · rw [queue]
      exact fresh.keeping
  | report k =>
    obtain ⟨result, _, rfl⟩ := Threads.report_eq_some.mp stepped
    have submitted := fresh.submitted (.pushResult result) (by simp)
    exact ⟨submitted.covered, submitted.keeping⟩
  | resolve now =>
    cases stepped
    exact ⟨fresh.covered, fresh.keeping⟩
  | query reachable =>
    unfold advance at stepped
    simp only at stepped
    split at stepped
    · cases stepped
    · cases stepped
      refine ⟨?_, fresh.keeping⟩
      rintro c (queued | answer)
      · exact fresh.covered c (.inl queued)
      · exact heeded c (Option.some.inj answer)
  | request => exact fresh.acted stepped

theorem request_obeyed {w : World} {note : Option Time} {rest : List (CoreMessage × Option Time)}
    (waiting : s.queue = (.unlatchRequest (PagerDuty.unlatchRequest output), note) :: rest)
    (received : advance output s (.receive w) = some t) {r : Rule}
    (known : r ∈ s.engine.graph.entries) : t.engine.latch r.name =
      r.obey w.now (PagerDuty.unlatchRequest output) (s.engine.latch r.name) := by
  unfold advance at received
  obtain ⟨message, _, _, engine, queue, handled, rfl⟩ := Threads.receive_eq_some.mp received
  rw [waiting] at queue
  cases queue
  have keeping : ∀ heard ∈ (Engine.Step.handle w
      (.unlatchRequest (PagerDuty.unlatchRequest output))).messages s.engine,
      ∀ reload, heard.2 ≠ .reload reload := by
    intro heard member
    rw [List.mem_singleton.mp member]
    simp
  exact (advance_reacted keeping handled).latch r known

theorem Fresh.keepsNewer (fresh : Fresh output s) (step : Step) : KeepsNewer output s step := by
  intro w c rest t same waiting stepped r known newer
  subst same
  have underWay : UnderWay s c := .inl ⟨_, by rw [waiting]; exact List.mem_cons_self⟩
  have unlisted : output ∉ r.outputs := fun listed =>
    fresh.covered c underWay r known listed newer
  rw [request_obeyed waiting stepped known, Rule.obey, if_neg fun obeyed => unlisted obeyed.1]
  exact newer.1

/-- A poll that is not heeded drops the newer latch as soon as it is acted on. -/
theorem unheeded_query_drops {reachable : Bool} {w : World} {c : Time} {u : Paging}
    (idle : Idle s) (answer : read reachable s.outside = ⟨.cleared, some c⟩)
    (uncovered : ¬ Covers output s.engine c)
    (ran : Transition.run (advance output) s
      ([.query reachable, .request] ++ [.receive w]) = some u) :
    ¬ Transition.Throughout (advance output) (KeepsNewer output) s
      ([.query reachable, .request] ++ [.receive w]) := by
  intro kept
  have polled : Transition.run (advance output) s [.query reachable, .request] = some
      { s with
        queue := [(.unlatchRequest (PagerDuty.unlatchRequest output), some c)]
        outside := { s.outside with reading := none } } := by
    simp [Transition.run, advance, act, Threads.submit, idle.reading, idle.queue, answer]
  have last := (Transition.throughout_append kept polled).1
  obtain ⟨asked, before, received⟩ := Transition.run_snoc.mp ran
  cases polled.symm.trans before
  unfold Covers at uncovered
  push Not at uncovered
  obtain ⟨r, known, listed, newer⟩ := uncovered
  have set := last w c [] u rfl rfl received r known newer
  rw [request_obeyed rfl received known, Rule.obey, if_pos ⟨listed, newer.1⟩] at set
  cases set

/-- In every run whose steps are heeded, no stale clear drops a newer event. -/
theorem newer_event_kept (output : Name) (s : Paging) (steps : List Step) (idle : Idle s)
    (heeded : Transition.Throughout (advance output) (Heeded output) s steps) :
    Transition.Throughout (advance output) (KeepsNewer output) s steps :=
  Transition.throughout_of_invariant
    (fun _ _ _ fresh heeded stepped => Fresh.advanced fresh heeded stepped)
    (fun _ step fresh _ => fresh.keepsNewer step) idle.fresh heeded

/-- The incident of a latch set at 6 is resolved at 20, and the next event is at 30. The
latch was set already, so nothing is pushed and no new incident opens. -/
def lit : Paging where
  engine := Sample.engine (Sample.store { LatchRecord.fresh with state := true, setAt := some 6 })
  queue := []
  results := []
  outside := ⟨[⟨"triggered", none, some 6⟩], none⟩

def stalePoll : List Step :=
  [.resolve 20, .observe ⟨"mail", ⟨30, "post"⟩⟩, .receive (Sample.quiet 30), .query true, .request]

theorem newer_event_dropped :
    ¬ ∀ (output : Name) (s : Paging) (steps : List Step), Idle s →
      Transition.Throughout (advance output) (KeepsNewer output) s steps := by
  intro kept
  have ran : Transition.run (advance "lamp") lit stalePoll = _ :=
    (Option.some_get (by decide +kernel)).symm
  have last := (Transition.throughout_append
    (kept "lamp" lit (stalePoll ++ [.receive (Sample.quiet 40)]) ⟨rfl, rfl⟩) ran).1
  have state := last (Sample.quiet 40) 20 [] _ rfl rfl (Option.some_get (by decide +kernel)).symm
    Sample.rule (by decide +kernel) ⟨by decide +kernel, 30, by decide +kernel, by decide⟩
  revert state
  decide +kernel

/-- The latch was set at 6 and no later event came: the request about 20 may clear it. -/
theorem older_latch_cleared :
    Transition.Throughout (advance "lamp") (KeepsNewer "lamp") lit
      [.resolve 20, .query true, .request, .receive (Sample.quiet 40)] := by
  refine newer_event_kept "lamp" lit _ ⟨rfl, rfl⟩ ⟨trivial, fun resolved stepped => ?_⟩
  cases stepped
  refine ⟨fun c answer r known _ newer => ?_, fun queried stepped => ?_⟩
  · have twenty : (20 : Time) = c := by
      have answered : read true ⟨[⟨"resolved", some 20, some 20⟩], none⟩ = ⟨.cleared, some 20⟩ := by
        decide +kernel
      exact Option.some.inj (congrArg RemoteState.clearedAt (answered.symm.trans answer))
    obtain ⟨_, t, set, later⟩ := newer
    rw [List.mem_singleton.mp known] at set
    have six : (some 6 : Option Time) = some t := set
    cases six
    subst twenty
    exact absurd later (by decide)
  · cases stepped
    refine ⟨trivial, fun requested stepped => ⟨?_, fun _ _ => trivial⟩⟩
    cases stepped
    intro message note rest waiting c _ r _ _ heard member event told
    cases waiting
    rw [List.mem_singleton.mp member] at told
    cases told

end Paging

end NotiMapper
