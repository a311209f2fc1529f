import NotiMapper.Engine.SetAt
import NotiMapper.Runtime

/-! Where the cause and the text come from that an output is told. A trigger writes all of
a record, an unlatch request the cause alone, and reconciliation neither cause nor text: a
latch that it sets, or moves to a later time, still says what it said before. While it
does neither, and events come in order, a set latch names its newest event. -/
namespace NotiMapper

open Python Effect Engine

def IsNewest (e : Name × ObservedEvent) (accepted : List (Name × ObservedEvent)) : Prop :=
  e ∈ accepted ∧ ∀ other ∈ accepted, other.2.occurredAt ≤ e.2.occurredAt

/-- The record has the event's input as its cause, and its text and time. -/
def Names (record : LatchRecord) (e : Name × ObservedEvent) : Prop :=
  record.lastCause = some e.1 ∧ record.lastDetail = some e.2.summary ∧
    record.setAt = some e.2.occurredAt

/-- A set latch names the newest of the events accepted since it was last clear. -/
structure Sourced (record : LatchRecord) (accepted : List (Name × ObservedEvent)) : Prop where
  clear : record.state = false → accepted = []
  set : record.state = true → ∃ e, IsNewest e accepted ∧ Names record e

namespace Rule

/-- A latch with the events accepted since it was last clear, as a message is handled. -/
def retrace (rule : Rule) (plugins : PluginSet) (held : LatchRecord × List (Name × ObservedEvent))
    (heard : World × CoreMessage) : LatchRecord × List (Name × ObservedEvent) :=
  let record := rule.react plugins heard.1 heard.2 held.1
  (record, if record.state then held.2 ++ rule.accepts plugins heard else [])

/-- The last event of the message is not older than the others, nor than a set latch. -/
def Timely (rule : Rule) (plugins : PluginSet) (record : LatchRecord)
    (heard : World × CoreMessage) : Prop :=
  ∀ last ∈ (rule.accepts plugins heard).getLast?,
    (∀ e ∈ rule.accepts plugins heard, e.2.occurredAt ≤ last.2.occurredAt) ∧
    (record.state = true → ∀ time ∈ record.setAt, time ≤ last.2.occurredAt)

def AllTimely (rule : Rule) (plugins : PluginSet) :
    LatchRecord → List (World × CoreMessage) → Prop
  | _, [] => True
  | record, heard :: rest => rule.Timely plugins record heard ∧
    rule.AllTimely plugins (rule.react plugins heard.1 heard.2 record) rest

instance (rule : Rule) (plugins : PluginSet) (record : LatchRecord)
    (heard : World × CoreMessage) : Decidable (rule.Timely plugins record heard) :=
  inferInstanceAs (Decidable (∀ last ∈ (rule.accepts plugins heard).getLast?,
    (∀ e ∈ rule.accepts plugins heard, e.2.occurredAt ≤ last.2.occurredAt) ∧
    (record.state = true → ∀ time ∈ record.setAt, time ≤ last.2.occurredAt)))

def decideAllTimely (rule : Rule) (plugins : PluginSet) :
    (record : LatchRecord) → (heard : List (World × CoreMessage)) →
      Decidable (rule.AllTimely plugins record heard)
  | _, [] => isTrue trivial
  | record, heard :: rest =>
    have := rule.decideAllTimely plugins (rule.react plugins heard.1 heard.2 record) rest
    inferInstanceAs (Decidable (rule.Timely plugins record heard ∧
      rule.AllTimely plugins (rule.react plugins heard.1 heard.2 record) rest))

instance (rule : Rule) (plugins : PluginSet) (record : LatchRecord)
    (heard : List (World × CoreMessage)) : Decidable (rule.AllTimely plugins record heard) :=
  rule.decideAllTimely plugins record heard

end Rule

theorem heed_names {accepted : List (Name × ObservedEvent)} {last : Name × ObservedEvent}
    (ends : accepted.getLast? = some last) (record : LatchRecord) :
    (accepted.foldl heed record).state = true ∧ Names (accepted.foldl heed record) last := by
  obtain ⟨before, rfl⟩ := List.getLast?_eq_some_iff.mp ends
  rw [List.foldl_append, List.foldl_cons, List.foldl_nil]
  exact ⟨rfl, rfl, rfl, rfl⟩

theorem Rule.react_clears {rule : Rule} {plugins : PluginSet} {heard : World × CoreMessage}
    (clears : rule.verdict plugins heard = some false) (record : LatchRecord) :
    (rule.react plugins heard.1 heard.2 record).state = false := by
  rw [rule.react_state plugins heard.1 heard.2 record, Register.apply, Prod.mk.eta, clears]
  rfl

theorem Rule.retrace_sourced {rule : Rule} {plugins : PluginSet} {record : LatchRecord}
    {accepted : List (Name × ObservedEvent)} {heard : World × CoreMessage}
    (sourced : Sourced record accepted) (timely : rule.Timely plugins record heard) :
    Sourced (rule.retrace plugins (record, accepted) heard).1
      (rule.retrace plugins (record, accepted) heard).2 := by
  simp only [retrace]
  by_cases clears : rule.verdict plugins heard = some false
  · have clear := rule.react_clears clears record
    simp only [clear, Bool.false_eq_true, if_false]
    exact ⟨fun _ => rfl, fun set => absurd (clear.symm.trans set) Bool.false_ne_true⟩
  · have heeded : rule.react plugins heard.1 heard.2 record = _ :=
      rule.react_heed plugins clears record
    rw [heeded]
    cases ends : (rule.accepts plugins heard).getLast? with
    | none =>
      rw [List.getLast?_eq_none_iff.mp ends, List.foldl_nil, List.append_nil]
      cases state : record.state with
      | false =>
        simp only [Bool.false_eq_true, if_false]
        exact ⟨fun _ => rfl, fun set => absurd (state.symm.trans set) Bool.false_ne_true⟩
      | true =>
        simp only [if_true]
        exact sourced
    | some last =>
      obtain ⟨set, named⟩ := heed_names ends record
      obtain ⟨among, since⟩ := timely last ends
      rw [set, if_pos rfl]
      refine ⟨fun clear => absurd (clear.symm.trans set) Bool.false_ne_true, fun _ => ?_⟩
      refine ⟨last, ⟨List.mem_append_right _ (List.mem_of_getLast? ends), ?_⟩, named⟩
      intro other member
      rcases List.mem_append.mp member with before | now
      · cases state : record.state with
        | false =>
          rw [sourced.clear state] at before
          cases before
        | true =>
          obtain ⟨e, newest, names⟩ := sourced.set state
          exact (newest.2 other before).trans (since state _ names.2.2)
      · exact among other now

theorem Rule.retrace_all {rule : Rule} {plugins : PluginSet} (heard : List (World × CoreMessage))
    {record : LatchRecord} {accepted : List (Name × ObservedEvent)}
    (sourced : Sourced record accepted) (timely : rule.AllTimely plugins record heard) :
    (heard.foldl (rule.retrace plugins) (record, accepted)).1 =
      heard.foldl (reacting plugins rule) record ∧
    Sourced (heard.foldl (rule.retrace plugins) (record, accepted)).1
      (heard.foldl (rule.retrace plugins) (record, accepted)).2 := by
  induction heard generalizing record accepted with
  | nil => exact ⟨rfl, sourced⟩
  | cons first heard ih => exact ih (rule.retrace_sourced sourced timely.1) timely.2

/- Startup reconciliation. -/

/-- What reconciliation may find for the rule without writing a time the record does not
account for: no events, or a clear that is later than all of them, or a latch that was
set, and at a later time. -/
def Rule.Undisturbed (rule : Rule) (s : Engine) (w : World) : Prop :=
  rule.acceptedIn s (.reconcile w) = [] ∨
  (rule.ClearedIn s (.reconcile w) ∧ ∀ e ∈ rule.acceptedIn s (.reconcile w),
    ¬ Outruns e.2.occurredAt (rule.reportsFrom (reportOf w s.plugins))) ∨
  (¬ rule.ClearedIn s (.reconcile w) ∧ (s.latch rule.name).state = true ∧
    ∀ e ∈ rule.acceptedIn s (.reconcile w), ∃ time ∈ (s.latch rule.name).setAt,
      e.2.occurredAt ≤ time)

instance (rule : Rule) (s : Engine) (w : World) : Decidable (rule.ClearedIn s (.reconcile w)) :=
  inferInstanceAs (Decidable (AnyCleared (rule.reportsFrom (reportOf w s.plugins))))

instance (rule : Rule) (s : Engine) (w : World) : Decidable (rule.Undisturbed s w) :=
  inferInstanceAs (Decidable (_ ∨ _ ∨ _))

/-- Reconciliation leaves a latch that is reported cleared clear, if no event outruns. -/
theorem reconcile_uncleared {w : World} {s t : Engine} {r : Rule} (known : r ∈ s.graph.entries)
    (undisturbed : r.Undisturbed s w) (ran : Engine.reconcile w s = .ok ⟨⟩ t)
    (set : (t.latch r.name).state = true) : ¬ r.ClearedIn s (.reconcile w) := by
  intro cleared
  rw [(reconcile_spec ran).latch r known, ReconcileOutcome.applyTo_state, Rule.resolve,
    resolveRule_state cleared] at set
  obtain ⟨time, last, outruns⟩ := set
  rw [← r.acceptedIn_reconcile, List.map_map] at last
  obtain ⟨e, member, rfl⟩ := List.mem_map.mp (List.max?_mem last)
  rcases undisturbed with none | ⟨_, outrun⟩ | ⟨uncleared, _⟩
  · rw [none] at member
    cases member
  · exact outrun e member outruns
  · exact uncleared cleared

theorem reconcile_sourced {w : World} {s t : Engine} {r : Rule} (known : r ∈ s.graph.entries)
    {accepted : List (Name × ObservedEvent)} (sourced : Sourced (s.latch r.name) accepted)
    (undisturbed : r.Undisturbed s w) (ran : Engine.reconcile w s = .ok ⟨⟩ t)
    (set : (t.latch r.name).state = true) :
    Sourced (t.latch r.name) (accepted ++ r.acceptedIn s (.reconcile w)) := by
  have uncleared := reconcile_uncleared known undisturbed ran set
  obtain ⟨_, state, _, quiet, merged⟩ := reconcile_heeds known uncleared ran
  have latch := (reconcile_spec ran).latch r known
  have cause : (t.latch r.name).lastCause = (s.latch r.name).lastCause := by
    rw [latch]
    rfl
  have detail : (t.latch r.name).lastDetail = (s.latch r.name).lastDetail := by
    rw [latch]
    rfl
  refine ⟨fun clear => absurd (clear.symm.trans set) Bool.false_ne_true, fun _ => ?_⟩
  rcases undisturbed with none | ⟨cleared, _⟩ | ⟨_, before, older⟩
  · rw [none] at state ⊢
    rw [set] at state
    obtain ⟨e, newest, names⟩ := sourced.set (by simpa using state.symm)
    rw [List.append_nil]
    exact ⟨e, newest, cause.trans names.1, detail.trans names.2.1, (quiet none).trans names.2.2⟩
  · exact absurd cleared uncleared
  · obtain ⟨e, newest, names⟩ := sourced.set before
    have later : ∀ other ∈ r.acceptedIn s (.reconcile w),
        other.2.occurredAt ≤ e.2.occurredAt := by
      intro other member
      obtain ⟨time, known, bound⟩ := older other member
      cases Option.some.inj (known.symm.trans names.2.2)
      exact bound
    refine ⟨e, ⟨List.mem_append_left _ newest.1, fun other member => ?_⟩,
      cause.trans names.1, detail.trans names.2.1, ?_⟩
    · rcases List.mem_append.mp member with member | member
      · exact newest.2 other member
      · exact later other member
    · cases last : ((r.acceptedIn s (.reconcile w)).map (·.2.occurredAt)).max? with
      | none =>
        have none := List.map_eq_nil_iff.mp (List.max?_eq_none_iff.mp last)
        rw [quiet none, names.2.2]
      | some time =>
        obtain ⟨other, member, rfl⟩ := List.mem_map.mp (List.max?_mem last)
        rw [merged _ last, before, if_pos rfl, names.2.2, latest,
          if_neg (Nat.not_lt_of_le (later other member))]

/- What outputs are told. -/

theorem foldl_newest (driving : List (Name × LatchRecord)) (first : Name × LatchRecord)
    (dated : ∀ d ∈ first :: driving, ∃ time, d.2.setAt = some time) :
    let newest := driving.foldl (fun newest record =>
      if isNewer record.2.setAt newest.2.setAt then record else newest) first
    newest ∈ first :: driving ∧ ∀ d ∈ first :: driving, ∀ time ∈ d.2.setAt,
      ∃ latest ∈ newest.2.setAt, time ≤ latest := by
  induction driving generalizing first with
  | nil =>
    simp only [List.foldl_nil, List.mem_singleton, true_and]
    rintro d rfl time known
    exact ⟨time, known, Nat.le_refl time⟩
  | cons second driving ih =>
    simp only [List.foldl_cons]
    obtain ⟨t₁, first_at⟩ := dated first (by simp)
    obtain ⟨t₂, second_at⟩ := dated second (by simp)
    generalize chosen : (if isNewer second.2.setAt first.2.setAt then second else first) = picked
    have either : picked = first ∨ picked = second := by
      rw [← chosen]
      split
      · exact .inr rfl
      · exact .inl rfl
    have top : ∃ top ∈ picked.2.setAt, t₁ ≤ top ∧ t₂ ≤ top := by
      rw [← chosen, first_at, second_at]
      simp only [isNewer, decide_eq_true_eq]
      split
      · rename_i later
        exact ⟨t₂, second_at, Nat.le_of_lt later, Nat.le_refl t₂⟩
      · rename_i earlier
        exact ⟨t₁, first_at, Nat.le_refl t₁, Nat.le_of_not_lt earlier⟩
    obtain ⟨top, known, above₁, above₂⟩ := top
    obtain ⟨member, newest⟩ := ih picked fun d listed => by
      rcases List.mem_cons.mp listed with rfl | listed
      · exact ⟨top, known⟩
      · exact dated d (by simp [listed])
    obtain ⟨latest, reached, above⟩ := newest picked List.mem_cons_self top known
    refine ⟨?_, fun d listed time timed => ?_⟩
    · rcases List.mem_cons.mp member with same | listed
      · rw [same]
        rcases either with rfl | rfl
        · exact List.mem_cons_self
        · exact List.mem_cons_of_mem _ List.mem_cons_self
      · exact List.mem_cons_of_mem _ (List.mem_cons_of_mem _ listed)
    · rcases List.mem_cons.mp listed with rfl | listed
      · cases Option.some.inj (timed.symm.trans first_at)
        exact ⟨latest, reached, above₁.trans above⟩
      · rcases List.mem_cons.mp listed with rfl | listed
        · cases Option.some.inj (timed.symm.trans second_at)
          exact ⟨latest, reached, above₂.trans above⟩
        · exact newest d (List.mem_cons_of_mem _ listed) time timed

/-- The update is about an event of a rule that drives the output, and no rule that does
has accepted a newer one. -/
def Told (s : Engine) (accepted : Name → List (Name × ObservedEvent)) (o : Name)
    (update : OutputUpdate) : Prop :=
  ∃ r ∈ s.graph.rulesForOutput o, (s.latch r.name).state = true ∧ ∃ e ∈ accepted r.name,
    update.cause = e.1 ∧ update.detail = e.2.summary ∧ update.since = some e.2.occurredAt ∧
    ∀ q ∈ s.graph.rulesForOutput o, (s.latch q.name).state = true →
      ∀ other ∈ accepted q.name, other.2.occurredAt ≤ e.2.occurredAt

theorem buildUpdate_told {s : Engine} {accepted : Name → List (Name × ObservedEvent)} {o : Name}
    (sourced : ∀ n, Sourced (s.latch n) (accepted n)) (desired : s.desired o = true) :
    Told s accepted o (s.buildUpdate o true) := by
  obtain ⟨r, known, output, set⟩ := RuleGraph.desired_iff.mp desired
  generalize drove : ((s.graph.rulesForOutput o).map fun rule =>
    (rule.name, s.latch rule.name)).filter (·.2.state) = driving
  have driver : ∀ d, d ∈ driving ↔ ∃ q ∈ s.graph.rulesForOutput o,
      (s.latch q.name).state = true ∧ d = (q.name, s.latch q.name) := by
    intro d
    rw [← drove, List.mem_filter, List.mem_map]
    constructor
    · rintro ⟨⟨q, member, rfl⟩, latched⟩
      exact ⟨q, member, latched, rfl⟩
    · rintro ⟨q, member, latched, rfl⟩
      exact ⟨⟨q, member, rfl⟩, latched⟩
  have dated : ∀ d ∈ driving, ∃ time, d.2.setAt = some time := by
    intro d member
    obtain ⟨q, _, latched, rfl⟩ := (driver d).mp member
    obtain ⟨e, _, names⟩ := (sourced q.name).set latched
    exact ⟨_, names.2.2⟩
  cases driving with
  | nil =>
    have here := (driver _).mpr ⟨r, RuleGraph.mem_rulesForOutput.mpr ⟨known, output⟩, set, rfl⟩
    cases here
  | cons first rest =>
    obtain ⟨member, above⟩ := foldl_newest (first :: rest) first
      (by simpa only [List.mem_cons, or_self_left] using dated)
    generalize picked : (first :: rest).foldl _ first = newest at member above
    have built : s.buildUpdate o true = { s.buildUpdate o true with
        cause := newest.2.lastCause.getD "", detail := newest.2.lastDetail.getD "",
        since := newest.2.setAt } := by
      simp only [buildUpdate, Bool.not_true, Bool.false_eq_true, if_false, drove, ← picked]
    have listed : newest ∈ first :: rest := by
      rcases List.mem_cons.mp member with rfl | listed
      · exact List.mem_cons_self
      · exact listed
    obtain ⟨q, drives, latched, rfl⟩ := (driver newest).mp listed
    obtain ⟨e, newest, names⟩ := (sourced q.name).set latched
    rw [built]
    refine ⟨q, drives, latched, e, newest.1, ?_, ?_, names.2.2, ?_⟩
    · rw [names.1, Option.getD_some]
    · rw [names.2.1, Option.getD_some]
    · intro q' drives' latched' other accepted'
      obtain ⟨e', newest', names'⟩ := (sourced q'.name).set latched'
      have here := (driver _).mpr ⟨q', drives', latched', rfl⟩
      obtain ⟨latest, known', bound⟩ := above _ (List.mem_cons_of_mem _ here) _ names'.2.2
      cases Option.some.inj (known'.symm.trans names.2.2)
      exact (newest'.2 other accepted').trans bound

/- Whole runs. -/

namespace Engine

theorem turn_sent {s t : Engine} {a : Turn} (turned : turn s a = some t) :
    ∀ request ∈ t.dispatcher.queue.drop s.dispatcher.queue.length,
      request.update = t.buildUpdate request.instanceName (t.desired request.instanceName) := by
  have built : ∀ {now : Time} {m u : Engine}, Dispatched now m u →
      m.dispatcher.queue = s.dispatcher.queue →
      ∀ request ∈ u.dispatcher.queue.drop s.dispatcher.queue.length,
        request.update = u.buildUpdate request.instanceName (u.desired request.instanceName) := by
    intro now m u sent same request member
    rw [sent.queue, ← same, List.drop_left] at member
    obtain ⟨row, _, made⟩ := List.mem_filterMap.mp member
    split at made
    · cases made
      rw [sent.buildUpdate, sent.desired]
    · cases made
  cases a with
  | reconcile w =>
    obtain ⟨run⟩ := reconcile_run (turn_reconcile.mp turned)
    have same : run.forced.dispatcher.queue = s.dispatcher.queue := by
      rw [run.forced_eq]
    rw [run.ready]
    exact fun request member => built run.dispatched same request member
  | step step =>
    cases step with
    | tick w =>
      obtain ⟨m, fired, rfl⟩ := tick_ok (advance_tick.mp turned)
      have same : m.dispatcher.queue = s.dispatcher.queue :=
        congrArg Dispatcher.queue (fireDueTimers_moves fired).dispatcher
      rw [maybeWriteLastSeen_only]
      exact fun request member => built (dispatchDuePushes_spec w.now m) same request member
    | handle w message =>
      have idle : t.dispatcher.queue = s.dispatcher.queue := by
        have ran := advance_handle.mp turned
        cases message with
        | pushResult result =>
          exact congrArg Dispatcher.queue (handlePushResult_resulted ran).dispatcher
        | reload reload =>
          rw [handleReload_ok.mp ran, reloaded_only]
          cases plugins : reload.plugins <;> simp only [adopt, plugins] <;> rfl
        | _ => exact congrArg Dispatcher.queue (handle_moves (by simp) (by simp) ran).dispatcher
      rw [idle, List.drop_length]
      intro request member
      cases member

end Engine

/-- The daemon over its restarts, with the rows that a reload has read and not yet made
the cache, the events each latch has accepted since it was last clear, and the requests
of the last turn. -/
structure Witnessed where
  engine : Engine
  rows : Table LatchRecord
  accepted : Name → List (Name × ObservedEvent)
  sent : List PushRequest

namespace Witnessed

def blank : Witnessed where
  engine := Engine.init 0 .empty ⟨[], List.nodup_nil⟩ .empty .empty {}
  rows := ∅
  accepted := fun _ => []
  sent := []

/-- The daemon is started over the tables it left; the core takes a turn; or the reload
thread mirrors a configuration, reads the latches, or makes what it read the cache. -/
inductive Label
  | construct (now : Time) (configuration : Configuration)
  | turn (a : Turn)
  | mirror (configuration : Configuration)
  | read
  | assign

def retraced (s t : Engine) (a : Turn) (accepted : Name → List (Name × ObservedEvent)) (n : Name) :
    List (Name × ObservedEvent) :=
  match s.graph.rule n, a with
  | none, _ => accepted n
  | some r, .reconcile w =>
    if (t.latch n).state then
      (if r.ClearedIn s (.reconcile w) then [] else accepted n) ++ r.acceptedIn s (.reconcile w)
    else []
  | some r, .step step =>
    ((step.messages s).foldl (r.retrace s.plugins) (s.latch n, accepted n)).2

def step (s : Witnessed) : Label → Option Witnessed
  | .construct now configuration => some
    { s with engine := Daemon.assemble now s.engine.store configuration, sent := [] }
  | .turn a => (Engine.turn s.engine a).map fun t =>
    { s with
      engine := t
      accepted := retraced s.engine t a s.accepted
      sent := t.dispatcher.queue.drop s.engine.dispatcher.queue.length }
  | .mirror configuration => some
    { s with engine := s.engine.onStore (Daemon.mirrorConfiguration · configuration), sent := [] }
  | .read => some { s with rows := s.engine.store.latches, sent := [] }
  | .assign => some { s with engine := { s.engine with latches := s.rows }, sent := [] }

/-- Reconciliation moves no time, events come in order, and the rows that a reload makes
the cache are still the stored ones. -/
def Proper (s : Witnessed) : Label → Prop
  | .turn (.reconcile w) => ∀ r ∈ s.engine.graph.entries, r.Undisturbed s.engine w
  | .turn (.step step) => ∀ r ∈ s.engine.graph.entries,
    r.AllTimely s.engine.plugins (s.engine.latch r.name) (step.messages s.engine)
  | .assign => s.rows = s.engine.store.latches
  | _ => True

instance (s : Witnessed) (label : Label) : Decidable (Proper s label) :=
  match label with
  | .turn (.reconcile w) =>
    inferInstanceAs (Decidable (∀ r ∈ s.engine.graph.entries, r.Undisturbed s.engine w))
  | .turn (.step step) => inferInstanceAs (Decidable (∀ r ∈ s.engine.graph.entries,
    r.AllTimely s.engine.plugins (s.engine.latch r.name) (step.messages s.engine)))
  | .assign => decidable_of_iff (s.rows.entries = s.engine.store.latches.entries)
    ⟨AList.ext, congrArg AList.entries⟩
  | .construct _ _ | .mirror _ | .read => isTrue trivial

/-- Every set latch names the newest event since it was clear, and what is sent names the
newest event of the rules that drive the output. -/
structure Provenance (s : Witnessed) : Prop where
  latched : ∀ n, (s.engine.latch n).state = true →
    ∃ e, IsNewest e (s.accepted n) ∧ Names (s.engine.latch n) e
  told : ∀ request ∈ s.sent, request.update.state = true →
    Told s.engine s.accepted request.instanceName request.update

structure Kept (s : Witnessed) : Prop where
  tracked : ∀ n, Tracked s.engine n
  sourced : ∀ n, Sourced (s.engine.latch n) (s.accepted n)
  told : ∀ request ∈ s.sent, request.update.state = true →
    Told s.engine s.accepted request.instanceName request.update

theorem Kept.holds {s : Witnessed} (kept : Kept s) : Provenance s :=
  ⟨fun n => (kept.sourced n).set, kept.told⟩

theorem blank_kept : Kept blank :=
  ⟨fun _ => rfl, fun _ => ⟨fun _ => rfl, fun set => by cases set⟩, fun _ member => by cases member⟩

section Turns

variable {s t : Engine} {a : Turn} {accepted : Name → List (Name × ObservedEvent)}

theorem retraced_unknown {n : Name} (absent : n ∉ s.graph.entries.map (·.name)) :
    retraced s t a accepted n = accepted n := by
  have none : s.graph.rule n = none := by
    rw [RuleGraph.rule, List.find?_eq_none]
    intro r known same
    exact absent (List.mem_map.mpr ⟨r, known, of_decide_eq_true same⟩)
  simp only [retraced, none]

theorem reconcile_retraced {w : World} (sourced : ∀ n, Sourced (s.latch n) (accepted n))
    (undisturbed : ∀ r ∈ s.graph.entries, r.Undisturbed s w)
    (ran : Engine.reconcile w s = .ok ⟨⟩ t) (n : Name) :
    Sourced (t.latch n) (retraced s t (.reconcile w) accepted n) := by
  by_cases listed : n ∈ s.graph.entries.map (·.name)
  · obtain ⟨r, known, rfl⟩ := List.mem_map.mp listed
    simp only [retraced, RuleGraph.rule_eq_some.mpr ⟨known, rfl⟩]
    split
    · rename_i set
      have uncleared := reconcile_uncleared known (undisturbed r known) ran set
      rw [if_neg uncleared]
      exact reconcile_sourced known (sourced r.name) (undisturbed r known) ran set
    · rename_i clear
      exact ⟨fun _ => rfl, fun set => absurd set clear⟩
  · rw [retraced_unknown listed, (reconcile_spec ran).others n listed]
    exact sourced n

theorem step_retraced {step : Step} (tracked : ∀ n, Tracked s n)
    (sourced : ∀ n, Sourced (s.latch n) (accepted n))
    (timely : ∀ r ∈ s.graph.entries, r.AllTimely s.plugins (s.latch r.name) (step.messages s))
    (stepped : advance s step = some t) (n : Name) :
    Sourced (t.latch n) (retraced s t (.step step) accepted n) := by
  have followed := advance_followed stepped
  by_cases listed : n ∈ s.graph.entries.map (·.name)
  · obtain ⟨r, known, rfl⟩ := List.mem_map.mp listed
    obtain ⟨latch, kept⟩ := r.retrace_all (step.messages s) (sourced r.name) (timely r known)
    simp only [retraced, RuleGraph.rule_eq_some.mpr ⟨known, rfl⟩]
    rw [followed.latch r known (tracked r.name), ← latch]
    exact kept
  · rw [retraced_unknown listed, followed.others n listed (tracked n)]
    exact sourced n

theorem turn_told (sourced : ∀ n, Sourced (t.latch n) (accepted n)) (turned : turn s a = some t) :
    ∀ request ∈ t.dispatcher.queue.drop s.dispatcher.queue.length, request.update.state = true →
      Told t accepted request.instanceName request.update := by
  intro request member lit
  have built := turn_sent turned request member
  rw [built, buildUpdate_state] at lit
  rw [built, lit]
  exact buildUpdate_told sourced lit

end Turns

theorem Kept.turn {s : Witnessed} {t : Engine} {a : Turn} (kept : Kept s)
    (proper : Proper s (.turn a)) (turned : Engine.turn s.engine a = some t) :
    Kept { s with
      engine := t
      accepted := retraced s.engine t a s.accepted
      sent := t.dispatcher.queue.drop s.engine.dispatcher.queue.length } := by
  cases a with
  | reconcile w =>
    have ran := turn_reconcile.mp turned
    have sourced := reconcile_retraced kept.sourced proper ran
    exact ⟨fun n => (reconcile_spec ran).writes.tracked (kept.tracked n), sourced,
      turn_told sourced turned⟩
  | step step =>
    have sourced := step_retraced kept.tracked kept.sourced proper turned
    exact ⟨fun n => (advance_followed turned).tracked n (kept.tracked n), sourced,
      turn_told sourced turned⟩

/-- Between turns the latches stay what they are, and nothing is sent. -/
theorem step_reread {s t : Witnessed} {label : Label} (between : ∀ a, label ≠ .turn a)
    (tracked : ∀ n, Tracked s.engine n)
    (current : label = .assign → s.rows = s.engine.store.latches)
    (stepped : step s label = some t) : (∀ n, Tracked t.engine n) ∧
      (∀ n, t.engine.latch n = s.engine.latch n) ∧ t.accepted = s.accepted ∧ t.sent = [] := by
  cases label with
  | turn a => exact absurd rfl (between a)
  | construct now configuration =>
    cases stepped
    refine ⟨fun n => rfl, fun n => ?_, rfl, rfl⟩
    exact (Daemon.mirrorConfiguration_latch _ _ n).trans (tracked n).symm
  | mirror configuration =>
    cases stepped
    refine ⟨fun n => ?_, fun n => rfl, rfl, rfl⟩
    exact (tracked n).trans (Daemon.mirrorConfiguration_latch _ _ n).symm
  | read =>
    cases stepped
    exact ⟨tracked, fun n => rfl, rfl, rfl⟩
  | assign =>
    cases stepped
    have rows : ∀ n, ({ s.engine with latches := s.rows } : Engine).latch n =
        (s.engine.store.latch n).getD .fresh := by
      intro n
      rw [current rfl]
      rfl
    exact ⟨rows, fun n => (rows n).trans (tracked n).symm, rfl, rfl⟩

theorem step_kept (s : Witnessed) (label : Label) (t : Witnessed) (kept : Kept s)
    (proper : Proper s label) (stepped : step s label = some t) : Kept t := by
  by_cases turn : ∃ a, label = .turn a
  · obtain ⟨a, rfl⟩ := turn
    simp only [step, Option.map_eq_some_iff] at stepped
    obtain ⟨engine, turned, rfl⟩ := stepped
    exact kept.turn proper turned
  · have current : label = .assign → s.rows = s.engine.store.latches := by
      rintro rfl
      exact proper
    obtain ⟨tracked, latch, accepted, silent⟩ :=
      step_reread (not_exists.mp turn) kept.tracked current stepped
    refine ⟨tracked, fun n => ?_, fun request member => ?_⟩
    · rw [latch n, accepted]
      exact kept.sourced n
    · rw [silent] at member
      cases member

/-- In a run whose steps are proper, outputs are told of the newest event, and a set latch
names its newest one. -/
theorem provenance {labels : List Label} {t : Witnessed}
    (proper : Transition.Throughout step Proper blank labels)
    (ran : Transition.run step blank labels = some t) : Provenance t :=
  (Transition.guarded_invariant step_kept blank_kept proper ran).holds

namespace Sample

/-- A start at this time, in a world that answers what the inputs saw meanwhile. -/
def boot (now : Time) (meanwhile : List ObservedEvent) : List Label :=
  [.construct now Daemon.sampleConfiguration,
    .turn (.step (.handle (Sample.quiet now)
      (.reload ⟨Daemon.sampleConfiguration, some Sample.plugins, 0⟩))),
    .turn (.step (.tick (Sample.quiet now))),
    .turn (.reconcile { Sample.quiet now with catchUp := fun _ _ => .ok meanwhile })]

def letter (now : Time) : Label := .turn (.step (Sample.post now))

def acknowledge (now : Time) : Label :=
  .turn (.step (.handle (Sample.quiet now) (.unlatchRequest ⟨"lamp", "pressed"⟩)))

end Sample

/-- The letter of 6 is acknowledged on the lamp; a parcel comes while the daemon is down. -/
def interrupted : List Label :=
  Sample.boot 5 [] ++ [Sample.letter 6, Sample.acknowledge 7] ++ Sample.boot 20 [⟨15, "parcel"⟩]

/-- The parcel is reported as the lamp's own, with the text of the letter. -/
theorem parcel_unnamed : ¬ ∀ (labels : List Label) (t : Witnessed),
    Transition.run step blank labels = some t → Provenance t := by
  intro named
  obtain ⟨t, ran, set, cause, mail⟩ : ∃ t, Transition.run step blank interrupted = some t ∧
      (t.engine.latch "notify").state = true ∧
      (t.engine.latch "notify").lastCause = some "lamp" ∧
      ∀ e ∈ t.accepted "notify", e.1 = "mail" :=
    ⟨_, (Option.some_get (by decide +kernel)).symm, by decide +kernel, by decide +kernel,
      by decide +kernel⟩
  obtain ⟨e, newest, names⟩ := (named _ _ ran).latched "notify" set
  have lamp : e.1 = "lamp" := (Option.some.inj (cause.symm.trans names.1)).symm
  exact absurd (lamp.symm.trans (mail e newest.1)) (by decide)

/-- Two letters, the first of them pushed, and a reload in between. -/
def orderly : List Label :=
  Sample.boot 5 [] ++ [Sample.letter 6, .mirror Daemon.sampleConfiguration, .read, .assign,
    Sample.letter 9, .turn (.step (.handle (Sample.quiet 9) (.pushResult ⟨"lamp", false, true, none⟩))),
    .turn (.step (.tick (Sample.quiet 9)))]

theorem letters_named : ∃ t, Transition.run step blank orderly = some t ∧
    t.sent.map (·.update.cause) = ["mail"] ∧ Provenance t := by
  have ran : Transition.run step blank orderly = _ := (Option.some_get (by decide +kernel)).symm
  exact ⟨_, ran, by decide +kernel, provenance (by decide +kernel) ran⟩

end Witnessed

end NotiMapper
