import NotiMapper.Engine.Reacting
import NotiMapper.Engine.Startup

/-! Plugins that answer late. Reconciliation decides a latch from the plugins it can
reach; the others are asked again and their answers applied one by one, an input's
events like live ones and an output's report on its own. The latch ends as the last
of these said, which need not be what all answers together would have said. -/
namespace NotiMapper

open Python Effect Engine

/- All answers at once, and the same answers one by one. -/

/-- What each plugin answers, whenever it answers. -/
structure Oracle where
  events : Name → List ObservedEvent
  reports : Name → RemoteState
  known : ∀ o, (reports o).belief ≠ .unknown

/-- In this world every plugin answers by the oracle or not at all. -/
def Oracle.Speaks (oracle : Oracle) (since : Option Time) (w : World) : Prop :=
  (∀ i, w.catchUp i since = .ok (oracle.events i) ∨ ∃ error, w.catchUp i since = .error error) ∧
  ∀ o, queryOutput w o = oracle.reports o ∨ (queryOutput w o).belief = .unknown

namespace Rule

def newest (rule : Rule) (oracle : Oracle) : Option Time :=
  ((rule.inputs.flatMap oracle.events).map (·.occurredAt)).max?

def allReports (rule : Rule) (oracle : Oracle) : List RemoteState :=
  rule.outputs.map oracle.reports

end Rule

/-- Messages other than unlatch requests and reloads; a retry asks for the same events. -/
def Allowed (since : Option Time) : CoreMessage → Prop
  | .catchUp message => message.since = since
  | .unlatchRequest _ | .reload _ => False
  | _ => True

/-- Every plugin of the rule answers in `w₀` or in one of the retries that are heard. -/
structure LateAnswers (oracle : Oracle) (since : Option Time) (w₀ : World) (plugins : PluginSet)
    (r : Rule) (heard : List (World × CoreMessage)) : Prop where
  first : oracle.Speaks since w₀
  later : ∀ x ∈ heard, oracle.Speaks since x.1
  allowed : ∀ x ∈ heard, Allowed since x.2
  liveInputs : ∀ i ∈ r.inputs, i ∈ plugins.inputs
  liveOutputs : ∀ o ∈ r.outputs, o ∈ plugins.outputs
  inputs : ∀ i ∈ r.inputs, w₀.catchUp i since = .ok (oracle.events i) ∨
    ∃ w attempt, (w, .catchUp ⟨i, attempt, since⟩) ∈ heard ∧
      w.catchUp i since = .ok (oracle.events i)
  outputs : ∀ o ∈ r.outputs, queryOutput w₀ o = oracle.reports o ∨
    ∃ w attempt, (w, .reconcileOutput ⟨o, attempt⟩) ∈ heard ∧
      queryOutput w o = oracle.reports o

def Accepted (r : Rule) (heard : List (World × CoreMessage)) (message : InputEventMessage) : Prop :=
  (∃ w, (w, .inputEvent message) ∈ heard) ∧ message.instanceName ∈ r.inputs

/-- Without live events the latch is what one decision about all answers makes it; with
one that is later than every reported clear it is set. -/
def Impartial (oracle : Oracle) (r : Rule) (now : Time) (persisted : LatchRecord)
    (heard : List (World × CoreMessage)) (state : Bool) : Prop :=
  ((∀ message, ¬ Accepted r heard message) → state =
    (resolveRule now persisted (r.newest oracle) (r.allReports oracle)).state) ∧
  ((∃ message, Accepted r heard message ∧
    Outruns message.event.occurredAt (r.allReports oracle)) → state = true)

/-- The last answer that says anything is on the side of the later timestamp. -/
def InOrder (oracle : Oracle) (r : Rule) (plugins : PluginSet)
    (heard : List (World × CoreMessage)) : Prop :=
  ((∀ message, ¬ Accepted r heard message) →
    match Register.lastWrite (r.verdict plugins) heard with
    | none => True
    | some true => AnyCleared (r.allReports oracle) →
        ∃ e, r.newest oracle = some e ∧ Outruns e (r.allReports oracle)
    | some false => ∀ e, r.newest oracle = some e → ¬ Outruns e (r.allReports oracle)) ∧
  ((∃ message, Accepted r heard message ∧
    Outruns message.event.occurredAt (r.allReports oracle)) →
    Register.lastWrite (r.verdict plugins) heard = some true)

theorem resolveRule_congr {now : Time} {record : LatchRecord} {event : Option Time}
    {reports reports' : List RemoteState}
    (same : ∀ x : RemoteState, x.belief = .cleared → (x ∈ reports ↔ x ∈ reports')) :
    (resolveRule now record event reports).state = (resolveRule now record event reports').state := by
  have clears : AnyCleared reports ↔ AnyCleared reports' := by
    constructor
    · rintro ⟨x, member, cleared⟩
      exact ⟨x, (same x cleared).mp member, cleared⟩
    · rintro ⟨x, member, cleared⟩
      exact ⟨x, (same x cleared).mpr member, cleared⟩
  have outruns : ∀ e, Outruns e reports ↔ Outruns e reports' := by
    intro e
    constructor
    · exact fun later x member cleared => later x ((same x cleared).mpr member) cleared
    · exact fun later x member cleared => later x ((same x cleared).mp member) cleared
  by_cases cleared : AnyCleared reports
  · rw [Bool.eq_iff_iff, resolveRule_state cleared, resolveRule_state (clears.mp cleared)]
    simp only [outruns]
  · rw [(resolveRule_uncleared cleared).1, (resolveRule_uncleared (mt clears.mpr cleared)).1]

section Late

variable {oracle : Oracle} {since : Option Time} {w₀ : World} {plugins : PluginSet} {r : Rule}
variable {heard : List (World × CoreMessage)}

theorem LateAnswers.keeping (late : LateAnswers oracle since w₀ plugins r heard) :
    ∀ x ∈ heard, ∀ reload, x.2 ≠ .reload reload := by
  intro x member reload same
  have allowed := late.allowed x member
  rw [same] at allowed
  exact allowed

theorem newest_ne_none {i : Name} (listed : i ∈ r.inputs) (some_event : oracle.events i ≠ []) :
    r.newest oracle ≠ none := by
  unfold Rule.newest
  intro none_newest
  rw [List.max?_eq_none_iff, List.map_eq_nil_iff, List.flatMap_eq_nil_iff] at none_newest
  exact some_event (none_newest i listed)

theorem LateAnswers.set_by (late : LateAnswers oracle since w₀ plugins r heard)
    {x : World × CoreMessage} (member : x ∈ heard) (sets : r.verdict plugins x = some true) :
    (∃ message, Accepted r heard message) ∨ r.newest oracle ≠ none := by
  obtain ⟨w, message⟩ := x
  cases message with
  | inputEvent message =>
    simp only [Rule.verdict] at sets
    split at sets
    · rename_i listed
      exact .inl ⟨message, ⟨w, member⟩, listed⟩
    · cases sets
  | catchUp message =>
    have asked : message.since = since := late.allowed _ member
    simp only [Rule.verdict, asked] at sets
    split at sets
    · rename_i listed
      rcases (late.later _ member).1 message.instanceName with answer | ⟨error, answer⟩
      · rw [answer] at sets
        refine .inr (newest_ne_none listed.2 fun none_events => ?_)
        rw [none_events] at sets
        cases sets
      · rw [answer] at sets
        cases sets
    · cases sets
  | unlatchRequest message => exact (late.allowed _ member).elim
  | reconcileOutput message =>
    simp only [Rule.verdict] at sets
    split at sets <;> cases sets
  | _ => cases sets

theorem LateAnswers.cleared_by (late : LateAnswers oracle since w₀ plugins r heard)
    {x : World × CoreMessage} (member : x ∈ heard) (clears : r.verdict plugins x = some false) :
    AnyCleared (r.allReports oracle) := by
  obtain ⟨w, message⟩ := x
  cases message with
  | reconcileOutput message =>
    simp only [Rule.verdict] at clears
    split at clears
    · rename_i reported
      rcases (late.later _ member).2 message.instanceName with answer | unknown
      · exact ⟨_, List.mem_map.mpr ⟨_, reported.2.1, rfl⟩, answer ▸ reported.2.2⟩
      · have contradictory := unknown.symm.trans reported.2.2
        cases contradictory
    · cases clears
  | unlatchRequest message => exact (late.allowed _ member).elim
  | inputEvent message =>
    simp only [Rule.verdict] at clears
    split at clears <;> cases clears
  | catchUp message =>
    simp only [Rule.verdict] at clears
    split at clears
    · split at clears <;> cases clears
    · cases clears
  | _ => cases clears

theorem LateAnswers.no_events (late : LateAnswers oracle since w₀ plugins r heard)
    (silent : ∀ x ∈ heard, r.verdict plugins x = none) {i : Name} (listed : i ∈ r.inputs) :
    (downtimeOf w₀ plugins since i).getD [] = oracle.events i := by
  have live := late.liveInputs i listed
  simp only [downtimeOf, live, if_true]
  rcases late.inputs i listed with answer | ⟨w, attempt, member, answer⟩
  · rw [answer]
    rfl
  · have said := silent _ member
    simp only [Rule.verdict, live, listed, answer, and_self, if_true] at said
    have none_events : oracle.events i = [] := by
      cases events : oracle.events i with
      | nil => rfl
      | cons event rest => simp [events] at said
    rcases late.first.1 i with answer | ⟨error, answer⟩ <;> rw [answer, none_events] <;> rfl

theorem LateAnswers.same_clears (late : LateAnswers oracle since w₀ plugins r heard)
    (silent : ∀ x ∈ heard, r.verdict plugins x = none) (x : RemoteState)
    (cleared : x.belief = .cleared) :
    x ∈ r.reportsFrom (reportOf w₀ plugins) ↔ x ∈ r.allReports oracle := by
  simp only [Rule.reportsFrom, Rule.allReports, List.mem_filterMap, List.mem_map]
  constructor
  · rintro ⟨o, listed, reported⟩
    simp only [reportOf] at reported
    split at reported
    · rename_i answered
      cases Option.some.inj reported
      rcases late.first.2 o with answer | unknown
      · exact ⟨o, listed, answer.symm⟩
      · exact absurd unknown answered.2
    · cases reported
  · rintro ⟨o, listed, rfl⟩
    have live := late.liveOutputs o listed
    refine ⟨o, listed, ?_⟩
    rcases late.outputs o listed with answer | ⟨w, attempt, member, answer⟩
    · have answered : (queryOutput w₀ o).belief ≠ .unknown := by
        rw [answer]
        exact oracle.known o
      rw [← answer]
      exact if_pos ⟨live, answered⟩
    · have said := silent _ member
      simp [Rule.verdict, live, listed, answer, cleared] at said

/-- When no retry says anything, the first decision already had all that matters. -/
theorem LateAnswers.complete (late : LateAnswers oracle since w₀ plugins r heard)
    (silent : ∀ x ∈ heard, r.verdict plugins x = none) (now : Time) (record : LatchRecord) :
    (r.resolve now (downtimeOf w₀ plugins since) (reportOf w₀ plugins) record).state =
      (resolveRule now record (r.newest oracle) (r.allReports oracle)).state := by
  have events : r.eventsFrom (downtimeOf w₀ plugins since) = r.inputs.flatMap oracle.events :=
    List.flatMap_congr fun i listed => late.no_events silent listed
  unfold Rule.resolve
  rw [events]
  exact resolveRule_congr (late.same_clears silent)

theorem accepted_verdict {message : InputEventMessage} (accepted : Accepted r heard message) :
    ∃ x ∈ heard, r.verdict plugins x = some true := by
  obtain ⟨⟨w, member⟩, listed⟩ := accepted
  exact ⟨_, member, if_pos listed⟩

/-- An answer on the side of the later timestamp agrees with one decision about all. -/
theorem LateAnswers.verdict_iff (late : LateAnswers oracle since w₀ plugins r heard)
    (unaccepted : ∀ message, ¬ Accepted r heard message) {said : Bool}
    (last : Register.lastWrite (r.verdict plugins) heard = some said) (now : Time)
    (record : LatchRecord) :
    said = (resolveRule now record (r.newest oracle) (r.allReports oracle)).state ↔
      match (some said : Option Bool) with
      | none => True
      | some true => AnyCleared (r.allReports oracle) →
          ∃ e, r.newest oracle = some e ∧ Outruns e (r.allReports oracle)
      | some false => ∀ e, r.newest oracle = some e → ¬ Outruns e (r.allReports oracle) := by
  obtain ⟨x, member, wrote⟩ := Register.exists_of_lastWrite _ last
  cases said with
  | true =>
    by_cases cleared : AnyCleared (r.allReports oracle)
    · simp only [cleared, true_imp_iff, ← @resolveRule_state now record _ _ cleared]
      exact eq_comm
    · have event : r.newest oracle ≠ none :=
        (late.set_by member wrote).resolve_left fun ⟨message, accepted⟩ =>
          unaccepted message accepted
      have set := (@resolveRule_uncleared now record (r.newest oracle) _ cleared).1
      rw [Option.isSome_iff_ne_none.mpr event, Bool.or_true] at set
      simp only [cleared, false_imp_iff, set]
  | false =>
    have cleared := late.cleared_by member wrote
    have set := @resolveRule_state now record (r.newest oracle) _ cleared
    rw [eq_comm, ← Bool.not_eq_true, set]
    simp only [not_exists, not_and]

/-- What the retries leave agrees with one decision about all answers exactly when they
came in order. -/
theorem LateAnswers.impartial_iff (late : LateAnswers oracle since w₀ plugins r heard)
    (now : Time) (record : LatchRecord) :
    Impartial oracle r now record heard
      ((Register.lastWrite (r.verdict plugins) heard).getD
        (r.resolve now (downtimeOf w₀ plugins since) (reportOf w₀ plugins) record).state) ↔
      InOrder oracle r plugins heard := by
  unfold Impartial InOrder
  cases last : Register.lastWrite (r.verdict plugins) heard with
  | none =>
    have silent := (Register.lastWrite_eq_none _).mp last
    have unaccepted : ∀ message, ¬ Accepted r heard message := by
      intro message accepted
      obtain ⟨x, member, sets⟩ := accepted_verdict accepted
      cases sets.symm.trans (silent x member)
    constructor
    · intro _
      exact ⟨fun _ => trivial, fun ⟨message, accepted, _⟩ => (unaccepted message accepted).elim⟩
    · intro _
      exact ⟨fun _ => late.complete silent now record,
        fun ⟨message, accepted, _⟩ => (unaccepted message accepted).elim⟩
  | some said =>
    apply and_congr
    · exact imp_congr_right fun unaccepted => late.verdict_iff unaccepted last now record
    · simp only [Option.getD_some, Option.some.injEq]

end Late

namespace Engine

/-- After reconciliation, through any run of retries, live events, push results, polls and
ticks in which every plugin of the rule comes to answer: the latch ends as one decision
about all answers would have it, or set by a live event later than every clear, exactly
when the answers came in order. -/
theorem late_answers_impartial_iff (oracle : Oracle) (w₀ : World) (s₀ s t : Engine)
    (steps : List Step) (r : Rule) (known : r ∈ s₀.graph.entries)
    (started : reconcile w₀ s₀ = .ok ⟨⟩ s) (ran : Transition.run advance s steps = some t)
    (late : LateAnswers oracle s₀.store.lastSeenAt w₀ s₀.plugins r (messagesAlong s steps)) :
    Impartial oracle r w₀.now (s₀.latch r.name) (messagesAlong s steps) (t.latch r.name).state ↔
      InOrder oracle r s₀.plugins (messagesAlong s steps) := by
  have spec := reconcile_spec started
  rw [run_state late.keeping ran (spec.graph ▸ known), spec.latch r known, spec.plugins,
    ReconcileOutcome.applyTo_state]
  exact late.impartial_iff w₀.now (s₀.latch r.name)

/- The lamp reports a clear at 20 at once, the mail its one event on the first retry. -/

def lateMail (eventAt : Time) : Oracle where
  events := fun _ => [⟨eventAt, "post"⟩]
  reports := fun _ => ⟨.cleared, some 20⟩
  known := fun _ => by simp

def mailSilent : World where
  now := 40
  catchUp := fun _ _ => .error "ConnectionError: refused"
  query := fun _ => .ok ⟨.cleared, some 20⟩
  health := fun _ _ => .ok ⟨.ok, ""⟩

def mailAnswers (eventAt : Time) : World :=
  { mailSilent with now := 80, catchUp := fun _ _ => .ok [⟨eventAt, "post"⟩] }

def lateStart : Engine := Sample.engine (Sample.store .fresh)

def mailRetry (eventAt : Time) : Step := .handle (mailAnswers eventAt) (.catchUp ⟨"mail", 1, none⟩)

theorem heard_once (s : Engine) (w : World) (message : CoreMessage) :
    messagesAlong s [.handle w message] = [(w, message)] := by
  simp only [messagesAlong, Step.messages]
  cases advance s (.handle w message) <;> rfl

theorem mail_answers_late (eventAt : Time) :
    LateAnswers (lateMail eventAt) none mailSilent Sample.plugins Sample.rule
      [(mailAnswers eventAt, .catchUp ⟨"mail", 1, none⟩)] where
  first := ⟨fun _ => .inr ⟨_, rfl⟩, fun _ => .inl rfl⟩
  later := by
    intro x member
    rw [List.mem_singleton.mp member]
    exact ⟨fun _ => .inl rfl, fun _ => .inl rfl⟩
  allowed := by
    intro x member
    rw [List.mem_singleton.mp member]
    rfl
  liveInputs := by decide
  liveOutputs := by decide
  inputs := by
    intro i listed
    rw [List.mem_singleton.mp listed]
    exact .inr ⟨mailAnswers eventAt, 1, List.mem_singleton.mpr rfl, rfl⟩
  outputs := fun _ _ => .inl rfl

/-- An event at 10, heard only after the clear at 20 was applied, sets the latch. -/
theorem old_event_wins :
    ¬ ∀ (oracle : Oracle) (w₀ : World) (s₀ s t : Engine) (steps : List Step) (r : Rule),
      r ∈ s₀.graph.entries → reconcile w₀ s₀ = .ok ⟨⟩ s →
      Transition.run advance s steps = some t →
      LateAnswers oracle s₀.store.lastSeenAt w₀ s₀.plugins r (messagesAlong s steps) →
      Impartial oracle r w₀.now (s₀.latch r.name) (messagesAlong s steps)
        (t.latch r.name).state := by
  intro impartial
  have started := ok_of_returned (x := reconcile mailSilent) (s := lateStart) (by decide +kernel)
  have ran : Transition.run advance (final (reconcile mailSilent) lateStart) [mailRetry 10] = _ :=
    (Option.some_get (by decide +kernel)).symm
  have agreed := impartial (lateMail 10) mailSilent lateStart _ _ [mailRetry 10] Sample.rule
    (by decide) started ran (by
      rw [mailRetry, heard_once]
      exact mail_answers_late 10)
  have unaccepted : ∀ message, ¬ Accepted Sample.rule
      (messagesAlong (final (reconcile mailSilent) lateStart) [mailRetry 10]) message := by
    rintro message ⟨⟨w, member⟩, _⟩
    rw [mailRetry, heard_once] at member
    cases List.mem_singleton.mp member
  have same := agreed.1 unaccepted
  revert same
  decide +kernel

theorem new_event_in_order :
    Impartial (lateMail 30) Sample.rule 40 (lateStart.latch "notify")
      [(mailAnswers 30, .catchUp ⟨"mail", 1, none⟩)] true := by
  have started := ok_of_returned (x := reconcile mailSilent) (s := lateStart) (by decide +kernel)
  obtain ⟨t, ran, lit⟩ : ∃ t, Transition.run advance (final (reconcile mailSilent) lateStart)
      [mailRetry 30] = some t ∧ (t.latch "notify").state = true :=
    ⟨_, (Option.some_get (by decide +kernel)).symm, by decide +kernel⟩
  have heard := heard_once (final (reconcile mailSilent) lateStart) (mailAnswers 30)
    (.catchUp ⟨"mail", 1, none⟩)
  have spec := late_answers_impartial_iff (lateMail 30) mailSilent lateStart _ t [mailRetry 30]
    Sample.rule (by decide) started ran (by
      rw [mailRetry, heard]
      exact mail_answers_late 30)
  rw [mailRetry, heard, show Sample.rule.name = "notify" from rfl, lit] at spec
  apply spec.mpr
  have last : Register.lastWrite (Sample.rule.verdict lateStart.plugins)
      [(mailAnswers 30, .catchUp ⟨"mail", 1, none⟩)] = some true := by decide
  unfold InOrder
  rw [last]
  refine ⟨fun _ _ => ⟨30, by decide, ?_⟩, fun _ => rfl⟩
  intro x member _ clear dated
  have only : x = ⟨.cleared, some 20⟩ := by simpa [Rule.allReports, Sample.rule, lateMail] using member
  subst only
  cases dated
  decide

end Engine

end NotiMapper
