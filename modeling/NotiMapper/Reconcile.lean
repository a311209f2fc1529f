import NotiMapper.Plugin
import Mathlib.Order.Bounds.Basic

/-! Startup reconciliation: deciding what a latch should be after downtime. The
decision is pure; what it amounts to is stated once, as `resolveRule_cleared`,
`resolveRule_uncleared` and the facts about `eventIsNewer`. -/
namespace NotiMapper

/-- What a rule's latch should be, and why. -/
structure ReconcileOutcome where
  state : Bool
  setAt : Option Time
  clearedAt : Option Time
  reason : String
  deriving DecidableEq, Repr

/-- The record `_apply_reconcile_outcome` writes. -/
def ReconcileOutcome.applyTo (outcome : ReconcileOutcome) (record : LatchRecord)
    (extraTriggers : Nat) : LatchRecord :=
  { record with
    state := outcome.state
    setAt := outcome.setAt
    clearedAt := outcome.clearedAt
    triggerCount := record.triggerCount + extraTriggers }

@[simp] theorem ReconcileOutcome.applyTo_state (outcome : ReconcileOutcome)
    (record : LatchRecord) (extra : Nat) : (outcome.applyTo record extra).state = outcome.state :=
  rfl

@[simp] theorem ReconcileOutcome.applyTo_setAt (outcome : ReconcileOutcome)
    (record : LatchRecord) (extra : Nat) : (outcome.applyTo record extra).setAt = outcome.setAt :=
  rfl

def latest (first : Option Time) (second : Time) : Time :=
  match first with
  | none => second
  | some first => if first < second then second else first

/-- `max(known_clear_times)`, of the reports that carry a time. -/
def clearTime (clearedReports : List RemoteState) : Option Time :=
  (clearedReports.filterMap (·.clearedAt)).max?

def eventIsNewer (latestDowntimeEvent clearTime : Option Time) : Bool :=
  match latestDowntimeEvent, clearTime with
  | none, _ => false
  | some _, none => true
  | some event, some clear => clear < event

def resolveWithClear (now : Time) (persisted : LatchRecord) (latestDowntimeEvent : Option Time)
    (clearedReports : List RemoteState) : ReconcileOutcome :=
  let clear := clearTime clearedReports
  if eventIsNewer latestDowntimeEvent clear then
    { state := true
      setAt := latestDowntimeEvent
      clearedAt := clear.or persisted.clearedAt
      reason := "cleared remotely during downtime, then a later event arrived" }
  else
    { state := false
      setAt := persisted.setAt
      clearedAt := some (clear.getD now)
      reason := "an output reports it was cleared during downtime" }

def clearedReports (outputReports : List RemoteState) : List RemoteState :=
  outputReports.filter (·.belief = .cleared)

/-- Decide one rule's latch state from persisted state and what was observed. -/
def resolveRule (now : Time) (persisted : LatchRecord) (latestDowntimeEvent : Option Time)
    (outputReports : List RemoteState) : ReconcileOutcome :=
  let cleared := clearedReports outputReports
  let activeReported := outputReports.any (·.belief = .active)
  if !cleared.isEmpty then resolveWithClear now persisted latestDowntimeEvent cleared
  else match latestDowntimeEvent with
  | some event =>
    if persisted.state then
      { state := true
        setAt := some (latest persisted.setAt event)
        clearedAt := persisted.clearedAt
        reason := "latch was already set and an event arrived during downtime" }
    else
      { state := true
        setAt := some event
        clearedAt := persisted.clearedAt
        reason := "an event arrived during downtime" }
  | none =>
    if activeReported && persisted.state then
      { state := true
        setAt := persisted.setAt
        clearedAt := persisted.clearedAt
        reason := "an output reports the state is still active" }
    else if activeReported && !persisted.state then
      { state := false
        setAt := persisted.setAt
        clearedAt := persisted.clearedAt
        reason := "an output still shows active, but the latch was deliberately cleared" }
    else
      { state := persisted.state
        setAt := persisted.setAt
        clearedAt := persisted.clearedAt
        reason := "no output could be reached; persisted state stands" }

/-- Some output reports a clear. -/
def AnyCleared (reports : List RemoteState) : Prop := ∃ r ∈ reports, r.belief = .cleared

instance (reports : List RemoteState) : Decidable (AnyCleared reports) :=
  inferInstanceAs (Decidable (∃ r ∈ reports, r.belief = .cleared))

/-- The event is later than every dated clear among the reports; an undated clear
loses to any event. -/
def Outruns (event : Time) (reports : List RemoteState) : Prop :=
  ∀ r ∈ reports, r.belief = .cleared → ∀ clear, r.clearedAt = some clear → clear < event

instance (event : Time) (reports : List RemoteState) : Decidable (Outruns event reports) :=
  inferInstanceAs (Decidable (∀ r ∈ reports, r.belief = .cleared → ∀ clear ∈ r.clearedAt,
    clear < event))

theorem clearedReports_isEmpty {reports : List RemoteState} :
    (clearedReports reports).isEmpty = true ↔ ¬ AnyCleared reports := by
  simp only [clearedReports, List.isEmpty_iff, List.filter_eq_nil_iff, decide_eq_true_eq,
    AnyCleared, not_exists, not_and]

theorem eventIsNewer_iff {event : Option Time} {reports : List RemoteState} :
    eventIsNewer event (clearTime (clearedReports reports)) = true ↔
      ∃ e, event = some e ∧ Outruns e reports := by
  have dated : ∀ clear, clear ∈ (clearedReports reports).filterMap (·.clearedAt) ↔
      ∃ r ∈ reports, r.belief = .cleared ∧ r.clearedAt = some clear := by
    intro clear
    simp only [clearedReports, List.mem_filterMap, List.mem_filter, decide_eq_true_eq, and_assoc]
  cases event with
  | none => simp [eventIsNewer]
  | some e =>
    cases known : clearTime (clearedReports reports) with
    | none =>
      have undated : (clearedReports reports).filterMap (·.clearedAt) = [] :=
        List.max?_eq_none_iff.mp known
      have outruns : Outruns e reports := by
        intro r hr belief clear hc
        have member := (dated clear).mpr ⟨r, hr, belief, hc⟩
        rw [undated] at member
        cases member
      simp [eventIsNewer, outruns]
    | some clear =>
      have newest := List.max?_eq_some_iff.mp known
      simp only [eventIsNewer, decide_eq_true_eq, Option.some.injEq, exists_eq_left']
      constructor
      · intro later r hr belief c hc
        exact Nat.lt_of_le_of_lt (newest.2 c ((dated c).mpr ⟨r, hr, belief, hc⟩)) later
      · intro outruns
        obtain ⟨r, hr, belief, hc⟩ := (dated clear).mp newest.1
        exact outruns r hr belief clear hc

/-- With a clear reported, the latch ends set exactly when an event outruns it. -/
theorem resolveRule_cleared {now : Time} {persisted : LatchRecord} {event : Option Time}
    {reports : List RemoteState} (cleared : AnyCleared reports) :
    resolveRule now persisted event reports =
      resolveWithClear now persisted event (clearedReports reports) := by
  have nonempty : (!(clearedReports reports).isEmpty) = true := by
    rw [Bool.not_eq_true', ← Bool.not_eq_true, clearedReports_isEmpty, not_not]
    exact cleared
  simp only [resolveRule, nonempty, if_true]

/-- Without one, an event sets the latch and nothing else moves it. -/
theorem resolveRule_uncleared {now : Time} {persisted : LatchRecord} {event : Option Time}
    {reports : List RemoteState} (uncleared : ¬ AnyCleared reports) :
    (resolveRule now persisted event reports).state = (persisted.state || event.isSome) ∧
    (resolveRule now persisted event reports).clearedAt = persisted.clearedAt ∧
    (event = none → (resolveRule now persisted event reports).setAt = persisted.setAt) := by
  have empty : (!(clearedReports reports).isEmpty) = false := by
    rw [Bool.not_eq_false', clearedReports_isEmpty]
    exact uncleared
  simp only [resolveRule, empty, Bool.false_eq_true, if_false]
  cases event with
  | some e => cases persisted.state <;> simp
  | none =>
    cases persisted.state <;> cases reports.any (fun r => decide (r.belief = .active)) <;> simp

theorem resolveRule_state {now : Time} {persisted : LatchRecord} {event : Option Time}
    {reports : List RemoteState} (cleared : AnyCleared reports) :
    (resolveRule now persisted event reports).state = true ↔
      ∃ e, event = some e ∧ Outruns e reports := by
  rw [resolveRule_cleared cleared, ← eventIsNewer_iff]
  simp only [resolveWithClear]
  cases eventIsNewer event (clearTime (clearedReports reports)) <;> simp

/-- Without a downtime event a decision never sets a latch, and a latch it leaves
set keeps its time. -/
theorem resolveRule_eventless {now : Time} {persisted : LatchRecord}
    {reports : List RemoteState} :
    (resolveRule now persisted none reports).setAt = persisted.setAt ∧
    (resolveRule now persisted none reports).state =
      (persisted.state && !decide (AnyCleared reports)) := by
  by_cases cleared : AnyCleared reports
  · rw [resolveRule_cleared cleared]
    simp [resolveWithClear, eventIsNewer, cleared]
  · have spec := @resolveRule_uncleared now persisted none reports cleared
    exact ⟨spec.2.2 rfl, by simp [spec.1, cleared]⟩

/- The documented rules, and that the decision meets them. -/

/-- The known times of the reported clears. -/
def ClearTimes (reports : List RemoteState) : Set Time :=
  {clear | ∃ r ∈ reports, r.belief = .cleared ∧ r.clearedAt = some clear}

/-- The maximum of the known clear times, where there are any. -/
def NewestClear (reports : List RemoteState) : Option Time → Prop
  | none => ClearTimes reports = ∅
  | some clear => IsGreatest (ClearTimes reports) clear

/-- The time of a latch that an event sets, or moves if it was set already. -/
def setAtAfter (persisted : LatchRecord) : Option Time → Option Time
  | none => persisted.setAt
  | some event => some (if persisted.state then persisted.setAt.elim event (max event) else event)

/-- What a decision must be: rule 1 where some output reports a clear, rules 2 to 4
where none does. -/
structure Resolution (now : Time) (persisted : LatchRecord) (event : Option Time)
    (reports : List RemoteState) (outcome : ReconcileOutcome) : Prop where
  reset_iff : AnyCleared reports → ∀ c, NewestClear reports c →
    (outcome.state = true ↔ ∃ e, event = some e ∧ ∀ clear, c = some clear → clear < e)
  reset : AnyCleared reports → ∀ c, NewestClear reports c → outcome.state = true →
    outcome.setAt = event ∧ outcome.clearedAt = c.or persisted.clearedAt
  clear : AnyCleared reports → ∀ c, NewestClear reports c → outcome.state = false →
    outcome.setAt = persisted.setAt ∧ outcome.clearedAt = some (c.getD now)
  uncleared : ¬ AnyCleared reports →
    outcome.state = (persisted.state || event.isSome) ∧
    outcome.setAt = setAtAfter persisted event ∧ outcome.clearedAt = persisted.clearedAt

/-- Two decisions that differ at most in the reason they give. -/
def ReconcileOutcome.SameLatch (a b : ReconcileOutcome) : Prop :=
  a.state = b.state ∧ a.setAt = b.setAt ∧ a.clearedAt = b.clearedAt

theorem mem_clearTimes {reports : List RemoteState} {clear : Time} :
    clear ∈ (clearedReports reports).filterMap (·.clearedAt) ↔ clear ∈ ClearTimes reports := by
  simp only [clearedReports, List.mem_filterMap, List.mem_filter, decide_eq_true_eq, and_assoc,
    ClearTimes, Set.mem_ofPred_eq]

theorem clearTime_eq_iff {reports : List RemoteState} {c : Option Time} :
    clearTime (clearedReports reports) = c ↔ NewestClear reports c := by
  cases c with
  | none =>
    simp only [clearTime, NewestClear, List.max?_eq_none_iff, List.eq_nil_iff_forall_not_mem,
      mem_clearTimes, Set.eq_empty_iff_forall_notMem]
  | some clear =>
    simp only [clearTime, NewestClear, List.max?_eq_some_iff, mem_clearTimes, IsGreatest,
      mem_upperBounds]

theorem newestClear_exists (reports : List RemoteState) : ∃ c, NewestClear reports c :=
  ⟨_, clearTime_eq_iff.mp rfl⟩

theorem eventIsNewer_eq_true {event c : Option Time} :
    eventIsNewer event c = true ↔ ∃ e, event = some e ∧ ∀ clear, c = some clear → clear < e := by
  cases event <;> cases c <;> simp [eventIsNewer]

theorem latest_eq_max (first : Option Time) (second : Time) :
    latest first second = first.elim second (max second) := by
  cases first with
  | none => rfl
  | some first =>
    simp only [latest, Option.elim_some]
    split
    · rename_i later
      exact (max_eq_left_of_lt later).symm
    · rename_i earlier
      exact (max_eq_right (not_lt.mp earlier)).symm

theorem resolveRule_setAt {now : Time} {persisted : LatchRecord} {event : Option Time}
    {reports : List RemoteState} (uncleared : ¬ AnyCleared reports) :
    (resolveRule now persisted event reports).setAt = setAtAfter persisted event := by
  cases event with
  | none => exact (resolveRule_uncleared uncleared).2.2 rfl
  | some e =>
    have empty : (!(clearedReports reports).isEmpty) = false := by
      rw [Bool.not_eq_false', clearedReports_isEmpty]
      exact uncleared
    simp only [resolveRule, empty, Bool.false_eq_true, if_false, setAtAfter, latest_eq_max]
    split <;> rfl

theorem resolveRule_resolution (now : Time) (persisted : LatchRecord) (event : Option Time)
    (reports : List RemoteState) :
    Resolution now persisted event reports (resolveRule now persisted event reports) where
  reset_iff := by
    intro cleared c newest
    rw [resolveRule_cleared cleared, ← eventIsNewer_eq_true, ← clearTime_eq_iff.mpr newest]
    simp only [resolveWithClear]
    cases eventIsNewer event (clearTime (clearedReports reports)) <;> simp
  reset := by
    intro cleared c newest
    rw [resolveRule_cleared cleared, ← clearTime_eq_iff.mpr newest]
    simp only [resolveWithClear]
    cases eventIsNewer event (clearTime (clearedReports reports)) <;> simp
  clear := by
    intro cleared c newest
    rw [resolveRule_cleared cleared, ← clearTime_eq_iff.mpr newest]
    simp only [resolveWithClear]
    cases eventIsNewer event (clearTime (clearedReports reports)) <;> simp
  uncleared := by
    intro uncleared
    have spec := @resolveRule_uncleared now persisted event reports uncleared
    exact ⟨spec.1, resolveRule_setAt uncleared, spec.2.1⟩

/-- The rules leave nothing open but the reason. -/
theorem Resolution.unique {now : Time} {persisted : LatchRecord} {event : Option Time}
    {reports : List RemoteState} {a b : ReconcileOutcome}
    (ha : Resolution now persisted event reports a)
    (hb : Resolution now persisted event reports b) : a.SameLatch b := by
  by_cases cleared : AnyCleared reports
  · obtain ⟨c, newest⟩ := newestClear_exists reports
    have state : a.state = b.state := by
      rw [Bool.eq_iff_iff, ha.reset_iff cleared c newest, hb.reset_iff cleared c newest]
    cases ended : a.state with
    | true =>
      have left := ha.reset cleared c newest ended
      have right := hb.reset cleared c newest (state.symm.trans ended)
      exact ⟨state, left.1.trans right.1.symm, left.2.trans right.2.symm⟩
    | false =>
      have left := ha.clear cleared c newest ended
      have right := hb.clear cleared c newest (state.symm.trans ended)
      exact ⟨state, left.1.trans right.1.symm, left.2.trans right.2.symm⟩
  · have left := ha.uncleared cleared
    have right := hb.uncleared cleared
    exact ⟨left.1.trans right.1.symm, left.2.1.trans right.2.1.symm, left.2.2.trans right.2.2.symm⟩

/-- Two collections of reports with the same clears: they may differ in order, in
repetitions, and in what is reported as active or unknown. -/
def SameClears (reports others : List RemoteState) : Prop :=
  ∀ r : RemoteState, r.belief = .cleared → (r ∈ reports ↔ r ∈ others)

theorem SameClears.anyCleared {reports others : List RemoteState}
    (same : SameClears reports others) : AnyCleared reports ↔ AnyCleared others := by
  constructor
  · rintro ⟨r, member, belief⟩
    exact ⟨r, (same r belief).mp member, belief⟩
  · rintro ⟨r, member, belief⟩
    exact ⟨r, (same r belief).mpr member, belief⟩

theorem SameClears.clearTimes {reports others : List RemoteState}
    (same : SameClears reports others) : ClearTimes reports = ClearTimes others := by
  ext clear
  constructor
  · rintro ⟨r, member, belief, known⟩
    exact ⟨r, (same r belief).mp member, belief, known⟩
  · rintro ⟨r, member, belief, known⟩
    exact ⟨r, (same r belief).mpr member, belief, known⟩

/-- Only the reported clears bear on the latch. -/
theorem Resolution.of_sameClears {now : Time} {persisted : LatchRecord} {event : Option Time}
    {reports others : List RemoteState} {outcome : ReconcileOutcome}
    (same : SameClears reports others) (h : Resolution now persisted event reports outcome) :
    Resolution now persisted event others outcome := by
  have newest : ∀ c, NewestClear others c → NewestClear reports c := by
    intro c known
    cases c with
    | none => exact same.clearTimes.trans known
    | some clear =>
      unfold NewestClear
      rw [same.clearTimes]
      exact known
  have any := same.anyCleared
  exact ⟨fun cleared c known => h.reset_iff (any.mpr cleared) c (newest c known),
    fun cleared c known => h.reset (any.mpr cleared) c (newest c known),
    fun cleared c known => h.clear (any.mpr cleared) c (newest c known),
    fun uncleared => h.uncleared (mt any.mp uncleared)⟩

/-- The decision meets the documented rules, and neither the order of the reports,
their number, nor those that report no clear make a difference to the latch. -/
theorem resolveRule_documented (now : Time) (persisted : LatchRecord) (event : Option Time)
    (reports : List RemoteState) :
    Resolution now persisted event reports (resolveRule now persisted event reports) ∧
    ∀ others, SameClears reports others →
      (resolveRule now persisted event reports).SameLatch
        (resolveRule now persisted event others) := by
  refine ⟨resolveRule_resolution now persisted event reports, ?_⟩
  intro others same
  have here := (resolveRule_resolution now persisted event reports).of_sameClears same
  exact here.unique (resolveRule_resolution now persisted event others)

/-- Reconciling the written record again, with no new event and the same reports,
finds the same state and the same time. -/
def Settled (now later : Time) (record : LatchRecord) (event : Option Time)
    (reports : List RemoteState) (extraTriggers : Nat) : Prop :=
  let outcome := resolveRule now record event reports
  let again := resolveRule later (outcome.applyTo record extraTriggers) none reports
  again.state = outcome.state ∧ again.setAt = outcome.setAt

/-- A second reconciliation settles on the first one's result unless that result
was to re-set the latch: the old clear, still reported, then clears it again. -/
theorem settled_iff (now later : Time) (record : LatchRecord) (event : Option Time)
    (reports : List RemoteState) (extraTriggers : Nat) :
    Settled now later record event reports extraTriggers ↔
      ¬ (AnyCleared reports ∧ ∃ e, event = some e ∧ Outruns e reports) := by
  have again := @resolveRule_eventless later
    ((resolveRule now record event reports).applyTo record extraTriggers) reports
  simp only [Settled, again.1, again.2, ReconcileOutcome.applyTo_state,
    ReconcileOutcome.applyTo_setAt, and_true]
  by_cases cleared : AnyCleared reports
  · have set := @resolveRule_state now record event reports cleared
    simp only [cleared, decide_true, Bool.not_true, Bool.and_false, true_and, ← set]
    cases (resolveRule now record event reports).state <;> simp
  · simp [cleared]

/-- A latch re-set by an event at 20, after a clear at 10, is dropped by the next
reconciliation. -/
theorem resettled_latch_dropped :
    ¬ ∀ (now later : Time) (record : LatchRecord) (event : Option Time)
      (reports : List RemoteState) (extraTriggers : Nat), now ≤ later →
      Settled now later record event reports extraTriggers := by
  intro settled
  have dropped := settled 30 40 .fresh (some 20) [⟨.cleared, some 10⟩] 1 (by decide)
  revert dropped
  unfold Settled
  decide

end NotiMapper
