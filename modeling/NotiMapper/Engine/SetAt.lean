import NotiMapper.Library.Newest
import NotiMapper.Engine.Reacting
import NotiMapper.Engine.Startup

/-! The time a latch was set. Reconciliation takes the later of the stored time and the
events; a live event overwrites it. Between two clears it is the time of the newest event
exactly when no live event is handled after a newer one. -/
namespace NotiMapper

open Python Effect Engine

namespace Rule

/-- The events a message brings the rule, with the inputs they are from. -/
def accepts (rule : Rule) (plugins : PluginSet) :
    World × CoreMessage → List (Name × ObservedEvent)
  | (_, .inputEvent message) =>
    if message.instanceName ∈ rule.inputs then [(message.instanceName, message.event)] else []
  | (w, .catchUp message) =>
    if message.instanceName ∈ plugins.inputs ∧ message.instanceName ∈ rule.inputs then
      match w.catchUp message.instanceName message.since with
      | .ok events => events.map (message.instanceName, ·)
      | .error _ => []
    else []
  | _ => []

end Rule

def heed (record : LatchRecord) (accepted : Name × ObservedEvent) : LatchRecord :=
  triggered record accepted.2.occurredAt accepted.1 accepted.2.summary

theorem answered_uncleared {now : Time} {state : RemoteState} (record : LatchRecord)
    (other : state.belief ≠ .cleared) : answered now state record = record := by
  have uncleared : ¬ AnyCleared [state] := by
    simp only [AnyCleared, List.mem_singleton, exists_eq_left]
    exact other
  have spec := @resolveRule_uncleared now record none [state] uncleared
  have time := spec.2.2 rfl
  simp only [answered, ReconcileOutcome.applyTo, spec.1, spec.2.1, time, Option.isSome_none,
    Bool.or_false, Nat.add_zero]

theorem Rule.replay_heed (rule : Rule) {name : Name} (listed : name ∈ rule.inputs)
    (events : List ObservedEvent) (record : LatchRecord) :
    rule.replay name events record = (events.map (name, ·)).foldl heed record := by
  unfold replay
  rw [List.foldl_map]
  congr 1
  funext record event
  simp only [hear, listed, if_true, heed]

theorem Rule.replay_unlisted (rule : Rule) {name : Name} (unlisted : name ∉ rule.inputs)
    (events : List ObservedEvent) (record : LatchRecord) :
    rule.replay name events record = record := by
  unfold replay
  induction events with
  | nil => rfl
  | cons event events ih => simpa only [List.foldl_cons, hear, unlisted, if_false] using ih

theorem Rule.react_heed (rule : Rule) (plugins : PluginSet) {w : World} {message : CoreMessage}
    (uncleared : rule.verdict plugins (w, message) ≠ some false) (record : LatchRecord) :
    rule.react plugins w message record =
      (rule.accepts plugins (w, message)).foldl heed record := by
  cases message with
  | inputEvent message =>
    simp only [react, hear, accepts]
    split <;> rfl
  | unlatchRequest message =>
    have unlisted : message.instanceName ∉ rule.outputs := by
      intro listed
      simp [verdict, listed] at uncleared
    simp only [react, obey, unlisted, false_and, if_false, accepts, List.foldl_nil]
  | reconcileOutput message =>
    simp only [react, accepts, List.foldl_nil]
    split
    · rename_i live
      simp only [consult]
      split
      · rename_i answer
        apply answered_uncleared
        intro cleared
        exact uncleared (by simp [verdict, live, answer.2, cleared])
      · rfl
    · rfl
  | catchUp message =>
    simp only [react, accepts]
    by_cases live : message.instanceName ∈ plugins.inputs
    · cases answer : w.catchUp message.instanceName message.since with
      | error failure => simp [live]
      | ok events =>
        by_cases listed : message.instanceName ∈ rule.inputs
        · simp only [live, listed, and_self, if_true]
          exact rule.replay_heed listed events record
        · simp only [live, listed, and_false, if_true, if_false, List.foldl_nil]
          exact rule.replay_unlisted listed events record
    · simp [live]
  | _ => rfl

theorem heed_foldl (accepted : List (Name × ObservedEvent)) (record : LatchRecord) :
    (accepted.foldl heed record).state = (record.state || !accepted.isEmpty) ∧
    (accepted.foldl heed record).triggerCount = record.triggerCount + accepted.length ∧
    (accepted.foldl heed record).setAt =
      (accepted.getLast?.map (·.2.occurredAt)).or record.setAt := by
  induction accepted generalizing record with
  | nil => simp
  | cons first accepted ih =>
    obtain ⟨state, count, time⟩ := ih (heed record first)
    rw [List.foldl_cons, state, count, time]
    refine ⟨by simp [heed, triggered], ?_, ?_⟩
    · simp only [heed, triggered, List.length_cons]
      omega
    · cases accepted with
      | nil => simp [heed, triggered]
      | cons second rest => simp [List.getLast?_cons]

/- The times between two clears. -/

/-- The times that count towards the newest: of the events, and of a latch that was set. -/
def knownTimes (record : LatchRecord) (accepted : List (Name × ObservedEvent)) : List Time :=
  (if record.state then record.setAt.toList else []) ++ accepted.map (·.2.occurredAt)

/-- What the latch should say: the newest of the known times. -/
def newest (record : LatchRecord) (accepted : List (Name × ObservedEvent)) : Option Time :=
  if record.state || !accepted.isEmpty then (knownTimes record accepted).max? else record.setAt

theorem newest_nil (record : LatchRecord) : newest record [] = record.setAt := by
  unfold newest knownTimes
  cases record.state with
  | false => simp
  | true => cases record.setAt <;> simp

theorem newest_perm {record : LatchRecord} {accepted accepted' : List (Name × ObservedEvent)}
    (perm : accepted'.Perm accepted) : newest record accepted' = newest record accepted := by
  have times : (knownTimes record accepted').Perm (knownTimes record accepted) :=
    (perm.map _).append_left _
  unfold newest
  rw [Newest.max?_perm times, perm.isEmpty_eq]

theorem newest_eq_of_mem {record : LatchRecord} {accepted : List (Name × ObservedEvent)}
    {last : Name × ObservedEvent} (listed : last ∈ accepted) :
    newest record accepted = some last.2.occurredAt ↔
      ∀ time ∈ knownTimes record accepted, time ≤ last.2.occurredAt := by
  have among : last.2.occurredAt ∈ knownTimes record accepted :=
    List.mem_append_right _ (List.mem_map_of_mem listed)
  have nonempty : accepted.isEmpty = false := List.isEmpty_eq_false_iff.mpr (List.ne_nil_of_mem listed)
  simp only [newest, nonempty, Bool.not_false, Bool.or_true, if_true]
  exact Newest.max?_eq_of_mem among

theorem latest_eq (first : Option Time) (second : Time) :
    latest first second = first.elim second (max · second) := by
  cases first with
  | none => rfl
  | some first =>
    simp only [latest, Option.elim_some]
    split
    · rename_i later
      exact (max_eq_right (Nat.le_of_lt later)).symm
    · rename_i earlier
      exact (max_eq_left (Nat.le_of_not_lt earlier)).symm

theorem newest_append {record : LatchRecord} {before after : List (Name × ObservedEvent)}
    {time : Time} (last : (after.map (·.2.occurredAt)).max? = some time) :
    newest record (before ++ after) = some
      (if record.state || !before.isEmpty then latest (newest record before) time else time) := by
  have nonempty : (before ++ after).isEmpty = false := by
    cases after with
    | nil => cases last
    | cons => simp
  have times : knownTimes record (before ++ after) =
      knownTimes record before ++ after.map (·.2.occurredAt) := by
    simp [knownTimes]
  simp only [newest, nonempty, Bool.not_false, Bool.or_true, if_true, times,
    Newest.max?_append last]
  cases started : record.state || !before.isEmpty with
  | true => simp only [if_true, latest_eq]
  | false =>
    simp only [Bool.or_eq_false_iff, Bool.not_eq_false', List.isEmpty_iff] at started
    simp [knownTimes, started.1, started.2]

/- Turns of the core thread. -/

def Rule.acceptedIn (rule : Rule) (s : Engine) : Turn → List (Name × ObservedEvent)
  | .reconcile w => rule.inputs.flatMap fun name =>
    ((downtimeOf w s.plugins s.store.lastSeenAt name).getD []).map (name, ·)
  | .step step => (step.messages s).flatMap (rule.accepts s.plugins)

/-- A message of the turn clears the latch, or an output reports that it was cleared. -/
def Rule.ClearedIn (rule : Rule) (s : Engine) : Turn → Prop
  | .reconcile w => AnyCleared (rule.reportsFrom (reportOf w s.plugins))
  | .step step => ∃ heard ∈ step.messages s, rule.verdict s.plugins heard = some false

def Engine.Turn.Reloads (s : Engine) : Turn → Prop
  | .reconcile _ => False
  | .step a => ∃ heard ∈ a.messages s, ∃ reload, heard.2 = .reload reload

theorem Rule.acceptedIn_reconcile (rule : Rule) (s : Engine) (w : World) :
    (rule.acceptedIn s (.reconcile w)).map (·.2) =
      rule.eventsFrom (downtimeOf w s.plugins s.store.lastSeenAt) := by
  simp only [acceptedIn, eventsFrom, List.map_flatMap, List.map_map, Function.comp_def, List.map_id']

/-- Between clears, a step does to the latch what the events it brings do. -/
theorem step_heeds {s t : Engine} {step : Step} {r : Rule} (known : r ∈ s.graph.entries)
    (keeping : ¬ Turn.Reloads s (.step step)) (uncleared : ¬ r.ClearedIn s (.step step))
    (stepped : advance s step = some t) :
    t.graph = s.graph ∧
      t.latch r.name = (r.acceptedIn s (.step step)).foldl heed (s.latch r.name) := by
  have reacted := advance_reacted (fun heard member reload same =>
    keeping ⟨heard, member, reload, same⟩) stepped
  refine ⟨reacted.graph, ?_⟩
  rw [reacted.latch r known]
  simp only [Rule.ClearedIn, not_exists, not_and] at uncleared
  simp only [Rule.acceptedIn]
  generalize step.messages s = heard at uncleared
  generalize s.latch r.name = record
  induction heard generalizing record with
  | nil => rfl
  | cons message heard ih =>
    rw [List.foldl_cons, List.flatMap_cons, List.foldl_append]
    rw [ih fun later member => uncleared later (List.mem_cons_of_mem _ member)]
    congr 1
    exact r.react_heed s.plugins (uncleared message List.mem_cons_self) record

/-- Without a report of a clear, reconciliation sets the latch if there is an event, and
takes the later time. -/
theorem reconcile_heeds {w : World} {s t : Engine} {r : Rule} (known : r ∈ s.graph.entries)
    (uncleared : ¬ r.ClearedIn s (.reconcile w)) (ran : Engine.reconcile w s = .ok ⟨⟩ t) :
    t.graph = s.graph ∧
    (t.latch r.name).state =
      ((s.latch r.name).state || !(r.acceptedIn s (.reconcile w)).isEmpty) ∧
    (t.latch r.name).triggerCount =
      (s.latch r.name).triggerCount + (r.acceptedIn s (.reconcile w)).length ∧
    (r.acceptedIn s (.reconcile w) = [] → (t.latch r.name).setAt = (s.latch r.name).setAt) ∧
    ∀ time, ((r.acceptedIn s (.reconcile w)).map (·.2.occurredAt)).max? = some time →
      (t.latch r.name).setAt = some
        (if (s.latch r.name).state then latest (s.latch r.name).setAt time else time) := by
  have spec := reconcile_spec ran
  have events := r.acceptedIn_reconcile s w
  have times : (r.eventsFrom (downtimeOf w s.plugins s.store.lastSeenAt)).map (·.occurredAt) =
      (r.acceptedIn s (.reconcile w)).map (·.2.occurredAt) := by
    rw [← events, List.map_map]
    rfl
  have many : (r.eventsFrom (downtimeOf w s.plugins s.store.lastSeenAt)).length =
      (r.acceptedIn s (.reconcile w)).length := by
    rw [← events, List.length_map]
  rw [spec.latch r known, Rule.resolve, times, many]
  generalize r.acceptedIn s (.reconcile w) = accepted
  have decided := @resolveRule_uncleared w.now (s.latch r.name)
    ((accepted.map (·.2.occurredAt)).max?) _ uncleared
  refine ⟨spec.graph, ?_, rfl, ?_, ?_⟩
  · rw [ReconcileOutcome.applyTo_state, decided.1]
    congr 1
    cases accepted with
    | nil => rfl
    | cons => simp
  · rintro rfl
    rw [ReconcileOutcome.applyTo_setAt]
    exact decided.2.2 rfl
  · intro time last
    rw [ReconcileOutcome.applyTo_setAt, last]
    have empty : (!(clearedReports (r.reportsFrom (reportOf w s.plugins))).isEmpty) = false := by
      rw [Bool.not_eq_false', clearedReports_isEmpty]
      exact uncleared
    simp only [resolveRule, empty, Bool.false_eq_true, if_false]
    cases (s.latch r.name).state <;> simp

namespace Engine

/-- A turn between two clears: it keeps the rules and does not clear the latch. -/
def Uninterrupted (r : Rule) (s : Engine) (a : Turn) : Prop :=
  ¬ a.Reloads s ∧ ¬ r.ClearedIn s a

def acceptedAlong (r : Rule) (s : Engine) (turns : List Turn) : List (Name × ObservedEvent) :=
  Transition.along turn r.acceptedIn s turns

theorem turn_heeds {r : Rule} {s t : Engine} {a : Turn} (known : r ∈ s.graph.entries)
    (between : Uninterrupted r s a) (turned : turn s a = some t) :
    t.graph = s.graph ∧
    (t.latch r.name).state = ((s.latch r.name).state || !(r.acceptedIn s a).isEmpty) ∧
    (t.latch r.name).triggerCount =
      (s.latch r.name).triggerCount + (r.acceptedIn s a).length := by
  cases a with
  | reconcile w =>
    obtain ⟨graph, state, count, _⟩ :=
      reconcile_heeds known between.2 (turn_reconcile.mp turned)
    exact ⟨graph, state, count⟩
  | step step =>
    obtain ⟨graph, heeded⟩ := step_heeds known between.1 between.2 turned
    rw [heeded]
    exact ⟨graph, (heed_foldl _ _).1, (heed_foldl _ _).2.1⟩

/-- State and count do not depend on the order of the events. -/
theorem run_heeds {r : Rule} {s t : Engine} {turns : List Turn} (known : r ∈ s.graph.entries)
    (between : Transition.Throughout turn (Uninterrupted r) s turns)
    (ran : Transition.run turn s turns = some t) :
    t.graph = s.graph ∧
    (t.latch r.name).state = ((s.latch r.name).state || !(acceptedAlong r s turns).isEmpty) ∧
    (t.latch r.name).triggerCount =
      (s.latch r.name).triggerCount + (acceptedAlong r s turns).length := by
  induction turns generalizing s with
  | nil =>
    cases Option.some.inj ran
    simp [acceptedAlong, Transition.along]
  | cons a turns ih =>
    obtain ⟨m, turned, rest⟩ := Transition.run_cons.mp ran
    obtain ⟨graph, state, count⟩ := turn_heeds known between.1 turned
    obtain ⟨graph', state', count'⟩ := ih (graph ▸ known) (between.2 m turned) rest
    have split : acceptedAlong r s (a :: turns) = r.acceptedIn s a ++ acceptedAlong r m turns := by
      simp only [acceptedAlong, Transition.along, turned, Option.elim_some]
    rw [split]
    refine ⟨graph'.trans graph, ?_, ?_⟩
    · rw [state', state]
      cases r.acceptedIn s a <;> cases acceptedAlong r m turns <;> simp
    · rw [count', count, List.length_append]
      omega

def AlwaysNewest (r : Rule) (s : Engine) (turns : List Turn) : Prop :=
  ∀ taken rest m, turns = taken ++ rest → Transition.run turn s taken = some m →
    (m.latch r.name).setAt = newest (s.latch r.name) (acceptedAlong r s taken)

/-- No live or retried event comes last in its step while a later time is known. -/
def Chronological (r : Rule) (s : Engine) (turns : List Turn) : Prop :=
  ∀ taken step rest m, turns = taken ++ .step step :: rest →
    Transition.run turn s taken = some m →
    ∀ last, (r.acceptedIn m (.step step)).getLast? = some last →
      ∀ time ∈ knownTimes (s.latch r.name)
        (acceptedAlong r s taken ++ r.acceptedIn m (.step step)), time ≤ last.2.occurredAt

theorem newest_turn {r : Rule} {record : LatchRecord} {before : List (Name × ObservedEvent)}
    {s t : Engine} {a : Turn} (known : r ∈ s.graph.entries) (between : Uninterrupted r s a)
    (turned : turn s a = some t)
    (state : (s.latch r.name).state = (record.state || !before.isEmpty))
    (stored : (s.latch r.name).setAt = newest record before)
    (order : ∀ step last, a = .step step → (r.acceptedIn s a).getLast? = some last →
      ∀ time ∈ knownTimes record (before ++ r.acceptedIn s a), time ≤ last.2.occurredAt) :
    (t.latch r.name).setAt = newest record (before ++ r.acceptedIn s a) := by
  cases a with
  | reconcile w =>
    obtain ⟨_, _, _, quiet, merged⟩ := reconcile_heeds known between.2 (turn_reconcile.mp turned)
    cases last : ((r.acceptedIn s (.reconcile w)).map (·.2.occurredAt)).max? with
    | none =>
      have none : r.acceptedIn s (.reconcile w) = [] :=
        List.map_eq_nil_iff.mp (List.max?_eq_none_iff.mp last)
      rw [quiet none, none, List.append_nil, stored]
    | some time =>
      rw [merged time last, newest_append last, state, stored]
  | step step =>
    obtain ⟨_, heeded⟩ := step_heeds known between.1 between.2 turned
    rw [heeded, (heed_foldl _ _).2.2]
    cases last : (r.acceptedIn s (.step step)).getLast? with
    | none =>
      rw [List.getLast?_eq_none_iff.mp last]
      simpa using stored
    | some last' =>
      have listed : last' ∈ before ++ r.acceptedIn s (.step step) :=
        List.mem_append_right _ (List.mem_of_getLast? last)
      exact ((newest_eq_of_mem listed).mpr (order step last' rfl last)).symm

end Engine

/-- Between two clears the latch is set at the time of the newest event exactly if every
step of the core ends with an event that nothing known is later than. Its state and its
count never depend on the order, nor then does its time. -/
theorem set_at_newest_iff (r : Rule) (s t : Engine) (turns : List Turn)
    (known : r ∈ s.graph.entries)
    (between : Transition.Throughout turn (Uninterrupted r) s turns)
    (ran : Transition.run turn s turns = some t) :
    (AlwaysNewest r s turns ↔ Chronological r s turns) ∧
    (t.latch r.name).state = ((s.latch r.name).state || !(acceptedAlong r s turns).isEmpty) ∧
    (t.latch r.name).triggerCount =
      (s.latch r.name).triggerCount + (acceptedAlong r s turns).length ∧
    ∀ (turns' : List Turn) (t' : Engine),
      Transition.Throughout turn (Uninterrupted r) s turns' →
      Transition.run turn s turns' = some t' →
      (acceptedAlong r s turns').Perm (acceptedAlong r s turns) →
      Chronological r s turns → Chronological r s turns' →
      (t'.latch r.name).setAt = (t.latch r.name).setAt ∧
      (t'.latch r.name).state = (t.latch r.name).state ∧
      (t'.latch r.name).triggerCount = (t.latch r.name).triggerCount := by
  have always : ∀ turns, Transition.Throughout turn (Uninterrupted r) s turns →
      Chronological r s turns → AlwaysNewest r s turns := by
    intro turns between order taken
    induction taken using List.reverseRecOn with
    | nil =>
      intro rest m _ ran
      cases Option.some.inj ran
      exact (newest_nil _).symm
    | append_singleton taken a ih =>
      intro rest m same ran
      obtain ⟨u, first, turned⟩ := Transition.run_snoc.mp ran
      rw [List.append_assoc] at same
      have held := same ▸ between
      have before := run_heeds known (Transition.throughout_prefix held) first
      rw [acceptedAlong, Transition.along_snoc first]
      refine newest_turn (before.1 ▸ known) (Transition.throughout_append held first).1 turned
        before.2.1 (ih _ u same first) ?_
      rintro step last rfl ends
      exact order taken step rest u same first last ends
  have settled := run_heeds known between ran
  refine ⟨⟨fun newest => ?_, always turns between⟩, settled.2.1, settled.2.2, ?_⟩
  · intro taken step rest m same first last ends
    have whole := ran
    rw [same, Transition.run_append] at whole
    obtain ⟨u, again, whole⟩ := whole
    cases Option.some.inj (first.symm.trans again)
    obtain ⟨v, stepped, _⟩ := Transition.run_cons.mp whole
    have held := Transition.throughout_append (same ▸ between) first
    have here : Transition.run turn s (taken ++ [.step step]) = some v :=
      Transition.run_snoc.mpr ⟨m, first, stepped⟩
    have reached := newest (taken ++ [.step step]) rest v (by simpa using same) here
    have before := run_heeds known (Transition.throughout_prefix (same ▸ between)) first
    obtain ⟨_, heeded⟩ := step_heeds (before.1 ▸ known) held.1.1 held.1.2 stepped
    rw [heeded, (heed_foldl _ _).2.2, ends, acceptedAlong, Transition.along_snoc first] at reached
    exact (newest_eq_of_mem (List.mem_append_right _ (List.mem_of_getLast? ends))).mp
      reached.symm
  · intro turns' t' between' ran' perm order order'
    have settled' := run_heeds known between' ran'
    refine ⟨?_, ?_, ?_⟩
    · rw [always turns' between' order' turns' [] t' (by simp) ran',
        always turns between order turns [] t (by simp) ran, newest_perm perm]
    · rw [settled'.2.1, settled.2.1, perm.isEmpty_eq]
    · rw [settled'.2.2, settled.2.2, perm.length_eq]

namespace Sample

def arrive (occurredAt : Time) : Turn :=
  .step (.handle (quiet 30) (.inputEvent ⟨"mail", ⟨occurredAt, "letter"⟩⟩))

theorem arrive_uninterrupted (occurredAt : Time) (s : Engine) :
    Uninterrupted rule s (arrive occurredAt) := by
  constructor
  · rintro ⟨heard, member, reload, same⟩
    cases List.mem_singleton.mp member
    cases same
  · rintro ⟨heard, member, cleared⟩
    cases List.mem_singleton.mp member
    simp [Rule.verdict] at cleared

theorem arrivals_uninterrupted (times : List Time) (s : Engine) :
    Transition.Throughout turn (Uninterrupted rule) s (times.map arrive) := by
  apply Transition.throughout_of_forall
  intro a member s
  obtain ⟨time, _, rfl⟩ := List.mem_map.mp member
  exact arrive_uninterrupted time s

theorem acceptedIn_arrive (occurredAt : Time) (s : Engine) :
    rule.acceptedIn s (arrive occurredAt) = [("mail", ⟨occurredAt, "letter"⟩)] := by
  simp [Rule.acceptedIn, arrive, Step.messages, Rule.accepts, rule]

end Sample

/-- A letter of 20, then one of 10 that took longer: the latch says 10. -/
theorem older_event_overwrites :
    ¬ ∀ (r : Rule) (s t : Engine) (turns : List Turn), r ∈ s.graph.entries →
      Transition.Throughout turn (Uninterrupted r) s turns →
      Transition.run turn s turns = some t → AlwaysNewest r s turns := by
  intro newest
  have ran : Transition.run turn (Sample.engine (Sample.store .fresh))
      ([20, 10].map Sample.arrive) = _ := (Option.some_get (by decide +kernel)).symm
  have same := newest Sample.rule _ _ _ (by decide +kernel)
    (Sample.arrivals_uninterrupted [20, 10] _) ran _ [] _ (by simp) ran
  revert same
  decide +kernel

theorem letters_in_order : ∃ t, Transition.run turn (Sample.engine (Sample.store .fresh))
    ([10, 20].map Sample.arrive) = some t ∧ (t.latch "notify").setAt = some 20 := by
  have ran : Transition.run turn (Sample.engine (Sample.store .fresh))
      ([10, 20].map Sample.arrive) = _ := (Option.some_get (by decide +kernel)).symm
  have order : Chronological Sample.rule (Sample.engine (Sample.store .fresh))
      ([10, 20].map Sample.arrive) := by
    intro taken step rest m same first last ends time known
    have clear : ((Sample.engine (Sample.store .fresh)).latch Sample.rule.name).state = false := by
      decide +kernel
    rcases taken with _ | ⟨a, _ | ⟨b, taken⟩⟩
    · obtain ⟨here, rfl⟩ := List.cons.inj same
      rw [← here, Sample.acceptedIn_arrive] at ends known
      cases ends
      simp [knownTimes, clear, acceptedAlong, Transition.along] at known
      simp [known]
    · obtain ⟨rfl, second⟩ := List.cons.inj same
      obtain ⟨here, rfl⟩ := List.cons.inj second
      obtain ⟨u, turned, _⟩ := Transition.run_cons.mp first
      rw [← here, Sample.acceptedIn_arrive] at ends known
      cases ends
      have before : acceptedAlong Sample.rule (Sample.engine (Sample.store .fresh))
          [Sample.arrive 10] = [("mail", ⟨10, "letter"⟩)] := by
        simp only [acceptedAlong, Transition.along, turned, Option.elim_some,
          Sample.acceptedIn_arrive, List.append_nil]
      rw [before] at known
      simp [knownTimes, clear] at known
      rcases known with rfl | rfl <;> decide
    · simp at same
  have spec := set_at_newest_iff Sample.rule _ _ _ (by decide +kernel)
    (Sample.arrivals_uninterrupted [10, 20] _) ran
  exact ⟨_, ran, (spec.1.mpr order _ [] _ (by simp) ran).trans (by decide +kernel)⟩

end NotiMapper
