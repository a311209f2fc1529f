import NotiMapper.Runtime.Provenance

/-! How many events an output is told are waiting. A latch counts every event it accepts,
but a clear leaves its count as it is, and reconciliation adds what came during downtime
even if a clear has cancelled it. The count is right until a latch is set again that has
counted before. -/
namespace NotiMapper

open Python Effect Engine Transition

namespace Rule

/-- A clear latch that the message sets has counted nothing. -/
def SetsUncounted (rule : Rule) (plugins : PluginSet) (record : LatchRecord)
    (heard : World × CoreMessage) : Prop :=
  record.state = false → rule.accepts plugins heard ≠ [] → record.triggerCount = 0

def AllSetUncounted (rule : Rule) (plugins : PluginSet) :
    LatchRecord → List (World × CoreMessage) → Prop
  | _, [] => True
  | record, heard :: rest => rule.SetsUncounted plugins record heard ∧
    rule.AllSetUncounted plugins (rule.react plugins heard.1 heard.2 record) rest

instance (rule : Rule) (plugins : PluginSet) (record : LatchRecord)
    (heard : World × CoreMessage) : Decidable (rule.SetsUncounted plugins record heard) :=
  inferInstanceAs (Decidable (record.state = false → rule.accepts plugins heard ≠ [] →
    record.triggerCount = 0))

def decideAllSetUncounted (rule : Rule) (plugins : PluginSet) :
    (record : LatchRecord) → (heard : List (World × CoreMessage)) →
      Decidable (rule.AllSetUncounted plugins record heard)
  | _, [] => isTrue trivial
  | record, heard :: rest =>
    have := rule.decideAllSetUncounted plugins (rule.react plugins heard.1 heard.2 record) rest
    inferInstanceAs (Decidable (rule.SetsUncounted plugins record heard ∧
      rule.AllSetUncounted plugins (rule.react plugins heard.1 heard.2 record) rest))

instance (rule : Rule) (plugins : PluginSet) (record : LatchRecord)
    (heard : List (World × CoreMessage)) : Decidable (rule.AllSetUncounted plugins record heard) :=
  rule.decideAllSetUncounted plugins record heard

/-- The downtime events that no reported clear cancels. -/
def survivingIn (rule : Rule) (s : Engine) (w : World) : List (Name × ObservedEvent) :=
  (rule.acceptedIn s (.reconcile w)).filter fun e =>
    Outruns e.2.occurredAt (rule.reportsFrom (reportOf w s.plugins))

/-- Reconciliation that sets a latch again finds nothing counted before: what it was told
is all later than a clear, and the latch has no count from before it. -/
def ReconcilesUncounted (rule : Rule) (s : Engine) (w : World) : Prop :=
  (rule.ClearedIn s (.reconcile w) → rule.survivingIn s w ≠ [] →
    (s.latch rule.name).triggerCount = 0 ∧
      ∀ e ∈ rule.acceptedIn s (.reconcile w),
        Outruns e.2.occurredAt (rule.reportsFrom (reportOf w s.plugins))) ∧
  (¬ rule.ClearedIn s (.reconcile w) → (s.latch rule.name).state = false →
    rule.acceptedIn s (.reconcile w) ≠ [] → (s.latch rule.name).triggerCount = 0)

instance (rule : Rule) (s : Engine) (w : World) : Decidable (rule.ReconcilesUncounted s w) :=
  inferInstanceAs (Decidable (_ ∧ _))

end Rule

/-- A set latch has counted the events that wait for it. -/
structure Counted (record : LatchRecord) (waiting : List (Name × ObservedEvent)) : Prop where
  clear : record.state = false → waiting = []
  set : record.state = true → record.triggerCount = waiting.length

theorem Counted.of_clear {record : LatchRecord} (clear : record.state = false) :
    Counted record [] :=
  ⟨fun _ => rfl, fun set => absurd (clear.symm.trans set) Bool.false_ne_true⟩

section Latches

variable {rule : Rule} {plugins : PluginSet} {record : LatchRecord}
  {waiting : List (Name × ObservedEvent)}

theorem Counted.heeds {accepted : List (Name × ObservedEvent)} (counted : Counted record waiting)
    (fresh : record.state = false → accepted ≠ [] → record.triggerCount = 0) :
    Counted (accepted.foldl heed record)
      (if (accepted.foldl heed record).state then waiting ++ accepted else []) := by
  obtain ⟨state, count, _⟩ := heed_foldl accepted record
  cases set : (accepted.foldl heed record).state with
  | false => exact .of_clear set
  | true =>
    refine ⟨fun clear => absurd (clear.symm.trans set) Bool.false_ne_true, fun _ => ?_⟩
    rw [if_pos rfl, count, List.length_append]
    cases before : record.state with
    | true => rw [counted.set before]
    | false =>
      have some : accepted ≠ [] := by
        rintro rfl
        exact absurd (before.symm.trans set) Bool.false_ne_true
      rw [fresh before some, counted.clear before, List.length_nil]

theorem Counted.retrace {heard : World × CoreMessage} (counted : Counted record waiting)
    (fresh : rule.SetsUncounted plugins record heard) :
    Counted (rule.retrace plugins (record, waiting) heard).1
      (rule.retrace plugins (record, waiting) heard).2 := by
  simp only [Rule.retrace]
  by_cases clears : rule.verdict plugins heard = some false
  · have clear := rule.react_clears clears record
    rw [clear]
    exact .of_clear clear
  · have heeded : rule.react plugins heard.1 heard.2 record = _ :=
      rule.react_heed plugins clears record
    rw [heeded]
    exact counted.heeds fresh

theorem Counted.retrace_all (heard : List (World × CoreMessage)) (counted : Counted record waiting)
    (fresh : rule.AllSetUncounted plugins record heard) :
    (heard.foldl (rule.retrace plugins) (record, waiting)).1 =
      heard.foldl (reacting plugins rule) record ∧
    Counted (heard.foldl (rule.retrace plugins) (record, waiting)).1
      (heard.foldl (rule.retrace plugins) (record, waiting)).2 := by
  induction heard generalizing record waiting with
  | nil => exact ⟨rfl, counted⟩
  | cons first heard ih => exact ih (counted.retrace fresh.1) fresh.2

theorem reconcile_counted {w : World} {s t : Engine} (known : rule ∈ s.graph.entries)
    (counted : Counted (s.latch rule.name) waiting) (fresh : rule.ReconcilesUncounted s w)
    (ran : Engine.reconcile w s = .ok ⟨⟩ t) (set : (t.latch rule.name).state = true) :
    (t.latch rule.name).triggerCount =
      ((if rule.ClearedIn s (.reconcile w) then rule.survivingIn s w
        else waiting ++ rule.acceptedIn s (.reconcile w))).length := by
  split
  · rename_i cleared
    have decided := (reconcile_spec ran).latch rule known
    have events := rule.acceptedIn_reconcile s w
    rw [decided, ReconcileOutcome.applyTo_state, Rule.resolve, resolveRule_state cleared,
      ← events, List.map_map] at set
    obtain ⟨time, last, outruns⟩ := set
    obtain ⟨e, member, rfl⟩ := List.mem_map.mp (List.max?_mem last)
    have survives : e ∈ rule.survivingIn s w :=
      List.mem_filter.mpr ⟨member, decide_eq_true outruns⟩
    obtain ⟨none, all⟩ := fresh.1 cleared (List.ne_nil_of_mem survives)
    have whole : rule.survivingIn s w = rule.acceptedIn s (.reconcile w) :=
      List.filter_eq_self.mpr fun e member => decide_eq_true (all e member)
    rw [decided, whole, ReconcileOutcome.applyTo, none, ← events, List.length_map]
    exact Nat.zero_add _
  · rename_i uncleared
    obtain ⟨_, state, count, _⟩ := reconcile_heeds known uncleared ran
    rw [count, List.length_append]
    cases before : (s.latch rule.name).state with
    | true => rw [counted.set before]
    | false =>
      have some : rule.acceptedIn s (.reconcile w) ≠ [] := by
        intro none
        rw [set, before, none] at state
        cases state
      rw [fresh.2 uncleared before some, counted.clear before, List.length_nil]

end Latches

/-- How many events the set latches that drive this output have waiting. -/
def waitingFor (s : Engine) (waiting : Name → List (Name × ObservedEvent)) (o : Name) : Nat :=
  (((s.graph.rulesForOutput o).filter fun rule => (s.latch rule.name).state).map
    fun rule => (waiting rule.name).length).sum

theorem buildUpdate_counts (s : Engine) (o : Name) : (s.buildUpdate o true).triggerCount =
    (((s.graph.rulesForOutput o).filter fun rule => (s.latch rule.name).state).map
      fun rule => (s.latch rule.name).triggerCount).sum := by
  have drive : ((s.graph.rulesForOutput o).map fun rule =>
      (rule.name, s.latch rule.name)).filter (·.2.state) =
      ((s.graph.rulesForOutput o).filter fun rule => (s.latch rule.name).state).map
        fun rule => (rule.name, s.latch rule.name) := List.filter_map ..
  simp only [buildUpdate, Bool.not_true, Bool.false_eq_true, if_false, drive]
  generalize (s.graph.rulesForOutput o).filter (fun rule => (s.latch rule.name).state) = driving
  cases driving with
  | nil => rfl
  | cons first rest => simp [Function.comp_def]

theorem buildUpdate_waiting {s : Engine} {waiting : Name → List (Name × ObservedEvent)}
    (counted : ∀ n, Counted (s.latch n) (waiting n)) (o : Name) :
    (s.buildUpdate o true).triggerCount = waitingFor s waiting o := by
  rw [buildUpdate_counts, waitingFor]
  congr 1
  refine List.map_congr_left fun rule driving => ?_
  exact (counted rule.name).set (List.mem_filter.mp driving).2

/-- The daemon over its restarts, with the events that wait for each rule: those accepted
since it was last clear, without what a clear has cancelled. -/
structure Tallied extends Witnessed where
  waiting : Name → List (Name × ObservedEvent)

namespace Tallied

def blank : Tallied := { Witnessed.blank with waiting := fun _ => [] }

def waited (s t : Engine) (a : Turn) (waiting : Name → List (Name × ObservedEvent)) (n : Name) :
    List (Name × ObservedEvent) :=
  match s.graph.rule n, a with
  | none, _ => waiting n
  | some r, .reconcile w =>
    if (t.latch n).state then
      if r.ClearedIn s (.reconcile w) then r.survivingIn s w
      else waiting n ++ r.acceptedIn s (.reconcile w)
    else []
  | some r, .step step =>
    ((step.messages s).foldl (r.retrace s.plugins) (s.latch n, waiting n)).2

def step (s : Tallied) (label : Witnessed.Label) : Option Tallied :=
  (Witnessed.step s.toWitnessed label).map fun t =>
    { t with waiting := match label with
        | .turn a => waited s.engine t.engine a s.waiting
        | _ => s.waiting }

/-- The law: an update that turns an output on counts what waits. -/
def Tallies (s : Tallied) : Prop :=
  ∀ request ∈ s.sent, request.update.state = true →
    request.update.triggerCount = waitingFor s.engine s.waiting request.instanceName

/-- No latch is set again with a count from before it was clear, and the rows that a
reload makes the cache are still the stored ones. -/
def Uncounted (s : Tallied) : Witnessed.Label → Prop
  | .turn (.reconcile w) => ∀ r ∈ s.engine.graph.entries, r.ReconcilesUncounted s.engine w
  | .turn (.step step) => ∀ r ∈ s.engine.graph.entries,
    r.AllSetUncounted s.engine.plugins (s.engine.latch r.name) (step.messages s.engine)
  | .assign => s.rows = s.engine.store.latches
  | _ => True

instance (s : Tallied) (label : Witnessed.Label) : Decidable (Uncounted s label) :=
  match label with
  | .turn (.reconcile w) =>
    inferInstanceAs (Decidable (∀ r ∈ s.engine.graph.entries, r.ReconcilesUncounted s.engine w))
  | .turn (.step step) => inferInstanceAs (Decidable (∀ r ∈ s.engine.graph.entries,
    r.AllSetUncounted s.engine.plugins (s.engine.latch r.name) (step.messages s.engine)))
  | .assign => decidable_of_iff (s.rows.entries = s.engine.store.latches.entries)
    ⟨AList.ext, congrArg AList.entries⟩
  | .construct _ _ | .mirror _ | .read => isTrue trivial

structure Kept (s : Tallied) : Prop where
  tracked : ∀ n, Tracked s.engine n
  counted : ∀ n, Counted (s.engine.latch n) (s.waiting n)
  tallies : Tallies s

section Turns

variable {s t : Engine} {a : Turn} {waiting : Name → List (Name × ObservedEvent)}

theorem waited_unknown {n : Name} (absent : n ∉ s.graph.entries.map (·.name)) :
    waited s t a waiting n = waiting n := by
  have none : s.graph.rule n = none := by
    rw [RuleGraph.rule, List.find?_eq_none]
    intro r known same
    exact absent (List.mem_map.mpr ⟨r, known, of_decide_eq_true same⟩)
  simp only [waited, none]

theorem reconcile_waited {w : World} (counted : ∀ n, Counted (s.latch n) (waiting n))
    (fresh : ∀ r ∈ s.graph.entries, r.ReconcilesUncounted s w)
    (ran : Engine.reconcile w s = .ok ⟨⟩ t) (n : Name) :
    Counted (t.latch n) (waited s t (.reconcile w) waiting n) := by
  by_cases listed : n ∈ s.graph.entries.map (·.name)
  · obtain ⟨r, known, rfl⟩ := List.mem_map.mp listed
    simp only [waited, RuleGraph.rule_eq_some.mpr ⟨known, rfl⟩]
    cases set : (t.latch r.name).state with
    | false => exact .of_clear set
    | true =>
      refine ⟨fun clear => absurd (clear.symm.trans set) Bool.false_ne_true, fun _ => ?_⟩
      exact reconcile_counted known (counted r.name) (fresh r known) ran set
  · rw [waited_unknown listed, (reconcile_spec ran).others n listed]
    exact counted n

theorem step_waited {step : Engine.Step} (tracked : ∀ n, Tracked s n)
    (counted : ∀ n, Counted (s.latch n) (waiting n))
    (fresh : ∀ r ∈ s.graph.entries,
      r.AllSetUncounted s.plugins (s.latch r.name) (step.messages s))
    (stepped : advance s step = some t) (n : Name) :
    Counted (t.latch n) (waited s t (.step step) waiting n) := by
  have followed := advance_followed stepped
  by_cases listed : n ∈ s.graph.entries.map (·.name)
  · obtain ⟨r, known, rfl⟩ := List.mem_map.mp listed
    obtain ⟨latch, kept⟩ := (counted r.name).retrace_all (step.messages s) (fresh r known)
    simp only [waited, RuleGraph.rule_eq_some.mpr ⟨known, rfl⟩]
    rw [followed.latch r known (tracked r.name), ← latch]
    exact kept
  · rw [waited_unknown listed, followed.others n listed (tracked n)]
    exact counted n

end Turns

theorem Kept.turn {s : Tallied} {t : Witnessed} {a : Turn} (kept : Kept s)
    (uncounted : Uncounted s (.turn a)) (stepped : Witnessed.step s.toWitnessed (.turn a) = some t) :
    Kept { t with waiting := waited s.engine t.engine a s.waiting } := by
  simp only [Witnessed.step, Option.map_eq_some_iff] at stepped
  obtain ⟨engine, turned, rfl⟩ := stepped
  have moved : (∀ n, Tracked engine n) ∧
      ∀ n, Counted (engine.latch n) (waited s.engine engine a s.waiting n) := by
    cases a with
    | reconcile w =>
      have ran := turn_reconcile.mp turned
      exact ⟨fun n => (reconcile_spec ran).writes.tracked (kept.tracked n),
        reconcile_waited kept.counted uncounted ran⟩
    | step step =>
      exact ⟨fun n => (advance_followed turned).tracked n (kept.tracked n),
        step_waited kept.tracked kept.counted uncounted turned⟩
  refine ⟨moved.1, moved.2, fun request member lit => ?_⟩
  have built := turn_sent turned request member
  rw [built, buildUpdate_state] at lit
  rw [built, lit]
  exact buildUpdate_waiting moved.2 request.instanceName

theorem step_kept (s : Tallied) (label : Witnessed.Label) (t : Tallied) (kept : Kept s)
    (uncounted : Uncounted s label) (stepped : step s label = some t) : Kept t := by
  simp only [step, Option.map_eq_some_iff] at stepped
  obtain ⟨u, stepped, rfl⟩ := stepped
  by_cases turn : ∃ a, label = .turn a
  · obtain ⟨a, rfl⟩ := turn
    exact kept.turn uncounted stepped
  · have current : label = .assign → s.rows = s.engine.store.latches := by
      rintro rfl
      exact uncounted
    obtain ⟨tracked, latch, _, silent⟩ :=
      Witnessed.step_reread (not_exists.mp turn) kept.tracked current stepped
    refine ⟨tracked, fun n => ?_, fun request member => ?_⟩
    · rw [latch n]
      cases label with
      | turn a => exact absurd ⟨a, rfl⟩ turn
      | _ => exact kept.counted n
    · rw [silent] at member
      cases member

theorem blank_kept : Kept blank where
  tracked _ := rfl
  counted _ := .of_clear rfl
  tallies _ member := nomatch member

/-- While no latch is set again that has counted before, every update that turns an
output on counts what waits for the set latches that drive it. -/
theorem trigger_counts {labels : List Witnessed.Label}
    (uncounted : Throughout step Uncounted blank labels) : Always step Tallies blank labels :=
  always_of_invariant step_kept (fun _ kept => kept.tallies) blank_kept uncounted

/-- Two letters wait, the second counted while the lamp is being turned off. -/
theorem letters_counted : ∃ t, run step blank Witnessed.orderly = some t ∧
    t.sent.map (·.update.triggerCount) = [2] ∧ Tallies t := by
  have ran : run step blank Witnessed.orderly = _ := (Option.some_get (by decide +kernel)).symm
  exact ⟨_, ran, by decide +kernel, (trigger_counts (by decide +kernel)).last ran⟩

/-- A letter, acknowledged on the lamp, and then one letter more. -/
def acknowledged : List Witnessed.Label :=
  Witnessed.Sample.boot 5 [] ++ [Witnessed.Sample.letter 6, Witnessed.Sample.acknowledge 7,
    Witnessed.Sample.letter 9,
    .turn (.step (.handle (Sample.quiet 9) (.pushResult ⟨"lamp", false, true, none⟩))),
    .turn (.step (.tick (Sample.quiet 9)))]

/-- The lamp is told of two triggers. -/
theorem acknowledged_letter_counted : ¬ ∀ labels : List Witnessed.Label,
    Always step Tallies blank labels := by
  intro tallies
  obtain ⟨t, ran, sent, waits⟩ : ∃ t, run step blank acknowledged = some t ∧
      (∃ request ∈ t.sent, request.instanceName = "lamp" ∧ request.update.state = true ∧
        request.update.triggerCount = 2) ∧ waitingFor t.engine t.waiting "lamp" = 1 :=
    ⟨_, (Option.some_get (by decide +kernel)).symm, by decide +kernel, by decide +kernel⟩
  obtain ⟨request, member, lamp, lit, two⟩ := sent
  have one := (tallies acknowledged).last ran request member lit
  rw [lamp, waits, two] at one
  cases one

end Tallied

end NotiMapper
