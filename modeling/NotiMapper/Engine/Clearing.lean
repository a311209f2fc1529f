import NotiMapper.Engine.Automaton
import NotiMapper.Engine.Framing
import NotiMapper.Engine.Reacting

/-! Clears that race. While no event arrives, a latch can only go from set to clear, so
which requests came first, and how often, leaves no trace: a rule is set in the end
exactly when it was set and lists none of the outputs that asked. -/
namespace NotiMapper

open Python Effect Engine

/-- The output that a message reports cleared: by an unlatch request, or by its late
answer to a query. -/
def clearer (plugins : PluginSet) : World × CoreMessage → Option Name
  | (_, .unlatchRequest message) => some message.instanceName
  | (w, .reconcileOutput message) =>
    if message.instanceName ∈ plugins.outputs ∧
        (queryOutput w message.instanceName).belief = .cleared then some message.instanceName
    else none
  | _ => none

/-- Neither an event, live or replayed, nor a reload. -/
def Eventless (plugins : PluginSet) : World × CoreMessage → Prop
  | (_, .inputEvent _) | (_, .reload _) => False
  | (w, .catchUp message) => message.instanceName ∈ plugins.inputs →
    ∀ events, w.catchUp message.instanceName message.since = .ok events → events = []
  | _ => True

theorem Eventless.keeping {plugins : PluginSet} {heard : World × CoreMessage}
    (eventless : Eventless plugins heard) (reload : ReloadMessage) : heard.2 ≠ .reload reload := by
  obtain ⟨w, message⟩ := heard
  rintro rfl
  exact eventless

namespace Rule

theorem verdict_eventless {rule : Rule} {plugins : PluginSet} {heard : World × CoreMessage}
    (eventless : Eventless plugins heard) : rule.verdict plugins heard ≠ some true := by
  obtain ⟨w, message⟩ := heard
  cases message with
  | inputEvent message => exact eventless.elim
  | catchUp message =>
    simp only [verdict]
    split
    · rename_i live
      split
      · rename_i event events answer
        cases eventless live.1 _ answer
      · simp
    · simp
  | unlatchRequest message => simp only [verdict]; split <;> simp
  | reconcileOutput message => simp only [verdict]; split <;> simp
  | _ => simp [verdict]

theorem verdict_clear {rule : Rule} {plugins : PluginSet} {heard : World × CoreMessage} :
    rule.verdict plugins heard = some false ↔
      ∃ o, clearer plugins heard = some o ∧ o ∈ rule.outputs := by
  obtain ⟨w, message⟩ := heard
  cases message with
  | unlatchRequest message => simp [verdict, clearer]
  | reconcileOutput message =>
    simp only [verdict, clearer]
    by_cases live : message.instanceName ∈ plugins.outputs <;>
      by_cases cleared : (queryOutput w message.instanceName).belief = .cleared <;>
        simp [live, cleared]
  | inputEvent message => simp [verdict, clearer]
  | catchUp message =>
    simp only [verdict, clearer]
    split
    · split <;> simp
    · simp
  | _ => simp [verdict, clearer]

theorem state_eventless {rule : Rule} {plugins : PluginSet} (heard : List (World × CoreMessage))
    (eventless : ∀ message ∈ heard, Eventless plugins message) (record : LatchRecord) :
    (heard.foldl (reacting plugins rule) record).state = true ↔
      record.state = true ∧ ∀ o ∈ heard.filterMap (clearer plugins), o ∉ rule.outputs := by
  induction heard generalizing record with
  | nil => simp
  | cons message heard ih =>
    have rest := ih (fun later member => eventless later (List.mem_cons_of_mem _ member))
      (reacting plugins rule record message)
    have unset : rule.verdict plugins message ≠ some true :=
      verdict_eventless (eventless message List.mem_cons_self)
    have clear : rule.verdict plugins message = some false ↔
        ∃ o, clearer plugins message = some o ∧ o ∈ rule.outputs := verdict_clear
    rw [List.foldl_cons, rest, reacting, react_state, Register.apply]
    cases asked : clearer plugins message with
    | none =>
      have silent : rule.verdict plugins message = none := by
        cases said : rule.verdict plugins message with
        | none => rfl
        | some value => cases value <;> simp_all
      simp [silent, asked]
    | some o =>
      by_cases listed : o ∈ rule.outputs
      · have said := clear.mpr ⟨o, asked, listed⟩
        simp [said, asked, listed]
      · have silent : rule.verdict plugins message = none := by
          cases said : rule.verdict plugins message with
          | none => rfl
          | some value => cases value <;> simp_all
        simp [silent, asked, listed]

end Rule

namespace Engine

/- The LATCH_CLEARED entries of the event log. -/

def clearedRows (s : Engine) : List EventLogEntry :=
  s.store.eventLog.rows.filter (·.kind = .latchCleared)

def Uncleared (s t : Engine) : Prop := t.clearedRows.Sublist s.clearedRows

instance : IsPreorder Engine Uncleared where
  refl _ := List.Sublist.refl _
  trans _ _ _ first second := second.trans first

theorem uncleared_of_log {s t : Engine} (same : t.store.eventLog = s.store.eventLog) :
    Uncleared s t := by
  unfold Uncleared clearedRows
  rw [same]

theorem appendEvent_cleared (now : Time) (kind : EventKind) (i r : Option Name) (detail : String)
    (s : Engine) : (appendEvent now kind i r detail s).clearedRows.Sublist
      (s.clearedRows ++ [⟨s.store.eventLog.sequence + 1, now, kind, i, r, detail⟩].filter
        (·.kind = .latchCleared)) := by
  simp only [clearedRows, appendEvent, onStore, Store.appendEvent]
  rw [← List.filter_append]
  exact List.filter_sublist.filter _

theorem uncleared_framed : Framed Uncleared where
  tables := by
    intro s t same
    apply uncleared_of_log
    rw [same]
  logs := by
    intro now kind i r detail s other
    have grown := appendEvent_cleared now kind i r detail s
    rw [List.filter_singleton, decide_eq_false other] at grown
    unfold Uncleared
    simpa only [cond_false, List.append_nil] using grown

theorem handle_uncleared (w : World) {message : CoreMessage}
    (other : ∀ request, message ≠ .unlatchRequest request) :
    Keeps Uncleared (handle w message) :=
  uncleared_framed.handle w (fun ⟨request, same⟩ => absurd same (other request))
    fun _ _ _ _ _ => uncleared_of_log rfl

theorem tick_uncleared (w : World) : Keeps Uncleared (tick w) :=
  uncleared_framed.tick (fun _ _ _ _ => uncleared_of_log rfl) (fun _ _ => uncleared_of_log rfl) w

def newlyCleared (before : EventLog) (n : Name) (s : Engine) : Nat :=
  s.clearedRows.countP fun row => row ∉ before.rows ∧ row.ruleName = some n

theorem Uncleared.newly {s t : Engine} (kept : Uncleared s t) (before : EventLog) (n : Name) :
    newlyCleared before n t ≤ newlyCleared before n s := List.Sublist.countP_le kept

theorem clearLatch_newly {w : World} {message : UnlatchRequestMessage} {q : Name} {s t : Engine}
    (ran : clearLatch w message q s = .ok ⟨⟩ t) (before : EventLog) (n : Name) :
    newlyCleared before n t ≤ newlyCleared before n s + if n = q then 1 else 0 := by
  simp only [clearLatch, get_bind_ok] at ran
  obtain ⟨_, m, written, noted⟩ := bind_ok.mp ran
  rw [modify_ok.mp noted]
  have first := (uncleared_framed.writeLatch q _).leads _ _ _ written
  have grown := (appendEvent_cleared w.now .latchCleared (some message.instanceName) (some q)
    message.cause m).countP_le (p := fun row => row ∉ before.rows ∧ row.ruleName = some n)
  have kept := first.newly before n
  unfold newlyCleared at kept ⊢
  rw [List.countP_append] at grown
  have one : List.countP (fun row : EventLogEntry => row ∉ before.rows ∧ row.ruleName = some n)
      ([⟨m.store.eventLog.sequence + 1, w.now, .latchCleared, some message.instanceName, some q,
        message.cause⟩].filter (·.kind = .latchCleared)) ≤ if n = q then 1 else 0 := by
    by_cases same : n = q
    · rw [if_pos same]
      exact List.countP_le_length
    · have other : ¬ q = n := fun eq => same eq.symm
      simp [same, other]
  omega

theorem clearLatches_newly {w : World} {message : UnlatchRequestMessage} (before : EventLog)
    (n : Name) (rules : List Rule) (nodup : (rules.map (·.name)).Nodup) {s t : Engine}
    (ran : rules.forM (fun rule => clearLatch w message rule.name) s = .ok ⟨⟩ t) :
    newlyCleared before n t ≤
      newlyCleared before n s + if n ∈ rules.map (·.name) then 1 else 0 := by
  induction rules generalizing s with
  | nil =>
    rw [← forM_nil_ok.mp ran]
    exact Nat.le_add_right _ _
  | cons r rules ih =>
    obtain ⟨m, cleared, rest⟩ := forM_cons_ok.mp ran
    rw [List.map_cons, List.nodup_cons] at nodup
    have first := clearLatch_newly cleared before n
    have later := ih nodup.2 rest
    by_cases same : n = r.name
    · have once : n ∉ rules.map (·.name) := same ▸ nodup.1
      simp only [same, if_true, List.map_cons, List.mem_cons, true_or] at first ⊢
      rw [same] at later once
      simp only [once, if_false] at later
      omega
    · simp only [same, if_false, List.map_cons, List.mem_cons, false_or] at first ⊢
      omega

theorem handleUnlatch_newly {w : World} {message : UnlatchRequestMessage} {s t : Engine}
    (ran : handleUnlatch w message s = .ok ⟨⟩ t) (before : EventLog) (n : Name) :
    newlyCleared before n t ≤ newlyCleared before n s +
      if n ∈ ((s.graph.rulesForOutput message.instanceName).filter
        fun rule => (s.latch rule.name).state).map (·.name) then 1 else 0 := by
  simp only [handleUnlatch, transaction, get_bind_ok, restoring_ok] at ran
  split at ran
  · have kept := (uncleared_framed.appendEvent w.now (by decide) _ _ _).leads _ _ _ ran
    exact (kept.newly before n).trans (Nat.le_add_right _ _)
  · obtain ⟨_, m, looped, synced⟩ := bind_ok.mp ran
    have nodup := (s.graph.rulesForOutput_nodup message.instanceName).sublist
      ((List.filter_sublist (p := fun rule : Rule => (s.latch rule.name).state)).map (·.name))
    have cleared := clearLatches_newly before n _ nodup looped
    have kept := (uncleared_framed.syncOutputs w.now _).leads _ _ _ synced
    exact (kept.newly before n).trans cleared

theorem handleUnlatch_idle {w : World} {message : UnlatchRequestMessage} {s t : Engine}
    (idle : ∀ r ∈ s.graph.rulesForOutput message.instanceName, (s.latch r.name).state = false)
    (ran : handleUnlatch w message s = .ok ⟨⟩ t) :
    t = appendEvent w.now .unlatchIgnored (some message.instanceName) none message.cause s := by
  have none_set : ((s.graph.rulesForOutput message.instanceName).filter
      fun rule => (s.latch rule.name).state).isEmpty = true := by
    rw [List.isEmpty_iff, List.filter_eq_nil_iff]
    intro r listed
    simp [idle r listed]
  simp only [handleUnlatch, transaction, get_bind_ok, restoring_ok, none_set, if_true] at ran
  exact modify_ok.mp ran

/- Runs. -/

/-- The clears still to come, at most, and those that came. -/
def clearings (before : EventLog) (r : Rule) (s : Engine) : Nat :=
  newlyCleared before r.name s + if (s.latch r.name).state then 1 else 0

theorem Uncleared.clearings {s t : Engine} {r : Rule} (kept : Uncleared s t)
    (falling : (t.latch r.name).state = true → (s.latch r.name).state = true)
    (before : EventLog) : clearings before r t ≤ clearings before r s := by
  apply Nat.add_le_add (kept.newly before r.name)
  cases after : (t.latch r.name).state with
  | false => exact Nat.zero_le _
  | true => rw [falling after]

theorem handleUnlatch_clearings {w : World} {message : UnlatchRequestMessage} {s t : Engine}
    (ran : handleUnlatch w message s = .ok ⟨⟩ t) (before : EventLog) {r : Rule}
    (known : r ∈ s.graph.entries) : clearings before r t ≤ clearings before r s := by
  have logged := handleUnlatch_newly ran before r.name
  have obeyed := (handleUnlatch_moves ran).latch r known
  unfold clearings
  by_cases cleared : message.instanceName ∈ r.outputs ∧ (s.latch r.name).state = true
  · have clear : (t.latch r.name).state = false := by
      rw [obeyed, Rule.obey, if_pos cleared]
      rfl
    have once : ∀ p : Prop, [Decidable p] → (if p then 1 else 0) ≤ 1 := by
      intro p _
      split <;> decide
    have one := once (r.name ∈ ((s.graph.rulesForOutput message.instanceName).filter
      fun rule => (s.latch rule.name).state).map (·.name))
    simp only [clear, cleared.2, if_true, Bool.false_eq_true, if_false]
    omega
  · have unlisted : r.name ∉ ((s.graph.rulesForOutput message.instanceName).filter
        fun rule => (s.latch rule.name).state).map (·.name) := by
      intro listed
      obtain ⟨q, member, same⟩ := List.mem_map.mp listed
      obtain ⟨affected, set⟩ := List.mem_filter.mp member
      obtain ⟨hq, output⟩ := RuleGraph.mem_rulesForOutput.mp affected
      cases RuleGraph.eq_of_name hq known same
      exact cleared ⟨output, set⟩
    have same : t.latch r.name = s.latch r.name := by
      rw [obeyed, Rule.obey, if_neg cleared]
    rw [if_neg unlisted] at logged
    rw [same]
    exact Nat.add_le_add_right logged _

/-- A step that brings no event lets no latch rise, and logs a clear only with a fall. -/
theorem advance_clearings {s t : Engine} {step : Step}
    (eventless : ∀ heard ∈ step.messages s, Eventless s.plugins heard)
    (stepped : advance s step = some t) (before : EventLog) {r : Rule}
    (known : r ∈ s.graph.entries) :
    clearings before r t ≤ clearings before r s ∧
      ((t.latch r.name).state = true → (s.latch r.name).state = true) := by
  have reacted := advance_reacted (fun heard member => (eventless heard member).keeping) stepped
  have falling : (t.latch r.name).state = true → (s.latch r.name).state = true := by
    rw [reacted.latch r known]
    exact fun set => ((Rule.state_eventless _ eventless _).mp set).1
  refine ⟨?_, falling⟩
  cases step with
  | tick w =>
    exact ((tick_uncleared w).leads _ _ _ (advance_tick.mp stepped)).clearings falling before
  | handle w message =>
    have ran := advance_handle.mp stepped
    cases message with
    | unlatchRequest message => exact handleUnlatch_clearings ran before known
    | _ => exact ((handle_uncleared w (by simp)).leads _ _ _ ran).clearings falling before

def requesters (s : Engine) (steps : List Step) : List Name :=
  (messagesAlong s steps).filterMap (clearer s.plugins)

theorem run_eventless {s t : Engine} {steps : List Step}
    (eventless : ∀ heard ∈ messagesAlong s steps, Eventless s.plugins heard)
    (ran : Transition.run advance s steps = some t) : t.graph = s.graph ∧
    ∀ r ∈ s.graph.entries, (t.latch r.name).state = true ↔
      (s.latch r.name).state = true ∧ ∀ o ∈ requesters s steps, o ∉ r.outputs := by
  have reacted := run_reacted (fun heard member => (eventless heard member).keeping) ran
  refine ⟨reacted.graph, fun r known => ?_⟩
  rw [reacted.latch r known]
  exact Rule.state_eventless _ eventless _

theorem run_clearings {s t : Engine} {steps : List Step}
    (eventless : ∀ heard ∈ messagesAlong s steps, Eventless s.plugins heard)
    (ran : Transition.run advance s steps = some t) (before : EventLog) {r : Rule}
    (known : r ∈ s.graph.entries) : clearings before r t ≤ clearings before r s ∧
      Transition.Throughout advance (fun s step => ∀ t, advance s step = some t →
        (t.latch r.name).state = true → (s.latch r.name).state = true) s steps := by
  induction steps generalizing s with
  | nil =>
    cases Option.some.inj ran
    exact ⟨Nat.le_refl _, trivial⟩
  | cons step steps ih =>
    obtain ⟨m, stepped, rest⟩ := Transition.run_cons.mp ran
    simp only [messagesAlong, stepped, Option.elim_some] at eventless
    have now : ∀ heard ∈ step.messages s, Eventless s.plugins heard :=
      fun heard member => eventless heard (List.mem_append_left _ member)
    have reacted := advance_reacted (fun heard member => (now heard member).keeping) stepped
    have first := advance_clearings now stepped before known
    have later : ∀ heard ∈ messagesAlong m steps, Eventless m.plugins heard := by
      rw [reacted.plugins]
      exact fun heard member => eventless heard (List.mem_append_right _ member)
    have rest := ih later rest (reacted.graph ▸ known)
    refine ⟨rest.1.trans first.1, fun t same => ?_, fun t same => ?_⟩
    · cases Option.some.inj (stepped.symm.trans same)
      exact first.2
    · cases Option.some.inj (stepped.symm.trans same)
      exact rest.2

theorem newlyCleared_self (n : Name) (s : Engine) : newlyCleared s.store.eventLog n s = 0 := by
  rw [newlyCleared, List.countP_eq_zero]
  intro row listed
  simp [List.mem_of_mem_filter listed]

end Engine

/-- Requests to clear, with push results and ticks between them but no event: the latches
and the desired values in the end depend only on which outputs asked, each rule is cleared
at most once, and a request that finds nothing set is noted in the event log. -/
theorem clears_confluent (s t : Engine) (steps : List Step)
    (eventless : ∀ heard ∈ messagesAlong s steps, Eventless s.plugins heard)
    (ran : Transition.run advance s steps = some t) :
    (∀ r ∈ s.graph.entries,
      ((t.latch r.name).state = false ↔
        (s.latch r.name).state = false ∨ ∃ o ∈ requesters s steps, o ∈ r.outputs) ∧
      Transition.falls advance (fun m => (m.latch r.name).state) s steps ≤ 1 ∧
      newlyCleared s.store.eventLog r.name t ≤ 1) ∧
    (∀ (steps' : List Step) (t' : Engine),
      (∀ heard ∈ messagesAlong s steps', Eventless s.plugins heard) →
      Transition.run advance s steps' = some t' →
      (∀ o, o ∈ requesters s steps' ↔ o ∈ requesters s steps) →
      (∀ r ∈ s.graph.entries, (t'.latch r.name).state = (t.latch r.name).state) ∧
      ∀ o, t'.desired o = t.desired o) ∧
    ∀ (w : World) (message : UnlatchRequestMessage),
      ((∀ r ∈ t.graph.entries, r.name ∈ t.store.rules) →
        ∃ u, handle w (.unlatchRequest message) t = .ok ⟨⟩ u) ∧
      ((∀ r ∈ t.graph.rulesForOutput message.instanceName, (t.latch r.name).state = false) →
        ∀ u, handle w (.unlatchRequest message) t = .ok ⟨⟩ u →
          u = appendEvent w.now .unlatchIgnored (some message.instanceName) none message.cause
            t) := by
  have final := run_eventless eventless ran
  refine ⟨fun r known => ⟨?_, ?_, ?_⟩, fun steps' t' eventless' ran' same => ?_, fun w message => ?_⟩
  · have set := final.2 r known
    grind
  · have falls := Transition.falls_le_one (run_clearings eventless ran s.store.eventLog known).2
    refine falls.trans ?_
    split <;> decide
  · have bound := (run_clearings eventless ran s.store.eventLog known).1
    unfold clearings at bound
    rw [newlyCleared_self] at bound
    have most : (if (s.latch r.name).state then 1 else 0) ≤ 1 := by split <;> decide
    omega
  · have final' := run_eventless eventless' ran'
    have states : ∀ r ∈ s.graph.entries, (t'.latch r.name).state = (t.latch r.name).state := by
      intro r known
      rw [Bool.eq_iff_iff, final.2 r known, final'.2 r known]
      simp only [same]
    refine ⟨states, fun o => ?_⟩
    simp only [desired, final.1, final'.1]
    exact RuleGraph.desired_congr fun r known _ => states r known
  · exact ⟨handleUnlatch_returns w message t, fun idle u => handleUnlatch_idle idle⟩

namespace Sample

def alert : Rule where
  name := "alert"
  inputs := ["door"]
  outputs := ["lamp", "pager"]
  inputs_nodup := List.nodup_singleton _
  outputs_nodup := by simp

def bothSet : Engine :=
  { engine (store { LatchRecord.fresh with state := true }) with
    graph := ⟨[rule, alert], by simp [rule, alert]⟩
    store := { Store.empty with
      rules := (AList.singleton "notify" ⟨true, false⟩).insert "alert" ⟨true, false⟩ }
    latches := (AList.singleton "notify" { LatchRecord.fresh with state := true }).insert "alert"
      { LatchRecord.fresh with state := true } }

def ask (o : Name) : Engine.Step := .handle (quiet 1) (.unlatchRequest ⟨o, "acknowledged"⟩)

theorem asked_eventless (s : Engine) (plugins : PluginSet) (outputs : List Name) :
    ∀ heard ∈ messagesAlong s (outputs.map ask), Eventless plugins heard := by
  induction outputs generalizing s with
  | nil => simp [messagesAlong]
  | cons o outputs ih =>
    intro heard member
    rcases List.mem_append.mp member with here | later
    · rw [List.mem_singleton.mp here]
      trivial
    · cases stepped : advance s (ask o) with
      | none => simp [stepped] at later
      | some t => exact ih t heard (by simpa [stepped] using later)

end Sample

/-- The pager first or the lamp first, once or twice: the same desired values. -/
theorem clears_confluent_overlapping : ∃ t u,
    Transition.run advance Sample.bothSet (["pager", "lamp"].map Sample.ask) = some t ∧
    Transition.run advance Sample.bothSet (["lamp", "pager", "lamp"].map Sample.ask) = some u ∧
    ∀ o, u.desired o = t.desired o := by
  have ran : Transition.run advance Sample.bothSet (["pager", "lamp"].map Sample.ask) = _ :=
    (Option.some_get (by decide +kernel)).symm
  have ran' : Transition.run advance Sample.bothSet (["lamp", "pager", "lamp"].map Sample.ask) = _ :=
    (Option.some_get (by decide +kernel)).symm
  have confluent := clears_confluent _ _ _ (Sample.asked_eventless _ _ _) ran
  refine ⟨_, _, ran, ran', (confluent.2.1 _ _ (Sample.asked_eventless _ _ _) ran' ?_).2⟩
  have pager_first : requesters Sample.bothSet (["pager", "lamp"].map Sample.ask) =
      ["pager", "lamp"] := by decide +kernel
  have lamp_first : requesters Sample.bothSet (["lamp", "pager", "lamp"].map Sample.ask) =
      ["lamp", "pager", "lamp"] := by decide +kernel
  intro o
  rw [pager_first, lamp_first]
  simp only [List.mem_cons, List.not_mem_nil, or_false]
  tauto

end NotiMapper
