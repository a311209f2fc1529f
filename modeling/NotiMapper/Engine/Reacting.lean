import NotiMapper.Library.Register
import NotiMapper.Library.Transition
import NotiMapper.Engine.Handling

/-! The latch of a rule along a run. Each message says set, clear or nothing about it,
and its state is a register that these writes go to: in the end it is what was said
last, or what it was. -/
namespace NotiMapper

open Python Effect Engine

namespace Rule

/-- What a handled message says about the rule's latch: set, clear, or nothing. -/
def verdict (rule : Rule) (plugins : PluginSet) : World × CoreMessage → Option Bool
  | (_, .inputEvent message) => if message.instanceName ∈ rule.inputs then some true else none
  | (_, .unlatchRequest message) => if message.instanceName ∈ rule.outputs then some false else none
  | (w, .reconcileOutput message) =>
    if message.instanceName ∈ plugins.outputs ∧ message.instanceName ∈ rule.outputs ∧
        (queryOutput w message.instanceName).belief = .cleared then some false else none
  | (w, .catchUp message) =>
    if message.instanceName ∈ plugins.inputs ∧ message.instanceName ∈ rule.inputs then
      match w.catchUp message.instanceName message.since with
      | .ok (_ :: _) => some true
      | _ => none
    else none
  | (_, .pushResult _) | (_, .reload _) | (_, .pollHealth) | (_, .shutdown) => none

theorem replay_state (rule : Rule) (name : Name) (events : List ObservedEvent)
    (record : LatchRecord) : (rule.replay name events record).state =
      (record.state || (decide (name ∈ rule.inputs) && !events.isEmpty)) := by
  induction events generalizing record with
  | nil => simp [replay]
  | cons event events ih =>
    have once : rule.replay name (event :: events) record =
        rule.replay name events (rule.hear ⟨name, event⟩ record) := rfl
    rw [once, ih]
    by_cases listed : name ∈ rule.inputs <;> simp [hear, listed, triggered]

theorem answered_state (now : Time) (state : RemoteState) (record : LatchRecord) :
    (answered now state record).state = (record.state && decide (state.belief ≠ .cleared)) := by
  have eventless := @resolveRule_eventless now record [state]
  rw [answered, ReconcileOutcome.applyTo_state, eventless.2]
  simp [AnyCleared]

theorem react_state (rule : Rule) (plugins : PluginSet) (w : World) (message : CoreMessage)
    (record : LatchRecord) : (rule.react plugins w message record).state =
      Register.apply (rule.verdict plugins) record.state (w, message) := by
  unfold Register.apply
  cases message with
  | inputEvent message =>
    by_cases listed : message.instanceName ∈ rule.inputs <;>
      simp [react, verdict, hear, listed, triggered]
  | unlatchRequest message =>
    by_cases listed : message.instanceName ∈ rule.outputs <;>
      cases set : record.state <;> simp [react, verdict, obey, listed, set, unlatched]
  | reconcileOutput message =>
    simp only [react, verdict, consult]
    by_cases live : message.instanceName ∈ plugins.outputs
    · by_cases listed : message.instanceName ∈ rule.outputs
      · by_cases cleared : (queryOutput w message.instanceName).belief = .cleared
        · simp [live, listed, cleared, answered_state]
        · by_cases unknown : (queryOutput w message.instanceName).belief = .unknown
          · simp [live, unknown]
          · simp [live, listed, cleared, unknown, answered_state]
      · simp [live, listed]
    · simp [live]
  | catchUp message =>
    simp only [react, verdict]
    by_cases live : message.instanceName ∈ plugins.inputs
    · cases answer : w.catchUp message.instanceName message.since with
      | error failure => simp [live]
      | ok events =>
        by_cases listed : message.instanceName ∈ rule.inputs
        · cases events <;> simp [live, listed, replay_state]
        · simp [live, listed, replay_state]
    · simp [live]
  | pushResult message => rfl
  | reload message => rfl
  | pollHealth => rfl
  | shutdown => rfl

end Rule

namespace Engine

/-- The messages a step handles, with the world it handles them in: one, or for a tick
those of the timers that are due. -/
def Step.messages (s : Engine) : Step → List (World × CoreMessage)
  | .handle w message => [(w, message)]
  | .tick w => (s.timers.filter (·.dueAt ≤ w.now)).map fun timer => (w, timer.message)

def messagesAlong : Engine → List Step → List (World × CoreMessage)
  | _, [] => []
  | s, step :: steps =>
    step.messages s ++ ((advance s step).elim [] fun t => messagesAlong t steps)

def reacting (plugins : PluginSet) (rule : Rule) (record : LatchRecord)
    (heard : World × CoreMessage) : LatchRecord := rule.react plugins heard.1 heard.2 record

/-- A step without a reload keeps the graph and the plugins, and each latch reacts to
what the step handles. -/
structure Reacted (heard : List (World × CoreMessage)) (s t : Engine) : Prop where
  graph : t.graph = s.graph
  plugins : t.plugins = s.plugins
  latch : ∀ r ∈ s.graph.entries,
    t.latch r.name = heard.foldl (reacting s.plugins r) (s.latch r.name)
  others : ∀ n, n ∉ s.graph.entries.map (·.name) → t.latch n = s.latch n
  writes : SameWrites s t
  mirror : t.store.mirror = s.store.mirror

theorem Reacted.trans {before after : List (World × CoreMessage)} {s m t : Engine}
    (first : Reacted before s m) (second : Reacted after m t) : Reacted (before ++ after) s t where
  graph := second.graph.trans first.graph
  plugins := second.plugins.trans first.plugins
  latch := by
    intro r known
    rw [second.latch r (first.graph ▸ known), first.latch r known, first.plugins,
      List.foldl_append]
  others := by
    intro n absent
    rw [second.others n (first.graph ▸ absent), first.others n absent]
  writes := trans_of SameWrites first.writes second.writes
  mirror := second.mirror.trans first.mirror

theorem handle_reacted {w : World} {message : CoreMessage} {s t : Engine}
    (keeping : ∀ reload, message ≠ .reload reload) (ran : handle w message s = .ok ⟨⟩ t) :
    Reacted [(w, message)] s t := by
  cases message with
  | pushResult result =>
    have resulted := handlePushResult_resulted ran
    exact ⟨resulted.graph, resulted.plugins, fun r _ => resulted.latch r.name,
      fun n _ => resulted.latch n, ⟨[], resulted.cache, resulted.stored⟩, resulted.mirror⟩
  | reload reload => exact absurd rfl (keeping reload)
  | _ =>
    have moved := handle_moves (by simp) (by simp) ran
    exact ⟨moved.graph, moved.plugins, moved.latch, moved.others, moved.writes, moved.mirror⟩

theorem tick_reacted {w : World} {s t : Engine} (ran : tick w s = .ok ⟨⟩ t) :
    Reacted ((Step.tick w).messages s) s t := by
  obtain ⟨m, fired, rfl⟩ := tick_ok ran
  have moved := fireDueTimers_moves fired
  have sent := dispatchDuePushes_spec w.now m
  rw [maybeWriteLastSeen_only]
  refine ⟨sent.graph.trans moved.graph, sent.plugins.trans moved.plugins, fun r known => ?_,
    fun n absent => (sent.latch n).trans (moved.others n absent), ?_, ?_⟩
  · refine (sent.latch r.name).trans ((moved.latch r known).trans ?_)
    simp only [firing, Step.messages, List.foldl_map]
    rfl
  · rw [sent.only]
    exact moved.writes
  · rw [sent.only]
    exact moved.mirror

theorem advance_reacted {s t : Engine} {step : Step}
    (keeping : ∀ heard ∈ step.messages s, ∀ reload, heard.2 ≠ .reload reload)
    (stepped : advance s step = some t) : Reacted (step.messages s) s t := by
  cases step with
  | handle w message =>
    exact handle_reacted (keeping _ (List.mem_singleton.mpr rfl)) (advance_handle.mp stepped)
  | tick w => exact tick_reacted (advance_tick.mp stepped)

/-- A step handles a reload, or it keeps the graph and the plugins and the latches react. -/
theorem advance_cases {s t : Engine} {step : Step} (stepped : advance s step = some t) :
    ((∀ heard ∈ step.messages s, ∀ reload, heard.2 ≠ .reload reload) ∧
      Reacted (step.messages s) s t) ∨
      ∃ w message, step = .handle w (.reload message) ∧ t = reloaded w.now message s := by
  cases step with
  | tick w =>
    refine .inl ⟨fun heard member => ?_, tick_reacted (advance_tick.mp stepped)⟩
    obtain ⟨timer, _, rfl⟩ := List.mem_map.mp member
    exact (scheduled_own timer).2
  | handle w message =>
    have ran := advance_handle.mp stepped
    cases message with
    | reload message => exact .inr ⟨w, message, rfl, handleReload_ok.mp ran⟩
    | _ =>
      refine .inl ⟨fun heard member => ?_, handle_reacted (by simp) ran⟩
      cases List.mem_singleton.mp member
      simp

/-- What the engine wants of an output once it has handled the messages. -/
def desiredAfter (s : Engine) (heard : List (World × CoreMessage)) (o : Name) : Bool :=
  (s.graph.rulesForOutput o).any fun rule =>
    (heard.foldl (reacting s.plugins rule) (s.latch rule.name)).state

theorem Reacted.desired {heard : List (World × CoreMessage)} {s t : Engine}
    (reacted : Reacted heard s t) (o : Name) : t.desired o = s.desiredAfter heard o := by
  rw [Engine.desired, RuleGraph.desiredOutputState, reacted.graph, desiredAfter, Bool.eq_iff_iff,
    List.any_eq_true, List.any_eq_true]
  refine exists_congr fun rule => and_congr_right fun listed => ?_
  rw [latchStates, reacted.latch rule (List.mem_of_mem_filter listed)]

theorem advance_mirror {s t : Engine} {step : Step} (stepped : advance s step = some t) :
    t.store.mirror = s.store.mirror := by
  rcases advance_cases stepped with ⟨_, reacted⟩ | ⟨w, message, _, rfl⟩
  · exact reacted.mirror
  · rw [reloaded_only]
    rfl

theorem reloaded_latches (now : Time) (message : ReloadMessage) (s : Engine) :
    (reloaded now message s).latches = s.store.latches ∧
      (reloaded now message s).store.latches = s.store.latches := by
  rw [reloaded_only]
  cases plugins : message.plugins <;> simp only [adopt, plugins] <;> trivial

/-- What any step makes of the latches, a reload among its messages or not: those that the
cache had right it still has right, and they have reacted. -/
structure Followed (heard : List (World × CoreMessage)) (s t : Engine) : Prop where
  tracked : ∀ n, Tracked s n → Tracked t n
  latch : ∀ r ∈ s.graph.entries, Tracked s r.name →
    t.latch r.name = heard.foldl (reacting s.plugins r) (s.latch r.name)
  others : ∀ n, n ∉ s.graph.entries.map (·.name) → Tracked s n → t.latch n = s.latch n
  present : ∀ n ∈ s.store.latches, n ∈ t.store.latches

theorem Reacted.followed {heard : List (World × CoreMessage)} {s t : Engine}
    (reacted : Reacted heard s t) : Followed heard s t where
  tracked := fun _ => reacted.writes.tracked
  latch := fun r known _ => reacted.latch r known
  others := fun n absent _ => reacted.others n absent
  present := fun _ => reacted.writes.present

theorem reloaded_tracked (now : Time) (message : ReloadMessage) (s : Engine) (n : Name) :
    Tracked (reloaded now message s) n := by
  obtain ⟨cache, stored⟩ := reloaded_latches now message s
  rw [Tracked, Engine.latch, cache, Store.latch, stored]

theorem advance_tracked {s t : Engine} {step : Step}
    (tracked : ∀ r ∈ s.graph.entries, Tracked s r.name) (stepped : advance s step = some t) :
    ∀ r ∈ t.graph.entries, Tracked t r.name := by
  rcases advance_cases stepped with ⟨_, reacted⟩ | ⟨w, message, rfl, rfl⟩
  · rw [reacted.graph]
    exact fun r known => reacted.writes.tracked (tracked r known)
  · exact fun r _ => reloaded_tracked w.now message s r.name

theorem reloaded_followed (w : World) (message : ReloadMessage) (s : Engine) :
    Followed [(w, .reload message)] s (reloaded w.now message s) := by
  have stored := (reloaded_latches w.now message s).2
  have tracked := reloaded_tracked w.now message s
  generalize reloaded w.now message s = t at stored tracked
  have kept : ∀ n, Tracked s n → t.latch n = s.latch n := by
    intro n before
    rw [tracked n, before, Store.latch, Store.latch, stored]
  refine ⟨fun n _ => tracked n, fun r _ => kept r.name, fun n _ => kept n, fun n => ?_⟩
  rw [stored]
  exact id

theorem advance_followed {s t : Engine} {step : Step} (stepped : advance s step = some t) :
    Followed (step.messages s) s t := by
  rcases advance_cases stepped with ⟨_, reacted⟩ | ⟨w, message, rfl, rfl⟩
  · exact reacted.followed
  · exact reloaded_followed w message s

theorem run_reacted {s t : Engine} {steps : List Step}
    (keeping : ∀ heard ∈ messagesAlong s steps, ∀ reload, heard.2 ≠ .reload reload)
    (ran : Transition.run advance s steps = some t) : Reacted (messagesAlong s steps) s t := by
  induction steps generalizing s with
  | nil =>
    cases Option.some.inj ran
    exact ⟨rfl, rfl, fun _ _ => rfl, fun _ _ => rfl, ⟨[], rfl, rfl⟩, rfl⟩
  | cons step steps ih =>
    obtain ⟨m, stepped, rest⟩ := Transition.run_cons.mp ran
    simp only [messagesAlong, stepped, Option.elim_some] at keeping ⊢
    have first := advance_reacted
      (fun heard member => keeping heard (List.mem_append_left _ member)) stepped
    exact first.trans (ih (fun heard member => keeping heard (List.mem_append_right _ member)) rest)

/-- The state a latch ends a run with: what the run last said about it, or what it was. -/
theorem run_state {s t : Engine} {steps : List Step}
    (keeping : ∀ heard ∈ messagesAlong s steps, ∀ reload, heard.2 ≠ .reload reload)
    (ran : Transition.run advance s steps = some t) {r : Rule} (known : r ∈ s.graph.entries) :
    (t.latch r.name).state =
      (Register.lastWrite (r.verdict s.plugins) (messagesAlong s steps)).getD
        (s.latch r.name).state := by
  rw [(run_reacted keeping ran).latch r known, ← Register.foldl_apply]
  generalize messagesAlong s steps = heard
  generalize s.latch r.name = record
  induction heard generalizing record with
  | nil => rfl
  | cons first heard ih =>
    rw [List.foldl_cons, List.foldl_cons, ih]
    rw [reacting, Rule.react_state]

end Engine

end NotiMapper
