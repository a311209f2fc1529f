import NotiMapper.Engine.Handling
import NotiMapper.Plugins.FileInput

/-! Assembling the daemon: the configuration is mirrored into the store, the engine
built without plugins, the plugins handed over by a reload that `drain` handles, and
only then reconciliation runs. -/
namespace NotiMapper

open Python Effect Engine

namespace Daemon

def instanceRecord (i : InstanceConfig) : InstanceRecord := ⟨i.name, i.plugin, i.enabled, false⟩

def ruleRecord (rule : RuleConfig) : RuleRecord where
  name := rule.name
  enabled := rule.enabled
  orphaned := false
  inputs := rule.inputs
  outputs := rule.outputs
  inputs_nodup := rule.inputs_nodup
  outputs_nodup := rule.outputs_nodup

def mirrorConfiguration (store : Store) (configuration : Configuration) : Store :=
  let store := (store.syncInstances (configuration.instances.map instanceRecord)).2
  (store.syncRules (configuration.rules.map ruleRecord)).2

def engineOver (now : Time) (store : Store) (configuration : Configuration)
    (plugins : PluginSet) (dispatcher : Dispatcher) : Engine :=
  Engine.init now (mirrorConfiguration store configuration)
    (RuleGraph.fromConfiguration configuration) plugins dispatcher configuration.daemon

/-- The engine `start` constructs, before it has any plugin. -/
def assemble (now : Time) (store : Store) (configuration : Configuration) : Engine :=
  engineOver now store configuration .empty .empty

/-- One round of `drain`: what is on the queue, each message with the world it is
handled in, then a tick. -/
structure Round where
  batch : List (World × CoreMessage)
  ticked : World

def drainRound (round : Round) : Core Unit := do
  round.batch.forM fun entry => Engine.handle entry.1 entry.2
  Engine.tick round.ticked

/-- `drain` ends with the first round that finds nothing on the queue. -/
def drain : Nat → List Round → Core Unit
  | 0, _ | _, [] => pure ()
  | rounds + 1, round :: rest => do
    drainRound round
    if round.batch.isEmpty then return
    drain rounds rest

/-- The worlds in which `start` does its steps, and the plugins it has built. -/
structure Boot where
  constructed : Time
  plugins : PluginSet
  reloading : World
  firstTick : World
  secondTick : World
  reconciling : World

/-- The reload is the only message: nothing runs yet that could submit another. -/
def handOver (boot : Boot) (configuration : Configuration) : Core Unit :=
  drain maxDrainRounds
    [⟨[(boot.reloading, .reload ⟨configuration, some boot.plugins, 0⟩)], boot.firstTick⟩,
      ⟨[], boot.secondTick⟩]

def start (boot : Boot) (configuration : Configuration) : Core Unit := do
  handOver boot configuration
  Engine.reconcile boot.reconciling

/- What mirroring does to the store. -/

theorem orphanInstance_only (s : Store) (name : Name) :
    ∃ table, s.orphanInstance name = { s with instances := table } := by
  simp only [Store.orphanInstance]
  split
  · exact ⟨s.instances, rfl⟩
  · exact ⟨_, rfl⟩

theorem syncInstances_keeps {β : Type} (observe : Store → β)
    (blind : ∀ (s : Store) table, observe { s with instances := table } = observe s)
    (s : Store) (instances : List InstanceRecord) :
    observe (s.syncInstances instances).2 = observe s := by
  refine (foldl_keeps observe (fun s name => ?_) _ _).trans
    (foldl_keeps observe (fun s _ => blind s _) instances s)
  obtain ⟨table, only⟩ := orphanInstance_only s name
  rw [only, blind]

theorem orphanRule_rules (s : Store) (name : Name) :
    ∃ table, s.orphanRule name = { s with rules := table } ∧ ∀ n ∈ s.rules, n ∈ table := by
  simp only [Store.orphanRule]
  split
  · exact ⟨s.rules, rfl, fun _ member => member⟩
  · exact ⟨_, rfl, fun n member => (AList.mem_insert _).mpr (.inr member)⟩

theorem syncRules_keeps {β : Type} (observe : Store → β)
    (blind : ∀ (s : Store) rules latches inputs outputs, observe { s with
      rules := rules, latches := latches, ruleInputs := inputs, ruleOutputs := outputs } = observe s)
    (s : Store) (rules : List RuleRecord) : observe (s.syncRules rules).2 = observe s := by
  refine (foldl_keeps observe (fun s name => ?_) _ _).trans
    (foldl_keeps (fun acc : List Name × Store => observe acc.2) (fun acc rule => ?_) rules ([], s))
  · obtain ⟨table, only, _⟩ := orphanRule_rules s name
    rw [only]
    exact blind s table s.latches s.ruleInputs s.ruleOutputs
  · exact blind acc.2 _ _ _ _

/-- A mirrored rule has its row, and a latch. -/
def Registered (name : Name) (s : Store) : Prop := name ∈ s.rules ∧ name ∈ s.latches

theorem syncRule_registered (s : Store) (rule : RuleRecord) {name : Name}
    (registered : name = rule.name ∨ Registered name s) : Registered name (s.syncRule rule) := by
  simp only [Registered, Store.syncRule, AList.mem_insert]
  rcases registered with rfl | ⟨row, latch⟩
  · refine ⟨.inl rfl, ?_⟩
    split
    · rename_i present
      exact present
    · exact (AList.mem_insert _).mpr (.inl rfl)
  · refine ⟨.inr row, ?_⟩
    split
    · exact latch
    · exact (AList.mem_insert _).mpr (.inr latch)

theorem syncRules_registered (s : Store) (rules : List RuleRecord) {rule : RuleRecord}
    (member : rule ∈ rules) : Registered rule.name (s.syncRules rules).2 := by
  refine foldl_stays (P := Registered rule.name) (fun s name registered => ?_) _ ?_
  · obtain ⟨table, only, kept⟩ := orphanRule_rules s name
    rw [only]
    exact ⟨kept _ registered.1, registered.2⟩
  · refine foldl_reaches (P := fun acc : List Name × Store => Registered rule.name acc.2)
      (fun acc other registered => ?_) (fun acc => ?_) member ([], s)
    · exact syncRule_registered acc.2 other (.inr registered)
    · exact syncRule_registered acc.2 rule (.inl rfl)

/-- What a rule's latch says, as far as the stored row does. -/
def storedLatch (store : Store) (ruleName : Name) : LatchRecord :=
  (store.latch ruleName).getD .fresh

theorem syncRule_latch (s : Store) (rule : RuleRecord) (n : Name) :
    storedLatch (s.syncRule rule) n = storedLatch s n := by
  simp only [storedLatch, Store.latch, Store.syncRule]
  split
  · rfl
  · rename_i absent
    by_cases same : n = rule.name
    · subst same
      rw [AList.lookup_insert, AList.lookup_eq_none.mpr absent]
      rfl
    · rw [AList.lookup_insert_ne same]

theorem syncRules_latch (s : Store) (rules : List RuleRecord) (n : Name) :
    storedLatch (s.syncRules rules).2 n = storedLatch s n := by
  refine (foldl_keeps (storedLatch · n) (fun s name => ?_) _ _).trans
    (foldl_keeps (fun acc : List Name × Store => storedLatch acc.2 n)
      (fun acc rule => syncRule_latch acc.2 rule n) rules ([], s))
  obtain ⟨table, only, _⟩ := orphanRule_rules s name
  rw [only]
  rfl

theorem mirrorConfiguration_latch (store : Store) (configuration : Configuration) (n : Name) :
    storedLatch (mirrorConfiguration store configuration) n = storedLatch store n :=
  (syncRules_latch _ _ n).trans (syncInstances_keeps (storedLatch · n) (fun _ _ => rfl) _ _)

theorem syncRule_present (s : Store) (rule : RuleRecord) {n : Name} (member : n ∈ s.latches) :
    n ∈ (s.syncRule rule).latches := by
  simp only [Store.syncRule]
  split
  · exact member
  · exact (AList.mem_insert _).mpr (.inr member)

theorem syncRules_present (s : Store) (rules : List RuleRecord) {n : Name}
    (member : n ∈ s.latches) : n ∈ (s.syncRules rules).2.latches := by
  refine foldl_stays (P := fun s : Store => n ∈ s.latches) (fun s name member => ?_) _ ?_
  · obtain ⟨table, only, _⟩ := orphanRule_rules s name
    rw [only]
    exact member
  · exact foldl_stays (P := fun acc : List Name × Store => n ∈ acc.2.latches)
      (fun acc rule => syncRule_present acc.2 rule) rules member

theorem mirrorConfiguration_present (store : Store) (configuration : Configuration) {n : Name}
    (member : n ∈ store.latches) : n ∈ (mirrorConfiguration store configuration).latches := by
  have instances := syncInstances_keeps (·.latches) (fun _ _ => rfl) store
    (configuration.instances.map instanceRecord)
  exact syncRules_present _ _ (instances ▸ member)

theorem mirrorConfiguration_keeps {β : Type} (observe : Store → β)
    (blind : ∀ (s : Store) instances rules latches inputs outputs, observe { s with
      instances := instances, rules := rules, latches := latches, ruleInputs := inputs,
      ruleOutputs := outputs } = observe s) (store : Store) (configuration : Configuration) :
    observe (mirrorConfiguration store configuration) = observe store :=
  (syncRules_keeps observe (fun s rules latches inputs outputs =>
    blind s s.instances rules latches inputs outputs) _ _).trans
    (syncInstances_keeps observe (fun s instances =>
      blind s instances s.rules s.latches s.ruleInputs s.ruleOutputs) _ _)

theorem mirrorConfiguration_registered (store : Store) (configuration : Configuration) {r : Rule}
    (known : r ∈ (RuleGraph.fromConfiguration configuration).entries) :
    Registered r.name (mirrorConfiguration store configuration) := by
  simp only [RuleGraph.fromConfiguration, List.mem_map] at known
  obtain ⟨rule, enabled, rfl⟩ := known
  have configured : rule ∈ configuration.rules :=
    List.mem_of_mem_filter ((List.mem_insertionSort _).mp enabled)
  exact syncRules_registered _ _ (List.mem_map.mpr ⟨rule, configured, rfl⟩)

/- What reconciliation is given as the time the daemon was last seen. -/

theorem handleReload_lastSeen {w : World} {message : ReloadMessage} {s t : Engine}
    (ran : Engine.handle w (.reload message) s = .ok ⟨⟩ t) :
    t.store.daemonState = s.store.daemonState ∧ t.lastSeenWrittenAt = s.lastSeenWrittenAt := by
  simp only [Engine.handle, handleReload, transaction, get_bind_ok, modify_bind_ok] at ran
  simp only [bind_ok, restoring_ok, modify_ok] at ran
  obtain ⟨_, _, ⟨_, _, rfl, rfl⟩, rfl⟩ := ran
  rw [(syncOutputs_only _ _ _).eq]
  cases plugins : message.plugins <;> simp only [adopt, plugins] <;> exact ⟨rfl, rfl⟩

/-- What a tick at `now` makes of the noted time: nothing within a minute of the last note. -/
def noted (now : Time) (writtenAt lastSeen : Option Time) : Option Time × Option Time :=
  if writtenRecently now writtenAt then (writtenAt, lastSeen) else (some now, some now)

theorem maybeWriteLastSeen_noted (now : Time) (s : Engine) :
    ((maybeWriteLastSeen now s).lastSeenWrittenAt, (maybeWriteLastSeen now s).store.lastSeenAt) =
      noted now s.lastSeenWrittenAt s.store.lastSeenAt := by
  simp only [maybeWriteLastSeen, noted]
  split
  · rfl
  · simp [Store.writeLastSeenAt, Store.lastSeenAt]

theorem tick_lastSeen {w : World} {s t : Engine} (ran : Engine.tick w s = .ok ⟨⟩ t) :
    (t.lastSeenWrittenAt, t.store.lastSeenAt) =
      noted w.now s.lastSeenWrittenAt s.store.lastSeenAt := by
  obtain ⟨m, fired, rfl⟩ := tick_ok ran
  have moved := fireDueTimers_moves fired
  have sent := dispatchDuePushes_spec w.now m
  rw [maybeWriteLastSeen_noted, sent.only, moved.seenAt]
  simp only [Store.lastSeenAt, moved.lastSeen]

/-- The clock reading that the drain of `start` leaves as the last-seen time. -/
def drainedAt (boot : Boot) : Time :=
  if writtenRecently boot.secondTick.now (some boot.firstTick.now) then boot.firstTick.now
  else boot.secondTick.now

theorem drainRound_ok {round : Round} {s t : Engine} :
    drainRound round s = .ok ⟨⟩ t ↔
      ∃ m, round.batch.forM (fun entry => Engine.handle entry.1 entry.2) s = .ok ⟨⟩ m ∧
        Engine.tick round.ticked m = .ok ⟨⟩ t := by
  simp only [drainRound, bind_ok]
  constructor
  · rintro ⟨_, m, handled, ticked⟩
    exact ⟨m, handled, ticked⟩
  · rintro ⟨m, handled, ticked⟩
    exact ⟨_, m, handled, ticked⟩

theorem handOver_ok {boot : Boot} {configuration : Configuration} {s t : Engine}
    (ran : handOver boot configuration s = .ok ⟨⟩ t) :
    ∃ m₁ m₂, Engine.handle boot.reloading (.reload ⟨configuration, some boot.plugins, 0⟩) s =
        .ok ⟨⟩ m₁ ∧
      Engine.tick boot.firstTick m₁ = .ok ⟨⟩ m₂ ∧ Engine.tick boot.secondTick m₂ = .ok ⟨⟩ t := by
  simp only [handOver, maxDrainRounds, drain, List.isEmpty_cons, List.isEmpty_nil,
    Bool.false_eq_true, if_false, if_true] at ran
  obtain ⟨_, m₂, first, ran⟩ := bind_ok.mp ran
  obtain ⟨_, m₃, second, ran⟩ := bind_ok.mp ran
  obtain ⟨m₁, handled, ticked⟩ := drainRound_ok.mp first
  obtain ⟨m, empty, again⟩ := drainRound_ok.mp second
  obtain ⟨_, reloaded, nothing⟩ := forM_cons_ok.mp handled
  rw [forM_nil_ok.mp nothing] at reloaded
  rw [← forM_nil_ok.mp empty, (pure_ok.mp ran).2] at again
  exact ⟨m₁, m₂, reloaded, ticked, again⟩

theorem handOver_lastSeenAt {boot : Boot} {store : Store} {configuration : Configuration}
    {s : Engine}
    (ran : handOver boot configuration (assemble boot.constructed store configuration) = .ok ⟨⟩ s) :
    s.store.lastSeenAt = some (drainedAt boot) := by
  obtain ⟨m₁, m₂, reloaded, first, second⟩ := handOver_ok ran
  have fresh : m₁.lastSeenWrittenAt = none := (handleReload_lastSeen reloaded).2
  have once := tick_lastSeen first
  have twice := tick_lastSeen second
  simp only [fresh, noted, writtenRecently, Option.any_none, Bool.false_eq_true, if_false,
    Prod.mk.injEq] at once
  rw [once.1, once.2] at twice
  unfold noted at twice
  unfold drainedAt
  cases recent : writtenRecently boot.secondTick.now (some boot.firstTick.now) with
  | true =>
    rw [recent, if_pos rfl] at twice
    exact (Prod.mk.inj twice).2
  | false =>
    rw [recent, if_neg Bool.false_ne_true] at twice
    exact (Prod.mk.inj twice).2

/-- Reconciliation is given exactly the stored time, and so every file that is new, not
older than that time and not newer than the start is reported. -/
def Honest (boot : Boot) (store : Store) (s : Engine) : Prop :=
  s.store.lastSeenAt = store.lastSeenAt ∧
  ∀ (f : FileInput) (observed : List Observation) (seen : Seen) (o : Observation),
    (observed.map (·.path)).Nodup → o ∈ observed → f.isNew seen o = true →
    (∀ t, store.lastSeenAt = some t → t ≤ o.modifiedAt) → o.modifiedAt ≤ boot.reconciling.now →
    f.eventFor o "catch-up" ∈ (f.catchUp s.store.lastSeenAt observed seen).1

/-- `s` is the state in which `start` calls `reconcile`, which reads `since` from its
store. The stored time is passed on only if it is the drain's own clock reading. -/
theorem honest_iff (boot : Boot) (store : Store) (configuration : Configuration) (s : Engine)
    (ran : handOver boot configuration (assemble boot.constructed store configuration) = .ok ⟨⟩ s) :
    Honest boot store s ↔ store.lastSeenAt = some (drainedAt boot) := by
  have overwritten := handOver_lastSeenAt ran
  constructor
  · intro honest
    rw [← honest.1, overwritten]
  · intro coincides
    have passed : s.store.lastSeenAt = store.lastSeenAt := overwritten.trans coincides.symm
    refine ⟨passed, fun f observed seen o nodup member new late _ => ?_⟩
    rw [passed]
    exact FileInput.catchUp_reports nodup member new late

def sampleConfiguration : Configuration where
  instances := [⟨"mail", "file-input", true, "{}"⟩, ⟨"lamp", "pagerduty-output", true, "{}"⟩]
  rules := [⟨"notify", ["mail"], ["lamp"], true,
    Sample.rule.inputs_nodup, Sample.rule.outputs_nodup⟩]
  instances_nodup := by decide
  rules_nodup := by decide

def sampleBoot : Boot where
  constructed := 100
  plugins := Sample.plugins
  reloading := Sample.quiet 100
  firstTick := Sample.quiet 100
  secondTick := Sample.quiet 100
  reconciling := Sample.quiet 100

/-- The daemon was last seen at 10 and starts at 100; reconciliation is told 100. -/
theorem last_seen_overwritten :
    ¬ ∀ (boot : Boot) (store : Store) (configuration : Configuration) (s : Engine),
      handOver boot configuration (assemble boot.constructed store configuration) = .ok ⟨⟩ s →
      Honest boot store s := by
  intro honest
  have ran := ok_of_returned (x := handOver sampleBoot sampleConfiguration)
    (s := assemble 100 (Store.empty.writeLastSeenAt 10) sampleConfiguration) (by decide +kernel)
  have same := (honest sampleBoot (Store.empty.writeLastSeenAt 10) sampleConfiguration _ ran).1
  revert same
  decide +kernel

theorem coincidence_honest :
    Honest sampleBoot (Store.empty.writeLastSeenAt 100)
      (final (handOver sampleBoot sampleConfiguration)
        (assemble 100 (Store.empty.writeLastSeenAt 100) sampleConfiguration)) := by
  have ran := ok_of_returned (x := handOver sampleBoot sampleConfiguration)
    (s := assemble 100 (Store.empty.writeLastSeenAt 100) sampleConfiguration) (by decide +kernel)
  exact (honest_iff sampleBoot _ sampleConfiguration _ ran).mpr (by decide +kernel)

end Daemon

end NotiMapper
