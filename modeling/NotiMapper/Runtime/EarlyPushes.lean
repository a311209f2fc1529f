import NotiMapper.Runtime
import NotiMapper.Engine.Automaton
import NotiMapper.Threads.Pushes

/-! Pushes before reconciliation. The drain of `start` performs whole ticks, so a row that
is due then, left from an earlier run or written by the reload, is dispatched before any
output has been queried. Nothing is sent early exactly if no such row is due. -/
namespace NotiMapper

open Python Effect Engine

namespace Engine

/- The pending row that synchronising leaves. -/

def syncedPush (s : Engine) (now : Time) (o : Name) : Option PendingPush :=
  if s.lastApplied o = some (s.desired o) then none
  else if (s.store.pendingPush o).any (·.targetValue == s.desired o) then s.store.pendingPush o
  else some ⟨s.desired o, 0, now, none⟩

theorem syncOutput_push (now : Time) (o : Name) (s : Engine) :
    (s.syncOutput now false o).store.pendingPush o = s.syncedPush now o := by
  simp only [syncOutput, syncedPush, Bool.not_false, Bool.true_and, beq_iff_eq]
  split
  · split
    · simp [onStore, Store.pendingPush_delete]
    · rename_i absent
      simpa using absent
  · split
    · rfl
    · simp [onStore, Store.pendingPush_write]

theorem syncOutputs_push (now : Time) (names : List Name) (nodup : names.Nodup) (s : Engine)
    (o : Name) : (s.syncOutputs now names).store.pendingPush o =
      if o ∈ names then s.syncedPush now o else s.store.pendingPush o := by
  induction names generalizing s with
  | nil => simp [syncOutputs]
  | cons q names ih =>
    have only := syncOutput_only now false q s
    have rest := ih (List.nodup_cons.mp nodup).2 (s.syncOutput now false q)
    refine rest.trans ?_
    by_cases same : o = q
    · subst same
      simp only [(List.nodup_cons.mp nodup).1, if_false, List.mem_cons, true_or, if_true]
      exact syncOutput_push now o s
    · have push := syncOutput_other now false same s
      have synced : (s.syncOutput now false q).syncedPush now o = s.syncedPush now o := by
        simp only [syncedPush, only.lastApplied, only.desired, push]
      simp only [push, synced, List.mem_cons, same, false_or]

theorem reloaded_push (now : Time) (message : ReloadMessage) (s : Engine) (o : Name) :
    (reloaded now message s).store.pendingPush o =
      if o ∈ s.graph.outputNames ∨ o ∈ (adopt message s).graph.outputNames then
        (adopt message s).syncedPush now o
      else s.store.pendingPush o := by
  refine (syncOutputs_push now _ (RuleGraph.sortedNames_nodup _) _ o).trans ?_
  simp only [RuleGraph.mem_sortedNames, List.mem_append]
  split
  · rename_i listed
    exact (if_pos listed).symm
  · rename_i unlisted
    refine Eq.trans ?_ (if_neg unlisted).symm
    rw [← adopt_store message s]
    rfl

/- A tick while the only timers are health polls. -/

theorem fireDueTimers_apart {w : World} {s t : Engine} (polls : PollsOnly s)
    (ran : fireDueTimers w s = .ok ⟨⟩ t) : Apart s t := by
  have taken : Apart s { s with timers := s.timers.filter fun timer => ¬ timer.dueAt ≤ w.now } :=
    rfl
  simp only [fireDueTimers, get_bind_ok, modify_bind_ok] at ran
  refine trans_of Apart taken (Keeps.leads (Keeps.forM _ fun timer member => ?_) _ _ _ ran)
  rw [polls timer (List.mem_of_mem_filter member)]
  exact handlePollHealth_apart w

end Engine

namespace Daemon

/-- The row an output has once the reload of the hand-over is handled, read off the stored
tables: what is not in the graph keeps its row, what was last applied needs none, and a
row that aims at the desired value is kept with its time. -/
def waiting (boot : Boot) (store : Store) (configuration : Configuration) (o : Name) :
    Option PendingPush :=
  let graph := RuleGraph.fromConfiguration configuration
  let desired := graph.desiredOutputState o fun n => (storedLatch store n).state
  if o ∉ graph.outputNames then store.pendingPush o
  else if (store.outputStateOf o).bind (·.lastApplied) = some desired then none
  else if (store.pendingPush o).any (·.targetValue == desired) then store.pendingPush o
  else some ⟨desired, 0, boot.reloading.now, none⟩

structure Early (boot : Boot) (store : Store) (configuration : Configuration) (s : Engine) :
    Prop where
  unsent : s.dispatcher.queue = []
  idle : s.inFlight = ∅
  plugins : s.plugins = boot.plugins
  polls : PollsOnly s
  rows : ∀ o ∈ boot.plugins.outputs, s.store.pendingPush o = waiting boot store configuration o

theorem adopted_push (boot : Boot) (store : Store) (configuration : Configuration) (o : Name) :
    let s := assemble boot.constructed store configuration
    let message : ReloadMessage := ⟨configuration, some boot.plugins, 0⟩
    (if o ∈ s.graph.outputNames ∨ o ∈ (adopt message s).graph.outputNames then
      (adopt message s).syncedPush boot.reloading.now o else s.store.pendingPush o) =
      waiting boot store configuration o := by
  intro s message
  have latch : ∀ n, (adopt message s).latch n = storedLatch store n :=
    mirrorConfiguration_latch store configuration
  have desired : (adopt message s).desired o =
      (RuleGraph.fromConfiguration configuration).desiredOutputState o
        fun n => (storedLatch store n).state :=
    RuleGraph.desired_congr fun r _ _ => congrArg LatchRecord.state (latch r.name)
  have applied : (adopt message s).lastApplied o = (store.outputStateOf o).bind (·.lastApplied) :=
    mirrorConfiguration_keeps (fun store => (store.outputStateOf o).bind (·.lastApplied))
      (fun _ _ _ _ _ _ => rfl) store configuration
  have before : (adopt message s).store.pendingPush o = store.pendingPush o :=
    mirrorConfiguration_keeps (·.pendingPush o) (fun _ _ _ _ _ _ => rfl) store configuration
  have graph : (adopt message s).graph = RuleGraph.fromConfiguration configuration := rfl
  have old : s.graph = RuleGraph.fromConfiguration configuration := rfl
  simp only [waiting, syncedPush, desired, applied, before, graph, old, or_self]
  by_cases listed : o ∈ (RuleGraph.fromConfiguration configuration).outputNames
  · simp only [listed, if_true, not_true_eq_false, if_false]
  · simp only [listed, if_false, not_false_eq_true, if_true]
    exact before

theorem reloaded_early {boot : Boot} {store : Store} {configuration : Configuration} {s : Engine}
    (ran : Engine.handle boot.reloading (.reload ⟨configuration, some boot.plugins, 0⟩)
      (assemble boot.constructed store configuration) = .ok ⟨⟩ s) :
    Early boot store configuration s := by
  have reloaded := handleReload_ok.mp ran
  have rows : ∀ o, s.store.pendingPush o = waiting boot store configuration o := by
    intro o
    rw [reloaded, reloaded_push]
    exact adopted_push boot store configuration o
  rw [reloaded_only] at reloaded
  subst reloaded
  refine ⟨rfl, rfl, rfl, ?_, fun o _ => rows o⟩
  intro timer member
  rw [List.mem_singleton.mp member]

/-- No row of an output that has a plugin is due at this moment. -/
def NoneDue (boot : Boot) (store : Store) (configuration : Configuration) (now : Time) : Prop :=
  ∀ o ∈ boot.plugins.outputs, ∀ push, waiting boot store configuration o = some push →
    now < push.nextAttemptAt

section Ticking

variable {boot : Boot} {store : Store} {configuration : Configuration} {w : World} {s t : Engine}

theorem readyRequests_eq_nil {rows : List (Name × PendingPush)} (idle : s.inFlight = ∅) :
    s.readyRequests rows = [] ↔ ∀ row ∈ rows, row.1 ∉ s.plugins.outputs := by
  simp only [readyRequests, List.filterMap_eq_nil_iff, idle, Finset.notMem_empty,
    not_false_eq_true, true_and, ite_eq_right_iff, reduceCtorEq, imp_false]

/-- A tick sends a request for each row that is due, and nothing if none is. -/
theorem tick_early (early : Early boot store configuration s)
    (ran : Engine.tick w s = .ok ⟨⟩ t) :
    (t.dispatcher.queue = [] ↔ NoneDue boot store configuration w.now) ∧
    (t.dispatcher.queue = [] → Early boot store configuration t) := by
  have polled := tick_latchesKept w s early.polls
  rw [final_ok ran] at polled
  obtain ⟨m, fired, rfl⟩ := tick_ok ran
  have apart := fireDueTimers_apart (s := { s with heartbeat := some w.now }) early.polls fired
  have moved := apart.moves
  have sent := dispatchDuePushes_spec w.now m
  rw [maybeWriteLastSeen_only]
  have idle : m.inFlight = ∅ := moved.inFlight.trans early.idle
  have plugins : m.plugins = boot.plugins := moved.plugins.trans early.plugins
  have rows : ∀ o ∈ boot.plugins.outputs,
      m.store.pendingPush o = waiting boot store configuration o := by
    intro o live
    rw [← early.rows o live, apart.eq]
    rfl
  have queue : (m.dispatchDuePushes w.now).dispatcher.queue =
      m.readyRequests (m.store.pendingPushesDue w.now) := by
    rw [sent.queue, moved.dispatcher]
    simp only [early.unsent, List.nil_append]
  have none : m.readyRequests (m.store.pendingPushesDue w.now) = [] ↔
      NoneDue boot store configuration w.now := by
    rw [readyRequests_eq_nil idle, plugins]
    constructor
    · intro absent o live push row
      rw [← rows o live] at row
      by_contra due
      exact absent (o, push) (Store.mem_pendingPushesDue.mpr ⟨row, Nat.le_of_not_lt due⟩) live
    · intro none row due live
      obtain ⟨stored, soon⟩ := Store.mem_pendingPushesDue.mp due
      rw [rows row.1 live] at stored
      exact absurd soon (Nat.not_le_of_lt (none row.1 live row.2 stored))
  refine ⟨by rw [← none, ← queue], fun unsent => ?_⟩
  have undue := none.mp (queue ▸ unsent)
  refine ⟨unsent, ?_, sent.plugins.trans plugins, ?_, fun o live => ?_⟩
  · ext o
    rw [sent.inFlight o, idle, ← queue, unsent]
    simp
  · have polls := polled.polls early.polls
    rw [maybeWriteLastSeen_only] at polls
    exact polls
  · have undue : o ∉ (m.store.pendingPushesDue w.now).map (·.1) := by
      intro listed
      obtain ⟨row, due, rfl⟩ := List.mem_map.mp listed
      obtain ⟨stored, soon⟩ := Store.mem_pendingPushesDue.mp due
      rw [rows row.1 live] at stored
      exact absurd soon (Nat.not_le_of_lt (undue row.1 live row.2 stored))
    exact (sent.pushes o).trans ((if_neg undue).trans (rows o live))

end Ticking

/-- The pool has nothing when reconciliation begins; and whatever it has when that ends is
what was decided, for each output of the graph that has a plugin, and once. -/
structure Withheld (w : World) (s : Engine) : Prop where
  unsent : s.dispatcher.queue = []
  decided : ∀ t, Engine.reconcile w s = .ok ⟨⟩ t →
    (∀ request ∈ t.dispatcher.queue, request.update.state = t.desired request.instanceName) ∧
    (t.dispatcher.queue.map (·.instanceName)).Nodup ∧
    ∀ o ∈ t.graph.outputNames, o ∈ t.plugins.outputs →
      o ∈ t.dispatcher.queue.map (·.instanceName)

theorem early_withheld {boot : Boot} {store : Store} {configuration : Configuration} {w : World}
    {s : Engine} (early : Early boot store configuration s) : Withheld w s := by
  refine ⟨early.unsent, fun t ran => ?_⟩
  obtain ⟨run⟩ := reconcile_run ran
  have sent := run.dispatched
  have queue : run.sent.dispatcher.queue =
      run.forced.readyRequests (run.forced.store.pendingPushesDue w.now) := by
    rw [sent.queue, run.forced_eq]
    simp only [early.unsent, List.nil_append]
  rw [run.ready]
  simp only [queue]
  refine ⟨?_, run.forced.readyRequests_nodup (Store.pendingPushesDue_nodup _ _), ?_⟩
  · intro request made
    obtain ⟨row, _, made⟩ := List.mem_filterMap.mp made
    split at made
    · cases made
      exact (buildUpdate_state _ _ _).trans (sent.desired row.1).symm
    · cases made
  · intro o member live
    rw [sent.graph, run.forced_eq] at member
    rw [sent.plugins] at live
    have idle : o ∉ run.forced.inFlight := by
      rw [run.forced_eq]
      simp only [early.idle, Finset.notMem_empty, not_false_eq_true]
    have due : (o, (⟨run.forced.desired o, 0, w.now, none⟩ : PendingPush)) ∈
        run.forced.store.pendingPushesDue w.now :=
      Store.mem_pendingPushesDue.mpr ⟨run.forced_ok.pushes o member, Nat.le_refl w.now⟩
    refine List.mem_map.mpr ⟨⟨o, run.forced.buildUpdate o (run.forced.desired o)⟩, ?_, rfl⟩
    exact List.mem_filterMap.mpr ⟨_, due, if_pos ⟨idle, live⟩⟩

/-- Nothing is sent before reconciliation exactly if no row is due at the two ticks. -/
theorem withheld_iff (boot : Boot) (store : Store) (configuration : Configuration) (s : Engine)
    (ran : handOver boot configuration (assemble boot.constructed store configuration) = .ok ⟨⟩ s) :
    Withheld boot.reconciling s ↔ NoneDue boot store configuration boot.firstTick.now ∧
      NoneDue boot store configuration boot.secondTick.now := by
  obtain ⟨m₁, m₂, reloaded, first, second⟩ := handOver_ok ran
  have early := reloaded_early reloaded
  obtain ⟨undue, early⟩ := tick_early early first
  constructor
  · intro withheld
    obtain ⟨requests, queue, _⟩ := (tick_carried (advance_tick.mpr second)).sent
    have before : m₂.dispatcher.queue = [] := by
      have unsent := withheld.unsent
      rw [queue, List.append_eq_nil_iff] at unsent
      exact unsent.1
    have early := early before
    exact ⟨undue.mp before, (tick_early early second).1.mp withheld.unsent⟩
  · rintro ⟨none, none'⟩
    have early := early (undue.mpr none)
    obtain ⟨undue, early⟩ := tick_early early second
    exact early_withheld (early (undue.mpr none'))

/-- The lamp is to be lit, and is: nothing is due. -/
def litStore : Store :=
  (Sample.store ⟨true, some 3, none, 1, some "mail", some "post"⟩).writeOutputState "lamp"
    ⟨some true, some true, some 4⟩

/-- The same, but the daemon stopped before the lamp could be lit. -/
def unlitStore : Store :=
  (Sample.store ⟨true, some 3, none, 1, some "mail", some "post"⟩).writePendingPush "lamp"
    ⟨true, 2, 50, some "ConnectionError: refused"⟩

/-- The row left from the last run is due, and the lamp is lit before it is asked. -/
theorem row_pushed_early :
    ¬ ∀ (boot : Boot) (store : Store) (configuration : Configuration) (s : Engine),
      handOver boot configuration (assemble boot.constructed store configuration) = .ok ⟨⟩ s →
      Withheld boot.reconciling s := by
  intro withheld
  have ran := ok_of_returned (x := handOver sampleBoot sampleConfiguration)
    (s := assemble sampleBoot.constructed unlitStore sampleConfiguration) (by decide +kernel)
  have unsent := (withheld sampleBoot unlitStore sampleConfiguration _ ran).unsent
  revert unsent
  decide +kernel

theorem lit_lamp_unpushed : Withheld sampleBoot.reconciling
    (final (handOver sampleBoot sampleConfiguration)
      (assemble sampleBoot.constructed litStore sampleConfiguration)) := by
  have ran := ok_of_returned (x := handOver sampleBoot sampleConfiguration)
    (s := assemble sampleBoot.constructed litStore sampleConfiguration) (by decide +kernel)
  refine (withheld_iff sampleBoot litStore sampleConfiguration _ ran).mpr ?_
  have applied : ∀ o ∈ sampleBoot.plugins.outputs,
      waiting sampleBoot litStore sampleConfiguration o = none := by
    intro o live
    have lamp : o = "lamp" := List.mem_singleton.mp (AList.mem_keys.mp live)
    subst lamp
    decide +kernel
  have none : ∀ now, NoneDue sampleBoot litStore sampleConfiguration now := by
    intro now o live push row
    rw [applied o live] at row
    cases row
  exact ⟨none _, none _⟩

end Daemon

end NotiMapper
