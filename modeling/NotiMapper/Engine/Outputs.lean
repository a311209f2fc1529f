import NotiMapper.Library.Transition
import NotiMapper.Engine.Startup

/-! No output is left behind: from reconciliation on, a row is pending for every
output whose last applied value is not the desired one. And when a failed push is
forgotten: as soon as the desired value is the last applied one again. -/
namespace NotiMapper

open Python Effect Engine

namespace Engine

/-- The row that should be there is, and no row aims at anything but the desired value. -/
structure Aligned (s : Engine) (o : Name) : Prop where
  behind : o ∈ s.plugins.outputs → s.lastApplied o ≠ some (s.desired o) →
    (s.store.pendingPush o).isSome
  target : ∀ push, s.store.pendingPush o = some push → push.targetValue = s.desired o

def AllAligned (s : Engine) : Prop := ∀ o ∈ s.graph.outputNames, Aligned s o

/-- What synchronising an output gives, and what stays as long as the output is left as it
is or its row is only re-aimed. -/
structure Standing (P : Engine → Name → Prop) : Prop where
  synced : ∀ {s o}, Synced s o → P s o
  same : ∀ {s t o}, SameOutput s t o → t.plugins = s.plugins → P s o → P t o
  dispatched : ∀ {now s t o}, Dispatched now s t → P s o → P t o

namespace Standing

variable {P : Engine → Name → Prop} {s t : Engine}

theorem settled (standing : Standing P) (graph : t.graph = s.graph)
    (plugins : t.plugins = s.plugins) (settles : ∀ o, Settles o s t)
    (all : ∀ o ∈ s.graph.outputNames, P s o) : ∀ o ∈ t.graph.outputNames, P t o := by
  intro o member
  rcases settles o with same | synced
  · exact standing.same same plugins (all o (graph ▸ member))
  · exact standing.synced synced

theorem handled {w : World} {message : CoreMessage} (standing : Standing P)
    (ran : handle w message s = .ok ⟨⟩ t) (all : ∀ o ∈ s.graph.outputNames, P s o) :
    ∀ o ∈ t.graph.outputNames, P t o := by
  have settles := fun o => handle_settles w message o s ⟨⟩ t ran
  cases message with
  | reload reload => exact fun o member => standing.synced ((handleReload_settled ran).1 o member)
  | pushResult result =>
    have resulted := handlePushResult_resulted ran
    exact standing.settled resulted.graph resulted.plugins settles all
  | _ =>
    have moved := handle_moves (by simp) (by simp) ran
    exact standing.settled moved.graph moved.plugins settles all

theorem ticked {w : World} (standing : Standing P) (ran : tick w s = .ok ⟨⟩ t)
    (all : ∀ o ∈ s.graph.outputNames, P s o) : ∀ o ∈ t.graph.outputNames, P t o := by
  obtain ⟨m, fired, rfl⟩ := tick_ok ran
  have moved := fireDueTimers_moves fired
  have beat : ∀ o ∈ s.graph.outputNames, P { s with heartbeat := some w.now } o := by
    intro o member
    have same : SameOutput s { s with heartbeat := some w.now } o := ⟨rfl, rfl, rfl⟩
    exact standing.same same rfl (all o member)
  have fired := standing.settled moved.graph moved.plugins moved.outputs beat
  have sent := dispatchDuePushes_spec w.now m
  intro o member
  rw [maybeWriteLastSeen_only] at member
  have dispatched := standing.dispatched sent (fired o (sent.graph ▸ member))
  have same : SameOutput (dispatchDuePushes w.now m)
      (maybeWriteLastSeen w.now (dispatchDuePushes w.now m)) o := by
    rw [maybeWriteLastSeen_only]
    exact ⟨rfl, rfl, rfl⟩
  exact standing.same same (by rw [maybeWriteLastSeen_only]) dispatched

theorem advanced {step : Step} (standing : Standing P) (stepped : advance s step = some t)
    (all : ∀ o ∈ s.graph.outputNames, P s o) : ∀ o ∈ t.graph.outputNames, P t o := by
  cases step with
  | handle w message => exact standing.handled (advance_handle.mp stepped) all
  | tick w => exact standing.ticked (advance_tick.mp stepped) all

end Standing

/-- A row is there unless the output has its desired value, or no plugin. -/
def Covered (s : Engine) (o : Name) : Prop :=
  o ∈ s.plugins.outputs → s.lastApplied o ≠ some (s.desired o) → (s.store.pendingPush o).isSome

/-- Dispatching drops a row only for want of a plugin. -/
theorem covered_standing : Standing Covered where
  synced := fun synced _ => synced.behind.mpr
  same := by
    intro s t o same plugins covered
    rw [Covered, plugins, same.lastApplied, same.desired, same.pendingPush]
    exact covered
  dispatched := by
    intro now s t o sent covered live differs
    rw [sent.plugins] at live
    rw [sent.lastApplied, sent.desired] at differs
    have present := covered live differs
    rw [sent.pushes o]
    simp only [dispatchedPush, live, if_true]
    split
    · split
      · exact present
      · simpa using present
    · exact present

theorem aligned_standing : Standing Aligned where
  synced := fun synced => ⟨covered_standing.synced synced, synced.target⟩
  same := by
    intro s t o same plugins aligned
    refine ⟨covered_standing.same same plugins aligned.behind, ?_⟩
    rw [same.pendingPush, same.desired]
    exact aligned.target
  dispatched := by
    intro now s t o sent aligned
    refine ⟨covered_standing.dispatched sent aligned.behind, fun push stored => ?_⟩
    rw [sent.desired]
    rw [sent.pushes o] at stored
    simp only [dispatchedPush] at stored
    split at stored
    · split at stored
      · exact aligned.target push stored
      · split at stored
        · obtain ⟨old, _, rfl⟩ := Option.map_eq_some_iff.mp stored
          rfl
        · cases stored
    · exact aligned.target push stored

theorem reconcile_aligned {w : World} {s t : Engine} (ran : reconcile w s = .ok ⟨⟩ t) :
    AllAligned t := by
  have spec := reconcile_spec ran
  intro o member
  have row := spec.pushes o (spec.graph ▸ member)
  constructor
  · intro live _
    rw [row, if_pos (.inr (spec.plugins ▸ live))]
    rfl
  · intro push stored
    rw [row] at stored
    split at stored
    · rw [← Option.some.inj stored]
    · cases stored

/-- From what reconciliation leaves, through any messages and ticks, no output of the
graph that has a plugin is left behind; at rest each has been given its desired value. -/
theorem outputs_never_left_behind (w : World) (s₀ s t : Engine) (steps : List Step)
    (started : reconcile w s₀ = .ok ⟨⟩ s) (ran : Transition.run advance s steps = some t) :
    ∀ o ∈ t.graph.outputNames, Aligned t o ∧
      (o ∈ t.plugins.outputs → t.store.pendingPush o = none →
        t.lastApplied o = some (t.desired o)) := by
  intro o member
  have aligned : AllAligned t := Transition.invariant
    (fun _ _ _ aligned stepped => aligned_standing.advanced stepped aligned)
    (reconcile_aligned started) ran
  refine ⟨aligned o member, fun live none_pending => ?_⟩
  by_contra differs
  have present := (aligned o member).behind live differs
  rw [none_pending] at present
  cases present

theorem lamp_never_left_behind : ∃ t,
    Transition.run advance (Sample.started (Sample.store .fresh))
      [Sample.post 6, .tick (Sample.quiet 7)] = some t ∧
    ∀ o ∈ t.graph.outputNames, Aligned t o ∧
      (o ∈ t.plugins.outputs → t.store.pendingPush o = none →
        t.lastApplied o = some (t.desired o)) := by
  have started := ok_of_returned (x := reconcile (Sample.quiet 5))
    (s := Sample.engine (Sample.store .fresh)) (by decide +kernel)
  have ran : Transition.run advance (Sample.started (Sample.store .fresh))
      [Sample.post 6, .tick (Sample.quiet 7)] = _ := (Option.some_get (by decide +kernel)).symm
  exact ⟨_, ran, outputs_never_left_behind _ _ _ _ _ started ran⟩

/- Failed pushes. -/

namespace Step

def Confirms (o : Name) : Step → Prop
  | .handle _ (.pushResult message) => message.instanceName = o ∧ message.succeeded = true
  | _ => False

def Reloads : Step → Prop
  | .handle _ (.reload _) => True
  | _ => False

end Step

theorem Synced.dispatched {now : Time} {s t : Engine} {o : Name} (synced : Synced s o)
    (live : o ∈ s.plugins.outputs) (sent : Dispatched now s t) : Synced t o := by
  have row := sent.pushes o
  simp only [dispatchedPush, live, if_true] at row
  constructor
  · rw [sent.lastApplied, sent.desired, ← synced.behind, row]
    split
    · split
      · rfl
      · simp
    · rfl
  · intro push stored
    rw [sent.desired]
    rw [row] at stored
    split at stored
    · split at stored
      · exact synced.target push stored
      · obtain ⟨old, _, rfl⟩ := Option.map_eq_some_iff.mp stored
        rfl
    · exact synced.target push stored

/-- What a failed push leaves of an output, until the next success: a plugin, a row
while it is needed, and the last applied value of before. -/
structure Awaiting (o : Name) (applied : Option Bool) (s : Engine) : Prop where
  live : o ∈ s.plugins.outputs
  synced : Synced s o
  lastApplied : s.lastApplied o = applied

theorem Moves.awaiting {f : Rule → LatchRecord → LatchRecord} {s t : Engine} {o : Name}
    {applied : Option Bool} (moved : Moves f s t) (awaiting : Awaiting o applied s) :
    Awaiting o applied t where
  live := moved.plugins ▸ awaiting.live
  synced := (moved.outputs o).synced awaiting.synced
  lastApplied := by
    rw [← awaiting.lastApplied]
    simp only [Engine.lastApplied, Store.outputStateOf, moved.outputState]

theorem Awaiting.handled {w : World} {message : CoreMessage} {s t : Engine} {o : Name}
    {applied : Option Bool} (fixed : ¬ (Step.handle w message).Reloads)
    (unconfirmed : ¬ (Step.handle w message).Confirms o) (awaiting : Awaiting o applied s)
    (ran : handle w message s = .ok ⟨⟩ t) : Awaiting o applied t := by
  cases message with
  | reload reload => exact absurd trivial fixed
  | pushResult result =>
    have resulted := handlePushResult_resulted ran
    refine ⟨resulted.plugins ▸ awaiting.live, (resulted.settles o).synced awaiting.synced, ?_⟩
    rw [resulted.lastApplied, if_neg, awaiting.lastApplied]
    rintro ⟨succeeded, rfl⟩
    exact unconfirmed ⟨rfl, succeeded⟩
  | _ => exact (handle_moves (by simp) (by simp) ran).awaiting awaiting

theorem Awaiting.ticked {w : World} {s t : Engine} {o : Name} {applied : Option Bool}
    (awaiting : Awaiting o applied s) (ran : tick w s = .ok ⟨⟩ t) : Awaiting o applied t := by
  obtain ⟨m, fired, rfl⟩ := tick_ok ran
  have beat : Awaiting o applied { s with heartbeat := some w.now } :=
    ⟨awaiting.live, ⟨awaiting.synced.behind, awaiting.synced.target⟩, awaiting.lastApplied⟩
  have fired := (fireDueTimers_moves fired).awaiting beat
  have sent := dispatchDuePushes_spec w.now m
  have synced := fired.synced.dispatched fired.live sent
  rw [maybeWriteLastSeen_only]
  exact ⟨sent.plugins ▸ fired.live, ⟨synced.behind, synced.target⟩,
    (sent.lastApplied o).trans fired.lastApplied⟩

theorem Awaiting.advanced {s t : Engine} {step : Step} {o : Name} {applied : Option Bool}
    (awaiting : Awaiting o applied s) (quiet : ¬ step.Reloads ∧ ¬ step.Confirms o)
    (stepped : advance s step = some t) : Awaiting o applied t := by
  cases step with
  | handle w message => exact awaiting.handled quiet.1 quiet.2 (advance_handle.mp stepped)
  | tick w => exact awaiting.ticked (advance_tick.mp stepped)

theorem failed_awaiting {w : World} {message : PushResultMessage} {s t : Engine}
    (live : message.instanceName ∈ s.plugins.outputs) (failed : message.succeeded = false)
    (ran : handle w (.pushResult message) s = .ok ⟨⟩ t) :
    Awaiting message.instanceName (s.lastApplied message.instanceName) t := by
  have resulted := handlePushResult_resulted ran
  refine ⟨resulted.plugins ▸ live, resulted.synced, ?_⟩
  rw [resulted.lastApplied, failed]
  simp

/-- The steps of a run up to which no push to the output has succeeded again. -/
def Unresolved (o : Name) (steps : List Step) : Prop :=
  ∀ step ∈ steps, ¬ step.Reloads ∧ ¬ step.Confirms o

/-- After a failure, and until a success, the row is there at every boundary. -/
def AlwaysRetried (o : Name) (s : Engine) (steps : List Step) : Prop :=
  ∀ taken rest t, steps = taken ++ rest → Unresolved o taken →
    Transition.run advance s taken = some t → (t.store.pendingPush o).isSome

/-- A failed push keeps its row exactly as long as the desired value stays away from the
value that was last applied before the failure. -/
theorem failed_push_retried_iff (w : World) (message : PushResultMessage) (s t : Engine)
    (steps : List Step) (live : message.instanceName ∈ s.plugins.outputs)
    (failed : message.succeeded = false) (handled : handle w (.pushResult message) s = .ok ⟨⟩ t) :
    AlwaysRetried message.instanceName t steps ↔
      ∀ taken rest u, steps = taken ++ rest → Unresolved message.instanceName taken →
        Transition.run advance t taken = some u →
          s.lastApplied message.instanceName ≠ some (u.desired message.instanceName) := by
  have start := failed_awaiting live failed handled
  have boundary : ∀ taken u, Unresolved message.instanceName taken →
      Transition.run advance t taken = some u →
      ((u.store.pendingPush message.instanceName).isSome ↔
        s.lastApplied message.instanceName ≠ some (u.desired message.instanceName)) := by
    intro taken u unresolved ran
    have awaiting := Transition.guarded_invariant
      (C := fun _ step => ¬ step.Reloads ∧ ¬ step.Confirms message.instanceName)
      (fun _ _ _ awaiting quiet stepped => Awaiting.advanced awaiting quiet stepped) start
      (Transition.throughout_of_forall fun step taken _ => unresolved step taken) ran
    rw [awaiting.synced.behind, awaiting.lastApplied]
  constructor
  · exact fun retried taken rest u split unresolved ran =>
      (boundary taken u unresolved ran).mp (retried taken rest u split unresolved ran)
  · exact fun apart taken rest u split unresolved ran =>
      (boundary taken u unresolved ran).mpr (apart taken rest u split unresolved ran)

def lampOff : Engine :=
  Sample.started ((Sample.store .fresh).writeOutputState "lamp" ⟨some false, some false, some 1⟩)

def lampFailure : PushResultMessage := ⟨"lamp", false, false, some "ConnectionError: refused"⟩

theorem forced_push_forgotten :
    ¬ ∀ (w : World) (message : PushResultMessage) (s t : Engine) (steps : List Step),
      message.instanceName ∈ s.plugins.outputs → message.succeeded = false →
      handle w (.pushResult message) s = .ok ⟨⟩ t →
      AlwaysRetried message.instanceName t steps := by
  intro retried
  have handled := ok_of_returned (x := handle (Sample.quiet 6) (.pushResult lampFailure))
    (s := lampOff) (by decide +kernel)
  have present := retried _ _ _ _ [] (by decide) (by decide) handled [] [] _ rfl
    (by simp [Unresolved]) rfl
  revert present
  decide +kernel

theorem first_push_retried :
    AlwaysRetried "lamp"
      (final (handle (Sample.quiet 6) (.pushResult lampFailure))
        (Sample.started (Sample.store .fresh))) [] := by
  have handled := ok_of_returned (x := handle (Sample.quiet 6) (.pushResult lampFailure))
    (s := Sample.started (Sample.store .fresh)) (by decide +kernel)
  refine (failed_push_retried_iff (Sample.quiet 6) lampFailure _ _ [] (by decide +kernel)
    (by decide) handled).mpr ?_
  intro taken rest u _ _ _
  have unpushed : (Sample.started (Sample.store .fresh)).lastApplied "lamp" = none := by
    decide +kernel
  simp [lampFailure, unpushed]

end Engine

end NotiMapper
