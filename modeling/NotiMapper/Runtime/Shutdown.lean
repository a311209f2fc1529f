import NotiMapper.Library.Transition
import NotiMapper.Instances

/-! Shutting down. `stop` and the signal handler share one flag: it says that a shutdown
was requested, and that `stop` has already run. A stop that finds it raised by a signal
returns at once, so everything is shut down exactly if the first `stop` tests the flag
before any signal is delivered. -/
namespace NotiMapper

namespace Daemon

/-- What the shutdown of the parts has done so far. -/
structure Closed where
  stopped : List (Name × PluginDirection) := []
  stoppingSent : Nat := 0
  dispatcherRunning : Bool := true
  databaseClosed : Bool := false
  deriving DecidableEq

/-- The statements of `stop`, after its test of the flag. -/
inductive StopAction
  | raiseFlag
  | notifyStopping
  | wakeReload
  | requestStop
  | stopPlugin (name : Name) (direction : PluginDirection)
  | clearLive
  | stopDispatcher
  | closeDatabase

/-- A daemon that has started. `rest` is what the `stop` in progress has still to do. -/
structure Running where
  live : Table LiveInstance
  shuttingDown : Bool
  reloadRequested : Bool
  stopRequests : Nat
  closed : Closed
  rest : List StopAction

def Running.started (live : Table LiveInstance) : Running := ⟨live, false, false, 0, {}, []⟩

/-- The calls `_stop_instances` makes, in order; one that raises is logged, and no more. -/
def stopCalls (live : Table LiveInstance) : List (Name × PluginDirection) :=
  live.entries.flatMap fun entry =>
    (entry.2.inputPlugin.toList.map fun _ => (entry.1, .input)) ++
      entry.2.outputPlugin.toList.map fun _ => (entry.1, .output)

def stopBody (live : Table LiveInstance) : List StopAction :=
  [.raiseFlag, .notifyStopping, .wakeReload, .requestStop] ++
    (stopCalls live).map (fun call => .stopPlugin call.1 call.2) ++
    [.clearLive, .stopDispatcher, .closeDatabase]

def Closed.perform (closed : Closed) : StopAction → Closed
  | .notifyStopping => { closed with stoppingSent := closed.stoppingSent + 1 }
  | .stopPlugin name direction => { closed with stopped := closed.stopped ++ [(name, direction)] }
  | .stopDispatcher => { closed with dispatcherRunning := false }
  | .closeDatabase => { closed with databaseClosed := true }
  | .raiseFlag | .wakeReload | .requestStop | .clearLive => closed

def Running.perform (s : Running) (action : StopAction) : Running :=
  let s := { s with closed := s.closed.perform action }
  match action with
  | .raiseFlag => { s with shuttingDown := true }
  | .wakeReload => { s with reloadRequested := true }
  | .requestStop => { s with stopRequests := s.stopRequests + 1 }
  | .clearLive => { s with live := ∅ }
  | _ => s

/-- The main thread delivers SIGTERM or SIGINT, calls `stop`, or goes on with it. -/
inductive Beat
  | terminate
  | call
  | next

def Running.advance (s : Running) : Beat → Option Running
  | .terminate => some { s with
      shuttingDown := true, reloadRequested := true, stopRequests := s.stopRequests + 1 }
  | .call =>
    if s.rest.isEmpty then
      some (if s.shuttingDown then s else { s with rest := stopBody s.live })
    else none
  | .next =>
    match s.rest with
    | [] => none
    | action :: rest => some ({ s with rest := rest }.perform action)

/-- What a shutdown owes: every plugin object of a live instance stopped exactly once, the
dispatcher stopped, STOPPING sent once, and the engine asked to stop. -/
structure ShutDown (live : Table LiveInstance) (s : Running) : Prop where
  inputs : ∀ name plugin, live.lookup name = some plugin → plugin.inputPlugin.isSome →
    s.closed.stopped.count (name, .input) = 1
  outputs : ∀ name plugin, live.lookup name = some plugin → plugin.outputPlugin.isSome →
    s.closed.stopped.count (name, .output) = 1
  dispatcher : s.closed.dispatcherRunning = false
  notified : s.closed.stoppingSent = 1
  asked : 0 < s.stopRequests

/-- The first `stop` tests the flag before any signal is delivered. -/
def StopFirst : List Beat → Prop
  | .call :: _ => True
  | _ => False

theorem mem_stopCalls {live : Table LiveInstance} {name : Name} {plugin : LiveInstance}
    (found : live.lookup name = some plugin) :
    (plugin.inputPlugin.isSome → (name, .input) ∈ stopCalls live) ∧
    (plugin.outputPlugin.isSome → (name, .output) ∈ stopCalls live) := by
  have listed : (⟨name, plugin⟩ : Sigma fun _ : Name => LiveInstance) ∈ live.entries :=
    AList.mem_lookup_iff.mp found
  refine ⟨fun input => ?_, fun output => ?_⟩
  · obtain ⟨ref, has⟩ := Option.isSome_iff_exists.mp input
    exact List.mem_flatMap.mpr ⟨_, listed, by simp [has]⟩
  · obtain ⟨ref, has⟩ := Option.isSome_iff_exists.mp output
    exact List.mem_flatMap.mpr ⟨_, listed, by simp [has]⟩

theorem stopCalls_nodup (live : Table LiveInstance) : (stopCalls live).Nodup := by
  have keys : live.entries.Pairwise fun a b => a.1 ≠ b.1 := List.pairwise_map.mp live.nodupKeys
  apply List.nodup_flatMap.mpr
  constructor
  · intro entry _
    cases entry.2.inputPlugin <;> cases entry.2.outputPlugin <;> simp
  · refine keys.imp fun {a b} differ call first second => differ ?_
    have one : ∀ entry : Sigma fun _ : Name => LiveInstance,
        call ∈ (entry.2.inputPlugin.toList.map fun _ => (entry.1, PluginDirection.input)) ++
          (entry.2.outputPlugin.toList.map fun _ => (entry.1, PluginDirection.output)) →
        call.1 = entry.1 := by
      intro entry member
      simp only [List.mem_append, List.mem_map] at member
      rcases member with ⟨_, _, rfl⟩ | ⟨_, _, rfl⟩ <;> rfl
    exact (one a first).symm.trans (one b second)

theorem perform_stopPlugins (calls : List (Name × PluginDirection)) (closed : Closed) :
    (calls.map fun call => StopAction.stopPlugin call.1 call.2).foldl Closed.perform closed =
      { closed with stopped := closed.stopped ++ calls } := by
  induction calls generalizing closed with
  | nil => simp
  | cons call calls ih => simp [ih, Closed.perform]

theorem perform_stopBody (live : Table LiveInstance) :
    (stopBody live).foldl Closed.perform {} = ⟨stopCalls live, 1, false, true⟩ := by
  simp only [stopBody, List.foldl_append, List.foldl_cons, List.foldl_nil, perform_stopPlugins,
    Closed.perform, List.nil_append]

/-- The first `stop` is under way or done: what it has left to do completes it, whatever
signals come in between, and no later call finds the flag down. -/
structure Underway (live : Table LiveInstance) (s : Running) : Prop where
  completes : s.rest.foldl Closed.perform s.closed = (stopBody live).foldl Closed.perform {}
  flagged : s.shuttingDown = true ∨ .raiseFlag ∈ s.rest
  asked : 0 < s.stopRequests ∨ .requestStop ∈ s.rest

theorem Underway.advanced {live : Table LiveInstance} {s t : Running} {beat : Beat}
    (underway : Underway live s) (stepped : s.advance beat = some t) : Underway live t := by
  cases beat with
  | terminate =>
    cases stepped
    exact ⟨underway.completes, .inl rfl, .inl (Nat.succ_pos _)⟩
  | call =>
    simp only [Running.advance] at stepped
    split at stepped
    · rename_i idle
      have none : s.rest = [] := List.isEmpty_iff.mp idle
      have flagged : s.shuttingDown = true := underway.flagged.resolve_right (by simp [none])
      simp only [flagged, if_true, Option.some.injEq] at stepped
      exact stepped ▸ underway
    · cases stepped
  | next =>
    obtain ⟨completes, flagged, asked⟩ := underway
    simp only [Running.advance] at stepped
    cases remaining : s.rest with
    | nil => simp [remaining] at stepped
    | cons action rest =>
      rw [remaining] at stepped completes flagged asked
      simp only [Option.some.injEq] at stepped
      subst stepped
      simp only [List.mem_cons] at flagged asked
      cases action with
      | raiseFlag => exact ⟨completes, .inl rfl, by simpa [Running.perform] using asked⟩
      | requestStop => exact ⟨completes, by simpa [Running.perform] using flagged, .inl (Nat.succ_pos _)⟩
      | _ => exact ⟨completes, by simpa [Running.perform] using flagged, by simpa [Running.perform] using asked⟩

theorem Underway.shutDown {live : Table LiveInstance} {s : Running} (underway : Underway live s)
    (returned : s.rest = []) : ShutDown live s := by
  have done := underway.completes
  rw [returned, perform_stopBody] at done
  simp only [List.foldl_nil] at done
  have once := stopCalls_nodup live
  constructor
  · intro name plugin found input
    rw [done]
    exact List.count_eq_one_of_mem once ((mem_stopCalls found).1 input)
  · intro name plugin found output
    rw [done]
    exact List.count_eq_one_of_mem once ((mem_stopCalls found).2 output)
  · rw [done]
  · rw [done]
  · exact underway.asked.resolve_right (by simp [returned])

/-- Once a signal has raised the flag before any `stop`, none will do anything. -/
structure Disarmed (s : Running) : Prop where
  flagged : s.shuttingDown = true
  idle : s.rest = []
  unsent : s.closed.stoppingSent = 0

theorem Disarmed.advanced {s t : Running} {beat : Beat} (disarmed : Disarmed s)
    (stepped : s.advance beat = some t) : Disarmed t := by
  cases beat with
  | terminate =>
    cases stepped
    exact ⟨rfl, disarmed.idle, disarmed.unsent⟩
  | call =>
    simp only [Running.advance, disarmed.idle, disarmed.flagged, List.isEmpty_nil, if_true,
      Option.some.injEq] at stepped
    exact stepped ▸ disarmed
  | next => simp [Running.advance, disarmed.idle] at stepped

/-- However many signals and stops there are, in whatever order: when the last `stop` has
returned, everything is shut down once if and only if the first of them was a `stop`. -/
theorem shutdown_once_iff (live : Table LiveInstance) (beats : List Beat) (t : Running)
    (ran : Transition.run Running.advance (Running.started live) beats = some t)
    (called : .call ∈ beats) (returned : t.rest = []) : ShutDown live t ↔ StopFirst beats := by
  cases beats with
  | nil => cases called
  | cons first beats =>
    obtain ⟨m, stepped, rest⟩ := Transition.run_cons.mp ran
    cases first with
    | terminate =>
      cases stepped
      have disarmed : Disarmed t := Transition.invariant
        (fun _ _ _ disarmed stepped => Disarmed.advanced disarmed stepped) ⟨rfl, rfl, rfl⟩ rest
      have lost : ¬ ShutDown live t := by
        intro done
        have sent := done.notified
        rw [disarmed.unsent] at sent
        cases sent
      exact iff_of_false lost id
    | call =>
      cases stepped
      have underway : Underway live t := Transition.invariant
        (fun _ _ _ underway stepped => Underway.advanced underway stepped)
        ⟨rfl, .inr (by simp [Running.started, stopBody]), .inr (by simp [Running.started, stopBody])⟩
        rest
      exact iff_of_true (underway.shutDown returned) trivial
    | next => cases stepped

end Daemon

namespace Sample

def live : Table LiveInstance :=
  (AList.singleton "lamp" ⟨"pagerduty-output", "{}", none, some 1⟩).insert "mail"
    ⟨"file-input", "{}", some 0, none⟩

end Sample

/-- SIGTERM, the loop ends, and `run` calls `stop`: nothing is stopped. -/
theorem terminated_unstopped :
    ¬ ∀ (live : Table LiveInstance) (beats : List Daemon.Beat) (t : Daemon.Running),
      Transition.run Daemon.Running.advance (.started live) beats = some t →
      .call ∈ beats → t.rest = [] → Daemon.ShutDown live t := by
  intro always
  have sent := (always Sample.live [.terminate, .call] _ rfl (by simp) rfl).notified
  revert sent
  decide +kernel

/-- The loop ends by itself, and a signal comes while `stop` is at work. -/
theorem stopped_then_terminated : ∃ t, Transition.run Daemon.Running.advance
    (.started Sample.live) ([.call, .next, .terminate] ++ List.replicate 8 .next ++ [.call]) =
      some t ∧ Daemon.ShutDown Sample.live t := by
  have ran : Transition.run Daemon.Running.advance (.started Sample.live)
      ([.call, .next, .terminate] ++ List.replicate 8 .next ++ [.call]) = _ :=
    (Option.some_get (by decide +kernel)).symm
  exact ⟨_, ran, (Daemon.shutdown_once_iff _ _ _ ran (by simp)
    (List.isEmpty_iff.mp (by decide +kernel))).mpr trivial⟩

end NotiMapper
