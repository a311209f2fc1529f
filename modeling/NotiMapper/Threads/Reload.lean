import NotiMapper.Instances
import NotiMapper.Runtime
import NotiMapper.Threads.Pushes

/-! The daemon with its reload thread. `_reload` mirrors the configuration, refreshes the
latch cache in two actions, builds the instances, hands them to the core by a message and
waits for it to be acknowledged; between any two of these the core may take a step. The
objects that are replaced are told apart by their identities. -/
namespace NotiMapper

open Python Effect Engine

/-- How far `_reload` has come, and what it holds on to. -/
inductive Reloading
  | idle
  | mirrored (configuration : Configuration)
  | read (configuration : Configuration) (rows : Table LatchRecord)
  | refreshed (configuration : Configuration)
  | submitted (rebuilt : Table LiveInstance) (acknowledged : Nat)

instance (reloading : Reloading) : Decidable (reloading = .idle) :=
  match reloading with
  | .idle => isTrue rfl
  | .mirrored _ | .read _ _ | .refreshed _ | .submitted _ _ => isFalse nofun

/-- The configuration that the reload thread has mirrored and not yet submitted. -/
def Reloading.configuration : Reloading → Option Configuration
  | .mirrored configuration | .read configuration _ | .refreshed configuration =>
    some configuration
  | .idle | .submitted _ _ => none

def Reloading.rows : Reloading → Option (Table LatchRecord)
  | .read _ rows => some rows
  | _ => none

/-- What there is beside the core: the reload thread, the live instances, the next free
identities, and what each output object has last been told under its name. -/
structure Surroundings where
  reloading : Reloading
  live : Table LiveInstance
  nextPlugin : PluginRef
  nextAcknowledged : Nat
  shown : Name × PluginRef → Option Bool

abbrev Service := Threads Unit Surroundings

namespace Service

/-- An action of the reload thread. A configuration that cannot be loaded is rejected;
the plugins that are found, and what their constructors answer, are the workshop's. -/
inductive ReloadAction
  | reject
  | mirror (configuration : Configuration)
  | read
  | assign
  | build (shop : Workshop)
  | adopt
  | giveUp

inductive Step
  | receive (w : World)
  | tick (w : World)
  | emit (message : InputEventMessage)
  | requestUnlatch (message : UnlatchRequestMessage)
  | requestStop
  | perform (k : Nat) (applied : Except String Unit)
  | report (k : Nat)
  | reload (action : ReloadAction)

def enter (reloading : Reloading) (s : Service) : Service :=
  s.within fun outside => { outside with reloading := reloading }

/-- The instances are built, those that are unchanged are kept, and the message is submitted. -/
def build (shop : Workshop) (configuration : Configuration) (s : Service) : Service :=
  match shop.buildInstances s.outside.nextPlugin configuration with
  | .error _ => s.enter .idle
  | .ok (built, next) =>
    let rebuilt := retain s.outside.live configuration built
    let acknowledged := s.outside.nextAcknowledged
    { s.submit (.reload ⟨configuration, some (pluginSet rebuilt), acknowledged⟩) () with
      outside := { s.outside with
        reloading := .submitted rebuilt acknowledged
        nextPlugin := next
        nextAcknowledged := acknowledged + 1 } }

def reload (s : Service) (action : ReloadAction) : Option Service :=
  match s.outside.reloading, action with
  | .idle, .reject => some s
  | .idle, .mirror configuration => some
    { s.enter (.mirrored configuration) with
      engine := s.engine.onStore (Daemon.mirrorConfiguration · configuration) }
  | .mirrored configuration, .read => some
    (s.enter (.read configuration s.engine.store.latches))
  | .read configuration rows, .assign => some
    { s.enter (.refreshed configuration) with engine := { s.engine with latches := rows } }
  | .refreshed configuration, .build shop => some (s.build shop configuration)
  | .submitted rebuilt acknowledged, .adopt =>
    if acknowledged ∈ s.engine.acknowledged then
      some (s.within fun outside => { outside with reloading := .idle, live := rebuilt })
    else none
  | .submitted _ acknowledged, .giveUp =>
    if acknowledged ∈ s.engine.acknowledged then none else some (s.enter .idle)
  | _, _ => none

/-- The `apply` of the object that the pool has for the output. -/
def apply (outputs : Table PluginRef) (applied : Except String Unit) (request : PushRequest)
    (outside : Surroundings) : Except String Unit × Surroundings :=
  match applied, outputs.lookup request.instanceName with
  | .ok _, some plugin => (applied, { outside with
      shown := Function.update outside.shown (request.instanceName, plugin)
        (some request.update.state) })
  | _, _ => (applied, outside)

def advance (s : Service) : Step → Option Service
  | .receive w => s.receive w
  | .tick w => s.tick w
  | .emit message => some (s.submit (.inputEvent message) ())
  | .requestUnlatch message => some (s.submit (.unlatchRequest message) ())
  | .requestStop => some (s.submit .shutdown ())
  | .perform k applied => s.perform (apply s.engine.dispatcher.outputs applied) k
  | .report k => s.report () k
  | .reload action => s.reload action

/-- What a step has the core handle. -/
def heard (s : Service) : Step → List (World × CoreMessage)
  | .receive w => s.queue.head?.toList.map fun entry => (w, entry.1)
  | .tick w => (Engine.Step.tick w).messages s.engine
  | _ => []

/-- What `start` leaves: the pool and the threads are about to run. -/
structure Launched (boot : Daemon.Boot) (store : Store) (configuration : Configuration)
    (s : Service) : Prop where
  started : Daemon.start boot configuration (Daemon.assemble boot.constructed store configuration) =
    .ok ⟨⟩ s.engine
  queue : s.queue = []
  results : s.results = []
  idle : s.outside.reloading = .idle
  live : boot.plugins = pluginSet s.outside.live
  built : ∃ shop : Workshop,
    shop.buildInstances 0 configuration = .ok (s.outside.live, s.outside.nextPlugin)
  acknowledged : s.outside.nextAcknowledged = 1

/-- The actions of the reload thread, each with the point it is taken at and what it does. -/
inductive Took (s : Service) : ReloadAction → Service → Prop
  | rejected (idle : s.outside.reloading = .idle) : Took s .reject s
  | mirrored {configuration : Configuration} (idle : s.outside.reloading = .idle) :
    Took s (.mirror configuration) { s.enter (.mirrored configuration) with
      engine := s.engine.onStore (Daemon.mirrorConfiguration · configuration) }
  | read {configuration : Configuration} (held : s.outside.reloading = .mirrored configuration) :
    Took s .read (s.enter (.read configuration s.engine.store.latches))
  | assigned {configuration : Configuration} {rows : Table LatchRecord}
    (held : s.outside.reloading = .read configuration rows) :
    Took s .assign
      { s.enter (.refreshed configuration) with engine := { s.engine with latches := rows } }
  | unbuilt {configuration : Configuration} {shop : Workshop} {failure : String}
    (held : s.outside.reloading = .refreshed configuration)
    (failed : shop.buildInstances s.outside.nextPlugin configuration = .error failure) :
    Took s (.build shop) (s.enter .idle)
  | submitted {configuration : Configuration} {shop : Workshop} {built : Table LiveInstance}
    {next : PluginRef} (held : s.outside.reloading = .refreshed configuration)
    (made : shop.buildInstances s.outside.nextPlugin configuration = .ok (built, next)) :
    Took s (.build shop)
      { s.submit (.reload ⟨configuration, some (pluginSet (retain s.outside.live configuration built)),
          s.outside.nextAcknowledged⟩) () with
        outside := { s.outside with
          reloading := .submitted (retain s.outside.live configuration built)
            s.outside.nextAcknowledged
          nextPlugin := next
          nextAcknowledged := s.outside.nextAcknowledged + 1 } }
  | adopted {rebuilt : Table LiveInstance} {acknowledged : Nat}
    (held : s.outside.reloading = .submitted rebuilt acknowledged)
    (answered : acknowledged ∈ s.engine.acknowledged) :
    Took s .adopt (s.within fun outside => { outside with reloading := .idle, live := rebuilt })
  | gaveUp {rebuilt : Table LiveInstance} {acknowledged : Nat}
    (held : s.outside.reloading = .submitted rebuilt acknowledged)
    (unanswered : acknowledged ∉ s.engine.acknowledged) : Took s .giveUp (s.enter .idle)

theorem reload_took {s t : Service} {action : ReloadAction} (stepped : s.reload action = some t) :
    Took s action t := by
  unfold reload at stepped
  split at stepped
  · rename_i held
    cases stepped
    exact .rejected held
  · rename_i held
    cases stepped
    exact .mirrored held
  · rename_i held
    cases stepped
    exact .read held
  · rename_i held
    cases stepped
    exact .assigned held
  · rename_i held
    cases stepped
    unfold build
    split
    · rename_i failed
      exact .unbuilt held failed
    · rename_i made
      exact .submitted held made
  · rename_i held
    split at stepped
    · rename_i answered
      cases stepped
      exact .adopted held answered
    · cases stepped
  · rename_i held
    split at stepped
    · cases stepped
    · rename_i unanswered
      cases stepped
      exact .gaveUp held unanswered
  · cases stepped

/- The daemon of the sample configuration, just started. -/

namespace Sample

def shop : Workshop where
  plugins := (AList.singleton "file-input" ⟨true, false⟩).insert "pagerduty-output" ⟨false, true⟩
  construct := fun _ _ => .ok ()

def built : Table LiveInstance × PluginRef :=
  (shop.buildInstances 0 Daemon.sampleConfiguration).toOption.get (by decide +kernel)

def boot : Daemon.Boot := { Daemon.sampleBoot with plugins := pluginSet built.1 }

def launched : Service where
  engine := final (Daemon.start boot Daemon.sampleConfiguration)
    (Daemon.assemble boot.constructed .empty Daemon.sampleConfiguration)
  queue := []
  results := []
  outside :=
    { reloading := .idle, live := built.1, nextPlugin := built.2, nextAcknowledged := 1
      shown := fun _ => none }

theorem launched_launched : Launched boot .empty Daemon.sampleConfiguration launched where
  started := ok_of_returned (by decide +kernel)
  queue := rfl
  results := rfl
  idle := rfl
  live := rfl
  built := ⟨shop, except_ok (by decide +kernel)⟩
  acknowledged := rfl

def letter (now : Time) : List Step := [.emit ⟨"mail", ⟨now, "post"⟩⟩, .receive (Sample.quiet now)]

end Sample

theorem call_shown (s : Service) (outputs : Table PluginRef) (applied : Except String Unit)
    (request : PushRequest) : (s.call (apply outputs applied) request).2 =
      { s.outside with shown := (s.call (apply outputs applied) request).2.shown } := by
  unfold Threads.call apply
  split
  · split <;> rfl
  · rfl

end Service

end NotiMapper
