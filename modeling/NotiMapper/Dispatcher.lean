import NotiMapper.Rules

/-! The messages that travel on the core queue, and the outbound push pool. The
pool's threads take requests off its queue; each request is answered by one
`PushResultMessage`. -/
namespace NotiMapper

structure InputEventMessage where
  instanceName : Name
  event : ObservedEvent

structure UnlatchRequestMessage where
  instanceName : Name
  cause : String

structure PushResultMessage where
  instanceName : Name
  pushedValue : Bool
  succeeded : Bool
  error : Option String := none

structure ReconcileOutputMessage where
  instanceName : Name
  attempt : Nat
  deriving DecidableEq

structure CatchUpMessage where
  instanceName : Name
  attempt : Nat
  since : Option Time
  deriving DecidableEq

/-- `acknowledged` is the identity of the `threading.Event` the reload thread waits on. -/
structure ReloadMessage where
  configuration : Configuration
  plugins : Option PluginSet := none
  acknowledged : Nat

inductive CoreMessage
  | inputEvent (message : InputEventMessage)
  | unlatchRequest (message : UnlatchRequestMessage)
  | pushResult (message : PushResultMessage)
  | reload (message : ReloadMessage)
  | reconcileOutput (message : ReconcileOutputMessage)
  | catchUp (message : CatchUpMessage)
  | pollHealth
  | shutdown

/-- The messages the core schedules for itself: health polls and retries. -/
def CoreMessage.SelfScheduled : CoreMessage → Prop
  | .reconcileOutput _ | .catchUp _ | .pollHealth => True
  | _ => False

structure PushRequest where
  instanceName : Name
  update : OutputUpdate
  deriving DecidableEq

structure Dispatcher where
  outputs : Table PluginRef
  queue : List PushRequest

namespace Dispatcher

def empty : Dispatcher := ⟨∅, []⟩

def setOutputs (d : Dispatcher) (outputs : Table PluginRef) : Dispatcher :=
  { d with outputs := outputs }

def dispatch (d : Dispatcher) (instanceName : Name) (update : OutputUpdate) : Dispatcher :=
  { d with queue := d.queue ++ [⟨instanceName, update⟩] }

/-- A thread of the pool has taken the request at this place off the queue. -/
def taken (d : Dispatcher) (k : Nat) : Dispatcher := { d with queue := d.queue.eraseIdx k }

/-- `_perform`: `applied` is what the output's `apply` answers, if it is called. -/
def perform (d : Dispatcher) (request : PushRequest) (applied : Except String Unit) :
    PushResultMessage :=
  if request.instanceName ∉ d.outputs then
    { instanceName := request.instanceName
      pushedValue := request.update.state
      succeeded := false
      error := some "output instance is no longer configured" }
  else match applied with
  | .error error =>
    { instanceName := request.instanceName
      pushedValue := request.update.state
      succeeded := false
      error := some error }
  | .ok _ =>
    { instanceName := request.instanceName
      pushedValue := request.update.state
      succeeded := true }

@[simp] theorem perform_instanceName (d : Dispatcher) (request : PushRequest)
    (applied : Except String Unit) :
    (d.perform request applied).instanceName = request.instanceName := by
  unfold perform
  split
  · rfl
  · cases applied <;> rfl

@[simp] theorem perform_pushedValue (d : Dispatcher) (request : PushRequest)
    (applied : Except String Unit) :
    (d.perform request applied).pushedValue = request.update.state := by
  unfold perform
  split
  · rfl
  · cases applied <;> rfl

theorem perform_succeeded {d : Dispatcher} {request : PushRequest} (applied : Except String Unit)
    (listed : request.instanceName ∈ d.outputs) :
    (d.perform request applied).succeeded = applied.isOk := by
  unfold perform
  rw [if_neg (not_not.mpr listed)]
  cases applied <;> rfl

end Dispatcher

end NotiMapper
