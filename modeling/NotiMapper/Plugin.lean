import NotiMapper.Storage

/-! What crosses the plugin boundary. The plugins themselves are outside the core:
a `World` holds the clock reading and the plugins' answers during one step of it. -/
namespace NotiMapper

/-- An edge: something happened at a point in time. The core reads the metadata
only through its one-line rendering, which is the field `summary`. -/
structure ObservedEvent where
  occurredAt : Time
  summary : String
  deriving DecidableEq, Repr

inductive RemoteBelief
  | active
  | cleared
  | unknown
  deriving DecidableEq, Repr

/-- An output's report of what its remote end believes. -/
structure RemoteState where
  belief : RemoteBelief
  clearedAt : Option Time := none
  deriving DecidableEq, Repr

/-- What an output is being asked to render. -/
structure OutputUpdate where
  state : Bool
  cause : String := ""
  detail : String := ""
  triggerCount : Nat := 0
  rules : List Name := []
  since : Option Time := none
  deriving DecidableEq, Repr

structure PluginHealth where
  status : HealthStatus
  detail : String := ""
  deriving DecidableEq, Repr

/-- The identity of a constructed plugin object. -/
abbrev PluginRef := Nat

/-- The two kinds of plugin object an instance can have. -/
inductive PluginDirection
  | input
  | output
  deriving DecidableEq, Repr

/-- The live plugin instances, by name. -/
structure PluginSet where
  inputs : Table PluginRef
  outputs : Table PluginRef

def PluginSet.empty : PluginSet := ⟨∅, ∅⟩

/-- The clock and the answers of the plugin methods the core thread calls during
one step. An `error` is an exception, carrying its rendered type and message. -/
structure World where
  now : Time
  catchUp : Name → Option Time → Except String (List ObservedEvent)
  query : Name → Except String RemoteState
  health : PluginDirection → Name → Except String PluginHealth

/-- A world in which no plugin can be reached. -/
def World.unreachable (now : Time) : World where
  now := now
  catchUp := fun _ _ => .error "PluginError: unreachable"
  query := fun _ => .ok ⟨.unknown, none⟩
  health := fun _ _ => .ok ⟨.ok, ""⟩

end NotiMapper
