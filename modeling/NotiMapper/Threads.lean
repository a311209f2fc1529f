import NotiMapper.Library.Transition
import NotiMapper.Engine

/-! The daemon's threads. Plugins and the push pool only ever hand messages to the core
through its queue, which is first in, first out. A pool thread's request, from the
moment it is dispatched until its answer is reported, is either on the pool's queue or
among the results at hand: several threads serve the pool, so requests may be performed
and results reported in any order. `outside` is the world the plugins act on, and what
the plugins remember of it. A `note` says what a message is about; nothing reads it. -/
namespace NotiMapper

open Python Effect

structure Threads (ν ρ : Type) where
  engine : Engine
  queue : List (CoreMessage × ν)
  results : List PushResultMessage
  outside : ρ

namespace Threads

variable {ν ρ : Type}

/-- `Engine.submit`. -/
def submit (message : CoreMessage) (note : ν) (s : Threads ν ρ) : Threads ν ρ :=
  { s with queue := s.queue ++ [(message, note)] }

def within (f : ρ → ρ) (s : Threads ν ρ) : Threads ν ρ := { s with outside := f s.outside }

/-- The core takes the message that has waited longest and handles it. -/
def receive (w : World) (s : Threads ν ρ) : Option (Threads ν ρ) :=
  match s.queue with
  | [] => none
  | (message, _) :: rest =>
    (Engine.advance s.engine (.handle w message)).map fun engine =>
      { s with engine := engine, queue := rest }

def tick (w : World) (s : Threads ν ρ) : Option (Threads ν ρ) :=
  (Engine.advance s.engine (.tick w)).map fun engine => { s with engine := engine }

/-- The plugin's `apply`, with what it does outside. An instance that is gone has none. -/
def call (apply : PushRequest → ρ → Except String Unit × ρ) (request : PushRequest)
    (s : Threads ν ρ) : Except String Unit × ρ :=
  if request.instanceName ∈ s.engine.dispatcher.outputs then apply request s.outside
  else (.ok (), s.outside)

/-- A pool thread performs one of the requests on the pool's queue. -/
def perform (apply : PushRequest → ρ → Except String Unit × ρ) (k : Nat) (s : Threads ν ρ) :
    Option (Threads ν ρ) :=
  s.engine.dispatcher.queue[k]?.map fun request =>
    { s with
      engine := { s.engine with dispatcher := s.engine.dispatcher.taken k }
      results := s.engine.dispatcher.perform request (s.call apply request).1 :: s.results
      outside := (s.call apply request).2 }

/-- `report_push_result`. -/
def report (note : ν) (k : Nat) (s : Threads ν ρ) : Option (Threads ν ρ) :=
  s.results[k]?.map fun result =>
    { s.submit (.pushResult result) note with results := s.results.eraseIdx k }

theorem receive_eq_some {w : World} {s t : Threads ν ρ} :
    s.receive w = some t ↔ ∃ message note rest engine, s.queue = (message, note) :: rest ∧
      Engine.advance s.engine (.handle w message) = some engine ∧
      t = { s with engine := engine, queue := rest } := by
  unfold receive
  cases s.queue with
  | nil => simp
  | cons first rest =>
    simp only [Option.map_eq_some_iff, List.cons.injEq]
    constructor
    · rintro ⟨engine, handled, rfl⟩
      exact ⟨_, _, rest, engine, ⟨rfl, rfl⟩, handled, rfl⟩
    · rintro ⟨message, note, _, engine, ⟨rfl, rfl⟩, handled, rfl⟩
      exact ⟨engine, handled, rfl⟩

theorem tick_eq_some {w : World} {s t : Threads ν ρ} :
    s.tick w = some t ↔ ∃ engine, Engine.advance s.engine (.tick w) = some engine ∧
      t = { s with engine := engine } := by
  unfold tick
  rw [Option.map_eq_some_iff]
  exact exists_congr fun _ => and_congr_right fun _ => eq_comm

theorem perform_eq_some {apply : PushRequest → ρ → Except String Unit × ρ} {k : Nat}
    {s t : Threads ν ρ} : s.perform apply k = some t ↔ ∃ request,
      s.engine.dispatcher.queue[k]? = some request ∧ t = { s with
        engine := { s.engine with dispatcher := s.engine.dispatcher.taken k }
        results := s.engine.dispatcher.perform request (s.call apply request).1 :: s.results
        outside := (s.call apply request).2 } := by
  unfold perform
  rw [Option.map_eq_some_iff]
  exact exists_congr fun _ => and_congr_right fun _ => eq_comm

theorem report_eq_some {note : ν} {k : Nat} {s t : Threads ν ρ} :
    s.report note k = some t ↔ ∃ result, s.results[k]? = some result ∧
      t = { s.submit (.pushResult result) note with results := s.results.eraseIdx k } := by
  unfold report
  rw [Option.map_eq_some_iff]
  exact exists_congr fun _ => and_congr_right fun _ => eq_comm

end Threads

end NotiMapper
