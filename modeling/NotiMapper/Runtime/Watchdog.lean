import NotiMapper.Engine.Framing
import NotiMapper.Engine.Reacting

/-! The watchdog. It takes the age of a row that says FAILED for the time the instance has
been failing, but a poll writes the rows of all instances it asks anew. While polls come on
schedule only a row that no poll writes any more can be as old as the grace period. -/
namespace NotiMapper

open Python Effect Engine

def unhealthyGraceSeconds : Nat := 300
def heartbeatGraceSeconds : Nat := 60

/-- Ordered by instance name. -/
def Store.health (s : Store) : List (Name × HealthRecord) :=
  (s.instanceHealth.entries.map fun row => (row.1, row.2)).insertionSort fun a b => a.1 ≤ b.1

namespace Daemon

/-- The seconds since a moment, as the watchdog prints them. -/
def elapsed (now moment : Time) : String :=
  formatWhole (.finite (((now - moment : Nat) : Rat) / 1000000))

def longFailed (now : Time) (row : Name × HealthRecord) : Bool :=
  row.2.status = .failed && row.2.updatedAt + seconds unhealthyGraceSeconds ≤ now

/-- Why the daemon is unhealthy, or `none` if it is fine. -/
def unhealthyReason (engine : Option Engine) (now : Time) : Option String :=
  match engine with
  | none => some "the core loop has not started"
  | some s =>
    match s.heartbeat with
    | none => some "the core loop has never completed a tick"
    | some heartbeat =>
      if heartbeat + seconds heartbeatGraceSeconds < now then
        some s!"the core loop has not ticked for {elapsed now heartbeat}s"
      else
        (s.store.health.find? (longFailed now)).map fun row =>
          s!"instance '{row.1}' has been failed for {elapsed now row.2.updatedAt}s: {row.2.detail}"

theorem mem_health {s : Store} {row : Name × HealthRecord} :
    row ∈ s.health ↔ s.instanceHealth.lookup row.1 = some row.2 := by
  obtain ⟨name, record⟩ := row
  have stored : s.instanceHealth.lookup name = some record ↔
      (⟨name, record⟩ : Sigma fun _ : Name => HealthRecord) ∈ s.instanceHealth.entries :=
    AList.mem_lookup_iff
  simp only [Store.health, List.mem_insertionSort, List.mem_map, Prod.mk.injEq, stored]
  constructor
  · rintro ⟨entry, member, rfl, rfl⟩
    exact member
  · intro member
    exact ⟨_, member, rfl, rfl⟩

theorem unhealthyReason_isSome {s : Engine} {now heartbeat : Time}
    (beat : s.heartbeat = some heartbeat)
    (fresh : now ≤ heartbeat + seconds heartbeatGraceSeconds) :
    (unhealthyReason (some s) now).isSome ↔ ∃ name row,
      s.store.instanceHealth.lookup name = some row ∧ row.status = .failed ∧
        row.updatedAt + seconds unhealthyGraceSeconds ≤ now := by
  simp only [unhealthyReason, beat, if_neg (Nat.not_lt_of_le fresh), Option.isSome_map,
    List.find?_isSome, longFailed, Bool.and_eq_true, decide_eq_true_eq]
  constructor
  · rintro ⟨row, member, failed, old⟩
    exact ⟨row.1, row.2, mem_health.mp member, failed, old⟩
  · rintro ⟨name, row, stored, failed, old⟩
    exact ⟨(name, row), mem_health.mpr stored, failed, old⟩

end Daemon

/-- The objects of one direction. -/
def PluginSet.side (plugins : PluginSet) : PluginDirection → Table PluginRef
  | .input => plugins.inputs
  | .output => plugins.outputs

/-- One health poll: the plugins that were asked, and what they answered. -/
structure Poll where
  world : World
  plugins : PluginSet

namespace Poll

/-- The row a poll writes for an instance: the output is asked last. -/
def record (name : Name) (p : Poll) : Option HealthRecord :=
  let row := fun direction =>
    let health := askHealth p.world direction name
    HealthRecord.mk health.status health.detail p.world.now
  if name ∈ p.plugins.outputs then some (row .output)
  else if name ∈ p.plugins.inputs then some (row .input)
  else none

def asks (p : Poll) (direction : PluginDirection) (name : Name) : Prop :=
  name ∈ p.plugins.side direction

def fails (p : Poll) (direction : PluginDirection) (name : Name) : Prop :=
  p.asks direction name ∧ (askHealth p.world direction name).status = .failed

instance (p : Poll) (direction : PluginDirection) (name : Name) :
    Decidable (p.asks direction name) :=
  inferInstanceAs (Decidable (name ∈ p.plugins.side direction))

instance (p : Poll) (direction : PluginDirection) (name : Name) :
    Decidable (p.fails direction name) :=
  inferInstanceAs (Decidable (_ ∧ _))

theorem record_eq_none {p : Poll} {name : Name} :
    p.record name = none ↔ ∀ direction, ¬ p.asks direction name := by
  constructor
  · intro unasked direction
    simp only [record] at unasked
    split at unasked
    · cases unasked
    · rename_i output
      split at unasked
      · cases unasked
      · rename_i input
        cases direction
        · exact input
        · exact output
  · intro unasked
    have input := unasked .input
    have output := unasked .output
    simp only [asks, PluginSet.side] at input output
    simp only [record, input, output, if_false]

theorem record_updatedAt {p : Poll} {name : Name} {row : HealthRecord}
    (recorded : p.record name = some row) : row.updatedAt = p.world.now := by
  simp only [record] at recorded
  split at recorded
  · cases recorded
    rfl
  · split at recorded
    · cases recorded
      rfl
    · cases recorded

end Poll

namespace Engine

theorem recordHealth_foldl (w : World) (direction : PluginDirection) (names : List Name)
    (s : Engine) : (∃ table, names.foldl (fun s name => recordHealth w direction name s) s =
        { s with store := { s.store with instanceHealth := table } }) ∧
    ∀ n, (names.foldl (fun s name => recordHealth w direction name s) s).store.instanceHealth.lookup
        n = if n ∈ names then some ⟨(askHealth w direction n).status,
          (askHealth w direction n).detail, w.now⟩ else s.store.instanceHealth.lookup n := by
  induction names generalizing s with
  | nil => exact ⟨⟨s.store.instanceHealth, rfl⟩, by simp⟩
  | cons name names ih =>
    obtain ⟨⟨table, only⟩, rows⟩ := ih (recordHealth w direction name s)
    refine ⟨⟨table, only⟩, fun n => (rows n).trans ?_⟩
    simp only [recordHealth, onStore, Store.writeHealth]
    by_cases same : n = name
    · subst same
      simp
    · simp [same, AList.lookup_insert_ne same]

theorem handlePollHealth_rows {w : World} {s t : Engine}
    (ran : handlePollHealth w s = .ok ⟨⟩ t) (n : Name) :
    t.store.instanceHealth.lookup n =
      (Poll.record n ⟨w, s.plugins⟩).or (s.store.instanceHealth.lookup n) := by
  obtain ⟨_, m, polled, scheduled⟩ := bind_ok.mp ran
  simp only [transaction, restoring_ok, get_bind_ok] at polled
  obtain ⟨_, m₁, inputs, polled⟩ := bind_ok.mp polled
  simp only [get_bind_ok, forM_modify_ok] at inputs polled
  simp only [schedule, raising_bind_ok, modify_ok] at scheduled
  obtain ⟨dueAt, _, rfl⟩ := scheduled
  obtain ⟨⟨table, only⟩, rows⟩ := recordHealth_foldl w .input s.plugins.inputs.keys s
  rw [← inputs] at only rows
  have rows' := (recordHealth_foldl w .output m₁.plugins.outputs.keys m₁).2
  rw [← polled] at rows'
  refine (rows' n).trans ?_
  rw [rows n, only]
  simp only [Poll.record, AList.mem_keys]
  split
  · rfl
  · split
    · rfl
    · rfl

theorem health_framed : Framed fun s t => t.store.instanceHealth = s.store.instanceHealth where
  tables := by
    intro s t same
    rw [same]
  logs := fun _ _ _ _ _ _ _ => rfl

instance : IsPreorder Engine fun s t => t.store.instanceHealth = s.store.instanceHealth where
  refl _ := rfl
  trans _ _ _ first second := second.trans first

def pollsIn (s : Engine) (step : Step) : List Poll :=
  (step.messages s).filterMap fun heard =>
    match heard.2 with
    | .pollHealth => some ⟨heard.1, s.plugins⟩
    | _ => none

def pollsAlong (s : Engine) (steps : List Step) : List Poll :=
  Transition.along advance pollsIn s steps

/-- What the table holds of an instance: what a poll wrote last, or what was there. -/
def HealthAfter (polls : List Poll) (s t : Engine) : Prop :=
  ∀ n, t.store.instanceHealth.lookup n =
    (Register.lastWrite (Poll.record n) polls).or (s.store.instanceHealth.lookup n)

theorem HealthAfter.trans {polls polls' : List Poll} {s m t : Engine}
    (first : HealthAfter polls s m) (second : HealthAfter polls' m t) :
    HealthAfter (polls ++ polls') s t := by
  intro n
  rw [second n, first n, Register.lastWrite_append, Option.or_assoc]

theorem handle_health {w : World} {message : CoreMessage} {s t : Engine}
    (ran : handle w message s = .ok ⟨⟩ t) :
    HealthAfter (pollsIn s (.handle w message)) s t := by
  intro n
  by_cases polls : message = .pollHealth
  · subst polls
    rw [handlePollHealth_rows ran n]
    simp [pollsIn, Step.messages, Register.lastWrite]
  · have none : pollsIn s (.handle w message) = [] := by
      cases message <;> simp_all [pollsIn, Step.messages]
    have kept := (health_framed.handle w (fun _ _ _ _ _ _ => rfl) (fun same => absurd same polls)).leads
      _ _ _ ran
    rw [none, kept]
    rfl

theorem fire_health {w : World} (due : List ScheduledMessage) {s t : Engine}
    (ran : due.forM (fun timer => handle w timer.message) s = .ok ⟨⟩ t) :
    HealthAfter (due.filterMap fun timer =>
      match timer.message with
      | .pollHealth => some ⟨w, s.plugins⟩
      | _ => none) s t := by
  induction due generalizing s with
  | nil =>
    rw [← forM_nil_ok.mp ran]
    exact fun n => rfl
  | cons timer due ih =>
    obtain ⟨m, hm, rest⟩ := forM_cons_ok.mp ran
    have first := handle_health hm
    have moved := handle_moves (scheduled_own timer).1 (scheduled_own timer).2 hm
    have later := ih rest
    rw [moved.plugins] at later
    have both := first.trans later
    cases message : timer.message <;>
      simpa [pollsIn, Step.messages, List.filterMap_cons, message] using both

theorem tick_health {w : World} {s t : Engine} (ran : tick w s = .ok ⟨⟩ t) :
    HealthAfter (pollsIn s (.tick w)) s t := by
  obtain ⟨m, fired, rfl⟩ := tick_ok ran
  simp only [fireDueTimers, get_bind_ok, modify_bind_ok] at fired
  have rows := fire_health _ fired
  intro n
  rw [maybeWriteLastSeen_only, (dispatchDuePushes_spec w.now m).only]
  refine (rows n).trans ?_
  simp only [pollsIn, Step.messages, List.filterMap_map]
  rfl

theorem run_health {s t : Engine} {steps : List Step}
    (ran : Transition.run advance s steps = some t) : HealthAfter (pollsAlong s steps) s t := by
  induction steps generalizing s with
  | nil =>
    cases Option.some.inj ran
    exact fun n => rfl
  | cons step steps ih =>
    obtain ⟨m, stepped, rest⟩ := Transition.run_cons.mp ran
    simp only [pollsAlong, Transition.along, stepped, Option.elim_some]
    refine HealthAfter.trans ?_ (ih rest)
    cases step with
    | handle w message => exact handle_health (advance_handle.mp stepped)
    | tick w => exact tick_health (advance_tick.mp stepped)

end Engine

namespace Daemon

section Watching

variable (polls : List Poll) (now : Time)

/-- The last poll is more recent than the grace period. -/
def OnSchedule : Prop :=
  ∃ last, polls.getLast? = some last ∧ now < last.world.now + seconds unhealthyGraceSeconds

/-- There is a time, as long ago as the grace period, from which on the object was asked
at every poll, and answered FAILED. -/
def FailingFor (direction : PluginDirection) (name : Name) : Prop :=
  ∃ since, since + seconds unhealthyGraceSeconds ≤ now ∧ (∃ p ∈ polls, p.world.now ≤ since) ∧
    ∀ p ∈ polls, since ≤ p.world.now → p.fails direction name

/-- The last poll did not ask the instance. -/
def LeftOver (name : Name) : Prop :=
  ∀ last, polls.getLast? = some last → ∀ direction, ¬ last.asks direction name

/-- A problem is reported exactly if some object has been failing that long. -/
structure Watched (s : Engine) : Prop where
  reported : ∀ direction name, FailingFor polls now direction name →
    (unhealthyReason (some s) now).isSome
  quiet : (∀ direction name, ¬ FailingFor polls now direction name) →
    unhealthyReason (some s) now = none

end Watching

/-- A row as old as that is of an instance the last poll did not ask. -/
theorem old_row_left_over {s t : Engine} {steps : List Step} {now : Time} {name : Name}
    {row : HealthRecord} (ran : Transition.run advance s steps = some t)
    (schedule : OnSchedule (pollsAlong s steps) now)
    (stored : t.store.instanceHealth.lookup name = some row)
    (old : row.updatedAt + seconds unhealthyGraceSeconds ≤ now) :
    LeftOver (pollsAlong s steps) name := by
  intro last known direction asks
  obtain ⟨last', known', recent⟩ := schedule
  cases Option.some.inj (known'.symm.trans known)
  obtain ⟨before, split⟩ := List.getLast?_eq_some_iff.mp known
  cases recorded : last.record name with
  | none => exact Poll.record_eq_none.mp recorded direction asks
  | some written =>
    have rows := run_health ran name
    rw [split, Register.lastWrite_append] at rows
    simp only [Register.lastWrite, recorded, Option.none_or, Option.some_or] at rows
    cases Option.some.inj (stored.symm.trans rows)
    rw [Poll.record_updatedAt recorded] at old
    exact absurd old (Nat.not_le_of_lt recent)

/-- The mail reader is dead, and says so. -/
def dying (now : Time) : World :=
  { Sample.quiet now with
    health := fun direction _ =>
      match direction with
      | .input => .ok ⟨.failed, "reader thread died"⟩
      | .output => .ok ⟨.ok, ""⟩ }

def dyingSteps : List Step :=
  (List.range 12).map fun k => .tick (dying (seconds (30 * k)))

end Daemon

end NotiMapper
