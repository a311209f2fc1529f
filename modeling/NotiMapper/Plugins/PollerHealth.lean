import NotiMapper.Library.Transition
import NotiMapper.Plugins.IncidentPolling

/-! What the polling threads of the file input and of the PagerDuty output say of their
health, over the outcomes of their steps, before they are told to stop. -/
namespace NotiMapper

open Transition

/-- A polling thread; `failed` is whether a poll has failed, and `fine` whether the last one
did not. -/
structure Poller where
  running : Bool
  health : PluginHealth
  failed : Bool := false
  fine : Bool := false

namespace Poller

/-- The loop is still going round, or the health does not say OK; and it does say OK where
polls have failed and the last one did not. -/
structure Honest (poller : Poller) : Prop where
  alive : poller.running = true ∨ poller.health.status ≠ .ok
  recovered : poller.failed = true → poller.fine = true → poller.health.status = .ok

def succeeded (poller : Poller) (health : PluginHealth) : Poller :=
  { poller with health := health, fine := true }

def missed (poller : Poller) (health : PluginHealth) : Poller :=
  { poller with health := health, failed := true, fine := false }

/-- What a thread leaves that an exception has ended. -/
def ended (poller : Poller) (health : PluginHealth) : Poller :=
  { poller.missed health with running := false }

end Poller

namespace FileInput

/-- Where `start` enters its loop. -/
def watching (described : String) : Poller :=
  ⟨true, ⟨.ok, "watching " ++ described⟩, false, false⟩

/-- One round of the loop, whose `poll_once` raises or returns. `_run_input` logs what the
loop does not catch, and the thread is over. -/
def poll (poller : Poller) (raised : Option Raised) : Option Poller :=
  if !poller.running then some poller
  else
    match raised with
    | none => some (poller.succeeded poller.health)
    | some (.osError type message) => some (poller.missed ⟨.degraded, type ++ ": " ++ message⟩)
    | some (.pluginError _) => some (poller.ended poller.health)
    | some (.other _ _) => some (poller.ended poller.health)

/-- No poll succeeds after an `OSError`, and what ends the loop comes after one. -/
def Orderly (poller : Poller) (raised : Option Raised) : Prop :=
  poller.running = true →
    match raised with
    | none => poller.failed = false
    | some (.osError _ _) => True
    | some (.pluginError _) => poller.failed = true
    | some (.other _ _) => poller.failed = true

end FileInput

namespace PagerDutyOutput

variable (p : PagerDutyOutput)

def started : Poller := ⟨true, ⟨.starting, "not yet polled"⟩, false, false⟩

/-- What `poll_once` meets: how the request goes, and what `request_unlatch` raises. -/
structure Outcome where
  exchange : Exchange
  refused : Option Raised

/-- One round of `_poll_loop`, which catches nothing. -/
def poll (poller : Poller) (outcome : Outcome) : Option Poller :=
  if !poller.running then some poller
  else
    let polled := p.pollOnce outcome.refused outcome.exchange poller.health
    match polled.raised, p.fetchIncidents outcome.exchange with
    | some _, _ => some (poller.ended polled.health)
    | none, .error _ => some (poller.missed polled.health)
    | none, .ok _ => some (poller.succeeded polled.health)

/-- The incidents are fetched, or the failure is a `PluginError`. -/
def Caught (exchange : Exchange) : Prop :=
  ∀ raised, p.fetchIncidents exchange = .error raised → ∃ message, raised = .pluginError message

/-- Nothing that comes after the fetch raises. -/
def Undisturbed (outcome : Outcome) : Prop :=
  ∀ incidents, p.fetchIncidents outcome.exchange = .ok incidents → incidents ≠ [] →
    ∃ state, p.scan incidents none = .ok state ∧
      (state.belief = .cleared → outcome.refused = none)

/-- The exception that ends the loop comes from the fetch, and not after a poll that
succeeded. -/
def Orderly (poller : Poller) (outcome : Outcome) : Prop :=
  poller.running = true →
    p.Undisturbed outcome ∧ (p.Caught outcome.exchange ∨ poller.fine = false)

end PagerDutyOutput

namespace Poller

theorem succeeded_honest_iff {poller : Poller} {health : PluginHealth}
    (running : poller.running = true) : (poller.succeeded health).Honest ↔
      (poller.failed = true → health.status = .ok) :=
  ⟨fun honest failed => honest.recovered failed rfl,
    fun recovered => ⟨.inl running, fun failed _ => recovered failed⟩⟩

theorem missed_honest {poller : Poller} {health : PluginHealth} (running : poller.running = true) :
    (poller.missed health).Honest :=
  ⟨.inl running, fun _ fine => by cases fine⟩

theorem ended_honest_iff {poller : Poller} {health : PluginHealth} :
    (poller.ended health).Honest ↔ health.status ≠ .ok := by
  constructor
  · rintro ⟨alive | ill, _⟩
    · cases alive
    · exact ill
  · exact fun ill => ⟨.inr ill, fun _ fine => by cases fine⟩

end Poller

namespace FileInput

theorem poll_running {poller : Poller} (running : poller.running = true)
    (raised : Option Raised) : poll poller raised =
      match raised with
      | none => some (poller.succeeded poller.health)
      | some (.osError type message) => some (poller.missed ⟨.degraded, type ++ ": " ++ message⟩)
      | some (.pluginError _) => some (poller.ended poller.health)
      | some (.other _ _) => some (poller.ended poller.health) := by
  unfold poll
  rw [running]
  rfl

theorem poll_stopped {poller : Poller} (stopped : poller.running = false)
    (raised : Option Raised) : poll poller raised = some poller := by
  unfold poll
  rw [stopped]
  rfl

theorem poll_enabled (poller : Poller) (raised : Option Raised) :
    ∃ after, poll poller raised = some after := by
  unfold poll
  split
  · exact ⟨_, rfl⟩
  · split <;> exact ⟨_, rfl⟩

/-- While it runs, its health is OK until a poll fails, and never again. -/
def Sinking (poller : Poller) : Prop :=
  poller.running = true → (poller.health.status = .ok ↔ poller.failed = false)

theorem poll_sinking {poller after : Poller} {raised : Option Raised} (sinking : Sinking poller)
    (polled : poll poller raised = some after) : Sinking after := by
  cases running : poller.running with
  | false =>
    rw [poll_stopped running] at polled
    exact Option.some.inj polled ▸ sinking
  | true =>
    rw [poll_running running] at polled
    rcases raised with _ | ⟨message⟩ | ⟨type, message⟩ | ⟨type, message⟩ <;>
      cases Option.some.inj polled <;> intro alive
    · exact sinking running
    · cases alive
    · simp [Poller.missed]
    · cases alive

theorem poll_honest_iff {poller after : Poller} {raised : Option Raised}
    (sinking : Sinking poller) (honest : poller.Honest)
    (polled : poll poller raised = some after) : after.Honest ↔ Orderly poller raised := by
  cases running : poller.running with
  | false =>
    rw [poll_stopped running] at polled
    have idle : Orderly poller raised := fun alive => absurd alive (by simp [running])
    exact ⟨fun _ => idle, fun _ => Option.some.inj polled ▸ honest⟩
  | true =>
    rw [poll_running running] at polled
    have before := sinking running
    have ill : poller.health.status ≠ .ok ↔ poller.failed = true := by
      rw [Ne, before, Bool.not_eq_false]
    have orderly : Orderly poller raised ↔ _ := ⟨fun met => met running, fun met _ => met⟩
    rw [orderly]
    rcases raised with _ | ⟨message⟩ | ⟨type, message⟩ | ⟨type, message⟩ <;>
      cases Option.some.inj polled
    · rw [Poller.succeeded_honest_iff running, before]
      cases poller.failed <;> simp
    · exact Poller.ended_honest_iff.trans ill
    · exact iff_of_true (Poller.missed_honest running) trivial
    · exact Poller.ended_honest_iff.trans ill

end FileInput

namespace PagerDutyOutput

variable {p : PagerDutyOutput}

theorem poll_enabled (poller : Poller) (outcome : Outcome) :
    ∃ after, p.poll poller outcome = some after := by
  unfold poll
  split
  · exact ⟨_, rfl⟩
  · dsimp only
    split <;> exact ⟨_, rfl⟩

/-- How a round ends, by what the fetch gives. -/
inductive Round (p : PagerDutyOutput) (poller : Poller) (outcome : Outcome) : Poller → Prop
  | escaped : ¬ p.Caught outcome.exchange → p.Undisturbed outcome →
    Round p poller outcome (poller.ended poller.health)
  | caught (message : String) : p.Caught outcome.exchange → p.Undisturbed outcome →
    Round p poller outcome (poller.missed ⟨.degraded, message⟩)
  | broken : ¬ p.Undisturbed outcome → Round p poller outcome (poller.ended p.polling)
  | answered : p.Caught outcome.exchange → p.Undisturbed outcome →
    Round p poller outcome (poller.succeeded p.polling)

theorem poll_round {poller after : Poller} {outcome : Outcome} (running : poller.running = true)
    (polled : p.poll poller outcome = some after) : p.Round poller outcome after := by
  unfold poll at polled
  simp only [running, Bool.not_true, Bool.false_eq_true, if_false] at polled
  cases fetched : p.fetchIncidents outcome.exchange with
  | error raised =>
    have undisturbed : p.Undisturbed outcome := by
      intro incidents given
      rw [fetched] at given
      cases given
    have escape (uncaught : ∀ message, raised ≠ .pluginError message) :
        ¬ p.Caught outcome.exchange :=
      fun caught => (caught raised fetched).elim uncaught
    cases raised with
    | pluginError message =>
      have caught : p.Caught outcome.exchange := by
        intro raised given
        rw [fetched] at given
        cases given
        exact ⟨message, rfl⟩
      simp only [pollOnce, query, fetched] at polled
      cases Option.some.inj polled
      exact .caught message caught undisturbed
    | osError type message =>
      simp only [pollOnce, query, fetched] at polled
      cases Option.some.inj polled
      exact .escaped (escape fun _ same => by cases same) undisturbed
    | other type message =>
      simp only [pollOnce, query, fetched] at polled
      cases Option.some.inj polled
      exact .escaped (escape fun _ same => by cases same) undisturbed
  | ok incidents =>
    have caught : p.Caught outcome.exchange := by
      intro raised given
      rw [fetched] at given
      cases given
    have disturbed (nonempty : incidents ≠ [])
        (raises : ∀ state, p.scan incidents none = .ok state →
          state.belief = .cleared ∧ outcome.refused ≠ none) : ¬ p.Undisturbed outcome := by
      intro undisturbed
      obtain ⟨state, scanned, quiet⟩ := undisturbed incidents fetched nonempty
      exact (raises state scanned).2 (quiet (raises state scanned).1)
    have undisturbed (quiet : incidents ≠ [] → ∃ state, p.scan incidents none = .ok state ∧
        (state.belief = .cleared → outcome.refused = none)) : p.Undisturbed outcome := by
      intro others same
      rw [fetched] at same
      cases same
      exact quiet
    by_cases empty : incidents = []
    · cases empty
      simp only [pollOnce, query, fetched] at polled
      cases Option.some.inj polled
      exact .answered caught (undisturbed fun no => absurd rfl no)
    · have listed : incidents.isEmpty = false := by simpa using empty
      cases scanned : p.scan incidents none with
      | error raised =>
        simp only [pollOnce, query, fetched, listed, Bool.false_eq_true, if_false, scanned] at polled
        cases Option.some.inj polled
        exact .broken (disturbed empty fun state other => by rw [scanned] at other; cases other)
      | ok state =>
        by_cases cleared : state.belief = .cleared
        · cases refused : outcome.refused with
          | none =>
            simp only [pollOnce, query, fetched, listed, Bool.false_eq_true, if_false, scanned,
              cleared, refused, ne_eq, not_true] at polled
            cases Option.some.inj polled
            exact .answered caught (undisturbed fun _ => ⟨state, scanned, fun _ => refused⟩)
          | some raised =>
            simp only [pollOnce, query, fetched, listed, Bool.false_eq_true, if_false, scanned,
              cleared, refused, ne_eq, not_true] at polled
            cases Option.some.inj polled
            refine .broken (disturbed empty fun state' other => ?_)
            rw [scanned] at other
            cases other
            exact ⟨cleared, by simp [refused]⟩
        · simp only [pollOnce, query, fetched, listed, Bool.false_eq_true, if_false, scanned, ne_eq, cleared,
            not_false_eq_true, if_true] at polled
          cases Option.some.inj polled
          exact .answered caught (undisturbed fun _ => ⟨state, scanned, fun no => absurd no cleared⟩)

/-- While it runs, its health is OK exactly if the last poll did not fail. -/
def Current (poller : Poller) : Prop :=
  poller.running = true → (poller.health.status = .ok ↔ poller.fine = true)

theorem poll_stopped {poller : Poller} (stopped : poller.running = false) (outcome : Outcome) :
    p.poll poller outcome = some poller := by
  unfold poll
  rw [stopped]
  rfl

theorem poll_current {poller after : Poller} {outcome : Outcome} (current : Current poller)
    (polled : p.poll poller outcome = some after) : Current after := by
  cases running : poller.running with
  | false =>
    rw [poll_stopped running] at polled
    exact Option.some.inj polled ▸ current
  | true =>
    cases poll_round running polled with
    | escaped _ _ => exact fun alive => by cases alive
    | caught message _ _ =>
      exact fun _ => iff_of_false (fun ok => by cases ok) fun fine => by cases fine
    | broken _ => exact fun alive => by cases alive
    | answered _ _ => exact fun _ => iff_of_true rfl rfl

theorem poll_honest_iff {poller after : Poller} {outcome : Outcome} (current : Current poller)
    (honest : poller.Honest) (polled : p.poll poller outcome = some after) :
    after.Honest ↔ p.Orderly poller outcome := by
  cases running : poller.running with
  | false =>
    rw [poll_stopped running] at polled
    have idle : p.Orderly poller outcome := fun alive => absurd alive (by simp [running])
    exact ⟨fun _ => idle, fun _ => Option.some.inj polled ▸ honest⟩
  | true =>
    have orderly : p.Orderly poller outcome ↔ _ := ⟨fun met => met running, fun met _ => met⟩
    rw [orderly]
    cases poll_round running polled with
    | escaped escapes undisturbed =>
      rw [Poller.ended_honest_iff, Ne, current running, Bool.not_eq_true]
      exact ⟨fun stale => ⟨undisturbed, .inr stale⟩, fun met => met.2.resolve_left escapes⟩
    | caught message caught undisturbed =>
      exact iff_of_true (Poller.missed_honest running) ⟨undisturbed, .inl caught⟩
    | broken disturbed =>
      exact iff_of_false (fun honest => Poller.ended_honest_iff.mp honest rfl)
        fun met => disturbed met.1
    | answered caught undisturbed =>
      exact iff_of_true ((Poller.succeeded_honest_iff running).mpr fun _ => rfl)
        ⟨undisturbed, .inl caught⟩

end PagerDutyOutput

end NotiMapper
