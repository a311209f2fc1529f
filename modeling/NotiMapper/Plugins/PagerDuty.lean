import NotiMapper.Engine

/-! The PagerDuty output: pushes open and resolve the incident of its dedup key, and a
poll reads back how its incidents stand. Of the service only that key's incidents are
kept, newest first, and one is open at a time. The service may act on a request whose
answer is then lost. -/
namespace NotiMapper

open Engine (isNewer)

def openStatuses : List String := ["triggered", "acknowledged"]

/-- What the incident query asks for at most. -/
def incidentLimit : Nat := 10

structure Incident where
  status : String
  resolvedAt : Option Time
  lastStatusChangeAt : Option Time
  deriving DecidableEq, Repr

namespace Incident

def IsOpen (incident : Incident) : Prop := incident.status ∈ openStatuses

instance (incident : Incident) : Decidable incident.IsOpen :=
  inferInstanceAs (Decidable (incident.status ∈ openStatuses))

def moment (incident : Incident) : Option Time :=
  incident.resolvedAt.or incident.lastStatusChangeAt

def resolve (now : Time) (incident : Incident) : Incident :=
  if incident.IsOpen then ⟨"resolved", some now, some now⟩ else incident

end Incident

namespace PagerDuty

/-- The loop of `query`, over the incidents still to be looked at. -/
def scan : List Incident → Option Time → RemoteState
  | [], resolvedAt => ⟨.cleared, resolvedAt⟩
  | incident :: incidents, resolvedAt =>
    if incident.IsOpen then ⟨.active, none⟩
    else scan incidents
      (if isNewer incident.moment resolvedAt then incident.moment else resolvedAt)

/-- `query`, on what `_fetch_incidents` returned or raised. -/
def query (fetched : Except String (List Incident)) : RemoteState :=
  match fetched with
  | .error _ => ⟨.unknown, none⟩
  | .ok incidents =>
    -- No incident ever: saying CLEARED would clear a latch for never having alerted.
    if incidents.isEmpty then ⟨.unknown, none⟩ else scan incidents none

def unlatchRequest (instanceName : Name) : UnlatchRequestMessage :=
  ⟨instanceName, "PagerDuty incident resolved"⟩

/- The service. -/

def trigger (now : Time) (incidents : List Incident) : List Incident :=
  if incidents.any fun incident => incident.IsOpen then incidents
  else ⟨"triggered", none, some now⟩ :: incidents

def resolve (now : Time) (incidents : List Incident) : List Incident :=
  incidents.map (·.resolve now)

/-- What becomes of a request to the service. -/
inductive Delivery
  | accepted
  | refused
  | unanswered
  deriving DecidableEq

/-- `apply`: an event is sent, and the answer to it awaited. -/
def apply (now : Time) (delivery : Delivery) (update : OutputUpdate)
    (incidents : List Incident) : Except String Unit × List Incident :=
  let acted := if update.state then trigger now incidents else resolve now incidents
  match delivery with
  | .accepted => (.ok (), acted)
  | .refused => (.error "PluginError: PagerDuty returned 500", incidents)
  | .unanswered => (.error "PluginError: PagerDuty is unreachable", acted)

def fetchIncidents (reachable : Bool) (incidents : List Incident) :
    Except String (List Incident) :=
  if reachable then .ok (incidents.take incidentLimit)
  else .error "PluginError: PagerDuty is unreachable"

/- What `query` reports. -/

theorem max_later (moment resolvedAt : Option Time) (moments : List Time) :
    ((if isNewer moment resolvedAt then moment else resolvedAt).toList ++ moments).max? =
      (resolvedAt.toList ++ (moment.toList ++ moments)).max? := by
  cases moment with
  | none => rfl
  | some moment =>
    cases resolvedAt with
    | none => rfl
    | some resolvedAt =>
      have larger : (if resolvedAt < moment then some moment else some resolvedAt) =
          some (max resolvedAt moment) := by
        rcases lt_or_ge resolvedAt moment with later | earlier
        · rw [if_pos later, max_eq_right later.le]
        · rw [if_neg (not_lt.mpr earlier), max_eq_left earlier]
      simp only [isNewer, decide_eq_true_eq, larger]
      rfl

theorem scan_cleared {incidents : List Incident} {resolvedAt reported : Option Time}
    (cleared : scan incidents resolvedAt = ⟨.cleared, reported⟩) :
    (∀ incident ∈ incidents, ¬ incident.IsOpen) ∧
      reported = (resolvedAt.toList ++ incidents.filterMap (·.moment)).max? := by
  induction incidents generalizing resolvedAt with
  | nil =>
    unfold scan at cleared
    cases cleared
    cases reported <;> simp
  | cons incident incidents ih =>
    unfold scan at cleared
    split at cleared
    · cases cleared
    · rename_i resolved
      obtain ⟨others, latest⟩ := ih cleared
      refine ⟨List.forall_mem_cons.mpr ⟨resolved, others⟩, ?_⟩
      rw [latest, max_later]
      cases moment : incident.moment <;> simp [moment]

/-- A CLEARED answer: every incident fetched is resolved, and the time is the latest of
their resolution times. -/
theorem query_cleared {fetched : Except String (List Incident)} {reported : Option Time}
    (cleared : query fetched = ⟨.cleared, reported⟩) :
    ∃ incidents, fetched = .ok incidents ∧ (∀ incident ∈ incidents, ¬ incident.IsOpen) ∧
      reported = (incidents.filterMap (·.moment)).max? := by
  cases fetched with
  | error error => cases cleared
  | ok incidents =>
    unfold query at cleared
    simp only at cleared
    split at cleared
    · cases cleared
    · exact ⟨incidents, rfl, scan_cleared cleared⟩

end PagerDuty

end NotiMapper
