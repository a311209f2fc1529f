import NotiMapper.Clock
import Mathlib.Data.List.AList
import Mathlib.Data.List.Sort

/-! Persistent state: the tables of the SQLite file and the operations of `Store`.
A table with a primary key is an association list on that key, so the key is not
repeated in the row. Timestamps are kept as instants, not as their ISO text. -/
namespace NotiMapper

open Python

abbrev Name := String
abbrev Table (row : Type) := AList (fun _ : Name => row)

def lastSeenKey : String := "last_seen_at"

/-- What a row in `event_log` records. -/
inductive EventKind
  | inputEvent
  | latchSet
  | latchRetriggered
  | latchCleared
  | unlatchIgnored
  | outputPushSucceeded
  | outputPushFailed
  | reconciled
  | configLoaded
  | ruleOrphaned
  | ruleAdopted
  | renamed
  | purged
  | daemonStarted
  | daemonStopped
  deriving DecidableEq, Repr

inductive HealthStatus
  | unknown
  | starting
  | ok
  | degraded
  | failed
  | stopped
  deriving DecidableEq, Repr

structure LatchRecord where
  state : Bool
  setAt : Option Time
  clearedAt : Option Time
  triggerCount : Nat
  lastCause : Option Name
  lastDetail : Option String := none
  deriving DecidableEq, Repr

/-- The row `sync_rules` inserts for a new rule, and what a missing latch reads as. -/
def LatchRecord.fresh : LatchRecord := ⟨false, none, none, 0, none, none⟩

structure InstanceRow where
  plugin : String
  enabled : Bool
  orphaned : Bool
  deriving DecidableEq, Repr

structure RuleRow where
  enabled : Bool
  orphaned : Bool
  deriving DecidableEq, Repr

structure InstanceRecord where
  name : Name
  plugin : String
  enabled : Bool
  orphaned : Bool

/-- The members of a configured rule are duplicate-free, as the loader checks. -/
structure RuleRecord where
  name : Name
  enabled : Bool
  orphaned : Bool
  inputs : List Name
  outputs : List Name
  inputs_nodup : inputs.Nodup
  outputs_nodup : outputs.Nodup

/-- What the daemon last pushed to an output, and what the output confirmed. -/
structure OutputStateRecord where
  lastApplied : Option Bool
  lastConfirmed : Option Bool
  lastSyncAt : Option Time
  deriving DecidableEq, Repr

structure PendingPush where
  targetValue : Bool
  attemptCount : Nat
  nextAttemptAt : Time
  lastError : Option String
  deriving DecidableEq, Repr

structure HealthRecord where
  status : HealthStatus
  detail : String
  updatedAt : Time
  deriving DecidableEq, Repr

structure EventLogEntry where
  identifier : Nat
  loggedAt : Time
  kind : EventKind
  instanceName : Option Name
  ruleName : Option Name
  detail : String
  deriving DecidableEq, Repr

/-- `event_log` with its AUTOINCREMENT counter. -/
structure EventLog where
  rows : List EventLogEntry
  sequence : Nat

structure Store where
  instances : Table InstanceRow
  rules : Table RuleRow
  ruleInputs : List (Name × Name)
  ruleOutputs : List (Name × Name)
  latches : Table LatchRecord
  outputState : Table OutputStateRecord
  pendingPushes : Table PendingPush
  instanceHealth : Table HealthRecord
  eventLog : EventLog
  daemonState : Table Time

def Store.empty : Store where
  instances := ∅
  rules := ∅
  ruleInputs := []
  ruleOutputs := []
  latches := ∅
  outputState := ∅
  pendingPushes := ∅
  instanceHealth := ∅
  eventLog := ⟨[], 0⟩
  daemonState := ∅

namespace Store

/- Configuration mirror. -/

/-- The tables that only mirroring writes. -/
def mirror (s : Store) :
    Table InstanceRow × Table RuleRow × List (Name × Name) × List (Name × Name) :=
  (s.instances, s.rules, s.ruleInputs, s.ruleOutputs)

def orphanInstance (s : Store) (name : Name) : Store :=
  match s.instances.lookup name with
  | none => s
  | some row => { s with instances := s.instances.insert name { row with orphaned := true } }

def syncInstances (s : Store) (instances : List InstanceRecord) : List Name × Store :=
  let present := instances.map (·.name)
  let s := instances.foldl (fun s i =>
    { s with instances := s.instances.insert i.name ⟨i.plugin, i.enabled, false⟩ }) s
  let newlyOrphaned := (s.instances.entries.filter
    fun row => !row.2.orphaned && !present.contains row.1).map (·.1)
  (newlyOrphaned, newlyOrphaned.foldl orphanInstance s)

/-- One round of the loop in `sync_rules`: the rule row, its latch if it has none
yet, and its edges. -/
def syncRule (s : Store) (rule : RuleRecord) : Store :=
  { s with
    rules := s.rules.insert rule.name ⟨rule.enabled, false⟩
    latches := if rule.name ∈ s.latches then s.latches else s.latches.insert rule.name .fresh
    ruleInputs := s.ruleInputs.filter (·.1 ≠ rule.name) ++ rule.inputs.map (rule.name, ·)
    ruleOutputs := s.ruleOutputs.filter (·.1 ≠ rule.name) ++ rule.outputs.map (rule.name, ·) }

def orphanRule (s : Store) (name : Name) : Store :=
  match s.rules.lookup name with
  | none => s
  | some row => { s with rules := s.rules.insert name { row with orphaned := true } }

def syncRules (s : Store) (rules : List RuleRecord) : (List Name × List Name) × Store :=
  let present := rules.map (·.name)
  let (readopted, s) := rules.foldl (fun (acc : List Name × Store) rule =>
    let wasOrphaned := (acc.2.rules.lookup rule.name).any (·.orphaned)
    (if wasOrphaned then acc.1 ++ [rule.name] else acc.1, acc.2.syncRule rule)) ([], s)
  let newlyOrphaned := (s.rules.entries.filter
    fun row => !row.2.orphaned && !present.contains row.1).map (·.1)
  ((newlyOrphaned, readopted), newlyOrphaned.foldl orphanRule s)

/-- What makes `rename_rule` raise. -/
inductive RenameError
  | noRuleNamed (name : Name)
  | ruleAlreadyExists (name : Name)
  | integrityError
  deriving DecidableEq, Repr

/-- `UPDATE ... SET rule_name`, on the edges of one kind. -/
def moveEdges (oldName newName : Name) (edges : List (Name × Name)) : List (Name × Name) :=
  edges.map fun edge => if edge.1 = oldName then (newName, edge.2) else edge

/-- The update would give two edges one primary key. -/
def edgesClash (oldName newName : Name) (edges : List (Name × Name)) : Bool :=
  edges.any fun edge => edge.1 = oldName && (newName, edge.2) ∈ edges

def moveLatch (oldName newName : Name) (latches : Table LatchRecord) : Table LatchRecord :=
  match latches.lookup oldName with
  | none => latches
  | some record => (latches.erase oldName).insert newName record

def renameRule (s : Store) (oldName newName : Name) : Except RenameError Store :=
  match s.rules.lookup oldName with
  | none => .error (.noRuleNamed oldName)
  | some existing =>
    if newName ∈ s.rules then .error (.ruleAlreadyExists newName)
    else if oldName ∈ s.latches ∧ newName ∈ s.latches ∨
        edgesClash oldName newName s.ruleInputs ∨ edgesClash oldName newName s.ruleOutputs then
      .error .integrityError
    else .ok { s with
      rules := (s.rules.insert newName ⟨existing.enabled, false⟩).erase oldName
      latches := moveLatch oldName newName s.latches
      ruleInputs := moveEdges oldName newName s.ruleInputs
      ruleOutputs := moveEdges oldName newName s.ruleOutputs }

def purgeRule (s : Store) (name : Name) : Store :=
  { s with
    latches := s.latches.erase name
    ruleInputs := s.ruleInputs.filter (·.1 ≠ name)
    ruleOutputs := s.ruleOutputs.filter (·.1 ≠ name)
    rules := s.rules.erase name }

def purgeInstance (s : Store) (name : Name) : Store :=
  { s with
    outputState := s.outputState.erase name
    pendingPushes := s.pendingPushes.erase name
    instanceHealth := s.instanceHealth.erase name
    instances := s.instances.erase name }

/-- Returns the purged rules and the purged instances, in the order of their names. -/
def purgeOrphans (s : Store) : (List Name × List Name) × Store :=
  let purgedRules := ((s.rules.entries.filter (·.2.orphaned)).map (·.1)).insertionSort (· ≤ ·)
  let purgedInstances :=
    ((s.instances.entries.filter (·.2.orphaned)).map (·.1)).insertionSort (· ≤ ·)
  ((purgedRules, purgedInstances),
    purgedInstances.foldl purgeInstance (purgedRules.foldl purgeRule s))

/- Latches. -/

def latch (s : Store) (ruleName : Name) : Option LatchRecord := s.latches.lookup ruleName

/-- The row's `rule_name` references `rules(name)`, and foreign keys are on. -/
def writeLatch (s : Store) (ruleName : Name) (record : LatchRecord) : Except PyError Store :=
  if ruleName ∈ s.rules then .ok { s with latches := s.latches.insert ruleName record }
  else .error .integrityError

/- Output state and pending pushes. -/

def outputStateOf (s : Store) (instanceName : Name) : Option OutputStateRecord :=
  s.outputState.lookup instanceName

def writeOutputState (s : Store) (instanceName : Name) (record : OutputStateRecord) : Store :=
  { s with outputState := s.outputState.insert instanceName record }

def pendingPush (s : Store) (instanceName : Name) : Option PendingPush :=
  s.pendingPushes.lookup instanceName

def writePendingPush (s : Store) (instanceName : Name) (push : PendingPush) : Store :=
  { s with pendingPushes := s.pendingPushes.insert instanceName push }

def deletePendingPush (s : Store) (instanceName : Name) : Store :=
  { s with pendingPushes := s.pendingPushes.erase instanceName }

/-- Ordered by `next_attempt_at`, then by instance name. -/
def pendingPushesDue (s : Store) (moment : Time) : List (Name × PendingPush) :=
  ((s.pendingPushes.entries.filter fun row => row.2.nextAttemptAt ≤ moment).map
    fun row => (row.1, row.2)).insertionSort
      fun a b => a.2.nextAttemptAt < b.2.nextAttemptAt ∨
        (a.2.nextAttemptAt = b.2.nextAttemptAt ∧ a.1 ≤ b.1)

def earliestPendingAttempt (s : Store) : Option Time :=
  (s.pendingPushes.entries.map (·.2.nextAttemptAt)).min?

/- Daemon state, health and the event log. -/

def lastSeenAt (s : Store) : Option Time := s.daemonState.lookup lastSeenKey

def writeLastSeenAt (s : Store) (moment : Time) : Store :=
  { s with daemonState := s.daemonState.insert lastSeenKey moment }

def writeHealth (s : Store) (instanceName : Name) (record : HealthRecord) : Store :=
  { s with instanceHealth := s.instanceHealth.insert instanceName record }

def appendEvent (s : Store) (maxRows : Nat) (loggedAt : Time) (kind : EventKind)
    (instanceName ruleName : Option Name) (detail : String) : Store :=
  let identifier := s.eventLog.sequence + 1
  let rows := s.eventLog.rows ++ [⟨identifier, loggedAt, kind, instanceName, ruleName, detail⟩]
  { s with eventLog := ⟨rows.filter fun row => identifier - maxRows < row.identifier, identifier⟩ }

theorem writeLatch_ok {s t : Store} {ruleName : Name} {record : LatchRecord} :
    s.writeLatch ruleName record = .ok t ↔
      ruleName ∈ s.rules ∧ t = { s with latches := s.latches.insert ruleName record } := by
  unfold writeLatch
  split
  · rename_i known
    simp [known, eq_comm]
  · rename_i unknown
    simp [unknown]

theorem mem_pendingPushesDue {s : Store} {moment : Time} {row : Name × PendingPush} :
    row ∈ s.pendingPushesDue moment ↔
      s.pendingPush row.1 = some row.2 ∧ row.2.nextAttemptAt ≤ moment := by
  obtain ⟨name, push⟩ := row
  have stored : s.pendingPush name = some push ↔
      (⟨name, push⟩ : Sigma fun _ : Name => PendingPush) ∈ s.pendingPushes.entries :=
    AList.mem_lookup_iff
  simp only [pendingPushesDue, List.mem_insertionSort, List.mem_map, List.mem_filter,
    decide_eq_true_eq, Prod.mk.injEq, stored]
  constructor
  · rintro ⟨entry, ⟨member, due⟩, rfl, rfl⟩
    exact ⟨member, due⟩
  · rintro ⟨member, due⟩
    exact ⟨_, ⟨member, due⟩, rfl, rfl⟩

end Store

end NotiMapper
