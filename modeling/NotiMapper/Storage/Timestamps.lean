import Mathlib.Data.List.Induction
import Mathlib.Data.String.Basic
import NotiMapper.Library.IsoFormat
import NotiMapper.Storage

/-! The stored form of a timestamp, and the queries that compare it as text. -/
namespace NotiMapper

open Python

inductive TimestampError
  | valueError
  | overflowError
  deriving DecidableEq, Repr

/-- `moment.astimezone(datetime.UTC)`, of an aware datetime. -/
def astimezone (moment : Datetime) : Except TimestampError Datetime :=
  if fine : 0 ≤ moment.instant ∧ moment.instant < Datetime.limit then
    .ok (Datetime.utc moment.instant.toNat (by omega))
  else .error .overflowError

/-- Format a timestamp for storage: UTC, ISO 8601, microsecond resolution. -/
def toIso (moment : Datetime) : Except TimestampError String :=
  match moment.utcoffset with
  | none => .error .valueError
  | some _ => (astimezone moment).map isoformat

/-- Parse a timestamp written by `toIso`. -/
def fromIso (text : String) : Except TimestampError Datetime :=
  match fromisoformat text with
  | none => .error .valueError
  | some parsed =>
    match parsed.utcoffset with
    | none => .error .valueError
    | some _ => astimezone parsed

/-- The time of a `PendingPush` as the engine gives it. -/
structure PushRecord where
  targetValue : Bool
  attemptCount : Nat
  nextAttemptAt : Datetime
  lastError : Option String

/-- A row of `pending_pushes`. -/
structure PendingPushRow where
  targetValue : Bool
  attemptCount : Nat
  nextAttemptAt : String
  lastError : Option String

abbrev PendingPushRows := Table PendingPushRow

namespace PendingPushRows

def writePendingPush (rows : PendingPushRows) (instanceName : Name) (push : PushRecord) :
    Except TimestampError PendingPushRows := do
  let nextAttemptAt ← toIso push.nextAttemptAt
  return rows.insert instanceName
    ⟨push.targetValue, push.attemptCount, nextAttemptAt, push.lastError⟩

def deletePendingPush (rows : PendingPushRows) (instanceName : Name) : PendingPushRows :=
  rows.erase instanceName

/-- `_pending_push_from_row`. -/
def pendingPushFromRow (row : Name × PendingPushRow) :
    Except TimestampError (Name × PushRecord) := do
  let nextAttemptAt ← fromIso row.2.nextAttemptAt
  return (row.1, ⟨row.2.targetValue, row.2.attemptCount, nextAttemptAt, row.2.lastError⟩)

/-- `ORDER BY next_attempt_at, instance_name`. -/
def Ordered (a b : Name × PendingPushRow) : Prop :=
  a.2.nextAttemptAt < b.2.nextAttemptAt ∨ a.2.nextAttemptAt = b.2.nextAttemptAt ∧ a.1 ≤ b.1

instance : DecidableRel Ordered := fun _ _ => inferInstanceAs (Decidable (_ ∨ _))

def pendingPushesDue (rows : PendingPushRows) (moment : Datetime) :
    Except TimestampError (List (Name × PushRecord)) := do
  let bound ← toIso moment
  let selected := rows.entries.filter fun row => row.2.nextAttemptAt ≤ bound
  ((selected.map fun row => (row.1, row.2)).insertionSort Ordered).mapM pendingPushFromRow

def earliestPendingAttempt (rows : PendingPushRows) : Except TimestampError (Option Datetime) :=
  match (rows.entries.map (·.2.nextAttemptAt)).min? with
  | none => return none
  | some soonest => do return some (← fromIso soonest)

end PendingPushRows

/-- Aware, and within the years 1 to 9999 in UTC. -/
structure Representable (moment : Datetime) : Prop where
  aware : moment.utcoffset ≠ none
  early : 0 ≤ moment.instant
  late : moment.instant < Datetime.limit

instance (moment : Datetime) : Decidable (Representable moment) :=
  decidable_of_iff (moment.utcoffset ≠ none ∧ 0 ≤ moment.instant ∧ moment.instant < Datetime.limit)
    ⟨fun both => ⟨both.1, both.2.1, both.2.2⟩, fun fine => ⟨fine.aware, fine.early, fine.late⟩⟩

/- A timestamp and its text. -/

theorem Representable.toNat_lt {moment : Datetime} (fine : Representable moment) :
    moment.instant.toNat < Datetime.limit := by
  have early := fine.early
  have late := fine.late
  omega

/-- The same instant in UTC. -/
def inUtc (moment : Datetime) (fine : Representable moment) : Datetime :=
  Datetime.utc moment.instant.toNat fine.toNat_lt

theorem utcoffset_inUtc {moment : Datetime} (fine : Representable moment) :
    (inUtc moment fine).utcoffset = some Offset.utc := rfl

theorem instant_inUtc {moment : Datetime} (fine : Representable moment) :
    (inUtc moment fine).instant = moment.instant := by
  rw [inUtc, Datetime.instant_utc, Int.toNat_of_nonneg fine.early]

theorem localMicros_inUtc {moment : Datetime} (fine : Representable moment) :
    (inUtc moment fine).localMicros = moment.instant := by
  rw [inUtc, Datetime.localMicros_utc, Int.toNat_of_nonneg fine.early]

theorem astimezone_representable {moment : Datetime} (fine : Representable moment) :
    astimezone moment = .ok (inUtc moment fine) := dif_pos ⟨fine.early, fine.late⟩

theorem toIso_representable {moment : Datetime} (fine : Representable moment) :
    toIso moment = .ok (isoformat (inUtc moment fine)) := by
  unfold toIso
  split
  · rename_i naive
    exact absurd naive fine.aware
  · rw [astimezone_representable fine]
    rfl

theorem toIso_ok {moment : Datetime} {text : String} :
    toIso moment = .ok text ↔ ∃ fine : Representable moment, text = isoformat (inUtc moment fine) := by
  constructor
  · intro written
    by_cases fine : Representable moment
    · refine ⟨fine, ?_⟩
      rw [toIso_representable fine] at written
      cases written
      rfl
    · unfold toIso at written
      split at written
      · cases written
      · rename_i offset known
        have aware : moment.utcoffset ≠ none := by
          rw [known]
          exact Option.some_ne_none _
        have beyond : ¬ (0 ≤ moment.instant ∧ moment.instant < Datetime.limit) :=
          fun both => fine ⟨aware, both.1, both.2⟩
        rw [astimezone, dif_neg beyond] at written
        cases written
  · rintro ⟨fine, rfl⟩
    exact toIso_representable fine

theorem representable_utc {micros : Nat} (small : micros < Datetime.limit) :
    Representable (Datetime.utc micros small) := by
  refine ⟨Option.some_ne_none _, ?_, ?_⟩
  · rw [Datetime.instant_utc]
    exact Int.natCast_nonneg micros
  · rw [Datetime.instant_utc]
    exact Int.ofNat_lt.mpr small

theorem inUtc_inUtc {moment : Datetime} (fine : Representable moment) :
    inUtc (inUtc moment fine) (representable_utc fine.toNat_lt) = inUtc moment fine := by
  unfold inUtc
  simp only [Datetime.instant_utc, Int.toNat_natCast]

theorem fromIso_isoformat {moment : Datetime} (fine : Representable moment) :
    fromIso (isoformat (inUtc moment fine)) = .ok (inUtc moment fine) := by
  have universal : Representable (inUtc moment fine) := representable_utc fine.toNat_lt
  rw [fromIso, fromisoformat_isoformat]
  simp only [utcoffset_inUtc]
  rw [astimezone_representable universal, inUtc_inUtc fine]

theorem isoformat_lt_iff {a b : Datetime} (fine : Representable a) (fine' : Representable b) :
    isoformat (inUtc a fine) < isoformat (inUtc b fine') ↔ a.instant < b.instant := by
  have offsets := (utcoffset_inUtc fine).trans (utcoffset_inUtc fine').symm
  rw [isoformat_lt offsets, ← localMicros_inUtc fine, ← localMicros_inUtc fine', Int.ofNat_lt]

theorem isoformat_le_iff {a b : Datetime} (fine : Representable a) (fine' : Representable b) :
    isoformat (inUtc a fine) ≤ isoformat (inUtc b fine') ↔ a.instant ≤ b.instant := by
  rw [← not_lt, isoformat_lt_iff, not_lt]

theorem isoformat_eq_iff {a b : Datetime} (fine : Representable a) (fine' : Representable b) :
    isoformat (inUtc a fine) = isoformat (inUtc b fine') ↔ a.instant = b.instant := by
  rw [le_antisymm_iff, isoformat_le_iff, isoformat_le_iff, ← le_antisymm_iff]

/- A table whose times were written. -/

inductive PushWrite
  | write (instanceName : Name) (push : PushRecord)
  | delete (instanceName : Name)

namespace PendingPushRows

/-- A write that raises leaves the table as it was. -/
def apply (rows : PendingPushRows) : PushWrite → PendingPushRows
  | .write instanceName push =>
    match rows.writePendingPush instanceName push with
    | .ok written => written
    | .error _ => rows
  | .delete instanceName => rows.deletePendingPush instanceName

def after (writes : List PushWrite) : PendingPushRows := writes.foldl apply ∅

end PendingPushRows

/-- The last record of an instance to be written, if it was not deleted since. -/
def lastWritten (instanceName : Name) (writes : List PushWrite) : Option PushRecord :=
  writes.foldl (fun last write =>
    match write with
    | .write name push =>
      if name = instanceName ∧ Representable push.nextAttemptAt then some push else last
    | .delete name => if name = instanceName then none else last) none

def rowOf (push : PushRecord) (fine : Representable push.nextAttemptAt) : PendingPushRow :=
  ⟨push.targetValue, push.attemptCount, isoformat (inUtc push.nextAttemptAt fine), push.lastError⟩

/-- The record that a row is read as. -/
def readBack (push : PushRecord) (fine : Representable push.nextAttemptAt) : PushRecord :=
  { push with nextAttemptAt := inUtc push.nextAttemptAt fine }

theorem lastWritten_append (instanceName : Name) (writes : List PushWrite) (last : PushWrite) :
    lastWritten instanceName (writes ++ [last]) =
      match last with
      | .write name push =>
        if name = instanceName ∧ Representable push.nextAttemptAt then some push
        else lastWritten instanceName writes
      | .delete name => if name = instanceName then none else lastWritten instanceName writes := by
  rw [lastWritten, List.foldl_append]
  rfl

theorem lastWritten_representable {instanceName : Name} {writes : List PushWrite}
    {push : PushRecord} (last : lastWritten instanceName writes = some push) :
    Representable push.nextAttemptAt := by
  induction writes using List.reverseRecOn with
  | nil => cases last
  | append_singleton writes write ih =>
    rw [lastWritten_append] at last
    cases write with
    | delete name =>
      simp only at last
      split at last
      · cases last
      · exact ih last
    | write name record =>
      simp only at last
      split at last
      · rename_i written
        cases last
        exact written.2
      · exact ih last

namespace PendingPushRows

theorem apply_write {rows : PendingPushRows} {instanceName : Name} {push : PushRecord}
    (fine : Representable push.nextAttemptAt) :
    rows.apply (.write instanceName push) = rows.insert instanceName (rowOf push fine) := by
  rw [apply, writePendingPush, toIso_representable fine]
  rfl

theorem apply_refused {rows : PendingPushRows} {instanceName : Name} {push : PushRecord}
    (bad : ¬ Representable push.nextAttemptAt) : rows.apply (.write instanceName push) = rows := by
  rw [apply, writePendingPush]
  cases written : toIso push.nextAttemptAt with
  | error raised => rfl
  | ok text => exact absurd (toIso_ok.mp written).1 bad

/-- The table has the rows of what was last written. -/
theorem lookup_after (writes : List PushWrite) (instanceName : Name) (row : PendingPushRow) :
    (after writes).lookup instanceName = some row ↔
      ∃ push fine, lastWritten instanceName writes = some push ∧ row = rowOf push fine := by
  induction writes using List.reverseRecOn with
  | nil =>
    refine iff_of_false (fun absent => by cases absent) ?_
    rintro ⟨_, _, absent, _⟩
    cases absent
  | append_singleton writes last ih =>
    rw [after, List.foldl_append, lastWritten_append]
    change (apply (after writes) last).lookup instanceName = some row ↔ _
    cases last with
    | delete name =>
      simp only [apply, deletePendingPush]
      by_cases same : name = instanceName
      · subst same
        simp
      · rw [AList.lookup_erase_ne (Ne.symm same), ih]
        simp only [if_neg same]
    | write name push =>
      by_cases fine : Representable push.nextAttemptAt
      · rw [apply_write fine]
        by_cases same : name = instanceName
        · subst same
          rw [AList.lookup_insert]
          simp only [fine, and_self, if_true, Option.some.injEq]
          constructor
          · rintro rfl
            exact ⟨push, fine, rfl, rfl⟩
          · rintro ⟨_, _, rfl, rfl⟩
            rfl
        · rw [AList.lookup_insert_ne (Ne.symm same), ih]
          simp only [same, false_and, if_false]
      · rw [apply_refused fine, ih]
        simp only [fine, and_false, if_false]

theorem pendingPushFromRow_rowOf (instanceName : Name) {push : PushRecord}
    (fine : Representable push.nextAttemptAt) :
    pendingPushFromRow (instanceName, rowOf push fine) = .ok (instanceName, readBack push fine) := by
  rw [pendingPushFromRow, rowOf, fromIso_isoformat fine]
  rfl

instance : Std.Total Ordered := ⟨fun a b => by
  rcases lt_trichotomy a.2.nextAttemptAt b.2.nextAttemptAt with earlier | same | later
  · exact .inl (.inl earlier)
  · exact (le_total a.1 b.1).imp (fun le => .inr ⟨same, le⟩) (fun le => .inr ⟨same.symm, le⟩)
  · exact .inr (.inl later)⟩

instance : IsTrans _ Ordered := ⟨fun a b c first second => by
  rcases first with earlier | ⟨same, le⟩
  · rcases second with later | ⟨same, _⟩
    · exact .inl (earlier.trans later)
    · exact .inl (same ▸ earlier)
  · rcases second with later | ⟨also, le'⟩
    · exact .inl (same ▸ later)
    · exact .inr ⟨same.trans also, le.trans le'⟩⟩

end PendingPushRows

theorem mapM_eq_ok {α β ε : Type} {f : α → Except ε β} {as : List α} {bs : List β} :
    as.mapM f = .ok bs ↔ as.map f = bs.map .ok := by
  induction as generalizing bs with
  | nil => cases bs <;> simp [pure, Except.pure]
  | cons a as ih =>
    rw [List.mapM_cons, List.map_cons]
    cases first : f a with
    | error raised => cases bs <;> simp [bind, Except.bind]
    | ok b =>
      cases bs with
      | nil => cases rest : as.mapM f <;> simp [bind, Except.bind, pure, Except.pure]
      | cons c bs =>
        rw [List.map_cons, List.cons.injEq, ← ih]
        cases rest : as.mapM f <;> simp [bind, Except.bind, pure, Except.pure]

section

variable {α β ε : Type} {f : α → Except ε β}

/-- A loop that cannot raise. -/
theorem mapM_returns (rows : List α) (each : ∀ a ∈ rows, ∃ b, f a = .ok b) :
    ∃ bs : List β, rows.map f = bs.map .ok := by
  induction rows with
  | nil => exact ⟨[], rfl⟩
  | cons a rows ih =>
    obtain ⟨⟨b, first⟩, later⟩ := List.forall_mem_cons.mp each
    obtain ⟨bs, rest⟩ := ih later
    exact ⟨b :: bs, by rw [List.map_cons, List.map_cons, first, rest]⟩

variable {as : List α} {bs : List β}

theorem mem_read (read : as.map f = bs.map .ok) (b : β) : b ∈ bs ↔ ∃ a ∈ as, f a = .ok b := by
  rw [← List.mem_map, read, List.mem_map]
  constructor
  · exact fun member => ⟨b, member, rfl⟩
  · rintro ⟨_, member, same⟩
    cases same
    exact member

theorem pairwise_read {R : α → α → Prop} {S : β → β → Prop} (read : as.map f = bs.map .ok)
    (sorted : as.Pairwise R)
    (carry : ∀ a ∈ as, ∀ a' ∈ as, ∀ b b', f a = .ok b → f a' = .ok b' → R a a' → S b b') :
    bs.Pairwise S := by
  have lifted : (bs.map (Except.ok (ε := ε))).Pairwise
      fun x y => ∀ b b', x = .ok b → y = .ok b' → S b b' := by
    rw [← read, List.pairwise_map]
    refine sorted.imp_of_mem ?_
    intro a a' there there' related b b' here here'
    exact carry a there a' there' b b' here here' related
  exact (List.pairwise_map.mp lifted).imp fun related => related _ _ rfl rfl

end

namespace PendingPushRows

theorem mem_entries {rows : PendingPushRows} {row : Name × PendingPushRow} :
    row ∈ rows.entries.map (fun entry => (entry.1, entry.2)) ↔ rows.lookup row.1 = some row.2 := by
  obtain ⟨name, content⟩ := row
  rw [← Option.mem_def, AList.mem_lookup_iff, List.mem_map]
  constructor
  · rintro ⟨⟨_, _⟩, member, same⟩
    cases same
    exact member
  · exact fun member => ⟨_, member, rfl⟩

/-- What the query selects, in its order. -/
def selected (rows : PendingPushRows) (bound : String) : List (Name × PendingPushRow) :=
  ((rows.entries.filter fun row => row.2.nextAttemptAt ≤ bound).map
    fun row => (row.1, row.2)).insertionSort Ordered

theorem mem_selected {rows : PendingPushRows} {bound : String} {row : Name × PendingPushRow} :
    row ∈ rows.selected bound ↔ rows.lookup row.1 = some row.2 ∧ row.2.nextAttemptAt ≤ bound := by
  rw [← mem_entries]
  simp only [selected, List.mem_insertionSort, List.mem_map, List.mem_filter, decide_eq_true_eq]
  constructor
  · rintro ⟨entry, ⟨member, due⟩, rfl⟩
    exact ⟨⟨entry, member, rfl⟩, due⟩
  · rintro ⟨⟨entry, member, rfl⟩, due⟩
    exact ⟨entry, ⟨member, due⟩, rfl⟩

theorem selected_names (rows : PendingPushRows) (bound : String) :
    ((rows.selected bound).map (·.1)).Nodup := by
  have kept : ((rows.entries.filter fun row => row.2.nextAttemptAt ≤ bound).map (·.1)).Nodup :=
    (List.Sublist.map _ List.filter_sublist).nodup rows.nodupKeys
  refine ((List.perm_insertionSort _ _).map _).nodup_iff.mpr ?_
  rw [List.map_map]
  exact kept

theorem due_spec (writes : List PushWrite) {moment : Datetime} (fine : Representable moment) :
    ∃ due, (after writes).pendingPushesDue moment = .ok due ∧
      (due.map (·.1)).Nodup ∧
      (∀ name push, (name, push) ∈ due ↔ ∃ written fine, lastWritten name writes = some written ∧
        written.nextAttemptAt.instant ≤ moment.instant ∧ push = readBack written fine) ∧
      due.Pairwise fun a b => a.2.nextAttemptAt.instant ≤ b.2.nextAttemptAt.instant := by
  have member (row : Name × PendingPushRow) :
      row ∈ (after writes).selected (isoformat (inUtc moment fine)) ↔
        ∃ push good, lastWritten row.1 writes = some push ∧ row.2 = rowOf push good ∧
          push.nextAttemptAt.instant ≤ moment.instant := by
    rw [mem_selected, lookup_after]
    constructor
    · rintro ⟨⟨push, good, last, same⟩, due⟩
      rw [same] at due
      exact ⟨push, good, last, same, (isoformat_le_iff good fine).mp due⟩
    · rintro ⟨push, good, last, same, due⟩
      refine ⟨⟨push, good, last, same⟩, ?_⟩
      rw [same]
      exact (isoformat_le_iff good fine).mpr due
  have decoded : ∀ row ∈ (after writes).selected (isoformat (inUtc moment fine)),
      ∃ push good, lastWritten row.1 writes = some push ∧ row.2 = rowOf push good ∧
        push.nextAttemptAt.instant ≤ moment.instant ∧
          pendingPushFromRow row = .ok (row.1, readBack push good) := by
    rintro ⟨name, content⟩ there
    obtain ⟨push, good, last, rfl, due⟩ := (member _).mp there
    exact ⟨push, good, last, rfl, due, pendingPushFromRow_rowOf name good⟩
  obtain ⟨due, read⟩ := mapM_returns _ fun row there => by
    obtain ⟨push, good, _, _, _, returned⟩ := decoded row there
    exact ⟨_, returned⟩
  refine ⟨due, ?_, ?_, ?_, ?_⟩
  · rw [pendingPushesDue, toIso_representable fine]
    exact mapM_eq_ok.mpr read
  · refine List.pairwise_map.mpr (pairwise_read read
      (List.pairwise_map.mp (selected_names _ _)) ?_)
    intro row there row' there' record record' returned returned' apart
    obtain ⟨_, _, _, _, _, known⟩ := decoded row there
    obtain ⟨_, _, _, _, _, known'⟩ := decoded row' there'
    cases known.symm.trans returned
    cases known'.symm.trans returned'
    exact apart
  · intro name record
    rw [mem_read read]
    constructor
    · rintro ⟨row, there, returned⟩
      obtain ⟨push, good, last, _, due, known⟩ := decoded row there
      cases known.symm.trans returned
      exact ⟨push, good, last, due, rfl⟩
    · rintro ⟨push, good, last, due, rfl⟩
      exact ⟨(name, rowOf push good), (member _).mpr ⟨push, good, last, rfl, due⟩,
        pendingPushFromRow_rowOf name good⟩
  · refine pairwise_read read (List.pairwise_insertionSort Ordered _) ?_
    intro row there row' there' record record' returned returned' before
    obtain ⟨push, good, _, same, _, known⟩ := decoded row there
    obtain ⟨push', good', _, same', _, known'⟩ := decoded row' there'
    cases known.symm.trans returned
    cases known'.symm.trans returned'
    have text : row.2.nextAttemptAt ≤ row'.2.nextAttemptAt :=
      before.elim le_of_lt fun both => le_of_eq both.1
    rw [same, same'] at text
    change (inUtc _ good).instant ≤ (inUtc _ good').instant
    rw [instant_inUtc, instant_inUtc]
    exact (isoformat_le_iff good good').mp text

theorem earliest_spec (writes : List PushWrite) :
    ∃ soonest, (after writes).earliestPendingAttempt = .ok soonest ∧
      (soonest = none ↔ ∀ name, lastWritten name writes = none) ∧
      ∀ first, soonest = some first →
        (∃ name written, lastWritten name writes = some written ∧
          written.nextAttemptAt.instant = first.instant) ∧
        ∀ name written, lastWritten name writes = some written →
          first.instant ≤ written.nextAttemptAt.instant := by
  have text (name : Name) (push : PushRecord) (last : lastWritten name writes = some push) :
      ∃ good, isoformat (inUtc push.nextAttemptAt good) ∈
        (after writes).entries.map (·.2.nextAttemptAt) := by
    have good := lastWritten_representable last
    have held := (lookup_after writes name (rowOf push good)).mpr ⟨push, good, last, rfl⟩
    exact ⟨good, List.mem_map_of_mem (AList.mem_lookup_iff.mp held)⟩
  unfold earliestPendingAttempt
  cases least : ((after writes).entries.map (·.2.nextAttemptAt)).min? with
  | none =>
    refine ⟨none, rfl, iff_of_true rfl fun name => ?_, fun _ absent => by cases absent⟩
    cases last : lastWritten name writes with
    | none => rfl
    | some push =>
      obtain ⟨good, member⟩ := text name push last
      rw [List.min?_eq_none_iff.mp least] at member
      cases member
  | some soonest =>
    obtain ⟨member, minimal⟩ := List.min?_eq_some_iff.mp least
    obtain ⟨⟨name, row⟩, there, same⟩ := List.mem_map.mp member
    have held : (after writes).lookup name = some row := AList.mem_lookup_iff.mpr there
    obtain ⟨push, good, last, rfl⟩ := (lookup_after writes name row).mp held
    cases same
    refine ⟨some (inUtc push.nextAttemptAt good), ?_, ?_, ?_⟩
    · simp only [rowOf, fromIso_isoformat good]
      rfl
    · refine iff_of_false (Option.some_ne_none _) fun none => ?_
      cases last.symm.trans (none name)
    · rintro _ ⟨⟩
      rw [instant_inUtc]
      refine ⟨⟨name, push, last, rfl⟩, fun other written last' => ?_⟩
      obtain ⟨good', member'⟩ := text other written last'
      exact (isoformat_le_iff good good').mp (minimal _ member')

end PendingPushRows

/-- Stored timestamps sort as text as they do in time, and are read back as they were; so a
query by the text is one by the time. -/
theorem text_order_is_time_order :
    (∀ a b, Representable a → Representable b → ∃ text other, toIso a = .ok text ∧
      toIso b = .ok other ∧ (text ≤ other ↔ a.instant ≤ b.instant)) ∧
    (∀ a, Representable a → ∃ text back, toIso a = .ok text ∧ fromIso text = .ok back ∧
      back.instant = a.instant ∧ toIso back = .ok text) ∧
    (∀ writes moment, Representable moment →
      ∃ due, (PendingPushRows.after writes).pendingPushesDue moment = .ok due ∧
        (due.map (·.1)).Nodup ∧
        (∀ name push, (name, push) ∈ due ↔ ∃ written fine, lastWritten name writes = some written ∧
          written.nextAttemptAt.instant ≤ moment.instant ∧ push = readBack written fine) ∧
        due.Pairwise fun a b => a.2.nextAttemptAt.instant ≤ b.2.nextAttemptAt.instant) ∧
    ∀ writes, ∃ soonest, (PendingPushRows.after writes).earliestPendingAttempt = .ok soonest ∧
      (soonest = none ↔ ∀ name, lastWritten name writes = none) ∧
      ∀ first, soonest = some first →
        (∃ name written, lastWritten name writes = some written ∧
          written.nextAttemptAt.instant = first.instant) ∧
        ∀ name written, lastWritten name writes = some written →
          first.instant ≤ written.nextAttemptAt.instant := by
  refine ⟨?_, ?_, fun writes moment fine => PendingPushRows.due_spec writes fine,
    PendingPushRows.earliest_spec⟩
  · intro a b fine fine'
    exact ⟨_, _, toIso_representable fine, toIso_representable fine', isoformat_le_iff fine fine'⟩
  · intro a fine
    have universal : Representable (inUtc a fine) := representable_utc fine.toNat_lt
    refine ⟨_, _, toIso_representable fine, fromIso_isoformat fine, instant_inUtc fine, ?_⟩
    rw [toIso_representable universal, inUtc_inUtc]

end NotiMapper
