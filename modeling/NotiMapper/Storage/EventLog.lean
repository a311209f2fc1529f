import Mathlib.Data.Finset.Card
import Mathlib.Order.Interval.Finset.Nat
import NotiMapper.Storage

/-! The rolling event log under appends, whose caps may differ, and deletions from outside.
Trimming goes by the identifiers, which only grow. -/
namespace NotiMapper

/-- What an append writes. -/
structure LogContent where
  loggedAt : Time
  kind : EventKind
  instanceName : Option Name
  ruleName : Option Name
  detail : String

def EventLogEntry.content (row : EventLogEntry) : LogContent :=
  ⟨row.loggedAt, row.kind, row.instanceName, row.ruleName, row.detail⟩

def LogContent.entry (content : LogContent) (identifier : Nat) : EventLogEntry :=
  ⟨identifier, content.loggedAt, content.kind, content.instanceName, content.ruleName,
    content.detail⟩

namespace Store

def append (cap : Nat) (s : Store) (content : LogContent) : Store :=
  s.appendEvent cap content.loggedAt content.kind content.instanceName content.ruleName
    content.detail

/-- `DELETE FROM event_log`, of the rows that are not kept. -/
def deleteEvents (keep : EventLogEntry → Bool) (s : Store) : Store :=
  { s with eventLog := ⟨s.eventLog.rows.filter keep, s.eventLog.sequence⟩ }

/-- A transaction that is rolled back leaves the log as it was, counter and all. -/
inductive LogStep
  | append (cap : Nat) (content : LogContent)
  | delete (keep : EventLogEntry → Bool)

def LogStep.perform (s : Store) : LogStep → Store
  | .append cap content => s.append cap content
  | .delete keep => s.deleteEvents keep

/-- The rows are in the order of their identifiers, which the counter has passed. -/
structure Numbered (log : EventLog) : Prop where
  growing : (log.rows.map (·.identifier)).Pairwise (· < ·)
  counted : ∀ row ∈ log.rows, row.identifier ≤ log.sequence

/-- What an append with a cap does to the log. -/
structure Rolled (cap : Nat) (content : LogContent) (before after : EventLog) : Prop where
  bounded : after.rows.length ≤ cap
  newest : ∃ row ∈ after.rows, row.content = content ∧
    ∀ other ∈ before.rows, other.identifier < row.identifier
  kept : ∀ row ∈ after.rows, row ∈ before.rows ∨ row.content = content
  oldestFirst : ∀ dropped ∈ before.rows, dropped ∉ after.rows →
    ∀ row ∈ after.rows, dropped.identifier < row.identifier

theorem mem_append {cap : Nat} {s : Store} {content : LogContent} {row : EventLogEntry} :
    row ∈ (s.append cap content).eventLog.rows ↔
      (row ∈ s.eventLog.rows ∨ row = content.entry (s.eventLog.sequence + 1)) ∧
        s.eventLog.sequence + 1 - cap < row.identifier := by
  simp only [append, appendEvent, List.mem_filter, List.mem_append, List.mem_singleton,
    decide_eq_true_eq, LogContent.entry]

theorem numbered_delete {s : Store} (numbered : Numbered s.eventLog) (keep : EventLogEntry → Bool) :
    Numbered (s.deleteEvents keep).eventLog where
  growing := numbered.growing.sublist (List.filter_sublist.map _)
  counted row member := numbered.counted row (List.mem_of_mem_filter member)

theorem numbered_append {s : Store} (numbered : Numbered s.eventLog) (cap : Nat)
    (content : LogContent) : Numbered (s.append cap content).eventLog where
  growing := by
    refine List.Pairwise.sublist (List.filter_sublist.map _) ?_
    rw [List.map_append, List.pairwise_append]
    refine ⟨numbered.growing, List.pairwise_singleton _ _, ?_⟩
    intro identifier among last final
    obtain ⟨row, member, rfl⟩ := List.mem_map.mp among
    rw [List.map_singleton, List.mem_singleton] at final
    exact final ▸ Nat.lt_succ_of_le (numbered.counted row member)
  counted row member := by
    rcases (mem_append.mp member).1 with old | rfl
    · exact Nat.le_succ_of_le (numbered.counted row old)
    · exact le_refl _

theorem numbered_run (steps : List LogStep) {s : Store} (numbered : Numbered s.eventLog) :
    Numbered (steps.foldl LogStep.perform s).eventLog := by
  induction steps generalizing s with
  | nil => exact numbered
  | cons step steps ih =>
    cases step with
    | append cap content => exact ih (numbered_append numbered cap content)
    | delete keep => exact ih (numbered_delete numbered keep)

theorem numbered_empty : Numbered Store.empty.eventLog :=
  ⟨List.Pairwise.nil, fun _ member => absurd member List.not_mem_nil⟩

theorem length_le_of_growing {identifiers : List Nat} {low high : Nat}
    (growing : identifiers.Pairwise (· < ·)) (within : ∀ n ∈ identifiers, low < n ∧ n ≤ high) :
    identifiers.length ≤ high - low := by
  have distinct : identifiers.Nodup := growing.imp fun less => Nat.ne_of_lt less
  calc
    identifiers.length = identifiers.toFinset.card := (List.toFinset_card_of_nodup distinct).symm
    _ ≤ (Finset.Ioc low high).card := by
      refine Finset.card_le_card fun n member => ?_
      exact Finset.mem_Ioc.mpr (within n (List.mem_toFinset.mp member))
    _ = high - low := Nat.card_Ioc low high

theorem append_rolled {s : Store} (numbered : Numbered s.eventLog) {cap : Nat}
    (positive : 0 < cap) (content : LogContent) :
    Rolled cap content s.eventLog (s.append cap content).eventLog := by
  have after := numbered_append numbered cap content
  refine ⟨?_, ?_, ?_, ?_⟩
  · rw [← List.length_map (·.identifier)]
    calc
      _ ≤ s.eventLog.sequence + 1 - (s.eventLog.sequence + 1 - cap) := by
        refine length_le_of_growing after.growing fun n member => ?_
        obtain ⟨row, among, rfl⟩ := List.mem_map.mp member
        exact ⟨(mem_append.mp among).2, after.counted row among⟩
      _ ≤ cap := by omega
  · refine ⟨content.entry (s.eventLog.sequence + 1), mem_append.mpr ⟨.inr rfl, ?_⟩, rfl, ?_⟩
    · simp only [LogContent.entry]
      omega
    · exact fun other member => Nat.lt_succ_of_le (numbered.counted other member)
  · intro row member
    rcases (mem_append.mp member).1 with old | rfl
    · exact .inl old
    · exact .inr rfl
  · intro dropped before gone row member
    have late := (mem_append.mp member).2
    have early : ¬ s.eventLog.sequence + 1 - cap < dropped.identifier :=
      fun recent => gone (mem_append.mpr ⟨.inl before, recent⟩)
    omega

/- One cap, and no deletions. -/

/-- Entries with the identifiers that follow `start`. -/
def numberedFrom : Nat → List LogContent → List EventLogEntry
  | _, [] => []
  | start, content :: contents => content.entry (start + 1) :: numberedFrom (start + 1) contents

theorem numberedFrom_snoc (start : Nat) (contents : List LogContent) (content : LogContent) :
    numberedFrom start (contents ++ [content]) =
      numberedFrom start contents ++ [content.entry (start + contents.length + 1)] := by
  induction contents generalizing start with
  | nil => rfl
  | cons first contents ih =>
    rw [List.cons_append, numberedFrom, ih, numberedFrom, List.cons_append, List.length_cons]
    congr 4
    omega

theorem filter_numberedFrom (bound start : Nat) (contents : List LogContent) :
    (numberedFrom start contents).filter (fun row => bound < row.identifier) =
      (numberedFrom start contents).drop (bound - start) := by
  induction contents generalizing start with
  | nil => simp [numberedFrom]
  | cons content contents ih =>
    rw [numberedFrom, List.filter_cons, ih]
    by_cases recent : bound < start + 1
    · have all : bound - start = 0 ∧ bound - (start + 1) = 0 := by omega
      simp [LogContent.entry, recent, all]
    · have one : bound - start = bound - (start + 1) + 1 := by omega
      simp [LogContent.entry, recent, one]

theorem content_numberedFrom (start : Nat) (contents : List LogContent) :
    (numberedFrom start contents).map (·.content) = contents := by
  induction contents generalizing start with
  | nil => rfl
  | cons content contents ih => rw [numberedFrom, List.map_cons, ih]; rfl

theorem appended_log (cap : Nat) (contents : List LogContent) :
    (contents.foldl (append cap) Store.empty).eventLog =
      ⟨(numberedFrom 0 contents).filter (fun row => contents.length - cap < row.identifier),
        contents.length⟩ := by
  induction contents using List.reverseRecOn with
  | nil => rfl
  | append_singleton contents content ih =>
    rw [List.foldl_append, List.foldl_cons, List.foldl_nil]
    generalize contents.foldl (append cap) Store.empty = s at ih ⊢
    simp only [append, appendEvent, ih, numberedFrom_snoc, List.length_append, List.length_singleton,
      List.filter_append, List.filter_filter, Nat.zero_add]
    congr 2
    apply List.filter_congr
    intro row _
    simp only [Bool.and_eq_left_iff_imp, decide_eq_true_eq]
    omega

/-- The last entries, as many as the cap allows. -/
theorem appended_contents (cap : Nat) (contents : List LogContent) :
    (contents.foldl (append cap) Store.empty).eventLog.rows.map (·.content) =
      contents.drop (contents.length - cap) := by
  rw [appended_log]
  simp only [filter_numberedFrom, List.map_drop, content_numberedFrom, Nat.sub_zero]

end Store

end NotiMapper
