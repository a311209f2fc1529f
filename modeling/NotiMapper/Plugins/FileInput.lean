import NotiMapper.Library.Keyed
import NotiMapper.Plugin

/-! The file watcher's catch-up. What it has reported is kept under a key for each
path; the text of a fingerprint, modification time to the microsecond and size, is
kept here as the pair of them. -/
namespace NotiMapper

/-- A path as the last poll saw it. -/
structure Observation where
  path : String
  modifiedAt : Time
  size : Nat
  deriving DecidableEq

structure Fingerprint where
  modifiedAt : Time
  size : Nat
  deriving DecidableEq

/-- What is stored under `seen.<path>`. -/
abbrev Seen := Table Fingerprint

/-- `render` is the one-line rendering of an event's metadata: path, size and cause. -/
structure FileInput where
  emitOnModify : Bool := true
  render : Observation → String → String

def Observation.fingerprint (observation : Observation) : Fingerprint :=
  ⟨observation.modifiedAt, observation.size⟩

namespace FileInput

def isNew (f : FileInput) (seen : Seen) (observation : Observation) : Bool :=
  match seen.lookup observation.path with
  | none => true
  | some stored => if !f.emitOnModify then false else stored != observation.fingerprint

def remember (seen : Seen) (observation : Observation) : Seen :=
  seen.insert observation.path observation.fingerprint

def eventFor (f : FileInput) (observation : Observation) (cause : String) : ObservedEvent :=
  ⟨observation.modifiedAt, f.render observation cause⟩

/-- One round of the loop in `catch_up`. -/
def catchUpOne (f : FileInput) (since : Option Time) (acc : List ObservedEvent × Seen)
    (observation : Observation) : List ObservedEvent × Seen :=
  let (events, seen) := acc
  if !f.isNew seen observation then (events, seen)
  else if since.any fun since => observation.modifiedAt < since then
    -- New, but older than the last run: remembered without an event.
    (events, remember seen observation)
  else (events ++ [f.eventFor observation "catch-up"], remember seen observation)

def catchUp (f : FileInput) (since : Option Time) (observed : List Observation) (seen : Seen) :
    List ObservedEvent × Seen :=
  observed.foldl (f.catchUpOne since) ([], seen)

variable {f : FileInput} {since : Option Time}

theorem isNew_congr {seen seen' : Seen} {o : Observation}
    (same : seen'.lookup o.path = seen.lookup o.path) : f.isNew seen' o = f.isNew seen o := by
  simp only [isNew, same]

theorem catchUpOne_lookup (acc : List ObservedEvent × Seen) (o : Observation) {path : String}
    (other : path ≠ o.path) :
    (f.catchUpOne since acc o).2.lookup path = acc.2.lookup path := by
  obtain ⟨events, seen⟩ := acc
  simp only [catchUpOne]
  split
  · rfl
  · split <;> exact AList.lookup_insert_ne other

theorem catchUpOne_events (acc : List ObservedEvent × Seen) (o : Observation) :
    acc.1 ⊆ (f.catchUpOne since acc o).1 := by
  obtain ⟨events, seen⟩ := acc
  simp only [catchUpOne]
  split
  · exact List.Subset.refl _
  · split
    · exact List.Subset.refl _
    · exact List.subset_append_left _ _

theorem catchUp_events (observed : List Observation) (acc : List ObservedEvent × Seen) :
    acc.1 ⊆ (observed.foldl (f.catchUpOne since) acc).1 := by
  induction observed generalizing acc with
  | nil => exact List.Subset.refl _
  | cons o observed ih => exact List.Subset.trans (catchUpOne_events acc o) (ih _)

theorem catchUp_foldl (observed : List Observation) (nodup : (observed.map (·.path)).Nodup)
    (acc : List ObservedEvent × Seen) {o : Observation} (member : o ∈ observed)
    (new : f.isNew acc.2 o = true) (late : ∀ t, since = some t → t ≤ o.modifiedAt) :
    f.eventFor o "catch-up" ∈ (observed.foldl (f.catchUpOne since) acc).1 := by
  induction observed generalizing acc with
  | nil => cases member
  | cons first observed ih =>
    rw [List.map_cons, List.nodup_cons] at nodup
    rw [List.foldl_cons]
    rcases List.mem_cons.mp member with rfl | member
    · apply catchUp_events observed
      have recent : (since.any fun since => o.modifiedAt < since) = false := by
        cases since with
        | none => rfl
        | some t => simpa using late t rfl
      obtain ⟨events, seen⟩ := acc
      have new : f.isNew seen o = true := new
      simp [catchUpOne, new, recent]
    · have other : o.path ≠ first.path := by
        intro same
        exact nodup.1 (same ▸ List.mem_map_of_mem member)
      refine ih nodup.2 _ member ?_
      rw [isNew_congr (catchUpOne_lookup acc first other)]
      exact new

/-- New, and not older than the last run. -/
def catches (f : FileInput) (since : Option Time) (seen : Seen) (o : Observation) : Bool :=
  f.isNew seen o && !since.any fun since => o.modifiedAt < since

def kept (acc : List ObservedEvent × Seen) (path : String) : Option Fingerprint :=
  acc.2.lookup path

theorem catchUpOne_seen (acc : List ObservedEvent × Seen) (o : Observation) :
    (f.catchUpOne since acc o).2 = if f.isNew acc.2 o then remember acc.2 o else acc.2 := by
  obtain ⟨events, seen⟩ := acc
  simp only [catchUpOne]
  cases f.isNew seen o with
  | false => rfl
  | true => cases older : since.any fun since => o.modifiedAt < since <;> simp

theorem catchUpOne_separate (f : FileInput) (since : Option Time) :
    Keyed.Separate (f.catchUpOne since) (·.path) kept where
  other acc o _ different := catchUpOne_lookup acc o different
  own acc other o same := by
    rw [kept, kept, catchUpOne_seen, catchUpOne_seen, isNew_congr same]
    split
    · rw [remember, remember, AList.lookup_insert, AList.lookup_insert]
    · exact same

theorem catchUp_emits {observed : List Observation} {seen : Seen}
    (nodup : (observed.map (·.path)).Nodup) : (f.catchUp since observed seen).1 =
      (observed.filter (f.catches since seen)).map (f.eventFor · "catch-up") := by
  refine (catchUpOne_separate f since).foldl_output Prod.fst (fun acc => f.catches since acc.2)
    (f.eventFor · "catch-up") ?_ ?_ nodup ([], seen)
  · intro acc other o same
    rw [catches, catches, isNew_congr same]
  · rintro ⟨events, seen⟩ o
    by_cases new : f.isNew seen o = true
    · cases older : since.any fun since => o.modifiedAt < since <;>
        simp [catchUpOne, catches, new, older]
    · simp [catchUpOne, catches, new]

theorem catchUp_seen {observed : List Observation} {seen : Seen} {o : Observation}
    (nodup : (observed.map (·.path)).Nodup) (member : o ∈ observed) :
    (f.catchUp since observed seen).2.lookup o.path =
      if f.isNew seen o then some o.fingerprint else seen.lookup o.path := by
  have own := (catchUpOne_separate f since).foldl_own nodup member ([], seen)
  rw [kept, kept, catchUpOne_seen] at own
  rw [catchUp, own]
  split
  · exact AList.lookup_insert _
  · rfl

/-- After a catch-up, nothing that it saw is new. -/
theorem catchUp_not_new {observed : List Observation} {seen : Seen} {o : Observation}
    (nodup : (observed.map (·.path)).Nodup) (member : o ∈ observed) :
    f.isNew (f.catchUp since observed seen).2 o = false := by
  have own : (f.catchUp since observed seen).2.lookup o.path = _ := catchUp_seen nodup member
  split at own
  · simp [isNew, own]
  · rename_i old
    rw [isNew_congr own]
    exact Bool.not_eq_true _ ▸ old

theorem catchUp_reports {observed : List Observation} {seen : Seen} {o : Observation}
    (nodup : (observed.map (·.path)).Nodup) (member : o ∈ observed)
    (new : f.isNew seen o = true) (late : ∀ t, since = some t → t ≤ o.modifiedAt) :
    f.eventFor o "catch-up" ∈ (f.catchUp since observed seen).1 :=
  catchUp_foldl observed nodup ([], seen) member new late

end FileInput

end NotiMapper
