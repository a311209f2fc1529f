import NotiMapper.Library.Effect
import NotiMapper.Library.Keyed
import NotiMapper.Library.Transition
import NotiMapper.Plugins.FileInput

/-! The polling loop of the file input, and its stops and restarts. A path is reported once
it has been quiet for the debounce period, and only then remembered; what is quiet so far
is kept in memory. A stop forgets it, and stores a time before which the next catch-up
takes every file for history. -/
namespace NotiMapper

open Python Transition

/-- The settings that polling reads besides. -/
structure FilePoller extends FileInput where
  debounceSeconds : PyFloat := .finite 2

/-- What is stored, and for each path that is not quiet yet how it was seen (`_pending`)
and since when (`_quiet_since`). -/
structure Polling where
  seen : Seen := ∅
  pending : Table (Observation × Time) := ∅
  emitted : List ObservedEvent := []

def Polling.forgetPending (p : Polling) (path : String) : Polling :=
  { p with pending := p.pending.erase path }

namespace FilePoller

variable (f : FilePoller)

/-- `now - self._quiet_since[path] < self._debounce_seconds`. -/
def early (quietSince now : Time) : Bool :=
  (PyFloat.finite ((now - quietSince : Nat) / 1000000)).lt f.debounceSeconds

/-- One round of the loop in `poll_once`. -/
def pollOne (now : Time) (p : Polling) (observation : Observation) : Polling :=
  if !f.isNew p.seen observation then p.forgetPending observation.path
  else
    match p.pending.lookup observation.path with
    | none => { p with pending := p.pending.insert observation.path (observation, now) }
    | some (previous, quietSince) =>
      if previous ≠ observation then
        -- Still changing: the quiet period starts again.
        { p with pending := p.pending.insert observation.path (observation, now) }
      else if f.early quietSince now then p
      else
        { p with
          emitted := p.emitted ++ [f.eventFor observation "watch"]
          seen := FileInput.remember p.seen observation }.forgetPending observation.path

def pollOnce (now : Time) (observed : List Observation) (p : Polling) : Polling :=
  let passed := observed.foldl (f.pollOne now) p
  (passed.pending.keys.filter (· ∉ observed.map (·.path))).foldl Polling.forgetPending passed

variable {f} {now : Time} {p : Polling} {o : Observation}

def held (p : Polling) (path : String) : Option Fingerprint × Option (Observation × Time) :=
  (p.seen.lookup path, p.pending.lookup path)

/-- The path is new, and has been quiet for long enough. -/
def fires (f : FilePoller) (now : Time) (p : Polling) (o : Observation) : Bool :=
  f.isNew p.seen o && (p.pending.lookup o.path).any fun waiting =>
    waiting.1 = o && !f.early waiting.2 now

theorem fires_congr {p q : Polling} (same : held p o.path = held q o.path) :
    f.fires now p o = f.fires now q o := by
  have seen : p.seen.lookup o.path = q.seen.lookup o.path := congrArg Prod.fst same
  have pending : p.pending.lookup o.path = q.pending.lookup o.path := congrArg Prod.snd same
  simp only [fires, FileInput.isNew_congr seen, pending]

theorem remembered_not_new (f : FileInput) (seen : Seen) (o : Observation) :
    f.isNew (FileInput.remember seen o) o = false := by
  simp [FileInput.isNew, FileInput.remember]

/-- A path is remembered when it is reported, and only then. -/
theorem pollOne_fires (f : FilePoller) (now : Time) (p : Polling) (o : Observation) :
    (f.pollOne now p o).emitted =
      p.emitted ++ (if f.fires now p o then [f.eventFor o "watch"] else []) ∧
    (f.pollOne now p o).seen =
      if f.fires now p o then FileInput.remember p.seen o else p.seen := by
  unfold pollOne fires
  cases new : f.isNew p.seen o with
  | false => simp [Polling.forgetPending]
  | true =>
    cases known : p.pending.lookup o.path with
    | none => simp
    | some waiting =>
      by_cases same : waiting.1 = o
      · cases early : f.early waiting.2 now <;> simp [same, early, Polling.forgetPending]
      · simp [same]

theorem pollOne_separate (f : FilePoller) (now : Time) :
    Keyed.Separate (f.pollOne now) (·.path) held where
  other p o path different := by
    simp only [pollOne, held, Polling.forgetPending, FileInput.remember]
    split
    · rw [AList.lookup_erase_ne different]
    · split
      · rw [AList.lookup_insert_ne different]
      · split
        · rw [AList.lookup_insert_ne different]
        · split
          · rfl
          · rw [AList.lookup_insert_ne different, AList.lookup_erase_ne different]
  own p q o same := by
    have seen : p.seen.lookup o.path = q.seen.lookup o.path := congrArg Prod.fst same
    have pending : p.pending.lookup o.path = q.pending.lookup o.path := congrArg Prod.snd same
    simp only [pollOne, held, Polling.forgetPending, FileInput.remember,
      FileInput.isNew_congr seen, pending]
    split
    · simp [seen]
    · split
      · simp [seen]
      · split
        · simp [seen]
        · split
          · simp [seen, pending]
          · simp

theorem forgetPending_separate : Keyed.Separate Polling.forgetPending id held where
  other p gone path different := by
    rw [id_eq] at different
    simp only [held, Polling.forgetPending, AList.lookup_erase_ne different]
  own p q gone same := by
    have seen : p.seen.lookup gone = q.seen.lookup gone := congrArg Prod.fst same
    simp [held, Polling.forgetPending, seen]

theorem pollOnce_held {observed : List Observation} (nodup : (observed.map (·.path)).Nodup)
    (member : o ∈ observed) :
    held (f.pollOnce now observed p) o.path = held (f.pollOne now p o) o.path := by
  rw [pollOnce]
  rw [forgetPending_separate.foldl_other]
  · exact (pollOne_separate f now).foldl_own nodup member p
  · rw [List.map_id, List.mem_filter, not_and]
    intro _
    simpa using ⟨o, member, rfl⟩

theorem forgotten_emitted (gone : List String) (p : Polling) :
    (gone.foldl Polling.forgetPending p).emitted = p.emitted :=
  Effect.foldl_keeps (f := Polling.forgetPending) (·.emitted) (fun _ _ => rfl) gone p

/-- What a pass over the files has done: which files it has reported, and that what it has
remembered is how it saw them. -/
structure Passed (f : FileInput) (observed : List Observation) (cause : String)
    (chosen : Observation → Bool) (p q : Polling) : Prop where
  emitted : q.emitted = p.emitted ++ (observed.filter chosen).map (f.eventFor · cause)
  reported : ∀ o ∈ observed, chosen o = true →
    f.isNew p.seen o = true ∧ f.isNew q.seen o = false
  seen : ∀ path, q.seen.lookup path = p.seen.lookup path ∨
    ∃ o ∈ observed, o.path = path ∧ q.seen.lookup path = some o.fingerprint

theorem pollOnce_seen {observed : List Observation} (nodup : (observed.map (·.path)).Nodup)
    (member : o ∈ observed) : (f.pollOnce now observed p).seen.lookup o.path =
      if f.fires now p o then some o.fingerprint else p.seen.lookup o.path := by
  have own : (f.pollOnce now observed p).seen.lookup o.path =
      (f.pollOne now p o).seen.lookup o.path := congrArg Prod.fst (pollOnce_held nodup member)
  rw [own, (pollOne_fires f now p o).2]
  split
  · exact AList.lookup_insert _
  · rfl

theorem pollOnce_unseen {observed : List Observation} {path : String}
    (absent : path ∉ observed.map (·.path)) :
    (f.pollOnce now observed p).seen.lookup path = p.seen.lookup path := by
  have kept : ∀ (gone : List String) (q : Polling),
      (gone.foldl Polling.forgetPending q).seen = q.seen :=
    Effect.foldl_keeps (f := Polling.forgetPending) (·.seen) fun _ _ => rfl
  rw [pollOnce, kept]
  exact congrArg Prod.fst ((pollOne_separate f now).foldl_other absent p)

theorem pollOnce_passed {observed : List Observation} (nodup : (observed.map (·.path)).Nodup) :
    Passed f.toFileInput observed "watch" (f.fires now p) p (f.pollOnce now observed p) where
  emitted := by
    rw [pollOnce, forgotten_emitted]
    exact (pollOne_separate f now).foldl_output (·.emitted) (f.fires now) (f.eventFor · "watch")
      (fun p q o same => fires_congr same) (fun p o => (pollOne_fires f now p o).1) nodup p
  reported o member fired := by
    have seen : (f.pollOnce now observed p).seen.lookup o.path = _ := pollOnce_seen nodup member
    rw [if_pos fired] at seen
    refine ⟨(Bool.and_eq_true_iff.mp fired).1, ?_⟩
    simp [FileInput.isNew, seen]
  seen path := by
    by_cases listed : path ∈ observed.map (·.path)
    · obtain ⟨o, member, rfl⟩ := List.mem_map.mp listed
      rw [pollOnce_seen nodup member]
      split
      · exact .inr ⟨o, member, rfl, rfl⟩
      · exact .inl rfl
    · exact .inl (pollOnce_unseen listed)

/-- After a poll a path is not new, or it is waiting as it was seen. -/
theorem pollOne_waits (f : FilePoller) (now : Time) (p : Polling) (o : Observation) :
    f.isNew (f.pollOne now p o).seen o = false ∨
    ∃ since, (f.pollOne now p o).pending.lookup o.path = some (o, since) ∧
      ((since = now ∧ ∀ earlier, p.pending.lookup o.path ≠ some (o, earlier)) ∨
        (p.pending.lookup o.path = some (o, since) ∧ f.early since now = true)) := by
  unfold pollOne
  cases new : f.isNew p.seen o with
  | false => simp [Polling.forgetPending, new]
  | true =>
    cases known : p.pending.lookup o.path with
    | none => simp
    | some waiting =>
      obtain ⟨previous, since⟩ := waiting
      by_cases same : previous = o
      · cases early : f.early since now with
        | true => simp [same, early, known]
        | false => simp [same, early, Polling.forgetPending, remembered_not_new]
      · simp [same]

/-- No path has been quiet since a later time. -/
def WaitsUntil (now : Time) (p : Polling) : Prop :=
  ∀ path waiting, p.pending.lookup path = some waiting → waiting.2 ≤ now

theorem WaitsUntil.forgetPending (waits : WaitsUntil now p) (gone : String) :
    WaitsUntil now (p.forgetPending gone) := by
  intro path waiting known
  by_cases same : path = gone
  · rw [same] at known
    exact nomatch (AList.lookup_erase gone p.pending).symm.trans known
  · exact waits path waiting ((AList.lookup_erase_ne same).symm.trans known)

theorem WaitsUntil.insert (waits : WaitsUntil now p) (o : Observation) :
    WaitsUntil now { p with pending := p.pending.insert o.path (o, now) } := by
  intro path waiting known
  by_cases same : path = o.path
  · rw [same] at known
    cases Option.some.inj ((AList.lookup_insert _).symm.trans known)
    exact le_refl _
  · exact waits path waiting ((AList.lookup_insert_ne same).symm.trans known)

theorem WaitsUntil.pollOne (waits : WaitsUntil now p) (o : Observation) :
    WaitsUntil now (f.pollOne now p o) := by
  unfold FilePoller.pollOne
  split
  · exact waits.forgetPending o.path
  · split
    · exact waits.insert o
    · split
      · exact waits.insert o
      · split
        · exact waits
        · exact WaitsUntil.forgetPending (p := { p with
            emitted := _
            seen := _ }) waits o.path

theorem WaitsUntil.pollOnce {observed : List Observation} (waits : WaitsUntil now p) :
    WaitsUntil now (f.pollOnce now observed p) := by
  apply Effect.foldl_stays (f := Polling.forgetPending)
  · exact fun _ gone waits => waits.forgetPending gone
  · exact Effect.foldl_stays (f := f.pollOne now) (fun _ o waits => waits.pollOne o) observed waits

theorem WaitsUntil.later (waits : WaitsUntil now p) {later : Time} (le : now ≤ later) :
    WaitsUntil later p := fun path waiting known => (waits path waiting known).trans le

theorem early_mono {earlier since : Time} (le : earlier ≤ since)
    (early : f.early earlier now = true) : f.early since now = true := by
  rw [FilePoller.early, PyFloat.lt_iff] at early ⊢
  refine lt_of_le_of_lt ?_ early
  have shorter : ((now - since : Nat) : Rat) ≤ (now - earlier : Nat) := by
    exact_mod_cast Nat.sub_le_sub_left le now
  exact WithTop.coe_le_coe.mpr (div_le_div_of_nonneg_right shorter (by norm_num))

end FilePoller

namespace FileInput

variable {f : FileInput} {since : Option Time}

theorem catchUp_passed {observed : List Observation} {seen : Seen} {p q : Polling}
    (nodup : (observed.map (·.path)).Nodup) (before : p.seen = seen)
    (after : q.seen = (f.catchUp since observed seen).2)
    (appended : q.emitted = p.emitted ++ (f.catchUp since observed seen).1) :
    FilePoller.Passed f observed "catch-up" (f.catches since seen) p q where
  emitted := by rw [appended, catchUp_emits nodup]
  reported o member caught := by
    rw [before, after]
    exact ⟨(Bool.and_eq_true_iff.mp caught).1, catchUp_not_new nodup member⟩
  seen path := by
    rw [before, after]
    by_cases listed : path ∈ observed.map (·.path)
    · obtain ⟨o, member, rfl⟩ := List.mem_map.mp listed
      rw [catchUp_seen nodup member]
      split
      · exact .inr ⟨o, member, rfl, rfl⟩
      · exact .inl rfl
    · exact .inl ((catchUpOne_separate f since).foldl_other listed ([], seen))

end FileInput

/-- The files that match, and the watcher. -/
structure FileWatch where
  now : Time
  files : Table Fingerprint := ∅
  running : Bool := false
  polling : Polling := {}
  lastSeenAt : Option Time := none

inductive WatchStep
  | write (path : String) (size delay : Nat)
  | remove (path : String) (delay : Nat)
  | poll (delay : Nat)
  | stop (delay : Nat)
  | restart (delay : Nat)
  deriving DecidableEq

namespace FileWatch

/-- `_observe`. -/
def observed (s : FileWatch) : List Observation :=
  (s.files.entries.map fun file => ⟨file.1, file.2.modifiedAt, file.2.size⟩).insertionSort
    (·.path ≤ ·.path)

/-- A file is created or modified later than anything before it. -/
def step (f : FilePoller) (s : FileWatch) : WatchStep → Option FileWatch
  | .write path size delay =>
    let now := s.now + delay + 1
    some { s with now, files := s.files.insert path ⟨now, size⟩ }
  | .remove path delay => some { s with now := s.now + delay, files := s.files.erase path }
  | .poll delay =>
    let now := s.now + delay
    if s.running then some { s with now, polling := f.pollOnce now s.observed s.polling }
    else none
  | .stop delay =>
    let now := s.now + delay
    if s.running then
      some { s with
        now
        running := false
        lastSeenAt := some now
        polling := { s.polling with pending := ∅ } }
    else none
  | .restart delay =>
    if s.running then none
    else
      let (events, seen) := f.catchUp s.lastSeenAt s.observed s.polling.seen
      some { s with
        now := s.now + delay
        running := true
        polling := { s.polling with seen, emitted := s.polling.emitted ++ events } }

section Steps

variable {f : FilePoller} {s t : FileWatch}

theorem mem_observed {o : Observation} : o ∈ s.observed ↔ s.files.lookup o.path = some o.fingerprint := by
  rw [observed, List.mem_insertionSort, List.mem_map]
  constructor
  · rintro ⟨file, member, rfl⟩
    exact AList.mem_lookup_iff.mpr member
  · intro found
    exact ⟨⟨o.path, o.fingerprint⟩, AList.mem_lookup_iff.mp found, rfl⟩

theorem observed_nodup (s : FileWatch) : (s.observed.map (·.path)).Nodup := by
  have same := (List.perm_insertionSort (fun a b : Observation => a.path ≤ b.path)
    (s.files.entries.map fun file => ⟨file.1, file.2.modifiedAt, file.2.size⟩)).map (·.path)
  rw [observed, same.nodup_iff, List.map_map]
  exact s.files.nodupKeys

theorem observed_path {a b : Observation} (ha : a ∈ s.observed) (hb : b ∈ s.observed)
    (path : a.path = b.path) : a = b := by
  rw [mem_observed] at ha hb
  rw [path, hb] at ha
  obtain ⟨_, modifiedAt, size⟩ := a
  cases path
  cases Option.some.inj ha
  rfl

theorem step_poll {delay : Nat} (stepped : step f s (.poll delay) = some t) :
    s.running = true ∧ t = { s with
      now := s.now + delay
      polling := f.pollOnce (s.now + delay) s.observed s.polling } := by
  simp only [step] at stepped
  split at stepped
  · exact ⟨‹_›, (Option.some.inj stepped).symm⟩
  · cases stepped

theorem step_stop {delay : Nat} (stepped : step f s (.stop delay) = some t) :
    s.running = true ∧ t = { s with
      now := s.now + delay
      running := false
      lastSeenAt := some (s.now + delay)
      polling := { s.polling with pending := ∅ } } := by
  simp only [step] at stepped
  split at stepped
  · exact ⟨‹_›, (Option.some.inj stepped).symm⟩
  · cases stepped

theorem step_restart {delay : Nat} (stepped : step f s (.restart delay) = some t) :
    s.running = false ∧ t = { s with
      now := s.now + delay
      running := true
      polling := { s.polling with
        seen := (f.catchUp s.lastSeenAt s.observed s.polling.seen).2
        emitted := s.polling.emitted ++
          (f.catchUp s.lastSeenAt s.observed s.polling.seen).1 } } := by
  simp only [step] at stepped
  split at stepped
  · cases stepped
  · exact ⟨Bool.not_eq_true _ ▸ ‹_›, (Option.some.inj stepped).symm⟩

/-- Nothing that is known is later than now. -/
structure Dated (s : FileWatch) : Prop where
  files : ∀ path file, s.files.lookup path = some file → file.modifiedAt ≤ s.now
  seen : ∀ path file, s.polling.seen.lookup path = some file → file.modifiedAt ≤ s.now
  emitted : ∀ event ∈ s.polling.emitted, event.occurredAt ≤ s.now
  pending : FilePoller.WaitsUntil s.now s.polling

theorem Dated.passed {cause : String} {chosen : Observation → Bool} (dated : Dated s)
    (files : t.files = s.files) (later : s.now ≤ t.now)
    (passed : FilePoller.Passed f.toFileInput s.observed cause chosen s.polling t.polling)
    (pending : FilePoller.WaitsUntil t.now t.polling) : Dated t := by
  refine ⟨?_, ?_, ?_, pending⟩
  · intro path file known
    rw [files] at known
    exact (dated.files path file known).trans later
  · intro path file known
    rcases passed.seen path with same | ⟨other, listed, rfl, stored⟩
    · rw [same] at known
      exact (dated.seen path file known).trans later
    · cases Option.some.inj (stored.symm.trans known)
      exact (dated.files _ _ (mem_observed.mp listed)).trans later
  · intro event member
    rw [passed.emitted, List.mem_append] at member
    rcases member with earlier | member
    · exact (dated.emitted event earlier).trans later
    · obtain ⟨other, picked, rfl⟩ := List.mem_map.mp member
      have listed := List.mem_of_mem_filter picked
      exact (dated.files _ _ (mem_observed.mp listed)).trans later

theorem Dated.stepped {a : WatchStep} (dated : Dated s) (stepped : step f s a = some t) :
    Dated t := by
  cases a with
  | write path size delay =>
    cases Option.some.inj stepped
    have later : s.now ≤ s.now + delay + 1 := Nat.le_add_right _ (delay + 1)
    refine ⟨?_, fun p file known => (dated.seen p file known).trans later,
      fun event member => (dated.emitted event member).trans later, dated.pending.later later⟩
    intro p file known
    by_cases same : p = path
    · rw [same] at known
      cases Option.some.inj ((AList.lookup_insert _).symm.trans known)
      exact le_refl _
    · exact (dated.files p file ((AList.lookup_insert_ne same).symm.trans known)).trans later
  | remove path delay =>
    cases Option.some.inj stepped
    have later : s.now ≤ s.now + delay := Nat.le_add_right _ delay
    refine ⟨?_, fun p file known => (dated.seen p file known).trans later,
      fun event member => (dated.emitted event member).trans later, dated.pending.later later⟩
    intro p file known
    by_cases same : p = path
    · rw [same] at known
      exact nomatch (AList.lookup_erase path s.files).symm.trans known
    · exact (dated.files p file ((AList.lookup_erase_ne same).symm.trans known)).trans later
  | stop delay =>
    obtain ⟨_, rfl⟩ := step_stop stepped
    have later : s.now ≤ s.now + delay := Nat.le_add_right _ delay
    exact ⟨fun p file known => (dated.files p file known).trans later,
      fun p file known => (dated.seen p file known).trans later,
      fun event member => (dated.emitted event member).trans later, fun _ _ none => (nomatch none)⟩
  | poll delay =>
    have later : s.now ≤ s.now + delay := Nat.le_add_right _ delay
    obtain ⟨_, rfl⟩ := step_poll stepped
    exact dated.passed rfl later (FilePoller.pollOnce_passed s.observed_nodup)
      (dated.pending.later later).pollOnce
  | restart delay =>
    have later : s.now ≤ s.now + delay := Nat.le_add_right _ delay
    obtain ⟨_, rfl⟩ := step_restart stepped
    exact dated.passed rfl later (FileInput.catchUp_passed s.observed_nodup rfl rfl rfl)
      (dated.pending.later later)

theorem dated_start (now : Time) : Dated { now } where
  files _ _ known := nomatch known
  seen _ _ known := nomatch known
  emitted _ member := nomatch member
  pending _ _ known := nomatch known

theorem dated_ran {now : Time} {steps : List WatchStep} (ran : run (step f) { now } steps = some t) :
    Dated t := Transition.invariant (fun _ _ _ => Dated.stepped) (dated_start now) ran

end Steps

end FileWatch

end NotiMapper
