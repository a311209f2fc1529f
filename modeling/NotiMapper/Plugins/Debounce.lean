import Mathlib.Data.List.Induction
import NotiMapper.Plugins.FileWatch

/-! The debounce of the file watcher with its two dictionaries as the code keeps them, so that
a lookup in one can fail. What a pass does to a path depends on that path alone, and over
all passes it is an automaton of the observations made of it. -/
namespace NotiMapper.Debounce

open Python

/-- `_Observation`: a path as the last poll saw it. A float is the number it stands for. -/
structure Observation where
  path : String
  modifiedAt : Rat
  size : Nat
  deriving DecidableEq

/-- The text `{modified_at:.6f}:{size}`: the microseconds and the size that it shows. -/
structure Fingerprint where
  micros : Int
  size : Nat
  deriving DecidableEq

def Observation.fingerprint (observation : Observation) : Fingerprint :=
  ⟨roundHalfEven (observation.modifiedAt * 1000000), observation.size⟩

structure FileInput where
  debounceSeconds : PyFloat := .finite 2
  emitOnModify : Bool := true

/-- What is stored under `seen.<path>`, `_pending` and `_quiet_since`. -/
structure State where
  seen : Table Fingerprint := ∅
  pending : Table Observation := ∅
  quietSince : Table Rat := ∅

inductive KeyError
  | keyError (path : String)

def State.forgetPending (s : State) (path : String) : State :=
  { s with pending := s.pending.erase path, quietSince := s.quietSince.erase path }

def State.remember (s : State) (observation : Observation) : State :=
  { s with seen := s.seen.insert observation.path observation.fingerprint }

/-- One call of `poll_once`: what the clock reads and what is observed. -/
structure Poll where
  now : Rat
  observed : List Observation

/-- `current[observation.path] = observation`: a key keeps its place, and the last value. -/
def assign (current : List Observation) (observation : Observation) : List Observation :=
  if observation.path ∈ current.map (·.path) then
    current.map fun other => if other.path = observation.path then observation else other
  else current ++ [observation]

def Poll.current (poll : Poll) : List Observation := poll.observed.foldl assign []

namespace FileInput

variable (f : FileInput)

def isNew (stored : Option Fingerprint) (observation : Observation) : Bool :=
  match stored with
  | none => true
  | some stored => if !f.emitOnModify then false else stored != observation.fingerprint

/-- `now - since < self._debounce_seconds`. -/
def early (since now : Rat) : Bool := (PyFloat.finite (now - since)).lt f.debounceSeconds

/-- One round of the loop in `poll_once`; the list is of what an event is emitted for. -/
def pollOne (now : Rat) (acc : List Observation × State) (observation : Observation) :
    Except KeyError (List Observation × State) :=
  let (emitted, s) := acc
  if !f.isNew (s.seen.lookup observation.path) observation then
    .ok (emitted, s.forgetPending observation.path)
  else if s.pending.lookup observation.path ≠ some observation then
    -- Still changing: the quiet period starts again.
    .ok (emitted, { s with
      pending := s.pending.insert observation.path observation
      quietSince := s.quietSince.insert observation.path now })
  else
    match s.quietSince.lookup observation.path with
    | none => .error (.keyError observation.path)
    | some since =>
      if f.early since now then .ok (emitted, s)
      else .ok (emitted ++ [observation],
        (s.remember observation).forgetPending observation.path)

def pollOnce (poll : Poll) (s : State) : Except KeyError (List Observation × State) := do
  let (emitted, passed) ← poll.current.foldlM (f.pollOne poll.now) ([], s)
  let gone := passed.pending.keys.filter (· ∉ poll.current.map (·.path))
  return (emitted, gone.foldl State.forgetPending passed)

/-- The state after some calls, of a watcher that was just made. -/
def watch (seen : Table Fingerprint) (polls : List Poll) : Except KeyError State :=
  polls.foldlM (fun s poll => (·.2) <$> f.pollOnce poll s) { seen }

end FileInput

/- What a pass observes of a path. -/

/-- The observation of a path: the last, should there be several. -/
def Poll.saw (poll : Poll) (path : String) : Option Observation :=
  poll.observed.reverse.find? (·.path = path)

theorem assign_paths {current : List Observation} {o : Observation}
    (nodup : (current.map (·.path)).Nodup) : ((assign current o).map (·.path)).Nodup := by
  unfold assign
  split
  · have same : (current.map fun other => if other.path = o.path then o else other).map (·.path) =
        current.map (·.path) := by
      rw [List.map_map]
      refine List.map_congr_left fun other _ => ?_
      by_cases here : other.path = o.path <;> simp [here]
    rwa [same]
  · rename_i absent
    rw [List.map_append, List.nodup_append]
    refine ⟨nodup, List.nodup_singleton _, ?_⟩
    intro path member other last same
    have here : other = o.path := List.mem_singleton.mp last
    exact absent (here ▸ same ▸ member)

theorem mem_assign {current : List Observation} {o other : Observation} :
    other ∈ assign current o ↔ other = o ∨ other ∈ current ∧ other.path ≠ o.path := by
  unfold assign
  split
  · rename_i present
    obtain ⟨first, there, same⟩ := List.mem_map.mp present
    rw [List.mem_map]
    constructor
    · rintro ⟨x, member, rfl⟩
      by_cases here : x.path = o.path
      · exact .inl (if_pos here)
      · rw [if_neg here]
        exact .inr ⟨member, here⟩
    · rintro (rfl | ⟨member, apart⟩)
      · exact ⟨first, there, if_pos same⟩
      · exact ⟨other, member, if_neg apart⟩
  · rename_i absent
    rw [List.mem_append, List.mem_singleton, or_comm]
    refine or_congr_right ⟨fun member => ⟨member, fun same => absent ?_⟩, And.left⟩
    exact same ▸ List.mem_map_of_mem member

theorem Poll.current_paths (poll : Poll) : (poll.current.map (·.path)).Nodup := by
  have all (observed : List Observation) : ∀ current : List Observation,
      (current.map (·.path)).Nodup → ((observed.foldl assign current).map (·.path)).Nodup := by
    induction observed with
    | nil => exact fun _ nodup => nodup
    | cons o observed ih => exact fun current nodup => ih _ (assign_paths nodup)
  exact all poll.observed [] List.nodup_nil

theorem Poll.mem_current (poll : Poll) (o : Observation) :
    o ∈ poll.current ↔ poll.saw o.path = some o := by
  obtain ⟨now, observed⟩ := poll
  unfold Poll.current Poll.saw
  induction observed using List.reverseRecOn with
  | nil => simp
  | append_singleton observed last ih =>
    simp only [List.foldl_append, List.foldl_cons, List.foldl_nil, mem_assign, List.reverse_append,
      List.reverse_cons, List.reverse_nil, List.nil_append, List.singleton_append, List.find?_cons]
    by_cases same : last.path = o.path
    · simp [same, eq_comm]
    · simp only at ih
      rw [ih]
      have apart : o ≠ last := fun equal => same (equal ▸ rfl)
      simp [same, apart, Ne.symm same]

/- What is kept of a path. -/

/-- The fingerprint stored for a path, and what is waiting there since when. -/
structure Quiet where
  stored : Option Fingerprint := none
  waiting : Option (Observation × Rat) := none

def State.quiet (s : State) (path : String) : Quiet where
  stored := s.seen.lookup path
  waiting := (s.pending.lookup path).bind fun o => (s.quietSince.lookup path).map (o, ·)

/-- The two dictionaries have the same keys. -/
def State.InStep (s : State) : Prop := ∀ path, path ∈ s.pending ↔ path ∈ s.quietSince

namespace Quiet

variable (f : FileInput)

/-- New, and seen the same for long enough. -/
def fires (now : Rat) (q : Quiet) (o : Observation) : Bool :=
  f.isNew q.stored o && q.waiting.any fun waiting => waiting.1 = o && !f.early waiting.2 now

/-- A pass that sees the path so, or not at all. -/
def advance (now : Rat) (q : Quiet) : Option Observation → Quiet
  | none => { q with waiting := none }
  | some o =>
    if !f.isNew q.stored o then { q with waiting := none }
    else if q.fires f now o then ⟨some o.fingerprint, none⟩
    else if q.waiting.any (·.1 = o) then q
    else { q with waiting := some (o, now) }

end Quiet

namespace State

variable {s : State} {path : String}

theorem InStep.pending_iff (inStep : s.InStep) (o : Observation) :
    s.pending.lookup path = some o ↔ ∃ since, (s.quiet path).waiting = some (o, since) := by
  have keys := inStep path
  rw [← AList.lookup_isSome, ← AList.lookup_isSome] at keys
  simp only [quiet, Option.bind_eq_some_iff, Option.map_eq_some_iff, Prod.mk.injEq]
  constructor
  · intro known
    obtain ⟨since, quiet⟩ := Option.isSome_iff_exists.mp (keys.mp (known ▸ rfl))
    exact ⟨since, o, known, since, quiet, rfl, rfl⟩
  · rintro ⟨_, _, known, _, _, rfl, _⟩
    exact known

theorem waiting_some {o : Observation} {since : Rat} :
    (s.quiet path).waiting = some (o, since) ↔
      s.pending.lookup path = some o ∧ s.quietSince.lookup path = some since := by
  simp only [quiet, Option.bind_eq_some_iff, Option.map_eq_some_iff, Prod.mk.injEq]
  constructor
  · rintro ⟨_, known, _, quiet, rfl, rfl⟩
    exact ⟨known, quiet⟩
  · rintro ⟨known, quiet⟩
    exact ⟨o, known, since, quiet, rfl, rfl⟩

theorem quiet_forgetPending (gone : String) : (s.forgetPending gone).quiet path =
    if path = gone then { s.quiet path with waiting := none } else s.quiet path := by
  by_cases same : path = gone
  · subst same
    simp [quiet, forgetPending]
  · simp [quiet, forgetPending, same]

theorem InStep.forgetPending (inStep : s.InStep) (gone : String) :
    (s.forgetPending gone).InStep := by
  intro path
  simp only [State.forgetPending, AList.mem_erase, inStep path]

theorem quiet_forgetAll (gone : List String) (s : State) :
    (gone.foldl State.forgetPending s).quiet path =
      if path ∈ gone then { s.quiet path with waiting := none } else s.quiet path := by
  induction gone generalizing s with
  | nil => simp
  | cons first gone ih =>
    rw [List.foldl_cons, ih, quiet_forgetPending]
    by_cases here : path = first <;> by_cases later : path ∈ gone <;> simp [here, later]

theorem InStep.forgetAll (gone : List String) {s : State} (inStep : s.InStep) :
    (gone.foldl State.forgetPending s).InStep := by
  induction gone generalizing s with
  | nil => exact inStep
  | cons first gone ih => exact ih (inStep.forgetPending first)

end State

/-- What a round does when it starts the quiet period of a path. -/
def State.await (s : State) (o : Observation) (now : Rat) : State :=
  { s with
    pending := s.pending.insert o.path o
    quietSince := s.quietSince.insert o.path now }

theorem State.InStep.await {s : State} (inStep : s.InStep) (o : Observation) (now : Rat) :
    (s.await o now).InStep := by
  intro path
  simp only [State.await, AList.mem_insert, inStep path]

theorem State.quiet_await {s : State} {o : Observation} {now : Rat} {path : String} :
    (s.await o now).quiet path =
      if path = o.path then { s.quiet path with waiting := some (o, now) } else s.quiet path := by
  by_cases same : path = o.path
  · subst same
    simp [State.quiet, State.await]
  · simp [State.quiet, State.await, same]

theorem State.quiet_remember {s : State} {o : Observation} {path : String} :
    (s.remember o).quiet path =
      if path = o.path then { s.quiet path with stored := some o.fingerprint }
      else s.quiet path := by
  by_cases same : path = o.path
  · subst same
    simp [State.quiet, State.remember]
  · simp [State.quiet, State.remember, same]

namespace FileInput

variable {f : FileInput} {s : State} {now : Rat}

variable (f now) in
/-- A round does not raise, and it does to its own path what the automaton does. -/
theorem pollOne_spec (inStep : s.InStep) (emitted : List Observation) (o : Observation) :
    ∃ t, f.pollOne now (emitted, s) o =
        .ok (emitted ++ (if (s.quiet o.path).fires f now o then [o] else []), t) ∧
      t.InStep ∧ t.quiet o.path = (s.quiet o.path).advance f now (some o) ∧
      ∀ path ≠ o.path, t.quiet path = s.quiet path := by
  have stored : s.seen.lookup o.path = (s.quiet o.path).stored := rfl
  by_cases new : f.isNew (s.quiet o.path).stored o = true
  · rcases waits : (s.quiet o.path).waiting with _ | ⟨previous, since⟩
    · have absent : s.pending.lookup o.path ≠ some o := by
        rw [ne_eq, inStep.pending_iff, waits]
        rintro ⟨_, present⟩
        cases present
      refine ⟨s.await o now, ?_, inStep.await o now, ?_, fun path other => ?_⟩
      · simp [pollOne, Quiet.fires, stored, new, waits, absent, State.await]
      · rw [State.quiet_await, if_pos rfl]
        simp [Quiet.advance, Quiet.fires, new, waits]
      · rw [State.quiet_await, if_neg other]
    · obtain ⟨pending, quiet⟩ := State.waiting_some.mp waits
      by_cases same : previous = o
      · subst same
        cases early : f.early since now with
        | true =>
          refine ⟨s, ?_, inStep, ?_, fun _ _ => rfl⟩
          · simp [pollOne, Quiet.fires, stored, new, waits, pending, quiet, early]
          · simp [Quiet.advance, Quiet.fires, new, waits, early]
        | false =>
          refine ⟨(s.remember previous).forgetPending previous.path, ?_,
            State.InStep.forgetPending inStep _, ?_, fun path other => ?_⟩
          · simp [pollOne, Quiet.fires, stored, new, waits, pending, quiet, early]
          · rw [State.quiet_forgetPending, if_pos rfl, State.quiet_remember, if_pos rfl]
            simp [Quiet.advance, Quiet.fires, new, waits, early]
          · rw [State.quiet_forgetPending, if_neg other, State.quiet_remember, if_neg other]
      · refine ⟨s.await o now, ?_, inStep.await o now, ?_, fun path other => ?_⟩
        · simp [pollOne, Quiet.fires, stored, new, waits, pending, same, State.await]
        · rw [State.quiet_await, if_pos rfl]
          simp [Quiet.advance, Quiet.fires, new, waits, same]
        · rw [State.quiet_await, if_neg other]
  · refine ⟨s.forgetPending o.path, ?_, inStep.forgetPending _, ?_, fun path other => ?_⟩
    · simp [pollOne, Quiet.fires, stored, new]
    · rw [State.quiet_forgetPending, if_pos rfl]
      simp [Quiet.advance, new]
    · rw [State.quiet_forgetPending, if_neg other]

variable (f now) in
/-- A round for each of some paths. -/
theorem pollEach_spec {observed : List Observation} (nodup : (observed.map (·.path)).Nodup)
    (inStep : s.InStep) (emitted : List Observation) :
    ∃ t, observed.foldlM (f.pollOne now) (emitted, s) =
        .ok (emitted ++ observed.filter fun o => (s.quiet o.path).fires f now o, t) ∧ t.InStep ∧
      (∀ o ∈ observed, t.quiet o.path = (s.quiet o.path).advance f now (some o)) ∧
      ∀ path ∉ observed.map (·.path), t.quiet path = s.quiet path := by
  induction observed generalizing s emitted with
  | nil => exact ⟨s, by simp [pure, Except.pure], inStep, List.forall_mem_nil _, fun _ _ => rfl⟩
  | cons o observed ih =>
    rw [List.map_cons, List.nodup_cons] at nodup
    obtain ⟨m, round, mInStep, own, others⟩ := pollOne_spec f now inStep emitted o
    obtain ⟨t, rest, tInStep, each, untouched⟩ := ih nodup.2 mInStep
      (emitted ++ if (s.quiet o.path).fires f now o then [o] else [])
    have apart : ∀ other ∈ observed, other.path ≠ o.path := by
      intro other member same
      exact nodup.1 (same ▸ List.mem_map_of_mem member)
    have later : observed.filter (fun o => (m.quiet o.path).fires f now o) =
        observed.filter fun o => (s.quiet o.path).fires f now o := by
      refine List.filter_congr fun other member => ?_
      rw [others _ (apart other member)]
    refine ⟨t, ?_, tInStep, ?_, ?_⟩
    · rw [List.foldlM_cons, round]
      simp only [bind, Except.bind]
      rw [rest, later, List.filter_cons]
      split <;> simp
    · intro other member
      rcases List.mem_cons.mp member with rfl | member
      · rw [untouched _ nodup.1, own]
      · rw [each other member, others _ (apart other member)]
    · intro path absent
      rw [List.map_cons, List.mem_cons, not_or] at absent
      rw [untouched path absent.2, others path absent.1]

theorem pollOnce_spec (inStep : s.InStep) (poll : Poll) :
    ∃ emitted t, f.pollOnce poll s = .ok (emitted, t) ∧ t.InStep ∧ (emitted.map (·.path)).Nodup ∧
      (∀ o, o ∈ emitted ↔
        poll.saw o.path = some o ∧ (s.quiet o.path).fires f poll.now o = true) ∧
      ∀ path, t.quiet path = (s.quiet path).advance f poll.now (poll.saw path) := by
  obtain ⟨t, passed, inStep', each, untouched⟩ :=
    pollEach_spec f poll.now poll.current_paths inStep []
  have lasting : ∀ path, path ∈ t.pending.keys.filter (· ∉ poll.current.map (·.path)) →
      poll.saw path = none := by
    intro path gone
    rw [List.mem_filter, decide_eq_true_eq] at gone
    cases seen : poll.saw path with
    | none => rfl
    | some o =>
      have named : o.path = path := by simpa using List.find?_some seen
      have member : o ∈ poll.current := (poll.mem_current o).mpr (named ▸ seen)
      exact absurd (List.mem_map.mpr ⟨o, member, named⟩) gone.2
  refine ⟨poll.current.filter fun o => (s.quiet o.path).fires f poll.now o,
    (t.pending.keys.filter (· ∉ poll.current.map (·.path))).foldl State.forgetPending t, ?_,
    inStep'.forgetAll _, ?_, ?_, fun path => ?_⟩
  · rw [pollOnce, passed]
    rfl
  · exact (List.Sublist.map _ List.filter_sublist).nodup poll.current_paths
  · intro o
    rw [List.mem_filter, poll.mem_current]
  · rw [State.quiet_forgetAll]
    cases seen : poll.saw path with
    | none =>
      have absent : path ∉ poll.current.map (·.path) := by
        rintro listed
        obtain ⟨o, member, rfl⟩ := List.mem_map.mp listed
        cases seen.symm.trans ((poll.mem_current o).mp member)
      rw [untouched path absent, Quiet.advance]
      split
      · rfl
      · rename_i kept
        have idle : path ∉ t.pending := by
          intro waiting
          exact kept (List.mem_filter.mpr ⟨AList.mem_keys.mp waiting, decide_eq_true absent⟩)
        have none_waits : (t.quiet path).waiting = none := by
          simp [State.quiet, AList.lookup_eq_none.mpr idle]
        rw [← untouched path absent, ← none_waits]
    | some o =>
      have named : o.path = path := by simpa using List.find?_some seen
      have member : o ∈ poll.current := (poll.mem_current o).mpr (named ▸ seen)
      subst named
      rw [each o member]
      refine if_neg fun gone => ?_
      cases seen.symm.trans (lasting _ gone)

/- Over all calls. -/

variable (f)

/-- What is kept of a path after some calls. -/
def quietAfter (seen : Table Fingerprint) (path : String) (polls : List Poll) : Quiet :=
  polls.foldl (fun q poll => q.advance f poll.now (poll.saw path)) { stored := seen.lookup path }

/-- An event for the path is emitted in a call, after others. -/
def Emits (seen : Table Fingerprint) (before : List Poll) (poll : Poll) (path : String) : Prop :=
  ∃ s emitted t, f.watch seen before = .ok s ∧ f.pollOnce poll s = .ok (emitted, t) ∧
    path ∈ emitted.map (·.path)

/-- What is observed of a path is new with respect to the storage, after some calls. -/
def NewAfter (seen : Table Fingerprint) (before : List Poll) (o : Observation) : Prop :=
  ∃ s, f.watch seen before = .ok s ∧ f.isNew (s.seen.lookup o.path) o = true

variable {f} {seen : Table Fingerprint} {path : String} {o : Observation}

theorem quietAfter_append (before : List Poll) (poll : Poll) :
    f.quietAfter seen path (before ++ [poll]) =
      (f.quietAfter seen path before).advance f poll.now (poll.saw path) := by
  rw [quietAfter, List.foldl_append]
  rfl

theorem watch_spec (seen : Table Fingerprint) (polls : List Poll) :
    ∃ s, f.watch seen polls = .ok s ∧ s.InStep ∧
      ∀ path, s.quiet path = f.quietAfter seen path polls := by
  induction polls using List.reverseRecOn with
  | nil => exact ⟨{ seen }, rfl, fun _ => Iff.rfl, fun _ => rfl⟩
  | append_singleton polls poll ih =>
    obtain ⟨s, before, inStep, quiet⟩ := ih
    obtain ⟨emitted, t, passed, inStep', _, _, quiet'⟩ := pollOnce_spec (f := f) inStep poll
    refine ⟨t, ?_, inStep', fun path => ?_⟩
    · rw [watch] at before
      simp only [watch, List.foldlM_append, before, List.foldlM_cons, List.foldlM_nil]
      simp [bind, Except.bind, passed, Functor.map, Except.map, pure, Except.pure]
    · rw [quiet', quietAfter_append, quiet]

theorem emits_iff {before : List Poll} {poll : Poll} : f.Emits seen before poll path ↔
    ∃ o, poll.saw path = some o ∧ (f.quietAfter seen path before).fires f poll.now o = true := by
  obtain ⟨s, watched, inStep, quiet⟩ := watch_spec (f := f) seen before
  obtain ⟨emitted, t, passed, _, _, member, _⟩ := pollOnce_spec (f := f) inStep poll
  constructor
  · rintro ⟨s', emitted', t', watched', passed', listed⟩
    cases watched.symm.trans watched'
    cases passed.symm.trans passed'
    obtain ⟨o, there, rfl⟩ := List.mem_map.mp listed
    obtain ⟨saw, fires⟩ := (member o).mp there
    exact ⟨o, saw, quiet o.path ▸ fires⟩
  · rintro ⟨o, saw, fires⟩
    have named : o.path = path := by simpa using List.find?_some saw
    subst named
    exact ⟨s, emitted, t, watched, passed, List.mem_map_of_mem
      ((member o).mpr ⟨saw, (quiet o.path).symm ▸ fires⟩)⟩

theorem newAfter_iff {before : List Poll} : f.NewAfter seen before o ↔
    f.isNew (f.quietAfter seen o.path before).stored o = true := by
  obtain ⟨s, watched, _, quiet⟩ := watch_spec (f := f) seen before
  have stored : s.seen.lookup o.path = (f.quietAfter seen o.path before).stored :=
    congrArg Quiet.stored (quiet o.path)
  constructor
  · rintro ⟨s', watched', new⟩
    cases watched.symm.trans watched'
    exact stored ▸ new
  · exact fun new => ⟨s, watched, stored ▸ new⟩

theorem reported_not_new (f : FileInput) (o : Observation) :
    f.isNew (some o.fingerprint) o = false := by simp [isNew]

theorem any_waiting {waiting : Option (Observation × Rat)} (same : waiting.any (·.1 = o) = true) :
    ∃ since, waiting = some (o, since) := by
  obtain _ | ⟨other, since⟩ := waiting
  · cases same
  · have equal : other = o := of_decide_eq_true same
    exact ⟨since, by rw [equal]⟩

/-- An observation that is still new was not reported, and it waits. -/
theorem advance_new {q : Quiet} {now : Rat}
    (new : f.isNew (q.advance f now (some o)).stored o = true) :
    f.isNew q.stored o = true ∧ q.fires f now o = false ∧ q.advance f now (some o) =
      if q.waiting.any (·.1 = o) then q else { q with waiting := some (o, now) } := by
  unfold Quiet.advance at new ⊢
  by_cases old : f.isNew q.stored o = true
  · by_cases fires : q.fires f now o = true
    · simp [old, fires, reported_not_new] at new
    · simp [old, fires]
  · simp [old] at new

/-- What has been reported is not new as long as it is seen the same. -/
theorem advance_old {q : Quiet} {now : Rat}
    (old : f.isNew q.stored o = false ∨ q.fires f now o = true) :
    f.isNew (q.advance f now (some o)).stored o = false := by
  by_contra new
  rw [Bool.not_eq_false] at new
  obtain ⟨before, quiet, _⟩ := advance_new new
  rcases old with old | fires
  · cases old.symm.trans before
  · cases quiet.symm.trans fires

/-- What waits has been seen the same since. -/
theorem waiting_run {before : List Poll} {since : Rat}
    (waits : (f.quietAfter seen path before).waiting = some (o, since)) :
    ∃ earlier first rest, before = earlier ++ first :: rest ∧ first.now = since ∧
      ∀ poll ∈ first :: rest, poll.saw path = some o := by
  induction before using List.reverseRecOn with
  | nil => cases waits
  | append_singleton before poll ih =>
    rw [quietAfter_append] at waits
    cases saw : poll.saw path with
    | none =>
      rw [saw] at waits
      cases waits
    | some other =>
      rw [saw, Quiet.advance] at waits
      split at waits
      · cases waits
      · split at waits
        · cases waits
        · split at waits
          · rename_i same
            rw [waits] at same
            have equal : o = other := by simpa using same
            subst equal
            obtain ⟨earlier, first, rest, rfl, began, all⟩ := ih waits
            refine ⟨earlier, first, rest ++ [poll], by simp, began, ?_⟩
            intro each member
            rw [← List.cons_append, List.mem_append, List.mem_singleton] at member
            rcases member with member | rfl
            · exact all each member
            · exact saw
          · cases waits
            refine ⟨before, poll, [], rfl, rfl, ?_⟩
            intro each member
            cases List.mem_singleton.mp member
            exact saw

/-- What is seen the same, and is new, waits, and since no later. -/
theorem run_waits {earlier : List Poll} {first : Poll} (rest : List Poll)
    (onward : (earlier ++ first :: rest).Pairwise fun a b => a.now ≤ b.now)
    (all : ∀ poll ∈ first :: rest, poll.saw path = some o)
    (new : f.isNew (f.quietAfter seen path (earlier ++ first :: rest)).stored o = true) :
    ∃ since, (f.quietAfter seen path (earlier ++ first :: rest)).waiting = some (o, since) ∧
      since ≤ first.now := by
  induction rest using List.reverseRecOn with
  | nil =>
    rw [quietAfter_append, all first List.mem_cons_self] at new ⊢
    obtain ⟨_, _, after⟩ := advance_new new
    rw [after]
    split
    · rename_i same
      obtain ⟨since, waits⟩ := any_waiting same
      refine ⟨since, waits, ?_⟩
      -- It has been waiting since an earlier call.
      obtain ⟨before, began, between, rfl, rfl, _⟩ := waiting_run waits
      exact (List.pairwise_append.mp onward).2.2 began (by simp) first (by simp)
    · exact ⟨first.now, rfl, le_refl _⟩
  | append_singleton rest poll ih =>
    rw [← List.cons_append, ← List.append_assoc] at onward new ⊢
    rw [quietAfter_append, all poll (by simp)] at new ⊢
    obtain ⟨before, _, after⟩ := advance_new new
    have earlier_all : ∀ other ∈ first :: rest, other.saw path = some o := fun other member =>
      all other (List.cons_append ▸ List.mem_append_left _ member)
    obtain ⟨since, waits, le⟩ := ih (List.pairwise_append.mp onward).1 earlier_all before
    rw [after, waits]
    exact ⟨since, by simp [waits], le⟩

theorem early_mono {since later now : Rat} (le : since ≤ later)
    (quiet : f.debounceSeconds.value ≤ (PyFloat.finite (now - later)).value) :
    f.early since now = false := by
  rw [early, ← Bool.not_eq_true, PyFloat.lt_iff, not_lt]
  refine quiet.trans (WithTop.coe_le_coe.mpr ?_)
  linarith

theorem fires_iff {q : Quiet} {now : Rat} : q.fires f now o = true ↔
    f.isNew q.stored o = true ∧ ∃ since, q.waiting = some (o, since) ∧ f.early since now = false := by
  rw [Quiet.fires, Bool.and_eq_true]
  refine and_congr_right fun _ => ?_
  obtain _ | ⟨other, since⟩ := q.waiting
  · simp
  · simp only [Option.any_some, Bool.and_eq_true, decide_eq_true_eq, Bool.not_eq_true',
      Option.some.injEq, Prod.mk.injEq]
    constructor
    · rintro ⟨same, late⟩
      exact ⟨since, ⟨same, rfl⟩, late⟩
    · rintro ⟨_, ⟨same, rfl⟩, late⟩
      exact ⟨same, late⟩

/-- Once reported, what is seen the same in every call is not new. -/
theorem reported_run {before rest : List Poll} {poll : Poll} (emits : f.Emits seen before poll path)
    (all : ∀ other ∈ poll :: rest, other.saw path = some o) :
    f.isNew (f.quietAfter seen path (before ++ poll :: rest)).stored o = false := by
  obtain ⟨reported, saw, fires⟩ := emits_iff.mp emits
  cases (all poll List.mem_cons_self).symm.trans saw
  induction rest using List.reverseRecOn with
  | nil =>
    rw [quietAfter_append, saw]
    exact advance_old (.inr fires)
  | append_singleton rest last ih =>
    have old := ih fun other member => all other (List.cons_append ▸ List.mem_append_left _ member)
    rw [← List.cons_append, ← List.append_assoc, quietAfter_append, all last (by simp)]
    exact advance_old (.inl old)

end FileInput

def spooled : Observation := ⟨"/var/spool/a", 5, 3⟩

def inSeconds (micros : Time) : Rat := micros / 1000000

def ofObservation (o : NotiMapper.Observation) : Observation :=
  ⟨o.path, inSeconds o.modifiedAt, o.size⟩

def ofFingerprint (fingerprint : NotiMapper.Fingerprint) : Fingerprint :=
  ⟨fingerprint.modifiedAt, fingerprint.size⟩

def ofPoller (f : FilePoller) : FileInput := ⟨f.debounceSeconds, f.emitOnModify⟩

def ofHeld (held : Option NotiMapper.Fingerprint × Option (NotiMapper.Observation × Time)) :
    Quiet where
  stored := held.1.map ofFingerprint
  waiting := held.2.map fun waiting => (ofObservation waiting.1, inSeconds waiting.2)

/-- The same is kept of every path. -/
structure Keeps (p : Polling) (s : State) : Prop where
  inStep : s.InStep
  quiet : ∀ path, s.quiet path = ofHeld (FilePoller.held p path)

variable {f : FilePoller} {p : Polling} {s : State} {now : Time}

theorem inSeconds_injective {a b : Time} (same : inSeconds a = inSeconds b) : a = b := by
  unfold inSeconds at same
  have whole : (a : Rat) = b := by linarith
  exact_mod_cast whole

theorem ofObservation_injective {a b : NotiMapper.Observation}
    (same : ofObservation a = ofObservation b) : a = b := by
  obtain ⟨path, modifiedAt, size⟩ := a
  obtain ⟨path', modifiedAt', size'⟩ := b
  obtain ⟨rfl, times, rfl⟩ := Observation.mk.inj same
  cases inSeconds_injective times
  rfl

theorem fingerprint_ofObservation (o : NotiMapper.Observation) :
    (ofObservation o).fingerprint = ofFingerprint o.fingerprint := by
  have micros : inSeconds o.modifiedAt * 1000000 = ((o.modifiedAt : Int) : Rat) := by
    rw [inSeconds, div_mul_cancel₀ _ (by norm_num)]
    rfl
  simp only [Observation.fingerprint, ofObservation, micros, roundHalfEven_intCast]
  rfl

theorem ofFingerprint_injective {a b : NotiMapper.Fingerprint}
    (same : ofFingerprint a = ofFingerprint b) : a = b := by
  obtain ⟨modifiedAt, size⟩ := a
  obtain ⟨modifiedAt', size'⟩ := b
  obtain ⟨times, rfl⟩ := Fingerprint.mk.inj same
  cases Int.ofNat_inj.mp times
  rfl

theorem isNew_of (o : NotiMapper.Observation) :
    (ofPoller f).isNew ((p.seen.lookup o.path).map ofFingerprint) (ofObservation o) =
      f.isNew p.seen o := by
  rw [NotiMapper.FileInput.isNew]
  cases p.seen.lookup o.path with
  | none => rfl
  | some stored =>
    have same : ofFingerprint stored = ofFingerprint o.fingerprint ↔ stored = o.fingerprint :=
      ⟨ofFingerprint_injective, congrArg _⟩
    have differs : (ofFingerprint stored != ofFingerprint o.fingerprint) =
        (stored != o.fingerprint) := by
      rw [Bool.eq_iff_iff, bne_iff_ne, bne_iff_ne, ne_eq, ne_eq, same]
    simp only [FileInput.isNew, Option.map_some, fingerprint_ofObservation, differs, ofPoller]

theorem early_of {since : Time} (le : since ≤ now) :
    (ofPoller f).early (inSeconds since) (inSeconds now) = f.early since now := by
  have elapsed : inSeconds now - inSeconds since = ((now - since : Nat) : Rat) / 1000000 := by
    rw [inSeconds, inSeconds, ← sub_div, Nat.cast_sub le]
  rw [FileInput.early, elapsed]
  rfl

theorem fires_of (waits : FilePoller.WaitsUntil now p) (o : NotiMapper.Observation) :
    (ofHeld (FilePoller.held p o.path)).fires (ofPoller f) (inSeconds now) (ofObservation o) =
      f.fires now p o := by
  simp only [Quiet.fires, FilePoller.fires, ofHeld, FilePoller.held, isNew_of]
  cases known : p.pending.lookup o.path with
  | none => rfl
  | some waiting =>
    have le := waits o.path waiting known
    have same : ofObservation waiting.1 = ofObservation o ↔ waiting.1 = o :=
      ⟨ofObservation_injective, congrArg _⟩
    simp only [Option.map_some, Option.any_some, same, early_of le]

/-- A round of the one is a round of the other. -/
theorem pollOne_of (waits : FilePoller.WaitsUntil now p) (o : NotiMapper.Observation) :
    ofHeld (FilePoller.held (f.pollOne now p o) o.path) =
      (ofHeld (FilePoller.held p o.path)).advance (ofPoller f) (inSeconds now)
        (some (ofObservation o)) := by
  have fires := fires_of (f := f) waits o
  have stored : (ofPoller f).isNew (ofHeld (FilePoller.held p o.path)).stored (ofObservation o) =
      f.isNew p.seen o := isNew_of o
  simp only [Quiet.advance, fires, stored]
  by_cases new : f.isNew p.seen o = true
  · rcases known : p.pending.lookup o.path with _ | ⟨previous, since⟩
    · simp [ofHeld, FilePoller.held, FilePoller.pollOne, FilePoller.fires, new, known]
    · by_cases same : previous = o
      · subst same
        cases early : f.early since now with
        | true =>
          simp [ofHeld, FilePoller.held, FilePoller.pollOne, FilePoller.fires, new, known, early]
        | false =>
          simp [ofHeld, FilePoller.held, FilePoller.pollOne, FilePoller.fires, new, known, early,
            Polling.forgetPending, NotiMapper.FileInput.remember, fingerprint_ofObservation]
      · have differs : ofObservation previous ≠ ofObservation o :=
          fun equal => same (ofObservation_injective equal)
        simp [ofHeld, FilePoller.held, FilePoller.pollOne, FilePoller.fires, new, known, same,
          differs]
  · simp [ofHeld, FilePoller.held, FilePoller.pollOne, new, Polling.forgetPending]

theorem saw_of {observed : List NotiMapper.Observation} (nodup : (observed.map (·.path)).Nodup)
    {path : String} {o : Observation} :
    (Poll.mk (inSeconds now) (observed.map ofObservation)).saw path = some o ↔
      ∃ seen ∈ observed, seen.path = path ∧ ofObservation seen = o := by
  constructor
  · intro saw
    have named : o.path = path := by simpa using List.find?_some saw
    have member : o ∈ observed.map ofObservation :=
      List.mem_reverse.mp (List.mem_of_find?_eq_some saw)
    obtain ⟨seen, there, rfl⟩ := List.mem_map.mp member
    exact ⟨seen, there, named, rfl⟩
  · rintro ⟨seen, there, rfl, rfl⟩
    have found : ((observed.map ofObservation).reverse.find? (·.path = seen.path)).isSome := by
      rw [List.find?_isSome]
      exact ⟨_, List.mem_reverse.mpr (List.mem_map_of_mem there), decide_eq_true rfl⟩
    obtain ⟨other, known⟩ := Option.isSome_iff_exists.mp found
    have named : other.path = seen.path := by simpa using List.find?_some known
    obtain ⟨also, there', rfl⟩ := List.mem_map.mp
      (List.mem_reverse.mp (List.mem_of_find?_eq_some known))
    cases List.inj_on_of_nodup_map nodup there' there named
    exact known

theorem held_absent {observed : List NotiMapper.Observation} {path : String}
    (absent : path ∉ observed.map (·.path)) :
    FilePoller.held (f.pollOnce now observed p) path = (p.seen.lookup path, none) := by
  have kept := (FilePoller.pollOne_separate f now).foldl_other absent p
  rw [FilePoller.pollOnce]
  generalize observed.foldl (f.pollOne now) p = passed at kept ⊢
  have seen : passed.seen.lookup path = p.seen.lookup path := congrArg Prod.fst kept
  by_cases waiting : path ∈ passed.pending
  · have gone : path ∈ passed.pending.keys.filter (· ∉ observed.map (·.path)) :=
      List.mem_filter.mpr ⟨AList.mem_keys.mp waiting, decide_eq_true absent⟩
    have once : ((passed.pending.keys.filter (· ∉ observed.map (·.path))).map id).Nodup := by
      rw [List.map_id]
      exact passed.pending.keys_nodup.filter _
    have own := FilePoller.forgetPending_separate.foldl_own once gone passed
    rw [id_eq] at own
    rw [own]
    simp [FilePoller.held, Polling.forgetPending, seen]
  · have stays : path ∉ (passed.pending.keys.filter (· ∉ observed.map (·.path))).map id := by
      rw [List.map_id, List.mem_filter, not_and]
      exact fun there => absurd (AList.mem_keys.mpr there) waiting
    rw [FilePoller.forgetPending_separate.foldl_other stays, FilePoller.held, seen,
      AList.lookup_eq_none.mpr waiting]

/-- What is kept in the two dictionaries is what is kept in the one table, call by call. -/
theorem pollOnce_of (keeps : Keeps p s) (waits : FilePoller.WaitsUntil now p)
    {observed : List NotiMapper.Observation} (nodup : (observed.map (·.path)).Nodup) :
    ∃ emitted t, (ofPoller f).pollOnce ⟨inSeconds now, observed.map ofObservation⟩ s =
        .ok (emitted, t) ∧ Keeps (f.pollOnce now observed p) t ∧
      ∀ o ∈ observed, ofObservation o ∈ emitted ↔ f.fires now p o = true := by
  obtain ⟨emitted, t, passed, inStep, _, member, quiet⟩ :=
    FileInput.pollOnce_spec (f := ofPoller f) keeps.inStep
      ⟨inSeconds now, observed.map ofObservation⟩
  refine ⟨emitted, t, passed, ⟨inStep, fun path => ?_⟩, fun o there => ?_⟩
  · rw [quiet, keeps.quiet]
    cases saw : (Poll.mk (inSeconds now) (observed.map ofObservation)).saw path with
    | none =>
      have absent : path ∉ observed.map (·.path) := by
        intro listed
        obtain ⟨o, there, rfl⟩ := List.mem_map.mp listed
        cases saw.symm.trans ((saw_of nodup).mpr ⟨o, there, rfl, rfl⟩)
      rw [Quiet.advance, held_absent absent]
      rfl
    | some o =>
      obtain ⟨seen, there, rfl, rfl⟩ := (saw_of nodup).mp saw
      rw [FilePoller.pollOnce_held nodup there]
      exact (pollOne_of waits seen).symm
  · have saw : (Poll.mk (inSeconds now) (observed.map ofObservation)).saw o.path =
        some (ofObservation o) := (saw_of nodup).mpr ⟨o, there, rfl, rfl⟩
    rw [member, ← fires_of waits o, ← keeps.quiet]
    exact and_iff_right saw

end NotiMapper.Debounce
