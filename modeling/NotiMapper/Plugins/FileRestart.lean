import Mathlib.Data.List.Induction
import NotiMapper.Plugins.FileWatch

/-! What becomes of a change of a file over polls, stops and restarts. From its write on
nothing is reported about it while it is new, and one event when it has been noticed:
unless a restart meets it still new, and older than the stop. -/
namespace NotiMapper

open Python Transition

namespace FileWatch

/-- The events about this state of a path: no other file has its modification time. -/
def reports (s : FileWatch) (o : Observation) : List ObservedEvent :=
  s.polling.emitted.filter (·.occurredAt = o.modifiedAt)

def ReportedOnce (f : FilePoller) (s : FileWatch) (o : Observation) : Prop :=
  ∃ cause, s.reports o = [f.eventFor o cause]

end FileWatch

namespace WatchStep

def Touches (path : String) : WatchStep → Prop
  | write changed _ _ => changed = path
  | remove removed _ => removed = path
  | poll _ | stop _ | restart _ => False

/-- The steps leave time to notice what was there before: there is a restart among them,
or two polls without a stop in between that are the debounce period apart. -/
def Notice (f : FilePoller) (s : FileWatch) (steps : List WatchStep) : Prop :=
  (∃ first delay rest, steps = first ++ restart delay :: rest) ∨
  ∃ first delay between later rest u v,
    steps = first ++ poll delay :: (between ++ poll later :: rest) ∧
    (∀ duration, stop duration ∉ between) ∧
    run (FileWatch.step f) s (first ++ [poll delay]) = some u ∧
    run (FileWatch.step f) u (between ++ [poll later]) = some v ∧
    f.early u.now v.now = false

end WatchStep

namespace FileWatch

/-- The law: a new state of a path that stays as it is has one event at most, and one when
there was time to notice it. -/
def EachReportedOnce (f : FilePoller) (s : FileWatch) (steps : List WatchStep) : Prop :=
  ∀ before path size delay after m t,
    steps = before ++ .write path size delay :: after →
    run (step f) s before = some m → run (step f) s steps = some t →
    (∀ later ∈ after, ¬ later.Touches path) →
    f.isNew m.polling.seen ⟨path, m.now + delay + 1, size⟩ = true →
    (t.reports ⟨path, m.now + delay + 1, size⟩).length ≤ 1 ∧
    ∀ w, step f m (.write path size delay) = some w → WatchStep.Notice f w after →
      ReportedOnce f t ⟨path, m.now + delay + 1, size⟩

/-- At a restart, no file that is still new is older than the stop. -/
def NoneOlder (f : FilePoller) (s : FileWatch) : WatchStep → Prop
  | .restart _ => s.running = false → ∀ o ∈ s.observed, f.isNew s.polling.seen o = true →
    ∀ since, s.lastSeenAt = some since → since ≤ o.modifiedAt
  | .write .. | .remove .. | .poll _ | .stop _ => True

section Passes

variable {f : FilePoller} {s t : FileWatch} {o : Observation}

/-- What a pass puts out about one of the files it saw. -/
theorem reports_passed {cause : String} {chosen : Observation → Bool} {p q : Polling}
    (passed : FilePoller.Passed f.toFileInput s.observed cause chosen p q)
    (before : s.polling = p) (after : t.polling = q) (member : o ∈ s.observed)
    (alone : ∀ other ∈ s.observed, other.modifiedAt = o.modifiedAt → other = o) :
    t.reports o = s.reports o ++ if chosen o then [f.eventFor o cause] else [] := by
  have about : (s.observed.filter chosen).filter (·.modifiedAt = o.modifiedAt) =
      if chosen o then [o] else [] := by
    have one : s.observed.filter (fun other => decide (other.modifiedAt = o.modifiedAt)) = [o] := by
      have same : ∀ other ∈ s.observed,
          decide (other.modifiedAt = o.modifiedAt) = (other == o) := by
        intro other listed
        rw [beq_eq_decide, decide_eq_decide]
        exact ⟨alone other listed, fun equal => equal ▸ rfl⟩
      have single := List.count_eq_one_of_mem (List.Nodup.of_map _ s.observed_nodup) member
      rw [List.filter_congr same, List.filter_beq, single]
      rfl
    rw [List.filter_comm, one, List.filter_singleton]
    cases chosen o <;> rfl
  rw [reports, reports, before, after, passed.emitted, List.filter_append, List.filter_map]
  congr 1
  have dated : ((fun event => decide (event.occurredAt = o.modifiedAt)) ∘
      (f.eventFor · cause)) = fun other => decide (other.modifiedAt = o.modifiedAt) := rfl
  rw [dated, about]
  split <;> rfl

/-- What holds of a state of a path from its write on, as long as it stays. -/
structure Standing (f : FilePoller) (o : Observation) (s : FileWatch) : Prop where
  here : o ∈ s.observed
  alone : ∀ other ∈ s.observed, other.modifiedAt = o.modifiedAt → other = o
  past : o.modifiedAt ≤ s.now
  unreported : f.isNew s.polling.seen o = true → s.reports o = []
  once : s.reports o = [] ∨ ReportedOnce f s o

/-- It was reported before it was remembered. -/
def Honest (f : FilePoller) (o : Observation) (s : FileWatch) : Prop :=
  f.isNew s.polling.seen o = false → ReportedOnce f s o

/-- What is new after a pass was new before, and the pass has not reported it. -/
theorem new_passed {cause : String} {chosen : Observation → Bool}
    (passed : FilePoller.Passed f.toFileInput s.observed cause chosen s.polling t.polling)
    (member : o ∈ s.observed) (new : f.isNew t.polling.seen o = true) :
    f.isNew s.polling.seen o = true ∧ chosen o = false := by
  constructor
  · rcases passed.seen o.path with same | ⟨other, listed, path, stored⟩
    · rw [← FileInput.isNew_congr same]
      exact new
    · cases observed_path listed member path
      simp [FileInput.isNew, stored] at new
  · rw [← Bool.not_eq_true]
    intro picked
    rw [(passed.reported o member picked).2] at new
    cases new

theorem Standing.passed {cause : String} {chosen : Observation → Bool}
    (standing : Standing f o s) (files : t.files = s.files) (later : s.now ≤ t.now)
    (passed : FilePoller.Passed f.toFileInput s.observed cause chosen s.polling t.polling) :
    Standing f o t := by
  have same : t.observed = s.observed := by rw [observed, observed, files]
  have reports := reports_passed passed rfl rfl standing.here standing.alone
  refine ⟨same ▸ standing.here, same ▸ standing.alone, standing.past.trans later, ?_, ?_⟩
  · intro new
    obtain ⟨before, unpicked⟩ := new_passed passed standing.here new
    rw [reports, standing.unreported before, unpicked]
    rfl
  · cases picked : chosen o with
    | true =>
      have new := (passed.reported o standing.here picked).1
      rw [picked, standing.unreported new] at reports
      exact .inr ⟨cause, reports⟩
    | false =>
      have same : t.reports o = s.reports o := by simpa [picked] using reports
      rw [ReportedOnce, same]
      exact standing.once

/-- It is enough that a pass reports what it remembers. -/
theorem Honest.passed {cause : String} {chosen : Observation → Bool} (honest : Honest f o s)
    (standing : Standing f o s)
    (passed : FilePoller.Passed f.toFileInput s.observed cause chosen s.polling t.polling)
    (picks : f.isNew s.polling.seen o = true → f.isNew t.polling.seen o = false →
      chosen o = true) : Honest f o t := by
  intro old
  have reports := reports_passed passed rfl rfl standing.here standing.alone
  cases new : f.isNew s.polling.seen o with
  | true =>
    rw [picks new old, standing.unreported new] at reports
    exact ⟨cause, reports⟩
  | false =>
    have unpicked : chosen o = false := by
      rw [← Bool.not_eq_true]
      intro picked
      rw [(passed.reported o standing.here picked).1] at new
      cases new
    obtain ⟨first, once⟩ := honest new
    rw [once, unpicked] at reports
    exact ⟨first, reports⟩

theorem step_passed {delay : Nat} {a : WatchStep} (pass : a = .poll delay ∨ a = .restart delay)
    (stepped : step f s a = some t) :
    t.files = s.files ∧ t.now = s.now + delay ∧ ∃ cause chosen,
      FilePoller.Passed f.toFileInput s.observed cause chosen s.polling t.polling ∧
      (NoneOlder f s a → ∀ o ∈ s.observed, f.isNew s.polling.seen o = true →
        f.isNew t.polling.seen o = false → chosen o = true) := by
  rcases pass with rfl | rfl
  · obtain ⟨_, rfl⟩ := step_poll stepped
    refine ⟨rfl, rfl, _, _, FilePoller.pollOnce_passed s.observed_nodup, ?_⟩
    intro _ o member new old
    by_contra waits
    have seen : (f.pollOnce (s.now + delay) s.observed s.polling).seen.lookup o.path = _ :=
      FilePoller.pollOnce_seen s.observed_nodup member
    rw [if_neg waits] at seen
    rw [FileInput.isNew_congr seen, new] at old
    cases old
  · obtain ⟨stopped, rfl⟩ := step_restart stepped
    refine ⟨rfl, rfl, _, _, FileInput.catchUp_passed s.observed_nodup rfl rfl rfl, ?_⟩
    intro young o member new _
    have recent : (s.lastSeenAt.any fun since => o.modifiedAt < since) = false := by
      cases known : s.lastSeenAt with
      | none => rfl
      | some since => simpa using young stopped o member new since known
    rw [FileInput.catches, new, recent]
    rfl

/-- While the path is left alone its state stands, and stays reported if remembered. -/
theorem Standing.stepped {a : WatchStep} (standing : Standing f o s)
    (untouched : ¬ a.Touches o.path) (stepped : step f s a = some t) :
    Standing f o t ∧ (NoneOlder f s a → Honest f o s → Honest f o t) := by
  cases a with
  | write path size delay =>
    cases Option.some.inj stepped
    have different : o.path ≠ path := fun same => untouched same.symm
    refine ⟨⟨?_, ?_, ?_, standing.unreported, standing.once⟩, fun _ honest => honest⟩
    · rw [mem_observed]
      exact (AList.lookup_insert_ne different).trans (mem_observed.mp standing.here)
    · intro other listed dated
      rw [mem_observed] at listed
      by_cases same : other.path = path
      · have written : other.fingerprint = ⟨s.now + delay + 1, size⟩ := by
          rw [same] at listed
          exact (Option.some.inj ((AList.lookup_insert _).symm.trans listed)).symm
        have late : o.modifiedAt = s.now + delay + 1 :=
          dated.symm.trans (congrArg (·.modifiedAt) written)
        have past : s.now + delay + 1 ≤ s.now := late ▸ standing.past
        exact absurd past (Nat.not_le.mpr (Nat.lt_succ_of_le (Nat.le_add_right s.now delay)))
      · exact standing.alone other
          (mem_observed.mpr ((AList.lookup_insert_ne same).symm.trans listed)) dated
    · exact standing.past.trans (Nat.le_add_right _ (delay + 1))
  | remove path delay =>
    cases Option.some.inj stepped
    have different : o.path ≠ path := fun same => untouched same.symm
    refine ⟨⟨?_, ?_, ?_, standing.unreported, standing.once⟩, fun _ honest => honest⟩
    · rw [mem_observed]
      exact (AList.lookup_erase_ne different).trans (mem_observed.mp standing.here)
    · intro other listed dated
      rw [mem_observed] at listed
      by_cases same : other.path = path
      · rw [same] at listed
        exact nomatch (AList.lookup_erase path s.files).symm.trans listed
      · exact standing.alone other
          (mem_observed.mpr ((AList.lookup_erase_ne same).symm.trans listed)) dated
    · exact standing.past.trans (Nat.le_add_right _ delay)
  | stop delay =>
    obtain ⟨_, rfl⟩ := step_stop stepped
    exact ⟨⟨standing.here, standing.alone, standing.past.trans (Nat.le_add_right _ delay),
      standing.unreported, standing.once⟩, fun _ honest => honest⟩
  | poll delay =>
    obtain ⟨files, now, cause, chosen, passed, picks⟩ := step_passed (.inl rfl) stepped
    have later : s.now ≤ t.now := now ▸ Nat.le_add_right s.now delay
    refine ⟨standing.passed files later passed, fun young honest => ?_⟩
    exact honest.passed standing passed (picks young o standing.here)
  | restart delay =>
    obtain ⟨files, now, cause, chosen, passed, picks⟩ := step_passed (.inr rfl) stepped
    have later : s.now ≤ t.now := now ▸ Nat.le_add_right s.now delay
    refine ⟨standing.passed files later passed, fun young honest => ?_⟩
    exact honest.passed standing passed (picks young o standing.here)

theorem Standing.ran {steps : List WatchStep} (standing : Standing f o s)
    (untouched : ∀ a ∈ steps, ¬ a.Touches o.path) (ran : run (step f) s steps = some t) :
    Standing f o t ∧ (Throughout (step f) (NoneOlder f) s steps → Honest f o s →
      Honest f o t) := by
  induction steps generalizing s with
  | nil =>
    cases Option.some.inj ran
    exact ⟨standing, fun _ honest => honest⟩
  | cons a steps ih =>
    obtain ⟨m, stepped, rest⟩ := run_cons.mp ran
    obtain ⟨here, later⟩ := List.forall_mem_cons.mp untouched
    obtain ⟨next, honest⟩ := standing.stepped here stepped
    obtain ⟨last, kept⟩ := ih next later rest
    exact ⟨last, fun held start => kept (held.2 m stepped) (honest held.1 start)⟩

/-- What is not new is not new later, while it stays. -/
theorem new_before {a : WatchStep} (here : o ∈ s.observed)
    (stepped : step f s a = some t) (new : f.isNew t.polling.seen o = true) :
    f.isNew s.polling.seen o = true := by
  cases a with
  | write path size delay =>
    cases Option.some.inj stepped
    exact new
  | remove path delay =>
    cases Option.some.inj stepped
    exact new
  | stop delay =>
    obtain ⟨_, rfl⟩ := step_stop stepped
    exact new
  | poll delay =>
    obtain ⟨_, _, _, _, passed, _⟩ := step_passed (.inl rfl) stepped
    exact (new_passed passed here new).1
  | restart delay =>
    obtain ⟨_, _, _, _, passed, _⟩ := step_passed (.inr rfl) stepped
    exact (new_passed passed here new).1

theorem Standing.new_throughout {steps : List WatchStep} (standing : Standing f o s)
    (untouched : ∀ a ∈ steps, ¬ a.Touches o.path) (ran : run (step f) s steps = some t)
    (new : f.isNew t.polling.seen o = true) : f.isNew s.polling.seen o = true := by
  induction steps generalizing s with
  | nil =>
    cases Option.some.inj ran
    exact new
  | cons a steps ih =>
    obtain ⟨m, stepped, rest⟩ := run_cons.mp ran
    obtain ⟨here, later⟩ := List.forall_mem_cons.mp untouched
    exact new_before standing.here stepped (ih (standing.stepped here stepped).1 later rest)

/-- Not new, or waiting since some poll that was no later than this. -/
structure Waits (f : FilePoller) (o : Observation) (limit : Time) (s : FileWatch) : Prop where
  running : s.running = true
  waiting : f.isNew s.polling.seen o = true → ∃ since ≤ limit,
    s.polling.pending.lookup o.path = some (o, since)

theorem Standing.polled {delay : Nat} (standing : Standing f o s) (dated : Dated s)
    (stepped : step f s (.poll delay) = some t) : Waits f o t.now t ∧
    ∀ limit, Waits f o limit s → Waits f o limit t ∧
      (f.early limit t.now = false → f.isNew t.polling.seen o = false) := by
  have before := new_before standing.here stepped
  obtain ⟨running, rfl⟩ := step_poll stepped
  have own : FilePoller.held (f.pollOnce (s.now + delay) s.observed s.polling) o.path = _ :=
    FilePoller.pollOnce_held s.observed_nodup standing.here
  have seen := FileInput.isNew_congr (f := f.toFileInput) (congrArg Prod.fst own)
  have pending : (f.pollOnce (s.now + delay) s.observed s.polling).pending.lookup o.path =
    (f.pollOne (s.now + delay) s.polling o).pending.lookup o.path := congrArg Prod.snd own
  have waits := FilePoller.pollOne_waits f (s.now + delay) s.polling o
  rw [← seen, ← pending] at waits
  rcases waits with old | ⟨since, waiting, origin⟩
  · have settled : ∀ limit, Waits f o limit { s with
        now := s.now + delay
        polling := f.pollOnce (s.now + delay) s.observed s.polling } :=
      fun limit => ⟨running, fun new => (nomatch old.symm.trans new)⟩
    exact ⟨settled _, fun limit _ => ⟨settled limit, fun _ => old⟩⟩
  · have past : since ≤ s.now + delay := by
      rcases origin with ⟨rfl, _⟩ | ⟨known, _⟩
      · exact le_refl _
      · exact (dated.pending _ _ known).trans (Nat.le_add_right _ delay)
    refine ⟨⟨running, fun _ => ⟨since, past, waiting⟩⟩, fun limit earlier => ?_⟩
    by_cases new : f.isNew s.polling.seen o = true
    · obtain ⟨quiet, bounded, known⟩ := earlier.waiting new
      rcases origin with ⟨_, fresh⟩ | ⟨kept, early⟩
      · exact absurd known (fresh quiet)
      · cases Option.some.inj (known.symm.trans kept)
        refine ⟨⟨running, fun _ => ⟨since, bounded, waiting⟩⟩, fun elapsed => ?_⟩
        exact nomatch elapsed.symm.trans (FilePoller.early_mono bounded early)
    · have old := mt before new
      exact ⟨⟨running, fun new => absurd new old⟩, fun _ => Bool.not_eq_true _ ▸ old⟩

theorem Waits.stepped {a : WatchStep} {limit : Time} (waits : Waits f o limit s)
    (standing : Standing f o s) (dated : Dated s) (goes : ∀ delay, a ≠ .stop delay)
    (stepped : step f s a = some t) : Waits f o limit t := by
  cases a with
  | write path size delay =>
    cases Option.some.inj stepped
    exact ⟨waits.running, waits.waiting⟩
  | remove path delay =>
    cases Option.some.inj stepped
    exact ⟨waits.running, waits.waiting⟩
  | stop delay => exact absurd rfl (goes delay)
  | poll delay => exact ((standing.polled dated stepped).2 limit waits).1
  | restart delay =>
    obtain ⟨stopped, _⟩ := step_restart stepped
    exact nomatch stopped.symm.trans waits.running

theorem Waits.ran {steps : List WatchStep} {limit : Time} (waits : Waits f o limit s)
    (standing : Standing f o s) (dated : Dated s)
    (untouched : ∀ a ∈ steps, ¬ a.Touches o.path) (goes : ∀ delay, .stop delay ∉ steps)
    (ran : run (step f) s steps = some t) : Waits f o limit t ∧ Dated t := by
  induction steps generalizing s with
  | nil =>
    cases Option.some.inj ran
    exact ⟨waits, dated⟩
  | cons a steps ih =>
    obtain ⟨m, stepped, rest⟩ := run_cons.mp ran
    obtain ⟨here, later⟩ := List.forall_mem_cons.mp untouched
    have going : ∀ delay, a ≠ .stop delay :=
      fun delay same => goes delay (same ▸ List.mem_cons_self)
    exact ih (waits.stepped standing dated going stepped) (standing.stepped here stepped).1
      (dated.stepped stepped) later (fun delay listed => goes delay (List.mem_cons_of_mem a listed))
      rest

/-- What there was time to notice is not new at the end. -/
theorem Standing.noticed {steps : List WatchStep} (standing : Standing f o s) (dated : Dated s)
    (untouched : ∀ a ∈ steps, ¬ a.Touches o.path) (ran : run (step f) s steps = some t)
    (notice : WatchStep.Notice f s steps) : f.isNew t.polling.seen o = false := by
  rw [← Bool.not_eq_true]
  intro new
  rcases notice with ⟨first, delay, rest, rfl⟩ | ⟨first, delay, between, later, rest, u, v, rfl,
    goes, polled, again, elapsed⟩
  · obtain ⟨m, began, ended⟩ := run_append.mp ran
    obtain ⟨w, restarted, ended⟩ := run_cons.mp ended
    rw [List.forall_mem_append, List.forall_mem_cons] at untouched
    have before := (standing.ran untouched.1 began).1
    have after := (before.stepped untouched.2.1 restarted).1
    have caught := after.new_throughout untouched.2.2 ended new
    obtain ⟨_, rfl⟩ := step_restart restarted
    exact nomatch (FileInput.catchUp_not_new m.observed_nodup before.here).symm.trans caught
  · rw [List.forall_mem_append, List.forall_mem_cons, List.forall_mem_append,
      List.forall_mem_cons] at untouched
    obtain ⟨started, here, meanwhile, there, ending⟩ := untouched
    have rejoined : (first ++ [.poll delay]) ++ ((between ++ [.poll later]) ++ rest) =
        first ++ .poll delay :: (between ++ .poll later :: rest) := by simp
    have ended : run (step f) v rest = some t :=
      run_rest again (run_rest polled (rejoined ▸ ran))
    obtain ⟨m, began, polled⟩ := run_snoc.mp polled
    obtain ⟨n, went, again⟩ := run_snoc.mp again
    have datedAt : ∀ {s t : FileWatch} {steps : List WatchStep}, Dated s →
        run (step f) s steps = some t → Dated t :=
      fun dated ran => Transition.invariant (fun _ _ _ => Dated.stepped) dated ran
    have before := (standing.ran started began).1
    have first := (before.polled (datedAt dated began) polled).1
    have after := (before.stepped here polled).1
    have dating := (datedAt dated began).stepped polled
    obtain ⟨waits, late⟩ := first.ran after dating meanwhile goes went
    have still := (after.ran meanwhile went).1
    have settled := ((still.polled late again).2 _ waits).2 elapsed
    have standingAt := (still.stepped there again).1
    exact nomatch settled.symm.trans (standingAt.new_throughout ending ended new)

theorem Standing.written {path : String} {size delay : Nat} (dated : Dated s)
    (new : f.isNew s.polling.seen ⟨path, s.now + delay + 1, size⟩ = true)
    (stepped : step f s (.write path size delay) = some t) :
    Standing f ⟨path, s.now + delay + 1, size⟩ t ∧
    Honest f ⟨path, s.now + delay + 1, size⟩ t := by
  cases Option.some.inj stepped
  have after : s.now < s.now + delay + 1 := Nat.lt_succ_of_le (Nat.le_add_right _ delay)
  have none : s.reports ⟨path, s.now + delay + 1, size⟩ = [] := by
    rw [reports, List.filter_eq_nil_iff]
    intro event member
    have past := dated.emitted event member
    rw [decide_eq_true_eq]
    intro same
    rw [same] at past
    exact absurd past (not_le.mpr after)
  refine ⟨⟨?_, ?_, le_refl _, fun _ => none, .inl none⟩, fun old => (nomatch new.symm.trans old)⟩
  · rw [mem_observed]
    exact AList.lookup_insert _
  · intro other listed same
    rw [mem_observed] at listed
    by_cases here : other.path = path
    · apply observed_path (mem_observed.mpr listed) _ here
      rw [mem_observed]
      exact AList.lookup_insert _
    · have known := (AList.lookup_insert_ne here).symm.trans listed
      have past := dated.files _ _ known
      rw [Observation.fingerprint, same] at past
      exact absurd past (not_le.mpr after)

/-- Each file that is there was written in the run, and has not been touched since. -/
theorem last_write {now : Time} {steps : List WatchStep} (ran : run (step f) { now } steps = some t)
    (listed : o ∈ t.observed) : ∃ before size delay after m,
      steps = before ++ .write o.path size delay :: after ∧
      run (step f) { now } before = some m ∧ (∀ a ∈ after, ¬ a.Touches o.path) ∧
      o = ⟨o.path, m.now + delay + 1, size⟩ ∧
      (f.isNew t.polling.seen o = true → f.isNew m.polling.seen o = true) := by
  induction steps using List.reverseRecOn generalizing t with
  | nil =>
    cases Option.some.inj ran
    exact nomatch mem_observed.mp listed
  | append_singleton steps a ih =>
    obtain ⟨s, began, stepped⟩ := run_snoc.mp ran
    have stays (untouched : ¬ a.Touches o.path) (here : o ∈ s.observed) :
        ∃ before size delay after m,
          steps ++ [a] = before ++ .write o.path size delay :: after ∧
          run (step f) { now } before = some m ∧ (∀ a ∈ after, ¬ a.Touches o.path) ∧
          o = ⟨o.path, m.now + delay + 1, size⟩ ∧
          (f.isNew t.polling.seen o = true → f.isNew m.polling.seen o = true) := by
      obtain ⟨before, size, delay, after, m, rfl, first, alone, made, new⟩ := ih began here
      refine ⟨before, size, delay, after ++ [a], m, by simp, first, ?_, made, ?_⟩
      · rw [List.forall_mem_append, List.forall_mem_singleton]
        exact ⟨alone, untouched⟩
      · exact fun later => new (new_before here stepped later)
    cases a with
    | write path size delay =>
      cases Option.some.inj stepped
      have known := mem_observed.mp listed
      by_cases same : o.path = path
      · refine ⟨steps, size, delay, [], s, by rw [same], began, by simp, ?_, fun new => new⟩
        rw [same] at known
        have made := Option.some.inj ((AList.lookup_insert _).symm.trans known)
        obtain ⟨_, modifiedAt, size⟩ := o
        cases made
        rfl
      · apply stays fun touched => same touched.symm
        exact mem_observed.mpr ((AList.lookup_insert_ne same).symm.trans known)
    | remove path delay =>
      cases Option.some.inj stepped
      have known := mem_observed.mp listed
      by_cases same : o.path = path
      · rw [same] at known
        exact nomatch (AList.lookup_erase path s.files).symm.trans known
      · apply stays fun touched => same touched.symm
        exact mem_observed.mpr ((AList.lookup_erase_ne same).symm.trans known)
    | stop delay =>
      obtain ⟨_, rfl⟩ := step_stop stepped
      exact stays id listed
    | poll delay =>
      obtain ⟨_, rfl⟩ := step_poll stepped
      exact stays id listed
    | restart delay =>
      obtain ⟨_, rfl⟩ := step_restart stepped
      exact stays id listed

/-- A new file that is older than the stop is not reported by the restart. -/
theorem Standing.lost {delay since : Time} (standing : Standing f o s)
    (restarted : step f s (.restart delay) = some t) (new : f.isNew s.polling.seen o = true)
    (known : s.lastSeenAt = some since) (older : o.modifiedAt < since) : t.reports o = [] := by
  obtain ⟨_, rfl⟩ := step_restart restarted
  have passed : FilePoller.Passed f.toFileInput s.observed "catch-up"
      (f.catches s.lastSeenAt s.polling.seen) s.polling { s.polling with
        seen := (f.catchUp s.lastSeenAt s.observed s.polling.seen).2
        emitted := s.polling.emitted ++ (f.catchUp s.lastSeenAt s.observed s.polling.seen).1 } :=
    FileInput.catchUp_passed s.observed_nodup rfl rfl rfl
  have reports := reports_passed (f := f) (t := { s with polling := _ }) passed rfl rfl
    standing.here standing.alone
  have skipped : f.catches s.lastSeenAt s.polling.seen o = false := by
    simp [FileInput.catches, known, older]
  rw [standing.unreported new, skipped] at reports
  exact reports

end Passes

/-- Every change that stays is reported once, at whatever step the run ends, exactly when
no restart finds a file new that was changed before the stop. -/
theorem each_reported_once_iff (f : FilePoller) (now : Time) (steps : List WatchStep) :
    (∀ first, first <+: steps → EachReportedOnce f { now } first) ↔
      Throughout (step f) (NoneOlder f) { now } steps := by
  constructor
  · intro law
    refine throughout_of_prefixes fun first a s initial ran => ?_
    cases a with
    | write path size delay => trivial
    | remove path delay => trivial
    | poll delay => trivial
    | stop delay => trivial
    | restart delay =>
      intro stopped o listed new since known
      by_contra older
      obtain ⟨before, size, duration, after, m, rfl, began, untouched, made, fresh⟩ :=
        last_write ran listed
      obtain ⟨w, written, ended⟩ := run_cons.mp (run_rest began ran)
      have restarts : ∃ t, step f s (.restart delay) = some t := by simp [step, stopped]
      obtain ⟨t, restarted⟩ := restarts
      have untouchedAll : ∀ later ∈ after ++ [.restart delay], ¬ later.Touches o.path := by
        rw [List.forall_mem_append, List.forall_mem_singleton]
        exact ⟨untouched, id⟩
      have new_then := fresh new
      rw [made] at new_then
      obtain ⟨_, once⟩ := law _ initial before o.path size duration (after ++ [.restart delay]) m t
        (by simp) began (run_snoc.mpr ⟨s, ran, restarted⟩) untouchedAll new_then
      obtain ⟨cause, reported⟩ := once w written (.inl ⟨after, delay, [], rfl⟩)
      rw [← made] at reported
      have standing := (Standing.written (dated_ran began) new_then written).1
      rw [← made] at standing
      have lost := (standing.ran untouched ended).1.lost restarted new known (not_le.mp older)
      cases lost.symm.trans reported
  · intro held first initial before path size delay after m t same began ran untouched new
    obtain ⟨rest, rfl⟩ := initial
    have held := throughout_prefix held
    subst same
    obtain ⟨w, written, ended⟩ := run_cons.mp (run_rest began ran)
    obtain ⟨standing, honest⟩ := Standing.written (dated_ran began) new written
    have later := (throughout_append held began).2 w written
    obtain ⟨last, kept⟩ := standing.ran untouched ended
    constructor
    · rcases last.once with none | ⟨cause, one⟩
      · simp [none]
      · simp [one]
    · intro w' written' notice
      cases Option.some.inj (written.symm.trans written')
      exact kept later honest (standing.noticed ((dated_ran began).stepped written) untouched ended
        notice)

def sampleFiles : FilePoller where
  render observation _ := observation.path

/-- A file is created, polled once and still in its quiet period when the daemon stops. -/
def quietAtStop : List WatchStep :=
  [.restart 0, .write "a" 1 0, .poll 1000000, .stop 0, .restart 0]

theorem change_before_stop_lost :
    ¬ ∀ (f : FilePoller) (now : Time) (steps : List WatchStep),
      EachReportedOnce f { now } steps := by
  intro law
  obtain ⟨t, ran, nothing⟩ : ∃ t, run (step sampleFiles) { now := 0 } quietAtStop = some t ∧
      t.polling.emitted = [] :=
    ⟨_, (Option.some_get (by decide +kernel)).symm, by decide +kernel⟩
  have reported := (law sampleFiles 0 quietAtStop [.restart 0] "a" 1 0
    [.poll 1000000, .stop 0, .restart 0] _ t rfl rfl ran (by simp [WatchStep.Touches]) rfl).2 _ rfl
    (.inl ⟨[.poll 1000000, .stop 0], 0, [], rfl⟩)
  obtain ⟨cause, once⟩ := reported
  rw [reports, nothing] at once
  exact nomatch once

end FileWatch

end NotiMapper
