import NotiMapper.Engine.Handling

/-! Retrying a plugin that stays unreachable. Each failing retry schedules the next
one, with a delay capped at a quarter of an hour; but the cap is taken after the
power of two has become a float, and from 2 to the 1024th on there is no such float. -/
namespace NotiMapper

open Python Effect Engine

/-- The delay after attempt number `attempt`, in whole seconds. -/
def retrySeconds (attempt : Nat) : Nat := min (30 * 2 ^ attempt) 900

theorem retrySeconds_pos (attempt : Nat) : 0 < retrySeconds attempt := by
  have power : 0 < 2 ^ attempt := Nat.two_pow_pos attempt
  unfold retrySeconds
  omega

theorem retrySeconds_mono {n m : Nat} (before : n ≤ m) : retrySeconds n ≤ retrySeconds m := by
  have power : 2 ^ n ≤ 2 ^ m := Nat.pow_le_pow_right (by decide) before
  unfold retrySeconds
  omega

theorem retrySeconds_le (attempt : Nat) : retrySeconds attempt ≤ 900 := Nat.min_le_right _ _

theorem capped_product (factor : Nat) :
    ((PyFloat.finite 30).mul (.finite factor)).min (.finite 900) =
      .finite (min (30 * factor) 900 : Nat) := by
  by_cases fits : (30 : Rat) * factor < floatLimit
  · have product : (PyFloat.finite 30).mul (.finite factor) = .finite (30 * factor) := if_pos fits
    have compare : ((900 : Rat) < 30 * (factor : Rat)) ↔ 900 < 30 * factor := by
      exact_mod_cast Iff.rfl
    rw [product]
    by_cases large : 900 < 30 * factor
    · have capped : min (30 * factor) 900 = 900 := by omega
      simp [PyFloat.min, PyFloat.lt, compare, large, capped]
    · have kept : min (30 * factor) 900 = 30 * factor := by omega
      simp [PyFloat.min, PyFloat.lt, compare, large, kept]
  · have product : (PyFloat.finite 30).mul (.finite factor) = .infinity := if_neg fits
    have large : 900 < 30 * factor := by
      have bound : 900 < floatLimit := Nat.lt_trans (by decide : 900 < 2 ^ 10)
        (pow_lt_floatLimit.mpr (by decide))
      have huge : floatLimit ≤ 30 * factor := by exact_mod_cast not_lt.mp fits
      omega
    have capped : min (30 * factor) 900 = 900 := by omega
    rw [product, capped]
    rfl

theorem retryDelay_ok {attempt : Nat} (small : attempt < 1024) :
    retryDelay attempt = .ok (.finite (retrySeconds attempt)) := by
  unfold retryDelay
  rw [floatOfInt_ok (pow_lt_floatLimit.mpr small)]
  exact congrArg Except.ok (capped_product (2 ^ attempt))

theorem retryDelay_overflow {attempt : Nat} (large : ¬ attempt < 1024) :
    retryDelay attempt = .error .overflowError := by
  unfold retryDelay
  rw [floatOfInt_overflow (mt pow_lt_floatLimit.mp large)]

namespace Engine

/-- A plugin that is asked again and again: an output for its state, or an input for
the events since some time. -/
inductive Retry
  | output (name : Name)
  | input (name : Name) (since : Option Time)

namespace Retry

def message (retry : Retry) (attempt : Nat) : CoreMessage :=
  match retry with
  | .output name => .reconcileOutput ⟨name, attempt⟩
  | .input name since => .catchUp ⟨name, attempt, since⟩

theorem scheduled (retry : Retry) (attempt : Nat) : (retry.message attempt).SelfScheduled := by
  cases retry <;> trivial

def Unanswered (retry : Retry) (w : World) (s : Engine) : Prop :=
  match retry with
  | .output name => name ∈ s.plugins.outputs ∧ (queryOutput w name).belief = .unknown
  | .input name since => name ∈ s.plugins.inputs ∧ ∃ error, w.catchUp name since = .error error

end Retry

theorem handle_unanswered {retry : Retry} {w : World} {s t : Engine} {attempt : Nat}
    (unanswered : retry.Unanswered w s) :
    handle w (retry.message attempt) s = .ok ⟨⟩ t ↔
      ∃ delay dueAt, retryDelay attempt = .ok delay ∧ addSeconds w.now delay = .ok dueAt ∧
        t = { s with timers := s.timers ++
          [⟨dueAt, retry.message (attempt + 1), retry.scheduled (attempt + 1)⟩] } := by
  cases retry with
  | output name =>
    obtain ⟨live, unknown⟩ := unanswered
    simp only [Retry.message, handle, handleReconcileRetry, get_bind_ok, live, unknown,
      not_true_eq_false, if_false, if_true, raising_bind_ok, schedule, modify_ok,
      exists_and_left]
  | input name since =>
    obtain ⟨live, error, failed⟩ := unanswered
    simp only [Retry.message, handle, handleCatchUpRetry, get_bind_ok, live, failed,
      not_true_eq_false, if_false, raising_bind_ok, schedule, modify_ok, exists_and_left]

theorem addSeconds_retry (now : Time) (attempt : Nat) :
    addSeconds now (.finite (retrySeconds attempt)) =
      if now + seconds (retrySeconds attempt) ≤ datetimeMax then
        .ok (now + seconds (retrySeconds attempt))
      else .error .overflowError := by
  apply addSeconds_whole
  have bound : seconds 900 ≤ timedeltaMax := by decide
  exact Nat.le_trans (seconds_mono (retrySeconds_le attempt)) bound

/-- The next retry can be scheduled: the power of two is a float, and the moment a datetime. -/
def Affordable (w : World) (attempt : Nat) : Prop :=
  attempt < 1024 ∧ w.now + seconds (retrySeconds attempt) ≤ datetimeMax

theorem handle_unanswered_iff {retry : Retry} {w : World} {s t : Engine} {attempt : Nat}
    (unanswered : retry.Unanswered w s) :
    handle w (retry.message attempt) s = .ok ⟨⟩ t ↔
      Affordable w attempt ∧ t = { s with timers := s.timers ++
        [⟨w.now + seconds (retrySeconds attempt), retry.message (attempt + 1),
          retry.scheduled (attempt + 1)⟩] } := by
  rw [handle_unanswered unanswered]
  constructor
  · rintro ⟨delay, dueAt, known, added, rfl⟩
    by_cases small : attempt < 1024
    · cases (retryDelay_ok small).symm.trans known
      rw [addSeconds_retry] at added
      split at added
      · rename_i representable
        cases added
        exact ⟨⟨small, representable⟩, rfl⟩
      · cases added
    · cases (retryDelay_overflow small).symm.trans known
  · rintro ⟨⟨small, representable⟩, rfl⟩
    have added := (addSeconds_retry w.now attempt).trans (if_pos representable)
    exact ⟨_, _, retryDelay_ok small, added, rfl⟩

/-- Consecutive retries that get no answer, each in whatever state the engine is in by
then. Each must complete and schedule one successor, with the next attempt number and a
delay that is positive, not shorter than the last one and at most the maximum. -/
def Endures (retry : Retry) (attempt shortest : Nat) : List (World × Engine) → Prop
  | [] => True
  | (w, s) :: rest => ∃ delay,
      handle w (retry.message attempt) s = .ok ⟨⟩ { s with timers := s.timers ++
        [⟨w.now + delay, retry.message (attempt + 1), retry.scheduled (attempt + 1)⟩] } ∧
      0 < delay ∧ shortest ≤ delay ∧ delay ≤ seconds 900 ∧
      Endures retry (attempt + 1) delay rest

def AllAffordable (attempt : Nat) : List (World × Engine) → Prop
  | [] => True
  | (w, _) :: rest => Affordable w attempt ∧ AllAffordable (attempt + 1) rest

theorem endures_from (retry : Retry) (visits : List (World × Engine)) (attempt shortest : Nat)
    (unanswered : ∀ visit ∈ visits, retry.Unanswered visit.1 visit.2)
    (reached : shortest ≤ seconds (retrySeconds attempt)) :
    Endures retry attempt shortest visits ↔ AllAffordable attempt visits := by
  induction visits generalizing attempt shortest with
  | nil => simp only [Endures, AllAffordable]
  | cons visit visits ih =>
    obtain ⟨w, s⟩ := visit
    have here := unanswered (w, s) List.mem_cons_self
    have grown := seconds_mono (retrySeconds_mono (Nat.le_add_right attempt 1))
    have rest := ih (attempt + 1) (seconds (retrySeconds attempt))
      (fun visit later => unanswered visit (List.mem_cons_of_mem _ later)) grown
    simp only [Endures, AllAffordable, handle_unanswered_iff here]
    constructor
    · rintro ⟨delay, ⟨affordable, same⟩, -, -, -, later⟩
      have exact_delay : delay = seconds (retrySeconds attempt) := by
        have timers := congrArg Engine.timers same
        simp at timers
        exact timers
      rw [exact_delay] at later
      exact ⟨affordable, rest.mp later⟩
    · rintro ⟨affordable, later⟩
      have positive : 0 < seconds (retrySeconds attempt) :=
        Nat.mul_pos (retrySeconds_pos attempt) (by decide)
      exact ⟨_, ⟨affordable, rfl⟩, positive, reached, seconds_mono (retrySeconds_le attempt),
        rest.mpr later⟩

/-- The core survives a plugin's silence exactly as long as every retry is affordable:
for 1023 retries, and within the calendar. -/
theorem silence_endured_iff (retry : Retry) (visits : List (World × Engine))
    (unanswered : ∀ visit ∈ visits, retry.Unanswered visit.1 visit.2) :
    Endures retry 1 0 visits ↔ AllAffordable 1 visits :=
  endures_from retry visits 1 0 unanswered (Nat.zero_le _)

theorem allAffordable_length {visits : List (World × Engine)} {attempt : Nat}
    (affordable : AllAffordable attempt visits) (some_visit : visits ≠ []) :
    attempt + visits.length ≤ 1024 := by
  induction visits generalizing attempt with
  | nil => contradiction
  | cons visit visits ih =>
    obtain ⟨⟨small, _⟩, rest⟩ := affordable
    cases visits with
    | nil =>
      simp only [List.length_singleton]
      omega
    | cons next visits =>
      have later := ih rest (by simp)
      simp only [List.length_cons] at later ⊢
      omega

/-- The 1024th retry of a lamp that never answers kills the core. -/
theorem silence_not_endured :
    ¬ ∀ (retry : Retry) (visits : List (World × Engine)),
      (∀ visit ∈ visits, retry.Unanswered visit.1 visit.2) → Endures retry 1 0 visits := by
  intro endured
  let visit := (World.unreachable 5, Sample.engine (Sample.store .fresh))
  have unanswered : ∀ each ∈ List.replicate 1024 visit,
      (Retry.output "lamp").Unanswered each.1 each.2 := by
    intro each member
    rw [List.eq_of_mem_replicate member]
    exact ⟨by decide, by decide⟩
  have affordable := (endures_from (.output "lamp") _ 1 0 unanswered (Nat.zero_le _)).mp
    (endured _ _ unanswered)
  have some_visit : List.replicate 1024 visit ≠ [] := by
    apply List.length_pos_iff.mp
    rw [List.length_replicate]
    decide
  have short := allAffordable_length affordable some_visit
  rw [List.length_replicate] at short
  omega

theorem two_silences_endured :
    Endures (.output "lamp") 1 0
      [(World.unreachable 5, Sample.engine (Sample.store .fresh)),
        (World.unreachable 9, Sample.engine (Sample.store .fresh))] := by
  apply (silence_endured_iff (.output "lamp") _ ?_).mpr
  · refine ⟨⟨by decide, ?_⟩, ⟨by decide, ?_⟩, trivial⟩ <;> decide
  · intro visit member
    rcases List.mem_pair.mp member with rfl | rfl <;> exact ⟨by decide, by decide⟩

end Engine

end NotiMapper
