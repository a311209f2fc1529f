import NotiMapper.Library.Transition
import NotiMapper.Engine.Timers

/-! The delay before a failed push is tried again. It is meant to be the initial delay,
doubled with each failure up to a maximum. The maximum is applied after the power of two
has become a float, and neither setting is bounded from above. -/
namespace NotiMapper

open Python Effect Transition

/-- The settings a configuration can give. -/
def DaemonSettings.Loadable (settings : DaemonSettings) : Prop :=
  settings.retryInitialSeconds.Positive ∧ settings.retryMaxSeconds.Positive

theorem DaemonSettings.default_loadable : DaemonSettings.Loadable {} := by
  have bound : (2 : Rat) ^ 10 < floatLimit := by
    have power : 2 ^ 10 < floatLimit := pow_lt_floatLimit.mpr (by decide)
    exact_mod_cast power
  refine ⟨⟨by norm_num, ?_⟩, ⟨by norm_num, ?_⟩⟩
  · exact lt_trans (by norm_num) bound
  · exact lt_trans (by norm_num) bound

namespace Engine

/-- `min(retry_initial_seconds * 2 ** (n - 1), retry_max_seconds)`, exactly. -/
def exactBackoff (settings : DaemonSettings) (attempts : Nat) : PyFloat :=
  (settings.retryInitialSeconds.doubled (attempts - 1)).min settings.retryMaxSeconds

/-- What is asked of a delay: it is computed, is the exact one, is not shorter than an
earlier one, and leads to a moment that can be stored. -/
structure BacksOff (settings : DaemonSettings) (now : Time) (attempts : Nat) : Prop where
  exact : backoffSeconds settings attempts = .ok (exactBackoff settings attempts)
  grows : ∀ fewer ≤ attempts, ∃ shorter, backoffSeconds settings fewer = .ok shorter ∧
    shorter.value ≤ (exactBackoff settings attempts).value
  representable : ∃ dueAt, addSeconds now (exactBackoff settings attempts) = .ok dueAt

/-- The power of two is a float, and the exact delay stays within the calendar. -/
def Schedulable (settings : DaemonSettings) (now : Time) (attempts : Nat) : Prop :=
  attempts ≤ 1024 ∧ ∃ delay : Rat, exactBackoff settings attempts = .finite delay ∧
    now + (roundHalfEven (delay * 1000000)).toNat ≤ datetimeMax

theorem backoffSeconds_overflow {settings : DaemonSettings} {attempts : Nat}
    (many : ¬ attempts ≤ 1024) : backoffSeconds settings attempts = .error .overflowError := by
  have large : ¬ attempts - 1 < 1024 := by omega
  unfold backoffSeconds
  rw [floatOfInt_overflow (mt pow_lt_floatLimit.mp large)]

theorem backoffSeconds_ok {settings : DaemonSettings} {attempts : Nat} (few : attempts ≤ 1024) :
    backoffSeconds settings attempts =
      .ok ((settings.retryInitialSeconds.mul (.finite (2 ^ (attempts - 1) : Nat))).min
        settings.retryMaxSeconds) := by
  have small : attempts - 1 < 1024 := by omega
  unfold backoffSeconds
  rw [floatOfInt_ok (pow_lt_floatLimit.mpr small)]
  rfl

/-- Where it is computed the delay is the exact one, or infinite for a longer one. -/
theorem backoffSeconds_exact {settings : DaemonSettings}
    {attempts : Nat} (few : attempts ≤ 1024)
    (moderate : (exactBackoff settings attempts).value < (PyFloat.finite floatLimit).value) :
    backoffSeconds settings attempts = .ok (exactBackoff settings attempts) := by
  rw [backoffSeconds_ok few, PyFloat.mul_two_pow]
  split
  · rfl
  · rename_i huge
    congr 1
    apply PyFloat.value_injective
    rw [exactBackoff, PyFloat.value_min] at moderate
    rw [exactBackoff, PyFloat.value_min, PyFloat.value_min]
    have capped : settings.retryMaxSeconds.value <
        (settings.retryInitialSeconds.doubled (attempts - 1)).value := by
      rcases min_lt_iff.mp moderate with below | below
      · exact absurd below huge
      · exact lt_of_lt_of_le below (not_lt.mp huge)
    rw [min_eq_right_of_lt capped, PyFloat.value_infinity, min_eq_right le_top]

theorem exactBackoff_mono {settings : DaemonSettings} (loadable : settings.Loadable)
    {n m : Nat} (le : n ≤ m) :
    (exactBackoff settings n).value ≤ (exactBackoff settings m).value := by
  rw [exactBackoff, exactBackoff, PyFloat.value_min, PyFloat.value_min]
  exact min_le_min (loadable.1.doubled_mono (Nat.sub_le_sub_right le 1)) (le_refl _)

/-- What can be added to a moment within the calendar. -/
theorem addSeconds_iff {now : Time} {delay : PyFloat} :
    (∃ dueAt, addSeconds now delay = .ok dueAt) ↔ ∃ seconds : Rat, delay = .finite seconds ∧
      now + (roundHalfEven (seconds * 1000000)).toNat ≤ datetimeMax := by
  cases delay with
  | infinity => simp [addSeconds, timedelta]
  | finite seconds =>
    have within : datetimeMax ≤ timedeltaMax := by decide
    simp only [addSeconds, timedelta, PyFloat.finite.injEq, exists_eq_left']
    constructor
    · rintro ⟨dueAt, added⟩
      split at added
      · cases added
      · rename_i micros known
        split at known
        · cases known
          split at added
          · rename_i fits
            exact fits
          · cases added
        · cases known
    · intro fits
      have small : (roundHalfEven (seconds * 1000000)).toNat ≤ timedeltaMax :=
        le_trans (Nat.le_add_left _ now) (fits.trans within)
      simp [small, fits]

/-- A delay within the calendar is far below the largest float. -/
theorem calendar_moderate {now : Time} {delay : Rat}
    (fits : now + (roundHalfEven (delay * 1000000)).toNat ≤ datetimeMax) :
    (PyFloat.finite delay).value < (PyFloat.finite floatLimit).value := by
  have rounded : roundHalfEven (delay * 1000000) ≤ (datetimeMax : Int) :=
    le_trans (Int.self_le_toNat _) (by exact_mod_cast (Nat.le_add_left _ now).trans fits)
  have bounded : delay * 1000000 < (datetimeMax : Rat) + 1 := by
    have cast : ((roundHalfEven (delay * 1000000) : Int) : Rat) ≤ ((datetimeMax : Int) : Rat) :=
      Int.cast_le.mpr rounded
    have near := lt_roundHalfEven_add_one (delay * 1000000)
    rw [Int.cast_natCast] at cast
    linarith
  have calendar : (datetimeMax : Rat) + 1 < (2 ^ 60 : Nat) * 1000000 := by
    unfold datetimeMax
    norm_num
  have huge : ((2 ^ 60 : Nat) : Rat) < floatLimit :=
    Nat.cast_lt.mpr (pow_lt_floatLimit.mpr (by decide))
  refine WithTop.coe_lt_coe.mpr (lt_trans ?_ huge)
  linarith

theorem backsOff_iff {settings : DaemonSettings} (loadable : settings.Loadable) (now : Time)
    (attempts : Nat) : BacksOff settings now attempts ↔ Schedulable settings now attempts := by
  constructor
  · rintro ⟨exact, -, representable⟩
    refine ⟨?_, addSeconds_iff.mp representable⟩
    by_contra many
    rw [backoffSeconds_overflow many] at exact
    cases exact
  · rintro ⟨few, delay, finite, fits⟩
    have moderate : (exactBackoff settings attempts).value <
        (PyFloat.finite floatLimit).value := by
      rw [finite]
      exact calendar_moderate fits
    refine ⟨backoffSeconds_exact few moderate, ?_, addSeconds_iff.mpr ⟨delay, finite, fits⟩⟩
    intro fewer le
    have shorter := exactBackoff_mono loadable le
    exact ⟨_, backoffSeconds_exact (le.trans few) (shorter.trans_lt moderate), shorter⟩

/-- The attempt that a failed push for this output counts as. -/
def attemptsOf (s : Engine) (instanceName : Name) : Nat :=
  match s.store.pendingPush instanceName with
  | none => 1
  | some existing => existing.attemptCount + 1

/-- A failed push is recorded when its delay can be computed and added to the clock. -/
theorem recordPushFailure_returns {s : Engine} {w : World} {message : PushResultMessage} :
    (∃ t, recordPushFailure w message s = .ok ⟨⟩ t) ↔
      ∃ delay, backoffSeconds s.settings (attemptsOf s message.instanceName) = .ok delay ∧
        ∃ dueAt, addSeconds w.now delay = .ok dueAt := by
  simp only [recordPushFailure, get_bind_ok, raising_bind_ok, modify_bind_ok, modify_ok]
  constructor
  · rintro ⟨t, delay, known, dueAt, added, -⟩
    exact ⟨delay, known, dueAt, added⟩
  · rintro ⟨delay, known, dueAt, added⟩
    exact ⟨_, delay, known, dueAt, added, rfl⟩

theorem failure_returns_iff {s : Engine} {w : World} {message : PushResultMessage}
    (failed : message.succeeded = false) :
    (∃ t, advance s (.handle w (.pushResult message)) = some t) ↔
      ∃ delay, backoffSeconds s.settings (attemptsOf s message.instanceName) = .ok delay ∧
        ∃ dueAt, addSeconds w.now delay = .ok dueAt := by
  simp only [advance_handle, handle, handlePushResult, transaction, modify_bind_ok, restoring_ok,
    failed, Bool.false_eq_true, if_false]
  have landed := @recordPushFailure_returns
    { s with inFlight := s.inFlight.erase message.instanceName } w message
  constructor
  · rintro ⟨t, ran⟩
    obtain ⟨_, m, recorded, -⟩ := bind_ok.mp ran
    exact landed.mp ⟨m, recorded⟩
  · intro affordable
    obtain ⟨m, recorded⟩ := landed.mpr affordable
    exact ⟨_, bind_ok.mpr ⟨⟨⟩, m, recorded, modify_ok.mpr rfl⟩⟩

def FailureHandled (s : Engine) (step : Step) : Prop :=
  ∀ w message, step = .handle w (.pushResult message) → message.succeeded = false →
    ∃ t, advance s step = some t

def FailureSchedulable (s : Engine) (step : Step) : Prop :=
  ∀ w message, step = .handle w (.pushResult message) → message.succeeded = false →
    Schedulable s.settings w.now (attemptsOf s message.instanceName)

/-- A delay that is computed and finite is the exact one. -/
theorem backoffSeconds_finite {settings : DaemonSettings} (loadable : settings.Loadable)
    {attempts : Nat} {delay : Rat}
    (known : backoffSeconds settings attempts = .ok (.finite delay)) :
    attempts ≤ 1024 ∧ exactBackoff settings attempts = .finite delay := by
  have few : attempts ≤ 1024 := by
    by_contra many
    rw [backoffSeconds_overflow many] at known
    cases known
  refine ⟨few, ?_⟩
  rw [backoffSeconds_ok few, PyFloat.mul_two_pow] at known
  split at known
  · exact Except.ok.inj known
  · rename_i huge
    have capped := Except.ok.inj known
    cases maximum : settings.retryMaxSeconds with
    | infinity =>
      rw [maximum] at capped
      cases capped
    | finite most =>
      rw [maximum] at capped
      have same : most = delay := PyFloat.finite.inj capped
      have below := PyFloat.Positive.lt_limit (maximum ▸ loadable.2)
      apply PyFloat.value_injective
      rw [exactBackoff, PyFloat.value_min, maximum, ← same]
      exact min_eq_right (below.le.trans (not_lt.mp huge))

theorem failureHandled_iff {s : Engine} (loadable : s.settings.Loadable) (step : Step) :
    FailureHandled s step ↔ FailureSchedulable s step := by
  have each : ∀ w message, message.succeeded = false →
      ((∃ t, advance s (.handle w (.pushResult message)) = some t) ↔
        Schedulable s.settings w.now (attemptsOf s message.instanceName)) := by
    intro w message failed
    rw [failure_returns_iff failed]
    constructor
    · rintro ⟨delay, known, added⟩
      obtain ⟨finite_delay, rfl, fits⟩ := addSeconds_iff.mp added
      obtain ⟨few, exact_delay⟩ := backoffSeconds_finite loadable known
      exact ⟨few, finite_delay, exact_delay, fits⟩
    · intro schedulable
      have backsOff := (backsOff_iff loadable _ _).mpr schedulable
      exact ⟨_, backsOff.exact, backsOff.representable⟩
  constructor
  · rintro handled w message rfl failed
    exact (each w message failed).mp (handled w message rfl failed)
  · rintro schedulable w message rfl failed
    exact (each w message failed).mpr (schedulable w message rfl failed)

end Engine

end NotiMapper
