import NotiMapper.Library.Transition
import NotiMapper.Engine.Timers

/-! How long the core loop blocks on its queue. It waits for the next timer or the next
pending push, but a push that is in flight keeps its row, and so its deadline, until the
result is in: from each dispatch to its result the loop does not block at all. -/
namespace NotiMapper

open Python Effect Transition

namespace Engine

def loopMaxIntervalSeconds : Nat := 5

/-- `_next_timeout`, in microseconds. -/
def nextTimeout (now : Time) (s : Engine) : Nat :=
  let deadlines := s.timers.map (·.dueAt) ++ s.store.earliestPendingAttempt.toList
  match deadlines.min? with
  | none => seconds loopMaxIntervalSeconds
  | some soonest =>
    if soonest < now then 0 else min (soonest - now) (seconds loopMaxIntervalSeconds)

/-- A tick has a timer to fire, or a row to dispatch or to drop. -/
def HasWork (now : Time) (s : Engine) : Prop :=
  (∃ timer ∈ s.timers, timer.dueAt ≤ now) ∨
  ∃ row ∈ s.store.pendingPushesDue now, row.1 ∉ s.inFlight

theorem below_min {now : Time} (times : List Time) :
    (∀ soonest, times.min? = some soonest → now < soonest) ↔ ∀ time ∈ times, now < time := by
  cases known : times.min? with
  | none => simp [List.min?_eq_none_iff.mp known]
  | some soonest =>
    obtain ⟨member, least⟩ := List.min?_eq_some_iff.mp known
    constructor
    · exact fun later time listed => lt_of_lt_of_le (later soonest rfl) (least time listed)
    · rintro later _ same
      cases same
      exact later soonest member

theorem none_due {now : Time} {s : Engine} :
    s.store.pendingPushesDue now = [] ↔
      ∀ time ∈ s.store.earliestPendingAttempt.toList, now < time := by
  have rows : s.store.pendingPushesDue now = [] ↔
      ∀ entry ∈ s.store.pendingPushes.entries, now < entry.2.nextAttemptAt := by
    rw [List.eq_nil_iff_forall_not_mem]
    simp only [Store.mem_pendingPushesDue, not_and, not_le]
    constructor
    · intro later entry member
      exact later (entry.1, entry.2) (AList.mem_lookup_iff.mpr member)
    · intro later row stored
      exact later ⟨row.1, row.2⟩ (AList.mem_lookup_iff.mp stored)
  rw [rows, Store.earliestPendingAttempt]
  simp only [Option.mem_toList]
  rw [below_min]
  simp only [List.mem_map, forall_exists_index, and_imp, forall_apply_eq_imp_iff₂]

/-- The loop blocks when no timer and no row is due, whatever is in flight. -/
theorem nextTimeout_pos {now : Time} {s : Engine} :
    0 < nextTimeout now s ↔
      (∀ timer ∈ s.timers, now < timer.dueAt) ∧ s.store.pendingPushesDue now = [] := by
  have deadlines : (∀ time ∈ s.timers.map (·.dueAt) ++ s.store.earliestPendingAttempt.toList,
      now < time) ↔
      (∀ timer ∈ s.timers, now < timer.dueAt) ∧ s.store.pendingPushesDue now = [] := by
    rw [none_due, List.forall_mem_append, List.forall_mem_map]
  have interval : 0 < seconds loopMaxIntervalSeconds := by decide
  rw [← deadlines, ← below_min]
  simp only [nextTimeout]
  split
  · rename_i unbounded
    simp [unbounded, interval]
  · rename_i soonest known
    simp only [known, Option.some.injEq, forall_eq']
    split
    · rename_i past
      exact ⟨fun h => absurd h (lt_irrefl 0), fun later => absurd later (lt_asymm past)⟩
    · rw [lt_min_iff, Nat.sub_pos_iff_lt]
      exact and_iff_left interval

/-- What is due before dispatching is afterwards in flight, or was dropped. -/
theorem Dispatched.due_iff {now : Time} {s t : Engine} (sent : Dispatched now s t)
    {row : Name × PendingPush} : row ∈ t.store.pendingPushesDue now ↔
      ∃ push, (row.1, push) ∈ s.store.pendingPushesDue now ∧
        s.dispatchedPush row.1 (some push) = some row.2 := by
  constructor
  · intro due
    obtain ⟨stored, soon⟩ := Store.mem_pendingPushesDue.mp due
    rw [sent.pushes] at stored
    split at stored
    · rename_i listed
      obtain ⟨before, member, same⟩ := List.mem_map.mp listed
      have held := (Store.mem_pendingPushesDue.mp member).1
      rw [same] at held
      rw [held] at stored
      exact ⟨before.2, same ▸ member, stored⟩
    · rename_i unlisted
      have member : row ∈ s.store.pendingPushesDue now :=
        Store.mem_pendingPushesDue.mpr ⟨stored, soon⟩
      exact absurd (List.mem_map.mpr ⟨row, member, rfl⟩) unlisted
  · rintro ⟨push, member, dispatched⟩
    obtain ⟨held, soon⟩ := Store.mem_pendingPushesDue.mp member
    refine Store.mem_pendingPushesDue.mpr ⟨(sent.due held soon).trans dispatched, ?_⟩
    unfold dispatchedPush at dispatched
    split at dispatched
    · cases dispatched
      exact soon
    · split at dispatched
      · rw [← Option.some.inj dispatched]
        exact soon
      · cases dispatched

theorem Dispatched.due_flies {now : Time} {s t : Engine} (sent : Dispatched now s t)
    {row : Name × PendingPush} (due : row ∈ t.store.pendingPushesDue now) :
    row.1 ∈ t.inFlight := by
  obtain ⟨push, member, dispatched⟩ := sent.due_iff.mp due
  obtain ⟨held, soon⟩ := Store.mem_pendingPushesDue.mp member
  by_cases live : row.1 ∈ s.plugins.outputs
  · exact sent.flies live held soon
  · by_cases flying : row.1 ∈ s.inFlight
    · exact (sent.inFlight row.1).mpr (.inl flying)
    · simp only [dispatchedPush, if_neg flying, if_neg live] at dispatched
      cases dispatched

/-- Nothing is due afterwards if what was due was dropped. -/
theorem Dispatched.none_due_iff {now : Time} {s t : Engine} (sent : Dispatched now s t) :
    t.store.pendingPushesDue now = [] ↔
      ∀ row ∈ s.store.pendingPushesDue now, row.1 ∉ s.inFlight ∧ row.1 ∉ s.plugins.outputs := by
  have kept : ∀ row : Name × PendingPush, (∃ push, s.dispatchedPush row.1 (some row.2) = some push) ↔
      row.1 ∈ s.inFlight ∨ row.1 ∈ s.plugins.outputs := by
    intro row
    unfold dispatchedPush
    split
    · simp [*]
    · split <;> simp [*]
  rw [List.eq_nil_iff_forall_not_mem]
  constructor
  · intro none row member
    rw [← not_or, ← kept row]
    rintro ⟨push, dispatched⟩
    exact none (row.1, push) (sent.due_iff.mpr ⟨row.2, member, dispatched⟩)
  · intro dropped row due
    obtain ⟨push, member, dispatched⟩ := sent.due_iff.mp due
    have gone := dropped _ member
    rw [← not_or, ← kept (row.1, push)] at gone
    exact gone ⟨row.2, dispatched⟩

/-- The law: the loop blocks after a tick, unless another tick would do something. -/
def Rests (now : Time) (t : Engine) : Prop := 0 < nextTimeout now t ∨ HasWork now t

def TickRests (s : Engine) (step : Step) : Prop :=
  ∀ w t, step = .tick w → advance s step = some t → Rests w.now t

/-- When the due timers have fired, each row that is due is of an output that has no
plugin, and is not in flight. -/
def NothingToSend (s : Engine) (step : Step) : Prop :=
  ∀ w m, step = .tick w → fireDueTimers w { s with heartbeat := some w.now } = .ok ⟨⟩ m →
    ∀ row ∈ m.store.pendingPushesDue w.now, row.1 ∉ m.inFlight ∧ row.1 ∉ m.plugins.outputs

theorem maybeWriteLastSeen_due (now : Time) (s : Engine) :
    (maybeWriteLastSeen now s).store.pendingPushesDue now = s.store.pendingPushesDue now ∧
    (maybeWriteLastSeen now s).inFlight = s.inFlight := by
  rw [maybeWriteLastSeen_only]
  exact ⟨rfl, rfl⟩

/-- A tick leaves no work behind, so the loop rests when nothing is due. -/
theorem tick_rests_iff {w : World} {m t : Engine}
    (left : ∀ timer ∈ t.timers, w.now < timer.dueAt)
    (ticked : t = maybeWriteLastSeen w.now (m.dispatchDuePushes w.now)) :
    Rests w.now t ↔ ∀ row ∈ m.store.pendingPushesDue w.now,
      row.1 ∉ m.inFlight ∧ row.1 ∉ m.plugins.outputs := by
  have sent := dispatchDuePushes_spec w.now m
  have same := maybeWriteLastSeen_due w.now (m.dispatchDuePushes w.now)
  rw [← ticked] at same
  rw [← sent.none_due_iff, ← same.1]
  constructor
  · rintro (blocks | ⟨timer, member, due⟩ | ⟨row, due, landed⟩)
    · exact (nextTimeout_pos.mp blocks).2
    · exact absurd (left timer member) (not_lt.mpr due)
    · rw [same.1] at due
      rw [same.2] at landed
      exact absurd (sent.due_flies due) landed
  · exact fun none => .inl (nextTimeout_pos.mpr ⟨left, none⟩)

theorem tickRests_iff (s : Engine) (step : Step) : TickRests s step ↔ NothingToSend s step := by
  constructor
  · rintro rests w m rfl fired
    have ran : tick w s = .ok ⟨⟩ (maybeWriteLastSeen w.now (m.dispatchDuePushes w.now)) := by
      simp only [tick, modify_bind_ok]
      refine bind_ok.mpr ⟨⟨⟩, m, fired, ?_⟩
      simp only [modify_bind_ok, modify_ok]
    exact (tick_rests_iff (tick_later ran).2 rfl).mp (rests w _ rfl (advance_tick.mpr ran))
  · rintro nothing w t rfl stepped
    have ran := advance_tick.mp stepped
    obtain ⟨m, fired, ticked⟩ := tick_ok ran
    exact (tick_rests_iff (tick_later ran).2 ticked).mpr (nothing w m rfl fired)

/-- The loop rests after each tick of a run exactly when no tick has a push to send, or
one in flight that is due. -/
theorem loop_rests_iff (s : Engine) (steps : List Step) :
    Throughout advance TickRests s steps ↔ Throughout advance NothingToSend s steps :=
  throughout_congr tickRests_iff

instance (now : Time) (t : Engine) : Decidable (Rests now t) :=
  inferInstanceAs (Decidable (0 < nextTimeout now t ∨ (∃ timer ∈ t.timers, timer.dueAt ≤ now) ∨
    ∃ row ∈ t.store.pendingPushesDue now, row.1 ∉ t.inFlight))

/-- The push that startup forces is in flight: the first tick leaves nothing to do, and
the loop polls with a timeout of zero until the result is in. -/
theorem forced_push_spins :
    ¬ ∀ (w : World) (s t : Engine) (steps : List Step), reconcile w s = .ok ⟨⟩ t →
      Throughout advance TickRests t steps := by
  intro rests
  have ran := ok_of_returned (x := reconcile (Sample.quiet 5))
    (s := Sample.engine (Sample.store .fresh)) (by decide +kernel)
  have ticked := ok_of_returned (x := tick (Sample.quiet 6))
    (s := Sample.started (Sample.store .fresh)) (by decide +kernel)
  have first := (rests _ _ _ [.tick (Sample.quiet 6)] ran).1
  have blocks := first (Sample.quiet 6) _ rfl (advance_tick.mpr ticked)
  revert blocks
  decide +kernel

end Engine

end NotiMapper
