import NotiMapper.Engine.Answering
import NotiMapper.Threads.Reload

/-! The message of a reload on its way to the core. The reload thread submits one at a time;
while it waits for the last one, that is behind all others, and once it is acknowledged the
core has its objects and there is no other left. -/
namespace NotiMapper

open Python Effect Engine

namespace Service

def reloadOf : CoreMessage × Unit → Option ReloadMessage
  | (.reload message, _) => some message
  | _ => none

/-- The reloads that the core has not handled. -/
def reloads (s : Service) : List ReloadMessage := s.queue.filterMap reloadOf

/-- What becomes of the message that the reload thread waits for. -/
structure Answering (s : Service) (rebuilt : Table LiveInstance) (acknowledged : Nat) : Prop where
  submitted : acknowledged < s.outside.nextAcknowledged
  answered : acknowledged ∈ s.engine.acknowledged →
    s.engine.plugins = pluginSet rebuilt ∧ s.reloads = []
  unanswered : acknowledged ∉ s.engine.acknowledged →
    ∃ earlier message, s.reloads = earlier ++ [message] ∧ message.acknowledged = acknowledged ∧
      message.plugins = some (pluginSet rebuilt) ∧
      ∀ other ∈ earlier, other.acknowledged ≠ acknowledged

/-- Nothing is acknowledged that was not submitted. -/
structure Numbered (s : Service) : Prop where
  handled : ∀ a ∈ s.engine.acknowledged, a < s.outside.nextAcknowledged
  queued : ∀ message ∈ s.reloads, message.acknowledged < s.outside.nextAcknowledged
  waiting : ∀ rebuilt acknowledged, s.outside.reloading = .submitted rebuilt acknowledged →
    Answering s rebuilt acknowledged

variable {s t : Service} {step : Step}

theorem reloads_grown {message : CoreMessage} (grown : t.queue = s.queue ++ [(message, ())])
    (other : ∀ reload, message ≠ .reload reload) : t.reloads = s.reloads := by
  have none : reloadOf (message, ()) = none := by
    cases message with
    | reload message => exact absurd rfl (other message)
    | _ => rfl
  rw [reloads, grown, List.filterMap_append, List.filterMap_cons, none, List.filterMap_nil,
    List.append_nil]
  rfl

/-- What is waited for does not change where neither the reloads nor the core's objects do. -/
theorem Numbered.kept (numbered : Numbered s) (reloads : t.reloads = s.reloads)
    (acknowledged : t.engine.acknowledged = s.engine.acknowledged)
    (plugins : t.engine.plugins = s.engine.plugins)
    (next : t.outside.nextAcknowledged = s.outside.nextAcknowledged)
    (waits : ∀ rebuilt a, t.outside.reloading = .submitted rebuilt a →
      s.outside.reloading = .submitted rebuilt a) : Numbered t where
  handled := by
    rw [acknowledged, next]
    exact numbered.handled
  queued := by
    rw [reloads, next]
    exact numbered.queued
  waiting := by
    intro rebuilt a held
    obtain ⟨submitted, answered, unanswered⟩ := numbered.waiting rebuilt a (waits rebuilt a held)
    constructor
    · rwa [next]
    · rwa [acknowledged, plugins, reloads]
    · rwa [acknowledged, reloads]

theorem reloads_cons {entry : CoreMessage × Unit} {rest : List (CoreMessage × Unit)}
    (waiting : s.queue = entry :: rest) :
    s.reloads = (reloadOf entry).toList ++ rest.filterMap reloadOf := by
  rw [reloads, waiting, List.filterMap_cons]
  cases reloadOf entry <;> rfl

theorem Numbered.handledOther {w : World} {message : CoreMessage} {rest : List (CoreMessage × Unit)}
    {engine : Engine} (numbered : Numbered s) (waiting : s.queue = (message, ()) :: rest)
    (other : ∀ reload, message ≠ .reload reload)
    (ran : Engine.handle w message s.engine = .ok ⟨⟩ engine)
    (plugins : engine.plugins = s.engine.plugins) :
    Numbered { s with engine := engine, queue := rest } := by
  have kept := answers_handle w other s.engine
  rw [final_ok ran] at kept
  refine numbered.kept ?_ kept plugins rfl fun _ _ held => held
  have none : reloadOf (message, ()) = none := by
    cases message with
    | reload message => exact absurd rfl (other message)
    | _ => rfl
  rw [reloads_cons waiting, none]
  rfl

/-- The reload that is handled is the one that is waited for, or an earlier one. -/
theorem Numbered.handledReload {now : Time} {message : ReloadMessage}
    {rest : List (CoreMessage × Unit)} (numbered : Numbered s)
    (waiting : s.queue = (.reload message, ()) :: rest) :
    Numbered { s with engine := reloaded now message s.engine, queue := rest } := by
  have left : s.reloads = message :: rest.filterMap reloadOf := reloads_cons waiting
  have acknowledged := reloaded_acknowledged now message s.engine
  refine ⟨?_, ?_, ?_⟩
  · intro a member
    dsimp only at member ⊢
    rw [acknowledged, List.mem_cons] at member
    rcases member with rfl | member
    · exact numbered.queued message (left ▸ List.mem_cons_self)
    · exact numbered.handled a member
  · intro other member
    exact numbered.queued other (left ▸ List.mem_cons_of_mem _ member)
  · intro rebuilt a held
    obtain ⟨submitted, answered, unanswered⟩ := numbered.waiting rebuilt a held
    have unheard : a ∉ s.engine.acknowledged := by
      intro heard
      have none := (answered heard).2
      rw [left] at none
      cases none
    obtain ⟨earlier, last, queued, own, objects, apart⟩ := unanswered unheard
    rw [left] at queued
    cases earlier with
    | nil =>
      obtain ⟨rfl, none⟩ := List.cons.inj queued
      refine ⟨submitted, fun _ => ⟨?_, none⟩, fun missing => ?_⟩
      · dsimp only
        rw [reloaded_plugins, objects]
        rfl
      · refine absurd ?_ missing
        dsimp only
        rw [acknowledged, own]
        exact List.mem_cons_self
    | cons first earlier =>
      obtain ⟨rfl, later⟩ := List.cons.inj queued
      have differs : message.acknowledged ≠ a := apart message List.mem_cons_self
      refine ⟨submitted, fun heard => ?_, fun _ => ⟨earlier, last, later, own, objects,
        fun other member => apart other (List.mem_cons_of_mem _ member)⟩⟩
      dsimp only at heard
      rw [acknowledged, List.mem_cons] at heard
      exact absurd heard (not_or.mpr ⟨differs.symm, unheard⟩)

theorem Numbered.reloading {action : ReloadAction} (numbered : Numbered s)
    (took : Took s action t) : Numbered t := by
  cases took with
  | rejected idle => exact numbered
  | @submitted configuration shop built next held made =>
    have queue : (s.queue ++ [(CoreMessage.reload ⟨configuration,
        some (pluginSet (retain s.outside.live configuration built)), s.outside.nextAcknowledged⟩,
        ())]).filterMap reloadOf = s.reloads ++ [⟨configuration,
        some (pluginSet (retain s.outside.live configuration built)), s.outside.nextAcknowledged⟩] :=
      List.filterMap_append
    refine ⟨fun a member => ?_, fun message member => ?_, fun rebuilt a waits => ?_⟩
    · exact Nat.lt_succ_of_lt (numbered.handled a member)
    · change message ∈ (s.queue ++ [_]).filterMap reloadOf at member
      rw [queue, List.mem_append, List.mem_singleton] at member
      rcases member with member | rfl
      · exact Nat.lt_succ_of_lt (numbered.queued message member)
      · exact Nat.lt_succ_self _
    · cases waits
      refine ⟨Nat.lt_succ_self _, fun heard => ?_, fun _ => ⟨s.reloads, _, queue, rfl, rfl, ?_⟩⟩
      · exact absurd (numbered.handled _ heard) (Nat.lt_irrefl _)
      · exact fun other member => Nat.ne_of_lt (numbered.queued other member)
  | _ => exact numbered.kept rfl rfl rfl rfl fun _ _ held => by cases held

theorem Numbered.advanced (numbered : Numbered s) (stepped : advance s step = some t) :
    Numbered t := by
  cases step with
  | receive w =>
    obtain ⟨message, note, rest, engine, waiting, handled, rfl⟩ := Threads.receive_eq_some.mp stepped
    rcases Engine.advance_cases handled with ⟨other, reacted⟩ | ⟨_, reload, same, rfl⟩
    · exact numbered.handledOther waiting (other _ List.mem_cons_self)
        (Engine.advance_handle.mp handled) reacted.plugins
    · cases same
      exact numbered.handledReload waiting
  | tick w =>
    obtain ⟨engine, ticked, rfl⟩ := Threads.tick_eq_some.mp stepped
    have kept := answers_tick w s.engine
    rw [final_ok (Engine.advance_tick.mp ticked)] at kept
    exact numbered.kept rfl kept (tick_carried ticked).plugins rfl fun _ _ held => held
  | perform k applied =>
    obtain ⟨request, _, rfl⟩ := Threads.perform_eq_some.mp stepped
    have outside := call_shown s s.engine.dispatcher.outputs applied request
    refine numbered.kept rfl rfl rfl ?_ fun _ _ held => ?_
    · rw [outside]
    · rwa [outside] at held
  | report k =>
    obtain ⟨result, _, rfl⟩ := Threads.report_eq_some.mp stepped
    exact numbered.kept (reloads_grown rfl fun reload same => by cases same) rfl rfl rfl
      fun _ _ held => held
  | reload action => exact numbered.reloading (reload_took stepped)
  | _ =>
    cases stepped
    exact numbered.kept (reloads_grown rfl fun reload same => by cases same) rfl rfl rfl
      fun _ _ held => held

theorem Launched.numbered {boot : Daemon.Boot} {store : Store} {configuration : Configuration}
    (launched : Launched boot store configuration s) : Numbered s := by
  obtain ⟨_, m, handedOver, reconciled⟩ := bind_ok.mp launched.started
  obtain ⟨m₁, m₂, reload, first, second⟩ := Daemon.handOver_ok handedOver
  have adopted := reloaded_acknowledged boot.reloading.now ⟨configuration, some boot.plugins, 0⟩
    (Daemon.assemble boot.constructed store configuration)
  rw [← handleReload_ok.mp reload] at adopted
  have ticked := answers_tick boot.firstTick m₁
  rw [final_ok first] at ticked
  have again := answers_tick boot.secondTick m₂
  rw [final_ok second] at again
  have last := answers_reconcile boot.reconciling m
  rw [final_ok reconciled] at last
  have acknowledged : s.engine.acknowledged = [0] :=
    last.trans (again.trans (ticked.trans adopted))
  refine ⟨fun a member => ?_, fun message member => ?_, fun rebuilt a held => ?_⟩
  · rw [acknowledged, List.mem_singleton] at member
    rw [launched.acknowledged, member]
    exact Nat.one_pos
  · rw [reloads, launched.queue] at member
    cases member
  · rw [launched.idle] at held
    cases held

end Service

end NotiMapper
