import NotiMapper.Runtime

/-! The latch automaton: under input events, unlatch requests, push results and ticks
a rule's latch is a fold of the messages over its first record, in the store and in
the cache alike, whether a step returns or raises. -/
namespace NotiMapper

open Python Effect Engine

inductive Signal
  | event (message : InputEventMessage)
  | unlatch (message : UnlatchRequestMessage)
  | result (message : PushResultMessage)
  | tick

def Signal.step (w : World) : Signal → Step
  | .event message => .handle w (.inputEvent message)
  | .unlatch message => .handle w (.unlatchRequest message)
  | .result message => .handle w (.pushResult message)
  | .tick => .tick w

namespace Rule

def follow (rule : Rule) (record : LatchRecord) : World × Signal → LatchRecord
  | (_, .event message) => rule.hear message record
  | (w, .unlatch message) => rule.obey w.now message record
  | (_, .result _) | (_, .tick) => record

def hears (rule : Rule) : Signal → Bool
  | .event message => message.instanceName ∈ rule.inputs
  | _ => false

def yields (rule : Rule) : Signal → Bool
  | .unlatch message => message.instanceName ∈ rule.outputs
  | _ => false

/-- The automaton on states: set by an event, cleared by an unlatch request. -/
def next (rule : Rule) (state : Bool) (signal : Signal) : Bool :=
  (state || rule.hears signal) && !rule.yields signal

theorem follow_state (rule : Rule) (record : LatchRecord) (w : World) (signal : Signal) :
    (rule.follow record (w, signal)).state = rule.next record.state signal := by
  cases signal with
  | event message =>
    simp only [follow, hear, next, hears, yields]
    by_cases listed : message.instanceName ∈ rule.inputs <;> simp [listed, triggered]
  | unlatch message =>
    simp only [follow, obey, next, hears, yields]
    by_cases listed : message.instanceName ∈ rule.outputs <;>
      cases set : record.state <;> simp [listed, set, unlatched]
  | result message => simp [follow, next, hears, yields]
  | tick => simp [follow, next, hears, yields]

theorem follow_triggerCount (rule : Rule) (record : LatchRecord) (w : World) (signal : Signal) :
    (rule.follow record (w, signal)).triggerCount =
      record.triggerCount + if rule.hears signal then 1 else 0 := by
  cases signal with
  | event message =>
    simp only [follow, hear, hears]
    by_cases listed : message.instanceName ∈ rule.inputs <;> simp [listed, triggered]
  | unlatch message =>
    simp only [follow, obey, hears]
    split <;> simp [unlatched]
  | result message => simp [follow, hears]
  | tick => simp [follow, hears]

theorem follow_unconcerned (rule : Rule) (record : LatchRecord) (w : World) {signal : Signal}
    (deaf : rule.hears signal = false) (stubborn : rule.yields signal = false) :
    rule.follow record (w, signal) = record := by
  cases signal with
  | event message =>
    simp only [hears, decide_eq_false_iff_not] at deaf
    simp only [follow, hear, deaf, if_false]
  | unlatch message =>
    simp only [yields, decide_eq_false_iff_not] at stubborn
    simp only [follow, obey, stubborn, false_and, if_false]
  | result message => rfl
  | tick => rfl

theorem foldl_state (rule : Rule) (signals : List (World × Signal)) (record : LatchRecord) :
    (signals.foldl rule.follow record).state =
      (signals.map (·.2)).foldl rule.next record.state := by
  induction signals generalizing record with
  | nil => rfl
  | cons entry signals ih =>
    obtain ⟨w, signal⟩ := entry
    simp only [List.foldl_cons, List.map_cons, ih, follow_state]

theorem foldl_triggerCount (rule : Rule) (signals : List (World × Signal)) (record : LatchRecord) :
    (signals.foldl rule.follow record).triggerCount =
      record.triggerCount + (signals.map (·.2)).countP rule.hears := by
  induction signals generalizing record with
  | nil => rfl
  | cons entry signals ih =>
    obtain ⟨w, signal⟩ := entry
    simp only [List.foldl_cons, List.map_cons, ih, follow_triggerCount, List.countP_cons]
    omega

end Rule

namespace Engine

def PollsOnly (s : Engine) : Prop := ∀ timer ∈ s.timers, timer.message = .pollHealth

/-- No latch is touched, in the cache or in the store; the timers stay health polls. -/
structure LatchesKept (s t : Engine) : Prop where
  graph : t.graph = s.graph
  cache : t.latches = s.latches
  stored : t.store.latches = s.store.latches
  known : t.store.rules = s.store.rules
  polls : PollsOnly s → PollsOnly t

instance : IsPreorder Engine LatchesKept where
  refl _ := ⟨rfl, rfl, rfl, rfl, id⟩
  trans _ _ _ first second :=
    ⟨second.graph.trans first.graph, second.cache.trans first.cache,
      second.stored.trans first.stored, second.known.trans first.known,
      fun polls => second.polls (first.polls polls)⟩

theorem latchesKept_undone (s t : Engine) (kept : LatchesKept s t) :
    LatchesKept s { t with store := s.store } :=
  ⟨kept.graph, kept.cache, rfl, rfl, kept.polls⟩

theorem keeps_transaction {α : Type} {body : Core α} (kept : Keeps LatchesKept body) :
    Keeps LatchesKept (transaction body) := Keeps.restoring kept latchesKept_undone

theorem handlePushResult_latchesKept (w : World) (message : PushResultMessage) :
    Keeps LatchesKept (handlePushResult w message) := by
  have synced : Keeps LatchesKept
      (modify (syncOutputs w.now [message.instanceName]) : Core Unit) := by
    refine keeps_modify fun s => ?_
    rw [(syncOutputs_only w.now _ s).eq]
    exact ⟨rfl, rfl, rfl, rfl, id⟩
  refine Keeps.bind (keeps_modify fun _ => ⟨rfl, rfl, rfl, rfl, id⟩) fun _ => keeps_transaction ?_
  split
  · exact Keeps.bind (keeps_modify fun _ => ⟨rfl, rfl, rfl, rfl, id⟩) fun _ => synced
  · refine Keeps.bind ?_ fun _ => synced
    exact Keeps.bind keeps_get fun _ => Keeps.bind (keeps_raising _) fun _ =>
      Keeps.bind (keeps_raising _) fun _ =>
        Keeps.bind (keeps_modify fun _ => ⟨rfl, rfl, rfl, rfl, id⟩) fun _ =>
          keeps_modify fun _ => ⟨rfl, rfl, rfl, rfl, id⟩

theorem handlePollHealth_latchesKept (w : World) : Keeps LatchesKept (handlePollHealth w) := by
  refine handlePollHealth_keeps (fun _ _ _ => ⟨rfl, rfl, rfl, rfl, id⟩) latchesKept_undone ?_
  refine Keeps.bind (keeps_raising _) fun dueAt => keeps_modify fun s => ?_
  refine ⟨rfl, rfl, rfl, rfl, fun polls timer member => ?_⟩
  rcases List.mem_append.mp member with member | member
  · exact polls timer member
  · rw [List.mem_singleton.mp member]

theorem dispatchDuePushes_latchesKept (now : Time) (s : Engine) :
    LatchesKept s (s.dispatchDuePushes now) := by
  rw [(dispatchDuePushes_spec now s).only]
  exact ⟨rfl, rfl, rfl, rfl, id⟩

theorem fireDueTimers_latchesKept (w : World) (s : Engine) (polls : PollsOnly s) :
    LatchesKept s (final (fireDueTimers w) s) := by
  have remaining : LatchesKept s
      { s with timers := s.timers.filter fun timer => ¬ timer.dueAt ≤ w.now } :=
    ⟨rfl, rfl, rfl, rfl, fun polls timer member => polls timer (List.mem_of_mem_filter member)⟩
  refine trans_of LatchesKept remaining (Keeps.forM _ (fun timer member => ?_) _)
  rw [polls timer (List.mem_of_mem_filter member)]
  exact handlePollHealth_latchesKept w

theorem tick_latchesKept (w : World) (s : Engine) (polls : PollsOnly s) :
    LatchesKept s (final (tick w) s) := by
  have beat : LatchesKept s { s with heartbeat := some w.now } := ⟨rfl, rfl, rfl, rfl, id⟩
  refine trans_of LatchesKept beat ?_
  rw [tick, final_modify_bind]
  refine keeps_bind_from (fireDueTimers_latchesKept w _ polls) fun _ => ?_
  refine Keeps.bind (keeps_modify fun s => dispatchDuePushes_latchesKept w.now s) fun _ =>
    keeps_modify fun s => ?_
  rw [maybeWriteLastSeen_only]
  exact ⟨rfl, rfl, rfl, rfl, id⟩

/- Event and unlatch handlers return: the rows their writes refer to are there. -/

section Returning

variable {known : Table RuleRow}

theorem writeLatch_returns {n : Name} (row : n ∈ known) (record : LatchRecord) :
    Returns (fun s : Engine => s.store.rules = known) (writeLatch n record) := by
  intro s rows
  exact ⟨⟨⟩, _, writeLatch_ok.mpr ⟨rows ▸ row, rfl⟩, rows⟩

theorem appendEvent_returns (now : Time) (kind : EventKind) (i r : Option Name) (detail : String) :
    Returns (fun s : Engine => s.store.rules = known)
      (modify (appendEvent now kind i r detail) : Core Unit) :=
  returns_modify fun _ rows => rows

theorem applyTrigger_returns {w : World} {message : InputEventMessage} {n : Name}
    (row : n ∈ known) :
    Returns (fun s : Engine => s.store.rules = known) (applyTrigger w message n) := by
  refine Returns.bind returns_get fun s => ?_
  simp only
  split <;>
    exact Returns.bind (writeLatch_returns row _) fun _ => appendEvent_returns _ _ _ _ _

theorem syncOutputs_returns {now : Time} (names : Engine → List Name) :
    Returns (fun s : Engine => s.store.rules = known)
      (modify fun s => s.syncOutputs now (names s) : Core Unit) := by
  refine returns_modify fun s rows => ?_
  rw [(syncOutputs_only now (names s) s).eq]
  exact rows

theorem handleInputEvent_returns (w : World) (message : InputEventMessage) (s : Engine)
    (covered : ∀ r ∈ s.graph.entries, r.name ∈ s.store.rules) :
    ∃ t, handleInputEvent w message s = .ok ⟨⟩ t := by
  simp only [handleInputEvent, get_bind_ok]
  refine Returns.from_state (P := fun u => u.store.rules = s.store.rules) ?_ rfl
  refine Returns.restoring (Returns.bind (appendEvent_returns _ _ _ _ _) fun _ => ?_)
  split
  · exact returns_pure _
  · refine Returns.bind (Returns.forM _ fun r listed => applyTrigger_returns ?_) fun _ =>
      syncOutputs_returns _
    exact covered r (RuleGraph.mem_rulesForInput.mp listed).1

theorem handleUnlatch_returns (w : World) (message : UnlatchRequestMessage) (s : Engine)
    (covered : ∀ r ∈ s.graph.entries, r.name ∈ s.store.rules) :
    ∃ t, handleUnlatch w message s = .ok ⟨⟩ t := by
  simp only [handleUnlatch, get_bind_ok]
  refine Returns.from_state (P := fun u => u.store.rules = s.store.rules) ?_ rfl
  refine Returns.restoring ?_
  split
  · exact appendEvent_returns _ _ _ _ _
  · refine Returns.bind (Returns.forM _ fun r listed => ?_) fun _ => syncOutputs_returns _
    have row := covered r (RuleGraph.mem_rulesForOutput.mp (List.mem_of_mem_filter listed)).1
    exact Returns.bind returns_get fun _ =>
      Returns.bind (writeLatch_returns row _) fun _ => appendEvent_returns _ _ _ _ _

end Returning

/-- What the daemon's assembly establishes and every signal keeps. -/
structure Sound (s : Engine) : Prop where
  covered : ∀ r ∈ s.graph.entries, r.name ∈ s.store.rules
  stored : ∀ r ∈ s.graph.entries, r.name ∈ s.store.latches
  mirrored : s.latches = s.store.latches
  polls : PollsOnly s

def absorb (s : Engine) (entry : World × Signal) : Engine :=
  final (entry.2.step entry.1).perform s

theorem Latching.timers {now : Time} {rules : List Rule}
    {change : Rule → LatchRecord → LatchRecord} {s t : Engine}
    (latching : Latching now rules change s t) : t.timers = s.timers := by
  obtain ⟨m, synced, loop, rfl, _⟩ := latching
  rw [(syncOutputs_only now synced m).eq,
    loop.only.eq]

theorem Sound.moved {f : Rule → LatchRecord → LatchRecord} {s t : Engine} (sound : Sound s)
    (moved : Moves f s t) (timers : t.timers = s.timers) : Sound t where
  covered := by
    rw [moved.graph, moved.known]
    exact sound.covered
  stored := by
    rw [moved.graph]
    exact fun r hr => moved.writes.present (sound.stored r hr)
  mirrored := moved.writes.mirrored sound.mirrored
  polls := by
    intro timer member
    exact sound.polls timer (timers ▸ member)

theorem Sound.kept {s t : Engine} (sound : Sound s) (kept : LatchesKept s t) : Sound t where
  covered := by
    rw [kept.graph, kept.known]
    exact sound.covered
  stored := by
    rw [kept.graph, kept.stored]
    exact sound.stored
  mirrored := by rw [kept.cache, kept.stored, sound.mirrored]
  polls := kept.polls sound.polls

theorem absorb_spec (s : Engine) (sound : Sound s) (w : World) (signal : Signal) :
    Sound (absorb s (w, signal)) ∧ (absorb s (w, signal)).graph = s.graph ∧
    ∀ r ∈ s.graph.entries,
      (absorb s (w, signal)).latch r.name = r.follow (s.latch r.name) (w, signal) := by
  cases signal with
  | event message =>
    obtain ⟨t, ran⟩ := handleInputEvent_returns w message s sound.covered
    have here : absorb s (w, .event message) = t := final_ok ran
    have moved := handleInputEvent_moves ran
    rw [here]
    exact ⟨sound.moved moved (handleInputEvent_latching ran).timers, moved.graph, moved.latch⟩
  | unlatch message =>
    obtain ⟨t, ran⟩ := handleUnlatch_returns w message s sound.covered
    have here : absorb s (w, .unlatch message) = t := final_ok ran
    have moved := handleUnlatch_moves ran
    rw [here]
    exact ⟨sound.moved moved (handleUnlatch_latching ran).timers, moved.graph, moved.latch⟩
  | result message =>
    have kept := handlePushResult_latchesKept w message s
    refine ⟨sound.kept kept, kept.graph, fun r _ => ?_⟩
    simp only [latch, Rule.follow]
    rw [← kept.cache]
    rfl
  | tick =>
    have kept := tick_latchesKept w s sound.polls
    refine ⟨sound.kept kept, kept.graph, fun r _ => ?_⟩
    simp only [latch, Rule.follow]
    rw [← kept.cache]
    rfl

theorem absorb_all (signals : List (World × Signal)) (s : Engine) (sound : Sound s) :
    Sound (signals.foldl absorb s) ∧ (signals.foldl absorb s).graph = s.graph ∧
    ∀ r ∈ s.graph.entries,
      (signals.foldl absorb s).latch r.name = signals.foldl r.follow (s.latch r.name) := by
  induction signals generalizing s with
  | nil => exact ⟨sound, rfl, fun _ _ => rfl⟩
  | cons entry signals ih =>
    obtain ⟨w, signal⟩ := entry
    obtain ⟨once, graph, followed⟩ := absorb_spec s sound w signal
    obtain ⟨always, same, rest⟩ := ih _ once
    refine ⟨always, same.trans graph, fun r hr => ?_⟩
    rw [List.foldl_cons, List.foldl_cons, rest r (graph ▸ hr), followed r hr]

theorem Sound.agree {s : Engine} (sound : Sound s) {r : Rule} (known : r ∈ s.graph.entries) :
    s.store.latch r.name = some (s.latch r.name) ∧
      s.latches.lookup r.name = some (s.latch r.name) := by
  have present : (s.latches.lookup r.name).isSome := by
    rw [AList.lookup_isSome, sound.mirrored]
    exact sound.stored r known
  obtain ⟨record, found⟩ := Option.isSome_iff_exists.mp present
  simp only [Store.latch, ← sound.mirrored, latch, found, Option.getD_some, and_self]

theorem engineOver_sound (now : Time) (store : Store) (configuration : Configuration)
    (plugins : PluginSet) (dispatcher : Dispatcher) :
    Sound (Daemon.engineOver now store configuration plugins dispatcher) where
  covered := fun _ known => (Daemon.mirrorConfiguration_registered store configuration known).1
  stored := fun _ known => (Daemon.mirrorConfiguration_registered store configuration known).2
  mirrored := rfl
  polls := fun _ member => by rw [List.mem_singleton.mp member]

end Engine

end NotiMapper
