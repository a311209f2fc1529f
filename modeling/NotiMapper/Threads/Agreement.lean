import NotiMapper.Threads.Pushes

/-! Every output has a remote, a boolean, which a successful push sets and which a user
may switch off; the output then asks for an unlatch. At rest the remotes show the desired
values, unless an event sets a rule again between the unlatch and the push that would
have told the remote: the core then takes the remote to be on, as it last left it. -/
namespace NotiMapper

open Python Effect Engine

namespace Rule

variable {rule : Rule} {plugins : PluginSet} {record : LatchRecord}

theorem stays_clear {heard : List (World × CoreMessage)}
    (unheard : ∀ message ∈ heard, rule.verdict plugins message ≠ some true)
    (clear : record.state = false) :
    (heard.foldl (reacting plugins rule) record).state = false := by
  induction heard generalizing record with
  | nil => exact clear
  | cons message heard ih =>
    refine ih (fun later member => unheard later (List.mem_cons_of_mem message member)) ?_
    have first := unheard message List.mem_cons_self
    rw [reacting, react_state, Register.apply]
    cases verdict : rule.verdict plugins message with
    | none => exact clear
    | some value =>
      cases value with
      | false => rfl
      | true => exact absurd verdict first

end Rule

theorem Engine.desired_clear {s : Engine} {o : Name} :
    s.desired o = false ↔
      ∀ r ∈ s.graph.entries, o ∈ r.outputs → (s.latch r.name).state = false := by
  rw [← Bool.not_eq_true, desired, RuleGraph.desired_iff]
  simp only [latchStates, not_exists, not_and, Bool.not_eq_true]

theorem Engine.Reacted.desired_clear {heard : List (World × CoreMessage)} {s t : Engine}
    {o : Name} (reacted : Reacted heard s t) (clear : s.desired o = false)
    (unheard : ∀ r ∈ s.graph.entries, o ∈ r.outputs →
      ∀ message ∈ heard, r.verdict s.plugins message ≠ some true) : t.desired o = false := by
  rw [Engine.desired_clear] at clear ⊢
  intro r known listed
  rw [reacted.graph] at known
  rw [reacted.latch r known]
  exact Rule.stays_clear (unheard r known listed) (clear r known listed)

abbrev Household := Threads Unit (Name → Bool)

namespace Household

/-- What happens next: the core handles a message or ticks, an input observes an event, a
user switches a remote off, or a pool thread performs or reports a push. -/
inductive Step
  | receive (w : World)
  | tick (w : World)
  | observe (message : InputEventMessage)
  | clear (message : UnlatchRequestMessage)
  | perform (k : Nat) (applied : Except String Unit)
  | report (k : Nat)

def push (applied : Except String Unit) (request : PushRequest) (remote : Name → Bool) :
    Except String Unit × (Name → Bool) :=
  match applied with
  | .ok _ => (applied, Function.update remote request.instanceName request.update.state)
  | .error _ => (applied, remote)

/-- The output whose remote was switched off asks for an unlatch. -/
def clear (message : UnlatchRequestMessage) (s : Household) : Household :=
  { s with outside := Function.update s.outside message.instanceName false }.submit
    (.unlatchRequest message) ()

def advance (s : Household) : Step → Option Household
  | .receive w => s.receive w
  | .tick w => s.tick w
  | .observe message => some (s.submit (.inputEvent message) ())
  | .clear message => some (clear message s)
  | .perform k applied => s.perform (push applied) k
  | .report k => s.report () k

def Live (s : Household) (o : Name) : Prop :=
  o ∈ s.engine.graph.outputNames ∧ o ∈ s.engine.plugins.outputs

/-- No message, no pending push, and nothing in flight. -/
structure AtRest (s : Household) : Prop where
  queue : s.queue = []
  pushes : s.engine.store.pendingPushes.entries = []
  inFlight : s.engine.inFlight = ∅

def Agrees (s : Household) : Prop := ∀ o, Live s o → s.outside o = s.engine.desired o

/-- Every forced push has succeeded: nothing is on its way to the pool or back, and what
was last applied to an output is what its remote shows. -/
structure Delivered (s : Household) : Prop where
  inFlight : s.engine.inFlight = ∅
  pushing : s.pushing = []
  served : ∀ o ∈ s.engine.plugins.outputs, o ∈ s.engine.dispatcher.outputs
  keeping : ∀ entry ∈ s.queue, ∀ reload, entry.1 ≠ .reload reload
  synced : ∀ o, Live s o → Synced s.engine o
  applied : ∀ o, Live s o → s.engine.lastApplied o = some (s.outside o)

/-- What the core takes the remote to show, or will once it has handled the answers. -/
def Believes (s : Household) (o : Name) (value : Bool) : Prop :=
  (∃ answer ∈ s.answers, answer.instanceName = o ∧ answer.succeeded = true ∧
    answer.pushedValue = value) ∨
  (∀ answer ∈ s.answers, answer.instanceName = o → answer.succeeded = false) ∧
    s.engine.lastApplied o = some value

def Asked (s : Household) (o : Name) : Prop :=
  ∃ cause note, (.unlatchRequest ⟨o, cause⟩, note) ∈ s.queue

def Requested (s : Household) (o : Name) : Prop :=
  o ∈ s.engine.dispatcher.queue.map (·.instanceName)

/-- The remote was switched off, and the core takes it to be on. -/
def Misled (s : Household) (o : Name) : Prop := Believes s o true ∧ s.outside o = false

/-- The condition on a step. While an output misleads the core, has no push waiting and
its unlatch request has been handled, none of its rules is set again; nor does the push
fail that was still waiting when one of them was. -/
def Heeded (s : Household) : Step → Prop
  | .receive w =>
    ∀ message note rest, s.queue = (message, note) :: rest →
      ∀ o, Live s o → Misled s o → ¬ Asked s o → ¬ Requested s o →
        ∀ r ∈ s.engine.graph.entries, o ∈ r.outputs →
          r.verdict s.engine.plugins (w, message) ≠ some true
  | .tick w =>
    ∀ o, Live s o → Misled s o → ¬ Asked s o → ¬ Requested s o →
      ∀ r ∈ s.engine.graph.entries, o ∈ r.outputs →
        ∀ message ∈ (Engine.Step.tick w).messages s.engine,
          r.verdict s.engine.plugins message ≠ some true
  | .perform k (.error _) =>
    ∀ request, s.engine.dispatcher.queue[k]? = some request →
      Live s request.instanceName → Misled s request.instanceName →
      ¬ Asked s request.instanceName → s.engine.desired request.instanceName = false
  | _ => True

/-- Somebody will tell the remote that it is off, or it should be. -/
def Excused (s : Household) (o : Name) : Prop :=
  Asked s o ∨ Requested s o ∨ s.engine.desired o = false

/-- The core is right about the remote, or is misled but excused. -/
def Known (s : Household) (o : Name) : Prop :=
  Believes s o (s.outside o) ∨ Misled s o ∧ Excused s o

structure Sound (s : Household) : Prop where
  one : s.OneEach
  served : ∀ o ∈ s.engine.plugins.outputs, o ∈ s.engine.dispatcher.outputs
  keeping : ∀ entry ∈ s.queue, ∀ reload, entry.1 ≠ .reload reload
  synced : ∀ o, Live s o → Synced s.engine o
  known : ∀ o, Live s o → Known s o

variable {s t : Household} {o : Name}

theorem Delivered.sound (delivered : Delivered s) : Sound s where
  one := by
    refine ⟨by rw [delivered.pushing]; exact List.nodup_nil, fun o => ?_⟩
    rw [delivered.inFlight, delivered.pushing]
    simp
  served := delivered.served
  keeping := delivered.keeping
  synced := delivered.synced
  known := by
    intro o live
    have none : s.answers = [] := by
      have pushing := delivered.pushing
      rw [Threads.pushing, List.append_eq_nil_iff, List.map_eq_nil_iff, List.map_eq_nil_iff]
        at pushing
      exact pushing.2
    refine .inl (.inr ⟨?_, delivered.applied o live⟩)
    rw [none]
    exact fun answer member => by cases member

theorem Sound.agrees (sound : Sound s) (rest : AtRest s) : Agrees s := by
  intro o live
  have none : s.pushing = [] := by
    rw [List.eq_nil_iff_forall_not_mem]
    intro o pushing
    rw [← sound.one.flying, rest.inFlight] at pushing
    cases pushing
  rw [Threads.pushing, List.append_eq_nil_iff, List.map_eq_nil_iff, List.map_eq_nil_iff] at none
  have applied : s.engine.lastApplied o = some (s.engine.desired o) := by
    by_contra differs
    have row := (sound.synced o live).behind.mpr differs
    simp [Store.pendingPush, AList.lookup, rest.pushes] at row
  have believed : ∀ value, Believes s o value → value = s.engine.desired o := by
    rintro value (⟨answer, member, _⟩ | ⟨_, believed⟩)
    · rw [none.2] at member
      cases member
    · exact Option.some.inj (believed.symm.trans applied)
  rcases sound.known o live with believes | ⟨⟨believes, off⟩, asked | requested | clear⟩
  · exact believed _ believes
  · obtain ⟨cause, note, queued⟩ := asked
    rw [rest.queue] at queued
    cases queued
  · rw [Requested, none.1] at requested
    cases requested
  · rw [off, clear]

/- What one step preserves. -/

theorem Believes.congr {value : Bool} (believes : Believes s o value)
    (answers : ∀ answer, answer.instanceName = o → (answer ∈ t.answers ↔ answer ∈ s.answers))
    (applied : t.engine.lastApplied o = s.engine.lastApplied o) : Believes t o value :=
  Threads.Believes.congr believes answers applied

theorem Believes.received {value : Bool} {result : PushResultMessage}
    (believes : Believes s o value) (nodup : s.pushing.Nodup)
    (answers : s.answers.Perm (result :: t.answers))
    (applied : t.engine.lastApplied o =
      if result.succeeded ∧ o = result.instanceName then some result.pushedValue
      else s.engine.lastApplied o) : Believes t o value :=
  (Threads.believes_received nodup answers applied).mpr believes

theorem Known.congr (known : Known s o) (outside : t.outside o = s.outside o)
    (believes : ∀ value, Believes s o value → Believes t o value)
    (excused : Misled s o → Excused s o → Excused t o) : Known t o := by
  rcases known with right | ⟨misled, excuse⟩
  · exact .inl (outside ▸ believes _ right)
  · exact .inr ⟨⟨believes _ misled.1, outside.trans misled.2⟩, excused misled excuse⟩

theorem carried_live (carried : Carried s.engine t.engine)
    (live : Live t o) : Live s o := by
  unfold Live at live
  rw [carried.graph, carried.plugins] at live
  exact live

theorem carried_requested (carried : Carried s.engine t.engine)
    (requested : Requested s o) : Requested t o := by
  obtain ⟨requests, queue, _⟩ := carried.sent
  unfold Requested
  rw [queue, List.map_append]
  exact List.mem_append_left _ requested

/-- A step of the core other than on a push result or a reload. -/
theorem Sound.carried (sound : Sound s) (carried : Carried s.engine t.engine)
    (answers : t.answers = s.answers) (outside : t.outside = s.outside)
    (stays : ∀ entry ∈ t.queue, entry ∈ s.queue)
    (excused : ∀ o, Live s o → Misled s o → Excused s o → Excused t o) : Sound t where
  one := sound.one.carried carried answers
  served := by
    rw [carried.plugins, carried.served]
    exact sound.served
  keeping := fun entry member => sound.keeping entry (stays entry member)
  synced := fun o live =>
    carried.synced o (carried_live carried live).2
      (sound.synced o (carried_live carried live))
  known := by
    intro o live
    have live := carried_live carried live
    refine (sound.known o live).congr (by rw [outside]) (fun value believes => ?_) (excused o live)
    exact believes.congr (fun _ _ => by rw [answers]) (carried.lastApplied o)

theorem Sound.handled {w : World} {message : CoreMessage} {note : Unit}
    {rest : List (CoreMessage × Unit)} {engine : Engine} (sound : Sound s)
    (heeded : Heeded s (.receive w)) (waiting : s.queue = (message, note) :: rest)
    (own : ∀ result, message ≠ .pushResult result)
    (handled : Engine.advance s.engine (.handle w message) = some engine) :
    Sound { s with engine := engine, queue := rest } := by
  have keeping : ∀ reload, message ≠ .reload reload :=
    sound.keeping (message, note) (by rw [waiting]; exact List.mem_cons_self)
  have carried := handle_carried own keeping handled
  have reacted := advance_reacted (fun heard member => by
    rw [List.mem_singleton.mp member]
    exact keeping) handled
  have stays : ∀ entry ∈ rest, entry ∈ s.queue := by
    intro entry member
    rw [waiting]
    exact List.mem_cons_of_mem _ member
  refine sound.carried carried (Threads.answers_receive waiting own) rfl stays ?_
  intro o live misled excuse
  by_cases asked : Asked s o
  · obtain ⟨cause, about, queued⟩ := asked
    rw [waiting] at queued
    rcases List.mem_cons.mp queued with same | later
    · cases same
      refine .inr (.inr (Engine.desired_clear.mpr fun r known listed => ?_))
      rw [reacted.graph] at known
      refine (congrArg LatchRecord.state (reacted.latch r known)).trans ?_
      simp [Engine.Step.messages, reacting, Rule.react_state, Register.apply, Rule.verdict, listed]
    · exact .inl ⟨cause, about, later⟩
  · by_cases requested : Requested s o
    · exact .inr (.inl (carried_requested carried requested))
    · have clear := (excuse.resolve_left asked).resolve_left requested
      refine .inr (.inr (reacted.desired_clear clear fun r known listed heard member => ?_))
      rw [List.mem_singleton.mp member]
      exact heeded message note rest waiting o live misled asked requested r known listed

theorem Sound.ticked {w : World} {engine : Engine} (sound : Sound s) (heeded : Heeded s (.tick w))
    (ticked : Engine.advance s.engine (.tick w) = some engine) :
    Sound { s with engine := engine } := by
  have carried := tick_carried ticked
  have reacted := advance_reacted (fun heard member => by
    obtain ⟨timer, _, rfl⟩ := List.mem_map.mp member
    exact (scheduled_own timer).2) ticked
  refine sound.carried carried rfl rfl (fun _ => id) ?_
  intro o live misled excuse
  by_cases asked : Asked s o
  · exact .inl asked
  · by_cases requested : Requested s o
    · exact .inr (.inl (carried_requested carried requested))
    · have clear := (excuse.resolve_left asked).resolve_left requested
      exact .inr (.inr (reacted.desired_clear clear (heeded o live misled asked requested)))

theorem Sound.resulted {w : World} {result : PushResultMessage} {note : Unit}
    {rest : List (CoreMessage × Unit)} {engine : Engine} (sound : Sound s)
    (waiting : s.queue = (.pushResult result, note) :: rest)
    (handled : Engine.advance s.engine (.handle w (.pushResult result)) = some engine) :
    Sound { s with engine := engine, queue := rest } := by
  have resulted : Resulted result s.engine engine := handlePushResult_resulted (Engine.advance_handle.mp handled)
  have answers := Threads.answers_received engine waiting
  have stays : ∀ entry ∈ rest, entry ∈ s.queue := by
    intro entry member
    rw [waiting]
    exact List.mem_cons_of_mem _ member
  have desired : ∀ o, engine.desired o = s.engine.desired o := fun o =>
    Engine.desired_congr resulted.graph fun r _ _ => resulted.latch r.name
  have before : ∀ o, Live { s with engine := engine, queue := rest } o → Live s o := by
    intro o live
    unfold Live at live
    rw [resulted.graph, resulted.plugins] at live
    exact live
  constructor
  case one => exact sound.one.received waiting resulted
  case served =>
    rw [resulted.plugins, resulted.dispatcher]
    exact sound.served
  case keeping => exact fun entry member => sound.keeping entry (stays entry member)
  case synced => exact fun o live => (resulted.settles o).synced (sound.synced o (before o live))
  case known =>
    intro o live
    refine (sound.known o (before o live)).congr rfl (fun value believes => ?_) ?_
    · exact believes.received sound.one.nodup answers (resulted.lastApplied o)
    · rintro _ (⟨cause, about, queued⟩ | requested | clear)
      · rw [waiting] at queued
        rcases List.mem_cons.mp queued with same | later
        · cases same
        · exact .inl ⟨cause, about, later⟩
      · refine .inr (.inl ?_)
        unfold Requested
        rw [resulted.dispatcher]
        exact requested
      · exact .inr (.inr ((desired o).trans clear))

theorem Sound.submitted (sound : Sound s) (message : CoreMessage)
    (own : ∀ result, message ≠ .pushResult result) (keeping : ∀ reload, message ≠ .reload reload) :
    Sound (s.submit message ()) := by
  have answers := Threads.answers_submit (s := s) () own
  constructor
  case one => exact sound.one.kept rfl rfl (.of_eq answers)
  case served => exact sound.served
  case keeping =>
    intro entry member
    rcases List.mem_append.mp member with member | added
    · exact sound.keeping entry member
    · rw [List.mem_singleton.mp added]
      exact keeping
  case synced => exact sound.synced
  case known =>
    intro o live
    refine (sound.known o live).congr rfl
      (fun value believes => believes.congr (fun _ _ => by rw [answers]) rfl) ?_
    rintro _ (⟨cause, note, queued⟩ | rest)
    · exact .inl ⟨cause, note, List.mem_append_left _ queued⟩
    · exact .inr rest

theorem Sound.cleared (sound : Sound s) (message : UnlatchRequestMessage) :
    Sound (clear message s) := by
  have submitted := sound.submitted (.unlatchRequest message) (by simp) (by simp)
  have answers : (clear message s).answers = s.answers :=
    Threads.answers_submit (s := { s with
      outside := Function.update s.outside message.instanceName false }) () (by simp)
  have transfer : ∀ o value, Believes s o value → Believes (clear message s) o value :=
    fun o value believes => believes.congr (fun _ _ => by rw [answers]) rfl
  constructor
  case one => exact ⟨submitted.one.nodup, submitted.one.flying⟩
  case served => exact submitted.served
  case keeping => exact submitted.keeping
  case synced => exact submitted.synced
  case known =>
    intro o live
    by_cases same : o = message.instanceName
    · subst same
      have off : (clear message s).outside message.instanceName = false := Function.update_self ..
      have asked : Asked (clear message s) message.instanceName :=
        ⟨message.cause, (), List.mem_append_right _ (List.mem_singleton.mpr rfl)⟩
      have known : ∃ value, Believes s message.instanceName value :=
        (sound.known _ live).elim (fun right => ⟨_, right⟩) fun wrong => ⟨_, wrong.1.1⟩
      obtain ⟨value, believes⟩ := known
      cases value with
      | false => exact .inl (off ▸ transfer _ _ believes)
      | true => exact .inr ⟨⟨transfer _ _ believes, off⟩, .inl asked⟩
    · refine (sound.known o live).congr (Function.update_of_ne same ..) (transfer o) ?_
      rintro _ (⟨cause, note, queued⟩ | rest)
      · exact .inl ⟨cause, note, List.mem_append_left _ queued⟩
      · exact .inr rest

theorem call_other {applied : Except String Unit} {request : PushRequest}
    (other : o ≠ request.instanceName) :
    (s.call (push applied) request).2 o = s.outside o := by
  unfold Threads.call
  split
  · cases applied with
    | error failure => rfl
    | ok _ => exact Function.update_of_ne other ..
  · rfl

theorem Sound.performed {k : Nat} {applied : Except String Unit} (sound : Sound s)
    (heeded : Heeded s (.perform k applied)) (performed : s.perform (push applied) k = some t) :
    Sound t := by
  have one := sound.one.performed performed
  obtain ⟨request, found, rfl⟩ := Threads.perform_eq_some.mp performed
  have alone := sound.one.unanswered found
  constructor
  case one => exact one
  case served => exact sound.served
  case keeping => exact sound.keeping
  case synced => exact fun o live => ⟨(sound.synced o live).behind, (sound.synced o live).target⟩
  case known =>
    intro o live
    have live : Live s o := live
    by_cases same : o = request.instanceName
    · subst same
      have called : s.call (push applied) request = push applied request s.outside :=
        if_pos (sound.served _ live.2)
      have listed := sound.served _ live.2
      cases applied with
      | ok done =>
        left
        rw [called]
        refine .inl ⟨_, List.mem_cons_self, Dispatcher.perform_instanceName .., ?_, ?_⟩
        · simp [Dispatcher.perform, listed, push]
        · simp [push]
      | error failure =>
        refine (sound.known _ live).congr (by rw [called]; rfl) (fun value believes => ?_) ?_
        · rcases believes with ⟨answer, member, same, _⟩ | ⟨_, last⟩
          · exact absurd same (alone answer member)
          · refine .inr ⟨fun answer member same => ?_, last⟩
            rcases List.mem_cons.mp member with rfl | before
            · simp [Dispatcher.perform, listed, called, push]
            · exact absurd same (alone answer before)
        · intro misled _
          by_cases asked : Asked s request.instanceName
          · exact .inl asked
          · exact .inr (.inr (heeded request found live misled asked))
    · refine (sound.known o live).congr (call_other same) (fun value believes => ?_) ?_
      · refine believes.congr (fun answer name => ?_) rfl
        simp only [Threads.answers, List.cons_append, List.mem_cons]
        rw [or_iff_right]
        rintro rfl
        exact same (name.symm.trans (Dispatcher.perform_instanceName ..))
      · rintro _ (asked | requested | clear)
        · exact .inl asked
        · refine .inr (.inl ?_)
          exact (Threads.taken_others found same).mpr requested
        · exact .inr (.inr clear)

theorem Sound.reported {k : Nat} (sound : Sound s) (reported : s.report () k = some t) :
    Sound t := by
  have answers := Threads.answers_report reported
  have one := sound.one.reported reported
  obtain ⟨result, _, rfl⟩ := Threads.report_eq_some.mp reported
  constructor
  case one => exact one
  case served => exact sound.served
  case keeping =>
    intro entry member
    rcases List.mem_append.mp member with member | added
    · exact sound.keeping entry member
    · rw [List.mem_singleton.mp added]
      simp
  case synced => exact sound.synced
  case known =>
    intro o live
    refine (sound.known o live).congr rfl
      (fun value believes => believes.congr (fun _ _ => answers.mem_iff) rfl) ?_
    rintro _ (⟨cause, note, queued⟩ | rest)
    · exact .inl ⟨cause, note, List.mem_append_left _ queued⟩
    · exact .inr rest

theorem Sound.advanced {step : Step} (sound : Sound s) (heeded : Heeded s step)
    (stepped : advance s step = some t) : Sound t := by
  cases step with
  | receive w =>
    obtain ⟨message, note, rest, engine, waiting, handled, rfl⟩ := Threads.receive_eq_some.mp stepped
    cases message with
    | pushResult result => exact sound.resulted waiting handled
    | _ => exact sound.handled heeded waiting (by simp) handled
  | tick w =>
    obtain ⟨engine, ticked, rfl⟩ := Threads.tick_eq_some.mp stepped
    exact sound.ticked heeded ticked
  | observe message =>
    cases stepped
    exact sound.submitted _ (by simp) (by simp)
  | clear message =>
    cases stepped
    exact sound.cleared message
  | perform k applied => exact sound.performed heeded stepped
  | report k => exact sound.reported stepped

/-- From the moment the forced pushes have succeeded, in every run whose steps are heeded
the remotes agree with the desired values whenever the daemon is at rest. -/
theorem agreement_at_rest (s t : Household) (steps : List Step) (delivered : Delivered s)
    (heeded : Transition.Throughout advance Heeded s steps)
    (ran : Transition.run advance s steps = some t) (rest : AtRest t) : Agrees t := by
  have sound := Transition.guarded_invariant
    (fun _ _ _ sound heeded stepped => Sound.advanced sound heeded stepped)
    delivered.sound heeded ran
  exact sound.agrees rest

/-- The lamp's latch is set, and the push that reconciliation forces succeeds. -/
def lampOn : Household :=
  (Transition.run advance
    { engine := Sample.started (Sample.store { LatchRecord.fresh with state := true })
      queue := []
      results := []
      outside := fun _ => false }
    [.perform 0 (.ok ()), .report 0, .receive (Sample.quiet 6)]).get (by decide +kernel)

theorem live_lamp (live : Live lampOn o) : o = "lamp" := by
  have names : lampOn.engine.graph.outputNames = ["lamp"] := by decide +kernel
  have listed := live.1
  rw [names] at listed
  exact List.mem_singleton.mp listed

theorem lampOn_delivered : Delivered lampOn where
  inFlight := by decide +kernel
  pushing := by decide +kernel
  served := by
    have same : lampOn.engine.dispatcher.outputs = lampOn.engine.plugins.outputs :=
      AList.ext (by decide +kernel)
    rw [same]
    exact fun _ => id
  keeping := by
    have empty : lampOn.queue = [] := List.isEmpty_iff.mp (by decide +kernel)
    rw [empty]
    exact fun _ member => by cases member
  synced := by
    intro o live
    cases live_lamp live
    have none : lampOn.engine.store.pendingPush "lamp" = none := by decide +kernel
    refine ⟨by decide +kernel, fun push stored => ?_⟩
    rw [none] at stored
    cases stored
  applied := by
    intro o live
    cases live_lamp live
    decide +kernel

/-- The user switches the lamp off; the unlatch is handled, and before the push it calls
for is dispatched an event sets the latch again: the push is forgotten, the lamp is off. -/
theorem lamp_left_off :
    ¬ ∀ (s t : Household) (steps : List Step), Delivered s →
      Transition.run advance s steps = some t → AtRest t → Agrees t := by
  intro agrees
  have ran : Transition.run advance lampOn
      [.clear ⟨"lamp", "switched off"⟩, .receive (Sample.quiet 7),
        .observe ⟨"mail", ⟨8, "post"⟩⟩, .receive (Sample.quiet 8)] = _ :=
    (Option.some_get (by decide +kernel)).symm
  have same := agrees _ _ _ lampOn_delivered ran
    ⟨List.isEmpty_iff.mp (by decide +kernel), by decide +kernel, by decide +kernel⟩ "lamp"
    ⟨by decide +kernel, by decide +kernel⟩
  revert same
  decide +kernel

theorem lamp_stays_on : ∃ t, Transition.run advance lampOn
    [.observe ⟨"mail", ⟨7, "post"⟩⟩, .receive (Sample.quiet 7)] = some t ∧ Agrees t := by
  have ran : Transition.run advance lampOn
      [.observe ⟨"mail", ⟨7, "post"⟩⟩, .receive (Sample.quiet 7)] = _ :=
    (Option.some_get (by decide +kernel)).symm
  have heeded : Transition.Throughout advance Heeded lampOn
      [.observe ⟨"mail", ⟨7, "post"⟩⟩, .receive (Sample.quiet 7)] := by
    refine ⟨trivial, fun observed stepped => ⟨?_, fun _ _ => trivial⟩⟩
    cases stepped
    intro message note rest waiting o live misled
    cases live_lamp live
    have on : lampOn.outside "lamp" = true := by decide +kernel
    exact absurd (on.symm.trans misled.2) (by decide)
  exact ⟨_, ran, agreement_at_rest _ _ _ lampOn_delivered heeded ran
    ⟨List.isEmpty_iff.mp (by decide +kernel), by decide +kernel, by decide +kernel⟩⟩

end Household

end NotiMapper
