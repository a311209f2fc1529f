import NotiMapper.Threads.Reload

/-! Outputs whose object a reload replaces. What was last applied is recorded under the
instance's name and outlives the object it was applied to, so the core may take a new
object to be right that has never been told anything. It finds out only if a push is on
its way anyway, or if it goes on to want something else. -/
namespace NotiMapper

open Python Effect Engine

def RuleGraph.wanted (g : RuleGraph) (rows : Table LatchRecord) (instanceName : Name) : Bool :=
  g.desiredOutputState instanceName fun name => ((rows.lookup name).getD .fresh).state

/-- What the object that is listed for the output has last been told. -/
def Surroundings.shownBy (outside : Surroundings) (outputs : Table PluginRef) (o : Name) :
    Option Bool :=
  (outputs.lookup o).bind fun plugin => outside.shown (o, plugin)

namespace Service

/-- At rest the live object of every output was last told the desired value. -/
def Agrees (s : Service) : Prop :=
  ∀ o ∈ s.engine.graph.outputNames, o ∈ s.engine.plugins.outputs →
    s.engine.store.pendingPush o = none → o ∉ s.engine.inFlight →
    s.outside.shownBy s.engine.plugins.outputs o = some (s.engine.desired o)

/-- A push of this value is pending, or waits for the pool. -/
def Pushed (s : Service) (o : Name) (value : Bool) : Prop :=
  (∃ push, s.engine.store.pendingPush o = some push ∧ push.targetValue = value) ∨
    ∃ request ∈ s.engine.dispatcher.queue, request.instanceName = o ∧ request.update.state = value

/-- An output whose object the step replaces is left with a push of the desired value. -/
def Renews (s : Service) (step : Step) : Prop :=
  ∀ t, advance s step = some t → ∀ o ∈ t.engine.graph.outputNames, o ∈ t.engine.plugins.outputs →
    ∀ old ∈ s.engine.plugins.outputs.lookup o, t.engine.plugins.outputs.lookup o ≠ some old →
    Pushed t o (t.engine.desired o)

/- The condition on a step. -/

def Requested (s : Service) (o : Name) : Prop :=
  o ∈ s.engine.dispatcher.queue.map (·.instanceName)

/-- If the core takes the output to be at the value, its object is, or is told again. -/
def Told (s : Service) (outputs : Table PluginRef) (o : Name) (value : Bool) : Prop :=
  s.Believes o value → s.outside.shownBy outputs o = some value ∨ Requested s o

def AllTold (s : Service) (graph : RuleGraph) (outputs : Table PluginRef)
    (desired : Name → Bool) : Prop :=
  ∀ o ∈ graph.outputNames, o ∈ outputs → Told s outputs o (desired o)

/-- Of an object that is replaced, something else was last applied than what is wanted
now, or that waits for the pool. -/
def Outdated (s : Service) (graph : RuleGraph) (outputs : Table PluginRef)
    (desired : Name → Bool) : Prop :=
  ∀ o ∈ graph.outputNames, o ∈ outputs → ∀ old ∈ s.engine.plugins.outputs.lookup o,
    outputs.lookup o ≠ some old → s.engine.lastApplied o ≠ some (desired o) ∨
      ∃ request ∈ s.engine.dispatcher.queue,
        request.instanceName = o ∧ request.update.state = desired o

def InformedOf (s : Service) (w : World) : CoreMessage → Prop
  | .reload message =>
    let graph := RuleGraph.fromConfiguration message.configuration
    let outputs := (message.plugins.getD s.engine.plugins).outputs
    AllTold s graph outputs (graph.wanted s.engine.store.latches) ∧
      Outdated s graph outputs (graph.wanted s.engine.store.latches)
  | message => AllTold s s.engine.graph s.engine.plugins.outputs
      (s.engine.desiredAfter [(w, message)])

/-- The core is not brought to want a value that it wrongly takes an object to have. -/
def Informed (s : Service) : Step → Prop
  | .receive w => ∀ entry ∈ s.queue.head?, InformedOf s w entry.1
  | .tick w => AllTold s s.engine.graph s.engine.plugins.outputs
      (s.engine.desiredAfter ((Engine.Step.tick w).messages s.engine))
  | .perform k (.error _) => ∀ request ∈ s.engine.dispatcher.queue[k]?,
    request.instanceName ∈ s.engine.graph.outputNames →
    request.instanceName ∈ s.engine.plugins.outputs →
    s.Believes request.instanceName (s.engine.desired request.instanceName) →
    s.outside.shownBy s.engine.plugins.outputs request.instanceName =
      some (s.engine.desired request.instanceName)
  | .reload .assign => ∀ rows ∈ s.outside.reloading.rows,
    AllTold s s.engine.graph s.engine.plugins.outputs (s.engine.graph.wanted rows) ∧
      ∀ o ∈ s.engine.graph.outputNames, Covered { s.engine with latches := rows } o
  | _ => True

instance (s : Service) (o : Name) : Decidable (Requested s o) :=
  inferInstanceAs (Decidable (_ ∈ _))

instance (s : Service) (outputs : Table PluginRef) (o : Name) (value : Bool) :
    Decidable (Told s outputs o value) := inferInstanceAs (Decidable (_ → _))

instance (s : Service) (graph : RuleGraph) (outputs : Table PluginRef) (desired : Name → Bool) :
    Decidable (AllTold s graph outputs desired) :=
  inferInstanceAs (Decidable (∀ o ∈ graph.outputNames, o ∈ outputs → Told s outputs o (desired o)))

instance (s : Service) (graph : RuleGraph) (outputs : Table PluginRef) (desired : Name → Bool) :
    Decidable (Outdated s graph outputs desired) :=
  inferInstanceAs (Decidable (∀ o ∈ graph.outputNames, o ∈ outputs →
    ∀ old ∈ s.engine.plugins.outputs.lookup o, outputs.lookup o ≠ some old →
    s.engine.lastApplied o ≠ some (desired o) ∨ ∃ request ∈ s.engine.dispatcher.queue,
      request.instanceName = o ∧ request.update.state = desired o))

instance (s : Service) (w : World) (message : CoreMessage) : Decidable (InformedOf s w message) :=
  match message with
  | .reload _ => inferInstanceAs (Decidable (AllTold .. ∧ Outdated ..))
  | .inputEvent _ | .unlatchRequest _ | .pushResult _ | .reconcileOutput _ | .catchUp _
  | .pollHealth | .shutdown => inferInstanceAs (Decidable (AllTold ..))

instance (s : Engine) (o : Name) : Decidable (Covered s o) :=
  inferInstanceAs (Decidable (_ → _ → _))

instance (s : Service) (step : Step) : Decidable (Informed s step) :=
  match step with
  | .receive w => inferInstanceAs (Decidable (∀ entry ∈ s.queue.head?, InformedOf s w entry.1))
  | .tick _ => inferInstanceAs (Decidable (AllTold ..))
  | .perform k (.error _) => inferInstanceAs (Decidable (∀ request ∈ s.engine.dispatcher.queue[k]?,
    _ → _ → _ → _ = _))
  | .reload .assign => inferInstanceAs (Decidable (∀ rows ∈ s.outside.reloading.rows,
    AllTold .. ∧ ∀ o ∈ s.engine.graph.outputNames, Covered { s.engine with latches := rows } o))
  | .perform _ (.ok _) | .emit _ | .requestUnlatch _ | .requestStop | .report _ => isTrue trivial
  | .reload .reject | .reload (.mirror _) | .reload .read | .reload (.build _) | .reload .adopt
  | .reload .giveUp => isTrue trivial

/- The invariant. -/

structure Sound (s : Service) : Prop where
  one : s.OneEach
  served : s.engine.dispatcher.outputs = s.engine.plugins.outputs
  covered : ∀ o ∈ s.engine.graph.outputNames, Covered s.engine o
  told : AllTold s s.engine.graph s.engine.plugins.outputs s.engine.desired

variable {s t : Service} {step : Step} {o : Name}

theorem Sound.agrees (sound : Sound s) : Agrees s := by
  intro o member live unpushed landed
  have pushing := (sound.one.flying o).not.mp landed
  rw [Threads.pushing, List.mem_append, not_or] at pushing
  have applied : s.engine.lastApplied o = some (s.engine.desired o) := by
    by_contra differs
    have row := sound.covered o member live differs
    rw [unpushed] at row
    cases row
  have silent : ∀ answer ∈ s.answers, answer.instanceName = o → answer.succeeded = false :=
    fun answer known same => absurd (List.mem_map.mpr ⟨answer, known, same⟩) pushing.2
  rcases sound.told o member live (.inr ⟨silent, applied⟩) with shown | requested
  · exact shown
  · exact absurd requested pushing.1

theorem Told.congr {outputs : Table PluginRef} {value : Bool} (told : Told s outputs o value)
    (believes : t.Believes o value → s.Believes o value)
    (shown : t.outside.shownBy outputs o = s.outside.shownBy outputs o)
    (requested : Requested s o → Requested t o) : Told t outputs o value :=
  fun believed => (told (believes believed)).imp (fun right => shown.trans right) requested

theorem Sound.kept (sound : Sound s) (graph : t.engine.graph = s.engine.graph)
    (plugins : t.engine.plugins = s.engine.plugins)
    (dispatcher : t.engine.dispatcher = s.engine.dispatcher)
    (inFlight : t.engine.inFlight = s.engine.inFlight)
    (same : ∀ o, SameOutput s.engine t.engine o) (answers : t.answers.Perm s.answers)
    (shown : t.outside.shown = s.outside.shown) : Sound t where
  one := sound.one.kept inFlight (by rw [dispatcher]) answers
  served := by
    rw [dispatcher, plugins]
    exact sound.served
  covered := fun o member =>
    covered_standing.same (same o) plugins (sound.covered o (graph ▸ member))
  told := by
    intro o member live
    rw [graph] at member
    rw [plugins] at live ⊢
    rw [(same o).desired]
    refine (sound.told o member live).congr (fun believes => ?_) ?_ ?_
    · exact believes.congr (fun answer _ => answers.symm.mem_iff) (same o).lastApplied.symm
    · rw [Surroundings.shownBy, shown]
      rfl
    · intro requested
      rw [Requested, dispatcher]
      exact requested

theorem Sound.carried {heard : List (World × CoreMessage)} (sound : Sound s)
    (carried : Carried s.engine t.engine) (reacted : Reacted heard s.engine t.engine)
    (covered : ∀ o ∈ t.engine.graph.outputNames, Covered t.engine o)
    (answers : t.answers = s.answers) (outside : t.outside = s.outside)
    (informed : AllTold s s.engine.graph s.engine.plugins.outputs (s.engine.desiredAfter heard)) :
    Sound t where
  one := sound.one.carried carried answers
  served := by
    rw [carried.plugins, carried.served]
    exact sound.served
  covered := covered
  told := by
    intro o member live
    rw [carried.graph] at member
    rw [carried.plugins] at live ⊢
    rw [reacted.desired]
    refine (informed o member live).congr (fun believes => ?_) (by rw [outside]) ?_
    · exact believes.congr (fun answer _ => by rw [answers]) (carried.lastApplied o).symm
    · intro requested
      obtain ⟨requests, queue, _⟩ := carried.sent
      rw [Requested, queue, List.map_append]
      exact List.mem_append_left _ requested

theorem Sound.resulted {result : PushResultMessage} {note : Unit}
    {rest : List (CoreMessage × Unit)} {engine : Engine} (sound : Sound s)
    (waiting : s.queue = (.pushResult result, note) :: rest)
    (resulted : Resulted result s.engine engine)
    (covered : ∀ o ∈ engine.graph.outputNames, Covered engine o) :
    Sound { s with engine := engine, queue := rest } where
  one := sound.one.received waiting resulted
  served := by
    rw [resulted.plugins, resulted.dispatcher]
    exact sound.served
  covered := covered
  told := by
    intro o member live
    rw [resulted.graph] at member
    rw [resulted.plugins] at live ⊢
    have desired : engine.desired o = s.engine.desired o :=
      Engine.desired_congr resulted.graph fun r _ _ => resulted.latch r.name
    rw [desired]
    have answers := Threads.answers_received engine waiting
    refine (sound.told o member live).congr ?_ rfl fun requested => ?_
    · exact (Threads.believes_received sound.one.nodup answers (resulted.lastApplied o)).mp
    · rw [Requested, resulted.dispatcher]
      exact requested

theorem reloaded_desired (now : Time) (message : ReloadMessage) (s : Engine) (o : Name) :
    (reloaded now message s).desired o =
      (RuleGraph.fromConfiguration message.configuration).wanted s.store.latches o := by
  have wanted : (reloaded now message s).desired o =
      (reloaded now message s).graph.wanted (reloaded now message s).latches o := rfl
  rw [wanted, reloaded_graph, (reloaded_latches now message s).1]

theorem Sound.reloaded {w : World} {message : ReloadMessage} {note : Unit}
    {rest : List (CoreMessage × Unit)} (sound : Sound s)
    (waiting : s.queue = (.reload message, note) :: rest)
    (informed : InformedOf s w (.reload message))
    (covered : ∀ o ∈ (reloaded w.now message s.engine).graph.outputNames,
      Covered (reloaded w.now message s.engine) o) :
    Sound { s with engine := reloaded w.now message s.engine, queue := rest } := by
  obtain ⟨inFlight, queue, applied⟩ := reloaded_pushing w.now message s.engine
  have answers : ({ s with engine := Engine.reloaded w.now message s.engine, queue := rest } :
      Service).answers = s.answers := Threads.answers_receive waiting (by simp)
  constructor
  case one => exact sound.one.kept inFlight queue (.of_eq answers)
  case served => exact reloaded_served w.now message sound.served
  case covered => exact covered
  case told =>
    intro o member live
    rw [reloaded_graph] at member
    rw [reloaded_plugins] at live ⊢
    rw [reloaded_desired]
    refine (informed.1 o member live).congr (fun believes => ?_) rfl fun requested => ?_
    · exact believes.congr (fun answer _ => by rw [answers]) (applied o).symm
    · rw [Requested, queue]
      exact requested

theorem call_shownBy {outputs : Table PluginRef} {applied : Except String Unit}
    {request : PushRequest} (other : o ≠ request.instanceName) (table : Table PluginRef) :
    (s.call (apply outputs applied) request).2.shownBy table o = s.outside.shownBy table o := by
  unfold Threads.call apply
  split
  · split
    · refine congrArg _ (funext fun plugin => Function.update_of_ne ?_ ..)
      exact fun same => other (Prod.mk.inj same).1
    · rfl
  · rfl

/-- A push that succeeds tells the object what the core then believes; one that fails
leaves both as they were. -/
theorem Told.performed {k : Nat} {applied : Except String Unit} {request : PushRequest}
    (sound : Sound s) (informed : Informed s (.perform k applied))
    (found : s.engine.dispatcher.queue[k]? = some request)
    (known : request.instanceName ∈ s.engine.graph.outputNames)
    (live : request.instanceName ∈ s.engine.plugins.outputs)
    (answers : t.answers = s.engine.dispatcher.perform request
      (s.call (apply s.engine.dispatcher.outputs applied) request).1 :: s.answers)
    (outside : t.outside = (s.call (apply s.engine.dispatcher.outputs applied) request).2)
    (last : ∀ o, t.engine.lastApplied o = s.engine.lastApplied o) :
    Told t s.engine.plugins.outputs request.instanceName
      (s.engine.desired request.instanceName) := by
  have listed : request.instanceName ∈ s.engine.dispatcher.outputs := sound.served ▸ live
  have called : s.call (apply s.engine.dispatcher.outputs applied) request =
      apply s.engine.dispatcher.outputs applied request s.outside := if_pos listed
  have alone := sound.one.unanswered found
  intro believes
  have answered := Threads.believes_answered (s.engine.desired request.instanceName) answers
    (by simpa using alone) (last _)
  rw [Dispatcher.perform_instanceName, Dispatcher.perform_pushedValue,
    Dispatcher.perform_succeeded _ listed, called] at answered
  obtain ⟨plugin, object⟩ := Option.isSome_iff_exists.mp (AList.lookup_isSome.mpr listed)
  left
  rw [outside, called]
  cases applied with
  | ok done =>
    simp only [apply, object, Except.isOk, Except.toBool, if_true] at answered ⊢
    rw [Surroundings.shownBy, ← sound.served, object, Option.bind_some]
    exact (Function.update_self ..).trans (congrArg some (answered.mp believes))
  | error failure =>
    simp only [apply, Except.isOk, Except.toBool, Bool.false_eq_true, if_false] at answered ⊢
    exact informed request found known live (answered.mp believes)

theorem Sound.performed {k : Nat} {applied : Except String Unit} (sound : Sound s)
    (informed : Informed s (.perform k applied))
    (performed : s.perform (apply s.engine.dispatcher.outputs applied) k = some t) : Sound t := by
  have one := sound.one.performed performed
  obtain ⟨request, found, next⟩ := Threads.perform_eq_some.mp performed
  have answers : t.answers = s.engine.dispatcher.perform request
      (s.call (apply s.engine.dispatcher.outputs applied) request).1 :: s.answers := by
    rw [next]
    rfl
  have told : ∀ o ∈ s.engine.graph.outputNames, o ∈ s.engine.plugins.outputs →
      Told t s.engine.plugins.outputs o (s.engine.desired o) := by
    intro o member live
    by_cases same : o = request.instanceName
    · subst same
      exact Told.performed sound informed found member live answers (by rw [next])
        (by rw [next]; exact fun _ => rfl)
    · have other : o ≠ (s.engine.dispatcher.perform request
          (s.call (apply s.engine.dispatcher.outputs applied) request).1).instanceName := by
        rwa [Dispatcher.perform_instanceName]
      refine (sound.told o member live).congr ?_ ?_ fun requested => ?_
      · exact (Threads.believes_others (.of_eq answers) other (by rw [next]; rfl)).mp
      · rw [next]
        exact call_shownBy same _
      · rw [next]
        exact (Threads.taken_others found same).mpr requested
  subst next
  exact ⟨one, sound.served, fun o member => sound.covered o member, told⟩

theorem Sound.submitted (sound : Sound s) (message : CoreMessage)
    (own : ∀ result, message ≠ .pushResult result) : Sound (s.submit message ()) :=
  sound.kept rfl rfl rfl rfl (fun _ => ⟨rfl, rfl, rfl⟩)
    (by rw [Threads.answers_submit () own]) rfl

theorem Sound.assigned {configuration : Configuration} {rows : Table LatchRecord}
    (sound : Sound s) (held : s.outside.reloading = .read configuration rows)
    (informed : Informed s (.reload .assign)) :
    Sound { s.enter (.refreshed configuration) with
      engine := { s.engine with latches := rows } } := by
  have here : rows ∈ s.outside.reloading.rows := by
    rw [held]
    rfl
  obtain ⟨told, covered⟩ := informed rows here
  refine ⟨⟨sound.one.nodup, sound.one.flying⟩, sound.served, covered, fun o member live => ?_⟩
  exact (told o member live).congr (fun believes => believes.congr (fun _ _ => Iff.rfl) rfl) rfl id

theorem mirrored_output (s : Engine) (configuration : Configuration) (o : Name) :
    SameOutput s (s.onStore (Daemon.mirrorConfiguration · configuration)) o where
  desired := rfl
  lastApplied := Daemon.mirrorConfiguration_keeps (fun store => (store.outputStateOf o).bind
    (·.lastApplied)) (fun _ _ _ _ _ _ => rfl) _ _
  pendingPush := Daemon.mirrorConfiguration_keeps (·.pendingPush o) (fun _ _ _ _ _ _ => rfl) _ _

theorem Sound.reloading {action : ReloadAction} (sound : Sound s)
    (informed : Informed s (.reload action)) (took : Took s action t) : Sound t := by
  cases took with
  | rejected idle => exact sound
  | mirrored idle => exact sound.kept rfl rfl rfl rfl (mirrored_output _ _) (List.Perm.refl _) rfl
  | assigned held => exact sound.assigned held informed
  | @submitted configuration shop built next held made =>
    have submitted := sound.submitted (.reload ⟨configuration,
      some (pluginSet (retain s.outside.live configuration built)), s.outside.nextAcknowledged⟩)
      (by simp)
    exact submitted.kept rfl rfl rfl rfl (fun _ => ⟨rfl, rfl, rfl⟩) (List.Perm.refl _) rfl
  | _ =>
    exact sound.kept rfl rfl rfl rfl (fun _ => ⟨rfl, rfl, rfl⟩) (List.Perm.refl _) rfl

theorem Sound.received {w : World} {message : CoreMessage} {note : Unit}
    {rest : List (CoreMessage × Unit)} {engine : Engine} (sound : Sound s)
    (informed : InformedOf s w message) (waiting : s.queue = (message, note) :: rest)
    (handled : Engine.advance s.engine (.handle w message) = some engine) :
    Sound { s with engine := engine, queue := rest } := by
  have covered := covered_standing.advanced handled sound.covered
  cases message with
  | reload message =>
    rw [Engine.advance_handle] at handled
    cases handleReload_ok.mp handled
    exact sound.reloaded waiting informed covered
  | pushResult result =>
    exact sound.resulted waiting (handlePushResult_resulted (Engine.advance_handle.mp handled))
      covered
  | _ =>
    have carried := handle_carried (by simp) (by simp) handled
    have reacted := handle_reacted (by simp) (Engine.advance_handle.mp handled)
    exact sound.carried carried reacted covered (Threads.answers_receive waiting (by simp)) rfl
      informed

theorem Sound.advanced (sound : Sound s) (informed : Informed s step)
    (stepped : advance s step = some t) : Sound t := by
  cases step with
  | receive w =>
    obtain ⟨message, note, rest, engine, waiting, handled, rfl⟩ := Threads.receive_eq_some.mp stepped
    exact sound.received (informed _ (by rw [waiting]; rfl)) waiting handled
  | tick w =>
    obtain ⟨engine, ticked, rfl⟩ := Threads.tick_eq_some.mp stepped
    exact sound.carried (tick_carried ticked) (tick_reacted (Engine.advance_tick.mp ticked))
      (covered_standing.advanced ticked sound.covered) rfl rfl informed
  | perform k applied => exact sound.performed informed stepped
  | report k =>
    have answers := Threads.answers_report stepped
    obtain ⟨result, _, rfl⟩ := Threads.report_eq_some.mp stepped
    exact sound.kept rfl rfl rfl rfl (fun _ => ⟨rfl, rfl, rfl⟩) answers rfl
  | reload action => exact sound.reloading informed (reload_took stepped)
  | _ =>
    cases stepped
    exact sound.submitted _ (by simp)

/-- Only a reload that is handled replaces objects. -/
theorem advance_plugins (stepped : advance s step = some t) :
    t.engine.plugins = s.engine.plugins ∨ ∃ w message rest, step = .receive w ∧
      s.queue = (.reload message, ()) :: rest ∧
      t = { s with engine := reloaded w.now message s.engine, queue := rest } := by
  cases step with
  | receive w =>
    obtain ⟨message, note, rest, engine, waiting, handled, rfl⟩ := Threads.receive_eq_some.mp stepped
    rcases Engine.advance_cases handled with ⟨_, reacted⟩ | ⟨_, reload, same, rfl⟩
    · exact .inl reacted.plugins
    · cases same
      exact .inr ⟨w, reload, rest, rfl, waiting, rfl⟩
  | tick w =>
    obtain ⟨engine, ticked, rfl⟩ := Threads.tick_eq_some.mp stepped
    exact .inl (tick_carried ticked).plugins
  | perform k applied =>
    obtain ⟨request, _, rfl⟩ := Threads.perform_eq_some.mp stepped
    exact .inl rfl
  | report k =>
    obtain ⟨result, _, rfl⟩ := Threads.report_eq_some.mp stepped
    exact .inl rfl
  | reload action => cases reload_took stepped <;> exact .inl rfl
  | _ =>
    cases stepped
    exact .inl rfl

/-- A reload leaves a row for an output unless the desired value was last applied to the
object before. -/
theorem renews (informed : Informed s step) : Renews s step := by
  intro t stepped o member live old before replaced
  rcases advance_plugins stepped with same | ⟨w, message, rest, rfl, waiting, rfl⟩
  · exact absurd ((congrArg (·.outputs.lookup o) same).trans before) replaced
  · have heeded : InformedOf s w (.reload message) := informed _ (by rw [waiting]; rfl)
    have synced := (handleReload_settled (handleReload_ok.mpr rfl)).1 o member
    obtain ⟨_, queue, applied⟩ := reloaded_pushing w.now message s.engine
    have desired := reloaded_desired w.now message s.engine o
    rw [reloaded_graph] at member
    rw [reloaded_plugins] at live replaced
    rcases heeded.2 o member live old before replaced with differs | ⟨request, waits, same, value⟩
    · have row := synced.behind.mpr (by rwa [applied, desired])
      obtain ⟨push, stored⟩ := Option.isSome_iff_exists.mp row
      exact .inl ⟨push, stored, synced.target push stored⟩
    · exact .inr ⟨request, queue ▸ waits, same, value.trans desired.symm⟩

/- From the start on. -/

def withEngine (s : Service) (engine : Engine) : Service := { s with engine := engine }

theorem handedOver_one {boot : Daemon.Boot} {store : Store} {configuration : Configuration}
    {m : Engine} (handedOver : Daemon.handOver boot configuration
      (Daemon.assemble boot.constructed store configuration) = .ok ⟨⟩ m)
    (queue : s.queue = []) (results : s.results = []) :
    (s.withEngine m).OneEach ∧ m.dispatcher.outputs = m.plugins.outputs := by
  obtain ⟨m₁, m₂, reload, first, second⟩ := Daemon.handOver_ok handedOver
  have first := tick_carried (Engine.advance_tick.mpr first)
  have second := tick_carried (Engine.advance_tick.mpr second)
  have reload := handleReload_ok.mp reload
  obtain ⟨inFlight, requests, _⟩ := reloaded_pushing boot.reloading.now
    ⟨configuration, some boot.plugins, 0⟩ (Daemon.assemble boot.constructed store configuration)
  have served := reloaded_served boot.reloading.now ⟨configuration, some boot.plugins, 0⟩
    (s := Daemon.assemble boot.constructed store configuration) rfl
  rw [← reload] at inFlight requests served
  have one : (s.withEngine m₁).OneEach := by
    have none : (s.withEngine m₁).pushing = [] := by
      simp only [Threads.pushing, Threads.answers, withEngine, requests, queue, results]
      rfl
    refine ⟨none ▸ List.nodup_nil, fun o => ?_⟩
    rw [none, withEngine, inFlight]
    exact iff_of_false (Finset.notMem_empty o) List.not_mem_nil
  have one₂ : (s.withEngine m₂).OneEach := one.carried first rfl
  refine ⟨one₂.carried second rfl, ?_⟩
  rw [second.served, first.served, served, second.plugins, first.plugins]

/-- Starting leaves a forced push of every output with the pool. -/
theorem Launched.sound {boot : Daemon.Boot} {store : Store} {configuration : Configuration}
    (launched : Launched boot store configuration s) : Sound s := by
  obtain ⟨_, m, handedOver, reconciled⟩ := bind_ok.mp launched.started
  obtain ⟨one, served⟩ := handedOver_one handedOver launched.queue launched.results
  have spec := reconcile_spec reconciled
  obtain ⟨run⟩ := reconcile_run reconciled
  have sent := run.dispatched.carried
  obtain ⟨plugins, dispatcher, inFlight⟩ := run.forced_pool
  obtain ⟨pool, flown⟩ := run.sent_pool
  have forced : (s.withEngine run.forced).OneEach :=
    one.kept inFlight (congrArg (·.queue) dispatcher) (List.Perm.refl _)
  have dispatched : (s.withEngine run.sent).OneEach := forced.carried sent rfl
  have one : s.OneEach := dispatched.kept flown (congrArg (·.queue) pool) (List.Perm.refl _)
  refine ⟨one, ?_, fun o member => (reconcile_aligned reconciled o member).behind, ?_⟩
  · rw [pool, sent.served, dispatcher, served, spec.plugins]
  · intro o member live _
    rw [spec.graph] at member
    rw [spec.plugins, ← plugins] at live
    have flying := run.dispatched.flies live (run.forced_ok.pushes o member) (Nat.le_refl _)
    have pushing := (dispatched.flying o).mp flying
    simp only [Threads.pushing, Threads.answers, withEngine, launched.queue, launched.results,
      List.filterMap_nil, List.append_nil, List.map_nil] at pushing
    rw [Requested, pool]
    exact .inr pushing

/-- If the core is informed throughout, then at rest the live object of every output has
its desired value, and an object that replaces another is left with a push. -/
theorem rebuilt_outputs_told (boot : Daemon.Boot) (store : Store) (configuration : Configuration)
    (s : Service) (steps : List Step) (launched : Launched boot store configuration s)
    (informed : Transition.Throughout advance Informed s steps) :
    Transition.Always advance Agrees s steps ∧ Transition.Throughout advance Renews s steps := by
  have kept : ∀ s step t, Sound s → Informed s step → advance s step = some t → Sound t :=
    fun _ _ _ sound informed stepped => sound.advanced informed stepped
  exact ⟨Transition.always_of_invariant kept (fun _ sound => sound.agrees) launched.sound informed,
    Transition.throughout_of_invariant kept (fun _ _ _ informed => renews informed) launched.sound
      informed⟩

namespace Sample

def rewired : Configuration where
  instances := [⟨"mail", "file-input", true, "{}"⟩, ⟨"lamp", "homekit-output", true, "{}"⟩]
  rules := Daemon.sampleConfiguration.rules
  instances_nodup := by decide
  rules_nodup := Daemon.sampleConfiguration.rules_nodup

def homekitShop : Workshop :=
  { shop with plugins := shop.plugins.insert "homekit-output" ⟨false, true⟩ }

def rewiring : List Step :=
  [.reload (.mirror rewired), .reload .read, .reload .assign, .reload (.build homekitShop),
    .receive (Sample.quiet 120), .reload .adopt]

def pushed (now : Time) : List Step :=
  [.perform 0 (.ok ()), .report 0, .receive (Sample.quiet now)]

def posted : List Step := pushed 105 ++ letter 110 ++ [.tick (Sample.quiet 111)]

end Sample

/-- The lamp was lit before it was rewired, and the new one is left dark. -/
theorem rewired_dark : ¬ ∀ (boot : Daemon.Boot) (store : Store) (configuration : Configuration)
    (s : Service) (steps : List Step), Launched boot store configuration s →
    Transition.Always advance Agrees s steps ∧ Transition.Throughout advance Renews s steps := by
  intro always
  obtain ⟨t, ran, known, live, unpushed, landed, dark⟩ : ∃ t,
      Transition.run advance Sample.launched
        (Sample.posted ++ Sample.pushed 112 ++ Sample.rewiring) = some t ∧
      "lamp" ∈ t.engine.graph.outputNames ∧ "lamp" ∈ t.engine.plugins.outputs ∧
      t.engine.store.pendingPush "lamp" = none ∧ "lamp" ∉ t.engine.inFlight ∧
      t.outside.shownBy t.engine.plugins.outputs "lamp" ≠ some (t.engine.desired "lamp") :=
    ⟨_, (Option.some_get (by decide +kernel)).symm, by decide +kernel, by decide +kernel,
      by decide +kernel, by decide +kernel, by decide +kernel⟩
  have agrees := (always _ _ _ _ _ Sample.launched_launched).1.last ran
  exact dark (agrees "lamp" known live unpushed landed)

theorem rewired_lit : ∃ t, Transition.run advance Sample.launched
      (Sample.posted ++ Sample.rewiring ++ Sample.pushed 121) = some t ∧
    t.engine.plugins.outputs.lookup "lamp" ≠ Sample.launched.engine.plugins.outputs.lookup "lamp" ∧
    t.outside.shownBy t.engine.plugins.outputs "lamp" = some true ∧ Agrees t := by
  have ran : Transition.run advance Sample.launched
      (Sample.posted ++ Sample.rewiring ++ Sample.pushed 121) = _ :=
    (Option.some_get (by decide +kernel)).symm
  have told := rebuilt_outputs_told _ _ _ _ (Sample.posted ++ Sample.rewiring ++ Sample.pushed 121)
    Sample.launched_launched (by decide +kernel)
  exact ⟨_, ran, by decide +kernel, by decide +kernel, told.1.last ran⟩

end Service

end NotiMapper
