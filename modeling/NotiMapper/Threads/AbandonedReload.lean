import NotiMapper.Library.Register
import NotiMapper.Threads.Reload

/-! A reload that is not adopted. Its configuration has been mirrored before anything can
fail, and its message stays on the core's queue when the reload thread gives up waiting.
So it changes nothing exactly if the configuration was mirrored already, and if what the
core is still handed describes what it runs. -/
namespace NotiMapper

open Python Effect Engine

/-- The same rows in the tables that mirroring writes. -/
structure Store.SameMirror (s t : Store) : Prop where
  instances : ∀ n, t.instances.lookup n = s.instances.lookup n
  rules : ∀ n, t.rules.lookup n = s.rules.lookup n
  ruleInputs : ∀ edge, edge ∈ t.ruleInputs ↔ edge ∈ s.ruleInputs
  ruleOutputs : ∀ edge, edge ∈ t.ruleOutputs ↔ edge ∈ s.ruleOutputs

theorem Store.SameMirror.of_eq {s t : Store} (same : t.mirror = s.mirror) : SameMirror s t := by
  simp only [Store.mirror, Prod.mk.injEq] at same
  obtain ⟨instances, rules, inputs, outputs⟩ := same
  exact ⟨fun n => by rw [instances], fun n => by rw [rules], fun e => by rw [inputs],
    fun e => by rw [outputs]⟩

theorem Store.SameMirror.trans {s m t : Store} (first : SameMirror s m) (second : SameMirror m t) :
    SameMirror s t where
  instances := fun n => (second.instances n).trans (first.instances n)
  rules := fun n => (second.rules n).trans (first.rules n)
  ruleInputs := fun edge => (second.ruleInputs edge).trans (first.ruleInputs edge)
  ruleOutputs := fun edge => (second.ruleOutputs edge).trans (first.ruleOutputs edge)

/-- The same objects under the same names. -/
structure PluginSet.Same (p q : PluginSet) : Prop where
  inputs : ∀ n, q.inputs.lookup n = p.inputs.lookup n
  outputs : ∀ n, q.outputs.lookup n = p.outputs.lookup n

/-- What a handled message makes the engine adopt. -/
def CoreMessage.graph : CoreMessage → Option RuleGraph
  | .reload message => some (RuleGraph.fromConfiguration message.configuration)
  | _ => none

def CoreMessage.plugins : CoreMessage → Option PluginSet
  | .reload message => message.plugins
  | _ => none

theorem Engine.advance_adopted {s t : Engine} {step : Engine.Step}
    (stepped : Engine.advance s step = some t) :
    t.graph = (Register.lastWrite (·.2.graph) (step.messages s)).getD s.graph ∧
      t.plugins = (Register.lastWrite (·.2.plugins) (step.messages s)).getD s.plugins := by
  rcases advance_cases stepped with ⟨keeping, reacted⟩ | ⟨w, message, rfl, rfl⟩
  · have silent : ∀ heard ∈ step.messages s, heard.2.graph = none ∧ heard.2.plugins = none := by
      intro heard member
      have other := keeping heard member
      cases same : heard.2 with
      | reload message => exact absurd same (other message)
      | _ => exact ⟨rfl, rfl⟩
    have graphs := (Register.lastWrite_eq_none (fun heard : World × CoreMessage => heard.2.graph)).mpr
      fun heard member => (silent heard member).1
    have plugins := (Register.lastWrite_eq_none
      (fun heard : World × CoreMessage => heard.2.plugins)).mpr
      fun heard member => (silent heard member).2
    rw [graphs, plugins]
    exact ⟨reacted.graph, reacted.plugins⟩
  · exact ⟨reloaded_graph _ _ _, reloaded_plugins _ _ _⟩

namespace Service

/-- The reload thread takes up a request. -/
def Step.Requests : Step → Prop
  | .reload .reject | .reload (.mirror _) => True
  | _ => False

def Step.Adopts : Step → Prop
  | .reload .adopt => True
  | _ => False

theorem Step.Requests.not_adopts {step : Step} (requested : step.Requests) : ¬ step.Adopts := by
  cases step with
  | reload action => cases action <;> simp_all [Step.Requests, Step.Adopts]
  | _ => cases requested

/-- What a reload is there to change is as it was. -/
structure Unchanged (s t : Service) : Prop where
  mirror : Store.SameMirror s.engine.store t.engine.store
  graph : t.engine.graph = s.engine.graph
  plugins : PluginSet.Same s.engine.plugins t.engine.plugins
  live : t.outside.live = s.outside.live

variable {s t : Service} {step : Step}

theorem advance_adopted (stepped : advance s step = some t) :
    t.engine.graph = (Register.lastWrite (·.2.graph) (s.heard step)).getD s.engine.graph ∧
      t.engine.plugins =
        (Register.lastWrite (·.2.plugins) (s.heard step)).getD s.engine.plugins := by
  cases step with
  | receive w =>
    obtain ⟨message, note, rest, engine, waiting, handled, rfl⟩ := Threads.receive_eq_some.mp stepped
    rw [heard, waiting]
    exact Engine.advance_adopted handled
  | tick w =>
    obtain ⟨engine, ticked, rfl⟩ := Threads.tick_eq_some.mp stepped
    exact Engine.advance_adopted ticked
  | perform k applied =>
    obtain ⟨request, _, rfl⟩ := Threads.perform_eq_some.mp stepped
    exact ⟨rfl, rfl⟩
  | report k =>
    obtain ⟨result, _, rfl⟩ := Threads.report_eq_some.mp stepped
    exact ⟨rfl, rfl⟩
  | reload action => cases reload_took stepped <;> exact ⟨rfl, rfl⟩
  | _ =>
    cases stepped
    exact ⟨rfl, rfl⟩

theorem advance_mirror (unrequested : ¬ step.Requests) (stepped : advance s step = some t) :
    t.engine.store.mirror = s.engine.store.mirror := by
  cases step with
  | receive w =>
    obtain ⟨message, note, rest, engine, _, handled, rfl⟩ := Threads.receive_eq_some.mp stepped
    exact Engine.advance_mirror handled
  | tick w =>
    obtain ⟨engine, ticked, rfl⟩ := Threads.tick_eq_some.mp stepped
    exact Engine.advance_mirror ticked
  | perform k applied =>
    obtain ⟨request, _, rfl⟩ := Threads.perform_eq_some.mp stepped
    rfl
  | report k =>
    obtain ⟨result, _, rfl⟩ := Threads.report_eq_some.mp stepped
    rfl
  | reload action =>
    cases reload_took stepped with
    | mirrored idle => exact absurd trivial unrequested
    | _ => rfl
  | _ =>
    cases stepped
    rfl

theorem advance_live (unadopted : ¬ step.Adopts) (stepped : advance s step = some t) :
    t.outside.live = s.outside.live := by
  cases step with
  | receive w =>
    obtain ⟨message, note, rest, engine, _, _, rfl⟩ := Threads.receive_eq_some.mp stepped
    rfl
  | tick w =>
    obtain ⟨engine, _, rfl⟩ := Threads.tick_eq_some.mp stepped
    rfl
  | perform k applied =>
    obtain ⟨request, _, rfl⟩ := Threads.perform_eq_some.mp stepped
    have told := congrArg Surroundings.live
      (call_shown s s.engine.dispatcher.outputs applied request)
    exact told
  | report k =>
    obtain ⟨result, _, rfl⟩ := Threads.report_eq_some.mp stepped
    rfl
  | reload action =>
    cases reload_took stepped with
    | adopted held answered => exact absurd trivial unadopted
    | _ => rfl
  | _ =>
    cases stepped
    rfl

/-- What the request itself leaves of the mirrored tables. -/
def mirrorAfter (s : Service) : Step → Store
  | .reload (.mirror configuration) => Daemon.mirrorConfiguration s.engine.store configuration
  | _ => s.engine.store

def heardAlong (s : Service) (steps : List Step) : List (World × CoreMessage) :=
  Transition.along advance heard s steps

theorem request_mirror (requested : step.Requests) (stepped : advance s step = some t) :
    t.engine.store.mirror = (s.mirrorAfter step).mirror := by
  cases step with
  | reload action =>
    cases reload_took stepped with
    | rejected idle => rfl
    | mirrored idle => rfl
    | _ => cases requested
  | _ => cases requested

/-- A reload is requested and, in the run so far, neither adopted nor followed by another
request: nothing is changed exactly if the configuration was mirrored already, and the
last graph and plugins that the core was handed, if any, are those it had. -/
theorem unadopted_unchanged_iff (s t : Service) (request : Step) (steps : List Step)
    (requested : request.Requests) (unadopted : ∀ step ∈ steps, ¬ step.Requests ∧ ¬ step.Adopts)
    (ran : Transition.run advance s (request :: steps) = some t) :
    Unchanged s t ↔
      Store.SameMirror s.engine.store (s.mirrorAfter request) ∧
      (Register.lastWrite (·.2.graph) (heardAlong s (request :: steps))).getD s.engine.graph =
        s.engine.graph ∧
      PluginSet.Same s.engine.plugins
        ((Register.lastWrite (·.2.plugins) (heardAlong s (request :: steps))).getD
          s.engine.plugins) := by
  have graph := Register.run_held (fun heard : World × CoreMessage => heard.2.graph)
    (fun _ _ _ stepped => (advance_adopted stepped).1) ran
  have plugins := Register.run_held (fun heard : World × CoreMessage => heard.2.plugins)
    (fun _ _ _ stepped => (advance_adopted stepped).2) ran
  obtain ⟨m, first, rest⟩ := Transition.run_cons.mp ran
  have kept : ∀ s step t, s.engine.store.mirror = m.engine.store.mirror ∧
      s.outside.live = m.outside.live → ¬ step.Requests ∧ ¬ step.Adopts →
      advance s step = some t → t.engine.store.mirror = m.engine.store.mirror ∧
        t.outside.live = m.outside.live := by
    intro s step t before plain stepped
    exact ⟨(advance_mirror plain.1 stepped).trans before.1,
      (advance_live plain.2 stepped).trans before.2⟩
  have throughout : Transition.Throughout advance (fun _ step => ¬ step.Requests ∧ ¬ step.Adopts)
      m steps := Transition.throughout_of_forall fun step member _ => unadopted step member
  obtain ⟨mirror, live⟩ := Transition.guarded_invariant kept ⟨rfl, rfl⟩ throughout rest
  have mirrored := mirror.trans (request_mirror requested first)
  have same_live := live.trans (advance_live requested.not_adopts first)
  simp only [heardAlong, ← graph, ← plugins]
  constructor
  · rintro ⟨same, sameGraph, samePlugins, _⟩
    exact ⟨same.trans (.of_eq mirrored.symm), sameGraph, samePlugins⟩
  · rintro ⟨same, sameGraph, samePlugins⟩
    exact ⟨same.trans (.of_eq mirrored), sameGraph, samePlugins, same_live⟩

namespace Sample

def emptied : Configuration where
  instances := Daemon.sampleConfiguration.instances
  rules := []
  instances_nodup := Daemon.sampleConfiguration.instances_nodup
  rules_nodup := List.nodup_nil

def closed : Workshop := { shop with construct := fun _ _ => .error "OSError: no route to host" }

/-- The core is busy until the reload thread has given up, and then handles the message. -/
def late : List Step :=
  [.reload .read, .reload .assign, .reload (.build shop), .reload .giveUp,
    .receive (NotiMapper.Sample.quiet 140)]

def failing : List Step := [.reload .read, .reload .assign, .reload (.build closed)]

end Sample

/-- The abandoned configuration is adopted after all: the rule is gone. -/
theorem abandoned_adopted : ¬ ∀ (boot : Daemon.Boot) (store : Store)
    (configuration : Configuration) (s t : Service) (request : Step) (steps : List Step),
    Launched boot store configuration s → request.Requests →
    (∀ step ∈ steps, ¬ step.Requests ∧ ¬ step.Adopts) →
    Transition.run advance s (request :: steps) = some t → t.outside.reloading = .idle →
    Unchanged s t := by
  intro unchanged
  have plain : ∀ step ∈ Sample.late, ¬ step.Requests ∧ ¬ step.Adopts := by
    simp [Sample.late, Step.Requests, Step.Adopts]
  have requested : (Step.reload (.mirror Sample.emptied)).Requests := trivial
  obtain ⟨t, ran, idle, dropped⟩ : ∃ t, Transition.run advance Sample.launched
      (.reload (.mirror Sample.emptied) :: Sample.late) = some t ∧
      t.outside.reloading = .idle ∧
      t.engine.graph.entries.length ≠ Sample.launched.engine.graph.entries.length :=
    ⟨_, (Option.some_get (by decide +kernel)).symm, by decide +kernel, by decide +kernel⟩
  have same := unchanged _ _ _ _ _ _ _ Sample.launched_launched requested plain ran idle
  exact dropped (congrArg (·.entries.length) same.graph)

theorem unbuilt_unchanged : ∃ t, Transition.run advance Sample.launched
    (.reload (.mirror Daemon.sampleConfiguration) :: Sample.failing) = some t ∧
    t.outside.reloading = .idle ∧ Unchanged Sample.launched t := by
  have ran : Transition.run advance Sample.launched
      (.reload (.mirror Daemon.sampleConfiguration) :: Sample.failing) = _ :=
    (Option.some_get (by decide +kernel)).symm
  have plain : ∀ step ∈ Sample.failing, ¬ step.Requests ∧ ¬ step.Adopts := by
    simp [Sample.failing, Step.Requests, Step.Adopts]
  have unheard : heardAlong Sample.launched
      (.reload (.mirror Daemon.sampleConfiguration) :: Sample.failing) = [] :=
    List.isEmpty_iff.mp (by decide +kernel)
  have mirrored : (Sample.launched.mirrorAfter
      (.reload (.mirror Daemon.sampleConfiguration))).mirror =
      Sample.launched.engine.store.mirror :=
    Prod.ext (AList.ext (by decide +kernel)) (Prod.ext (AList.ext (by decide +kernel))
      (Prod.ext (by decide +kernel) (by decide +kernel)))
  have requested : (Step.reload (.mirror Daemon.sampleConfiguration)).Requests := trivial
  refine ⟨_, ran, by decide +kernel, ?_⟩
  refine (unadopted_unchanged_iff _ _ _ _ requested plain ran).mpr ⟨.of_eq mirrored, ?_, ?_⟩
  · rw [unheard]
    rfl
  · rw [unheard]
    exact ⟨fun _ => rfl, fun _ => rfl⟩

end Service

end NotiMapper
