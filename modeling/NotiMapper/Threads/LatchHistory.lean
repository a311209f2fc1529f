import NotiMapper.Threads.LatchCache

/-! What a latch has been through, over any number of reloads. Only a rule of that name in the
graph makes anything of a message: a rule that is taken out of the configuration leaves its
latch behind as it is, and finds it again when it is put back. -/
namespace NotiMapper

open Python Effect Engine

namespace Service

/-- A message that the core handles while the rule is configured. -/
structure Concern where
  rule : Rule
  plugins : PluginSet
  heard : World × CoreMessage

def Concern.react (record : LatchRecord) (concern : Concern) : LatchRecord :=
  reacting concern.plugins concern.rule record concern.heard

def Concern.verdict (concern : Concern) : Option Bool :=
  concern.rule.verdict concern.plugins concern.heard

/-- What a step has the core handle that concerns the rule of that name. -/
def concerning (n : Name) (s : Service) (step : Step) : List Concern :=
  (s.engine.graph.rule n).elim [] fun rule => (s.heard step).map fun heard =>
    ⟨rule, s.engine.plugins, heard⟩

/-- The stored latch; a rule that has none yet starts with a fresh one. -/
def row (s : Service) (n : Name) : LatchRecord := (s.engine.store.latch n).getD .fresh

/-- No latch was written between the two actions of the refresh. -/
def Undisturbed (s : Service) : Step → Prop
  | .reload .assign => ∀ rows ∈ s.outside.reloading.rows, rows = s.engine.store.latches
  | _ => True

variable {s t : Service} {step : Step} {n : Name}

theorem Concern.foldl_state (concerns : List Concern) (record : LatchRecord) :
    (concerns.foldl Concern.react record).state =
      (Register.lastWrite Concern.verdict concerns).getD record.state := by
  rw [← Register.foldl_apply]
  induction concerns generalizing record with
  | nil => rfl
  | cons concern concerns ih =>
    have first : (Concern.react record concern).state =
        Register.apply Concern.verdict record.state concern :=
      Rule.react_state concern.rule concern.plugins concern.heard.1 concern.heard.2 record
    rw [List.foldl_cons, List.foldl_cons, ih, first]

theorem tracked_all (tracked : ∀ n, Tracked s.engine n) (undisturbed : Undisturbed s step)
    (stepped : advance s step = some t) : ∀ n, Tracked t.engine n := by
  by_cases assigns : step = .reload .assign
  · subst assigns
    cases reload_took stepped with
    | @assigned configuration rows held =>
      have same := undisturbed rows (by rw [held]; rfl)
      subst same
      exact fun n => rfl
  · exact fun n => (advance_followed assigns stepped).tracked n (tracked n)

/-- One step makes of a stored latch what its rule does, or leaves it. -/
theorem row_advanced (tracked : ∀ n, Tracked s.engine n) (undisturbed : Undisturbed s step)
    (stepped : advance s step = some t) (n : Name) :
    row t n = (concerning n s step).foldl Concern.react (row s n) := by
  by_cases assigns : step = .reload .assign
  · subst assigns
    cases reload_took stepped
    unfold concerning
    cases s.engine.graph.rule n <;> rfl
  · have followed := advance_followed assigns stepped
    have after := followed.tracked n (tracked n)
    rw [row, row, ← after, ← tracked n, concerning]
    cases found : s.engine.graph.rule n with
    | none =>
      have absent : n ∉ s.engine.graph.entries.map (·.name) := by
        intro listed
        obtain ⟨r, member, named⟩ := List.mem_map.mp listed
        cases found.symm.trans (RuleGraph.rule_eq_some.mpr ⟨member, named⟩)
      exact followed.others n absent (tracked n)
    | some r =>
      obtain ⟨known, rfl⟩ := RuleGraph.rule_eq_some.mp found
      rw [followed.latch r known (tracked r.name), Option.elim_some, List.foldl_map]
      rfl

theorem row_kept (stepped : advance s step = some t) (present : n ∈ s.engine.store.latches) :
    n ∈ t.engine.store.latches := by
  by_cases assigns : step = .reload .assign
  · subst assigns
    cases reload_took stepped
    exact present
  · exact (advance_followed assigns stepped).present n present

theorem row_run {steps : List Step} (tracked : ∀ n, Tracked s.engine n)
    (undisturbed : Transition.Throughout advance Undisturbed s steps)
    (ran : Transition.run advance s steps = some t) (n : Name) :
    row t n = (Transition.along advance (concerning n) s steps).foldl Concern.react (row s n) := by
  induction steps generalizing s with
  | nil =>
    cases Option.some.inj ran
    rfl
  | cons step steps ih =>
    obtain ⟨m, stepped, rest⟩ := Transition.run_cons.mp ran
    have next := tracked_all tracked undisturbed.1 stepped
    rw [ih next (undisturbed.2 m stepped) rest, row_advanced tracked undisturbed.1 stepped n]
    simp only [Transition.along, stepped, Option.elim_some, List.foldl_append]

/-- Over any number of reloads, a stored latch is what the messages that concerned its rule
made of it, and no row is lost: in between, without a rule of that name, nothing happens to it. -/
theorem latch_history (boot : Daemon.Boot) (store : Store) (configuration : Configuration)
    (s t : Service) (steps : List Step) (launched : Launched boot store configuration s)
    (undisturbed : Transition.Throughout advance Undisturbed s steps)
    (ran : Transition.run advance s steps = some t) :
    (∀ n ∈ s.engine.store.latches, n ∈ t.engine.store.latches) ∧
    ∀ n, row t n = (Transition.along advance (concerning n) s steps).foldl Concern.react (row s n) ∧
      (row t n).state = (Register.lastWrite Concern.verdict
        (Transition.along advance (concerning n) s steps)).getD (row s n).state := by
  obtain ⟨_, tracked, _⟩ := started_tracked launched.started
  refine ⟨fun n present => ?_, fun n => ?_⟩
  · have kept : ∀ u step next, n ∈ u.engine.store.latches → advance u step = some next →
        n ∈ next.engine.store.latches := fun _ _ _ there stepped => row_kept stepped there
    exact Transition.invariant kept present ran
  · have history := row_run tracked undisturbed ran n
    exact ⟨history, history ▸ Concern.foldl_state _ _⟩

namespace Sample

def unruled : Configuration :=
  { Daemon.sampleConfiguration with rules := [], rules_nodup := List.nodup_nil }

def reloading (configuration : Configuration) (now : Time) : List Step :=
  [.reload (.mirror configuration), .reload .read, .reload .assign, .reload (.build shop),
    .receive (Sample.quiet now), .reload .adopt]

/-- A letter, the rule is taken out, another letter, and the rule is put back. -/
def comeback : List Step :=
  letter 110 ++ reloading unruled 111 ++ letter 112 ++ reloading Daemon.sampleConfiguration 113

end Sample

instance (s : Service) (step : Step) : Decidable (Undisturbed s step) :=
  match step with
  | .reload .assign => decidable_of_iff (∀ rows ∈ s.outside.reloading.rows,
      rows.entries = s.engine.store.latches.entries)
      (forall₂_congr fun _ _ => AList.ext_iff.symm)
  | .receive _ | .tick _ | .emit _ | .requestUnlatch _ | .requestStop | .perform _ _ | .report _ =>
    isTrue trivial
  | .reload .reject | .reload (.mirror _) | .reload .read | .reload (.build _) | .reload .adopt
  | .reload .giveUp => isTrue trivial

theorem latch_comes_back : ∃ t, Transition.run advance Sample.launched Sample.comeback = some t ∧
    (row t "notify").state = true ∧ (row t "notify").triggerCount = 1 ∧
    row t "notify" = (Transition.along advance (concerning "notify") Sample.launched
      Sample.comeback).foldl Concern.react (row Sample.launched "notify") := by
  have ran : Transition.run advance Sample.launched Sample.comeback = _ :=
    (Option.some_get (by decide +kernel)).symm
  have history := latch_history _ _ _ _ _ _ Sample.launched_launched (by decide +kernel) ran
  exact ⟨_, ran, by decide +kernel, by decide +kernel, (history.2 "notify").1⟩

end Service

end NotiMapper
