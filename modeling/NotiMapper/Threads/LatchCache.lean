import NotiMapper.Threads.Reload

/-! The latch cache beside the reload thread. Refreshing it is two actions, to read the
rows and to assign them, and the core may handle a message in between: what the core then
wrote is missing from the cache until the reload is handled. The cache is right at every
boundary exactly if the rows are still the stored ones whenever they are assigned. -/
namespace NotiMapper

open Python Effect Engine

namespace Service

/-- The latch of every rule of the graph is its stored row. -/
def Current (s : Service) : Prop :=
  ∀ r ∈ s.engine.graph.entries, s.engine.store.latch r.name = some (s.engine.latch r.name)

/-- The rows that are assigned say of every rule of the graph what the stored rows do. -/
def Fresh (s : Service) : Step → Prop
  | .reload .assign => ∀ rows ∈ s.outside.reloading.rows, ∀ r ∈ s.engine.graph.entries,
    (rows.lookup r.name).getD .fresh = (s.engine.store.latch r.name).getD .fresh
  | _ => True

instance (s : Service) (step : Step) : Decidable (Fresh s step) :=
  match step with
  | .reload .assign => inferInstanceAs (Decidable (∀ rows ∈ s.outside.reloading.rows,
    ∀ r ∈ s.engine.graph.entries,
      (rows.lookup r.name).getD .fresh = (s.engine.store.latch r.name).getD .fresh))
  | .receive _ | .tick _ | .emit _ | .requestUnlatch _ | .requestStop | .perform _ _ | .report _ =>
    isTrue trivial
  | .reload .reject | .reload (.mirror _) | .reload .read | .reload (.build _) | .reload .adopt
  | .reload .giveUp => isTrue trivial

/-- The stored rows of the rules make of the messages what the rules do: no request is
ignored and no trigger miscounted. -/
def Obeys (s : Service) (step : Step) : Prop :=
  ∀ t, advance s step = some t → ∀ r ∈ s.engine.graph.entries,
    t.engine.store.latch r.name = (s.engine.store.latch r.name).map fun row =>
      (s.heard step).foldl (reacting s.engine.plugins r) row

/- What a step leaves of the cache. -/

theorem followed_same {s t : Engine} (cache : t.latches = s.latches)
    (present : ∀ n ∈ s.store.latches, n ∈ t.store.latches)
    (rows : ∀ n, (t.store.latch n).getD .fresh = (s.store.latch n).getD .fresh) :
    Followed [] s t := by
  have latch : ∀ n, t.latch n = s.latch n := fun n => by simp only [Engine.latch, cache]
  refine ⟨fun n tracked => ?_, fun r _ _ => latch r.name, fun n _ _ => latch n, present⟩
  rw [Tracked, latch, rows]
  exact tracked

variable {s t : Service} {step : Step}

/-- Only assigning rows can put the cache wrong. -/
theorem advance_followed (keeping : step ≠ .reload .assign) (stepped : advance s step = some t) :
    Followed (s.heard step) s.engine t.engine := by
  have same : Followed [] s.engine s.engine :=
    followed_same rfl (fun _ => id) fun _ => rfl
  cases step with
  | receive w =>
    obtain ⟨message, note, rest, engine, waiting, handled, rfl⟩ := Threads.receive_eq_some.mp stepped
    rw [heard, waiting]
    exact Engine.advance_followed handled
  | tick w =>
    obtain ⟨engine, ticked, rfl⟩ := Threads.tick_eq_some.mp stepped
    exact Engine.advance_followed ticked
  | perform k applied =>
    obtain ⟨request, _, rfl⟩ := Threads.perform_eq_some.mp stepped
    exact followed_same rfl (fun _ => id) fun _ => rfl
  | report k =>
    obtain ⟨result, _, rfl⟩ := Threads.report_eq_some.mp stepped
    exact same
  | reload action =>
    cases reload_took stepped with
    | mirrored idle =>
      exact followed_same rfl (fun _ => Daemon.mirrorConfiguration_present _ _)
        (Daemon.mirrorConfiguration_latch _ _)
    | assigned held => exact absurd rfl keeping
    | _ => exact same
  | _ =>
    cases stepped
    exact same

/- The rows of the graph. -/

/-- Every rule of the graph, and of every configuration that is to give one, has a row. -/
structure Rowed (s : Service) : Prop where
  graph : ∀ r ∈ s.engine.graph.entries, r.name ∈ s.engine.store.latches
  queued : ∀ entry ∈ s.queue, ∀ message, entry.1 = .reload message →
    ∀ r ∈ (RuleGraph.fromConfiguration message.configuration).entries,
      r.name ∈ s.engine.store.latches
  held : ∀ configuration ∈ s.outside.reloading.configuration,
    ∀ r ∈ (RuleGraph.fromConfiguration configuration).entries, r.name ∈ s.engine.store.latches

theorem Rowed.kept (rowed : Rowed s)
    (present : ∀ n ∈ s.engine.store.latches, n ∈ t.engine.store.latches)
    (graph : t.engine.graph = s.engine.graph)
    (queued : ∀ entry ∈ t.queue, entry ∈ s.queue ∨ ∀ message, entry.1 ≠ .reload message)
    (held : ∀ configuration ∈ t.outside.reloading.configuration,
      configuration ∈ s.outside.reloading.configuration) : Rowed t where
  graph := by
    rw [graph]
    exact fun r known => present _ (rowed.graph r known)
  queued := by
    intro entry member message same r known
    rcases queued entry member with before | other
    · exact present _ (rowed.queued entry before message same r known)
    · exact absurd same (other message)
  held := fun configuration here r known =>
    present _ (rowed.held configuration (held configuration here) r known)

theorem Rowed.received {w : World} {message : CoreMessage} {note : Unit}
    {rest : List (CoreMessage × Unit)} {engine : Engine} (rowed : Rowed s)
    (waiting : s.queue = (message, note) :: rest)
    (handled : Engine.advance s.engine (.handle w message) = some engine) :
    Rowed { s with engine := engine, queue := rest } := by
  have present := (Engine.advance_followed handled).present
  have queued : ∀ entry ∈ rest, entry ∈ s.queue :=
    fun entry member => waiting ▸ List.mem_cons_of_mem _ member
  rcases Engine.advance_cases handled with ⟨_, reacted⟩ | ⟨w', reload, same, rfl⟩
  · exact rowed.kept present reacted.graph (fun entry member => .inl (queued entry member))
      fun _ => id
  · cases same
    have covered := rowed.queued (.reload reload, note) (waiting ▸ List.mem_cons_self) reload rfl
    refine ⟨fun r known => ?_, fun entry member m same r known => ?_, fun c here r known => ?_⟩
    · rw [reloaded_graph] at known
      exact present _ (covered r known)
    · exact present _ (rowed.queued entry (queued entry member) m same r known)
    · exact present _ (rowed.held c here r known)

theorem Rowed.advanced (rowed : Rowed s) (stepped : advance s step = some t) : Rowed t := by
  have submitted : ∀ message, (∀ reload, message ≠ .reload reload) → Rowed (s.submit message ()) := by
    intro message other
    refine rowed.kept (fun _ => id) rfl (fun entry member => ?_) fun _ => id
    rcases List.mem_append.mp member with before | added
    · exact .inl before
    · rw [List.mem_singleton.mp added]
      exact .inr other
  have unmoved : ∀ reloading : Reloading, (∀ c ∈ reloading.configuration,
      c ∈ s.outside.reloading.configuration) → Rowed (s.enter reloading) :=
    fun reloading held => rowed.kept (fun _ => id) rfl (fun _ => .inl) held
  cases step with
  | receive w =>
    obtain ⟨message, note, rest, engine, waiting, handled, rfl⟩ := Threads.receive_eq_some.mp stepped
    exact rowed.received waiting handled
  | tick w =>
    obtain ⟨engine, ticked, rfl⟩ := Threads.tick_eq_some.mp stepped
    have present := (Engine.advance_followed ticked).present
    rcases Engine.advance_cases ticked with ⟨_, reacted⟩ | ⟨_, _, same, _⟩
    · exact rowed.kept present reacted.graph (fun _ => .inl) fun _ => id
    · cases same
  | emit message =>
    cases stepped
    exact submitted _ (by simp)
  | requestUnlatch message =>
    cases stepped
    exact submitted _ (by simp)
  | requestStop =>
    cases stepped
    exact submitted _ (by simp)
  | perform k applied =>
    obtain ⟨request, _, rfl⟩ := Threads.perform_eq_some.mp stepped
    refine rowed.kept (fun _ => id) rfl (fun _ => .inl) fun c held => ?_
    rw [call_shown] at held
    exact held
  | report k =>
    obtain ⟨result, _, rfl⟩ := Threads.report_eq_some.mp stepped
    have reported := submitted (.pushResult result) (by simp)
    exact ⟨reported.graph, reported.queued, reported.held⟩
  | reload action =>
    cases reload_took stepped with
    | rejected idle => exact rowed
    | @mirrored configuration idle =>
      have present := fun n member => Daemon.mirrorConfiguration_present s.engine.store
        configuration (n := n) member
      refine ⟨fun r known => present _ (rowed.graph r known), ?_, ?_⟩
      · exact fun entry member message same r known =>
          present _ (rowed.queued entry member message same r known)
      · rintro c here r known
        cases here
        exact (Daemon.mirrorConfiguration_registered _ _ known).2
    | read held => exact unmoved _ fun c here => held ▸ here
    | assigned held =>
      have same := unmoved _ fun c here => held ▸ here
      exact ⟨same.graph, same.queued, same.held⟩
    | @submitted configuration shop built next held made =>
      refine ⟨rowed.graph, fun entry member message same r known => ?_, fun c here => by cases here⟩
      rcases List.mem_append.mp member with before | added
      · exact rowed.queued entry before message same r known
      · cases List.mem_singleton.mp added
        cases same
        exact rowed.held configuration (by rw [held]; rfl) r known
    | adopted held answered => exact rowed.kept (fun _ => id) rfl (fun _ => .inl) (by simp [Reloading.configuration, Threads.within])
    | _ => exact unmoved _ (by simp [Reloading.configuration])

/- When the cache is right. -/

theorem tracked_iff_row {s : Engine} {n : Name} (present : n ∈ s.store.latches) :
    Tracked s n ↔ s.store.latch n = some (s.latch n) := by
  obtain ⟨row, found⟩ := Option.isSome_iff_exists.mp (AList.lookup_isSome.mpr present)
  have found : s.store.latch n = some row := found
  rw [Tracked, found, Option.getD_some, Option.some.injEq, eq_comm]

theorem Rowed.current_iff (rowed : Rowed s) :
    Current s ↔ ∀ r ∈ s.engine.graph.entries, Tracked s.engine r.name :=
  forall₂_congr fun r known => (tracked_iff_row (rowed.graph r known)).symm

theorem tracked_advanced (tracked : ∀ r ∈ s.engine.graph.entries, Tracked s.engine r.name)
    (stepped : advance s step = some t) :
    (∀ r ∈ t.engine.graph.entries, Tracked t.engine r.name) ↔ Fresh s step := by
  cases step with
  | receive w =>
    obtain ⟨message, note, rest, engine, waiting, handled, rfl⟩ := Threads.receive_eq_some.mp stepped
    exact iff_of_true (advance_tracked tracked handled) trivial
  | tick w =>
    obtain ⟨engine, ticked, rfl⟩ := Threads.tick_eq_some.mp stepped
    exact iff_of_true (advance_tracked tracked ticked) trivial
  | perform k applied =>
    obtain ⟨request, _, rfl⟩ := Threads.perform_eq_some.mp stepped
    exact iff_of_true tracked trivial
  | report k =>
    obtain ⟨result, _, rfl⟩ := Threads.report_eq_some.mp stepped
    exact iff_of_true tracked trivial
  | reload action =>
    cases reload_took stepped with
    | @assigned configuration rows held =>
      have here : s.outside.reloading.rows = some rows := by rw [held]; rfl
      simp only [Fresh, here, Option.mem_some, forall_eq']
      exact Iff.rfl
    | @mirrored configuration idle =>
      refine iff_of_true (fun r known => ?_) trivial
      exact (tracked r known).trans (Daemon.mirrorConfiguration_latch _ _ _).symm
    | _ => exact iff_of_true tracked trivial
  | _ =>
    cases stepped
    exact iff_of_true tracked trivial

theorem current_advanced (rowed : Rowed s) (current : Current s)
    (stepped : advance s step = some t) : Current t ↔ Fresh s step := by
  rw [(rowed.advanced stepped).current_iff]
  exact tracked_advanced (rowed.current_iff.mp current) stepped

theorem Current.obeys (rowed : Rowed s) (current : Current s) (step : Step) : Obeys s step := by
  intro t stepped r known
  by_cases keeping : step = .reload .assign
  · subst keeping
    cases reload_took stepped
    exact Option.map_id'.symm
  · have followed := advance_followed keeping stepped
    have tracked := rowed.current_iff.mp current r known
    have present := followed.present r.name (rowed.graph r known)
    rw [current r known, Option.map_some, ← followed.latch r known tracked]
    exact (tracked_iff_row present).mp (followed.tracked r.name tracked)

/- From the start on. -/

theorem started_tracked {boot : Daemon.Boot} {store : Store} {configuration : Configuration}
    {s : Engine} (started : Daemon.start boot configuration
      (Daemon.assemble boot.constructed store configuration) = .ok ⟨⟩ s) :
    s.graph = RuleGraph.fromConfiguration configuration ∧ (∀ n, Tracked s n) ∧
      ∀ n ∈ (Daemon.mirrorConfiguration store configuration).latches, n ∈ s.store.latches := by
  obtain ⟨_, m, handedOver, reconciled⟩ := bind_ok.mp started
  obtain ⟨m₁, m₂, reloaded, first, second⟩ := Daemon.handOver_ok handedOver
  have reloaded := handleReload_ok.mp reloaded
  have stored := (reloaded_latches boot.reloading.now ⟨configuration, some boot.plugins, 0⟩
    (Daemon.assemble boot.constructed store configuration)).2
  have first := tick_reacted first
  have second := tick_reacted second
  have last := reconcile_spec reconciled
  have writes := trans_of SameWrites (trans_of SameWrites first.writes second.writes) last.writes
  refine ⟨?_, fun n => writes.tracked ?_, fun n member => writes.present ?_⟩
  · rw [last.graph, second.graph, first.graph, reloaded, reloaded_graph]
  · rw [reloaded]
    exact reloaded_tracked _ _ _ n
  · rw [reloaded, stored]
    exact member

theorem Launched.rowed {boot : Daemon.Boot} {store : Store} {configuration : Configuration}
    (launched : Launched boot store configuration s) : Rowed s ∧ Current s := by
  obtain ⟨graph, tracked, present⟩ := started_tracked launched.started
  have rowed : Rowed s := by
    refine ⟨fun r known => ?_, fun entry member => ?_, fun c here => ?_⟩
    · rw [graph] at known
      exact present _ (Daemon.mirrorConfiguration_registered store configuration known).2
    · rw [launched.queue] at member
      cases member
    · rw [launched.idle] at here
      cases here
  exact ⟨rowed, rowed.current_iff.mpr fun r _ => tracked r.name⟩

/-- The cache is right at every boundary exactly if no row that is assigned has been
rewritten since it was read; and then every message acts on the stored rows. -/
theorem cache_current_iff (boot : Daemon.Boot) (store : Store) (configuration : Configuration)
    (s t : Service) (steps : List Step) (launched : Launched boot store configuration s)
    (ran : Transition.run advance s steps = some t) :
    (Transition.Always advance Current s steps ↔ Transition.Throughout advance Fresh s steps) ∧
      (Transition.Throughout advance Fresh s steps → Transition.Throughout advance Obeys s steps) := by
  obtain ⟨rowed, current⟩ := launched.rowed
  have kept : ∀ s step t, Rowed s → advance s step = some t → Rowed t :=
    fun _ _ _ rowed stepped => rowed.advanced stepped
  have both : ∀ s step t, Rowed s ∧ Current s → Fresh s step → advance s step = some t →
      Rowed t ∧ Current t := fun _ _ _ inv fresh stepped =>
    ⟨inv.1.advanced stepped, (current_advanced inv.1 inv.2 stepped).mpr fresh⟩
  constructor
  · exact Transition.always_iff kept
      (fun _ _ _ rowed current stepped => current_advanced rowed current stepped) rowed current ran
  · exact Transition.throughout_of_invariant both
      (fun _ step inv _ => inv.2.obeys inv.1 step) ⟨rowed, current⟩

/-- A letter between the read and the assignment. -/
def betweenActions : List Step :=
  [.reload (.mirror Daemon.sampleConfiguration), .reload .read] ++ Sample.letter 110 ++
    [.reload .assign]

/-- The row says that the latch is set, and the cache that it is clear. -/
theorem letter_overwritten : ¬ ∀ (boot : Daemon.Boot) (store : Store)
    (configuration : Configuration) (s t : Service) (steps : List Step),
    Launched boot store configuration s → Transition.run advance s steps = some t →
    Transition.Always advance Current s steps := by
  intro always
  obtain ⟨t, ran, known, differ⟩ : ∃ t, Transition.run advance Sample.launched betweenActions =
      some t ∧ NotiMapper.Sample.rule ∈ t.engine.graph.entries ∧
      t.engine.store.latch "notify" ≠ some (t.engine.latch "notify") :=
    ⟨_, (Option.some_get (by decide +kernel)).symm, by decide +kernel, by decide +kernel⟩
  exact differ ((always _ _ _ _ _ _ Sample.launched_launched ran).last ran _ known)

def aroundReload : List Step :=
  Sample.letter 110 ++ [.reload (.mirror Daemon.sampleConfiguration), .reload .read, .reload .assign,
    .reload (.build Sample.shop), .receive (Sample.quiet 111), .reload .adopt] ++ Sample.letter 112

theorem letters_current : ∃ t, Transition.run advance Sample.launched aroundReload = some t ∧
    (t.engine.latch "notify").triggerCount = 2 ∧
    Transition.Always advance Current Sample.launched aroundReload := by
  have ran : Transition.run advance Sample.launched aroundReload = _ :=
    (Option.some_get (by decide +kernel)).symm
  exact ⟨_, ran, by decide +kernel, (cache_current_iff _ _ _ _ _ _ Sample.launched_launched ran).1.mpr
    (by decide +kernel)⟩

end Service

end NotiMapper
