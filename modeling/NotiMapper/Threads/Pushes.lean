import NotiMapper.Engine.Outputs
import NotiMapper.Engine.Reacting
import NotiMapper.Threads
import Mathlib.Data.List.Perm.Basic

/-! Pushes on their way: an output is in flight exactly while one request of its is with
the pool, or one answer is on its way to the core. -/
namespace NotiMapper

open Python Effect

namespace Engine

/-- What a step of the core does to pushes, unless it handles a push result or a reload:
requests are only added, each for an output that was not in flight. -/
structure Carried (s t : Engine) : Prop where
  graph : t.graph = s.graph
  plugins : t.plugins = s.plugins
  served : t.dispatcher.outputs = s.dispatcher.outputs
  lastApplied : ∀ o, t.lastApplied o = s.lastApplied o
  synced : ∀ o ∈ s.plugins.outputs, Synced s o → Synced t o
  sent : ∃ requests : List PushRequest,
    t.dispatcher.queue = s.dispatcher.queue ++ requests ∧
    (requests.map (·.instanceName)).Nodup ∧
    (∀ o ∈ requests.map (·.instanceName), o ∉ s.inFlight) ∧
    ∀ o, o ∈ t.inFlight ↔ o ∈ s.inFlight ∨ o ∈ requests.map (·.instanceName)

theorem readyRequests_nodup (s : Engine) {rows : List (Name × PendingPush)}
    (nodup : (rows.map (·.1)).Nodup) :
    ((s.readyRequests rows).map (·.instanceName)).Nodup := by
  have sublist : ((s.readyRequests rows).map (·.instanceName)).Sublist (rows.map (·.1)) := by
    induction rows with
    | nil => exact List.Sublist.refl _
    | cons row rows ih =>
      have rest := ih (List.nodup_cons.mp nodup).2
      simp only [readyRequests, List.filterMap_cons] at rest ⊢
      split
      · exact rest.cons _
      · rename_i request made
        split at made
        · cases made
          exact rest.cons_cons _
        · cases made
  exact nodup.sublist sublist

theorem readyRequests_idle (s : Engine) (rows : List (Name × PendingPush)) :
    ∀ o ∈ (s.readyRequests rows).map (·.instanceName), o ∉ s.inFlight := by
  intro o member
  obtain ⟨request, made, rfl⟩ := List.mem_map.mp member
  obtain ⟨row, _, made⟩ := List.mem_filterMap.mp made
  split at made
  · rename_i free
    cases made
    exact free.1
  · cases made

theorem Moves.carried {f : Rule → LatchRecord → LatchRecord} {s t : Engine}
    (moved : Moves f s t) : Carried s t where
  graph := moved.graph
  plugins := moved.plugins
  served := by rw [moved.dispatcher]
  lastApplied := by
    intro o
    simp only [lastApplied, Store.outputStateOf, moved.outputState]
  synced := fun o _ synced => (moved.outputs o).synced synced
  sent := by
    refine ⟨[], by rw [moved.dispatcher, List.append_nil], List.nodup_nil, by simp, fun o => ?_⟩
    rw [moved.inFlight]
    simp

theorem Dispatched.carried {now : Time} {s t : Engine} (sent : Dispatched now s t) :
    Carried s t where
  graph := sent.graph
  plugins := sent.plugins
  served := by rw [sent.queue]
  lastApplied := sent.lastApplied
  synced := fun _ live synced => synced.dispatched live sent
  sent := by
    refine ⟨_, by rw [sent.queue], s.readyRequests_nodup (s.store.pendingPushesDue_nodup now),
      s.readyRequests_idle _, fun o => ?_⟩
    rw [sent.inFlight, List.mem_map]

theorem Moves.then_carried {f : Rule → LatchRecord → LatchRecord} {s m t : Engine}
    (moved : Moves f s m) (carried : Carried m t) : Carried s t where
  graph := carried.graph.trans moved.graph
  plugins := carried.plugins.trans moved.plugins
  served := carried.served.trans moved.carried.served
  lastApplied := fun o => (carried.lastApplied o).trans (moved.carried.lastApplied o)
  synced := fun o live synced =>
    carried.synced o (moved.plugins ▸ live) (moved.carried.synced o live synced)
  sent := by
    have sent := carried.sent
    rw [moved.dispatcher, moved.inFlight] at sent
    exact sent

theorem handle_carried {w : World} {message : CoreMessage} {s t : Engine}
    (own : ∀ result, message ≠ .pushResult result) (keeping : ∀ reload, message ≠ .reload reload)
    (stepped : advance s (.handle w message) = some t) : Carried s t := (handle_moves own keeping (advance_handle.mp stepped)).carried

theorem tick_carried {w : World} {s t : Engine} (stepped : advance s (.tick w) = some t) :
    Carried s t := by
  obtain ⟨m, fired, rfl⟩ := tick_ok (advance_tick.mp stepped)
  have sent := (dispatchDuePushes_spec w.now m).carried
  have carried := (fireDueTimers_moves fired).then_carried sent
  rw [maybeWriteLastSeen_only]
  refine ⟨carried.graph, carried.plugins, carried.served, carried.lastApplied, ?_, carried.sent⟩
  intro o live synced
  have beat := carried.synced o live ⟨synced.behind, synced.target⟩
  exact ⟨beat.behind, beat.target⟩

end Engine

namespace Threads

open Engine

variable {ν ρ : Type}

def resultOf : CoreMessage × ν → Option PushResultMessage
  | (.pushResult result, _) => some result
  | _ => none

/-- The answers that the core has not handled. -/
def answers (s : Threads ν ρ) : List PushResultMessage :=
  s.results ++ s.queue.filterMap resultOf

/-- The outputs of the requests with the pool and of the answers, one by one. -/
def pushing (s : Threads ν ρ) : List Name :=
  s.engine.dispatcher.queue.map (·.instanceName) ++ s.answers.map (·.instanceName)

structure OneEach (s : Threads ν ρ) : Prop where
  nodup : s.pushing.Nodup
  flying : ∀ o, o ∈ s.engine.inFlight ↔ o ∈ s.pushing

variable {s t : Threads ν ρ}

theorem OneEach.perm (one : OneEach s) (inFlight : t.engine.inFlight = s.engine.inFlight)
    (perm : t.pushing.Perm s.pushing) : OneEach t where
  nodup := perm.nodup_iff.mpr one.nodup
  flying := by
    intro o
    rw [inFlight, one.flying, perm.mem_iff]

theorem OneEach.kept (one : OneEach s) (inFlight : t.engine.inFlight = s.engine.inFlight)
    (queue : t.engine.dispatcher.queue = s.engine.dispatcher.queue)
    (answers : t.answers.Perm s.answers) : OneEach t := by
  refine one.perm inFlight ?_
  rw [pushing, queue]
  exact (answers.map _).append_left _

theorem answers_submit {message : CoreMessage} (note : ν)
    (own : ∀ result, message ≠ .pushResult result) : (s.submit message note).answers = s.answers := by
  have none : resultOf (message, note) = none := by
    cases message with
    | pushResult result => exact absurd rfl (own result)
    | _ => rfl
  simp [answers, submit, none]

theorem answers_receive {message : CoreMessage} {note : ν} {rest : List (CoreMessage × ν)}
    {engine : Engine} (waiting : s.queue = (message, note) :: rest)
    (own : ∀ result, message ≠ .pushResult result) :
    ({ s with engine := engine, queue := rest } : Threads ν ρ).answers = s.answers := by
  have none : resultOf (message, note) = none := by
    cases message with
    | pushResult result => exact absurd rfl (own result)
    | _ => rfl
  simp [answers, waiting, none]

theorem answers_received {result : PushResultMessage} {note : ν} {rest : List (CoreMessage × ν)}
    (engine : Engine) (waiting : s.queue = (.pushResult result, note) :: rest) :
    s.answers.Perm
      (result :: ({ s with engine := engine, queue := rest } : Threads ν ρ).answers) := by
  simp only [answers, waiting, List.filterMap_cons, resultOf]
  exact List.perm_middle

theorem answers_report {note : ν} {k : Nat} (reported : s.report note k = some t) :
    t.answers.Perm s.answers := by
  obtain ⟨result, found, rfl⟩ := report_eq_some.mp reported
  obtain ⟨place, rfl⟩ := List.getElem?_eq_some_iff.mp found
  have moved : (s.results[k] :: s.results.eraseIdx k).Perm s.results :=
    List.getElem_cons_eraseIdx_perm place
  simp only [answers, submit, List.filterMap_append, List.filterMap_cons, resultOf,
    List.filterMap_nil]
  rw [← List.append_assoc]
  exact List.perm_append_comm.trans (moved.append_right _)

/-- The core took requests no further, or sent some for outputs that were not in flight. -/
theorem OneEach.carried (one : OneEach s) (carried : Carried s.engine t.engine)
    (answers : t.answers = s.answers) : OneEach t := by
  obtain ⟨requests, queue, nodup, idle, flying⟩ := carried.sent
  have grown : t.pushing.Perm (requests.map (·.instanceName) ++ s.pushing) := by
    simp only [pushing, queue, answers, List.map_append, List.append_assoc]
    exact List.perm_append_comm_assoc _ _ _
  constructor
  · rw [grown.nodup_iff, List.nodup_append']
    refine ⟨nodup, one.nodup, fun o sent before => idle o sent ?_⟩
    exact (one.flying o).mpr before
  · intro o
    rw [flying, one.flying, grown.mem_iff, List.mem_append, or_comm]

theorem OneEach.received {result : PushResultMessage} {note : ν} {rest : List (CoreMessage × ν)}
    {engine : Engine} (one : OneEach s) (waiting : s.queue = (.pushResult result, note) :: rest)
    (resulted : Resulted result s.engine engine) :
    OneEach ({ s with engine := engine, queue := rest } : Threads ν ρ) := by
  have shrunk : s.pushing.Perm (result.instanceName ::
      ({ s with engine := engine, queue := rest } : Threads ν ρ).pushing) := by
    simp only [pushing, resulted.dispatcher]
    refine (((answers_received engine waiting).map _).append_left _).trans ?_
    rw [List.map_cons]
    exact List.perm_middle
  have nodup := shrunk.nodup_iff.mp one.nodup
  rw [List.nodup_cons] at nodup
  refine ⟨nodup.2, fun o => ?_⟩
  have member := shrunk.mem_iff (a := o)
  rw [List.mem_cons] at member
  rw [resulted.inFlight, Finset.mem_erase, one.flying, member]
  constructor
  · rintro ⟨differs, same | pushing⟩
    · exact absurd same differs
    · exact pushing
  · intro pushing
    exact ⟨fun same => nodup.1 (same ▸ pushing), .inr pushing⟩

theorem taken_queue {k : Nat} {request : PushRequest}
    (found : s.engine.dispatcher.queue[k]? = some request) :
    (request :: (s.engine.dispatcher.taken k).queue).Perm s.engine.dispatcher.queue := by
  obtain ⟨place, rfl⟩ := List.getElem?_eq_some_iff.mp found
  exact List.getElem_cons_eraseIdx_perm place

theorem taken_others {k : Nat} {request : PushRequest} {o : Name}
    (found : s.engine.dispatcher.queue[k]? = some request) (other : o ≠ request.instanceName) :
    o ∈ (s.engine.dispatcher.taken k).queue.map (·.instanceName) ↔
      o ∈ s.engine.dispatcher.queue.map (·.instanceName) := by
  rw [← ((taken_queue found).map (·.instanceName)).mem_iff, List.map_cons, List.mem_cons,
    or_iff_right other]

theorem OneEach.unanswered {k : Nat} {request : PushRequest} (one : OneEach s)
    (found : s.engine.dispatcher.queue[k]? = some request) :
    ∀ answer ∈ s.answers, answer.instanceName ≠ request.instanceName := by
  intro answer member same
  have queued : request.instanceName ∈ s.engine.dispatcher.queue.map (·.instanceName) :=
    List.mem_map_of_mem (List.mem_of_getElem? found)
  exact (List.nodup_append'.mp one.nodup).2.2 queued (same ▸ List.mem_map_of_mem member)

theorem OneEach.performed {apply : PushRequest → ρ → Except String Unit × ρ} {k : Nat}
    (one : OneEach s) (performed : s.perform apply k = some t) : OneEach t := by
  obtain ⟨request, found, rfl⟩ := perform_eq_some.mp performed
  refine one.perm rfl ?_
  have taken := (taken_queue found).map (·.instanceName)
  simp only [pushing, answers, List.cons_append, List.map_cons, Dispatcher.perform_instanceName]
  refine List.perm_middle.trans ?_
  exact taken.append_right _

theorem OneEach.reported {note : ν} {k : Nat} (one : OneEach s)
    (reported : s.report note k = some t) : OneEach t := by
  have answers := answers_report reported
  obtain ⟨result, _, rfl⟩ := report_eq_some.mp reported
  exact one.kept rfl rfl answers

/-- What the core takes an output to show, or will once it has handled the answers. -/
def Believes (s : Threads ν ρ) (o : Name) (value : Bool) : Prop :=
  (∃ answer ∈ s.answers, answer.instanceName = o ∧ answer.succeeded = true ∧
    answer.pushedValue = value) ∨
  (∀ answer ∈ s.answers, answer.instanceName = o → answer.succeeded = false) ∧
    s.engine.lastApplied o = some value

instance (s : Threads ν ρ) (o : Name) (value : Bool) : Decidable (Believes s o value) :=
  inferInstanceAs (Decidable (_ ∨ _ ∧ _))

theorem Believes.congr {value : Bool} {o : Name} (believes : Believes s o value)
    (answers : ∀ answer, answer.instanceName = o → (answer ∈ t.answers ↔ answer ∈ s.answers))
    (applied : t.engine.lastApplied o = s.engine.lastApplied o) : Believes t o value := by
  rcases believes with ⟨answer, member, same, told⟩ | ⟨failed, last⟩
  · exact .inl ⟨answer, (answers answer same).mpr member, same, told⟩
  · exact .inr ⟨fun answer member same => failed answer ((answers answer same).mp member) same,
      applied.trans last⟩

theorem believes_others {value : Bool} {result : PushResultMessage} {o : Name}
    (answers : t.answers.Perm (result :: s.answers)) (other : o ≠ result.instanceName)
    (applied : t.engine.lastApplied o = s.engine.lastApplied o) :
    Believes t o value ↔ Believes s o value := by
  have same : ∀ answer, answer.instanceName = o → (answer ∈ t.answers ↔ answer ∈ s.answers) := by
    intro answer name
    rw [answers.mem_iff, List.mem_cons, or_iff_right]
    rintro rfl
    exact other name.symm
  exact ⟨fun believes => believes.congr (fun answer name => (same answer name).symm) applied.symm,
    fun believes => believes.congr same applied⟩

/-- A new answer is all there is to know about its output. -/
theorem believes_answered (value : Bool) {result : PushResultMessage}
    (answers : t.answers = result :: s.answers)
    (alone : ∀ answer ∈ s.answers, answer.instanceName ≠ result.instanceName)
    (applied : t.engine.lastApplied result.instanceName =
      s.engine.lastApplied result.instanceName) :
    Believes t result.instanceName value ↔
      if result.succeeded then result.pushedValue = value
      else Believes s result.instanceName value := by
  have before : Believes s result.instanceName value ↔
      s.engine.lastApplied result.instanceName = some value := by
    constructor
    · rintro (⟨answer, member, same, _⟩ | ⟨_, last⟩)
      · exact absurd same (alone answer member)
      · exact last
    · exact fun last => .inr ⟨fun answer member same => absurd same (alone answer member), last⟩
  have after : Believes t result.instanceName value ↔
      (result.succeeded = true ∧ result.pushedValue = value) ∨
        result.succeeded = false ∧ s.engine.lastApplied result.instanceName = some value := by
    simp only [Believes, answers, applied, List.mem_cons, exists_eq_or_imp, forall_eq_or_imp,
      true_and, forall_const]
    constructor
    · rintro ((told | ⟨answer, member, same, _⟩) | ⟨⟨failed, _⟩, last⟩)
      · exact .inl told
      · exact absurd same (alone answer member)
      · exact .inr ⟨failed, last⟩
    · rintro (told | ⟨failed, last⟩)
      · exact .inl (.inl told)
      · exact .inr ⟨⟨failed, fun answer member same => absurd same (alone answer member)⟩, last⟩
  rw [after, before]
  cases result.succeeded <;> simp

/-- An answer was all there was to know about its output, and is now recorded. -/
theorem believes_received {value : Bool} {result : PushResultMessage} {o : Name}
    (nodup : s.pushing.Nodup) (answers : s.answers.Perm (result :: t.answers))
    (applied : t.engine.lastApplied o =
      if result.succeeded ∧ o = result.instanceName then some result.pushedValue
      else s.engine.lastApplied o) : Believes t o value ↔ Believes s o value := by
  have names := ((answers.map (·.instanceName)).nodup_iff).mp (List.nodup_append'.mp nodup).2.1
  rw [List.map_cons, List.nodup_cons] at names
  have none : ∀ answer ∈ t.answers, answer.instanceName ≠ result.instanceName :=
    fun answer member same => names.1 (same ▸ List.mem_map_of_mem member)
  have among : ∀ answer, answer ∈ s.answers ↔ answer = result ∨ answer ∈ t.answers := by
    intro answer
    rw [answers.mem_iff, List.mem_cons]
  by_cases same : o = result.instanceName
  · subst same
    have silent : ∀ answer ∈ t.answers, answer.instanceName = result.instanceName →
        answer.succeeded = false := fun answer member same => absurd same (none answer member)
    cases succeeded : result.succeeded with
    | true =>
      rw [if_pos ⟨succeeded, rfl⟩] at applied
      constructor
      · rintro (⟨answer, member, name, _⟩ | ⟨_, last⟩)
        · exact absurd name (none answer member)
        · exact .inl ⟨result, (among _).mpr (.inl rfl), rfl, succeeded,
            Option.some.inj (applied.symm.trans last)⟩
      · rintro (⟨answer, member, name, _, rfl⟩ | ⟨failed, _⟩)
        · rcases (among answer).mp member with rfl | later
          · exact .inr ⟨silent, applied⟩
          · exact absurd name (none answer later)
        · have unsuccessful := failed result ((among _).mpr (.inl rfl)) rfl
          rw [succeeded] at unsuccessful
          cases unsuccessful
    | false =>
      rw [if_neg (by simp [succeeded])] at applied
      constructor
      · rintro (⟨answer, member, name, _⟩ | ⟨_, last⟩)
        · exact absurd name (none answer member)
        · refine .inr ⟨fun answer member name => ?_, applied.symm.trans last⟩
          rcases (among answer).mp member with rfl | later
          · exact succeeded
          · exact absurd name (none answer later)
      · rintro (⟨answer, member, name, told, _⟩ | ⟨_, last⟩)
        · rcases (among answer).mp member with rfl | later
          · rw [succeeded] at told
            cases told
          · exact absurd name (none answer later)
        · exact .inr ⟨silent, applied.trans last⟩
  · have applied := applied.trans (if_neg fun both => same both.2)
    exact (believes_others answers same applied.symm).symm

end Threads

end NotiMapper
