import NotiMapper.Library.Ledger
import NotiMapper.Threads.Pushes

/-! The threads of the push pool, step by step. A thread takes the request that has waited
longest, looks its output up, calls `apply`, and reports. Other threads, the core and a
reload that replaces the output table may act between any two of these. -/
namespace NotiMapper

open Python Effect Engine

namespace PushRequest

def value (request : PushRequest) : Name × Bool := (request.instanceName, request.update.state)

/-- `_perform` finds no output. -/
def unconfigured (request : PushRequest) : PushResultMessage where
  instanceName := request.instanceName
  pushedValue := request.update.state
  succeeded := false
  error := some "output instance is no longer configured"

/-- `apply` has returned, or has raised. -/
def answered (request : PushRequest) : Except String Unit → PushResultMessage
  | .error error =>
    { instanceName := request.instanceName
      pushedValue := request.update.state
      succeeded := false
      error := some error }
  | .ok _ =>
    { instanceName := request.instanceName
      pushedValue := request.update.state
      succeeded := true }

end PushRequest

theorem Dispatcher.perform_eq (d : Dispatcher) (request : PushRequest)
    (applied : Except String Unit) : d.perform request applied =
      if request.instanceName ∈ d.outputs then request.answered applied
      else request.unconfigured := by
  by_cases live : request.instanceName ∈ d.outputs
  · simp only [perform, live, not_true_eq_false, if_false, if_true]
    cases applied <;> rfl
  · simp only [perform, live, not_false_eq_true, if_true, if_false]
    rfl

def PushResultMessage.value (result : PushResultMessage) : Name × Bool :=
  (result.instanceName, result.pushedValue)

/-- The value a result says was applied. -/
def PushResultMessage.confirmed (result : PushResultMessage) : Option (Name × Bool) :=
  if result.succeeded then some result.value else none

/-- How far a thread has got with the request it took. -/
inductive Job
  | taken (request : PushRequest)
  | applying (request : PushRequest) (output : PluginRef)

def Job.request : Job → PushRequest
  | .taken request => request
  | .applying request _ => request

/-- The core and the pool; what is outside the core are the jobs of the busy threads. -/
abbrev Pool := Threads Unit (List Job)

namespace Pool

/-- A thread that is free takes a request; one with a result at hand is not free. -/
def take (threadCount : Nat) (s : Pool) : Option Pool :=
  match s.engine.dispatcher.queue with
  | [] => none
  | request :: rest =>
    if s.outside.length + s.results.length < max 1 threadCount then
      some { s with
        engine := { s.engine with dispatcher := { s.engine.dispatcher with queue := rest } }
        outside := s.outside ++ [.taken request] }
    else none

def lookUp (k : Nat) (s : Pool) : Option Pool :=
  match s.outside[k]? with
  | some (.taken request) =>
    match s.engine.dispatcher.outputs.lookup request.instanceName with
    | none => some { s with
        results := request.unconfigured :: s.results
        outside := s.outside.eraseIdx k }
    | some output => some { s with outside := s.outside.set k (.applying request output) }
  | _ => none

def finish (applied : Except String Unit) (k : Nat) (s : Pool) : Option Pool :=
  match s.outside[k]? with
  | some (.applying request _) => some { s with
      results := request.answered applied :: s.results
      outside := s.outside.eraseIdx k }
  | _ => none

/-- The core thread reconciles, before it enters its loop. -/
def reconcile (w : World) (s : Pool) : Option Pool :=
  (Engine.turn s.engine (.reconcile w)).map fun engine => { s with engine := engine }

inductive Move
  | submit (message : CoreMessage)
  | receive (w : World)
  | tick (w : World)
  | reconcile (w : World)
  | setOutputs (outputs : Table PluginRef)
  | take
  | lookUp (k : Nat)
  | finish (k : Nat) (applied : Except String Unit)
  | report (k : Nat)

/-- Only the pool hands results to the core. -/
def step (threadCount : Nat) (s : Pool) : Move → Option Pool
  | .submit message =>
    if (Threads.resultOf (message, ())).isSome then none else some (s.submit message ())
  | .receive w => s.receive w
  | .tick w => s.tick w
  | .reconcile w => s.reconcile w
  | .setOutputs outputs => some { s with
      engine := { s.engine with dispatcher := s.engine.dispatcher.setOutputs outputs } }
  | .take => s.take threadCount
  | .lookUp k => s.lookUp k
  | .finish k applied => s.finish applied k
  | .report k => s.report () k

/- What is on its way. -/

/-- The requests whose result has not been made. -/
def unperformed (s : Pool) : List (Name × Bool) :=
  s.engine.dispatcher.queue.map (·.value) ++ s.outside.map (·.request.value)

def unhandled (s : Pool) : List (Name × Bool) := s.answers.map (·.value)

def dispatchedIn (threadCount : Nat) (s : Pool) (a : Move) : List (Name × Bool) :=
  match a with
  | .receive _ | .tick _ | .reconcile _ =>
    (s.step threadCount a).elim [] fun t =>
      (t.engine.dispatcher.queue.drop s.engine.dispatcher.queue.length).map (·.value)
  | _ => []

def producedIn (s : Pool) : Move → List PushResultMessage
  | .lookUp k =>
    match s.outside[k]? with
    | some (.taken request) =>
      if request.instanceName ∈ s.engine.dispatcher.outputs then [] else [request.unconfigured]
    | _ => []
  | .finish k applied =>
    match s.outside[k]? with
    | some (.applying request _) => [request.answered applied]
    | _ => []
  | _ => []

def appliedIn (s : Pool) : Move → List (Name × Bool)
  | .finish k (.ok _) =>
    match s.outside[k]? with
    | some (.applying request _) => [request.value]
    | _ => []
  | _ => []

def handledIn (s : Pool) : Move → List PushResultMessage
  | .receive _ => (s.queue.head?.bind Threads.resultOf).toList
  | _ => []

end Pool

namespace Engine

/-- The core has only added requests, each for an output that was not in flight. -/
structure Sends (s t : Engine) : Prop where
  lastApplied : ∀ o, t.lastApplied o = s.lastApplied o
  sent : ∃ requests : List PushRequest,
    t.dispatcher.queue = s.dispatcher.queue ++ requests ∧
    (requests.map (·.instanceName)).Nodup ∧
    (∀ o ∈ requests.map (·.instanceName), o ∉ s.inFlight) ∧
    ∀ o, o ∈ t.inFlight ↔ o ∈ s.inFlight ∨ o ∈ requests.map (·.instanceName)

theorem Carried.sends {s t : Engine} (carried : Carried s t) : Sends s t :=
  ⟨carried.lastApplied, carried.sent⟩

theorem reload_sends {w : World} {message : ReloadMessage} {s t : Engine}
    (stepped : advance s (.handle w (.reload message)) = some t) : Sends s t := by
  have ran := handleReload_ok.mp (advance_handle.mp stepped)
  rw [reloaded_only] at ran
  have queue : (adopt message s).dispatcher.queue = s.dispatcher.queue := by
    cases plugins : message.plugins <;> simp only [adopt, plugins] <;> rfl
  have inFlight : (adopt message s).inFlight = s.inFlight := by
    cases plugins : message.plugins <;> simp only [adopt, plugins] <;> rfl
  subst ran
  refine ⟨fun _ => rfl, [], ?_, List.nodup_nil, by simp, ?_⟩
  · rw [List.append_nil]
    exact queue
  · simp [inFlight]

theorem reconcile_sends {w : World} {s t : Engine} (ran : Engine.reconcile w s = .ok ⟨⟩ t) :
    Sends s t := by
  obtain ⟨run⟩ := reconcile_run ran
  have sent := run.dispatched.carried.sent
  rw [run.forced_eq] at sent
  refine ⟨(reconcile_spec ran).lastApplied, ?_⟩
  rw [run.ready]
  exact sent

end Engine

namespace Pool

/-- What one move means for pushes. -/
structure Moved (s t : Pool) (sent : List (Name × Bool)) (made heard : List PushResultMessage) :
    Prop where
  performing : (s.unperformed ++ sent).Perm (made.map (·.value) ++ t.unperformed)
  answering : (s.answers ++ made).Perm (heard ++ t.answers)
  idle : (sent.map Prod.fst).Nodup ∧ ∀ o ∈ sent.map Prod.fst, o ∉ s.engine.inFlight
  flying : ∀ o, o ∈ t.engine.inFlight ↔
    (o ∈ s.engine.inFlight ∨ o ∈ sent.map Prod.fst) ∧ o ∉ heard.map (·.instanceName)
  lastApplied : ∀ o, t.engine.lastApplied o =
    ((Ledger.entries Prod.fst o (heard.filterMap (·.confirmed))).getLast?.map Prod.snd).or
      (s.engine.lastApplied o)

/-- An output is in flight exactly while one request of its is on its way. -/
structure Tidy (s : Pool) : Prop where
  nodup : ((s.unperformed ++ s.unhandled).map Prod.fst).Nodup
  flying : ∀ o, o ∈ s.engine.inFlight ↔ o ∈ (s.unperformed ++ s.unhandled).map Prod.fst

namespace Moved

variable {s t : Pool} {sent : List (Name × Bool)} {made heard : List PushResultMessage}

theorem opened_nodup (moved : Moved s t sent made heard) (tidy : Tidy s) :
    ((s.unperformed ++ s.unhandled ++ sent).map Prod.fst).Nodup := by
  rw [List.map_append, List.nodup_append']
  refine ⟨tidy.nodup, moved.idle.1, ?_⟩
  intro o before now
  exact moved.idle.2 o now ((tidy.flying o).mpr before)

theorem performed (moved : Moved s t sent made heard) :
    (s.unperformed ++ s.unhandled ++ sent).Perm
      (s.unhandled ++ made.map (·.value) ++ t.unperformed) := by
  have swapped : (s.unperformed ++ s.unhandled ++ sent).Perm
      (s.unhandled ++ (s.unperformed ++ sent)) := by
    rw [← List.append_assoc]
    exact List.perm_append_comm.append_right _
  refine swapped.trans ?_
  rw [List.append_assoc]
  exact moved.performing.append_left _

theorem answered (moved : Moved s t sent made heard) :
    (s.unhandled ++ made.map (·.value)).Perm (heard.map (·.value) ++ t.unhandled) := by
  have mapped := moved.answering.map (·.value)
  rwa [List.map_append, List.map_append] at mapped

theorem whole (moved : Moved s t sent made heard) :
    (s.unperformed ++ s.unhandled ++ sent).Perm
      (heard.map (·.value) ++ (t.unperformed ++ t.unhandled)) := by
  refine moved.performed.trans ((moved.answered.append_right _).trans ?_)
  rw [List.append_assoc]
  exact List.perm_append_comm.append_left _

theorem tidy (moved : Moved s t sent made heard) (tidy : Tidy s) : Tidy t := by
  have nodup := ((moved.whole.map Prod.fst).nodup_iff).mp (moved.opened_nodup tidy)
  have members : ∀ o, (o ∈ (s.unperformed ++ s.unhandled).map Prod.fst ∨ o ∈ sent.map Prod.fst) ↔
      o ∈ heard.map (·.instanceName) ∨ o ∈ (t.unperformed ++ t.unhandled).map Prod.fst := by
    intro o
    have same := (moved.whole.map Prod.fst).mem_iff (a := o)
    generalize s.unperformed ++ s.unhandled = before at same
    generalize t.unperformed ++ t.unhandled = after at same
    rwa [List.map_append, List.mem_append, List.map_append, List.mem_append, List.map_map] at same
  rw [List.map_append, List.map_map, List.nodup_append'] at nodup
  refine ⟨nodup.2.1, fun o => ?_⟩
  rw [moved.flying, tidy.flying, members]
  constructor
  · rintro ⟨heard | open_, unheard⟩
    · exact absurd heard unheard
    · exact open_
  · intro open_
    exact ⟨.inr open_, fun heard => nodup.2.2 heard open_⟩

theorem performing_balanced (moved : Moved s t sent made heard) (tidy : Tidy s) :
    Ledger.Balanced Prod.fst s.unperformed sent (made.map (·.value)) t.unperformed := by
  refine ⟨moved.performing, (moved.opened_nodup tidy).sublist (List.Sublist.map _ ?_)⟩
  exact (List.sublist_append_left _ _).append_right _

theorem answering_balanced (moved : Moved s t sent made heard) (tidy : Tidy s) :
    Ledger.Balanced Prod.fst s.unhandled (made.map (·.value)) (heard.map (·.value))
      t.unhandled := by
  have nodup := ((moved.performed.map Prod.fst).nodup_iff).mp (moved.opened_nodup tidy)
  exact ⟨moved.answered, nodup.sublist ((List.sublist_append_left _ _).map _)⟩

end Moved

/- One move at a time. -/

variable {s t : Pool}

theorem moved_outside {made : List PushResultMessage}
    (inFlight : t.engine.inFlight = s.engine.inFlight) (store : t.engine.store = s.engine.store)
    (performing : s.unperformed.Perm (made.map (·.value) ++ t.unperformed))
    (answering : (s.answers ++ made).Perm t.answers) : Moved s t [] made [] where
  performing := by simpa using performing
  answering := by simpa using answering
  idle := by simp
  flying := by simp [inFlight]
  lastApplied := by simp [Ledger.entries, Engine.lastApplied, store]

theorem moved_core (sends : Sends s.engine t.engine) (jobs : t.outside = s.outside)
    (answers : t.answers = s.answers) :
    Moved s t ((t.engine.dispatcher.queue.drop s.engine.dispatcher.queue.length).map (·.value))
      [] [] := by
  obtain ⟨requests, queue, nodup, idle, flying⟩ := sends.sent
  have names : (requests.map (·.value)).map Prod.fst = requests.map (·.instanceName) :=
    List.map_map
  rw [queue, List.drop_left]
  constructor
  · simp only [unperformed, queue, jobs, List.map_append, List.append_assoc, List.map_nil,
      List.nil_append]
    exact List.perm_append_comm.append_left _
  · rw [answers]
    simp
  · rw [names]
    exact ⟨nodup, idle⟩
  · rw [names]
    simpa using flying
  · intro o
    simp [Ledger.entries, sends.lastApplied o]

theorem moved_submit {message : CoreMessage} (own : (Threads.resultOf (message, ())).isSome = false) :
    Moved s (s.submit message ()) [] [] [] := by
  refine moved_outside rfl rfl (.refl _) ?_
  have foreign : ∀ result, message ≠ .pushResult result := by
    rintro result rfl
    cases own
  rw [Threads.answers_submit () foreign, List.append_nil]

theorem receive_moved {w : World} (stepped : s.receive w = some t) :
    Moved s t ((t.engine.dispatcher.queue.drop s.engine.dispatcher.queue.length).map (·.value))
      [] (handledIn s (.receive w)) := by
  obtain ⟨message, note, rest, engine, waiting, handled, rfl⟩ := Threads.receive_eq_some.mp stepped
  have head : handledIn s (.receive w) = (Threads.resultOf (message, note)).toList := by
    simp only [handledIn, waiting, List.head?_cons, Option.bind_some]
  rw [head]
  cases message with
  | pushResult result =>
    have resulted := handlePushResult_resulted (advance_handle.mp handled)
    simp only [Threads.resultOf, Option.toList_some, resulted.dispatcher, List.drop_length,
      List.map_nil]
    constructor
    · simp only [unperformed, resulted.dispatcher, List.append_nil, List.map_nil, List.nil_append]
      exact .refl _
    · rw [List.append_nil]
      exact Threads.answers_received engine waiting
    · simp
    · intro o
      rw [resulted.inFlight, Finset.mem_erase]
      simp [and_comm]
    · intro o
      rw [resulted.lastApplied]
      cases succeeded : result.succeeded with
      | false => simp [PushResultMessage.confirmed, succeeded, Ledger.entries]
      | true =>
        by_cases same : o = result.instanceName
        · simp [PushResultMessage.confirmed, PushResultMessage.value, succeeded, Ledger.entries,
            same]
        · simp [PushResultMessage.confirmed, PushResultMessage.value, succeeded, Ledger.entries,
            same, Ne.symm same]
  | reload reload =>
    exact moved_core (reload_sends handled) rfl (Threads.answers_receive waiting (by simp))
  | _ =>
    exact moved_core (handle_carried (by simp) (by simp) handled).sends rfl
      (Threads.answers_receive waiting (by simp))

theorem jobs_perm {jobs : List Job} {k : Nat} {job : Job} (found : jobs[k]? = some job) :
    (jobs.map (·.request.value)).Perm
      (job.request.value :: (jobs.eraseIdx k).map (·.request.value)) := by
  obtain ⟨place, rfl⟩ := List.getElem?_eq_some_iff.mp found
  exact (List.getElem_cons_eraseIdx_perm place).symm.map (·.request.value)

theorem jobs_set {jobs : List Job} {k : Nat} {job job' : Job} (found : jobs[k]? = some job)
    (same : job'.request = job.request) :
    (jobs.set k job').map (·.request.value) = jobs.map (·.request.value) := by
  obtain ⟨place, rfl⟩ := List.getElem?_eq_some_iff.mp found
  rw [List.map_set, same, ← List.getElem_map (fun job : Job => job.request.value)]
  · exact List.set_getElem_self _
  · simpa using place

theorem moved_result {k : Nat} {job : Job} {result : PushResultMessage}
    (found : s.outside[k]? = some job) (same : result.value = job.request.value) :
    Moved s { s with results := result :: s.results, outside := s.outside.eraseIdx k }
      [] [result] [] := by
  refine moved_outside rfl rfl ?_ ?_
  · simp only [unperformed, List.map_cons, List.map_nil, List.singleton_append, same]
    exact ((jobs_perm found).append_left _).trans List.perm_middle
  · simp only [Threads.answers, List.cons_append]
    exact List.perm_append_singleton _ _

theorem lookUp_moved {k : Nat} (stepped : s.lookUp k = some t) :
    Moved s t [] (producedIn s (.lookUp k)) [] := by
  unfold lookUp at stepped
  split at stepped
  · rename_i request found
    simp only [producedIn, found]
    split at stepped
    · rename_i gone
      have absent : request.instanceName ∉ s.engine.dispatcher.outputs :=
        AList.lookup_eq_none.mp gone
      rw [if_neg absent]
      cases Option.some.inj stepped
      exact moved_result found rfl
    · rename_i output live
      have present : request.instanceName ∈ s.engine.dispatcher.outputs :=
        AList.lookup_isSome.mp (by rw [live]; rfl)
      rw [if_pos present]
      cases Option.some.inj stepped
      refine moved_outside rfl rfl ?_ (by simp [Threads.answers])
      have jobs : (s.outside.set k (.applying request output)).map (·.request.value) =
          s.outside.map (·.request.value) := jobs_set found rfl
      simp only [unperformed, jobs]
      exact .refl _
  · cases stepped

theorem finish_moved {applied : Except String Unit} {k : Nat}
    (stepped : s.finish applied k = some t) :
    Moved s t [] (producedIn s (.finish k applied)) [] := by
  unfold finish at stepped
  split at stepped
  · rename_i request output found
    simp only [producedIn, found]
    cases Option.some.inj stepped
    refine moved_result found ?_
    cases applied <;> rfl
  · cases stepped

theorem take_moved {threadCount : Nat} (stepped : s.take threadCount = some t) :
    Moved s t [] [] [] := by
  unfold take at stepped
  split at stepped
  · cases stepped
  · rename_i request rest waiting
    split at stepped
    · cases Option.some.inj stepped
      refine moved_outside rfl rfl ?_ (by simp [Threads.answers])
      simp only [unperformed, waiting, List.map_cons, List.map_append, List.map_nil,
        List.nil_append, List.cons_append]
      rw [← List.append_assoc]
      exact (List.perm_append_singleton _ _).symm
    · cases stepped

theorem report_moved {k : Nat} (stepped : s.report () k = some t) : Moved s t [] [] [] := by
  have answers := Threads.answers_report stepped
  obtain ⟨result, _, rfl⟩ := Threads.report_eq_some.mp stepped
  refine moved_outside rfl rfl (.refl _) ?_
  rw [List.append_nil]
  exact answers.symm

theorem step_moved {threadCount : Nat} {a : Move} (stepped : s.step threadCount a = some t) :
    Moved s t (dispatchedIn threadCount s a) (producedIn s a) (handledIn s a) := by
  cases a with
  | submit message =>
    simp only [step] at stepped
    split at stepped
    · cases stepped
    · rename_i own
      cases Option.some.inj stepped
      exact moved_submit (Bool.eq_false_of_not_eq_true own)
  | receive w =>
    simp only [dispatchedIn, stepped, Option.elim_some]
    exact receive_moved stepped
  | tick w =>
    simp only [dispatchedIn, stepped, Option.elim_some]
    obtain ⟨engine, ticked, rfl⟩ := Threads.tick_eq_some.mp stepped
    exact moved_core (tick_carried ticked).sends rfl rfl
  | reconcile w =>
    simp only [dispatchedIn, stepped, Option.elim_some]
    obtain ⟨engine, reconciled, rfl⟩ := Option.map_eq_some_iff.mp stepped
    exact moved_core (reconcile_sends (turn_reconcile.mp reconciled)) rfl rfl
  | setOutputs outputs =>
    cases Option.some.inj stepped
    exact moved_outside rfl rfl (.refl _) (by simp [Threads.answers, producedIn])
  | take => exact take_moved stepped
  | lookUp k => exact lookUp_moved stepped
  | finish k applied => exact finish_moved stepped
  | report k => exact report_moved stepped

/- Whole runs. -/

section Run

variable (threadCount : Nat) (s : Pool) (moves : List Move)

def dispatched : List (Name × Bool) :=
  Transition.along (step threadCount) (dispatchedIn threadCount) s moves

def produced : List PushResultMessage := Transition.along (step threadCount) producedIn s moves

def applied : List (Name × Bool) := Transition.along (step threadCount) appliedIn s moves

def handled : List PushResultMessage := Transition.along (step threadCount) handledIn s moves

end Run

/-- The part of such a list that is about one output. -/
abbrev about (o : Name) (values : List (Name × Bool)) : List (Name × Bool) :=
  Ledger.entries Prod.fst o values

theorem appliedIn_eq (s : Pool) (a : Move) :
    appliedIn s a = (producedIn s a).filterMap (·.confirmed) := by
  cases a with
  | lookUp k =>
    simp only [appliedIn, producedIn]
    split
    · split
      · rfl
      · simp [PushRequest.unconfigured, PushResultMessage.confirmed]
    · rfl
  | finish k applied =>
    cases applied with
    | error error =>
      simp only [appliedIn, producedIn]
      split
      · simp [PushRequest.answered, PushResultMessage.confirmed]
      · rfl
    | ok _ =>
      simp only [appliedIn, producedIn]
      split
      · simp [PushRequest.answered, PushResultMessage.confirmed, PushResultMessage.value,
          PushRequest.value]
      · rfl
  | _ => rfl

section Histories

variable {threadCount : Nat} {moves : List Move}

theorem applied_eq : applied threadCount s moves =
    (produced threadCount s moves).filterMap (·.confirmed) := by
  rw [produced, Transition.along_filterMap]
  simp only [← appliedIn_eq]
  rfl

theorem run_performing (tidy : Tidy s) (ran : Transition.run (step threadCount) s moves = some t)
    (o : Name) : about o s.unperformed ++ about o (dispatched threadCount s moves) =
      about o ((produced threadCount s moves).map (·.value)) ++ about o t.unperformed := by
  rw [produced, Transition.along_map]
  exact Ledger.along_entries (fun _ _ _ tidy stepped => (step_moved stepped).tidy tidy)
    (fun _ _ _ tidy stepped => (step_moved stepped).performing_balanced tidy) tidy ran o

theorem run_answering (tidy : Tidy s) (ran : Transition.run (step threadCount) s moves = some t)
    (o : Name) : about o s.unhandled ++ about o ((produced threadCount s moves).map (·.value)) =
      about o ((handled threadCount s moves).map (·.value)) ++ about o t.unhandled := by
  rw [produced, handled, Transition.along_map, Transition.along_map]
  exact Ledger.along_entries (fun _ _ _ tidy stepped => (step_moved stepped).tidy tidy)
    (fun _ _ _ tidy stepped => (step_moved stepped).answering_balanced tidy) tidy ran o

/-- The last applied value is that of the last success the core has handled. -/
theorem run_lastApplied (ran : Transition.run (step threadCount) s moves = some t) (o : Name) :
    t.engine.lastApplied o =
      ((about o ((handled threadCount s moves).filterMap (·.confirmed))).getLast?.map Prod.snd).or
        (s.engine.lastApplied o) := by
  induction moves generalizing s with
  | nil =>
    cases Option.some.inj ran
    simp [handled, Transition.along, Ledger.entries]
  | cons a moves ih =>
    obtain ⟨m, stepped, rest⟩ := Transition.run_cons.mp ran
    have first := (step_moved stepped).lastApplied o
    rw [ih rest, first]
    simp only [handled, Transition.along, stepped, Option.elim_some, List.filterMap_append,
      Ledger.entries, List.filter_append, List.getLast?_append, Option.map_or, Option.or_assoc]

end Histories

/- The threads are never stuck. -/

/-- A move of a thread, where `apply` gives this answer if it is called. -/
def Move.Pooled (answer : Except String Unit) : Move → Prop
  | .take | .lookUp _ | .report _ => True
  | .finish _ applied => applied = answer
  | _ => False

/-- The moves a request has before it, at most, until its result is reported. -/
def remaining (s : Pool) : Nat :=
  4 * s.engine.dispatcher.queue.length +
    (s.outside.map fun
      | .taken _ => 3
      | .applying _ _ => 2).sum + s.results.length

/-- Some thread can go on, whatever `apply` answers. -/
theorem pool_progress (threadCount : Nat) (answer : Except String Unit) {s : Pool}
    (busy : s.remaining ≠ 0) : ∃ a t, a.Pooled answer ∧ s.step threadCount a = some t ∧
      t.remaining < s.remaining := by
  obtain ⟨engine, queue, results, jobs⟩ := s
  cases results with
  | cons result results =>
    refine ⟨.report 0, _, trivial, rfl, ?_⟩
    simp [remaining, Threads.submit]
  | nil =>
    cases jobs with
    | cons job jobs =>
      cases job with
      | taken request =>
        cases known : engine.dispatcher.outputs.lookup request.instanceName with
        | none =>
          refine ⟨.lookUp 0, _, trivial, by simp only [step, lookUp, List.getElem?_cons_zero, known]; rfl, ?_⟩
          simp [remaining]
          omega
        | some output =>
          refine ⟨.lookUp 0, _, trivial, by simp only [step, lookUp, List.getElem?_cons_zero, known]; rfl, ?_⟩
          simp [remaining]
      | applying request output =>
        refine ⟨.finish 0 answer, _, rfl, rfl, ?_⟩
        simp [remaining]
        omega
    | nil =>
      cases waiting : engine.dispatcher.queue with
      | nil => simp [remaining, waiting] at busy
      | cons request rest =>
        refine ⟨.take, _, trivial, by simp only [step, take, waiting, List.length_nil]; exact if_pos (by omega), ?_⟩
        simp [remaining, waiting]
        omega

theorem remaining_eq_zero {s : Pool} (done : s.remaining = 0) :
    s.unperformed = [] ∧ s.results = [] := by
  simp only [remaining, Nat.add_eq_zero_iff, Nat.mul_eq_zero, OfNat.ofNat_ne_zero, false_or,
    List.length_eq_zero_iff] at done
  obtain ⟨⟨queue, jobs⟩, results⟩ := done
  refine ⟨?_, results⟩
  cases outside : s.outside with
  | nil => simp [unperformed, queue, outside]
  | cons job rest => cases job <;> simp [outside] at jobs

/-- The threads alone bring every request to its result. -/
theorem pool_finishes (threadCount : Nat) (answer : Except String Unit) (s : Pool) :
    ∃ moves t, (∀ a ∈ moves, a.Pooled answer) ∧
      Transition.run (step threadCount) s moves = some t ∧ t.unperformed = [] ∧ t.results = [] := by
  induction size : s.remaining using Nat.strong_induction_on generalizing s with
  | _ n ih =>
    by_cases done : s.remaining = 0
    · exact ⟨[], s, by simp, rfl, remaining_eq_zero done⟩
    · obtain ⟨a, m, pooled, stepped, less⟩ := pool_progress threadCount answer done
      obtain ⟨moves, t, all, ran, finished⟩ := ih _ (size ▸ less) m rfl
      refine ⟨a :: moves, t, ?_, Transition.run_cons.mpr ⟨m, stepped, ran⟩, finished⟩
      intro b member
      rcases List.mem_cons.mp member with rfl | member
      · exact pooled
      · exact all b member

/-- An engine as it is constructed, over any store, and a pool with nothing to do. -/
def start (now : Time) (store : Store) (graph : RuleGraph) (plugins : PluginSet)
    (outputs : Table PluginRef) (settings : DaemonSettings) : Pool where
  engine := Engine.init now store graph plugins ⟨outputs, []⟩ settings
  queue := []
  results := []
  outside := []

theorem start_tidy (now : Time) (store : Store) (graph : RuleGraph) (plugins : PluginSet)
    (outputs : Table PluginRef) (settings : DaemonSettings) :
    Tidy (start now store graph plugins outputs settings) := by
  constructor
  · exact List.nodup_nil
  · intro o
    simp [start, Engine.init, unperformed, unhandled, Threads.answers]

/-- At most one push of each output is on its way, and its history is in order. -/
structure OneEach (threadCount : Nat) (s : Pool) (moves : List Move) (t : Pool) : Prop where
  single : ∀ o, (about o ((handled threadCount s moves).map (·.value))).length ≤
      (about o (dispatched threadCount s moves)).length ∧
    (about o (dispatched threadCount s moves)).length ≤
      (about o ((handled threadCount s moves).map (·.value))).length + 1
  flying : ∀ o, o ∈ t.engine.inFlight ↔
    (about o ((handled threadCount s moves).map (·.value))).length <
      (about o (dispatched threadCount s moves)).length
  performed : ∀ o, about o (dispatched threadCount s moves) =
    about o ((produced threadCount s moves).map (·.value)) ++ about o t.unperformed
  reported : ∀ o, about o ((produced threadCount s moves).map (·.value)) =
    about o ((handled threadCount s moves).map (·.value)) ++ about o t.unhandled
  finishes : ∀ answer, ∃ rest u, (∀ a ∈ rest, a.Pooled answer) ∧
    Transition.run (step threadCount) t rest = some u ∧ u.unperformed = [] ∧ u.results = []
  inOrder : ∀ o, (about o (applied threadCount s moves)).Sublist
    (about o (dispatched threadCount s moves))
  confirmed : applied threadCount s moves =
    (produced threadCount s moves).filterMap (·.confirmed)
  lastApplied : ∀ o, t.engine.lastApplied o =
    ((about o ((handled threadCount s moves).filterMap (·.confirmed))).getLast?.map Prod.snd).or
      (s.engine.lastApplied o)

theorem confirmed_sublist (results : List PushResultMessage) :
    (results.filterMap (·.confirmed)).Sublist (results.map (·.value)) := by
  induction results with
  | nil => exact .refl _
  | cons result results ih =>
    cases succeeded : result.succeeded with
    | false => simpa [PushResultMessage.confirmed, succeeded] using ih.cons _
    | true => simpa [PushResultMessage.confirmed, succeeded] using ih

end Pool

/-- Whatever the core, the reloads, the plugins and the threads do, in whatever order:
each output has at most one push on its way, each request gets one result, and values
are applied in the order in which they were dispatched. -/
theorem one_push_each (threadCount : Nat) (now : Time) (store : Store) (graph : RuleGraph)
    (plugins : PluginSet) (outputs : Table PluginRef) (settings : DaemonSettings)
    (moves : List Pool.Move) (t : Pool)
    (ran : Transition.run (Pool.step threadCount)
      (Pool.start now store graph plugins outputs settings) moves = some t) :
    Pool.OneEach threadCount (Pool.start now store graph plugins outputs settings) moves t := by
  have start := Pool.start_tidy now store graph plugins outputs settings
  have performed := Pool.run_performing start ran
  have reported := Pool.run_answering start ran
  have tidy : Pool.Tidy t := Transition.invariant
    (fun _ _ _ tidy stepped => (Pool.step_moved stepped).tidy tidy) start ran
  have empty : ∀ o, Pool.about o (Pool.start now store graph plugins outputs settings).unperformed =
      [] ∧ Pool.about o (Pool.start now store graph plugins outputs settings).unhandled = [] :=
    fun _ => ⟨rfl, rfl⟩
  simp only [(empty _).1, (empty _).2, List.nil_append] at performed reported
  generalize Pool.start now store graph plugins outputs settings = s at *
  have open_ : ∀ o, Pool.about o (Pool.dispatched threadCount s moves) =
      Pool.about o ((Pool.handled threadCount s moves).map (·.value)) ++
        Pool.about o (t.unhandled ++ t.unperformed) := by
    intro o
    rw [performed, reported, List.append_assoc]
    exact congrArg _ (Ledger.entries_append o _ _).symm
  have short : ∀ o, (Pool.about o (t.unhandled ++ t.unperformed)).length ≤ 1 := by
    intro o
    have swapped : ((t.unhandled ++ t.unperformed).map Prod.fst).Nodup :=
      ((List.perm_append_comm.map _).nodup_iff).mp tidy.nodup
    exact Ledger.entries_length_le_one swapped o
  have flying : ∀ o, o ∈ t.engine.inFlight ↔
      0 < (Pool.about o (t.unhandled ++ t.unperformed)).length := by
    intro o
    rw [tidy.flying, (List.perm_append_comm.map Prod.fst).mem_iff]
    exact Ledger.mem_keys
  constructor
  case single =>
    intro o
    have bound := short o
    rw [open_, List.length_append]
    omega
  case flying =>
    intro o
    rw [flying, open_, List.length_append]
    omega
  case performed => exact performed
  case reported => exact reported
  case finishes => exact fun answer => Pool.pool_finishes threadCount answer t
  case inOrder =>
    intro o
    rw [performed, Pool.applied_eq]
    exact ((Pool.confirmed_sublist _).filter _).trans (List.sublist_append_left _ _)
  case confirmed => exact Pool.applied_eq
  case lastApplied => exact Pool.run_lastApplied ran

namespace Sample

/-- The lamp's push is under way when a reload takes the lamp away; the push returns. -/
def lampMoves : List Pool.Move :=
  [.submit (.inputEvent ⟨"mail", ⟨1, "post"⟩⟩), .receive (quiet 1), .tick (quiet 2), .take,
    .lookUp 0, .setOutputs ∅, .finish 0 (.ok ()), .report 0, .receive (quiet 3)]

end Sample

theorem lamp_push_each : ∃ t, Transition.run (Pool.step 4)
    (Pool.start 0 (Sample.store .fresh) Sample.graph Sample.plugins Sample.plugins.outputs {})
      Sample.lampMoves = some t ∧
    Pool.OneEach 4
      (Pool.start 0 (Sample.store .fresh) Sample.graph Sample.plugins Sample.plugins.outputs {})
      Sample.lampMoves t := by
  have ran : Transition.run (Pool.step 4) (Pool.start 0 (Sample.store .fresh) Sample.graph
      Sample.plugins Sample.plugins.outputs {}) Sample.lampMoves = _ :=
    (Option.some_get (by decide +kernel)).symm
  exact ⟨_, ran, one_push_each 4 _ _ _ _ _ _ _ _ ran⟩

end NotiMapper
