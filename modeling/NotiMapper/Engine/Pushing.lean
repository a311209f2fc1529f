import NotiMapper.Engine

/-! The pending-push table. An output is `Synced` when it has a row exactly while its
last applied value is not the desired one, and the row aims at the desired value.
Synchronising an output makes it so; dispatching only aims rows afresh and drops
those of outputs that have no plugin. -/
namespace NotiMapper

open Python Effect

theorem Store.pendingPush_write (s : Store) (o : Name) (push : PendingPush) (q : Name) :
    (s.writePendingPush o push).pendingPush q = if q = o then some push else s.pendingPush q := by
  simp only [writePendingPush, pendingPush]
  by_cases same : q = o
  · subst same
    simp
  · simp [same, AList.lookup_insert_ne same]

theorem Store.pendingPush_delete (s : Store) (o q : Name) :
    (s.deletePendingPush o).pendingPush q = if q = o then none else s.pendingPush q := by
  simp only [deletePendingPush, pendingPush]
  by_cases same : q = o
  · subst same
    simp
  · simp [same, AList.lookup_erase_ne same]

theorem Store.pendingPushesDue_nodup (s : Store) (moment : Time) :
    ((s.pendingPushesDue moment).map (·.1)).Nodup := by
  have sorted : (s.pendingPushesDue moment).Perm
      ((s.pendingPushes.entries.filter fun row => row.2.nextAttemptAt ≤ moment).map
        fun row => (row.1, row.2)) := List.perm_insertionSort _ _
  rw [(sorted.map _).nodup_iff, List.map_map]
  exact s.pendingPushes.nodupKeys.sublist List.filter_sublist

namespace Engine

def PushesOnly (s t : Engine) : Prop :=
  t = { s with store := { s.store with pendingPushes := t.store.pendingPushes } }

namespace PushesOnly

variable {s m t : Engine}

theorem eq (only : PushesOnly s t) :
    t = { s with store := { s.store with pendingPushes := t.store.pendingPushes } } := only

theorem trans (first : PushesOnly s m) (second : PushesOnly m t) : PushesOnly s t := by
  unfold PushesOnly at second ⊢
  rw [second, first]

theorem graph (only : PushesOnly s t) : t.graph = s.graph := by
  rw [only.eq]

theorem plugins (only : PushesOnly s t) : t.plugins = s.plugins := by
  rw [only.eq]

theorem inFlight (only : PushesOnly s t) : t.inFlight = s.inFlight := by
  rw [only.eq]

theorem latch (only : PushesOnly s t) (n : Name) : t.latch n = s.latch n := by
  rw [only.eq]
  rfl

theorem desired (only : PushesOnly s t) (o : Name) : t.desired o = s.desired o := by
  rw [only.eq]
  rfl

theorem lastApplied (only : PushesOnly s t) (o : Name) : t.lastApplied o = s.lastApplied o := by
  rw [only.eq]
  rfl

theorem buildUpdate (only : PushesOnly s t) (o : Name) (value : Bool) :
    t.buildUpdate o value = s.buildUpdate o value := by
  rw [only.eq]
  rfl

end PushesOnly

structure Synced (s : Engine) (o : Name) : Prop where
  behind : (s.store.pendingPush o).isSome ↔ s.lastApplied o ≠ some (s.desired o)
  target : ∀ push, s.store.pendingPush o = some push → push.targetValue = s.desired o

/-- What decides whether an output is synchronised is the same in both states. -/
structure SameOutput (s t : Engine) (o : Name) : Prop where
  desired : t.desired o = s.desired o
  lastApplied : t.lastApplied o = s.lastApplied o
  pendingPush : t.store.pendingPush o = s.store.pendingPush o

theorem SameOutput.synced {s t : Engine} {o : Name} (same : SameOutput s t o)
    (synced : Synced s o) : Synced t o := by
  constructor
  · rw [same.pendingPush, same.lastApplied, same.desired]
    exact synced.behind
  · rw [same.pendingPush, same.desired]
    exact synced.target

def Settles (o : Name) (s t : Engine) : Prop := SameOutput s t o ∨ Synced t o

instance (o : Name) : IsPreorder Engine (Settles o) where
  refl _ := .inl ⟨rfl, rfl, rfl⟩
  trans s m t first second := by
    rcases second with same | synced
    · rcases first with before | synced
      · exact .inl ⟨same.desired.trans before.desired, same.lastApplied.trans before.lastApplied,
          same.pendingPush.trans before.pendingPush⟩
      · exact .inr (same.synced synced)
    · exact .inr synced

theorem Settles.synced {o : Name} {s t : Engine} (settles : Settles o s t)
    (synced : Synced s o) : Synced t o :=
  settles.elim (fun same => same.synced synced) id

/- Synchronisation. -/

theorem syncOutput_only (now : Time) (force : Bool) (o : Name) (s : Engine) :
    PushesOnly s (s.syncOutput now force o) := by
  simp only [syncOutput]
  split
  · split <;> rfl
  · split <;> rfl

theorem syncOutput_other (now : Time) (force : Bool) {o q : Name} (other : q ≠ o) (s : Engine) :
    (s.syncOutput now force o).store.pendingPush q = s.store.pendingPush q := by
  simp only [syncOutput]
  split
  · split
    · simp only [onStore, Store.pendingPush_delete, if_neg other]
    · rfl
  · split
    · rfl
    · simp only [onStore, Store.pendingPush_write, if_neg other]

theorem syncOutput_synced (now : Time) (o : Name) (s : Engine) :
    Synced (s.syncOutput now false o) o := by
  have only := syncOutput_only now false o s
  have behind : ∀ push, (s.syncOutput now false o).store.pendingPush o = some push →
      s.lastApplied o ≠ some (s.desired o) ∧ push.targetValue = s.desired o := by
    intro push stored
    simp only [syncOutput, Bool.not_false, Bool.true_and, beq_iff_eq] at stored
    split at stored
    · split at stored
      · simp [onStore, Store.pendingPush_delete] at stored
      · rename_i absent
        simp [stored] at absent
    · rename_i differs
      refine ⟨differs, ?_⟩
      split at stored
      · rename_i scheduled
        simpa [stored] using scheduled
      · simp only [onStore, Store.pendingPush_write, if_true, Option.some.injEq] at stored
        rw [← stored]
  constructor
  · rw [only.lastApplied, only.desired]
    constructor
    · intro present
      obtain ⟨push, stored⟩ := Option.isSome_iff_exists.mp present
      exact (behind push stored).1
    · intro differs
      simp only [syncOutput, Bool.not_false, Bool.true_and, beq_iff_eq, differs, if_false]
      split
      · rename_i scheduled
        obtain ⟨push, stored, _⟩ := (Option.any_eq_true ..).mp scheduled
        rw [stored]
        rfl
      · simp [onStore, Store.pendingPush_write]
  · intro push stored
    rw [only.desired]
    exact (behind push stored).2

theorem syncOutputs_only (now : Time) (names : List Name) (s : Engine) :
    PushesOnly s (s.syncOutputs now names) := by
  induction names generalizing s with
  | nil => rfl
  | cons o names ih => exact (syncOutput_only now false o s).trans (ih _)

theorem syncOutput_settles (now : Time) (o q : Name) (s : Engine) :
    Settles q s (s.syncOutput now false o) := by
  by_cases same : q = o
  · subst same
    exact .inr (syncOutput_synced now q s)
  · have only := syncOutput_only now false o s
    exact .inl ⟨only.desired q, only.lastApplied q, syncOutput_other now false same s⟩

theorem syncOutputs_settles (now : Time) (names : List Name) (q : Name) (s : Engine) :
    Settles q s (s.syncOutputs now names) := by
  induction names generalizing s with
  | nil => exact refl_of (Settles q) s
  | cons o names ih => exact trans_of (Settles q) (syncOutput_settles now o q s) (ih _)

theorem syncOutputs_synced (now : Time) {names : List Name} {o : Name} (listed : o ∈ names)
    (s : Engine) : Synced (s.syncOutputs now names) o := by
  induction names generalizing s with
  | nil => cases listed
  | cons q names ih =>
    rcases List.mem_cons.mp listed with rfl | listed
    · exact (syncOutputs_settles now names o _).synced (syncOutput_synced now o s)
    · exact ih listed _

/- Dispatch. -/

theorem buildUpdate_state (s : Engine) (o : Name) (value : Bool) :
    (s.buildUpdate o value).state = value := by
  cases value with
  | false => rfl
  | true =>
    simp only [buildUpdate, Bool.not_true, Bool.false_eq_true, if_false]
    split <;> rfl

def retarget (s : Engine) (o : Name) (push : PendingPush) : PendingPush :=
  { push with targetValue := s.desired o }

def readyRequests (s : Engine) (rows : List (Name × PendingPush)) : List PushRequest :=
  rows.filterMap fun row =>
    if row.1 ∉ s.inFlight ∧ row.1 ∈ s.plugins.outputs then
      some ⟨row.1, s.buildUpdate row.1 (s.desired row.1)⟩
    else none

theorem PushesOnly.readyRequests {s t : Engine} (only : PushesOnly s t)
    (rows : List (Name × PendingPush)) : t.readyRequests rows = s.readyRequests rows := by
  simp only [Engine.readyRequests, only.inFlight, only.plugins, only.desired, only.buildUpdate]

/-- What dispatching makes of an output's row. -/
def dispatchedPush (s : Engine) (o : Name) (row : Option PendingPush) : Option PendingPush :=
  if o ∈ s.inFlight then row
  else if o ∈ s.plugins.outputs then row.map (s.retarget o)
  else none

theorem prepareDue_spec (s : Engine) (acc : List PushRequest) (o : Name) (push : PendingPush)
    (stored : s.store.pendingPush o = some push) :
    PushesOnly s (prepareDue (s, acc) (o, push)).1 ∧
    (prepareDue (s, acc) (o, push)).2 = acc ++ s.readyRequests [(o, push)] ∧
    ∀ q, (prepareDue (s, acc) (o, push)).1.store.pendingPush q =
      if q = o then s.dispatchedPush o (s.store.pendingPush o) else s.store.pendingPush q := by
  by_cases flying : o ∈ s.inFlight
  · simp only [prepareDue, flying, if_true, dispatchedPush, readyRequests, List.filterMap_cons,
      not_true_eq_false, false_and, if_false, List.filterMap_nil, List.append_nil, true_and]
    refine ⟨rfl, fun q => ?_⟩
    split <;> simp_all
  by_cases live : o ∈ s.plugins.outputs
  · have request : s.readyRequests [(o, push)] = [⟨o, s.buildUpdate o (s.desired o)⟩] := by
      simp only [readyRequests, List.filterMap_cons, flying, live, not_false_eq_true, and_self, if_true,
        List.filterMap_nil]
    by_cases same : s.desired o = push.targetValue
    · simp only [prepareDue, flying, live, same, request, if_false, not_true_eq_false, bne_self_eq_false,
        dispatchedPush, if_true, stored, Option.map_some, retarget, Bool.false_eq_true]
      refine ⟨rfl, trivial, fun q => ?_⟩
      by_cases at_o : q = o
      · simp only [at_o, if_true, stored]
      · simp only [at_o, if_false]
    · have differs : (s.desired o != push.targetValue) = true := by simpa using same
      simp only [prepareDue, flying, live, differs, request, if_false, not_true_eq_false,
        dispatchedPush, if_true, stored, Option.map_some, retarget]
      exact ⟨rfl, rfl, fun q => Store.pendingPush_write ..⟩
  · simp only [prepareDue, flying, live, if_false, not_false_eq_true, if_true, dispatchedPush, readyRequests,
      List.filterMap_cons, and_false, List.filterMap_nil, List.append_nil, true_and]
    exact ⟨rfl, fun q => Store.pendingPush_delete ..⟩

theorem prepareDue_foldl (rows : List (Name × PendingPush)) (nodup : (rows.map (·.1)).Nodup)
    (s : Engine) (acc : List PushRequest)
    (stored : ∀ row ∈ rows, s.store.pendingPush row.1 = some row.2) :
    PushesOnly s (rows.foldl prepareDue (s, acc)).1 ∧
    (rows.foldl prepareDue (s, acc)).2 = acc ++ s.readyRequests rows ∧
    ∀ q, (rows.foldl prepareDue (s, acc)).1.store.pendingPush q =
      if q ∈ rows.map (·.1) then s.dispatchedPush q (s.store.pendingPush q)
      else s.store.pendingPush q := by
  induction rows generalizing s acc with
  | nil => exact ⟨rfl, by simp [readyRequests], by simp⟩
  | cons row rows ih =>
    obtain ⟨o, push⟩ := row
    rw [List.map_cons, List.nodup_cons] at nodup
    obtain ⟨only, requests, pushes⟩ := prepareDue_spec s acc o push (stored _ List.mem_cons_self)
    have later : ∀ row ∈ rows,
        (prepareDue (s, acc) (o, push)).1.store.pendingPush row.1 = some row.2 := by
      intro row hr
      have other : row.1 ≠ o := by
        rintro rfl
        exact nodup.1 (List.mem_map.mpr ⟨row, hr, rfl⟩)
      rw [pushes, if_neg other]
      exact stored row (List.mem_cons_of_mem _ hr)
    obtain ⟨rest, restRequests, restPushes⟩ := ih nodup.2 _ (prepareDue (s, acc) (o, push)).2 later
    rw [List.foldl_cons]
    refine ⟨only.trans rest, ?_, fun q => ?_⟩
    · rw [restRequests, requests, only.readyRequests, List.append_assoc]
      simp only [readyRequests, ← List.filterMap_append, List.singleton_append]
    · have unmoved : (prepareDue (s, acc) (o, push)).1.dispatchedPush = s.dispatchedPush := by
        funext n row
        have aim : (prepareDue (s, acc) (o, push)).1.retarget n = s.retarget n := by
          funext push
          simp only [retarget, only.desired]
        simp only [dispatchedPush, only.inFlight, only.plugins, aim]
      have other : q ∈ rows.map (·.1) → q ≠ o := fun hq same => nodup.1 (same ▸ hq)
      rw [restPushes, pushes, unmoved]
      grind

/-- What dispatching the due rows of `s` leads to. -/
structure Dispatched (now : Time) (s t : Engine) : Prop where
  only : t = { s with
    store := { s.store with pendingPushes := t.store.pendingPushes }
    inFlight := t.inFlight
    dispatcher := t.dispatcher }
  queue : t.dispatcher = { s.dispatcher with
    queue := s.dispatcher.queue ++ s.readyRequests (s.store.pendingPushesDue now) }
  inFlight : ∀ o, o ∈ t.inFlight ↔ o ∈ s.inFlight ∨
    ∃ request ∈ s.readyRequests (s.store.pendingPushesDue now), request.instanceName = o
  pushes : ∀ o, t.store.pendingPush o =
    if o ∈ (s.store.pendingPushesDue now).map (·.1) then s.dispatchedPush o (s.store.pendingPush o)
    else s.store.pendingPush o

namespace Dispatched

variable {now : Time} {s t : Engine}

theorem graph (sent : Dispatched now s t) : t.graph = s.graph := by rw [sent.only]

theorem plugins (sent : Dispatched now s t) : t.plugins = s.plugins := by rw [sent.only]

theorem latch (sent : Dispatched now s t) (n : Name) : t.latch n = s.latch n := by
  rw [sent.only]
  rfl

theorem desired (sent : Dispatched now s t) (o : Name) : t.desired o = s.desired o := by
  rw [sent.only]
  rfl

theorem lastApplied (sent : Dispatched now s t) (o : Name) : t.lastApplied o = s.lastApplied o := by
  rw [sent.only]
  rfl

theorem buildUpdate (sent : Dispatched now s t) (o : Name) (value : Bool) :
    t.buildUpdate o value = s.buildUpdate o value := by
  rw [sent.only]
  rfl

theorem due (sent : Dispatched now s t) {o : Name} {push : PendingPush}
    (stored : s.store.pendingPush o = some push) (soon : push.nextAttemptAt ≤ now) :
    t.store.pendingPush o = s.dispatchedPush o (some push) := by
  have listed : o ∈ (s.store.pendingPushesDue now).map (·.1) :=
    List.mem_map.mpr ⟨(o, push), Store.mem_pendingPushesDue.mpr ⟨stored, soon⟩, rfl⟩
  rw [sent.pushes o, if_pos listed, stored]

theorem flies (sent : Dispatched now s t) {o : Name} {push : PendingPush}
    (live : o ∈ s.plugins.outputs) (stored : s.store.pendingPush o = some push)
    (soon : push.nextAttemptAt ≤ now) : o ∈ t.inFlight := by
  rw [sent.inFlight]
  by_cases flying : o ∈ s.inFlight
  · exact .inl flying
  · refine .inr ⟨⟨o, s.buildUpdate o (s.desired o)⟩, ?_, rfl⟩
    have listed : (o, push) ∈ s.store.pendingPushesDue now :=
      Store.mem_pendingPushesDue.mpr ⟨stored, soon⟩
    exact List.mem_filterMap.mpr ⟨(o, push), listed, if_pos ⟨flying, live⟩⟩

end Dispatched

theorem dispatch_foldl (requests : List PushRequest) (s : Engine) :
    requests.foldl dispatch s = { s with
      inFlight := (requests.foldl dispatch s).inFlight
      dispatcher := { s.dispatcher with queue := s.dispatcher.queue ++ requests } } ∧
    ∀ o, o ∈ (requests.foldl dispatch s).inFlight ↔
      o ∈ s.inFlight ∨ ∃ request ∈ requests, request.instanceName = o := by
  induction requests generalizing s with
  | nil => simp
  | cons request requests ih =>
    obtain ⟨only, members⟩ := ih (dispatch s request)
    rw [List.foldl_cons]
    constructor
    · rw [only]
      simp [dispatch, Dispatcher.dispatch]
    · intro o
      rw [members]
      simp only [dispatch, Finset.mem_insert, List.exists_mem_cons_iff]
      grind

theorem dispatchDuePushes_spec (now : Time) (s : Engine) :
    Dispatched now s (s.dispatchDuePushes now) := by
  have stored : ∀ row ∈ s.store.pendingPushesDue now,
      s.store.pendingPush row.1 = some row.2 := fun _ hr => (Store.mem_pendingPushesDue.mp hr).1
  obtain ⟨only, requests, pushes⟩ :=
    prepareDue_foldl _ (s.store.pendingPushesDue_nodup now) s [] stored
  simp only [dispatchDuePushes]
  generalize (s.store.pendingPushesDue now).foldl prepareDue (s, []) = prepared at *
  obtain ⟨m, made⟩ := prepared
  simp only [List.nil_append] at requests only
  subst requests
  obtain ⟨sent, members⟩ := dispatch_foldl (s.readyRequests (s.store.pendingPushesDue now)) m
  constructor
  · rw [sent, only.eq]
  · rw [sent, only.eq]
  · intro o
    rw [members, only.inFlight]
  · intro o
    rw [← pushes o, sent]

end Engine

end NotiMapper
