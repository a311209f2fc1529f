import NotiMapper.Engine

/-! What a handler can do to the latches. A loop over rules rewrites the record of
each of them and leaves all else alone (`Relatched`). Handlers then synchronise the
outputs of the rules they rewrote (`Latching`). -/
namespace NotiMapper

open Python Effect

namespace Engine

def LatchesOnly (s t : Engine) : Prop :=
  t = { s with
    latches := t.latches
    store := { s.store with latches := t.store.latches, eventLog := t.store.eventLog } }

namespace LatchesOnly

variable {s m t : Engine}

theorem eq (only : LatchesOnly s t) : t = { s with
    latches := t.latches
    store := { s.store with latches := t.store.latches, eventLog := t.store.eventLog } } := only

theorem trans (first : LatchesOnly s m) (second : LatchesOnly m t) : LatchesOnly s t := by
  unfold LatchesOnly at second ⊢
  rw [second, first]

theorem graph (only : LatchesOnly s t) : t.graph = s.graph := by
  rw [only.eq]

theorem lastApplied (only : LatchesOnly s t) (o : Name) : t.lastApplied o = s.lastApplied o := by
  rw [only.eq]
  rfl

theorem pendingPush (only : LatchesOnly s t) (o : Name) :
    t.store.pendingPush o = s.store.pendingPush o := by
  rw [only.eq]
  rfl

end LatchesOnly

/-- The cached latch is the stored row. -/
def Tracked (s : Engine) (n : Name) : Prop := s.latch n = (s.store.latch n).getD .fresh

def insertRecord (table : Table LatchRecord) (entry : Name × LatchRecord) : Table LatchRecord :=
  table.insert entry.1 entry.2

/-- The cache and the table of latches took the same records. -/
def SameWrites (s t : Engine) : Prop :=
  ∃ entries : List (Name × LatchRecord), t.latches = entries.foldl insertRecord s.latches ∧
    t.store.latches = entries.foldl insertRecord s.store.latches

instance : IsPreorder Engine SameWrites where
  refl _ := ⟨[], rfl, rfl⟩
  trans s m t := by
    rintro ⟨before, cached, stored⟩ ⟨after, cached', stored'⟩
    refine ⟨before ++ after, ?_, ?_⟩
    · rw [List.foldl_append, ← cached, cached']
    · rw [List.foldl_append, ← stored, stored']

namespace SameWrites

variable {s t : Engine}

theorem mirrored (same : SameWrites s t) (mirrored : s.latches = s.store.latches) :
    t.latches = t.store.latches := by
  obtain ⟨entries, cached, stored⟩ := same
  rw [cached, stored, mirrored]

theorem present (same : SameWrites s t) {n : Name} (member : n ∈ s.store.latches) :
    n ∈ t.store.latches := by
  obtain ⟨entries, _, stored⟩ := same
  rw [stored]
  exact foldl_stays (P := (n ∈ ·)) (fun _ _ member => (AList.mem_insert _).mpr (.inr member))
    entries member

theorem tracked (same : SameWrites s t) {n : Name} (tracked : Tracked s n) : Tracked t n := by
  obtain ⟨entries, cached, stored⟩ := same
  simp only [Tracked, latch, Store.latch] at tracked ⊢
  rw [cached, stored]
  generalize s.latches = cache at tracked
  generalize s.store.latches = table at tracked
  clear cached stored
  induction entries generalizing cache table with
  | nil => exact tracked
  | cons entry entries ih =>
    refine ih _ _ ?_
    by_cases here : n = entry.1
    · subst here
      simp only [insertRecord, AList.lookup_insert]
    · simpa only [insertRecord, AList.lookup_insert_ne here] using tracked

end SameWrites

/-- Each of the rules had its record rewritten by `change`, and no other latch moved. -/
structure Relatched (rules : List Rule) (change : Rule → LatchRecord → LatchRecord)
    (s t : Engine) : Prop where
  only : LatchesOnly s t
  written : ∀ r ∈ rules, t.latch r.name = change r (s.latch r.name)
  kept : ∀ n, n ∉ rules.map (·.name) → t.latch n = s.latch n
  writes : SameWrites s t

theorem relatched_nil {change : Rule → LatchRecord → LatchRecord} {s t : Engine}
    (only : LatchesOnly s t) (same : t.latches = s.latches)
    (stored : t.store.latches = s.store.latches) : Relatched [] change s t where
  only := only
  written := by simp
  kept := fun n _ => by simp only [latch, same]
  writes := ⟨[], same, stored⟩

theorem Relatched.forM {body : Rule → Core Unit} {change : Rule → LatchRecord → LatchRecord}
    (rules : List Rule) (each : ∀ r ∈ rules, ∀ s t, body r s = .ok ⟨⟩ t → Relatched [r] change s t)
    (nodup : (rules.map (·.name)).Nodup) {s t : Engine}
    (ran : rules.forM body s = .ok ⟨⟩ t) : Relatched rules change s t := by
  induction rules generalizing s with
  | nil =>
    cases forM_nil_ok.mp ran
    exact relatched_nil rfl rfl rfl
  | cons r rules ih =>
    obtain ⟨m, hm, hrest⟩ := forM_cons_ok.mp ran
    have first := each r List.mem_cons_self s m hm
    rw [List.map_cons, List.nodup_cons] at nodup
    have rest := ih (fun q hq => each q (List.mem_cons_of_mem r hq)) nodup.2 hrest
    constructor
    · exact first.only.trans rest.only
    · intro q hq
      rcases List.mem_cons.mp hq with rfl | hq
      · rw [rest.kept q.name nodup.1]
        exact first.written q (by simp)
      · have other : q.name ∉ [r].map (·.name) := by
          intro same
          have same : q.name = r.name := by simpa using same
          exact nodup.1 (same ▸ List.mem_map_of_mem hq)
        rw [rest.written q hq, first.kept q.name other]
    · intro n hn
      rw [List.map_cons, List.mem_cons, not_or] at hn
      rw [rest.kept n hn.2]
      exact first.kept n (by simpa using hn.1)
    · exact trans_of SameWrites first.writes rest.writes

theorem latch_insert (s : Engine) (n : Name) (record : LatchRecord) (q : Name) :
    ({ s with latches := s.latches.insert n record } : Engine).latch q =
      if q = n then record else s.latch q := by
  simp only [latch]
  by_cases same : q = n
  · subst same
    simp
  · simp [same, AList.lookup_insert_ne same]

theorem writeLatch_relatched {r : Rule} {change : Rule → LatchRecord → LatchRecord}
    {s t : Engine} {record : LatchRecord} {log : EventLog}
    (changed : record = change r (s.latch r.name))
    (written : t = { s with
      latches := s.latches.insert r.name record
      store := { s.store with
        latches := s.store.latches.insert r.name record
        eventLog := log } }) : Relatched [r] change s t := by
  have cache : ∀ q, t.latch q = if q = r.name then record else s.latch q := by
    intro q
    rw [← latch_insert s r.name record q, written]
    rfl
  constructor
  · rw [written]
    rfl
  · intro q hq
    rw [List.mem_singleton] at hq
    rw [hq, cache, if_pos rfl, changed]
  · intro n hn
    rw [cache, if_neg (by simpa using hn)]
  · refine ⟨[(r.name, record)], ?_, ?_⟩ <;>
    · rw [written]
      rfl

/-- The records were rewritten, then every output these rules can affect was synchronised. -/
def Latching (now : Time) (rules : List Rule) (change : Rule → LatchRecord → LatchRecord)
    (s t : Engine) : Prop :=
  ∃ m synced, Relatched rules change s m ∧ t = m.syncOutputs now synced ∧
    ∀ r ∈ rules, ∀ o ∈ r.outputs, o ∈ synced

/- The handlers, one by one. -/

theorem writeLatch_ok {n : Name} {record : LatchRecord} {s t : Engine} {u : Unit} :
    writeLatch n record s = .ok u t ↔
      n ∈ s.store.rules ∧ t = { s with
        latches := s.latches.insert n record
        store := { s.store with latches := s.store.latches.insert n record } } := by
  simp only [writeLatch, get_bind_ok, raising_bind_ok, modify_ok, Store.writeLatch_ok]
  constructor
  · rintro ⟨store, ⟨known, rfl⟩, rfl⟩
    exact ⟨known, rfl⟩
  · rintro ⟨known, rfl⟩
    exact ⟨_, ⟨known, rfl⟩, rfl⟩

theorem applyTrigger_relatched {w : World} {message : InputEventMessage} {r : Rule} {s t : Engine}
    (ran : applyTrigger w message r.name s = .ok ⟨⟩ t) :
    Relatched [r] (fun _ record => triggered record message.event.occurredAt
      message.instanceName message.event.summary) s t := by
  simp only [applyTrigger, get_bind_ok] at ran
  split at ran
  · rename_i set
    simp only [bind_ok, modify_ok, writeLatch_ok] at ran
    obtain ⟨_, m, ⟨_, rfl⟩, rfl⟩ := ran
    exact writeLatch_relatched (by simp only [triggered, set]) rfl
  · simp only [bind_ok, modify_ok, writeLatch_ok] at ran
    obtain ⟨_, m, ⟨_, rfl⟩, rfl⟩ := ran
    exact writeLatch_relatched rfl rfl

theorem clearLatch_relatched {w : World} {message : UnlatchRequestMessage} {r : Rule}
    {s t : Engine} (ran : clearLatch w message r.name s = .ok ⟨⟩ t) :
    Relatched [r] (fun _ record => unlatched record w.now message.instanceName) s t := by
  simp only [clearLatch, get_bind_ok] at ran
  simp only [bind_ok, modify_ok, writeLatch_ok] at ran
  obtain ⟨_, m, ⟨_, rfl⟩, rfl⟩ := ran
  exact writeLatch_relatched rfl rfl

theorem applyReconcileOutcome_relatched {w : World} {r : Rule} {s t : Engine}
    {change : Rule → LatchRecord → LatchRecord} {outcome : ReconcileOutcome} {extra : Nat}
    (changed : change r (s.latch r.name) = outcome.applyTo (s.latch r.name) extra)
    (ran : applyReconcileOutcome w r.name outcome extra s = .ok ⟨⟩ t) :
    Relatched [r] change s t := by
  simp only [applyReconcileOutcome, get_bind_ok] at ran
  split at ran
  · simp only [bind_ok, modify_ok, writeLatch_ok] at ran
    obtain ⟨_, m, ⟨_, rfl⟩, rfl⟩ := ran
    exact writeLatch_relatched changed.symm rfl
  · rename_i same
    rw [not_not] at same
    simp only [modify_ok] at ran
    subst ran
    constructor
    · rfl
    · intro q hq
      rw [List.mem_singleton] at hq
      rw [hq, changed, same]
      rfl
    · exact fun n _ => rfl
    · exact ⟨[], rfl, rfl⟩

theorem mem_affected {g : RuleGraph} {rules : List Rule} {r : Rule} {o : Name}
    (known : r ∈ g.entries) (listed : r ∈ rules) (output : o ∈ r.outputs) :
    o ∈ g.outputsAffectedBy (rules.map (·.name)) :=
  RuleGraph.mem_outputsAffectedBy.mpr ⟨r, known, List.mem_map_of_mem listed, output⟩

theorem handleInputEvent_latching {w : World} {message : InputEventMessage} {s t : Engine}
    (ran : handleInputEvent w message s = .ok ⟨⟩ t) :
    Latching w.now (s.graph.rulesForInput message.instanceName)
      (fun _ record => triggered record message.event.occurredAt message.instanceName
        message.event.summary) s t := by
  simp only [handleInputEvent, transaction, get_bind_ok, restoring_ok, modify_bind_ok] at ran
  have noted : LatchesOnly s (appendEvent w.now .inputEvent (some message.instanceName) none
      message.event.summary s) := rfl
  split at ran
  · rename_i unheard
    rw [← (pure_ok.mp ran).2, List.isEmpty_iff.mp unheard]
    exact ⟨_, [], relatched_nil noted rfl rfl, rfl, by simp⟩
  · obtain ⟨_, m, looped, synced⟩ := bind_ok.mp ran
    have loop := Relatched.forM _ (fun _ _ _ _ => applyTrigger_relatched)
      (s.graph.rulesForInput_nodup _) looped
    refine ⟨m, _, ⟨noted.trans loop.only, loop.written, loop.kept, loop.writes⟩,
      modify_ok.mp synced, ?_⟩
    intro r hr o ho
    rw [loop.only.graph]
    exact mem_affected (RuleGraph.mem_rulesForInput.mp hr).1 hr ho

theorem handleUnlatch_latching {w : World} {message : UnlatchRequestMessage} {s t : Engine}
    (ran : handleUnlatch w message s = .ok ⟨⟩ t) :
    Latching w.now
      ((s.graph.rulesForOutput message.instanceName).filter fun rule => (s.latch rule.name).state)
      (fun _ record => unlatched record w.now message.instanceName) s t := by
  simp only [handleUnlatch, transaction, get_bind_ok, restoring_ok] at ran
  split at ran
  · rename_i none_set
    rw [List.isEmpty_iff.mp none_set]
    have noted : LatchesOnly s t := by
      rw [modify_ok.mp ran]
      rfl
    refine ⟨t, [], relatched_nil noted ?_ ?_, rfl, by simp⟩
    · rw [modify_ok.mp ran]
      rfl
    · rw [modify_ok.mp ran]
      rfl
  · obtain ⟨_, m, looped, synced⟩ := bind_ok.mp ran
    have loop := Relatched.forM _ (fun _ _ _ _ => clearLatch_relatched)
      ((s.graph.rulesForOutput_nodup message.instanceName).sublist
        (List.filter_sublist.map _)) looped
    refine ⟨m, _, loop, modify_ok.mp synced, ?_⟩
    intro r hr o ho
    have member := List.mem_of_mem_filter hr
    rw [loop.only.graph]
    exact mem_affected (RuleGraph.mem_rulesForOutput.mp member).1 member ho

def answered (now : Time) (state : RemoteState) (record : LatchRecord) : LatchRecord :=
  (resolveRule now record none [state]).applyTo record 0

theorem handleReconcileRetry_latching {w : World} {message : ReconcileOutputMessage}
    {s t : Engine} (live : message.instanceName ∈ s.plugins.outputs)
    (known : (queryOutput w message.instanceName).belief ≠ .unknown)
    (ran : handleReconcileRetry w message s = .ok ⟨⟩ t) :
    Latching w.now (s.graph.rulesForOutput message.instanceName)
      (fun _ record => answered w.now (queryOutput w message.instanceName) record) s t := by
  simp only [handleReconcileRetry, transaction, get_bind_ok, restoring_ok, live, known,
    not_true_eq_false, if_false] at ran
  obtain ⟨_, m, looped, synced⟩ := bind_ok.mp ran
  have each : ∀ r s t, (do
      let persisted := (← (get : Core Engine)).latch r.name
      applyReconcileOutcome w r.name
        (resolveRule w.now persisted none [queryOutput w message.instanceName]) 0) s = .ok ⟨⟩ t →
      Relatched [r] (fun _ record => answered w.now (queryOutput w message.instanceName) record)
        s t := by
    intro r s t ran
    exact applyReconcileOutcome_relatched rfl (get_bind_ok.mp ran)
  have loop := Relatched.forM _ (fun r _ => each r) (s.graph.rulesForOutput_nodup _) looped
  refine ⟨m, _, loop, modify_ok.mp synced, ?_⟩
  intro r hr o ho
  rw [loop.only.graph]
  exact mem_affected (RuleGraph.mem_rulesForOutput.mp hr).1 hr ho

end Engine

end NotiMapper
