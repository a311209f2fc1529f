import NotiMapper.Storage
import NotiMapper.Library.Effect
import NotiMapper.Library.Transition

/-! The mirror of the configuration over its whole life: rules are synchronised, renamed,
orphaned, adopted again and purged, in any order. Each rule row has one latch row, each
edge belongs to a rule, and no latch is lost before its rule is purged. -/
namespace NotiMapper

open Effect Transition

def RuleRow.orphan (row : RuleRow) : RuleRow := { row with orphaned := true }

namespace Store

def ruleRow (s : Store) (n : Name) : Option RuleRow := s.rules.lookup n

/-- The `orphaned` column of a rule, if there is such a rule. -/
def orphanFlag (s : Store) (n : Name) : Option Bool := (s.ruleRow n).map (·.orphaned)

/- Each operation, rule by rule. -/

theorem syncRule_row (s : Store) (rule : RuleRecord) (n : Name) :
    (s.syncRule rule).ruleRow n =
      if n = rule.name then some ⟨rule.enabled, false⟩ else s.ruleRow n := by
  simp only [ruleRow, syncRule]
  split
  · rename_i same
    rw [same, AList.lookup_insert]
  · rename_i other
    rw [AList.lookup_insert_ne other]

theorem syncRule_latch_row (s : Store) (rule : RuleRecord) (n : Name) :
    (s.syncRule rule).latch n =
      if n = rule.name then some ((s.latch n).getD .fresh) else s.latch n := by
  simp only [latch, syncRule]
  by_cases present : rule.name ∈ s.latches
  · rw [if_pos present]
    split
    · rename_i same
      obtain ⟨record, known⟩ := Option.isSome_iff_exists.mp (AList.lookup_isSome.mpr present)
      rw [same, known, Option.getD_some]
    · rfl
  · rw [if_neg present]
    split
    · rename_i same
      rw [same, AList.lookup_insert, AList.lookup_eq_none.mpr present, Option.getD_none]
    · rename_i other
      rw [AList.lookup_insert_ne other]

theorem mem_replaceEdges {edges : List (Name × Name)} {name n i : Name} {members : List Name} :
    (n, i) ∈ edges.filter (·.1 ≠ name) ++ members.map (name, ·) ↔
      if n = name then i ∈ members else (n, i) ∈ edges := by
  simp only [List.mem_append, List.mem_filter, List.mem_map, Prod.mk.injEq, decide_eq_true_eq]
  split
  · rename_i same
    subst same
    simp
  · rename_i other
    simp [other, Ne.symm other]

theorem orphanRule_row (s : Store) (name n : Name) :
    (s.orphanRule name).ruleRow n =
      if n = name then (s.ruleRow n).map RuleRow.orphan else s.ruleRow n := by
  simp only [ruleRow, orphanRule]
  split
  · rename_i unknown
    split
    · rename_i same
      rw [same, unknown, Option.map_none]
    · rfl
  · rename_i row known
    split
    · rename_i same
      rw [same, AList.lookup_insert, known, Option.map_some]
      rfl
    · rename_i other
      rw [AList.lookup_insert_ne other]

theorem orphanRule_only (s : Store) (name : Name) :
    s.orphanRule name = { s with rules := (s.orphanRule name).rules } := by
  simp only [orphanRule]
  split <;> rfl

theorem orphanRules_only (names : List Name) (s : Store) :
    names.foldl orphanRule s = { s with rules := (names.foldl orphanRule s).rules } := by
  induction names generalizing s with
  | nil => rfl
  | cons name names ih =>
    rw [List.foldl_cons, ih, orphanRule_only]

theorem orphanRules_row (names : List Name) (s : Store) (n : Name) :
    (names.foldl orphanRule s).ruleRow n =
      if n ∈ names then (s.ruleRow n).map RuleRow.orphan else s.ruleRow n := by
  induction names generalizing s with
  | nil => simp
  | cons name names ih =>
    rw [List.foldl_cons, ih, orphanRule_row]
    by_cases same : n = name
    · have twice : RuleRow.orphan ∘ RuleRow.orphan = RuleRow.orphan := rfl
      subst same
      simp [twice]
    · simp [same]

/-- What the loop over the configured rules does, before others are orphaned. -/
structure Adopted (rules : List RuleRecord) (s t : Store) : Prop where
  given : ∀ rule ∈ rules, t.ruleRow rule.name = some ⟨rule.enabled, false⟩ ∧
    t.latch rule.name = some ((s.latch rule.name).getD .fresh) ∧
    ∀ i, ((rule.name, i) ∈ t.ruleInputs ↔ i ∈ rule.inputs) ∧
      ((rule.name, i) ∈ t.ruleOutputs ↔ i ∈ rule.outputs)
  others : ∀ n ∉ rules.map (·.name), t.ruleRow n = s.ruleRow n ∧ t.latch n = s.latch n ∧
    ∀ i, ((n, i) ∈ t.ruleInputs ↔ (n, i) ∈ s.ruleInputs) ∧
      ((n, i) ∈ t.ruleOutputs ↔ (n, i) ∈ s.ruleOutputs)

theorem syncRule_adopted (s : Store) (rule : RuleRecord) : Adopted [rule] s (s.syncRule rule) := by
  constructor
  · intro given member
    rw [List.mem_singleton.mp member, syncRule_row, syncRule_latch_row, if_pos rfl, if_pos rfl]
    refine ⟨rfl, rfl, fun i => ⟨?_, ?_⟩⟩
    · exact mem_replaceEdges.trans (by rw [if_pos rfl])
    · exact mem_replaceEdges.trans (by rw [if_pos rfl])
  · intro n absent
    have other : n ≠ rule.name := fun same => absent (by simp [same])
    rw [syncRule_row, syncRule_latch_row, if_neg other, if_neg other]
    refine ⟨rfl, rfl, fun i => ⟨?_, ?_⟩⟩
    · exact mem_replaceEdges.trans (by rw [if_neg other])
    · exact mem_replaceEdges.trans (by rw [if_neg other])

theorem Adopted.cons {rule : RuleRecord} {rules : List RuleRecord} {s m t : Store}
    (fresh : rule.name ∉ rules.map (·.name)) (first : Adopted [rule] s m)
    (rest : Adopted rules m t) : Adopted (rule :: rules) s t := by
  have apart : ∀ n, n ≠ rule.name → n ∉ [rule].map (·.name) := fun n other => by simpa using other
  constructor
  · intro given member
    rcases List.mem_cons.mp member with rfl | member
    · have here := first.given given (List.mem_singleton.mpr rfl)
      have kept := rest.others given.name fresh
      refine ⟨kept.1.trans here.1, kept.2.1.trans here.2.1, fun i => ?_⟩
      exact ⟨(kept.2.2 i).1.trans (here.2.2 i).1, (kept.2.2 i).2.trans (here.2.2 i).2⟩
    · have other : given.name ≠ rule.name :=
        fun same => fresh (same ▸ List.mem_map.mpr ⟨given, member, rfl⟩)
      obtain ⟨row, latched, edges⟩ := rest.given given member
      rw [(first.others given.name (apart _ other)).2.1] at latched
      exact ⟨row, latched, edges⟩
  · intro n absent
    rw [List.map_cons, List.mem_cons, not_or] at absent
    have before := first.others n (apart n absent.1)
    have after := rest.others n absent.2
    refine ⟨after.1.trans before.1, after.2.1.trans before.2.1, fun i => ?_⟩
    exact ⟨(after.2.2 i).1.trans (before.2.2 i).1, (after.2.2 i).2.trans (before.2.2 i).2⟩

theorem syncRule_foldl (rules : List RuleRecord) (nodup : (rules.map (·.name)).Nodup) (s : Store) :
    Adopted rules s (rules.foldl syncRule s) := by
  induction rules generalizing s with
  | nil => exact ⟨fun _ member => (nomatch member), fun _ _ => ⟨rfl, rfl, fun _ => ⟨.rfl, .rfl⟩⟩⟩
  | cons rule rules ih =>
    rw [List.map_cons, List.nodup_cons] at nodup
    exact .cons nodup.1 (syncRule_adopted s rule) (ih nodup.2 (s.syncRule rule))

/-- The loop collects the names that were orphaned before it. -/
theorem readopted_foldl (rules : List RuleRecord) (nodup : (rules.map (·.name)).Nodup)
    (acc : List Name) (s : Store) :
    rules.foldl (fun (acc : List Name × Store) rule =>
      let wasOrphaned := (acc.2.rules.lookup rule.name).any (·.orphaned)
      (if wasOrphaned then acc.1 ++ [rule.name] else acc.1, acc.2.syncRule rule)) (acc, s) =
    (acc ++ (rules.map (·.name)).filter (s.orphanFlag · = some true), rules.foldl syncRule s) := by
  induction rules generalizing acc s with
  | nil => simp
  | cons rule rules ih =>
    rw [List.map_cons, List.nodup_cons] at nodup
    have same : (rules.map (·.name)).filter ((s.syncRule rule).orphanFlag · = some true) =
        (rules.map (·.name)).filter (s.orphanFlag · = some true) := by
      apply List.filter_congr
      intro n member
      have other : n ≠ rule.name := fun same => nodup.1 (same ▸ member)
      rw [orphanFlag, orphanFlag, syncRule_row, if_neg other]
    have was : (s.rules.lookup rule.name).any (·.orphaned) = decide (s.orphanFlag rule.name = some true) := by
      cases known : s.rules.lookup rule.name <;> simp [orphanFlag, ruleRow, known]
    rw [List.foldl_cons, ih nodup.2, same, was]
    by_cases orphaned : s.orphanFlag rule.name = some true <;> simp [orphaned]

/-- What `sync_rules` promises: the given rules stand, with the given edges, existing
latches stay, and it returns the rules whose flag it turned on and those whose it turned off. -/
structure Mirrored (rules : List RuleRecord) (s : Store)
    (outcome : (List Name × List Name) × Store) : Prop where
  latches : ∀ n record, s.latch n = some record → outcome.2.latch n = some record
  standing : ∀ n, outcome.2.orphanFlag n = some false ↔ n ∈ rules.map (·.name)
  given : ∀ rule ∈ rules, outcome.2.ruleRow rule.name = some ⟨rule.enabled, false⟩ ∧
    outcome.2.latch rule.name = some ((s.latch rule.name).getD .fresh) ∧
    ∀ i, ((rule.name, i) ∈ outcome.2.ruleInputs ↔ i ∈ rule.inputs) ∧
      ((rule.name, i) ∈ outcome.2.ruleOutputs ↔ i ∈ rule.outputs)
  others : ∀ n ∉ rules.map (·.name),
    outcome.2.orphanFlag n = ((s.orphanFlag n).map fun _ => true) ∧
    outcome.2.latch n = s.latch n ∧
    ∀ i, ((n, i) ∈ outcome.2.ruleInputs ↔ (n, i) ∈ s.ruleInputs) ∧
      ((n, i) ∈ outcome.2.ruleOutputs ↔ (n, i) ∈ s.ruleOutputs)
  newlyOrphaned : ∀ n, n ∈ outcome.1.1 ↔
    s.orphanFlag n = some false ∧ outcome.2.orphanFlag n = some true
  readopted : ∀ n, n ∈ outcome.1.2 ↔
    s.orphanFlag n = some true ∧ outcome.2.orphanFlag n = some false

theorem mem_newlyOrphaned {s : Store} {present : List Name} {n : Name} :
    n ∈ (s.rules.entries.filter fun row => !row.2.orphaned && !present.contains row.1).map (·.1) ↔
      s.orphanFlag n = some false ∧ n ∉ present := by
  simp only [List.mem_map, List.mem_filter, Bool.and_eq_true, Bool.not_eq_true',
    List.contains_eq_mem, decide_eq_false_iff_not, orphanFlag, ruleRow, Option.map_eq_some_iff]
  constructor
  · rintro ⟨entry, ⟨member, standing, absent⟩, rfl⟩
    exact ⟨⟨entry.2, AList.mem_lookup_iff.mpr member, standing⟩, absent⟩
  · rintro ⟨⟨row, known, standing⟩, absent⟩
    exact ⟨⟨n, row⟩, ⟨AList.mem_lookup_iff.mp known, standing, absent⟩, rfl⟩

/-- The flags after the loop, and after the others have been orphaned. -/
theorem Adopted.flag {rules : List RuleRecord} {s m : Store} (adopted : Adopted rules s m)
    (n : Name) : m.orphanFlag n =
      if n ∈ rules.map (·.name) then some false else s.orphanFlag n := by
  split
  · rename_i listed
    obtain ⟨rule, member, rfl⟩ := List.mem_map.mp listed
    rw [orphanFlag, (adopted.given rule member).1, Option.map_some]
  · rename_i absent
    rw [orphanFlag, orphanFlag, (adopted.others n absent).1]

theorem orphaned_flag {rules : List RuleRecord} {s m : Store} (adopted : Adopted rules s m)
    {newlyOrphaned : List Name}
    (exactly : ∀ n, n ∈ newlyOrphaned ↔ m.orphanFlag n = some false ∧ n ∉ rules.map (·.name))
    (n : Name) : (newlyOrphaned.foldl orphanRule m).orphanFlag n =
      if n ∈ rules.map (·.name) then some false else (s.orphanFlag n).map fun _ => true := by
  have before := adopted.flag n
  by_cases listed : n ∈ rules.map (·.name)
  · have kept : n ∉ newlyOrphaned := fun h => ((exactly n).mp h).2 listed
    rw [if_pos listed] at before ⊢
    rw [orphanFlag, orphanRules_row, if_neg kept]
    exact before
  · rw [if_neg listed] at before ⊢
    rw [orphanFlag, orphanRules_row, ← before]
    by_cases newly : n ∈ newlyOrphaned
    · rw [if_pos newly, orphanFlag, Option.map_map, Option.map_map]
      rfl
    · rw [if_neg newly, orphanFlag]
      cases known : m.ruleRow n with
      | none => rfl
      | some row =>
        have orphaned : row.orphaned = true := by
          by_contra standing
          refine newly ((exactly n).mpr ⟨?_, listed⟩)
          simpa [orphanFlag, known] using standing
        simp [orphaned]

theorem syncRules_mirrored (s : Store) (rules : List RuleRecord)
    (nodup : (rules.map (·.name)).Nodup) : Mirrored rules s (s.syncRules rules) := by
  have adopted := syncRule_foldl rules nodup s
  simp only [syncRules, readopted_foldl rules nodup, List.nil_append]
  generalize rules.foldl syncRule s = m at adopted ⊢
  have exactly := fun n => @mem_newlyOrphaned m (rules.map (·.name)) n
  generalize (m.rules.entries.filter fun row =>
    !row.2.orphaned && !(rules.map (·.name)).contains row.1).map (·.1) = newly at exactly ⊢
  have only := orphanRules_only newly m
  have flag := orphaned_flag adopted exactly
  have row_kept := orphanRules_row newly m
  generalize newly.foldl orphanRule m = t at only flag row_kept ⊢
  have latch : ∀ n, t.latch n = m.latch n := by
    intro n
    rw [only]
    rfl
  have edges : t.ruleInputs = m.ruleInputs ∧ t.ruleOutputs = m.ruleOutputs := by
    rw [only]
    exact ⟨rfl, rfl⟩
  constructor
  case latches =>
    intro n record known
    rw [latch]
    by_cases listed : n ∈ rules.map (·.name)
    · obtain ⟨rule, member, rfl⟩ := List.mem_map.mp listed
      rw [(adopted.given rule member).2.1, known, Option.getD_some]
    · rw [(adopted.others n listed).2.1, known]
  case standing =>
    intro n
    rw [flag]
    split <;> simp [*]
  case given =>
    intro rule member
    have listed : rule.name ∈ rules.map (·.name) := List.mem_map.mpr ⟨rule, member, rfl⟩
    have kept : rule.name ∉ newly := fun h => ((exactly rule.name).mp h).2 listed
    have row := row_kept rule.name
    rw [if_neg kept, (adopted.given rule member).1] at row
    rw [latch, edges.1, edges.2]
    exact ⟨row, (adopted.given rule member).2⟩
  case others =>
    intro n absent
    rw [latch, edges.1, edges.2, flag, if_neg absent]
    exact ⟨rfl, (adopted.others n absent).2⟩
  case newlyOrphaned =>
    intro n
    rw [exactly, flag, adopted.flag]
    by_cases listed : n ∈ rules.map (·.name)
    · simp [listed]
    · simp only [listed, if_false, not_false_eq_true, and_true]
      cases s.orphanFlag n <;> simp
  case readopted =>
    intro n
    rw [flag, List.mem_filter]
    by_cases listed : n ∈ rules.map (·.name) <;> simp [listed]

/-- What `purge_orphans` promises. -/
structure Purged (s : Store) (outcome : (List Name × List Name) × Store) : Prop where
  gone : ∀ n, s.orphanFlag n = some true → outcome.2.ruleRow n = none ∧
    outcome.2.latch n = none ∧ ∀ i, (n, i) ∉ outcome.2.ruleInputs ∧ (n, i) ∉ outcome.2.ruleOutputs
  kept : ∀ n, s.orphanFlag n ≠ some true → outcome.2.ruleRow n = s.ruleRow n ∧
    outcome.2.latch n = s.latch n ∧
    ∀ i, ((n, i) ∈ outcome.2.ruleInputs ↔ (n, i) ∈ s.ruleInputs) ∧
      ((n, i) ∈ outcome.2.ruleOutputs ↔ (n, i) ∈ s.ruleOutputs)
  returned : ∀ n, n ∈ outcome.1.1 ↔ s.orphanFlag n = some true

theorem lookup_erase_eq {row : Type} (table : Table row) (name n : Name) :
    (table.erase name).lookup n = if n = name then none else table.lookup n := by
  split
  · rename_i same
    rw [same, AList.lookup_erase]
  · rename_i other
    rw [AList.lookup_erase_ne other]

theorem purgeRules_rows (names : List Name) (s : Store) (n : Name) :
    (names.foldl purgeRule s).ruleRow n = (if n ∈ names then none else s.ruleRow n) ∧
    (names.foldl purgeRule s).latch n = (if n ∈ names then none else s.latch n) := by
  induction names generalizing s with
  | nil => simp
  | cons name names ih =>
    rw [List.foldl_cons, (ih _).1, (ih _).2]
    simp only [ruleRow, latch, purgeRule, lookup_erase_eq, List.mem_cons]
    by_cases same : n = name <;> simp [same]

theorem purgeRules_edges (names : List Name) (s : Store) (n i : Name) :
    ((n, i) ∈ (names.foldl purgeRule s).ruleInputs ↔ n ∉ names ∧ (n, i) ∈ s.ruleInputs) ∧
    ((n, i) ∈ (names.foldl purgeRule s).ruleOutputs ↔ n ∉ names ∧ (n, i) ∈ s.ruleOutputs) := by
  induction names generalizing s with
  | nil => simp
  | cons name names ih =>
    rw [List.foldl_cons, (ih _).1, (ih _).2]
    simp only [purgeRule, List.mem_filter, decide_eq_true_eq, List.mem_cons, not_or]
    constructor <;> tauto

/-- Purging an instance leaves the rules alone. -/
theorem purgeInstances_rules (names : List Name) (s : Store) :
    (names.foldl purgeInstance s).rules = s.rules ∧
    (names.foldl purgeInstance s).latches = s.latches ∧
    (names.foldl purgeInstance s).ruleInputs = s.ruleInputs ∧
    (names.foldl purgeInstance s).ruleOutputs = s.ruleOutputs :=
  ⟨foldl_keeps (f := purgeInstance) (·.rules) (fun _ _ => rfl) names s,
    foldl_keeps (f := purgeInstance) (·.latches) (fun _ _ => rfl) names s,
    foldl_keeps (f := purgeInstance) (·.ruleInputs) (fun _ _ => rfl) names s,
    foldl_keeps (f := purgeInstance) (·.ruleOutputs) (fun _ _ => rfl) names s⟩

theorem mem_purgedRules {s : Store} {n : Name} :
    n ∈ s.purgeOrphans.1.1 ↔ s.orphanFlag n = some true := by
  simp only [purgeOrphans, List.mem_insertionSort, List.mem_map, List.mem_filter, orphanFlag,
    ruleRow, Option.map_eq_some_iff]
  constructor
  · rintro ⟨entry, ⟨member, orphaned⟩, rfl⟩
    exact ⟨entry.2, AList.mem_lookup_iff.mpr member, orphaned⟩
  · rintro ⟨row, known, orphaned⟩
    exact ⟨⟨n, row⟩, ⟨AList.mem_lookup_iff.mp known, orphaned⟩, rfl⟩

theorem purgeOrphans_purged (s : Store) : Purged s s.purgeOrphans := by
  have member := @mem_purgedRules s
  obtain ⟨rules, latches, inputs, outputs⟩ :=
    purgeInstances_rules s.purgeOrphans.1.2 (s.purgeOrphans.1.1.foldl purgeRule s)
  have row : ∀ n, s.purgeOrphans.2.ruleRow n =
      (s.purgeOrphans.1.1.foldl purgeRule s).ruleRow n := fun n => congrArg (·.lookup n) rules
  have latch : ∀ n, s.purgeOrphans.2.latch n =
      (s.purgeOrphans.1.1.foldl purgeRule s).latch n := fun n => congrArg (·.lookup n) latches
  have edges : s.purgeOrphans.2.ruleInputs = (s.purgeOrphans.1.1.foldl purgeRule s).ruleInputs ∧
      s.purgeOrphans.2.ruleOutputs = (s.purgeOrphans.1.1.foldl purgeRule s).ruleOutputs :=
    ⟨inputs, outputs⟩
  refine ⟨fun n orphaned => ?_, fun n standing => ?_, fun n => member⟩
  · rw [row, latch, edges.1, edges.2, (purgeRules_rows _ s n).1, (purgeRules_rows _ s n).2,
      if_pos (member.mpr orphaned), if_pos (member.mpr orphaned)]
    refine ⟨rfl, rfl, fun i => ?_⟩
    rw [(purgeRules_edges _ s n i).1, (purgeRules_edges _ s n i).2]
    exact ⟨fun h => h.1 (member.mpr orphaned), fun h => h.1 (member.mpr orphaned)⟩
  · have absent : n ∉ s.purgeOrphans.1.1 := mt member.mp standing
    rw [row, latch, edges.1, edges.2, (purgeRules_rows _ s n).1, (purgeRules_rows _ s n).2,
      if_neg absent, if_neg absent]
    refine ⟨rfl, rfl, fun i => ?_⟩
    rw [(purgeRules_edges _ s n i).1, (purgeRules_edges _ s n i).2]
    exact ⟨and_iff_right absent, and_iff_right absent⟩

/-- Each rule row has one latch row and each latch row a rule, as the keys are unique; and
no edge is left of a rule that is gone. -/
structure Consistent (s : Store) : Prop where
  latched : ∀ n, n ∈ s.rules ↔ n ∈ s.latches
  inputs : ∀ edge ∈ s.ruleInputs, edge.1 ∈ s.rules
  outputs : ∀ edge ∈ s.ruleOutputs, edge.1 ∈ s.rules

theorem mem_rules_iff {s : Store} {n : Name} : n ∈ s.rules ↔ ∃ flag, s.orphanFlag n = some flag := by
  rw [← AList.lookup_isSome]
  simp only [orphanFlag, ruleRow, Option.isSome_iff_exists, Option.map_eq_some_iff]
  constructor
  · rintro ⟨row, known⟩
    exact ⟨row.orphaned, row, known, rfl⟩
  · rintro ⟨_, row, known, _⟩
    exact ⟨row, known⟩

theorem mem_latches_iff {s : Store} {n : Name} : n ∈ s.latches ↔ ∃ record, s.latch n = some record := by
  rw [← AList.lookup_isSome, Option.isSome_iff_exists]
  rfl

theorem Mirrored.mem_rules {rules : List RuleRecord} {s : Store}
    {outcome : (List Name × List Name) × Store} (mirrored : Mirrored rules s outcome) (n : Name) :
    n ∈ outcome.2.rules ↔ n ∈ rules.map (·.name) ∨ n ∈ s.rules := by
  rw [mem_rules_iff, mem_rules_iff]
  by_cases listed : n ∈ rules.map (·.name)
  · exact ⟨fun _ => .inl listed, fun _ => ⟨false, (mirrored.standing n).mpr listed⟩⟩
  · rw [(mirrored.others n listed).1]
    simp [listed]

theorem Mirrored.consistent {rules : List RuleRecord} {s : Store}
    {outcome : (List Name × List Name) × Store} (mirrored : Mirrored rules s outcome)
    (before : Consistent s) : Consistent outcome.2 := by
  constructor
  · intro n
    rw [mirrored.mem_rules, mem_latches_iff]
    by_cases listed : n ∈ rules.map (·.name)
    · obtain ⟨rule, member, rfl⟩ := List.mem_map.mp listed
      exact ⟨fun _ => ⟨_, (mirrored.given rule member).2.1⟩, fun _ => .inl listed⟩
    · rw [(mirrored.others n listed).2.1, ← mem_latches_iff, ← before.latched]
      exact or_iff_right listed
  · rintro ⟨n, i⟩ edge
    rw [mirrored.mem_rules]
    by_cases listed : n ∈ rules.map (·.name)
    · exact .inl listed
    · exact .inr (before.inputs _ (((mirrored.others n listed).2.2 i).1.mp edge))
  · rintro ⟨n, i⟩ edge
    rw [mirrored.mem_rules]
    by_cases listed : n ∈ rules.map (·.name)
    · exact .inl listed
    · exact .inr (before.outputs _ (((mirrored.others n listed).2.2 i).2.mp edge))

theorem Purged.mem_rules {s : Store} {outcome : (List Name × List Name) × Store}
    (purged : Purged s outcome) (n : Name) :
    n ∈ outcome.2.rules ↔ s.orphanFlag n ≠ some true ∧ n ∈ s.rules := by
  rw [mem_rules_iff, mem_rules_iff, orphanFlag]
  by_cases orphaned : s.orphanFlag n = some true
  · simp [(purged.gone n orphaned).1, orphaned]
  · rw [(purged.kept n orphaned).1]
    exact (and_iff_right orphaned).symm

theorem Purged.consistent {s : Store} {outcome : (List Name × List Name) × Store}
    (purged : Purged s outcome) (before : Consistent s) : Consistent outcome.2 := by
  constructor
  · intro n
    rw [purged.mem_rules, mem_latches_iff]
    by_cases orphaned : s.orphanFlag n = some true
    · simp [(purged.gone n orphaned).2.1, orphaned]
    · rw [(purged.kept n orphaned).2.1, ← mem_latches_iff, ← before.latched]
      exact and_iff_right orphaned
  · rintro ⟨n, i⟩ edge
    have standing : s.orphanFlag n ≠ some true := fun orphaned =>
      ((purged.gone n orphaned).2.2 i).1 edge
    exact (purged.mem_rules n).mpr
      ⟨standing, before.inputs _ (((purged.kept n standing).2.2 i).1.mp edge)⟩
  · rintro ⟨n, i⟩ edge
    have standing : s.orphanFlag n ≠ some true := fun orphaned =>
      ((purged.gone n orphaned).2.2 i).2 edge
    exact (purged.mem_rules n).mpr
      ⟨standing, before.outputs _ (((purged.kept n standing).2.2 i).2.mp edge)⟩

theorem moveLatch_lookup (oldName newName : Name) (latches : Table LatchRecord)
    (fresh : newName ∉ latches) (n : Name) :
    (moveLatch oldName newName latches).lookup n =
      if n = newName then latches.lookup oldName
      else if n = oldName then none else latches.lookup n := by
  unfold moveLatch
  cases known : latches.lookup oldName with
  | none =>
    simp only
    split
    · rename_i same
      rw [same, AList.lookup_eq_none.mpr fresh]
    · split
      · rename_i same
        rw [same, known]
      · rfl
  | some record =>
    simp only
    split
    · rename_i same
      rw [same, AList.lookup_insert]
    · rename_i other
      rw [AList.lookup_insert_ne other, lookup_erase_eq]

theorem mem_moveEdges {oldName newName n i : Name} {edges : List (Name × Name)} :
    (n, i) ∈ moveEdges oldName newName edges ↔
      (n = newName ∧ (oldName, i) ∈ edges) ∨ (n ≠ oldName ∧ (n, i) ∈ edges) := by
  simp only [moveEdges, List.mem_map]
  constructor
  · rintro ⟨⟨m, j⟩, member, moved⟩
    by_cases old : m = oldName
    · simp only [old, if_true, Prod.mk.injEq] at moved
      obtain ⟨rfl, rfl⟩ := moved
      exact .inl ⟨rfl, old ▸ member⟩
    · simp only [old, if_false, Prod.mk.injEq] at moved
      obtain ⟨rfl, rfl⟩ := moved
      exact .inr ⟨old, member⟩
  · rintro (⟨rfl, member⟩ | ⟨other, member⟩)
    · exact ⟨(oldName, i), member, by simp⟩
    · exact ⟨(n, i), member, by simp [other]⟩

/-- In a consistent store a rename fails for the two reasons it gives, and for no other. -/
theorem renameRule_ok {s t : Store} {oldName newName : Name} (before : Consistent s) :
    s.renameRule oldName newName = .ok t ↔ ∃ existing, s.ruleRow oldName = some existing ∧
      newName ∉ s.rules ∧ t = { s with
        rules := (s.rules.insert newName ⟨existing.enabled, false⟩).erase oldName
        latches := moveLatch oldName newName s.latches
        ruleInputs := moveEdges oldName newName s.ruleInputs
        ruleOutputs := moveEdges oldName newName s.ruleOutputs } := by
  have no_clash : newName ∉ s.rules → ∀ edges : List (Name × Name),
      (∀ edge ∈ edges, edge.1 ∈ s.rules) → edgesClash oldName newName edges = false := by
    intro fresh edges owned
    rw [← Bool.not_eq_true]
    intro clash
    simp only [edgesClash, List.any_eq_true, Bool.and_eq_true, decide_eq_true_eq] at clash
    obtain ⟨edge, _, _, clashing⟩ := clash
    exact fresh (owned _ clashing)
  unfold renameRule ruleRow
  cases s.rules.lookup oldName with
  | none => simp
  | some existing =>
    by_cases fresh : newName ∈ s.rules
    · simp [fresh]
    · have unlatched : newName ∉ s.latches := mt (before.latched newName).mpr fresh
      simp [fresh, unlatched, no_clash fresh _ before.inputs, no_clash fresh _ before.outputs, eq_comm]

theorem renameRule_consistent {s t : Store} {oldName newName : Name} (before : Consistent s)
    (renamed : s.renameRule oldName newName = .ok t) : Consistent t := by
  obtain ⟨existing, known, fresh, rfl⟩ := (renameRule_ok before).mp renamed
  have present : oldName ∈ s.rules := AList.lookup_isSome.mp (Option.isSome_iff_exists.mpr ⟨_, known⟩)
  have apart : newName ≠ oldName := fun same => fresh (same ▸ present)
  have rows : ∀ n, n ∈ (s.rules.insert newName ⟨existing.enabled, false⟩).erase oldName ↔
      n ≠ oldName ∧ (n = newName ∨ n ∈ s.rules) := by
    intro n
    rw [AList.mem_erase, AList.mem_insert]
  have edges : ∀ table : List (Name × Name), (∀ edge ∈ table, edge.1 ∈ s.rules) →
      ∀ edge ∈ moveEdges oldName newName table,
        edge.1 ∈ (s.rules.insert newName ⟨existing.enabled, false⟩).erase oldName := by
    rintro table owned ⟨n, i⟩ member
    rw [rows]
    rcases mem_moveEdges.mp member with ⟨rfl, _⟩ | ⟨other, member⟩
    · exact ⟨apart, .inl rfl⟩
    · exact ⟨other, .inr (owned _ member)⟩
  refine ⟨fun n => ?_, edges _ before.inputs, edges _ before.outputs⟩
  have unlatched : newName ∉ s.latches := mt (before.latched newName).mpr fresh
  have moved : n ∈ moveLatch oldName newName s.latches ↔ _ := AList.lookup_isSome.symm
  rw [moveLatch_lookup _ _ _ unlatched] at moved
  rw [rows]
  refine Iff.trans ?_ moved.symm
  by_cases new : n = newName
  · have latched := (before.latched oldName).mp present
    simp [new, apart, AList.lookup_isSome.mpr latched]
  · by_cases old : n = oldName
    · simp [old, apart.symm]
    · simp [old, new, before.latched, AList.lookup_isSome]

theorem writeLatch_consistent {s t : Store} {ruleName : Name} {record : LatchRecord}
    (before : Consistent s) (written : s.writeLatch ruleName record = .ok t) : Consistent t := by
  obtain ⟨known, rfl⟩ := writeLatch_ok.mp written
  refine ⟨fun n => ?_, before.inputs, before.outputs⟩
  have latched : n ∈ s.latches.insert ruleName record ↔ n = ruleName ∨ n ∈ s.latches :=
    AList.mem_insert _
  refine Iff.trans ?_ latched.symm
  rw [← before.latched]
  constructor
  · exact .inr
  · rintro (rfl | member)
    · exact known
    · exact member

/- Whole lives. -/

/-- The names that `load_configuration` gives are duplicate-free. -/
inductive Operation
  | syncRules (rules : List RuleRecord) (names_nodup : (rules.map (·.name)).Nodup)
  | writeLatch (ruleName : Name) (record : LatchRecord)
  | renameRule (oldName newName : Name)
  | purgeOrphans

/-- What is committed: an operation that raises is rolled back. -/
def committed {ε : Type} (s : Store) : Except ε Store → Store
  | .ok t => t
  | .error _ => s

def operate (s : Store) : Operation → Option Store
  | .syncRules rules _ => some (s.syncRules rules).2
  | .writeLatch ruleName record => some (s.committed (s.writeLatch ruleName record))
  | .renameRule oldName newName => some (s.committed (s.renameRule oldName newName))
  | .purgeOrphans => some s.purgeOrphans.2

/-- The operation does not write this rule's latch, move it to another name, or purge it. -/
def Leaves (n : Name) (s : Store) : Operation → Prop
  | .syncRules _ _ => True
  | .writeLatch ruleName _ => ruleName ≠ n
  | .renameRule oldName _ => oldName ≠ n
  | .purgeOrphans => s.orphanFlag n ≠ some true

theorem operate_consistent {s t : Store} {operation : Operation} (before : Consistent s)
    (done : s.operate operation = some t) : Consistent t := by
  cases operation with
  | syncRules rules nodup =>
    cases Option.some.inj done
    exact (syncRules_mirrored s rules nodup).consistent before
  | writeLatch ruleName record =>
    cases Option.some.inj done
    cases written : s.writeLatch ruleName record with
    | error e => exact before
    | ok t => exact writeLatch_consistent before written
  | renameRule oldName newName =>
    cases Option.some.inj done
    cases renamed : s.renameRule oldName newName with
    | error e => exact before
    | ok t => exact renameRule_consistent before renamed
  | purgeOrphans =>
    cases Option.some.inj done
    exact (purgeOrphans_purged s).consistent before

theorem operate_latch {s t : Store} {operation : Operation} {n : Name} {record : LatchRecord}
    (before : Consistent s) (leaves : Leaves n s operation) (held : s.latch n = some record)
    (done : s.operate operation = some t) : t.latch n = some record := by
  cases operation with
  | syncRules rules nodup =>
    cases Option.some.inj done
    exact (syncRules_mirrored s rules nodup).latches n record held
  | writeLatch ruleName written =>
    cases Option.some.inj done
    cases wrote : s.writeLatch ruleName written with
    | error e => exact held
    | ok t =>
      obtain ⟨-, rfl⟩ := writeLatch_ok.mp wrote
      exact (AList.lookup_insert_ne (Ne.symm leaves)).trans held
  | renameRule oldName newName =>
    cases Option.some.inj done
    cases renamed : s.renameRule oldName newName with
    | error e => exact held
    | ok t =>
      obtain ⟨existing, -, fresh, rfl⟩ := (renameRule_ok before).mp renamed
      have latched : n ∈ s.rules := (before.latched n).mpr (mem_latches_iff.mpr ⟨record, held⟩)
      have unlatched : newName ∉ s.latches := mt (before.latched newName).mpr fresh
      have other : n ≠ newName := fun same => fresh (same ▸ latched)
      refine (moveLatch_lookup oldName newName s.latches unlatched n).trans ?_
      rw [if_neg other, if_neg (Ne.symm leaves)]
      exact held
  | purgeOrphans =>
    cases Option.some.inj done
    exact ((purgeOrphans_purged s).kept n leaves).2.1.trans held

/-- What holds of the mirror in a state, and of each operation that may come next. -/
structure Sound (s : Store) : Prop where
  consistent : Consistent s
  mirrored : ∀ rules : List RuleRecord, (rules.map (·.name)).Nodup →
    Mirrored rules s (s.syncRules rules)
  purged : Purged s s.purgeOrphans
  latch_kept : ∀ n record t later, s.latch n = some record → Throughout operate (Leaves n) s later →
    run operate s later = some t → t.latch n = some record

theorem Consistent.sound {s : Store} (consistent : Consistent s) : Sound s where
  consistent := consistent
  mirrored := syncRules_mirrored s
  purged := purgeOrphans_purged s
  latch_kept := by
    intro n record t later held leaves ran
    have kept : ∀ s operation t, (Consistent s ∧ s.latch n = some record) → Leaves n s operation →
        s.operate operation = some t → Consistent t ∧ t.latch n = some record :=
      fun s operation t inv left done =>
        ⟨operate_consistent inv.1 done, operate_latch inv.1 left inv.2 done⟩
    exact (guarded_invariant kept ⟨consistent, held⟩ leaves ran).2

/-- Rules, latches and flags stay consistent over every history of a new database. -/
theorem history_sound (history : List Operation) : Always operate Sound Store.empty history := by
  have start : Consistent Store.empty := by
    refine ⟨fun n => Iff.rfl, ?_, ?_⟩ <;> exact fun _ member => (nomatch member)
  exact always_of_invariant (C := fun _ _ => True) (fun _ _ _ inv _ done => operate_consistent inv done)
    (fun _ consistent => consistent.sound) start (throughout_of_forall fun _ _ _ => trivial)

end Store

end NotiMapper
