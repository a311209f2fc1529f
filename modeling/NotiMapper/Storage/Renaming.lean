import Mathlib.Logic.Equiv.Basic
import NotiMapper.Storage.Orphans

/-! A rule that is renamed in the store and in the configuration: what the next mirroring
leaves is what it would have left of the rule under its old name. -/
namespace NotiMapper

/-- The rule as it is configured once it has been renamed. -/
def RuleRecord.renamed (oldName newName : Name) (rule : RuleRecord) : RuleRecord :=
  { rule with name := if rule.name = oldName then newName else rule.name }

namespace Store

variable {oldName newName : Name}

/-- The latches and the edges of one store are those of the other, under the new name in
place of the old one. -/
structure Moved (oldName newName : Name) (s t : Store) : Prop where
  latches : ∀ n, t.latch (Equiv.swap oldName newName n) = s.latch n
  inputs : ∀ n i, (Equiv.swap oldName newName n, i) ∈ t.ruleInputs ↔ (n, i) ∈ s.ruleInputs
  outputs : ∀ n i, (Equiv.swap oldName newName n, i) ∈ t.ruleOutputs ↔ (n, i) ∈ s.ruleOutputs

theorem renamed_name {rule : RuleRecord} (other : rule.name ≠ newName) :
    (rule.renamed oldName newName).name = Equiv.swap oldName newName rule.name := by
  rw [RuleRecord.renamed, Equiv.swap_apply_def, if_neg other]

theorem renamed_names {rules : List RuleRecord} (absent : newName ∉ rules.map (·.name)) :
    (rules.map (RuleRecord.renamed oldName newName)).map (·.name) =
      (rules.map (·.name)).map (Equiv.swap oldName newName) := by
  rw [List.map_map, List.map_map]
  refine List.map_congr_left fun rule member => renamed_name fun same => absent ?_
  exact same ▸ List.mem_map_of_mem member

theorem renameRule_moved {s t : Store} (before : Consistent s)
    (done : s.renameRule oldName newName = .ok t) : Moved oldName newName s t := by
  obtain ⟨existing, known, fresh, rfl⟩ := (renameRule_ok before).mp done
  have present : oldName ∈ s.rules :=
    AList.lookup_isSome.mp (Option.isSome_iff_exists.mpr ⟨_, known⟩)
  have apart : oldName ≠ newName := fun same => fresh (same ▸ present)
  have unlatched : newName ∉ s.latches := mt (before.latched newName).mpr fresh
  have edges : ∀ table : List (Name × Name), (∀ edge ∈ table, edge.1 ∈ s.rules) → ∀ n i,
      (Equiv.swap oldName newName n, i) ∈ moveEdges oldName newName table ↔ (n, i) ∈ table := by
    intro table owned n i
    have unowned : (newName, i) ∉ table := fun member => fresh (owned _ member)
    rw [mem_moveEdges, Equiv.swap_apply_def]
    by_cases old : n = oldName
    · subst old
      simp [apart.symm, unowned]
    · by_cases new : n = newName
      · subst new
        simp [old, apart, unowned]
      · simp [old, new]
  refine ⟨fun n => ?_, edges _ before.inputs, edges _ before.outputs⟩
  refine (moveLatch_lookup oldName newName s.latches unlatched _).trans ?_
  rw [Equiv.swap_apply_def]
  by_cases old : n = oldName
  · subst old
    rw [if_pos rfl, if_pos rfl]
    rfl
  · by_cases new : n = newName
    · subst new
      rw [if_neg old, if_pos rfl, if_neg apart, if_pos rfl]
      exact (AList.lookup_eq_none.mpr unlatched).symm
    · rw [if_neg old, if_neg new, if_neg new, if_neg old]
      rfl

/-- The rule stands under its new name; the flags of the others are as they were. -/
theorem renameRule_flag {s t : Store} (before : Consistent s)
    (done : s.renameRule oldName newName = .ok t) (n : Name) :
    t.orphanFlag (Equiv.swap oldName newName n) =
      if n = oldName then some false else s.orphanFlag n := by
  obtain ⟨existing, known, fresh, rfl⟩ := (renameRule_ok before).mp done
  have present : oldName ∈ s.rules :=
    AList.lookup_isSome.mp (Option.isSome_iff_exists.mpr ⟨_, known⟩)
  have apart : oldName ≠ newName := fun same => fresh (same ▸ present)
  simp only [orphanFlag, ruleRow, lookup_erase_eq, Equiv.swap_apply_def]
  by_cases old : n = oldName
  · subst old
    rw [if_pos rfl, if_pos rfl, if_neg apart.symm, AList.lookup_insert]
    rfl
  · by_cases new : n = newName
    · subst new
      rw [if_neg old, if_pos rfl, if_pos rfl, if_neg old, AList.lookup_eq_none.mpr fresh]
    · rw [if_neg old, if_neg new, if_neg old, if_neg old, AList.lookup_insert_ne new]

/-- Mirroring keeps two stores in step, each with the rule under its own name. -/
theorem Moved.mirrored {rules : List RuleRecord} {s t : Store} (moved : Moved oldName newName s t)
    (absent : newName ∉ rules.map (·.name)) {mirror mirror' : (List Name × List Name) × Store}
    (plain : Mirrored rules s mirror)
    (other : Mirrored (rules.map (RuleRecord.renamed oldName newName)) t mirror') :
    Moved oldName newName mirror.2 mirror'.2 := by
  have all (n : Name) : mirror'.2.latch (Equiv.swap oldName newName n) = mirror.2.latch n ∧
      ∀ i, ((Equiv.swap oldName newName n, i) ∈ mirror'.2.ruleInputs ↔
          (n, i) ∈ mirror.2.ruleInputs) ∧
        ((Equiv.swap oldName newName n, i) ∈ mirror'.2.ruleOutputs ↔
          (n, i) ∈ mirror.2.ruleOutputs) := by
    by_cases listed : n ∈ rules.map (·.name)
    · obtain ⟨rule, member, rfl⟩ := List.mem_map.mp listed
      have named : (rule.renamed oldName newName).name = Equiv.swap oldName newName rule.name :=
        renamed_name fun same => absent (same ▸ listed)
      obtain ⟨_, latched, edges⟩ := plain.given rule member
      obtain ⟨_, latched', edges'⟩ := other.given _ (List.mem_map_of_mem member)
      rw [named] at latched' edges'
      rw [latched, latched', moved.latches]
      refine ⟨rfl, fun i => ⟨?_, ?_⟩⟩
      · exact (edges' i).1.trans (edges i).1.symm
      · exact (edges' i).2.trans (edges i).2.symm
    · have unlisted : Equiv.swap oldName newName n ∉
          (rules.map (RuleRecord.renamed oldName newName)).map (·.name) := by
        rwa [renamed_names absent, List.mem_map_of_injective (Equiv.injective _)]
      obtain ⟨_, latched, edges⟩ := plain.others n listed
      obtain ⟨_, latched', edges'⟩ := other.others _ unlisted
      rw [latched, latched', moved.latches]
      refine ⟨rfl, fun i => ⟨?_, ?_⟩⟩
      · exact ((edges' i).1.trans (moved.inputs n i)).trans (edges i).1.symm
      · exact ((edges' i).2.trans (moved.outputs n i)).trans (edges i).2.symm
  exact ⟨fun n => (all n).1, fun n i => ((all n).2 i).1, fun n i => ((all n).2 i).2⟩

/-- A rename and then the mirroring of the renamed configuration is the mirroring alone, under
the new name. A rename that cannot be made raises. -/
theorem rename_then_sync :
    (∀ (s : Store) (oldName newName : Name) (rules : List RuleRecord), Consistent s → oldName ∈ s.rules → newName ∉ s.rules →
      (rules.map (·.name)).Nodup → newName ∉ rules.map (·.name) →
      ∃ t, s.renameRule oldName newName = .ok t ∧
        Moved oldName newName (s.syncRules rules).2
          (t.syncRules (rules.map (RuleRecord.renamed oldName newName))).2 ∧
        (∀ n, (t.syncRules (rules.map (RuleRecord.renamed oldName newName))).2.orphanFlag
            (Equiv.swap oldName newName n) = (s.syncRules rules).2.orphanFlag n) ∧
        ∀ n ≠ oldName, ∀ record, s.latch n = some record → t.latch n = some record ∧
          (t.syncRules (rules.map (RuleRecord.renamed oldName newName))).2.latch n =
            some record) ∧
    (∀ (s : Store) (oldName newName : Name), oldName ∉ s.rules →
      s.renameRule oldName newName = .error (.noRuleNamed oldName) ∧
      s.committed (s.renameRule oldName newName) = s) ∧
    ∀ (s : Store) (oldName newName : Name), oldName ∈ s.rules → newName ∈ s.rules →
      s.renameRule oldName newName = .error (.ruleAlreadyExists newName) ∧
      s.committed (s.renameRule oldName newName) = s := by
  refine ⟨?_, ?_, ?_⟩
  · intro s oldName newName rules before present fresh nodup absent
    obtain ⟨existing, known⟩ := Option.isSome_iff_exists.mp (AList.lookup_isSome.mpr present)
    obtain ⟨t, done⟩ : ∃ t, s.renameRule oldName newName = .ok t :=
      ⟨_, (renameRule_ok before).mpr ⟨existing, known, fresh, rfl⟩⟩
    have moved := renameRule_moved before done
    have unique : ((rules.map (RuleRecord.renamed oldName newName)).map (·.name)).Nodup := by
      rw [renamed_names absent]
      exact nodup.map (Equiv.injective _)
    have plain := syncRules_mirrored s rules nodup
    have other := syncRules_mirrored t _ unique
    refine ⟨t, done, moved.mirrored absent plain other, fun n => ?_, ?_⟩
    · by_cases listed : n ∈ rules.map (·.name)
      · have also : Equiv.swap oldName newName n ∈
            (rules.map (RuleRecord.renamed oldName newName)).map (·.name) := by
          rwa [renamed_names absent, List.mem_map_of_injective (Equiv.injective _)]
        rw [(plain.standing n).mpr listed, (other.standing _).mpr also]
      · have unlisted : Equiv.swap oldName newName n ∉
            (rules.map (RuleRecord.renamed oldName newName)).map (·.name) := by
          rwa [renamed_names absent, List.mem_map_of_injective (Equiv.injective _)]
        rw [(plain.others n listed).1, (other.others _ unlisted).1, renameRule_flag before done]
        split
        · rename_i same
          rw [same, orphanFlag, ruleRow, known]
          rfl
        · rfl
    · intro n apart record held
      have stays : Equiv.swap oldName newName n = n := by
        refine Equiv.swap_apply_of_ne_of_ne apart fun same => fresh ?_
        exact (before.latched newName).mpr (same ▸ mem_latches_iff.mpr ⟨record, held⟩)
      have kept : t.latch n = some record := by
        have there := moved.latches n
        rw [stays] at there
        exact there.trans held
      exact ⟨kept, other.latches n record kept⟩
  · intro s oldName newName absent
    have raised : s.renameRule oldName newName = .error (.noRuleNamed oldName) := by
      rw [renameRule, AList.lookup_eq_none.mpr absent]
    rw [raised]
    exact ⟨rfl, rfl⟩
  · intro s oldName newName present clash
    obtain ⟨existing, known⟩ := Option.isSome_iff_exists.mp (AList.lookup_isSome.mpr present)
    have raised : s.renameRule oldName newName = .error (.ruleAlreadyExists newName) := by
      rw [renameRule, known]
      exact if_pos clash
    rw [raised]
    exact ⟨rfl, rfl⟩

def passage (name : Name) : RuleRecord :=
  ⟨name, true, false, ["Mail"], ["Lamp"], by decide, by decide⟩

/-- One rule, which is set. -/
def doorSet : Store :=
  let mirrored := (Store.empty.syncRules [passage "Door"]).2
  mirrored.committed (mirrored.writeLatch "Door" ⟨true, some 60, none, 1, some "Mail", none⟩)

theorem doorSet_consistent : Consistent doorSet := by
  have mirrored : Consistent (Store.empty.syncRules [passage "Door"]).2 := by
    have unique : ([passage "Door"].map (·.name)).Nodup := List.nodup_singleton _
    refine (syncRules_mirrored _ _ unique).consistent ⟨fun n => Iff.rfl, ?_, ?_⟩
    all_goals exact List.forall_mem_nil _
  exact @operate_consistent _ _ (.writeLatch "Door" _) mirrored rfl

/-- Where the new name is configured, and the old one is not, a mirroring alone leaves a latch
for each of them, and after a rename it leaves the one. -/
theorem rename_onto_configured :
    (Consistent doorSet ∧ "Door" ∈ doorSet.rules ∧ "Gate" ∉ doorSet.rules ∧
      ([passage "Gate"].map (·.name)).Nodup) ∧
    (doorSet.syncRules [passage "Gate"]).2.latches.keys = ["Gate", "Door"] ∧
    ((doorSet.syncRules [passage "Gate"]).2.latch "Gate").map (·.state) = some false ∧
    ∀ t, doorSet.renameRule "Door" "Gate" = .ok t →
      (t.syncRules ([passage "Gate"].map (RuleRecord.renamed "Door" "Gate"))).2.latches.keys =
        ["Gate"] ∧
      ((t.syncRules ([passage "Gate"].map (RuleRecord.renamed "Door" "Gate"))).2.latch
        "Gate").map (·.state) = some true ∧
      ¬ Moved "Door" "Gate" (doorSet.syncRules [passage "Gate"]).2
        (t.syncRules ([passage "Gate"].map (RuleRecord.renamed "Door" "Gate"))).2 := by
  refine ⟨⟨doorSet_consistent, by decide +kernel, by decide +kernel, by decide⟩,
    by decide +kernel, by decide +kernel, fun t done => ?_⟩
  have same : t = doorSet.committed (doorSet.renameRule "Door" "Gate") := by
    rw [done]
    rfl
  subst same
  refine ⟨by decide +kernel, by decide +kernel, fun moved => ?_⟩
  -- The mirroring alone gives the new rule a fresh latch; under the old name nothing is left.
  have door := congrArg (·.map (·.state)) (moved.latches "Gate")
  rw [Equiv.swap_apply_right] at door
  revert door
  decide +kernel

end Store

end NotiMapper
