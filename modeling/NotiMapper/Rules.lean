import NotiMapper.Plugin
import Mathlib.Data.List.Dedup

/-! The configuration the daemon runs on, and the rule graph built from it. Names
are unique and a rule's members are duplicate-free: the loader rejects anything
else, so both are fields. A disabled instance is removed from every rule. -/
namespace NotiMapper

open Python

/-- Daemon-wide knobs. -/
structure DaemonSettings where
  eventLogMaxRows : Nat := 10000
  dispatcherThreads : Nat := 4
  retryInitialSeconds : PyFloat := .finite 5
  retryMaxSeconds : PyFloat := .finite 900

/-- An instance's settings in a canonical rendering: they are only ever compared. -/
abbrev Settings := String

structure InstanceConfig where
  name : Name
  plugin : String
  enabled : Bool
  settings : Settings

structure RuleConfig where
  name : Name
  inputs : List Name
  outputs : List Name
  enabled : Bool
  inputs_nodup : inputs.Nodup
  outputs_nodup : outputs.Nodup

structure Configuration where
  instances : List InstanceConfig
  rules : List RuleConfig
  daemon : DaemonSettings := {}
  instances_nodup : (instances.map (·.name)).Nodup
  rules_nodup : (rules.map (·.name)).Nodup

namespace Configuration

def enabledInstances (c : Configuration) : List InstanceConfig :=
  (c.instances.filter (·.enabled)).insertionSort fun a b => a.name ≤ b.name

def enabledRules (c : Configuration) : List RuleConfig :=
  (c.rules.filter (·.enabled)).insertionSort fun a b => a.name ≤ b.name

theorem enabledRules_nodup (c : Configuration) : (c.enabledRules.map (·.name)).Nodup := by
  have sorted : c.enabledRules.Perm (c.rules.filter (·.enabled)) := List.perm_insertionSort _ _
  have kept : ((c.rules.filter (·.enabled)).map (·.name)).Nodup :=
    c.rules_nodup.sublist (List.filter_sublist.map _)
  exact (sorted.map _).nodup_iff.mpr kept

end Configuration

/-- A rule reduced to what the graph needs. -/
structure Rule where
  name : Name
  inputs : List Name
  outputs : List Name
  inputs_nodup : inputs.Nodup
  outputs_nodup : outputs.Nodup
  deriving DecidableEq

/-- The configured rules, in the order they were added. -/
structure RuleGraph where
  entries : List Rule
  names_nodup : (entries.map (·.name)).Nodup

namespace RuleGraph

def fromConfiguration (c : Configuration) : RuleGraph where
  entries :=
    let enabled := c.enabledInstances.map (·.name)
    c.enabledRules.map fun rule =>
      { name := rule.name
        inputs := rule.inputs.filter (· ∈ enabled)
        outputs := rule.outputs.filter (· ∈ enabled)
        inputs_nodup := rule.inputs_nodup.filter _
        outputs_nodup := rule.outputs_nodup.filter _ }
  names_nodup := by
    rw [List.map_map]
    exact c.enabledRules_nodup

def sortedNames (names : List Name) : List Name := names.dedup.insertionSort (· ≤ ·)

def rules (g : RuleGraph) : List Rule := g.entries.insertionSort fun a b => a.name ≤ b.name

def rule (g : RuleGraph) (name : Name) : Option Rule := g.entries.find? (·.name = name)

def rulesForInput (g : RuleGraph) (instanceName : Name) : List Rule :=
  g.entries.filter fun rule => instanceName ∈ rule.inputs

def rulesForOutput (g : RuleGraph) (instanceName : Name) : List Rule :=
  g.entries.filter fun rule => instanceName ∈ rule.outputs

def inputNames (g : RuleGraph) : List Name := sortedNames (g.entries.flatMap (·.inputs))

def outputNames (g : RuleGraph) : List Name := sortedNames (g.entries.flatMap (·.outputs))

/-- An output is true when any rule listing it as an output is latched. -/
def desiredOutputState (g : RuleGraph) (instanceName : Name) (latches : Name → Bool) : Bool :=
  (g.rulesForOutput instanceName).any fun rule => latches rule.name

def outputsAffectedBy (g : RuleGraph) (ruleNames : List Name) : List Name :=
  sortedNames (ruleNames.flatMap fun name => (g.rule name).elim [] (·.outputs))

@[simp] theorem mem_sortedNames {names : List Name} {name : Name} :
    name ∈ sortedNames names ↔ name ∈ names := by
  simp only [sortedNames, List.mem_insertionSort, List.mem_dedup]

theorem sortedNames_nodup (names : List Name) : (sortedNames names).Nodup :=
  (List.perm_insertionSort _ _).nodup_iff.mpr (List.nodup_dedup names)

@[simp] theorem mem_rules {g : RuleGraph} {rule : Rule} : rule ∈ g.rules ↔ rule ∈ g.entries :=
  List.mem_insertionSort _

@[simp] theorem mem_rulesForInput {g : RuleGraph} {i : Name} {rule : Rule} :
    rule ∈ g.rulesForInput i ↔ rule ∈ g.entries ∧ i ∈ rule.inputs := by
  simp only [rulesForInput, List.mem_filter, decide_eq_true_eq]

@[simp] theorem mem_rulesForOutput {g : RuleGraph} {o : Name} {rule : Rule} :
    rule ∈ g.rulesForOutput o ↔ rule ∈ g.entries ∧ o ∈ rule.outputs := by
  simp only [rulesForOutput, List.mem_filter, decide_eq_true_eq]

theorem mem_outputNames {g : RuleGraph} {o : Name} :
    o ∈ g.outputNames ↔ ∃ rule ∈ g.entries, o ∈ rule.outputs := by
  simp only [outputNames, mem_sortedNames, List.mem_flatMap]

theorem mem_inputNames {g : RuleGraph} {i : Name} :
    i ∈ g.inputNames ↔ ∃ rule ∈ g.entries, i ∈ rule.inputs := by
  simp only [inputNames, mem_sortedNames, List.mem_flatMap]

theorem rules_names_nodup (g : RuleGraph) : (g.rules.map (·.name)).Nodup :=
  ((List.perm_insertionSort _ g.entries).map _).nodup_iff.mpr g.names_nodup

theorem rulesForInput_nodup (g : RuleGraph) (i : Name) :
    ((g.rulesForInput i).map (·.name)).Nodup :=
  g.names_nodup.sublist (List.filter_sublist.map _)

theorem rulesForOutput_nodup (g : RuleGraph) (o : Name) :
    ((g.rulesForOutput o).map (·.name)).Nodup :=
  g.names_nodup.sublist (List.filter_sublist.map _)

theorem eq_of_name {g : RuleGraph} {r q : Rule} (hr : r ∈ g.entries) (hq : q ∈ g.entries)
    (same : r.name = q.name) : r = q :=
  List.inj_on_of_nodup_map g.names_nodup hr hq same

theorem rule_eq_some {g : RuleGraph} {name : Name} {r : Rule} :
    g.rule name = some r ↔ r ∈ g.entries ∧ r.name = name := by
  constructor
  · intro found
    exact ⟨List.mem_of_find?_eq_some found, by simpa using List.find?_some found⟩
  · rintro ⟨member, rfl⟩
    obtain ⟨q, found⟩ : ∃ q, g.rule r.name = some q := by
      rw [← Option.isSome_iff_exists]
      simp only [rule, List.find?_isSome, decide_eq_true_eq]
      exact ⟨r, member, rfl⟩
    have hq : q ∈ g.entries ∧ q.name = r.name :=
      ⟨List.mem_of_find?_eq_some found, by simpa using List.find?_some found⟩
    rw [found, eq_of_name hq.1 member hq.2]

theorem mem_outputsAffectedBy {g : RuleGraph} {names : List Name} {o : Name} :
    o ∈ g.outputsAffectedBy names ↔ ∃ r ∈ g.entries, r.name ∈ names ∧ o ∈ r.outputs := by
  simp only [outputsAffectedBy, mem_sortedNames, List.mem_flatMap]
  constructor
  · rintro ⟨name, listed, member⟩
    cases found : g.rule name with
    | none => simp [found] at member
    | some r =>
      obtain ⟨hr, rfl⟩ := rule_eq_some.mp found
      exact ⟨r, hr, listed, by simpa [found] using member⟩
  · rintro ⟨r, hr, listed, member⟩
    exact ⟨r.name, listed, by simpa [rule_eq_some.mpr ⟨hr, rfl⟩] using member⟩

theorem desired_iff {g : RuleGraph} {o : Name} {latches : Name → Bool} :
    g.desiredOutputState o latches = true ↔
      ∃ r ∈ g.entries, o ∈ r.outputs ∧ latches r.name = true := by
  simp only [desiredOutputState, List.any_eq_true, mem_rulesForOutput, and_assoc]

theorem desired_congr {g : RuleGraph} {o : Name} {latches latches' : Name → Bool}
    (same : ∀ r ∈ g.entries, o ∈ r.outputs → latches r.name = latches' r.name) :
    g.desiredOutputState o latches = g.desiredOutputState o latches' := by
  rw [Bool.eq_iff_iff, desired_iff, desired_iff]
  constructor
  · rintro ⟨r, hr, ho, latched⟩
    exact ⟨r, hr, ho, same r hr ho ▸ latched⟩
  · rintro ⟨r, hr, ho, latched⟩
    exact ⟨r, hr, ho, (same r hr ho).symm ▸ latched⟩

theorem desired_absent {g : RuleGraph} {o : Name} {latches : Name → Bool}
    (absent : o ∉ g.outputNames) : g.desiredOutputState o latches = false := by
  by_contra active
  obtain ⟨r, hr, ho, _⟩ := desired_iff.mp (Bool.eq_true_of_not_eq_false active)
  exact absent (mem_outputNames.mpr ⟨r, hr, ho⟩)

end RuleGraph

end NotiMapper
