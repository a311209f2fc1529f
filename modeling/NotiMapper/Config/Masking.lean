import NotiMapper.Config.Located
import NotiMapper.Config.Undeclared

/-! Which defects of a declaration are told, whatever else is wrong with it, and which only
when its other fields are right. -/
namespace NotiMapper

open Python Report

namespace Loader

open Unicode

variable (l : Loader)

/-- The instance of that name is built and has the side: its plugin is known, and its config
is an object if there is one. -/
def Supplied (documents : List Document) (direction : PluginDirection) (name : Name) : Prop :=
  ∃ entry, l.Reached (declared .instances documents) entry ∧
    ∃ body, entry.2 = .object body ∧ normalizeName entry.1 = name ∧
      ∃ plugin known, l.PluginIs body plugin known ∧ (∃ config, ConfigOf body config) ∧
        direction ∈ known.directions

/-- The inputs and outputs of a rule can be resolved, and none is on both sides. -/
def Settled (documents : List Document) (body : Members) : Prop :=
  ∃ inputs outputs, MembersOk (l.Supplied documents .input) body "inputs" inputs ∧
    MembersOk (l.Supplied documents .output) body "outputs" outputs ∧
      ∀ name ∈ inputs, name ∉ outputs

/-- The lists of a rule, and the side their members need. -/
def listKeys : List (String × PluginDirection) := [("inputs", .input), ("outputs", .output)]

/-- An element of a list of a rule. -/
def EntryAt (body : Members) (key : String) (index : Nat) (value : Json) : Prop :=
  ∃ listed, body.lookup key = some (.array listed) ∧ listed[index]? = some value

/-- The defects that one field of a declaration can have. -/
inductive Defect
  | unknownKey
  | enabled
  | secret
  | list
  | entry
  | wrongSide (listed : Members)
  | repeated (direction : PluginDirection) (name : Name)

/-- A value that is no boolean. -/
def notBoolean (subject : String) (place : ConfigPath) (key : String) : ConfigError :=
  ⟨s!"{subject}: \"{key}\" must be true or false", some (place.key key)⟩

/-- A draft has such a defect, and this is how it would be told. -/
inductive Has (documents : List Document) (draft : Draft) :
    Namespace → Defect → ConfigError → Prop
  | instanceKey {key : String} (there : key ∈ draft.body.map Prod.fst)
      (unknown : key ∉ instanceKeys) : Has documents draft .instances .unknownKey
        (l.unknownKey draft.origin instanceKeys (l.instanceSubject draft) key)
  | ruleKey {key : String} (there : key ∈ draft.body.map Prod.fst) (unknown : key ∉ ruleKeys) :
      Has documents draft .rules .unknownKey
        (l.unknownKey draft.origin ruleKeys (l.ruleSubject draft) key)
  | instanceEnabled (wrong : ¬ BoolOrAbsent draft.body "enabled") :
      Has documents draft .instances .enabled
        (notBoolean (l.instanceSubject draft) draft.origin "enabled")
  | ruleEnabled (wrong : ¬ BoolOrAbsent draft.body "enabled") :
      Has documents draft .rules .enabled
        (notBoolean (l.ruleSubject draft) draft.origin "enabled")
  | secret {config : Members} {e : ConfigError}
      (found : draft.body.lookup "config" = some (.object config))
      (undefined : e ∈ (memberTextsAt config (draft.origin.key "config")).flatMap l.undefinedIn) :
      Has documents draft .instances .secret e
  | emptyList {key : String} {direction : PluginDirection} (side : (key, direction) ∈ listKeys)
      (found : draft.body.lookup key = some (.array [])) :
      Has documents draft .rules .list (l.emptyMembers draft key)
  | noList {key : String} {direction : PluginDirection} {value : Json}
      (side : (key, direction) ∈ listKeys) (found : draft.body.lookup key = some value)
      (other : ∀ listed, value ≠ .array listed) :
      Has documents draft .rules .list (l.notMembers draft key)
  | notAName {key : String} {direction : PluginDirection} {index : Nat} {value : Json}
      (side : (key, direction) ∈ listKeys) (found : EntryAt draft.body key index value)
      (other : ∀ text, value ≠ .string text) :
      Has documents draft .rules .entry (l.notAName draft key index)
  | unknown {key : String} {direction : PluginDirection} {index : Nat} {text : String}
      (side : (key, direction) ∈ listKeys) (found : EntryAt draft.body key index (.string text))
      (absent : ¬ l.Drafted documents (normalizeName text)) :
      Has documents draft .rules .entry
        (l.unknownInstance (l.gathered documents).registry draft key (normalizeName text) index)
  | wrongSide {key : String} {direction : PluginDirection} {index : Nat} {text : String}
      {entry : String × Json} {body : Members} {known : KnownPlugin} {configured : LoadedInstance}
      (side : (key, direction) ∈ listKeys) (found : EntryAt draft.body key index (.string text))
      (reached : l.Reached (declared .instances documents) entry) (object : entry.2 = .object body)
      (named : normalizeName entry.1 = normalizeName text)
      (isKnown : l.PluginIs body configured.plugin known)
      (sides : configured.directions = known.directions) (lacks : direction ∉ known.directions) :
      Has documents draft .rules (.wrongSide body)
        (l.wrongSide draft key configured (normalizeName text) index)
  | repeated {key : String} {direction : PluginDirection} {index earlier : Nat}
      {text before : String} (side : (key, direction) ∈ listKeys)
      (found : EntryAt draft.body key index (.string text))
      (first : EntryAt draft.body key earlier (.string before)) (order : earlier < index)
      (same : normalizeName before = normalizeName text) :
      Has documents draft .rules (.repeated direction (normalizeName text))
        (l.listedTwice draft key (normalizeName text) index)

/-- When such a defect is told: a key, a list, or an element that is no instance always; the
flag and the secrets of an instance if its plugin is known; the flag of a rule if its lists
are right; and what is wrong with an instance that is listed only if that is built. -/
def Shows (documents : List Document) (space : Namespace) (body : Members) : Defect → Prop
  | .unknownKey => True
  | .list => True
  | .entry => True
  | .secret => ∃ plugin known, l.PluginIs body plugin known
  | .enabled =>
    match space with
    | .instances => ∃ plugin known, l.PluginIs body plugin known
    | .rules => l.Settled documents body
  | .wrongSide listed => ∃ config, ConfigOf listed config
  | .repeated direction name => l.Supplied documents direction name

variable {l} {registry : NameRegistry} {built : BuiltInstances} {draft : Draft} {key : String}
  {direction : PluginDirection}

/- What is resolved. -/

theorem mem_rejectUnknownKeys {body : Members} {place : ConfigPath} {allowed : List String}
    {subject : String} {e : ConfigError} :
    e ∈ (l.rejectUnknownKeys body place allowed subject).problems ↔
      ∃ key ∈ body.map Prod.fst, key ∉ allowed ∧ e = l.unknownKey place allowed subject key := by
  have told := problems_forM_tell (χ := Escape)
    (f := fun member : String × Json => l.unknownKey place allowed subject member.1)
    (body.filter (·.1 ∉ allowed))
  have run : (l.rejectUnknownKeys body place allowed subject).problems =
      (body.filter (·.1 ∉ allowed)).map fun member =>
        l.unknownKey place allowed subject member.1 := told
  rw [run]
  simp only [List.mem_map, List.mem_filter, decide_eq_true_eq]
  constructor
  · rintro ⟨member, ⟨there, unknown⟩, rfl⟩
    exact ⟨member.1, ⟨member, there, rfl⟩, unknown, rfl⟩
  · rintro ⟨_, ⟨member, there, rfl⟩, unknown, rfl⟩
    exact ⟨member, ⟨there, unknown⟩, rfl⟩

/-- After some rounds a name is resolved if it was, or if they have it and it is provided. -/
theorem mem_resolved {rounds : List (Json × Nat)} {acc last : Resolved × Bool} {name : Name}
    (result : (rounds.foldlM (l.resolveMember registry built draft key direction) acc).result =
      .ok last) :
    name ∈ last.1.1 ↔ name ∈ acc.1.1 ∨ built.Provides direction name ∧
      ∃ round ∈ rounds, ∃ text, round.1 = .string text ∧ normalizeName text = name := by
  induction rounds generalizing acc with
  | nil =>
    cases result
    simp
  | cons round rounds ih =>
    obtain ⟨next, once, step⟩ : ∃ next,
        (l.resolveMember registry built draft key direction acc round).result = .ok next ∧
        ((∃ name, Resolves built direction acc.1.1 round.1 name ∧
            next.1.1 = acc.1.1 ++ [name] ∧ next.2 = acc.2) ∨
          (∀ name, ¬ Resolves built direction acc.1.1 round.1 name) ∧ next = (acc.1, false)) :=
      l.resolveMember_result acc round
    rw [List.foldlM_cons, bind_of_ok once] at result
    rw [ih result]
    simp only [List.exists_mem_cons_iff]
    rcases step with ⟨added, ⟨text, value, named, _, provided⟩, grown, _⟩ | ⟨fails, rfl⟩
    · rw [grown, List.mem_append, List.mem_singleton, or_assoc]
      refine or_congr_right ?_
      constructor
      · rintro (rfl | ⟨also, later⟩)
        · exact ⟨provided, .inl ⟨text, value, named⟩⟩
        · exact ⟨also, .inr later⟩
      · rintro ⟨also, ⟨other, same, rfl⟩ | later⟩
        · cases value.symm.trans same
          exact .inl named
        · exact .inr ⟨also, later⟩
    · constructor
      · rintro (before | ⟨also, later⟩)
        · exact .inl before
        · exact .inr ⟨also, .inr later⟩
      · rintro (before | ⟨also, ⟨text, value, named⟩ | later⟩)
        · exact .inl before
        · by_cases known : name ∈ acc.1.1
          · exact .inl known
          · exact absurd ⟨text, value, named, known, also⟩ (fails name)
        · exact .inr ⟨also, later⟩

/-- If no round fails, the elements are names that are provided, and are resolved. -/
theorem resolved_ok {listed : List Json} {index : Nat} {acc last : Resolved × Bool}
    (result : ((listed.zipIdx index).foldlM (l.resolveMember registry built draft key direction)
      acc).result = .ok last) (ok : last.2 = true) :
    acc.2 = true ∧ ∃ texts : List String, listed = texts.map .string ∧
      (∀ text ∈ texts, built.Provides direction (normalizeName text)) ∧
        last.1.1 = acc.1.1 ++ texts.map normalizeName := by
  induction listed generalizing index acc with
  | nil =>
    cases result
    exact ⟨ok, [], rfl, List.forall_mem_nil _, by rw [List.map_nil, List.append_nil]⟩
  | cons value listed ih =>
    obtain ⟨next, once, step⟩ : ∃ next,
        (l.resolveMember registry built draft key direction acc (value, index)).result = .ok next ∧
        ((∃ name, Resolves built direction acc.1.1 value name ∧
            next.1.1 = acc.1.1 ++ [name] ∧ next.2 = acc.2) ∨
          (∀ name, ¬ Resolves built direction acc.1.1 value name) ∧ next = (acc.1, false)) :=
      l.resolveMember_result acc (value, index)
    rw [List.zipIdx_cons, List.foldlM_cons, bind_of_ok once] at result
    obtain ⟨fine, texts, rfl, others, whole⟩ := ih result
    rcases step with ⟨_, ⟨text, rfl, rfl, _, provided⟩, grown, kept⟩ | ⟨_, rfl⟩
    · refine ⟨kept ▸ fine, text :: texts, rfl, List.forall_mem_cons.mpr ⟨provided, others⟩, ?_⟩
      rw [whole, grown, List.append_assoc, List.map_cons, List.singleton_append]
    · exact absurd fine Bool.false_ne_true

/-- No round fails on names that are provided, each once. -/
theorem resolved_all {texts : List String} {index : Nat} {acc last : Resolved × Bool}
    (result : (((texts.map Json.string).zipIdx index).foldlM
      (l.resolveMember registry built draft key direction) acc).result = .ok last)
    (provided : ∀ text ∈ texts, built.Provides direction (normalizeName text))
    (nodup : (acc.1.1 ++ texts.map normalizeName).Nodup) :
    last.1.1 = acc.1.1 ++ texts.map normalizeName ∧ last.2 = acc.2 := by
  induction texts generalizing index acc with
  | nil =>
    cases result
    exact ⟨by rw [List.map_nil, List.append_nil], rfl⟩
  | cons text texts ih =>
    obtain ⟨next, once, step⟩ : ∃ next, (l.resolveMember registry built draft key direction acc
          (.string text, index)).result = .ok next ∧
        ((∃ name, Resolves built direction acc.1.1 (.string text) name ∧
            next.1.1 = acc.1.1 ++ [name] ∧ next.2 = acc.2) ∨
          (∀ name, ¬ Resolves built direction acc.1.1 (.string text) name) ∧
            next = (acc.1, false)) :=
      l.resolveMember_result acc (.string text, index)
    rw [List.map_cons, List.zipIdx_cons, List.foldlM_cons, bind_of_ok once] at result
    obtain ⟨here, others⟩ := List.forall_mem_cons.mp provided
    rcases step with ⟨_, ⟨other, same, rfl, _⟩, grown, kept⟩ | ⟨fails, _⟩
    · cases same
      have split : next.1.1 ++ texts.map normalizeName =
          acc.1.1 ++ (text :: texts).map normalizeName := by
        rw [grown, List.append_assoc, List.map_cons, List.singleton_append]
      obtain ⟨whole, fine⟩ := ih result others (split ▸ nodup)
      exact ⟨whole.trans split, fine.trans kept⟩
    · refine absurd ⟨text, rfl, rfl, fun member => ?_, here⟩ (fails (normalizeName text))
      exact (List.nodup_append.mp nodup).2.2 _ member _ List.mem_cons_self rfl

/-- What the members of a list are resolved to. -/
theorem ruleMembers_some {names : Resolved} :
    (l.ruleMembers registry built draft key direction).result = .ok (some names) ↔
      MembersOk (built.Provides direction) draft.body key names.1 := by
  unfold ruleMembers MembersOk Listed
  cases listed : draft.body.lookup key with
  | none => exact iff_of_false (fun same => by cases same) (fun ⟨⟨_, _, same, _⟩, _⟩ => by cases same)
  | some value =>
    cases value with
    | array elements =>
      cases elements with
      | nil =>
        refine iff_of_false (fun same => by cases same) ?_
        rintro ⟨⟨texts, some_, same, _⟩, _⟩
        exact some_ (List.map_eq_nil_iff.mp (Json.array.inj (Option.some.inj same)).symm)
      | cons first rest =>
        obtain ⟨last, result⟩ : Returns ((first :: rest).zipIdx.foldlM
            (l.resolveMember registry built draft key direction) (⟨[], List.nodup_nil⟩, true)) := by
          refine (returns_foldlM (R := fun _ => True) (fun acc listed => ?_) _ _).mpr
            fun _ _ => trivial
          exact iff_of_true (l.resolveMember_returns registry built draft key direction acc listed)
            trivial
        dsimp only
        rw [bind_of_ok result]
        have ended : (pure (if last.2 = true then some last.1 else none) :
            Checked (Option Resolved)).result = .ok (some names) ↔ last.2 = true ∧ last.1 = names := by
          cases last.2
          · exact iff_of_false (fun same => by cases same) (fun both => Bool.false_ne_true both.1)
          · constructor
            · intro same
              cases same
              exact ⟨rfl, rfl⟩
            · rintro ⟨_, rfl⟩
              rfl
        refine ended.trans ?_
        constructor
        · rintro ⟨ok, rfl⟩
          obtain ⟨_, texts, same, provided, whole⟩ := resolved_ok result ok
          rw [List.nil_append] at whole
          refine ⟨⟨texts, ?_, by rw [same], whole⟩, last.1.2, ?_⟩
          · rintro rfl
            cases same
          · rw [whole]
            exact List.forall_mem_map.mpr provided
        · rintro ⟨⟨texts, _, same, whole⟩, nodup, provided⟩
          rw [whole] at nodup provided
          rw [Json.array.inj (Option.some.inj same)] at result
          obtain ⟨resolved, ok⟩ := resolved_all result (List.forall_mem_map.mp provided) nodup
          exact ⟨ok, Subtype.ext (resolved.trans whole.symm)⟩
    | _ =>
      refine iff_of_false (fun same => by cases same) ?_
      rintro ⟨⟨_, _, same, _⟩, _⟩
      cases same

/-- The rounds before that of an element are those of the elements before it. -/
theorem zipIdx_split {listed : List Json} {before after : List (Json × Nat)} {value : Json}
    {index : Nat} (split : listed.zipIdx = before ++ (value, index) :: after) :
    listed[index]? = some value ∧
      ∀ round, round ∈ before ↔ listed[round.2]? = some round.1 ∧ round.2 < index := by
  have position (n : Nat) : (before ++ (value, index) :: after)[n]? =
      listed[n]?.map fun value => (value, n) := by
    rw [← split, List.getElem?_zipIdx, Nat.zero_add]
  have here := position before.length
  rw [List.getElem?_append_right (Nat.le_refl _), Nat.sub_self, List.getElem?_cons_zero,
    eq_comm, Option.map_eq_some_iff] at here
  obtain ⟨found, at_, same⟩ := here
  obtain ⟨rfl, rfl⟩ := Prod.mk.inj same
  refine ⟨at_, fun round => ?_⟩
  constructor
  · intro member
    obtain ⟨n, bound, rfl⟩ := List.mem_iff_getElem.mp member
    have there := position n
    rw [List.getElem?_append_left bound, List.getElem?_eq_getElem bound, eq_comm,
      Option.map_eq_some_iff] at there
    obtain ⟨other, found_, same⟩ := there
    rw [← same]
    exact ⟨found_, bound⟩
  · rintro ⟨there, bound⟩
    have same := position round.2
    rw [List.getElem?_append_left bound, there] at same
    exact List.mem_of_getElem? same

theorem element_text_injective {key other : String} {index also : Nat} {direction side : PluginDirection}
    (listed : (key, direction) ∈ listKeys) (again : (other, side) ∈ listKeys)
    (same : s!"{key}[{index}]" = s!"{other}[{also}]") :
    (key, direction) = (other, side) ∧ index = also := by
  have texts := congrArg String.toList same
  have shown (key : String) (index : Nat) : (s!"{key}[{index}]").toList =
      key.toList ++ ('[' :: (Nat.toDigits 10 index ++ [']'])) := by
    rw [← Nat.toList_repr]
    simp only [toString, String.toList_append, List.append_assoc]
    rfl
  rw [shown, shown] at texts
  simp only [listKeys, List.mem_cons, List.not_mem_nil, or_false] at listed again
  have numbers {a b : Nat} (same : Nat.toDigits 10 a = Nat.toDigits 10 b) : a = b := by
    rw [← Nat.ofDigitChars_ten_toDigits (n := a), same, Nat.ofDigitChars_ten_toDigits]
  rcases listed with ⟨rfl, rfl⟩ | ⟨rfl, rfl⟩ <;> rcases again with ⟨rfl, rfl⟩ | ⟨rfl, rfl⟩
  · refine ⟨rfl, numbers (List.append_cancel_right (List.cons.inj (List.append_cancel_left texts)).2)⟩
  · exact absurd (List.cons.inj texts).1 (by decide)
  · exact absurd (List.cons.inj texts).1 (by decide)
  · refine ⟨rfl, numbers (List.append_cancel_right (List.cons.inj (List.append_cancel_left texts)).2)⟩

theorem elementPlace_injective {other : String} {index also : Nat} {side : PluginDirection}
    (listed : (key, direction) ∈ listKeys) (again : (other, side) ∈ listKeys)
    (same : elementPlace draft key index = elementPlace draft other also) :
    (key, direction) = (other, side) ∧ index = also := by
  have steps := congrArg ConfigPath.steps same
  rw [elementPlace, elementPlace, ConfigPath.element_key_steps, ConfigPath.element_key_steps] at steps
  exact element_text_injective listed again (List.singleton_inj.mp (List.append_cancel_left steps))

variable (built direction) in
/-- The name is listed before this position, and provided. -/
def ResolvedBefore (listed : List Json) (index : Nat) (name : Name) : Prop :=
  built.Provides direction name ∧ ∃ earlier < index, ∃ text,
    listed[earlier]? = some (.string text) ∧ normalizeName text = name

theorem resolved_before {listed : List Json} {before after : List (Json × Nat)} {value : Json}
    {index : Nat} (split : listed.zipIdx = before ++ (value, index) :: after)
    {last : Resolved × Bool}
    (result : (before.foldlM (l.resolveMember registry built draft key direction)
      (⟨[], List.nodup_nil⟩, true)).result = .ok last) (name : Name) :
    name ∈ last.1.1 ↔ ResolvedBefore built direction listed index name := by
  rw [mem_resolved result, ResolvedBefore]
  have rounds := (zipIdx_split split).2
  simp only [List.not_mem_nil, false_or]
  refine and_congr_right fun _ => ?_
  constructor
  · rintro ⟨round, member, text, value, named⟩
    obtain ⟨there, bound⟩ := (rounds round).mp member
    exact ⟨round.2, bound, text, value ▸ there, named⟩
  · rintro ⟨earlier, bound, text, there, named⟩
    exact ⟨(.string text, earlier), (rounds _).mpr ⟨there, bound⟩, text, rfl, named⟩

/-- An element has the problem it has when those names before it that are provided are
resolved. -/
theorem element_told {listed : List Json} {value : Json} {index : Nat}
    (there : listed[index]? = some value) :
    ∃ resolved, (∀ name, name ∈ resolved ↔ ResolvedBefore built direction listed index name) ∧
      ∀ e, l.MemberProblem registry built draft key direction resolved index value e →
        e ∈ (listed.zipIdx.foldlM (l.resolveMember registry built draft key direction)
          (⟨[], List.nodup_nil⟩, true)).problems := by
  have returns (acc : Resolved × Bool) (round : Json × Nat) :
      Returns (l.resolveMember registry built draft key direction acc round) :=
    l.resolveMember_returns registry built draft key direction acc round
  have member : (value, index) ∈ listed.zipIdx := List.mem_zipIdx_iff_getElem?.mpr there
  obtain ⟨before, after, split⟩ := List.append_of_mem member
  obtain ⟨last, result⟩ : Returns (before.foldlM
      (l.resolveMember registry built draft key direction) (⟨[], List.nodup_nil⟩, true)) := by
    refine (returns_foldlM (R := fun _ => True) (fun acc round => ?_) _ _).mpr fun _ _ => trivial
    exact iff_of_true (returns acc round) trivial
  refine ⟨last.1.1, resolved_before split result, fun e wrong => ?_⟩
  exact (mem_problems_foldlM returns).mpr
    ⟨before, (value, index), after, split, last, result, mem_resolveMember.mpr wrong⟩

theorem told_element {listed : List Json} {e : ConfigError}
    (told : e ∈ (listed.zipIdx.foldlM (l.resolveMember registry built draft key direction)
      (⟨[], List.nodup_nil⟩, true)).problems) :
    ∃ index value resolved, listed[index]? = some value ∧
      (∀ name, name ∈ resolved ↔ ResolvedBefore built direction listed index name) ∧
        l.MemberProblem registry built draft key direction resolved index value e := by
  obtain ⟨before, ⟨value, index⟩, after, split, last, result, here⟩ :=
    (mem_problems_foldlM fun acc round =>
      l.resolveMember_returns registry built draft key direction acc round).mp told
  exact ⟨index, value, last.1.1, (zipIdx_split split).1, resolved_before split result,
    mem_resolveMember.mp here⟩

/- What is told of a rule, by place. -/

theorem mem_ruleMembers_list {listed : List Json} {e : ConfigError}
    (found : draft.body.lookup key = some (.array listed))
    (told : e ∈ (listed.zipIdx.foldlM (l.resolveMember registry built draft key direction)
      (⟨[], List.nodup_nil⟩, true)).problems) :
    e ∈ (l.ruleMembers registry built draft key direction).problems :=
  mem_ruleMembers.mpr (.inr (.inr (.inl ⟨listed, found, told⟩)))

theorem mem_buildRule_members {e : ConfigError} (side : (key, direction) ∈ listKeys)
    (told : e ∈ (l.ruleMembers registry built draft key direction).problems) :
    e ∈ (l.buildRule registry built draft).problems := by
  simp only [listKeys, List.mem_cons, List.not_mem_nil, or_false] at side
  rcases side with ⟨rfl, rfl⟩ | ⟨rfl, rfl⟩
  · exact mem_buildRule.mpr (.inr (.inl told))
  · exact mem_buildRule.mpr (.inr (.inr (.inl told)))

theorem origin_ne_key {name : String} : draft.origin ≠ draft.origin.key name := by
  intro same
  have sizes := congrArg (fun place : ConfigPath => place.steps.length) same
  simp at sizes

theorem key_ne_element {name : String} {index : Nat} (plain : '[' ∉ name.toList) :
    draft.origin.key name ≠ elementPlace draft key index := by
  intro same
  have steps := congrArg ConfigPath.steps same
  rw [elementPlace, ConfigPath.element_key_steps, ConfigPath.key_steps] at steps
  have texts := List.singleton_inj.mp (List.append_cancel_left steps)
  rw [texts] at plain
  simp only [String.toList_append, List.mem_append, not_or] at plain
  exact plain.1.1.2 (by decide)

/-- What is told at an element of a list is told of that element, or else of a key that is
written like its place. -/
theorem told_at_element {e : ConfigError} {index : Nat} (side : (key, direction) ∈ listKeys)
    (located : e.location = some (elementPlace draft key index))
    (told : e ∈ (l.buildRule registry built draft).problems) :
    (∃ name, e = l.unknownKey draft.origin ruleKeys (l.ruleSubject draft) name) ∨
      ∃ listed value resolved, draft.body.lookup key = some (.array listed) ∧
        listed[index]? = some value ∧
          (∀ name, name ∈ resolved ↔ ResolvedBefore built direction listed index name) ∧
            l.MemberProblem registry built draft key direction resolved index value e := by
  have origin : draft.origin ≠ elementPlace draft key index := by
    intro same
    have sizes := congrArg (fun place : ConfigPath => place.steps.length) same
    rw [elementPlace, ConfigPath.element_key_steps, List.length_append] at sizes
    simp at sizes
  have members {other : String} {opposite : PluginDirection} (listed : (other, opposite) ∈ listKeys)
      (here : e ∈ (l.ruleMembers registry built draft other opposite).problems) :
      ∃ listed value resolved, draft.body.lookup key = some (.array listed) ∧
        listed[index]? = some value ∧
          (∀ name, name ∈ resolved ↔ ResolvedBefore built direction listed index name) ∧
            l.MemberProblem registry built draft key direction resolved index value e := by
    have bare : '[' ∉ other.toList := by
      simp only [listKeys, List.mem_cons, List.not_mem_nil, or_false] at listed
      rcases listed with ⟨rfl, rfl⟩ | ⟨rfl, rfl⟩ <;> decide
    rcases mem_ruleMembers.mp here with ⟨_, rfl⟩ | ⟨_, rfl⟩ | ⟨elements, found, rounds⟩ | ⟨_, _, _, rfl⟩
    · exact absurd (Option.some.inj located) origin
    · exact absurd (Option.some.inj located) (key_ne_element bare)
    · obtain ⟨position, value, resolved, there, known, wrong⟩ := told_element rounds
      obtain ⟨same, rfl⟩ := elementPlace_injective side listed
        (Option.some.inj (located.symm.trans wrong.place))
      cases same
      exact ⟨elements, value, resolved, found, there, known, wrong⟩
    · exact absurd (Option.some.inj located) (key_ne_element bare)
  rcases mem_buildRule.mp told with
    unknown | inputs | outputs | ⟨_, _, _, _, ⟨name, _, _, rfl⟩ | ⟨_, flag⟩⟩
  · obtain ⟨name, _, _, rfl⟩ := mem_rejectUnknownKeys.mp unknown
    exact .inl ⟨name, rfl⟩
  · exact .inr (members (by simp [listKeys]) inputs)
  · exact .inr (members (by simp [listKeys]) outputs)
  · exact absurd (Option.some.inj located) origin
  · obtain ⟨_, rfl⟩ := mem_optionalBool.mp flag
    exact absurd (Option.some.inj located) (key_ne_element (by decide))

theorem told_at_flag {e : ConfigError}
    (located : e.location = some (draft.origin.key "enabled"))
    (told : e ∈ (l.buildRule registry built draft).problems) :
    ∃ inputs outputs, MembersOk (built.Provides .input) draft.body "inputs" inputs ∧
      MembersOk (built.Provides .output) draft.body "outputs" outputs ∧
        ∀ name ∈ inputs, name ∉ outputs := by
  have members {key : String} {direction : PluginDirection} (side : (key, direction) ∈ listKeys) :
      e ∉ (l.ruleMembers registry built draft key direction).problems := by
    intro here
    rcases ruleMembers_place here with there | there | ⟨index, there⟩
    · exact origin_ne_key (Option.some.inj (there.symm.trans located))
    · have steps := congrArg ConfigPath.steps (Option.some.inj (there.symm.trans located))
      rw [ConfigPath.key_steps, ConfigPath.key_steps] at steps
      have same := List.singleton_inj.mp (List.append_cancel_left steps)
      simp only [listKeys, List.mem_cons, List.not_mem_nil, or_false] at side
      rcases side with ⟨rfl, rfl⟩ | ⟨rfl, rfl⟩ <;> exact absurd same (by decide)
    · exact key_ne_element (by decide) (Option.some.inj (located.symm.trans there))
  rcases mem_buildRule.mp told with
    unknown | inputs | outputs | ⟨inputs, outputs, first, second, ⟨name, _, _, rfl⟩ | ⟨apart, flag⟩⟩
  · obtain ⟨name, _, foreign, rfl⟩ := mem_rejectUnknownKeys.mp unknown
    have steps := congrArg ConfigPath.steps (Option.some.inj located)
    rw [ConfigPath.key_steps, ConfigPath.key_steps] at steps
    rw [List.singleton_inj.mp (List.append_cancel_left steps)] at foreign
    exact absurd (by decide) foreign
  · exact absurd inputs (members (by simp [listKeys]))
  · exact absurd outputs (members (by simp [listKeys]))
  · exact absurd (Option.some.inj located) origin_ne_key
  · exact ⟨inputs.1, outputs.1, ruleMembers_some.mp first, ruleMembers_some.mp second, apart⟩

/- What is told of an instance, by place. -/

/-- Nothing is told at the flag or in the config of an instance whose plugin is not known. -/
theorem told_past_plugin {e : ConfigError}
    (shallow : ∀ plugin known, l.PluginIs draft.body plugin known → l.Shallow draft.body)
    {place : ConfigPath} (located : e.location = some place)
    (past : place = draft.origin.key "enabled" ∨
      place.Under draft.origin.file (draft.origin.key "config").steps)
    (told : e ∈ (l.buildInstance draft).problems) :
    ∃ plugin known, l.PluginIs draft.body plugin known := by
  have elsewhere {name : String} (other : name ≠ "enabled") : place ≠ draft.origin.key name := by
    rintro rfl
    rcases past with same | ⟨_, last, more, steps⟩
    · have steps := congrArg ConfigPath.steps same
      rw [ConfigPath.key_steps, ConfigPath.key_steps] at steps
      exact other (List.singleton_inj.mp (List.append_cancel_left steps))
    · have sizes := congrArg List.length steps
      simp at sizes
  have inside : place ≠ draft.origin := by
    rintro rfl
    rcases past with same | ⟨_, last, more, steps⟩
    · exact origin_ne_key same
    · have sizes := congrArg List.length steps
      simp at sizes
  rcases (mem_buildInstance shallow).mp told with
    key | plugin | ⟨plugin, _, _, rfl⟩ | ⟨plugin, known, isKnown, _⟩
  · obtain ⟨name, _, foreign, rfl⟩ := mem_rejectUnknownKeys.mp key
    refine absurd (Option.some.inj located).symm (elsewhere ?_)
    rintro rfl
    exact foreign (by decide)
  · rcases requireString_problems plugin with ⟨_, rfl | rfl⟩
    · exact absurd (Option.some.inj located).symm inside
    · exact absurd (Option.some.inj located).symm (elsewhere (by decide))
  · exact absurd (Option.some.inj located).symm (elsewhere (by decide))
  · exact ⟨plugin, known, isKnown⟩

/- The instances that are built. -/

theorem settingsOf_some {body : Members} :
    (∃ settings, l.settingsOf body = some settings) ↔ ∃ config, ConfigOf body config := by
  unfold settingsOf ConfigOf
  cases body.lookup "config" with
  | none => exact iff_of_true ⟨_, rfl⟩ ⟨[], .inl ⟨rfl, rfl⟩⟩
  | some value =>
    cases value with
    | object config => exact iff_of_true ⟨_, rfl⟩ ⟨config, .inr rfl⟩
    | _ =>
      refine iff_of_false (fun ⟨_, same⟩ => by cases same) ?_
      rintro ⟨config, ⟨absent, _⟩ | same⟩
      · cases absent
      · cases same

theorem provides_supplied {documents : List Document} {name : Name} :
    (l.builtFrom (l.gathered documents).instanceDrafts).Provides direction name ↔
      l.Supplied documents direction name := by
  have nodup := gathered_nodup (l := l) documents .instances
  have drafted := exists_draft (l := l) documents .instances fun n body => n = name ∧
    ∃ plugin known, l.PluginIs body plugin known ∧ (∃ config, ConfigOf body config) ∧
      direction ∈ known.directions
  rw [Supplied, ← drafted]
  constructor
  · rintro ⟨configured, found, side⟩
    obtain ⟨draft, member, named, made⟩ := (lookup_builtFrom nodup).mp found
    obtain ⟨plugin, known, settings, isKnown, held, rfl⟩ := instanceOf_eq_some.mp made
    exact ⟨draft, member, named, plugin, known, isKnown, settingsOf_some.mp ⟨settings, held⟩, side⟩
  · rintro ⟨draft, member, named, plugin, known, isKnown, config, side⟩
    obtain ⟨settings, held⟩ := settingsOf_some.mpr config
    have made := instanceOf_eq_some.mpr ⟨plugin, known, settings, isKnown, held, rfl⟩
    exact ⟨_, (lookup_builtFrom nodup).mpr ⟨draft, member, named, made⟩, side⟩

theorem membersOk_congr {provided others : Name → Prop} (same : ∀ name, provided name ↔ others name)
    {body : Members} {names : List Name} :
    MembersOk provided body key names ↔ MembersOk others body key names := by
  rw [funext fun name => propext (same name)]

theorem lookup_built {documents : List Document} {draft : Draft}
    (member : draft ∈ (l.gathered documents).instanceDrafts) {configured : LoadedInstance} :
    (l.builtFrom (l.gathered documents).instanceDrafts).instances.lookup draft.name =
      some configured ↔ l.instanceOf draft = some configured := by
  have nodup := gathered_nodup (l := l) documents .instances
  refine (lookup_builtFrom nodup).trans ?_
  constructor
  · rintro ⟨other, also, named, made⟩
    cases List.inj_on_of_nodup_map nodup also member named
    exact made
  · exact fun made => ⟨draft, member, rfl, made⟩

theorem draft_of_reached {documents : List Document} {entry : String × Json} {body : Members}
    (reached : l.Reached (declared .instances documents) entry) (object : entry.2 = .object body) :
    ∃ draft ∈ (l.gathered documents).instanceDrafts, draft.name = normalizeName entry.1 ∧
      draft.body = body :=
  (exists_draft (l := l) documents .instances fun n b => n = normalizeName entry.1 ∧ b = body).mpr
    ⟨entry, reached, body, object, rfl, rfl⟩

/- How the messages differ. -/

theorem opens_apart {a b x y : String} (c d : Char) (first : a.toList.head? = some c)
    (second : b.toList.head? = some d) (other : c ≠ d) : a ++ x ≠ b ++ y := by
  intro same
  obtain ⟨rest, opens⟩ := List.head?_eq_some_iff.mp first
  obtain ⟨more, starts⟩ := List.head?_eq_some_iff.mp second
  have texts := congrArg String.toList same
  rw [String.toList_append, String.toList_append, opens, starts] at texts
  exact other (List.cons.inj texts).1

theorem listedTwice_message (name : Name) (index : Nat) :
    (l.listedTwice draft key name index).message = l.ruleSubject draft ++
      (": " ++ (l.unicode.repr name ++ (" is listed twice in \"" ++ (key ++ "\"")))) := by
  simp only [listedTwice, String.append_assoc]
  rfl

theorem unknownInstance_message (name : Name) (index : Nat) :
    (l.unknownInstance registry draft key name index).message = l.ruleSubject draft ++
      (" references unknown instance " ++ (l.unicode.repr name ++ l.suggestionFor registry name)) := by
  simp only [unknownInstance, String.append_assoc]
  rfl

theorem wrongSide_message (draft : Draft) (key : String) (configured : LoadedInstance) (name : Name)
    (index : Nat) :
    ∃ more, (l.wrongSide draft key configured name index).message =
      l.ruleSubject draft ++ (" lists " ++ more) := by
  simp only [wrongSide, String.append_assoc]
  exact ⟨_, rfl⟩

theorem unknownKey_message (draft : Draft) (place : ConfigPath) (allowed : List String)
    (name : String) :
    ∃ more, (l.unknownKey place allowed (l.ruleSubject draft) name).message =
      l.ruleSubject draft ++ (": " ++ ("unknown key " ++ more)) := by
  simp only [unknownKey, String.append_assoc]
  exact ⟨_, rfl⟩

theorem listedTwice_ne_unknownKey (name other : Name) (index : Nat) :
    l.listedTwice draft key name index ≠
      l.unknownKey draft.origin ruleKeys (l.ruleSubject draft) other := by
  intro same
  obtain ⟨more, message⟩ := l.unknownKey_message draft draft.origin ruleKeys other
  have texts := congrArg ConfigError.message same
  rw [listedTwice_message, message, String.append_right_inj, String.append_right_inj] at texts
  obtain ⟨quote, quoting, shown⟩ := l.unicode.repr_toList name
  refine opens_apart quote 'u' (by rw [shown]; rfl) (by decide) ?_ texts
  rcases quoting with rfl | rfl <;> decide

theorem wrongSide_ne_unknownKey (configured : LoadedInstance) (name other : Name) (index : Nat) :
    l.wrongSide draft key configured name index ≠
      l.unknownKey draft.origin ruleKeys (l.ruleSubject draft) other := by
  intro same
  obtain ⟨more, message⟩ := l.unknownKey_message draft draft.origin ruleKeys other
  obtain ⟨rest, also⟩ := l.wrongSide_message draft key configured name index
  have texts := congrArg ConfigError.message same
  rw [message, also, String.append_right_inj] at texts
  exact opens_apart ' ' ':' (by decide) (by decide) (by decide) texts

theorem listedTwice_ne_unknownInstance (name other : Name) (index also : Nat) :
    l.listedTwice draft key name index ≠ l.unknownInstance registry draft key other also := by
  intro same
  have texts := congrArg ConfigError.message same
  rw [listedTwice_message, unknownInstance_message, String.append_right_inj] at texts
  exact opens_apart ':' ' ' (by decide) (by decide) (by decide) texts

theorem listedTwice_ne_wrongSide (configured : LoadedInstance) (name other : Name)
    (index also : Nat) :
    l.listedTwice draft key name index ≠ l.wrongSide draft key configured other also := by
  intro same
  obtain ⟨rest, message⟩ := l.wrongSide_message draft key configured other also
  have texts := congrArg ConfigError.message same
  rw [listedTwice_message, message, String.append_right_inj] at texts
  exact opens_apart ':' ' ' (by decide) (by decide) (by decide) texts

/- Each defect is told exactly when it shows. -/

theorem Has.under {documents : List Document} {space : Namespace} {kind : Defect} {e : ConfigError}
    (defect : l.Has documents draft space kind e) :
    ∃ place, e.location = some place ∧ place.Under draft.origin.file draft.origin.steps := by
  have element (key : String) (index : Nat) :
      (elementPlace draft key index).Under draft.origin.file draft.origin.steps :=
    elementPlace_under draft key index
  cases defect with
  | instanceKey => exact ⟨_, rfl, draft.origin.under_key _⟩
  | ruleKey => exact ⟨_, rfl, draft.origin.under_key _⟩
  | instanceEnabled => exact ⟨_, rfl, draft.origin.under_key _⟩
  | ruleEnabled => exact ⟨_, rfl, draft.origin.under_key _⟩
  | secret found undefined =>
    obtain ⟨place, located, file, last, more, steps⟩ := undefined_under undefined
    refine ⟨place, located, file, "config", last :: more, ?_⟩
    rw [steps, ConfigPath.key_steps, List.append_assoc]
    rfl
  | emptyList => exact ⟨_, rfl, draft.origin.under_key _⟩
  | noList => exact ⟨_, rfl, draft.origin.under_key _⟩
  | notAName => exact ⟨_, rfl, element _ _⟩
  | unknown => exact ⟨_, rfl, element _ _⟩
  | wrongSide => exact ⟨_, rfl, element _ _⟩
  | repeated => exact ⟨_, rfl, element _ _⟩

theorem instance_shows {documents : List Document} {kind : Defect} {e : ConfigError}
    (shallow : ∀ plugin known, l.PluginIs draft.body plugin known → l.Shallow draft.body)
    (defect : l.Has documents draft .instances kind e) :
    e ∈ (l.buildInstance draft).problems ↔ l.Shows documents .instances draft.body kind := by
  cases defect with
  | instanceKey there unknown =>
    refine iff_of_true ((mem_buildInstance shallow).mpr (.inl ?_)) trivial
    exact mem_rejectUnknownKeys.mpr ⟨_, there, unknown, rfl⟩
  | instanceEnabled wrong =>
    refine ⟨told_past_plugin shallow rfl (.inl rfl), ?_⟩
    rintro ⟨plugin, known, isKnown⟩
    refine (mem_buildInstance shallow).mpr (.inr (.inr (.inr ⟨plugin, known, isKnown, .inl ?_⟩)))
    exact mem_optionalBool.mpr ⟨wrong, rfl⟩
  | secret found undefined =>
    obtain ⟨place, located, under⟩ := undefined_under undefined
    refine ⟨told_past_plugin shallow located (.inr under), ?_⟩
    rintro ⟨plugin, known, isKnown⟩
    refine (mem_buildInstance shallow).mpr (.inr (.inr (.inr ⟨plugin, known, isKnown, .inr ?_⟩)))
    exact undefined_mem_buildSettings (shallow plugin known isKnown) found undefined

theorem drafted_of_reached {documents : List Document} {entry : String × Json}
    (reached : l.Reached (declared .instances documents) entry) :
    l.Drafted documents (normalizeName entry.1) := ⟨entry, reached, rfl⟩

theorem rule_shows {documents : List Document} {kind : Defect} {e : ConfigError}
    (defect : l.Has documents draft .rules kind e) :
    e ∈ (l.buildRule (l.gathered documents).registry
      (l.builtFrom (l.gathered documents).instanceDrafts) draft).problems ↔
        l.Shows documents .rules draft.body kind := by
  cases defect with
  | ruleKey there unknown =>
    refine iff_of_true (mem_buildRule.mpr (.inl ?_)) trivial
    exact mem_rejectUnknownKeys.mpr ⟨_, there, unknown, rfl⟩
  | ruleEnabled wrong =>
    have same (direction : PluginDirection) (name : Name) :
        (l.builtFrom (l.gathered documents).instanceDrafts).Provides direction name ↔
          l.Supplied documents direction name := provides_supplied
    constructor
    · intro told
      obtain ⟨inputs, outputs, first, second, apart⟩ := told_at_flag rfl told
      exact ⟨inputs, outputs, (membersOk_congr (same .input)).mp first,
        (membersOk_congr (same .output)).mp second, apart⟩
    · rintro ⟨inputs, outputs, first, second, apart⟩
      refine mem_buildRule.mpr (.inr (.inr (.inr ⟨⟨inputs, first.2.1⟩, ⟨outputs, second.2.1⟩,
        ruleMembers_some.mpr ((membersOk_congr (same .input)).mpr first),
        ruleMembers_some.mpr ((membersOk_congr (same .output)).mpr second), .inr ⟨apart, ?_⟩⟩)))
      exact mem_optionalBool.mpr ⟨wrong, rfl⟩
  | emptyList side found =>
    exact iff_of_true (mem_buildRule_members side (mem_ruleMembers.mpr (.inr (.inl ⟨found, rfl⟩))))
      trivial
  | noList side found other =>
    refine iff_of_true (mem_buildRule_members side (mem_ruleMembers.mpr ?_)) trivial
    exact .inr (.inr (.inr ⟨_, found, other, rfl⟩))
  | notAName side found other =>
    obtain ⟨listed, found, there⟩ := found
    obtain ⟨resolved, _, told⟩ := element_told there
    exact iff_of_true (mem_buildRule_members side
      (mem_ruleMembers_list found (told _ (.notAName other)))) trivial
  | unknown side found absent =>
    obtain ⟨listed, found, there⟩ := found
    obtain ⟨resolved, before, told⟩ := element_told there
    obtain ⟨none, whole⟩ := not_or.mp (mt built_or_broken.mp absent)
    refine iff_of_true (mem_buildRule_members side (mem_ruleMembers_list found
      (told _ (.unknown (fun member => ?_) none whole)))) trivial
    obtain ⟨⟨configured, lookup, _⟩, _⟩ := (before _).mp member
    exact none (AList.lookup_isSome.mp (Option.isSome_iff_exists.mpr ⟨configured, lookup⟩))
  | @wrongSide key direction index text entry body known configured side found reached object named
      isKnown sides lacks =>
    obtain ⟨listed, found, there⟩ := found
    obtain ⟨draft', member, name, rfl⟩ := draft_of_reached reached object
    have made {other : LoadedInstance} (lookup : (l.builtFrom
        (l.gathered documents).instanceDrafts).instances.lookup (normalizeName text) = some other) :
        other.plugin = configured.plugin ∧ other.directions = configured.directions ∧
          ∃ config, ConfigOf draft'.body config := by
      rw [← named, ← name, lookup_built member] at lookup
      obtain ⟨plugin, also, settings, isAlso, held, rfl⟩ := instanceOf_eq_some.mp lookup
      cases isKnown.1.symm.trans isAlso.1
      cases isKnown.2.symm.trans isAlso.2
      exact ⟨rfl, sides.symm, settingsOf_some.mp ⟨settings, held⟩⟩
    have unprovided : ¬ (l.builtFrom (l.gathered documents).instanceDrafts).Provides direction
        (normalizeName text) := by
      rintro ⟨other, lookup, provides⟩
      rw [(made lookup).2.1, sides] at provides
      exact lacks provides
    constructor
    · intro told
      rcases told_at_element side rfl told with
        ⟨name, same⟩ | ⟨elements, value, resolved, also, at_, before, wrong⟩
      · exact absurd same (wrongSide_ne_unknownKey _ _ _ _)
      · cases found.symm.trans also
        cases there.symm.trans at_
        generalize l.wrongSide draft key configured (normalizeName text) index = e at wrong
        cases wrong with
        | notAName other => exact absurd rfl (other text)
        | listedTwice again => exact absurd ((before _).mp again).1 unprovided
        | unknown _ absent whole =>
          have drafted := built_or_broken.mpr (drafted_of_reached reached)
          rw [named] at drafted
          exact absurd drafted (not_or.mpr ⟨absent, whole⟩)
        | wrongSide _ lookup _ => exact (made lookup).2.2
    · intro config
      obtain ⟨settings, held⟩ := settingsOf_some.mpr config
      have built := instanceOf_eq_some.mpr ⟨_, known, settings, isKnown, held, rfl⟩
      have lookup := (lookup_built member).mpr built
      rw [name, named] at lookup
      obtain ⟨resolved, before, told⟩ := element_told there
      have fresh : normalizeName text ∉ resolved := fun again => unprovided ((before _).mp again).1
      have alike : l.wrongSide draft key configured (normalizeName text) index =
          l.wrongSide draft key ⟨normalizeName text, configured.plugin, known.directions, settings,
            flagAt draft'.body "enabled" true, draft'.origin⟩ (normalizeName text) index := by
        simp only [wrongSide, sides]
      rw [alike]
      exact mem_buildRule_members side
        (mem_ruleMembers_list found (told _ (.wrongSide fresh lookup lacks)))
  | @repeated key direction index earlier text first side found again order same =>
    obtain ⟨listed, found, there⟩ := found
    obtain ⟨elements, also, prior⟩ := again
    cases found.symm.trans also
    constructor
    · intro told
      rcases told_at_element side rfl told with
        ⟨name, same⟩ | ⟨elements, value, resolved, also, at_, before, wrong⟩
      · exact absurd same (listedTwice_ne_unknownKey _ _ _)
      · cases found.symm.trans also
        cases there.symm.trans at_
        have error : ∃ e, e = l.listedTwice draft key (normalizeName text) index := ⟨_, rfl⟩
        obtain ⟨e, is⟩ := error
        rw [← is] at wrong
        cases wrong with
        | notAName other => exact absurd rfl (other text)
        | listedTwice again => exact provides_supplied.mp ((before _).mp again).1
        | unknown => exact absurd is.symm (listedTwice_ne_unknownInstance _ _ _ _)
        | wrongSide => exact absurd is.symm (listedTwice_ne_wrongSide _ _ _ _ _)
    · intro supplied
      obtain ⟨resolved, before, told⟩ := element_told there
      refine mem_buildRule_members side (mem_ruleMembers_list found (told _ (.listedTwice ?_)))
      exact (before _).mpr ⟨provides_supplied.mpr supplied, earlier, order, first, prior, same⟩

/-- A defect of one field of a declaration is told exactly when the documents can be managed,
no earlier declaration has its name, and the defect shows. -/
theorem told_iff_shows (l : Loader) (directory : String) (documents : List Document)
    (space : Namespace) (path : ConfigPath) (entry : String × Json) (body : Members)
    (kind : Defect) (e : ConfigError) (distinct : Distinct documents)
    (declares : .named space path entry ∈ partsIn documents) (valid : l.Declarable entry)
    (object : entry.2 = .object body)
    (defect : l.Has documents (l.draftAt path entry.1 body) space kind e) :
    l.Told directory documents e ↔ l.Manageable documents ∧ l.First documents space path entry ∧
      l.Shows documents space body kind := by
  obtain ⟨place, located, under⟩ := defect.under
  rw [told_below_iff distinct declares valid object located under]
  refine and_congr_right fun manageable => and_congr_right fun first => ?_
  cases space with
  | instances =>
    have member := mem_drafts.mpr ⟨path, entry, first, valid, body, object, rfl⟩
    exact instance_shows (buildInstances_returns.mp (manageable_iff.mp manageable).2 _ member) defect
  | rules => exact rule_shows defect

/-- An instance whose flag is no boolean. -/
def withFlag (plugin : String) : Members :=
  [("plugin", .string plugin), ("enabled", .string "yes")]

def flagDocuments (plugin : String) : List Document :=
  [("/etc/noti-mapper.d/a.json", [("instances", .object [("In", .object (withFlag plugin))])])]

def flagPath : ConfigPath := ConfigPath.key ⟨"/etc/noti-mapper.d/a.json", []⟩ "instances"

/-- The flag that is told. -/
def flagError : ConfigError :=
  ⟨"instance 'In': \"enabled\" must be true or false",
    some ⟨"/etc/noti-mapper.d/a.json", ["instances", "'In'", "enabled"]⟩⟩

theorem flag_defect (plugin : String) :
    plain.Has (flagDocuments plugin) (plain.draftAt flagPath "In" (withFlag plugin)) .instances
      .enabled flagError := by
  have named : normalizeName "In" = "In" ∧ plain.unicode.repr "In" = "'In'" := by decide +kernel
  have error : flagError =
      notBoolean (plain.instanceSubject (plain.draftAt flagPath "In" (withFlag plugin)))
        (plain.draftAt flagPath "In" (withFlag plugin)).origin "enabled" := by
    simp only [instanceSubject, draftAt, ConfigPath.named, named.1, named.2]
    rfl
  rw [error]
  refine .instanceEnabled fun boolean => ?_
  obtain ⟨flag, same⟩ := boolean (.string "yes") rfl
  cases same

theorem flag_declared (plugin : String) :
    .named .instances flagPath ("In", .object (withFlag plugin)) ∈ partsIn (flagDocuments plugin) ∧
      plain.Declarable ("In", .object (withFlag plugin)) := by
  have valid : plain.unicode.findNameProblems "In" = [] := by decide +kernel
  exact ⟨List.mem_cons_self, plain.unicode.findNameProblems_nil.mp valid, withFlag plugin, rfl⟩

theorem flag_manageable : plain.Manageable (flagDocuments "file_input") := by
  constructor
  · intro body found
    cases found
  · rintro entry ⟨_, before, after, split, _⟩ body object plugin known _ config found
    have member : entry ∈ declared .instances (flagDocuments "file_input") := by
      rw [split]
      exact List.mem_append_right _ List.mem_cons_self
    cases List.mem_singleton.mp member
    cases object
    cases found

/-- The flag is told when the plugin is known. -/
theorem flag_told : plain.Told "/etc/noti-mapper.d" (flagDocuments "file_input") flagError := by
  have distinct : Distinct (flagDocuments "file_input") := by
    constructor
    · decide
    · decide
    · intro document only member there body object
      cases List.mem_singleton.mp only
      cases List.mem_singleton.mp there
      cases object
      decide
  obtain ⟨declares, valid⟩ := flag_declared "file_input"
  refine (told_iff_shows plain _ _ .instances flagPath _ (withFlag "file_input") .enabled flagError
    distinct declares valid rfl (flag_defect "file_input")).mpr ⟨flag_manageable, ?_, ?_⟩
  · exact ⟨[], [], rfl, fun _ _ before => by cases before⟩
  · exact ⟨"file_input", { directions := [.input] }, rfl, rfl⟩

/-- The same flag of the same instance is not told when the plugin is not known. -/
theorem plugin_masks_flag :
    ∃ e, (plain.Has (flagDocuments "file_input")
          (plain.draftAt flagPath "In" (withFlag "file_input")) .instances .enabled e ∧
        plain.Told "/etc/noti-mapper.d" (flagDocuments "file_input") e) ∧
      .named .instances flagPath ("In", .object (withFlag "printer")) ∈
        partsIn (flagDocuments "printer") ∧
      plain.Declarable ("In", .object (withFlag "printer")) ∧
      plain.Has (flagDocuments "printer") (plain.draftAt flagPath "In" (withFlag "printer"))
        .instances .enabled e ∧
      ¬ plain.Told "/etc/noti-mapper.d" (flagDocuments "printer") e := by
  have returned : (plain.check "/etc/noti-mapper.d"
      (some (parsed (flagDocuments "file_input")))).result.isOk = true := by decide +kernel
  have reported : flagError ∈ (plain.check "/etc/noti-mapper.d"
      (some (parsed (flagDocuments "file_input")))).problems := by decide +kernel
  have masked : flagError ∉ (plain.check "/etc/noti-mapper.d"
      (some (parsed (flagDocuments "printer")))).problems := by decide +kernel
  have returns : Returns (plain.check "/etc/noti-mapper.d"
      (some (parsed (flagDocuments "file_input")))) := by
    cases result : (plain.check "/etc/noti-mapper.d"
        (some (parsed (flagDocuments "file_input")))).result with
    | error raised =>
      rw [result] at returned
      cases returned
    | ok c => exact ⟨c, result⟩
  refine ⟨flagError, ⟨flag_defect "file_input", mem_configurationError.mpr ⟨returns, reported⟩⟩,
    (flag_declared "printer").1, (flag_declared "printer").2, flag_defect "printer", ?_⟩
  exact fun told => masked (mem_configurationError.mp told).2

end Loader

end NotiMapper
