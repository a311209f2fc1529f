import NotiMapper.Instances

/-! What building and retaining leave. The objects that are built have identities of their
own; a table of live instances has an object once. -/
namespace NotiMapper

abbrev LiveEntry := Sigma fun _ : Name => LiveInstance

def LiveInstance.objects (live : LiveInstance) : List PluginRef :=
  live.outputPlugin.toList ++ live.inputPlugin.toList

def objectsOf (entries : List LiveEntry) : List PluginRef :=
  entries.flatMap fun entry => entry.2.objects

/-- The instance has what its configuration says, and an object in each direction that its
plugin has. -/
def MadeFor (plugins : Table LoadedPlugin) (configured : InstanceConfig) (live : LiveInstance) :
    Prop :=
  live.matches configured = true ∧ ∃ loaded, plugins.lookup configured.plugin = some loaded ∧
    live.inputPlugin.isSome = loaded.inputClass ∧ live.outputPlugin.isSome = loaded.outputClass

/-- No object is in two places. -/
structure OnceEach (live : Table LiveInstance) : Prop where
  within : ∀ name l, live.lookup name = some l → l.objects.Nodup
  across : ∀ n m l k, live.lookup n = some l → live.lookup m = some k →
    ∀ plugin ∈ l.objects, plugin ∈ k.objects → n = m

/-- What building these instances leaves, with identities from `first` on. -/
structure BuiltFrom (plugins : Table LoadedPlugin) (configured : List InstanceConfig)
    (first next : PluginRef) (built : Table LiveInstance) : Prop where
  le : first ≤ next
  names : ∀ name, name ∈ built ↔ ∃ c ∈ configured, c.name = name
  made : ∀ c ∈ configured, ∀ l, built.lookup c.name = some l → MadeFor plugins c l
  fresh : ∀ name l, built.lookup name = some l → ∀ plugin ∈ l.objects,
    first ≤ plugin ∧ plugin < next
  once : OnceEach built

theorem mem_objectsOf {live : Table LiveInstance} {plugin : PluginRef} :
    plugin ∈ objectsOf live.entries ↔
      ∃ name l, live.lookup name = some l ∧ plugin ∈ l.objects := by
  rw [objectsOf, List.mem_flatMap]
  constructor
  · rintro ⟨⟨name, l⟩, member, own⟩
    exact ⟨name, l, AList.mem_lookup_iff.mpr member, own⟩
  · rintro ⟨name, l, found, own⟩
    exact ⟨⟨name, l⟩, AList.mem_lookup_iff.mp found, own⟩

/-- Entries of one table, each with its objects, have every object once. -/
theorem OnceEach.nodup {live : Table LiveInstance} (once : OnceEach live)
    {entries : List LiveEntry} (part : entries.Sublist live.entries) :
    (objectsOf entries).Nodup := by
  rw [objectsOf, List.nodup_flatMap]
  have found {entry : LiveEntry} (member : entry ∈ entries) :
      live.lookup entry.1 = some entry.2 := AList.mem_lookup_iff.mpr (part.subset member)
  refine ⟨fun entry member => once.within _ _ (found member), ?_⟩
  have keys : entries.Pairwise fun a b => a.1 ≠ b.1 :=
    (List.pairwise_map.mp live.nodupKeys).sublist part
  refine keys.imp_of_mem fun {a b} first second apart => ?_
  show List.Disjoint a.2.objects b.2.objects
  rw [List.disjoint_left]
  intro plugin own other
  exact apart (once.across _ _ _ _ (found first) (found second) plugin own other)

/- Building. -/

theorem Workshop.make_ok {shop : Workshop} {name : Name} {direction : PluginDirection}
    {exposed : Bool} {next after : PluginRef} {made : Option PluginRef}
    (ran : shop.make name direction exposed next = .ok (made, after)) :
    made.isSome = exposed ∧ next ≤ after ∧
      ∀ plugin ∈ made.toList, plugin = next ∧ after = next + 1 := by
  unfold make at ran
  split at ran
  · rename_i class_
    cases constructed : shop.construct name direction with
    | error message =>
      rw [constructed] at ran
      cases ran
    | ok _ =>
      rw [constructed] at ran
      cases ran
      refine ⟨class_.symm, Nat.le_succ next, fun plugin member => ?_⟩
      exact ⟨List.mem_singleton.mp member, rfl⟩
  · rename_i class_
    cases ran
    refine ⟨(Bool.not_eq_true _ ▸ class_).symm, Nat.le_refl next, fun plugin member => ?_⟩
    cases member

theorem Workshop.buildInstance_ok {shop : Workshop} {built after : Table LiveInstance}
    {configured : InstanceConfig} {next last : PluginRef}
    (ran : shop.buildInstance (built, next) configured = .ok (after, last)) :
    ∃ l, after = built.insert configured.name l ∧ MadeFor shop.plugins configured l ∧
      next ≤ last ∧ l.objects.Nodup ∧ ∀ plugin ∈ l.objects, next ≤ plugin ∧ plugin < last := by
  unfold buildInstance at ran
  cases found : shop.plugins.lookup configured.plugin with
  | none =>
    rw [found] at ran
    cases ran
  | some loaded =>
    rw [found] at ran
    simp only [bind, Except.bind] at ran
    split at ran
    · cases ran
    · rename_i first inputs
      obtain ⟨input, middle⟩ := first
      simp only at ran
      split at ran
      · cases ran
      · rename_i second outputs
        obtain ⟨output, final⟩ := second
        cases ran
        obtain ⟨inSome, low, inputOne⟩ := make_ok inputs
        obtain ⟨outSome, high, outputOne⟩ := make_ok outputs
        have matched : (LiveInstance.mk configured.plugin configured.settings input output).matches
            configured = true := by simp [LiveInstance.matches]
        refine ⟨_, rfl, ⟨matched, loaded, found, inSome, outSome⟩, Nat.le_trans low high, ?_, ?_⟩
        · cases input with
          | none => cases output <;> simp [LiveInstance.objects]
          | some i =>
            cases output with
            | none => simp [LiveInstance.objects]
            | some o =>
              have i := inputOne i List.mem_cons_self
              have o := outputOne o List.mem_cons_self
              simp only [LiveInstance.objects, Option.toList_some, List.singleton_append,
                List.nodup_cons, List.mem_singleton, List.not_mem_nil, not_false_eq_true,
                List.nodup_nil, and_true]
              rw [o.1, i.1, i.2]
              exact Nat.succ_ne_self next
        · intro plugin member
          simp only [LiveInstance.objects, List.mem_append] at member
          rcases member with member | member
          · obtain ⟨rfl, rfl⟩ := outputOne plugin member
            exact ⟨low, Nat.lt_succ_self _⟩
          · obtain ⟨rfl, rfl⟩ := inputOne plugin member
            exact ⟨Nat.le_refl _, Nat.lt_of_succ_le high⟩

theorem BuiltFrom.insert {plugins : Table LoadedPlugin} {done : List InstanceConfig}
    {first next last : PluginRef} {built : Table LiveInstance} {configured : InstanceConfig}
    {l : LiveInstance} (from_ : BuiltFrom plugins done first next built)
    (new : configured.name ∉ done.map (·.name)) (made : MadeFor plugins configured l)
    (le : next ≤ last) (nodup : l.objects.Nodup)
    (fresh : ∀ plugin ∈ l.objects, next ≤ plugin ∧ plugin < last) :
    BuiltFrom plugins (done ++ [configured]) first last (built.insert configured.name l) := by
  have old : ∀ name k, (built.insert configured.name l).lookup name = some k →
      name = configured.name ∧ k = l ∨ name ≠ configured.name ∧ built.lookup name = some k := by
    intro name k found
    by_cases same : name = configured.name
    · subst same
      rw [AList.lookup_insert] at found
      exact .inl ⟨rfl, (Option.some.inj found).symm⟩
    · rw [AList.lookup_insert_ne same] at found
      exact .inr ⟨same, found⟩
  refine ⟨Nat.le_trans from_.le le, fun name => ?_, fun c member k found => ?_,
    fun name k found plugin own => ?_, ⟨fun name k found => ?_, ?_⟩⟩
  · rw [AList.mem_insert, from_.names]
    simp only [List.mem_append, List.mem_singleton, or_and_right, exists_or, exists_eq_left]
    rw [or_comm, eq_comm]
  · rcases old _ _ found with ⟨same, rfl⟩ | ⟨apart, found⟩
    · rcases List.mem_append.mp member with earlier | last
      · exact absurd (same ▸ List.mem_map_of_mem earlier) new
      · exact List.mem_singleton.mp last ▸ made
    · rcases List.mem_append.mp member with earlier | last
      · exact from_.made c earlier k found
      · exact absurd (congrArg _ (List.mem_singleton.mp last)) apart
  · rcases old _ _ found with ⟨_, rfl⟩ | ⟨_, found⟩
    · have bounds := fresh plugin own
      exact ⟨Nat.le_trans from_.le bounds.1, bounds.2⟩
    · have bounds := from_.fresh name k found plugin own
      exact ⟨bounds.1, Nat.lt_of_lt_of_le bounds.2 le⟩
  · rcases old _ _ found with ⟨_, rfl⟩ | ⟨_, found⟩
    · exact nodup
    · exact from_.once.within name k found
  · intro n m k j foundN foundM plugin ownN ownM
    rcases old _ _ foundN with ⟨sameN, newN⟩ | ⟨_, oldN⟩
    · rcases old _ _ foundM with ⟨sameM, _⟩ | ⟨_, oldM⟩
      · exact sameN.trans sameM.symm
      · have low := fresh plugin (newN ▸ ownN)
        have high := from_.fresh m j oldM plugin ownM
        exact absurd low.1 (Nat.not_le_of_lt high.2)
    · rcases old _ _ foundM with ⟨_, newM⟩ | ⟨_, oldM⟩
      · have low := fresh plugin (newM ▸ ownM)
        have high := from_.fresh n k oldN plugin ownN
        exact absurd low.1 (Nat.not_le_of_lt high.2)
      · exact from_.once.across n m k j oldN oldM plugin ownN ownM

theorem BuiltFrom.foldlM {shop : Workshop} {first next last : PluginRef}
    {configured done : List InstanceConfig} {built after : Table LiveInstance}
    (from_ : BuiltFrom shop.plugins done first next built)
    (nodup : ((done ++ configured).map (·.name)).Nodup)
    (ran : configured.foldlM shop.buildInstance (built, next) = .ok (after, last)) :
    BuiltFrom shop.plugins (done ++ configured) first last after := by
  induction configured generalizing done next built with
  | nil =>
    cases ran
    rw [List.append_nil]
    exact from_
  | cons c configured ih =>
    rw [List.foldlM_cons] at ran
    cases made : shop.buildInstance (built, next) c with
    | error message =>
      rw [made] at ran
      cases ran
    | ok round =>
      rw [made] at ran
      obtain ⟨middle, then_⟩ := round
      obtain ⟨l, rfl, made, le, objects, fresh⟩ := Workshop.buildInstance_ok made
      have order : done ++ c :: configured = (done ++ [c]) ++ configured := by simp
      have new : c.name ∉ done.map (·.name) := by
        rw [List.map_append, List.map_cons] at nodup
        intro member
        exact (List.nodup_append.mp nodup).2.2 _ member _ List.mem_cons_self rfl
      rw [order] at nodup ⊢
      exact ih (from_.insert new made le objects fresh) nodup ran

theorem Configuration.enabledInstances_nodup (c : Configuration) :
    (c.enabledInstances.map (·.name)).Nodup := by
  have sorted : c.enabledInstances.Perm (c.instances.filter (·.enabled)) :=
    List.perm_insertionSort _ _
  have kept : ((c.instances.filter (·.enabled)).map (·.name)).Nodup :=
    c.instances_nodup.sublist (List.filter_sublist.map _)
  exact (sorted.map _).nodup_iff.mpr kept

theorem Workshop.buildInstances_built {shop : Workshop} {first last : PluginRef}
    {configuration : Configuration} {built : Table LiveInstance}
    (ran : shop.buildInstances first configuration = .ok (built, last)) :
    BuiltFrom shop.plugins configuration.enabledInstances first last built := by
  have none : BuiltFrom shop.plugins [] first first ∅ :=
    ⟨Nat.le_refl _, fun name => by simp, fun c member => (by cases member),
      fun name l found => (by cases found), ⟨fun name l found => (by cases found),
        fun n m l k found => (by cases found)⟩⟩
  exact none.foldlM configuration.enabledInstances_nodup ran

/- Retaining. -/

theorem retained_eq_some {previous : Table LiveInstance} {configuration : Configuration}
    {name : Name} {l : LiveInstance} : retained previous configuration name = some l ↔
      previous.lookup name = some l ∧
        ∃ c ∈ configuration.instances, c.name = name ∧ l.matches c = true := by
  rw [retained, Option.filter_eq_some_iff]
  refine and_congr_right fun _ => ?_
  rw [Option.any_eq_true]
  constructor
  · rintro ⟨c, found, matched⟩
    have named : c.name = name := by simpa using List.find?_some found
    exact ⟨c, List.mem_of_find?_eq_some found, named, matched⟩
  · rintro ⟨c, member, rfl, matched⟩
    refine ⟨c, ?_, matched⟩
    obtain ⟨other, found⟩ : ∃ other, configuration.instances.find? (·.name = c.name) = some other :=
      Option.isSome_iff_exists.mp
        (List.find?_isSome.mpr ⟨c, member, decide_eq_true rfl⟩)
    have named : other.name = c.name := by simpa using List.find?_some found
    rw [found, List.inj_on_of_nodup_map configuration.instances_nodup
      (List.mem_of_find?_eq_some found) member named]

theorem lookup_retain (previous : Table LiveInstance) (configuration : Configuration)
    (rebuilt : Table LiveInstance) (name : Name) :
    (retain previous configuration rebuilt).lookup name =
      (rebuilt.lookup name).map fun l => (retained previous configuration name).getD l := by
  have looped (f : Table LiveInstance → Name → Table LiveInstance)
      (step : ∀ table name, f table name =
        (retained previous configuration name).elim table (table.insert name))
      (names : List Name) (table : Table LiveInstance) : (names.foldl f table).lookup name =
      if name ∈ names then (retained previous configuration name).or (table.lookup name)
      else table.lookup name := by
    induction names generalizing table with
    | nil => rfl
    | cons first names ih =>
      rw [List.foldl_cons, ih, step]
      by_cases same : name = first
      · subst same
        cases retained previous configuration name with
        | none => simp
        | some existing => simp
      · cases retained previous configuration first with
        | none => simp [same]
        | some existing => simp [same, AList.lookup_insert_ne]
  refine (looped _ (fun _ name => ?_) rebuilt.keys rebuilt).trans ?_
  · cases retained previous configuration name <;> rfl
  by_cases known : name ∈ rebuilt
  · obtain ⟨l, found⟩ := Option.isSome_iff_exists.mp (AList.lookup_isSome.mpr known)
    rw [if_pos (AList.mem_keys.mp known), found]
    cases retained previous configuration name <;> rfl
  · rw [if_neg (mt AList.mem_keys.mpr known), AList.lookup_eq_none.mpr known]
    rfl

theorem lookup_pluginsOf (side : LiveInstance → Option PluginRef) (live : Table LiveInstance)
    (name : Name) : (pluginsOf side live).lookup name = (live.lookup name).bind side := by
  have looped (f : Table PluginRef → LiveEntry → Table PluginRef)
      (step : ∀ plugins entry, f plugins entry = (side entry.2).elim plugins (plugins.insert entry.1))
      (entries : List LiveEntry) (nodup : (entries.map Sigma.fst).Nodup)
      (plugins : Table PluginRef) : (entries.foldl f plugins).lookup name =
      ((entries.dlookup name).bind side).or (plugins.lookup name) := by
    induction entries generalizing plugins with
    | nil => rfl
    | cons entry entries ih =>
      obtain ⟨key, l⟩ := entry
      rw [List.map_cons, List.nodup_cons] at nodup
      rw [List.foldl_cons, ih nodup.2, step]
      by_cases same : name = key
      · subst same
        have absent : entries.dlookup name = none := by
          rw [List.dlookup_eq_none]
          exact nodup.1
        rw [absent, List.dlookup_cons_eq]
        cases found : side l <;> simp [found]
      · rw [List.dlookup_cons_ne _ _ same]
        cases found : side l <;> simp [same, AList.lookup_insert_ne]
  refine (looped _ (fun _ entry => ?_) live.entries live.nodupKeys ∅).trans ?_
  · cases side entry.2 <;> rfl
  rw [AList.lookup_empty, Option.or_none]
  rfl

end NotiMapper
