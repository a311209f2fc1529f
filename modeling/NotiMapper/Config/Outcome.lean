import NotiMapper.Config.JsonFile
import NotiMapper.Config.WellFormed

/-! How a load ends, for any bytes in the files. -/
namespace NotiMapper

open Python Report

namespace Loader

variable (l : Loader) (limit : Nat)

/-- `_parse`. -/
def parseFile (file : String × Content) : ParsedFile :=
  (file.1,
    match readObject l.unicode limit file.2 with
    | .ok members => return some members
    | .error (.jsonFileError detail) => do
      problem detail (some ⟨file.1, []⟩)
      return none
    | .error (.escaped raised) => raise raised)

/-- `load_configuration`, where a directory has these files. -/
def loadConfiguration (directory : String) (files : List (String × Content)) :
    Except Failure LoadedConfiguration :=
  l.load directory (some (files.map (l.parseFile limit)))

variable {l limit}

theorem returns_problem {α : Type} {message : String} {location : Option ConfigPath} (a : α) :
    Returns (do problem message location; return a : Checked α) :=
  (returns_tell _).bind fun _ => returns_pure a

theorem parseFile_returns {file : String × Content} :
    Returns (l.parseFile limit file).2 ↔ Readable l.unicode limit file.2 := by
  rw [← not_iff_not, ← readObject_escaped, parseFile]
  cases readObject l.unicode limit file.2 with
  | ok members => simp [returns_pure]
  | error error =>
    cases error with
    | jsonFileError detail =>
      refine iff_of_false (not_not.mpr (returns_problem none)) ?_
      rintro ⟨raised, same⟩
      cases same
    | escaped raised => simp [not_returns_raise]

/- The rules are built without an exception, whatever they are. -/

theorem resolveMember_returns (registry : NameRegistry) (built : BuiltInstances) (draft : Draft)
    (key : String) (direction : PluginDirection) (acc : Resolved × Bool) (listed : Json × Nat) :
    Returns (l.resolveMember registry built draft key direction acc listed) := by
  unfold resolveMember
  split
  · simp only
    split
    · exact returns_problem _
    · split
      · split
        · exact returns_problem _
        · exact returns_pure _
      · split
        · exact returns_problem _
        · exact returns_pure _
  · exact returns_problem _

theorem ruleMembers_returns (registry : NameRegistry) (built : BuiltInstances) (draft : Draft)
    (key : String) (direction : PluginDirection) :
    Returns (l.ruleMembers registry built draft key direction) := by
  unfold ruleMembers
  split
  · exact returns_problem _
  · exact returns_problem _
  · refine Returns.bind ?_ fun _ => returns_pure _
    refine (returns_foldlM (R := fun _ => True) (fun acc listed => ?_) _ _).mpr fun _ _ => trivial
    exact iff_of_true (l.resolveMember_returns registry built draft key direction acc listed) trivial
  · exact returns_problem _

theorem buildRule_returns (registry : NameRegistry) (built : BuiltInstances) (draft : Draft) :
    Returns (l.buildRule registry built draft) := by
  refine Returns.bind ⟨(), (rejectUnknownKeys_gives _ _ _ _).result⟩ fun _ => ?_
  refine (l.ruleMembers_returns registry built draft "inputs" .input).bind fun inputs => ?_
  refine (l.ruleMembers_returns registry built draft "outputs" .output).bind fun outputs => ?_
  split
  · simp only
    split
    · have enabled := optionalBool_gives draft.body draft.origin "enabled"
        s!"rule {l.unicode.repr draft.name}" true
      exact Returns.bind ⟨_, enabled.result⟩ fun _ => returns_pure _
    · exact Returns.bind ⟨_, (Gives.forM_tell _).result⟩ fun _ => returns_pure _
  · exact returns_pure _

theorem buildRules_returns (registry : NameRegistry) (built : BuiltInstances)
    (drafts : List Draft) : Returns (l.buildRules registry built drafts) := by
  refine (returns_foldlM (R := fun _ => True) (fun rules draft => ?_) _ _).mpr fun _ _ => trivial
  refine iff_of_true ((l.buildRule_returns registry built draft).bind fun found => ?_) trivial
  cases found <;> exact returns_pure _

theorem collectFiles_returns {files : List ParsedFile} :
    Returns (files.foldlM l.collectFile {}) ↔ ∀ file ∈ files, Returns file.2 := by
  have each (c : Collected) (file : ParsedFile) :
      Returns (l.collectFile c file) ↔ Returns file.2 :=
    ⟨Returns.of_bind, fun read => ⟨_, (collectFile_gives read c).result⟩⟩
  exact returns_foldlM each _ _

theorem manageable_iff {documents : List Document} : l.Manageable documents ↔
    Returns (l.buildDaemon (l.gathered documents).daemon) ∧
      Returns (l.buildInstances (l.gathered documents).instanceDrafts) := by
  have configs := forall_draft (l := l) documents .instances fun _ body =>
    ∀ plugin known, l.PluginIs body plugin known → l.Shallow body
  rw [buildDaemon_returns, gathered_daemon, buildInstances_returns]
  constructor
  · rintro ⟨retries, reached⟩
    exact ⟨retries, configs.mpr reached⟩
  · rintro ⟨retries, drafted⟩
    exact ⟨retries, configs.mp drafted⟩

theorem check_returns {directory : String} {files : List ParsedFile} :
    Returns (l.check directory (some files)) ↔
      (∀ file ∈ files, Returns file.2) ∧ l.Manageable (documentsOf files) := by
  have listed : (readFiles directory (some files)).result = .ok files := by
    cases files <;> rfl
  rw [check, returns_bind_of_ok listed, manageable_iff]
  constructor
  · intro returned
    have read := collectFiles_returns.mp returned.of_bind
    rw [returns_bind_of_ok (collectFiles_gives read).result] at returned
    obtain ⟨settings, _, rest⟩ := returns_bind.mp returned
    exact ⟨read, returned.of_bind, rest.of_bind⟩
  · rintro ⟨read, daemon, instances⟩
    rw [returns_bind_of_ok (collectFiles_gives read).result]
    refine daemon.bind fun settings => instances.bind fun built => ?_
    exact (l.buildRules_returns _ built _).bind fun rules => returns_pure _

theorem escapes_iff {checked : Checked LoadedConfiguration} :
    (∀ raised, concluded checked ≠ .error (.escaped raised)) ↔ Returns checked := by
  obtain ⟨result, problems⟩ := checked
  cases result with
  | error raised =>
    refine iff_of_false (fun none => none raised rfl) ?_
    rintro ⟨c, same⟩
    cases same
  | ok c =>
    refine iff_of_true (fun raised same => ?_) ⟨c, rfl⟩
    cases problems <;> cases same

end Loader

end NotiMapper
