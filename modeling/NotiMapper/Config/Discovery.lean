import NotiMapper.Library.FirstFound
import NotiMapper.Config.Loader

/-! Plugin discovery: the directories of the search path are scanned in order, and what is
found in each in the order of its name. What the file system answers, and what comes of an
import, is given; an import may depend on nothing that was imported before. -/
namespace NotiMapper

open Python

/-- What discovery uses of a plugin class. -/
structure PluginClass where
  validateSettings : Members → List String

/-- The attribute of a module that should name a plugin class. -/
inductive ClassAttribute
  | absent
  | notAClass
  | unrelated
  | abstract (methods : List String)
  | concrete (found : PluginClass)

def ClassAttribute.found : ClassAttribute → Option PluginClass
  | .concrete found => some found
  | _ => none

def ClassAttribute.isAbsent : ClassAttribute → Bool
  | .absent => true
  | _ => false

inductive NameAttribute
  | absent
  | other
  | text (value : String)

structure PluginModule where
  pluginName : NameAttribute
  inputPlugin : ClassAttribute
  outputPlugin : ClassAttribute

/-- What comes of importing a plugin directory; an exception has its type and its message. -/
inductive Imported
  | noSpec
  | raised (error : String)
  | module (found : PluginModule)

/-- An entry of a directory that is scanned. The file system may refuse to answer. -/
structure Candidate where
  name : String
  path : String
  isDir : Except String Bool
  hasInit : Except String Bool
  imported : Imported

structure SearchDirectory where
  isDir : Except String Bool
  entries : Except String (List Candidate)

namespace Discovery

/-- A plugin directory that imported cleanly and looks like a plugin. -/
structure LoadedPlugin where
  pluginName : String
  directory : String
  inputClass : Option PluginClass
  outputClass : Option PluginClass

/-- `directions`, in the order they are declared in. -/
def LoadedPlugin.directions (plugin : LoadedPlugin) : List PluginDirection :=
  (if plugin.inputClass.isSome then [.input] else []) ++
    if plugin.outputClass.isSome then [.output] else []

structure PluginLoadFailure where
  directory : String
  message : String
  deriving DecidableEq

structure DiscoveryResult where
  plugins : Table LoadedPlugin
  failures : List PluginLoadFailure

def looksLikeAPlugin (candidate : Candidate) : Except String Bool := do
  if !(← candidate.isDir) then return false
  if candidate.name.startsWith "." || candidate.name.startsWith "_" then return false
  candidate.hasInit

def checkClass (named base : String) : ClassAttribute → Option String
  | .absent | .concrete _ => none
  | .notAClass => some s!"{named} is not a class"
  | .unrelated => some s!"{named} does not subclass {base}"
  | .abstract methods =>
    some (s!"{named} does not implement: " ++ ", ".intercalate (methods.insertionSort (· ≤ ·)))

def inspectModule (found : PluginModule) (directory : String) :
    Except PluginLoadFailure LoadedPlugin :=
  match found.pluginName with
  | .absent => .error ⟨directory, "it does not define PLUGIN_NAME"⟩
  | .other => .error ⟨directory, "PLUGIN_NAME must be a non-empty string"⟩
  | .text name =>
    if strip name = "" then .error ⟨directory, "PLUGIN_NAME must be a non-empty string"⟩
    else if found.inputPlugin.isAbsent && found.outputPlugin.isAbsent then
      .error ⟨directory, "it defines neither INPUT_PLUGIN nor OUTPUT_PLUGIN, so it cannot do anything"⟩
    else
      match checkClass "INPUT_PLUGIN" "InputPlugin" found.inputPlugin with
      | some problem => .error ⟨directory, problem⟩
      | none =>
        match checkClass "OUTPUT_PLUGIN" "OutputPlugin" found.outputPlugin with
        | some problem => .error ⟨directory, problem⟩
        | none => .ok ⟨strip name, directory, found.inputPlugin.found, found.outputPlugin.found⟩

def loadOne (candidate : Candidate) : Except PluginLoadFailure LoadedPlugin :=
  match candidate.imported with
  | .noSpec => .error ⟨candidate.path, "Python could not build an import spec for it"⟩
  | .raised error => .error ⟨candidate.path, error⟩
  | .module found => inspectModule found candidate.path

def judge (candidate : Candidate) : Except PluginLoadFailure (Name × LoadedPlugin) :=
  (loadOne candidate).map fun plugin => (plugin.pluginName, plugin)

def alreadyProvided (u : Unicode) (existing : LoadedPlugin) (found : Name × LoadedPlugin) :
    PluginLoadFailure :=
  ⟨found.2.directory, s!"plugin name {u.repr found.1} is already provided by " ++
    s!"{existing.directory}; the first one found wins"⟩

abbrev Scan := FirstFound.Found Name LoadedPlugin PluginLoadFailure

/-- One round of the inner loop in `discover`. -/
def visit (u : Unicode) (s : Scan) (candidate : Candidate) : Except String Scan := do
  if ← looksLikeAPlugin candidate then return FirstFound.round judge (alreadyProvided u) s candidate
  else return s

/-- One round of the outer loop. -/
def visitAll (u : Unicode) (s : Scan) (directory : SearchDirectory) : Except String Scan := do
  if !(← directory.isDir) then return s
  ((← directory.entries).insertionSort fun a b => a.name ≤ b.name).foldlM (visit u) s

def discover (u : Unicode) (searchPath : List SearchDirectory) : Except String DiscoveryResult := do
  let s ← searchPath.foldlM (visitAll u) ⟨∅, []⟩
  return ⟨s.kept, s.refused⟩

/-- The problems of both classes; one of the output class's is not repeated. -/
def settingsValidator (plugin : LoadedPlugin) (settings : Members) : List String :=
  let problems := (plugin.inputClass.map fun c => c.validateSettings settings).getD []
  match plugin.outputClass with
  | none => problems
  | some output => (output.validateSettings settings).foldl
      (fun problems problem => if problem ∈ problems then problems else problems ++ [problem]) problems

def known (plugin : LoadedPlugin) : KnownPlugin where
  directions := plugin.directions
  validateSettings := some (settingsValidator plugin)

/-- Something of each plugin that was found. -/
def DiscoveryResult.each {β : Type} (result : DiscoveryResult) (f : LoadedPlugin → β) : Table β where
  entries := result.plugins.entries.map (.map id fun _ => f)
  nodupKeys := by
    rw [List.NodupKeys, List.map₂_keys fun _ => f]
    exact result.plugins.nodupKeys

def knownPlugins (result : DiscoveryResult) : Table KnownPlugin := result.each known

theorem DiscoveryResult.lookup_each {β : Type} (result : DiscoveryResult) (f : LoadedPlugin → β)
    (name : Name) : (result.each f).lookup name = (result.plugins.lookup name).map f :=
  List.dlookup_map₂ name

/- The scan. -/

def looked : List Candidate → Except String (List Candidate)
  | [] => return []
  | candidate :: rest => do
    let likely ← looksLikeAPlugin candidate
    let others ← looked rest
    return if likely then candidate :: others else others

def lookedIn (directory : SearchDirectory) : Except String (List Candidate) := do
  if !(← directory.isDir) then return []
  looked ((← directory.entries).insertionSort fun a b => a.name ≤ b.name)

/-- What looks like a plugin, in the order of the search path and then of the names. -/
def candidates : List SearchDirectory → Except String (List Candidate)
  | [] => return []
  | directory :: rest => do
    let here ← lookedIn directory
    let others ← candidates rest
    return here ++ others

variable {u : Unicode}

def scanned (u : Unicode) (s : Scan) (cs : List Candidate) : Scan :=
  FirstFound.scan judge (alreadyProvided u) s cs

theorem foldlM_visit (s : Scan) (cs : List Candidate) :
    cs.foldlM (visit u) s = (looked cs).map (scanned u s) := by
  induction cs generalizing s with
  | nil => rfl
  | cons c cs ih =>
    rw [List.foldlM_cons, visit, looked]
    cases looksLikeAPlugin c with
    | error failure => rfl
    | ok likely =>
      cases likely with
      | true =>
        show cs.foldlM (visit u) (FirstFound.round judge (alreadyProvided u) s c) = _
        rw [ih]
        cases looked cs <;> rfl
      | false =>
        show cs.foldlM (visit u) s = _
        rw [ih]
        cases looked cs <;> rfl

theorem visitAll_eq (s : Scan) (directory : SearchDirectory) :
    visitAll u s directory = (lookedIn directory).map (scanned u s) := by
  rw [visitAll, lookedIn]
  cases directory.isDir with
  | error failure => rfl
  | ok isDir =>
    cases isDir with
    | false => rfl
    | true =>
      cases directory.entries with
      | error failure => rfl
      | ok entries => exact foldlM_visit s _

theorem foldlM_visitAll (s : Scan) (searchPath : List SearchDirectory) :
    searchPath.foldlM (visitAll u) s = (candidates searchPath).map (scanned u s) := by
  induction searchPath generalizing s with
  | nil => rfl
  | cons directory rest ih =>
    rw [List.foldlM_cons, visitAll_eq, candidates]
    cases lookedIn directory with
    | error failure => rfl
    | ok here =>
      show rest.foldlM (visitAll u) (scanned u s here) = _
      rw [ih]
      cases candidates rest with
      | error failure => rfl
      | ok others => exact congrArg Except.ok (FirstFound.scan_append s here others).symm

theorem discover_eq (u : Unicode) (searchPath : List SearchDirectory) :
    discover u searchPath = (candidates searchPath).map fun cs =>
      let s := scanned u ⟨∅, []⟩ cs
      ⟨s.kept, s.refused⟩ := by
  rw [discover, foldlM_visitAll]
  cases candidates searchPath <;> rfl

theorem candidates_append (searchPath more : List SearchDirectory) :
    candidates (searchPath ++ more) = do
      let here ← candidates searchPath
      let others ← candidates more
      return here ++ others := by
  induction searchPath with
  | nil =>
    show candidates more = _
    cases candidates more <;> rfl
  | cons directory rest ih =>
    rw [List.cons_append, candidates, candidates, ih]
    simp only [bind_assoc, pure_bind, List.append_assoc]

/- What is loaded. -/

theorem checkClass_eq_none {named base : String} {value : ClassAttribute} :
    checkClass named base value = none ↔ value.isAbsent = true ∨ value.found.isSome = true := by
  cases value <;> simp [checkClass, ClassAttribute.isAbsent, ClassAttribute.found]

theorem inspectModule_ok {found : PluginModule} {directory : String} {plugin : LoadedPlugin}
    (loaded : inspectModule found directory = .ok plugin) : plugin.directory = directory ∧
      normalizeName plugin.pluginName = plugin.pluginName ∧ plugin.pluginName ≠ "" ∧
        plugin.directions ≠ [] := by
  unfold inspectModule at loaded
  split at loaded
  · cases loaded
  · cases loaded
  · rename_i name named
    split at loaded
    · cases loaded
    · rename_i solid
      split at loaded
      · cases loaded
      · rename_i some
        split at loaded
        · cases loaded
        · rename_i input
          split at loaded
          · cases loaded
          · rename_i output
            cases loaded
            refine ⟨rfl, normalizeName_idem name, solid, fun none => ?_⟩
            rw [checkClass_eq_none] at input output
            obtain ⟨noInput, noOutput⟩ := List.append_eq_nil_iff.mp none
            have input : found.inputPlugin.isAbsent = true :=
              input.resolve_right fun present => by simp [present] at noInput
            have output : found.outputPlugin.isAbsent = true :=
              output.resolve_right fun present => by simp [present] at noOutput
            exact some (by rw [input, output]; rfl)

theorem inspectModule_error {found : PluginModule} {directory : String}
    {failure : PluginLoadFailure} (refused : inspectModule found directory = .error failure) :
    failure.directory = directory := by
  unfold inspectModule at refused
  split at refused
  · cases refused
    rfl
  · cases refused
    rfl
  · split at refused
    · cases refused
      rfl
    · split at refused
      · cases refused
        rfl
      · split at refused
        · cases refused
          rfl
        · split at refused
          · cases refused
            rfl
          · cases refused

theorem loadOne_error {c : Candidate} {failure : PluginLoadFailure}
    (refused : loadOne c = .error failure) : failure.directory = c.path := by
  unfold loadOne at refused
  split at refused
  · cases refused
    rfl
  · cases refused
    rfl
  · exact inspectModule_error refused

theorem loadOne_ok {c : Candidate} {plugin : LoadedPlugin} (loaded : loadOne c = .ok plugin) :
    plugin.directory = c.path ∧ normalizeName plugin.pluginName = plugin.pluginName ∧
      plugin.pluginName ≠ "" ∧ plugin.directions ≠ [] := by
  unfold loadOne at loaded
  split at loaded
  · cases loaded
  · cases loaded
  · exact inspectModule_ok loaded

theorem judge_ok {c : Candidate} {found : Name × LoadedPlugin} :
    judge c = .ok found ↔ loadOne c = .ok found.2 ∧ found.2.pluginName = found.1 := by
  obtain ⟨name, plugin⟩ := found
  unfold judge
  cases loadOne c with
  | error failure => simp [Except.map]
  | ok own =>
    simp only [Except.map, Except.ok.injEq, Prod.mk.injEq]
    constructor
    · rintro ⟨rfl, rfl⟩
      exact ⟨rfl, rfl⟩
    · rintro ⟨rfl, rfl⟩
      exact ⟨rfl, rfl⟩

theorem judge_error {c : Candidate} {failure : PluginLoadFailure} :
    judge c = .error failure ↔ loadOne c = .error failure := by
  unfold judge
  cases loadOne c <;> simp [Except.map]

/-- The first that loads under a name provides it. Everything that looks like a plugin is
loaded or reported, once, and what is reported was refused or came too late. -/
structure Accounts (u : Unicode) (cs : List Candidate) (result : DiscoveryResult) : Prop where
  first : ∀ name plugin, result.plugins.lookup name = some plugin ↔
    ∃ before c after, cs = before ++ c :: after ∧ (loadOne c = .ok plugin ∧ plugin.pluginName = name) ∧
      ∀ b ∈ before, ∀ other, loadOne b = .ok other → other.pluginName ≠ name
  each : (result.failures.map (·.directory) ++
    result.plugins.entries.map (·.2.directory)).Perm (cs.map (·.path))
  reasons : ∀ failure ∈ result.failures, ∃ c ∈ cs, loadOne c = .error failure ∨
    ∃ plugin existing, loadOne c = .ok plugin ∧
      result.plugins.lookup plugin.pluginName = some existing ∧
        failure = alreadyProvided u existing (plugin.pluginName, plugin)

theorem accounts (u : Unicode) (cs : List Candidate) :
    Accounts u cs ⟨(scanned u ⟨∅, []⟩ cs).kept, (scanned u ⟨∅, []⟩ cs).refused⟩ := by
  constructor
  · intro name plugin
    dsimp only [scanned]
    rw [FirstFound.lookup_scan, AList.lookup_empty, Option.none_or, FirstFound.first_eq_some]
    simp only [judge_ok, Prod.forall, and_imp]
    refine exists_congr fun before => exists_congr fun c => exists_congr fun after =>
      and_congr_right fun _ => and_congr_right fun _ => forall_congr' fun b => forall_congr' fun _ => ?_
    constructor
    · exact fun apart other loaded => apart other.pluginName other loaded rfl
    · rintro apart key other loaded rfl
      exact apart other loaded
  · have places : (FirstFound.places LoadedPlugin.directory PluginLoadFailure.directory
        (scanned u ⟨∅, []⟩ cs)).Perm ([] ++ cs.map Candidate.path) :=
      FirstFound.places_scan (fun c failure refused => loadOne_error (judge_error.mp refused))
        (fun c found loaded => (loadOne_ok (judge_ok.mp loaded).1).1) (fun _ _ => rfl) ⟨∅, []⟩ cs
    exact places
  · intro failure member
    rcases FirstFound.mem_refused member with none | ⟨c, listed, refused | ⟨found, existing, loaded, kept, why⟩⟩
    · cases none
    · exact ⟨c, listed, .inl (judge_error.mp refused)⟩
    · obtain ⟨own, named⟩ := judge_ok.mp loaded
      refine ⟨c, listed, .inr ⟨found.2, existing, own, ?_, ?_⟩⟩
      · rw [named]
        exact kept
      · rw [named]
        exact why

/-- Discovery raises exactly where the file system does not answer. Otherwise all there is is
accounted for, and further directories take nothing away. -/
theorem first_found_wins (u : Unicode) (searchPath : List SearchDirectory) :
    (∀ failure, discover u searchPath = .error failure ↔ candidates searchPath = .error failure) ∧
    ∀ cs, candidates searchPath = .ok cs → ∃ result, discover u searchPath = .ok result ∧
      Accounts u cs result ∧ ∀ more later, discover u (searchPath ++ more) = .ok later →
        (∀ name plugin, result.plugins.lookup name = some plugin →
          later.plugins.lookup name = some plugin) ∧ result.failures <+: later.failures := by
  rw [discover_eq]
  constructor
  · intro failure
    cases candidates searchPath <;> simp [Except.map]
  · intro cs found
    rw [found]
    refine ⟨_, rfl, accounts u cs, fun more later discovered => ?_⟩
    rw [discover_eq, candidates_append, found] at discovered
    cases others : candidates more with
    | error failure =>
      rw [others] at discovered
      cases discovered
    | ok rest =>
      rw [others] at discovered
      cases discovered
      have append : scanned u ⟨∅, []⟩ (cs ++ rest) = scanned u (scanned u ⟨∅, []⟩ cs) rest :=
        FirstFound.scan_append _ cs rest
      dsimp only
      rw [append]
      exact ⟨fun name plugin kept => FirstFound.scan_keeps _ rest kept,
        FirstFound.refused_prefix _ rest⟩

end Discovery

end NotiMapper
