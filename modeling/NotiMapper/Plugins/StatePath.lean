import NotiMapper.Config.WellFormed

/-! The directories the plugins keep files in: one under the state directory for each
instance name. A name is one component of a path, unless it is made of dots. -/
namespace NotiMapper

open Python

abbrev Component := List Char

/-- A path as `pathlib` keeps it: empty components and single dots are dropped. -/
structure PosixPath where
  absolute : Bool
  parts : List Component

namespace PosixPath

def components (segment : String) : List Component :=
  (segment.toList.splitOn '/').filter fun part => part ≠ [] ∧ part ≠ ['.']

/-- The operator `/`; a segment that starts with a slash starts over. -/
def join (path : PosixPath) (segment : String) : PosixPath :=
  if segment.toList.head? = some '/' then ⟨true, components segment⟩
  else { path with parts := path.parts ++ components segment }

def stepInto (directory : List Component) (part : Component) : List Component :=
  if part = ['.', '.'] then directory.dropLast else directory ++ [part]

/-- Where the path leads from a working directory. -/
def resolve (working : List Component) (path : PosixPath) : List Component :=
  path.parts.foldl stepInto (if path.absolute then [] else working)

end PosixPath

def pluginsDirectory (stateDirectory : PosixPath) : PosixPath := stateDirectory.join "plugins"

def instanceDirectory (stateDirectory : PosixPath) (instanceName : Name) : PosixPath :=
  (pluginsDirectory stateDirectory).join instanceName

/-- `state_path`. -/
def statePath (stateDirectory : PosixPath) (instanceName : Name) (filename : String) : PosixPath :=
  (instanceDirectory stateDirectory instanceName).join filename

/-- One component of a path, which leads down. -/
structure OrdinaryComponent (text : String) : Prop where
  nonempty : text ≠ ""
  slashless : '/' ∉ text.toList
  solid : text ≠ "." ∧ text ≠ ".."

def StrictlyBelow (base path : List Component) : Prop := ∃ more, more ≠ [] ∧ path = base ++ more

/-- All files of either instance are below the plugins' directory, and neither directory is
the other or in it. -/
structure StayApart (working : List Component) (stateDirectory : PosixPath) (first second : Name) :
    Prop where
  below : ∀ name ∈ [first, second], ∀ filename, OrdinaryComponent filename →
    StrictlyBelow ((pluginsDirectory stateDirectory).resolve working)
      ((statePath stateDirectory name filename).resolve working)
  differ : (instanceDirectory stateDirectory first).resolve working ≠
    (instanceDirectory stateDirectory second).resolve working
  apart : ¬ (instanceDirectory stateDirectory first).resolve working <+:
      (instanceDirectory stateDirectory second).resolve working ∧
    ¬ (instanceDirectory stateDirectory second).resolve working <+:
      (instanceDirectory stateDirectory first).resolve working

namespace PosixPath

theorem components_of_slashless {segment : String} (slashless : '/' ∉ segment.toList) :
    components segment = [segment.toList].filter fun part => part ≠ [] ∧ part ≠ ['.'] := by
  rw [components, List.splitOn_eq_singleton slashless]

theorem join_slashless {path : PosixPath} {segment : String} (slashless : '/' ∉ segment.toList) :
    path.join segment = { path with parts := path.parts ++ components segment } := by
  refine if_neg fun head => ?_
  obtain ⟨rest, shape⟩ := List.head?_eq_some_iff.mp head
  rw [shape] at slashless
  exact slashless List.mem_cons_self

theorem resolve_join {working : List Component} {path : PosixPath} {segment : String}
    (slashless : '/' ∉ segment.toList) : (path.join segment).resolve working =
      (components segment).foldl stepInto (path.resolve working) := by
  rw [join_slashless slashless, resolve, resolve, List.foldl_append]

/-- An ordinary component leads one directory down. -/
theorem resolve_ordinary {working : List Component} {path : PosixPath} {segment : String}
    (ordinary : OrdinaryComponent segment) :
    (path.join segment).resolve working = path.resolve working ++ [segment.toList] := by
  have nonempty : segment.toList ≠ [] := fun empty =>
    ordinary.nonempty (String.toList_eq_nil_iff.mp empty)
  have dot : segment.toList ≠ ['.'] := fun same =>
    ordinary.solid.1 (String.toList_injective same)
  have dots : segment.toList ≠ ['.', '.'] := fun same =>
    ordinary.solid.2 (String.toList_injective same)
  have kept : components segment = [segment.toList] := by
    rw [components_of_slashless ordinary.slashless, List.filter_singleton]
    simp [nonempty, dot]
  rw [resolve_join ordinary.slashless, kept, List.foldl_cons, List.foldl_nil, stepInto,
    if_neg dots]

/-- A single dot leads nowhere, and two of them back up. -/
theorem resolve_dots {working : List Component} {path : PosixPath} :
    (path.join ".").resolve working = path.resolve working ∧
      (path.join "..").resolve working = (path.resolve working).dropLast := by
  constructor
  · rw [resolve_join (by decide)]
    rfl
  · rw [resolve_join (by decide)]
    rfl

end PosixPath

open PosixPath

theorem resolve_plugins {working : List Component} {stateDirectory : PosixPath} :
    (pluginsDirectory stateDirectory).resolve working =
      stateDirectory.resolve working ++ ["plugins".toList] :=
  resolve_ordinary ⟨by decide, by decide, by decide, by decide⟩

theorem ordinary_of_valid {u : Unicode} {name : Name} (slash : u.isAlnum '/' = false)
    (valid : u.ValidName name) (solid : name ≠ "." ∧ name ≠ "..") : OrdinaryComponent name := by
  refine ⟨valid.nonempty, fun member => ?_, solid⟩
  rcases valid.allowed '/' member with punctuation | letter
  · exact absurd punctuation (by decide)
  · rw [slash] at letter
    cases letter

theorem stayApart_of_ordinary {working : List Component} {stateDirectory : PosixPath}
    {first second : Name} (one : OrdinaryComponent first) (other : OrdinaryComponent second)
    (distinct : first ≠ second) : StayApart working stateDirectory first second := by
  have down {name : Name} (ordinary : OrdinaryComponent name) :
      (instanceDirectory stateDirectory name).resolve working =
        (pluginsDirectory stateDirectory).resolve working ++ [name.toList] :=
    resolve_ordinary ordinary
  have kept {a b : Name} (one : OrdinaryComponent a) (other : OrdinaryComponent b)
      (inside : (instanceDirectory stateDirectory a).resolve working <+:
        (instanceDirectory stateDirectory b).resolve working) : a = b := by
    rw [down one, down other, List.prefix_append_right_inj, List.prefix_cons_iff] at inside
    rcases inside with empty | ⟨rest, same, _⟩
    · cases empty
    · exact String.toList_injective (List.cons.inj same).1
  refine ⟨?_, ?_, ?_, ?_⟩
  · intro name among filename ordinary
    have here : OrdinaryComponent name := by
      rcases List.mem_cons.mp among with rfl | last
      · exact one
      · exact List.mem_singleton.mp last ▸ other
    refine ⟨[name.toList, filename.toList], List.cons_ne_nil _ _, ?_⟩
    rw [statePath, resolve_ordinary ordinary, down here, List.append_assoc, List.singleton_append]
  · intro same
    exact distinct (kept one other (same ▸ List.prefix_refl _))
  · exact fun inside => distinct (kept one other inside)
  · exact fun inside => distinct (kept other one inside).symm

/-- The directory of a single dot is the plugins' own, and has all others in it or is in one
of them. -/
theorem not_apart_dot {working : List Component} {stateDirectory : PosixPath} {name : Name}
    (ordinary : name = ".." ∨ OrdinaryComponent name) :
    (instanceDirectory stateDirectory ".").resolve working <+:
        (instanceDirectory stateDirectory name).resolve working ∨
      (instanceDirectory stateDirectory name).resolve working <+:
        (instanceDirectory stateDirectory ".").resolve working := by
  unfold instanceDirectory
  rw [resolve_dots.1]
  rcases ordinary with rfl | ordinary
  · rw [resolve_dots.2]
    exact .inr (List.dropLast_prefix _)
  · rw [resolve_ordinary ordinary]
    exact .inl (List.prefix_append _ _)

/-- The files of two dots are in the state directory itself. -/
theorem not_below_dots {working : List Component} {stateDirectory : PosixPath} {filename : String}
    (ordinary : OrdinaryComponent filename) :
    ¬ StrictlyBelow ((pluginsDirectory stateDirectory).resolve working)
      ((statePath stateDirectory ".." filename).resolve working) := by
  rintro ⟨more, nonempty, same⟩
  have up : (instanceDirectory stateDirectory "..").resolve working =
      stateDirectory.resolve working := by
    rw [instanceDirectory, resolve_dots.2, resolve_plugins, List.dropLast_concat]
  rw [statePath, resolve_ordinary ordinary, up, resolve_plugins] at same
  have lengths := congrArg List.length same
  have long := List.length_pos_iff.mpr nonempty
  simp only [List.length_append, List.length_singleton] at lengths
  omega

/-- The files of two instances stay apart exactly when neither is named by dots alone, one
or two of them. -/
theorem state_paths_apart_iff {u : Unicode} (slash : u.isAlnum '/' = false)
    (working : List Component) (stateDirectory : PosixPath) {first second : String}
    (one : u.findNameProblems first = []) (other : u.findNameProblems second = [])
    (distinct : normalizeName first ≠ normalizeName second) :
    StayApart working stateDirectory (normalizeName first) (normalizeName second) ↔
      ∀ name ∈ [normalizeName first, normalizeName second], name ≠ "." ∧ name ≠ ".." := by
  rw [u.findNameProblems_nil] at one other
  generalize normalizeName first = a at *
  generalize normalizeName second = b at *
  have file : OrdinaryComponent "pairing.state" := ⟨by decide, by decide, by decide, by decide⟩
  constructor
  · intro apart
    have up {name : Name} (among : name ∈ [a, b]) : name ≠ ".." := by
      rintro rfl
      exact not_below_dots file (apart.below ".." among _ file)
    have kinds {name : Name} (valid : u.ValidName name) (dot : name ≠ ".") :
        name = ".." ∨ OrdinaryComponent name := by
      by_cases dots : name = ".."
      · exact .inl dots
      · exact .inr (ordinary_of_valid slash valid ⟨dot, dots⟩)
    intro name among
    refine ⟨?_, up among⟩
    rintro rfl
    rcases List.mem_cons.mp among with rfl | last
    · exact (not_apart_dot (kinds other (Ne.symm distinct))).elim apart.apart.1 apart.apart.2
    · cases List.mem_singleton.mp last
      exact (not_apart_dot (kinds one distinct)).elim apart.apart.2 apart.apart.1
  · intro solid
    have first_solid := solid a List.mem_cons_self
    have second_solid := solid b (List.mem_cons_of_mem _ (List.mem_singleton_self b))
    exact stayApart_of_ordinary (ordinary_of_valid slash one first_solid)
      (ordinary_of_valid slash other second_solid) distinct

theorem state_paths_apart_lamps :
    StayApart [] ⟨true, ["var".toList, "lib".toList, "noti-mapper".toList]⟩
      (normalizeName "Lamp") (normalizeName " Porch Lamp ") :=
  (state_paths_apart_iff (u := Loader.plain.unicode) (by decide) [] _ (by decide +kernel)
    (by decide +kernel) (by decide +kernel)).mpr (by decide +kernel)

/-- Two dots make a valid name, and the plugin writes next to the daemon's own files. -/
theorem dots_leave_plugins :
    Loader.plain.unicode.findNameProblems ".." = [] ∧
    Loader.plain.unicode.findNameProblems "Lamp" = [] ∧
    ¬ StayApart [] ⟨true, ["var".toList, "lib".toList, "noti-mapper".toList]⟩
      (normalizeName "..") (normalizeName "Lamp") := by
  have names : normalizeName ".." = ".." := by decide +kernel
  refine ⟨by decide +kernel, by decide +kernel, fun apart => ?_⟩
  rw [names] at apart
  have file : OrdinaryComponent "pairing.state" := ⟨by decide, by decide, by decide, by decide⟩
  exact not_below_dots file (apart.below ".." List.mem_cons_self _ file)

end NotiMapper
