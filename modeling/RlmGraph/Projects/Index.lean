import RlmGraph.Lib.PyText
import RlmGraph.Lib.Rows

/-! # The index of a project

Source files, tests and dependencies, as a scan stores them. Identifiers and
paths are distinct, and a dependency leads from a file of the index to another
one or to nothing. -/
namespace RlmGraph.Projects.Index
open RlmGraph.Lib.Rows

structure ProjectFile where
  id : String
  path : String
  contentHash : String := ""
  language : String := ""
  isTest : Bool := false
  deriving DecidableEq

structure ProjectTest where
  id : String
  fileId : String
  sourcePath : String
  deriving DecidableEq

structure ProjectDependency where
  id : String
  sourceFileId : String
  sourcePath : String
  importName : String := ""
  targetFileId : Option String := none
  deriving DecidableEq

/-- `dependency.target_file_id`, as a condition: empty is absent. -/
def ProjectDependency.target (dependency : ProjectDependency) : Option String :=
  dependency.targetFileId.filter (· ≠ "")

structure ProjectIndex where
  files : List ProjectFile
  tests : List ProjectTest
  dependencies : List ProjectDependency
  ids : (files.map (·.id)).Nodup
  paths : (files.map (·.path)).Nodup
  named : ∀ file ∈ files, file.id ≠ ""
  sources : ∀ dependency ∈ dependencies,
    ∃ file ∈ files, file.id = dependency.sourceFileId ∧ file.path = dependency.sourcePath
  targets : ∀ dependency ∈ dependencies, ∀ target, dependency.target = some target →
    ∃ file ∈ files, file.id = target
  distinct : (dependencies.map (·.id)).Nodup

variable {index : ProjectIndex}

theorem eq_of_id {a b : ProjectFile} (ha : a ∈ index.files) (hb : b ∈ index.files)
    (h : a.id = b.id) : a = b := List.inj_on_of_nodup_map index.ids ha hb h

theorem eq_of_path {a b : ProjectFile} (ha : a ∈ index.files) (hb : b ∈ index.files)
    (h : a.path = b.path) : a = b := List.inj_on_of_nodup_map index.paths ha hb h

/-! ## Reachability -/

/-- The files that those of a file depend on, by identifier. -/
def targetsOf (dependencies : List ProjectDependency) (id : String) : List String :=
  (dependencies.filter (·.sourceFileId = id)).filterMap (·.target)

/-- A dependency leads from one file to another. -/
def Edge (index : ProjectIndex) (source target : String) : Prop :=
  ∃ dependency ∈ index.dependencies, dependency.sourceFileId = source ∧
    dependency.target = some target

def Reaches (index : ProjectIndex) : String → String → Prop := Relation.ReflTransGen (Edge index)

theorem mem_targetsOf {source target : String} :
    target ∈ targetsOf index.dependencies source ↔ Edge index source target := by
  unfold targetsOf
  rw [List.mem_filterMap]
  constructor
  · rintro ⟨dependency, hmem, htarget⟩
    obtain ⟨hmem, hsource⟩ := List.mem_filter.mp hmem
    exact ⟨dependency, hmem, of_decide_eq_true hsource, htarget⟩
  · rintro ⟨dependency, hmem, hsource, htarget⟩
    exact ⟨dependency, List.mem_filter.mpr ⟨hmem, decide_eq_true hsource⟩, htarget⟩

/-- A dependency ends at a file of the index. -/
theorem Edge.target_mem {source target : String} (h : Edge index source target) :
    target ∈ index.files.map (·.id) := by
  obtain ⟨dependency, hmem, -, htarget⟩ := h
  obtain ⟨file, hfile, rfl⟩ := index.targets dependency hmem target htarget
  exact List.mem_map_of_mem hfile

end RlmGraph.Projects.Index
