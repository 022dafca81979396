import RlmGraph.Lib.Paths
import RlmGraph.Projects.Index

/-! # Imports

A scan resolves the name of an import to an indexed file. Names that start with
a dot are read as dotted modules first, so that a slash path behind the dots is
taken from the root: a relative specifier is never resolved
(`relative_unresolved`). -/
namespace RlmGraph.Projects.Imports
open RlmGraph.Lib.Paths RlmGraph.Projects.Index

/-- The active files of a scan; their paths are relative to the project. -/
structure ActiveFiles where
  files : List ProjectFile
  paths : (files.map (·.path)).Nodup
  relative : ∀ file ∈ files, ∃ parts : List String,
    (∀ part ∈ parts, IsName part) ∧ file.path = PurePath.asPosix ⟨"", parts⟩

/-- `path_to_id.get(path)`. -/
def pathToId (files : List ProjectFile) (path : String) : Option String :=
  (files.find? (·.path == path)).map (·.id)

/-- `text.lstrip(".")`. -/
def stripDots (text : String) : String := String.ofList (text.toList.dropWhile (· = '.'))

/-- `text.replace(".", "/")`. -/
def slashed (text : String) : String :=
  String.ofList (text.toList.map fun c => if c = '.' then '/' else c)

def startsWith (text start : String) : Bool := start.toList.isPrefixOf text.toList

/-- `base = base.parent`, so many times. -/
def ascend : Nat → PurePath → PurePath
  | 0, base => base
  | n + 1, base => ascend n base.parent

/-- The paths at which an import is looked for. -/
def candidates (importName sourcePath : String) : List String :=
  let source := PurePath.parse sourcePath
  if startsWith importName "." then
    let level := importName.length - (stripDots importName).length
    let base := ascend (level - 1) source.parent
    let module := slashed (stripDots importName)
    [(base.join (module ++ ".py")).asPosix, ((base.join module).join "__init__.py").asPosix]
  else if startsWith importName "./" || startsWith importName "../" then
    let base := (source.parent.join importName).asPosix
    [base, base ++ ".js", base ++ ".ts", base ++ ".tsx", base ++ ".jsx"]
  else
    let module := slashed importName
    [module ++ ".py", module ++ "/__init__.py", importName,
      (source.parent.join (module ++ ".py")).asPosix,
      ((source.parent.join module).join "__init__.py").asPosix,
      (source.parent.join importName).asPosix]

/-- `_resolve_dependency`. -/
def resolveDependency (importName sourcePath : String) (files : List ProjectFile) : Option String :=
  (candidates importName sourcePath).findSome? (pathToId files)

/-- The loop over the dependencies of a scan. -/
def resolveDependencies (files : List ProjectFile) (dependencies : List ProjectDependency) :
    List ProjectDependency :=
  dependencies.map fun dependency =>
    { dependency with
      targetFileId := resolveDependency dependency.importName dependency.sourcePath files }

/-! ## What a specifier denotes -/

/-- A specifier from the folder of the importing file. -/
def Relative (specifier : String) : Prop :=
  (∃ rest, specifier.toList = '.' :: '/' :: rest) ∨ ∃ rest, specifier.toList = '.' :: '.' :: '/' :: rest

/-- The extensions that a specifier may leave out. -/
def extensions : List String := [".js", ".ts", ".tsx", ".jsx"]

/-- The paths that a specifier stands for, by the components it leads to. -/
def spellings (parts : List String) : List String :=
  let path := "/".intercalate parts
  path :: extensions.map (path ++ ·) ++
    extensions.map fun extension => "/".intercalate (parts ++ ["index" ++ extension])

/-- Read from the folder of the importing file, the specifier leads to the file. -/
def Denotes (files : List ProjectFile) (sourcePath specifier : String) (file : ProjectFile) : Prop :=
  Relative specifier ∧ file ∈ files ∧
    ∃ parts, walk (components sourcePath).dropLast (components specifier) = some parts ∧
      file.path ∈ spellings parts

/-! ## What is resolved -/

variable {active : ActiveFiles} {importName sourcePath specifier : String}

theorem pathToId_eq_some {files : List ProjectFile} {path id : String}
    (h : pathToId files path = some id) : ∃ file ∈ files, file.path = path ∧ file.id = id := by
  obtain ⟨file, hfind, hid⟩ := Option.map_eq_some_iff.mp h
  have hpath := List.find?_some hfind
  exact ⟨file, List.mem_of_find?_eq_some hfind, beq_iff_eq.mp hpath, hid⟩

/-- A resolved import is an indexed file at one of the candidates. -/
theorem resolveDependency_mem {files : List ProjectFile} {id : String}
    (h : resolveDependency importName sourcePath files = some id) :
    ∃ file ∈ files, file.id = id ∧ file.path ∈ candidates importName sourcePath := by
  obtain ⟨path, hpath, hid⟩ := List.exists_of_findSome?_eq_some h
  obtain ⟨file, hfile, rfl, hsame⟩ := pathToId_eq_some hid
  exact ⟨file, hfile, hsame, hpath⟩

/-- No active file is looked up from the root. -/
theorem pathToId_rooted {path : String} (h : Rooted path) : pathToId active.files path = none := by
  cases hid : pathToId active.files path with
  | none => rfl
  | some id =>
    obtain ⟨file, hfile, rfl, -⟩ := pathToId_eq_some hid
    obtain ⟨parts, hparts, hpath⟩ := active.relative file hfile
    rw [hpath] at h
    exact absurd h (not_rooted_asPosix hparts)

theorem Relative.startsWith_dot (h : Relative specifier) : startsWith specifier "." = true := by
  unfold startsWith
  obtain ⟨rest, hrest⟩ | ⟨rest, hrest⟩ := h <;> rw [hrest] <;> rfl

/-- Behind the dots of a relative specifier there is a slash. -/
theorem Relative.rooted (h : Relative specifier) : Rooted (slashed (stripDots specifier)) := by
  unfold slashed stripDots Rooted
  obtain ⟨rest, hrest⟩ | ⟨rest, hrest⟩ := h <;> simp [hrest]

/-- A relative specifier is looked for where a dotted module would be. -/
theorem Relative.candidates_eq (h : Relative specifier) : ∃ base : PurePath,
    candidates specifier sourcePath =
      [(base.join (slashed (stripDots specifier) ++ ".py")).asPosix,
        ((base.join (slashed (stripDots specifier))).join "__init__.py").asPosix] :=
  ⟨_, if_pos h.startsWith_dot⟩

/-- Both places start at the root. -/
theorem Relative.candidates_rooted (h : Relative specifier) :
    ∀ path ∈ candidates specifier sourcePath, Rooted path := by
  obtain ⟨base, hcandidates⟩ := @candidates_eq sourcePath specifier h
  rw [hcandidates]
  have hfile : (base.join (slashed (stripDots specifier) ++ ".py")).Absolute :=
    absolute_join_of_rooted base (h.rooted.append ".py")
  have hfolder : ((base.join (slashed (stripDots specifier))).join "__init__.py").Absolute :=
    (absolute_join_of_rooted base h.rooted).join (by simp)
  exact List.forall_mem_cons.mpr ⟨hfile.rooted, List.forall_mem_singleton.mpr hfolder.rooted⟩

theorem resolveDependency_relative (h : Relative specifier) :
    resolveDependency specifier sourcePath active.files = none :=
  List.findSome?_eq_none_iff.mpr fun path hpath => pathToId_rooted (h.candidates_rooted path hpath)

/-- **A relative specifier that denotes an indexed file is never resolved to it.** -/
theorem relative_unresolved {file : ProjectFile}
    (h : Denotes active.files sourcePath specifier file) :
    resolveDependency specifier sourcePath active.files ≠ some file.id := by
  rw [resolveDependency_relative h.1]
  exact Option.some_ne_none _ |>.symm

/-- Two files in one folder. -/
def neighbours : ActiveFiles where
  files := [{ id := "FILE-A", path := "src/a.ts" }, { id := "FILE-B", path := "src/b.ts" }]
  paths := by decide
  relative file h := by
    simp only [List.mem_cons, List.not_mem_nil, or_false] at h
    obtain rfl | rfl := h
    · exact ⟨["src", "a.ts"], by unfold IsName; decide, rfl⟩
    · exact ⟨["src", "b.ts"], by unfold IsName; decide, rfl⟩

theorem neighbours_denotes : Denotes neighbours.files "src/a.ts" "./b"
    { id := "FILE-B", path := "src/b.ts" } :=
  ⟨Or.inl ⟨['b'], rfl⟩, by decide, ["src", "b"], by decide, by decide⟩

theorem relative_unresolved_neighbours :
    resolveDependency "./b" "src/a.ts" neighbours.files ≠ some "FILE-B" :=
  relative_unresolved neighbours_denotes

/-- The import of a file in the same folder leads nowhere. -/
theorem neighbour_missed : Denotes neighbours.files "src/a.ts" "./b"
      { id := "FILE-B", path := "src/b.ts" } ∧
    resolveDependency "./b" "src/a.ts" neighbours.files = none :=
  ⟨neighbours_denotes, by decide +kernel⟩

end RlmGraph.Projects.Imports
