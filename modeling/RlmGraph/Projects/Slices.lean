import RlmGraph.Lib.PyError
import RlmGraph.Lib.Results
import RlmGraph.Lib.Search
import RlmGraph.Projects.Index

/-! # Test slices and dependents

The slice of a test is what its file depends on, directly or not; the dependents
of changed files are what depends on them. The two searches go in opposite
directions along the same edges (`slices_dual`). -/
namespace RlmGraph.Projects.Slices
open RlmGraph.Lib RlmGraph.Lib.Search RlmGraph.Lib.PyText RlmGraph.Lib.Results
open RlmGraph.Projects.Index

/-! ## `trace_test` -/

structure DependencySlice where
  testPath : String
  testFileId : String
  fileIds : List String
  paths : List String
  dependencyIds : List String
  excludedPaths : List String

/-- `path.replace("\\", "/")`. -/
def forwardSlashes (path : String) : String := path.map fun c => if c = '\\' then '/' else c

def sortedTexts (texts : List String) : List String := texts.mergeSort fun a b => decide (a ≤ b)

/-- What the loop of `trace_test` has selected, and what waits. -/
structure Traced where
  selected : List String
  selectedDependencies : List String := []
  queue : List String

/-- One dependency of the current file. -/
def follow (t : Traced) (dependency : ProjectDependency) : Traced :=
  match dependency.target with
  | none => t
  | some target =>
    let t := { t with selectedDependencies := t.selectedDependencies ++ [dependency.id] }
    if target ∉ t.selected then
      { t with selected := t.selected ++ [target], queue := t.queue ++ [target] }
    else t

/-- The loop, for at most so many files. -/
def traceLoop (dependencies : List ProjectDependency) : Nat → Traced → Traced
  | 0, t => t
  | fuel + 1, t =>
    match t.queue with
    | [] => t
    | source :: rest =>
      traceLoop dependencies fuel
        ((dependencies.filter (·.sourceFileId = source)).foldl follow { t with queue := rest })

/-- `by_id[id]`. -/
def byId (files : List ProjectFile) (id : String) : Except PyError ProjectFile :=
  match files.find? (·.id == id) with
  | some file => .ok file
  | none => .error (.key id)

/-- `trace_test`. -/
def traceTest (files : List ProjectFile) (tests : List ProjectTest)
    (dependencies : List ProjectDependency) (testPath : String) : Except PyError DependencySlice := do
  let normalized := forwardSlashes testPath
  let test := tests.find? (·.sourcePath = normalized)
  let testFile := files.find? fun file => file.path = normalized ∧ file.isTest
  match test, testFile with
  | some _, some testFile =>
    let traced := traceLoop dependencies (files.length + 1)
      { selected := [testFile.id], queue := [testFile.id] }
    let selected ← traced.selected.mapM (byId files)
    return {
      testPath := normalized
      testFileId := testFile.id
      fileIds := sortedTexts traced.selected
      paths := sortedTexts (selected.map (·.path))
      dependencyIds := distinct traced.selectedDependencies
      excludedPaths := sortedTexts
        ((files.filter (!traced.selected.contains ·.id)).map (·.path)) }
  | _, _ => .error (.value ("Indexed test not found: " ++ normalized))

/-! ## `_dependents` -/

/-- `path_to_id[path] for path in paths if path in path_to_id`. -/
def idsOf (files : List ProjectFile) (paths : List String) : List String :=
  paths.filterMap fun path => (files.find? (·.path == path)).map (·.id)

/-- The sources of the dependencies on the frontier that are new. -/
def newSources (dependencies : List ProjectDependency) (known frontier : List String) : List String :=
  ((dependencies.filter fun dependency =>
    dependency.targetFileId.any frontier.contains && !known.contains dependency.sourcePath).map
      (·.sourcePath)).dedup

/-- The loop of `_dependents`, for at most so many rounds. -/
def dependentsLoop (changed : List String) (files : List ProjectFile)
    (dependencies : List ProjectDependency) : Nat → List String → List String → List String
  | 0, found, _ => found
  | fuel + 1, found, frontier =>
    if frontier = [] then found
    else
      let paths := newSources dependencies (changed ++ found) frontier
      if paths = [] then found
      else dependentsLoop changed files dependencies fuel (found ++ paths) (idsOf files paths)

/-- `_dependents`. -/
def dependents (changed : List String) (files : List ProjectFile)
    (dependencies : List ProjectDependency) : List String :=
  sortedTexts (dependentsLoop changed files dependencies (files.length + 1) []
    (idsOf files changed))

/-! ## What a slice is -/

variable {index : ProjectIndex}

@[simp] theorem mem_sortedTexts {texts : List String} {text : String} :
    text ∈ sortedTexts texts ↔ text ∈ texts := List.mem_mergeSort

/-- The search behind a trace. -/
def Traced.state (t : Traced) : State String Unit := ⟨t.selected, t.queue.map (·, ())⟩

theorem state_follow (t : Traced) (dependency : ProjectDependency) :
    (follow t dependency).state = dependency.target.elim t.state (t.state.meet ()) := by
  unfold follow
  cases htarget : dependency.target with
  | none => rfl
  | some target =>
    dsimp only [Option.elim]
    unfold State.meet
    by_cases hseen : target ∈ t.selected
    · have hin : target ∈ t.state.seen := hseen
      rw [if_neg (not_not.mpr hseen), if_pos hin]
      rfl
    · have hnotin : target ∉ t.state.seen := hseen
      rw [if_pos hseen, if_neg hnotin]
      simp [Traced.state]

theorem state_followAll (t : Traced) (dependencies : List ProjectDependency) :
    (dependencies.foldl follow t).state =
      State.meetAll () t.state (dependencies.filterMap (·.target)) := by
  induction dependencies generalizing t with
  | nil => rfl
  | cons dependency dependencies ih =>
    rw [List.foldl_cons, ih, state_follow]
    cases htarget : dependency.target with
    | none =>
      rw [List.filterMap_cons_none htarget]
      rfl
    | some target =>
      rw [List.filterMap_cons_some htarget]
      rfl

/-- The loop is the search along the dependencies. -/
theorem state_traceLoop (dependencies : List ProjectDependency) (fuel : Nat) (t : Traced) :
    (traceLoop dependencies fuel t).state = search some (targetsOf dependencies) fuel t.state := by
  induction fuel generalizing t with
  | zero => rfl
  | succ fuel ih =>
    unfold traceLoop search expand
    cases hqueue : t.queue with
    | nil =>
      have hstate : t.state.queue = [] := by simp [Traced.state, hqueue]
      rw [hstate]
    | cons source rest =>
      have hstate : t.state.queue = (source, ()) :: rest.map (·, ()) := by
        simp [Traced.state, hqueue]
      rw [hstate]
      dsimp only
      rw [ih, state_followAll]
      rfl

theorem reached_iff {source id : String} :
    Reached (targetsOf index.dependencies) [source] id ↔ Reaches index source id := by
  have hedge : (fun u v => v ∈ targetsOf index.dependencies u) = Edge index :=
    funext fun u => funext fun v => propext mem_targetsOf
  unfold Reached Reaches
  rw [hedge]
  simp

/-- The loop ends with what the file reaches. -/
theorem mem_traced (id source : String) :
    id ∈ (traceLoop index.dependencies (index.files.length + 1)
      { selected := [source], queue := [source] }).selected ↔ Reaches index source id := by
  have hstate : (traceLoop index.dependencies (index.files.length + 1)
      { selected := [source], queue := [source] }).state =
      search some (targetsOf index.dependencies) (index.files.length + 1) (start () [source]) :=
    state_traceLoop index.dependencies (index.files.length + 1) _
  have hnodes : ∀ u, targetsOf index.dependencies u ⊆ index.files.map (·.id) :=
    fun u v hv => (mem_targetsOf.mp hv).target_mem
  rw [← reached_iff, ← mem_searchAll_iff hnodes (Nat.le_of_eq (by simp) : _ ≤ index.files.length + 1),
    ← hstate]
  rfl

theorem byId_ok {id : String} {file : ProjectFile} (h : byId index.files id = .ok file) :
    file ∈ index.files ∧ file.id = id := by
  unfold byId at h
  split at h
  · next hfind =>
    cases h
    exact ⟨List.mem_of_find?_eq_some hfind, by simpa using List.find?_some hfind⟩
  · cases h

theorem byId_of_mem {file : ProjectFile} (h : file ∈ index.files) :
    byId index.files file.id = .ok file := by
  unfold byId
  rw [Rows.find?_of_mem index.ids h]

/-- What a returned slice holds. -/
structure IsSlice (index : ProjectIndex) (slice : DependencySlice) : Prop where
  test : ∃ file ∈ index.files, file.id = slice.testFileId ∧ file.path = slice.testPath ∧ file.isTest
  path : ∀ file ∈ index.files, file.path ∈ slice.paths ↔ Reaches index slice.testFileId file.id
  excluded : ∀ file ∈ index.files, file.path ∈ slice.excludedPaths ↔ file.path ∉ slice.paths
  files : ∀ path, path ∈ slice.paths ∨ path ∈ slice.excludedPaths → ∃ file ∈ index.files, file.path = path

theorem isSlice_of_ok {testPath : String} {slice : DependencySlice}
    (h : traceTest index.files index.tests index.dependencies testPath = .ok slice) :
    IsSlice index slice := by
  unfold traceTest at h
  dsimp only at h
  split at h
  · next test testFile htest hfile =>
    obtain ⟨selected, hselected, hslice⟩ := Results.bind_ok h
    cases hslice
    have hmem := List.mem_of_find?_eq_some hfile
    have hfound : testFile.path = forwardSlashes testPath ∧ testFile.isTest = true := by
      simpa using List.find?_some hfile
    have hrows := Results.mapM_ok hselected
    have hids : ∀ file ∈ index.files, file ∈ selected ↔ Reaches index testFile.id file.id := by
      intro file hfile
      rw [← mem_traced]
      constructor
      · intro hin
        obtain ⟨id, hid, hrow⟩ := Results.mem_of_forall₂ hrows hin
        rwa [(byId_ok hrow).2]
      · intro hid
        obtain ⟨row, hin, hrow⟩ := Results.exists_of_forall₂ hrows hid
        rw [byId_of_mem hfile] at hrow
        cases hrow
        exact hin
    have hfiles : ∀ file ∈ selected, file ∈ index.files := fun file hin => by
      obtain ⟨id, -, hrow⟩ := Results.mem_of_forall₂ hrows hin
      exact (byId_ok hrow).1
    have hpath : ∀ file ∈ index.files, file.path ∈ sortedTexts (selected.map (·.path)) ↔
        file ∈ selected := by
      intro file hfile
      rw [mem_sortedTexts, List.mem_map]
      constructor
      · rintro ⟨row, hrow, hsame⟩
        rwa [← eq_of_path (hfiles row hrow) hfile hsame]
      · exact fun hin => ⟨file, hin, rfl⟩
    refine ⟨⟨testFile, hmem, rfl, hfound⟩, fun file hfile => (hpath file hfile).trans (hids file hfile),
      fun file hfile => ?_, fun path hpath => ?_⟩
    · rw [hpath file hfile, hids file hfile, ← mem_traced, mem_sortedTexts, List.mem_map]
      constructor
      · rintro ⟨row, hrow, hsame⟩
        obtain ⟨hrow, hout⟩ := List.mem_filter.mp hrow
        rw [eq_of_path hrow hfile hsame] at hout
        simpa using hout
      · exact fun hout => ⟨file, List.mem_filter.mpr ⟨hfile, by simpa using hout⟩, rfl⟩
    · obtain hin | hin := hpath
      · obtain ⟨row, hrow, rfl⟩ := List.mem_map.mp (mem_sortedTexts.mp hin)
        exact ⟨row, hfiles row hrow, rfl⟩
      · obtain ⟨row, hrow, rfl⟩ := List.mem_map.mp (mem_sortedTexts.mp hin)
        exact ⟨row, List.mem_of_mem_filter hrow, rfl⟩
  · cases h

/-- An indexed test can be traced. -/
theorem traceTest_returns {file : ProjectFile} (hfile : file ∈ index.files) (htest : file.isTest = true)
    (hindexed : ∃ test ∈ index.tests, test.sourcePath = file.path)
    (hslashes : forwardSlashes file.path = file.path) :
    ∃ slice, traceTest index.files index.tests index.dependencies file.path = .ok slice ∧
      slice.testFileId = file.id := by
  have hfindTest : ∃ test, index.tests.find? (fun test => decide (test.sourcePath = file.path)) =
      some test := by
    obtain ⟨test, hmem, hpath⟩ := hindexed
    exact Option.isSome_iff_exists.mp (List.find?_isSome.mpr ⟨test, hmem, decide_eq_true hpath⟩)
  have hfindFile : index.files.find? (fun row => decide (row.path = file.path ∧ row.isTest = true)) =
      some file := by
    have hsome : (index.files.find? fun row => decide (row.path = file.path ∧ row.isTest = true)).isSome :=
      List.find?_isSome.mpr ⟨file, hfile, by simp [htest]⟩
    obtain ⟨row, hrow⟩ := Option.isSome_iff_exists.mp hsome
    have hpath : row.path = file.path ∧ row.isTest = true := by simpa using List.find?_some hrow
    rw [hrow, eq_of_path (List.mem_of_find?_eq_some hrow) hfile hpath.1]
  obtain ⟨test, hfindTest⟩ := hfindTest
  have hselected : ∀ ids : List String, (∀ id ∈ ids, ∃ row ∈ index.files, row.id = id) →
      ∃ rows, ids.mapM (byId index.files) = .ok rows := by
    refine fun ids hids => exists_mapM_ok fun id hid => ?_
    obtain ⟨row, hrow, rfl⟩ := hids id hid
    exact ⟨row, byId_of_mem hrow⟩
  obtain ⟨rows, hrows⟩ := hselected (traceLoop index.dependencies (index.files.length + 1)
    { selected := [file.id], queue := [file.id] }).selected fun id hid => by
      obtain hsame | ⟨other, -, hedge⟩ := ((mem_traced id file.id).mp hid).cases_tail
      · exact ⟨file, hfile, hsame.symm⟩
      · obtain ⟨row, hrow, hsame⟩ := List.mem_map.mp hedge.target_mem
        exact ⟨row, hrow, hsame⟩
  unfold traceTest
  dsimp only
  rw [hslashes, hfindTest, hfindFile]
  dsimp only
  rw [hrows]
  exact ⟨_, rfl, rfl⟩

/-! ## What depends on changed files -/

theorem mem_idsOf {paths : List String} {id : String} :
    id ∈ idsOf index.files paths ↔ ∃ file ∈ index.files, file.path ∈ paths ∧ file.id = id := by
  unfold idsOf
  rw [List.mem_filterMap]
  constructor
  · rintro ⟨path, hpath, hid⟩
    obtain ⟨file, hfind, rfl⟩ := Option.map_eq_some_iff.mp hid
    have hsame : file.path = path := by simpa using List.find?_some hfind
    exact ⟨file, List.mem_of_find?_eq_some hfind, hsame ▸ hpath, rfl⟩
  · rintro ⟨file, hfile, hpath, rfl⟩
    refine ⟨file.path, hpath, ?_⟩
    rw [Rows.find?_of_mem index.paths hfile]
    rfl

theorem mem_newSources {dependencies : List ProjectDependency} {known frontier : List String}
    {path : String} : path ∈ newSources dependencies known frontier ↔
      path ∉ known ∧ ∃ dependency ∈ dependencies, dependency.sourcePath = path ∧
        ∃ target ∈ frontier, dependency.targetFileId = some target := by
  unfold newSources
  rw [List.mem_dedup, List.mem_map]
  constructor
  · rintro ⟨dependency, hmem, rfl⟩
    obtain ⟨hmem, hnew⟩ := List.mem_filter.mp hmem
    obtain ⟨htarget, hout⟩ := Bool.and_eq_true_iff.mp hnew
    cases hraw : dependency.targetFileId with
    | none =>
      rw [hraw] at htarget
      cases htarget
    | some target =>
      rw [hraw] at htarget
      exact ⟨by simpa using hout, dependency, hmem, rfl, target, by simpa using htarget, hraw⟩
  · rintro ⟨hout, dependency, hmem, rfl, target, hin, htarget⟩
    refine ⟨dependency, List.mem_filter.mpr ⟨hmem, ?_⟩, rfl⟩
    rw [htarget]
    simp [hin, hout]

/-- The rounds so far: what is found depends on a changed file, and everything
that depends on something known is known, but for the frontier. -/
structure Spreading (index : ProjectIndex) (changed found frontier : List String) : Prop where
  waits : ∀ id ∈ frontier, ∃ file ∈ index.files, file.id = id ∧ file.path ∈ changed ++ found
  sound : ∀ path ∈ found, path ∉ changed ∧ ∃ file ∈ index.files, file.path = path ∧
    ∃ other ∈ index.files, other.path ∈ changed ∧ Reaches index file.id other.id
  distinct : found.Nodup
  closed : ∀ dependency ∈ index.dependencies, ∀ file ∈ index.files,
    dependency.target = some file.id → file.path ∈ changed ++ found → file.id ∉ frontier →
      dependency.sourcePath ∈ changed ++ found

variable {changed found frontier : List String}

theorem spreading_start (index : ProjectIndex) (changed : List String) :
    Spreading index changed [] (idsOf index.files changed) where
  waits id hid := by
    obtain ⟨file, hfile, hpath, hsame⟩ := mem_idsOf.mp hid
    exact ⟨file, hfile, hsame, List.mem_append_left _ hpath⟩
  sound path hpath := nomatch hpath
  distinct := List.nodup_nil
  closed _ _ file hfile _ hknown hnot := by
    rw [List.append_nil] at hknown
    exact absurd (mem_idsOf.mpr ⟨file, hfile, hknown, rfl⟩) hnot

theorem Spreading.round (h : Spreading index changed found frontier) :
    Spreading index changed (found ++ newSources index.dependencies (changed ++ found) frontier)
      (idsOf index.files (newSources index.dependencies (changed ++ found) frontier)) := by
  refine ⟨fun id hid => ?_, fun path hpath => ?_, ?_, fun dependency hmem file hfile htarget hknown
    hnot => ?_⟩
  · obtain ⟨file, hfile, hpath, hsame⟩ := mem_idsOf.mp hid
    exact ⟨file, hfile, hsame, List.mem_append_right _ (List.mem_append_right _ hpath)⟩
  · obtain hpath | hpath := List.mem_append.mp hpath
    · exact h.sound path hpath
    · obtain ⟨hout, dependency, hmem, rfl, target, hin, htarget⟩ := mem_newSources.mp hpath
      obtain ⟨source, hsource, hid, hsame⟩ := index.sources dependency hmem
      obtain ⟨file, hfile, rfl, hknown⟩ := h.waits target hin
      have hedge : Edge index source.id file.id := by
        refine ⟨dependency, hmem, hid.symm, ?_⟩
        unfold ProjectDependency.target
        rw [htarget, Option.filter_some, if_pos (decide_eq_true (index.named file hfile))]
      refine ⟨fun hchanged => hout (List.mem_append_left _ hchanged), source, hsource, hsame, ?_⟩
      obtain hchanged | hfound := List.mem_append.mp hknown
      · exact ⟨file, hfile, hchanged, .single hedge⟩
      · obtain ⟨-, row, hrow, hpath, other, hother, hchanged, hreach⟩ := h.sound file.path hfound
        rw [eq_of_path hrow hfile hpath] at hreach
        exact ⟨other, hother, hchanged, .head hedge hreach⟩
  · refine List.nodup_append'.mpr ⟨h.distinct, List.nodup_dedup _, ?_⟩
    intro path hfound hnew
    exact (mem_newSources.mp hnew).1 (List.mem_append_right _ hfound)
  · have hold : file.path ∈ changed ++ found := by
      obtain hin | hin := List.mem_append.mp hknown
      · exact List.mem_append_left _ hin
      · refine List.mem_append_right _ ((List.mem_append.mp hin).resolve_right fun hnew => hnot ?_)
        exact mem_idsOf.mpr ⟨file, hfile, hnew, rfl⟩
    rw [← List.append_assoc]
    by_cases hsource : dependency.sourcePath ∈ changed ++ found
    · exact List.mem_append_left _ hsource
    · by_cases hfront : file.id ∈ frontier
      · have hraw : dependency.targetFileId = some file.id := (Option.filter_eq_some_iff.mp htarget).1
        exact List.mem_append_right _ (mem_newSources.mpr
          ⟨hsource, dependency, hmem, rfl, file.id, hfront, hraw⟩)
      · exact absurd (h.closed dependency hmem file hfile htarget hold hfront) hsource

/-- When a round finds nothing, nothing is left to find. -/
theorem Spreading.finished (h : Spreading index changed found frontier)
    (hnone : newSources index.dependencies (changed ++ found) frontier = []) :
    Spreading index changed found [] := by
  have hround := h.round
  rw [hnone] at hround
  simpa [idsOf] using hround

theorem spreading_loop (fuel : Nat) (h : Spreading index changed found frontier)
    (hfuel : index.files.length < fuel + found.length) :
    Spreading index changed
      (dependentsLoop changed index.files index.dependencies fuel found frontier) [] := by
  induction fuel generalizing found frontier with
  | zero =>
    have hsub : found ⊆ index.files.map (·.path) := fun path hpath => by
      obtain ⟨-, file, hfile, rfl, -⟩ := h.sound path hpath
      exact List.mem_map_of_mem hfile
    have hlength := (List.subperm_of_subset h.distinct hsub).length_le
    rw [List.length_map] at hlength
    omega
  | succ fuel ih =>
    unfold dependentsLoop
    by_cases hfrontier : frontier = []
    · rw [if_pos hfrontier]
      rwa [hfrontier] at h
    · rw [if_neg hfrontier]
      dsimp only
      by_cases hnone : newSources index.dependencies (changed ++ found) frontier = []
      · rw [if_pos hnone]
        exact h.finished hnone
      · rw [if_neg hnone]
        refine ih h.round ?_
        have hpos := List.length_pos_iff.mpr hnone
        rw [List.length_append]
        omega

/-- With nothing on the frontier, what reaches a changed file is known. -/
theorem Spreading.complete (h : Spreading index changed found []) {source target : String}
    (hreach : Reaches index source target) {other : ProjectFile} (hother : other ∈ index.files)
    (htarget : other.id = target) (hchanged : other.path ∈ changed) :
    ∀ file ∈ index.files, file.id = source → file.path ∈ changed ++ found := by
  induction hreach using Relation.ReflTransGen.head_induction_on with
  | refl =>
    intro file hfile hid
    rw [eq_of_id hfile hother (hid.trans htarget.symm)]
    exact List.mem_append_left _ hchanged
  | head hedge _ ih =>
    intro file hfile hid
    obtain ⟨dependency, hmem, hsource, hto⟩ := hedge
    obtain ⟨next, hnext, hnextId⟩ := index.targets dependency hmem _ hto
    have hknown := h.closed dependency hmem next hnext (by rw [hto, hnextId])
      (ih next hnext hnextId) (fun hin => nomatch hin)
    obtain ⟨row, hrow, hrowId, hpath⟩ := index.sources dependency hmem
    rwa [← hpath, eq_of_id hrow hfile (hrowId.trans (hsource.trans hid.symm))] at hknown

/-- The dependents are the unchanged files that reach a changed one. -/
theorem mem_dependents {path : String} :
    path ∈ dependents changed index.files index.dependencies ↔ path ∉ changed ∧
      ∃ file ∈ index.files, file.path = path ∧
        ∃ other ∈ index.files, other.path ∈ changed ∧ Reaches index file.id other.id := by
  have h := spreading_loop (index.files.length + 1) (spreading_start index changed)
    (Nat.lt_succ_self _)
  unfold dependents
  rw [mem_sortedTexts]
  constructor
  · exact h.sound path
  · rintro ⟨hout, file, hfile, rfl, other, hother, hchanged, hreach⟩
    exact (List.mem_append.mp (h.complete hreach hother rfl hchanged file hfile rfl)).resolve_left hout

/-- **Test slices and dependents are dual.** -/
theorem slices_dual (index : ProjectIndex) (changed : List String) :
    (∀ testPath slice, traceTest index.files index.tests index.dependencies testPath = .ok slice →
      IsSlice index slice) ∧
    (∀ path, path ∈ dependents changed index.files index.dependencies ↔ path ∉ changed ∧
      ∃ file ∈ index.files, file.path = path ∧
        ∃ other ∈ index.files, other.path ∈ changed ∧ Reaches index file.id other.id) ∧
    ∀ test ∈ index.files, test.path ∉ changed → ∀ testPath slice,
      traceTest index.files index.tests index.dependencies testPath = .ok slice →
        slice.testFileId = test.id →
          (test.path ∈ dependents changed index.files index.dependencies ↔
            ∃ path ∈ slice.paths, path ∈ changed) := by
  refine ⟨fun testPath slice => isSlice_of_ok, fun path => mem_dependents, ?_⟩
  intro test htest hunchanged testPath slice hslice hid
  have hsound := isSlice_of_ok hslice
  rw [mem_dependents]
  constructor
  · rintro ⟨-, file, hfile, hpath, other, hother, hchanged, hreach⟩
    rw [eq_of_path hfile htest hpath, ← hid] at hreach
    exact ⟨other.path, (hsound.path other hother).mpr hreach, hchanged⟩
  · rintro ⟨path, hpath, hchanged⟩
    obtain ⟨other, hother, rfl⟩ := hsound.files path (Or.inl hpath)
    have hreach := (hsound.path other hother).mp hpath
    rw [hid] at hreach
    exact ⟨hunchanged, test, htest, rfl, other, hother, hchanged, hreach⟩

end RlmGraph.Projects.Slices
