import Mathlib.Data.List.Sort
import Mathlib.Data.Rat.Floor
import RlmGraph.Knowledge.Records
import RlmGraph.Lib.PyError
import RlmGraph.Lib.Results
import RlmGraph.Lib.Search
import RlmGraph.Projects.Index

/-! # The file slice of a plan

A workspace request is answered from a slice of the project: the files that
match it best, and from them, along the dependencies in both directions, what is
up to three steps away. The number of files is looked at once for each file that
is expanded, so the slice keeps to its bound exactly if no single file takes the
search over it (`slice_bounded_iff`). -/
namespace RlmGraph.Projects.SourceRecord
open RlmGraph.Lib RlmGraph.Lib.Search RlmGraph.Lib.PyText
open RlmGraph.Knowledge.Records RlmGraph.Projects.Index

def maxSelectedFiles : Nat := 24

structure ProjectSymbol where
  fileId : String
  name : String

structure ProjectScan where
  id : String
  completedAt : Int
  readOnlyVerified : Bool

structure ProjectRecord where
  id : String
  readOnly : Bool

/-- A hit of `WorkflowFactSearch`. -/
structure FactSearchHit where
  kind : String
  reference : String
  path : String
  line : Option Int
  text : String
  matchedTerms : List String
  score : ℚ

/-- What the store holds of a project. -/
structure SourceIndex extends ProjectIndex where
  symbols : List ProjectSymbol
  scans : List ProjectScan

structure WorkspaceHost where
  tables : CaseTables
  /-- `WorkflowFactSearch(store).search`, of the words. -/
  search : String → List ProjectFile → List FactSearchHit
  /-- The first matching line of a file. -/
  fileEvidence : String → ProjectFile → List String → Except PyError Evidence
  /-- `_manifests`. -/
  manifests : String → String → String × String
  /-- `root.name`. -/
  rootName : String → String

structure ProjectWorkspaceRecord where
  projectId : String
  projectRoot : String
  projectName : String
  kind : String
  prompt : String
  acceptanceCriteria : List String
  status : String
  answer : String
  affectedFileIds : List String
  affectedPaths : List String
  dependencyIds : List String
  dependencyPaths : List String
  evidence : List Evidence
  impactGroups : List (String × List String)
  steps : List String := []
  risks : List String := []
  validationRequirements : List String := []
  validationCommands : List (List String) := []
  indexScanId : String
  indexedManifestSha256 : String
  finalManifestSha256 : String
  sourceIntegrityVerified : Bool
  readOnlyVerified : Bool
  approvalRequired : Bool := false
  approvalStatus : Option String := none
  executionAuthorized : Bool := false

/-! ## Scores -/

def isWordChar (c : Char) : Bool :=
  ('a' ≤ c && c ≤ 'z') || ('0' ≤ c && c ≤ '9') || c == '_'

/-- `re.findall(r"[a-z0-9_]+", text)`, as a set. -/
def wordRuns (text : String) : List String :=
  (((text.toList.splitOnP (!isWordChar ·)).filter (· ≠ [])).map String.ofList).dedup

/-- `_tokens`. -/
def tokens (host : WorkspaceHost) (text : String) : List String :=
  (wordRuns (casefold host.tables text)).filter
    fun word => !(["a", "an", "and", "create", "for", "in", "of", "on", "the", "to"].contains word)

/-- `_file_score`. -/
def fileScore (host : WorkspaceHost) (file : ProjectFile) (tokens : List String) : Nat :=
  let path := casefold host.tables file.path
  (tokens.filter (wordRuns path).contains).length * 4 +
    (tokens.filter fun token => decide (4 ≤ token.length) && hasPart path token).length

/-- `symbol_tokens.get(id, set())`. -/
def symbolTokens (host : WorkspaceHost) (symbols : List ProjectSymbol) (id : String) : List String :=
  ((symbols.filter (·.fileId = id)).flatMap fun symbol => tokens host symbol.name).dedup

def isExcerpt (hit : FactSearchHit) : Bool := hit.kind == "SOURCE_EXCERPT"

/-- `scores[item.id]`. -/
def fileScores (host : WorkspaceHost) (index : SourceIndex) (words : List String)
    (hits : List FactSearchHit) (file : ProjectFile) : ℚ :=
  fileScore host file words +
    6 * (words.filter (symbolTokens host index.symbols file.id).contains).length +
    ((hits.filter fun hit => isExcerpt hit && hit.reference == file.id).map fun hit =>
      6 * hit.score).sum

def ranksBefore (a b : ℚ × ProjectFile) : Bool :=
  (compare b.1 a.1 |>.then (compare a.2.path b.2.path)).isLE

def ranked (scores : ProjectFile → ℚ) (files : List ProjectFile) : List (ℚ × ProjectFile) :=
  (files.map fun file => (scores file, file)).insertionSort (ranksBefore · ·)

/-- The best six that match at all, or else the first three. -/
def seedFiles (scores : ProjectFile → ℚ) (files : List ProjectFile) : List ProjectFile :=
  let ranked := ranked scores files
  let matching := (ranked.filter fun item => 0 < item.1).take 6
  (if matching = [] then ranked.take 3 else matching).map Prod.snd

/-! ## Selection -/

/-- `adjacency[id]`: each dependency leads both ways. -/
def adjacency (dependencies : List ProjectDependency) (id : String) : List (String × String) :=
  dependencies.flatMap fun dependency =>
    match dependency.target with
    | none => []
    | some target =>
      (if dependency.sourceFileId = id then [(target, dependency.id)] else []) ++
        if target = id then [(dependency.sourceFileId, dependency.id)] else []

structure Selection where
  selectedIds : List String
  traversed : List String := []
  queue : List (String × Nat)

/-- One neighbour. -/
def join (depth : Nat) (s : Selection) (edge : String × String) : Selection :=
  let (neighbor, dependencyId) := edge
  if neighbor ∈ s.selectedIds then s
  else {
    selectedIds := s.selectedIds ++ [neighbor]
    traversed := s.traversed ++ [dependencyId]
    queue := s.queue ++ [(neighbor, depth + 1)] }

/-- The loop, for at most so many turns; each takes one file from the queue. -/
def selectLoop (dependencies : List ProjectDependency) : Nat → Selection → Selection
  | 0, s => s
  | fuel + 1, s =>
    match s.queue with
    | [] => s
    | (fileId, depth) :: rest =>
      if s.selectedIds.length < maxSelectedFiles then
        let s := { s with queue := rest }
        if 3 ≤ depth then selectLoop dependencies fuel s
        else selectLoop dependencies fuel ((adjacency dependencies fileId).foldl (join depth) s)
      else s

def selection (index : ProjectIndex) (seeds : List ProjectFile) : Selection :=
  selectLoop index.dependencies (index.files.length + seeds.length)
    { selectedIds := seeds.map (·.id), queue := seeds.map fun seed => (seed.id, 0) }

/-- The selected files, by path. -/
def selectedFiles (index : ProjectIndex) (ids : List String) : List ProjectFile :=
  (index.files.filter (ids.contains ·.id)).insertionSort (·.path ≤ ·.path)

/-! ## The record -/

def impactGroup (file : ProjectFile) : String :=
  if file.isTest then "tests" else if file.language = "" then "source" else file.language

def impactGroups (selected : List ProjectFile) : List (String × List String) :=
  (sortedSet (selected.map impactGroup)).map fun group =>
    (group, (selected.filter (impactGroup · = group)).map (·.path))

/-- `max(scans, key=completed_at)`. -/
def latestScan : List ProjectScan → Option ProjectScan
  | [] => none
  | scan :: scans => some (scans.foldl (fun best scan =>
      if best.completedAt < scan.completedAt then scan else best) scan)

def excerptEvidence (hit : FactSearchHit) : Evidence where
  path := hit.path
  line := hit.line
  detail := "Task search matched " ++ ", ".intercalate hit.matchedTerms ++ ": " ++ hit.text

def isPytestFile (file : ProjectFile) : Bool := file.isTest && endsWith file.path ".py"

/-- `_source_record`. -/
def sourceRecord (host : WorkspaceHost) (index : SourceIndex) (project : ProjectRecord)
    (root kind prompt : String) (criteria : List String) : Except PyError ProjectWorkspaceRecord := do
  let some scan := latestScan index.scans
    | throw (.runtime "The selected project has no usable source index.")
  if index.files = [] then throw (.runtime "The selected project has no usable source index.")
  let words := tokens host prompt
  let hits := host.search (" ".intercalate
    (sortedSet (tokens host (" ".intercalate (prompt :: criteria))))) index.files
  let seeds := seedFiles (fileScores host index words hits) index.files
  let s := selection index.toProjectIndex seeds
  let selected := selectedFiles index.toProjectIndex s.selectedIds
  let lines ← selected.mapM fun file => host.fileEvidence root file words
  let evidence := lines ++ (hits.filter fun hit =>
    isExcerpt hit && s.selectedIds.contains hit.reference).map excerptEvidence
  let groups := impactGroups selected
  let (indexed, current) := host.manifests project.id root
  let base : ProjectWorkspaceRecord := {
    projectId := project.id
    projectRoot := root
    projectName := host.rootName root
    kind, prompt
    acceptanceCriteria := criteria
    status := "COMPLETED"
    answer := s!"The indexed project evidence points to {selected.length} files: " ++
      "; ".intercalate ((evidence.take 8).map (·.detail))
    affectedFileIds := selected.map (·.id)
    affectedPaths := selected.map (·.path)
    dependencyIds := sortedSet s.traversed
    dependencyPaths := selected.map (·.path)
    evidence
    impactGroups := groups
    indexScanId := scan.id
    indexedManifestSha256 := indexed
    finalManifestSha256 := current
    sourceIntegrityVerified := indexed == current
    readOnlyVerified := project.readOnly && scan.readOnlyVerified }
  if kind = "DIAGNOSTIC" then return base
  return { base with
    status := "AWAITING_HUMAN_APPROVAL"
    answer := s!"Read-only impact analysis selected {selected.length} files across {groups.length} source groups."
    steps := [
      "Confirm the requested behavior and affected public contracts.",
      "Implement only the graph-selected files after separate authorization.",
      "Run the selected tests and project-specific validation before promotion."]
    risks := [
      "Graph reachability may not capture runtime or dynamically loaded dependencies.",
      "Human approval of this plan does not authorize source modification."]
    validationRequirements := [
      "Re-index and verify the source manifest immediately before implementation.",
      "Run affected indexed tests and attach their results.",
      "Review every changed path against the approved impact report."]
    validationCommands := (selected.filter isPytestFile).map fun file =>
      ["python", "-m", "pytest", file.path, "-q", "-p", "no:cacheprovider"]
    approvalRequired := true
    approvalStatus := some "PENDING" }

/-! ## The search behind a selection -/

/-- The neighbours of a file, in both directions. -/
def neighboursOf (dependencies : List ProjectDependency) (id : String) : List String :=
  (adjacency dependencies id).map Prod.fst

def Selection.state (s : Selection) : State String Nat := ⟨s.selectedIds, s.queue⟩

section
variable {dependencies : List ProjectDependency} {index : ProjectIndex} {seeds : List ProjectFile}
  {depth : Nat}

theorem state_join (s : Selection) (edge : String × String) :
    (join depth s edge).state = s.state.meet (depth + 1) edge.1 := by
  unfold join State.meet
  dsimp only
  by_cases hselected : edge.1 ∈ s.selectedIds
  · have hseen : edge.1 ∈ s.state.seen := hselected
    rw [if_pos hselected, if_pos hseen]
  · have hseen : edge.1 ∉ s.state.seen := hselected
    rw [if_neg hselected, if_neg hseen]
    rfl

theorem state_joinAll (s : Selection) (edges : List (String × String)) :
    (edges.foldl (join depth) s).state = State.meetAll (depth + 1) s.state (edges.map Prod.fst) := by
  induction edges generalizing s with
  | nil => rfl
  | cons edge edges ih =>
    rw [List.foldl_cons, ih, state_join]
    rfl

/-- The graph search to depth three, after so many files. -/
def searched (dependencies : List ProjectDependency) (turns : Nat) (s : State String Nat) :
    State String Nat := search (upTo 3) (neighboursOf dependencies) turns s

/-- The loop is the search, up to the first moment with no room. -/
theorem state_selectLoop (fuel : Nat) (s : Selection) :
    ∃ turns ≤ fuel, (selectLoop dependencies fuel s).state = searched dependencies turns s.state ∧
      (∀ earlier < turns, (searched dependencies earlier s.state).seen.length < maxSelectedFiles) ∧
      (turns = fuel ∨ maxSelectedFiles ≤ (searched dependencies turns s.state).seen.length ∨
        (searched dependencies turns s.state).queue = []) := by
  induction fuel generalizing s with
  | zero => exact ⟨0, le_rfl, rfl, fun earlier h => absurd h (Nat.not_lt_zero earlier), Or.inl rfl⟩
  | succ fuel ih =>
    unfold selectLoop
    cases hqueue : s.queue with
    | nil => exact ⟨0, Nat.zero_le _, rfl, fun earlier h => absurd h (Nat.not_lt_zero earlier), Or.inr (Or.inr hqueue)⟩
    | cons item rest =>
      obtain ⟨fileId, depth⟩ := item
      dsimp only
      by_cases hroom : s.selectedIds.length < maxSelectedFiles
      · rw [if_pos hroom]
        -- one turn of the loop is one step of the search
        have hstep : ∀ s' : Selection, expand (upTo 3) (neighboursOf dependencies) s.state = some s'.state →
            ∃ turns ≤ fuel + 1,
              (selectLoop dependencies fuel s').state = searched dependencies turns s.state ∧
              (∀ earlier < turns,
                (searched dependencies earlier s.state).seen.length < maxSelectedFiles) ∧
              (turns = fuel + 1 ∨
                maxSelectedFiles ≤ (searched dependencies turns s.state).seen.length ∨
                (searched dependencies turns s.state).queue = []) := by
          intro s' hs'
          obtain ⟨turns, hturns, hstate, hearlier, hends⟩ := ih s'
          have hsucc : ∀ n, searched dependencies (n + 1) s.state = searched dependencies n s'.state := by
            intro n
            unfold searched
            rw [search, hs']
          refine ⟨turns + 1, Nat.succ_le_succ hturns, by rw [hsucc]; exact hstate, ?_, ?_⟩
          · intro earlier hlt
            cases earlier with
            | zero => exact hroom
            | succ earlier =>
              rw [hsucc]
              exact hearlier earlier (Nat.lt_of_succ_lt_succ hlt)
          · rw [hsucc]
            exact hends.imp_left (congrArg Nat.succ)
        have hstate : s.state.queue = (fileId, depth) :: rest := hqueue
        by_cases hdepth : 3 ≤ depth
        · rw [if_pos hdepth]
          refine hstep _ ?_
          unfold expand upTo
          rw [hstate]
          dsimp only
          rw [if_pos hdepth]
          rfl
        · rw [if_neg hdepth]
          refine hstep _ ?_
          unfold expand upTo
          rw [hstate]
          dsimp only
          rw [if_neg hdepth, state_joinAll]
          rfl
      · rw [if_neg hroom]
        exact ⟨0, Nat.zero_le _, rfl, fun earlier h => absurd h (Nat.not_lt_zero earlier), Or.inr (Or.inl (not_lt.mp hroom))⟩

/-! ## The bound -/

/-- No file that is expanded takes the search from below the bound over it. -/
def Room (dependencies : List ProjectDependency) (seeds : List String) : Prop :=
  ∀ turns, (searched dependencies turns (start 0 seeds)).seen.length < maxSelectedFiles →
    (searched dependencies (turns + 1) (start 0 seeds)).seen.length ≤ maxSelectedFiles

theorem neighboursOf_subset (index : ProjectIndex) (id : String) :
    neighboursOf index.dependencies id ⊆ index.files.map (·.id) := by
  intro neighbor hneighbor
  obtain ⟨edge, hedge, rfl⟩ := List.mem_map.mp hneighbor
  obtain ⟨dependency, hmem, hends⟩ := List.mem_flatMap.mp hedge
  cases htarget : dependency.target with
  | none =>
    rw [htarget] at hends
    cases hends
  | some target =>
    rw [htarget] at hends
    obtain ⟨file, hfile, hid⟩ := index.targets dependency hmem target htarget
    obtain ⟨source, hsource, hsourceId, -⟩ := index.sources dependency hmem
    obtain hends | hends := List.mem_append.mp hends <;> split at hends
    · cases List.mem_singleton.mp hends
      exact List.mem_map.mpr ⟨file, hfile, hid⟩
    · cases hends
    · cases List.mem_singleton.mp hends
      exact List.mem_map.mpr ⟨source, hsource, hsourceId⟩
    · cases hends

theorem selection_state (index : ProjectIndex) (seeds : List ProjectFile) :
    ∃ turns, (selection index seeds).state =
        searched index.dependencies turns (start 0 (seeds.map (·.id))) ∧
      (∀ earlier < turns, (searched index.dependencies earlier
        (start 0 (seeds.map (·.id)))).seen.length < maxSelectedFiles) ∧
      (maxSelectedFiles ≤ (searched index.dependencies turns
          (start 0 (seeds.map (·.id)))).seen.length ∨
        (searched index.dependencies turns (start 0 (seeds.map (·.id)))).queue = []) := by
  have hstart : Selection.state { selectedIds := seeds.map (·.id), queue := seeds.map fun seed => (seed.id, 0) } =
      start 0 (seeds.map (·.id)) := by
    simp [Selection.state, start]
  obtain ⟨turns, -, hstate, hearlier, hends⟩ := @state_selectLoop index.dependencies
    (index.files.length + seeds.length)
    { selectedIds := seeds.map (·.id), queue := seeds.map fun seed => (seed.id, 0) }
  rw [hstart] at hstate hearlier hends
  refine ⟨turns, hstate, hearlier, ?_⟩
  obtain rfl | hends := hends
  · refine Or.inr (search_finished (neighboursOf_subset index) ?_)
    refine (left_start 0 _ _).trans ?_
    rw [List.length_map, List.length_map]
  · exact hends

theorem length_selection_le_iff (hseeds : seeds.length ≤ maxSelectedFiles) :
    (selection index seeds).selectedIds.length ≤ maxSelectedFiles ↔
      Room index.dependencies (seeds.map (·.id)) := by
  obtain ⟨turns, hstate, hearlier, hends⟩ := selection_state index seeds
  have hseen : (selection index seeds).selectedIds =
      (searched index.dependencies turns (start 0 (seeds.map (·.id)))).seen := congrArg State.seen hstate
  rw [hseen]
  constructor
  · intro hbound jump hlt
    by_contra hover
    -- the loop makes the turn that goes over the bound, and no further one
    have hmade : jump < turns := by
      by_contra hnot
      have hle : (searched index.dependencies turns (start 0 (seeds.map (·.id)))).seen.length ≤
          (searched index.dependencies jump (start 0 (seeds.map (·.id)))).seen.length :=
        length_search_mono (not_lt.mp hnot)
      obtain hfull | hqueue := hends
      · exact absurd (hfull.trans hle) (not_le.mpr hlt)
      · have hstays := search_stays hqueue ((not_lt.mp hnot).trans (Nat.le_succ jump))
        unfold searched at hover hbound
        rw [hstays] at hover
        exact hover hbound
    have hlast : ¬jump + 1 < turns := fun hmore => hover (hearlier (jump + 1) hmore).le
    have heq : turns = jump + 1 := by omega
    rw [heq] at hbound
    exact hover hbound
  · intro hroom
    cases turns with
    | zero =>
      change (seeds.map (·.id)).length ≤ maxSelectedFiles
      rwa [List.length_map]
    | succ turns => exact hroom turns (hearlier turns (Nat.lt_succ_self turns))

/-! ## What is selected -/

/-- The first files of a request. -/
def seedsOf (host : WorkspaceHost) (index : SourceIndex) (prompt : String) (criteria : List String) :
    List ProjectFile :=
  seedFiles (fileScores host index (tokens host prompt) (host.search (" ".intercalate
    (sortedSet (tokens host (" ".intercalate (prompt :: criteria))))) index.files)) index.files

theorem seedFiles_spec (scores : ProjectFile → ℚ) (files : List ProjectFile) :
    (seedFiles scores files).length ≤ 6 ∧ (∀ seed ∈ seedFiles scores files, seed ∈ files) ∧
      ∀ {κ : Type} (key : ProjectFile → κ), (files.map key).Nodup →
        ((seedFiles scores files).map key).Nodup := by
  have hperm : ((ranked scores files).map Prod.snd).Perm files := by
    have hsorted := List.perm_insertionSort (ranksBefore · ·) (files.map fun file => (scores file, file))
    have hmap := hsorted.map Prod.snd
    rw [List.map_map] at hmap
    have hid : (Prod.snd ∘ fun file : ProjectFile => (scores file, file)) = id := rfl
    rwa [hid, List.map_id] at hmap
  have hsub : ((seedFiles scores files)).Sublist ((ranked scores files).map Prod.snd) := by
    unfold seedFiles
    dsimp only
    split
    · exact (List.take_sublist 3 _).map _
    · exact ((List.take_sublist 6 _).trans List.filter_sublist).map _
  refine ⟨?_, fun seed hseed => hperm.subset (hsub.subset hseed), fun key hnodup => ?_⟩
  · unfold seedFiles
    dsimp only
    split <;> simp only [List.length_map, List.length_take] <;> omega
  · exact (hsub.map key).nodup ((hperm.map key).nodup_iff.mpr hnodup)

theorem within_files {id : String} {limit : Nat} (hseeds : ∀ seed ∈ seeds, seed ∈ index.files)
    (h : Within (neighboursOf index.dependencies) (seeds.map (·.id)) limit id) :
    ∃ file ∈ index.files, file.id = id := by
  obtain ⟨first, hfirst, n, -, hwalk⟩ := h
  cases hwalk with
  | nil =>
    obtain ⟨seed, hseed, rfl⟩ := List.mem_map.mp hfirst
    exact ⟨seed, hseeds seed hseed, rfl⟩
  | snoc _ hnext => exact List.mem_map.mp (neighboursOf_subset index _ hnext)

/-- Everything selected is within three steps. -/
theorem selection_within {id : String} (h : id ∈ (selection index seeds).selectedIds) :
    Within (neighboursOf index.dependencies) (seeds.map (·.id)) 3 id := by
  obtain ⟨turns, hstate, -⟩ := selection_state index seeds
  obtain ⟨depth, near, far, hbetween⟩ := between_search turns
    (between_start 3 (neighboursOf index.dependencies) (seeds.map (·.id)))
  have hseen : (selection index seeds).selectedIds =
      (searched index.dependencies turns (start 0 (seeds.map (·.id)))).seen := congrArg State.seen hstate
  rw [hseen] at h
  exact hbetween.sound h

/-- A dependency that was followed joins two selected files. -/
def Joins (dependencies : List ProjectDependency) (selected : List String) (id : String) : Prop :=
  ∃ dependency ∈ dependencies, dependency.id = id ∧ dependency.sourceFileId ∈ selected ∧
    ∃ target ∈ selected, dependency.target = some target

theorem mem_adjacency {dependencies : List ProjectDependency} {id : String} {edge : String × String}
    (h : edge ∈ adjacency dependencies id) : ∃ dependency ∈ dependencies, dependency.id = edge.2 ∧
      ∃ target, dependency.target = some target ∧
        (dependency.sourceFileId = id ∧ target = edge.1 ∨
          target = id ∧ dependency.sourceFileId = edge.1) := by
  obtain ⟨dependency, hmem, hends⟩ := List.mem_flatMap.mp h
  cases htarget : dependency.target with
  | none =>
    rw [htarget] at hends
    cases hends
  | some target =>
    rw [htarget] at hends
    obtain hends | hends := List.mem_append.mp hends <;> split at hends
    · next hsource =>
      cases List.mem_singleton.mp hends
      exact ⟨dependency, hmem, rfl, target, htarget, Or.inl ⟨hsource, rfl⟩⟩
    · cases hends
    · next hid =>
      cases List.mem_singleton.mp hends
      exact ⟨dependency, hmem, rfl, target, htarget, Or.inr ⟨hid, rfl⟩⟩
    · cases hends

/-- The followed dependencies join selected files, and what waits is selected. -/
structure Joined (dependencies : List ProjectDependency) (s : Selection) : Prop where
  traversed : ∀ id ∈ s.traversed, Joins dependencies s.selectedIds id
  waiting : ∀ item ∈ s.queue, item.1 ∈ s.selectedIds

theorem Joins.mono {dependencies : List ProjectDependency} {selected more : List String} {id : String}
    (h : Joins dependencies selected id) (hsub : selected ⊆ more) : Joins dependencies more id := by
  obtain ⟨dependency, hmem, hid, hsource, target, htarget, heq⟩ := h
  exact ⟨dependency, hmem, hid, hsub hsource, target, hsub htarget, heq⟩

theorem Joined.join {s : Selection} (h : Joined dependencies s) {fileId : String}
    (hfile : fileId ∈ s.selectedIds) {edge : String × String}
    (hedge : edge ∈ adjacency dependencies fileId) :
    Joined dependencies (SourceRecord.join depth s edge) ∧
      fileId ∈ (SourceRecord.join depth s edge).selectedIds := by
  unfold SourceRecord.join
  dsimp only
  split
  · exact ⟨h, hfile⟩
  · refine ⟨⟨fun id hid => ?_, fun item hitem => ?_⟩, List.mem_append_left _ hfile⟩
    · obtain hid | hid := List.mem_append.mp hid
      · exact (h.traversed id hid).mono (List.subset_append_left _ _)
      · rw [List.mem_singleton.mp hid]
        obtain ⟨dependency, hmem, hsame, target, htarget, hends⟩ := mem_adjacency hedge
        have hnew : edge.1 ∈ s.selectedIds ++ [edge.1] :=
          List.mem_append_right _ (List.mem_singleton.mpr rfl)
        obtain ⟨hsource, hto⟩ | ⟨hto, hsource⟩ := hends
        · exact ⟨dependency, hmem, hsame, hsource ▸ List.mem_append_left _ hfile, target, hto ▸ hnew, htarget⟩
        · exact ⟨dependency, hmem, hsame, hsource ▸ hnew, target, hto ▸ List.mem_append_left _ hfile, htarget⟩
    · obtain hitem | hitem := List.mem_append.mp hitem
      · exact List.mem_append_left _ (h.waiting item hitem)
      · rw [List.mem_singleton.mp hitem]
        exact List.mem_append_right _ (List.mem_singleton.mpr rfl)

theorem joined_joinAll {s : Selection} (h : Joined dependencies s) {fileId : String}
    (hfile : fileId ∈ s.selectedIds) {edges : List (String × String)}
    (hedges : ∀ edge ∈ edges, edge ∈ adjacency dependencies fileId) :
    Joined dependencies (edges.foldl (join depth) s) := by
  induction edges generalizing s with
  | nil => exact h
  | cons edge edges ih =>
    obtain ⟨hedge, hrest⟩ := List.forall_mem_cons.mp hedges
    obtain ⟨hjoined, hin⟩ := h.join hfile hedge
    exact ih hjoined hin hrest

theorem joined_selectLoop (fuel : Nat) {s : Selection} (h : Joined dependencies s) :
    Joined dependencies (selectLoop dependencies fuel s) := by
  induction fuel generalizing s with
  | zero => exact h
  | succ fuel ih =>
    unfold selectLoop
    cases hqueue : s.queue with
    | nil => exact h
    | cons item rest =>
      obtain ⟨fileId, depth⟩ := item
      have hwaiting := h.waiting
      rw [hqueue] at hwaiting
      obtain ⟨hfile, hrest⟩ := List.forall_mem_cons.mp hwaiting
      have hpopped : Joined dependencies { s with queue := rest } := ⟨h.traversed, hrest⟩
      dsimp only
      split
      · split
        · exact ih hpopped
        · exact ih (joined_joinAll hpopped hfile fun edge hedge => hedge)
      · exact h

theorem mem_selectedFiles {ids : List String} {file : ProjectFile} :
    file ∈ selectedFiles index ids ↔ file ∈ index.files ∧ file.id ∈ ids := by
  unfold selectedFiles
  rw [List.mem_insertionSort, List.mem_filter, List.contains_iff_mem]

/-- As many files as identifiers. -/
theorem length_selectedFiles {ids : List String} (hnodup : ids.Nodup)
    (hids : ∀ id ∈ ids, ∃ file ∈ index.files, file.id = id) :
    (selectedFiles index ids).length = ids.length := by
  have hperm : ((selectedFiles index ids).map (·.id)).Perm ids := by
    refine (List.perm_ext_iff_of_nodup ?_ hnodup).mpr fun id => ?_
    · have hsorted := List.perm_insertionSort (·.path ≤ ·.path)
        (index.files.filter (ids.contains ·.id))
      exact (hsorted.map _).nodup_iff.mpr ((List.filter_sublist.map _).nodup index.ids)
    · rw [List.mem_map]
      constructor
      · rintro ⟨file, hfile, rfl⟩
        exact (mem_selectedFiles.mp hfile).2
      · intro hid
        obtain ⟨file, hfile, rfl⟩ := hids id hid
        exact ⟨file, mem_selectedFiles.mpr ⟨hfile, hid⟩, rfl⟩
  rw [← hperm.length_eq, List.length_map]

/-- What the slice of a record promises. -/
structure Sliced (index : ProjectIndex) (seeds : List ProjectFile) (record : ProjectWorkspaceRecord) :
    Prop where
  bounded : record.affectedPaths.length ≤ maxSelectedFiles
  started : ∀ seed ∈ seeds, seed.path ∈ record.affectedPaths
  near : ∀ path ∈ record.affectedPaths, ∃ file ∈ index.files, file.path = path ∧
    Within (neighboursOf index.dependencies) (seeds.map (·.id)) 3 file.id
  joined : ∀ id ∈ record.dependencyIds, Joins index.dependencies record.affectedFileIds id

/-- The slice of a record is the selection from the seeds. -/
theorem record_slice {host : WorkspaceHost} {index : SourceIndex} {project : ProjectRecord}
    {root kind prompt : String} {criteria : List String} {record : ProjectWorkspaceRecord}
    (h : sourceRecord host index project root kind prompt criteria = .ok record) :
    let s := selection index.toProjectIndex (seedsOf host index prompt criteria)
    record.affectedPaths = (selectedFiles index.toProjectIndex s.selectedIds).map (·.path) ∧
      record.affectedFileIds = (selectedFiles index.toProjectIndex s.selectedIds).map (·.id) ∧
      record.dependencyIds = sortedSet s.traversed := by
  unfold sourceRecord at h
  cases hscan : latestScan index.scans with
  | none =>
    rw [hscan] at h
    cases h
  | some scan =>
    rw [hscan] at h
    dsimp only at h
    obtain ⟨-, h⟩ := Results.ite_throw_bind_ok h
    obtain ⟨lines, -, h⟩ := Results.bind_ok h
    split at h <;> cases h <;> exact ⟨rfl, rfl, rfl⟩

/-- **The slice of a plan keeps what it promises exactly if no file takes the
search over the bound.** -/
theorem slice_bounded_iff {host : WorkspaceHost} {index : SourceIndex} {project : ProjectRecord}
    {root kind prompt : String} {criteria : List String} {record : ProjectWorkspaceRecord}
    (h : sourceRecord host index project root kind prompt criteria = .ok record) :
    Sliced index.toProjectIndex (seedsOf host index prompt criteria) record ↔
      Room index.dependencies ((seedsOf host index prompt criteria).map (·.id)) := by
  obtain ⟨hpaths, hids, hdependencies⟩ := record_slice h
  have hspec := seedFiles_spec (fileScores host index (tokens host prompt) (host.search (" ".intercalate
    (sortedSet (tokens host (" ".intercalate (prompt :: criteria))))) index.files)) index.files
  change (seedsOf host index prompt criteria).length ≤ 6 ∧
    (∀ seed ∈ seedsOf host index prompt criteria, seed ∈ index.files) ∧
    ∀ {κ : Type} (key : ProjectFile → κ), (index.files.map key).Nodup →
      ((seedsOf host index prompt criteria).map key).Nodup at hspec
  obtain ⟨hsix, hseeds, hdistinct⟩ := hspec
  obtain ⟨turns, hstate, -⟩ := selection_state index.toProjectIndex (seedsOf host index prompt criteria)
  have hselected : (selection index.toProjectIndex (seedsOf host index prompt criteria)).selectedIds =
      (searched index.dependencies turns
        (start 0 ((seedsOf host index prompt criteria).map (·.id)))).seen := congrArg State.seen hstate
  have hnodup : (selection index.toProjectIndex (seedsOf host index prompt criteria)).selectedIds.Nodup := by
    rw [hselected]
    exact nodup_search turns (hdistinct (·.id) index.ids)
  have hfiles : ∀ id ∈ (selection index.toProjectIndex (seedsOf host index prompt criteria)).selectedIds,
      ∃ file ∈ index.files, file.id = id := fun id hid => within_files hseeds (selection_within hid)
  have hlength : record.affectedPaths.length =
      (selection index.toProjectIndex (seedsOf host index prompt criteria)).selectedIds.length := by
    rw [hpaths, List.length_map, length_selectedFiles hnodup hfiles]
  rw [← length_selection_le_iff (hsix.trans (by decide)), ← hlength]
  constructor
  · exact Sliced.bounded
  · intro hbounded
    refine ⟨hbounded, fun seed hseed => ?_, fun path hpath => ?_, fun id hid => ?_⟩
    · have hin : seed.id ∈ (selection index.toProjectIndex
          (seedsOf host index prompt criteria)).selectedIds := by
        rw [hselected]
        exact subset_search _ _ turns _ (List.mem_map_of_mem hseed)
      rw [hpaths]
      exact List.mem_map_of_mem (mem_selectedFiles.mpr ⟨hseeds seed hseed, hin⟩)
    · rw [hpaths] at hpath
      obtain ⟨file, hfile, rfl⟩ := List.mem_map.mp hpath
      obtain ⟨hfile, hin⟩ := mem_selectedFiles.mp hfile
      exact ⟨file, hfile, rfl, selection_within hin⟩
    · rw [hdependencies, mem_sortedSet] at hid
      have hjoined : Joined index.dependencies
          (selection index.toProjectIndex (seedsOf host index prompt criteria)) := by
        refine joined_selectLoop _ ⟨fun id hid => (nomatch hid), fun item hitem => ?_⟩
        obtain ⟨seed, hseed, rfl⟩ := List.mem_map.mp hitem
        exact List.mem_map_of_mem hseed
      refine (hjoined.traversed id hid).mono fun id hin => ?_
      obtain ⟨file, hfile, rfl⟩ := hfiles id hin
      rw [hids]
      exact List.mem_map_of_mem (mem_selectedFiles.mpr ⟨hfile, hin⟩)

end

/-! ## A file with many imports -/

/-- Names of their own, by their length. -/
def starName (n : Nat) : String := String.ofList (List.replicate (n + 1) 'f')

def starFiles : List ProjectFile := (List.range 25).map fun n =>
  { id := starName n, path := starName n ++ ".py", language := "python" }

/-- The first file imports the others. -/
def starDependencies : List ProjectDependency := (List.range 24).map fun n =>
  { id := "DEPENDENCY-" ++ starName n, sourceFileId := starName 0, sourcePath := starName 0 ++ ".py",
    targetFileId := some (starName (n + 1)) }

theorem starDependencies_target {dependency : ProjectDependency} (h : dependency ∈ starDependencies)
    {target : String} (htarget : dependency.target = some target) :
    ∃ file ∈ starFiles, file.id = target := by
  obtain ⟨n, hn, rfl⟩ := List.mem_map.mp h
  have hraw : some (starName (n + 1)) = some target := (Option.filter_eq_some_iff.mp htarget).1
  cases hraw
  exact ⟨_, List.mem_map_of_mem (List.mem_range.mpr (Nat.succ_lt_succ (List.mem_range.mp hn))), rfl⟩

def starIndex : SourceIndex where
  files := starFiles
  tests := []
  dependencies := starDependencies
  ids := by decide +kernel
  paths := by decide +kernel
  named := by decide +kernel
  sources := by decide +kernel
  targets _ h _ htarget := starDependencies_target h htarget
  distinct := by decide +kernel
  symbols := []
  scans := [⟨"SCAN", 0, true⟩]

def starHost : WorkspaceHost where
  tables := ⟨id, id, id⟩
  search _ _ := []
  fileEvidence _ file _ := .ok { path := file.path, detail := file.path, line := some 1 }
  manifests _ _ := ("manifest", "manifest")
  rootName root := root

def starRecord : Except PyError ProjectWorkspaceRecord :=
  sourceRecord starHost starIndex ⟨"PROJECT", true⟩ "/project" "CHANGE_PLAN" "f" []

theorem star_record : ∃ record, starRecord = .ok record := by
  cases h : starRecord with
  | ok record => exact ⟨record, rfl⟩
  | error e =>
    have hok : starRecord.isOk = true := by decide +kernel
    rw [h] at hok
    cases hok

theorem slice_bounded_iff_star : ∃ record, starRecord = .ok record ∧
    (Sliced starIndex.toProjectIndex (seedsOf starHost starIndex "f" []) record ↔
      Room starIndex.dependencies ((seedsOf starHost starIndex "f" []).map (·.id))) := by
  obtain ⟨record, h⟩ := star_record
  exact ⟨record, h, slice_bounded_iff h⟩

/-- A plan for the first file of the star takes in all the others. -/
theorem star_over_bound : ∃ record, starRecord = .ok record ∧
    record.affectedPaths.length = 25 ∧
    ¬Sliced starIndex.toProjectIndex (seedsOf starHost starIndex "f" []) record := by
  obtain ⟨record, h⟩ := star_record
  have hlength : (starRecord.toOption.map fun record => record.affectedPaths.length) = some 25 := by
    decide +kernel
  rw [h] at hlength
  have hmany : record.affectedPaths.length = 25 := Option.some.inj hlength
  refine ⟨record, h, hmany, fun hsliced => ?_⟩
  have hbounded := hsliced.bounded
  rw [hmany] at hbounded
  exact absurd hbounded (by decide)

end RlmGraph.Projects.SourceRecord
