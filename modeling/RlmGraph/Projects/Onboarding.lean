import RlmGraph.Knowledge.Provenance
import RlmGraph.Projects.Imports
import RlmGraph.Projects.Slices

/-! # Onboarding a project

A scan of a project reads its source files between two manifests and commits a
snapshot if the manifests agree. What it finds of the claims of the project is
recorded before the second manifest is taken: a scan that fails because the
project has changed leaves the store as it was exactly if no claim is assessed
differently (`failed_scan_unchanged_iff`). -/
namespace RlmGraph.Projects.Onboarding
open RlmGraph.Lib RlmGraph.Lib.PyText
open RlmGraph.Knowledge.Records (Claim ClaimTable updateClaim updateClaim_ids)
open RlmGraph.Knowledge.Provenance RlmGraph.Projects.Imports
open RlmGraph.Projects.Slices (forwardSlashes)

/-! ## Records -/

inductive FileLifecycle where
  | active | deleted
  deriving DecidableEq

inductive FileChangeKind where
  | added | modified | renamed | deleted | unchanged
  deriving DecidableEq

def FileChangeKind.value : FileChangeKind → String
  | added => "ADDED"
  | modified => "MODIFIED"
  | renamed => "RENAMED"
  | deleted => "DELETED"
  | unchanged => "UNCHANGED"

structure FileChange where
  kind : FileChangeKind
  path : String
  previousPath : Option String := none
  contentHash : Option String := none
  previousHash : Option String := none
  deriving DecidableEq

structure ProjectFile extends Index.ProjectFile where
  projectId : String
  sizeBytes : Nat
  modifiedTimeNs : Int
  lifecycle : FileLifecycle := .active
  lastScanId : String
  deriving DecidableEq

structure ProjectSymbol where
  id : String
  projectId : String
  fileId : String
  name : String
  deriving DecidableEq

structure ProjectTest extends Index.ProjectTest where
  projectId : String
  deriving DecidableEq

structure ProjectDependency extends Index.ProjectDependency where
  projectId : String
  deriving DecidableEq

structure ProjectScan where
  id : String
  projectId : String
  root : String
  previousScanId : Option String
  changes : List FileChange
  fileCount : Nat := 0
  symbolCount : Nat := 0
  testCount : Nat := 0
  dependencyCount : Nat := 0
  parsedFileCount : Nat := 0
  contentReadFileCount : Nat := 0
  reusedFileIds : List String := []
  invalidatedClaimIds : List String := []
  modelCalls : Nat := 0
  readOnlyVerified : Bool := false
  deriving DecidableEq

structure ProjectRecord where
  id : String
  root : String
  explicitlySelected : Bool := true
  readOnly : Bool := true
  latestScanId : Option String := none
  deriving DecidableEq

structure Store where
  projects : List ProjectRecord
  scans : List ProjectScan
  files : List ProjectFile
  symbols : List ProjectSymbol
  tests : List ProjectTest
  dependencies : List ProjectDependency
  claims : ClaimTable

/-! ## What is read of a project -/

abbrev Manifest := List (String × Nat × Int)

/-- A source file as the walk finds it; its content may be gone by then. -/
structure Found where
  path : String
  sizeBytes : Nat
  modifiedTimeNs : Int
  contentHash : Except String String
  language : String
  isTest : Bool

structure Parsed where
  symbols : List ProjectSymbol
  tests : List ProjectTest
  dependencies : List ProjectDependency

/-- What the scan reads, in its order, while the project may change: the first
manifest, the walk over the sources, the content of a file when it is parsed,
the second manifest. A read that fails raises an `OSError`. -/
structure Readings where
  before : Except String Manifest
  walk : List (Except String Found)
  parse : ProjectFile → Except String Parsed
  after : Except String Manifest

structure Selection where
  root : String
  explicitlySelected : Bool

structure OnboardingHost where
  tables : CaseTables
  /-- `Path(path).resolve()`. -/
  resolve : String → String
  /-- `root.resolve(strict=True)`. -/
  resolveStrict : String → Except String String
  /-- The database of a store that is a file. -/
  storagePath : Option String
  isRelativeTo : String → String → Bool
  /-- `os.path.commonpath`, of two paths. -/
  commonpath : String → String → Option String
  stableId : List String → String
  newScanId : String
  indexedProjectFingerprint : String → List (String × String) → String
  maxSourceFiles : Nat := 10000
  maxSourceBytes : Nat := 100 * 1024 * 1024
  maxFileBytes : Nat := 2 * 1024 * 1024

def ofRead {α : Type} : Except String α → Except PyError α
  | .ok a => .ok a
  | .error message => .error (.os message)

/-! ## `_sources` -/

structure Source where
  path : String
  contentHash : String
  sizeBytes : Nat
  modifiedTimeNs : Int
  language : String
  isTest : Bool
  contentRead : Bool

/-- `previous.get(path)`, where a later row with the path wins. -/
def previousAt (previous : List ProjectFile) (path : String) : Option ProjectFile :=
  previous.reverse.find? (·.path == path)

def sourceOf (previous : List ProjectFile) (found : Found) : Except PyError Source := do
  let prior := (previousAt previous found.path).filter fun prior =>
    prior.sizeBytes == found.sizeBytes && prior.modifiedTimeNs == found.modifiedTimeNs
  let contentHash ← match prior with
    | some prior => .ok prior.contentHash
    | none => ofRead found.contentHash
  return {
    path := found.path
    contentHash
    sizeBytes := found.sizeBytes
    modifiedTimeNs := found.modifiedTimeNs
    language := found.language
    isTest := found.isTest
    contentRead := prior.isNone }

/-- The walk, after so many files with so many bytes. -/
def walkSources (host : OnboardingHost) (previous : List ProjectFile) :
    Nat → Nat → List (Except String Found) → Except PyError (List Source)
  | _, _, [] => .ok []
  | count, totalBytes, read :: rest => do
    let found ← ofRead read
    if host.maxFileBytes < found.sizeBytes then
      throw (.readOnlyViolation
        s!"Source file exceeds the {host.maxFileBytes}-byte scan limit: {found.path}")
    let source ← sourceOf previous found
    if host.maxSourceFiles < count + 1 then
      throw (.readOnlyViolation
        s!"Project exceeds the {host.maxSourceFiles}-source-file scan limit.")
    if host.maxSourceBytes < totalBytes + found.sizeBytes then
      throw (.readOnlyViolation s!"Project exceeds the {host.maxSourceBytes}-byte source scan limit.")
    return source :: (← walkSources host previous (count + 1) (totalBytes + found.sizeBytes) rest)

/-- `_sources`. -/
def sources (host : OnboardingHost) (previous : List ProjectFile) (walk : List (Except String Found)) :
    Except PyError (List Source) := do
  let found ← walkSources host previous 0 0 walk
  return found.insertionSort (·.path ≤ ·.path)

/-! ## `_changes` -/

/-- `sorted(set(paths))`. -/
def sortedPaths (paths : List String) : List String := paths.dedup.insertionSort (· ≤ ·)

/-- `source_by_path[path]`. -/
def sourceAt (sources : List Source) (path : String) : Option Source :=
  sources.reverse.find? (·.path == path)

/-- The files that are added, each with what it was renamed from. -/
def renames (previous : List ProjectFile) (sources : List Source) (removed : List String) :
    List String → List String → List (String × Option String)
  | [], _ => []
  | path :: added, renamedOld =>
    let hash := (sourceAt sources path).map (·.contentHash)
    let old := removed.find? fun old =>
      (previousAt previous old).map (·.contentHash) == hash && !renamedOld.contains old
    (path, old) :: renames previous sources removed added (renamedOld ++ old.toList)

structure Changes where
  changes : List FileChange
  ids : List (String × String)

/-- `_changes`. -/
def changesOf (host : OnboardingHost) (projectId : String) (previous : List ProjectFile)
    (sources : List Source) : Changes :=
  let before := sortedPaths (previous.map (·.path))
  let now := sortedPaths (sources.map (·.path))
  let hashNow := fun path => (sourceAt sources path).map (·.contentHash)
  let hashBefore := fun path => (previousAt previous path).map (·.contentHash)
  let idBefore := fun path => ((previousAt previous path).map (·.id)).getD ""
  let removed := before.filter (!now.contains ·)
  let kept := now.filter (before.contains ·)
  let added := renames previous sources removed (now.filter (!before.contains ·)) []
  let renamedOld := added.filterMap (·.2)
  let additions : List FileChange := added.map fun (path, old) => {
    kind := if old.isSome then .renamed else .added
    path
    previousPath := old
    contentHash := hashNow path
    previousHash := old.bind hashBefore }
  let deletions : List FileChange := (removed.filter (!renamedOld.contains ·)).map fun path =>
    { kind := .deleted, path, previousHash := hashBefore path }
  let others : List FileChange := kept.map fun path => {
    kind := if hashBefore path = hashNow path then .unchanged else .modified
    path
    contentHash := hashNow path
    previousHash := hashBefore path }
  { changes := (additions ++ deletions ++ others).insertionSort fun a b =>
      a.path < b.path ∨ a.path = b.path ∧ a.kind.value ≤ b.kind.value
    ids := (kept.map fun path => (path, idBefore path)) ++
      added.map fun (path, old) => (path, match old with
        | some old => idBefore old
        | none => host.stableId ["FILE", projectId, path]) }

/-! ## `scan`, up to the claims -/

/-- What is indexed so far. -/
structure Indexed where
  root : String
  before : Manifest
  scan : ProjectScan
  activeFiles : List ProjectFile
  tombstones : List ProjectFile
  symbols : List ProjectSymbol
  tests : List ProjectTest
  dependencies : List ProjectDependency
  contentRead : Nat

/-- `_assert_storage_outside`. -/
def assertStorageOutside (host : OnboardingHost) (root : String) : Except PyError Unit :=
  match host.storagePath with
  | none => .ok ()
  | some path =>
    if host.isRelativeTo (host.resolve path) root then
      .error (.readOnlyViolation
        s!"Graph storage must be outside the read-only project root: {host.resolve path}")
    else .ok ()

/-- Whether a registered root and this one contain each other. -/
def overlaps (host : OnboardingHost) (canonicalRoot : String) (registered : ProjectRecord) : Bool :=
  let other := casefold host.tables (host.resolve registered.root)
  other != canonicalRoot &&
    match host.commonpath canonicalRoot other with
    | none => false
    | some common =>
      casefold host.tables common == canonicalRoot || casefold host.tables common == other

/-- What is known of the files, one after the other. -/
structure Collected where
  activeFiles : List ProjectFile := []
  symbols : List ProjectSymbol := []
  tests : List ProjectTest := []
  dependencies : List ProjectDependency := []
  reusedFileIds : List String := []
  parsedFileCount : Nat := 0

/-- One source: parsed, or taken over from the store. -/
def collect (store : Store) (readings : Readings) (parsePaths : List String) (fileOf : Source → ProjectFile)
    (c : Collected) (source : Source) : Except PyError Collected := do
  let item := fileOf source
  if parsePaths.contains source.path then
    let parsed ← ofRead (readings.parse item)
    return { c with
      activeFiles := c.activeFiles ++ [item]
      symbols := c.symbols ++ parsed.symbols
      tests := c.tests ++ parsed.tests
      dependencies := c.dependencies ++ parsed.dependencies
      parsedFileCount := c.parsedFileCount + 1 }
  else
    let inProject := fun projectId fileId => projectId == item.projectId && fileId == item.id
    return { c with
      activeFiles := c.activeFiles ++ [item]
      symbols := c.symbols ++ store.symbols.filter fun row => inProject row.projectId row.fileId
      tests := c.tests ++ store.tests.filter fun row => inProject row.projectId row.fileId
      dependencies := c.dependencies ++
        store.dependencies.filter fun row => inProject row.projectId row.sourceFileId
      reusedFileIds := c.reusedFileIds ++ [item.id] }

/-- The dependency with the file that its import leads to. -/
def resolved (activeFiles : List ProjectFile) (dependency : ProjectDependency) :
    Except PyError ProjectDependency :=
  match activeFiles.find? (·.id == dependency.sourceFileId) with
  | none => .error (.other "StopIteration" "")
  | some source => .ok { dependency with
      targetFileId := resolveDependency dependency.importName source.path
        (activeFiles.map (·.toProjectFile)) }

/-- `scan`, up to the claims: nothing is stored. -/
def index (host : OnboardingHost) (selection : Selection) (forceParsePaths : List String)
    (readings : Readings) (store : Store) : Except PyError Indexed := do
  if selection.explicitlySelected = false then
    throw (.other "ProjectSelectionError" "Project onboarding requires an explicit root selection.")
  let root ← ofRead (host.resolveStrict selection.root)
  assertStorageOutside host root
  if store.projects.any (overlaps host (casefold host.tables root)) then
    throw (.other "ProjectSelectionError"
      "Registered project roots must not overlap or contain one another.")
  let before ← ofRead readings.before
  let projectId := host.stableId ["PROJECT", casefold host.tables root]
  let previousFiles := store.files.filter (·.projectId == projectId)
  let previousActive := previousFiles.filter (·.lifecycle == .active)
  let sources ← sources host previousActive readings.walk
  let changes := changesOf host projectId previousActive sources
  let changedPaths := (changes.changes.filter (·.kind != .unchanged)).map (·.path)
  let forcedPaths := forceParsePaths.map forwardSlashes
  let unknownForced := forcedPaths.filter (!(sources.map (·.path)).contains ·)
  if unknownForced ≠ [] then
    throw (.readOnlyViolation ("Forced incremental parse references unknown paths: " ++
      ", ".intercalate (sortedPaths unknownForced)))
  let fileOf : Source → ProjectFile := fun source => {
    id := (changes.ids.lookup source.path).getD ""
    path := source.path
    contentHash := source.contentHash
    language := source.language
    isTest := source.isTest
    projectId
    sizeBytes := source.sizeBytes
    modifiedTimeNs := source.modifiedTimeNs
    lastScanId := host.newScanId }
  let c ← sources.foldlM (collect store readings (changedPaths ++ forcedPaths) fileOf) {}
  let dependencies ← c.dependencies.mapM (resolved c.activeFiles)
  return {
    root
    before
    scan := {
      id := host.newScanId
      projectId
      root
      previousScanId := ((store.scans.filter (·.projectId == projectId)).getLast?).map (·.id)
      changes := changes.changes
      parsedFileCount := c.parsedFileCount
      reusedFileIds := c.reusedFileIds }
    activeFiles := c.activeFiles
    tombstones := (previousFiles.filter fun file => !(c.activeFiles.map (·.id)).contains file.id).map
      fun file => { file with lifecycle := .deleted, lastScanId := host.newScanId }
    symbols := c.symbols
    tests := c.tests
    dependencies
    contentRead := (sources.filter (·.contentRead)).length }

/-! ## The claims -/

/-- `indexed_project_fingerprint(root, ...)`. -/
def Indexed.state (host : OnboardingHost) (ix : Indexed) : String :=
  host.indexedProjectFingerprint ix.root (ix.activeFiles.map fun file => (file.path, file.contentHash))

/-- `{item.path: item.content_hash for item in files}.get(path)`. -/
def Indexed.hashes (ix : Indexed) : Hashes := fun path =>
  (previousAt ix.activeFiles path).map (·.contentHash)

/-- Whether a claim is about the project. -/
def concerns (host : OnboardingHost) (ix : Indexed) (claim : Claim) : Bool :=
  claim.projectRoot != "" && host.resolve claim.projectRoot == ix.root

/-- What the scan would record of a claim of the project, if anything. -/
def reassessed (host : OnboardingHost) (ix : Indexed) (claim : Claim) : Option Claim :=
  let assessment := assessClaimFromIndex claim ix.hashes (ix.state host)
  recordValidity claim assessment.1 (ix.state host) assessment.2

/-- The row of a table of claims, rewritten. -/
def updateTable (table : ClaimTable) (claim : Claim) : ClaimTable where
  rows := updateClaim table.rows claim
  ids := by
    rw [updateClaim_ids]
    exact table.ids

/-- One claim: its record is stored at once. -/
def reassess (host : OnboardingHost) (ix : Indexed) (table : ClaimTable) (claim : Claim) : ClaimTable :=
  if concerns host ix claim then
    match reassessed host ix claim with
    | some updated => updateTable table updated
    | none => table
  else table

def reassessAll (host : OnboardingHost) (ix : Indexed) (table : ClaimTable) : ClaimTable :=
  table.rows.foldl (reassess host ix) table

/-- The claims that were current and are not valid. -/
def invalidatedClaims (host : OnboardingHost) (ix : Indexed) (table : ClaimTable) : List String :=
  (table.rows.filter fun claim => concerns host ix claim && claim.validityStatus == .current &&
    !(assessClaimFromIndex claim ix.hashes (ix.state host)).1).map (·.id)

/-! ## The snapshot -/

/-- Rows of a project in place of those it had. -/
def replaced {α : Type} (projectOf : α → String) (projectId : String) (rows new : List α) : List α :=
  rows.filter (projectOf · != projectId) ++ new

/-- The store with the snapshot of a finished scan. -/
def withSnapshot (store : Store) (ix : Indexed) (scan : ProjectScan) : Store :=
  let project := (store.projects.find? (·.id == scan.projectId)).getD
    { id := scan.projectId, root := ix.root }
  { store with
    projects := Rows.replaceRow (·.id) { project with latestScanId := some scan.id } store.projects
    scans := Rows.replaceRow (·.id) scan store.scans
    files := replaced (·.projectId) scan.projectId store.files (ix.activeFiles ++ ix.tombstones)
    symbols := replaced (·.projectId) scan.projectId store.symbols ix.symbols
    tests := replaced (·.projectId) scan.projectId store.tests ix.tests
    dependencies := replaced (·.projectId) scan.projectId store.dependencies ix.dependencies }

/-- The primary keys of the tables. -/
def Store.keyed (store : Store) : Prop :=
  (store.files.map (·.id)).Nodup ∧ (store.symbols.map (·.id)).Nodup ∧
    (store.tests.map (·.id)).Nodup ∧ (store.dependencies.map (·.id)).Nodup

instance (store : Store) : Decidable store.keyed := inferInstanceAs (Decidable (_ ∧ _ ∧ _ ∧ _))

/-- `save_project_snapshot`, in one transaction. -/
def saveProjectSnapshot (store : Store) (ix : Indexed) (scan : ProjectScan) : Except PyError Store :=
  let saved := withSnapshot store ix scan
  if saved.keyed then .ok saved else .error (.other "IntegrityError" "UNIQUE constraint failed")

def projectChanged : PyError :=
  .readOnlyViolation "The selected project changed during onboarding; no graph snapshot was committed."

/-- `scan`. -/
def scan (host : OnboardingHost) (selection : Selection) (forceParsePaths : List String)
    (readings : Readings) (store : Store) : Except PyError ProjectScan × Store :=
  match index host selection forceParsePaths readings store with
  | .error e => (.error e, store)
  | .ok ix =>
    let assessed := { store with claims := reassessAll host ix store.claims }
    match ofRead readings.after with
    | .error e => (.error e, assessed)
    | .ok after =>
      if ix.before ≠ after then (.error projectChanged, assessed)
      else
        let finished := { ix.scan with
          fileCount := ix.activeFiles.length
          symbolCount := ix.symbols.length
          testCount := ix.tests.length
          dependencyCount := ix.dependencies.length
          contentReadFileCount := ix.contentRead
          invalidatedClaimIds := invalidatedClaims host ix store.claims
          readOnlyVerified := true }
        match saveProjectSnapshot assessed ix finished with
        | .error e => (.error e, assessed)
        | .ok saved => (.ok finished, saved)

/-! ## What a failed scan leaves -/

section
variable {host : OnboardingHost} {ix : Indexed}

/-- A claim as the scan leaves it. -/
def assessedClaim (host : OnboardingHost) (ix : Indexed) (claim : Claim) : Claim :=
  if concerns host ix claim then (reassessed host ix claim).getD claim else claim

theorem assessedClaim_id (claim : Claim) : (assessedClaim host ix claim).id = claim.id := by
  unfold assessedClaim
  split
  · cases h : reassessed host ix claim with
    | none => rfl
    | some updated => exact recordValidity_id h
  · rfl

theorem assessedClaim_eq_iff {claim : Claim} : assessedClaim host ix claim = claim ↔
    (concerns host ix claim = true → reassessed host ix claim = none) := by
  unfold assessedClaim
  by_cases hconcerns : concerns host ix claim = true
  · rw [if_pos hconcerns]
    cases h : reassessed host ix claim with
    | none => simp
    | some updated => simpa [hconcerns] using recordValidity_ne h
  · simp [hconcerns]

/-- The row of the claim is rewritten, the others stay. -/
theorem updateClaim_middle {before after : List Claim} {claim updated : Claim}
    (hid : updated.id = claim.id) (hnew : ∀ row ∈ before ++ after, row.id ≠ claim.id) :
    updateClaim (before ++ claim :: after) updated = before ++ updated :: after := by
  unfold updateClaim
  rw [List.map_append, List.map_cons, hid, if_pos rfl]
  have hsame : ∀ rows : List Claim, (∀ row ∈ rows, row.id ≠ claim.id) →
      rows.map (fun row => if row.id = claim.id then updated else row) = rows := by
    intro rows hrows
    conv_rhs => rw [← List.map_id rows]
    exact List.map_congr_left fun row hrow => if_neg (hrows row hrow)
  rw [hsame before fun row hrow => hnew row (List.mem_append_left _ hrow),
    hsame after fun row hrow => hnew row (List.mem_append_right _ hrow)]

theorem rows_reassess (table : ClaimTable) (claim : Claim) : (reassess host ix table claim).rows =
    if concerns host ix claim then
      match reassessed host ix claim with
      | some updated => updateClaim table.rows updated
      | none => table.rows
    else table.rows := by
  unfold reassess
  split
  · split <;> rfl
  · rfl

/-- One turn of the loop brings one claim up to date. -/
theorem rows_reassess_middle {table : ClaimTable} {before after : List Claim} {claim : Claim}
    (hrows : table.rows = before ++ claim :: after) :
    (reassess host ix table claim).rows = before ++ assessedClaim host ix claim :: after := by
  have hids := table.ids
  rw [hrows, List.map_append, List.map_cons, List.nodup_middle, List.nodup_cons] at hids
  have hnew : ∀ row ∈ before ++ after, row.id ≠ claim.id := by
    intro row hrow heq
    rw [← List.map_append] at hids
    exact hids.1 (List.mem_map.mpr ⟨row, hrow, heq⟩)
  rw [rows_reassess, hrows]
  unfold assessedClaim
  split
  · cases h : reassessed host ix claim with
    | none => rfl
    | some updated => exact updateClaim_middle (recordValidity_id h) hnew
  · rfl

/-- The claims after the loop. -/
theorem rows_reassessAll (table : ClaimTable) :
    (reassessAll host ix table).rows = table.rows.map (assessedClaim host ix) := by
  suffices hfrom : ∀ (after before : List Claim) (current : ClaimTable),
      current.rows = before ++ after →
      (after.foldl (reassess host ix) current).rows = before ++ after.map (assessedClaim host ix) from
    hfrom table.rows [] table rfl
  intro after
  induction after with
  | nil => intro before current h; simpa using h
  | cons claim after ih =>
    intro before current h
    rw [List.foldl_cons, ih (before ++ [assessedClaim host ix claim]) _
      (by rw [rows_reassess_middle h, List.append_assoc]; rfl), List.append_assoc]
    rfl

theorem table_ext {a b : ClaimTable} (h : a.rows = b.rows) : a = b := by
  obtain ⟨rows, ids⟩ := a
  cases h
  rfl

theorem reassessAll_eq_iff {table : ClaimTable} : reassessAll host ix table = table ↔
    ∀ claim ∈ table.rows, concerns host ix claim = true → reassessed host ix claim = none := by
  rw [← show (reassessAll host ix table).rows = table.rows ↔ _ from
    ⟨table_ext, congrArg ClaimTable.rows⟩, rows_reassessAll]
  constructor
  · intro h claim hclaim
    have hmap : table.rows.map (assessedClaim host ix) = table.rows.map id := by rw [h, List.map_id]
    exact assessedClaim_eq_iff.mp (List.map_inj_left.mp hmap claim hclaim)
  · intro h
    conv_rhs => rw [← List.map_id table.rows]
    exact List.map_congr_left fun claim hclaim => assessedClaim_eq_iff.mpr (h claim hclaim)

/-- No claim of the project is assessed otherwise than it is recorded. -/
def Settled (host : OnboardingHost) (selection : Selection) (forceParsePaths : List String)
    (readings : Readings) (store : Store) : Prop :=
  ∀ ix, index host selection forceParsePaths readings store = .ok ix → ∀ claim ∈ store.claims.rows,
    concerns host ix claim = true → reassessed host ix claim = none

/-- **A scan that fails because the project has changed leaves the store as it
was exactly if the claims of the project are recorded as the scan assesses them.** -/
theorem failed_scan_unchanged_iff {selection : Selection} {forceParsePaths : List String}
    {readings : Readings} {store : Store}
    (h : (scan host selection forceParsePaths readings store).1 = .error projectChanged) :
    (scan host selection forceParsePaths readings store).2 = store ↔
      Settled host selection forceParsePaths readings store := by
  have hsettled : ∀ ix, index host selection forceParsePaths readings store = .ok ix →
      (Settled host selection forceParsePaths readings store ↔
        { store with claims := reassessAll host ix store.claims } = store) := by
    intro ix hix
    have hclaims : { store with claims := reassessAll host ix store.claims } = store ↔
        reassessAll host ix store.claims = store.claims := by
      obtain ⟨⟩ := store
      simp
    rw [hclaims, reassessAll_eq_iff]
    exact ⟨fun hall => hall ix hix, fun hall ix' hix' => Except.ok.inj (hix.symm.trans hix') ▸ hall⟩
  unfold scan at h ⊢
  cases hindex : index host selection forceParsePaths readings store with
  | error e => exact iff_of_true rfl fun ix hix => nomatch hindex.symm.trans hix
  | ok ix =>
    rw [hindex] at h
    rw [hsettled ix hindex]
    dsimp only at h ⊢
    -- only the comparison of the manifests raises this exception
    cases hafter : ofRead readings.after with
    | error e => rfl
    | ok after =>
      rw [hafter] at h
      dsimp only at h ⊢
      split
      · rfl
      · next hsame =>
        rw [if_neg hsame] at h
        split at h
        · next e hsaved =>
          unfold saveProjectSnapshot at hsaved
          dsimp only at hsaved
          split at hsaved <;> cases hsaved
          cases h
        · cases h

end

/-! ## A file that grows during the scan -/

def plainHost : OnboardingHost where
  tables := ⟨id, id, id⟩
  resolve path := path
  resolveStrict path := .ok path
  storagePath := none
  isRelativeTo _ _ := false
  commonpath _ _ := none
  stableId parts := "-".intercalate parts
  newScanId := "SCAN"
  indexedProjectFingerprint root files := "-".intercalate (root :: files.map (·.2))

def growing : Readings where
  before := .ok [("a.py", 1, 1)]
  walk := [.ok ⟨"a.py", 1, 1, .ok "digest", "python", false⟩]
  parse _ := .ok ⟨[], [], []⟩
  after := .ok [("a.py", 2, 2)]

/-- One claim, learned when the file was another. -/
def learned : Store where
  projects := []
  scans := []
  files := []
  symbols := []
  tests := []
  dependencies := []
  claims := {
    rows := [{
      id := "CLAIM"
      projectRoot := "project"
      confidence := 1
      sourceFiles := [⟨"a.py", "other digest"⟩] }]
    ids := by decide }

theorem growing_fails : (scan plainHost ⟨"project", true⟩ [] growing learned).1 = .error projectChanged := by
  cases h : (scan plainHost ⟨"project", true⟩ [] growing learned).1 with
  | error e =>
    have he : (match (scan plainHost ⟨"project", true⟩ [] growing learned).1 with
      | .error e => decide (e = projectChanged)
      | .ok _ => false) = true := by decide +kernel
    rw [h] at he
    rw [of_decide_eq_true he]
  | ok finished =>
    have hok : (scan plainHost ⟨"project", true⟩ [] growing learned).1.isOk = false := by
      decide +kernel
    rw [h] at hok
    cases hok

theorem failed_scan_unchanged_iff_growing :
    (scan plainHost ⟨"project", true⟩ [] growing learned).2 = learned ↔
      Settled plainHost ⟨"project", true⟩ [] growing learned :=
  failed_scan_unchanged_iff growing_fails

/-- The failed scan has invalidated the claim. -/
theorem growing_invalidates :
    (scan plainHost ⟨"project", true⟩ [] growing learned).1 = .error projectChanged ∧
      (scan plainHost ⟨"project", true⟩ [] growing learned).2 ≠ learned := by
  refine ⟨growing_fails, fun hsame => ?_⟩
  have hstatus : (scan plainHost ⟨"project", true⟩ [] growing learned).2.claims.rows.map
      (·.validityStatus) = [.invalidated] := by decide +kernel
  rw [hsame] at hstatus
  exact absurd hstatus (by decide)

end RlmGraph.Projects.Onboarding
