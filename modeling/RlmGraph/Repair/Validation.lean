import RlmGraph.Lib.Results
import RlmGraph.Repair.Records

/-! # The validation of a repair

A repair is proposed by a worker on a mirror on which the affected test fails,
and verified if the test passes on what the worker leaves. The patch is taken
against the files before the first test run, the changes against those after
it: it is the tested repair exactly if that run has not touched what the worker
leaves alone (`verified_tested_iff`). A verified repair is reused under a key
that speaks of the digests recorded with the diagnosis, not of the files
(`replay_fits`). -/
namespace RlmGraph.Repair.Validation
open RlmGraph.Lib RlmGraph.Lib.JsonText RlmGraph.Lib.Results
open RlmGraph.Knowledge.Records (SourceFile)
open RlmGraph.Runner.Records (TaskStatus StoppingReason)
open RlmGraph.Sandbox.Records (PatchChange TestExecution)
open RlmGraph.Repair.Records

/-! ## One attempt -/

def noSuchFile (path : String) : PyError := .os s!"No such file or directory: {path}"

/-- One authorized file, copied and read back. -/
def copyFile (host : RepairHost) (root : String) (project : Project) (relative : String) :
    Except PyError (String × Bytes) :=
  match project (host.target root relative) with
  | some (.file bytes) => .ok (relative, bytes)
  | some .folder => .error (.os s!"Is a directory: {relative}")
  | none => .error (noSuchFile relative)

def copySlice (host : RepairHost) (root : String) (project : Project) (authorized : List String) :
    Except PyError Mirror :=
  authorized.mapM (copyFile host root project)

/-- `manifest.get(path)` of `_mirror_manifest`. -/
def digestAt (host : RepairHost) (mirror : Mirror) (path : String) : Option String :=
  (mirror.lookup path).map host.sha256

def changedPaths (host : RepairHost) (baseline after : Mirror) : List String :=
  sortedPaths ((baseline.map Prod.fst ++ after.map Prod.fst).filter fun path =>
    digestAt host baseline path != digestAt host after path)

/-- `original_content[path]`. -/
def item (mirror : Mirror) (path : String) : Except PyError Bytes :=
  match mirror.lookup path with
  | some bytes => .ok bytes
  | none => .error (.key path)

/-- `_patch_change`. -/
def patchChange (host : RepairHost) (path : String) (before : Bytes) (mirror : Mirror) :
    Except PyError PatchChange :=
  match mirror.lookup path with
  | none => .error (noSuchFile path)
  | some after => do
    let beforeText ← decodeUtf8 before
    let afterText ← decodeUtf8 after
    return {
      path
      beforeHash := host.sha256 before
      afterHash := host.sha256 after
      beforeContent := some beforeText
      afterContent := some afterText }

/-- What an attempt works on. -/
structure Request where
  diagnosis : Claim
  root : String
  testPath : String
  authorized : List String
  command : List String

/-- What happens in the mirror. -/
structure Trial where
  slice : Mirror
  before : TestExecution
  result : RepairWorkerResult
  changes : List PatchChange
  after : TestExecution

/-- The block of `_attempt` that works in the mirror. -/
def trial (host : RepairHost) (request : Request) (question : String) (world : World) :
    Except PyError Trial := do
  let slice ← copySlice host request.root world.project request.authorized
  let (before, tested) ← host.execute world.tick request.command slice
  if before.exitCode = 0 then
    throw (.value "The selected test does not fail in the disposable mirror.")
  let (result, repaired) ← host.repair world.tick question request.diagnosis tested
  let changed := changedPaths host tested repaired
  let outside := changed.filter (!request.authorized.contains ·)
  if outside ≠ [] then
    throw (.readOnlyViolation ("Repair worker changed files outside its authorized slice: " ++
      ", ".intercalate outside))
  let reported := (result.filesChanged.map forwardSlashes).insertionSort (· ≤ ·)
  if reported ≠ changed then
    throw (.readOnlyViolation ("Repair worker change report does not match the mirror diff: " ++
      s!"reported {host.listText reported}, actual {host.listText changed}"))
  let changes ← changed.mapM fun path => do
    patchChange host path (← item slice path) repaired
  let (after, _) ← host.execute (world.tick + 1) request.command repaired
  return ⟨slice, before, result, changes, after⟩

/-- Why a trial does not verify its repair. -/
def reasons (host : RepairHost) (t : Trial) : List String :=
  (if t.changes = [] then ["worker produced no patch"] else []) ++
    (if t.after.exitCode ≠ 0 then [s!"affected test still exits {t.after.exitCode}"] else []) ++
    if t.result.confidence < host.minimumConfidence then
      [s!"confidence {host.threeDecimals t.result.confidence} is below {host.threeDecimals host.minimumConfidence}"]
    else []

def Trial.verified (host : RepairHost) (t : Trial) : Prop :=
  t.changes ≠ [] ∧ t.after.exitCode = 0 ∧ host.minimumConfidence ≤ t.result.confidence

instance (host : RepairHost) (t : Trial) : Decidable (t.verified host) :=
  inferInstanceAs (Decidable (_ ∧ _ ∧ _))

def proposalOf (host : RepairHost) (request : Request) (task : Task) (signature originalState : String)
    (number : Nat) (t : Trial) : RepairProposal where
  id := host.newId "REPAIR" number
  repairTaskId := task.id
  diagnosisClaimId := request.diagnosis.id
  projectRoot := request.root
  projectFingerprint := task.projectFingerprint
  sourceTreeFingerprint := originalState
  testPath := request.testPath
  authorizedPaths := request.authorized
  supportingClaimIds := request.diagnosis.id :: request.diagnosis.sourceClaimIds
  changes := t.changes
  rationale := t.result.rationale
  confidence := t.result.confidence
  worker := host.workerName
  modelCalls := t.result.modelCalls
  signature
  status := if t.verified host then .verified else .rejected

def validationOf (host : RepairHost) (task : Task) (attempt number : Nat) (t : Trial) :
    RepairValidation where
  id := host.newId "VALIDATION" number
  repairTaskId := task.id
  proposalId := host.newId "REPAIR" number
  attempt
  status := if t.verified host then .verified else .rejected
  before := t.before
  after := t.after
  originalUnchanged := true
  failureReason := if t.verified host then none else some ("; ".intercalate (reasons host t))
  slice := t.slice

def settledTask (host : RepairHost) (task : Task) (t : Trial) : Task :=
  { task with
    status := if t.verified host then .done else .stopped
    stoppingReason := some (if t.verified host then .completed else .lowConfidence)
    lastError := if t.verified host then none else some ("; ".intercalate (reasons host t)) }

/-- `store.save_task`. -/
def saveTask (store : RepairStore) (task : Task) : RepairStore :=
  { store with tasks := Rows.replaceRow (·.id) task store.tasks }

/-- The records of a finished attempt. -/
def saveAttempt (store : RepairStore) (task : Task) (proposal : RepairProposal)
    (validation : RepairValidation) : RepairStore :=
  { saveTask store task with
    repairProposals := store.repairProposals ++ [proposal]
    repairValidations := store.repairValidations ++ [validation] }

structure Attempted where
  task : Task
  proposal : RepairProposal
  validation : RepairValidation

/-- `_attempt`. -/
def attempt (host : RepairHost) (request : Request) (task : Task) (signature originalState : String)
    (number : Nat) (world : World) : Except PyError Attempted × World :=
  let next := { world with tick := world.tick + 2 }
  match trial host request task.question world with
  | .error e => (.error e, next)
  | .ok t =>
    if host.treeFingerprint request.root world.project ≠ originalState then
      (.error (.readOnlyViolation "The original project changed during repair validation."), next)
    else
      let made : Attempted := {
        task := settledTask host task t
        proposal := proposalOf host request task signature originalState world.tick t
        validation := validationOf host task number world.tick t }
      (.ok made,
        { next with store := saveAttempt world.store made.task made.proposal made.validation })

/-! ## `validate` -/

/-- The payload of `_signature`. -/
def signed (diagnosis : Claim) (authorized command : List String) : List (String × Json) := [
  ("diagnosis", .str diagnosis.fingerprint),
  ("sources", .arr (diagnosis.sourceFiles.map fun source =>
    .arr [.str source.path, .str source.contentHash])),
  ("authorized", .arr (authorized.map .str)),
  ("command", .arr (command.map .str))]

/-- `_signature`. -/
def signature (host : RepairHost) (diagnosis : Claim) (authorized command : List String) : String :=
  host.sha256 (utf8 (dumps ⟨true, true⟩ (.obj (signed diagnosis authorized command))))

structure Call where
  diagnosisClaimId : String
  testPath : String
  question : Option String := none

/-- One path of `_validate_authorized_paths`. -/
def validateAuthorizedPath (host : RepairHost) (root : String) (project : Project)
    (relative : String) : Except PyError Unit :=
  if host.isAbsolute relative then
    .error (.readOnlyViolation s!"Absolute repair path is forbidden: {relative}")
  else if project (host.target root relative) = none then .error (noSuchFile relative)
  else if host.isRelativeTo (host.target root relative) root = false then
    .error (.readOnlyViolation s!"Repair path escapes the selected project: {relative}")
  else .ok ()

/-- What a call asks for: the diagnosis, its task and the request. -/
structure Prepared where
  task : Task
  request : Request

/-- `validate`, up to the key. -/
def prepare (host : RepairHost) (call : Call) (world : World) : Except PyError Prepared := do
  let some diagnosis := world.store.claims.find? (·.id == call.diagnosisClaimId)
    | throw (.value s!"Completed diagnosis not found: {call.diagnosisClaimId}")
  let some sourceTaskId := diagnosis.sourceTaskId.filter (· ≠ "")
    | throw (.value s!"Completed diagnosis not found: {call.diagnosisClaimId}")
  let some task := world.store.tasks.find? (·.id == sourceTaskId)
    | throw (.value "Repair validation requires a completed graph-directed diagnosis.")
  if task.status ≠ .done then
    throw (.value "Repair validation requires a completed graph-directed diagnosis.")
  let root ← host.selectRoot task.projectRoot
  let normalized := forwardSlashes call.testPath
  let authorized := sortedPaths task.relevantFiles
  if normalized ∉ authorized then
    throw (.readOnlyViolation "The selected test is outside the diagnosed dependency slice.")
  let _ ← authorized.mapM (validateAuthorizedPath host root world.project)
  return {
    task
    request := {
      diagnosis, root, authorized
      testPath := normalized
      command := [host.executable, "-m", "pytest", normalized, "-q", "-p", "no:cacheprovider"] } }

/-- `_verified_replay`. -/
def verifiedReplay (store : RepairStore) (signature : String) :
    Option (RepairProposal × RepairValidation) :=
  (store.repairProposals.filter fun proposal =>
      proposal.signature == signature && proposal.status == .verified).reverse.findSome?
    fun proposal =>
      (store.repairValidations.reverse.find? fun validation =>
        validation.proposalId == proposal.id && validation.status == .verified).map (proposal, ·)

/-- `_create_task`. -/
def createTask (host : RepairHost) (p : Prepared) (question : String) (number : Nat)
    (parent : Option Task) (world : World) : Task × World :=
  let task : Task := {
    id := host.newId "TASK" world.tick
    question
    fingerprint := host.taskFingerprint s!"repair:{number}:{question}" p.task.projectFingerprint
    projectFingerprint := p.task.projectFingerprint
    projectRoot := p.task.projectRoot
    parentTaskId := some ((parent.getD p.task).id)
    sourceClaimIds := p.request.diagnosis.id :: p.request.diagnosis.sourceClaimIds
    relevantFiles := p.request.authorized
    depth := (parent.getD p.task).depth + 1 }
  (task, { world with store := saveTask world.store task, tick := world.tick + 1 })

/-- `_retry_question`. -/
def retryQuestion (validation : RepairValidation) : String :=
  "The previous sandboxed repair was rejected: " ++ validation.failureReason.getD "None" ++
    ". Propose a corrected bounded repair."

/-- `_proposals_for`. -/
def proposalsFor (store : RepairStore) (validations : List RepairValidation) : List RepairProposal :=
  store.repairProposals.filter ((validations.map (·.proposalId)).contains ·.id)

/-- The attempts so far, the last of them with its task and proposal. -/
structure Attempts where
  last : Attempted
  attempts : List RepairValidation
  retryTasks : List Task

/-- The result of a run; each attempt has called the worker once. -/
def runResult (store : RepairStore) (a : Attempts) : RepairRunResult where
  repairTask := a.last.task
  proposal := a.last.proposal
  validation := a.last.validation
  attempts := a.attempts
  retryTasks := a.retryTasks
  workerCalls := a.attempts.length
  modelCalls := ((proposalsFor store a.attempts).map (·.modelCalls)).sum

/-- One turn of the loop: a task of its own and an attempt. -/
def tryOnce (host : RepairHost) (p : Prepared) (prompt originalState : String)
    (prior : Option Attempts) (world : World) : Except PyError Attempts × World :=
  let number := (prior.elim 0 (·.attempts.length)) + 1
  let question := prior.elim prompt fun a => retryQuestion a.last.validation
  let (task, world) := createTask host p question number (prior.map (·.last.task)) world
  let key := signature host p.request.diagnosis p.request.authorized p.request.command
  match attempt host p.request task key originalState number world with
  | (.error e, world) => (.error e, world)
  | (.ok made, world) =>
    (.ok {
      last := made
      attempts := prior.elim [] (·.attempts) ++ [made.validation]
      retryTasks := prior.elim [] fun a => a.retryTasks ++ [task] }, world)

/-- The loop behind its first turn, for at most so many more. -/
def retryLoop (host : RepairHost) (p : Prepared) (prompt originalState : String) :
    Nat → Attempts → World → Except PyError RepairRunResult × World
  | 0, a, world => (.ok (runResult world.store a), world)
  | left + 1, a, world =>
    if a.last.validation.status = .verified then (.ok (runResult world.store a), world)
    else
      match tryOnce host p prompt originalState (some a) world with
      | (.error e, world) => (.error e, world)
      | (.ok a, world) => retryLoop host p prompt originalState left a world

/-- The reuse of a verified repair. -/
def replayed (host : RepairHost) (p : Prepared) (prompt : String)
    (replay : RepairProposal × RepairValidation) (world : World) :
    Except PyError RepairRunResult × World :=
  let (task, world) := createTask host p prompt 1 none world
  let task := { task with
    status := .done
    reuseType := some "verified-repair"
    reuseReason := some "An identical source slice already has a verified repair."
    stoppingReason := some .completed }
  (.ok {
    repairTask := task
    proposal := replay.1
    validation := replay.2
    attempts := [replay.2]
    workerCalls := 0
    modelCalls := 0
    reused := true }, { world with store := saveTask world.store task })

/-- `validate`. -/
def validate (host : RepairHost) (call : Call) (world : World) :
    Except PyError RepairRunResult × World :=
  match prepare host call world with
  | .error e => (.error e, world)
  | .ok p =>
    let key := signature host p.request.diagnosis p.request.authorized p.request.command
    let prompt := (orText call.question none).getD
      s!"Repair the verified diagnosis: {p.request.diagnosis.conclusion}"
    match verifiedReplay world.store key with
    | some replay => replayed host p prompt replay world
    | none =>
      let originalState := host.treeFingerprint p.request.root world.project
      match tryOnce host p prompt originalState none world with
      | (.error e, world) => (.error e, world)
      | (.ok a, world) => retryLoop host p prompt originalState (host.maxAttempts - 1) a world

/-! ## A verified patch -/

/-- The slice with the contents of a patch. -/
def patched (slice : Mirror) (changes : List PatchChange) (path : String) : Option Bytes :=
  match changes.find? (·.path == path) with
  | some change => change.afterContent.map utf8
  | none => slice.lookup path

/-- What the mirror of an attempt goes through up to the second test run. -/
structure Mirrors (host : RepairHost) (request : Request) (question : String) (world : World) where
  slice : Mirror
  before : TestExecution
  tested : Mirror
  result : RepairWorkerResult
  repaired : Mirror
  copied : copySlice host request.root world.project request.authorized = .ok slice
  ran : host.execute world.tick request.command slice = .ok (before, tested)
  worked : host.repair world.tick question request.diagnosis tested = .ok (result, repaired)

section
variable {host : RepairHost} {request : Request} {question : String} {world : World}

/-- The patch turns the slice, on which the test fails, into the authorized
files on which it passes. -/
structure TestedPatch (m : Mirrors host request question world) (changes : List PatchChange) : Prop where
  failed : m.before.exitCode ≠ 0
  passed : ∃ after last, host.execute (world.tick + 1) request.command m.repaired = .ok (after, last) ∧
    after.exitCode = 0
  replaces : ∀ change ∈ changes, m.slice.lookup change.path = change.beforeContent.map utf8
  gives : ∀ path ∈ request.authorized, patched m.slice changes path = m.repaired.lookup path

/-- What the worker leaves as the first test run left it is as in the slice. -/
def LeftAlone (m : Mirrors host request question world) : Prop :=
  ∀ path ∈ request.authorized, digestAt host m.tested path = digestAt host m.repaired path →
    m.repaired.lookup path = m.slice.lookup path

theorem mem_changedPaths {baseline after : Mirror} {path : String} :
    path ∈ changedPaths host baseline after ↔ digestAt host baseline path ≠ digestAt host after path := by
  unfold changedPaths
  rw [mem_sortedPaths, List.mem_filter, bne_iff_ne]
  refine ⟨And.right, fun h => ⟨?_, h⟩⟩
  -- a path in neither mirror has no digest in either
  by_contra hnot
  rw [List.mem_append, not_or] at hnot
  have hnone : ∀ mirror : Mirror, path ∉ mirror.map Prod.fst → mirror.lookup path = none := by
    intro mirror hout
    refine List.lookup_eq_none_iff.mpr fun entry hentry => ?_
    have hne : path ≠ entry.1 := fun heq => hout (List.mem_map.mpr ⟨entry, hentry, heq.symm⟩)
    simpa using hne
  unfold digestAt at h
  rw [hnone _ hnot.1, hnone _ hnot.2] at h
  exact h rfl

/-- A change holds the contents before and after. -/
structure IsPatch (slice repaired : Mirror) (change : PatchChange) : Prop where
  before : slice.lookup change.path = change.beforeContent.map utf8
  after : repaired.lookup change.path = change.afterContent.map utf8

theorem isPatch {slice repaired : Mirror} {path : String} {change : PatchChange}
    (h : (do patchChange host path (← item slice path) repaired) = Except.ok change) :
    change.path = path ∧ IsPatch slice repaired change := by
  obtain ⟨before, hbefore, h⟩ := bind_ok h
  unfold patchChange at h
  unfold item at hbefore
  split at hbefore <;> cases hbefore
  next hlookup =>
  split at h
  · cases h
  · next after hafter =>
    obtain ⟨beforeText, hbefore, h⟩ := bind_ok h
    obtain ⟨afterText, htext, h⟩ := bind_ok h
    cases h
    refine ⟨rfl, ?_, ?_⟩
    · rw [hlookup, Option.map_some, utf8_of_decode hbefore]
    · rw [hafter, Option.map_some, utf8_of_decode htext]

/-- The trial of an attempt, seen from its mirrors. -/
structure Tried (m : Mirrors host request question world) (t : Trial) : Prop where
  slice : t.slice = m.slice
  before : t.before = m.before
  result : t.result = m.result
  failed : m.before.exitCode ≠ 0
  ran : ∃ last, host.execute (world.tick + 1) request.command m.repaired = .ok (t.after, last)
  paths : ∀ path, path ∈ t.changes.map (·.path) ↔ path ∈ changedPaths host m.tested m.repaired
  patches : ∀ change ∈ t.changes, IsPatch m.slice m.repaired change

theorem tried (m : Mirrors host request question world) {t : Trial}
    (h : trial host request question world = .ok t) : Tried m t := by
  obtain ⟨slice, hslice, h⟩ := bind_ok h
  cases hslice.symm.trans m.copied
  obtain ⟨⟨before, tested⟩, hran, h⟩ := bind_ok h
  cases hran.symm.trans m.ran
  obtain ⟨hfailed, h⟩ := ite_throw_bind_ok h
  obtain ⟨⟨result, repaired⟩, hworked, h⟩ := bind_ok h
  cases hworked.symm.trans m.worked
  obtain ⟨-, h⟩ := ite_throw_bind_ok h
  obtain ⟨-, h⟩ := ite_throw_bind_ok h
  obtain ⟨changes, hchanges, h⟩ := bind_ok h
  obtain ⟨⟨after, last⟩, hafter, h⟩ := bind_ok h
  cases h
  have hall := mapM_ok hchanges
  refine ⟨rfl, rfl, rfl, hfailed, ⟨last, hafter⟩, fun path => ⟨fun hpath => ?_, fun hpath => ?_⟩,
    fun change hchange => ?_⟩
  · obtain ⟨change, hchange, rfl⟩ := List.mem_map.mp hpath
    obtain ⟨path, hpath, hmade⟩ := mem_of_forall₂ hall hchange
    rw [(isPatch hmade).1]
    exact hpath
  · obtain ⟨change, hchange, hmade⟩ := exists_of_forall₂ hall hpath
    exact List.mem_map.mpr ⟨change, hchange, (isPatch hmade).1⟩
  · obtain ⟨path, -, hmade⟩ := mem_of_forall₂ hall hchange
    exact (isPatch hmade).2

/-- The patch gives a path the content it was tested with, unless the worker
has left the path alone; then it keeps that of the slice. -/
theorem patched_eq {m : Mirrors host request question world} {t : Trial} (h : Tried m t) (path : String) :
    patched m.slice t.changes path =
      if digestAt host m.tested path = digestAt host m.repaired path then m.slice.lookup path
      else m.repaired.lookup path := by
  unfold patched
  cases hfind : t.changes.find? (·.path == path) with
  | none =>
    have hout : path ∉ changedPaths host m.tested m.repaired := by
      rw [← h.paths path]
      intro hmem
      obtain ⟨change, hchange, hpath⟩ := List.mem_map.mp hmem
      exact List.find?_eq_none.mp hfind change hchange (beq_iff_eq.mpr hpath)
    rw [mem_changedPaths, not_not] at hout
    rw [if_pos hout]
  | some change =>
    have hchange := List.mem_of_find?_eq_some hfind
    have hpath : change.path = path := by simpa using List.find?_some hfind
    have hin : path ∈ changedPaths host m.tested m.repaired :=
      (h.paths path).mp (List.mem_map.mpr ⟨change, hchange, hpath⟩)
    rw [if_neg (mem_changedPaths.mp hin), ← hpath, (h.patches change hchange).after]

theorem attempt_ok {task : Task} {key originalState : String} {number : Nat} {made : Attempted}
    (h : (attempt host request task key originalState number world).1 = .ok made) :
    ∃ t, trial host request task.question world = .ok t ∧
      made.proposal = proposalOf host request task key originalState world.tick t ∧
      made.validation = validationOf host task number world.tick t := by
  unfold attempt at h
  dsimp only at h
  split at h
  · cases h
  · next t ht =>
    split at h
    · cases h
    · cases h
      exact ⟨t, ht, rfl, rfl⟩

/-- **A verified patch is the repair that was tested exactly if the first test
run has not touched what the worker leaves alone.** -/
theorem verified_tested_iff {task : Task} {key originalState : String} {number : Nat} {made : Attempted}
    (m : Mirrors host request task.question world)
    (h : (attempt host request task key originalState number world).1 = .ok made)
    (hverified : made.proposal.status = .verified) :
    TestedPatch m made.proposal.changes ↔ LeftAlone m := by
  obtain ⟨t, ht, hproposal, -⟩ := attempt_ok h
  have htried := tried m ht
  rw [hproposal] at hverified ⊢
  change TestedPatch m t.changes ↔ _
  have hpassed : t.verified host := by
    unfold proposalOf at hverified
    by_contra hnot
    simp [hnot] at hverified
  constructor
  · intro htested path hpath hsame
    rw [← htested.gives path hpath, patched_eq htried, if_pos hsame]
  · intro hleft
    obtain ⟨last, hran⟩ := htried.ran
    refine ⟨htried.failed, ⟨t.after, last, hran, hpassed.2.1⟩,
      fun change hchange => (htried.patches change hchange).before, fun path hpath => ?_⟩
    rw [patched_eq htried]
    split
    · next hsame => exact (hleft path hpath hsame).symm
    · rfl

end

/-! ## A test that writes -/

/-- Names by their length. -/
def countedId (kind : String) (n : Nat) : String := kind ++ String.ofList (List.replicate n '-')

theorem countedId_inj (kind : String) : Function.Injective (countedId kind) := by
  intro a b h
  have hlength := congrArg String.length h
  simpa [countedId] using hlength

/-- The bytes as characters. -/
def bytesText (bytes : Bytes) : String := String.ofList (bytes.map fun byte => Char.ofNat byte.toNat)

def Mirror.write (mirror : Mirror) (path text : String) : Mirror :=
  mirror.map fun entry => if entry.1 = path then (path, utf8 text) else entry

theorem two_attempts : 1 ≤ 2 := by decide

/-- The first test run fails and rewrites the test, later ones pass; the worker
repairs the source. -/
def rewritingHost : RepairHost where
  sha256 := bytesText
  taskFingerprint question _ := question
  treeFingerprint root _ := root
  selectRoot root := .ok root
  isAbsolute _ := false
  target _ relative := relative
  isRelativeTo _ _ := true
  executable := "python"
  listText := ", ".intercalate
  threeDecimals _ := ""
  newId := countedId
  newId_inj := countedId_inj
  execute number command mirror :=
    .ok (⟨command, if number = 0 then 1 else 0⟩, Mirror.write mirror "t.py" "new")
  repair _ _ _ mirror :=
    .ok ({ rationale := "repaired", confidence := 1, filesChanged := ["a.py"] },
      Mirror.write mirror "a.py" "new")
  workerName := "Worker"
  attempts_pos := two_attempts

def sourceAndTest : Project
  | "a.py" | "t.py" => some (.file (utf8 "old"))
  | _ => none

def rewritingRequest : Request where
  diagnosis := ⟨"CLAIM", "fingerprint", "conclusion", some "TASK", [], [⟨"a.py", "old"⟩]⟩
  root := "project"
  testPath := "t.py"
  authorized := ["a.py", "t.py"]
  command := ["python", "-m", "pytest", "t.py"]

def rewritingTask : Task where
  id := "REPAIR-TASK"
  question := "question"
  fingerprint := "question"
  projectFingerprint := "state"
  projectRoot := "project"

def rewritingWorld : World := ⟨⟨[], [], [], []⟩, sourceAndTest, 0⟩

def rewritten : Except PyError Attempted :=
  (attempt rewritingHost rewritingRequest rewritingTask "key" "project" 1 rewritingWorld).1

def rewritingMirrors :
    Mirrors rewritingHost rewritingRequest rewritingTask.question rewritingWorld where
  slice := [("a.py", utf8 "old"), ("t.py", utf8 "old")]
  before := ⟨rewritingRequest.command, 1⟩
  tested := [("a.py", utf8 "old"), ("t.py", utf8 "new")]
  result := { rationale := "repaired", confidence := 1, filesChanged := ["a.py"] }
  repaired := [("a.py", utf8 "new"), ("t.py", utf8 "new")]
  copied := rfl
  ran := rfl
  worked := rfl

theorem rewritten_verified : ∃ made, rewritten = .ok made ∧ made.proposal.status = .verified := by
  have hstatus : rewritten.toOption.map (·.proposal.status) = some .verified := by decide +kernel
  cases h : rewritten with
  | error e =>
    rw [h] at hstatus
    cases hstatus
  | ok made =>
    rw [h] at hstatus
    exact ⟨made, rfl, Option.some.inj hstatus⟩

theorem verified_tested_iff_rewritten : ∃ made, rewritten = .ok made ∧
    (TestedPatch rewritingMirrors made.proposal.changes ↔ LeftAlone rewritingMirrors) := by
  obtain ⟨made, h, hverified⟩ := rewritten_verified
  exact ⟨made, h, verified_tested_iff rewritingMirrors h hverified⟩

/-- What the first test run has written is in the tested mirror, not in the patch. -/
theorem rewritten_not_tested : ∃ made, rewritten = .ok made ∧ made.proposal.status = .verified ∧
    ¬TestedPatch rewritingMirrors made.proposal.changes := by
  obtain ⟨made, h, hverified⟩ := rewritten_verified
  refine ⟨made, h, hverified, fun htested => ?_⟩
  have hkept : rewritten.toOption.map (fun made =>
      patched rewritingMirrors.slice made.proposal.changes "t.py") = some (some (utf8 "old")) := by
    decide +kernel
  rw [h] at hkept
  have hpatched : patched rewritingMirrors.slice made.proposal.changes "t.py" = some (utf8 "old") :=
    Option.some.inj hkept
  have hgives := htested.gives "t.py" (by decide)
  rw [hpatched] at hgives
  exact absurd hgives (by decide)

end RlmGraph.Repair.Validation
