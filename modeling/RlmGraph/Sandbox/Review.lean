import RlmGraph.Sandbox.Recover

/-! # The review of a sandbox attempt

The calls of the manager on an attempt that waits for its promotion: it is
discarded, a person attests a requirement, a validation worker runs in a mirror
of the authorized files, or the report of an outside tool is imported. They
read and write columns of the attempt that a promotion leaves alone; these are
the locals of a call, by attempt. What the runner of a worker does to the
mirror is an oracle of the host. -/
namespace RlmGraph.Sandbox.Review
open RlmGraph.Lib RlmGraph.Lib.JsonText RlmGraph.Lib.PyText RlmGraph.Lib.Programs
open RlmGraph.Governance.Tickets (ProjectTicket microseconds)
open RlmGraph.Governance.Policy RlmGraph.Governance.ArtifactKinds
open RlmGraph.Sandbox.Records RlmGraph.Sandbox.Operations RlmGraph.Sandbox.Approval

/-! ## Records -/

structure ValidationWorkerLimits where
  maxWallTime : Int := 30000000
  maxProcesses : Nat := 1
  maxMemoryBytes : Nat := 512 * 1024 * 1024
  maxOutputBytes : Nat := 20000
  allowedPaths : List String := []
  allowedArtifactKinds : List String := []
  allowedExecutables : List String := []
  allowedArgumentTemplates : List (List String) := []
  deriving DecidableEq

structure ValidationWorkerSpec where
  id : String
  name : String
  categories : List String
  artifactKinds : List String
  executable : String
  arguments : List String
  limits : ValidationWorkerLimits
  enabled : Bool := true
  authorizationReason : String

structure BoundedProcessResult where
  exitCode : Int
  /-- Time, processes, memory and output, as the detail of the evidence names them. -/
  measured : String
  failureReason : Option String := none

structure SandboxValidationWorkerExecution where
  id : String
  ticketId : String
  attemptId : String
  decisionId : String
  workerId : String
  workerName : String
  category : String
  artifactKind : String
  path : String
  sourceManifestSha256 : String
  patchSha256 : String
  authorizationStatus : String := "AUTHORIZED"
  policyId : String
  policyVersion : Nat
  command : List String := []
  limits : ValidationWorkerLimits
  status : String := "AUTHORIZED"
  exitCode : Option Int := none
  failureReason : Option String := none
  evidence : List Evidence := []
  checkpoints : List SandboxCheckpoint := []
  deriving DecidableEq

structure SandboxExternalValidationReport where
  id : String
  ticketId : String
  attemptId : String
  decisionId : String
  reportKind : String
  artifactPath : String
  sourceManifestSha256 : String
  patchSha256 : String
  reportSha256 : String
  reportBytes : Bytes
  status : String
  detail : String
  recordedBy : String
  policyId : String
  policyVersion : Nat
  ruleIds : List String
  bindingSha256 : String
  evidence : List Evidence
  deriving DecidableEq

/-- The columns of an attempt that promotions leave alone. -/
structure ReviewColumns where
  validationEvidence : List Evidence := []
  validationWorkerExecutions : List SandboxValidationWorkerExecution := []
  externalValidationReports : List SandboxExternalValidationReport := []
  failureReason : Option String := none
  filesystemDisposed : Bool := false
  executionAuthorized : Bool := false
  discarded : Bool := false

abbrev Columns := String → ReviewColumns

abbrev ReviewAct (α : Type) := SandboxAct Columns α

/-- The files of a mirror, by relative path. -/
abbrev Mirror := List (String × Bytes)

structure ReviewHost extends SandboxHost where
  validationWorkers : List ValidationWorkerSpec
  /-- What the runner comes to, by a drawn name, and the mirror it leaves. -/
  validationRunner : String → List String → ValidationWorkerLimits → Mirror →
    Except PyError BoundedProcessResult × Mirror
  maxExternalReportBytes : Nat

/-! ## Columns and decisions -/

def columnsOf (attemptId : String) : ReviewAct ReviewColumns := do
  return (← Act.get) attemptId

def updateColumns (attemptId : String) (f : ReviewColumns → ReviewColumns) : ReviewAct Unit :=
  Act.modify fun columns => Function.update columns attemptId (f (columns attemptId))

/-- `_validation_decision`. -/
def validationDecision (attempt : ImplementationSandboxAttempt) (decisionId : String) :
    Except PyError SandboxValidationDecision :=
  match attempt.validationDecisions.find? (·.id == decisionId) with
  | some decision => .ok decision
  | none => .error (.value s!"Sandbox validation decision not found: {decisionId}")

/-- The attempt with its first decision of that identifier replaced. -/
def withDecision (attempt : ImplementationSandboxAttempt) (decision : SandboxValidationDecision) :
    ImplementationSandboxAttempt :=
  let index := attempt.validationDecisions.findIdx (·.id == decision.id)
  { attempt with validationDecisions := attempt.validationDecisions.modify index fun _ => decision }

/-! ## Discarding -/

/-- `discard`. -/
def discard (ticketId attemptId : String) : ReviewAct ImplementationSandboxAttempt := do
  let attempt ← ask fun store =>
    match store.sandboxes.find? fun item => item.ticketId == ticketId && item.id == attemptId with
    | some attempt => .ok attempt
    | none => .error (.value s!"Sandbox attempt not found: {attemptId}")
  let attempt := { attempt with status := "DISCARDED" }
  updateColumns attempt.id fun columns => { columns with
    filesystemDisposed := true, discarded := true, executionAuthorized := false }
  let attempt ← checkpoint attempt "DISCARDED" "Reviewable proposal discarded; source unchanged."
  saveImplementationSandbox attempt
  return attempt

/-! ## Attestations -/

/-- What an attestation of a requirement is bound to. -/
def attestationBinding (host : SandboxHost) (policy : ProjectGovernancePolicy)
    (attempt : ImplementationSandboxAttempt) (decision : SandboxValidationDecision) : String :=
  binding host.toGovernanceHost (.obj [
    ("project_id", .str attempt.projectId),
    ("project_root", .str (host.canonicalRoot attempt.projectRoot)),
    ("artifact_id", .str decision.id),
    ("source_manifest_sha256", .str attempt.initialManifestSha256),
    ("patch_sha256", .str (patchSha256 host attempt)),
    ("requirement", .obj [("path", .str decision.path), ("artifact_kind", .str decision.artifactKind),
      ("category", .str decision.category), ("requirement", .str decision.requirement)]),
    ("policy_id", .str policy.id),
    ("policy_version", .int policy.version)])

/-- The records of an attestation; one draw names them. -/
def attestationRecords (host : SandboxHost) (policy : ProjectGovernancePolicy)
    (attempt : ImplementationSandboxAttempt) (decision : SandboxValidationDecision)
    (verdict actor reason : String) (evidenceSha256 : Option String) (drawn : String) :
    Except PyError (List GovernanceDecision) :=
  recordDecisions host.toGovernanceHost policy
    { action := "ATTESTATION"
      artifactId := decision.id
      artifactKinds := [decision.artifactKind]
      decision := verdict
      actor := actor
      reason := reason
      bindingSha256 := attestationBinding host policy attempt decision
      sourceManifestSha256 := some attempt.initialManifestSha256
      patchSha256 := some (patchSha256 host attempt)
      requirementsSha256 := some (binding host.toGovernanceHost
        (.obj [("requirement", .str decision.requirement)]))
      evidenceSha256 := evidenceSha256 } (drawn ++ ·)

/-- Who attested the requirement. -/
def attestedBy (bindingSha256 : String) (history : List GovernanceDecision) : String :=
  ", ".intercalate (sortedSet ((history.filter fun item =>
    item.decision == .approved && item.bindingSha256 == bindingSha256).map (·.actor)))

/-- `satisfy_validation`. -/
def satisfyValidation (host : ReviewHost)
    (ticketId attemptId decisionId actor detail governanceDecision : String) :
    ReviewAct ImplementationSandboxAttempt := do
  let attempt ← ask (attemptOf host.toSandboxHost ticketId attemptId)
  Act.require (attempt.status = "READY_FOR_REVIEW" ∧ attempt.promotion = none)
    (.value "Only an unpromoted reviewable sandbox can receive validation evidence.")
  Act.require (strip actor ≠ "" ∧ strip detail ≠ "")
    (.value "A human identity and validation evidence detail are required.")
  let decision ← Act.ofExcept (validationDecision attempt decisionId)
  Act.require (decision.status ∈ ["REQUIRED", "SATISFIED"])
    (.value "Only manual validation requirements can be attested.")
  Act.require (decision.category = "REVIEW")
    (.value "Executable and Editor validation requires a configured worker or integrity-checked external report.")
  let policy ← policy host.toSandboxHost attempt.projectId
  let bindingSha256 := attestationBinding host.toSandboxHost policy attempt decision
  let drawn ← newId
  let verdict := if upper host.text governanceDecision ∈ ["DENIED", "REJECTED"] then "DENIED"
    else "APPROVED"
  let records ← Act.ofExcept (attestationRecords host.toSandboxHost policy attempt decision verdict
    actor detail none drawn)
  let history := decision.attestationHistory ++ records
  let report ← Act.ofExcept (evaluate host.toGovernanceHost policy "ATTESTATION"
    [decision.artifactKind] bindingSha256 history)
  let decision := { decision with attestationHistory := history, attestationMissing := report.missing }
  let evidence : Evidence := { path := decision.path, detail := strip detail }
  let decision := if report.approved = true then { decision with
      status := "SATISFIED"
      satisfiedBy := some (attestedBy bindingSha256 history)
      evidence := decision.evidence ++ [evidence] } else decision
  Act.when (report.approved = true) do
    updateColumns attempt.id fun columns => { columns with
      validationEvidence := columns.validationEvidence ++ [evidence] }
  checkpoint (withDecision attempt decision) "VALIDATION_SATISFIED"
    (s!"{decision.category} attestation recorded by " ++ strip actor ++
      s!" under policy {policy.id} v{policy.version}; " ++
      (if report.approved = true then "satisfied." else "additional reviewers required."))

/-! ## Validation workers -/

/-- `assert_worker`. -/
def assertWorker (policy : ProjectGovernancePolicy) (workerId : String) : Except PyError Unit :=
  let permitted := policy.terms.permittedWorkerIds
  if !permitted.contains "*" && !permitted.contains workerId then
    .error (.value "Policy rule WORKER-ALLOWLIST denied: validation worker is not permitted.")
  else .ok ()

/-- `_authorized_sources`, for one path: the resolved source. -/
def authorizedSource (host : SandboxHost) (root : String) (files : Files) (relative : String) :
    Except PyError (String × FileState) :=
  if host.isAbsolute relative ∨ ".." ∈ host.parts relative then
    .error (.readOnlyViolation s!"Authorized path escapes project scope: {relative}")
  else
    match files (host.target root relative) with
    | none => .error (missingFile (host.target root relative))
    | some file =>
      if host.isRelativeTo (host.target root relative) root = false then
        .error (.readOnlyViolation s!"Authorized path escapes project scope: {relative}")
      else .ok (relative, file)

/-- `_build_validation_mirror`: the authorized files, with the proposed bytes of
the changed ones. -/
def buildValidationMirror (host : SandboxHost) (root : String)
    (attempt : ImplementationSandboxAttempt) (files : Files) : Except PyError Mirror := do
  let proposed ← attempt.changes.mapM fun change => do
    return (change.path, ← Promote.changeBytes host change)
  let sources ← attempt.authorizedPaths.mapM (authorizedSource host root files)
  return sources.map fun (relative, file) =>
    (relative, (proposed.reverse.lookup relative).getD file.bytes)

/-- The command of a worker for a path. -/
def workerCommand (executable path : String) (arguments : List String) : List String :=
  executable :: arguments.map fun item => if item = "{path}" then path else item

/-- Why a worker is not authorized for a decision; a later check takes the place
of an earlier one. -/
def workerRejection (host : SandboxHost) (attempt : ImplementationSandboxAttempt)
    (decision : SandboxValidationDecision) (spec : ValidationWorkerSpec)
    (limits : ValidationWorkerLimits) (executable : String) : Option String :=
  let first :=
    if !spec.categories.contains decision.category ||
        !spec.artifactKinds.contains decision.artifactKind then
      some "Validation worker is not authorized for this category or artifact kind."
    else if !attempt.authorizedPaths.contains decision.path ||
        !limits.allowedPaths.contains decision.path then
      some "Validation worker path is outside its explicit allowed paths."
    else if !limits.allowedArtifactKinds.contains decision.artifactKind then
      some "Validation worker artifact kind is outside its explicit allowlist."
    else if !(limits.allowedExecutables.map host.resolve).contains executable then
      some "Validation worker executable is outside its explicit allowlist."
    else if !limits.allowedArgumentTemplates.contains spec.arguments then
      some "Validation worker command arguments are outside its explicit allowlist."
    else none
  let escapes := host.isAbsolute decision.path ∨ ".." ∈ host.parts decision.path
  let template := spec.arguments.any fun item => item != "{path}" && (hasPart item "\x7b" || hasPart item "\x7d")
  if template = true then some "Validation worker contains an unsupported command template."
  else if escapes then some "Validation worker path escapes the approved validation slice."
  else first

/-- How the runner's result is recorded. -/
def runnerStatus (result : BoundedProcessResult) : String :=
  match result.failureReason with
  | some reason =>
    if reason ≠ "" ∧ hasPart reason "exceeded" = true then "LIMIT_EXCEEDED" else "FAILED"
  | none => if result.exitCode = 0 then "PASSED" else "FAILED"

/-- The limits of a worker, with its defaults. -/
def workerLimits (decision : SandboxValidationDecision) (spec : ValidationWorkerSpec) :
    ValidationWorkerLimits :=
  { spec.limits with
    allowedPaths := if spec.limits.allowedPaths = [] then [decision.path]
      else spec.limits.allowedPaths
    allowedArgumentTemplates := if spec.limits.allowedArgumentTemplates = [] then [spec.arguments]
      else spec.limits.allowedArgumentTemplates }

/-- An execution that did not run the worker. -/
def SandboxValidationWorkerExecution.rejected (execution : SandboxValidationWorkerExecution)
    (reason : String) : SandboxValidationWorkerExecution :=
  { execution with status := "REJECTED", failureReason := some reason, exitCode := some 125 }

/-- The execution with what the runner came to. -/
def SandboxValidationWorkerExecution.ran (execution : SandboxValidationWorkerExecution)
    (spec : ValidationWorkerSpec) (result : BoundedProcessResult) :
    SandboxValidationWorkerExecution :=
  let status := runnerStatus result
  let detail := s!"{spec.name} ended as {status}: exit {result.exitCode}, {result.measured}."
  { execution with
    exitCode := some result.exitCode
    failureReason := result.failureReason
    status := status
    evidence := execution.evidence ++ [{ path := execution.path, detail := detail }]
    checkpoints := execution.checkpoints ++ [⟨1, "AUTHORIZED", spec.authorizationReason⟩,
      ⟨2, status, detail⟩] }

/-- `_execute_worker`. The mirror holds regular files only; a path that is not
in it does not exist. -/
def executeWorker (host : ReviewHost) (ticketId : String) (attempt : ImplementationSandboxAttempt)
    (decision : SandboxValidationDecision) (spec : ValidationWorkerSpec) (mirror : Mirror) :
    ReviewAct (SandboxValidationWorkerExecution × Mirror) := do
  let limits := workerLimits decision spec
  let executable := host.resolve spec.executable
  let policy ← policy host.toSandboxHost attempt.projectId
  let drawn ← newId
  let execution : SandboxValidationWorkerExecution := {
    id := drawn
    ticketId := ticketId
    attemptId := attempt.id
    decisionId := decision.id
    workerId := spec.id
    workerName := spec.name
    category := decision.category
    artifactKind := decision.artifactKind
    path := decision.path
    sourceManifestSha256 := attempt.initialManifestSha256
    patchSha256 := patchSha256 host.toSandboxHost attempt
    policyId := policy.id
    policyVersion := policy.version
    command := workerCommand executable decision.path spec.arguments
    limits := limits }
  Act.require ((mirror.lookup decision.path).isSome) (missingFile decision.path)
  match workerRejection host.toSandboxHost attempt decision spec limits executable with
  | some reason =>
    return ({ execution.rejected reason with
      authorizationStatus := "REJECTED"
      evidence := [{ path := decision.path, detail := reason }] }, mirror)
  | none =>
    let ticket ← checkBudget host.toSandboxHost ticketId
    let remaining := microseconds ticket.budget.maxWallTimeSeconds - ticket.usage.wallTime
    if remaining ≤ 0 then
      return (execution.rejected "Ticket wall-time budget is exhausted.", mirror)
    else
      let bounded := { limits with maxWallTime := min limits.maxWallTime remaining }
      let (result, mirror) := host.validationRunner drawn execution.command bounded mirror
      let result ← Act.ofExcept result
      return (execution.ran spec result, mirror)

/-- A worker that has changed its mirror is rejected. -/
def checkMirror (execution : SandboxValidationWorkerExecution) (baseline mirror : Mirror) :
    SandboxValidationWorkerExecution :=
  if mirror.isPerm baseline then execution
  else { execution with
    status := "REJECTED"
    failureReason := some "Validation worker modified its read-only validation slice."
    exitCode := if execution.exitCode = none ∨ execution.exitCode = some 0 then some 125
      else execution.exitCode }

/-- The decision with what a worker came to. -/
def workerDecision (spec : ValidationWorkerSpec) (execution : SandboxValidationWorkerExecution)
    (decision : SandboxValidationDecision) : SandboxValidationDecision :=
  { decision with
    workerExecutionId := some execution.id
    status := if execution.status = "PASSED" then "PASSED" else "REQUIRED"
    satisfiedBy := if execution.status = "PASSED" then some spec.name else none
    evidence := decision.evidence ++ execution.evidence }

/-- The attempt that may be reviewed once all its decisions are met. -/
def reviewable (attempt : ImplementationSandboxAttempt) : Bool :=
  !attempt.changes.isEmpty && attempt.validationDecisions.all isSatisfied

def finalStatuses : List String := ["PASSED", "FAILED", "REJECTED", "LIMIT_EXCEEDED"]

/-- Whether a worker has come to an end on this patch before. -/
def isDuplicate (decision : SandboxValidationDecision) (spec : ValidationWorkerSpec)
    (patchSha256 : String) (item : SandboxValidationWorkerExecution) : Bool :=
  item.decisionId == decision.id && item.workerId == spec.id &&
    item.patchSha256 == patchSha256 && finalStatuses.contains item.status

/-- The worker that may be asked, by its identifier. -/
def configuredWorker (host : ReviewHost) (workerId : String) : Except PyError ValidationWorkerSpec :=
  match (host.validationWorkers.reverse.find? (·.id == workerId)).filter (·.enabled) with
  | some spec => .ok spec
  | none => .error (.value "The requested validation worker is unavailable or disabled.")

/-- `_ticket_validation_event`. -/
def ticketValidationEvent (attempt : ImplementationSandboxAttempt) (artifactId status worker : String) :
    ReviewAct Unit := do
  let store ← readStore
  let kind := "SANDBOX_VALIDATION_INTEGRATION_RECORDED"
  if store.ticketEvents.any fun event => event.ticketId == attempt.ticketId && event.kind == kind &&
      event.artifactIds.contains artifactId then
    return ()
  let ticket := store.tickets.find? (·.id == attempt.ticketId)
  saveTicketEvent {
    ticketId := attempt.ticketId
    projectId := ticket.map (·.projectId)
    projectRoot := ticket.map (·.projectRoot)
    kind := kind
    detail := s!"{worker} validation integration recorded as {status}."
    actor := "Observer validation"
    artifactIds := [attempt.id, artifactId] }

/-- What a worker has come to, recorded in the attempt. -/
def recordExecution (attempt : ImplementationSandboxAttempt) (decision : SandboxValidationDecision)
    (spec : ValidationWorkerSpec) (execution : SandboxValidationWorkerExecution) :
    ReviewAct ImplementationSandboxAttempt := do
  let attempt := withDecision attempt (workerDecision spec execution decision)
  updateColumns attempt.id fun columns => { columns with
    validationWorkerExecutions := columns.validationWorkerExecutions ++ [execution]
    validationEvidence := attempt.validationDecisions.flatMap (·.evidence)
    failureReason := if reviewable attempt then none else columns.failureReason }
  let attempt := { attempt with
    status := if reviewable attempt then "READY_FOR_REVIEW" else attempt.status }
  checkpoint attempt "VALIDATION_WORKER_COMPLETED"
    s!"{spec.name} ended as {execution.status} for {decision.path}."

/-- A worker on an attempt it has not come to an end on. -/
def runWorker (host : ReviewHost) (ticketId : String) (attempt : ImplementationSandboxAttempt)
    (decision : SandboxValidationDecision) (spec : ValidationWorkerSpec) :
    ReviewAct ImplementationSandboxAttempt := do
  let ticket ← checkBudget host.toSandboxHost ticketId
  let project ← ask (projectRow attempt.projectId)
  let root := host.resolve project.root
  let current ← currentManifest host.toSandboxHost project.id root
  Act.require (current = attempt.initialManifestSha256)
    (.readOnlyViolation "Registered source changed; validation worker evidence would be stale.")
  let started ← perfCounter
  let baseline ← look (buildValidationMirror host.toSandboxHost root attempt)
  let (execution, mirror) ← executeWorker host ticketId attempt decision spec baseline
  let execution := checkMirror execution baseline mirror
  let attempt ← recordExecution attempt decision spec execution
  let now ← perfCounter
  saveProjectTicket { ticket with usage := { ticket.usage with
    workerCalls := ticket.usage.workerCalls + 1
    wallTime := ticket.usage.wallTime + (now - started) } }
  ticketValidationEvent attempt execution.id execution.status spec.name
  return attempt

/-- `run_validation_worker`. -/
def runValidationWorker (host : ReviewHost) (ticketId attemptId decisionId workerId : String) :
    ReviewAct ImplementationSandboxAttempt := do
  let attempt ← ask (attemptOf host.toSandboxHost ticketId attemptId)
  Act.require (attempt.promotion = none ∧ attempt.status ∈ ["READY_FOR_REVIEW", "FAILED"])
    (.value "Validation workers require an unpromoted reviewable sandbox attempt.")
  let decision ← Act.ofExcept (validationDecision attempt decisionId)
  let spec ← Act.ofExcept (configuredWorker host workerId)
  let policy ← policy host.toSandboxHost attempt.projectId
  Act.ofExcept (assertWorker policy spec.id)
  let columns ← columnsOf attempt.id
  if columns.validationWorkerExecutions.any
      (isDuplicate decision spec (patchSha256 host.toSandboxHost attempt)) then
    return attempt
  else runWorker host ticketId attempt decision spec

/-! ## External reports -/

structure ExternalReport where
  reportKind : String
  artifactPath : String
  sourceManifestSha256 : String
  patchSha256 : String
  reportBytes : Bytes
  reportSha256 : String
  status : String
  detail : String

/-- What the import checks of a report before it looks for an earlier one. -/
def checkExternalReport (host : ReviewHost) (attempt : ImplementationSandboxAttempt)
    (decision : SandboxValidationDecision) (actor : String) (req : ExternalReport) :
    Except PyError Unit := do
  let path := Promote.slashed req.artifactPath
  if strip actor = "" ∨ strip req.detail = "" ∨
      upper host.text req.status ∉ ["PASSED", "FAILED"] then
    throw (.value "External validation report identity, detail, and valid status are required.")
  if decision.requiresUnrealEditor = false ∨ req.reportKind ≠ "UNREAL_EDITOR" then
    throw (.value "Only an Unreal Editor requirement accepts an external Editor report.")
  if path ≠ decision.path ∨ attempt.authorizedPaths.contains path = false then
    throw (.readOnlyViolation "External validation report is outside the authorized artifact scope.")
  if req.sourceManifestSha256 ≠ attempt.initialManifestSha256 then
    throw (.readOnlyViolation "External validation report source manifest is stale.")
  if req.patchSha256 ≠ patchSha256 host.toSandboxHost attempt then
    throw (.readOnlyViolation "External validation report patch identity is stale.")
  if host.maxExternalReportBytes < req.reportBytes.length then
    throw (.value "External validation report exceeds the configured size limit.")
  if host.sha256 req.reportBytes ≠ req.reportSha256 then
    throw (.value "External validation report integrity hash does not match its bytes.")

/-- A report that is recorded for the decision. -/
def recordReport (host : ReviewHost) (ticketId : String) (attempt : ImplementationSandboxAttempt)
    (decision : SandboxValidationDecision) (actor : String) (req : ExternalReport) :
    ReviewAct ImplementationSandboxAttempt := do
  let actor := strip actor
  let detail := strip req.detail
  let status := upper host.text req.status
  let digest := host.sha256 req.reportBytes
  let policy ← policy host.toSandboxHost attempt.projectId
  let bindingSha256 := attestationBinding host.toSandboxHost policy attempt decision
  let drawn ← newId
  let records ← Act.ofExcept (attestationRecords host.toSandboxHost policy attempt decision
    (if status = "PASSED" then "APPROVED" else "DENIED") actor detail (some digest) drawn)
  let evidence : Evidence := { path := decision.path, detail := detail }
  let reportId ← newId
  let report : SandboxExternalValidationReport := {
    id := reportId
    ticketId := ticketId
    attemptId := attempt.id
    decisionId := decision.id
    reportKind := req.reportKind
    artifactPath := Promote.slashed req.artifactPath
    sourceManifestSha256 := req.sourceManifestSha256
    patchSha256 := req.patchSha256
    reportSha256 := digest
    reportBytes := req.reportBytes
    status := status
    detail := detail
    recordedBy := actor
    policyId := policy.id
    policyVersion := policy.version
    ruleIds := records.map (·.ruleId)
    bindingSha256 := bindingSha256
    evidence := [evidence] }
  let history := decision.attestationHistory ++ records
  let found ← Act.ofExcept (evaluate host.toGovernanceHost policy "ATTESTATION"
    [decision.artifactKind] bindingSha256 history)
  let accepted := status = "PASSED" ∧ found.approved = true
  let attempt := withDecision attempt { decision with
    attestationHistory := history
    attestationMissing := found.missing
    externalReportId := some report.id
    status := if accepted then "SATISFIED" else "REQUIRED"
    satisfiedBy := if accepted then some actor else none
    evidence := decision.evidence ++ [evidence] }
  updateColumns attempt.id fun columns => { columns with
    externalValidationReports := columns.externalValidationReports ++ [report]
    validationEvidence := columns.validationEvidence ++ [evidence] }
  let attempt ← checkpoint attempt "EXTERNAL_VALIDATION_REPORT_IMPORTED"
    s!"Integrity-checked {req.reportKind} report recorded as {status} for {decision.path}."
  ticketValidationEvent attempt report.id status req.reportKind
  return attempt

/-- `import_external_validation_report`. -/
def importExternalValidationReport (host : ReviewHost)
    (ticketId attemptId decisionId actor : String) (req : ExternalReport) :
    ReviewAct ImplementationSandboxAttempt := do
  let attempt ← ask (attemptOf host.toSandboxHost ticketId attemptId)
  Act.require (attempt.promotion = none ∧ attempt.status = "READY_FOR_REVIEW")
    (.value "External reports require an unpromoted reviewable sandbox attempt.")
  let decision ← Act.ofExcept (validationDecision attempt decisionId)
  Act.ofExcept (checkExternalReport host attempt decision actor req)
  let columns ← columnsOf attempt.id
  if columns.externalValidationReports.any fun item =>
      item.decisionId == decision.id && item.reportSha256 == req.reportSha256 then
    return attempt
  else
    Act.require (decision.status = "REQUIRED")
      (.value "External report can only satisfy an unmet validation requirement.")
    let project ← ask (Recover.attemptProject attempt.projectId)
    let current ← currentManifest host.toSandboxHost project.id (host.resolve project.root)
    Act.require (current = req.sourceManifestSha256)
      (.readOnlyViolation "Registered source changed before external report import.")
    recordReport host ticketId attempt decision actor req

end RlmGraph.Sandbox.Review
