import RlmGraph.Sandbox.Operations

/-! # Evidence of a ticket

What the ticket manager makes of an artifact that is attached to a criterion.
A workspace record and a validation result are judged by what is stored of
them. An artifact of a sandbox attempt is judged by a chain of conditions on
the attempt and, last, by the manifest of the project as it is now. The first
condition that fails gives the reason; an artifact without a reason is
eligible. -/
namespace RlmGraph.Tickets.Evidence
open RlmGraph.Lib RlmGraph.Lib.PyText
open RlmGraph.Governance.Policy RlmGraph.Governance.ArtifactKinds
open RlmGraph.Governance.Tickets (TicketUsage TicketDependencyScope ProjectTicket)
open RlmGraph.Sandbox.Records (Files PatchChange TicketEvent)
open RlmGraph.Sandbox.Operations (SandboxHost manifestOf)

/-! ## Artifacts -/

structure ProjectWorkspaceRecord where
  id : String
  projectId : String
  projectRoot : String
  ticketId : Option String
  kind : String
  status : String
  sourceIntegrityVerified : Bool
  readOnlyVerified : Bool
  indexedManifestSha256 : String
  finalManifestSha256 : String
  evidence : List Evidence := []
  sourceResultId : Option String := none
  tokensUsed : Nat := 0
  modelCallsUsed : Nat := 0
  workerCallsUsed : Nat := 0
  branchDepthUsed : Nat := 0
  elapsedSeconds : Int := 0
  deriving DecidableEq

structure TicketValidationResult where
  id : String
  ticketId : String
  projectId : Option String
  projectRoot : Option String
  name : String
  status : String
  detail : String
  workspaceRecordId : Option String
  deriving DecidableEq

structure SandboxValidationWorkerExecution where
  id : String
  status : String
  sourceManifestSha256 : String
  patchSha256 : String
  deriving DecidableEq

structure SandboxExternalValidationReport where
  id : String
  status : String
  sourceManifestSha256 : String
  patchSha256 : String
  deriving DecidableEq

structure SandboxPromotionReconciliation where
  id : String
  status : String := "RECONCILED"
  newManifestSha256 : String
  sourceUnchangedDuringReconciliation : Bool := false
  deriving DecidableEq

/-- What the assessment reads of a promotion. -/
structure PromotionEvidence where
  id : String
  status : String
  finalManifestSha256 : Option String
  reconciliation : Option SandboxPromotionReconciliation
  deriving DecidableEq

/-- What the assessment reads of a sandbox attempt. -/
structure SandboxEvidence where
  id : String
  ticketId : String
  planRecordId : String
  projectId : String
  projectRoot : String
  status : String
  authorizedPaths : List String
  changes : List PatchChange
  patchSha256 : Option String
  validationDecisions : List SandboxValidationDecision
  validationWorkerExecutions : List SandboxValidationWorkerExecution
  externalValidationReports : List SandboxExternalValidationReport
  promotion : Option PromotionEvidence
  initialManifestSha256 : String
  finalManifestSha256 : Option String
  originalUnchanged : Bool
  createdAt : Int
  modelCalls : Nat := 0
  workerCalls : Nat := 0
  elapsedSeconds : Int := 0
  deriving DecidableEq

inductive SandboxArtifact where
  | attempt
  | decision (decision : SandboxValidationDecision)
  | worker (execution : SandboxValidationWorkerExecution)
  | report (report : SandboxExternalValidationReport)
  | promotion (promotion : PromotionEvidence)
  | reconciliation (reconciliation : SandboxPromotionReconciliation)

def SandboxArtifact.kind : SandboxArtifact → String
  | .attempt => "IMPLEMENTATION_SANDBOX_ATTEMPT"
  | .decision _ => "SANDBOX_VALIDATION_DECISION"
  | .worker _ => "SANDBOX_VALIDATION_WORKER_EXECUTION"
  | .report _ => "SANDBOX_EXTERNAL_VALIDATION_REPORT"
  | .promotion _ => "SANDBOX_PROMOTION"
  | .reconciliation _ => "SANDBOX_RECONCILIATION"

/-- The artifact of an attempt that has the identifier. -/
def SandboxEvidence.artifact (attempt : SandboxEvidence) (evidenceId : String) :
    Option SandboxArtifact :=
  if attempt.id = evidenceId then some .attempt
  else
    (((attempt.validationDecisions.find? (·.id == evidenceId)).map .decision).or
      ((attempt.validationWorkerExecutions.find? (·.id == evidenceId)).map .worker)).or
    (((attempt.externalValidationReports.find? (·.id == evidenceId)).map .report).or
      (((attempt.promotion.filter (·.id == evidenceId)).map .promotion).or
        (((attempt.promotion.bind (·.reconciliation)).filter (·.id == evidenceId)).map
          .reconciliation)))

structure TicketEvidenceAssessment where
  evidenceId : String
  artifactType : String
  eligible : Bool
  reason : String
  ticketId : Option String := none
  projectId : Option String := none
  status : Option String := none
  sourceManifestSha256 : Option String := none
  patchSha256 : Option String := none
  deriving DecidableEq

/-! ## Tickets -/

structure TicketAcceptanceCriterion where
  id : String
  description : String
  status : String := "PENDING"
  evidenceIds : List String := []
  waiverReason : Option String := none
  blockerReason : Option String := none
  resolvedBy : Option String := none
  resolvedAt : Option String := none
  evidenceAssessments : List TicketEvidenceAssessment := []
  deriving DecidableEq

structure TicketCriterionClosureGate where
  criterionId : String
  description : String
  status : String
  resolved : Bool
  explanation : String
  resolvedBy : Option String
  resolvedAt : Option String
  evidenceAssessments : List TicketEvidenceAssessment
  deriving DecidableEq

structure TicketClosureDecision where
  ticketId : String
  projectId : String
  requestedStatus : String
  allowed : Bool
  actor : String
  reason : String
  fingerprint : String
  failures : List String
  criterionGates : List TicketCriterionClosureGate
  deriving DecidableEq

/-- A ticket with its criteria and its dependencies. -/
structure TicketRecord extends ProjectTicket where
  title : String := ""
  description : String := ""
  status : String := "DRAFT"
  acceptanceCriteria : List TicketAcceptanceCriterion := []
  constraints : List String := []
  dependencyTicketIds : List String := []
  sourceClaimIds : List String := []
  closureDecisions : List TicketClosureDecision := []
  deriving DecidableEq

/-! ## The store and the project -/

inductive ProjectExecutionMode where
  | readOnly | guarded | autonomousSandbox | autonomousProject
  deriving DecidableEq

structure TicketStore where
  projects : List ProjectRecord
  executionMode : String → ProjectExecutionMode
  policies : PolicyTable
  tickets : List TicketRecord
  records : String → Option ProjectWorkspaceRecord
  validations : String → Option TicketValidationResult
  sandboxes : List SandboxEvidence
  ticketEvents : List TicketEvent
  projectFiles : String → List String

/-- The files of the projects, and which paths exist. -/
structure ProjectTree where
  files : Files
  present : String → Bool

/-- `_current_project_manifest`: nothing if the root or an indexed file is
missing or lies outside. -/
def currentProjectManifest (host : SandboxHost) (tree : ProjectTree) (store : TicketStore)
    (ticket : TicketRecord) : Option String :=
  let root := host.resolve ticket.projectRoot
  if tree.present root = false then none
  else (manifestOf host root (store.projectFiles ticket.projectId) tree.files).toOption

/-! ## Assessments -/

/-- The text of the first condition that is met. -/
def firstReason (checks : List (Bool × String)) : String :=
  ((checks.find? (·.1)).map (·.2)).getD ""

/-- `a or "unknown"`. -/
def orUnknown (a : Option String) : String := (orText a (some "unknown")).getD ""

def scopeReason (ticket : TicketRecord) (ticketId projectId : Option String) : String :=
  firstReason [
    (ticketId != some ticket.id,
      s!"artifact belongs to ticket {orUnknown ticketId}, not {ticket.id}"),
    (projectId != some ticket.projectId,
      s!"artifact belongs to project {orUnknown projectId}, not {ticket.projectId}")]

def assessment (evidenceId artifactType : String) (ticketId projectId status : Option String)
    (reason : String) (sourceManifest patchSha : Option String) : TicketEvidenceAssessment where
  evidenceId := evidenceId
  artifactType := artifactType
  eligible := reason == ""
  reason := if reason = "" then "eligible current implementation evidence" else reason
  ticketId := ticketId
  projectId := projectId
  status := status
  sourceManifestSha256 := sourceManifest
  patchSha256 := patchSha

def terminalBad : List String := ["FAILED", "REJECTED", "DISCARDED", "PROMOTION_REJECTED"]

/-- Whether a promotion of the attempt succeeded. -/
def SandboxEvidence.promoted (attempt : SandboxEvidence) : Bool :=
  attempt.promotion.any (·.status == "PROMOTED")

def SandboxEvidence.reconciled (attempt : SandboxEvidence) : Bool :=
  (attempt.promotion.bind (·.reconciliation)).any (·.status == "RECONCILED")

/-- The conditions on the attempt. -/
def attemptReason (host : SandboxHost) (attempt : SandboxEvidence) : String :=
  firstReason [
    (terminalBad.contains attempt.status,
      s!"originating sandbox is {lower host.text attempt.status}"),
    (!(["READY_FOR_REVIEW", "PROMOTED"].contains attempt.status),
      s!"originating sandbox status {attempt.status} is not reviewable or promoted"),
    (attempt.status == "READY_FOR_REVIEW", "sandbox proposal has not been promoted and reconciled"),
    (attempt.status == "READY_FOR_REVIEW" && (!attempt.originalUnchanged ||
        attempt.finalManifestSha256 != some attempt.initialManifestSha256),
      "sandbox source-integrity evidence is stale or incomplete"),
    (attempt.status == "PROMOTED" && !attempt.promoted,
      "sandbox promotion is missing or not successful"),
    (attempt.status == "PROMOTED" && !attempt.reconciled,
      "promoted sandbox has not been reconciled with the current graph")]

/-- A text that is present and not empty. -/
def given (text : Option String) : Bool := text.any (· != "")

/-- The artifact that a validation decision rests on, and the reason if it is
not eligible. -/
def SandboxValidationDecision.link (decision : SandboxValidationDecision) : Option (String × String) :=
  if given decision.workerExecutionId then
    decision.workerExecutionId.map (·, "validation decision's worker evidence is ineligible")
  else if given decision.externalReportId then
    decision.externalReportId.map (·, "validation decision's external report is ineligible")
  else none

/-- What is reported of an artifact: its status, its source manifest, its patch
and the reason against it. -/
structure ArtifactReport where
  status : String
  sourceManifest : Option String
  patchSha : Option String
  reason : String

/-- The binding of a worker execution or a report to the present patch. -/
def bindingReport (attempt : SandboxEvidence) (status sourceManifest patchSha what : String) :
    ArtifactReport where
  status := status
  sourceManifest := some sourceManifest
  patchSha := some patchSha
  reason := firstReason [
    (status != "PASSED", s!"{what} status is {status}, not PASSED"),
    (sourceManifest != attempt.initialManifestSha256 || some patchSha != attempt.patchSha256,
      s!"{what} is stale or bound to a superseded patch")]

/-- The conditions on the artifact itself, given what is found of a linked
artifact. -/
def artifactReport (attempt : SandboxEvidence)
    (linked : String → Except PyError (Option TicketEvidenceAssessment)) :
    SandboxArtifact → Except PyError ArtifactReport
  | .attempt => .ok ⟨attempt.status, some attempt.initialManifestSha256, attempt.patchSha256,
      firstReason [
        (!(["READY_FOR_REVIEW", "PROMOTED"].contains attempt.status),
          s!"sandbox status {attempt.status} is not reviewable or promoted"),
        (!given attempt.patchSha256 || attempt.changes.isEmpty,
          "sandbox has no current implementation patch")]⟩
  | .decision decision =>
    let report := ArtifactReport.mk decision.status (some attempt.initialManifestSha256)
      attempt.patchSha256
    if ["PASSED", "SATISFIED"].contains decision.status = false then
      .ok (report s!"validation decision status is {decision.status}, not PASSED or SATISFIED")
    else
      match SandboxValidationDecision.link decision with
      | none => .ok (report "")
      | some (evidenceId, reason) => do
        let found ← linked evidenceId
        return report (if found.any (·.eligible) then "" else reason)
  | .worker execution => .ok (bindingReport attempt execution.status execution.sourceManifestSha256
      execution.patchSha256 "worker execution")
  | .report report => .ok (bindingReport attempt report.status report.sourceManifestSha256
      report.patchSha256 "external report")
  | .promotion promotion => .ok ⟨promotion.status, promotion.finalManifestSha256,
      attempt.patchSha256, firstReason [(promotion.status != "PROMOTED",
        s!"promotion status is {promotion.status}, not PROMOTED")]⟩
  | .reconciliation reconciliation => .ok ⟨reconciliation.status,
      some reconciliation.newManifestSha256, attempt.patchSha256, firstReason [
        (reconciliation.status != "RECONCILED" || !reconciliation.sourceUnchangedDuringReconciliation,
          "reconciliation is incomplete or source integrity was not verified")]⟩

/-- A newer attempt of the ticket. -/
def superseded (store : TicketStore) (attempt : SandboxEvidence) : Bool :=
  store.sandboxes.any fun item =>
    item.ticketId == attempt.ticketId && item.id != attempt.id &&
      decide (attempt.createdAt < item.createdAt) &&
      ["READY_FOR_REVIEW", "PROMOTED"].contains item.status

def SandboxEvidence.expectedManifest (attempt : SandboxEvidence) : Option String :=
  match attempt.promotion with
  | some promotion =>
    if attempt.status = "PROMOTED" then promotion.finalManifestSha256
    else some attempt.initialManifestSha256
  | none => some attempt.initialManifestSha256

/-- The conditions that come last. -/
def currentReason (host : SandboxHost) (tree : ProjectTree) (store : TicketStore)
    (ticket : TicketRecord) (attempt : SandboxEvidence) : String :=
  let current := currentProjectManifest host tree store ticket
  firstReason [
    (attempt.status == "READY_FOR_REVIEW" && superseded store attempt,
      "sandbox evidence was superseded by a newer implementation attempt"),
    (given current && attempt.expectedManifest != current,
      "implementation evidence is stale against the current project manifest")]

def recursionError : PyError := .other "RecursionError" "maximum recursion depth exceeded"

/-- `_assess_sandbox_artifact`, with the depth that the recursion may have. -/
def assessSandboxArtifact (host : SandboxHost) (tree : ProjectTree) (store : TicketStore)
    (ticket : TicketRecord) (attempt : SandboxEvidence) :
    Nat → String → Except PyError (Option TicketEvidenceAssessment)
  | 0, _ => .error recursionError
  | depth + 1, evidenceId =>
    match attempt.artifact evidenceId with
    | none => .ok none
    | some artifact => do
      let reason := firstReason [
        (scopeReason ticket (some attempt.ticketId) (some attempt.projectId) != "",
          scopeReason ticket (some attempt.ticketId) (some attempt.projectId)),
        (attemptReason host attempt != "", attemptReason host attempt)]
      let report ←
        if reason = "" then
          artifactReport attempt (assessSandboxArtifact host tree store ticket attempt depth) artifact
        else .ok ⟨attempt.status, some attempt.initialManifestSha256, attempt.patchSha256, reason⟩
      let reason := if report.reason = "" then currentReason host tree store ticket attempt
        else report.reason
      return some (assessment evidenceId artifact.kind (some attempt.ticketId)
        (some attempt.projectId) (some report.status) reason report.sourceManifest report.patchSha)

def assessWorkspaceRecord (ticket : TicketRecord) (evidenceId : String)
    (record : ProjectWorkspaceRecord) (host : SandboxHost) : TicketEvidenceAssessment :=
  let scope := scopeReason ticket record.ticketId (some record.projectId)
  assessment evidenceId "PROJECT_WORKSPACE_RECORD" record.ticketId (some record.projectId)
    (some record.status) (firstReason [
      (scope != "", scope),
      (upper host.text record.status != "COMPLETED",
        s!"workspace result status is {record.status}, not COMPLETED"),
      (!record.sourceIntegrityVerified || !record.readOnlyVerified,
        "workspace result lacks source-integrity or read-only verification"),
      (record.indexedManifestSha256 != record.finalManifestSha256,
        "workspace result is stale because its source manifests differ")])
    (some record.finalManifestSha256) none

/-- The conditions on a validation result, but for a linked record. -/
def validationReason (host : SandboxHost) (ticket : TicketRecord)
    (validation : TicketValidationResult) (projectId : Option String) : String :=
  let scope := scopeReason ticket (some validation.ticketId) projectId
  firstReason [
    (scope != "", scope),
    (given validation.projectRoot && validation.projectRoot.map host.canonicalRoot !=
        some (host.canonicalRoot ticket.projectRoot),
      "validation project root does not match its ticket boundary"),
    (validation.status != "PASSED", s!"validation status is {validation.status}, not PASSED")]

/-- The first attempt that knows the artifact. -/
def assessAttempts (assess : SandboxEvidence → Except PyError (Option TicketEvidenceAssessment)) :
    List SandboxEvidence → Except PyError (Option TicketEvidenceAssessment)
  | [] => .ok none
  | attempt :: attempts => do
    let found ← assess attempt
    if found.isSome then return found
    else assessAttempts assess attempts

def unknownArtifact : String :=
  "artifact does not belong to this ticket or is not an accepted implementation-evidence type"

/-- `assess_evidence`, with the depth that the recursion may have. -/
def assessEvidence (host : SandboxHost) (tree : ProjectTree) (store : TicketStore)
    (ticket : TicketRecord) : Nat → String → Except PyError TicketEvidenceAssessment
  | 0, _ => .error recursionError
  | depth + 1, evidenceId =>
    match store.records evidenceId with
    | some record => .ok (assessWorkspaceRecord ticket evidenceId record host)
    | none =>
      match store.validations evidenceId with
      | some validation => do
        let owner := store.tickets.find? (·.id == validation.ticketId)
        let projectId := orText validation.projectId (owner.map (·.projectId))
        let reason := validationReason host ticket validation projectId
        let reason ←
          if reason = "" ∧ given validation.workspaceRecordId = true then do
            let linked ← assessEvidence host tree store ticket depth
              (validation.workspaceRecordId.getD "")
            pure (if linked.eligible then ""
              else s!"linked workspace result is ineligible: {linked.reason}")
          else .ok reason
        return assessment evidenceId "TICKET_VALIDATION_RESULT" (some validation.ticketId) projectId
          (some validation.status) reason none none
      | none => do
        let found ← assessAttempts (assessSandboxArtifact host tree store ticket · depth evidenceId)
          store.sandboxes
        return found.getD (assessment evidenceId "UNKNOWN" none none none unknownArtifact none none)

end RlmGraph.Tickets.Evidence
