import RlmGraph.Repair.Promotion

/-! # The maintenance workflow

`MaintenanceWorkflowRunner`: a diagnosis, a repair tried in a sandbox, a human
decision and what comes of it. The workflow object of a call is a value that its
functions pass on; what is stored of it is what `_transition` has saved. -/
namespace RlmGraph.Repair.Workflow
open RlmGraph.Lib RlmGraph.Lib.JsonText RlmGraph.Lib.Programs RlmGraph.Store.Lease
open RlmGraph.Repair.Records (RepairProposal RepairValidation)
open RlmGraph.Repair.Promotion

abbrev WorkflowAct (α : Type) := Act Op Reply Unit PyError α

/-- `TERMINAL_WORKFLOW_STATUSES`. -/
def terminal : MaintenanceWorkflowStatus → Bool
  | .rejected | .completed | .rolledBack | .failed => true
  | .created | .diagnosed | .waitingForApproval => false

/-- `_transition`. -/
def transition (workflow : MaintenanceWorkflow) (status : MaintenanceWorkflowStatus)
    (detail : String) (artifactIds : List String) : WorkflowAct MaintenanceWorkflow := do
  let workflow := { workflow with
    status := status
    events := workflow.events ++ [⟨status, detail, artifactIds⟩] }
  saveWorkflow workflow
  return workflow

/-- `_workflow`. -/
def workflowOf (workflowId : String) : WorkflowAct MaintenanceWorkflow := do
  let stored ← store
  Act.ofExcept ((stored.tables.workflows.find? (·.id == workflowId)).elim
    (.error (.value s!"Maintenance workflow not found: {workflowId}")) .ok)

/-- `assert value is not None`. -/
def asserted (value : Option String) : WorkflowAct String :=
  Act.ofExcept (value.elim (.error (.other "AssertionError" "")) .ok)

/-! ## Diagnosis and repair -/

/-- The diagnosis by the debugger. -/
def debugged (workflow : MaintenanceWorkflow) : WorkflowAct MaintenanceWorkflow := do
  let result ← outside (.debug workflow.question workflow.projectRoot workflow.testPath)
  transition { workflow with
    diagnosisTaskId := some result.rootTaskId
    diagnosisClaimId := some result.diagnosisId
    diagnosisWorkerCalls := workflow.diagnosisWorkerCalls + result.workerCalls }
    .diagnosed s!"Diagnosis completed with {result.workerCalls} worker calls."
    [result.rootTaskId, result.diagnosisId]

/-- `_diagnose`. -/
def diagnose (workflow : MaintenanceWorkflow) : WorkflowAct MaintenanceWorkflow := do
  let stored ← store
  let recovered := stored.records.tasks.reverse.find? fun task =>
    task.projectRoot == workflow.projectRoot &&
      task.projectFingerprint == workflow.initialProjectFingerprint &&
      task.question == workflow.question && task.done && task.outputClaimId.getD "" != ""
  match recovered with
  | none => debugged workflow
  | some task =>
    let claimId := task.outputClaimId.getD ""
    let stored ← store
    if stored.records.claimIds.contains claimId then
      transition { workflow with
        diagnosisTaskId := some task.id
        diagnosisClaimId := some claimId
        diagnosisWorkerCalls := 0 }
        .diagnosed "Recovered an already completed graph-directed diagnosis." [task.id, claimId]
    else debugged workflow

/-- What becomes of a workflow whose repair has been tried. -/
def concludeRepair (workflow : MaintenanceWorkflow) (proposal : RepairProposal)
    (validation : RepairValidation) : WorkflowAct MaintenanceWorkflow :=
  let workflow := { workflow with
    proposalId := some proposal.id
    sandboxValidationId := some validation.id }
  if validation.status ≠ .verified then
    transition { workflow with lastError := validation.failureReason } .failed
      "Sandbox repair attempts were exhausted without verification." [proposal.id, validation.id]
  else
    transition workflow .waitingForApproval
      "Verified sandbox patch is persisted and waiting for an explicit human decision."
      [proposal.id, validation.id]

/-- `_validate_repair`. -/
def validateRepair (workflow : MaintenanceWorkflow) : WorkflowAct MaintenanceWorkflow := do
  let claimId ← asserted workflow.diagnosisClaimId
  let stored ← store
  let proposal := stored.records.repairProposals.reverse.find? fun item =>
    item.diagnosisClaimId == claimId && item.projectRoot == workflow.projectRoot &&
      item.testPath == workflow.testPath && item.status == .verified
  let stored ← store
  let validation := proposal.bind fun proposal => stored.records.repairValidations.reverse.find?
    fun item => item.proposalId == proposal.id && item.status == .verified
  match proposal, validation with
  | some proposal, some validation =>
    concludeRepair { workflow with repairTaskId := some proposal.repairTaskId } proposal validation
  | _, _ =>
    let result ← outside (.validate claimId workflow.testPath)
    concludeRepair { workflow with
      repairWorkerCalls := workflow.repairWorkerCalls + result.workerCalls
      repairModelCalls := workflow.repairModelCalls + result.modelCalls
      repairTaskId := some result.repairTaskId } result.proposal result.validation

/-! ## Decisions -/

/-- `_finish_decision`. -/
def finishDecision (workflow : MaintenanceWorkflow) (decision : ApprovalDecision) :
    WorkflowAct MaintenanceWorkflow := do
  let approvalId ← asserted workflow.approvalId
  if decision = .rejected then
    transition workflow .rejected
      "Human reviewer rejected the verified sandbox repair; no source was changed." [approvalId]
  else do
    let stored ← store
    let found := stored.tables.promotions.find? fun item =>
      workflow.proposalId.all (· == item.proposalId) && some item.id == workflow.promotionId
    match found with
    | none => Act.fail (.runtime "Approved workflow has no persisted promotion result.")
    | some promotion =>
      match promotion.status with
      | .verified =>
        let stored ← store
        let reconciliations := stored.tables.reconciliations.filter (·.promotionId == promotion.id)
        match reconciliations.getLast? with
        | none => Act.fail (.runtime "Verified promotion has no post-repair reconciliation.")
        | some current =>
          transition { workflow with
            reconciliationId := some current.id
            followUpTaskId := some current.followUpTaskId
            followUpClaimId := some current.followUpClaimId
            followUpWorkerCalls := current.followUpWorkerCalls }
            .completed "Approved repair was promoted, reconciled, and verified by zero-call follow-up."
            [approvalId, promotion.id, current.id, current.followUpTaskId]
      | .rolledBack =>
        transition { workflow with lastError := promotion.failureReason } .rolledBack
          "Final validation failed and the original project bytes were restored."
          [approvalId, promotion.id]
      | _ =>
        transition { workflow with lastError := promotion.failureReason } .failed
          "Promotion failed and requires human inspection." [approvalId, promotion.id]

/-- The workflow with the result of its decision. -/
def decided (workflow : MaintenanceWorkflow) (result : PromotionRunResult) : MaintenanceWorkflow :=
  { workflow with
    approvalId := some result.approval.id
    promotionId := result.promotion.elim workflow.promotionId fun promotion => some promotion.id
    promotionAttempts := max workflow.promotionAttempts (if result.promotion.isSome then 1 else 0) }

def acquireLease (workflow : MaintenanceWorkflow) (holderId : String) :
    WorkflowAct ProjectLeaseAcquisition := do
  let newLeaseId ← newId "PROJECT-LEASE"
  let acquired : Except PyError ProjectLeaseAcquisition ←
    Act.perform (Op.acquireLease workflow.projectRoot holderId (some workflow.id) newLeaseId)
  Act.ofExcept acquired

def renewLease (workflow : MaintenanceWorkflow) (holderId : String) (token : Nat) :
    WorkflowAct Unit := do
  let renewed : Except PyError ProjectLease ←
    Act.perform (Op.renewLease workflow.projectRoot holderId token)
  let _ ← Act.ofExcept renewed

def recordLease (workflow : MaintenanceWorkflow) (holderId : String) (token : Nat)
    (kind : ProjectLeaseEventKind) (detail : String) (workflowId : Option String) :
    WorkflowAct Unit := do
  let recorded : Except PyError ProjectLease ←
    Act.perform (Op.recordLease workflow.projectRoot holderId token kind detail workflowId)
  let _ ← Act.ofExcept recorded

/-- `release_project_lease`. -/
def releaseLease (workflow : MaintenanceWorkflow) (holderId : String) (token : Nat) :
    WorkflowAct Unit :=
  recordLease workflow holderId token .released "Exclusive project mutation lease released." none

/-- `_recover_abandoned_promotions`. -/
def recoverAbandoned (host : WorkflowHost) (workflow : MaintenanceWorkflow) (holderId : String)
    (token : Nat) : WorkflowAct Unit := do
  let stored ← store
  let incomplete := stored.tables.promotions.filter fun item =>
    host.resolve item.projectRoot == host.resolve workflow.projectRoot &&
      [.approved, .applying, .applied].contains item.status
  if incomplete = [] then return ()
  else do
    recordLease workflow holderId token .recoveryStarted
      s!"Recovering {incomplete.length} abandoned promotion(s) before mutation." (some workflow.id)
    incomplete.forM fun promotion => do
      let _ ← resumeApproval host promotion.approvalId
    recordLease workflow holderId token .recoveryCompleted
      s!"Recovered {incomplete.length} abandoned promotion(s); mutation may proceed."
      (some workflow.id)

/-- What is done under the lease of the project. -/
def underLease (host : WorkflowHost) (workflow : MaintenanceWorkflow) (holderId : String)
    (acquisition : ProjectLeaseAcquisition) (body : WorkflowAct PromotionRunResult) :
    WorkflowAct PromotionRunResult :=
  Act.andFinally (do
    Act.when (acquisition.reclaimed = true)
      (recoverAbandoned host workflow holderId acquisition.lease.fencingToken)
    renewLease workflow holderId acquisition.lease.fencingToken
    body) (releaseLease workflow holderId acquisition.lease.fencingToken)

/-- `repair_approvals(proposal_id)`. -/
def approvalsOf (stored : Store) (proposalId : String) : List RepairApproval :=
  stored.tables.approvals.filter (·.proposalId == proposalId)

/-- `_recover_decision`; `none` stands for `False`. -/
def recoverDecision (host : WorkflowHost) (holderId : String) (workflow : MaintenanceWorkflow) :
    WorkflowAct (Option MaintenanceWorkflow) := do
  let proposalId ← asserted workflow.proposalId
  let stored ← store
  match (approvalsOf stored proposalId).getLast? with
  | none => return none
  | some approval =>
    let acquisition ← acquireLease workflow holderId
    if acquisition.acquired = false then return none
    else do
      let result ← underLease host workflow holderId acquisition (resumeApproval host approval.id)
      let workflow ← finishDecision (decided workflow result) result.approval.decision
      return some workflow

/-! ## Calls -/

/-- The loop of `advance`, which ends within three transitions. -/
def advanceLoop (host : WorkflowHost) (holderId : String) (maxTransitions : Option Nat) :
    Nat → Nat → MaintenanceWorkflow → WorkflowAct MaintenanceWorkflow
  | 0, _, workflow => return workflow
  | fuel + 1, transitions, workflow =>
    if terminal workflow.status || maxTransitions.any (decide <| · ≤ transitions) then return workflow
    else
      match workflow.status with
      | .created => do
        let workflow ← diagnose workflow
        advanceLoop host holderId maxTransitions fuel (transitions + 1) workflow
      | .diagnosed => do
        let workflow ← validateRepair workflow
        advanceLoop host holderId maxTransitions fuel (transitions + 1) workflow
      | .waitingForApproval => do
        let recovered ← recoverDecision host holderId workflow
        match recovered with
        | none => return workflow
        | some workflow => advanceLoop host holderId maxTransitions fuel (transitions + 1) workflow
      | _ => return workflow

def advance (host : WorkflowHost) (holderId workflowId : String) (maxTransitions : Option Nat) :
    WorkflowAct MaintenanceWorkflow := do
  let workflow ← workflowOf workflowId
  advanceLoop host holderId maxTransitions 4 0 workflow

/-- The payload of `_signature`. -/
def signed (host : WorkflowHost) (question root testPath : String) : List (String × Json) := [
  ("question", .str (PyText.squeeze (PyText.casefold host.cases question))),
  ("project_root", .str (PyText.casefold host.cases (host.resolve root))),
  ("test_path", .str testPath)]

/-- `_signature`. -/
def signature (host : WorkflowHost) (question root testPath : String) : String :=
  host.sha256 (utf8 (dumps ⟨true, true⟩ (.obj (signed host question root testPath))))

def start (host : WorkflowHost) (holderId question projectRoot testPath : String)
    (maxTransitions : Option Nat) : WorkflowAct MaintenanceWorkflow := do
  let root ← Act.ofExcept (host.selectRoot projectRoot)
  let normalizedTest := Records.forwardSlashes testPath
  let signature := signature host question root normalizedTest
  let stored ← store
  match stored.tables.workflows.find? (·.signature == signature) with
  | some existing => advance host holderId existing.id maxTransitions
  | none =>
    let stored ← store
    match stored.records.projects.find? (host.resolve ·.root == root) with
    | none => Act.fail (.value "Maintenance workflow requires an indexed project.")
    | some project =>
      let stored ← store
      let state := host.indexedProjectFingerprint root (stored.records.projectFiles project.id)
      let id ← newId "WORKFLOW"
      saveWorkflow {
        id
        signature
        question
        projectRoot := root
        testPath := normalizedTest
        initialProjectFingerprint := state
        events := [⟨.created,
          "Durable maintenance workflow created from the indexed project state.", []⟩] }
      advance host holderId id maxTransitions

/-- `MaintenanceWorkflowStatus.value`. -/
def statusValue : MaintenanceWorkflowStatus → String
  | .created => "CREATED"
  | .diagnosed => "DIAGNOSED"
  | .waitingForApproval => "WAITING_FOR_APPROVAL"
  | .rejected => "REJECTED"
  | .completed => "COMPLETED"
  | .rolledBack => "ROLLED_BACK"
  | .failed => "FAILED"

def contended (host : WorkflowHost) (lease : ProjectLease) : PyError :=
  .other "ProjectLeaseContended"
    s!"Project mutation is leased by {lease.holderId} until {host.lease.isoformat lease.expiresAt}."

def conflicting : PyError := .value "A different human decision is already persisted."

/-- The repeated decision on a workflow that has ended. -/
def decideEnded (workflow : MaintenanceWorkflow) (decision : ApprovalDecision) :
    WorkflowAct MaintenanceWorkflow := do
  match workflow.approvalId with
  | none => return workflow
  | some approvalId =>
    let stored ← store
    Act.require ((stored.tables.approvals.find? (·.id == approvalId)).all
      (·.decision == decision) = true ∨ approvalId = "") conflicting
    return workflow

/-- The decision under the lease. -/
def decideOpen (host : WorkflowHost) (workflow : MaintenanceWorkflow) (proposalId : String)
    (decision : ApprovalDecision) (approvedBy reason : String) : WorkflowAct PromotionRunResult := do
  let stored ← store
  match (approvalsOf stored proposalId).getLast? with
  | some approval =>
    Act.require (approval.decision = decision) conflicting
    resumeApproval host approval.id
  | none => decideRepair host proposalId workflow.projectRoot decision approvedBy reason

/-- `MaintenanceWorkflowRunner.decide`. -/
def decide (host : WorkflowHost) (holderId workflowId : String) (decision : ApprovalDecision)
    (approvedBy reason : String) : WorkflowAct MaintenanceWorkflow := do
  let workflow ← advance host holderId workflowId none
  if terminal workflow.status then decideEnded workflow decision
  else do
    Act.require (workflow.status = .waitingForApproval)
      (.value s!"Workflow is not awaiting approval: {statusValue workflow.status}")
    let proposalId ← asserted workflow.proposalId
    let acquisition ← acquireLease workflow holderId
    Act.require (acquisition.acquired = true) (contended host acquisition.lease)
    let result ← underLease host workflow holderId acquisition
      (decideOpen host workflow proposalId decision approvedBy reason)
    finishDecision (decided workflow result) result.approval.decision

end RlmGraph.Repair.Workflow
