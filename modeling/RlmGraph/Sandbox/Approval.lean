import RlmGraph.Sandbox.Operations

/-! # Approval of a promotion

The binding of an attempt, the decisions recorded against it, and the calls
that change what a binding is made of: the configuration of the policy, the
validation of the attempt and the approval itself. -/
namespace RlmGraph.Sandbox.Approval
open RlmGraph.Lib RlmGraph.Lib.JsonText RlmGraph.Lib.PyText RlmGraph.Lib.Programs
open RlmGraph.Governance.Tickets (ProjectTicket microseconds)
open RlmGraph.Governance.Policy RlmGraph.Governance.ArtifactKinds
open RlmGraph.Sandbox.Records RlmGraph.Sandbox.Operations

/-! ## The binding of an attempt -/

/-- `_patch_sha256`. -/
def patchSha256 (host : SandboxHost) (attempt : ImplementationSandboxAttempt) : String :=
  host.sha256 (utf8 ("\n".intercalate (attempt.changes.map fun item =>
    item.path ++ "\x00" ++ item.beforeHash ++ "\x00" ++ item.afterHash)))

def optional (text : Option String) : Json := text.elim .null .str

def evidenceJson (evidence : Evidence) : Json :=
  .obj [("path", .str evidence.path), ("detail", .str evidence.detail),
    ("line", evidence.line.elim .null .int)]

def requirementJson (item : SandboxValidationDecision) : Json :=
  .obj [("id", .str item.id), ("path", .str item.path), ("artifact_kind", .str item.artifactKind),
    ("category", .str item.category), ("requirement", .str item.requirement),
    ("requires_unreal_editor", .bool item.requiresUnrealEditor)]

def outcomeJson (item : SandboxValidationDecision) : Json :=
  .obj [("id", .str item.id), ("status", .str item.status),
    ("worker_execution_id", optional item.workerExecutionId),
    ("external_report_id", optional item.externalReportId),
    ("evidence", .arr (item.evidence.map evidenceJson))]

def requirementsSha256 (host : SandboxHost) (attempt : ImplementationSandboxAttempt) : String :=
  binding host.toGovernanceHost
    (.obj [("decisions", .arr (attempt.validationDecisions.map requirementJson))])

def evidenceSha256 (host : SandboxHost) (attempt : ImplementationSandboxAttempt) : String :=
  binding host.toGovernanceHost
    (.obj [("decisions", .arr (attempt.validationDecisions.map outcomeJson))])

/-- What a promotion decision is bound to. -/
structure BoundValues where
  projectId : String
  projectRoot : String
  artifactId : String
  sourceManifestSha256 : String
  patchSha256 : String
  requirementsSha256 : String
  evidenceSha256 : String
  policyId : String
  policyVersion : Nat
  deriving DecidableEq

def BoundValues.json (values : BoundValues) : Json :=
  .obj [("project_id", .str values.projectId), ("project_root", .str values.projectRoot),
    ("artifact_id", .str values.artifactId),
    ("source_manifest_sha256", .str values.sourceManifestSha256),
    ("patch_sha256", .str values.patchSha256),
    ("requirements_sha256", .str values.requirementsSha256),
    ("evidence_sha256", .str values.evidenceSha256), ("policy_id", .str values.policyId),
    ("policy_version", .int values.policyVersion)]

/-- The present values of an attempt under a policy. -/
def boundValues (host : SandboxHost) (policy : ProjectGovernancePolicy)
    (attempt : ImplementationSandboxAttempt) : BoundValues where
  projectId := attempt.projectId
  projectRoot := host.canonicalRoot attempt.projectRoot
  artifactId := attempt.id
  sourceManifestSha256 := attempt.initialManifestSha256
  patchSha256 := patchSha256 host attempt
  requirementsSha256 := requirementsSha256 host attempt
  evidenceSha256 := evidenceSha256 host attempt
  policyId := policy.id
  policyVersion := policy.version

/-- `attempt_binding`. -/
def attemptBinding (host : SandboxHost) (policy : ProjectGovernancePolicy)
    (attempt : ImplementationSandboxAttempt) : String :=
  binding host.toGovernanceHost (boundValues host policy attempt).json

/-! ## Gates -/

/-- `assert_actor`. -/
def assertActor (host : SandboxHost) (allowed : List String) (actor action : String) :
    Except PyError Unit :=
  if !allowed.contains "*" && !allowed.contains actor then
    .error (.value s!"Policy rule ACTOR-ALLOWLIST denied {lower host.text action}: actor is not authorized.")
  else .ok ()

/-- `artifact_validation_categories`. -/
def artifactValidationCategories (host : SandboxHost) (policy : ProjectGovernancePolicy)
    (artifactKinds : List String) : Except PyError (List String) := do
  let rules ← rules host.toGovernanceHost policy "PROMOTION" artifactKinds
  return policy.terms.requiredValidationCategories ++
    artifactKinds.flatMap (fun kind =>
      rolesOf policy.terms.artifactValidationRequirements (upper host.text kind)) ++
    rules.flatMap (·.requiredValidationCategories)

def isSatisfied (item : SandboxValidationDecision) : Bool :=
  item.status == "PASSED" || item.status == "SATISFIED"

/-- `assert_required_validations`. -/
def assertRequiredValidations (host : SandboxHost) (policy : ProjectGovernancePolicy)
    (decisions : List SandboxValidationDecision) (artifactKinds : List String) :
    Except PyError Unit := do
  let satisfied := (decisions.filter isSatisfied).map fun item => upper host.text item.category
  let required ← artifactValidationCategories host policy artifactKinds
  let missing := sortedSet (required.filter fun category => !satisfied.contains category)
  if missing ≠ [] then
    throw (.value ("Policy rule REQUIRED-VALIDATION requires validation categories: " ++
      ", ".intercalate missing))

/-- `sorted({item.artifact_kind for item in attempt.validation_decisions})`. -/
def attemptKinds (attempt : ImplementationSandboxAttempt) : List String :=
  sortedSet (attempt.validationDecisions.map (·.artifactKind))

/-! ## Calls -/

section
variable {L : Type}

/-- `_checkpoint`. -/
def checkpoint (attempt : ImplementationSandboxAttempt) (stage detail : String) :
    SandboxAct L ImplementationSandboxAttempt := do
  let attempt := { attempt with
    checkpoints := attempt.checkpoints ++ [⟨attempt.checkpoints.length + 1, stage, detail⟩] }
  saveImplementationSandbox attempt
  return attempt

def configure (host : SandboxHost) (projectId : String) (req : PolicyRequest) :
    SandboxAct L ProjectGovernancePolicy := do
  let store ← readStore
  let newId ← newId
  let policy ← Act.ofExcept (RlmGraph.Governance.Policy.configure host.toGovernanceHost
    store.projects newId projectId req store.policies).1
  saveProjectGovernancePolicy policy
  return policy

/-- What the validation calls have in common: an unpromoted attempt gets new
validation decisions and a status from `revise`, or the call raises. -/
def reviseValidation (host : SandboxHost) (ticketId attemptId : String)
    (revise : ImplementationSandboxAttempt →
      Except PyError (List SandboxValidationDecision × String)) :
    SandboxAct L ImplementationSandboxAttempt := do
  let attempt ← ask (attemptOf host ticketId attemptId)
  Act.require (attempt.promotion = none)
    (.value "Only an unpromoted reviewable sandbox can receive validation evidence.")
  let (decisions, status) ← Act.ofExcept (revise attempt)
  checkpoint { attempt with validationDecisions := decisions, status := status }
    "VALIDATION_SATISFIED" ""

/-- The project row of an attempt. -/
def projectRow (projectId : String) (store : Store) : Except PyError ProjectRecord :=
  match store.projects.find? (·.id == projectId) with
  | some project => .ok project
  | none => .error (.value "Sandbox project record no longer exists.")

/-- The approval left when the threshold is met. -/
def promotionApproval (policy : ProjectGovernancePolicy) (attempt : ImplementationSandboxAttempt)
    (id reason current : String) (values : BoundValues) (bindingSha256 : String) :
    SandboxPromotionApproval where
  id := id
  projectId := some attempt.projectId
  projectRoot := some attempt.projectRoot
  decision := "APPROVED"
  approvedBy := ", ".intercalate (sortedSet ((attempt.promotionApprovalHistory.filter fun item =>
    item.decision == .approved && item.bindingSha256 == bindingSha256).map (·.actor)))
  reason := reason
  sourceManifestSha256 := current
  policyId := some policy.id
  policyVersion := some policy.version
  ruleIds := sortedSet ((attempt.promotionApprovalHistory.filter fun item =>
    item.decision == .approved && item.bindingSha256 == bindingSha256 &&
      item.policyVersion == policy.version).map (·.ruleId))
  bindingSha256 := some bindingSha256
  requirementsSha256 := some values.requirementsSha256
  evidenceSha256 := some values.evidenceSha256

/-- `approve_promotion`. One draw names the records of a call, which their
rules tell apart. -/
def approvePromotion (host : SandboxHost) (ticketId attemptId actor reason decision : String) :
    SandboxAct L ImplementationSandboxAttempt := do
  let attempt ← ask (attemptOf host ticketId attemptId)
  let policy ← policy host attempt.projectId
  Act.ofExcept (assertActor host policy.terms.promotionApprovers (strip actor) "Promotion approval")
  Act.require (attempt.status = "READY_FOR_REVIEW" ∧ attempt.promotion = none)
    (.value "Only an unpromoted reviewable sandbox can receive a promotion decision.")
  let actor := strip actor
  let reason := strip reason
  let decision := upper host.text decision
  Act.require (actor ≠ "" ∧ reason ≠ "")
    (.value "A human identity and promotion decision reason are required.")
  Act.require (decision ∈ ["APPROVED", "REJECTED", "DENIED"])
    (.value "Promotion decision must be APPROVED or REJECTED.")
  let incomplete := attempt.validationDecisions.filter (!isSatisfied ·)
  Act.require (decision = "APPROVED" → incomplete = [])
    (.value ("Promotion requires every validation decision to be satisfied: " ++
      ", ".intercalate (incomplete.map fun item => s!"{item.path} ({item.status})")))
  let kinds := attemptKinds attempt
  Act.ofExcept (if decision = "APPROVED" then
    assertRequiredValidations host policy attempt.validationDecisions kinds else .ok ())
  let project ← ask (projectRow attempt.projectId)
  let current ← currentManifest host project.id (host.resolve project.root)
  Act.require (current = attempt.initialManifestSha256)
    (.readOnlyViolation "Registered source changed after sandbox validation; create a new attempt.")
  let values := boundValues host policy attempt
  let bindingSha256 := attemptBinding host policy attempt
  let drawn ← newId
  let records ← Act.ofExcept (recordDecisions host.toGovernanceHost policy
    { action := "PROMOTION"
      artifactId := attempt.id
      artifactKinds := kinds
      decision := if decision = "APPROVED" then "APPROVED" else "DENIED"
      actor := actor
      reason := reason
      bindingSha256 := bindingSha256
      sourceManifestSha256 := some current
      patchSha256 := some values.patchSha256
      requirementsSha256 := some values.requirementsSha256
      evidenceSha256 := some values.evidenceSha256 } (drawn ++ ·))
  let attempt := { attempt with
    promotionApprovalHistory := attempt.promotionApprovalHistory ++ records }
  let report ← Act.ofExcept (evaluate host.toGovernanceHost policy "PROMOTION" kinds bindingSha256
    attempt.promotionApprovalHistory)
  let approvalId ← newId
  let attempt := { attempt with
    promotionApprovalMissing := report.missing
    promotionApprovalExpirationReasons := report.expired
    promotionApproval := if report.approved = true ∧ decision = "APPROVED" then
      some (promotionApproval policy attempt approvalId reason current values bindingSha256)
      else none
    status := if decision = "APPROVED" then attempt.status else "PROMOTION_REJECTED" }
  checkpoint attempt ("PROMOTION_" ++ decision)
    (s!"Promotion decision recorded by {actor} under policy {policy.id} v{policy.version}; " ++
      "rules " ++ ", ".intercalate (records.map (·.ruleId)) ++ "; " ++
      (if report.approved = true then "approval threshold met." else "additional reviewers required."))

end
end RlmGraph.Sandbox.Approval
