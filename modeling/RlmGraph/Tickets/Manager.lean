import RlmGraph.Lib.Rows
import RlmGraph.Tickets.Eligibility

/-! # The ticket manager

The operations of the manager on the tables of the store. Each reads the ticket
anew, checks what it is asked, and saves the ticket as a whole. A ticket is
satisfied or closed by a transition whose report finds every criterion resolved
and every dependency satisfied; the decision is kept with the ticket, also if
it is negative. An operation that raises keeps what it had saved before. -/
namespace RlmGraph.Tickets.Manager
open RlmGraph.Lib RlmGraph.Lib.JsonText RlmGraph.Lib.PyText RlmGraph.Lib.Rows
open RlmGraph.Governance.Policy
open RlmGraph.Governance.Tickets (TicketDependencyScope)
open RlmGraph.Sandbox.Records (TicketEvent)
open RlmGraph.Sandbox.Operations (SandboxHost assertBudget)
open RlmGraph.Tickets.Evidence

/-! ## The store -/

def ticketStatuses : List String :=
  ["DRAFT", "READY", "ACTIVE", "BLOCKED", "AWAITING_REVIEW", "SATISFIED", "REJECTED", "CLOSED"]

def criterionStatuses : List String := ["PENDING", "EVIDENCED", "WAIVED", "BLOCKED"]

def priorities : List String := ["LOW", "MEDIUM", "HIGH", "URGENT"]

def validationStatuses : List String := ["PASSED", "FAILED", "BLOCKED"]

/-- The statuses that a closure decision gives. -/
def closing : List String := ["SATISFIED", "CLOSED"]

def saveProjectTicket (store : TicketStore) (ticket : TicketRecord) : TicketStore :=
  { store with tickets := replaceRow (·.id) ticket store.tickets }

/-- `_event`. -/
def event (ticketId kind detail actor : String) (artifactIds : List String) (store : TicketStore) :
    TicketStore :=
  let ticket := store.tickets.find? (·.id == ticketId)
  { store with ticketEvents := store.ticketEvents ++
      [⟨ticketId, ticket.map (·.projectId), ticket.map (·.projectRoot), kind, detail, actor, artifactIds⟩] }

/-- `get`. -/
def getTicket (host : SandboxHost) (store : TicketStore) (ticketId : String) :
    Except PyError TicketRecord :=
  match store.tickets.find? (·.id == ticketId) with
  | none => .error (.value s!"Ticket not found: {ticketId}")
  | some ticket =>
    (RlmGraph.Governance.Tickets.ticketOf host.toGovernanceHost store.projects
      (store.tickets.map (·.toProjectTicket)) ticketId).map fun _ => ticket

/-- What an operation returns or raises, and the store it leaves. -/
abbrev Outcome (α : Type) := Except PyError α × TicketStore

def Outcome.raised {α : Type} (e : PyError) (store : TicketStore) : Outcome α := (.error e, store)

/-! ## Closure -/

/-- The gate of a criterion, with what speaks against it. -/
def gateOf (criterion : TicketAcceptanceCriterion) (assessments : List TicketEvidenceAssessment) :
    TicketCriterionClosureGate × List String :=
  let gate (resolved : Bool) (explanation failure : String) :=
    (⟨criterion.id, criterion.description, criterion.status, resolved, explanation,
        criterion.resolvedBy, criterion.resolvedAt, assessments⟩,
      if resolved then [] else [s!"{failure}: {criterion.description}"])
  let resolvedBy := criterion.resolvedBy.getD ""
  if criterion.status = "EVIDENCED" then
    gate (!assessments.isEmpty && assessments.all (·.eligible))
      (if assessments.isEmpty then "No evidence is attached."
        else if assessments.all (·.eligible) then
          s!"Current implementation evidence accepted ({assessments.length} artifact(s))."
        else "Evidence is no longer eligible: " ++
          "; ".intercalate ((assessments.filter (!·.eligible)).map (·.reason)))
      "criterion lacks current eligible evidence"
  else if criterion.status = "WAIVED" then
    let resolved := given criterion.waiverReason && given criterion.resolvedBy
    gate resolved
      (if resolved then
        s!"Explicitly waived by {resolvedBy}: " ++ criterion.waiverReason.getD ""
        else "Waiver requires a reason and attribution.")
      "criterion lacks attributed waiver"
  else if criterion.status = "BLOCKED" then
    let resolved := given criterion.blockerReason && given criterion.resolvedBy
    gate resolved
      (if resolved then
        s!"Explicitly blocked by {resolvedBy}: " ++ criterion.blockerReason.getD ""
        else "Blocker requires a reason and attribution.")
      "criterion lacks attributed blocker"
  else gate false "Criterion remains pending." "criterion remains pending"

/-- Whether the current ticket with the identifier is satisfied or closed. -/
def isClosed (store : TicketStore) (ticketId : String) : Bool :=
  (store.tickets.reverse.find? (·.id == ticketId)).any (closing.contains ·.status)

/-- What the project's manager looks at when it assesses evidence. -/
structure Surroundings where
  host : SandboxHost
  tree : ProjectTree
  /-- How deep the assessment of linked evidence may go. -/
  depth : Nat

def assess (env : Surroundings) (store : TicketStore) (ticket : TicketRecord) :
    String → Except PyError TicketEvidenceAssessment :=
  assessEvidence env.host env.tree store ticket env.depth

def criterionGate (env : Surroundings) (store : TicketStore) (ticket : TicketRecord)
    (criterion : TicketAcceptanceCriterion) :
    Except PyError (TicketCriterionClosureGate × List String) := do
  let assessments ← criterion.evidenceIds.mapM (assess env store ticket)
  return gateOf criterion assessments

/-- `closure_report`. -/
def closureReport (env : Surroundings) (store : TicketStore) (ticket : TicketRecord) :
    Except PyError (List TicketCriterionClosureGate × List String) := do
  let gates ← ticket.acceptanceCriteria.mapM (criterionGate env store ticket)
  let unsatisfied := ticket.dependencyTicketIds.filter (!isClosed store ·)
  return (gates.map (·.1), gates.flatMap (·.2) ++
    unsatisfied.map fun dependencyId => s!"dependency is not satisfied: {dependencyId}")

def optional : Option String → Json
  | none => .null
  | some text => .str text

def TicketEvidenceAssessment.json (a : TicketEvidenceAssessment) : Json :=
  .obj [("evidence_id", .str a.evidenceId), ("artifact_type", .str a.artifactType),
    ("eligible", .bool a.eligible), ("reason", .str a.reason), ("ticket_id", optional a.ticketId),
    ("project_id", optional a.projectId), ("status", optional a.status),
    ("source_manifest_sha256", optional a.sourceManifestSha256),
    ("patch_sha256", optional a.patchSha256)]

def TicketCriterionClosureGate.json (gate : TicketCriterionClosureGate) : Json :=
  .obj [("criterion_id", .str gate.criterionId), ("description", .str gate.description),
    ("status", .str gate.status), ("resolved", .bool gate.resolved),
    ("explanation", .str gate.explanation), ("resolved_by", optional gate.resolvedBy),
    ("resolved_at", optional gate.resolvedAt),
    ("evidence_assessments", .arr (gate.evidenceAssessments.map TicketEvidenceAssessment.json))]

/-- `_closure_decision`. -/
def closureDecision (env : Surroundings) (store : TicketStore) (ticket : TicketRecord)
    (requestedStatus actor reason : String) : Except PyError TicketClosureDecision := do
  let (gates, failures) ← closureReport env store ticket
  let state := Json.obj [("ticket_id", .str ticket.id), ("requested_status", .str requestedStatus),
    ("actor", .str actor), ("reason", .str reason), ("failures", .arr (failures.map .str)),
    ("gates", .arr (gates.map TicketCriterionClosureGate.json))]
  return {
    ticketId := ticket.id
    projectId := ticket.projectId
    requestedStatus := requestedStatus
    allowed := failures.isEmpty
    actor := actor
    reason := strip reason
    fingerprint := env.host.sha256 (utf8 (dumps ⟨true, false⟩ state))
    failures := failures
    criterionGates := gates }

/-- The first item that meets the condition, changed. -/
def changeFirst {α : Type} (p : α → Bool) (f : α → α) : List α → List α
  | [] => []
  | x :: xs => if p x then f x :: xs else x :: changeFirst p f xs

/-- The criteria with the assessments of the gates. -/
def withAssessments (gates : List TicketCriterionClosureGate)
    (criteria : List TicketAcceptanceCriterion) : List TicketAcceptanceCriterion :=
  gates.foldl (fun criteria gate => changeFirst (·.id == gate.criterionId)
    (fun criterion => { criterion with evidenceAssessments := gate.evidenceAssessments }) criteria)
    criteria

/-- `_persist_closure_decision`: whether the decision is new, with the ticket
that keeps it. -/
def persistClosureDecision (ticket : TicketRecord) (decision : TicketClosureDecision)
    (store : TicketStore) : Bool × TicketRecord × TicketStore :=
  if ticket.closureDecisions.any (·.fingerprint == decision.fingerprint) then (false, ticket, store)
  else
    let ticket := { ticket with
      closureDecisions := ticket.closureDecisions ++ [decision]
      acceptanceCriteria := withAssessments decision.criterionGates ticket.acceptanceCriteria }
    let verdict := if decision.allowed then "allowed" else "blocked"
    let detail := if decision.allowed then "all completion gates resolved"
      else "; ".intercalate decision.failures
    (true, ticket, event ticket.id "CLOSURE_DECIDED"
      s!"{decision.requestedStatus} {verdict}: {detail}" decision.actor
      (decision.criterionGates.flatMap fun gate => gate.evidenceAssessments.map (·.evidenceId))
      (saveProjectTicket store ticket))

/-- The last steps of a transition. -/
def setStatus (status reason actor : String) (ticket : TicketRecord) (store : TicketStore) :
    Outcome TicketRecord :=
  let ticket := { ticket with status := status }
  (.ok ticket, event ticket.id "STATUS_CHANGED" s!"Status set to {status}: {reason}" actor []
    (saveProjectTicket store ticket))

/-- The transition of a ticket to `SATISFIED` or `CLOSED`. -/
def closeTicket (env : Surroundings) (ticket : TicketRecord) (status actor reason : String)
    (store : TicketStore) : Outcome TicketRecord :=
  if strip actor = "" ∨ strip reason = "" then
    .raised (.value "Ticket closure requires an actor and explicit reason.") store
  else
    match closureDecision env store ticket status actor reason with
    | .error e => .raised e store
    | .ok decision =>
      match persistClosureDecision ticket decision store with
      | (created, ticket, store) =>
        if decision.allowed = false then
          .raised (.value (s!"Ticket cannot be {status}: " ++ "; ".intercalate decision.failures)) store
        else if created = false ∧ ticket.status = status then (.ok ticket, store)
        else setStatus status reason actor ticket store

/-- The transition of a ticket to a status in capitals. -/
def transitionTo (env : Surroundings) (ticket : TicketRecord) (status actor reason : String)
    (store : TicketStore) : Outcome TicketRecord :=
  if ticketStatuses.contains status = false then
    .raised (.value s!"Unknown ticket status: {status}") store
  else if closing.contains status = true then closeTicket env ticket status actor reason store
  else setStatus status reason actor ticket store

/-- `transition`. -/
def transition (env : Surroundings) (ticketId status actor reason : String) (store : TicketStore) :
    Outcome TicketRecord :=
  match getTicket env.host store ticketId with
  | .error e => .raised e store
  | .ok ticket => transitionTo env ticket (upper env.host.text status) actor reason store

/-! ## Criteria -/

structure CriterionRequest where
  ticketId : String
  criterionId : String
  status : String
  evidenceIds : List String
  reason : String
  actor : String

/-- The criterion as a request resolves it. -/
def resolvedCriterion (now status : String) (req : CriterionRequest)
    (assessments : List TicketEvidenceAssessment) (criterion : TicketAcceptanceCriterion) :
    TicketAcceptanceCriterion :=
  { criterion with
    status := status
    evidenceIds := distinct req.evidenceIds
    waiverReason := if status = "WAIVED" then some (strip req.reason) else none
    blockerReason := if status = "BLOCKED" then some (strip req.reason) else none
    resolvedBy := some req.actor
    resolvedAt := if status = "PENDING" then none else some now
    evidenceAssessments := if status = "EVIDENCED" then assessments else [] }

/-- The checks of a request, and the assessments of its evidence. -/
def checkCriterionRequest (env : Surroundings) (store : TicketStore) (ticket : TicketRecord)
    (status : String) (req : CriterionRequest) : Except PyError (List TicketEvidenceAssessment) := do
  if criterionStatuses.contains status = false then
    throw (.value s!"Unknown criterion status: {status}")
  if status ≠ "PENDING" ∧ strip req.actor = "" then
    throw (.value "Criterion resolution requires an actor.")
  let assessments ← req.evidenceIds.mapM (assess env store ticket)
  if assessments.any (!·.eligible) then
    throw (.value ("Criterion evidence is ineligible: " ++ "; ".intercalate
      ((assessments.filter (!·.eligible)).map fun item => s!"{item.evidenceId}: {item.reason}")))
  if status = "EVIDENCED" ∧ req.evidenceIds = [] then
    throw (.value "EVIDENCED criteria require at least one attached evidence artifact.")
  if (status = "WAIVED" ∨ status = "BLOCKED") ∧ strip req.reason = "" then
    throw (.value s!"{status} criteria require an explicit reason.")
  return assessments

/-- `resolve_criterion`. -/
def resolveCriterion (env : Surroundings) (now : String) (req : CriterionRequest)
    (store : TicketStore) : Outcome TicketRecord :=
  match getTicket env.host store req.ticketId with
  | .error e => .raised e store
  | .ok ticket =>
    match ticket.acceptanceCriteria.find? (·.id == req.criterionId) with
    | none => .raised (.value s!"Acceptance criterion not found: {req.criterionId}") store
    | some criterion =>
      let status := upper env.host.text req.status
      match checkCriterionRequest env store ticket status req with
      | .error e => .raised e store
      | .ok assessments =>
        let ticket := { ticket with
          acceptanceCriteria := changeFirst (·.id == req.criterionId)
            (resolvedCriterion now status req assessments) ticket.acceptanceCriteria }
        (.ok ticket, event ticket.id "CRITERION_RESOLVED"
          (strip s!"{criterion.description} → {status}. {req.reason}") req.actor req.evidenceIds
          (saveProjectTicket store ticket))

/-! ## New tickets -/

structure TicketRequest where
  projectId : String
  title : String
  description : String
  acceptanceCriteria : List String
  constraints : List String
  priority : String
  dependencyTicketIds : List String
  budget : TicketBudget
  createdBy : String
  sourceClaimIds : List String := []

/-- The items that are not blank, with single blanks. -/
def squeezed (items : List String) : List String :=
  (items.filter (strip · ≠ "")).map squeeze

/-- What the checks of the texts and the project leave: the project. -/
def checkTicketRequest (host : SandboxHost) (store : TicketStore) (req : TicketRequest)
    (currentClaims : List String → Except PyError Unit) : Except PyError ProjectRecord := do
  if squeeze req.title = "" then throw (.value "Ticket title is required.")
  if squeeze req.description = "" then throw (.value "Ticket description is required.")
  if squeezed req.acceptanceCriteria = [] then
    throw (.value "At least one acceptance criterion is required.")
  if priorities.contains (upper host.text req.priority) = false then
    throw (.value ("Priority must be one of: " ++ ", ".intercalate (sortedSet priorities) ++ "."))
  let project ← ((store.projects.find? (·.id == req.projectId)).filter fun project =>
      project.readOnly && project.explicitlySelected).elim
    (.error (.value "Ticket project must be explicitly registered read-only.")) .ok
  if store.executionMode project.id = .readOnly then
    throw (.value "Read-only projects cannot create implementation tickets.")
  currentClaims (distinct req.sourceClaimIds)
  let missing := sortedSet (req.dependencyTicketIds.filter fun ticketId =>
    !(store.tickets.map (·.id)).contains ticketId)
  if missing ≠ [] then
    throw (.value ("Unknown ticket dependencies: " ++ ", ".intercalate missing))
  return project

def dependencyScope (store : TicketStore) (project : ProjectRecord) (dependencyId : String) :
    TicketDependencyScope :=
  let projectId := ((store.tickets.reverse.find? (·.id == dependencyId)).map (·.projectId)).getD ""
  ⟨dependencyId, projectId, projectId != project.id⟩

def newTicket (host : SandboxHost) (store : TicketStore) (req : TicketRequest)
    (project : ProjectRecord) (ticketId : String) (criterionId : Nat → String) : TicketRecord where
  id := ticketId
  projectId := project.id
  projectRoot := host.resolve project.root
  title := squeeze req.title
  description := squeeze req.description
  priority := upper host.text req.priority
  acceptanceCriteria := (squeezed req.acceptanceCriteria).mapIdx fun i item =>
    { id := criterionId i, description := item }
  constraints := squeezed req.constraints
  dependencyTicketIds := distinct req.dependencyTicketIds
  dependencyScopes := (distinct req.dependencyTicketIds).map (dependencyScope store project)
  sourceClaimIds := distinct req.sourceClaimIds
  budget := req.budget
  usage := ⟨0, 0, 0, 0, 0⟩

/-- `create`. The identifiers are drawn, and what the check of the source
claims ends with is given. -/
def create (host : SandboxHost) (req : TicketRequest) (ticketId policyId : String)
    (criterionId : Nat → String) (currentClaims : List String → Except PyError Unit)
    (store : TicketStore) : Outcome TicketRecord :=
  match checkTicketRequest host store req currentClaims with
  | .error e => .raised e store
  | .ok project =>
    let (policy, policies) :=
      policyOf host.toGovernanceHost store.projects policyId project.id store.policies
    let store := { store with policies := policies }
    match policy.bind fun policy => assertBudget policy req.budget with
    | .error e => .raised e store
    | .ok () =>
      let ticket := newTicket host store req project ticketId criterionId
      (.ok ticket, event ticket.id "CREATED" "Ticket created with explicit scope and budget."
        req.createdBy [] (saveProjectTicket store ticket))

/-! ## Evidence and usage -/

structure ValidationRequest where
  ticketId : String
  name : String
  status : String
  detail : String
  workspaceRecordId : Option String
  recordedBy : String

/-- The check of the workspace record of a validation. -/
def checkValidationRecord (env : Surroundings) (store : TicketStore) (ticket : TicketRecord)
    (workspaceRecordId : Option String) : Except PyError Unit :=
  if given workspaceRecordId = false then .ok ()
  else
    let recordId := workspaceRecordId.getD ""
    match (store.records recordId).filter (·.ticketId == some ticket.id) with
    | none => .error (.value "Validation workspace record must belong to this ticket.")
    | some _ => do
      let found ← assess env store ticket recordId
      if found.eligible = false then
        throw (.value s!"Validation workspace record is ineligible: {found.reason}")

/-- `record_validation`. -/
def recordValidation (env : Surroundings) (resultId : String) (req : ValidationRequest)
    (store : TicketStore) : Outcome TicketValidationResult :=
  match getTicket env.host store req.ticketId with
  | .error e => .raised e store
  | .ok ticket =>
    let status := upper env.host.text req.status
    if validationStatuses.contains status = false then
      .raised (.value s!"Unknown validation status: {status}") store
    else
      match checkValidationRecord env store ticket req.workspaceRecordId with
      | .error e => .raised e store
      | .ok () =>
        let result : TicketValidationResult :=
          { id := resultId, ticketId := ticket.id, projectId := some ticket.projectId
            projectRoot := some ticket.projectRoot, name := squeeze req.name, status := status
            detail := squeeze req.detail, workspaceRecordId := req.workspaceRecordId }
        (.ok result, event ticket.id "VALIDATION_RECORDED"
          s!"{result.name}: {result.status} — {result.detail}" req.recordedBy
          (result.id :: if given req.workspaceRecordId then req.workspaceRecordId.toList else [])
          { store with validations := Function.update store.validations resultId (some result) })

/-- The path without its empty parts, if it stays inside. -/
def safeRelativePath (value : String) : Except PyError String :=
  let normalized := value.toList.map fun c => if c = '\\' then '/' else c
  let parts := (normalized.splitOn '/').filter fun part => part ≠ [] && part ≠ ['.']
  if normalized = [] ∨ normalized.head? = some '/' ∨ ['.', '.'] ∈ parts ∨
      parts.head?.any (·.contains ':') = true then
    .error (.value s!"Sandbox path is outside the authorized project boundary: {value}")
  else .ok (if parts = [] then "." else "/".intercalate (parts.map String.ofList))

/-- The checks of an attempt before it is attached. -/
def checkAttachedAttempt (host : SandboxHost) (ticket : TicketRecord) (attempt : SandboxEvidence) :
    Except PyError Unit := do
  if attempt.ticketId ≠ ticket.id ∨ attempt.projectId ≠ ticket.projectId then
    throw (.value "Sandbox attempt does not match its originating ticket.")
  if host.canonicalRoot attempt.projectRoot ≠ host.canonicalRoot ticket.projectRoot then
    throw (.value "Sandbox attempt root does not match its originating ticket.")
  let authorized ← attempt.authorizedPaths.mapM safeRelativePath
  let changed ← (attempt.changes.map (·.path)).mapM safeRelativePath
  let outside := sortedSet (changed.filter fun path => !authorized.contains path)
  if outside ≠ [] then
    throw (.value ("Sandbox attempt contains changes outside its authorized path boundary: " ++
      ", ".intercalate outside))

/-- `attach_sandbox_attempt`. -/
def attachSandboxAttempt (host : SandboxHost) (ticketId : String) (attempt : SandboxEvidence)
    (store : TicketStore) : Outcome Unit :=
  match getTicket host store ticketId with
  | .error e => .raised e store
  | .ok ticket =>
    match checkAttachedAttempt host ticket attempt with
    | .error e => .raised e store
    | .ok () =>
      let ticket := { ticket with usage := { ticket.usage with
        modelCalls := ticket.usage.modelCalls + attempt.modelCalls
        workerCalls := ticket.usage.workerCalls + attempt.workerCalls
        wallTime := ticket.usage.wallTime + attempt.elapsedSeconds } }
      let store := { store with sandboxes := replaceRow (·.id) attempt store.sandboxes }
      (.ok (), event ticket.id "SANDBOX_ATTEMPT_ATTACHED"
        s!"Sandbox {attempt.id} finished as {attempt.status} with {attempt.changes.length} reviewable changes."
        "Observer sandbox" [attempt.id, attempt.planRecordId] (saveProjectTicket store ticket))

/-- `attach_workspace_record`. -/
def attachWorkspaceRecord (host : SandboxHost) (ticketId : String) (record : ProjectWorkspaceRecord)
    (store : TicketStore) : Outcome Unit :=
  match getTicket host store ticketId with
  | .error e => .raised e store
  | .ok ticket =>
    if record.projectId ≠ ticket.projectId then
      .raised (.value "Workspace result project does not match its originating ticket.") store
    else if host.canonicalRoot record.projectRoot ≠ host.canonicalRoot ticket.projectRoot then
      .raised (.value "Workspace result root does not match its originating ticket.") store
    else
      let record := { record with ticketId := some ticket.id }
      let ticket := { ticket with usage := {
        tokens := ticket.usage.tokens + record.tokensUsed
        modelCalls := ticket.usage.modelCalls + record.modelCallsUsed
        workerCalls := ticket.usage.workerCalls + record.workerCallsUsed
        wallTime := ticket.usage.wallTime + record.elapsedSeconds
        deepestBranch := max ticket.usage.deepestBranch record.branchDepthUsed } }
      let store := { store with records := Function.update store.records record.id (some record) }
      (.ok (), event ticket.id "WORKSPACE_RESULT_ATTACHED"
        s!"{record.kind} result attached with {record.evidence.length} evidence items."
        "Observer workspace"
        (record.id :: if given record.sourceResultId then record.sourceResultId.toList else [])
        (saveProjectTicket store ticket))

/-- What `approve_plan` leaves in these tables: the columns it writes to the
plan record are none that evidence is judged by. -/
def approvePlan (ticketId planRecordId actor detail : String) (store : TicketStore) : TicketStore :=
  event ticketId "PLAN_DECISION_RECORDED" detail actor [planRecordId] store

end RlmGraph.Tickets.Manager
