import RlmGraph.Autonomy.Records

/-! # Preparation of autonomous tasks

`AutonomousTaskManager`: the policy of a session, and the task, ticket and
proposed plan that an outcome gives rise to. Creating the ticket may raise, and
a `ValueError` of it blocks the task. -/
namespace RlmGraph.Autonomy.Preparation
open RlmGraph.Lib RlmGraph.Lib.Programs RlmGraph.Autonomy.Records

/-- The stored policy of a session, or a new one. -/
def policyOf (t : Tables) (sessionId : String) : AutonomousWorkPolicy :=
  (t.policies.find? (·.sessionId == sessionId)).getD { sessionId }

variable {L : Type}

def policy (sessionId : String) : Act Op Reply L PyError AutonomousWorkPolicy := do
  let tables ← read
  pure (policyOf tables sessionId)

def enable (sessionId actor : String) : Act Op Reply Unit PyError AutonomousWorkPolicy := do
  let tables ← read
  let policy := { policyOf tables sessionId with enabled := true, enabledBy := some actor }
  save (.policy policy)
  pure policy

def disable (sessionId : String) : Act Op Reply Unit PyError AutonomousWorkPolicy := do
  let tables ← read
  let policy := { policyOf tables sessionId with enabled := false }
  save (.policy policy)
  pure policy

def taskTitle (branch : ConceptBranch) : String :=
  String.ofList (("Investigate and address: " ++ branch.concept).toList.take 180)

def taskObjective (branch : ConceptBranch) (outcome : ConceptBranchOutcome) : String :=
  "Resolve the evidence-linked " ++ outcome.status.lower ++ " concept branch: " ++
    branch.concept ++ ". " ++ outcome.summary

def ticketRequest (projectId : String) (task : AutonomousTask) (outcome : ConceptBranchOutcome) :
    TicketRequest where
  projectId := projectId
  title := task.title
  description := task.objective
  acceptanceCriteria := [
    "The originating evidence-linked uncertainty is reproducibly resolved.",
    "Focused tests cover the corrected behavior without weakening authority boundaries.",
    "The exact source claims are revalidated against current project state."]
  constraints := [
    "No source write occurs before separate plan approval.",
    "Implementation remains disposable until separate promotion approval.",
    "RLMGraph cannot approve its own plan or promotion."]
  priority := task.priority
  maxModelCalls := 6
  maxWorkerCalls := 6
  createdBy := "RLMGraph autonomous task preparation"
  sourceClaimIds := outcome.claimIds

def planOf (id : String) (task : AutonomousTask) (ticket : CreatedTicket)
    (outcome : ConceptBranchOutcome) : AutonomousTaskPlan where
  id := id
  sessionId := task.sessionId
  autonomousTaskId := task.id
  ticketId := ticket.id
  objective := task.objective
  steps := [
    "Reproduce and verify the originating evidence against current source and runtime state.",
    "Identify the smallest affected source and test boundary.",
    "Prepare a bounded implementation change in a disposable sandbox after approval.",
    "Run focused validation and compare it with the recorded baseline."]
  baselineChecks := [
    "Revalidate the source claims attached to the ticket.",
    "Run the smallest existing tests covering the affected behavior.",
    "Record contradictory evidence and unresolved dependencies before implementation."]
  acceptanceCriteria := ticket.acceptanceCriteria
  constraints := ticket.constraints
  sourceClaimIds := outcome.claimIds

/-- The outcomes with claims that no task of the session has used. -/
def usable (outcomes : List ConceptBranchOutcome) (tasks : List AutonomousTask) :
    List ConceptBranchOutcome :=
  outcomes.filter fun o => !(tasks.map (·.outcomeId)).contains o.id && !o.claimIds.isEmpty

def isValueError : PyError → Bool
  | .value _ => true
  | _ => false

/-- The task is blocked. -/
def block (task : AutonomousTask) (blocker : String) :
    Act Op Reply Unit PyError (AutonomousTask × Option AutonomousTaskPlan) := do
  let task := { task with status := .blocked, blocker := some blocker }
  save (.task task)
  pure (task, none)

/-- The plan of a task whose ticket has been created. -/
def propose (task : AutonomousTask) (outcome : ConceptBranchOutcome) (ticket : CreatedTicket) :
    Act Op Reply Unit PyError (AutonomousTask × Option AutonomousTaskPlan) := do
  let planId ← newId
  let plan := planOf planId task ticket outcome
  save (.plan plan)
  let task := { task with ticketId := some ticket.id, planId := some plan.id,
                          status := .waitingForUserPlanApproval }
  save (.task task)
  pure (task, some plan)

/-- The part of `prepare_latest` that follows the first save of the task. -/
def assignTicket (host : Host) (task : AutonomousTask) (outcome : ConceptBranchOutcome) :
    Act Op Reply Unit PyError (AutonomousTask × Option AutonomousTaskPlan) := do
  let registered ← callOut .projects
  match registered.projects.find? fun item =>
      host.resolve item.root == host.systemRoot && item.readOnly && item.explicitlySelected with
  | none => block task "RLMGraph is not explicitly registered as a read-only project."
  | some project =>
    let created : Except PyError CreatedTicket ← Act.onError
      ((fun answer => Except.ok answer.ticket) <$>
        callOut (.createTicket (ticketRequest project.id task outcome)))
      isValueError fun e => pure (.error e)
    match created with
    | .error e => block task e.message
    | .ok ticket => propose task outcome ticket

def prepareLatest (host : Host) (sessionId : String) :
    Act Op Reply Unit PyError (AutonomousTask × Option AutonomousTaskPlan) := do
  let policy ← policy sessionId
  Act.require (policy.enabled = true)
    (.value "Autonomous task preparation is not enabled for this session.")
  let prepared ← read
  let existing := prepared.autonomousTasks sessionId
  Act.require (existing.length < policy.maxTasksPerSession)
    (.value "The autonomous task budget is exhausted for this session.")
  let reached ← read
  match (usable (reached.conceptBranchOutcomes sessionId) existing).getLast? with
  | none => Act.fail (.value "No unused evidence-linked autonomous outcome is actionable yet.")
  | some outcome =>
    let known ← read
    let branch ← Act.ofExcept (first (·.id == outcome.branchId) (known.conceptBranches sessionId))
    let id ← newId
    let task : AutonomousTask :=
      { id, sessionId, branchId := branch.id, outcomeId := outcome.id,
        title := taskTitle branch, objective := taskObjective branch outcome }
    save (.task task)
    assignTicket host task outcome

end RlmGraph.Autonomy.Preparation
