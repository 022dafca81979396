import RlmGraph.Lib.Paths
import RlmGraph.Tickets.Manager
import RlmGraph.Tickets.Requests

/-! # Tasks of a conversation

A message that asks for work is answered by starting a ticket of the project.
The ticket is found by the objective, which is its identifier, its title or its
description without regard to case; if there is none, one is created. Then the
controller of the project's execution mode is started with it. -/
namespace RlmGraph.Tickets.Conversation
open RlmGraph.Lib RlmGraph.Lib.Paths RlmGraph.Lib.PyText
open RlmGraph.Governance.Policy
open RlmGraph.Sandbox.Operations (SandboxHost)
open RlmGraph.Tickets.Evidence RlmGraph.Tickets.Manager
open RlmGraph.Tickets.Requests

/-! ## The controllers -/

/-- What is read of the state of a controller. -/
structure Snapshot where
  status : String := "IDLE"
  ticketId : Option String := none
  stage : Option String := none
  error : Option String := none

structure World where
  store : TicketStore
  workspace : Snapshot
  automatic : Snapshot

/-- A controller that is started: it may raise, and it saves no ticket before
its thread runs. -/
structure Starter (α : Type) where
  start : α → World → Except PyError Unit × World
  tickets : ∀ request w, (start request w).2.store.tickets = w.store.tickets

/-- The arguments of `start_change_plan`. -/
structure PlanRequest where
  projectId : String
  request : String
  acceptanceCriteria : List String
  ticketId : String

/-- What a call draws and finds: identifiers of a new ticket, what the check of
no source claims ends with, the project's files, and the two controllers. -/
structure Moment where
  ticketId : String
  policyId : String
  criterionId : Nat → String
  currentClaims : List String → Except PyError Unit
  tree : ProjectTree
  depth : Nat
  startChangePlan : Starter PlanRequest
  /-- `automatic.start` with the project and the ticket. -/
  automaticStart : Starter (String × String)

structure Reply where
  answer : String
  route : String := "RLM_CONVERSATION_TASK"
  operationRoute : String := "TASK_WORKFLOW"
  scope : String
  routingConfidence : Nat := 1
  authority : String := "EXISTING_PROJECT_WORKFLOW"
  projectId : Option String
  ticketId : Option String
  evidence : List String := []

/-- `_reply`. -/
def reply (answer : String) (ticket : Option TicketRecord) : Reply where
  answer := answer
  scope := if ticket.isSome then "PROJECT" else "SYSTEM"
  projectId := ticket.map (·.projectId)
  ticketId := ticket.map (·.id)

/-- `status.lower().replace("_", " ")`. -/
def spoken (tables : CaseTables) (status : String) : String :=
  String.ofList ((lower tables status).toList.map fun c => if c = '_' then ' ' else c)

/-! ## The state of a task -/

def selectedStage (ticket : TicketRecord) (projectId : Option String) (w : World) : Option String :=
  let detail := if w.automatic.ticketId = some ticket.id then w.automatic else w.workspace
  let stage := if detail.ticketId = some ticket.id then detail.stage else none
  if given stage = false then none
  else
    let stage := stage.getD ""
    let stage := if given detail.error then stage ++ " " ++ detail.error.getD "" else stage
    let guarded := (w.store.projects.find? (·.id == ticket.projectId)).any fun project =>
      decide (w.store.executionMode project.id = .guarded)
    some (if detail.status = "COMPLETED" ∧ given projectId = true ∧ guarded = true then
      stage ++ " Review and approve the plan in Tickets before implementation." else stage)

/-- `_handle` without an objective. -/
def taskStatus (host : SandboxHost) (projectId ticketId : Option String) (w : World) :
    Except PyError Reply :=
  if given ticketId = false then
    .ok (reply "There is no task selected in this conversation. Tell me which task to check." none)
  else do
    let ticket ← getTicket host w.store (ticketId.getD "")
    let stage := (selectedStage ticket projectId w).getD
      "Open its ticket for the current plan and validation results."
    return reply (s!"{ticket.title}: {spoken host.text ticket.status}. " ++ stage) (some ticket)

/-! ## A request for work -/

/-- What a call asks for. -/
structure Work where
  objective : String
  projectId : Option String
  ticketId : Option String
  deriving DecidableEq

/-- `name.casefold() in {…}`. -/
def isNamed (host : SandboxHost) (name : String) (project : ProjectRecord) : Bool :=
  [project.id, ((PurePath.parse project.root).parts.getLast?).getD "", project.root].any fun text =>
    casefold host.text name == casefold host.text text

/-- The work in the project that its objective names, or in the given one. -/
def locate (host : SandboxHost) (store : TicketStore) (work : Work) : Except Reply Work :=
  match namedProject work.objective with
  | none => .ok work
  | some (objective, name) =>
    match store.projects.filter (isNamed host name) with
    | [project] => .ok ⟨objective, some project.id, none⟩
    | _ => .error (reply
      s!"I need one connected project matching {name}. Use its project ID or select it in Projects."
      none)

def openProject (store : TicketStore) (projectId : Option String) : Except Reply ProjectRecord :=
  if given projectId = false then
    .error (reply "Select a connected project, or say ‘start working on [task] in project [name]’."
      none)
  else
    match (store.projects.find? (·.id == projectId.getD "")).filter fun project =>
        decide (store.executionMode project.id ≠ .readOnly) with
    | some project => .ok project
    | none => .error (reply ("This project does not allow implementation tasks. Choose a project " ++
      "with an appropriate execution mode in Projects.") none)

/-- The ticket has the objective as its identifier, title or description. -/
def Matches (tables : CaseTables) (objective : String) (ticket : TicketRecord) : Prop :=
  casefold tables ticket.id = casefold tables objective ∨
    casefold tables ticket.title = casefold tables objective ∨
    casefold tables ticket.description = casefold tables objective

instance (tables : CaseTables) (objective : String) (ticket : TicketRecord) :
    Decidable (Matches tables objective ticket) :=
  inferInstanceAs (Decidable (_ ∨ _ ∨ _))

def isPronoun (tables : CaseTables) (objective : String) : Bool :=
  ["this task", "the selected task", "it"].contains (casefold tables objective)

/-- The tickets that the objective may mean. -/
def candidates (tables : CaseTables) (tickets : List TicketRecord) (work : Work)
    (project : ProjectRecord) : List TicketRecord :=
  if isPronoun tables work.objective then
    tickets.filter fun t => some t.id == work.ticketId && t.projectId == project.id
  else tickets.filter fun t => t.projectId == project.id && decide (Matches tables work.objective t)

def isBusy (controller : Snapshot) : Bool := ["QUEUED", "RUNNING"].contains controller.status

/-- The ticket that is found, if there is one, unless it or a controller is at
work. -/
def select (host : SandboxHost) (w : World) (work : Work) (project : ProjectRecord) :
    Except Reply (Option TicketRecord) :=
  let found := candidates host.text w.store.tickets work project
  if isPronoun host.text work.objective = true ∧ found = [] then
    .error (reply "Tell me the task outcome or select an existing ticket first." none)
  else if 1 < found.length then
    .error (reply
      "Several tickets match that description. Ask again using the exact ticket ID." none)
  else
    let ticket := found.head?
    match ticket.filter fun t => !(["DRAFT", "READY"].contains t.status) with
    | some t => .error (reply (s!"{t.title} is already {spoken host.text t.status}. " ++
      "I haven’t started a duplicate run.") (some t))
    | none =>
      if isBusy w.workspace || isBusy w.automatic then
        .error (reply "Another task is running. Let it finish before starting this one." ticket)
      else .ok ticket

/-- Everything that is checked before a ticket is created. -/
def prepare (host : SandboxHost) (w : World) (work : Work) :
    Except Reply (Work × ProjectRecord × Option TicketRecord) := do
  let work ← locate host w.store work
  let project ← openProject w.store work.projectId
  if 500 < work.objective.length then
    throw (reply "Please give this task a focused outcome of at most 500 characters." none)
  let ticket ← select host w work project
  return (work, project, ticket)

/-- The request that a new ticket is created by. -/
def ticketRequest (objective actor : String) (project : ProjectRecord) : TicketRequest where
  projectId := project.id
  title := String.ofList (objective.toList.take 180)
  description := objective
  acceptanceCriteria := [objective]
  constraints := []
  priority := "MEDIUM"
  dependencyTicketIds := []
  budget := {}
  createdBy := actor

/-- `except (ValueError, RuntimeError, OSError)`, with what these include. -/
def isStartFault : PyError → Bool
  | .value _ | .runtime _ | .readOnlyViolation _ | .os _ => true
  | .other name _ => ["ProjectSelectionError", "RecursionError", "SchedulingCancelled",
      "UnicodeDecodeError", "ValidationError"].contains name
  | _ => false

def isAutonomous (mode : ProjectExecutionMode) : Bool :=
  mode = .autonomousSandbox || mode = .autonomousProject

/-- `execution_mode.value.lower().replace("_", " ")`. -/
def modeName : ProjectExecutionMode → String
  | .readOnly => "read only"
  | .guarded => "protected"
  | .autonomousSandbox => "autonomous sandbox"
  | .autonomousProject => "autonomous project"

/-- A transition of the ticket in the world. -/
def moveTicket (env : Surroundings) (ticketId status actor reason : String) (w : World) :
    Except PyError Unit × World :=
  let (result, store) := transition env ticketId status actor reason w.store
  (result.map fun _ => (), { w with store := store })

/-- The steps in the `try` block. -/
def startSteps (host : SandboxHost) (m : Moment) (project : ProjectRecord) (message actor : String)
    (ticket : TicketRecord) (w : World) : Except PyError Unit × World :=
  let env : Surroundings := ⟨host, m.tree, m.depth⟩
  if isAutonomous (w.store.executionMode project.id) then
    match if ticket.status = "DRAFT" then moveTicket env ticket.id "READY" actor message w
      else (.ok (), w) with
    | (.error e, w) => (.error e, w)
    | (.ok (), w) => m.automaticStart.start (project.id, ticket.id) w
  else
    match m.startChangePlan.start ⟨project.id, ticket.description,
      ticket.acceptanceCriteria.map (·.description), ticket.id⟩ w with
    | (.error e, w) => (.error e, w)
    | (.ok (), w) => moveTicket env ticket.id "ACTIVE" actor message w

def startedAnswer (mode : ProjectExecutionMode) (ticket : TicketRecord) : String :=
  (if isAutonomous mode then s!"Started {ticket.title}. I’ll plan, implement, and validate this " ++
      s!"ticket under the project’s existing {modeName mode} mode."
    else s!"Started investigating and planning {ticket.title}. This project requires plan approval " ++
      "before implementation; the plan will appear in Tickets.") ++
  " Ask ‘task status’ to check progress."

def startTicket (host : SandboxHost) (m : Moment) (project : ProjectRecord) (message actor : String)
    (ticket : TicketRecord) (w : World) : Except PyError Reply × World :=
  match startSteps host m project message actor ticket w with
  | (.ok (), w') => (.ok (reply (startedAnswer (w.store.executionMode project.id) ticket) (some ticket)), w')
  | (.error e, w') =>
    if isStartFault e then
      (.ok (reply (s!"Created or found {ticket.title}, but could not start it: {e.message}. " ++
        "The ticket remains available; retry using its ID.") (some ticket)), w')
    else (.error e, w')

/-- `_handle` with an objective. -/
def handleWork (host : SandboxHost) (m : Moment) (message actor : String) (work : Work) (w : World) :
    Except PyError Reply × World :=
  match prepare host w work with
  | .error answer => (.ok answer, w)
  | .ok (_, project, some ticket) => startTicket host m project message actor ticket w
  | .ok (work, project, none) =>
    match create host (ticketRequest work.objective actor project) m.ticketId m.policyId
        m.criterionId m.currentClaims w.store with
    | (.error e, store) => (.error e, { w with store := store })
    | (.ok ticket, store) => startTicket host m project message actor ticket { w with store := store }

/-! ## The calls -/

inductive Call where
  | handle (message : String) (projectId ticketId : Option String) (actor : String)
  | startReviewedRequest (message : String) (projectId : Option String) (actor : String)

def Call.actor : Call → String
  | .handle _ _ _ actor | .startReviewedRequest _ _ actor => actor

/-- The message as it is handled. -/
def Call.message : Call → String
  | .handle message _ _ _ =>
    if isSelectedTask message then "start working on this task" else message
  | .startReviewedRequest message _ _ => message

/-- The work that a call is accepted as a request for. -/
def Call.work : Call → Option Work
  | call@(.handle _ projectId ticketId _) =>
    (startObjective call.message).map fun objective => ⟨objective, projectId, ticketId⟩
  | .startReviewedRequest message projectId _ => some ⟨message, projectId, none⟩

/-- `handle` and `start_reviewed_request`. -/
def Call.answer (host : SandboxHost) (m : Moment) (w : World) (call : Call) :
    Except PyError (Option Reply) × World :=
  match call.work with
  | some work =>
    let (result, w) := handleWork host m call.message call.actor work w
    (result.map some, w)
  | none =>
    match call with
    | .handle message projectId ticketId _ =>
      if isStatusRequest message then ((taskStatus host projectId ticketId w).map some, w)
      else (.ok none, w)
    | .startReviewedRequest _ _ _ => (.ok none, w)

end RlmGraph.Tickets.Conversation
