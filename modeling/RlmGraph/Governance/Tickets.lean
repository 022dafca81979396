import RlmGraph.Governance.Policy

/-! # Project tickets

What the ticket manager checks before it hands out a ticket: the ticket exists,
its project is registered and governed, and the identities of its dependency
projects are current. Wall times are microseconds. -/
namespace RlmGraph.Governance.Tickets
open RlmGraph.Lib RlmGraph.Governance.Policy

structure TicketUsage where
  tokens : Nat
  modelCalls : Nat
  workerCalls : Nat
  wallTime : Int
  deepestBranch : Nat
  deriving DecidableEq

structure TicketDependencyScope where
  ticketId : String
  projectId : String
  readOnly : Bool := true
  deriving DecidableEq

structure ProjectTicket where
  id : String
  projectId : String
  projectRoot : String
  priority : String := "MEDIUM"
  dependencyScopes : List TicketDependencyScope := []
  budget : TicketBudget
  usage : TicketUsage
  deriving DecidableEq

def microseconds (seconds : Nat) : Int := seconds * 1000000

/-- The check of one dependency scope; of tickets with one identifier the last
one is the current. -/
def assertScope (tickets : List ProjectTicket) (ticket : ProjectTicket)
    (scope : TicketDependencyScope) : Except PyError Unit :=
  if (tickets.reverse.find? (·.id == scope.ticketId)).map (·.projectId) ≠ some scope.projectId then
    .error (.value "Ticket dependency project identity is stale or mismatched.")
  else if scope.projectId ≠ ticket.projectId ∧ scope.readOnly = false then
    .error (.value "Cross-project ticket dependencies must remain read-only.")
  else .ok ()

/-- `TicketManager.get`. -/
def ticketOf (host : GovernanceHost) (projects : List ProjectRecord) (tickets : List ProjectTicket)
    (ticketId : String) : Except PyError ProjectTicket :=
  match tickets.find? (·.id == ticketId) with
  | none => .error (.value s!"Ticket not found: {ticketId}")
  | some ticket => do
    let project ← governedProject host projects ticket.projectId
    if host.canonicalRoot ticket.projectRoot ≠ host.canonicalRoot project.root then
      throw (.value "Ticket project identity does not match its registered root.")
    ticket.dependencyScopes.forM (assertScope tickets ticket)
    return ticket

end RlmGraph.Governance.Tickets
