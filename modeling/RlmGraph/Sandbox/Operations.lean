import RlmGraph.Lib.Programs
import RlmGraph.Sandbox.Records
import RlmGraph.Store.Lease

/-! # The world of the sandbox manager

What the manager works on: the tables of the store, the lease table and the
files of the project, with a clock and a count of the operations performed so
far. Each operation is atomic: a call of the store, one look at the files, the
replacement of one file, one command. The host fixes how paths resolve and
digests are taken; its oracles answer, for each operation by its number, how a
command ends and what it does to the files, whether a write fails, what the
fault injector raises and how much time passes. Reads of the store with
nothing between them are one look. -/
namespace RlmGraph.Sandbox.Operations
open RlmGraph.Lib RlmGraph.Lib.JsonText RlmGraph.Lib.PyText RlmGraph.Lib.Programs
open RlmGraph.Governance.Tickets (ProjectTicket microseconds)
open RlmGraph.Governance.Policy RlmGraph.Store.Lease RlmGraph.Sandbox.Records

structure SandboxHost extends GovernanceHost where
  resolve_idem : ∀ path, resolve (resolve path) = resolve path
  isoformat : Int → String
  join : String → String → String
  isAbsolute : String → Bool
  parts : String → List String
  isRelativeTo : String → String → Bool
  b64decode : String → Option Bytes
  /-- `sys.executable`. -/
  executable : String
  validationTimeout : Int
  execute : Nat → List String → Int → Files → Except PyError Int × Files
  /-- A failing write: whether the file was replaced all the same, and what is raised. -/
  replaceFault : Nat → Option (Bool × PyError)
  faultInjector : Nat → String → Option PyError
  perfCounter : Nat → Int
  elapsed : Nat → Nat
  newId : Nat → String

def SandboxHost.leases (host : SandboxHost) : LeaseHost :=
  ⟨host.resolve, casefold host.text, host.isoformat⟩

structure World where
  store : Store
  leases : LeaseTable
  files : Files
  clock : Int
  tick : Nat
  /-- The files as the last replacement left them. Nothing reads it. -/
  settled : Files

/-! ## Operations -/

inductive Op where
  | readStore
  | saveImplementationSandbox (attempt : ImplementationSandboxAttempt)
  | saveProjectTicket (ticket : ProjectTicket)
  | saveTicketEvent (event : TicketEvent)
  | saveProjectGovernancePolicy (policy : ProjectGovernancePolicy)
  | projectLeases
  | acquireProjectLease (projectRoot holderId workflowId : String)
      (recoveryJournalId : Option String)
  | recordProjectLeaseEvent (projectRoot holderId : String) (fencingToken : Nat)
      (kind : ProjectLeaseEventKind) (detail : String) (workflowId : Option String)
  | readFiles
  | replaceFile (target : String) (content : FileState)
  | execute (command : List String) (timeout : Int)
  | perfCounter
  | injectFault (stage : String)
  | newId

abbrev Reply : Op → Type
  | .readStore => Store
  | .projectLeases => LeaseTable
  | .acquireProjectLease .. => Except PyError ProjectLeaseAcquisition
  | .recordProjectLeaseEvent .. => Except PyError ProjectLease
  | .readFiles => Files
  | .replaceFile .. => Except PyError Unit
  | .execute .. => Except PyError Int
  | .perfCounter => Int
  | .injectFault .. => Option PyError
  | .newId => String
  | _ => Unit

/-- `ttl_seconds: float = 120`. -/
def leaseTtl : Int := 120000000

/-- The identifiers of the unfinished journals of a root. -/
def unfinishedJournals (host : SandboxHost) (store : Store) (root : String) : List String :=
  (store.sandboxes.filter fun attempt =>
    host.leases.leaseRoot attempt.projectRoot == root).filterMap fun attempt =>
      attempt.unfinishedJournal.map (·.id)

/-- The world one operation later, nothing else changed. -/
def World.next (host : SandboxHost) (world : World) : World :=
  { world with clock := world.clock + host.elapsed world.tick, tick := world.tick + 1 }

def acquireRequest (host : SandboxHost) (world : World) (projectRoot holderId workflowId : String)
    (recoveryJournalId : Option String) : AcquireRequest :=
  ⟨projectRoot, holderId, some workflowId, leaseTtl, world.clock, recoveryJournalId,
    host.newId world.tick⟩

/-- `next((item.id for item in projects if lease_root(item.root) == root), None)`. -/
def leasedProject (host : SandboxHost) (store : Store) (projectRoot : String) : Option String :=
  (store.projects.find? fun project => host.leases.leaseRoot project.root ==
    host.leases.leaseRoot projectRoot).map (·.id)

def acquisition (host : SandboxHost) (world : World) (projectRoot holderId workflowId : String)
    (recoveryJournalId : Option String) : Except PyError ProjectLeaseAcquisition × LeaseTable :=
  RlmGraph.Store.Lease.acquireProjectLease host.leases
    (acquireRequest host world projectRoot holderId workflowId recoveryJournalId)
    (unfinishedJournals host world.store (host.leases.leaseRoot projectRoot))
    (leasedProject host world.store projectRoot) world.leases

/-- What each operation replies and does. -/
def perform (host : SandboxHost) : Meaning Op Reply World := fun op world =>
  let next := world.next host
  match op with
  | .readStore => (world.store, next)
  | .saveImplementationSandbox attempt =>
    ((), { next with store := world.store.saveImplementationSandbox attempt })
  | .saveProjectTicket ticket => ((), { next with store := world.store.saveProjectTicket ticket })
  | .saveTicketEvent event => ((), { next with store := world.store.saveTicketEvent event })
  | .saveProjectGovernancePolicy policy =>
    ((), { next with store := world.store.saveProjectGovernancePolicy policy })
  | .projectLeases => (world.leases, next)
  | .acquireProjectLease root holder workflow recovery =>
    let (reply, leases) := acquisition host world root holder workflow recovery
    (reply, { next with leases := leases })
  | .recordProjectLeaseEvent root holder token kind detail workflow =>
    let (reply, leases) := RlmGraph.Store.Lease.recordProjectLeaseEvent host.leases root holder
      token kind detail workflow world.clock world.leases
    (reply, { next with leases := leases })
  | .readFiles => (world.files, next)
  | .replaceFile target content =>
    let files := Function.update world.files target (some content)
    match host.replaceFault world.tick with
    | none => (.ok (), { next with files := files, settled := files })
    | some (true, e) => (.error e, { next with files := files, settled := files })
    | some (false, e) => (.error e, next)
  | .execute command timeout =>
    let (reply, files) := host.execute world.tick command timeout world.files
    (reply, { next with files := files })
  | .perfCounter => (host.perfCounter world.tick, next)
  | .injectFault stage => (host.faultInjector world.tick stage, next)
  | .newId => (host.newId world.tick, next)

abbrev SandboxAct (L α : Type) := Act Op Reply L PyError α

/-! ## Calls -/

section
variable {L : Type}

abbrev readStore : SandboxAct L Store := Act.perform Op.readStore
abbrev readFiles : SandboxAct L Files := Act.perform Op.readFiles
abbrev projectLeases : SandboxAct L LeaseTable := Act.perform Op.projectLeases
abbrev perfCounter : SandboxAct L Int := Act.perform Op.perfCounter
abbrev newId : SandboxAct L String := Act.perform Op.newId

abbrev saveImplementationSandbox (attempt : ImplementationSandboxAttempt) : SandboxAct L Unit :=
  Act.perform (Op.saveImplementationSandbox attempt)

abbrev saveProjectTicket (ticket : ProjectTicket) : SandboxAct L Unit :=
  Act.perform (Op.saveProjectTicket ticket)

abbrev saveTicketEvent (event : TicketEvent) : SandboxAct L Unit :=
  Act.perform (Op.saveTicketEvent event)

abbrev saveProjectGovernancePolicy (policy : ProjectGovernancePolicy) : SandboxAct L Unit :=
  Act.perform (Op.saveProjectGovernancePolicy policy)

/-- The reply of an operation that may raise. -/
def orRaise {α : Type} (reply : SandboxAct L (Except PyError α)) : SandboxAct L α := do
  Act.ofExcept (← reply)

def acquireProjectLease (projectRoot holderId workflowId : String)
    (recoveryJournalId : Option String) : SandboxAct L ProjectLeaseAcquisition :=
  orRaise (Act.perform (Op.acquireProjectLease projectRoot holderId workflowId recoveryJournalId))

def recordProjectLeaseEvent (projectRoot holderId : String) (fencingToken : Nat)
    (kind : ProjectLeaseEventKind) (detail : String) (workflowId : Option String) :
    SandboxAct L ProjectLease :=
  orRaise (Act.perform (Op.recordProjectLeaseEvent projectRoot holderId fencingToken kind detail
    workflowId))

def releaseProjectLease (projectRoot holderId : String) (fencingToken : Nat) :
    SandboxAct L ProjectLease :=
  recordProjectLeaseEvent projectRoot holderId fencingToken .released
    "Exclusive project mutation lease released." none

/-- `_replace_single`: stage the content beside the target, then swap it in. -/
def replaceSingle (target : String) (content : Bytes) (mode : Nat) : SandboxAct L Unit :=
  orRaise (Act.perform (Op.replaceFile target ⟨content, mode⟩))

/-- `_execute`. -/
def execute (command : List String) (timeout : Int) : SandboxAct L TestExecution := do
  let exitCode ← orRaise (Act.perform (Op.execute command timeout))
  return ⟨command, exitCode⟩

/-- `_inject_fault`. -/
def injectFault (stage : String) : SandboxAct L Unit := do
  let fault : Option PyError ← Act.perform (Op.injectFault stage)
  Act.ofExcept (fault.elim (.ok ()) .error)

/-- A question to the store. -/
def ask {α : Type} (f : Store → Except PyError α) : SandboxAct L α := do
  let store ← readStore
  Act.ofExcept (f store)

/-- A question to the files. -/
def look {α : Type} (f : Files → Except PyError α) : SandboxAct L α := do
  let files ← readFiles
  Act.ofExcept (f files)

/-- `TicketManager.get`. -/
def ticketOf (host : SandboxHost) (ticketId : String) (store : Store) :
    Except PyError ProjectTicket :=
  Governance.Tickets.ticketOf host.toGovernanceHost store.projects store.tickets ticketId

/-- `ProjectGovernance.policy`; a default policy is stored. -/
def policy (host : SandboxHost) (projectId : String) : SandboxAct L ProjectGovernancePolicy := do
  let store ← readStore
  let newId ← newId
  let policy ← Act.ofExcept (policyOf host.toGovernanceHost store.projects newId projectId
    store.policies).1
  Act.when (store.policies projectId = none) (saveProjectGovernancePolicy policy)
  return policy

/-- `assert_budget`. -/
def assertBudget (policy : ProjectGovernancePolicy) (budget : TicketBudget) : Except PyError Unit :=
  let ceiling := policy.terms.maxTicketBudget
  let fields := [("max_tokens", budget.maxTokens, ceiling.maxTokens),
    ("max_model_calls", budget.maxModelCalls, ceiling.maxModelCalls),
    ("max_worker_calls", budget.maxWorkerCalls, ceiling.maxWorkerCalls),
    ("max_wall_time_seconds", budget.maxWallTimeSeconds, ceiling.maxWallTimeSeconds),
    ("max_branch_depth", budget.maxBranchDepth, ceiling.maxBranchDepth)]
  match (fields.filter fun (_, asked, allowed) => decide (allowed < asked)).map (·.1) with
  | [] => .ok ()
  | exceeded => .error (.value ("Policy rule BUDGET-CEILING denied: Ticket budget exceeds project policy: " ++
      ", ".intercalate exceeded))

/-- The budgets a ticket has used up. -/
def exhausted (ticket : ProjectTicket) : List String :=
  let checks := [((ticket.usage.tokens : Int), (ticket.budget.maxTokens : Int), "token"),
    (ticket.usage.modelCalls, ticket.budget.maxModelCalls, "model-call"),
    (ticket.usage.workerCalls, ticket.budget.maxWorkerCalls, "worker-call"),
    (ticket.usage.wallTime, microseconds ticket.budget.maxWallTimeSeconds, "wall-time"),
    (ticket.usage.deepestBranch, ticket.budget.maxBranchDepth, "branch-depth")]
  (checks.filter fun (used, limit, _) => decide (limit ≤ used)).map (·.2.2)

/-- `TicketManager.check_budget`. -/
def checkBudget (host : SandboxHost) (ticketId : String) : SandboxAct L ProjectTicket := do
  let ticket ← ask (ticketOf host ticketId)
  let policy ← policy host ticket.projectId
  Act.ofExcept (assertBudget policy ticket.budget)
  Act.require (exhausted ticket = [])
    (.runtime ("Ticket compute budget exhausted: " ++ ", ".intercalate (exhausted ticket)))
  return ticket

/-- `_attempt`. -/
def attemptOf (host : SandboxHost) (ticketId attemptId : String) (store : Store) :
    Except PyError ImplementationSandboxAttempt :=
  match store.sandboxes.find? fun item => item.ticketId == ticketId && item.id == attemptId with
  | none => .error (.value s!"Sandbox attempt not found: {attemptId}")
  | some attempt => do
    let ticket ← ticketOf host ticketId store
    let project ← governedProject host.toGovernanceHost store.projects ticket.projectId
    if attempt.ticketId ≠ ticket.id ∨ attempt.projectId ≠ ticket.projectId then
      throw (.readOnlyViolation "Sandbox attempt does not match its ticket project identity.")
    if host.canonicalRoot attempt.projectRoot ≠ host.canonicalRoot project.root then
      throw (.readOnlyViolation "Sandbox attempt project root does not match its registered project.")
    return attempt

end

/-! ## Files -/

/-- `(root / relative).resolve()`. -/
def SandboxHost.target (host : SandboxHost) (root relative : String) : String :=
  host.resolve (host.join root relative)

def missingFile (path : String) : PyError := .os s!"No such file: {path}"

def readFile (path : String) (files : Files) : Except PyError FileState :=
  match files path with
  | some file => .ok file
  | none => .error (missingFile path)

/-- `file_content_hash`. -/
def fileContentHash (host : SandboxHost) (path : String) (files : Files) : Except PyError String := do
  let file ← readFile path files
  return host.sha256 file.bytes

def notRelative (path root : String) : PyError := .value s!"{path} is not in the subpath of {root}"

/-- The indexed files with their digests. -/
def manifestEntries (host : SandboxHost) (root : String) (files : Files) :
    List String → Except PyError (List (String × String))
  | [] => .ok []
  | path :: paths => do
    let digest ← fileContentHash host (host.target root path) files
    if host.isRelativeTo (host.target root path) root = false then
      throw (notRelative (host.target root path) root)
    return (path, digest) :: (← manifestEntries host root files paths)

/-- `indexed_project_fingerprint`. -/
def indexedProjectFingerprint (host : SandboxHost) (root : String)
    (entries : List (String × String)) : String :=
  let sorted := entries.mergeSort fun a b => decide (a.1 < b.1 ∨ (a.1 = b.1 ∧ a.2 ≤ b.2))
  host.sha256 (utf8 (dumps ⟨true, true⟩ (.obj [("root", .str (host.resolve root)),
    ("files", .arr (sorted.map fun (path, digest) => .arr [.str path, .str digest]))])))

def manifestOf (host : SandboxHost) (root : String) (indexed : List String) (files : Files) :
    Except PyError String := do
  return indexedProjectFingerprint host root (← manifestEntries host root files indexed)

/-- `_current_manifest`. -/
def currentManifest {L : Type} (host : SandboxHost) (projectId root : String) : SandboxAct L String := do
  let store ← readStore
  look (manifestOf host root (store.projectFiles projectId))

end RlmGraph.Sandbox.Operations
