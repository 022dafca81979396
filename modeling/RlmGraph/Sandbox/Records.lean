import RlmGraph.Governance.ArtifactKinds
import RlmGraph.Governance.Tickets

/-! # Records of a sandbox promotion

The records that the promotion of a sandbox attempt reads and writes, and the
tables of the store that hold them. A journal entry holds the bytes that the
source keeps in base64; a file of the project is its bytes and its mode. Times
are microseconds. -/
namespace RlmGraph.Sandbox.Records
open RlmGraph.Lib RlmGraph.Lib.JsonText RlmGraph.Governance.Policy
open RlmGraph.Governance.ArtifactKinds RlmGraph.Governance.Tickets

structure FileState where
  bytes : Bytes
  mode : Nat
  deriving DecidableEq

/-- The regular files, by resolved path. -/
abbrev Files := String → Option FileState

structure PatchChange where
  path : String
  beforeHash : String
  afterHash : String
  beforeContent : Option String := none
  afterContent : Option String := none
  beforeBytesBase64 : Option String := none
  afterBytesBase64 : Option String := none
  deriving DecidableEq

structure TestExecution where
  command : List String
  exitCode : Int
  deriving DecidableEq

structure SandboxCheckpoint where
  sequence : Nat
  stage : String
  detail : String
  deriving DecidableEq

structure SandboxPromotionApproval where
  id : String
  projectId : Option String
  projectRoot : Option String
  decision : String
  approvedBy : String
  reason : String
  sourceManifestSha256 : String
  policyId : Option String
  policyVersion : Option Nat
  ruleIds : List String
  bindingSha256 : Option String
  requirementsSha256 : Option String
  evidenceSha256 : Option String
  deriving DecidableEq

/-! ## The mutation journal -/

structure SandboxMutationJournalEntry where
  path : String
  beforeSha256 : String
  afterSha256 : String
  beforeBytes : Bytes
  afterBytes : Bytes
  originalMode : Nat
  staged : Bool := false
  replacementStarted : Bool := false
  replacementCompleted : Bool := false
  rollbackCompleted : Bool := false
  deriving DecidableEq

structure SandboxMutationJournal where
  id : String
  ticketId : String
  attemptId : String
  promotionId : String
  approvalId : String
  projectId : String
  projectRoot : String
  authorizedPaths : List String
  initialManifestSha256 : String
  approvedManifestSha256 : String
  proposedManifestSha256 : Option String := none
  finalManifestSha256 : Option String := none
  leaseId : String
  leaseHolderId : String
  fencingToken : Nat
  stage : String := "PREPARED"
  entries : List SandboxMutationJournalEntry
  validationCommands : List (List String)
  validationState : String := "PENDING"
  rollbackState : String := "NOT_REQUIRED"
  recoveryCount : Nat := 0
  recoveryRequired : Bool := true
  terminal : Bool := false
  failureReason : Option String := none
  checkpoints : List SandboxCheckpoint := []
  deriving DecidableEq

structure SandboxPromotionRecord where
  id : String
  projectId : String
  projectRoot : String
  approvalId : String
  status : String := "APPROVED"
  initialManifestSha256 : String
  appliedManifestSha256 : Option String := none
  finalManifestSha256 : Option String := none
  validations : List TestExecution := []
  rollbackValidations : List TestExecution := []
  rollbackVerified : Option Bool := none
  failureReason : Option String := none
  leaseId : String
  fencingToken : Nat
  checkpoints : List SandboxCheckpoint := []
  mutationJournal : Option SandboxMutationJournal := none
  deriving DecidableEq

structure ImplementationSandboxAttempt where
  id : String
  ticketId : String
  projectId : String
  projectRoot : String
  status : String
  authorizedPaths : List String
  changes : List PatchChange
  validations : List TestExecution
  validationDecisions : List SandboxValidationDecision
  promotionApproval : Option SandboxPromotionApproval := none
  promotionApprovalHistory : List GovernanceDecision := []
  promotionApprovalMissing : List String := []
  promotionApprovalExpirationReasons : List String := []
  promotion : Option SandboxPromotionRecord := none
  checkpoints : List SandboxCheckpoint := []
  initialManifestSha256 : String
  deriving DecidableEq

/-- The journal of the promotion of an attempt. -/
def ImplementationSandboxAttempt.journal (attempt : ImplementationSandboxAttempt) :
    Option SandboxMutationJournal :=
  attempt.promotion.bind (·.mutationJournal)

def ImplementationSandboxAttempt.onPromotion (attempt : ImplementationSandboxAttempt)
    (f : SandboxPromotionRecord → SandboxPromotionRecord) : ImplementationSandboxAttempt :=
  { attempt with promotion := attempt.promotion.map f }

def ImplementationSandboxAttempt.onJournal (attempt : ImplementationSandboxAttempt)
    (f : SandboxMutationJournal → SandboxMutationJournal) : ImplementationSandboxAttempt :=
  attempt.onPromotion fun promotion =>
    { promotion with mutationJournal := promotion.mutationJournal.map f }

structure TicketEvent where
  ticketId : String
  projectId : Option String
  projectRoot : Option String
  kind : String
  detail : String
  actor : String
  artifactIds : List String
  deriving DecidableEq

/-! ## The store -/

structure Store where
  projects : List ProjectRecord
  policies : PolicyTable
  sandboxes : List ImplementationSandboxAttempt
  tickets : List ProjectTicket
  ticketEvents : List TicketEvent
  projectFiles : String → List String

/-- `INSERT OR REPLACE`: the row of the attempt moves to the end. -/
def Store.saveImplementationSandbox (store : Store) (attempt : ImplementationSandboxAttempt) :
    Store :=
  { store with sandboxes := store.sandboxes.filter (·.id != attempt.id) ++ [attempt] }

def Store.saveProjectTicket (store : Store) (ticket : ProjectTicket) : Store :=
  { store with tickets := store.tickets.filter (·.id != ticket.id) ++ [ticket] }

def Store.saveTicketEvent (store : Store) (event : TicketEvent) : Store :=
  { store with ticketEvents := store.ticketEvents ++ [event] }

def Store.saveProjectGovernancePolicy (store : Store) (policy : ProjectGovernancePolicy) : Store :=
  { store with policies := Function.update store.policies policy.projectId (some policy) }

theorem Store.mem_saveImplementationSandbox {store : Store}
    {attempt other : ImplementationSandboxAttempt} :
    other ∈ (store.saveImplementationSandbox attempt).sandboxes ↔
      (other ∈ store.sandboxes ∧ other.id ≠ attempt.id) ∨ other = attempt := by
  simp [saveImplementationSandbox]

/-- An attempt whose promotion left an unfinished journal. -/
def ImplementationSandboxAttempt.unfinishedJournal (attempt : ImplementationSandboxAttempt) :
    Option SandboxMutationJournal :=
  attempt.journal.filter (!·.terminal)

end RlmGraph.Sandbox.Records
