import RlmGraph.Lib.Programs
import RlmGraph.Lib.PyText
import RlmGraph.Repair.Recovery
import RlmGraph.Store.Lease

/-! # Promotion of a repair

`RepairPromoter` and `PostRepairReconciler`, as programs over the operations
they perform on the graph store and on the files of the project. Any operation
that writes may raise, and the process may end between any two of them. The
investigation, the trial of a repair and the new scan of the project are calls to
the outside. Files are replaced whole: the temporary files they are staged in are
not in the tree. -/
namespace RlmGraph.Repair.Promotion
open RlmGraph.Lib RlmGraph.Lib.JsonText RlmGraph.Lib.Programs RlmGraph.Store.Lease
open RlmGraph.Sandbox.Records (FileState PatchChange TestExecution)
open RlmGraph.Repair.Records (RepairProposal RepairValidation)
open RlmGraph.Repair.Recovery (PromotionStatus PromotionEvent RepairPromotion Tree PromoterHost
  Original setOriginal originals validatedPaths testCommand unrecoverable)

inductive ApprovalDecision where
  | approved | rejected
  deriving DecidableEq

structure RepairApproval where
  id : String
  proposalId : String
  validationId : String
  projectRoot : String
  proposalSignature : String
  sourceTreeFingerprint : String
  decision : ApprovalDecision
  approvedBy : String
  reason : String

structure PostRepairReconciliation where
  id : String
  promotionId : String
  proposalId : String
  projectRoot : String
  affectedPaths : List String
  followUpTaskId : String
  followUpClaimId : String
  followUpWorkerCalls : Nat

structure PromotionRunResult where
  approval : RepairApproval
  promotion : Option RepairPromotion := none

inductive MaintenanceWorkflowStatus where
  | created | diagnosed | waitingForApproval | rejected | completed | rolledBack | failed
  deriving DecidableEq

structure MaintenanceWorkflowEvent where
  status : MaintenanceWorkflowStatus
  detail : String
  artifactIds : List String := []

structure MaintenanceWorkflow where
  id : String
  signature : String
  question : String
  projectRoot : String
  testPath : String
  initialProjectFingerprint : String
  status : MaintenanceWorkflowStatus := .created
  diagnosisTaskId : Option String := none
  diagnosisClaimId : Option String := none
  repairTaskId : Option String := none
  proposalId : Option String := none
  sandboxValidationId : Option String := none
  approvalId : Option String := none
  promotionId : Option String := none
  reconciliationId : Option String := none
  followUpTaskId : Option String := none
  followUpClaimId : Option String := none
  diagnosisWorkerCalls : Nat := 0
  repairWorkerCalls : Nat := 0
  repairModelCalls : Nat := 0
  promotionAttempts : Nat := 0
  followUpWorkerCalls : Nat := 0
  events : List MaintenanceWorkflowEvent := []
  lastError : Option String := none

/-! ## The store -/

structure ProjectRecord where
  id : String
  root : String
  explicitlySelected : Bool

structure DiagnosisTask where
  id : String
  question : String
  projectRoot : String
  projectFingerprint : String
  done : Bool
  outputClaimId : Option String

/-- What others write and the workflow reads. -/
structure Records where
  projects : List ProjectRecord
  projectFiles : String → List (String × String)
  tasks : List DiagnosisTask
  claimIds : List String
  repairProposals : List RepairProposal
  repairValidations : List RepairValidation
  /-- The unfinished journals of sandbox promotions, by root. -/
  unfinished : String → List String

/-- What the workflow writes. -/
structure Tables where
  approvals : List RepairApproval := []
  promotions : List RepairPromotion := []
  reconciliations : List PostRepairReconciliation := []
  workflows : List MaintenanceWorkflow := []
  leases : LeaseTable := fun _ => none

structure Store where
  records : Records
  tables : Tables

/-! ## Operations -/

structure DebugResult where
  rootTaskId : String
  diagnosisId : String
  workerCalls : Nat

structure RepairResult where
  repairTaskId : String
  proposal : RepairProposal
  validation : RepairValidation
  workerCalls : Nat
  modelCalls : Nat

structure FollowUp where
  taskId : String
  claimId : String
  workerCalls : Nat

inductive Outside where
  /-- `GraphDirectedDebugger.debug`. -/
  | debug (question root testPath : String)
  /-- `SandboxedRepairValidator.validate`. -/
  | validate (diagnosisClaimId testPath : String)
  /-- The scan of the repaired project, its new claim and the follow-up on it. -/
  | refresh (promotion : RepairPromotion) (proposal : RepairProposal) (root : String)

abbrev Outside.Answer : Outside → Type
  | .debug .. => DebugResult
  | .validate .. => RepairResult
  | .refresh .. => FollowUp

inductive Op where
  | store
  | files
  | newId (kind : String)
  | saveApproval (approval : RepairApproval)
  | savePromotion (promotion : RepairPromotion)
  | saveReconciliation (reconciliation : PostRepairReconciliation)
  | saveWorkflow (workflow : MaintenanceWorkflow)
  /-- The contents are written to temporary files beside the targets. -/
  | stage (targets : List String)
  | replace (target : String) (content : FileState)
  | execute (command : List String) (root : String)
  | acquireLease (root holderId : String) (workflowId : Option String) (newLeaseId : String)
  | renewLease (root holderId : String) (fencingToken : Nat)
  | recordLease (root holderId : String) (fencingToken : Nat) (kind : ProjectLeaseEventKind)
      (detail : String) (workflowId : Option String)
  | outside (call : Outside)

abbrev Reply : Op → Type
  | .store => Store
  | .files => Tree
  | .newId _ => String
  | .saveApproval _ | .savePromotion _ | .saveReconciliation _ | .saveWorkflow _ => Except PyError Unit
  | .stage _ | .replace .. => Except PyError Unit
  | .execute .. => Except PyError TestExecution
  | .acquireLease .. => Except PyError ProjectLeaseAcquisition
  | .renewLease .. | .recordLease .. => Except PyError ProjectLease
  | .outside call => Except PyError call.Answer

/-- What the promoter and the workflow are given. Oracles answer by number. -/
structure WorkflowHost extends PromoterHost where
  sha256 : Bytes → String
  cases : PyText.CaseTables
  /-- `ProjectSelection.explicit`. -/
  selectRoot : String → Except PyError String
  resolve : String → String
  newId : String → Nat → String
  newId_inj : ∀ kind, Function.Injective (newId kind)
  indexedProjectFingerprint : String → List (String × String) → String
  stageFault : Nat → Option PyError
  saveFault : Nat → Option PyError
  outside : (call : Outside) → Nat → Records → Except PyError call.Answer × Records
  lease : LeaseHost
  leaseTtl : Int
  now : Nat → Int

structure World where
  records : Records
  tables : Tables
  tree : Tree
  /-- The number of identifiers drawn. -/
  drawn : Nat := 0
  /-- The number of the next operation on files. -/
  tick : Nat := 0
  /-- The number of the next operation on the store or outside. -/
  calls : Nat := 0

def World.store (w : World) : Store := ⟨w.records, w.tables⟩

/-- A save either raises or is made. -/
def World.save (host : WorkflowHost) (w : World) (tables : Tables) : Except PyError Unit × World :=
  match host.saveFault w.calls with
  | some e => (.error e, { w with calls := w.calls + 1 })
  | none => (.ok (), { w with tables := tables, calls := w.calls + 1 })

/-- A transaction on the leases, with the moment at which it is made. -/
def World.lease {α : Type} (host : WorkflowHost) (w : World)
    (transaction : Int → LeaseTable → Except PyError α × LeaseTable) : Except PyError α × World :=
  let r := transaction (host.now w.calls) w.tables.leases
  (r.1, { w with tables := { w.tables with leases := r.2 }, calls := w.calls + 1 })

/-- What each operation replies and does. -/
def perform (host : WorkflowHost) : Meaning Op Reply World := fun op w =>
  match op with
  | .store => (w.store, w)
  | .files => (w.tree, w)
  | .newId kind => (host.newId kind w.drawn, { w with drawn := w.drawn + 1 })
  | .saveApproval approval => w.save host
      { w.tables with approvals := Rows.upsert (·.id) approval w.tables.approvals }
  | .savePromotion promotion => w.save host
      { w.tables with promotions := Rows.upsert (·.id) promotion w.tables.promotions }
  | .saveReconciliation r => w.save host
      { w.tables with reconciliations := Rows.upsert (·.id) r w.tables.reconciliations }
  | .saveWorkflow workflow => w.save host
      { w.tables with workflows := Rows.upsert (·.id) workflow w.tables.workflows }
  | .stage _ => ((host.stageFault w.tick).elim (.ok ()) .error, w)
  | .replace target content =>
    match host.replaceFault w.tick with
    | some e => (.error e, { w with tick := w.tick + 1 })
    | none => (.ok (), { w with
        tree := Function.update w.tree target (some (.file content))
        tick := w.tick + 1 })
  | .execute command root =>
    let r := host.execute w.tick command root w.tree
    (r.1, { w with tree := r.2, tick := w.tick + 1 })
  | .acquireLease root holderId workflowId newLeaseId => w.lease host fun now leases =>
      acquireProjectLease host.lease ⟨root, holderId, workflowId, host.leaseTtl, now, none, newLeaseId⟩
        (w.records.unfinished (host.lease.leaseRoot root))
        ((w.records.projects.find? fun item =>
          host.lease.leaseRoot item.root == host.lease.leaseRoot root).map (·.id)) leases
  | .renewLease root holderId token => w.lease host fun now leases =>
      renewProjectLease host.lease root holderId token host.leaseTtl now leases
  | .recordLease root holderId token kind detail workflowId => w.lease host fun now leases =>
      recordProjectLeaseEvent host.lease root holderId token kind detail workflowId now leases
  | .outside call =>
    let r := host.outside call w.calls w.records
    (r.1, { w with records := r.2, calls := w.calls + 1 })

section
variable {L : Type}

def store : Act Op Reply L PyError Store := Act.perform Op.store
def files : Act Op Reply L PyError Tree := Act.perform Op.files
def newId (kind : String) : Act Op Reply L PyError String := Act.perform (Op.newId kind)

def saveApproval (approval : RepairApproval) : Act Op Reply L PyError Unit :=
  Act.perform (Op.saveApproval approval) >>= Act.ofExcept

def savePromotion (promotion : RepairPromotion) : Act Op Reply L PyError Unit :=
  Act.perform (Op.savePromotion promotion) >>= Act.ofExcept

def saveReconciliation (r : PostRepairReconciliation) : Act Op Reply L PyError Unit :=
  Act.perform (Op.saveReconciliation r) >>= Act.ofExcept

def saveWorkflow (workflow : MaintenanceWorkflow) : Act Op Reply L PyError Unit :=
  Act.perform (Op.saveWorkflow workflow) >>= Act.ofExcept

def replace (target : String) (content : FileState) : Act Op Reply L PyError Unit :=
  Act.perform (Op.replace target content) >>= Act.ofExcept

/-- `_execute`. -/
def execute (command : List String) (root : String) : Act Op Reply L PyError TestExecution := do
  let executed : Except PyError TestExecution ← Act.perform (Op.execute command root)
  Act.ofExcept executed

def outside (call : Outside) : Act Op Reply L PyError call.Answer := do
  let answer : Except PyError call.Answer ← Act.perform (Op.outside call)
  Act.ofExcept answer

end

/-! ## Reconciliation -/

/-- `PostRepairReconciler.reconcile`. -/
def reconcile (host : WorkflowHost) (promotionId : String) :
    Act Op Reply Unit PyError PostRepairReconciliation := do
  let stored ← store
  match stored.tables.promotions.find? (·.id == promotionId) with
  | none => Act.fail (.value s!"Repair promotion not found: {promotionId}")
  | some promotion =>
    Act.require (promotion.status = .verified)
      (.value "Only a final-test-verified promotion can be reconciled.")
    let stored ← store
    match stored.tables.reconciliations.find? (·.promotionId == promotion.id) with
    | some existing => return existing
    | none =>
      let stored ← store
      match stored.records.repairProposals.find? (·.id == promotion.proposalId) with
      | none => Act.fail (.value s!"Repair proposal not found: {promotion.proposalId}")
      | some proposal =>
        let root ← Act.ofExcept (host.selectRoot promotion.projectRoot)
        let affected := (promotion.changes.map (·.path)).mergeSort
        Act.require (affected ≠ [])
          (.value "A promoted repair must identify at least one affected file.")
        let followUp ← outside (.refresh promotion proposal root)
        let id ← newId "RECONCILE"
        let reconciliation : PostRepairReconciliation := {
          id
          promotionId := promotion.id
          proposalId := proposal.id
          projectRoot := root
          affectedPaths := affected
          followUpTaskId := followUp.taskId
          followUpClaimId := followUp.claimId
          followUpWorkerCalls := followUp.workerCalls }
        saveReconciliation reconciliation
        return reconciliation

/-! ## Review -/

def review (proposalId : String) :
    Act Op Reply Unit PyError (RepairProposal × RepairValidation) := do
  let stored ← store
  match stored.records.repairProposals.find? (·.id == proposalId) with
  | none => Act.fail (.value s!"Repair proposal not found: {proposalId}")
  | some proposal =>
    let stored ← store
    let found := stored.records.repairValidations.reverse.find? fun item =>
      item.proposalId == proposal.id && item.status == .verified
    match found with
    | none => Act.fail (.value "Only a sandbox-verified repair can be promoted.")
    | some validation =>
      Act.require (proposal.status = .verified)
        (.value "Only a sandbox-verified repair can be promoted.")
      return (proposal, validation)

/-! ## Application -/

/-- The promotion object, and whether files have been touched. -/
structure Promoting where
  promotion : RepairPromotion
  applied : Bool := false

abbrev PromotingAct (α : Type) := Act Op Reply Promoting PyError α

/-- A change of the promotion object. -/
def assign (f : RepairPromotion → RepairPromotion) : PromotingAct Unit :=
  Act.modify fun l => { l with promotion := f l.promotion }

/-- A new status with its event. -/
def mark (status : PromotionStatus) (detail : String) : PromotingAct Unit :=
  assign fun promotion => { promotion with
    status := status
    events := promotion.events ++ [⟨status, detail⟩] }

/-- The promotion is stored as it is now. -/
def saveCurrent : PromotingAct Unit := do
  let l ← Act.get
  savePromotion l.promotion

/-- `file_content_hash`. -/
def contentHash (host : WorkflowHost) (tree : Tree) (target : String) : Except PyError String :=
  match tree target with
  | some (.file state) => .ok (host.sha256 state.bytes)
  | _ => .error (.os s!"No such file: {target}")

/-- One target of the check after the replacement. -/
def checkApplied (host : WorkflowHost) (change : PatchChange) (target : String) :
    PromotingAct Unit := do
  let tree ← files
  let digest ← Act.ofExcept (contentHash host tree target)
  Act.require (digest = change.afterHash) (.os s!"Applied content hash mismatch for {change.path}.")

/-- `_replace_all`. -/
def replaceAll (changes : List PatchChange) (paths : List (String × FileState)) :
    PromotingAct Unit := do
  let staged : Except PyError Unit ← Act.perform (Op.stage (paths.map (·.1)))
  Act.ofExcept staged
  (changes.zip paths).forM fun (change, target, state) =>
    replace target ⟨utf8 (change.afterContent.getD ""), state.mode⟩

/-- Why a promotion that was applied did not verify. -/
def verificationFailure (exitCode : Int) (stable : Bool) : String :=
  "; ".intercalate ((if exitCode ≠ 0 then [s!"real-project test exited {exitCode}"] else []) ++
    if stable then [] else ["real-project test changed project contents"])

/-- The part of `_promote` behind the test run: whether it verified. -/
def verify (host : WorkflowHost) (root : String) (final : TestExecution) : PromotingAct Bool := do
  assign fun promotion => { promotion with finalValidation := some final }
  let tree ← files
  let l ← Act.get
  let stable := some (host.treeFingerprint root tree) == l.promotion.appliedTreeFingerprint
  if final.exitCode = 0 ∧ stable = true then do
    mark .verified "Affected test passed in the explicitly selected project."
    saveCurrent
    let _ ← (reconcile host l.promotion.id).within ()
    return true
  else do
    assign fun promotion => { promotion with
      failureReason := some (verificationFailure final.exitCode stable) }
    return false

/-- The `try` block of `_promote`: whether it returns. -/
def applyRepair (host : WorkflowHost) (proposal : RepairProposal) (root : String)
    (paths : List (String × FileState)) : PromotingAct Bool := do
  mark .applying "All source hashes matched; atomically replacing authorized files."
  saveCurrent
  Act.modify fun l => { l with applied := true }
  replaceAll proposal.changes paths
  (proposal.changes.zip paths).forM fun (change, target, _) => checkApplied host change target
  let tree ← files
  assign fun promotion => { promotion with
    appliedTreeFingerprint := some (host.treeFingerprint root tree) }
  mark .applied "Verified sandbox bytes applied to every authorized target."
  saveCurrent
  let final ← execute (testCommand host.toPromoterHost proposal.testPath) root
  verify host root final

/-! ## Rollback -/

/-- `_restore_all`: what keeps the originals from being restored. -/
def restoreAll (originals : List Original) (failed : PyError → PromotingAct Unit) :
    PromotingAct (Option PyError) :=
  Act.onError (do originals.forM fun original => replace original.target original.content; return none)
    PyError.isOSError fun e => do failed e; return some e

/-- The project behind a rollback: whether it is as it was. -/
def inspectRollback (host : WorkflowHost) (proposal : RepairProposal) (root : String)
    (rollbackError : Option PyError) : PromotingAct Bool := do
  let tree ← files
  let fingerprint := host.treeFingerprint root tree
  let l ← Act.get
  let verified := decide (rollbackError = none) && fingerprint == l.promotion.originalTreeFingerprint
  assign fun promotion => { promotion with
    rollbackTreeFingerprint := some fingerprint
    rollbackVerified := some verified }
  let execution ← execute (testCommand host.toPromoterHost proposal.testPath) root
  assign fun promotion => { promotion with rollbackValidation := some execution }
  return verified

def rolledBackStatus (verified : Bool) : PromotionStatus :=
  if verified then .rolledBack else .applicationFailed

/-- The end of `_promote` for a repair that was not verified. -/
def rollBack (host : WorkflowHost) (proposal : RepairProposal) (root : String)
    (originals : List Original) : PromotingAct RepairPromotion := do
  let l ← Act.get
  let rollbackError ← if l.applied then
      restoreAll originals fun e => assign fun promotion =>
        let reason := promotion.failureReason.getD "None"
        { promotion with failureReason := some s!"{reason}; rollback failed: {e.message}" }
    else pure none
  let verified ← inspectRollback host proposal root rollbackError
  mark (rolledBackStatus verified) (if verified then
      "Original project bytes restored after failed final validation."
    else "Automatic rollback could not restore the original tree fingerprint.")
  saveCurrent
  let l ← Act.get
  return l.promotion

/-- The `try` statement of `_promote` and what follows it. -/
def carryOut (host : WorkflowHost) (proposal : RepairProposal) (root : String)
    (paths : List (String × FileState)) : PromotingAct RepairPromotion := do
  let verified ← Act.onError (applyRepair host proposal root paths) PyError.isOSError fun e => do
    assign fun promotion => { promotion with
      failureReason := some s!"application failed: {e.message}" }
    return false
  if verified then do
    let l ← Act.get
    return l.promotion
  else
    rollBack host proposal root
      (paths.foldl (fun originals (target, state) => setOriginal originals ⟨target, state⟩) [])

/-- The check of one target before the promotion. -/
def checkBefore (host : WorkflowHost) (change : PatchChange) (target : String) :
    Act Op Reply Unit PyError Unit := do
  let tree ← files
  let digest ← Act.ofExcept (contentHash host tree target)
  Act.require (digest = change.beforeHash)
    (.readOnlyViolation s!"Source precondition failed for {change.path}.")

/-- `_promote`. -/
def promote (host : WorkflowHost) (proposal : RepairProposal) (validation : RepairValidation)
    (approval : RepairApproval) (root : String) : Act Op Reply Unit PyError RepairPromotion := do
  Act.require (proposal.sourceTreeFingerprint ≠ "")
    (.value "Proposal predates promotion-safe source binding; revalidate it.")
  Act.require (proposal.changes ≠ [] ∧ proposal.changes.all (·.afterContent.isSome) = true)
    (.value "Proposal does not contain the exact verified patch content.")
  let tree ← files
  let currentTree := host.treeFingerprint root tree
  Act.require (currentTree = proposal.sourceTreeFingerprint) (.readOnlyViolation
    "The selected project changed after sandbox validation; revalidate the repair.")
  let tree ← files
  let paths ← Act.ofExcept (validatedPaths host.toPromoterHost root proposal tree)
  (proposal.changes.zip paths).forM fun (change, target, _) => checkBefore host change target
  let id ← newId "PROMOTION"
  let promotion : RepairPromotion := {
    id
    proposalId := proposal.id
    validationId := validation.id
    approvalId := approval.id
    projectRoot := root
    status := .approved
    changes := proposal.changes
    originalTreeFingerprint := currentTree
    events := [⟨.approved, "Human approval recorded."⟩] }
  savePromotion promotion
  (carryOut host proposal root paths).within { promotion }

/-! ## Interrupted promotions -/

/-- `_recover_interrupted`, on the promotion object. -/
def recoverInterrupted (host : WorkflowHost) (proposal : RepairProposal) (root : String) :
    PromotingAct RepairPromotion := do
  if proposal.changes.any (·.beforeContent == none) = true then do
    assign fun promotion => { promotion with failureReason := some unrecoverable }
    mark .applicationFailed unrecoverable
    saveCurrent
  else do
    let tree ← files
    let paths ← Act.ofExcept (validatedPaths host.toPromoterHost root proposal tree)
    let rollbackError ← restoreAll (originals proposal.changes paths) fun _ => pure ()
    let verified ← inspectRollback host proposal root rollbackError
    let reason := if verified then "Interrupted promotion was automatically rolled back during resume."
      else "Interrupted promotion rollback failed: " ++ rollbackError.elim "None" (·.message)
    assign fun promotion => { promotion with failureReason := some reason }
    mark (rolledBackStatus verified) reason
    saveCurrent
  let l ← Act.get
  return l.promotion

/-- `resume_approval`. -/
def resumeApproval (host : WorkflowHost) (approvalId : String) :
    Act Op Reply Unit PyError PromotionRunResult := do
  let stored ← store
  match stored.tables.approvals.find? (·.id == approvalId) with
  | none => Act.fail (.value s!"Repair approval not found: {approvalId}")
  | some approval =>
    if approval.decision = .rejected then return { approval }
    else do
      let (proposal, validation) ← review approval.proposalId
      let root ← Act.ofExcept (host.selectRoot approval.projectRoot)
      let stored ← store
      let existing := (stored.tables.promotions.filter (·.proposalId == proposal.id)).reverse.find?
        (·.approvalId == approval.id)
      match existing with
      | none =>
        let promotion ← promote host proposal validation approval root
        return { approval, promotion := some promotion }
      | some existing =>
        if existing.status = .verified then do
          let _ ← reconcile host existing.id
          return { approval, promotion := some existing }
        else if existing.status = .rolledBack ∨ existing.status = .applicationFailed then
          return { approval, promotion := some existing }
        else do
          let promotion ← (recoverInterrupted host proposal root).within { promotion := existing }
          return { approval, promotion := some promotion }

/-! ## Decisions -/

/-- `_require_onboarded_selection`. -/
def requireOnboarded (host : WorkflowHost) (root : String) : Act Op Reply Unit PyError Unit := do
  let stored ← store
  Act.require (stored.records.projects.any (fun project =>
      host.resolve project.root == root && project.explicitlySelected) = true)
    (.readOnlyViolation "Promotion requires an explicitly selected, onboarded project record.")

/-- `except (ValueError, ReadOnlyViolation)`. -/
def isRefusal : PyError → Bool
  | .value _ | .readOnlyViolation _ => true
  | _ => false

/-- The record of a promotion that `_promote` refused. -/
def recordRefusal (host : WorkflowHost) (proposal : RepairProposal) (validation : RepairValidation)
    (approval : RepairApproval) (root : String) (e : PyError) :
    Act Op Reply Unit PyError RepairPromotion := do
  let tree ← files
  let id ← newId "PROMOTION"
  savePromotion {
    id
    proposalId := proposal.id
    validationId := validation.id
    approvalId := approval.id
    projectRoot := root
    status := .applicationFailed
    changes := proposal.changes
    originalTreeFingerprint := host.treeFingerprint root tree
    failureReason := some s!"promotion precondition failed: {e.message}"
    events := [⟨.approved, "Human approval recorded."⟩,
      ⟨.applicationFailed, s!"Promotion refused before source writes: {e.message}"⟩] }
  Act.fail e

/-- `RepairPromoter.decide`. -/
def decideRepair (host : WorkflowHost) (proposalId projectRoot : String) (decision : ApprovalDecision)
    (approvedBy reason : String) : Act Op Reply Unit PyError PromotionRunResult := do
  let (proposal, validation) ← review proposalId
  let root ← Act.ofExcept (host.selectRoot projectRoot)
  Act.require (root = host.resolve proposal.projectRoot) (.readOnlyViolation
    "The explicitly selected project does not match the repair proposal.")
  Act.require (PyText.strip approvedBy ≠ "" ∧ PyText.strip reason ≠ "")
    (.value "A human identity and decision reason are required.")
  requireOnboarded host root
  let id ← newId "APPROVAL"
  let approval : RepairApproval := {
    id
    proposalId := proposal.id
    validationId := validation.id
    projectRoot := root
    proposalSignature := proposal.signature
    sourceTreeFingerprint := proposal.sourceTreeFingerprint
    decision
    approvedBy := PyText.strip approvedBy
    reason := PyText.strip reason }
  saveApproval approval
  if decision = .rejected then return { approval }
  else do
    let promotion ← Act.onError (promote host proposal validation approval root) isRefusal
      (recordRefusal host proposal validation approval root)
    return { approval, promotion := some promotion }

end RlmGraph.Repair.Promotion
