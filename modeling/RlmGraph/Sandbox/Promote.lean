import RlmGraph.Sandbox.Approval

/-! # Promotion of a sandbox attempt

`promote`, block by block: the gate in front of the lease, the body under it,
the handler that restores the original bytes, and the last block that returns
the lease. The attempt is the object in memory; it is saved at every
checkpoint. The hook of a subclass that replaces all files at once is left out. -/
namespace RlmGraph.Sandbox.Promote
open RlmGraph.Lib RlmGraph.Lib.JsonText RlmGraph.Lib.PyText RlmGraph.Lib.Programs
open RlmGraph.Governance.Tickets (ProjectTicket microseconds)
open RlmGraph.Governance.Policy RlmGraph.Store.Lease
open RlmGraph.Sandbox.Records RlmGraph.Sandbox.Operations RlmGraph.Sandbox.Approval

/-- The variables of a promotion or a recovery that outlive an exception:
`originals` holds `originals` and `modes`. -/
structure Locals where
  attempt : ImplementationSandboxAttempt
  applied : Bool := false
  originals : List (String × FileState) := []

abbrev PromotionAct (α : Type) := SandboxAct Locals α

/-! ## The attempt in memory -/

def updateAttempt (f : ImplementationSandboxAttempt → ImplementationSandboxAttempt) :
    PromotionAct Unit :=
  Act.modify fun l => { l with attempt := f l.attempt }

def updatePromotion (f : SandboxPromotionRecord → SandboxPromotionRecord) : PromotionAct Unit :=
  updateAttempt (·.onPromotion f)

def updateJournal (f : SandboxMutationJournal → SandboxMutationJournal) : PromotionAct Unit :=
  updateAttempt (·.onJournal f)

def updateEntry (index : Nat) (f : SandboxMutationJournalEntry → SandboxMutationJournalEntry) :
    PromotionAct Unit :=
  updateJournal fun journal => { journal with entries := journal.entries.modify index f }

def currentAttempt : PromotionAct ImplementationSandboxAttempt := do
  return (← Act.get).attempt

def save : PromotionAct Unit := do
  saveImplementationSandbox (← currentAttempt)

section
variable {S : Type} {T : OpSpec Op Reply S} {l : Locals} {s : S}

@[simp] theorem wp_currentAttempt {Q : Except PyError ImplementationSandboxAttempt → Locals → S → Prop} :
    currentAttempt.wp T Q l s = Q (.ok l.attempt) l s := rfl

@[simp] theorem wp_updateAttempt
    {f : ImplementationSandboxAttempt → ImplementationSandboxAttempt}
    {Q : Except PyError Unit → Locals → S → Prop} :
    (updateAttempt f).wp T Q l s = Q (.ok ()) { l with attempt := f l.attempt } s := rfl

@[simp] theorem wp_save {Q : Except PyError Unit → Locals → S → Prop} :
    save.wp T Q l s = T.holds (.saveImplementationSandbox l.attempt) s fun _ s' => Q (.ok ()) l s' :=
  rfl

end

def appended (checkpoints : List SandboxCheckpoint) (stage detail : String) :
    List SandboxCheckpoint :=
  checkpoints ++ [⟨checkpoints.length + 1, stage, detail⟩]

/-- `_promotion_checkpoint`. -/
def promotionCheckpoint (stage detail : String) : PromotionAct Unit := do
  Act.require ((← currentAttempt).promotion ≠ none)
    (.runtime "Promotion checkpoint requires an active promotion record.")
  updatePromotion fun promotion =>
    { promotion with checkpoints := appended promotion.checkpoints stage detail }
  updateAttempt fun attempt =>
    { attempt with checkpoints := appended attempt.checkpoints ("PROMOTION_" ++ stage) detail }
  save

/-- The checkpoints that leave the stage of the journal as it is. -/
def unstagedCheckpoints : List String :=
  ["REPLACEMENT_STARTED", "REPLACEMENT_COMPLETED", "VALIDATION_RECORDED", "RECOVERY_STARTED",
    "RECOVERY_VALIDATION_RECORDED", "RECOVERY_PATH_ROLLED_BACK"]

/-- `_journal_checkpoint`. -/
def journalCheckpoint (stage detail : String) : PromotionAct Unit := do
  Act.require ((← currentAttempt).journal ≠ none)
    (.runtime "Mutation journal checkpoint requires a durable journal.")
  updateJournal fun journal =>
    { journal with
      stage := if stage ∈ unstagedCheckpoints then journal.stage else stage
      checkpoints := appended journal.checkpoints stage detail }
  save

/-! ## The patch and its commands -/

/-- `_promotion_paths`: the resolved target of each change. -/
def promotionTarget (host : SandboxHost) (root : String) (attempt : ImplementationSandboxAttempt)
    (files : Files) (path : String) : Except PyError String :=
  if attempt.authorizedPaths.contains path = false then
    .error (.readOnlyViolation s!"Patch path is not authorized: {path}")
  else if host.isAbsolute path ∨ ".." ∈ host.parts path then
    .error (.readOnlyViolation s!"Patch path escapes the registered project: {path}")
  else if files (host.target root path) = none then .error (missingFile (host.target root path))
  else if host.isRelativeTo (host.target root path) root = false then
    .error (notRelative (host.target root path) root)
  else .ok (host.target root path)

def promotionPaths (host : SandboxHost) (root : String) (attempt : ImplementationSandboxAttempt)
    (files : Files) : Except PyError (List String) :=
  attempt.changes.mapM fun change => promotionTarget host root attempt files change.path

def slashed (text : String) : String := text.map fun c => if c = '\\' then '/' else c

/-- `_promotion_commands`, for one recorded validation. -/
def promotionCommand (host : SandboxHost) (attempt : ImplementationSandboxAttempt)
    (execution : TestExecution) : Except PyError (List String) :=
  let command := execution.command
  if command.length < 4 ∨ command[0]? ≠ some host.executable ∨
      (command.drop 1).take 2 ≠ ["-m", "pytest"] then
    .error (.readOnlyViolation "Persisted validation command is not a bounded Python test.")
  else
    let paths := ((command.drop 3).filter (endsWith · ".py")).map slashed
    if paths = [] ∨ paths.any (fun path => !attempt.authorizedPaths.contains path) then
      .error (.readOnlyViolation "Persisted validation command escapes the approved path slice.")
    else .ok command

def promotionCommands (host : SandboxHost) (attempt : ImplementationSandboxAttempt) :
    Except PyError (List (List String)) :=
  attempt.validations.mapM (promotionCommand host attempt)

/-- `_change_bytes(change, True)`. -/
def changeBytes (host : SandboxHost) (change : PatchChange) : Except PyError Bytes :=
  match change.afterBytesBase64 with
  | some encoded =>
    match host.b64decode encoded with
    | some bytes => .ok bytes
    | none => .error (.value "Invalid base64-encoded string.")
  | none =>
    match change.afterContent with
    | some content => .ok (utf8 content)
    | none => .error (.value "Promotion patch does not contain exact recoverable bytes.")

/-! ## The gate -/

/-- The approval that a reviewable attempt carries. -/
def standingApproval (attempt : ImplementationSandboxAttempt) :
    Except PyError SandboxPromotionApproval :=
  let missing := PyError.value "Sandbox promotion requires a separate explicit approval."
  match attempt.promotionApproval with
  | none => .error missing
  | some approval =>
    if attempt.status ≠ "READY_FOR_REVIEW" ∨ approval.decision ≠ "APPROVED" then .error missing
    else .ok approval

/-- Whether an approval names the project of the attempt, or none. -/
def sameBoundary (host : SandboxHost) (attempt : ImplementationSandboxAttempt)
    (approval : SandboxPromotionApproval) : Bool :=
  (approval.projectId == none || approval.projectId == some attempt.projectId) &&
    approval.projectRoot.elim true fun root =>
      root == "" || host.canonicalRoot root == host.canonicalRoot attempt.projectRoot

def registeredProject (projectId : String) (store : Store) : Except PyError ProjectRecord :=
  let refused := PyError.readOnlyViolation "Promotion requires the explicitly registered project boundary."
  match store.projects.find? (·.id == projectId) with
  | none => .error refused
  | some project =>
    if project.explicitlySelected = false ∨ project.readOnly = false then .error refused
    else .ok project

/-- Everything `promote` checks of the attempt it found before it asks for the
lease. -/
def promotionGate (host : SandboxHost) :
    PromotionAct (SandboxPromotionApproval × ProjectRecord) := do
  let attempt ← currentAttempt
  let policy ← policy host attempt.projectId
  let kinds := attemptKinds attempt
  Act.ofExcept (assertRequiredValidations host policy attempt.validationDecisions kinds)
  let approval ← Act.ofExcept (standingApproval attempt)
  let governed ← ask fun store =>
    governedProject host.toGovernanceHost store.projects attempt.projectId
  let manifest ← currentManifest host governed.id (host.resolve governed.root)
  Act.when (manifest ≠ attempt.initialManifestSha256) do
    updateAttempt fun attempt => { attempt with
      promotionApprovalExpirationReasons := distinct (attempt.promotionApprovalExpirationReasons ++
        ["Registered source manifest changed after promotion approval."]) }
    save
  let bindingSha256 := attemptBinding host policy attempt
  let report ← Act.ofExcept (evaluate host.toGovernanceHost policy "PROMOTION" kinds bindingSha256
    attempt.promotionApprovalHistory)
  updateAttempt fun attempt => { attempt with
    promotionApprovalMissing := report.missing
    promotionApprovalExpirationReasons := report.expired }
  Act.when (report.approved = false ∨ (approval.bindingSha256 ≠ none ∧
      approval.bindingSha256 ≠ some bindingSha256)) do
    updateAttempt fun attempt => { attempt with promotionApproval := none }
    save
    Act.fail (.value ("Sandbox promotion approval expired or is incomplete: " ++
      "; ".intercalate (report.missing ++ report.expired ++ ["bound artifact changed"])))
  Act.require (sameBoundary host attempt approval = true)
    (.readOnlyViolation "Promotion approval does not match the sandbox project boundary.")
  Act.require (attempt.promotion = none)
    (.value "Sandbox promotion has already been attempted.")
  Act.require (attempt.validationDecisions.all isSatisfied = true)
    (.value "Sandbox promotion requires all validation gates to remain satisfied.")
  Act.require (attempt.changes ≠ [])
    (.value "Sandbox promotion requires at least one reviewable change.")
  let project ← ask (registeredProject attempt.projectId)
  return (approval, project)

/-! ## The body under the lease -/

/-- `mapping[key] = value`. -/
def setItem {α : Type} (mapping : List (String × α)) (key : String) (value : α) :
    List (String × α) :=
  if (mapping.lookup key).isSome then
    mapping.map fun item => if item.1 = key then (key, value) else item
  else mapping ++ [(key, value)]

/-- `mapping[key]`. -/
def item {α : Type} (mapping : List (String × α)) (key : String) : Except PyError α :=
  match mapping.lookup key with
  | some value => .ok value
  | none => .error (.key key)

def journalEntry (host : SandboxHost) (originals : List (String × FileState))
    (change : PatchChange) (target : String) : Except PyError SandboxMutationJournalEntry := do
  let original ← item originals target
  let after ← changeBytes host change
  return {
    path := change.path
    beforeSha256 := change.beforeHash
    afterSha256 := change.afterHash
    beforeBytes := original.bytes
    afterBytes := after
    originalMode := original.mode }

/-- What the blocks under the lease share. -/
structure Promotion where
  ticket : ProjectTicket
  approval : SandboxPromotionApproval
  project : ProjectRecord
  root : String
  holder : String
  leaseId : String
  fencingToken : Nat
  started : Int

/-- Up to the point where the journal is saved and its fault is injected. -/
def prepareJournal (host : SandboxHost) (p : Promotion) :
    PromotionAct (List String × List (List String)) := do
  let attempt ← currentAttempt
  let current ← currentManifest host p.project.id p.root
  Act.require (current = p.approval.sourceManifestSha256 ∧ current = attempt.initialManifestSha256)
    (.readOnlyViolation "Registered source changed after promotion approval; approval is stale.")
  let paths ← look (promotionPaths host p.root attempt)
  (attempt.changes.zip paths).forM fun (change, target) => do
    let digest ← look (fileContentHash host target)
    Act.require (digest = change.beforeHash)
      (.readOnlyViolation s!"Source precondition failed for {change.path}.")
    let file ← look (readFile target)
    Act.modify fun l => { l with originals := setItem l.originals target file }
  let commands ← Act.ofExcept (promotionCommands host attempt)
  let originals := (← Act.get).originals
  let entries ← Act.ofExcept ((attempt.changes.zip paths).mapM fun (change, target) =>
    journalEntry host originals change target)
  let journalId ← newId
  updatePromotion fun promotion => { promotion with
    mutationJournal := some {
      id := journalId
      ticketId := p.ticket.id
      attemptId := attempt.id
      promotionId := promotion.id
      approvalId := p.approval.id
      projectId := p.project.id
      projectRoot := p.root
      authorizedPaths := attempt.authorizedPaths
      initialManifestSha256 := attempt.initialManifestSha256
      approvedManifestSha256 := p.approval.sourceManifestSha256
      leaseId := p.leaseId
      leaseHolderId := p.holder
      fencingToken := p.fencingToken
      validationCommands := commands
      entries := entries } }
  journalCheckpoint "PREPARED"
    "Durable exact-byte mutation journal persisted before project-file replacement."
  injectFault "PREPARED"
  promotionCheckpoint "PRECONDITIONS_VERIFIED" "Manifest, changed paths, and source hashes verified."
  return (paths, commands)

/-- One file of the patch. -/
def replaceSource (host : SandboxHost) (index : Nat) (change : PatchChange) (target : String) :
    PromotionAct Unit := do
  updateEntry index fun entry => { entry with staged := true, replacementStarted := true }
  journalCheckpoint "REPLACEMENT_STARTED" s!"Replacement started for {change.path}."
  injectFault "REPLACEMENT_STARTED"
  let content ← Act.ofExcept (changeBytes host change)
  let original ← Act.ofExcept (item (← Act.get).originals target)
  replaceSingle target content original.mode
  updateEntry index fun entry => { entry with replacementCompleted := true }
  journalCheckpoint "REPLACEMENT_COMPLETED" s!"Replacement completed for {change.path}."
  injectFault "REPLACEMENT_COMPLETED"

/-- The check of one replaced file. -/
def verifySource (host : SandboxHost) (index : Nat) (change : PatchChange) (target : String) :
    PromotionAct Unit := do
  let digest ← look (fileContentHash host target)
  Act.require (digest = change.afterHash) (.os s!"Applied content hash mismatch for {change.path}.")
  let entry := (← currentAttempt).journal.bind (·.entries[index]?)
  Act.when (entry.elim false (!·.replacementCompleted) = true) do
    updateEntry index fun entry => { entry with replacementCompleted := true }
    journalCheckpoint "REPLACEMENT_COMPLETED" s!"Replacement completed for {change.path}."

def applySources (host : SandboxHost) (paths : List String) : PromotionAct Unit := do
  let attempt ← currentAttempt
  updatePromotion fun promotion => { promotion with status := "APPLYING" }
  Act.modify fun l => { l with applied := true }
  updateJournal fun journal => { journal with stage := "APPLYING" }
  (attempt.changes.zip paths).zipIdx.forM fun ((change, target), index) =>
    replaceSource host index change target
  (attempt.changes.zip paths).zipIdx.forM fun ((change, target), index) =>
    verifySource host index change target

def failedExecution (execution : TestExecution) : Bool := execution.exitCode != 0

/-- One validation command of the applied patch. -/
def validateOnce (host : SandboxHost) (remaining started : Int) (total : Nat)
    (command : List String) : PromotionAct Unit := do
  let now ← perfCounter
  let available := remaining - (now - started)
  Act.require (0 < available)
    (.runtime "Ticket wall-time budget exhausted during post-application validation.")
  let execution ← execute command (min host.validationTimeout available)
  updatePromotion fun promotion => { promotion with
    validations := promotion.validations ++ [execution] }
  let recorded := (← currentAttempt).promotion.elim 0 (·.validations.length)
  journalCheckpoint "VALIDATION_RECORDED"
    s!"Persisted bounded validation result {recorded} of {total}."
  injectFault "VALIDATION_RECORDED"

/-- Why the applied patch is not promoted. -/
def rejections (failed stable : Bool) : List String :=
  (if failed then ["bounded post-application validation failed"] else []) ++
    (if stable then [] else ["post-application validation changed indexed source"])

def validateApplied (host : SandboxHost) (p : Promotion) (commands : List (List String)) :
    PromotionAct Unit := do
  let applied ← currentManifest host p.project.id p.root
  updatePromotion fun promotion => { promotion with
    appliedManifestSha256 := some applied, status := "APPLIED" }
  updateJournal fun journal => { journal with
    stage := "APPLIED", proposedManifestSha256 := some applied }
  promotionCheckpoint "APPLIED" "Exact approved bytes atomically replaced authorized files."
  injectFault "APPLIED"
  let remaining := microseconds p.ticket.budget.maxWallTimeSeconds - p.ticket.usage.wallTime
  updateJournal fun journal => { journal with
    stage := "VALIDATING", validationState := "IN_PROGRESS" }
  journalCheckpoint "VALIDATING" "Bounded post-application validation started."
  commands.forM (validateOnce host remaining p.started commands.length)
  let current ← currentManifest host p.project.id p.root
  let failed := (← currentAttempt).promotion.elim false (·.validations.any failedExecution)
  Act.require (failed = false ∧ current = applied)
    (.runtime ("; ".intercalate (rejections failed (current == applied))))
  updatePromotion fun promotion => { promotion with
    status := "PROMOTED", finalManifestSha256 := some applied }
  updateAttempt fun attempt => { attempt with status := "PROMOTED" }
  updateJournal fun journal => { journal with
    stage := "PROMOTED"
    validationState := "PASSED"
    finalManifestSha256 := some applied
    recoveryRequired := false
    terminal := true }
  journalCheckpoint "PROMOTED" "Journal reached verified promoted terminal state."
  promotionCheckpoint "PROMOTED" "Promotion completed; graph reconciliation remains pending."

def applyPromotion (host : SandboxHost) (p : Promotion) : PromotionAct Unit := do
  let (paths, commands) ← prepareJournal host p
  applySources host paths
  validateApplied host p commands

/-! ## The handler -/

/-- `_restore_bytes`. -/
def restoreBytes (originals : List (String × FileState)) : PromotionAct Unit :=
  originals.forM fun (target, file) => replaceSingle target file.bytes file.mode

/-- `all(target.read_bytes() == content for target, content in originals.items())`. -/
def originalsHold (files : Files) : List (String × FileState) → Except PyError Bool
  | [] => .ok true
  | (target, original) :: rest => do
    let file ← readFile target files
    if file.bytes = original.bytes then originalsHold files rest else return false

/-- Write the originals back and look whether they are all there. -/
def restoreOriginals (host : SandboxHost) (p : Promotion) : PromotionAct (Bool × Option PyError) := do
  let originals := (← Act.get).originals
  let error ← Act.onError (do restoreBytes originals; return none) PyError.isOSError
    fun e => return some e
  if error ≠ none then return (false, error)
  let same ← look fun files => originalsHold files originals
  if same = false then return (false, none)
  let manifest ← currentManifest host p.project.id p.root
  return (manifest == (← currentAttempt).initialManifestSha256, none)

def rollbackLimit : Int := 30000000

/-- One validation command of the restored files. -/
def revalidate (host : SandboxHost) (command : List String) : PromotionAct Unit := do
  let execution ← execute command (min host.validationTimeout rollbackLimit)
  updatePromotion fun promotion => { promotion with
    rollbackValidations := promotion.rollbackValidations ++ [execution] }

/-- The part of the handler for a promotion that had begun to write. -/
def undoApplied (host : SandboxHost) (p : Promotion) : PromotionAct Bool := do
  Act.when ((← currentAttempt).journal ≠ none) do
    updateJournal fun journal => { journal with
      rollbackState := "IN_PROGRESS", stage := "ROLLING_BACK" }
    journalCheckpoint "ROLLING_BACK" "Restoring exact original bytes after failure."
  let (verified, error) ← restoreOriginals host p
  updatePromotion fun promotion => { promotion with
    rollbackVerified := some verified
    failureReason := error.elim promotion.failureReason fun e =>
      let reason := promotion.failureReason.getD "None"
      some s!"{reason}; rollback failed: {e.message}" }
  Act.when (verified = true) do
    updateJournal fun journal => { journal with
      entries := journal.entries.map fun entry => { entry with rollbackCompleted := true }
      rollbackState := "VERIFIED" }
    let commands ← Act.ofExcept (promotionCommands host (← currentAttempt))
    commands.forM (revalidate host)
  return verified

def failureStatus (applied verified : Bool) : String :=
  if applied && verified then "ROLLED_BACK"
  else if !applied then "PRECONDITION_FAILED"
  else "ROLLBACK_FAILED"

def failureDetail (applied verified : Bool) : String :=
  if applied && verified then "Exact original bytes restored after promotion failure."
  else if !applied then "Promotion rejected before source writes."
  else "Automatic rollback could not prove exact source restoration."

def undoPromotion (host : SandboxHost) (p : Promotion) : PromotionAct Bool := do
  if (← Act.get).applied then undoApplied host p
  else
    updatePromotion fun promotion => { promotion with rollbackVerified := some true }
    return true

def rollBackPromotion (host : SandboxHost) (p : Promotion) (e : PyError) : PromotionAct Unit := do
  updatePromotion fun promotion => { promotion with failureReason := some e.message }
  let verified ← undoPromotion host p
  let final ← currentManifest host p.project.id p.root
  let applied := (← Act.get).applied
  let status := failureStatus applied verified
  updatePromotion fun promotion => { promotion with
    finalManifestSha256 := some final, status := status }
  updateAttempt fun attempt => { attempt with status := status }
  let reason := (← currentAttempt).promotion.bind (·.failureReason)
  updateJournal fun journal => { journal with
    stage := status
    finalManifestSha256 := some final
    rollbackState := if verified then "VERIFIED" else "FAILED"
    recoveryRequired := !verified
    terminal := verified
    failureReason := reason }
  promotionCheckpoint status (failureDetail applied verified)

/-! ## The call -/

/-- The last block. -/
def closePromotion (p : Promotion) : PromotionAct Unit := do
  save
  let _ ← releaseProjectLease p.root p.holder p.fencingToken
  promotionCheckpoint "LEASE_RELEASED" "Exclusive mutation lease released."
  let now ← perfCounter
  saveProjectTicket { p.ticket with
    usage := { p.ticket.usage with wallTime := p.ticket.usage.wallTime + (now - p.started) } }

/-- The lease, and the promotion record under it. -/
def openPromotion (ticket : ProjectTicket) (approval : SandboxPromotionApproval)
    (project : ProjectRecord) (root : String) : PromotionAct Promotion := do
  let attempt ← currentAttempt
  let holder := "sandbox-promotion:" ++ attempt.id
  let acquisition ← acquireProjectLease root holder attempt.id none
  Act.require (acquisition.acquired = true)
    (.runtime "Registered project mutation lease is held by another workflow.")
  let lease := acquisition.lease
  let promotionId ← newId
  updateAttempt fun attempt => { attempt with
    promotion := some {
      id := promotionId
      approvalId := approval.id
      projectId := attempt.projectId
      projectRoot := attempt.projectRoot
      initialManifestSha256 := attempt.initialManifestSha256
      leaseId := lease.id
      fencingToken := lease.fencingToken } }
  promotionCheckpoint "LEASE_ACQUIRED" "Exclusive project mutation lease acquired."
  let started ← perfCounter
  return { ticket, approval, project, root, holder, leaseId := lease.id,
           fencingToken := lease.fencingToken, started }

def promoteAttempt (host : SandboxHost) (ticket : ProjectTicket) :
    PromotionAct ImplementationSandboxAttempt := do
  let (approval, project) ← promotionGate host
  let p ← openPromotion ticket approval project (host.resolve project.root)
  (Act.onError (applyPromotion host p) PyError.isException (rollBackPromotion host p)).andFinally
    (closePromotion p)
  currentAttempt

def promote {L : Type} (host : SandboxHost) (ticketId attemptId : String) :
    SandboxAct L ImplementationSandboxAttempt := do
  let ticket ← checkBudget host ticketId
  let attempt ← ask (attemptOf host ticketId attemptId)
  (promoteAttempt host ticket).within { attempt }

end RlmGraph.Sandbox.Promote
