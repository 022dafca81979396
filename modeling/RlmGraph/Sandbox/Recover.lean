import RlmGraph.Sandbox.Promote

/-! # Recovery of an interrupted promotion

`recover_promotion`: the fence is compared and taken over (`claimRecovery`),
then the files are classified against the journal, and the patch is either
finished or rolled back. -/
namespace RlmGraph.Sandbox.Recover
open RlmGraph.Lib RlmGraph.Lib.JsonText RlmGraph.Lib.PyText RlmGraph.Lib.Programs
open RlmGraph.Governance.Tickets (ProjectTicket microseconds)
open RlmGraph.Governance.Policy RlmGraph.Store.Lease
open RlmGraph.Sandbox.Records RlmGraph.Sandbox.Operations RlmGraph.Sandbox.Approval
open RlmGraph.Sandbox.Promote

/-! ## Classification -/

/-- The journal of the attempt in memory. -/
def currentJournal : PromotionAct SandboxMutationJournal := do
  Act.ofExcept (match (← currentAttempt).journal with
    | some journal => .ok journal
    | none => .error (.value "Sandbox promotion has no durable mutation journal."))

theorem wp_currentJournal {S : Type} {T : OpSpec Op Reply S} {l : Locals} {s : S}
    {Q : Except PyError SandboxMutationJournal → Locals → S → Prop}
    (hsome : ∀ journal, l.attempt.journal = some journal → Q (.ok journal) l s)
    (hnone : l.attempt.journal = none → ∀ e, Q (.error e) l s) : currentJournal.wp T Q l s := by
  unfold currentJournal
  simp only [Act.wp_bind, wp_currentAttempt, Act.onOk_ok, Act.wp_ofExcept]
  cases hj : l.attempt.journal with
  | some journal => exact hsome journal hj
  | none => exact hnone hj _

/-- The bytes and digests of one entry against its change. -/
def entryVerified (host : SandboxHost) (entry : SandboxMutationJournalEntry)
    (change : PatchChange) : Except PyError Unit :=
  if host.sha256 entry.beforeBytes ≠ entry.beforeSha256 ∨ entry.beforeSha256 ≠ change.beforeHash then
    .error (.readOnlyViolation s!"Mutation journal original bytes are unverifiable for {entry.path}.")
  else if host.sha256 entry.afterBytes ≠ entry.afterSha256 ∨ entry.afterSha256 ≠ change.afterHash then
    .error (.readOnlyViolation s!"Mutation journal proposed bytes are unverifiable for {entry.path}.")
  else .ok ()

def entriesVerified (host : SandboxHost) :
    List (SandboxMutationJournalEntry × PatchChange) → Except PyError Unit
  | [] => .ok ()
  | (entry, change) :: rest => do
    entryVerified host entry change
    entriesVerified host rest

/-- `_journal_paths`. -/
def journalPaths (host : SandboxHost) (root : String) (attempt : ImplementationSandboxAttempt)
    (journal : SandboxMutationJournal) (files : Files) : Except PyError (List String) := do
  if journal.ticketId ≠ attempt.ticketId ∨ journal.attemptId ≠ attempt.id then
    throw (.readOnlyViolation "Mutation journal origin does not match its sandbox attempt.")
  match attempt.promotionApproval with
  | none => throw (.other "AttributeError" "'NoneType' object has no attribute 'id'")
  | some approval =>
    if journal.approvalId ≠ approval.id then
      throw (.readOnlyViolation "Mutation journal approval does not match the approved promotion.")
  if journal.authorizedPaths ≠ attempt.authorizedPaths then
    throw (.readOnlyViolation "Mutation journal authorized paths changed after approval.")
  if journal.entries = [] ∨ journal.entries.map (·.path) ≠ attempt.changes.map (·.path) then
    throw (.readOnlyViolation "Mutation journal is incomplete for the approved changed paths.")
  let paths ← promotionPaths host root attempt files
  entriesVerified host (journal.entries.zip attempt.changes)
  return paths

inductive SourceState where
  | before | after | unknown
  deriving DecidableEq

def classify (digest : String) (entry : SandboxMutationJournalEntry) : SourceState :=
  if digest = entry.beforeSha256 then .before
  else if digest = entry.afterSha256 then .after
  else .unknown

/-- `_journal_states`. -/
def journalStates (host : SandboxHost) (journal : SandboxMutationJournal) (paths : List String)
    (files : Files) : Except PyError (List SourceState) :=
  (paths.zip journal.entries).mapM fun (path, entry) => do
    return classify (← fileContentHash host path files) entry

/-! ## Rolling back -/

/-- One entry of the journal. -/
def restoreEntry (host : SandboxHost) (index : Nat) (path : String)
    (entry : SandboxMutationJournalEntry) : PromotionAct Unit := do
  replaceSingle path entry.beforeBytes entry.originalMode
  let digest ← look (fileContentHash host path)
  Act.require (digest = entry.beforeSha256)
    (.os s!"Recovered rollback hash mismatch for {entry.path}.")
  updateEntry index fun entry => { entry with rollbackCompleted := true }
  journalCheckpoint "RECOVERY_PATH_ROLLED_BACK" s!"Restored {entry.path}."

def stopIteration : PyError := .other "StopIteration" ""

/-- `next(item for item in self.store.projects() if item.id == attempt.project_id)`. -/
def attemptProject (projectId : String) (store : Store) : Except PyError ProjectRecord :=
  match store.projects.find? (·.id == projectId) with
  | some project => .ok project
  | none => .error stopIteration

/-- The guarded part of the rollback: every entry, then the manifest. -/
def restoreEntries (host : SandboxHost) (root : String) (paths : List String) :
    PromotionAct String := do
  let journal ← currentJournal
  (paths.zip journal.entries).zipIdx.forM fun ((path, entry), index) =>
    restoreEntry host index path entry
  let project ← ask (attemptProject (← currentAttempt).projectId)
  let final ← currentManifest host project.id root
  Act.require (final = journal.initialManifestSha256)
    (.os "Recovered rollback did not restore the exact original project manifest.")
  return final

def markRollbackFailed (e : PyError) : PromotionAct String := do
  updateJournal fun journal => { journal with rollbackState := "FAILED" }
  Act.fail e

/-- The commands run after the rollback, until the wall time of the ticket is
used up. -/
def revalidateRestored (host : SandboxHost) (ticket : ProjectTicket) :
    List (List String) → PromotionAct Unit
  | [] => return ()
  | command :: commands => do
    let available := microseconds ticket.budget.maxWallTimeSeconds - ticket.usage.wallTime
    if available ≤ 0 then return ()
    let execution ← execute command (min host.validationTimeout available)
    updatePromotion fun promotion => { promotion with
      rollbackValidations := promotion.rollbackValidations ++ [execution] }
    journalCheckpoint "RECOVERY_ROLLBACK_VALIDATION_RECORDED"
      "Persisted one budget-bounded rollback validation result."
    revalidateRestored host ticket commands

/-- `_rollback_from_journal`. -/
def rollbackFromJournal (host : SandboxHost) (root : String) (paths : List String) :
    PromotionAct Unit := do
  updateJournal fun journal => { journal with
    stage := "ROLLING_BACK", rollbackState := "IN_PROGRESS" }
  journalCheckpoint "RECOVERY_ROLLBACK_STARTED" "Restoring all journaled original bytes."
  let final ← Act.onError (restoreEntries host root paths) PyError.isException markRollbackFailed
  updatePromotion fun promotion => { promotion with
    rollbackVerified := some true, finalManifestSha256 := some final, status := "ROLLED_BACK" }
  updateAttempt fun attempt => { attempt with status := "ROLLED_BACK" }
  updateJournal fun journal => { journal with
    stage := "ROLLED_BACK", rollbackState := "VERIFIED", finalManifestSha256 := some final }
  let attempt ← currentAttempt
  let ticket ← checkBudget host attempt.ticketId
  updateJournal fun journal => { journal with validationState := "ROLLBACK_SOURCE_VERIFIED" }
  let journal ← currentJournal
  revalidateRestored host ticket
    (journal.validationCommands.drop (attempt.promotion.elim 0 (·.rollbackValidations.length)))
  updateJournal fun journal => { journal with recoveryRequired := false, terminal := true }
  journalCheckpoint "RECOVERY_ROLLED_BACK" "Exact original bytes and manifest were restored."
  promotionCheckpoint "ROLLED_BACK" "Crash recovery restored exact original project bytes."

/-! ## Finishing -/

/-- One remaining validation command. -/
def validateRecovered (host : SandboxHost) (ticket : ProjectTicket) (started : Int)
    (command : List String) : PromotionAct Unit := do
  let now ← perfCounter
  let available := microseconds ticket.budget.maxWallTimeSeconds - ticket.usage.wallTime -
    (now - started)
  Act.require (0 < available)
    (.runtime "Ticket wall-time budget exhausted during recovered validation.")
  let execution ← execute command (min host.validationTimeout available)
  updatePromotion fun promotion => { promotion with
    validations := promotion.validations ++ [execution] }
  journalCheckpoint "RECOVERY_VALIDATION_RECORDED"
    "Persisted one recovered bounded validation result."

/-- The recorded validations of the promotion. -/
def recordedValidations : PromotionAct (List TestExecution) := do
  return (← currentAttempt).promotion.elim [] (·.validations)

theorem wp_recordedValidations {S : Type} {T : OpSpec Op Reply S} {l : Locals} {s : S}
    {Q : Except PyError (List TestExecution) → Locals → S → Prop} :
    recordedValidations.wp T Q l s =
      Q (.ok (l.attempt.promotion.elim [] (·.validations))) l s := rfl

def concludeRecovered (current : String) : PromotionAct Unit := do
  updatePromotion fun promotion => { promotion with
    appliedManifestSha256 := some current
    finalManifestSha256 := some current
    status := "PROMOTED" }
  updateAttempt fun attempt => { attempt with status := "PROMOTED" }
  updateJournal fun journal => { journal with
    stage := "PROMOTED"
    validationState := "PASSED"
    finalManifestSha256 := some current
    recoveryRequired := false
    terminal := true }
  journalCheckpoint "RECOVERY_PROMOTED"
    "Recovered application and validation reached a verified terminal state."
  promotionCheckpoint "PROMOTED" "Recovered promotion completed; graph reconciliation remains pending."

/-- `_finish_recovered_application`. -/
def finishRecoveredApplication (host : SandboxHost) (root : String) (started : Int) :
    PromotionAct Unit := do
  let attempt ← currentAttempt
  let journal ← currentJournal
  let project ← ask (attemptProject attempt.projectId)
  let current ← currentManifest host project.id root
  Act.require (journal.proposedManifestSha256.elim true (fun proposed =>
      proposed == "" || proposed == current) = true)
    (.readOnlyViolation "Applied source manifest does not match the journaled proposal.")
  updateJournal fun journal => { journal with
    proposedManifestSha256 := some current, stage := "VALIDATING", validationState := "IN_PROGRESS" }
  let ticket ← checkBudget host attempt.ticketId
  let recorded ← recordedValidations
  (journal.validationCommands.drop recorded.length).forM (validateRecovered host ticket started)
  let recorded ← recordedValidations
  Act.require (recorded.length = journal.validationCommands.length)
    (.runtime "Recovered validation history is incomplete.")
  if recorded.any failedExecution then
    let paths ← look (journalPaths host root (← currentAttempt) (← currentJournal))
    rollbackFromJournal host root paths
  else
    let last ← currentManifest host project.id root
    Act.require (last = current) (.runtime "Recovered validation changed indexed project source.")
    concludeRecovered current

/-! ## The call -/

def staleFence : PyError :=
  .runtime "Mutation recovery rejected a stale fencing token or lease identity."

def waitingLease : PyError :=
  .runtime "Incomplete promotion recovery is waiting for its active mutation lease to expire."

/-- Whether the row of the lease table is the one the journal was written under. -/
def fenceMatches (journal : SandboxMutationJournal) (prior : Option ProjectLease) : Bool :=
  prior.elim false fun lease =>
    lease.id == journal.leaseId && lease.fencingToken == journal.fencingToken

/-- From the comparison of the fence to the checkpoint under the new one. The
rows hold resolved roots under their folded form, so the row of a root is the
one that the scan of all rows finds. -/
def claimRecovery (host : SandboxHost) (root : String) (journal : SandboxMutationJournal) :
    PromotionAct Nat := do
  let attempt ← currentAttempt
  let holder := "sandbox-recovery:" ++ attempt.id
  let leases ← projectLeases
  let prior := leases (host.leases.leaseRoot root)
  Act.require (fenceMatches journal prior = true) staleFence
  let acquisition ← acquireProjectLease root holder attempt.id (some journal.id)
  Act.require (acquisition.acquired = true) waitingLease
  let lease := acquisition.lease
  Act.when (lease.fencingToken ≠ journal.fencingToken) do
    Act.when (acquisition.reclaimed = false ∧ prior.map (·.status) ≠ some .released) do
      let _ ← releaseProjectLease root holder lease.fencingToken
      Act.fail (.runtime "Mutation recovery rejected a stale fencing token.")
    updateJournal fun journal => { journal with
      fencingToken := lease.fencingToken, leaseId := lease.id, leaseHolderId := holder }
  updateJournal fun journal => { journal with recoveryCount := journal.recoveryCount + 1 }
  let _ ← recordProjectLeaseEvent root holder lease.fencingToken .recoveryStarted
    s!"Recovering sandbox mutation journal {journal.id}." (some attempt.id)
  journalCheckpoint "RECOVERY_STARTED" "Classifying exact project bytes under the recovery fence."
  return lease.fencingToken

/-- The stages in which the journal says that all files were replaced. -/
def appliedStages : List String := ["APPLIED", "VALIDATING", "VALIDATED", "COMMITTING"]

def resumePromotion (host : SandboxHost) (root interruptedStage : String) (started : Int) :
    PromotionAct Unit := do
  let attempt ← currentAttempt
  let journal ← currentJournal
  let paths ← look (journalPaths host root attempt journal)
  let states ← look (journalStates host journal paths)
  Act.require (SourceState.unknown ∉ states)
    (.readOnlyViolation "Recovery found unverifiable source bytes; no additional source writes were made.")
  if (∀ state ∈ states, state = .after) ∧ interruptedStage ∈ appliedStages then
    finishRecoveredApplication host root started
  else rollbackFromJournal host root paths

def recoveryFailed (e : PyError) : PromotionAct Unit := do
  updateJournal fun journal => { journal with
    failureReason := some e.message
    stage := "RECOVERY_FAILED"
    rollbackState := if journal.rollbackState = "IN_PROGRESS" then "FAILED"
      else journal.rollbackState }
  updatePromotion fun promotion => { promotion with
    failureReason := some e.message, status := "RECOVERY_FAILED" }
  updateAttempt fun attempt => { attempt with status := "RECOVERY_FAILED" }
  journalCheckpoint "RECOVERY_FAILED" e.message

/-- `_record_recovery_ticket_event`. -/
def recordRecoveryTicketEvent : PromotionAct Unit := do
  let attempt ← currentAttempt
  let journal ← currentJournal
  let kind := if journal.terminal then "SANDBOX_PROMOTION_RECOVERED"
    else "SANDBOX_PROMOTION_RECOVERY_FAILED"
  let store ← readStore
  if store.ticketEvents.any fun event => event.ticketId == attempt.ticketId && event.kind == kind &&
      event.artifactIds.contains journal.id then
    return ()
  let ticket := store.tickets.find? (·.id == attempt.ticketId)
  saveTicketEvent {
    ticketId := attempt.ticketId
    projectId := ticket.map (·.projectId)
    projectRoot := ticket.map (·.projectRoot)
    kind := kind
    detail := s!"Crash-safe promotion recovery ended in {attempt.status} at fence {journal.fencingToken}."
    actor := "sandbox recovery"
    artifactIds := [attempt.id, journal.promotionId, journal.id] }

/-- The last block. -/
def closeRecovery (host : SandboxHost) (root ticketId : String) (token : Nat) (started : Int) :
    PromotionAct Unit := do
  save
  recordRecoveryTicketEvent
  let attempt ← currentAttempt
  let holder := "sandbox-recovery:" ++ attempt.id
  let _ ← recordProjectLeaseEvent root holder token .recoveryCompleted
    s!"Sandbox mutation recovery ended in {attempt.status}." (some attempt.id)
  let _ ← releaseProjectLease root holder token
  promotionCheckpoint "RECOVERY_LEASE_RELEASED" "Recovery mutation lease released."
  let ticket ← checkBudget host ticketId
  let now ← perfCounter
  saveProjectTicket { ticket with
    usage := { ticket.usage with wallTime := ticket.usage.wallTime + (now - started) } }

def recoverAttempt (host : SandboxHost) (ticketId : String) (journal : SandboxMutationJournal) :
    PromotionAct ImplementationSandboxAttempt := do
  let attempt ← currentAttempt
  let root := host.resolve journal.projectRoot
  Act.require (casefold host.text root = host.canonicalRoot attempt.projectRoot)
    (.readOnlyViolation "Mutation journal project boundary does not match its sandbox attempt.")
  let token ← claimRecovery host root journal
  let started ← perfCounter
  (Act.onError (resumePromotion host root journal.stage started) PyError.isException
    recoveryFailed).andFinally (closeRecovery host root ticketId token started)
  currentAttempt

def recoverPromotion {L : Type} (host : SandboxHost) (ticketId attemptId : String) :
    SandboxAct L ImplementationSandboxAttempt := do
  let attempt ← ask (attemptOf host ticketId attemptId)
  match attempt.journal with
  | none => Act.fail (.value "Sandbox promotion has no durable mutation journal.")
  | some journal =>
    if journal.terminal then return attempt
    else (recoverAttempt host ticketId journal).within { attempt }

end RlmGraph.Sandbox.Recover
