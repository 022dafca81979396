import RlmGraph.Sandbox.Recover
import RlmGraph.Lib.Results

/-! # What the blocks under the lease leave alone

The blocks of a promotion or recovery that run under a lease neither take nor
return it, and of the attempt they change progress fields only: the core of the
attempt (`core`), with the journaled bytes, commands and fence, stays as it
was, and so does, outside of the validations, the list of recorded validations.
This is proved once, for any replies of the operations (`Confined (Quiet c V)`),
and holds whatever else is asked of the operations. -/
namespace RlmGraph.Sandbox.Confinement
open RlmGraph.Lib RlmGraph.Lib.Programs
open RlmGraph.Governance.Tickets (ProjectTicket microseconds)
open RlmGraph.Governance.Policy RlmGraph.Store.Lease
open RlmGraph.Sandbox.Records RlmGraph.Sandbox.Operations RlmGraph.Sandbox.Approval
open RlmGraph.Sandbox.Promote RlmGraph.Sandbox.Recover

/-! ## The core of an attempt -/

def entryCore (entry : SandboxMutationJournalEntry) : SandboxMutationJournalEntry :=
  { entry with
    staged := false
    replacementStarted := false
    replacementCompleted := false
    rollbackCompleted := false }

/-- The journal without its progress. -/
def journalCore (journal : SandboxMutationJournal) : SandboxMutationJournal :=
  { journal with
    proposedManifestSha256 := none
    finalManifestSha256 := none
    stage := ""
    entries := journal.entries.map entryCore
    validationState := ""
    rollbackState := ""
    recoveryCount := 0
    recoveryRequired := false
    terminal := false
    failureReason := none
    checkpoints := [] }

def promotionCore (promotion : SandboxPromotionRecord) : SandboxPromotionRecord :=
  { promotion with
    status := ""
    appliedManifestSha256 := none
    finalManifestSha256 := none
    validations := []
    rollbackValidations := []
    rollbackVerified := none
    failureReason := none
    checkpoints := []
    mutationJournal := promotion.mutationJournal.map journalCore }

/-- The attempt without the progress of its approval and promotion. -/
def core (attempt : ImplementationSandboxAttempt) : ImplementationSandboxAttempt :=
  { attempt with
    status := ""
    promotionApproval := none
    promotionApprovalMissing := []
    promotionApprovalExpirationReasons := []
    promotion := attempt.promotion.map promotionCore
    checkpoints := [] }

/-- The validations recorded by the promotion. -/
def recorded (attempt : ImplementationSandboxAttempt) : List TestExecution :=
  attempt.promotion.elim [] (·.validations)

/-- An attempt with a given core, whose recorded validations are among `V`. -/
structure HasCore (c : ImplementationSandboxAttempt) (V : Set (List TestExecution))
    (attempt : ImplementationSandboxAttempt) : Prop where
  core : core attempt = c
  recorded : recorded attempt ∈ V

/-- An update that keeps the core and the recorded validations. -/
structure ProgressOnly (f : ImplementationSandboxAttempt → ImplementationSandboxAttempt) : Prop where
  core : ∀ attempt, Confinement.core (f attempt) = Confinement.core attempt
  recorded : ∀ attempt, Confinement.recorded (f attempt) = Confinement.recorded attempt

theorem progress_onPromotion {f : SandboxPromotionRecord → SandboxPromotionRecord}
    (hcore : ∀ promotion, promotionCore (f promotion) = promotionCore promotion)
    (hvalidations : ∀ promotion, (f promotion).validations = promotion.validations) :
    ProgressOnly (·.onPromotion f) where
  core attempt := by
    cases h : attempt.promotion <;>
      simp [core, ImplementationSandboxAttempt.onPromotion, h, hcore]
  recorded attempt := by
    cases h : attempt.promotion <;>
      simp [recorded, ImplementationSandboxAttempt.onPromotion, h, hvalidations]

theorem progress_onJournal {f : SandboxMutationJournal → SandboxMutationJournal}
    (hcore : ∀ journal, journalCore (f journal) = journalCore journal) :
    ProgressOnly (·.onJournal f) := by
  refine progress_onPromotion (fun promotion => ?_) fun _ => rfl
  cases h : promotion.mutationJournal <;> simp [promotionCore, h, hcore]

theorem map_modify_of_eq {α β : Type} {g : α → β} {f : α → α} (h : ∀ x, g (f x) = g x)
    (xs : List α) (index : Nat) : (xs.modify index f).map g = xs.map g := by
  induction xs generalizing index with
  | nil => simp
  | cons x xs ih => cases index <;> simp [h, ih]

/-! ## Kinds of operations -/

/-- Leaves the attempts, the tickets, the leases and the files as they are. -/
def looks : Op → Prop
  | .saveImplementationSandbox _ | .saveProjectTicket _ | .acquireProjectLease ..
  | .recordProjectLeaseEvent .. | .replaceFile .. | .execute .. => False
  | _ => True

def touchesLease : Op → Prop
  | .acquireProjectLease .. | .recordProjectLeaseEvent .. => True
  | _ => False

section
variable {L α : Type} {I : L → Prop}

theorem looks_readStore : Act.Confined looks I (readStore : SandboxAct L Store) :=
  Act.confined_perform trivial

theorem looks_ask (f : Store → Except PyError α) : Act.Confined looks I (ask f) :=
  looks_readStore.bind fun _ => Act.keeps_ofExcept _

theorem looks_look (f : Files → Except PyError α) : Act.Confined looks I (look f) :=
  (Act.confined_perform trivial).bind fun _ => Act.keeps_ofExcept _

theorem looks_policy (host : SandboxHost) (projectId : String) :
    Act.Confined looks I (policy host projectId) :=
  looks_readStore.bind fun _ =>
    (Act.confined_perform trivial).bind fun _ =>
      (Act.keeps_ofExcept _).bind fun _ =>
        ((Act.confined_perform trivial).ite (Act.keeps_pure _)).bind fun _ => Act.keeps_pure _

theorem looks_checkBudget (host : SandboxHost) (ticketId : String) :
    Act.Confined looks I (checkBudget host ticketId) :=
  (looks_ask _).bind fun _ =>
    (looks_policy host _).bind fun _ =>
      (Act.keeps_ofExcept _).bind fun _ => (Act.keeps_require _ _).bind fun _ => Act.keeps_pure _

theorem looks_currentManifest (host : SandboxHost) (projectId root : String) :
    Act.Confined looks I (currentManifest host projectId root) :=
  looks_readStore.bind fun _ => looks_look _

theorem looks_newId : Act.Confined looks I (newId : SandboxAct L String) :=
  Act.confined_perform trivial

theorem looks_projectLeases : Act.Confined looks I (projectLeases : SandboxAct L LeaseTable) :=
  Act.confined_perform trivial

theorem looks_perfCounter : Act.Confined looks I (perfCounter : SandboxAct L Int) :=
  Act.confined_perform trivial

theorem looks_injectFault (stage : String) : Act.Confined looks I (injectFault stage) :=
  (Act.confined_perform trivial).bind fun _ => Act.keeps_ofExcept _

end

/-! ## Frames

What the blocks of a promotion or recovery do is told once, for any kind of
operations and any property of the attempt in memory that go together: the
blocks perform operations of that kind only and keep the property. -/

/-- A kind of operations and a property of the attempt in memory: the property
is kept by the updates of a class, and attempts that have it may be saved. -/
structure Frame (ok : Op → Prop) (I : Locals → Prop)
    (U : (ImplementationSandboxAttempt → ImplementationSandboxAttempt) → Prop) : Prop where
  reads : ∀ o, looks o → ok o
  executes : ∀ command timeout, ok (.execute command timeout)
  replaces : ∀ target content, ok (.replaceFile target content)
  saves : ∀ l, I l → ok (.saveImplementationSandbox l.attempt)
  others : ∀ l l' : Locals, l'.attempt = l.attempt → I l → I l'
  updates : ∀ f, U f → ∀ l, I l → I { l with attempt := f l.attempt }

section
variable {ok : Op → Prop} {I : Locals → Prop}
  {U U' : (ImplementationSandboxAttempt → ImplementationSandboxAttempt) → Prop} {α : Type}

theorem Frame.mono (F : Frame ok I U) (hU : ∀ f, U' f → U f) : Frame ok I U' :=
  { F with updates := fun f hf => F.updates f (hU f hf) }

theorem Frame.looking (F : Frame ok I U) {x : PromotionAct α} (h : Act.Confined looks I x) :
    Act.Confined ok I x :=
  h.mono F.reads

theorem Frame.executing (F : Frame ok I U) (command : List String) (timeout : Int) :
    Act.Confined ok I (execute command timeout) :=
  (((Act.confined_perform (F.executes command timeout)).bind fun _ => Act.keeps_ofExcept _)).bind
    fun _ => Act.keeps_pure _

theorem Frame.replaceSingle (F : Frame ok I U) (target : String) (content : JsonText.Bytes)
    (mode : Nat) : Act.Confined ok I (replaceSingle target content mode) :=
  (Act.confined_perform (F.replaces target _)).bind fun _ => Act.keeps_ofExcept _

theorem confined_acquireProjectLease (hlease : ∀ o, touchesLease o → ok o)
    (projectRoot holderId workflowId : String) (recoveryJournalId : Option String) :
    Act.Confined ok I (acquireProjectLease projectRoot holderId workflowId recoveryJournalId) :=
  (Act.confined_perform (hlease (.acquireProjectLease projectRoot holderId workflowId
    recoveryJournalId) trivial)).bind fun _ => Act.keeps_ofExcept _

theorem confined_recordProjectLeaseEvent (hlease : ∀ o, touchesLease o → ok o)
    (projectRoot holderId : String) (fencingToken : Nat) (kind : ProjectLeaseEventKind)
    (detail : String) (workflowId : Option String) :
    Act.Confined ok I (recordProjectLeaseEvent projectRoot holderId fencingToken kind detail
      workflowId) :=
  (Act.confined_perform (hlease (.recordProjectLeaseEvent projectRoot holderId fencingToken kind
    detail workflowId) trivial)).bind fun _ => Act.keeps_ofExcept _

theorem Frame.updateAttempt (F : Frame ok I U)
    {f : ImplementationSandboxAttempt → ImplementationSandboxAttempt} (hf : U f) :
    Act.Confined ok I (updateAttempt f) :=
  Act.keeps_modify fun l _ h => F.updates f hf l h

theorem Frame.currentAttempt (_ : Frame ok I U) : Act.Confined ok I currentAttempt :=
  Act.keeps_get.bind fun _ => Act.keeps_pure _

theorem Frame.currentJournal (F : Frame ok I U) : Act.Confined ok I currentJournal :=
  F.currentAttempt.bind fun _ => Act.keeps_ofExcept _

theorem Frame.save (F : Frame ok I U) : Act.Confined ok I save :=
  fun l _ h => ⟨F.saves l h, fun _ => h⟩

theorem Frame.updatePromotion (F : Frame ok I ProgressOnly)
    {f : SandboxPromotionRecord → SandboxPromotionRecord}
    (hcore : ∀ promotion, promotionCore (f promotion) = promotionCore promotion)
    (hvalidations : ∀ promotion, (f promotion).validations = promotion.validations) :
    Act.Confined ok I (updatePromotion f) :=
  F.updateAttempt (progress_onPromotion hcore hvalidations)

theorem Frame.updateJournal (F : Frame ok I ProgressOnly)
    {f : SandboxMutationJournal → SandboxMutationJournal}
    (hcore : ∀ journal, journalCore (f journal) = journalCore journal) :
    Act.Confined ok I (updateJournal f) :=
  F.updateAttempt (progress_onJournal hcore)

theorem Frame.updateEntry (F : Frame ok I ProgressOnly) {index : Nat}
    {f : SandboxMutationJournalEntry → SandboxMutationJournalEntry}
    (hcore : ∀ entry, entryCore (f entry) = entryCore entry) :
    Act.Confined ok I (updateEntry index f) :=
  F.updateJournal fun journal => by
    simp only [journalCore, map_modify_of_eq hcore]

theorem Frame.promotionCheckpoint (F : Frame ok I ProgressOnly) (stage detail : String) :
    Act.Confined ok I (promotionCheckpoint stage detail) := by
  refine F.currentAttempt.bind fun _ => ?_
  refine (Act.keeps_require _ _).bind fun _ => ?_
  refine (F.updatePromotion (by intro; rfl) (by intro; rfl)).bind fun _ => ?_
  refine (F.updateAttempt ⟨by intro; rfl, by intro; rfl⟩).bind fun _ => ?_
  exact F.save

theorem Frame.journalCheckpoint (F : Frame ok I ProgressOnly) (stage detail : String) :
    Act.Confined ok I (journalCheckpoint stage detail) := by
  refine F.currentAttempt.bind fun _ => ?_
  refine (Act.keeps_require _ _).bind fun _ => ?_
  refine (F.updateJournal (by intro; rfl)).bind fun _ => ?_
  exact F.save

/-! ## The blocks of a promotion -/

theorem Frame.replaceSource (F : Frame ok I ProgressOnly) (host : SandboxHost) (index : Nat)
    (change : PatchChange)
    (target : String) : Act.Confined ok I (replaceSource host index change target) := by
  refine (F.updateEntry (by intro; rfl)).bind fun _ => ?_
  refine (F.journalCheckpoint _ _).bind fun _ => ?_
  refine (F.looking (looks_injectFault _)).bind fun _ => ?_
  refine (Act.keeps_ofExcept _).bind fun _ => ?_
  refine Act.keeps_get.bind fun _ => ?_
  refine (Act.keeps_ofExcept _).bind fun _ => ?_
  refine (F.replaceSingle _ _ _).bind fun _ => ?_
  refine (F.updateEntry (by intro; rfl)).bind fun _ => ?_
  refine (F.journalCheckpoint _ _).bind fun _ => ?_
  exact F.looking (looks_injectFault _)

theorem Frame.verifySource (F : Frame ok I ProgressOnly) (host : SandboxHost) (index : Nat)
    (change : PatchChange)
    (target : String) : Act.Confined ok I (verifySource host index change target) := by
  refine (F.looking (looks_look _)).bind fun _ => ?_
  refine (Act.keeps_require _ _).bind fun _ => ?_
  refine F.currentAttempt.bind fun _ => ?_
  refine Act.Keeps.when ?_
  refine (F.updateEntry (by intro; rfl)).bind fun _ => ?_
  exact F.journalCheckpoint _ _

theorem Frame.applySources (F : Frame ok I ProgressOnly) (host : SandboxHost)
    (paths : List String) :
    Act.Confined ok I (applySources host paths) := by
  refine F.currentAttempt.bind fun _ => ?_
  refine (F.updatePromotion (by intro; rfl) (by intro; rfl)).bind fun _ => ?_
  refine Act.Keeps.bind (Act.keeps_modify fun l _ h => F.others l _ rfl h) fun _ => ?_
  refine (F.updateJournal (by intro; rfl)).bind fun _ => ?_
  refine (Act.keeps_forM fun _ _ => F.replaceSource host _ _ _).bind fun _ => ?_
  exact Act.keeps_forM fun _ _ => F.verifySource host _ _ _

theorem Frame.restoreBytes (F : Frame ok I ProgressOnly) (originals : List (String × FileState)) :
    Act.Confined ok I (restoreBytes originals) :=
  Act.keeps_forM fun _ _ => F.replaceSingle _ _ _

theorem Frame.restoreOriginals (F : Frame ok I ProgressOnly) (host : SandboxHost) (p : Promotion) :
    Act.Confined ok I (restoreOriginals host p) := by
  refine Act.keeps_get.bind fun _ => ?_
  have hrestore := fun originals => (F.restoreBytes originals).bind fun _ =>
    Act.keeps_pure (none : Option PyError)
  refine ((hrestore _).onError fun e => Act.keeps_pure (some e)).bind fun _ => ?_
  refine Act.Keeps.ite (Act.keeps_pure _) ?_
  refine (F.looking (looks_look _)).bind fun _ => ?_
  refine Act.Keeps.ite (Act.keeps_pure _) ?_
  refine (F.looking (looks_currentManifest host _ _)).bind fun _ => ?_
  refine F.currentAttempt.bind fun _ => ?_
  exact Act.keeps_pure _

theorem Frame.revalidate (F : Frame ok I ProgressOnly) (host : SandboxHost)
    (command : List String) :
    Act.Confined ok I (revalidate host command) := by
  refine (F.executing _ _).bind fun _ => ?_
  exact F.updatePromotion (by intro; rfl) (by intro; rfl)

theorem Frame.undoApplied (F : Frame ok I ProgressOnly) (host : SandboxHost) (p : Promotion) :
    Act.Confined ok I (undoApplied host p) := by
  refine F.currentAttempt.bind fun _ => ?_
  refine Act.Keeps.bind (Act.Keeps.when ?_) fun _ => ?_
  · refine (F.updateJournal (by intro; rfl)).bind fun _ => ?_
    exact F.journalCheckpoint _ _
  refine (F.restoreOriginals host p).bind fun _ => ?_
  refine (F.updatePromotion (by intro; rfl) (by intro; rfl)).bind fun _ => ?_
  refine Act.Keeps.bind (Act.Keeps.when ?_) fun _ => Act.keeps_pure _
  refine (F.updateJournal ?_).bind fun _ => ?_
  · intro journal
    simp [journalCore, entryCore]
  refine F.currentAttempt.bind fun _ => ?_
  refine (Act.keeps_ofExcept _).bind fun _ => ?_
  exact Act.keeps_forM fun _ _ => F.revalidate host _

theorem Frame.undoPromotion (F : Frame ok I ProgressOnly) (host : SandboxHost) (p : Promotion) :
    Act.Confined ok I (undoPromotion host p) := by
  refine Act.keeps_get.bind fun _ => Act.Keeps.ite (F.undoApplied host p) ?_
  refine (F.updatePromotion (by intro; rfl) (by intro; rfl)).bind fun _ => ?_
  exact Act.keeps_pure _

theorem Frame.rollBackPromotion (F : Frame ok I ProgressOnly) (host : SandboxHost) (p : Promotion)
    (e : PyError) :
    Act.Confined ok I (rollBackPromotion host p e) := by
  refine (F.updatePromotion (by intro; rfl) (by intro; rfl)).bind fun _ => ?_
  refine (F.undoPromotion host p).bind fun _ => ?_
  refine (F.looking (looks_currentManifest host _ _)).bind fun _ => ?_
  refine Act.keeps_get.bind fun _ => ?_
  refine (F.updatePromotion (by intro; rfl) (by intro; rfl)).bind fun _ => ?_
  refine (F.updateAttempt ⟨by intro; rfl, by intro; rfl⟩).bind fun _ => ?_
  refine F.currentAttempt.bind fun _ => ?_
  refine (F.updateJournal (by intro; rfl)).bind fun _ => ?_
  exact F.promotionCheckpoint _ _

/-! ## The blocks of a recovery -/

theorem Frame.restoreEntry (F : Frame ok I ProgressOnly) (host : SandboxHost) (index : Nat)
    (path : String)
    (entry : SandboxMutationJournalEntry) : Act.Confined ok I
    (restoreEntry host index path entry) := by
  refine (F.replaceSingle _ _ _).bind fun _ => ?_
  refine (F.looking (looks_look _)).bind fun _ => ?_
  refine (Act.keeps_require _ _).bind fun _ => ?_
  refine (F.updateEntry (by intro; rfl)).bind fun _ => ?_
  exact F.journalCheckpoint _ _

theorem Frame.restoreEntries (F : Frame ok I ProgressOnly) (host : SandboxHost) (root : String)
    (paths : List String) :
    Act.Confined ok I (restoreEntries host root paths) := by
  refine F.currentJournal.bind fun _ => ?_
  refine (Act.keeps_forM fun _ _ => F.restoreEntry host _ _ _).bind fun _ => ?_
  refine F.currentAttempt.bind fun _ => ?_
  refine (F.looking (looks_ask _)).bind fun _ => ?_
  refine (F.looking (looks_currentManifest host _ _)).bind fun _ => ?_
  refine (Act.keeps_require _ _).bind fun _ => ?_
  exact Act.keeps_pure _

theorem Frame.revalidateRestored (F : Frame ok I ProgressOnly) (host : SandboxHost)
    (ticket : ProjectTicket)
    (commands : List (List String)) : Act.Confined ok I
    (revalidateRestored host ticket commands) := by
  induction commands with
  | nil => exact Act.keeps_pure _
  | cons command commands ih =>
    refine Act.Keeps.ite (Act.keeps_pure _) ?_
    refine (F.executing _ _).bind fun _ => ?_
    refine (F.updatePromotion (by intro; rfl) (by intro; rfl)).bind fun _ => ?_
    exact (F.journalCheckpoint _ _).bind fun _ => ih

theorem Frame.rollbackFromJournal (F : Frame ok I ProgressOnly) (host : SandboxHost)
    (root : String) (paths : List String) :
    Act.Confined ok I (rollbackFromJournal host root paths) := by
  refine (F.updateJournal (by intro; rfl)).bind fun _ => ?_
  refine (F.journalCheckpoint _ _).bind fun _ => ?_
  have hmark : ∀ e, Act.Confined ok I (markRollbackFailed e) := fun e =>
    (F.updateJournal (by intro; rfl)).bind fun _ => Act.keeps_fail e
  refine ((F.restoreEntries host root paths).onError hmark).bind fun _ => ?_
  refine (F.updatePromotion (by intro; rfl) (by intro; rfl)).bind fun _ => ?_
  refine (F.updateAttempt ⟨by intro; rfl, by intro; rfl⟩).bind fun _ => ?_
  refine (F.updateJournal (by intro; rfl)).bind fun _ => ?_
  refine F.currentAttempt.bind fun _ => ?_
  refine (F.looking (looks_checkBudget host _)).bind fun _ => ?_
  refine (F.updateJournal (by intro; rfl)).bind fun _ => ?_
  refine F.currentJournal.bind fun _ => ?_
  refine (F.revalidateRestored host _ _).bind fun _ => ?_
  refine (F.updateJournal (by intro; rfl)).bind fun _ => ?_
  refine (F.journalCheckpoint _ _).bind fun _ => ?_
  exact F.promotionCheckpoint _ _

theorem Frame.concludeRecovered (F : Frame ok I ProgressOnly) (current : String) :
    Act.Confined ok I (concludeRecovered current) := by
  refine (F.updatePromotion (by intro; rfl) (by intro; rfl)).bind fun _ => ?_
  refine (F.updateAttempt ⟨by intro; rfl, by intro; rfl⟩).bind fun _ => ?_
  refine (F.updateJournal (by intro; rfl)).bind fun _ => ?_
  refine (F.journalCheckpoint _ _).bind fun _ => ?_
  exact F.promotionCheckpoint _ _

theorem Frame.recordedValidations (F : Frame ok I ProgressOnly) :
    Act.Confined ok I recordedValidations := by
  refine F.currentAttempt.bind fun _ => ?_
  exact Act.keeps_pure _

theorem Frame.recoveryFailed (F : Frame ok I ProgressOnly) (e : PyError) : Act.Confined ok I
    (recoveryFailed e) := by
  refine (F.updateJournal (by intro; rfl)).bind fun _ => ?_
  refine (F.updatePromotion (by intro; rfl) (by intro; rfl)).bind fun _ => ?_
  refine (F.updateAttempt ⟨by intro; rfl, by intro; rfl⟩).bind fun _ => ?_
  exact F.journalCheckpoint _ _

theorem Frame.recordRecoveryTicketEvent (F : Frame ok I ProgressOnly) :
    Act.Confined ok I recordRecoveryTicketEvent := by
  refine F.currentAttempt.bind fun _ => ?_
  refine F.currentJournal.bind fun _ => ?_
  refine (F.looking looks_readStore).bind fun _ => ?_
  refine Act.Keeps.ite (Act.keeps_pure _) ?_
  exact F.looking (Act.confined_perform trivial)

end

/-! ## Whole calls

A promotion or recovery as a whole takes and returns leases, opens the record
of the promotion and its journal, and charges the ticket. A frame of all these
updates frames the call, if it admits these operations. -/

/-- The updates that keep the identifier of the attempt. -/
def KeepsId (f : ImplementationSandboxAttempt → ImplementationSandboxAttempt) : Prop :=
  ∀ attempt, (f attempt).id = attempt.id

/-- The updates that keep what a decided attempt stands for: its identifier, its
status and its promotion. -/
structure KeepsStanding (f : ImplementationSandboxAttempt → ImplementationSandboxAttempt) : Prop where
  id : ∀ attempt, (f attempt).id = attempt.id
  status : ∀ attempt, (f attempt).status = attempt.status
  promotion : ∀ attempt, (f attempt).promotion = attempt.promotion

theorem keepsId_of_progress {f : ImplementationSandboxAttempt → ImplementationSandboxAttempt}
    (h : ProgressOnly f) : KeepsId f :=
  fun attempt => congrArg (·.id) (h.core attempt)

section
variable {ok : Op → Prop} {I : Locals → Prop}

theorem Frame.progress (F : Frame ok I KeepsId) : Frame ok I ProgressOnly :=
  F.mono fun _ => keepsId_of_progress

theorem Frame.standing (F : Frame ok I KeepsId) : Frame ok I KeepsStanding :=
  F.mono fun _ h => h.id

/-! ## Whole promotions -/

theorem Frame.promotionGate (F : Frame ok I KeepsStanding) (host : SandboxHost) :
    Act.Confined ok I (promotionGate host) := by
  refine F.currentAttempt.bind fun attempt => ?_
  refine (F.looking (looks_policy host _)).bind fun policy => ?_
  refine (Act.keeps_ofExcept _).bind fun _ => ?_
  refine (Act.keeps_ofExcept _).bind fun approval => ?_
  refine (F.looking (looks_ask _)).bind fun governed => ?_
  refine (F.looking (looks_currentManifest host _ _)).bind fun manifest => ?_
  refine Act.Keeps.bind (Act.Keeps.when ?_) fun _ => ?_
  · exact (F.updateAttempt ⟨by intro; rfl, by intro; rfl, by intro; rfl⟩).bind fun _ => F.save
  refine (Act.keeps_ofExcept _).bind fun report => ?_
  refine (F.updateAttempt ⟨by intro; rfl, by intro; rfl, by intro; rfl⟩).bind fun _ => ?_
  refine Act.Keeps.bind (Act.Keeps.when ?_) fun _ => ?_
  · refine (F.updateAttempt ⟨by intro; rfl, by intro; rfl, by intro; rfl⟩).bind fun _ => ?_
    exact F.save.bind fun _ => Act.keeps_fail _
  refine (Act.keeps_require _ _).bind fun _ => ?_
  refine (Act.keeps_require _ _).bind fun _ => ?_
  refine (Act.keeps_require _ _).bind fun _ => ?_
  refine (Act.keeps_require _ _).bind fun _ => ?_
  exact (F.looking (looks_ask _)).bind fun _ => Act.keeps_pure _

theorem Frame.prepareJournal (F : Frame ok I KeepsId) (host : SandboxHost) (p : Promotion) :
    Act.Confined ok I (prepareJournal host p) := by
  refine F.currentAttempt.bind fun attempt => ?_
  refine (F.looking (looks_currentManifest host _ _)).bind fun current => ?_
  refine (Act.keeps_require _ _).bind fun _ => ?_
  refine (F.looking (looks_look _)).bind fun paths => ?_
  refine (Act.keeps_forM fun item _ => ?_).bind fun _ => ?_
  · refine (F.looking (looks_look _)).bind fun digest => ?_
    refine (Act.keeps_require _ _).bind fun _ => ?_
    refine (F.looking (looks_look _)).bind fun file => ?_
    exact Act.keeps_modify fun l _ h => F.others l _ rfl h
  refine (Act.keeps_ofExcept _).bind fun commands => ?_
  refine Act.keeps_get.bind fun l => ?_
  refine (Act.keeps_ofExcept _).bind fun entries => ?_
  refine (F.looking looks_newId).bind fun journalId => ?_
  refine (F.updateAttempt (by intro; rfl)).bind fun _ => ?_
  refine (F.progress.journalCheckpoint _ _).bind fun _ => ?_
  refine (F.looking (looks_injectFault _)).bind fun _ => ?_
  exact (F.progress.promotionCheckpoint _ _).bind fun _ => Act.keeps_pure _

theorem Frame.validateOnce (F : Frame ok I KeepsId) (host : SandboxHost) (remaining started : Int)
    (total : Nat) (command : List String) :
    Act.Confined ok I (validateOnce host remaining started total command) := by
  refine (F.looking looks_perfCounter).bind fun now => ?_
  refine (Act.keeps_require _ _).bind fun _ => ?_
  refine (F.executing _ _).bind fun execution => ?_
  refine (F.updateAttempt (by intro; rfl)).bind fun _ => ?_
  refine F.currentAttempt.bind fun attempt => ?_
  refine (F.progress.journalCheckpoint _ _).bind fun _ => ?_
  exact F.looking (looks_injectFault _)

theorem Frame.validateApplied (F : Frame ok I KeepsId) (host : SandboxHost) (p : Promotion)
    (commands : List (List String)) : Act.Confined ok I (validateApplied host p commands) := by
  refine (F.looking (looks_currentManifest host _ _)).bind fun applied => ?_
  refine (F.updateAttempt (by intro; rfl)).bind fun _ => ?_
  refine (F.updateAttempt (by intro; rfl)).bind fun _ => ?_
  refine (F.progress.promotionCheckpoint _ _).bind fun _ => ?_
  refine (F.looking (looks_injectFault _)).bind fun _ => ?_
  refine (F.updateAttempt (by intro; rfl)).bind fun _ => ?_
  refine (F.progress.journalCheckpoint _ _).bind fun _ => ?_
  refine (Act.keeps_forM fun command _ => F.validateOnce host _ _ _ command).bind fun _ => ?_
  refine (F.looking (looks_currentManifest host _ _)).bind fun current => ?_
  refine F.currentAttempt.bind fun attempt => ?_
  refine (Act.keeps_require _ _).bind fun _ => ?_
  refine (F.updateAttempt (by intro; rfl)).bind fun _ => ?_
  refine (F.updateAttempt (by intro; rfl)).bind fun _ => ?_
  refine (F.updateAttempt (by intro; rfl)).bind fun _ => ?_
  refine (F.progress.journalCheckpoint _ _).bind fun _ => ?_
  exact F.progress.promotionCheckpoint _ _

theorem Frame.applyPromotion (F : Frame ok I KeepsId) (host : SandboxHost) (p : Promotion) :
    Act.Confined ok I (applyPromotion host p) := by
  refine (F.prepareJournal host p).bind fun prepared => ?_
  refine (F.progress.applySources host prepared.1).bind fun _ => ?_
  exact F.validateApplied host p prepared.2

/-- The lease, and the promotion record under it. -/
theorem Frame.openPromotion (F : Frame ok I KeepsId) (hlease : ∀ o, touchesLease o → ok o)
    (ticket : ProjectTicket) (approval : SandboxPromotionApproval) (project : ProjectRecord)
    (root : String) : Act.Confined ok I (openPromotion ticket approval project root) := by
  refine F.currentAttempt.bind fun attempt => ?_
  refine (confined_acquireProjectLease hlease _ _ _ _).bind fun acquisition => ?_
  refine (Act.keeps_require _ _).bind fun _ => ?_
  refine (F.looking looks_newId).bind fun promotionId => ?_
  refine (F.updateAttempt (by intro; rfl)).bind fun _ => ?_
  refine (F.progress.promotionCheckpoint _ _).bind fun _ => ?_
  exact (F.looking looks_perfCounter).bind fun started => Act.keeps_pure _

/-- The last block, up to the charge of the ticket. -/
theorem Frame.closePromotion (F : Frame ok I KeepsId) (hlease : ∀ o, touchesLease o → ok o)
    (hticket : ∀ ticket, ok (.saveProjectTicket ticket)) (p : Promotion) :
    Act.Confined ok I (closePromotion p) := by
  refine F.save.bind fun _ => ?_
  refine (confined_recordProjectLeaseEvent hlease _ _ _ _ _ _).bind fun _ => ?_
  refine (F.progress.promotionCheckpoint _ _).bind fun _ => ?_
  refine (F.looking looks_perfCounter).bind fun now => ?_
  exact Act.confined_perform (hticket _)

theorem Frame.promoteAttempt (F : Frame ok I KeepsId) (hlease : ∀ o, touchesLease o → ok o)
    (hticket : ∀ ticket, ok (.saveProjectTicket ticket)) (host : SandboxHost)
    (ticket : ProjectTicket) : Act.Confined ok I (promoteAttempt host ticket) := by
  refine (F.standing.promotionGate host).bind fun passed => ?_
  refine (F.openPromotion hlease ticket passed.1 passed.2 _).bind fun p => ?_
  have hbody : Act.Confined ok I (Act.onError (Promote.applyPromotion host p) PyError.isException
      (Promote.rollBackPromotion host p)) :=
    (F.applyPromotion host p).onError fun e => F.progress.rollBackPromotion host p e
  exact (hbody.andFinally (F.closePromotion hlease hticket p)).bind fun _ => F.currentAttempt

/-! ## Whole recoveries -/

theorem Frame.validateRecovered (F : Frame ok I KeepsId) (host : SandboxHost)
    (ticket : ProjectTicket) (started : Int) (command : List String) :
    Act.Confined ok I (validateRecovered host ticket started command) := by
  refine (F.looking looks_perfCounter).bind fun now => ?_
  refine (Act.keeps_require _ _).bind fun _ => ?_
  refine (F.executing _ _).bind fun execution => ?_
  refine (F.updateAttempt (by intro; rfl)).bind fun _ => ?_
  exact F.progress.journalCheckpoint _ _

theorem Frame.finishRecoveredApplication (F : Frame ok I KeepsId) (host : SandboxHost)
    (root : String) (started : Int) :
    Act.Confined ok I (finishRecoveredApplication host root started) := by
  refine F.currentAttempt.bind fun attempt => ?_
  refine F.currentJournal.bind fun journal => ?_
  refine (F.looking (looks_ask _)).bind fun project => ?_
  refine (F.looking (looks_currentManifest host _ _)).bind fun current => ?_
  refine (Act.keeps_require _ _).bind fun _ => ?_
  refine (F.updateAttempt (by intro; rfl)).bind fun _ => ?_
  refine (F.looking (looks_checkBudget host _)).bind fun ticket => ?_
  refine F.progress.recordedValidations.bind fun recorded => ?_
  refine (Act.keeps_forM fun command _ => F.validateRecovered host _ _ command).bind fun _ => ?_
  refine F.progress.recordedValidations.bind fun recorded => ?_
  refine (Act.keeps_require _ _).bind fun _ => ?_
  refine Act.Keeps.ite ?_ ?_
  · refine F.currentAttempt.bind fun attempt => ?_
    refine F.currentJournal.bind fun journal => ?_
    refine (F.looking (looks_look _)).bind fun paths => ?_
    exact F.progress.rollbackFromJournal host root _
  · refine (F.looking (looks_currentManifest host _ _)).bind fun last => ?_
    refine (Act.keeps_require _ _).bind fun _ => ?_
    exact F.progress.concludeRecovered _

theorem Frame.resumePromotion (F : Frame ok I KeepsId) (host : SandboxHost)
    (root interruptedStage : String) (started : Int) :
    Act.Confined ok I (resumePromotion host root interruptedStage started) := by
  refine F.currentAttempt.bind fun attempt => ?_
  refine F.currentJournal.bind fun journal => ?_
  refine (F.looking (looks_look _)).bind fun paths => ?_
  refine (F.looking (looks_look _)).bind fun states => ?_
  refine (Act.keeps_require _ _).bind fun _ => ?_
  exact Act.Keeps.ite (F.finishRecoveredApplication host root started)
    (F.progress.rollbackFromJournal host root paths)

theorem Frame.claimRecovery (F : Frame ok I KeepsId) (hlease : ∀ o, touchesLease o → ok o)
    (host : SandboxHost) (root : String) (journal : SandboxMutationJournal) :
    Act.Confined ok I (claimRecovery host root journal) := by
  refine F.currentAttempt.bind fun attempt => ?_
  refine (F.looking looks_projectLeases).bind fun leases => ?_
  refine (Act.keeps_require _ _).bind fun _ => ?_
  refine (confined_acquireProjectLease hlease _ _ _ _).bind fun acquisition => ?_
  refine (Act.keeps_require _ _).bind fun _ => ?_
  refine Act.Keeps.bind (Act.Keeps.when ?_) fun _ => ?_
  · refine Act.Keeps.bind (Act.Keeps.when ?_) fun _ => ?_
    · exact (confined_recordProjectLeaseEvent hlease _ _ _ _ _ _).bind fun _ => Act.keeps_fail _
    · exact F.updateAttempt (by intro; rfl)
  refine (F.updateAttempt (by intro; rfl)).bind fun _ => ?_
  refine (confined_recordProjectLeaseEvent hlease _ _ _ _ _ _).bind fun _ => ?_
  exact (F.progress.journalCheckpoint _ _).bind fun _ => Act.keeps_pure _

theorem Frame.closeRecovery (F : Frame ok I KeepsId) (hlease : ∀ o, touchesLease o → ok o)
    (hticket : ∀ ticket, ok (.saveProjectTicket ticket)) (host : SandboxHost)
    (root ticketId : String) (token : Nat) (started : Int) :
    Act.Confined ok I (closeRecovery host root ticketId token started) := by
  refine F.save.bind fun _ => ?_
  refine F.progress.recordRecoveryTicketEvent.bind fun _ => ?_
  refine F.currentAttempt.bind fun attempt => ?_
  refine (confined_recordProjectLeaseEvent hlease _ _ _ _ _ _).bind fun _ => ?_
  refine (confined_recordProjectLeaseEvent hlease _ _ _ _ _ _).bind fun _ => ?_
  refine (F.progress.promotionCheckpoint _ _).bind fun _ => ?_
  refine (F.looking (looks_checkBudget host _)).bind fun ticket => ?_
  refine (F.looking looks_perfCounter).bind fun now => ?_
  exact Act.confined_perform (hticket _)

theorem Frame.recoverAttempt (F : Frame ok I KeepsId) (hlease : ∀ o, touchesLease o → ok o)
    (hticket : ∀ ticket, ok (.saveProjectTicket ticket)) (host : SandboxHost) (ticketId : String)
    (journal : SandboxMutationJournal) :
    Act.Confined ok I (recoverAttempt host ticketId journal) := by
  refine F.currentAttempt.bind fun attempt => ?_
  refine (Act.keeps_require _ _).bind fun _ => ?_
  refine (F.claimRecovery hlease host _ journal).bind fun token => ?_
  refine (F.looking looks_perfCounter).bind fun started => ?_
  have hbody : Act.Confined ok I (Act.onError (Recover.resumePromotion host
      (host.resolve journal.projectRoot) journal.stage started) PyError.isException
      Recover.recoveryFailed) :=
    (F.resumePromotion host _ _ started).onError fun e => F.progress.recoveryFailed e
  exact (hbody.andFinally (F.closeRecovery hlease hticket host _ ticketId token started)).bind
    fun _ => F.currentAttempt

end

/-! ## The frame of the core -/

variable {c : ImplementationSandboxAttempt} {V V' : Set (List TestExecution)}
  {P P' : ImplementationSandboxAttempt → Prop}

/-- Neither takes nor returns a lease, and saves only attempts with `P`. -/
structure Saving (P : ImplementationSandboxAttempt → Prop) (o : Op) : Prop where
  lease : ¬ touchesLease o
  saves : ∀ attempt, o = .saveImplementationSandbox attempt → P attempt

/-- Saves only attempts of the core. -/
abbrev Quiet (c : ImplementationSandboxAttempt) (V : Set (List TestExecution)) : Op → Prop :=
  Saving (HasCore c V)

theorem Saving.mono {o : Op} (h : Saving P o) (hP : ∀ attempt, P attempt → P' attempt) :
    Saving P' o :=
  ⟨h.lease, fun a ha => hP a (h.saves a ha)⟩

theorem HasCore.mono {attempt : ImplementationSandboxAttempt} (h : HasCore c V attempt)
    (hV : V ⊆ V') : HasCore c V' attempt :=
  ⟨h.core, hV h.recorded⟩

/-- The attempt in memory has the core. -/
def InCore (c : ImplementationSandboxAttempt) (V : Set (List TestExecution)) (l : Locals) : Prop :=
  HasCore c V l.attempt

/-- A block that stays within the core. -/
abbrev Within {α : Type} (c : ImplementationSandboxAttempt) (V : Set (List TestExecution))
    (x : PromotionAct α) : Prop :=
  Act.Confined (Quiet c V) (InCore c V) x

theorem frame_quiet : Frame (Quiet c V) (InCore c V) ProgressOnly where
  reads o ho := ⟨by cases o <;> simp_all [looks, touchesLease], by intro a h; subst h; exact ho.elim⟩
  executes command timeout := ⟨id, by intro a h; cases h⟩
  replaces target content := ⟨id, by intro a h; cases h⟩
  saves l hl := ⟨id, by intro a h; cases h; exact hl⟩
  others l l' h hl := by
    unfold InCore
    rw [h]
    exact hl
  updates f hf l hl := ⟨(hf.core l.attempt).trans hl.core, (hf.recorded l.attempt).symm ▸ hl.recorded⟩

/-! ## The validations -/

/-- A block that runs one command and appends its result to the recorded ones. -/
def RecordsOne (c : ImplementationSandboxAttempt) (f : List String → PromotionAct Unit) : Prop :=
  ∀ V v command l, v ∈ V → (∀ code, v ++ [⟨command, code⟩] ∈ V) → InCore c {v} l →
    (f command).wp (anyReply (Quiet c V)) (fun r l' _ => InCore c V l' ∧
      (r = .ok () → ∃ code, InCore c {v ++ [⟨command, code⟩]} l')) l ()

theorem hasCore_append {attempt : ImplementationSandboxAttempt} {v : List TestExecution}
    (hc : c.promotion ≠ none) (h : HasCore c {v} attempt) (execution : TestExecution) :
    HasCore c {v ++ [execution]} (attempt.onPromotion fun promotion =>
      { promotion with validations := promotion.validations ++ [execution] }) := by
  obtain ⟨hcore, hrecorded⟩ := h
  cases hp : attempt.promotion with
  | none => exact absurd (by simp [← hcore, core, hp]) hc
  | some promotion =>
    refine ⟨?_, ?_⟩
    · rw [← hcore]
      simp [core, ImplementationSandboxAttempt.onPromotion, hp, promotionCore]
    · have : promotion.validations = v := by simpa [recorded, hp] using hrecorded
      simp [recorded, ImplementationSandboxAttempt.onPromotion, hp, this]

/-- A block within the core, run where the recorded validations are known. -/
theorem Within.at {α : Type} {x : PromotionAct α} {v : List TestExecution} (h : Within c {v} x)
    (hv : v ∈ V) {l : Locals} (hl : InCore c {v} l) :
    x.wp (anyReply (Quiet c V)) (fun _ l' _ => InCore c {v} l') l () :=
  Act.Confined.mono h (fun _ ho => ho.mono fun _ ha => ha.mono (Set.singleton_subset_iff.mpr hv)) l () hl

theorem execute_spec {L : Type} (l : L) (command : List String) (timeout : Int) :
    (execute command timeout).wp (anyReply (Quiet c V))
      (fun r l' _ => l' = l ∧ ∀ execution, r = .ok execution → ∃ code, execution = ⟨command, code⟩)
      l () := by
  refine ⟨⟨id, by intro _ h; cases h⟩, fun reply => ?_⟩
  cases reply with
  | error e => exact ⟨rfl, fun _ h => by cases h⟩
  | ok code => exact ⟨rfl, fun _ h => by cases h; exact ⟨code, rfl⟩⟩

/-- Recording an execution, then anything within the core. -/
theorem record_then {v : List TestExecution} {command : List String} {code : Int}
    {tail : PromotionAct Unit} {l : Locals} (hc : c.promotion ≠ none)
    (hV : v ++ [⟨command, code⟩] ∈ V) (htail : Within c {v ++ [⟨command, code⟩]} tail)
    (hl : InCore c {v} l) :
    (updatePromotion (fun promotion => { promotion with
        validations := promotion.validations ++ [(⟨command, code⟩ : TestExecution)] }) >>=
      fun _ => tail).wp (anyReply (Quiet c V)) (fun r l' _ => InCore c V l' ∧
        (r = .ok () → ∃ code, InCore c {v ++ [⟨command, code⟩]} l')) l () := by
  refine Act.wp_set ?_
  have hnext := hasCore_append hc hl ⟨command, code⟩
  refine Act.wp_mono (htail.at (l := { l with attempt := _ }) hV hnext) fun r l' _ h => ?_
  exact ⟨h.mono (Set.singleton_subset_iff.mpr hV), fun _ => ⟨code, h⟩⟩

theorem recordsOne_validateOnce (host : SandboxHost) (remaining started : Int) (total : Nat)
    (hc : c.promotion ≠ none) : RecordsOne c (validateOnce host remaining started total) := by
  intro V v command l hv hcodes hl
  have hVl : InCore c V l := hl.mono (Set.singleton_subset_iff.mpr hv)
  refine Act.wp_op ⟨frame_quiet.reads _ trivial, fun now => ?_⟩
  refine Act.wp_check (fun _ => ?_) fun _ => And.intro hVl fun h => by cases h
  refine Act.wp_seq (execute_spec l command _) (fun execution l' _ h => ?_) fun e l' _ h => ?_
  · obtain ⟨rfl, hexecution⟩ := h
    obtain ⟨code, rfl⟩ := hexecution execution rfl
    refine record_then hc (hcodes code) ?_ hl
    refine frame_quiet.currentAttempt.bind fun _ => ?_
    refine (frame_quiet.journalCheckpoint _ _).bind fun _ => ?_
    exact frame_quiet.looking (looks_injectFault _)
  · obtain ⟨rfl, -⟩ := h
    exact ⟨hVl, fun h => by cases h⟩

theorem recordsOne_validateRecovered (host : SandboxHost) (ticket : ProjectTicket) (started : Int)
    (hc : c.promotion ≠ none) : RecordsOne c (validateRecovered host ticket started) := by
  intro V v command l hv hcodes hl
  have hVl : InCore c V l := hl.mono (Set.singleton_subset_iff.mpr hv)
  refine Act.wp_op ⟨frame_quiet.reads _ trivial, fun now => ?_⟩
  refine Act.wp_check (fun _ => ?_) fun _ => And.intro hVl fun h => by cases h
  refine Act.wp_seq (execute_spec l command _) (fun execution l' _ h => ?_) fun e l' _ h => ?_
  · obtain ⟨rfl, hexecution⟩ := h
    obtain ⟨code, rfl⟩ := hexecution execution rfl
    exact record_then hc (hcodes code) (frame_quiet.journalCheckpoint _ _) hl
  · obtain ⟨rfl, -⟩ := h
    exact ⟨hVl, fun h => by cases h⟩

/-- A run of the commands appends their results, in order, as far as it gets. -/
theorem RecordsOne.forM {f : List String → PromotionAct Unit} (hf : RecordsOne c f)
    {commands : List (List String)} {v : List TestExecution} {l : Locals}
    (hV : ∀ d : List TestExecution, d.map (·.command) <+: commands → v ++ d ∈ V)
    (hl : InCore c {v} l) :
    (commands.forM f).wp (anyReply (Quiet c V)) (fun r l' _ => InCore c V l' ∧
      (r = .ok () → ∃ d : List TestExecution, d.map (·.command) = commands ∧
        InCore c {v ++ d} l')) l () := by
  refine Act.wp_forM (fun before l' _ => ∃ d : List TestExecution, d.map (·.command) = before ∧
    InCore c {v ++ d} l') ⟨[], rfl, by simpa using hl⟩ ?_ ?_
  · rintro before command after l' - hcommands ⟨d, rfl, hd⟩
    have hnow : v ++ d ∈ V := hV d (by simp [hcommands])
    have hnext : ∀ code, v ++ d ++ [⟨command, code⟩] ∈ V := by
      intro code
      have := hV (d ++ [⟨command, code⟩]) (by simp [hcommands])
      simpa using this
    refine Act.wp_mono (hf V (v ++ d) command l' hnow hnext hd) fun r l'' _ h => ?_
    cases r with
    | error e => exact ⟨h.1, fun h => by cases h⟩
    | ok u =>
      obtain ⟨code, hcode⟩ := h.2 rfl
      exact ⟨d ++ [⟨command, code⟩], by simp, by simpa using hcode⟩
  · rintro l' - ⟨d, hd, hcore⟩
    exact ⟨hcore.mono (Set.singleton_subset_iff.mpr (hV d (by simp [hd]))), fun _ => ⟨d, hd, hcore⟩⟩

/-- The rule of sequence for a first part within the core. -/
theorem Within.seq {α β : Type} {x : PromotionAct α} {f : α → PromotionAct β}
    {v : List TestExecution} {l : Locals} (hx : Within c {v} x) (hv : v ∈ V) (hl : InCore c {v} l)
    (hf : ∀ a l', InCore c {v} l' →
      (f a).wp (anyReply (Quiet c V)) (fun _ l'' _ => InCore c V l'') l' ()) :
    (x >>= f).wp (anyReply (Quiet c V)) (fun _ l' _ => InCore c V l') l () :=
  Act.wp_seq (hx.at hv hl) (fun a l' _ h => hf a l' h)
    fun _ _ _ h => h.mono (Set.singleton_subset_iff.mpr hv)

theorem quiet_validateApplied (host : SandboxHost) (p : Promotion) {commands : List (List String)}
    {v : List TestExecution} {l : Locals} (hc : c.promotion ≠ none)
    (hV : ∀ d : List TestExecution, d.map (·.command) <+: commands → v ++ d ∈ V)
    (hl : InCore c {v} l) :
    (validateApplied host p commands).wp (anyReply (Quiet c V)) (fun _ l' _ => InCore c V l') l
    () := by
  have hv : v ∈ V := by simpa using hV [] (by simp)
  refine Within.seq (frame_quiet.looking (looks_currentManifest host _ _)) hv hl fun applied l hl => ?_
  refine Within.seq (frame_quiet.updatePromotion (by intro; rfl) (by intro; rfl)) hv hl fun _ l hl => ?_
  refine Within.seq (frame_quiet.updateJournal (by intro; rfl)) hv hl fun _ l hl => ?_
  refine Within.seq (frame_quiet.promotionCheckpoint _ _) hv hl fun _ l hl => ?_
  refine Within.seq (frame_quiet.looking (looks_injectFault _)) hv hl fun _ l hl => ?_
  refine Within.seq (frame_quiet.updateJournal (by intro; rfl)) hv hl fun _ l hl => ?_
  refine Within.seq (frame_quiet.journalCheckpoint _ _) hv hl fun _ l hl => ?_
  refine Act.wp_seq ((recordsOne_validateOnce host _ _ _ hc).forM hV hl) (fun _ l _ h => ?_)
    fun _ _ _ h => h.1
  -- From here on any of the recorded lists will do.
  suffices hrest : Within c V _ from hrest l () h.1
  refine (frame_quiet.looking (looks_currentManifest host _ _)).bind fun _ => ?_
  refine frame_quiet.currentAttempt.bind fun _ => ?_
  refine (Act.keeps_require _ _).bind fun _ => ?_
  refine (frame_quiet.updatePromotion (by intro; rfl) (by intro; rfl)).bind fun _ => ?_
  refine (frame_quiet.updateAttempt ⟨by intro; rfl, by intro; rfl⟩).bind fun _ => ?_
  refine (frame_quiet.updateJournal (by intro; rfl)).bind fun _ => ?_
  refine (frame_quiet.journalCheckpoint _ _).bind fun _ => ?_
  exact frame_quiet.promotionCheckpoint _ _

theorem journal_of_hasCore {attempt : ImplementationSandboxAttempt} (h : HasCore c V attempt) :
    c.journal = attempt.journal.map journalCore := by
  rw [← h.core]
  cases hp : attempt.promotion <;>
    simp [core, ImplementationSandboxAttempt.journal, hp, promotionCore]

/-- The remaining commands of a finish are those of the journal. -/
theorem quiet_finishRecoveredApplication (host : SandboxHost) (root : String) (started : Int)
    {v : List TestExecution} {l : Locals} (hc : c.promotion ≠ none) (hv : v ∈ V)
    (hV : ∀ journal, c.journal = some journal → ∀ d : List TestExecution,
      d.map (·.command) <+: journal.validationCommands.drop v.length → v ++ d ∈ V)
    (hl : InCore c {v} l) :
    (finishRecoveredApplication host root started).wp (anyReply (Quiet c V))
      (fun _ l' _ => InCore c V l') l () := by
  have hsub : ({v} : Set _) ⊆ V := Set.singleton_subset_iff.mpr hv
  refine Within.seq frame_quiet.currentAttempt hv hl fun attempt l hl => ?_
  rw [Act.wp_bind]
  refine wp_currentJournal (fun journal hjournal => ?_) fun _ _ => hl.mono hsub
  have hcommands := hV (journalCore journal) (by simp [journal_of_hasCore hl, hjournal])
  rw [Act.onOk_ok]
  refine Within.seq (frame_quiet.looking (looks_ask _)) hv hl fun _ l hl => ?_
  refine Within.seq (frame_quiet.looking (looks_currentManifest host _ _)) hv hl fun _ l hl => ?_
  refine Within.seq (Act.keeps_require _ _) hv hl fun _ l hl => ?_
  refine Within.seq (frame_quiet.updateJournal (by intro; rfl)) hv hl fun _ l hl => ?_
  refine Within.seq (frame_quiet.looking (looks_checkBudget host _)) hv hl fun ticket l hl => ?_
  have hrecorded : l.attempt.promotion.elim [] (·.validations) = v := hl.recorded
  rw [Act.wp_bind, wp_recordedValidations, Act.onOk_ok, hrecorded]
  refine Act.wp_seq ((recordsOne_validateRecovered host _ _ hc).forM hcommands hl)
    (fun _ l _ h => ?_) fun _ _ _ h => h.1
  suffices hrest : Within c V _ from hrest l () h.1
  refine frame_quiet.recordedValidations.bind fun _ => ?_
  refine (Act.keeps_require _ _).bind fun _ => ?_
  refine Act.Keeps.ite ?_ ?_
  · refine frame_quiet.currentAttempt.bind fun _ => ?_
    refine frame_quiet.currentJournal.bind fun _ => ?_
    refine (frame_quiet.looking (looks_look _)).bind fun _ => ?_
    exact frame_quiet.rollbackFromJournal host root _
  · refine (frame_quiet.looking (looks_currentManifest host _ _)).bind fun _ => ?_
    refine (Act.keeps_require _ _).bind fun _ => ?_
    exact frame_quiet.concludeRecovered _

/-- The classification and what follows it. -/
theorem quiet_resumePromotion (host : SandboxHost) (root stage : String) (started : Int)
    {v : List TestExecution} {l : Locals} (hc : c.promotion ≠ none) (hv : v ∈ V)
    (hV : ∀ journal, c.journal = some journal → ∀ d : List TestExecution,
      d.map (·.command) <+: journal.validationCommands.drop v.length → v ++ d ∈ V)
    (hl : InCore c {v} l) :
    (resumePromotion host root stage started).wp (anyReply (Quiet c V))
      (fun _ l' _ => InCore c V l') l () := by
  refine Within.seq frame_quiet.currentAttempt hv hl fun attempt l hl => ?_
  refine Within.seq frame_quiet.currentJournal hv hl fun journal l hl => ?_
  refine Within.seq (frame_quiet.looking (looks_look _)) hv hl fun paths l hl => ?_
  refine Within.seq (frame_quiet.looking (looks_look _)) hv hl fun states l hl => ?_
  refine Within.seq (Act.keeps_require _ _) hv hl fun _ l hl => ?_
  split
  · exact quiet_finishRecoveredApplication host root started hc hv hV hl
  · refine Act.wp_mono (Within.at (frame_quiet.rollbackFromJournal host root paths) hv hl) ?_
    exact fun _ _ _ h => h.mono (Set.singleton_subset_iff.mpr hv)

end RlmGraph.Sandbox.Confinement
