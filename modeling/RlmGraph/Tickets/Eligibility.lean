import RlmGraph.Lib.Results
import RlmGraph.Tickets.Evidence

/-! # Which sandbox evidence is eligible

The chain of conditions on an artifact of a sandbox attempt, read as one
predicate (`Accepted`), and the last condition apart: the manifest of the
project as it is now must be the one recorded at the end of the promotion, if
it can be computed at all. Where it cannot be computed the artifact stays
eligible (`evidence_current_iff`). -/
namespace RlmGraph.Tickets.Eligibility
open RlmGraph.Lib RlmGraph.Lib.Results
open RlmGraph.Governance.Policy RlmGraph.Governance.ArtifactKinds
open RlmGraph.Sandbox.Operations (SandboxHost manifestOf indexedProjectFingerprint manifestEntries
  fileContentHash readFile)
open RlmGraph.Sandbox.Records (Files)
open RlmGraph.Tickets.Evidence

/-! ## Reasons -/

@[simp] theorem firstReason_nil : firstReason [] = "" := rfl

@[simp] theorem firstReason_cons (met : Bool) (text : String) (checks : List (Bool × String)) :
    firstReason ((met, text) :: checks) = if met then text else firstReason checks := by
  cases met <;> rfl

@[simp] theorem given_none : given none = false := rfl

@[simp] theorem assessment_eligible {evidenceId artifactType reason : String}
    {ticketId projectId status sourceManifest patchSha : Option String} :
    (assessment evidenceId artifactType ticketId projectId status reason sourceManifest
      patchSha).eligible = true ↔ reason = "" := by
  simp [assessment]

theorem scopeReason_iff {ticket : TicketRecord} {ticketId projectId : Option String} :
    scopeReason ticket ticketId projectId = "" ↔
      ticketId = some ticket.id ∧ projectId = some ticket.projectId := by
  unfold scopeReason
  by_cases hticket : ticketId = some ticket.id <;>
    by_cases hproject : projectId = some ticket.projectId <;> simp [hticket, hproject, toString]

/-! ## What is accepted -/

/-- A promoted attempt whose promotion succeeded and was reconciled. -/
def Reconciled (attempt : SandboxEvidence) : Prop :=
  attempt.status = "PROMOTED" ∧ attempt.promoted = true ∧ attempt.reconciled = true

theorem attemptReason_iff {host : SandboxHost} {attempt : SandboxEvidence} :
    attemptReason host attempt = "" ↔ Reconciled attempt := by
  unfold attemptReason Reconciled terminalBad
  by_cases hstatus : attempt.status = "PROMOTED"
  · cases hpromoted : attempt.promoted <;> cases hreconciled : attempt.reconciled <;> simp [hstatus]
  · by_cases hready : attempt.status = "READY_FOR_REVIEW"
    · simp [hready]
    · simp [hstatus, hready]
      split <;> simp [toString]

/-- The conditions on an artifact, given those on what it is linked to. -/
def SoundArtifact (attempt : SandboxEvidence) (linked : String → Prop) : SandboxArtifact → Prop
  | .attempt => given attempt.patchSha256 = true ∧ attempt.changes ≠ []
  | .decision decision =>
    (decision.status = "PASSED" ∨ decision.status = "SATISFIED") ∧
      ∀ link, SandboxValidationDecision.link decision = some link → linked link.1
  | .worker execution =>
    execution.status = "PASSED" ∧ execution.sourceManifestSha256 = attempt.initialManifestSha256 ∧
      some execution.patchSha256 = attempt.patchSha256
  | .report report =>
    report.status = "PASSED" ∧ report.sourceManifestSha256 = attempt.initialManifestSha256 ∧
      some report.patchSha256 = attempt.patchSha256
  | .promotion promotion => promotion.status = "PROMOTED"
  | .reconciliation reconciliation =>
    reconciliation.status = "RECONCILED" ∧ reconciliation.sourceUnchangedDuringReconciliation = true

/-- The artifact belongs to the ticket, its attempt was promoted and
reconciled, and it is sound itself. -/
def Accepted (ticket : TicketRecord) (attempt : SandboxEvidence) : Nat → String → Prop
  | 0, _ => False
  | depth + 1, evidenceId =>
    attempt.ticketId = ticket.id ∧ attempt.projectId = ticket.projectId ∧ Reconciled attempt ∧
      ∃ artifact, attempt.artifact evidenceId = some artifact ∧
        SoundArtifact attempt (Accepted ticket attempt depth) artifact

/-- The manifest of the project, if it can be computed, is the recorded one. -/
def ManifestHolds (host : SandboxHost) (tree : ProjectTree) (store : TicketStore)
    (ticket : TicketRecord) (attempt : SandboxEvidence) : Prop :=
  given (currentProjectManifest host tree store ticket) = true →
    attempt.expectedManifest = currentProjectManifest host tree store ticket

section
variable {host : SandboxHost} {tree : ProjectTree} {store : TicketStore} {ticket : TicketRecord}
  {attempt : SandboxEvidence} {depth : Nat} {evidenceId : String}

theorem currentReason_iff (hreconciled : Reconciled attempt) :
    currentReason host tree store ticket attempt = "" ↔
      ManifestHolds host tree store ticket attempt := by
  unfold currentReason ManifestHolds
  simp only [hreconciled.1]
  cases given (currentProjectManifest host tree store ticket) <;> simp

theorem bindingReport_iff {status sourceManifest patchSha what : String} :
    (bindingReport attempt status sourceManifest patchSha what).reason = "" ↔
      status = "PASSED" ∧ sourceManifest = attempt.initialManifestSha256 ∧
        some patchSha = attempt.patchSha256 := by
  unfold bindingReport
  by_cases hstatus : status = "PASSED" <;>
    by_cases hmanifest : sourceManifest = attempt.initialManifestSha256 <;>
    by_cases hpatch : some patchSha = attempt.patchSha256 <;>
    simp [hstatus, hmanifest, hpatch, toString]

/-- The linked artifact of an accepted decision is eligible itself. -/
theorem decision_iff {decision : SandboxValidationDecision}
    {linked : String → Except PyError (Option TicketEvidenceAssessment)} {accepted : String → Prop}
    {holds : Prop} (hlinked : ∀ evidenceId,
      (∃ a, linked evidenceId = .ok (some a) ∧ a.eligible = true) ↔ accepted evidenceId ∧ holds) :
    ((∃ report, artifactReport attempt linked (.decision decision) = .ok report ∧
        report.reason = "") ∧ holds) ↔
      SoundArtifact attempt accepted (.decision decision) ∧ holds := by
  simp only [artifactReport, SoundArtifact]
  refine and_congr_left fun hholds => ?_
  by_cases hstatus : decision.status = "PASSED" ∨ decision.status = "SATISFIED"
  · rw [if_neg (by rcases hstatus with h | h <;> simp [h])]
    cases hlink : SandboxValidationDecision.link decision with
    | none => simp [hstatus]
    | some link =>
      obtain ⟨evidenceId, reason⟩ := link
      have hreason : reason ≠ "" := by
        unfold SandboxValidationDecision.link at hlink
        split at hlink
        · cases hexecution : decision.workerExecutionId <;> simp [hexecution] at hlink
          simp [← hlink.2]
        · split at hlink
          · cases hreport : decision.externalReportId <;> simp [hreport] at hlink
            simp [← hlink.2]
          · cases hlink
      have haccepted := hlinked evidenceId
      simp only [hholds, and_true] at haccepted
      simp only [hstatus, true_and, Option.some.injEq, forall_eq']
      rw [← haccepted]
      cases hfound : linked evidenceId with
      | error e => simp [bind, Except.bind]
      | ok found =>
        cases found with
        | none => simp [bind, Except.bind, pure, Except.pure, hreason]
        | some a =>
          cases ha : a.eligible <;> simp [bind, Except.bind, pure, Except.pure, ha, hreason]
  · rw [if_pos (by simpa using hstatus)]
    simp [hstatus, toString]

/-- The conditions of the code are those of the predicate. -/
theorem artifactReport_iff
    {linked : String → Except PyError (Option TicketEvidenceAssessment)} {accepted : String → Prop}
    {holds : Prop} (hreconciled : Reconciled attempt) (hlinked : ∀ evidenceId,
      (∃ a, linked evidenceId = .ok (some a) ∧ a.eligible = true) ↔ accepted evidenceId ∧ holds)
    (artifact : SandboxArtifact) :
    ((∃ report, artifactReport attempt linked artifact = .ok report ∧ report.reason = "") ∧ holds) ↔
      SoundArtifact attempt accepted artifact ∧ holds := by
  cases artifact with
  | decision decision => exact decision_iff hlinked
  | attempt =>
    refine and_congr_left fun _ => ?_
    unfold artifactReport SoundArtifact
    cases given attempt.patchSha256 <;> cases hchanges : attempt.changes <;> simp [hreconciled.1]
  | worker execution =>
    refine and_congr_left fun _ => ?_
    unfold artifactReport SoundArtifact
    simp [bindingReport_iff]
  | report report =>
    refine and_congr_left fun _ => ?_
    unfold artifactReport SoundArtifact
    simp [bindingReport_iff]
  | promotion promotion =>
    refine and_congr_left fun _ => ?_
    unfold artifactReport SoundArtifact
    by_cases hstatus : promotion.status = "PROMOTED" <;> simp [hstatus, toString]
  | reconciliation reconciliation =>
    refine and_congr_left fun _ => ?_
    unfold artifactReport SoundArtifact
    by_cases hstatus : reconciliation.status = "RECONCILED" <;>
      cases reconciliation.sourceUnchangedDuringReconciliation <;> simp [hstatus]

/-- **Eligible artifacts** of an attempt are the accepted ones, as long as the
manifest holds. -/
theorem assessSandboxArtifact_iff :
    (∃ a, assessSandboxArtifact host tree store ticket attempt depth evidenceId = .ok (some a) ∧
        a.eligible = true) ↔
      Accepted ticket attempt depth evidenceId ∧ ManifestHolds host tree store ticket attempt := by
  induction depth generalizing evidenceId with
  | zero => simp [assessSandboxArtifact, Accepted]
  | succ depth ih =>
    unfold assessSandboxArtifact Accepted
    cases hartifact : attempt.artifact evidenceId with
    | none => simp
    | some artifact =>
      simp only
      by_cases hscope : attempt.ticketId = ticket.id ∧ attempt.projectId = ticket.projectId
      swap
      · have hreason : scopeReason ticket (some attempt.ticketId) (some attempt.projectId) ≠ "" := by
          rw [ne_eq, scopeReason_iff]
          simpa using hscope
        simp only [firstReason_cons, bne_iff_ne, ne_eq, hreason, not_false_iff, ite_true, ite_false,
          bind, Except.bind, pure, Except.pure]
        constructor
        · rintro ⟨a, ha, heligible⟩
          obtain rfl := Option.some.inj (Except.ok.inj ha)
          exact absurd (assessment_eligible.mp heligible) hreason
        · rintro ⟨⟨hid, hproject, -⟩, -⟩
          exact absurd ⟨hid, hproject⟩ hscope
      by_cases hreconciled : Reconciled attempt
      swap
      · have hreason : attemptReason host attempt ≠ "" := mt attemptReason_iff.mp hreconciled
        have hscoped : scopeReason ticket (some attempt.ticketId) (some attempt.projectId) = "" :=
          scopeReason_iff.mpr ⟨congrArg some hscope.1, congrArg some hscope.2⟩
        simp only [firstReason_cons, bne_iff_ne, ne_eq, hscoped, hreason, not_false_iff, ite_true,
          not_true, ite_false, bind, Except.bind, pure, Except.pure]
        constructor
        · rintro ⟨a, ha, heligible⟩
          obtain rfl := Option.some.inj (Except.ok.inj ha)
          exact absurd (assessment_eligible.mp heligible) hreason
        · rintro ⟨⟨-, -, h, -⟩, -⟩
          exact absurd h hreconciled
      have hscoped : scopeReason ticket (some attempt.ticketId) (some attempt.projectId) = "" :=
        scopeReason_iff.mpr ⟨congrArg some hscope.1, congrArg some hscope.2⟩
      have hnoReason : attemptReason host attempt = "" := attemptReason_iff.mpr hreconciled
      simp only [firstReason_cons, firstReason_nil, hscoped, hnoReason, bne_self_eq_false,
        Bool.false_eq_true, ite_false, ite_true]
      simp only [hscope, hreconciled, true_and, Option.some.injEq, exists_eq_left']
      rw [← artifactReport_iff hreconciled (fun _ => ih) artifact, ← currentReason_iff hreconciled]
      cases hreport : artifactReport attempt
          (assessSandboxArtifact host tree store ticket attempt depth) artifact with
      | error e => simp [bind, Except.bind]
      | ok report =>
        by_cases hreason : report.reason = "" <;>
          simp [bind, Except.bind, pure, Except.pure, hreason]

/-! ## The attempt that knows the artifact -/

/-- The evidence is an artifact of the attempt and of no record before it. -/
structure Owner (store : TicketStore) (evidenceId : String) (attempt : SandboxEvidence) : Prop where
  record : store.records evidenceId = none
  validation : store.validations evidenceId = none
  first : store.sandboxes.find? (fun item => (item.artifact evidenceId).isSome) = some attempt

theorem assessSandboxArtifact_other (h : attempt.artifact evidenceId = none) :
    assessSandboxArtifact host tree store ticket attempt (depth + 1) evidenceId = .ok none := by
  simp [assessSandboxArtifact, h]

theorem assessSandboxArtifact_known (h : (attempt.artifact evidenceId).isSome = true)
    {found : Option TicketEvidenceAssessment}
    (hassess : assessSandboxArtifact host tree store ticket attempt depth evidenceId = .ok found) :
    found.isSome = true := by
  cases depth with
  | zero => cases hassess
  | succ depth =>
    obtain ⟨artifact, hartifact⟩ := Option.isSome_iff_exists.mp h
    simp only [assessSandboxArtifact, hartifact] at hassess
    split at hassess <;> obtain ⟨report, -, hassess⟩ := bind_ok hassess <;>
      obtain rfl := Except.ok.inj hassess <;> rfl

/-- The loop over the attempts ends at the first that knows the artifact. -/
theorem assessAttempts_first {attempts : List SandboxEvidence}
    (h : attempts.find? (fun item => (item.artifact evidenceId).isSome) = some attempt) :
    assessAttempts (assessSandboxArtifact host tree store ticket · (depth + 1) evidenceId) attempts =
      assessSandboxArtifact host tree store ticket attempt (depth + 1) evidenceId := by
  induction attempts with
  | nil => cases h
  | cons item attempts ih =>
    rw [List.find?_cons] at h
    unfold assessAttempts
    split at h
    · rename_i hknown
      obtain rfl := Option.some.inj h
      cases hassess : assessSandboxArtifact host tree store ticket item (depth + 1) evidenceId with
      | error e => rfl
      | ok found =>
        show (if found.isSome then _ else _) = _
        rw [if_pos (assessSandboxArtifact_known hknown hassess)]
        rfl
    · rename_i hunknown
      rw [assessSandboxArtifact_other (by simpa using hunknown)]
      exact ih h

theorem assessEvidence_owner (howner : Owner store evidenceId attempt) :
    (∃ a, assessEvidence host tree store ticket (depth + 1) evidenceId = .ok a ∧ a.eligible = true) ↔
      ∃ a, assessSandboxArtifact host tree store ticket attempt depth evidenceId = .ok (some a) ∧
        a.eligible = true := by
  simp only [assessEvidence, howner.record, howner.validation]
  cases depth with
  | zero =>
    obtain ⟨attempts, hattempts⟩ : ∃ attempts, store.sandboxes = attempts := ⟨_, rfl⟩
    cases attempts with
    | nil =>
      have hfirst := howner.first
      rw [hattempts] at hfirst
      cases hfirst
    | cons item attempts =>
      simp [hattempts, assessAttempts, assessSandboxArtifact, bind, Except.bind]
  | succ depth =>
    rw [assessAttempts_first howner.first]
    cases hassess : assessSandboxArtifact host tree store ticket attempt (depth + 1) evidenceId with
    | error e => simp [bind, Except.bind]
    | ok found =>
      have hknown : found.isSome = true :=
        assessSandboxArtifact_known (by simpa using List.find?_some howner.first) hassess
      obtain ⟨a, rfl⟩ := Option.isSome_iff_exists.mp hknown
      simp [bind, Except.bind, pure, Except.pure]

/-! ## Current evidence -/

/-- The attempt was promoted and reconciled, and the manifest of the project
computed now is the one recorded at the end of the promotion. -/
def Current (host : SandboxHost) (tree : ProjectTree) (store : TicketStore) (ticket : TicketRecord)
    (attempt : SandboxEvidence) : Prop :=
  Reconciled attempt ∧ ∃ promotion, attempt.promotion = some promotion ∧
    ∃ manifest, currentProjectManifest host tree store ticket = some manifest ∧
      promotion.finalManifestSha256 = some manifest

theorem expectedManifest_reconciled (h : Reconciled attempt) :
    ∃ promotion, attempt.promotion = some promotion ∧
      attempt.expectedManifest = promotion.finalManifestSha256 := by
  obtain ⟨hstatus, hpromoted, -⟩ := h
  unfold SandboxEvidence.promoted at hpromoted
  cases hpromotion : attempt.promotion with
  | none => simp [hpromotion] at hpromoted
  | some promotion =>
    exact ⟨promotion, rfl, by simp [SandboxEvidence.expectedManifest, hpromotion, hstatus]⟩

/-- A manifest is a digest. -/
theorem currentProjectManifest_ne (hdigest : ∀ bytes, host.sha256 bytes ≠ "") :
    currentProjectManifest host tree store ticket ≠ some "" := by
  intro h
  unfold currentProjectManifest manifestOf at h
  simp only at h
  split at h
  · cases h
  · cases hentries : manifestEntries host (host.resolve ticket.projectRoot) tree.files
        (store.projectFiles ticket.projectId) with
    | error e => simp [hentries, bind, Except.bind, Except.toOption] at h
    | ok entries =>
      simp [hentries, bind, Except.bind, pure, Except.pure, Except.toOption,
        indexedProjectFingerprint, hdigest] at h

/-- **Eligible only while the project is unchanged.** The evidence of an
attempt is eligible only with the manifest of the project as it was recorded at
the end of the promotion, if and only if the manifest can be computed or the
evidence is refused for another reason. -/
theorem evidence_current_iff (howner : Owner store evidenceId attempt)
    (hdigest : ∀ bytes, host.sha256 bytes ≠ "") :
    ((∃ a, assessEvidence host tree store ticket (depth + 1) evidenceId = .ok a ∧
        a.eligible = true) → Current host tree store ticket attempt) ↔
      (currentProjectManifest host tree store ticket ≠ none ∨
        ¬ Accepted ticket attempt depth evidenceId) := by
  rw [assessEvidence_owner howner, assessSandboxArtifact_iff]
  constructor
  · intro h
    by_contra hnot
    obtain ⟨hnone, haccepted⟩ := not_or.mp hnot
    rw [not_not] at hnone haccepted
    obtain ⟨-, promotion, -, manifest, hmanifest, -⟩ :=
      h ⟨haccepted, fun hgiven => by simp [hnone] at hgiven⟩
    rw [hnone] at hmanifest
    cases hmanifest
  · rintro hcomputed ⟨haccepted, hholds⟩
    obtain ⟨manifest, hmanifest⟩ :=
      Option.ne_none_iff_exists'.mp (hcomputed.resolve_right (not_not.mpr haccepted))
    have hreconciled : Reconciled attempt := by
      cases depth with
      | zero => exact haccepted.elim
      | succ depth => exact haccepted.2.2.1
    obtain ⟨promotion, hpromotion, hexpected⟩ := expectedManifest_reconciled hreconciled
    refine ⟨hreconciled, promotion, hpromotion, manifest, hmanifest, ?_⟩
    have htext : currentProjectManifest host tree store ticket ≠ some "" :=
      currentProjectManifest_ne hdigest
    rw [← hexpected, hholds, hmanifest]
    rw [hmanifest] at htext ⊢
    simpa [given] using htext

end

/-! ## A deleted file -/

/-- A host without commands and without faults. -/
theorem resolve_plain (path : String) : id (id path) = id path := rfl

def plainHost : SandboxHost where
  text := ⟨id, id, id⟩
  resolve := id
  commonPath := fun _ _ => none
  sha256 := fun bytes => s!"digest of {bytes.length} bytes"
  resolve_idem := resolve_plain
  isoformat := toString
  join := fun root path => root ++ "/" ++ path
  isAbsolute := fun _ => false
  parts := fun path => [path]
  isRelativeTo := fun _ _ => true
  b64decode := fun _ => none
  executable := "python"
  validationTimeout := 60000000
  execute := fun _ _ _ files => (.ok 0, files)
  replaceFault := fun _ => none
  faultInjector := fun _ _ => none
  perfCounter := fun _ => 0
  elapsed := fun _ => 1
  newId := toString

def reviewedTicket : TicketRecord where
  id := "ticket"
  projectId := "project"
  projectRoot := "root"
  budget := {}
  usage := ⟨0, 0, 0, 0, 0⟩

def promotedAttempt : SandboxEvidence where
  id := "attempt"
  ticketId := "ticket"
  planRecordId := "plan"
  projectId := "project"
  projectRoot := "root"
  status := "PROMOTED"
  authorizedPaths := ["main.py"]
  changes := []
  patchSha256 := none
  validationDecisions := []
  validationWorkerExecutions := []
  externalValidationReports := []
  promotion := some ⟨"promotion", "PROMOTED", some "recorded",
    some { id := "reconciliation", newManifestSha256 := "recorded" }⟩
  initialManifestSha256 := "initial"
  finalManifestSha256 := none
  originalUnchanged := true
  createdAt := 0

def promotedStore : TicketStore where
  projects := []
  executionMode := fun _ => .guarded
  policies := fun _ => none
  tickets := [reviewedTicket]
  records := fun _ => none
  validations := fun _ => none
  sandboxes := [promotedAttempt]
  ticketEvents := []
  projectFiles := fun _ => ["main.py"]

theorem promotion_owner : Owner promotedStore "promotion" promotedAttempt :=
  ⟨rfl, rfl, by simp [promotedStore, promotedAttempt, SandboxEvidence.artifact]⟩

theorem promotion_accepted : Accepted reviewedTicket promotedAttempt 1 "promotion" := by
  have hartifact : promotedAttempt.artifact "promotion" = promotedAttempt.promotion.map .promotion := by
    simp [SandboxEvidence.artifact, promotedAttempt]
  refine ⟨rfl, rfl, ⟨rfl, ?_, ?_⟩, _, hartifact, rfl⟩
  · simp [SandboxEvidence.promoted, promotedAttempt]
  · simp [SandboxEvidence.reconciled, promotedAttempt]

/-- The project with its file. -/
def completeTree : ProjectTree where
  files := fun _ => some ⟨[], 0⟩
  present := fun _ => true

theorem evidence_current_complete :
    currentProjectManifest plainHost completeTree promotedStore reviewedTicket ≠ none ∧
    ((∃ a, assessEvidence plainHost completeTree promotedStore reviewedTicket 2 "promotion" = .ok a ∧
      a.eligible = true) →
      Current plainHost completeTree promotedStore reviewedTicket promotedAttempt) := by
  have hmanifest : currentProjectManifest plainHost completeTree promotedStore reviewedTicket ≠ none := by
    simp [currentProjectManifest, completeTree, plainHost, promotedStore, manifestOf,
      manifestEntries, fileContentHash, readFile, bind, Except.bind, pure, Except.pure,
      Except.toOption]
  exact ⟨hmanifest, (evidence_current_iff promotion_owner fun bytes => by simp [plainHost]).mpr (Or.inl hmanifest)⟩

/-- The project after its file was deleted. -/
def deletedTree : ProjectTree where
  files := fun _ => none
  present := fun path => path == "root"

/-- **Deleted file.** The promotion of a project whose file was deleted since
is still eligible. -/
theorem eligible_after_deletion :
    (∃ a, assessEvidence plainHost deletedTree promotedStore reviewedTicket 2 "promotion" = .ok a ∧
      a.eligible = true) ∧
      ¬ Current plainHost deletedTree promotedStore reviewedTicket promotedAttempt := by
  have hnone : currentProjectManifest plainHost deletedTree promotedStore reviewedTicket = none := by
    simp [currentProjectManifest, deletedTree, plainHost, promotedStore, manifestOf,
      manifestEntries, fileContentHash, readFile, bind, Except.bind, Except.toOption,
      reviewedTicket]
  constructor
  · rw [assessEvidence_owner promotion_owner, assessSandboxArtifact_iff]
    exact ⟨promotion_accepted, fun hgiven => by simp [hnone] at hgiven⟩
  · rintro ⟨-, _, -, manifest, hmanifest, -⟩
    rw [hnone] at hmanifest
    cases hmanifest

end RlmGraph.Tickets.Eligibility
