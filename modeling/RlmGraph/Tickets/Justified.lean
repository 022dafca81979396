import RlmGraph.Tickets.Manager

/-! # Satisfied tickets

The gate of a transition makes sure that a ticket is justified when it becomes
satisfied or closed: every criterion is resolved and every dependency closed.
Nothing looks at it afterwards. So it stays justified in every run that does not
itself take the ground away: that sets no criterion of a closed ticket back to
pending, and reopens no ticket that a closed one depends on
(`closed_justified`). New artifacts take nothing away (`Eligible.extends`). -/
namespace RlmGraph.Tickets.Justified
open RlmGraph.Lib RlmGraph.Lib.PyText RlmGraph.Lib.Results RlmGraph.Lib.Rows
open RlmGraph.Governance.Policy
open RlmGraph.Sandbox.Operations (SandboxHost)
open RlmGraph.Tickets.Evidence RlmGraph.Tickets.Eligibility RlmGraph.Tickets.Manager

/-! ## Runs -/

inductive Operation where
  | create (req : TicketRequest) (ticketId policyId : String) (criterionId : Nat → String)
      (currentClaims : List String → Except PyError Unit)
  | transition (ticketId status actor reason : String)
  | resolveCriterion (now : String) (req : CriterionRequest)
  | recordValidation (resultId : String) (req : ValidationRequest)
  | approvePlan (ticketId planRecordId actor detail : String)
  | attachSandboxAttempt (ticketId : String) (attempt : SandboxEvidence)
  | attachWorkspaceRecord (ticketId : String) (record : ProjectWorkspaceRecord)

/-- The store after an operation, whatever it returned or raised. -/
def after (env : Surroundings) : Operation → TicketStore → TicketStore
  | .create req ticketId policyId criterionId currentClaims, store =>
    (create env.host req ticketId policyId criterionId currentClaims store).2
  | .transition ticketId status actor reason, store =>
    (transition env ticketId status actor reason store).2
  | .resolveCriterion now req, store => (resolveCriterion env now req store).2
  | .recordValidation resultId req, store => (recordValidation env resultId req store).2
  | .approvePlan ticketId planRecordId actor detail, store =>
    approvePlan ticketId planRecordId actor detail store
  | .attachSandboxAttempt ticketId attempt, store =>
    (attachSandboxAttempt env.host ticketId attempt store).2
  | .attachWorkspaceRecord ticketId record, store =>
    (attachWorkspaceRecord env.host ticketId record store).2

/-- An artifact of the store has the identifier. -/
def Known (store : TicketStore) (evidenceId : String) : Prop :=
  (store.records evidenceId).isSome = true ∨ (store.validations evidenceId).isSome = true ∨
    ∃ attempt ∈ store.sandboxes, (attempt.artifact evidenceId).isSome = true

/-- New tickets and artifacts have new identifiers. -/
def Operation.Fresh (store : TicketStore) : Operation → Prop
  | .create _ ticketId _ _ _ => ticketId ∉ store.tickets.map (·.id)
  | .recordValidation resultId _ => ¬ Known store resultId
  | .attachSandboxAttempt _ attempt =>
    ∀ evidenceId, (attempt.artifact evidenceId).isSome = true → ¬ Known store evidenceId
  | .attachWorkspaceRecord _ record => ¬ Known store record.id
  | _ => True

/-- Operations on a store that had no tickets, each of which meets a
condition. -/
inductive Run (env : Surroundings) (meets : TicketStore → Operation → Prop) : TicketStore → Prop
  | initial (store : TicketStore) (h : store.tickets = []) : Run env meets store
  | step {store : TicketStore} (op : Operation) (h : Run env meets store) (hfresh : op.Fresh store)
      (hmeets : meets store op) : Run env meets (after env op store)

/-- A satisfied or closed ticket. -/
def Closed (ticket : TicketRecord) : Prop := closing.contains ticket.status = true

instance (ticket : TicketRecord) : Decidable (Closed ticket) :=
  inferInstanceAs (Decidable (_ = _))

/-- The operation, if it is not refused, takes no ground from a closed ticket:
no criterion of one is set back to pending, and no ticket that one depends on is
reopened. -/
def KeepsGround (env : Surroundings) (store : TicketStore) : Operation → Prop
  | .transition ticketId status actor reason =>
    ∀ moved, (Manager.transition env ticketId status actor reason store).1 = .ok moved →
      closing.contains (upper env.host.text status) = false →
        ∀ t ∈ store.tickets, Closed t → t.id ≠ ticketId → ticketId ∉ t.dependencyTicketIds
  | .resolveCriterion now req =>
    ∀ changed, (Manager.resolveCriterion env now req store).1 = .ok changed →
      upper env.host.text req.status = "PENDING" →
        ∀ t ∈ store.tickets, t.id = req.ticketId → ¬ Closed t
  | _ => True

variable {env : Surroundings} {store store' : TicketStore} {ticket ticket' : TicketRecord}
  {attempt : SandboxEvidence} {depth : Nat} {evidenceId : String}

/-! ## Evidence that stays eligible -/

def Eligible (env : Surroundings) (store : TicketStore) (ticket : TicketRecord)
    (evidenceId : String) : Prop :=
  ∃ a, assess env store ticket evidenceId = .ok a ∧ a.eligible = true

/-- What evidence is judged by is the same in two rows of a ticket. -/
structure SameScope (ticket ticket' : TicketRecord) : Prop where
  id : ticket'.id = ticket.id
  projectId : ticket'.projectId = ticket.projectId
  projectRoot : ticket'.projectRoot = ticket.projectRoot

theorem SameScope.refl (ticket : TicketRecord) : SameScope ticket ticket := ⟨rfl, rfl, rfl⟩

/-- The second store has the artifacts of the first, and perhaps new ones. -/
structure Extends (store store' : TicketStore) : Prop where
  records : ∀ evidenceId, Known store evidenceId → store'.records evidenceId = store.records evidenceId
  validations : ∀ evidenceId, Known store evidenceId →
    store'.validations evidenceId = store.validations evidenceId
  attempts : ∀ evidenceId, Known store evidenceId →
    store'.sandboxes.find? (fun item => (item.artifact evidenceId).isSome) =
      store.sandboxes.find? (fun item => (item.artifact evidenceId).isSome)
  projectFiles : store'.projectFiles = store.projectFiles
  owners : ∀ ticketId projectId,
    (store.tickets.find? (·.id == ticketId)).map (·.projectId) = some projectId →
      (store'.tickets.find? (·.id == ticketId)).map (·.projectId) = some projectId

theorem scopeReason_same (hsame : SameScope ticket ticket') (ticketId projectId : Option String) :
    scopeReason ticket' ticketId projectId = scopeReason ticket ticketId projectId := by
  unfold scopeReason
  rw [hsame.id, hsame.projectId]

theorem SoundArtifact.mono {linked linked' : String → Prop} {artifact : SandboxArtifact}
    (h : SoundArtifact attempt linked artifact) (hlinked : ∀ id, linked id → linked' id) :
    SoundArtifact attempt linked' artifact := by
  cases artifact with
  | decision decision => exact ⟨h.1, fun link hlink => hlinked _ (h.2 link hlink)⟩
  | attempt => exact h
  | worker execution => exact h
  | report report => exact h
  | promotion promotion => exact h
  | reconciliation reconciliation => exact h

theorem Accepted.same (hsame : SameScope ticket ticket')
    (h : Accepted ticket attempt depth evidenceId) : Accepted ticket' attempt depth evidenceId := by
  induction depth generalizing evidenceId with
  | zero => exact h
  | succ depth ih =>
    obtain ⟨hid, hproject, hreconciled, artifact, hartifact, hsound⟩ := h
    exact ⟨hid.trans hsame.id.symm, hproject.trans hsame.projectId.symm, hreconciled, artifact,
      hartifact, SoundArtifact.mono hsound fun _ => ih⟩

theorem ManifestHolds.same (hsame : SameScope ticket ticket') (hextends : Extends store store')
    (h : ManifestHolds env.host env.tree store ticket attempt) :
    ManifestHolds env.host env.tree store' ticket' attempt := by
  have hmanifest : currentProjectManifest env.host env.tree store' ticket' =
      currentProjectManifest env.host env.tree store ticket := by
    unfold currentProjectManifest
    rw [hsame.projectRoot, hsame.projectId, hextends.projectFiles]
  unfold ManifestHolds
  rwa [hmanifest]

/-- An artifact found in an attempt is known there first. -/
theorem first_of_assessAttempts {a : TicketEvidenceAssessment} {attempts : List SandboxEvidence}
    (h : assessAttempts (assessSandboxArtifact env.host env.tree store ticket · depth evidenceId)
      attempts = .ok (some a)) :
    ∃ attempt, attempts.find? (fun item => (item.artifact evidenceId).isSome) = some attempt ∧
      assessSandboxArtifact env.host env.tree store ticket attempt depth evidenceId = .ok (some a) := by
  induction attempts with
  | nil => cases h
  | cons item attempts ih =>
    obtain ⟨found, hfound, h⟩ := bind_ok h
    rw [List.find?_cons]
    by_cases hknown : (item.artifact evidenceId).isSome = true
    · have hsome := assessSandboxArtifact_known hknown hfound
      rw [if_pos hsome] at h
      obtain rfl := Except.ok.inj h
      exact ⟨item, by rw [hknown], hfound⟩
    · have hnone : item.artifact evidenceId = none := by simpa using hknown
      cases depth with
      | zero => cases hfound
      | succ depth =>
        obtain rfl := Except.ok.inj ((assessSandboxArtifact_other hnone).symm.trans hfound)
        obtain ⟨attempt, hfirst, hassess⟩ := ih h
        exact ⟨attempt, by simpa [hnone] using hfirst, hassess⟩

/-- The project of the owner decides only where it is known. -/
theorem orText_owner {a b b' : Option String} {projectId : String}
    (h : orText a b = some projectId) (hb : ∀ p, b = some p → b' = some p) :
    orText a b' = some projectId := by
  unfold orText at *
  cases a with
  | none => exact hb projectId h
  | some s =>
    by_cases hs : s = ""
    · simp only [hs, if_true] at h ⊢
      exact hb projectId h
    · simpa [hs] using h

def validationProject (store : TicketStore) (validation : TicketValidationResult) : Option String :=
  orText validation.projectId
    ((store.tickets.find? (·.id == validation.ticketId)).map (·.projectId))

/-- A validation result is eligible with what it is linked to. -/
theorem validation_iff {validation : TicketValidationResult}
    (hrecord : store.records evidenceId = none)
    (hvalidation : store.validations evidenceId = some validation) :
    (∃ a, assessEvidence env.host env.tree store ticket (depth + 1) evidenceId = .ok a ∧
        a.eligible = true) ↔
      validationReason env.host ticket validation (validationProject store validation) = "" ∧
        (given validation.workspaceRecordId = true →
          ∃ a, assessEvidence env.host env.tree store ticket depth
            (validation.workspaceRecordId.getD "") = .ok a ∧ a.eligible = true) := by
  simp only [assessEvidence, hrecord, hvalidation, validationProject]
  generalize orText validation.projectId
    ((store.tickets.find? (·.id == validation.ticketId)).map (·.projectId)) = projectId
  by_cases hreason : validationReason env.host ticket validation projectId = ""
  swap
  · simp [hreason, bind, Except.bind, pure, Except.pure]
  by_cases hgiven : given validation.workspaceRecordId = true
  swap
  · simp [hreason, hgiven, bind, Except.bind, pure, Except.pure]
  simp only [hreason, hgiven, and_self, if_true, true_and, forall_const]
  cases hlinked : assessEvidence env.host env.tree store ticket depth
      (validation.workspaceRecordId.getD "") with
  | error e => simp [bind, Except.bind]
  | ok linked =>
    cases heligible : linked.eligible <;>
      simp [bind, Except.bind, pure, Except.pure, heligible, toString]

theorem validationReason_scope {validation : TicketValidationResult} {projectId : Option String}
    (h : validationReason env.host ticket validation projectId = "") :
    projectId = some ticket.projectId := by
  unfold validationReason at h
  by_contra hproject
  have hscope : scopeReason ticket (some validation.ticketId) projectId ≠ "" :=
    fun hempty => hproject (scopeReason_iff.mp hempty).2
  simp [hscope] at h

/-- **Evidence stays eligible** when new artifacts come to the store. -/
theorem eligible_extends (hsame : SameScope ticket ticket') (hextends : Extends store store')
    (h : ∃ a, assessEvidence env.host env.tree store ticket depth evidenceId = .ok a ∧
      a.eligible = true) :
    ∃ a, assessEvidence env.host env.tree store' ticket' depth evidenceId = .ok a ∧
      a.eligible = true := by
  induction depth generalizing evidenceId with
  | zero =>
    obtain ⟨a, ha, -⟩ := h
    cases ha
  | succ depth ih =>
    cases hrecord : store.records evidenceId with
    | some record =>
      have hknown : Known store evidenceId := Or.inl (by simp [hrecord])
      simp only [assessEvidence, hrecord, hextends.records _ hknown] at h ⊢
      unfold assessWorkspaceRecord at h ⊢
      rwa [scopeReason_same hsame]
    | none =>
      cases hvalidation : store.validations evidenceId with
      | some validation =>
        have hknown : Known store evidenceId := Or.inr (Or.inl (by simp [hvalidation]))
        obtain ⟨hreason, hlinked⟩ := (validation_iff hrecord hvalidation).mp h
        refine (validation_iff ((hextends.records _ hknown).trans hrecord)
          ((hextends.validations _ hknown).trans hvalidation)).mpr ⟨?_, fun hgiven => ih (hlinked hgiven)⟩
        have hproject : validationProject store' validation = validationProject store validation := by
          rw [validationReason_scope hreason]
          exact orText_owner (validationReason_scope hreason) (hextends.owners _)
        unfold validationReason at hreason ⊢
        rwa [hproject, scopeReason_same hsame, hsame.projectRoot]
      | none =>
        have hknown : Known store evidenceId := by
          simp only [assessEvidence, hrecord, hvalidation] at h
          obtain ⟨a, ha, heligible⟩ := h
          obtain ⟨found, hfound, ha⟩ := bind_ok ha
          cases found with
          | none =>
            obtain rfl := Except.ok.inj ha
            simp [assessment, unknownArtifact] at heligible
          | some a' =>
            obtain ⟨attempt, hfirst, -⟩ := first_of_assessAttempts hfound
            exact Or.inr (Or.inr ⟨attempt, List.mem_of_find?_eq_some hfirst,
              by simpa using List.find?_some hfirst⟩)
        have hknown' : ∃ attempt, Owner store evidenceId attempt := by
          obtain hsome | hsome | ⟨attempt, hattempt, hsome⟩ := hknown
          · simp [hrecord] at hsome
          · simp [hvalidation] at hsome
          · have hfound : (store.sandboxes.find? fun item => (item.artifact evidenceId).isSome).isSome =
                true := List.find?_isSome.mpr ⟨attempt, hattempt, hsome⟩
            obtain ⟨first, hfirst⟩ := Option.isSome_iff_exists.mp hfound
            exact ⟨first, hrecord, hvalidation, hfirst⟩
        obtain ⟨attempt, howner⟩ := hknown'
        have howner' : Owner store' evidenceId attempt :=
          ⟨(hextends.records _ hknown).trans hrecord,
            (hextends.validations _ hknown).trans hvalidation,
            (hextends.attempts _ hknown).trans howner.first⟩
        rw [assessEvidence_owner howner, assessSandboxArtifact_iff] at h
        rw [assessEvidence_owner howner', assessSandboxArtifact_iff]
        exact ⟨Accepted.same hsame h.1, ManifestHolds.same hsame hextends h.2⟩

theorem Eligible.extends (hsame : SameScope ticket ticket') (hextends : Extends store store')
    (h : Eligible env store ticket evidenceId) : Eligible env store' ticket' evidenceId :=
  eligible_extends hsame hextends h

/-! ## The invariant -/

/-- The resolution of a criterion, as `closure_report` reads it. -/
def Resolved (criterion : TicketAcceptanceCriterion) : Prop :=
  (criterion.status = "EVIDENCED" ∧ criterion.evidenceIds ≠ []) ∨
    (criterion.status = "WAIVED" ∧ given criterion.waiverReason = true ∧
      given criterion.resolvedBy = true) ∨
    (criterion.status = "BLOCKED" ∧ given criterion.blockerReason = true ∧
      given criterion.resolvedBy = true)

/-- A ticket whose criteria rest on eligible evidence. -/
def Evidenced (env : Surroundings) (store : TicketStore) (ticket : TicketRecord) : Prop :=
  ∀ criterion ∈ ticket.acceptanceCriteria, ∀ evidenceId ∈ criterion.evidenceIds,
    Eligible env store ticket evidenceId

structure Ready (env : Surroundings) (store : TicketStore) : Prop where
  ids : (store.tickets.map (·.id)).Nodup
  evidenced : ∀ t ∈ store.tickets, Evidenced env store t
  resolved : ∀ t ∈ store.tickets, Closed t → ∀ criterion ∈ t.acceptanceCriteria, Resolved criterion
  dependencies : ∀ t ∈ store.tickets, Closed t → ∀ dependencyId ∈ t.dependencyTicketIds,
    ∃ d ∈ store.tickets, d.id = dependencyId ∧ Closed d

/-! ### The report -/

theorem gateOf_iff {criterion : TicketAcceptanceCriterion}
    {assessments : List TicketEvidenceAssessment}
    (hall : criterion.status = "EVIDENCED" → ∀ a ∈ assessments, a.eligible = true)
    (hids : assessments = [] ↔ criterion.evidenceIds = []) :
    Resolved criterion ↔
      (gateOf criterion assessments).2 = [] ∧ (gateOf criterion assessments).1.resolved = true := by
  unfold gateOf Resolved
  by_cases hevidenced : criterion.status = "EVIDENCED"
  · have heligible : assessments.all (·.eligible) = true := List.all_eq_true.mpr (hall hevidenced)
    simp [hevidenced, heligible, hids]
  · by_cases hwaived : criterion.status = "WAIVED"
    · cases given criterion.waiverReason <;> cases given criterion.resolvedBy <;> simp [hwaived]
    · by_cases hblocked : criterion.status = "BLOCKED"
      · cases given criterion.blockerReason <;> cases given criterion.resolvedBy <;> simp [hblocked]
      · simp [hevidenced, hwaived, hblocked]

theorem resolved_of_gateOf {criterion : TicketAcceptanceCriterion}
    {assessments : List TicketEvidenceAssessment}
    (hids : assessments = [] ↔ criterion.evidenceIds = [])
    (h : (gateOf criterion assessments).2 = []) : Resolved criterion := by
  unfold gateOf at h
  unfold Resolved
  by_cases hevidenced : criterion.status = "EVIDENCED"
  · refine Or.inl ⟨hevidenced, fun hempty => ?_⟩
    simp [hevidenced, hids.mpr hempty] at h
  · by_cases hwaived : criterion.status = "WAIVED"
    · cases hreason : given criterion.waiverReason <;>
        cases hby : given criterion.resolvedBy <;> simp [hwaived, hreason, hby] at h ⊢
    · by_cases hblocked : criterion.status = "BLOCKED"
      · cases hreason : given criterion.blockerReason <;>
          cases hby : given criterion.resolvedBy <;> simp [hblocked, hreason, hby] at h ⊢
      · simp [hevidenced, hwaived, hblocked] at h

/-- A list of assessments is empty with its evidence. -/
theorem assessed_nil {ids : List String} {assessments : List TicketEvidenceAssessment}
    {f : String → Except PyError TicketEvidenceAssessment} (h : ids.mapM f = .ok assessments) :
    assessments = [] ↔ ids = [] := by
  have hlength := (mapM_ok h).length_eq
  rw [← List.length_eq_zero_iff, ← hlength, List.length_eq_zero_iff]

theorem mem_of_isClosed {ticketId : String} (h : isClosed store ticketId = true) :
    ∃ d ∈ store.tickets, d.id = ticketId ∧ Closed d := by
  unfold isClosed at h
  cases hfind : store.tickets.reverse.find? (·.id == ticketId) with
  | none => simp [hfind] at h
  | some d =>
    rw [hfind] at h
    exact ⟨d, List.mem_reverse.mp (List.mem_of_find?_eq_some hfind),
      by simpa using List.find?_some hfind, h⟩

theorem isClosed_of_mem (hids : (store.tickets.map (·.id)).Nodup) (h : ticket ∈ store.tickets)
    (hclosed : Closed ticket) : isClosed store ticket.id = true := by
  unfold isClosed
  have hreversed : (store.tickets.reverse.map (·.id)).Nodup := by
    rw [List.map_reverse]
    exact List.nodup_reverse.mpr hids
  rw [find?_of_mem hreversed (List.mem_reverse.mpr h)]
  exact hclosed

/-- **A report without failures** finds the ticket justified. -/
theorem justified_of_report {gates : List TicketCriterionClosureGate}
    (h : closureReport env store ticket = .ok (gates, [])) :
    (∀ criterion ∈ ticket.acceptanceCriteria, Resolved criterion) ∧
      ∀ dependencyId ∈ ticket.dependencyTicketIds,
        ∃ d ∈ store.tickets, d.id = dependencyId ∧ Closed d := by
  obtain ⟨found, hfound, h⟩ := bind_ok h
  obtain ⟨-, hfailures⟩ := Prod.mk.inj (Except.ok.inj h)
  obtain ⟨hgates, hunsatisfied⟩ := List.append_eq_nil_iff.mp hfailures
  constructor
  · intro criterion hcriterion
    obtain ⟨gate, hgate, hcomputed⟩ := exists_of_forall₂ (mapM_ok hfound) hcriterion
    obtain ⟨assessments, hassessments, hgateOf⟩ := bind_ok hcomputed
    obtain rfl := Except.ok.inj hgateOf
    exact resolved_of_gateOf (assessed_nil hassessments) (List.flatMap_eq_nil_iff.mp hgates _ hgate)
  · intro dependencyId hdependency
    have hclosed : isClosed store dependencyId = true := by
      by_contra hopen
      have hmem : dependencyId ∈ ticket.dependencyTicketIds.filter (!isClosed store ·) :=
        List.mem_filter.mpr ⟨hdependency, by simpa using hopen⟩
      rw [List.map_eq_nil_iff.mp hunsatisfied] at hmem
      cases hmem
    exact mem_of_isClosed hclosed

/-- A list of eligible evidence is assessed without an exception. -/
theorem assess_eligible {ids : List String} (h : ∀ id ∈ ids, Eligible env store ticket id) :
    ∃ assessments, ids.mapM (assess env store ticket) = .ok assessments ∧
      ∀ a ∈ assessments, a.eligible = true := by
  induction ids with
  | nil => exact ⟨[], rfl, fun a ha => by cases ha⟩
  | cons id ids ih =>
    obtain ⟨a, ha, heligible⟩ := h id List.mem_cons_self
    obtain ⟨rest, hrest, hall⟩ := ih fun id hid => h id (List.mem_cons_of_mem _ hid)
    refine ⟨a :: rest, ?_, ?_⟩
    · rw [List.mapM_cons, ha, hrest]
      rfl
    · intro b hb
      cases hb with
      | head => exact heligible
      | tail _ hb => exact hall b hb

theorem criterionGates (criteria : List TicketAcceptanceCriterion)
    (hevidenced : ∀ c ∈ criteria, ∀ id ∈ c.evidenceIds, Eligible env store ticket id)
    (hresolved : ∀ c ∈ criteria, Resolved c) :
    ∃ gates, criteria.mapM (criterionGate env store ticket) = .ok gates ∧
      gates.flatMap (·.2) = [] ∧ ∀ gate ∈ gates.map (·.1), gate.resolved = true := by
  induction criteria with
  | nil => exact ⟨[], rfl, rfl, fun gate hgate => by cases hgate⟩
  | cons c criteria ih =>
    obtain ⟨assessments, hassessments, hall⟩ := assess_eligible (hevidenced c List.mem_cons_self)
    obtain ⟨hnone, hgate⟩ := (gateOf_iff (fun _ => hall) (assessed_nil hassessments)).mp
      (hresolved c List.mem_cons_self)
    obtain ⟨gates, hgates, hnil, hrest⟩ := ih
      (fun c' hc' => hevidenced c' (List.mem_cons_of_mem _ hc'))
      fun c' hc' => hresolved c' (List.mem_cons_of_mem _ hc')
    refine ⟨gateOf c assessments :: gates, ?_, ?_, ?_⟩
    · rw [List.mapM_cons, hgates, criterionGate, hassessments]
      rfl
    · rw [List.flatMap_cons, hnone, hnil]
      rfl
    · intro gate hmem
      cases hmem with
      | head => exact hgate
      | tail _ hmem => exact hrest gate hmem

/-- The report of a closed ticket finds nothing against it. -/
theorem Ready.report (h : Ready env store) (hticket : ticket ∈ store.tickets) (hclosed : Closed ticket) :
    ∃ gates, closureReport env store ticket = .ok (gates, []) ∧
      ∀ gate ∈ gates, gate.resolved = true := by
  obtain ⟨gates, hgates, hnil, hresolved⟩ := criterionGates ticket.acceptanceCriteria
    (h.evidenced ticket hticket) (h.resolved ticket hticket hclosed)
  have hunsatisfied : ticket.dependencyTicketIds.filter (!isClosed store ·) = [] := by
    refine List.filter_eq_nil_iff.mpr fun dependencyId hdependency => ?_
    obtain ⟨d, hd, rfl, hdclosed⟩ := h.dependencies ticket hticket hclosed dependencyId hdependency
    simp [isClosed_of_mem h.ids hd hdclosed]
  refine ⟨gates.map (·.1), ?_, hresolved⟩
  rw [closureReport, hgates]
  show Except.ok (_, gates.flatMap (·.2) ++ _) = _
  rw [hnil, hunsatisfied]
  rfl

/-! ### Saved tickets -/

theorem Extends.of_tables (hrecords : store'.records = store.records)
    (hvalidations : store'.validations = store.validations)
    (hsandboxes : store'.sandboxes = store.sandboxes)
    (hfiles : store'.projectFiles = store.projectFiles) (htickets : store'.tickets = store.tickets) :
    Extends store store' where
  records := fun _ _ => by rw [hrecords]
  validations := fun _ _ => by rw [hvalidations]
  attempts := fun _ _ => by rw [hsandboxes]
  projectFiles := hfiles
  owners := fun _ _ h => by rwa [htickets]

theorem Ready.extends (h : Ready env store) (hextends : Extends store store')
    (htickets : store'.tickets = store.tickets) : Ready env store' where
  ids := by rw [htickets]; exact h.ids
  evidenced := fun t ht criterion hcriterion evidenceId hid => by
    rw [htickets] at ht
    exact (h.evidenced t ht criterion hcriterion evidenceId hid).extends (.refl t) hextends
  resolved := by rw [htickets]; exact h.resolved
  dependencies := by rw [htickets]; exact h.dependencies

/-- An event touches no ticket and no artifact. -/
theorem Ready.event (h : Ready env store) (ticketId kind detail actor : String)
    (artifactIds : List String) : Ready env (event ticketId kind detail actor artifactIds store) :=
  h.extends (.of_tables rfl rfl rfl rfl rfl) rfl

/-- A row of a known ticket that may be saved over the old one. -/
structure Saves (env : Surroundings) (store : TicketStore) (old new : TicketRecord) : Prop where
  row : old ∈ store.tickets
  scope : SameScope old new
  evidenced : Evidenced env store new
  resolved : Closed new → ∀ criterion ∈ new.acceptanceCriteria, Resolved criterion
  dependencies : Closed new → ∀ dependencyId ∈ new.dependencyTicketIds,
    ∃ d ∈ store.tickets, d.id = dependencyId ∧ Closed d
  opens : Closed old → ¬ Closed new →
    ∀ t ∈ store.tickets, Closed t → t.id ≠ old.id → old.id ∉ t.dependencyTicketIds

theorem extends_save (hids : (store.tickets.map (·.id)).Nodup) {old new : TicketRecord}
    (hrow : old ∈ store.tickets) (hscope : SameScope old new) :
    Extends store (saveProjectTicket store new) where
  records := fun _ _ => rfl
  validations := fun _ _ => rfl
  attempts := fun _ _ => rfl
  projectFiles := rfl
  owners := fun ticketId projectId h => by
    show ((replaceRow (·.id) new store.tickets).find? (·.id == ticketId)).map _ = _
    by_cases hid : ticketId = new.id
    · have hold : store.tickets.find? (·.id == ticketId) = some old := by
        rw [hid, hscope.id]
        exact find?_of_mem hids hrow
      rw [hid, find?_replaceRow_self, ← h, hold]
      exact congrArg some hscope.projectId
    · have hother : (replaceRow (fun t : TicketRecord => t.id) new store.tickets).find?
          (·.id == ticketId) = store.tickets.find? (·.id == ticketId) := find?_replaceRow_other hid
      rwa [hother]

/-- **Saved tickets** keep the invariant. -/
theorem Ready.save (h : Ready env store) {old new : TicketRecord} (hsaves : Saves env store old new) :
    Ready env (saveProjectTicket store new) := by
  have hextends := extends_save h.ids hsaves.row hsaves.scope
  have hmem : ∀ t, t ∈ (saveProjectTicket store new).tickets ↔
      (t ∈ store.tickets ∧ t.id ≠ new.id) ∨ t = new := fun t => mem_replaceRow
  -- A closed ticket is still there and still closed, or it was the old row.
  have hstays : ∀ d ∈ store.tickets, Closed d → (d.id = new.id → Closed new) →
      ∃ d' ∈ (saveProjectTicket store new).tickets, d'.id = d.id ∧ Closed d' := by
    intro d hd hclosed hnew
    by_cases hid : d.id = new.id
    · exact ⟨new, (hmem new).mpr (Or.inr rfl), hid.symm, hnew hid⟩
    · exact ⟨d, (hmem d).mpr (Or.inl ⟨hd, hid⟩), rfl, hclosed⟩
  refine ⟨nodup_replaceRow h.ids, ?_, ?_, ?_⟩
  · intro t ht criterion hcriterion evidenceId hid
    obtain ⟨hold, -⟩ | rfl := (hmem t).mp ht
    · exact (h.evidenced t hold criterion hcriterion evidenceId hid).extends (.refl t) hextends
    · exact (hsaves.evidenced criterion hcriterion evidenceId hid).extends (.refl t) hextends
  · intro t ht hclosed
    obtain ⟨hold, -⟩ | rfl := (hmem t).mp ht
    · exact h.resolved t hold hclosed
    · exact hsaves.resolved hclosed
  · intro t ht hclosed dependencyId hdependency
    obtain ⟨hold, hne⟩ | rfl := (hmem t).mp ht
    · obtain ⟨d, hd, rfl, hdclosed⟩ := h.dependencies t hold hclosed dependencyId hdependency
      refine hstays d hd hdclosed fun hid => ?_
      by_contra hopen
      have hdold : d = old :=
        List.inj_on_of_nodup_map h.ids hd hsaves.row (hid.trans hsaves.scope.id)
      refine hsaves.opens (hdold ▸ hdclosed) hopen t hold hclosed
        (fun heq => hne (heq.trans hsaves.scope.id.symm)) ?_
      rwa [← hdold]
    · obtain ⟨d, hd, rfl, hdclosed⟩ := hsaves.dependencies hclosed dependencyId hdependency
      exact hstays d hd hdclosed fun _ => hclosed

/-- A row with other usage, or with other assessments of its criteria. -/
theorem Ready.saves_same (h : Ready env store) {old new : TicketRecord} (hrow : old ∈ store.tickets)
    (hscope : SameScope old new) (hstatus : new.status = old.status)
    (hdependencies : new.dependencyTicketIds = old.dependencyTicketIds)
    (hcriteria : ∀ c' ∈ new.acceptanceCriteria, ∃ c ∈ old.acceptanceCriteria,
      c'.evidenceIds = c.evidenceIds ∧ (Resolved c → Resolved c')) : Saves env store old new where
  row := hrow
  scope := hscope
  evidenced := fun c' hc' evidenceId hid => by
    obtain ⟨c, hc, hids, -⟩ := hcriteria c' hc'
    exact (h.evidenced old hrow c hc evidenceId (hids ▸ hid)).extends hscope
      (.of_tables rfl rfl rfl rfl rfl)
  resolved := fun hclosed c' hc' => by
    obtain ⟨c, hc, -, himp⟩ := hcriteria c' hc'
    exact himp (h.resolved old hrow (by rwa [Closed, ← hstatus]) c hc)
  dependencies := fun hclosed => by
    rw [hdependencies]
    exact h.dependencies old hrow (by rwa [Closed, ← hstatus])
  opens := fun hclosed hopen => absurd (by rwa [Closed, hstatus]) hopen

theorem getTicket_ok {host : SandboxHost} {ticketId : String}
    (h : getTicket host store ticketId = .ok ticket) : ticket ∈ store.tickets ∧ ticket.id = ticketId := by
  unfold getTicket at h
  split at h
  · cases h
  · rename_i found hfind
    cases hchecked : RlmGraph.Governance.Tickets.ticketOf host.toGovernanceHost store.projects
        (store.tickets.map (·.toProjectTicket)) ticketId with
    | error e => simp [hchecked, Except.map] at h
    | ok t =>
      rw [hchecked] at h
      obtain rfl := Except.ok.inj h
      exact ⟨List.mem_of_find?_eq_some hfind, by simpa using List.find?_some hfind⟩

/-! ### Operations -/

theorem mem_changeFirst {α : Type} {p : α → Bool} {f : α → α} {xs : List α} {y : α}
    (h : y ∈ changeFirst p f xs) : y ∈ xs ∨ ∃ x ∈ xs, p x = true ∧ y = f x := by
  induction xs with
  | nil => cases h
  | cons x xs ih =>
    unfold changeFirst at h
    split at h
    · cases h with
      | head => exact Or.inr ⟨x, List.mem_cons_self, ‹_›, rfl⟩
      | tail _ h => exact Or.inl (List.mem_cons_of_mem x h)
    · cases h with
      | head => exact Or.inl List.mem_cons_self
      | tail _ h =>
        obtain hy | ⟨x', hx', hp, rfl⟩ := ih h
        · exact Or.inl (List.mem_cons_of_mem x hy)
        · exact Or.inr ⟨x', List.mem_cons_of_mem x hx', hp, rfl⟩

/-- The gates change nothing of a criterion but its assessments. -/
theorem mem_withAssessments {gates : List TicketCriterionClosureGate}
    {criteria : List TicketAcceptanceCriterion} {c' : TicketAcceptanceCriterion}
    (h : c' ∈ withAssessments gates criteria) :
    ∃ c ∈ criteria, c'.evidenceIds = c.evidenceIds ∧ (Resolved c → Resolved c') := by
  induction gates generalizing criteria with
  | nil => exact ⟨c', h, rfl, id⟩
  | cons gate gates ih =>
    obtain ⟨c₁, hc₁, hids, himp⟩ := ih h
    obtain hmem | ⟨c, hc, -, rfl⟩ := mem_changeFirst hc₁
    · exact ⟨c₁, hmem, hids, himp⟩
    · exact ⟨c, hc, hids, fun hresolved => himp hresolved⟩

/-- The store and the ticket after a decision was recorded. -/
structure Persisted (store store' : TicketStore) (ticket ticket' : TicketRecord) : Prop where
  row : ticket' ∈ store'.tickets
  dependencies : ticket'.dependencyTicketIds = ticket.dependencyTicketIds
  criteria : ∀ c' ∈ ticket'.acceptanceCriteria, ∃ c ∈ ticket.acceptanceCriteria,
    c'.evidenceIds = c.evidenceIds ∧ (Resolved c → Resolved c')
  closed : ∀ d ∈ store.tickets, Closed d → ∃ d' ∈ store'.tickets, d'.id = d.id ∧ Closed d'

theorem Ready.persist (h : Ready env store) {decision : TicketClosureDecision}
    (hrow : ticket ∈ store.tickets) {created : Bool}
    (hpersist : persistClosureDecision ticket decision store = (created, ticket', store')) :
    Ready env store' ∧ Persisted store store' ticket ticket' := by
  unfold persistClosureDecision at hpersist
  split at hpersist
  · cases hpersist
    exact ⟨h, hrow, rfl, fun c hc => ⟨c, hc, rfl, id⟩, fun d hd hclosed => ⟨d, hd, rfl, hclosed⟩⟩
  · cases hpersist
    have hcriteria : ∀ c' ∈ withAssessments decision.criterionGates ticket.acceptanceCriteria,
        ∃ c ∈ ticket.acceptanceCriteria, c'.evidenceIds = c.evidenceIds ∧ (Resolved c → Resolved c') :=
      fun _ => mem_withAssessments
    have hsaves : Saves env store ticket { ticket with
        closureDecisions := ticket.closureDecisions ++ [decision]
        acceptanceCriteria := withAssessments decision.criterionGates ticket.acceptanceCriteria } :=
      h.saves_same hrow ⟨rfl, rfl, rfl⟩ rfl rfl hcriteria
    refine ⟨(h.save hsaves).event _ _ _ _ _, mem_replaceRow.mpr (Or.inr rfl), rfl, hcriteria, ?_⟩
    intro d hd hclosed
    by_cases hid : d.id = ticket.id
    · have hdold : d = ticket := List.inj_on_of_nodup_map h.ids hd hrow hid
      exact ⟨_, mem_replaceRow.mpr (Or.inr rfl), hid.symm, by rwa [← hdold]⟩
    · exact ⟨d, mem_replaceRow.mpr (Or.inl ⟨hd, hid⟩), rfl, hclosed⟩

theorem Ready.setStatus (h : Ready env store) (hrow : ticket ∈ store.tickets)
    {status reason actor : String}
    (hcloses : closing.contains status = true →
      (∀ criterion ∈ ticket.acceptanceCriteria, Resolved criterion) ∧
        ∀ dependencyId ∈ ticket.dependencyTicketIds,
          ∃ d ∈ store.tickets, d.id = dependencyId ∧ Closed d)
    (hopens : closing.contains status = false →
      ∀ t ∈ store.tickets, Closed t → t.id ≠ ticket.id → ticket.id ∉ t.dependencyTicketIds) :
    Ready env (setStatus status reason actor ticket store).2 := by
  have hscope : SameScope ticket { ticket with status := status } := ⟨rfl, rfl, rfl⟩
  have hsaves : Saves env store ticket { ticket with status := status } := {
    row := hrow
    scope := hscope
    evidenced := fun c hc evidenceId hid => Eligible.extends hscope
      (.of_tables rfl rfl rfl rfl rfl) (h.evidenced ticket hrow c hc evidenceId hid)
    resolved := fun hclosed => (hcloses hclosed).1
    dependencies := fun hclosed => (hcloses hclosed).2
    opens := fun _ hopen => hopens (by simpa [Closed] using hopen) }
  exact (h.save hsaves).event _ _ _ _ _

theorem Ready.closeTicket (h : Ready env store) (hrow : ticket ∈ store.tickets)
    {status actor reason : String} (hclosing : closing.contains status = true) :
    Ready env (closeTicket env ticket status actor reason store).2 := by
  unfold Manager.closeTicket
  split
  · exact h
  · split
    · exact h
    · rename_i decision hdecision
      obtain ⟨⟨gates, failures⟩, hreport, hdecision⟩ := bind_ok hdecision
      obtain rfl := Except.ok.inj hdecision
      split
      rename_i created ticket' store' hpersist
      obtain ⟨hready, hpersisted⟩ := h.persist hrow hpersist
      split
      · exact hready
      · rename_i hallowed
        split
        · exact hready
        · have hfailures : failures = [] := by simpa using hallowed
          rw [hfailures] at hreport
          obtain ⟨hresolved, hjustified⟩ := justified_of_report hreport
          refine hready.setStatus hpersisted.row (fun _ => ⟨fun c' hc' => ?_, fun d hd => ?_⟩)
            fun hopen => ?_
          · obtain ⟨c, hc, -, himp⟩ := hpersisted.criteria c' hc'
            exact himp (hresolved c hc)
          · rw [hpersisted.dependencies] at hd
            obtain ⟨u, hu, rfl, hclosed⟩ := hjustified d hd
            exact hpersisted.closed u hu hclosed
          · rw [hclosing] at hopen
            cases hopen

theorem Ready.transition (h : Ready env store) {ticketId status actor reason : String}
    (hmeets : KeepsGround env store (.transition ticketId status actor reason)) :
    Ready env (transition env ticketId status actor reason store).2 := by
  unfold Manager.transition
  split
  · exact h
  · rename_i ticket hget
    obtain ⟨hrow, rfl⟩ := getTicket_ok hget
    unfold transitionTo
    split
    · exact h
    · rename_i hknown
      split
      · exact h.closeTicket hrow ‹_›
      · rename_i hopen
        have hmoved : Manager.transition env ticket.id status actor reason store =
            Manager.setStatus (upper env.host.text status) reason actor ticket store := by
          unfold Manager.transition transitionTo
          rw [hget]
          exact (if_neg hknown).trans (if_neg hopen)
        exact h.setStatus hrow (fun hclosing => absurd hclosing hopen)
          (hmeets _ (congrArg Prod.fst hmoved))

theorem strip_empty : strip "" = "" := by decide

theorem given_some {text : String} (h : text ≠ "") : given (some text) = true := by
  simpa [given] using h

theorem distinct_eq_nil {texts : List String} (h : distinct texts = []) : texts = [] := by
  cases texts with
  | nil => rfl
  | cons text texts =>
    unfold distinct at h
    rw [List.eraseDups_cons] at h
    cases h

/-- The accepted resolution of a criterion. -/
theorem resolved_of_check (now : String) {status : String} {req : CriterionRequest}
    {assessments : List TicketEvidenceAssessment}
    (h : checkCriterionRequest env store ticket status req = .ok assessments) :
    (∀ evidenceId ∈ req.evidenceIds, Eligible env store ticket evidenceId) ∧
      (status ≠ "PENDING" →
        ∀ criterion, Resolved (resolvedCriterion now status req assessments criterion)) := by
  unfold checkCriterionRequest at h
  obtain ⟨hknown, h⟩ := ite_throw_ok h
  obtain ⟨hactor, h⟩ := ite_throw_ok h
  obtain ⟨found, hfound, h⟩ := bind_ok h
  obtain ⟨hineligible, h⟩ := ite_throw_ok h
  obtain ⟨hattached, h⟩ := ite_throw_ok h
  obtain ⟨hreason, h⟩ := ite_throw_ok h
  constructor
  · intro evidenceId hid
    obtain ⟨a, ha, hassess⟩ := exists_of_forall₂ (mapM_ok hfound) hid
    refine ⟨a, hassess, ?_⟩
    by_contra heligible
    exact hineligible (List.any_eq_true.mpr ⟨a, ha, by simpa using heligible⟩)
  · intro hpending criterion
    have hstatus : status = "EVIDENCED" ∨ status = "WAIVED" ∨ status = "BLOCKED" := by
      simpa [criterionStatuses, hpending, or_iff_not_imp_left] using hknown
    have hby : given (some req.actor) = true := given_some fun hempty => by
      rw [hempty, strip_empty] at hactor
      exact hactor ⟨hpending, rfl⟩
    obtain rfl | rfl | rfl := hstatus
    · exact Or.inl ⟨rfl, fun hnil => hattached ⟨rfl, distinct_eq_nil hnil⟩⟩
    · have htext : given (some (strip req.reason)) = true :=
        given_some fun hempty => hreason ⟨Or.inl rfl, hempty⟩
      exact Or.inr (Or.inl ⟨rfl, by simpa [resolvedCriterion] using htext, hby⟩)
    · have htext : given (some (strip req.reason)) = true :=
        given_some fun hempty => hreason ⟨Or.inr rfl, hempty⟩
      exact Or.inr (Or.inr ⟨rfl, by simpa [resolvedCriterion] using htext, hby⟩)

theorem Ready.resolveCriterion (h : Ready env store) {now : String} {req : CriterionRequest}
    (hmeets : KeepsGround env store (.resolveCriterion now req)) :
    Ready env (resolveCriterion env now req store).2 := by
  unfold Manager.resolveCriterion
  split
  · exact h
  · rename_i ticket hget
    obtain ⟨hrow, hid⟩ := getTicket_ok hget
    split
    · exact h
    · rename_i criterion hfind
      simp only
      split
      · exact h
      · rename_i assessments hcheck
        obtain ⟨heligible, hresolved⟩ := resolved_of_check now hcheck
        have hchanged : (Manager.resolveCriterion env now req store).1 = .ok { ticket with
            acceptanceCriteria := changeFirst (·.id == req.criterionId)
              (resolvedCriterion now (upper env.host.text req.status) req assessments)
              ticket.acceptanceCriteria } := by
          unfold Manager.resolveCriterion
          simp only [hget, hfind, hcheck]
        have hscope : SameScope ticket { ticket with
            acceptanceCriteria := changeFirst (·.id == req.criterionId)
              (resolvedCriterion now (upper env.host.text req.status) req assessments)
              ticket.acceptanceCriteria } := ⟨rfl, rfl, rfl⟩
        have hsaves : Saves env store ticket { ticket with
            acceptanceCriteria := changeFirst (·.id == req.criterionId)
              (resolvedCriterion now (upper env.host.text req.status) req assessments)
              ticket.acceptanceCriteria } := {
          row := hrow
          scope := hscope
          evidenced := fun c hc evidenceId hevidence => by
            refine Eligible.extends hscope (.of_tables rfl rfl rfl rfl rfl) ?_
            obtain hmem | ⟨x, -, -, rfl⟩ := mem_changeFirst hc
            · exact h.evidenced ticket hrow c hmem evidenceId hevidence
            · exact heligible evidenceId (List.mem_eraseDups.mp hevidence)
          resolved := fun hclosed c hc => by
            obtain hmem | ⟨x, -, -, rfl⟩ := mem_changeFirst hc
            · exact h.resolved ticket hrow hclosed c hmem
            · exact hresolved (fun hpending => hmeets _ hchanged hpending ticket hrow hid hclosed) x
          dependencies := h.dependencies ticket hrow
          opens := fun hclosed hopen => absurd hclosed hopen }
        exact (h.save hsaves).event _ _ _ _ _

theorem extends_add {new : TicketRecord} (hfresh : new.id ∉ store.tickets.map (·.id)) :
    Extends store (saveProjectTicket store new) where
  records := fun _ _ => rfl
  validations := fun _ _ => rfl
  attempts := fun _ _ => rfl
  projectFiles := rfl
  owners := fun ticketId projectId h => by
    have hne : ticketId ≠ new.id := by
      intro hid
      cases hfind : store.tickets.find? (·.id == ticketId) with
      | none => simp [hfind] at h
      | some t =>
        have ht : t.id = new.id := by simpa [hid] using List.find?_some hfind
        exact hfresh (List.mem_map.mpr ⟨t, List.mem_of_find?_eq_some hfind, ht⟩)
    have hother : (replaceRow (fun t : TicketRecord => t.id) new store.tickets).find?
        (·.id == ticketId) = store.tickets.find? (·.id == ticketId) := find?_replaceRow_other hne
    show ((replaceRow (fun t : TicketRecord => t.id) new store.tickets).find? _).map _ = _
    rwa [hother]

/-- **New tickets** are open. -/
theorem Ready.add (h : Ready env store) {new : TicketRecord}
    (hfresh : new.id ∉ store.tickets.map (·.id)) (hopen : ¬ Closed new)
    (hevidence : ∀ criterion ∈ new.acceptanceCriteria, criterion.evidenceIds = []) :
    Ready env (saveProjectTicket store new) := by
  have hextends := extends_add hfresh
  have hmem : ∀ t, t ∈ (saveProjectTicket store new).tickets ↔
      (t ∈ store.tickets ∧ t.id ≠ new.id) ∨ t = new := fun t => mem_replaceRow
  refine ⟨nodup_replaceRow h.ids, ?_, ?_, ?_⟩
  · intro t ht criterion hcriterion evidenceId hid
    obtain ⟨hold, -⟩ | rfl := (hmem t).mp ht
    · exact (h.evidenced t hold criterion hcriterion evidenceId hid).extends (.refl t) hextends
    · rw [hevidence criterion hcriterion] at hid
      cases hid
  · intro t ht hclosed
    obtain ⟨hold, -⟩ | rfl := (hmem t).mp ht
    · exact h.resolved t hold hclosed
    · exact absurd hclosed hopen
  · intro t ht hclosed dependencyId hdependency
    obtain ⟨hold, -⟩ | rfl := (hmem t).mp ht
    · obtain ⟨d, hd, hid, hdclosed⟩ := h.dependencies t hold hclosed dependencyId hdependency
      exact ⟨d, (hmem d).mpr (Or.inl ⟨hd, fun heq => hfresh (heq ▸ List.mem_map_of_mem hd)⟩), hid,
        hdclosed⟩
    · exact absurd hclosed hopen

theorem Ready.create (h : Ready env store) {req : TicketRequest} {ticketId policyId : String}
    {criterionId : Nat → String} {currentClaims : List String → Except PyError Unit}
    (hfresh : ticketId ∉ store.tickets.map (·.id)) :
    Ready env (create env.host req ticketId policyId criterionId currentClaims store).2 := by
  unfold Manager.create
  split
  · exact h
  · rename_i project hproject
    simp only
    have hready : Ready env { store with policies := (policyOf env.host.toGovernanceHost
        store.projects policyId project.id store.policies).2 } :=
      h.extends (.of_tables rfl rfl rfl rfl rfl) rfl
    split
    · exact hready
    · refine (hready.add hfresh (fun hclosed => ?_) fun criterion hcriterion => ?_).event _ _ _ _ _
      · simp [Closed, newTicket, closing] at hclosed
      · obtain ⟨i, hi, rfl⟩ := List.mem_mapIdx.mp hcriterion
        rfl

/-- A ticket charged with usage, in a store with a new artifact. -/
theorem Ready.charge (h : Ready env store) (hrow : ticket ∈ store.tickets)
    (hextends : Extends store store') (htickets : store'.tickets = store.tickets)
    (usage : RlmGraph.Governance.Tickets.TicketUsage) :
    Ready env (saveProjectTicket store' { ticket with usage := usage }) := by
  have hready := h.extends hextends htickets
  have hrow' : ticket ∈ store'.tickets := htickets ▸ hrow
  have hsaves : Saves env store' ticket { ticket with usage := usage } :=
    hready.saves_same hrow' ⟨rfl, rfl, rfl⟩ rfl rfl fun c hc => ⟨c, hc, rfl, id⟩
  exact hready.save hsaves

/-! ### New artifacts -/

theorem extends_record {recordId : String} (record : ProjectWorkspaceRecord)
    (hfresh : ¬ Known store recordId) :
    Extends store { store with records := Function.update store.records recordId (some record) } where
  records := fun evidenceId hknown => Function.update_of_ne (by rintro rfl; exact hfresh hknown) _ _
  validations := fun _ _ => rfl
  attempts := fun _ _ => rfl
  projectFiles := rfl
  owners := fun _ _ h => h

theorem extends_validation {result : TicketValidationResult} {resultId : String}
    (hfresh : ¬ Known store resultId) :
    Extends store { store with
      validations := Function.update store.validations resultId (some result) } where
  records := fun _ _ => rfl
  validations := fun evidenceId hknown => Function.update_of_ne (by rintro rfl; exact hfresh hknown) _ _
  attempts := fun _ _ => rfl
  projectFiles := rfl
  owners := fun _ _ h => h

theorem artifact_self (attempt : SandboxEvidence) : (attempt.artifact attempt.id).isSome = true := by
  simp [SandboxEvidence.artifact]

theorem extends_attempt
    (hfresh : ∀ evidenceId, (attempt.artifact evidenceId).isSome = true → ¬ Known store evidenceId) :
    Extends store { store with sandboxes := replaceRow (·.id) attempt store.sandboxes } where
  records := fun _ _ => rfl
  validations := fun _ _ => rfl
  attempts := fun evidenceId hknown => by
    have hall : store.sandboxes.filter (fun item => item.id != attempt.id) = store.sandboxes := by
      refine List.filter_eq_self.mpr fun item hitem => ?_
      have hne : item.id ≠ attempt.id := fun heq => hfresh attempt.id (artifact_self attempt)
        (Or.inr (Or.inr ⟨item, hitem, heq ▸ artifact_self item⟩))
      simpa using hne
    have hnone : (attempt.artifact evidenceId).isSome = false := by
      by_contra hsome
      exact hfresh evidenceId (by rwa [Bool.not_eq_false] at hsome) hknown
    show (store.sandboxes.filter (fun item => item.id != attempt.id) ++ [attempt]).find? _ = _
    rw [hall, List.find?_append]
    simp [hnone]
  projectFiles := rfl
  owners := fun _ _ h => h

theorem Ready.recordValidation (h : Ready env store) {resultId : String} {req : ValidationRequest}
    (hfresh : ¬ Known store resultId) : Ready env (recordValidation env resultId req store).2 := by
  unfold Manager.recordValidation
  split
  · exact h
  · simp only
    split
    · exact h
    · split
      · exact h
      · exact (h.extends (extends_validation hfresh) rfl).event _ _ _ _ _

theorem Ready.attachSandboxAttempt (h : Ready env store) {ticketId : String}
    (hfresh : ∀ evidenceId, (attempt.artifact evidenceId).isSome = true → ¬ Known store evidenceId) :
    Ready env (attachSandboxAttempt env.host ticketId attempt store).2 := by
  unfold Manager.attachSandboxAttempt
  split
  · exact h
  · rename_i ticket hget
    split
    · exact h
    · exact (h.charge (getTicket_ok hget).1 (extends_attempt hfresh) rfl _).event _ _ _ _ _

theorem Ready.attachWorkspaceRecord (h : Ready env store) {ticketId : String}
    {record : ProjectWorkspaceRecord} (hfresh : ¬ Known store record.id) :
    Ready env (attachWorkspaceRecord env.host ticketId record store).2 := by
  unfold Manager.attachWorkspaceRecord
  split
  · exact h
  · rename_i ticket hget
    split
    · exact h
    · split
      · exact h
      · exact (h.charge (getTicket_ok hget).1 (extends_record _ hfresh) rfl _).event _ _ _ _ _

/-! ## Runs keep tickets justified -/

/-- **One operation** that keeps the ground keeps the invariant. -/
theorem Ready.after (h : Ready env store) {op : Operation} (hfresh : op.Fresh store)
    (hmeets : KeepsGround env store op) : Ready env (after env op store) := by
  cases op with
  | create req ticketId policyId criterionId currentClaims => exact h.create hfresh
  | transition ticketId status actor reason => exact h.transition hmeets
  | resolveCriterion now req => exact h.resolveCriterion hmeets
  | recordValidation resultId req => exact h.recordValidation hfresh
  | approvePlan ticketId planRecordId actor detail => exact h.event _ _ _ _ _
  | attachSandboxAttempt ticketId attempt => exact h.attachSandboxAttempt hfresh
  | attachWorkspaceRecord ticketId record => exact h.attachWorkspaceRecord hfresh

theorem Run.ready (h : Run env (KeepsGround env) store) : Ready env store := by
  induction h with
  | initial store h =>
    exact ⟨by simp [h], by simp [h], by simp [h], by simp [h]⟩
  | step op _ hfresh hmeets ih => exact ih.after hfresh hmeets

/-- **Satisfied tickets stay justified.** In every run that takes no ground from
a closed ticket, the report of every satisfied or closed ticket accepts the
resolution of all its criteria and finds nothing against it, and every ticket it
depends on is satisfied or closed. -/
theorem closed_justified (h : Run env (KeepsGround env) store) (hticket : ticket ∈ store.tickets)
    (hclosed : Closed ticket) :
    (∃ gates, closureReport env store ticket = .ok (gates, []) ∧
      ∀ gate ∈ gates, gate.resolved = true) ∧
      ∀ dependencyId ∈ ticket.dependencyTicketIds,
        ∃ d ∈ store.tickets, d.id = dependencyId ∧ Closed d :=
  ⟨h.ready.report hticket hclosed, h.ready.dependencies ticket hticket hclosed⟩

/-! ## A criterion set back to pending -/

def plainSurroundings : Surroundings where
  host := plainHost
  tree := completeTree
  depth := 1

def registeredProject : ProjectRecord := ⟨"project", "root", true, true⟩

def registered : TicketStore where
  projects := [registeredProject]
  executionMode := fun _ => .guarded
  policies := fun _ => none
  tickets := []
  records := fun _ => none
  validations := fun _ => none
  sandboxes := []
  ticketEvents := []
  projectFiles := fun _ => []

def plainRequest : TicketRequest where
  projectId := "project"
  title := "t"
  description := "d"
  acceptanceCriteria := ["c"]
  constraints := []
  priority := "LOW"
  dependencyTicketIds := []
  budget := {}
  createdBy := "u"

def creation : Operation :=
  .create plainRequest "ticket" "policy" (fun _ => "criterion") fun _ => .ok ()

def resolution (status : String) : Operation :=
  .resolveCriterion "now" ⟨"ticket", "criterion", status, [], "r", "u"⟩

def satisfaction : Operation := .transition "ticket" "SATISFIED" "u" "r"

/-- The only ticket of a store, with its only criterion. -/
structure OneTicket (store : TicketStore) (criterion : TicketAcceptanceCriterion) (current : String)
    (ticket : TicketRecord) : Prop where
  projects : store.projects = [registeredProject]
  tickets : store.tickets = [ticket]
  id : ticket.id = "ticket"
  projectId : ticket.projectId = "project"
  projectRoot : ticket.projectRoot = "root"
  scopes : ticket.dependencyScopes = []
  dependencies : ticket.dependencyTicketIds = []
  criteria : ticket.acceptanceCriteria = [criterion]
  status : ticket.status = current

theorem canonicalRoot_root : plainHost.canonicalRoot "root" = "root" := by decide

section
variable {criterion : TicketAcceptanceCriterion} {current : String}

theorem OneTicket.getTicket (h : OneTicket store criterion current ticket) :
    getTicket plainHost store "ticket" = .ok ticket := by
  simp [Manager.getTicket, h.tickets, h.id, h.projects, h.projectId, h.projectRoot, h.scopes,
    RlmGraph.Governance.Tickets.ticketOf, governedProject, registeredProject, overlapsAnother,
    plainHost, bind, Except.bind, pure, Except.pure, Except.map]

/-- The ticket saved with another criterion or another status. -/
theorem OneTicket.save (h : OneTicket store criterion current ticket)
    (new : TicketRecord) (hbase : new.toProjectTicket = ticket.toProjectTicket)
    (hdependencies : new.dependencyTicketIds = ticket.dependencyTicketIds)
    {criterion' : TicketAcceptanceCriterion} (hcriteria : new.acceptanceCriteria = [criterion'])
    {current' : String} (hstatus : new.status = current') (kind detail actor : String)
    (artifactIds : List String) :
    OneTicket (event new.id kind detail actor artifactIds (saveProjectTicket store new)) criterion'
      current' new where
  projects := h.projects
  tickets := by
    show replaceRow (fun t : TicketRecord => t.id) new store.tickets = [new]
    simp [replaceRow, h.tickets, hbase]
  id := by rw [hbase, h.id]
  projectId := by rw [hbase, h.projectId]
  projectRoot := by rw [hbase, h.projectRoot]
  scopes := by rw [hbase, h.scopes]
  dependencies := hdependencies.trans h.dependencies
  criteria := hcriteria
  status := hstatus

end

def pendingCriterion : TicketAcceptanceCriterion := { id := "criterion", description := "c" }

def resetCriterion : TicketAcceptanceCriterion := { pendingCriterion with resolvedBy := some "u" }

def waivedCriterion : TicketAcceptanceCriterion :=
  { pendingCriterion with status := "WAIVED", waiverReason := some "r", resolvedBy := some "u",
                          resolvedAt := some "now" }

/-- A request that names nothing but the registered project creates its ticket. -/
theorem create_registered (req : TicketRequest) (hproject : req.projectId = "project")
    (htitle : squeeze req.title ≠ "") (hdescription : squeeze req.description ≠ "")
    (hcriteria : squeezed req.acceptanceCriteria ≠ [])
    (hpriority : upper plainHost.text req.priority ∈ priorities)
    (hdependencies : req.dependencyTicketIds = []) (hbudget : req.budget = {})
    (ticketId policyId : String) (criterionId : Nat → String) :
    ∃ left, create plainHost req ticketId policyId criterionId (fun _ => .ok ()) registered =
        (.ok (newTicket plainHost registered req registeredProject ticketId criterionId), left) ∧
      left.projects = [registeredProject] ∧
      left.tickets = [newTicket plainHost registered req registeredProject ticketId criterionId] := by
  have hchecked : checkTicketRequest plainHost registered req (fun _ => .ok ()) =
      .ok registeredProject := by
    simp [checkTicketRequest, hproject, htitle, hdescription, hcriteria, hpriority, hdependencies,
      registered, registeredProject, sortedSet, Option.filter, bind, Except.bind, pure, Except.pure]
  have hgoverned : governedProject plainHost.toGovernanceHost registered.projects "project" =
      .ok registeredProject := by
    simp [governedProject, registered, registeredProject, canonicalRoot_root, overlapsAnother]
  have hfits : ∀ policy : ProjectGovernancePolicy, policy.terms = {} →
      RlmGraph.Sandbox.Operations.assertBudget policy req.budget = .ok () := by
    intro policy hterms
    simp [RlmGraph.Sandbox.Operations.assertBudget, hterms, hbudget]
  simp only [create, hchecked, policyOf, show registeredProject.id = "project" from rfl, hgoverned,
    show registered.policies "project" = none from rfl, Except.bind, hfits]
  exact ⟨_, rfl, rfl, rfl⟩

theorem created_sample : ∃ t, OneTicket (after plainSurroundings creation registered)
    pendingCriterion "DRAFT" t := by
  obtain ⟨left, hcreate, hprojects, htickets⟩ := create_registered plainRequest rfl (by decide)
    (by decide) (by decide) (by decide) rfl rfl "ticket" "policy" fun _ => "criterion"
  have hafter : after plainSurroundings creation registered = left := congrArg Prod.snd hcreate
  refine ⟨newTicket plainHost registered plainRequest registeredProject "ticket" fun _ => "criterion", ?_⟩
  rw [hafter]
  exact {
    projects := hprojects
    tickets := htickets
    id := rfl
    projectId := rfl
    projectRoot := rfl
    scopes := rfl
    dependencies := rfl
    criteria := by simp [newTicket, plainRequest, pendingCriterion, show squeezed ["c"] = ["c"] by decide]
    status := rfl }

def resolutionRequest (status : String) : CriterionRequest := ⟨"ticket", "criterion", status, [], "r", "u"⟩

theorem OneTicket.resolve {criterion criterion' : TicketAcceptanceCriterion} {current status : String}
    (h : OneTicket store criterion current ticket) (hid : criterion.id = "criterion")
    (hcheck : checkCriterionRequest plainSurroundings store ticket (upper plainHost.text status)
      (resolutionRequest status) = .ok [])
    (hresolved : resolvedCriterion "now" (upper plainHost.text status) (resolutionRequest status) []
      criterion = criterion') :
    ∃ t, OneTicket (after plainSurroundings (resolution status) store) criterion' current t := by
  have hget : Manager.getTicket plainSurroundings.host store (resolutionRequest status).ticketId =
      .ok ticket := h.getTicket
  have hfind : ticket.acceptanceCriteria.find? (·.id == (resolutionRequest status).criterionId) =
      some criterion := by
    simp [h.criteria, hid, resolutionRequest]
  have hchanged : changeFirst (·.id == (resolutionRequest status).criterionId)
      (resolvedCriterion "now" (upper plainSurroundings.host.text (resolutionRequest status).status)
        (resolutionRequest status) []) ticket.acceptanceCriteria = [criterion'] := by
    rw [h.criteria, ← hresolved]
    simp [changeFirst, hid, resolutionRequest, plainSurroundings]
  have hcheck' : checkCriterionRequest plainSurroundings store ticket
      (upper plainSurroundings.host.text (resolutionRequest status).status)
      (resolutionRequest status) = .ok [] := hcheck
  refine ⟨{ ticket with acceptanceCriteria := [criterion'] }, ?_⟩
  show OneTicket (Manager.resolveCriterion plainSurroundings "now" (resolutionRequest status) store).2 _ _ _
  simp only [Manager.resolveCriterion, hget, hfind, hcheck', hchanged]
  exact h.save { ticket with acceptanceCriteria := [criterion'] } rfl rfl rfl h.status _ _ _ _

theorem waived_sample (h : OneTicket store pendingCriterion "DRAFT" ticket) :
    ∃ t, OneTicket (after plainSurroundings (resolution "WAIVED") store) waivedCriterion "DRAFT" t := by
  have hstatus : upper plainHost.text "WAIVED" = "WAIVED" := by decide
  refine h.resolve rfl ?_ ?_
  · rw [hstatus]
    simp [checkCriterionRequest, criterionStatuses, resolutionRequest, show strip "u" = "u" by decide,
      show strip "r" = "r" by decide, bind, Except.bind, pure, Except.pure]
  · rw [hstatus]
    simp [resolvedCriterion, resolutionRequest, pendingCriterion, waivedCriterion, distinct,
      show strip "r" = "r" by decide]

theorem reset_sample (h : OneTicket store waivedCriterion "SATISFIED" ticket) :
    ∃ t, OneTicket (after plainSurroundings (resolution "PENDING") store) resetCriterion "SATISFIED" t := by
  have hstatus : upper plainHost.text "PENDING" = "PENDING" := by decide
  refine h.resolve rfl ?_ ?_
  · rw [hstatus]
    simp [checkCriterionRequest, criterionStatuses, resolutionRequest, bind, Except.bind, pure,
      Except.pure]
  · rw [hstatus]
    simp [resolvedCriterion, resolutionRequest, pendingCriterion, resetCriterion, waivedCriterion,
      distinct]

/-- The report on the only criterion. -/
theorem OneTicket.report {criterion : TicketAcceptanceCriterion} {current : String}
    (h : OneTicket store criterion current ticket) (hids : criterion.evidenceIds = []) :
    closureReport plainSurroundings store ticket =
      .ok ([(gateOf criterion []).1], (gateOf criterion []).2) := by
  simp [closureReport, h.criteria, h.dependencies, criterionGate, hids, bind, Except.bind, pure,
    Except.pure]

theorem satisfied_sample (h : OneTicket store waivedCriterion "DRAFT" ticket) :
    ∃ t, OneTicket (after plainSurroundings satisfaction store) waivedCriterion "SATISFIED" t := by
  have hget : Manager.getTicket plainSurroundings.host store "ticket" = .ok ticket := h.getTicket
  have hstatus : upper plainSurroundings.host.text "SATISFIED" = "SATISFIED" := by decide
  have hreport := h.report rfl
  rw [show (gateOf waivedCriterion []).2 = [] from by decide] at hreport
  show ∃ t, OneTicket (Manager.transition plainSurroundings "ticket" "SATISFIED" "u" "r" store).2 _ _ t
  obtain ⟨decision, hdecision, hallowed, hgates⟩ : ∃ decision,
      closureDecision plainSurroundings store ticket "SATISFIED" "u" "r" = .ok decision ∧
        decision.allowed = true ∧ decision.criterionGates = [(gateOf waivedCriterion []).1] := by
    simp [closureDecision, hreport, bind, Except.bind, pure, Except.pure]
  have hcloses : Manager.transition plainSurroundings "ticket" "SATISFIED" "u" "r" store =
      Manager.closeTicket plainSurroundings ticket "SATISFIED" "u" "r" store := by
    simp [Manager.transition, hget, hstatus, transitionTo, ticketStatuses, closing]
  have hset : ∀ (base : TicketStore) (t : TicketRecord), OneTicket base waivedCriterion "DRAFT" t →
      OneTicket (Manager.setStatus "SATISFIED" "r" "u" t base).2 waivedCriterion "SATISFIED"
        { t with status := "SATISFIED" } := by
    intro base t ht
    exact ht.save { t with status := "SATISFIED" } rfl rfl ht.criteria rfl _ _ _ _
  rw [hcloses]
  unfold Manager.closeTicket
  rw [if_neg (by simp [show strip "u" = "u" by decide, show strip "r" = "r" by decide])]
  simp only [hdecision]
  by_cases hknown : ticket.closureDecisions.any (·.fingerprint == decision.fingerprint) = true
  · have hpersist : persistClosureDecision ticket decision store = (false, ticket, store) := by
      simp [persistClosureDecision, hknown]
    simp only [hpersist, hallowed, h.status]
    exact ⟨_, hset store ticket h⟩
  · have hcriteria : withAssessments [(gateOf waivedCriterion []).1] [waivedCriterion] =
        [waivedCriterion] := by decide
    obtain ⟨kind, detail, actor, artifactIds, hpersist⟩ : ∃ kind detail actor artifactIds,
        persistClosureDecision ticket decision store = (true, { ticket with
          closureDecisions := ticket.closureDecisions ++ [decision]
          acceptanceCriteria := [waivedCriterion] }, event ticket.id kind detail actor artifactIds
            (saveProjectTicket store { ticket with
              closureDecisions := ticket.closureDecisions ++ [decision]
              acceptanceCriteria := [waivedCriterion] })) := by
      unfold persistClosureDecision
      rw [if_neg hknown, hgates, h.criteria, hcriteria]
      exact ⟨_, _, _, _, rfl⟩
    simp only [hpersist, hallowed]
    exact ⟨_, hset _ _ (h.save { ticket with
      closureDecisions := ticket.closureDecisions ++ [decision]
      acceptanceCriteria := [waivedCriterion] } rfl rfl rfl h.status _ _ _ _)⟩

/-- The run that creates a ticket, waives its criterion and satisfies it. -/
theorem satisfied_run : ∃ store ticket, Run plainSurroundings (KeepsGround plainSurroundings) store ∧
    OneTicket store waivedCriterion "SATISFIED" ticket := by
  obtain ⟨t₁, h₁⟩ := created_sample
  obtain ⟨t₂, h₂⟩ := waived_sample h₁
  obtain ⟨t₃, h₃⟩ := satisfied_sample h₂
  have hopen : closing.contains "DRAFT" = false := by decide
  have hclosing : closing.contains (upper plainHost.text "SATISFIED") = true := by decide
  refine ⟨_, t₃, .step satisfaction (.step (resolution "WAIVED") (.step creation (.initial registered rfl)
    (by simp [creation, Operation.Fresh, registered]) trivial) trivial ?_) trivial ?_, h₃⟩
  · intro _ _ _ t ht _ hclosed
    rw [h₁.tickets, List.mem_singleton] at ht
    rw [ht, Closed, h₁.status, hopen] at hclosed
    cases hclosed
  · intro _ _ hnot
    rw [show upper plainSurroundings.host.text "SATISFIED" = upper plainHost.text "SATISFIED" from rfl,
      hclosing] at hnot
    cases hnot

theorem closed_justified_waived : ∃ store ticket, OneTicket store waivedCriterion "SATISFIED" ticket ∧
    ∃ gates, closureReport plainSurroundings store ticket = .ok (gates, []) := by
  obtain ⟨store, ticket, hrun, hone⟩ := satisfied_run
  have hticket : ticket ∈ store.tickets := by
    rw [hone.tickets]
    exact List.mem_singleton.mpr rfl
  have hclosed : Closed ticket := by
    rw [Closed, hone.status]
    decide
  obtain ⟨⟨gates, hreport, -⟩, -⟩ := closed_justified hrun hticket hclosed
  exact ⟨store, ticket, hone, gates, hreport⟩

/-- **A criterion set back to pending.** The satisfied ticket stays satisfied,
and its report finds the criterion pending. -/
theorem satisfied_with_pending_criterion :
    ∃ store ticket gates failures, Run plainSurroundings (fun _ _ => True) store ∧
      ticket ∈ store.tickets ∧ ticket.status = "SATISFIED" ∧
      closureReport plainSurroundings store ticket = .ok (gates, failures) ∧ failures ≠ [] := by
  obtain ⟨t₁, h₁⟩ := created_sample
  obtain ⟨t₂, h₂⟩ := waived_sample h₁
  obtain ⟨t₃, h₃⟩ := satisfied_sample h₂
  obtain ⟨t₄, h₄⟩ := reset_sample h₃
  refine ⟨_, t₄, _, _, .step (resolution "PENDING") (.step satisfaction (.step (resolution "WAIVED")
    (.step creation (.initial registered rfl) (by simp [creation, Operation.Fresh, registered]) trivial)
    trivial trivial) trivial trivial) trivial trivial, ?_, h₄.status, h₄.report rfl, ?_⟩
  · rw [h₄.tickets]
    exact List.mem_singleton.mpr rfl
  · decide

end RlmGraph.Tickets.Justified
