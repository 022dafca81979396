import Mathlib.Data.List.Nodup
import RlmGraph.Repair.Workflow

/-! # The rows of repairs

What may be written of approvals, promotions, reconciliations and workflows, and
to which files (`Legal`). The rows stay sound under such operations
(`sound_of_legal`), and what has been settled stays as it is (`kept_of_legal`). -/
namespace RlmGraph.Repair.Bookkeeping
open RlmGraph.Lib RlmGraph.Lib.JsonText RlmGraph.Lib.Programs
open RlmGraph.Sandbox.Records (FileState PatchChange)
open RlmGraph.Repair.Recovery (PromotionStatus RepairPromotion)
open RlmGraph.Repair.Promotion RlmGraph.Repair.Workflow

/-! ## Rows -/

/-- What of a promotion never changes. -/
structure Journal where
  id : String
  proposalId : String
  validationId : String
  approvalId : String
  projectRoot : String
  changes : List PatchChange
  originalTreeFingerprint : String

def journal (p : RepairPromotion) : Journal :=
  ⟨p.id, p.proposalId, p.validationId, p.approvalId, p.projectRoot, p.changes,
    p.originalTreeFingerprint⟩

/-- Nothing more is done about a promotion with such a status. -/
def closed : PromotionStatus → Bool
  | .rolledBack | .applicationFailed => true
  | .approved | .applying | .applied | .verified => false

/-- The rows that are written, and the number of identifiers drawn. -/
structure Book where
  drawn : Nat
  approvals : List RepairApproval
  promotions : List RepairPromotion
  reconciliations : List PostRepairReconciliation
  workflows : List MaintenanceWorkflow

def bookOf (w : World) : Book :=
  ⟨w.drawn, w.tables.approvals, w.tables.promotions, w.tables.reconciliations, w.tables.workflows⟩

namespace Book

def draw (b : Book) : Book := { b with drawn := b.drawn + 1 }

def approve (b : Book) (a : RepairApproval) : Book :=
  { b with approvals := Rows.upsert (·.id) a b.approvals }

def promote (b : Book) (p : RepairPromotion) : Book :=
  { b with promotions := Rows.upsert (·.id) p b.promotions }

def reconcile (b : Book) (r : PostRepairReconciliation) : Book :=
  { b with reconciliations := Rows.upsert (·.id) r b.reconciliations }

def advance (b : Book) (f : MaintenanceWorkflow) : Book :=
  { b with workflows := Rows.upsert (·.id) f b.workflows }

end Book

/-- What the status of a promotion says of its other fields. -/
structure Recorded (p : RepairPromotion) : Prop where
  logged : p.events.getLast?.map (·.status) = some p.status
  verified : p.status = .verified → p.appliedTreeFingerprint ≠ none ∧
    ∃ test, p.finalValidation = some test ∧ test.exitCode = 0
  rolledBack : p.status = .rolledBack →
    p.rollbackVerified = some true ∧ p.rollbackTreeFingerprint = some p.originalTreeFingerprint

def Approved (b : Book) (p : RepairPromotion) : Prop :=
  ∃ a ∈ b.approvals, a.decision = .approved ∧ a.id = p.approvalId ∧ a.proposalId = p.proposalId

/-- A promotion that stays as it is. -/
def Settled (b : Book) (p : RepairPromotion) : Prop :=
  closed p.status = true ∨ ∃ r ∈ b.reconciliations, r.promotionId = p.id

/-- A workflow whose decision nobody has taken yet. -/
def Pending (f : MaintenanceWorkflow) : Prop := f.approvalId = none ∧ f.promotionId = none

/-- A workflow that has come to a promotion with a status. -/
def Concluded (b : Book) (f : MaintenanceWorkflow) (status : PromotionStatus) : Prop :=
  ∃ a ∈ b.approvals, ∃ p ∈ b.promotions, a.decision = .approved ∧ f.approvalId = some a.id ∧
    f.proposalId = some a.proposalId ∧ f.promotionId = some p.id ∧ p.approvalId = a.id ∧
    p.status = status

/-- What the status of a workflow stands on. -/
def Justified (b : Book) (f : MaintenanceWorkflow) : Prop :=
  match f.status with
  | .created => Pending f
  | .diagnosed => Pending f ∧ f.diagnosisClaimId.isSome = true
  | .waitingForApproval =>
    Pending f ∧ f.proposalId.isSome = true ∧ f.sandboxValidationId.isSome = true
  | .rejected => f.promotionId = none ∧ ∃ a ∈ b.approvals, a.decision = .rejected ∧
      f.approvalId = some a.id ∧ f.proposalId = some a.proposalId
  | .completed => Concluded b f .verified ∧ ∃ r ∈ b.reconciliations,
      f.reconciliationId = some r.id ∧ f.promotionId = some r.promotionId
  | .rolledBack => Concluded b f .rolledBack
  | .failed => Pending f ∨ Concluded b f .applicationFailed

def Drawn (host : WorkflowHost) (b : Book) (kind id : String) : Prop :=
  ∃ n < b.drawn, id = host.newId kind n

/-- The promises of the rows. With `solo`, decisions are taken by workflows only. -/
structure Sound (host : WorkflowHost) (solo : Prop) (b : Book) : Prop where
  approvalIds : (b.approvals.map (·.id)).Nodup
  promotionIds : (b.promotions.map (·.id)).Nodup
  reconciliationIds : (b.reconciliations.map (·.id)).Nodup
  workflowIds : (b.workflows.map (·.id)).Nodup
  drawnApprovals : ∀ a ∈ b.approvals, Drawn host b "APPROVAL" a.id
  drawnPromotions : ∀ p ∈ b.promotions, Drawn host b "PROMOTION" p.id
  drawnReconciliations : ∀ r ∈ b.reconciliations, Drawn host b "RECONCILE" r.id
  drawnWorkflows : ∀ f ∈ b.workflows, Drawn host b "WORKFLOW" f.id
  signed : ∀ a ∈ b.approvals, a.approvedBy ≠ "" ∧ a.reason ≠ ""
  oneDecision : solo → (b.approvals.map (·.proposalId)).Nodup
  approved : ∀ p ∈ b.promotions, Approved b p
  recorded : ∀ p ∈ b.promotions, Recorded p
  reconciled : ∀ r ∈ b.reconciliations, ∃ p ∈ b.promotions,
    p.id = r.promotionId ∧ p.proposalId = r.proposalId ∧ p.status = .verified
  oneReconciliation : (b.reconciliations.map (·.promotionId)).Nodup
  justified : ∀ f ∈ b.workflows, Justified b f
  logged : ∀ f ∈ b.workflows, f.events.getLast?.map (·.status) = some f.status
  signatures : (b.workflows.map (·.signature)).Nodup

/-- What a run leaves of the rows it found. -/
structure Kept (b b' : Book) : Prop where
  approvals : ∀ a ∈ b.approvals, a ∈ b'.approvals
  promotions : ∀ p ∈ b.promotions, ∃ p' ∈ b'.promotions, journal p' = journal p ∧
    (Settled b p → p' = p)
  reconciliations : ∀ r ∈ b.reconciliations, r ∈ b'.reconciliations
  workflows : ∀ f ∈ b.workflows, ∃ f' ∈ b'.workflows, f'.id = f.id ∧ f'.signature = f.signature ∧
    (terminal f.status = true → f' = f)

theorem Kept.refl (b : Book) : Kept b b :=
  ⟨fun _ h => h, fun p h => ⟨p, h, rfl, fun _ => rfl⟩, fun _ h => h,
    fun f h => ⟨f, h, rfl, rfl, fun _ => rfl⟩⟩

variable {host : WorkflowHost} {solo : Prop} {b b' b'' : Book} {w : World}

theorem Settled.mono {p : RepairPromotion} (h : Settled b p)
    (hrows : ∀ r ∈ b.reconciliations, r ∈ b'.reconciliations) : Settled b' p :=
  h.imp_right fun ⟨r, hr, hid⟩ => ⟨r, hrows r hr, hid⟩

theorem Kept.trans (h : Kept b b') (h' : Kept b' b'') : Kept b b'' where
  approvals := fun a ha => h'.approvals a (h.approvals a ha)
  promotions := by
    intro p hp
    obtain ⟨p', hp', hjournal, hsettled⟩ := h.promotions p hp
    obtain ⟨p'', hp'', hjournal', hsettled'⟩ := h'.promotions p' hp'
    refine ⟨p'', hp'', hjournal'.trans hjournal, fun hs => ?_⟩
    obtain rfl := hsettled hs
    exact hsettled' (hs.mono h.reconciliations)
  reconciliations := fun r hr => h'.reconciliations r (h.reconciliations r hr)
  workflows := by
    intro f hf
    obtain ⟨f', hf', hid, hsignature, hterminal⟩ := h.workflows f hf
    obtain ⟨f'', hf'', hid', hsignature', hterminal'⟩ := h'.workflows f' hf'
    refine ⟨f'', hf'', hid'.trans hid, hsignature'.trans hsignature, fun ht => ?_⟩
    obtain rfl := hterminal ht
    exact hterminal' ht

/-! ## Saves -/

/-- An approval that may be stored. -/
structure MayApprove (host : WorkflowHost) (solo : Prop) (b : Book) (a : RepairApproval) : Prop where
  drawn : Drawn host b "APPROVAL" a.id
  new : a.id ∉ b.approvals.map (·.id)
  signed : a.approvedBy ≠ "" ∧ a.reason ≠ ""
  first : solo → a.proposalId ∉ b.approvals.map (·.proposalId)

/-- A promotion that may be stored, where it is new or over what is not settled. -/
structure MayPromote (host : WorkflowHost) (b : Book) (p : RepairPromotion) : Prop where
  drawn : Drawn host b "PROMOTION" p.id
  approved : Approved b p
  recorded : Recorded p
  replaced : ∀ q ∈ b.promotions, q.id = p.id → ¬Settled b q ∧ journal q = journal p

structure MayReconcile (host : WorkflowHost) (b : Book) (r : PostRepairReconciliation) : Prop where
  drawn : Drawn host b "RECONCILE" r.id
  new : r.id ∉ b.reconciliations.map (·.id)
  verified : ∃ p ∈ b.promotions,
    p.id = r.promotionId ∧ p.proposalId = r.proposalId ∧ p.status = .verified
  first : r.promotionId ∉ b.reconciliations.map (·.promotionId)

/-- A workflow that may be stored, where it is new or over what has not ended. -/
structure MayAdvance (host : WorkflowHost) (b : Book) (f : MaintenanceWorkflow) : Prop where
  drawn : Drawn host b "WORKFLOW" f.id
  justified : Justified b f
  logged : f.events.getLast?.map (·.status) = some f.status
  replaced : ∀ g ∈ b.workflows, g.id = f.id → terminal g.status = false ∧ g.signature = f.signature
  sole : ∀ g ∈ b.workflows, g.signature = f.signature → g.id = f.id

theorem not_mem_ids {α : Type} {key : α → String} {rows : List α} {kind : String}
    (h : ∀ row ∈ rows, Drawn host b kind (key row)) : host.newId kind b.drawn ∉ rows.map key := by
  intro hmem
  obtain ⟨row, hrow, hkey⟩ := List.mem_map.mp hmem
  obtain ⟨n, hn, hid⟩ := h row hrow
  have heq := host.newId_inj kind (hid.symm.trans hkey)
  omega

theorem Drawn.draw {kind id : String} (h : Drawn host b kind id) : Drawn host b.draw kind id := by
  obtain ⟨n, hn, hid⟩ := h
  exact ⟨n, Nat.lt_succ_of_lt hn, hid⟩

theorem drawn_new (kind : String) : Drawn host b.draw kind (host.newId kind b.drawn) :=
  ⟨b.drawn, Nat.lt_succ_self _, rfl⟩

theorem Justified.mono {f : MaintenanceWorkflow} (h : Justified b f)
    (happrovals : ∀ a ∈ b.approvals, a ∈ b'.approvals)
    (hpromotions : ∀ p ∈ b.promotions, f.promotionId = some p.id → p ∈ b'.promotions)
    (hreconciliations : ∀ r ∈ b.reconciliations, r ∈ b'.reconciliations) : Justified b' f := by
  have hconcluded : ∀ {status}, Concluded b f status → Concluded b' f status := by
    rintro status ⟨a, ha, p, hp, hdecision, happroval, hproposal, hpromotion, hof, hstatus⟩
    exact ⟨a, happrovals a ha, p, hpromotions p hp hpromotion, hdecision, happroval, hproposal,
      hpromotion, hof, hstatus⟩
  unfold Justified at h ⊢
  split at h
  · exact h
  · exact h
  · exact h
  · obtain ⟨hnone, a, ha, hrest⟩ := h
    exact ⟨hnone, a, happrovals a ha, hrest⟩
  · obtain ⟨hc, r, hr, hrest⟩ := h
    exact ⟨hconcluded hc, r, hreconciliations r hr, hrest⟩
  · exact hconcluded h
  · exact h.imp_right hconcluded

/-- How a promotion stands that is settled. -/
theorem settled_status {p : RepairPromotion} (h : Sound host solo b) (hp : p ∈ b.promotions)
    (hsettled : Settled b p) :
    (p.status = .rolledBack ∨ p.status = .applicationFailed) ∨ p.status = .verified := by
  rcases hsettled with hclosed | ⟨r, hr, hname⟩
  · unfold closed at hclosed
    split at hclosed
    · next hstatus => exact Or.inl (Or.inl hstatus)
    · next hstatus => exact Or.inl (Or.inr hstatus)
    all_goals cases hclosed
  · obtain ⟨q, hq, hid, -, hverified⟩ := h.reconciled r hr
    obtain rfl := List.inj_on_of_nodup_map h.promotionIds hq hp (hid.trans hname)
    exact Or.inr hverified

/-- A promotion that a workflow names is settled. -/
theorem settled_of_named {f : MaintenanceWorkflow} {q : RepairPromotion} (h : Sound host solo b)
    (hf : f ∈ b.workflows) (hq : q ∈ b.promotions) (hname : f.promotionId = some q.id) :
    Settled b q := by
  have hconcluded : ∀ {status}, Concluded b f status → q.status = status := by
    rintro status ⟨a, -, p, hp, -, -, -, hpromotion, -, hstatus⟩
    have hid : p.id = q.id := Option.some.inj (hpromotion.symm.trans hname)
    obtain rfl := List.inj_on_of_nodup_map h.promotionIds hp hq hid
    exact hstatus
  have hpending : ¬Pending f := by
    rintro ⟨-, hnone⟩
    rw [hnone] at hname
    cases hname
  have hjustified := h.justified f hf
  unfold Justified at hjustified
  split at hjustified
  · exact absurd hjustified hpending
  · exact absurd hjustified.1 hpending
  · exact absurd hjustified.1 hpending
  · rw [hjustified.1] at hname
    cases hname
  · obtain ⟨-, r, hr, -, hof⟩ := hjustified
    exact Or.inr ⟨r, hr, Option.some.inj (hof.symm.trans hname)⟩
  · exact Or.inl (by rw [hconcluded hjustified]; rfl)
  · rcases hjustified with hnone | hc
    · exact absurd hnone hpending
    · exact Or.inl (by rw [hconcluded hc]; rfl)

theorem Sound.draw (h : Sound host solo b) : Sound host solo b.draw where
  approvalIds := h.approvalIds
  promotionIds := h.promotionIds
  reconciliationIds := h.reconciliationIds
  workflowIds := h.workflowIds
  drawnApprovals := fun a ha => (h.drawnApprovals a ha).draw
  drawnPromotions := fun p hp => (h.drawnPromotions p hp).draw
  drawnReconciliations := fun r hr => (h.drawnReconciliations r hr).draw
  drawnWorkflows := fun f hf => (h.drawnWorkflows f hf).draw
  signed := h.signed
  oneDecision := h.oneDecision
  approved := h.approved
  recorded := h.recorded
  reconciled := h.reconciled
  oneReconciliation := h.oneReconciliation
  justified := fun f hf => (h.justified f hf).mono (fun _ h => h) (fun _ h _ => h) fun _ h => h
  logged := h.logged
  signatures := h.signatures

theorem Sound.approve {a : RepairApproval} (h : Sound host solo b) (ha : MayApprove host solo b a) :
    Sound host solo (b.approve a) := by
  have hrows : (b.approve a).approvals = b.approvals ++ [a] := Rows.upsert_new ha.new
  have hmem : ∀ c ∈ b.approvals, c ∈ (b.approve a).approvals := by
    intro c hc
    rw [hrows]
    exact List.mem_append_left _ hc
  constructor
  case approvalIds => exact Rows.nodup_upsert h.approvalIds
  case drawnApprovals =>
    rw [hrows]
    exact Rows.forall_mem_concat h.drawnApprovals ha.drawn
  case signed =>
    rw [hrows]
    exact Rows.forall_mem_concat h.signed ha.signed
  case oneDecision =>
    intro hsolo
    rw [hrows]
    exact Rows.nodup_concat (h.oneDecision hsolo) (ha.first hsolo)
  case approved =>
    intro p hp
    obtain ⟨c, hc, hof⟩ := h.approved p hp
    exact ⟨c, hmem c hc, hof⟩
  case justified =>
    exact fun f hf => (h.justified f hf).mono hmem (fun _ h _ => h) fun _ h => h
  case promotionIds => exact h.promotionIds
  case reconciliationIds => exact h.reconciliationIds
  case workflowIds => exact h.workflowIds
  case drawnPromotions => exact h.drawnPromotions
  case drawnReconciliations => exact h.drawnReconciliations
  case drawnWorkflows => exact h.drawnWorkflows
  case recorded => exact h.recorded
  case reconciled => exact h.reconciled
  case oneReconciliation => exact h.oneReconciliation
  case logged => exact h.logged
  case signatures => exact h.signatures

theorem Sound.promote {p : RepairPromotion} (h : Sound host solo b) (hp : MayPromote host b p) :
    Sound host solo (b.promote p) := by
  have hstays : ∀ q ∈ b.promotions, Settled b q → q ∈ (b.promote p).promotions := by
    intro q hq hsettled
    refine Rows.mem_upsert.mpr (Or.inr ⟨hq, fun hid => ?_⟩)
    exact (hp.replaced q hq hid).1 hsettled
  have hall : ∀ {P : RepairPromotion → Prop}, (∀ q ∈ b.promotions, P q) → P p →
      ∀ q ∈ (b.promote p).promotions, P q := by
    intro P hold hnew q hq
    rcases Rows.mem_upsert.mp hq with rfl | ⟨hq, -⟩
    · exact hnew
    · exact hold q hq
  constructor
  case promotionIds => exact Rows.nodup_upsert h.promotionIds
  case drawnPromotions => exact hall h.drawnPromotions hp.drawn
  case approved => exact hall h.approved hp.approved
  case recorded => exact hall h.recorded hp.recorded
  case reconciled =>
    intro r hr
    obtain ⟨q, hq, hid, hrest⟩ := h.reconciled r hr
    exact ⟨q, hstays q hq (Or.inr ⟨r, hr, hid.symm⟩), hid, hrest⟩
  case justified =>
    intro f hf
    refine (h.justified f hf).mono (fun _ h => h) (fun q hq hname => ?_) fun _ h => h
    exact hstays q hq (settled_of_named h hf hq hname)
  case approvalIds => exact h.approvalIds
  case reconciliationIds => exact h.reconciliationIds
  case workflowIds => exact h.workflowIds
  case drawnApprovals => exact h.drawnApprovals
  case drawnReconciliations => exact h.drawnReconciliations
  case drawnWorkflows => exact h.drawnWorkflows
  case signed => exact h.signed
  case oneDecision => exact h.oneDecision
  case oneReconciliation => exact h.oneReconciliation
  case logged => exact h.logged
  case signatures => exact h.signatures

theorem Sound.reconcile {r : PostRepairReconciliation} (h : Sound host solo b)
    (hr : MayReconcile host b r) : Sound host solo (b.reconcile r) := by
  have hrows : (b.reconcile r).reconciliations = b.reconciliations ++ [r] := Rows.upsert_new hr.new
  constructor
  case reconciliationIds => exact Rows.nodup_upsert h.reconciliationIds
  case drawnReconciliations =>
    rw [hrows]
    exact Rows.forall_mem_concat h.drawnReconciliations hr.drawn
  case reconciled =>
    rw [hrows]
    exact Rows.forall_mem_concat h.reconciled hr.verified
  case oneReconciliation =>
    rw [hrows]
    exact Rows.nodup_concat h.oneReconciliation hr.first
  case justified =>
    refine fun f hf => (h.justified f hf).mono (fun _ h => h) (fun _ h _ => h) fun q hq => ?_
    rw [hrows]
    exact List.mem_append_left _ hq
  case approvalIds => exact h.approvalIds
  case promotionIds => exact h.promotionIds
  case workflowIds => exact h.workflowIds
  case drawnApprovals => exact h.drawnApprovals
  case drawnPromotions => exact h.drawnPromotions
  case drawnWorkflows => exact h.drawnWorkflows
  case signed => exact h.signed
  case oneDecision => exact h.oneDecision
  case approved => exact h.approved
  case recorded => exact h.recorded
  case logged => exact h.logged
  case signatures => exact h.signatures

theorem Sound.advance {f : MaintenanceWorkflow} (h : Sound host solo b) (hf : MayAdvance host b f) :
    Sound host solo (b.advance f) := by
  have hall : ∀ {P : MaintenanceWorkflow → Prop}, (∀ g ∈ b.workflows, P g) → P f →
      ∀ g ∈ (b.advance f).workflows, P g := by
    intro P hold hnew g hg
    rcases Rows.mem_upsert.mp hg with rfl | ⟨hg, -⟩
    · exact hnew
    · exact hold g hg
  constructor
  case workflowIds => exact Rows.nodup_upsert h.workflowIds
  case drawnWorkflows => exact hall h.drawnWorkflows hf.drawn
  case justified =>
    refine hall (fun g hg => ?_) ?_
    · exact (h.justified g hg).mono (fun _ h => h) (fun _ h _ => h) fun _ h => h
    · exact hf.justified.mono (fun _ h => h) (fun _ h _ => h) fun _ h => h
  case logged => exact hall h.logged hf.logged
  case signatures =>
    refine List.Nodup.map_on (fun g hg g' hg' heq => ?_) (Rows.nodup_upsert h.workflowIds).of_map
    rcases Rows.mem_upsert.mp hg with rfl | ⟨hold, hne⟩ <;>
      rcases Rows.mem_upsert.mp hg' with rfl | ⟨hold', hne'⟩
    · rfl
    · exact absurd (hf.sole g' hold' heq.symm) hne'
    · exact absurd (hf.sole g hold heq) hne
    · exact List.inj_on_of_nodup_map h.signatures hold hold' heq
  case approvalIds => exact h.approvalIds
  case promotionIds => exact h.promotionIds
  case reconciliationIds => exact h.reconciliationIds
  case drawnApprovals => exact h.drawnApprovals
  case drawnPromotions => exact h.drawnPromotions
  case drawnReconciliations => exact h.drawnReconciliations
  case signed => exact h.signed
  case oneDecision => exact h.oneDecision
  case approved => exact h.approved
  case recorded => exact h.recorded
  case reconciled => exact h.reconciled
  case oneReconciliation => exact h.oneReconciliation

/-! ## Operations -/

/-- The contents of a change: the approved ones and those from before. -/
def Content (host : WorkflowHost) (change : PatchChange) (bytes : Bytes) : Prop :=
  change.afterContent.map utf8 = some bytes ∨ host.sha256 bytes = change.beforeHash ∨
    change.beforeContent.map utf8 = some bytes

/-- A change of a promotion: of its journal, or, when it is rolled back later, of
the stored proposal and the root that its approval names. -/
def Planned (host : WorkflowHost) (w : World) (p : RepairPromotion) (a : RepairApproval)
    (change : PatchChange) (target : String) : Prop :=
  (change ∈ p.changes ∧ target = host.target p.projectRoot change.path) ∨
    ∃ proposal ∈ w.records.repairProposals, proposal.id = p.proposalId ∧ change ∈ proposal.changes ∧
      change.path ∈ proposal.authorizedPaths ∧
      ∃ root, host.selectRoot a.projectRoot = .ok root ∧ target = host.target root change.path

/-- A file may be given a content of a change whose promotion is approved and open. -/
def Authorized (host : WorkflowHost) (w : World) (target : String) (content : FileState) : Prop :=
  ∃ p ∈ w.tables.promotions, ¬Settled (bookOf w) p ∧ ∃ a ∈ w.tables.approvals,
    a.decision = .approved ∧ a.id = p.approvalId ∧ a.proposalId = p.proposalId ∧
    ∃ change, Planned host w p a change target ∧ Content host change content.bytes

/-- The proposal of an approval has been verified in its sandbox. -/
def Reviewed (records : Records) (a : RepairApproval) : Prop :=
  ∃ proposal ∈ records.repairProposals, proposal.id = a.proposalId ∧ proposal.status = .verified ∧
    ∃ v ∈ records.repairValidations, v.id = a.validationId ∧ v.proposalId = a.proposalId ∧
      v.status = .verified

/-- What an operation may write. -/
def Legal (host : WorkflowHost) (solo : Prop) (op : Op) (w : World) : Prop :=
  match op with
  | .saveApproval a => MayApprove host solo (bookOf w) a ∧ Reviewed w.records a
  | .savePromotion p => MayPromote host (bookOf w) p
  | .saveReconciliation r => MayReconcile host (bookOf w) r
  | .saveWorkflow f => MayAdvance host (bookOf w) f
  | .replace target content => Authorized host w target content
  | _ => True

/-- An operation that writes no row and draws no identifier. -/
def quiet : Op → Bool
  | .newId _ | .saveApproval _ | .savePromotion _ | .saveReconciliation _ | .saveWorkflow _ => false
  | _ => true

theorem book_quiet {op : Op} (h : quiet op = true) : bookOf (perform host op w).2 = bookOf w := by
  cases op with
  | newId kind => cases h
  | saveApproval a => cases h
  | savePromotion p => cases h
  | saveReconciliation r => cases h
  | saveWorkflow f => cases h
  | replace target content =>
    unfold perform
    dsimp only
    split <;> rfl
  | store => rfl
  | files => rfl
  | stage targets => rfl
  | execute command root => rfl
  | acquireLease root holderId workflowId newLeaseId => rfl
  | renewLease root holderId token => rfl
  | recordLease root holderId token kind detail workflowId => rfl
  | outside call => rfl

/-- A save is made, or the rows are as they were. -/
theorem book_save (host : WorkflowHost) (w : World) (tables : Tables) {P : Book → Prop}
    (hsame : P (bookOf w)) (hsaved : P (bookOf { w with tables := tables })) :
    P (bookOf (w.save host tables).2) := by
  unfold World.save
  split
  · exact hsame
  · exact hsaved

/-- The rows stay sound. -/
theorem sound_of_legal {op : Op} (hlegal : Legal host solo op w) (h : Sound host solo (bookOf w)) :
    Sound host solo (bookOf (perform host op w).2) := by
  by_cases hquiet : quiet op = true
  · rwa [book_quiet hquiet]
  · cases op with
    | newId kind => exact h.draw
    | saveApproval a => exact book_save host w _ h (h.approve hlegal.1)
    | savePromotion p => exact book_save host w _ h (h.promote hlegal)
    | saveReconciliation r => exact book_save host w _ h (h.reconcile hlegal)
    | saveWorkflow f => exact book_save host w _ h (h.advance hlegal)
    | _ => exact absurd rfl hquiet

theorem kept_promote {p : RepairPromotion} (hp : MayPromote host b p) : Kept b (b.promote p) where
  approvals := fun _ h => h
  promotions := by
    intro q hq
    by_cases hid : q.id = p.id
    · obtain ⟨hopen, hjournal⟩ := hp.replaced q hq hid
      exact ⟨p, Rows.mem_upsert.mpr (Or.inl rfl), hjournal.symm, fun hs => absurd hs hopen⟩
    · exact ⟨q, Rows.mem_upsert.mpr (Or.inr ⟨hq, hid⟩), rfl, fun _ => rfl⟩
  reconciliations := fun _ h => h
  workflows := fun f h => ⟨f, h, rfl, rfl, fun _ => rfl⟩

theorem kept_advance {f : MaintenanceWorkflow} (hf : MayAdvance host b f) : Kept b (b.advance f) where
  approvals := fun _ h => h
  promotions := fun p h => ⟨p, h, rfl, fun _ => rfl⟩
  reconciliations := fun _ h => h
  workflows := by
    intro g hg
    by_cases hid : g.id = f.id
    · obtain ⟨hopen, hsignature⟩ := hf.replaced g hg hid
      refine ⟨f, Rows.mem_upsert.mpr (Or.inl rfl), hid.symm, hsignature.symm, fun ht => ?_⟩
      rw [hopen] at ht
      cases ht
    · exact ⟨g, Rows.mem_upsert.mpr (Or.inr ⟨hg, hid⟩), rfl, rfl, fun _ => rfl⟩

theorem kept_approve {a : RepairApproval} (ha : MayApprove host solo b a) : Kept b (b.approve a) where
  approvals := by
    intro c hc
    rw [show (b.approve a).approvals = b.approvals ++ [a] from Rows.upsert_new ha.new]
    exact List.mem_append_left _ hc
  promotions := fun p h => ⟨p, h, rfl, fun _ => rfl⟩
  reconciliations := fun _ h => h
  workflows := fun f h => ⟨f, h, rfl, rfl, fun _ => rfl⟩

theorem kept_reconcile {r : PostRepairReconciliation} (hr : MayReconcile host b r) :
    Kept b (b.reconcile r) where
  approvals := fun _ h => h
  promotions := fun p h => ⟨p, h, rfl, fun _ => rfl⟩
  reconciliations := by
    intro q hq
    rw [show (b.reconcile r).reconciliations = b.reconciliations ++ [r] from Rows.upsert_new hr.new]
    exact List.mem_append_left _ hq
  workflows := fun f h => ⟨f, h, rfl, rfl, fun _ => rfl⟩

/-- What has been settled stays. -/
theorem kept_of_legal {op : Op} (hlegal : Legal host solo op w) :
    Kept (bookOf w) (bookOf (perform host op w).2) := by
  by_cases hquiet : quiet op = true
  · rw [book_quiet hquiet]
    exact Kept.refl _
  · cases op with
    | newId kind =>
      exact ⟨fun _ h => h, fun p h => ⟨p, h, rfl, fun _ => rfl⟩, fun _ h => h,
        fun f h => ⟨f, h, rfl, rfl, fun _ => rfl⟩⟩
    | saveApproval a => exact book_save host w _ (Kept.refl _) (kept_approve hlegal.1)
    | savePromotion p => exact book_save host w _ (Kept.refl _) (kept_promote hlegal)
    | saveReconciliation r => exact book_save host w _ (Kept.refl _) (kept_reconcile hlegal)
    | saveWorkflow f => exact book_save host w _ (Kept.refl _) (kept_advance hlegal)
    | _ => exact absurd rfl hquiet

end RlmGraph.Repair.Bookkeeping
