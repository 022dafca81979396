import RlmGraph.Lib.Crashes
import RlmGraph.Repair.WorkflowCalls

/-! # Runs of the maintenance workflow

Calls follow one another, and the process may end within any of them; between
two calls somebody edits the project, and others write their records. Whatever
happens, the rows account for every status, and what has been settled stays. -/
namespace RlmGraph.Repair.WorkflowRuns
open RlmGraph.Lib RlmGraph.Lib.Programs RlmGraph.Store.Lease
open RlmGraph.Repair.Records (RepairProposal RepairValidation)
open RlmGraph.Repair.Promotion RlmGraph.Repair.Workflow RlmGraph.Repair.Bookkeeping
open RlmGraph.Repair.PromotionCalls RlmGraph.Repair.WorkflowCalls

variable {host : WorkflowHost} {solo : Prop} {b : Book} {w : World}

inductive Call where
  | start (holderId question projectRoot testPath : String) (maxTransitions : Option Nat)
  | advance (holderId workflowId : String) (maxTransitions : Option Nat)
  | decide (holderId workflowId : String) (decision : ApprovalDecision) (approvedBy reason : String)
  /-- `RepairPromoter.decide`, past the workflow. -/
  | decideRepair (proposalId projectRoot : String) (decision : ApprovalDecision)
      (approvedBy reason : String)
  | resumeApproval (approvalId : String)
  | reconcile (promotionId : String)

namespace Call

def act (host : WorkflowHost) : Call → WorkflowAct Unit
  | .start holderId question projectRoot testPath maxTransitions => do
    let _ ← Workflow.start host holderId question projectRoot testPath maxTransitions
  | .advance holderId workflowId maxTransitions => do
    let _ ← Workflow.advance host holderId workflowId maxTransitions
  | .decide holderId workflowId decision approvedBy reason => do
    let _ ← Workflow.decide host holderId workflowId decision approvedBy reason
  | .decideRepair proposalId projectRoot decision approvedBy reason => do
    let _ ← Promotion.decideRepair host proposalId projectRoot decision approvedBy reason
  | .resumeApproval approvalId => do
    let _ ← Promotion.resumeApproval host approvalId
  | .reconcile promotionId => do
    let _ ← Promotion.reconcile host promotionId

/-- A decision that no workflow has asked for. -/
def direct : Call → Bool
  | .decideRepair .. => true
  | _ => false

end Call

inductive Event where
  /-- A call, whose process may end after some of its operations. -/
  | call (made : Call) (stop : Option Nat)
  /-- Somebody edits the project. -/
  | edit (tree : Recovery.Tree)
  /-- Others write their records. -/
  | record (records : Records)

def Event.direct : Event → Bool
  | .call made _ => made.direct
  | .edit _ | .record _ => false

def step (host : WorkflowHost) (w : World) : Event → World
  | .call made stop => (made.act host ()).leave (perform host) stop w
  | .edit tree => { w with tree := tree }
  | .record records => { w with records := records }

def run (host : WorkflowHost) (w : World) (events : List Event) : World := events.foldl (step host) w

/-- Nothing has been decided yet. -/
def beginning (records : Records) (tree : Recovery.Tree) : World := { records, tables := {}, tree }

theorem sound_beginning (records : Records) (tree : Recovery.Tree) :
    Sound host solo (bookOf (beginning records tree)) := by
  constructor
  case oneDecision => exact fun _ => List.nodup_nil
  all_goals first
    | exact List.nodup_nil
    | exact fun _ h => by cases h

theorem act_wp (call : Call) (h : Sound host solo (bookOf w)) (hsolo : solo → call.direct = false) :
    (call.act host).wp (lawful host solo) (fun _ _ w' => Sound host solo (bookOf w')) () w := by
  have hdone : ∀ {α : Type} {x : WorkflowAct α},
      x.wp (lawful host solo) (fun _ _ w' => Sound host solo (bookOf w')) () w →
      (x >>= fun _ => pure ()).wp (lawful host solo) (fun _ _ w' => Sound host solo (bookOf w')) () w :=
    fun hx => Act.wp_seq hx (fun _ _ _ h' => h') fun _ _ _ h' => h'
  cases call with
  | start holderId question projectRoot testPath maxTransitions =>
    exact hdone (Act.wp_mono (start_wp h) fun _ _ _ h' => h'.sound)
  | advance holderId workflowId maxTransitions =>
    exact hdone (Act.wp_mono (advance_wp h) fun _ _ _ h' => h'.sound)
  | decide holderId workflowId decision approvedBy reason =>
    exact hdone (Act.wp_mono (decide_wp h) fun _ _ _ h' => h'.sound)
  | decideRepair proposalId projectRoot decision approvedBy reason =>
    refine hdone (Act.wp_mono (decideRepair_wp h rfl fun hs => ?_) fun _ _ _ h' => h'.sound)
    cases hsolo hs
  | resumeApproval approvalId =>
    exact hdone (Act.wp_mono (resumeApproval_wp (Left.refl h)) fun _ _ _ h' => h'.left.sound)
  | reconcile promotionId =>
    exact hdone (Act.wp_mono (reconcile_wp (Left.refl h)) fun _ _ _ h' => h'.left.sound)

/-- **One event** keeps the rows sound, and what has been settled. -/
theorem kept_step (event : Event) (h : Sound host solo (bookOf w)) (hsolo : solo → event.direct = false) :
    Sound host solo (bookOf (step host w event)) ∧ Kept (bookOf w) (bookOf (step host w event)) := by
  cases event with
  | edit tree => exact ⟨h, Kept.refl _⟩
  | record records => exact ⟨h, Kept.refl _⟩
  | call made stop =>
    refine wp_leave (I := fun w' => Sound host solo (bookOf w') ∧ Kept (bookOf w) (bookOf w'))
      (fun op w' hlegal h' => ?_) (act_wp made h hsolo) ⟨h, Kept.refl _⟩ stop
    exact ⟨sound_of_legal hlegal h'.1, h'.2.trans (kept_of_legal hlegal)⟩

/-- **A run** keeps them. -/
theorem kept_run (events : List Event) (h : Sound host solo (bookOf w))
    (hsolo : solo → ∀ event ∈ events, event.direct = false) :
    Sound host solo (bookOf (run host w events)) ∧ Kept (bookOf w) (bookOf (run host w events)) := by
  induction events generalizing w with
  | nil => exact ⟨h, Kept.refl _⟩
  | cons event events ih =>
    obtain ⟨hsound, hkept⟩ := kept_step event h fun hs => hsolo hs event List.mem_cons_self
    obtain ⟨hsound', hkept'⟩ := ih hsound fun hs e he => hsolo hs e (List.mem_cons_of_mem _ he)
    exact ⟨hsound', hkept.trans hkept'⟩

/-- A proposal is decided once, and what is rejected is never promoted. -/
structure DecidedOnce (b : Book) : Prop where
  once : ∀ a ∈ b.approvals, ∀ a' ∈ b.approvals, a.proposalId = a'.proposalId → a = a'
  refused : ∀ a ∈ b.approvals, a.decision = .rejected → ∀ p ∈ b.promotions, p.proposalId ≠ a.proposalId

theorem decidedOnce_of_sound (h : Sound host True b) : DecidedOnce b := by
  have honce : ∀ a ∈ b.approvals, ∀ a' ∈ b.approvals, a.proposalId = a'.proposalId → a = a' :=
    fun a ha a' ha' heq => List.inj_on_of_nodup_map (h.oneDecision trivial) ha ha' heq
  refine ⟨honce, fun a ha hrejected p hp heq => ?_⟩
  obtain ⟨a', ha', hdecision, -, hof⟩ := h.approved p hp
  obtain rfl := honce a' ha' a ha (hof.trans heq)
  rw [hrejected] at hdecision
  cases hdecision

section
variable (host : WorkflowHost) (records : Records) (tree : Recovery.Tree)

theorem sound_run (events : List Event) :
    Sound host False (bookOf (run host (beginning records tree) events)) :=
  (kept_run events (sound_beginning records tree) fun hs => hs.elim).1

/-- What the rows account for. -/
structure Accountable (b : Book) : Prop where
  signed : ∀ a ∈ b.approvals, a.approvedBy ≠ "" ∧ a.reason ≠ ""
  approved : ∀ p ∈ b.promotions, Approved b p
  recorded : ∀ p ∈ b.promotions, Recorded p
  reconciled : ∀ r ∈ b.reconciliations, ∃ p ∈ b.promotions,
    p.id = r.promotionId ∧ p.proposalId = r.proposalId ∧ p.status = .verified
  once : ∀ r ∈ b.reconciliations, ∀ r' ∈ b.reconciliations, r.promotionId = r'.promotionId → r = r'
  justified : ∀ f ∈ b.workflows, Justified b f
  logged : ∀ f ∈ b.workflows, f.events.getLast?.map (·.status) = some f.status
  unique : ∀ f ∈ b.workflows, ∀ f' ∈ b.workflows, f.signature = f'.signature → f = f'

/-- **The rows account for every status**, in every state of every run. -/
theorem accountable_of_run (events : List Event) :
    Accountable (bookOf (run host (beginning records tree) events)) := by
  have h := sound_run host records tree events
  exact {
    signed := h.signed
    approved := h.approved
    recorded := h.recorded
    reconciled := h.reconciled
    once := fun r hr r' hr' heq => List.inj_on_of_nodup_map h.oneReconciliation hr hr' heq
    justified := h.justified
    logged := h.logged
    unique := fun f hf f' hf' heq => List.inj_on_of_nodup_map h.signatures hf hf' heq }

/-- **What has been settled stays**, whatever happens after it. -/
theorem settled_of_run (earlier later : List Event) :
    Kept (bookOf (run host (beginning records tree) earlier))
      (bookOf (run host (beginning records tree) (earlier ++ later))) := by
  unfold run
  rw [List.foldl_append]
  exact (kept_run later (sound_run host records tree earlier) fun hs => hs.elim).2

/-- Each operation of a call is legal in the state in which it is performed. -/
def Lawful (host : WorkflowHost) (call : Call) (stop : Option Nat) (w : World) : Prop :=
  ∀ x ∈ (call.act host ()).performed (perform host) stop w, Legal host False x.1 x.2

/-- **Files are written for approved and open promotions only**, and rows as
they may be, in every call of every run. -/
theorem lawful_of_run (events : List Event) (call : Call) (stop : Option Nat) :
    Lawful host call stop (run host (beginning records tree) events) :=
  wp_performed (act_wp call (sound_run host records tree events) fun hs => hs.elim) stop

/-- What the calls of a workflow return. -/
structure Responsive (host : WorkflowHost) (w : World) : Prop where
  advanced : ∀ holderId workflowId maxTransitions f w',
    (Workflow.advance host holderId workflowId maxTransitions).run (perform host) () w = (.ok f, w') →
      f ∈ w'.tables.workflows ∧ Advanced maxTransitions f
  decided : ∀ holderId workflowId decision approvedBy reason f w',
    (Workflow.decide host holderId workflowId decision approvedBy reason).run (perform host) () w =
      (.ok f, w') → Answered (bookOf w') decision f

/-- **A call returns what is stored**: a workflow that waits for its decision or
has ended, and of a decision one that has ended by it. -/
theorem responsive_of_run (events : List Event) :
    Responsive host (run host (beginning records tree) events) := by
  have h := sound_run host records tree events
  refine ⟨?_, ?_⟩
  · intro holderId workflowId maxTransitions f w' hrun
    have hstep := Act.wp_run (x := Workflow.advance host holderId workflowId maxTransitions) (advance_wp h)
    rw [hrun] at hstep
    exact hstep.returned f rfl
  · intro holderId workflowId decision approvedBy reason f w' hrun
    have hstep := Act.wp_run
      (x := Workflow.decide host holderId workflowId decision approvedBy reason) (decide_wp h)
    rw [hrun] at hstep
    exact hstep.returned f rfl

/-- **Workflows decide a proposal once**, and never promote what was rejected:
only a decision past them could. -/
theorem decidedOnce_of_run (events : List {event : Event // event.direct = false}) :
    DecidedOnce (bookOf (run host (beginning records tree) (events.map Subtype.val))) := by
  have hnone : ∀ event ∈ events.map Subtype.val, event.direct = false := by
    intro event hmem
    obtain ⟨undirected, -, rfl⟩ := List.mem_map.mp hmem
    exact undirected.2
  have hbegin : Sound host True (bookOf (beginning records tree)) := sound_beginning records tree
  exact decidedOnce_of_sound (kept_run (events.map Subtype.val) hbegin fun _ => hnone).1

end

/-! ## One workflow -/

open RlmGraph.Lib.JsonText (utf8)
open RlmGraph.Sandbox.Records (PatchChange)

theorem tallied_injective (kind : String) :
    Function.Injective fun n => kind ++ String.ofList (List.replicate n 'I') := by
  intro a b h
  have hlength := congrArg (fun text : String => text.toList.length) h
  simpa using hlength

/-- The digest of a text is the text. -/
def textOf (bytes : JsonText.Bytes) : String :=
  if bytes = utf8 "old" then "old" else if bytes = utf8 "new" then "new" else "other"

def oneChange : PatchChange where
  path := "a.py"
  beforeHash := "old"
  afterHash := "new"
  beforeContent := some "old"
  afterContent := some "new"

def verifiedProposal : RepairProposal where
  id := "PROPOSAL"
  repairTaskId := "REPAIR"
  diagnosisClaimId := "DIAGNOSIS"
  projectRoot := "/p"
  projectFingerprint := "f"
  sourceTreeFingerprint := "old"
  testPath := "t.py"
  authorizedPaths := ["a.py"]
  supportingClaimIds := ["DIAGNOSIS"]
  changes := [oneChange]
  rationale := ""
  confidence := 1
  worker := "worker"
  modelCalls := 1
  signature := "s"
  status := .verified

def verifiedValidation : RepairValidation where
  id := "VALIDATION"
  repairTaskId := "REPAIR"
  proposalId := "PROPOSAL"
  attempt := 1
  status := .verified
  before := ⟨[], 1⟩
  after := ⟨[], 0⟩
  originalUnchanged := true
  failureReason := none
  slice := []

/-- The test of a promotion exits with a code. -/
def testingHost (code : Int) : WorkflowHost where
  isAbsolute _ := false
  target root path := root ++ "/" ++ path
  isRelativeTo _ _ := true
  treeFingerprint root tree :=
    match tree (root ++ "/a.py") with
    | some (.file content) => textOf content.bytes
    | _ => "none"
  executable := "python"
  execute _ command _ tree := (.ok ⟨command, code⟩, tree)
  replaceFault _ := none
  sha256 := textOf
  cases := ⟨id, id, id⟩
  selectRoot := .ok
  resolve := id
  newId kind n := kind ++ String.ofList (List.replicate n 'I')
  newId_inj := tallied_injective
  indexedProjectFingerprint _ _ := "f"
  stageFault _ := none
  saveFault _ := none
  outside
    | .debug .., _, records => (.ok ⟨"TASK", "DIAGNOSIS", 1⟩, records)
    | .validate .., _, records => (.ok ⟨"REPAIR", verifiedProposal, verifiedValidation, 1, 1⟩,
      { records with repairProposals := [verifiedProposal], repairValidations := [verifiedValidation] })
    | .refresh .., _, records => (.ok ⟨"FOLLOW-UP", "CLAIM", 1⟩, records)
  lease := ⟨id, id, fun n => toString n⟩
  leaseTtl := 10
  now n := n

def indexed : Promotion.Records where
  projects := [⟨"PROJECT", "/p", true⟩]
  projectFiles _ := [("a.py", "old")]
  tasks := []
  claimIds := ["DIAGNOSIS"]
  repairProposals := []
  repairValidations := []
  unfinished _ := []

def oldTree : Recovery.Tree := fun path =>
  if path = "/p/a.py" then some (.file ⟨utf8 "old", 0⟩) else none

/-- A workflow is started, and its repair approved. -/
def approvedRun : List Event :=
  [.call (.start "holder" "why" "/p" "t.py" none) none,
    .call (.decide "holder" "WORKFLOW" .approved "owner" "It is right.") none]

/-- The workflow is completed when the test passes, and rolled back when it fails. -/
theorem accountable_of_run_approved :
    let passed := run (testingHost 0) (beginning indexed oldTree) approvedRun
    let failed := run (testingHost 1) (beginning indexed oldTree) approvedRun
    (Accountable (bookOf passed) ∧ passed.tables.workflows.map (·.status) = [.completed] ∧
      passed.tables.promotions.map (·.status) = [.verified] ∧
      passed.tables.reconciliations.length = 1 ∧
      passed.tree "/p/a.py" = some (.file ⟨utf8 "new", 0⟩)) ∧
    Accountable (bookOf failed) ∧ failed.tables.workflows.map (·.status) = [.rolledBack] ∧
      failed.tables.promotions.map (·.status) = [.rolledBack] ∧
      failed.tree "/p/a.py" = some (.file ⟨utf8 "old", 0⟩) :=
  ⟨⟨accountable_of_run (testingHost 0) indexed oldTree approvedRun, by decide +kernel⟩,
    accountable_of_run (testingHost 1) indexed oldTree approvedRun, by decide +kernel⟩

end RlmGraph.Repair.WorkflowRuns
