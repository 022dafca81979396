import Mathlib.Algebra.Order.Ring.Rat
import RlmGraph.Lib.Programs
import RlmGraph.Lib.PyError
import RlmGraph.Lib.Rows

/-! # The records of autonomous work

The tables that bounded autonomy writes, and the operations its calls perform:
reads and saves of the store, and calls to what lies outside. An operation gets
an answer from its surroundings, and any of them may raise. -/
namespace RlmGraph.Autonomy.Records
open RlmGraph.Lib RlmGraph.Lib.Rows RlmGraph.Lib.Programs

structure ConceptBranch where
  id : String
  sessionId : String
  signature : String
  concept : String
  insight : String
  supportingFactIds : List String
  parentBranchId : Option String
  depth : Nat
  status : String
  confidence : ℚ
  deriving DecidableEq

structure AutonomyBudget where
  maxDecisionsPerSession : Nat := 8
  maxCandidatesPerCycle : Nat := 8
  minimumBranchConfidence : ℚ := 35 / 100
  maximumBranchDepth : Nat := 4
  decisions_pos : 1 ≤ maxDecisionsPerSession := by decide
  candidates_pos : 1 ≤ maxCandidatesPerCycle := by decide

/-- The numbers of a budget. -/
def AutonomyBudget.numbers (budget : AutonomyBudget) : Nat × Nat × ℚ × Nat :=
  (budget.maxDecisionsPerSession, budget.maxCandidatesPerCycle, budget.minimumBranchConfidence,
    budget.maximumBranchDepth)

theorem AutonomyBudget.numbers_inj {a b : AutonomyBudget} : a.numbers = b.numbers ↔ a = b := by
  cases a
  cases b
  simp [numbers]

instance : DecidableEq AutonomyBudget := fun _ _ => decidable_of_iff _ AutonomyBudget.numbers_inj

structure AutonomousCandidateScore where
  branchId : String
  novelty : ℚ
  uncertainty : ℚ
  relevance : ℚ
  expectedInformationGain : ℚ
  estimatedCost : ℚ
  total : ℚ
  deriving DecidableEq

inductive DecisionStatus where
  | selected | budgetExhausted | activeInquiryExists | noEligibleBranch | completed | failed
  deriving DecidableEq

structure AutonomousDecision where
  id : String
  sessionId : String
  candidates : List AutonomousCandidateScore := []
  selectedBranchId : Option String := none
  inquiryId : Option String := none
  reason : String
  budget : AutonomyBudget
  status : DecisionStatus := .selected
  deriving DecidableEq

inductive InquiryStatus where
  | pending | queued | running | completed | failed
  deriving DecidableEq

/-- `item.status in {"PENDING", "QUEUED", "RUNNING"}`. -/
def InquiryStatus.active : InquiryStatus → Bool
  | .pending | .queued | .running => true
  | .completed | .failed => false

structure AutonomousInquiry where
  id : String
  sessionId : String
  decisionId : String
  branchId : String
  question : String
  expectedInformationGain : ℚ
  status : InquiryStatus := .pending
  workRequestId : Option String := none
  workResultId : Option String := none
  deriving DecidableEq

inductive OutcomeStatus where
  | supported | challenged | stalled
  deriving DecidableEq

/-- `outcome.status.lower()`. -/
def OutcomeStatus.lower : OutcomeStatus → String
  | .supported => "supported"
  | .challenged => "challenged"
  | .stalled => "stalled"

structure ConceptBranchOutcome where
  id : String
  sessionId : String
  branchId : String
  inquiryId : String
  workResultId : String
  claimIds : List String
  status : OutcomeStatus
  summary : String
  confidence : ℚ
  createdAt : Nat
  deriving DecidableEq

structure AutonomousWorkPolicy where
  sessionId : String
  enabled : Bool := false
  maxTasksPerSession : Nat := 3
  enabledBy : Option String := none
  deriving DecidableEq

inductive TaskStatus where
  | preparing | blocked | waitingForUserPlanApproval
  deriving DecidableEq

structure AutonomousTask where
  id : String
  sessionId : String
  branchId : String
  outcomeId : String
  title : String
  objective : String
  priority : String := "MEDIUM"
  status : TaskStatus := .preparing
  ticketId : Option String := none
  planId : Option String := none
  blocker : Option String := none
  deriving DecidableEq

structure AutonomousTaskPlan where
  id : String
  sessionId : String
  autonomousTaskId : String
  ticketId : String
  objective : String
  steps : List String
  baselineChecks : List String
  acceptanceCriteria : List String
  constraints : List String
  sourceClaimIds : List String
  deriving DecidableEq

/-! ## Tables -/

structure Tables where
  branches : List ConceptBranch := []
  decisions : List AutonomousDecision := []
  inquiries : List AutonomousInquiry := []
  outcomes : List ConceptBranchOutcome := []
  policies : List AutonomousWorkPolicy := []
  tasks : List AutonomousTask := []
  plans : List AutonomousTaskPlan := []

inductive Row where
  | decision (decision : AutonomousDecision)
  | inquiry (inquiry : AutonomousInquiry)
  | outcome (outcome : ConceptBranchOutcome)
  | policy (policy : AutonomousWorkPolicy)
  | task (task : AutonomousTask)
  | plan (plan : AutonomousTaskPlan)

namespace Tables

/-- `INSERT OR REPLACE INTO ...`. -/
def save (t : Tables) : Row → Tables
  | .decision d => { t with decisions := upsert (·.id) d t.decisions }
  | .inquiry i => { t with inquiries := upsert (·.id) i t.inquiries }
  | .outcome o => { t with outcomes := upsert (·.id) o t.outcomes }
  | .policy p => { t with policies := upsert (·.sessionId) p t.policies }
  | .task k => { t with tasks := upsert (·.id) k t.tasks }
  | .plan p => { t with plans := upsert (·.id) p t.plans }

/-- `INSERT OR IGNORE INTO concept_branches`: the identifier and the signature are unique. -/
def saveConceptBranch (t : Tables) (branch : ConceptBranch) : Tables :=
  if t.branches.any fun b => b.id == branch.id || b.signature == branch.signature then t
  else { t with branches := t.branches ++ [branch] }

def conceptBranches (t : Tables) (sessionId : String) : List ConceptBranch :=
  t.branches.filter (·.sessionId == sessionId)

def autonomousDecisions (t : Tables) (sessionId : String) : List AutonomousDecision :=
  t.decisions.filter (·.sessionId == sessionId)

def autonomousInquiries (t : Tables) (sessionId : String) : List AutonomousInquiry :=
  t.inquiries.filter (·.sessionId == sessionId)

def autonomousTasks (t : Tables) (sessionId : String) : List AutonomousTask :=
  t.tasks.filter (·.sessionId == sessionId)

/-- `ORDER BY created_at, id`. -/
def conceptBranchOutcomes (t : Tables) (sessionId : String) : List ConceptBranchOutcome :=
  (t.outcomes.filter (·.sessionId == sessionId)).mergeSort fun a b =>
    decide (a.createdAt < b.createdAt ∨ a.createdAt = b.createdAt ∧ a.id ≤ b.id)

theorem mem_conceptBranchOutcomes {t : Tables} {sessionId : String} {o : ConceptBranchOutcome} :
    o ∈ t.conceptBranchOutcomes sessionId ↔ o ∈ t.outcomes ∧ o.sessionId = sessionId := by
  simp [conceptBranchOutcomes]

end Tables

/-! ## Operations -/

structure WorkResult where
  id : String := ""
  claimIds : List String := []
  answerSummary : String := ""
  confidence : ℚ := 0

structure RegisteredProject where
  id : String
  root : String
  readOnly : Bool
  explicitlySelected : Bool

structure TicketRequest where
  projectId : String
  title : String
  description : String
  acceptanceCriteria : List String
  constraints : List String
  priority : String
  maxModelCalls : Nat
  maxWorkerCalls : Nat
  createdBy : String
  sourceClaimIds : List String

/-- A ticket, with the descriptions of its criteria and constraints. -/
structure CreatedTicket where
  id : String := ""
  acceptanceCriteria : List String := []
  constraints : List String := []

/-- What a call reaches outside the records of autonomy. -/
inductive Call where
  | chatSessions
  | conversationFacts (sessionId : String)
  | saveConversationInterpretation (message : String)
  | submit (sessionId request : String)
  | investigate (question : String)
  | completeWork (requestId : String)
  | projects
  | createTicket (request : TicketRequest)

/-- The answer to one operation: what it raises, or what it returns. -/
structure Answer where
  fault : Option PyError := none
  now : Nat := 0
  sessions : List String := []
  requestId : String := ""
  result : WorkResult := {}
  projects : List RegisteredProject := []
  ticket : CreatedTicket := {}

def Answer.reply {α : Type} (answer : Answer) (value : α) : Except PyError α :=
  match answer.fault with
  | some e => .error e
  | none => .ok value

inductive Op where
  | newId
  | now
  | read
  | save (row : Row)
  | call (call : Call)

abbrev Reply : Op → Type
  | .newId => String
  | .now => Nat
  | .read => Except PyError Tables
  | .save _ => Except PyError Unit
  | .call _ => Except PyError Answer

structure Host where
  /-- `new_id`. -/
  newId : Nat → String
  newId_injective : newId.Injective
  /-- `round(x, 4)`. -/
  round4 : ℚ → ℚ
  resolve : String → String
  /-- The resolved root of the system itself. -/
  systemRoot : String
  budget : AutonomyBudget

/-- The tables, who drew each identifier so far, and what the coming operations
are answered. -/
structure World where
  tables : Tables
  drawn : List String
  drawer : String
  answers : List Answer

def World.answer (w : World) : Answer := w.answers.headD {}

/-- The world once the operation is answered. -/
def World.next (w : World) : World := { w with answers := w.answers.tail }

def World.saved (w : World) (row : Row) : World := { w.next with tables := w.tables.save row }

def World.draws (w : World) : World := { w with drawn := w.drawn ++ [w.drawer] }

/-- What each operation replies and does. A save that raises has not been made. -/
def perform (host : Host) : Meaning Op Reply World := fun op w =>
  match op with
  | .newId => (host.newId w.drawn.length, w.draws)
  | .now => (w.answer.now, w.next)
  | .read => (w.answer.reply w.tables, w.next)
  | .save row =>
    (w.answer.reply (), if w.answer.fault.isSome then w.next else w.saved row)
  | .call _ => (w.answer.reply w.answer, w.next)

variable {L : Type}

def newId : Act Op Reply L PyError String := Act.perform Op.newId
def now : Act Op Reply L PyError Nat := Act.perform Op.now
def read : Act Op Reply L PyError Tables := Act.perform Op.read >>= Act.ofExcept
def save (row : Row) : Act Op Reply L PyError Unit := Act.perform (Op.save row) >>= Act.ofExcept
def callOut (c : Call) : Act Op Reply L PyError Answer := Act.perform (Op.call c) >>= Act.ofExcept

/-- `next(item for item in ...)`: nothing raises `StopIteration`. -/
def first {α : Type} (p : α → Bool) (items : List α) : Except PyError α :=
  match items.find? p with
  | some item => .ok item
  | none => .error (.other "StopIteration" "")

theorem first_ok {α : Type} {p : α → Bool} {items : List α} {item : α}
    (h : first p items = .ok item) : item ∈ items ∧ p item = true := by
  unfold first at h
  split at h
  · rename_i found hfound
    cases h
    exact ⟨List.mem_of_find?_eq_some hfound, List.find?_some hfound⟩
  · cases h

theorem exists_first {α : Type} {p : α → Bool} {items : List α} {item : α}
    (hmem : item ∈ items) (hp : p item = true) : ∃ found, first p items = .ok found := by
  unfold first
  cases h : items.find? p with
  | none => exact absurd hp (List.find?_eq_none.mp h item hmem)
  | some found => exact ⟨found, rfl⟩

/-! ## Rules

A call without others in between: what each operation leaves. -/

section Rules
variable {host : Host} {β : Type} {Q : Except PyError β → L → World → Prop} {l : L} {w : World}

/-- The operations of a call that nothing interrupts. -/
def alone (host : Host) : OpSpec Op Reply World := guarded (fun _ _ => True) (perform host)

theorem wp_newId {f : String → Act Op Reply L PyError β}
    (h : (f (host.newId w.drawn.length)).wp (alone host) Q l w.draws) :
    (newId >>= f).wp (alone host) Q l w := by
  unfold newId
  rw [Act.wp_bind, Act.wp_perform]
  exact ⟨trivial, h⟩

theorem wp_now {f : Nat → Act Op Reply L PyError β}
    (h : (f w.answer.now).wp (alone host) Q l w.next) : (now >>= f).wp (alone host) Q l w := by
  unfold now
  rw [Act.wp_bind, Act.wp_perform]
  exact ⟨trivial, h⟩

theorem wp_read {f : Tables → Act Op Reply L PyError β}
    (hok : (f w.tables).wp (alone host) Q l w.next)
    (herror : ∀ e, w.answer.fault = some e → Q (.error e) l w.next) :
    (read >>= f).wp (alone host) Q l w := by
  unfold read
  simp only [Act.wp_bind, Act.wp_perform]
  refine ⟨trivial, ?_⟩
  cases hfault : w.answer.fault with
  | none => simpa [perform, Answer.reply, hfault] using hok
  | some e => simpa [perform, Answer.reply, hfault] using herror e hfault

theorem wp_save {row : Row} {f : Unit → Act Op Reply L PyError β}
    (hok : (f ()).wp (alone host) Q l (w.saved row))
    (herror : ∀ e, w.answer.fault = some e → Q (.error e) l w.next) :
    (save row >>= f).wp (alone host) Q l w := by
  unfold save
  simp only [Act.wp_bind, Act.wp_perform]
  refine ⟨trivial, ?_⟩
  cases hfault : w.answer.fault with
  | none => simpa [perform, Answer.reply, hfault] using hok
  | some e => simpa [perform, Answer.reply, hfault] using herror e hfault

theorem wp_callOut {c : Call} {f : Answer → Act Op Reply L PyError β}
    (hok : (f w.answer).wp (alone host) Q l w.next)
    (herror : ∀ e, w.answer.fault = some e → Q (.error e) l w.next) :
    (callOut c >>= f).wp (alone host) Q l w := by
  unfold callOut
  simp only [Act.wp_bind, Act.wp_perform]
  refine ⟨trivial, ?_⟩
  cases hfault : w.answer.fault with
  | none => simpa [perform, Answer.reply, hfault] using hok
  | some e => simpa [perform, Answer.reply, hfault] using herror e hfault

theorem wp_first {α : Type} {p : α → Bool} {items : List α} {f : α → Act Op Reply L PyError β}
    (hok : ∀ item ∈ items, p item = true → (f item).wp (alone host) Q l w)
    (herror : (∀ item ∈ items, p item = false) → Q (.error (.other "StopIteration" "")) l w) :
    (Act.ofExcept (first p items) >>= f).wp (alone host) Q l w := by
  rw [Act.wp_bind, Act.wp_ofExcept]
  cases h : items.find? p with
  | none =>
    simp only [first, h, Act.onOk_error]
    exact herror fun item hmem => by simpa using List.find?_eq_none.mp h item hmem
  | some item =>
    simp only [first, h, Act.onOk_ok]
    exact hok item (List.mem_of_find?_eq_some h) (List.find?_some h)

end Rules
end RlmGraph.Autonomy.Records
