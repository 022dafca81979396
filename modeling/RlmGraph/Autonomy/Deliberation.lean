import RlmGraph.Autonomy.Records
import RlmGraph.Lib.PyText

/-! # Deliberation

`AutonomousDeliberationManager`: which open branch is inquired next, and how an
inquiry ends. The inquiry object that an execution works on is its local
variable, so what `complete` assigned before it raised is there when `fail` is
called. -/
namespace RlmGraph.Autonomy.Deliberation
open RlmGraph.Lib RlmGraph.Lib.Programs RlmGraph.Autonomy.Records

def question (branch : ConceptBranch) : String :=
  "Investigate current RLMGraph source, tests, and reproducible runtime evidence for this " ++
  "concept branch: " ++ branch.concept ++ ". Proposed insight: " ++ branch.insight ++ " " ++
  "Determine what is implemented, what contradicts the insight, and which uncertainty " ++
  "would be most valuable to resolve next. Treat the branch as a hypothesis, not truth."

def score (host : Host) (branch : ConceptBranch) (childCount : Nat) : AutonomousCandidateScore :=
  let novelty : ℚ := 1 / (1 + childCount)
  let uncertainty := 1 - branch.confidence
  let relevance := min 1 ((branch.supportingFactIds.length : ℚ) / 4)
  let informationGain := min 1 (55 / 100 * uncertainty + 45 / 100 * novelty)
  let estimatedCost := min 1 (2 / 10 + 1 / 10 * (branch.depth : ℚ))
  let total := 25 / 100 * novelty + 3 / 10 * uncertainty + 2 / 10 * relevance +
    35 / 100 * informationGain - 1 / 10 * estimatedCost
  { branchId := branch.id, novelty := host.round4 novelty, uncertainty := host.round4 uncertainty,
    relevance := host.round4 relevance, expectedInformationGain := host.round4 informationGain,
    estimatedCost := host.round4 estimatedCost, total := host.round4 (max 0 (min 1 total)) }

/-- The entries of `children` for a branch. -/
def childCount (branches : List ConceptBranch) (branch : ConceptBranch) : Nat :=
  branches.countP (·.parentBranchId == some branch.id)

/-- `key=lambda item: (-item.total, item.branch_id)`. -/
def before (a b : AutonomousCandidateScore) : Bool :=
  decide (b.total < a.total ∨ a.total = b.total ∧ a.branchId ≤ b.branchId)

def eligible (budget : AutonomyBudget) (branches : List ConceptBranch) (attempted : List String) :
    List ConceptBranch :=
  branches.filter fun branch =>
    branch.status == "EXPLORING"
      && decide (budget.minimumBranchConfidence ≤ branch.confidence)
      && decide (branch.depth ≤ budget.maximumBranchDepth)
      && !attempted.contains branch.id

/-- The candidates of a cycle, the best first. -/
def candidates (host : Host) (branches : List ConceptBranch) (attempted : List String) :
    List AutonomousCandidateScore :=
  (((eligible host.budget branches attempted).map fun branch =>
    score host branch (childCount branches branch)).mergeSort before).take
      host.budget.maxCandidatesPerCycle

/-- A decision that selects nothing. -/
def decline (host : Host) (sessionId reason : String) (status : DecisionStatus) :
    Act Op Reply Unit PyError (AutonomousDecision × Option AutonomousInquiry) := do
  let id ← newId
  let decision : AutonomousDecision := { id, sessionId, reason, budget := host.budget, status }
  save (.decision decision)
  pure (decision, none)

/-- The decision for a branch, and its inquiry. -/
def inquire (host : Host) (sessionId : String) (scores : List AutonomousCandidateScore)
    (selected : AutonomousCandidateScore) (branch : ConceptBranch) :
    Act Op Reply Unit PyError (AutonomousDecision × Option AutonomousInquiry) := do
  let decisionId ← newId
  let inquiryId ← newId
  let decision : AutonomousDecision :=
    { id := decisionId, sessionId, candidates := scores, selectedBranchId := some branch.id,
      inquiryId := some inquiryId,
      reason := "Selected the highest bounded score across novelty, uncertainty, " ++
        "relevance, expected information gain, and estimated cost.",
      budget := host.budget }
  let inquiry : AutonomousInquiry :=
    { id := inquiryId, sessionId, decisionId, branchId := branch.id, question := question branch,
      expectedInformationGain := selected.expectedInformationGain }
  save (.decision decision)
  save (.inquiry inquiry)
  pure (decision, some inquiry)

def deliberate (host : Host) (sessionId : String) :
    Act Op Reply Unit PyError (AutonomousDecision × Option AutonomousInquiry) := do
  let decided ← read
  if host.budget.maxDecisionsPerSession ≤ (decided.autonomousDecisions sessionId).length then
    decline host sessionId "The per-session autonomous decision budget is exhausted."
      .budgetExhausted
  else
    let known ← read
    let asked ← read
    let branches := known.conceptBranches sessionId
    let priorInquiries := asked.autonomousInquiries sessionId
    if priorInquiries.any (·.status.active) = true then
      decline host sessionId "One autonomous inquiry is already queued or running."
        .activeInquiryExists
    else
      let attempted := priorInquiries.map (·.branchId)
      match candidates host branches attempted with
      | [] =>
        decline host sessionId "No uninvestigated concept branch satisfies the autonomy policy."
          .noEligibleBranch
      | selected :: others =>
        let branch ← Act.ofExcept
          (first (·.id == selected.branchId) (eligible host.budget branches attempted))
        inquire host sessionId (selected :: others) selected branch

/-- The turn of the chat that runs a cycle: the inquiry to launch, if there is one. -/
def runAutonomy (host : Host) (sessionId : String) :
    Act Op Reply Unit PyError (Option AutonomousInquiry) := do
  let (_, found) ← deliberate host sessionId
  match found with
  | none => pure none
  | some inquiry =>
    let tables ← read
    let _ ← Act.ofExcept (first (·.id == inquiry.branchId) (tables.conceptBranches sessionId))
    let queued := { inquiry with status := .queued }
    save (.inquiry queued)
    pure (some queued)

/-! ## The end of an inquiry -/

/-- The inquiry object of an execution. -/
abbrev Local : Type := Option AutonomousInquiry

def assign (inquiry : AutonomousInquiry) : Act Op Reply Local PyError Unit :=
  Act.modify fun _ => some inquiry

def outcomeStatus (result : WorkResult) : OutcomeStatus :=
  if result.claimIds = [] then .stalled
  else if 3 / 4 ≤ result.confidence then .supported
  else .challenged

def complete (inquiry : AutonomousInquiry) (result : WorkResult) :
    Act Op Reply Local PyError ConceptBranchOutcome := do
  let id ← newId
  let createdAt ← now
  let outcome : ConceptBranchOutcome :=
    { id, sessionId := inquiry.sessionId, branchId := inquiry.branchId, inquiryId := inquiry.id,
      workResultId := result.id, claimIds := result.claimIds, status := outcomeStatus result,
      summary := result.answerSummary, confidence := result.confidence, createdAt }
  let inquiry := { inquiry with status := .completed, workResultId := some result.id }
  assign inquiry
  save (.inquiry inquiry)
  let tables ← read
  let decision ← Act.ofExcept
    (first (·.id == inquiry.decisionId) (tables.autonomousDecisions inquiry.sessionId))
  save (.decision { decision with status := .completed })
  save (.outcome outcome)
  pure outcome

/-- `f"{decision.reason} Worker failure: {reason}"[:1000]`. -/
def failureReason (decision : AutonomousDecision) (reason : String) : String :=
  String.ofList ((decision.reason ++ " Worker failure: " ++ reason).toList.take 1000)

def fail (inquiry : AutonomousInquiry) (reason : String) : Act Op Reply Local PyError Unit := do
  let inquiry := { inquiry with status := .failed }
  assign inquiry
  save (.inquiry inquiry)
  let tables ← read
  let decision ← Act.ofExcept
    (first (·.id == inquiry.decisionId) (tables.autonomousDecisions inquiry.sessionId))
  save (.decision
    { decision with status := .failed, reason := failureReason decision reason })

end RlmGraph.Autonomy.Deliberation
