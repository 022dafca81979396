import RlmGraph.Lib.Doubles
import RlmGraph.Runner.Records

/-! # The planner

The scores and routes of tasks, and the admission of a call: a call is charged
when it is admitted, before anything of it is made. -/
namespace RlmGraph.Runner.Planner
open RlmGraph.Lib RlmGraph.Runner.Records
open RlmGraph.Lib.Doubles (roundHalfEven)

/-- `token_estimate`. -/
def tokenEstimate (text : String) : Nat := max 1 ((text.length + 3) / 4)

/-- `retrieval_context`. -/
def retrievalContext (task : Task) (store : GraphStore) : String :=
  let claims := (task.sourceClaimIds ++ task.conflictingClaimIds).filterMap store.getClaim
  "\n".intercalate ([task.question, task.evidenceGap.getD "", task.disputedAssertionKey.getD ""] ++
    claims.flatMap fun claim => claim.conclusion :: claim.evidence)

/-- `min(confidences, default=0.0)`. -/
def leastConfidence : List ℚ → ℚ
  | [] => 0
  | c :: cs => cs.foldl min c

/-- `_uncertainty`. -/
def uncertaintyOf (store : GraphStore) (task : Task) : ℚ :=
  if task.status = .done then 0
  else if given task.evidenceGap ≠ none then 9 / 10
  else if task.kind = .resolution then
    let confidences := (task.conflictingClaimIds.filterMap store.getClaim).map (·.confidence)
    min 1 (max (4 / 5) (1 - leastConfidence confidences))
  else 3 / 5

/-- `_route`. -/
def routeOf (task : Task) : TaskRoute :=
  if task.status = .done ∨ given task.reusedClaimId ≠ none then .memory
  else if task.kind = .resolution then .resolver
  else if 3 / 4 ≤ task.difficulty ∨ 19 / 20 ≤ task.uncertainty then .codex
  else .localModel

/-- The task with its scores and its route. -/
def assessed (store : GraphStore) (task : Task) : Task :=
  let task := { task with uncertainty := uncertaintyOf store task }
  let task := { task with
    difficulty := min 1 (1 / 5 + 3 / 20 * task.depth + 1 / 10 * task.sourceClaimIds.length) }
  let task := { task with
    priority := roundHalfEven (1000 * (100 * task.uncertainty + 10 * task.difficulty - task.depth)) / 1000 }
  { task with route := some (routeOf task) }

/-- `assess`. -/
def assess (task : Task) (s : Pursuit) : Task × Pursuit :=
  let task := assessed s.store task
  (task, s.saveTask task)

/-- `tick`. -/
def tick (host : PursuitHost) (s : Pursuit) : Pursuit :=
  { s.next with run := { s.run with elapsedSeconds := max 0 (host.elapsed s.tick) } }

/-- `admit_call`: why the call is not admitted, or the charge. -/
def admitCall (host : PursuitHost) (config : PursuitConfig) (task : Task) (retrievalText : String)
    (s : Pursuit) : Option StoppingReason × Pursuit :=
  let s := tick host s
  let requested := tokenEstimate retrievalText
  if (config.maxDepth : Int) < task.depth then (some .maxDepth, s)
  else if config.maxCodexCalls ≤ s.run.modelCallsUsed then (some .callBudget, s)
  else if config.maxRetrievalTokens < s.run.retrievalTokensUsed + requested then
    (some .retrievalTokenBudget, s)
  else if config.maxWallTimeSeconds ≤ s.run.elapsedSeconds then (some .wallTimeBudget, s)
  else if config.maxDuplicateInvestigations < s.run.duplicateInvestigations then
    (some .duplicateBudget, s)
  else (none, { s with run := { s.run with
    modelCallsUsed := s.run.modelCallsUsed + 1
    retrievalTokensUsed := s.run.retrievalTokensUsed + requested } })

end RlmGraph.Runner.Planner
