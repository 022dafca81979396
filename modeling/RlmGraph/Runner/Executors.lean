import RlmGraph.Runner.Planner

/-! # The executors of a pursuit

The adaptive investigator, which dispatches a question to the worker of its
route and escalates a failed or weak local answer, within the budget it was
last given; the executor of follow-ups, which counts the calls the investigator
says it made; and the executor of resolutions, one call of the resolver. -/
namespace RlmGraph.Runner.Executors
open RlmGraph.Lib RlmGraph.Runner.Records RlmGraph.Runner.Planner

/-! ## The adaptive investigator -/

/-- `configure_budget`. -/
def configureBudget (maxCalls maxRetrievalTokens : Int) (s : Pursuit) : Pursuit :=
  { s with investigator := { s.investigator with
      maxCallsForExecution := (max 1 maxCalls).toNat
      maxRetrievalTokensForExecution := maxRetrievalTokens } }

/-- `max(candidates, key=created_at)`: the first of the newest. -/
def newest : List Task → Option Task
  | [] => none
  | task :: tasks => some (tasks.foldl (fun best t => if best.createdAt < t.createdAt then t else best) task)

/-- `_open_task`. -/
def openTask (store : GraphStore) (question projectRoot : String) : Except PyError Task :=
  let candidates := store.tasks.filter fun task =>
    task.question == question && task.projectRoot == projectRoot && task.status == .open
  match newest candidates with
  | none => .error (.value ("No open task matches adaptive investigation: " ++ question))
  | some task => .ok task

/-- What the dispatch has seen so far. -/
structure Seen where
  lastError : Option PyError := none
  lastResult : Option InvestigationResult := none

/-- The end of a dispatch in which no worker's answer was final. -/
def Seen.outcome (seen : Seen) (planned : TaskRoute) : Except PyError InvestigationResult :=
  match seen.lastError, seen.lastResult with
  | some e, _ => .error e
  | none, some result => .ok result
  | none, none => .error (.runtime ("No executable worker for planned route " ++ planned.value))

/-- A call of a worker. -/
def called (s : Pursuit) : Pursuit :=
  { s.next with
    investigator := { s.investigator with lastCallCount := s.investigator.lastCallCount + 1 }
    modelCalls := s.modelCalls + 1 }

/-- The loop over the routes. -/
def dispatch (host : PursuitHost) (planned : TaskRoute) (question : String) :
    List TaskRoute → Seen → Pursuit → Except PyError InvestigationResult × Pursuit
  | [], seen, s => (seen.outcome planned, s)
  | route :: routes, seen, s =>
    if s.investigator.maxCallsForExecution ≤ s.investigator.lastCallCount then
      (seen.outcome planned, s)
    else if 0 < s.investigator.lastCallCount ∧
        s.investigator.maxRetrievalTokensForExecution < tokenEstimate question then
      (seen.outcome planned, s)
    else if route ∉ host.workers then
      dispatch host planned question routes { seen with
        lastError := some (.runtime ("No worker registered for route " ++ route.value)) } s
    else
      match host.investigate s.tick route question with
      | .error e =>
        if e.isException then
          dispatch host planned question routes { seen with lastError := some e } (called s)
        else (.error e, called s)
      | .ok result =>
        let weak := result.confidence < host.minimumConfidence ∨ result.unresolvedQuestions ≠ []
        -- the last route is the one with nothing after it
        if ¬weak ∨ routes = [] then (.ok result, called s)
        else dispatch host planned question routes { seen with lastResult := some result } (called s)

/-- The routes of a dispatch. -/
def routesFrom (host : PursuitHost) (primary : TaskRoute) : List TaskRoute :=
  if primary = .localModel ∧ .codex ∈ host.workers then [primary, .codex] else [primary]

/-- What an investigation looks up before it resets its count: the open task,
and the route that is chosen for it. -/
def lookup (host : PursuitHost) (question projectRoot : String) (s : Pursuit) :
    Except PyError (TaskRoute × TaskRoute) := do
  let task ← openTask s.store question (host.resolve projectRoot)
  let planned := task.route.getD .localModel
  let static := if planned = .localInvestigator then .localModel else planned
  let chosen ← host.predict s.tick task static
  return (planned, chosen)

/-- `investigate`. -/
def investigate (host : PursuitHost) (question projectRoot : String) (s : Pursuit) :
    Except PyError InvestigationResult × Pursuit :=
  match lookup host question projectRoot s with
  | .error e => (.error e, s.next)
  | .ok (planned, chosen) =>
    let s := { s.next with investigator := { s.investigator with lastCallCount := 0 } }
    dispatch host planned question (routesFrom host chosen) {} s

/-! ## Follow-ups -/

/-- The claim of a follow-up and the task it completes; `save_claim` may raise. -/
def saveFollowUp (host : PursuitHost) (task : Task) (result : InvestigationResult) (s : Pursuit) :
    Except PyError Unit × Pursuit :=
  let claim : Claim := {
    id := host.newId s.tick
    conclusion := result.conclusion
    evidence := result.evidence
    confidence := result.confidence }
  let s := s.saveTask { task with outputClaimId := some claim.id, status := .done }
  match host.provenanceFault s.tick with
  | some e => (.error e, s.next)
  | none => (.ok (), { s.next with store := s.store.saveClaim claim })

/-- The follow-up that may be executed. -/
def followUpTask (store : GraphStore) (taskId : String) : Except PyError Task :=
  match store.getTask taskId with
  | none => .error (.value ("Follow-up task not found: " ++ taskId))
  | some task =>
    if task.kind ≠ .followUp then .error (.value ("Follow-up task not found: " ++ taskId))
    else if task.status ≠ .open then .error (.value ("Follow-up task is not open: " ++ taskId))
    else .ok task

/-- The task of an attempt that begins. -/
def opening (task : Task) : Task :=
  { task with attemptCount := task.attemptCount + 1, lastError := none }

/-- `FollowUpExecutor.execute`. -/
def executeFollowUp (host : PursuitHost) (taskId : String) (s : Pursuit) :
    Except PyError Unit × Pursuit :=
  match followUpTask s.store taskId with
  | .error e => (.error e, s)
  | .ok task =>
    let task := opening task
    let (reply, s) := investigate host task.question task.projectRoot (s.saveTask task)
    let s := { s with followUpCalls := s.followUpCalls + max 1 s.investigator.lastCallCount }
    match reply with
    | .error e => (.error e, s)
    | .ok result => saveFollowUp host task result s

/-! ## Resolutions -/

/-- The resolution that may be executed, with its claims and its cluster. -/
def resolutionTask (store : GraphStore) (taskId : String) :
    Except PyError (Task × List Claim × Option ConflictCluster) :=
  match store.getTask taskId with
  | none => .error (.value ("Resolution task not found: " ++ taskId))
  | some task =>
    if task.kind ≠ .resolution then .error (.value ("Task is not a resolution task: " ++ taskId))
    else if task.status ≠ .open then .error (.value ("Resolution task is not open: " ++ taskId))
    else if task.conflictingClaimIds.length < 2 then
      .error (.value ("Resolution task must reference at least two claims: " ++ taskId))
    else if task.conflictingClaimIds.any fun claimId => (store.getClaim claimId).isNone then
      .error (.value ("Resolution task references a missing claim: " ++ taskId))
    else .ok (task, task.conflictingClaimIds.filterMap store.getClaim,
      (given task.conflictClusterId).bind store.getConflictCluster)

/-- The adjudicated claim, and the cluster it resolves. -/
def saveAdjudicated (host : PursuitHost) (task : Task) (cluster : Option ConflictCluster)
    (result : ResolutionResult) (s : Pursuit) : Except PyError (Task × ResolutionResult) × Pursuit :=
  let claim : Claim := {
    id := host.newId s.tick
    conclusion := result.rationale
    evidence := result.evidence
    confidence := result.confidence }
  let task := { task with
    status := .done, resolvedClaimId := some claim.id, stoppingReason := some .completed }
  let s := s.saveTask task
  match host.provenanceFault s.tick with
  | some e => (.error e, s.next)
  | none =>
    let s := { s.next with store := s.store.saveClaim claim }
    match cluster with
    | none => (.ok (task, result), s)
    | some cluster => (.ok (task, result), { s with store := s.store.saveConflictCluster { cluster with
        status := .resolved, resolvedClaimId := some claim.id, selectedValue := result.resolvedValue } })

/-- `ResolutionExecutor.execute`. -/
def executeResolution (host : PursuitHost) (taskId : String) (s : Pursuit) :
    Except PyError (Task × ResolutionResult) × Pursuit :=
  match resolutionTask s.store taskId with
  | .error e => (.error e, s)
  | .ok (task, claims, cluster) =>
    let task := opening task
    let s := { s.saveTask task with resolutionCalls := s.resolutionCalls + 1 }
    if cluster.isSome ∧ host.resolvesClusters = false then
      (.error (.type "Resolver does not support multi-claim conflict clusters"), s)
    else
      let reply := host.resolver s.tick task
      let s := { s.next with modelCalls := s.modelCalls + 1 }
      match reply with
      | .error e => (.error e, s)
      | .ok result =>
        if host.successful task claims cluster result then saveAdjudicated host task cluster result s
        else
          let task := { task with status := .recurse, stoppingReason := some .lowConfidence }
          (.ok (task, result), s.saveTask task)

end RlmGraph.Runner.Executors
