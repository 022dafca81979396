import RlmGraph.Runner.Executors

/-! # The pursuit of a root task

`pursue` as a machine: a state of the call, and what happens from the head of
the queue loop, from an admitted follow-up and from the head of the retry loop
of a resolution. The ledger, the plan decisions and the edges of the graph are
written only and left out. -/
namespace RlmGraph.Runner.Pursue
open RlmGraph.Lib RlmGraph.Lib.Rows RlmGraph.Runner.Records RlmGraph.Runner.Planner
open RlmGraph.Runner.Executors

/-! ## The queue -/

/-- `_queue_priority`. -/
def queuePriority (store : GraphStore) (taskId : String) : ℚ :=
  match store.getTask taskId with
  | none => -10000
  | some task =>
    let blocked := (store.children task.id).any fun child => decide (child.status ≠ .done)
    task.priority - (if blocked then 1000 else 0)

/-- The identifiers not yet queued, at the end. -/
def appendNew (queue : List String) (ids : List String) : List String :=
  ids.foldl (fun queue id => if id ∈ queue then queue else queue ++ [id]) queue

/-- `_enqueue`: the queue is sorted anew, the highest priority first. -/
def enqueue (tasks : List Task) (s : Pursuit) : Pursuit :=
  { s with queue := (appendNew s.queue (tasks.map (·.id))).mergeSort fun a b =>
      decide (queuePriority s.store b ≤ queuePriority s.store a) }

/-- `_requeue_parent`. -/
def requeueParent (child : Task) (s : Pursuit) : Pursuit :=
  match (given child.parentTaskId).bind s.store.getTask with
  | none => s
  | some parent => enqueue [parent] s

/-! ## Ancestors -/

/-- The walk of `_has_cycle`; every step sees a task it has not seen. -/
def cycleFrom (store : GraphStore) : Nat → Option String → List String → List String → Bool
  | 0, _, _, _ => false
  | fuel + 1, parentId, seenIds, seenFingerprints =>
    match given parentId with
    | none => false
    | some id =>
      if id ∈ seenIds then true
      else
        match store.getTask id with
        | none => false
        | some parent =>
          if parent.fingerprint ∈ seenFingerprints then true
          else cycleFrom store fuel parent.parentTaskId (parent.id :: seenIds)
            (parent.fingerprint :: seenFingerprints)

/-- `_has_cycle`. -/
def hasCycle (store : GraphStore) (task : Task) : Bool :=
  cycleFrom store (store.tasks.length + 1) task.parentTaskId [task.id] [task.fingerprint]

/-- The walk of `_propagate_completion`, at most one step for each task. -/
def completeFrom : Nat → Option String → GraphStore → GraphStore
  | 0, _, store => store
  | fuel + 1, parentId, store =>
    match (given parentId).bind store.getTask with
    | none => store
    | some parent =>
      let siblings := store.children parent.id
      if parent.kind = .resolution ∨ siblings = [] ∨ siblings.any fun item => decide (item.status ≠ .done) then
        store
      else completeFrom fuel parent.parentTaskId (store.saveTask { parent with
        status := .done, stoppingReason := some .completed })

/-- `_propagate_completion`. -/
def propagateCompletion (child : Task) (s : Pursuit) : Pursuit :=
  { s with store := completeFrom (s.store.tasks.length + 1) child.parentTaskId s.store }

/-- The walk of `_propagate_stopping`; every step sees a task it has not seen. -/
def stopFrom (reason : StoppingReason) : Nat → Option String → List String → GraphStore → GraphStore
  | 0, _, _, store => store
  | fuel + 1, parentId, seen, store =>
    match given parentId with
    | none => store
    | some id =>
      if id ∈ seen then store
      else
        match store.getTask id with
        | none => store
        | some parent =>
          if parent.status = .done then store
          else stopFrom reason fuel parent.parentTaskId (parent.id :: seen) (store.saveTask { parent with
            status := .stopped, stoppingReason := some reason })

/-- `_propagate_stopping`. -/
def propagateStopping (child : Task) (reason : StoppingReason) (s : Pursuit) : Pursuit :=
  { s with store := stopFrom reason (s.store.tasks.length + 1) child.parentTaskId [child.id] s.store }

/-- `_mark_cluster_unresolved`. -/
def markClusterUnresolved (task : Task) (s : Pursuit) : Pursuit :=
  match (given task.conflictClusterId).bind s.store.getConflictCluster with
  | none => s
  | some cluster =>
    if cluster.status = .resolved then s
    else { s with store := s.store.saveConflictCluster { cluster with status := .unresolved } }

def stopped (task : Task) (reason : StoppingReason) : Task :=
  { task with status := .stopped, stoppingReason := some reason }

/-- `_stop`, and the reason of the run if it has none. -/
def stop (task : Task) (reason : StoppingReason) (s : Pursuit) : Pursuit :=
  let s := s.saveTask (stopped task reason)
  let s := markClusterUnresolved task s
  (propagateStopping task reason s).stopFor reason

/-! ## Follow-ups -/

/-- The gaps of a resolution that named none. -/
def defaultGaps (config : PursuitConfig) (store : GraphStore) (parent : Task) : List String :=
  let claims := parent.conflictingClaimIds.filterMap store.getClaim
  let key := parent.disputedAssertionKey.getD "None"
  let stale := claims.any fun claim => !claim.current
  let weak := claims.any fun claim => decide (claim.confidence < config.minimumConfidence)
  let gaps := (if stale then ["Refresh stale dependency evidence for '" ++ key ++
      "' from the current repository state."] else []) ++
    (if weak then ["Find stronger repository evidence for the weakly supported assertion '" ++ key ++
      "'."] else [])
  if gaps = [] then ["Resolve the contradiction by finding repository evidence that determines '" ++
    key ++ "'."] else gaps

def gapsOf (host : PursuitHost) (config : PursuitConfig) (store : GraphStore) (parent : Task)
    (questions : List String) : List String :=
  let gaps := (questions.map host.strip).filter (· ≠ "")
  if gaps = [] then defaultGaps config store parent else gaps

/-- The completed task with the fingerprint of a gap. -/
def reusableFor (store : GraphStore) (fingerprint projectFingerprint : String) : Option Task :=
  store.tasks.find? fun task => task.fingerprint == fingerprint &&
    task.projectFingerprint == projectFingerprint && task.status == .done &&
    (given task.outputClaimId).isSome

/-- A task completed by what another one found. -/
def reusing (task reusable : Task) : Task :=
  { task with
    status := .done
    outputClaimId := reusable.outputClaimId
    reusedClaimId := reusable.outputClaimId
    reuseType := some "completed-investigation" }

def followUpOf (host : PursuitHost) (parent : Task) (gap : String) (s : Pursuit) : Task :=
  { id := host.newId s.tick
    question := gap
    fingerprint := host.taskFingerprint gap parent.projectFingerprint
    projectFingerprint := parent.projectFingerprint
    projectRoot := parent.projectRoot
    kind := .followUp
    parentTaskId := some parent.id
    evidenceGap := some gap
    sourceClaimIds := parent.conflictingClaimIds
    depth := parent.depth + 1
    dependencyTaskIds := [parent.id]
    createdAt := host.now s.tick }

/-- The loop of `_create_follow_ups`, with the fingerprints there are. -/
def createFrom (host : PursuitHost) (parent : Task) :
    List String → List String → Pursuit → List Task × Pursuit
  | [], _, s => ([], s)
  | gap :: gaps, existing, s =>
    let fingerprint := host.taskFingerprint gap parent.projectFingerprint
    if fingerprint ∈ existing then createFrom host parent gaps existing s
    else
      let child := followUpOf host parent gap s
      let child := match reusableFor s.store fingerprint parent.projectFingerprint with
        | none => child
        | some reusable => reusing child reusable
      let (assessedChild, s) := assess child (s.next.saveTask child)
      let (created, s) := createFrom host parent gaps (fingerprint :: existing) s
      (assessedChild :: created, s)

/-- `_create_follow_ups`. -/
def createFollowUps (host : PursuitHost) (config : PursuitConfig) (parent : Task)
    (questions : List String) (s : Pursuit) : List Task × Pursuit :=
  createFrom host parent (gapsOf host config s.store parent questions)
    ((s.store.children parent.id).map (·.fingerprint)) s

/-! ## The loop -/

def toLoop (s : Pursuit) : Pursuit := { s with phase := .loop }

def Pursuit.raise (s : Pursuit) (e : PyError) : Pursuit := { s with phase := .raised e }

/-- A task that is taken up again. -/
def reopened (task : Task) : Task := { task with status := .open, stoppingReason := none }

/-- `_completed_equivalent`. -/
def completedEquivalent (store : GraphStore) (task : Task) : Option Task :=
  store.tasks.find? fun candidate => candidate.id != task.id &&
    candidate.fingerprint == task.fingerprint &&
    candidate.projectFingerprint == task.projectFingerprint && candidate.status == .done &&
    (given candidate.outputClaimId).isSome

/-- An investigation that is dequeued. -/
def visitInvestigation (task : Task) (s : Pursuit) : Pursuit :=
  let children := s.store.children task.id
  if children ≠ [] then enqueue children s
  else if task.status = .recurse then s.stopFor .lowConfidence
  else s

/-- What the budget allows the investigator for an admitted follow-up. -/
def configured (config : PursuitConfig) (s : Pursuit) : Pursuit :=
  configureBudget (1 + config.maxCodexCalls - s.run.modelCallsUsed)
    (config.maxRetrievalTokens - s.run.retrievalTokensUsed) s

/-- A follow-up that is dequeued. -/
def visitFollowUp (host : PursuitHost) (config : PursuitConfig) (task : Task) (s : Pursuit) : Pursuit :=
  if task.status = .done then requeueParent task s
  else
    match completedEquivalent s.store task with
    | some reusable =>
      let task := reusing task reusable
      requeueParent task (s.saveTask task)
    | none =>
      if host.followsUp = false then stop task .lowConfidence s
      else
        match admitCall host config task (retrievalContext task s.store) s with
        | (some reason, s) => stop task reason s
        | (none, s) =>
          let s := configured config s
          if task.status = .stopped then
            if task.stoppingReason = some .retryExhausted ∧
                (config.maxRetriesPerTask : Int) ≤ task.attemptCount then
              s.stopFor .retryExhausted
            else { s.saveTask (reopened task) with phase := .followUp (reopened task) }
          else { s with phase := .followUp task }

/-- A child whose stop is final. -/
def stoppedForGood (child : Task) : Bool :=
  child.status == .stopped &&
    decide (child.stoppingReason ∈ [some .maxDepth, some .retryExhausted, some .cycleDetected])

/-- A resolution that is dequeued. -/
def visitResolution (task : Task) (s : Pursuit) : Pursuit :=
  if task.status = .done then s
  else if hasCycle s.store task then stop task .cycleDetected s
  else
    let incomplete := (s.store.children task.id).filter fun child => decide (child.status ≠ .done)
    if incomplete ≠ [] then
      match incomplete.find? stoppedForGood with
      | some child => stop task (child.stoppingReason.getD .lowConfidence) s
      | none => enqueue [task] (enqueue incomplete s)
    else if task.status = .recurse then s.stopFor .lowConfidence
    else if task.status = .stopped then
      { s.saveTask (reopened task) with phase := .resolve (reopened task) }
    else { s with phase := .resolve task }

/-- A task without a route is assessed first. -/
def routed (task : Task) (s : Pursuit) : Task × Pursuit :=
  if task.route = none then assess task s else (task, s)

def visitTask (host : PursuitHost) (config : PursuitConfig) (task : Task) (s : Pursuit) : Pursuit :=
  match task.kind with
  | .investigation => visitInvestigation task s
  | .followUp => visitFollowUp host config task s
  | .resolution => visitResolution task s

/-- The head of the queue loop. -/
def visit (host : PursuitHost) (config : PursuitConfig) (taskId : String) (s : Pursuit) : Pursuit :=
  match s.store.getTask taskId with
  | none => Pursuit.raise s (.other "AssertionError" "")
  | some task => visitTask host config (routed task s).1 (routed task s).2

/-- The charge of the calls beyond the admitted one. -/
def chargeExtra (before : Nat) (task : Task) (s : Pursuit) : Pursuit :=
  let extraCalls := s.followUpCalls - before - 1
  let s := { s with codexCalls := s.codexCalls + (s.followUpCalls - before) }
  if 0 < extraCalls then { s with run := { s.run with
      modelCallsUsed := s.run.modelCallsUsed + extraCalls
      retrievalTokensUsed := s.run.retrievalTokensUsed + extraCalls * tokenEstimate task.question } }
  else s

/-- An admitted follow-up. -/
def stepFollowUp (host : PursuitHost) (config : PursuitConfig) (task : Task) (s : Pursuit) : Pursuit :=
  match executeFollowUp host task.id s with
  | (.ok (), done) =>
    let done := chargeExtra s.followUpCalls task done
    toLoop (requeueParent ((done.store.getTask task.id).getD task) done)
  | (.error e, failed) =>
    if e.isException = false then Pursuit.raise failed e
    else
      let failed := chargeExtra s.followUpCalls task failed
      let current := { (failed.store.getTask task.id).getD task with lastError := some e.message }
      if (config.maxRetriesPerTask : Int) ≤ current.attemptCount then
        toLoop (stop current .retryExhausted failed)
      else toLoop (enqueue [current] failed)

/-- The end of the retry loop. -/
def endResolution (task : Task) (s : Pursuit) : Pursuit :=
  toLoop (if task.status = .done then s else enqueue (s.store.children task.id) s)

/-- A resolution that was not successful. -/
def replan (host : PursuitHost) (config : PursuitConfig) (task : Task) (result : ResolutionResult)
    (s : Pursuit) : Pursuit :=
  if host.followsUp = false then
    let s := propagateStopping task .lowConfidence (markClusterUnresolved task s)
    endResolution task (s.stopFor .lowConfidence)
  else
    let (followUps, s) := createFollowUps host config task result.unresolvedQuestions s
    if followUps ≠ [] then
      let s := s.saveTask (reopened task)
      endResolution (reopened task) (enqueue [reopened task] (enqueue followUps s))
    else if task.attemptCount < config.maxRetriesPerTask then
      endResolution (reopened task) (enqueue [reopened task] (s.saveTask (reopened task)))
    else endResolution (stopped task .retryExhausted) (stop task .retryExhausted s)

/-- A task whose attempt raised; an attempt that was not counted is counted. -/
def failedAttempt (store : GraphStore) (task : Task) (e : PyError) : Task :=
  let current := (store.getTask task.id).getD task
  { current with
    attemptCount := if current.attemptCount = task.attemptCount then current.attemptCount + 1
      else current.attemptCount
    lastError := some e.message }

/-- A resolution whose attempt raised goes back to the head of the retry loop. -/
def retry (config : PursuitConfig) (task : Task) (s : Pursuit) : Pursuit :=
  let s := s.saveTask task
  if (config.maxRetriesPerTask : Int) ≤ task.attemptCount then
    { stop task .retryExhausted s with phase := .resolve (stopped task .retryExhausted) }
  else { s with phase := .resolve task }

/-- The head of the retry loop. -/
def stepResolution (host : PursuitHost) (config : PursuitConfig) (task : Task) (s : Pursuit) : Pursuit :=
  if task.attemptCount < config.maxRetriesPerTask then
    match admitCall host config task (retrievalContext task s.store) s with
    | (some reason, s) => endResolution (stopped task reason) (stop task reason s)
    | (none, s) =>
      match executeResolution host task.id s with
      | (.error e, failed) =>
        if e.isException = false then Pursuit.raise failed e
        else retry config (failedAttempt failed.store task e)
          { failed with codexCalls := failed.codexCalls + (failed.resolutionCalls - s.resolutionCalls) }
      | (.ok (task, result), resolved) =>
        let resolved := { resolved with
          codexCalls := resolved.codexCalls + (resolved.resolutionCalls - s.resolutionCalls) }
        if task.status = .done then endResolution task (propagateCompletion task resolved)
        else replan host config task result resolved
  else endResolution task s

/-- The end of the queue. -/
def finish (host : PursuitHost) (s : Pursuit) : Pursuit :=
  match s.store.getTask s.rootTaskId with
  | none => Pursuit.raise s (.other "AssertionError" "")
  | some root =>
    let reason := s.stopReason.getD
      (if root.status = .done then .completed else root.stoppingReason.getD .lowConfidence)
    let status := if reason = .completed then TaskStatus.done else .stopped
    { tick host s with phase := .returned status reason }

/-- One step of the call. -/
def step (host : PursuitHost) (config : PursuitConfig) (s : Pursuit) : Pursuit :=
  match s.phase with
  | .loop =>
    match s.queue with
    | [] => finish host s
    | taskId :: queue => visit host config taskId { s with queue := queue }
  | .followUp task => stepFollowUp host config task s
  | .resolve task => stepResolution host config task s
  | .returned _ _ | .raised _ => s

section
variable {host : PursuitHost} {config : PursuitConfig} {s : Pursuit} {task : Task}

theorem step_done (h : s.phase = .loop) (hqueue : s.queue = []) : step host config s = finish host s := by
  unfold step
  rw [h, hqueue]

theorem step_visit {taskId : String} {queue : List String} (h : s.phase = .loop)
    (hqueue : s.queue = taskId :: queue) :
    step host config s = visit host config taskId { s with queue := queue } := by
  unfold step
  rw [h, hqueue]

theorem step_followUp (h : s.phase = .followUp task) :
    step host config s = stepFollowUp host config task s := by
  unfold step
  rw [h]

theorem step_resolve (h : s.phase = .resolve task) :
    step host config s = stepResolution host config task s := by
  unfold step
  rw [h]

end

/-- The call up to its loop. -/
def start (rootTaskId : String) (initialCodexCalls : Nat) (investigator : Investigator)
    (followUpCalls resolutionCalls : Nat) (store : GraphStore) : Pursuit :=
  let s : Pursuit := {
    rootTaskId, store, investigator, followUpCalls, resolutionCalls
    run := { modelCallsUsed := initialCodexCalls }
    codexCalls := initialCodexCalls
    queue := [rootTaskId]
    stopReason := none
    phase := .loop
    tick := 0
    modelCalls := 0 }
  match store.getTask rootTaskId with
  | none => Pursuit.raise s (.value ("Root task not found: " ++ rootTaskId))
  | some root => (assess root s).2

/-- `pursue`, after some steps. -/
def pursue (host : PursuitHost) (config : PursuitConfig) (steps : Nat) (s : Pursuit) : Pursuit :=
  (step host config)^[steps] s

end RlmGraph.Runner.Pursue
