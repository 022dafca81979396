import RlmGraph.Routing.Policy
import RlmGraph.Runner.Executors

/-! # The ledger of executions

The adaptive investigator records a prediction of the route and an attempt for
each worker it calls. It is given the question and the root of a follow-up, not
its id, and charges the newest open task with that question and root: the
records of an execution carry the executed task's id if and only if that is the
one found (`charged_iff`). Costs and latencies are rational numbers; the
evaluation of a prediction is left out. -/
namespace RlmGraph.Runner.Executions
open RlmGraph.Lib RlmGraph.Lib.Rows RlmGraph.Runner.Records RlmGraph.Runner.Planner
open RlmGraph.Runner.Executors RlmGraph.Routing
open RlmGraph.Routing.Policy (ExecutionOutcome RoutingPolicyConfig RoutingPolicyUpdate routingCategory)

/-! ## Records -/

structure ExecutionAttempt extends Policy.ExecutionAttempt where
  rootTaskId : String
  taskId : String
  sequence : Nat
  plannedRoute : TaskRoute
  inputTokens : Nat := 0
  outputTokens : Nat := 0
  fallbackFromAttemptId : Option String := none
  fallbackReason : Option String := none
  error : Option String := none
  taskDifficulty : ℚ := 0
  routePredictionId : Option String := none

structure RoutePrediction extends Policy.RoutePrediction where
  id : String
  rootTaskId : String

structure WorkerSpec extends Policy.Worker where
  outputCostPerMillion : ℚ := 0

/-- What an execution reads and writes, with the attributes of the investigator. -/
structure Ledger where
  graph : GraphStore
  attempts : List ExecutionAttempt := []
  predictions : List RoutePrediction := []
  updates : List RoutingPolicyUpdate := []
  investigator : Investigator := {}
  followUpCalls : Nat := 0
  tick : Nat := 0

structure LedgerHost where
  /-- `str(Path(path).resolve())`. -/
  resolve : String → String
  newId : Nat → String
  latency : Nat → ℚ
  workers : List (TaskRoute × WorkerSpec)
  /-- What the worker of a route returns or raises. -/
  answer : Nat → TaskRoute → String → Except PyError InvestigationResult
  /-- `token_estimate(result.model_dump_json())`. -/
  resultTokens : InvestigationResult → Nat
  minimumConfidence : ℚ := 3 / 4
  config : RoutingPolicyConfig := {}
  /-- A number with so many decimals. -/
  fixed : Nat → ℚ → String
  errorText : PyError → String
  /-- What `initialize_provenance` raises, if it does. -/
  provenanceFault : Nat → Option PyError

/-- `root_task_id`; every round sees one more task of the store. -/
def rootTaskId (graph : GraphStore) : Nat → List String → Task → String
  | 0, _, current => current.id
  | rounds + 1, seen, current =>
    match given current.parentTaskId with
    | none => current.id
    | some parentId =>
      if current.id ∈ seen then current.id
      else match graph.getTask parentId with
        | none => current.id
        | some parent => rootTaskId graph rounds (current.id :: seen) parent

def Ledger.rootOf (s : Ledger) (task : Task) : String :=
  rootTaskId s.graph (s.graph.tasks.length + 2) [] task

/-- `execution_attempts(task_id)`. -/
def Ledger.attemptsOf (s : Ledger) (taskId : String) : List ExecutionAttempt :=
  s.attempts.filter (·.taskId == taskId)

/-- What an attempt is recorded with. -/
structure AttemptFields where
  plannedRoute : TaskRoute
  actualRoute : TaskRoute
  worker : String
  outcome : ExecutionOutcome
  inputTokens : Nat := 0
  outputTokens : Nat := 0
  estimatedCostUsd : ℚ := 0
  latencyMs : ℚ := 0
  confidence : Option ℚ := none
  fallbackFromAttemptId : Option String
  fallbackReason : Option String
  error : Option String := none
  routePredictionId : Option String

/-- `record`: the id of the attempt, and the ledger with it. -/
def record (host : LedgerHost) (task : Task) (fields : AttemptFields) (s : Ledger) :
    String × Ledger :=
  let attempt : ExecutionAttempt := {
    id := host.newId s.tick
    rootTaskId := s.rootOf task
    taskId := task.id
    sequence := (s.attemptsOf task.id).length + 1
    plannedRoute := fields.plannedRoute
    actualRoute := fields.actualRoute
    worker := fields.worker
    outcome := fields.outcome
    inputTokens := fields.inputTokens
    outputTokens := fields.outputTokens
    totalTokens := (fields.inputTokens + fields.outputTokens : Nat)
    estimatedCostUsd := fields.estimatedCostUsd
    latencyMs := fields.latencyMs
    confidence := fields.confidence
    fallbackFromAttemptId := fields.fallbackFromAttemptId
    fallbackReason := fields.fallbackReason
    error := fields.error
    taskCategory := routingCategory task
    taskDifficulty := task.difficulty
    routePredictionId := fields.routePredictionId }
  (attempt.id, { s with attempts := s.attempts ++ [attempt], tick := s.tick + 1 })

/-! ## The adaptive investigator -/

/-- `predict` of the routing policy, over the attempts of the ledger. -/
def predict (host : LedgerHost) (task : Task) (staticRoute : TaskRoute) (s : Ledger) :
    RoutePrediction × Ledger :=
  let limits : Policy.SafetyLimits :=
    [("max_worker_calls", s.investigator.maxCallsForExecution),
      ("max_worker_retrieval_tokens", s.investigator.maxRetrievalTokensForExecution),
      ("minimum_confidence", host.minimumConfidence)]
  let (prediction, store) := Policy.predict host.config host.fixed
    { attempts := s.attempts.map (·.toExecutionAttempt), updates := s.updates } task
    (host.workers.map fun worker => (worker.1, worker.2.toWorker)) staticRoute limits
  let prediction : RoutePrediction :=
    { prediction with id := host.newId s.tick, rootTaskId := s.rootOf task }
  (prediction, { s with
    predictions := s.predictions ++ [prediction]
    updates := store.updates
    tick := s.tick + 1 })

/-- What the loop over the routes carries. -/
structure Dispatching where
  ledger : Ledger
  fallbackFrom : Option String := none
  fallbackReason : Option String := none
  seen : Seen := {}

/-- A call of a worker is counted. -/
def Ledger.called (s : Ledger) : Ledger :=
  { s with
    investigator := { s.investigator with lastCallCount := s.investigator.lastCallCount + 1 }
    tick := s.tick + 1 }

section
variable (host : LedgerHost) (task : Task) (planned : TaskRoute) (predictionId question : String)

/-- No worker is registered for the route. -/
def unregistered (route : TaskRoute) (d : Dispatching) : Dispatching :=
  let error := PyError.runtime ("No worker registered for route " ++ route.value)
  let recorded := record host task {
    plannedRoute := planned
    actualRoute := route
    worker := "UNREGISTERED"
    outcome := .failed
    fallbackFromAttemptId := d.fallbackFrom
    fallbackReason := d.fallbackReason
    error := some (host.errorText error)
    routePredictionId := some predictionId } d.ledger
  { ledger := recorded.2
    fallbackFrom := some recorded.1
    fallbackReason := some (host.errorText error)
    seen := { d.seen with lastError := some error } }

/-- A worker raises. -/
def failed (route : TaskRoute) (spec : WorkerSpec) (error : PyError) (d : Dispatching) :
    Dispatching :=
  let inputTokens := tokenEstimate question
  let recorded := record host task {
    plannedRoute := planned
    actualRoute := route
    worker := spec.name
    outcome := .failed
    inputTokens
    estimatedCostUsd := inputTokens * spec.inputCostPerMillion / 1000000
    latencyMs := host.latency d.ledger.tick
    fallbackFromAttemptId := d.fallbackFrom
    fallbackReason := d.fallbackReason
    error := some (host.errorText error)
    routePredictionId := some predictionId } d.ledger.called
  { ledger := recorded.2
    fallbackFrom := some recorded.1
    fallbackReason := some (spec.name ++ " failed: " ++ host.errorText error)
    seen := { d.seen with lastError := some error } }

def isWeak (result : InvestigationResult) : Bool :=
  decide (result.confidence < host.minimumConfidence) || result.unresolvedQuestions != []

/-- A worker answers. -/
def answered (route : TaskRoute) (spec : WorkerSpec) (result : InvestigationResult)
    (d : Dispatching) : Dispatching :=
  let inputTokens := tokenEstimate question
  let outputTokens := host.resultTokens result
  let recorded := record host task {
    plannedRoute := planned
    actualRoute := route
    worker := spec.name
    outcome := if isWeak host result then .lowConfidence else .succeeded
    inputTokens
    outputTokens
    estimatedCostUsd :=
      (inputTokens * spec.inputCostPerMillion + outputTokens * spec.outputCostPerMillion) / 1000000
    latencyMs := host.latency d.ledger.tick
    confidence := some result.confidence
    fallbackFromAttemptId := d.fallbackFrom
    fallbackReason := d.fallbackReason
    routePredictionId := some predictionId } d.ledger.called
  { ledger := recorded.2
    fallbackFrom := some recorded.1
    fallbackReason := some (spec.name ++ " returned confidence " ++ host.fixed 3 result.confidence ++
      " with " ++ toString result.unresolvedQuestions.length ++ " unresolved question(s).")
    seen := { d.seen with lastResult := some result } }

/-- Whether the loop ends before the next route. -/
def exhausted (s : Ledger) : Bool :=
  decide (s.investigator.maxCallsForExecution ≤ s.investigator.lastCallCount) ||
    (decide (0 < s.investigator.lastCallCount) &&
      decide (s.investigator.maxRetrievalTokensForExecution < tokenEstimate question))

/-- The loop over the routes. -/
def dispatch : List TaskRoute → Dispatching → Except PyError InvestigationResult × Ledger
  | [], d => (d.seen.outcome planned, d.ledger)
  | route :: routes, d =>
    if exhausted question d.ledger then (d.seen.outcome planned, d.ledger)
    else match host.workers.lookup route with
      | none => dispatch routes (unregistered host task planned predictionId route d)
      | some spec =>
        match host.answer d.ledger.tick route question with
        | .error e =>
          if e.isException then
            dispatch routes (failed host task planned predictionId question route spec e d)
          else (.error e, d.ledger.called)
        | .ok result =>
          let d := answered host task planned predictionId question route spec result d
          -- the last route is the one with nothing after it
          if !isWeak host result || routes.isEmpty then (.ok result, d.ledger)
          else dispatch routes d

end

/-- The routes of a dispatch. -/
def routesOf (host : LedgerHost) (primary : TaskRoute) : List TaskRoute :=
  if primary = .localModel ∧ (host.workers.lookup .codex).isSome then [primary, .codex]
  else [primary]

/-- `investigate` once the task is found. -/
def investigateTask (host : LedgerHost) (task : Task) (question : String) (s : Ledger) :
    Except PyError InvestigationResult × Ledger :=
  let planned := task.route.getD .localModel
  let static := if planned = .localInvestigator then .localModel else planned
  let (prediction, s) := predict host task static s
  let s := { s with investigator := { s.investigator with lastCallCount := 0 } }
  dispatch host task planned prediction.id question (routesOf host prediction.chosenRoute) { ledger := s }

/-- `investigate`. -/
def investigate (host : LedgerHost) (question projectRoot : String) (s : Ledger) :
    Except PyError InvestigationResult × Ledger :=
  match openTask s.graph question (host.resolve projectRoot) with
  | .error e => (.error e, s)
  | .ok task => investigateTask host task question s

/-! ## Follow-ups -/

def Ledger.saveTask (s : Ledger) (task : Task) : Ledger :=
  { s with graph := s.graph.saveTask task }

/-- The claim of a follow-up and the task it completes; `save_claim` may raise. -/
def saveFollowUp (host : LedgerHost) (task : Task) (result : InvestigationResult) (s : Ledger) :
    Except PyError Unit × Ledger :=
  let claim : Claim := {
    id := host.newId s.tick
    conclusion := result.conclusion
    evidence := result.evidence
    confidence := result.confidence }
  let s := s.saveTask { task with outputClaimId := some claim.id, status := .done }
  match host.provenanceFault s.tick with
  | some e => (.error e, { s with tick := s.tick + 1 })
  | none => (.ok (), { s with graph := s.graph.saveClaim claim, tick := s.tick + 1 })

/-- `FollowUpExecutor.execute`. -/
def execute (host : LedgerHost) (taskId : String) (s : Ledger) : Except PyError Unit × Ledger :=
  match followUpTask s.graph taskId with
  | .error e => (.error e, s)
  | .ok task =>
    let task := opening task
    let (reply, s) := investigate host task.question task.projectRoot (s.saveTask task)
    let s := { s with followUpCalls := s.followUpCalls + max 1 s.investigator.lastCallCount }
    match reply with
    | .error e => (.error e, s)
    | .ok result => saveFollowUp host task result s

/-! ## What is charged -/

/-- The records that were added carry the id of the task, and the attempts
continue those of the task. -/
structure Charged (taskId : String) (before after : Ledger) : Prop where
  attempts : ∃ new, after.attempts = before.attempts ++ new ∧ (∀ attempt ∈ new, attempt.taskId = taskId) ∧
    new.map (·.sequence) = List.range' ((before.attemptsOf taskId).length + 1) new.length
  predictions : ∃ new, after.predictions = before.predictions ++ new ∧
    ∀ prediction ∈ new, prediction.taskId = taskId

section
variable {host : LedgerHost} {task : Task} {planned : TaskRoute} {predictionId question : String}
  {s t u : Ledger} {taskId : String}

/-- Nothing was recorded. -/
structure Unrecorded (s t : Ledger) : Prop where
  attempts : t.attempts = s.attempts
  predictions : t.predictions = s.predictions

theorem Unrecorded.charged (h : Unrecorded s t) : Charged taskId s t where
  attempts := ⟨[], by rw [h.attempts, List.append_nil], List.forall_mem_nil _, rfl⟩
  predictions := ⟨[], by rw [h.predictions, List.append_nil], List.forall_mem_nil _⟩

theorem Charged.trans (h : Charged taskId s t) (h' : Charged taskId t u) : Charged taskId s u := by
  obtain ⟨new, hnew, hids, hseq⟩ := h.attempts
  obtain ⟨new', hnew', hids', hseq'⟩ := h'.attempts
  obtain ⟨predicted, hpredicted, hpids⟩ := h.predictions
  obtain ⟨predicted', hpredicted', hpids'⟩ := h'.predictions
  have hcount : (t.attemptsOf taskId).length = (s.attemptsOf taskId).length + new.length := by
    have hall : new.filter (·.taskId == taskId) = new :=
      List.filter_eq_self.mpr fun attempt hmem => beq_iff_eq.mpr (hids attempt hmem)
    rw [Ledger.attemptsOf, hnew, List.filter_append, hall, List.length_append, Ledger.attemptsOf]
  constructor
  · refine ⟨new ++ new', by rw [hnew', hnew, List.append_assoc],
      List.forall_mem_append.mpr ⟨hids, hids'⟩, ?_⟩
    rw [List.map_append, hseq, hseq', hcount, List.length_append, ← List.range'_append_1]
    congr 2
    omega
  · exact ⟨predicted ++ predicted', by rw [hpredicted', hpredicted, List.append_assoc],
      List.forall_mem_append.mpr ⟨hpids, hpids'⟩⟩

/-- An attempt is charged to the task it is recorded for. -/
theorem charged_record (fields : AttemptFields) : Charged task.id s (record host task fields s).2 where
  attempts := ⟨[_], rfl, List.forall_mem_singleton.mpr rfl, rfl⟩
  predictions := ⟨[], (List.append_nil _).symm, List.forall_mem_nil _⟩

theorem charged_called (fields : AttemptFields) :
    Charged task.id s (record host task fields s.called).2 :=
  Charged.trans (t := s.called) (Unrecorded.charged ⟨rfl, rfl⟩) (charged_record fields)

/-- The loop charges one task. -/
theorem charged_dispatch (routes : List TaskRoute) (d : Dispatching) :
    Charged task.id d.ledger (dispatch host task planned predictionId question routes d).2 := by
  fun_induction dispatch host task planned predictionId question routes d with
  | case1 d => exact Unrecorded.charged ⟨rfl, rfl⟩
  | case2 d route routes hstop => exact Unrecorded.charged ⟨rfl, rfl⟩
  | case3 d route routes hgoes hnone ih => exact (charged_record _).trans ih
  | case4 d route routes hgoes spec hspec e he hexception ih => exact (charged_called _).trans ih
  | case5 d route routes hgoes spec hspec e he hexit => exact Unrecorded.charged ⟨rfl, rfl⟩
  | case6 d route routes hgoes spec hspec result hresult next hfinal => exact charged_called _
  | case7 d route routes hgoes spec hspec result hresult next hweak ih =>
    exact (charged_called _).trans ih

theorem predict_taskId (static : TaskRoute) : (predict host task static s).1.taskId = task.id := by
  unfold predict
  rfl

/-- The prediction is recorded for the task. -/
theorem charged_predict (static : TaskRoute) :
    Charged task.id s (predict host task static s).2 where
  attempts := ⟨[], (List.append_nil _).symm, List.forall_mem_nil _, rfl⟩
  predictions := ⟨[(predict host task static s).1], rfl,
    List.forall_mem_singleton.mpr (predict_taskId static)⟩

/-- An investigation charges the task that it found, with a prediction at least. -/
theorem charged_investigateTask (host : LedgerHost) (task : Task) (question : String) (s : Ledger) :
    Charged task.id s (investigateTask host task question s).2 ∧
      s.predictions.length < (investigateTask host task question s).2.predictions.length := by
  let static := if task.route.getD .localModel = .localInvestigator then .localModel
    else task.route.getD .localModel
  let reset : Ledger := { (predict host task static s).2 with
    investigator := { (predict host task static s).2.investigator with lastCallCount := 0 } }
  have hreset : Charged task.id s reset :=
    (charged_predict static).trans (Unrecorded.charged ⟨rfl, rfl⟩)
  have hrest : Charged task.id reset (investigateTask host task question s).2 :=
    charged_dispatch _ { ledger := reset }
  refine ⟨hreset.trans hrest, ?_⟩
  obtain ⟨new, hnew, -⟩ := hrest.predictions
  have hone : reset.predictions.length = s.predictions.length + 1 := List.length_append
  rw [hnew, List.length_append, hone]
  omega

/-! ## The task that is found -/

theorem newest_concat (tasks : List Task) (last : Task) :
    newest (tasks ++ [last]) = match newest tasks with
      | none => some last
      | some best => some (if best.createdAt < last.createdAt then last else best) := by
  cases tasks with
  | nil => rfl
  | cons first rest =>
    show some (List.foldl _ _ (rest ++ [last])) = _
    rw [List.foldl_append]
    rfl

theorem newest_eq_none {tasks : List Task} (h : newest tasks = none) : tasks = [] := by
  cases tasks with
  | nil => rfl
  | cons first rest => cases h

theorem newest_mem {tasks : List Task} {best : Task} (h : newest tasks = some best) :
    best ∈ tasks ∧ ∀ other ∈ tasks, other.createdAt ≤ best.createdAt := by
  induction tasks using List.reverseRecOn generalizing best with
  | nil => cases h
  | append_singleton tasks last ih =>
    rw [newest_concat] at h
    cases hold : newest tasks with
    | none =>
      rw [hold] at h
      obtain rfl := Option.some.inj h
      rw [newest_eq_none hold]
      exact ⟨List.mem_singleton_self _, List.forall_mem_singleton.mpr (le_refl _)⟩
    | some old =>
      rw [hold] at h
      obtain ⟨hmem, hnewest⟩ := ih hold
      obtain rfl := Option.some.inj h
      by_cases hlater : old.createdAt < last.createdAt
      · rw [if_pos hlater]
        refine ⟨List.mem_append_right _ (List.mem_singleton_self _), forall_mem_concat ?_ (le_refl _)⟩
        exact fun other hother => le_trans (hnewest other hother) (le_of_lt hlater)
      · rw [if_neg hlater]
        exact ⟨List.mem_append_left _ hmem, forall_mem_concat hnewest (not_lt.mp hlater)⟩

/-- Another open task with the question, stored under the resolved root. -/
structure Rival (host : LedgerHost) (graph : GraphStore) (task other : Task) : Prop where
  stored : other ∈ graph.tasks
  distinct : other.id ≠ task.id
  unfinished : other.status = .open
  question : other.question = task.question
  root : other.projectRoot = host.resolve task.projectRoot

/-- The task is stored under its resolved root and newer than every rival, or
has none. -/
def Foremost (host : LedgerHost) (graph : GraphStore) (task : Task) : Prop :=
  ∀ other, Rival host graph task other →
    task.projectRoot = host.resolve task.projectRoot ∧ other.createdAt < task.createdAt

/-- What `_open_task` looks for. -/
def matching (question root : String) (task : Task) : Bool :=
  task.question == question && task.projectRoot == root && task.status == .open

def rivals (host : LedgerHost) (graph : GraphStore) (task : Task) : List Task :=
  (graph.tasks.filter fun other => other.id != task.id).filter
    (matching task.question (host.resolve task.projectRoot))

variable {graph : GraphStore} {other : Task}

theorem mem_rivals : other ∈ rivals host graph task ↔ Rival host graph task other := by
  simp only [rivals, matching, List.mem_filter, Bool.and_eq_true, beq_iff_eq, bne_iff_ne]
  constructor
  · rintro ⟨⟨hstored, hdistinct⟩, ⟨hquestion, hroot⟩, hopen⟩
    exact ⟨hstored, hdistinct, hopen, hquestion, hroot⟩
  · rintro ⟨hstored, hdistinct, hopen, hquestion, hroot⟩
    exact ⟨⟨hstored, hdistinct⟩, ⟨hquestion, hroot⟩, hopen⟩

/-- The candidates are the rivals, and last the task itself if it is stored
under its resolved root. -/
theorem candidates_opening (hopen : task.status = .open) :
    (graph.saveTask (opening task)).tasks.filter
        (matching task.question (host.resolve task.projectRoot)) =
      rivals host graph task ++
        if task.projectRoot = host.resolve task.projectRoot then [opening task] else [] := by
  have htask : matching task.question (host.resolve task.projectRoot) (opening task) =
      decide (task.projectRoot = host.resolve task.projectRoot) := by
    rw [Bool.eq_iff_iff]
    simp [matching, opening, hopen]
  show (replaceRow _ _ _).filter _ = _
  rw [replaceRow, List.filter_append, List.filter_singleton, htask]
  congr 1
  by_cases hroot : task.projectRoot = host.resolve task.projectRoot
  · rw [decide_eq_true hroot, if_pos hroot]
    rfl
  · rw [decide_eq_false hroot, if_neg hroot]
    rfl

theorem openTask_ok {question root : String} {found : Task} :
    openTask graph question root = .ok found ↔
      newest (graph.tasks.filter (matching question root)) = some found := by
  unfold openTask
  show (match newest (graph.tasks.filter (matching question root)) with
    | none => _
    | some task => _) = _ ↔ _
  cases newest (graph.tasks.filter (matching question root)) with
  | none => simp
  | some task => simp

/-- A foremost task is the only one that can be found. -/
theorem Foremost.found (h : Foremost host graph task) (hopen : task.status = .open) {found : Task}
    (hfound : openTask (graph.saveTask (opening task)) task.question
      (host.resolve task.projectRoot) = .ok found) : found.id = task.id := by
  rw [openTask_ok, candidates_opening hopen] at hfound
  by_cases hroot : task.projectRoot = host.resolve task.projectRoot
  · rw [if_pos hroot, newest_concat] at hfound
    cases hbest : newest (rivals host graph task) with
    | none =>
      rw [hbest] at hfound
      exact congrArg (·.id) (Option.some.inj hfound).symm
    | some best =>
      rw [hbest] at hfound
      have holder : best.createdAt < (opening task).createdAt :=
        (h best (mem_rivals.mp (newest_mem hbest).1)).2
      dsimp only at hfound
      rw [if_pos holder] at hfound
      exact congrArg (·.id) (Option.some.inj hfound).symm
  · rw [if_neg hroot, List.append_nil] at hfound
    exact absurd (h found (mem_rivals.mp (newest_mem hfound).1)).1 hroot

/-- Beside a rival that is not older a task is not found. -/
theorem found_other (h : ¬Foremost host graph task) (hopen : task.status = .open) :
    ∃ found, openTask (graph.saveTask (opening task)) task.question
      (host.resolve task.projectRoot) = .ok found ∧ found.id ≠ task.id := by
  simp only [Foremost, not_forall] at h
  obtain ⟨rival, hrival, hahead⟩ := h
  cases hbest : newest (rivals host graph task) with
  | none =>
    have hmem := mem_rivals.mpr hrival
    rw [newest_eq_none hbest] at hmem
    cases hmem
  | some best =>
    obtain ⟨hmem, hnewest⟩ := newest_mem hbest
    refine ⟨best, ?_, (mem_rivals.mp hmem).distinct⟩
    rw [openTask_ok, candidates_opening hopen]
    by_cases hroot : task.projectRoot = host.resolve task.projectRoot
    · have hlater : ¬best.createdAt < (opening task).createdAt := fun holder =>
        hahead ⟨hroot, lt_of_le_of_lt (hnewest rival (mem_rivals.mpr hrival)) holder⟩
      rw [if_pos hroot, newest_concat, hbest]
      dsimp only
      rw [if_neg hlater]
    · rw [if_neg hroot, List.append_nil, hbest]

/-! ## Executed follow-ups -/

theorem followUpTask_ok {taskId : String} (h : followUpTask graph taskId = .ok task) :
    task.id = taskId ∧ task.status = .open := by
  unfold followUpTask at h
  split at h
  · cases h
  · rename_i stored hstored
    split at h
    · cases h
    · split at h
      · cases h
      · rename_i hopen
        obtain rfl := Except.ok.inj h
        exact ⟨GraphStore.getTask_id hstored, not_not.mp hopen⟩

/-- An execution records what its investigation records. -/
theorem unrecorded_execute (host : LedgerHost) {taskId : String} (h : followUpTask s.graph taskId = .ok task) :
    Unrecorded (investigate host task.question task.projectRoot (s.saveTask (opening task))).2
      (execute host taskId s).2 := by
  unfold execute
  rw [h]
  dsimp only
  split
  · exact ⟨rfl, rfl⟩
  · unfold saveFollowUp
    dsimp only
    split
    · exact ⟨rfl, rfl⟩
    · exact ⟨rfl, rfl⟩

/-- **An execution is charged to the task that was executed** if and only if no
other open task with its question under its resolved root is found instead. -/
theorem charged_iff (host : LedgerHost) (s : Ledger) {taskId : String}
    (h : followUpTask s.graph taskId = .ok task) :
    Charged taskId s (execute host taskId s).2 ↔ Foremost host s.graph task := by
  obtain ⟨rfl, hopen⟩ := followUpTask_ok h
  have hend := unrecorded_execute host h
  have hwhole : ∀ {id : String}, Charged id (s.saveTask (opening task))
      (investigate host task.question task.projectRoot (s.saveTask (opening task))).2 →
        Charged id s (execute host task.id s).2 := fun hcharged =>
    Charged.trans (t := s.saveTask (opening task)) (Unrecorded.charged ⟨rfl, rfl⟩)
      (hcharged.trans hend.charged)
  constructor
  · intro hcharged
    by_contra hrival
    obtain ⟨found, hfound, hother⟩ := found_other hrival hopen
    have hinvestigate : investigate host task.question task.projectRoot (s.saveTask (opening task)) =
        investigateTask host found task.question (s.saveTask (opening task)) := by
      unfold investigate
      rw [show (s.saveTask (opening task)).graph = s.graph.saveTask (opening task) from rfl, hfound]
    have hcharges := charged_investigateTask host found task.question (s.saveTask (opening task))
    rw [← hinvestigate] at hcharges
    obtain ⟨new, hnew, hids⟩ := hcharged.predictions
    obtain ⟨new', hnew', hids'⟩ := hcharges.1.predictions
    have hsame : new = new' :=
      List.append_cancel_left (hnew.symm.trans (hend.predictions.trans hnew'))
    have hsome : new' ≠ [] := by
      rintro rfl
      rw [hnew', List.append_nil] at hcharges
      exact Nat.lt_irrefl _ hcharges.2
    obtain ⟨prediction, hmem⟩ := List.exists_mem_of_ne_nil new' hsome
    exact hother ((hids' prediction hmem).symm.trans (hids prediction (hsame ▸ hmem)))
  · intro hforemost
    refine hwhole ?_
    unfold investigate
    split
    · exact Unrecorded.charged ⟨rfl, rfl⟩
    · rename_i found hfound
      rw [← hforemost.found hopen hfound]
      exact (charged_investigateTask host found task.question _).1

end

/-! ## Two follow-ups with one question -/

/-- A worker that answers, and paths that are resolved. -/
def sureHost : LedgerHost where
  resolve path := path
  newId n := "ID-" ++ toString n
  latency _ := 0
  workers := [(.localModel, { name := "local" })]
  answer _ _ _ := .ok { conclusion := "found", evidence := [], confidence := 1, unresolvedQuestions := [] }
  resultTokens _ := 1
  fixed _ _ := ""
  errorText _ := ""
  provenanceFault _ := none

def gapTask (id : String) (createdAt : Int) : Task where
  id
  question := "Which file?"
  fingerprint := "FP"
  projectRoot := "/work"
  kind := .followUp
  createdAt

/-- The follow-up is executed, and one with its question is newer. -/
def gapLedger : Ledger where
  graph := ⟨[gapTask "FOLLOW-1" 1, gapTask "FOLLOW-2" 2], [], []⟩

theorem gap_open : followUpTask gapLedger.graph "FOLLOW-1" = .ok (gapTask "FOLLOW-1" 1) := by
  decide +kernel

/-- The newer one is charged. -/
theorem newer_charged : ¬Charged "FOLLOW-1" gapLedger (execute sureHost "FOLLOW-1" gapLedger).2 := by
  intro h
  obtain ⟨new, hnew, hids⟩ := h.predictions
  have hcharged : (execute sureHost "FOLLOW-1" gapLedger).2.predictions.map (·.taskId) = ["FOLLOW-2"] := by
    decide +kernel
  rw [hnew] at hcharged
  obtain ⟨prediction, hmem, hid⟩ := List.mem_map.mp (hcharged ▸ List.mem_singleton_self "FOLLOW-2")
  rw [hids prediction hmem] at hid
  revert hid
  decide

theorem charged_iff_gap :
    Charged "FOLLOW-1" gapLedger (execute sureHost "FOLLOW-1" gapLedger).2 ↔
      Foremost sureHost gapLedger.graph (gapTask "FOLLOW-1" 1) :=
  charged_iff sureHost gapLedger gap_open

end RlmGraph.Runner.Executions
