import RlmGraph.Lib.Doubles
import RlmGraph.Lib.Interleavings
import RlmGraph.Lib.Logs
import RlmGraph.Runner.Planner

/-! # The learned routing policy

A prediction estimates each worker from the recorded attempts, chooses the
cheapest one that is reliable enough, and writes an update to the policy log
when this changes the current route of the category. The current policy is read
off the log. Probabilities, costs and latencies are doubles, as the rational
numbers they are; what is computed of them is rounded where the source rounds.
The task at the root of a record and the identifiers of the records are left
out. -/
namespace RlmGraph.Routing.Policy

open RlmGraph.Lib RlmGraph.Lib.Rows RlmGraph.Lib.Logs
open RlmGraph.Lib.Doubles
open RlmGraph.Lib.Interleavings (keeps)
open RlmGraph.Runner.Records RlmGraph.Runner.Planner

structure RoutingPolicyConfig where
  minimumEvidence : Int := 3
  requiredSuccessProbability : ℚ := 3 / 4

inductive ExecutionOutcome where
  | succeeded | lowConfidence | failed | reused
  deriving DecidableEq

structure ExecutionAttempt where
  id : String
  actualRoute : TaskRoute
  worker : String
  outcome : ExecutionOutcome
  totalTokens : Int := 0
  estimatedCostUsd : ℚ := 0
  latencyMs : ℚ := 0
  confidence : Option ℚ := none
  taskCategory : String := "unknown"
  deriving DecidableEq

structure Worker where
  name : String
  inputCostPerMillion : ℚ := 0
  deriving DecidableEq

structure WorkerRouteEstimate where
  route : TaskRoute
  worker : String
  sampleCount : Nat
  successCount : Nat
  predictedSuccessProbability : ℚ
  meanReportedConfidence : ℚ
  calibrationError : ℚ
  predictedCostUsd : ℚ
  predictedLatencyMs : ℚ
  predictedTokens : ℚ
  eligible : Bool
  evidenceExecutionIds : List String

abbrev SafetyLimits := List (String × ℚ)

structure RoutePrediction where
  taskId : String
  taskCategory : String
  policyVersion : Nat
  staticRoute : TaskRoute
  chosenRoute : TaskRoute
  chosenWorker : String
  requiredSuccessProbability : ℚ
  minimumEvidence : Int
  changedStaticRoute : Bool
  reason : String
  candidates : List WorkerRouteEstimate
  fixedSafetyLimits : SafetyLimits

structure RoutingPolicyUpdate where
  version : Nat
  previousVersion : Nat
  triggeringTaskId : String
  taskCategory : String
  fromRoute : TaskRoute
  toRoute : TaskRoute
  accepted : Bool
  reason : String
  minimumEvidence : Int
  requiredSuccessProbability : ℚ
  evidenceExecutionIds : List String
  fixedSafetyLimits : SafetyLimits

structure GraphStore where
  attempts : List ExecutionAttempt := []
  updates : List RoutingPolicyUpdate := []
  predictions : List RoutePrediction := []

/-- `routing_policy_updates`: in the order of the versions. -/
def GraphStore.routingPolicyUpdates (store : GraphStore) : List RoutingPolicyUpdate :=
  store.updates.mergeSort fun a b => decide (a.version ≤ b.version)

/-- `TaskKind.value`. -/
def kindValue : TaskKind → String
  | .investigation => "INVESTIGATION"
  | .resolution => "RESOLUTION"
  | .followUp => "FOLLOW_UP"

def routingCategory (task : Task) : String :=
  let band :=
    if task.difficulty < 2 / 5 then "LOW" else if task.difficulty < 3 / 4 then "MEDIUM" else "HIGH"
  kindValue task.kind ++ ":" ++ band

/-- `statistics.mean`: of the exact sum, rounded once. -/
def mean (xs : List ℚ) : ℚ := nearest (xs.sum / xs.length)

/-- The recorded attempts of a worker on a route in a category. -/
def evidence (store : GraphStore) (route : TaskRoute) (worker category : String) :
    List ExecutionAttempt :=
  store.attempts.filter fun attempt =>
    attempt.actualRoute == route && attempt.worker == worker && attempt.taskCategory == category

def successes (attempts : List ExecutionAttempt) : List ExecutionAttempt :=
  attempts.filter fun attempt => attempt.outcome == .succeeded || attempt.outcome == .reused

/-- `(success_count + 1) / (sample_count + 2)`. -/
def successProbability (successCount sampleCount : Nat) : ℚ :=
  nearest ((successCount + 1) / (sampleCount + 2))

section
variable (config : RoutingPolicyConfig) (fixed : Nat → ℚ → String)

/-- `_estimate`. -/
def estimate (store : GraphStore) (task : Task) (route : TaskRoute) (worker : Worker)
    (category : String) : WorkerRouteEstimate :=
  let evidence := evidence store route worker.name category
  let sampleCount := evidence.length
  let successCount := (successes evidence).length
  let probability := successProbability successCount sampleCount
  let confidences := evidence.filterMap (·.confidence)
  let reported := if confidences ≠ [] then mean confidences else 1 / 2
  let empirical := if sampleCount ≠ 0 then nearest (successCount / sampleCount) else 0
  let inputTokens := tokenEstimate task.question
  { route
    worker := worker.name
    sampleCount
    successCount
    predictedSuccessProbability := probability
    meanReportedConfidence := reported
    calibrationError := |nearest (reported - empirical)|
    predictedCostUsd :=
      if evidence ≠ [] then mean (evidence.map (·.estimatedCostUsd))
      else nearest (nearest (nearest inputTokens * worker.inputCostPerMillion) / 1000000)
    predictedLatencyMs := if evidence ≠ [] then mean (evidence.map (·.latencyMs)) else 0
    predictedTokens :=
      if evidence ≠ [] then mean (evidence.map fun attempt => (attempt.totalTokens : ℚ))
      else nearest inputTokens
    eligible := decide (config.minimumEvidence ≤ sampleCount) &&
      decide (config.requiredSuccessProbability ≤ probability)
    evidenceExecutionIds := evidence.map (·.id) }

/-- The order of `min`: by cost, then by latency, then the likelier first. -/
def better (a b : WorkerRouteEstimate) : Bool :=
  if a.predictedCostUsd ≠ b.predictedCostUsd then decide (a.predictedCostUsd < b.predictedCostUsd)
  else if a.predictedLatencyMs ≠ b.predictedLatencyMs then
    decide (a.predictedLatencyMs < b.predictedLatencyMs)
  else decide (b.predictedSuccessProbability < a.predictedSuccessProbability)

/-- `min(…, default=None)`: the first of the best. -/
def best : List WorkerRouteEstimate → Option WorkerRouteEstimate
  | [] => none
  | first :: rest => some (rest.foldl (fun best next => if better next best then next else best) first)

/-- `_policy_version`. -/
def policyVersion (store : GraphStore) : Nat :=
  ((store.routingPolicyUpdates.filter (·.accepted)).map (·.version)).foldl max 0

/-- `_current_route`. -/
def currentRoute (store : GraphStore) (category : String) (staticRoute : TaskRoute) : TaskRoute :=
  match store.routingPolicyUpdates.reverse.find? fun update =>
    update.accepted && update.taskCategory == category with
  | some latest => latest.toRoute
  | none => staticRoute

/-- `_accept_update`. -/
def acceptUpdate (store : GraphStore) (task : Task) (category : String) (fromRoute toRoute : TaskRoute)
    (chosen : WorkerRouteEstimate) (fixedSafetyLimits : SafetyLimits) (currentVersion : Nat) :
    Nat × GraphStore :=
  let version := currentVersion + 1
  let update : RoutingPolicyUpdate := {
    version
    previousVersion := currentVersion
    triggeringTaskId := task.id
    taskCategory := category
    fromRoute
    toRoute
    accepted := true
    reason := "Changed route only after " ++ toString chosen.sampleCount
      ++ " persisted executions; predicted success " ++ fixed 3 chosen.predictedSuccessProbability
      ++ " meets fixed threshold " ++ fixed 3 config.requiredSuccessProbability ++ "."
    minimumEvidence := config.minimumEvidence
    requiredSuccessProbability := config.requiredSuccessProbability
    evidenceExecutionIds := chosen.evidenceExecutionIds
    fixedSafetyLimits }
  (version, { store with updates := store.updates ++ [update] })

/-- The estimates of the workers, in the order in which they are registered. -/
def estimates (store : GraphStore) (task : Task) (workers : List (TaskRoute × Worker)) :
    List WorkerRouteEstimate :=
  workers.map fun entry => estimate config store task entry.1 entry.2 (routingCategory task)

/-- `chosen` in `predict`. -/
def chosen (store : GraphStore) (task : Task) (workers : List (TaskRoute × Worker)) :
    Option WorkerRouteEstimate :=
  best ((estimates config store task workers).filter (·.eligible))

def registeredName (workers : List (TaskRoute × Worker)) (route : TaskRoute) : String :=
  match workers.find? (·.1 == route) with
  | some entry => entry.2.name
  | none => "UNREGISTERED"

/-- `predict`. -/
def predict (store : GraphStore) (task : Task) (workers : List (TaskRoute × Worker))
    (staticRoute : TaskRoute) (fixedSafetyLimits : SafetyLimits) : RoutePrediction × GraphStore :=
  let category := routingCategory task
  let currentRoute := currentRoute store category staticRoute
  let candidates := estimates config store task workers
  let (chosenRoute, chosenWorker, reason, version, store) :=
    match chosen config store task workers with
    | none =>
      (currentRoute,
        registeredName workers currentRoute,
        "Current governed route retained: no alternative has enough calibrated "
          ++ "evidence at the required success probability.",
        policyVersion store, store)
    | some chosen =>
      let (version, store) :=
        if chosen.route ≠ currentRoute then
          acceptUpdate config fixed store task category currentRoute chosen.route chosen
            fixedSafetyLimits (policyVersion store)
        else (policyVersion store, store)
      (chosen.route, chosen.worker,
        "Selected cheapest eligible worker at " ++ fixed 3 chosen.predictedSuccessProbability
          ++ " predicted success, $" ++ fixed 6 chosen.predictedCostUsd ++ ", and "
          ++ fixed 2 chosen.predictedLatencyMs ++ "ms predicted latency.",
        version, store)
  let prediction : RoutePrediction := {
    taskId := task.id
    taskCategory := category
    policyVersion := version
    staticRoute
    chosenRoute
    chosenWorker
    requiredSuccessProbability := config.requiredSuccessProbability
    minimumEvidence := config.minimumEvidence
    changedStaticRoute := decide (chosenRoute ≠ staticRoute)
    reason
    candidates
    fixedSafetyLimits }
  (prediction, { store with predictions := store.predictions ++ [prediction] })

inductive Event where
  | attempt (attempt : ExecutionAttempt)
  | predict (task : Task) (workers : List (TaskRoute × Worker)) (staticRoute : TaskRoute)
      (fixedSafetyLimits : SafetyLimits)

def step (store : GraphStore) : Event → GraphStore
  | .attempt attempt => { store with attempts := replaceRow (·.id) attempt store.attempts }
  | .predict task workers staticRoute fixedSafetyLimits =>
    (predict config fixed store task workers staticRoute fixedSafetyLimits).2

def after (events : List Event) : GraphStore := events.foldl (step config fixed) {}

end

/-! ## What a prediction adds to the log -/

section
variable {config : RoutingPolicyConfig} {fixed : Nat → ℚ → String}

theorem best_mem {candidates : List WorkerRouteEstimate} {chosen : WorkerRouteEstimate}
    (h : best candidates = some chosen) : chosen ∈ candidates := by
  cases candidates with
  | nil => cases h
  | cons first rest =>
    obtain rfl := Option.some.inj h
    have hfold : ∀ (more : List WorkerRouteEstimate) (b : WorkerRouteEstimate),
        more.foldl (fun best next => if better next best then next else best) b ∈ b :: more := by
      intro more
      induction more with
      | nil => exact fun b => List.mem_cons_self
      | cons next more ih =>
        intro b
        rw [List.foldl_cons]
        rcases List.mem_cons.mp (ih (if better next b then next else b)) with heq | hmem
        · rw [heq]
          split
          · exact List.mem_cons_of_mem _ List.mem_cons_self
          · exact List.mem_cons_self
        · exact List.mem_cons_of_mem _ (List.mem_cons_of_mem _ hmem)
    exact hfold rest first

/-- The worker had evidence enough for the route in the category, and was
successful often enough. -/
def Proven (config : RoutingPolicyConfig) (store : GraphStore) (category : String)
    (route : TaskRoute) (worker : Worker) : Prop :=
  let attempts := evidence store route worker.name category
  config.minimumEvidence ≤ attempts.length ∧
    config.requiredSuccessProbability ≤
      successProbability (successes attempts).length attempts.length

/-- The exact probability falls short of what is required by the rounding at most. -/
theorem Proven.close {config : RoutingPolicyConfig} {store : GraphStore} {category : String}
    {route : TaskRoute} {worker : Worker} (h : Proven config store category route worker) :
    let attempts := evidence store route worker.name category
    config.requiredSuccessProbability ≤
      ((successes attempts).length + 1) / (attempts.length + 2) + 2 ^ (-54 : ℤ) := by
  intro attempts
  have hle : (successes attempts).length ≤ attempts.length := List.length_filter_le _ _
  have hle' : ((successes attempts).length : ℚ) ≤ attempts.length := by exact_mod_cast hle
  have hn : (0 : ℚ) < attempts.length + 2 := by positivity
  have hpos : (0 : ℚ) < ((successes attempts).length + 1) / (attempts.length + 2) := by positivity
  have hlt : ((successes attempts).length + 1 : ℚ) / (attempts.length + 2) < 1 := by
    rw [div_lt_one hn]
    linarith
  exact h.2.trans (nearest_le_add hpos hlt)

/-- The chosen worker is registered, and proven. -/
theorem chosen_proven {store : GraphStore} {task : Task} {workers : List (TaskRoute × Worker)}
    {estimate : WorkerRouteEstimate} (h : chosen config store task workers = some estimate) :
    ∃ worker, (estimate.route, worker) ∈ workers ∧
      Proven config store (routingCategory task) estimate.route worker := by
  obtain ⟨hmem, heligible⟩ := List.mem_filter.mp (best_mem h)
  obtain ⟨⟨route, worker⟩, hworker, rfl⟩ := List.mem_map.mp hmem
  obtain ⟨henough, hlikely⟩ := Bool.and_eq_true_iff.mp heligible
  exact ⟨worker, hworker, of_decide_eq_true henough, of_decide_eq_true hlikely⟩

variable (config fixed) in
/-- A prediction leaves the log as it is or appends the update to the route of
the chosen worker. -/
theorem predict_updates (store : GraphStore) (task : Task) (workers : List (TaskRoute × Worker))
    (staticRoute : TaskRoute) (limits : SafetyLimits) :
    (predict config fixed store task workers staticRoute limits).2.updates = store.updates ∨
      ∃ estimate, chosen config store task workers = some estimate ∧
        estimate.route ≠ currentRoute store (routingCategory task) staticRoute ∧
        (predict config fixed store task workers staticRoute limits).2.updates =
          (acceptUpdate config fixed store task (routingCategory task)
            (currentRoute store (routingCategory task) staticRoute) estimate.route estimate limits
            (policyVersion store)).2.updates := by
  unfold predict
  cases hchosen : chosen config store task workers with
  | none => exact Or.inl rfl
  | some estimate =>
    by_cases hchanges : estimate.route ≠ currentRoute store (routingCategory task) staticRoute
    · refine Or.inr ⟨estimate, rfl, hchanges, ?_⟩
      simp only [if_pos hchanges]
    · refine Or.inl ?_
      simp only [if_neg hchanges]

/-! ## The log -/

/-- The versions of the log count its entries. -/
def Numbered (updates : List RoutingPolicyUpdate) : Prop :=
  updates.map (·.version) = List.range' 1 updates.length ∧ ∀ u ∈ updates, u.accepted = true

theorem Numbered.sorted {store : GraphStore} (h : Numbered store.updates) :
    store.routingPolicyUpdates = store.updates := by
  refine List.mergeSort_of_pairwise ?_
  have hpairs : (store.updates.map (·.version)).Pairwise (· < ·) := h.1 ▸ List.pairwise_lt_range'
  exact (List.pairwise_map.mp hpairs).imp fun hlt => decide_eq_true (Nat.le_of_lt hlt)

theorem Numbered.filter_accepted {updates : List RoutingPolicyUpdate} (h : Numbered updates) :
    updates.filter (·.accepted) = updates :=
  List.filter_eq_self.mpr h.2

theorem foldl_max_range' (n : Nat) : (List.range' 1 n).foldl max 0 = n := by
  induction n with
  | zero => rfl
  | succ n ih => rw [List.range'_concat, List.foldl_append, ih]; simp; omega

/-- The version is the number of updates. -/
theorem Numbered.policyVersion {store : GraphStore} (h : Numbered store.updates) :
    policyVersion store = store.updates.length := by
  rw [Policy.policyVersion, h.sorted, h.filter_accepted, h.1, foldl_max_range']

/-- The route that the last update of the category changed to. -/
def lastRoute (updates : List RoutingPolicyUpdate) (category : String) : Option TaskRoute :=
  (updates.reverse.find? (·.taskCategory == category)).map (·.toRoute)

theorem Numbered.currentRoute {store : GraphStore} (h : Numbered store.updates)
    (category : String) (staticRoute : TaskRoute) :
    currentRoute store category staticRoute =
      (lastRoute store.updates category).getD staticRoute := by
  have hsame : store.updates.reverse.find?
      (fun update => update.accepted && update.taskCategory == category) =
      store.updates.reverse.find? (·.taskCategory == category) := by
    rw [← List.head?_filter, ← List.head?_filter]
    refine congrArg List.head? (List.filter_congr fun update hmem => ?_)
    rw [h.2 update (List.mem_reverse.mp hmem), Bool.true_and]
  rw [Policy.currentRoute, h.sorted, hsame, lastRoute]
  cases store.updates.reverse.find? (·.taskCategory == category) <;> rfl

/-- What an update says of the log before it and of the prediction that wrote
it. -/
def Justified (config : RoutingPolicyConfig) (store : GraphStore) (event : Event)
    (update : RoutingPolicyUpdate) : Prop :=
  ∃ task workers staticRoute limits, event = .predict task workers staticRoute limits ∧
    update.accepted = true ∧
    update.version = store.updates.length + 1 ∧
    update.previousVersion = store.updates.length ∧
    update.taskCategory = routingCategory task ∧
    update.fromRoute = (lastRoute store.updates update.taskCategory).getD staticRoute ∧
    update.fromRoute ≠ update.toRoute ∧
    ∃ worker, (update.toRoute, worker) ∈ workers ∧
      Proven config store update.taskCategory update.toRoute worker

variable (config fixed) in
/-- A step appends justified updates only. -/
theorem appends_justified : Appends GraphStore.updates (step config fixed) fun store event update =>
    Numbered store.updates → Justified config store event update := by
  intro store event
  cases event with
  | attempt attempt => exact Or.inl rfl
  | predict task workers staticRoute limits =>
    rcases predict_updates config fixed store task workers staticRoute limits with
      hsame | ⟨estimate, hchosen, hchanges, hupdates⟩
    · exact Or.inl hsame
    · refine Or.inr ⟨_, hupdates, fun hnumbered => ?_⟩
      obtain ⟨worker, hworker, hproven⟩ := chosen_proven hchosen
      exact ⟨task, workers, staticRoute, limits, rfl, rfl,
        congrArg (· + 1) hnumbered.policyVersion, hnumbered.policyVersion, rfl,
        hnumbered.currentRoute _ _, fun heq => hchanges heq.symm, worker, hworker, hproven⟩

theorem numbered_step {store : GraphStore} {event : Event} (h : Numbered store.updates) :
    Numbered (step config fixed store event).updates := by
  rcases appends_justified config fixed store event with
    hsame | ⟨update, hupdates, hjustified⟩
  · rwa [hsame]
  · obtain ⟨task, workers, staticRoute, limits, -, haccepted, hversion, -⟩ := hjustified h
    rw [hupdates]
    refine ⟨?_, forall_mem_concat h.2 haccepted⟩
    rw [List.map_append, List.map_singleton, h.1, hversion, List.length_append,
      List.length_singleton, List.range'_concat, Nat.one_mul, Nat.add_comm]

variable (config fixed) in
theorem numbered_after (events : List Event) : Numbered (after config fixed events).updates :=
  keeps (I := fun store : GraphStore => Numbered store.updates) events (fun _ _ => numbered_step)
    ⟨rfl, fun u hu => by cases hu⟩

end

/-- **The policy log is consistent and justified**: it is read in the order in
which it was written, its versions count up from one, and each update was
written by a prediction, on the log before it, for a proven worker. -/
theorem log_justified (config : RoutingPolicyConfig) (fixed : Nat → ℚ → String)
    (events : List Event) :
    let log := (after config fixed events).routingPolicyUpdates
    log.map (·.version) = List.range' 1 log.length ∧
      ∀ i update, log[i]? = some update → ∃ before event, before ++ [event] <+: events ∧
        (after config fixed before).updates = log.take i ∧
        Justified config (after config fixed before) event update := by
  have hnumbered := numbered_after config fixed events
  refine ⟨by rw [hnumbered.sorted]; exact hnumbered.1, fun i update hi => ?_⟩
  rw [hnumbered.sorted] at hi ⊢
  obtain ⟨before, event, hprefix, hlog, -, hjustified⟩ :=
    entry_appended (appends_justified config fixed) rfl hi
  exact ⟨before, event, hprefix, hlog, hjustified (numbered_after config fixed before)⟩

/-! ## Rounding -/

/-- The double nearest to four fifths is the required probability. -/
def strictConfig : RoutingPolicyConfig where
  requiredSuccessProbability := nearest (4 / 5)

def plainTask : Task where
  id := "task"
  question := "What does the parser accept?"
  fingerprint := ""
  projectRoot := ""
  createdAt := 0

def localWorker : Worker := ⟨"local", 0⟩

/-- Three attempts of the local worker that succeeded, and a prediction. -/
def threeSuccesses : List Event :=
  ["a", "b", "c"].map (fun id => Event.attempt {
    id
    actualRoute := .localModel
    worker := "local"
    outcome := .succeeded
    taskCategory := routingCategory plainTask }) ++
  [.predict plainTask [(.localModel, localWorker)] .codex []]

/-- **The exact probability of an update may fall short.** Three of three
attempts make exactly four fifths, less than the required double; the quotient
of the doubles is that double. -/
theorem exact_probability_falls_short :
    let before := after strictConfig (fun _ _ => "") (threeSuccesses.take 3)
    let attempts := evidence before .localModel localWorker.name (routingCategory plainTask)
    before.updates = [] ∧
      (after strictConfig (fun _ _ => "") threeSuccesses).updates.map
        (fun update => (update.taskCategory, update.toRoute)) =
          [(routingCategory plainTask, .localModel)] ∧
      ((successes attempts).length + 1 : ℚ) / (attempts.length + 2) <
        strictConfig.requiredSuccessProbability := by
  decide +kernel

end RlmGraph.Routing.Policy
