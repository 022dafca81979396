import Mathlib.Data.Rat.Floor
import RlmGraph.Lib.PyError
import RlmGraph.Lib.Rows

/-! # Records of a pursuit

The tasks, claims and clusters that a pursuit reads and writes, its limits, and
the state of one call of `pursue`: the store, the counters of the planner and of
the investigator, and the queue. The host answers by the number of the question
what a model returns or raises, what time it is and which identifier is drawn.
Scores are rational numbers. -/
namespace RlmGraph.Runner.Records
open RlmGraph.Lib RlmGraph.Lib.Rows

inductive TaskStatus where
  | open | done | recurse | stopped
  deriving DecidableEq

inductive StoppingReason where
  | completed | lowConfidence | maxDepth | callBudget | retryExhausted | cycleDetected
  | retrievalTokenBudget | wallTimeBudget | duplicateBudget
  deriving DecidableEq

inductive TaskKind where
  | investigation | resolution | followUp
  deriving DecidableEq

inductive TaskRoute where
  | memory | localInvestigator | localModel | codex | resolver
  deriving DecidableEq

def TaskRoute.value : TaskRoute → String
  | memory => "MEMORY"
  | localInvestigator => "LOCAL_INVESTIGATOR"
  | localModel => "LOCAL_MODEL"
  | codex => "CODEX"
  | resolver => "RESOLVER"

inductive ClusterStatus where
  | open | resolved | unresolved
  deriving DecidableEq

structure Task where
  id : String
  question : String
  fingerprint : String
  projectFingerprint : String := ""
  projectRoot : String
  kind : TaskKind := .investigation
  parentTaskId : Option String := none
  conflictingClaimIds : List String := []
  disputedAssertionKey : Option String := none
  resolvedClaimId : Option String := none
  conflictClusterId : Option String := none
  evidenceGap : Option String := none
  sourceClaimIds : List String := []
  outputClaimId : Option String := none
  depth : Int := 0
  attemptCount : Int := 0
  stoppingReason : Option StoppingReason := none
  lastError : Option String := none
  status : TaskStatus := .open
  reusedClaimId : Option String := none
  reuseType : Option String := none
  priority : ℚ := 0
  uncertainty : ℚ := 1
  difficulty : ℚ := 1 / 2
  route : Option TaskRoute := none
  dependencyTaskIds : List String := []
  createdAt : Int
  deriving DecidableEq

structure Claim where
  id : String
  conclusion : String
  /-- The details of the evidence. -/
  evidence : List String
  confidence : ℚ
  current : Bool := true
  deriving DecidableEq

structure ConflictCluster where
  id : String
  status : ClusterStatus := .open
  resolvedClaimId : Option String := none
  selectedValue : Option String := none
  deriving DecidableEq

structure InvestigationResult where
  conclusion : String
  evidence : List String
  confidence : ℚ
  unresolvedQuestions : List String

structure ResolutionResult where
  /-- The value of the resolved assertion. -/
  resolvedValue : Option String
  rationale : String
  evidence : List String
  confidence : ℚ
  unresolvedQuestions : List String

structure PursuitConfig where
  maxDepth : Nat := 4
  maxCodexCalls : Nat := 8
  maxRetriesPerTask : Nat := 2
  minimumConfidence : ℚ := 3 / 4
  maxRetrievalTokens : Nat := 8000
  maxDuplicateInvestigations : Nat := 0
  maxWallTimeSeconds : ℚ := 300
  retries : 1 ≤ maxRetriesPerTask := by decide

/-- An optional text, as a condition: empty is absent. -/
def given (text : Option String) : Option String := text.filter (· ≠ "")

/-! ## The store -/

structure GraphStore where
  tasks : List Task
  claims : List Claim
  clusters : List ConflictCluster

namespace GraphStore

def getTask (store : GraphStore) (taskId : String) : Option Task :=
  store.tasks.find? (·.id == taskId)

def getClaim (store : GraphStore) (claimId : String) : Option Claim :=
  store.claims.find? (·.id == claimId)

def getConflictCluster (store : GraphStore) (clusterId : String) : Option ConflictCluster :=
  store.clusters.find? (·.id == clusterId)

def saveTask (store : GraphStore) (task : Task) : GraphStore :=
  { store with tasks := replaceRow (·.id) task store.tasks }

def saveClaim (store : GraphStore) (claim : Claim) : GraphStore :=
  { store with claims := replaceRow (·.id) claim store.claims }

def saveConflictCluster (store : GraphStore) (cluster : ConflictCluster) : GraphStore :=
  { store with clusters := replaceRow (·.id) cluster store.clusters }

@[simp] theorem getTask_saveTask (store : GraphStore) (task : Task) :
    (store.saveTask task).getTask task.id = some task :=
  find?_replaceRow_self

@[simp] theorem getTask_saveClaim (store : GraphStore) (claim : Claim) (taskId : String) :
    (store.saveClaim claim).getTask taskId = store.getTask taskId := rfl

@[simp] theorem getTask_saveConflictCluster (store : GraphStore) (cluster : ConflictCluster)
    (taskId : String) : (store.saveConflictCluster cluster).getTask taskId = store.getTask taskId :=
  rfl

theorem getTask_id {store : GraphStore} {taskId : String} {task : Task}
    (h : store.getTask taskId = some task) : task.id = taskId := by
  simpa using List.find?_some h

/-- `_children`. -/
def children (store : GraphStore) (taskId : String) : List Task :=
  store.tasks.filter (·.parentTaskId == some taskId)

end GraphStore

/-! ## The call -/

structure PursuitHost where
  /-- `str(Path(path).resolve())`. -/
  resolve : String → String
  strip : String → String
  /-- `task_fingerprint`. -/
  taskFingerprint : String → String → String
  now : Nat → Int
  elapsed : Nat → ℚ
  newId : Nat → String
  /-- The routes with a worker. -/
  workers : List TaskRoute
  minimumConfidence : ℚ
  /-- The route that the routing policy chooses, given the static one. -/
  predict : Nat → Task → TaskRoute → Except PyError TaskRoute
  /-- What the worker of a route returns or raises. -/
  investigate : Nat → TaskRoute → String → Except PyError InvestigationResult
  /-- What the resolver returns or raises. -/
  resolver : Nat → Task → Except PyError ResolutionResult
  /-- Whether the resolver has `resolve_cluster`. -/
  resolvesClusters : Bool
  /-- `_is_successful` and `_is_cluster_successful`. -/
  successful : Task → List Claim → Option ConflictCluster → ResolutionResult → Bool
  /-- What `initialize_provenance` raises, if it does. -/
  provenanceFault : Nat → Option PyError
  /-- Whether the runner has a follow-up executor. -/
  followsUp : Bool

structure PlanningRun where
  modelCallsUsed : Nat
  retrievalTokensUsed : Nat := 0
  duplicateInvestigations : Nat := 0
  elapsedSeconds : ℚ := 0

/-- The attributes of the adaptive investigator. -/
structure Investigator where
  lastCallCount : Nat := 0
  maxCallsForExecution : Nat := 2
  maxRetrievalTokensForExecution : Int := 2147483647

/-- Where the call is: at the head of the loop, about to execute an admitted
follow-up, at the head of the retry loop of a resolution, or at its end. -/
inductive Phase where
  | loop
  | followUp (task : Task)
  | resolve (task : Task)
  | returned (status : TaskStatus) (reason : StoppingReason)
  | raised (e : PyError)

structure Pursuit where
  rootTaskId : String
  store : GraphStore
  run : PlanningRun
  investigator : Investigator
  followUpCalls : Nat
  resolutionCalls : Nat
  codexCalls : Nat
  /-- The queue; `queued` is the set of its members. -/
  queue : List String
  stopReason : Option StoppingReason
  phase : Phase
  /-- How many questions the host has been asked. -/
  tick : Nat
  /-- How many models have been called. Nothing reads it. -/
  modelCalls : Nat

def Pursuit.saveTask (s : Pursuit) (task : Task) : Pursuit :=
  { s with store := s.store.saveTask task }

def Pursuit.next (s : Pursuit) : Pursuit := { s with tick := s.tick + 1 }

/-- `stop_reason = stop_reason or reason`. -/
def Pursuit.stopFor (s : Pursuit) (reason : StoppingReason) : Pursuit :=
  { s with stopReason := s.stopReason.orElse fun _ => some reason }

end RlmGraph.Runner.Records
