import RlmGraph.Lib.Pool
import RlmGraph.Scheduler.Work

/-! # The interactive workspace

The read-only workflows of a project workspace as programs. A controller holds
the state of one activity behind a lock of its own; the controllers share a run
guard. What a call asks of the store, the indexer, the scheduler and the host is
an outside call, whose answer may be anything, also an exception. -/
namespace RlmGraph.Workspace.Controller
open RlmGraph.Lib RlmGraph.Lib.PyText RlmGraph.Lib.Programs
open RlmGraph.Scheduler.Work (ScheduledWorkItem WorkStatus)

/-! ## The state of an activity -/

inductive WorkspaceStatus where
  | idle | queued | running | interrupted | completed | failed | cancelled
  deriving DecidableEq

/-- `status in {"QUEUED", "RUNNING"}`. -/
def WorkspaceStatus.busy : WorkspaceStatus → Bool
  | .queued | .running => true
  | _ => false

structure WorkspaceState where
  jobId : Option String := none
  scheduledWorkId : Option String := none
  kind : Option String := none
  projectId : Option String := none
  projectName : Option String := none
  ticketId : Option String := none
  criteria : List String := []
  status : WorkspaceStatus := .idle
  prompt : String := ""
  deriving DecidableEq

/-- `_idle_state`. -/
def idleState : WorkspaceState := {}

/-- `_restored_state`: what a new controller makes of the persisted activity. -/
def restoredState : Option WorkspaceState → WorkspaceState
  | none => idleState
  | some state => if state.status.busy then { state with status := .interrupted } else state

/-- The truth value of an optional text. -/
def truthy (text : Option String) : Bool := text.any (· ≠ "")

/-- `str` of an optional text. -/
def str (text : Option String) : String := text.getD "None"

/-- The arguments of `_run`. -/
structure Job where
  jobId : String
  kind : String
  projectId : String
  prompt : String
  criteria : List String
  ticketId : Option String
  scheduledWorkId : Option String
  deriving DecidableEq

/-- What a controller is made with. -/
structure WorkspaceController where
  scheduler : Bool
  ideaSuggester : Bool
  text : CaseTables

/-! ## Operations -/

structure ProjectOption where
  id : String
  name : String
  indexCurrent : Bool

/-- The answer of the idea suggester. -/
structure Ideas where
  suggestions : List String
  filesExamined : List String

inductive Outside where
  | options
  | policy (projectId : String)
  | project (projectId : String)
  | resolveRoot (projectId : String)
  | scan (projectId : String)
  | projectIndexCurrent (projectId : String)
  | manifests (projectId : String)
  | projectFiles (projectId : String)
  | unrealArtifacts (projectId : String)
  | suggest (paths : List String)
  | sourceRecord (projectId kind prompt : String) (criteria : List String)
  | saveObserverActivity (state : WorkspaceState)
  | checkBudget (ticketId : String)
  | assertCurrentSourceClaims (ticketId : String)
  | attachWorkspaceRecord (ticketId record : String)
  | saveProjectWorkspaceRecord (record : String)
  | enqueue (ticketId workKind artifactId : String)
  | tryClaim (workId : String)
  | scheduledItem (workId : String)
  | checkpoint (workId stage : String) (evidence : List String)
  | attachEvidence (workId : String) (evidence : List String)
  | complete (workId : String) (status detail : String)
  | requestCancellation (workId actor reason : String)
  | resumeWork (workId : String)

abbrev Outside.Answer : Outside → Type
  | .options => List ProjectOption
  | .projectIndexCurrent _ => Bool
  | .manifests _ => String × String
  | .projectFiles _ => List String
  | .unrealArtifacts _ => List String
  | .suggest _ => Ideas
  | .sourceRecord .. => String
  | .checkBudget _ => String
  | .enqueue .. => String
  | .tryClaim _ => Bool
  | .scheduledItem _ => ScheduledWorkItem
  | .requestCancellation .. => ScheduledWorkItem
  | _ => Unit

inductive Op where
  | acquireGuard
  | releaseGuard
  | lock
  | unlock
  | state
  | setState (state : WorkspaceState)
  | startThread (job : Job)
  | newJobId
  | outside (call : Outside)
  /-- Waits for ever. -/
  | suspend

abbrev Reply : Op → Type
  | .acquireGuard => Bool
  | .releaseGuard => Bool
  | .state => WorkspaceState
  | .startThread _ => Except PyError Unit
  | .newJobId => String
  | .outside call => Except PyError call.Answer
  | _ => Unit

abbrev WorkspaceAct (α : Type) := Act Op Reply Unit PyError α

def outside (call : Outside) : WorkspaceAct call.Answer := do
  let answer ← Act.perform (Op.outside call)
  Act.ofExcept answer

/-- `threading.Thread(target=self._run, args=...).start()`. -/
def startThread (job : Job) : WorkspaceAct Unit := do
  let started ← Act.perform (Op.startThread job)
  Act.ofExcept started

/-- `with self._lock`. -/
def withLock {α : Type} (body : WorkspaceAct α) : WorkspaceAct α := do
  Act.perform Op.lock
  body.andFinally (Act.perform Op.unlock)

/-- `self._run_guard.release()`. -/
def releaseGuard : WorkspaceAct Unit := do
  let wasLocked ← Act.perform Op.releaseGuard
  Act.require (wasLocked = true) (.runtime "release unlocked lock")

/-- `snapshot`. -/
def snapshot : WorkspaceAct WorkspaceState := withLock (Act.perform Op.state)

/-- The state is replaced and persisted. -/
def storeState (state : WorkspaceState) : WorkspaceAct Unit := do
  Act.perform (Op.setState state)
  outside (.saveObserverActivity state)

/-- `_update`; the modelled fields it is called with are at most the status. -/
def update (jobId : String) (status : Option WorkspaceStatus) : WorkspaceAct Unit :=
  withLock do
    let state ← Act.perform Op.state
    Act.when (state.jobId = some jobId)
      (storeState { state with status := status.getD state.status })

/-! ## The calls -/

section
variable (w : WorkspaceController)

def maxRequestCharacters : Nat := 1000
def maxAcceptanceCriteria : Nat := 8
def maxAcceptanceCriterionCharacters : Nat := 300

def unregistered : PyError := .value "Select an explicitly registered read-only project."

def anotherWorkflow : PyError :=
  .runtime "Another interactive read-only workflow is already running."

/-- The registered project with an identifier. -/
def projectOption (projectId : String) : WorkspaceAct ProjectOption := do
  let options ← outside .options
  Act.ofExcept ((options.find? (·.id == projectId)).elim (.error unregistered) .ok)

/-- `text_suffixes`. -/
def textSuffixes : List String :=
  [".build.cs", ".cpp", ".cs", ".h", ".hpp", ".ini", ".json", ".md", ".py", ".toml", ".txt",
    ".uplugin", ".uproject", ".yaml", ".yml"]

/-- The paths the suggester may read. -/
def indexedPaths (projectId : String) : WorkspaceAct (List String) := do
  let files ← outside (.projectFiles projectId)
  if files ≠ [] then
    return files
  let artifacts ← outside (.unrealArtifacts projectId)
  return artifacts.filter fun path => textSuffixes.any (endsWith (casefold w.text path))

structure SuggestedIdeas where
  projectId : String
  projectName : String
  indexedManifestSha256 : String
  suggestions : List String
  filesExamined : List String
  indexedFiles : Nat

/-- The body of `suggest_ideas` that runs inside the guard. -/
def suggestInside (option : ProjectOption) (projectId : String) : WorkspaceAct SuggestedIdeas := do
  outside (.project projectId)
  outside (.resolveRoot projectId)
  let before ← outside (.manifests projectId)
  Act.require (before.1 = before.2)
    (.runtime "The selected project index became stale before AI analysis.")
  let paths ← indexedPaths w projectId
  let ideas ← outside (.suggest paths)
  let after ← outside (.manifests projectId)
  Act.require (before.2 = after.2)
    (.runtime "Project source changed during AI suggestion analysis.")
  return ⟨projectId, option.name, before.1, ideas.suggestions, ideas.filesExamined, paths.length⟩

/-- Whether the index of the selected project is current. -/
def indexCurrent (option : ProjectOption) (projectId : String) : WorkspaceAct Bool :=
  if option.indexCurrent then outside (.projectIndexCurrent projectId) else pure false

/-- The check of `suggest_ideas` under the lock. -/
def assertIdle : WorkspaceAct Unit :=
  withLock do
    let state ← Act.perform Op.state
    Act.require (state.status.busy = false)
      (.runtime "Another read-only project analysis is already running.")

/-- `suggest_ideas`. -/
def suggestIdeas (projectId : String) : WorkspaceAct SuggestedIdeas := do
  Act.require (w.ideaSuggester = true)
    (.runtime "AI suggestions are unavailable because no AI worker is configured.")
  let option ← projectOption projectId
  let current ← indexCurrent option projectId
  Act.require (current = true)
    (.runtime "The selected project index is stale. Re-index before suggesting ideas.")
  assertIdle
  let acquired ← Act.perform Op.acquireGuard
  Act.require (acquired = true) anotherWorkflow
  (suggestInside w option projectId).andFinally releaseGuard

/-- `guard_acquired` of `_start`. -/
def reserveGuard : WorkspaceAct Bool :=
  if w.scheduler then pure false else Act.perform Op.acquireGuard

/-- The scheduled work of a new job, if it is scheduled. -/
def schedule (kind jobId : String) (ticketId : Option String) : WorkspaceAct (Option String) :=
  if w.scheduler ∧ truthy ticketId then do
    let workId ← outside (.enqueue (str ticketId) ("WORKSPACE_" ++ kind) jobId)
    return some workId
  else pure none

/-- The block of `_start` under the lock. -/
def reserve (kind : String) (option : ProjectOption) (projectId prompt : String)
    (criteria : List String) (ticketId : Option String) : WorkspaceAct Job :=
  withLock do
    let state ← Act.perform Op.state
    Act.require (state.status.busy = false) (.runtime "A workspace job is already running.")
    let guardAcquired ← reserveGuard w
    Act.require (w.scheduler = true ∨ guardAcquired = true) anotherWorkflow
    let jobId ← Act.perform Op.newJobId
    let scheduled ← schedule w kind jobId ticketId
    storeState {
      jobId := some jobId, scheduledWorkId := scheduled, kind := some kind
      projectId := some projectId, projectName := some option.name, ticketId := ticketId
      criteria := criteria, status := .queued, prompt := prompt }
    return ⟨jobId, kind, projectId, prompt, criteria, ticketId, scheduled⟩

/-- The checks of `_start` before it takes the lock. -/
def preflight (projectId : String) (prompt : String) (ticketId : Option String) :
    WorkspaceAct ProjectOption := do
  Act.require (prompt ≠ "") (.value "A question or proposed change is required.")
  Act.require (prompt.length ≤ maxRequestCharacters)
    (.value s!"Request exceeds the {maxRequestCharacters}-character limit.")
  let option ← projectOption projectId
  outside (.policy projectId)
  Act.when (truthy ticketId) do
    let ticketProject ← outside (.checkBudget (str ticketId))
    Act.require (ticketProject = projectId)
      (.value "Workspace project must match the originating ticket project.")
  let current ← outside (.projectIndexCurrent projectId)
  Act.when (current = false) do
    outside (.project projectId)
    outside (.resolveRoot projectId)
    outside (.scan projectId)
  Act.when (truthy ticketId) (outside (.assertCurrentSourceClaims (str ticketId)))
  return option

/-- `_start`. -/
def start (kind projectId prompt : String) (criteria : List String) (ticketId : Option String) :
    WorkspaceAct WorkspaceState := do
  let option ← preflight projectId (squeeze prompt) ticketId
  let job ← reserve w kind option projectId (squeeze prompt) criteria ticketId
  startThread job
  snapshot

/-- `start_diagnostic`. -/
def startDiagnostic (projectId question : String) (ticketId : Option String) :
    WorkspaceAct WorkspaceState :=
  start w "DIAGNOSTIC" projectId question [] ticketId

/-- `start_change_plan`. -/
def startChangePlan (projectId request : String) (acceptanceCriteria : List String)
    (ticketId : Option String) : WorkspaceAct WorkspaceState := do
  let criteria := (acceptanceCriteria.filter (strip · ≠ "")).map squeeze
  Act.require (criteria.length ≤ maxAcceptanceCriteria)
    (.value s!"At most {maxAcceptanceCriteria} acceptance criteria are allowed.")
  Act.require (∀ item ∈ criteria, item.length ≤ maxAcceptanceCriterionCharacters)
    (.value ("Each acceptance criterion is limited to " ++
      s!"{maxAcceptanceCriterionCharacters} characters."))
  start w "CHANGE_PLAN" projectId request criteria ticketId

/-- `resume`. -/
def resume : WorkspaceAct WorkspaceState := do
  let state ← snapshot
  Act.require (state.status = .interrupted)
    (.value "Only an interrupted workspace activity can be resumed.")
  if truthy state.scheduledWorkId ∧ w.scheduler then
    outside (.resumeWork (str state.scheduledWorkId))
    update (str state.jobId) (some .queued)
    startThread ⟨str state.jobId, str state.kind, str state.projectId, state.prompt,
      state.criteria, state.ticketId, some (str state.scheduledWorkId)⟩
    snapshot
  else
    start w (str state.kind) (str state.projectId) state.prompt state.criteria state.ticketId

/-- `cancel`. -/
def cancel (actor reason : String) : WorkspaceAct WorkspaceState := do
  let state ← snapshot
  Act.require (truthy state.scheduledWorkId ∧ w.scheduler = true)
    (.value "The active workspace activity is not managed by the scheduler.")
  let item ← outside (.requestCancellation (str state.scheduledWorkId) actor reason)
  Act.when (item.status = .cancelled) do
    let state ← Act.perform Op.state
    update (str state.jobId) (some .cancelled)
  snapshot

/-! ## The worker -/

/-- `SchedulingCancelled`. -/
def schedulingCancelled (message : String) : PyError := .other "SchedulingCancelled" message

def isSchedulingCancelled : PyError → Bool
  | .other name _ => name = "SchedulingCancelled"
  | _ => false

/-- The loop of `_run` that waits for admission. It polls as often as the number
given, and then waits for ever: a run that polls less often does not notice. -/
def awaitAdmission (workId : String) : Nat → WorkspaceAct Unit
  | 0 => Act.perform Op.suspend
  | polls + 1 => do
    let claimed ← outside (.tryClaim workId)
    if claimed then pure ()
    else do
      let item ← outside (.scheduledItem workId)
      Act.require (item.status ≠ .cancelled ∧ item.status ≠ .failed ∧ item.status ≠ .blockedBudget)
        (schedulingCancelled ((orText item.blockedReason
          (orText item.cancellationReason (some "Scheduled work stopped."))).getD ""))
      awaitAdmission workId polls

/-- Whether the worker runs under the scheduler. -/
def Job.scheduled (job : Job) : Bool := truthy job.scheduledWorkId && w.scheduler

/-- The record goes to the ticket, if there is one. -/
def saveRecord (job : Job) (record : String) : WorkspaceAct Unit :=
  if truthy job.ticketId then outside (.attachWorkspaceRecord (str job.ticketId) record)
  else outside (.saveProjectWorkspaceRecord record)

/-- The body of `_run`. -/
def work (polls : Nat) (job : Job) : WorkspaceAct Unit := do
  let workId := str job.scheduledWorkId
  Act.when (job.scheduled w = true) do
    awaitAdmission workId polls
    outside (.checkpoint workId "SOURCE_PREFLIGHT" [])
  update job.jobId (some .running)
  outside (.project job.projectId)
  outside (.resolveRoot job.projectId)
  let before ← outside (.manifests job.projectId)
  Act.require (before.1 = before.2)
    (.runtime "The selected project index became stale before execution.")
  update job.jobId none
  let record ← outside (.sourceRecord job.projectId job.kind job.prompt job.criteria)
  update job.jobId none
  let after ← outside (.manifests job.projectId)
  Act.require (before.2 = after.2)
    (.runtime "Project source changed during the interactive workflow.")
  saveRecord job record
  Act.when (job.scheduled w = true) do
    outside (.attachEvidence workId [record])
    outside (.checkpoint workId "RESULT_PERSISTED" [record])
    outside (.complete workId "COMPLETED"
      "Read-only workspace work completed and capacity released.")
  update job.jobId (some .completed)

/-- The `except` clauses of `_run`. -/
def stopped (job : Job) (e : PyError) : WorkspaceAct Unit :=
  if isSchedulingCancelled e then update job.jobId (some .cancelled)
  else do
    update job.jobId (some .failed)
    Act.when (job.scheduled w = true) do
      let item ← outside (.scheduledItem (str job.scheduledWorkId))
      Act.when (item.status ≠ .cancelled ∧ item.status ≠ .failed)
        (outside (.complete (str job.scheduledWorkId) "FAILED" e.message))

/-- `_run`. -/
def run (polls : Nat) (job : Job) : WorkspaceAct Unit :=
  -- the worker releases the guard when it has no scheduled work, whoever acquired it
  let guardAcquired := job.scheduledWorkId.isNone
  ((work w polls job).onError PyError.isException (stopped w job)).andFinally
    (Act.when (guardAcquired = true) releaseGuard)

end

/-! ## Controllers and their threads -/

inductive Request where
  | suggestIdeas (projectId : String)
  | startDiagnostic (projectId question : String) (ticketId : Option String)
  | startChangePlan (projectId request : String) (acceptanceCriteria : List String)
      (ticketId : Option String)
  | resume
  | cancel (actor reason : String)

/-- The program of a call; what it returns goes to the caller. -/
def Request.program (w : WorkspaceController) : Request → WorkspaceAct Unit
  | .suggestIdeas projectId => do let _ ← Controller.suggestIdeas w projectId
  | .startDiagnostic projectId question ticketId => do
    let _ ← Controller.startDiagnostic w projectId question ticketId
  | .startChangePlan projectId request criteria ticketId => do
    let _ ← Controller.startChangePlan w projectId request criteria ticketId
  | .resume => do let _ ← Controller.resume w
  | .cancel actor reason => do let _ ← Controller.cancel w actor reason

/-- What a thread does: a call, or the worker of a job. -/
inductive Kind where
  | suggest
  | call
  | worker (scheduled : Bool)
  deriving DecidableEq

def Request.kind : Request → Kind
  | .suggestIdeas _ => .suggest
  | _ => .call

/-- A thread belongs to a controller and to a workflow: a call, with the worker
it starts. -/
structure Role (ι : Type) where
  controller : ι
  workflow : Nat
  kind : Kind

/-- The guard changes hands. -/
inductive GuardEvent where
  | acquired (workflow : Nat)
  | released (workflow : Nat)
  deriving DecidableEq

structure System (ι : Type) where
  guard : Bool
  locks : ι → Bool
  states : ι → WorkspaceState
  /-- Who acquired and who released the guard. Nothing reads it. -/
  history : List GuardEvent

/-- The answers of the outside world to one operation. -/
structure Answers where
  outside : (call : Outside) → Except PyError call.Answer
  starts : Except PyError Unit
  newJobId : String

variable {ι : Type} [DecidableEq ι]

abbrev Workers (ι : Type) := Pool Op Reply (System ι) (Role ι) (Except PyError Unit × Unit)

/-- What the operation of a thread comes to. -/
def perform (spaces : ι → WorkspaceController) (polls : Nat) (answers : Answers) :
    PoolMeaning Op Reply (System ι) (Role ι) (Except PyError Unit × Unit) := fun role op s =>
  match op with
  | .acquireGuard =>
    some { reply := !s.guard, state := if s.guard then s else
      { s with guard := true, history := s.history ++ [.acquired role.workflow] } }
  | .releaseGuard =>
    some { reply := s.guard, state :=
      { s with guard := false, history := s.history ++ [.released role.workflow] } }
  | .lock =>
    if s.locks role.controller then none
    else some { reply := (), state :=
      { s with locks := Function.update s.locks role.controller true } }
  | .unlock =>
    some { reply := (), state :=
      { s with locks := Function.update s.locks role.controller false } }
  | .state => some { reply := s.states role.controller, state := s }
  | .setState state =>
    some { reply := (), state :=
      { s with states := Function.update s.states role.controller state } }
  | .startThread job =>
    some { reply := answers.starts, state := s, started :=
      match answers.starts with
      | .ok _ => [(⟨role.controller, role.workflow, .worker job.scheduledWorkId.isSome⟩,
        run (spaces role.controller) polls job ())]
      | .error _ => [] }
  | .newJobId => some { reply := answers.newJobId, state := s }
  | .outside call => some { reply := answers.outside call, state := s }
  | .suspend => none

/-- A step of the controllers: a call is made, or a thread goes on. -/
inductive Step (ι : Type) where
  | call (controller : ι) (request : Request)
  | turn (thread : Nat) (answers : Answers)

def step (spaces : ι → WorkspaceController) (polls : Nat) (pool : Workers ι) : Step ι → Workers ι
  | .call c request => pool.start
      (⟨c, pool.threads.length, request.kind⟩, request.program (spaces c) ())
  | .turn i answers => pool.turn (perform spaces polls answers) i

/-- New controllers, with the activities persisted for them. -/
def opened (persisted : ι → Option WorkspaceState) : Workers ι :=
  ⟨[], ⟨false, fun _ => false, fun c => restoredState (persisted c), []⟩⟩

def runSteps (spaces : ι → WorkspaceController) (polls : Nat) (steps : List (Step ι)) (pool : Workers ι) :
    Workers ι :=
  steps.foldl (step spaces polls) pool

end RlmGraph.Workspace.Controller
