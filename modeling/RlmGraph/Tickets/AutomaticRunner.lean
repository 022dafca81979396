import RlmGraph.Sandbox.Controller
import RlmGraph.Sandbox.Review
import RlmGraph.Tickets.Manager

/-! # The automatic ticket runner

The serial execution of the ready tickets of a project. The runner reads and
moves tickets itself; the workspace, the sandbox and what the runner persists
are calls of the outside, which may answer anything and change the store on
their way. A wait is one call, answered by what its polls find. -/
namespace RlmGraph.Tickets.AutomaticRunner
open RlmGraph.Lib RlmGraph.Lib.Programs
open RlmGraph.Scheduler.Work (ScheduledWorkItem WorkStatus)
open RlmGraph.Sandbox.Records RlmGraph.Sandbox.Promote RlmGraph.Sandbox.Lifecycle
open RlmGraph.Sandbox.Outcome RlmGraph.Sandbox.Controller
open RlmGraph.Governance.ArtifactKinds (SandboxValidationDecision)
open RlmGraph.Sandbox.Review (ValidationWorkerSpec)
open RlmGraph.Tickets.Evidence RlmGraph.Tickets.Manager
open RlmGraph.Workspace.Controller (truthy str)

/-! ## Waiting -/

/-- `TERMINAL_WORK`. -/
def terminalWork : List String := ["COMPLETED", "FAILED", "CANCELLED", "INTERRUPTED"]

/-- `TERMINAL_SANDBOX`. -/
def terminalSandbox : List String :=
  ["READY_FOR_REVIEW", "FAILED", "DISCARDED", "PROMOTED", "PROMOTION_FAILED", "RECOVERY_FAILED",
    "RECONCILED"]

def timedOut : PyError := .other "TimeoutError" "Automatic ticket operation exceeded its bounded wait."

def stopRequested : PyError := .runtime "Automatic execution stop requested."

/-- `_wait`, for the polls up to its deadline: what each finds, and whether a
stop is requested by then. -/
def wait {α : Type} (status : α → String) (terminal : List String) :
    List (α × Bool) → Except PyError α
  | [] => .error timedOut
  | (state, stop) :: polls =>
    if terminal.contains (status state) then .ok state
    else if stop then .error stopRequested
    else wait status terminal polls

/-! ### Workers of the sandbox -/

section
variable {σ : Type} {host : ControllerHost σ} {polls : Nat} {job : Job} {s : System σ}

/-- What the polls of a wait find: the controller after some operations of its
worker, and in the end as the worker leaves it. -/
def snapshots (host : ControllerHost σ) (polls : Nat) (job : Job) (s : System σ)
    (earlier : List Nat) : List SandboxState :=
  earlier.map (fun n => ((job.program polls ()).after (perform host) n s).state) ++
    [(job.result host polls s).2.state]

/-- A wait for the worker returns, whatever its polls find on the way. -/
def Settles (host : ControllerHost σ) (polls : Nat) (job : Job) (s : System σ) : Prop :=
  ∀ earlier, ∃ state, wait (·.status) terminalSandbox
    ((snapshots host polls job s earlier).map (·, false)) = .ok state

theorem wait_concat {α : Type} {status : α → String} {terminal : List String} {last : α}
    (h : terminal.contains (status last) = true) (states : List α) :
    ∃ state, wait status terminal ((states ++ [last]).map (·, false)) = .ok state := by
  induction states with
  | nil => exact ⟨last, if_pos h⟩
  | cons first states ih =>
    by_cases hfirst : terminal.contains (status first) = true
    · exact ⟨first, if_pos hfirst⟩
    · obtain ⟨state, hstate⟩ := ih
      exact ⟨state, (if_neg hfirst).trans hstate⟩

/-- A wait returns exactly if the last status is a terminal one. -/
theorem settles_iff_status : Settles host polls job s ↔
    terminalSandbox.contains (job.result host polls s).2.state.status = true := by
  constructor
  · intro h
    obtain ⟨state, hstate⟩ := h []
    by_contra hopen
    have hwait : wait (·.status) terminalSandbox [((job.result host polls s).2.state, false)] =
        .error timedOut := if_neg hopen
    cases hstate.symm.trans hwait
  · exact fun h earlier => wait_concat h _

theorem not_terminal_failureStatus (applied verified : Bool) :
    terminalSandbox.contains (failureStatus applied verified) = false := by
  cases applied <;> cases verified <;> decide

/-- **A wait for a worker that comes to an end returns exactly if** the
scheduler does not stop the worker and it does not report a promotion that was
undone. -/
theorem settles_iff (h : job.Ends host polls s) :
    Settles host polls job s ↔ ¬job.Stopped host polls s ∧ ¬job.Undone host polls s := by
  rw [settles_iff_status]
  obtain ⟨hbody, hreports⟩ | ⟨e, hbody, hcancelled, hstatus⟩ | ⟨e, hbody, hfailed, hstatus⟩ :=
    leaves_of_ends h
  · have hgoing : ¬job.Stopped host polls s := by
      rintro ⟨e, he, -⟩
      cases hbody.symm.trans he
    cases hpromotes : job.promotes host polls s with
    | none =>
      simp only [Job.Reports, hpromotes] at hreports
      refine iff_of_true ?_ ⟨hgoing, ?_⟩
      · obtain hready | hfailed := hreports
        · rw [hready]
          decide
        · rw [hfailed]
          decide
      · rintro ⟨-, ticketId, attemptId, world, hsome, -⟩
        cases hpromotes.symm.trans hsome
    | some promotion =>
      obtain ⟨ticketId, attemptId, world⟩ := promotion
      simp only [Job.Reports, hpromotes] at hreports
      obtain ⟨attempt, hpromoted, hstatus⟩ := hreports
      obtain ⟨outcome, htrial, hconcluded⟩ := concluded_promote hpromoted
      rw [hstatus]
      cases outcome with
      | ok _ =>
        have hpromoted : attempt.status = "PROMOTED" := hconcluded
        refine iff_of_true (by rw [hpromoted]; decide) ⟨hgoing, ?_⟩
        rintro ⟨-, ticketId', attemptId', world', hsome, e, he⟩
        cases hpromotes.symm.trans hsome
        cases htrial.symm.trans he
      | error e =>
        obtain ⟨applied, verified, hfailed⟩ := hconcluded
        refine iff_of_false ?_ fun hboth => hboth.2 ?_
        · rw [hfailed, not_terminal_failureStatus]
          exact Bool.false_ne_true
        · exact ⟨hbody, ticketId, attemptId, world, hpromotes, e, htrial⟩
  · refine iff_of_false ?_ fun hboth => hboth.1 ⟨e, hbody, hcancelled⟩
    rw [hstatus]
    decide
  · refine iff_of_true (by rw [hstatus]; decide) ⟨?_, ?_⟩
    · rintro ⟨e', he', hcancelled⟩
      cases hbody.symm.trans he'
      exact Bool.false_ne_true (hfailed.symm.trans hcancelled)
    · rintro ⟨hreturned, -⟩
      cases hbody.symm.trans hreturned

end

/-- An item of the scheduler. -/
def scheduledItem (status : WorkStatus) : ScheduledWorkItem where
  id := "work"
  ticketId := "ticket"
  projectId := "project"
  projectRoot := "root"
  workKind := "IMPLEMENTATION_SANDBOX"
  status := status
  enqueuedAt := 0
  updatedAt := 0

/-- The scheduler answers that the item has a status, and admits it if it runs. -/
def schedulerAnswer (status : WorkStatus) : (call : SchedulerCall) → call.Answer
  | .enqueue .. | .get _ | .attachEvidence .. => scheduledItem status
  | .tryClaim _ => status = .running
  | .checkpoint .. | .complete .. => ()

/-- One item, and an implementation with one change. -/
def oneItem (status : WorkStatus) : ControllerHost Unit where
  sandbox := quietHost.toSandboxHost
  saveObserverActivity _ _ := (.ok (), ())
  scheduler call world _ := (.ok (schedulerAnswer status call), world, ())
  implementation _ _ world _ := (⟨unrestoredAttempt, .ok (),
    .ok ([{ path := "main.py", beforeHash := "before", afterHash := "after" }], []), .ok (),
    .ok "initial", .ok ()⟩, world, ())

def implementing : Job := .implementation "ticket" "plan" (some "work")

def queuedSystem : System Unit := ⟨{ status := "QUEUED" }, unrestored, ()⟩

theorem admitted_ends : (implementing.result (oneItem .running) 1 queuedSystem).1 = .ok () := rfl

/-- An admitted implementation is seen. -/
theorem settles_iff_admitted : Settles (oneItem .running) 1 implementing queuedSystem := by
  refine (settles_iff ?_).mpr ⟨?_, ?_⟩
  · intro message h
    cases admitted_ends.symm.trans h
  · rintro ⟨e, he, -⟩
    have hbody : implementing.bodyResult (oneItem .running) 1 queuedSystem = .ok () := rfl
    cases hbody.symm.trans he
  · rintro ⟨-, ticketId, attemptId, world, hsome, -⟩
    cases hsome

/-- An implementation that is cancelled in the queue ends, and is waited for
until the deadline. -/
theorem cancelled_unseen :
    ((implementing.result (oneItem .cancelled) 1 queuedSystem).1 = .ok () ∧
      (implementing.result (oneItem .cancelled) 1 queuedSystem).2.state.status = "CANCELLED") ∧
    ¬Settles (oneItem .cancelled) 1 implementing queuedSystem := by
  have hstatus : (implementing.result (oneItem .cancelled) 1 queuedSystem).2.state.status =
      "CANCELLED" := rfl
  refine ⟨⟨rfl, hstatus⟩, fun h => ?_⟩
  have hterminal := settles_iff_status.mp h
  rw [hstatus] at hterminal
  exact absurd hterminal (by decide)

/-! ## Operations -/

inductive RunnerStatus where
  | idle | running | stopped | completed | failed
  deriving DecidableEq

structure RunnerState where
  status : RunnerStatus := .idle
  projectId : Option String := none
  ticketId : Option String := none
  completed : Nat := 0
  failed : Nat := 0
  remaining : Nat := 0
  error : Option String := none
  deriving DecidableEq

/-- The snapshot of the workspace. -/
structure PlanState where
  status : String
  resultId : Option String
  error : Option String

/-- An attempt as the runner reads it. -/
structure Attempt extends ImplementationSandboxAttempt where
  failureReason : Option String

inductive Outside where
  | saveObserverActivity (state : RunnerState)
  | startChangePlan (projectId request : String) (criteria : List String) (ticketId : String)
  | workspacePolls
  | approvePlan (ticketId planRecordId : String)
  | startSandbox (ticketId planRecordId : String)
  | sandboxPolls
  | implementationSandboxes (ticketId : String)
  | configuredWorkers
  | satisfyValidation (ticketId attemptId decisionId : String)
  | runValidationWorker (ticketId attemptId decisionId workerId : String)
  | approvePromotion (ticketId attemptId : String)
  | promote (ticketId attemptId : String)
  | reconcile (ticketId attemptId : String)

abbrev Outside.Answer : Outside → Type
  | .workspacePolls => List (PlanState × Bool)
  | .sandboxPolls => List (SandboxState × Bool)
  | .implementationSandboxes _ => List Attempt
  | .configuredWorkers => List ValidationWorkerSpec
  | _ => Unit

inductive Op where
  | isStopSet
  | executionMode (projectId : String)
  | ready (projectId : String)
  | getTicket (ticketId : String)
  | transition (ticketId status reason : String)
  | state
  | update (values : RunnerState → RunnerState)
  | outside (call : Outside)

abbrev Reply : Op → Type
  | .isStopSet => Bool
  | .executionMode _ => Option ProjectExecutionMode
  | .ready _ => List TicketRecord
  | .getTicket _ | .transition .. => Except PyError TicketRecord
  | .state => RunnerState
  | .update _ => Except PyError Unit
  | .outside call => Except PyError call.Answer

abbrev RunnerAct (α : Type) := Act Op Reply Unit PyError α

def outside (call : Outside) : RunnerAct call.Answer := do
  let answer : Except PyError call.Answer ← Act.perform (Op.outside call)
  Act.ofExcept answer

/-- `_update`. -/
def update (values : RunnerState → RunnerState) : RunnerAct Unit := do
  let updated : Except PyError Unit ← Act.perform (Op.update values)
  Act.ofExcept updated

def getTicket (ticketId : String) : RunnerAct TicketRecord := do
  let found : Except PyError TicketRecord ← Act.perform (Op.getTicket ticketId)
  Act.ofExcept found

/-- `self.tickets.transition`, with the runner as its actor. -/
def transition (ticketId status reason : String) : RunnerAct TicketRecord := do
  let moved : Except PyError TicketRecord ← Act.perform (Op.transition ticketId status reason)
  Act.ofExcept moved

/-! ## One ticket -/

/-- `{AUTONOMOUS_SANDBOX, AUTONOMOUS_PROJECT}`. -/
def autonomous : Option ProjectExecutionMode → Bool
  | some .autonomousSandbox | some .autonomousProject => true
  | _ => false

def stopIteration : PyError := .other "StopIteration" ""

/-- `_attempt`. -/
def attemptOf (ticketId attemptId : String) : RunnerAct Attempt := do
  let attempts ← outside (.implementationSandboxes ticketId)
  Act.ofExcept ((attempts.find? (·.id == attemptId)).elim (.error stopIteration) .ok)

/-- `_attempt_failure`. -/
def attemptFailure (ticketId : String) : RunnerAct (Option String) := do
  let attempts ← outside (.implementationSandboxes ticketId)
  return attempts.getLast?.elim (some "Implementation produced no attempt.") (·.failureReason)

/-- The worker for a decision: the preferred one, or else the first. -/
def workerFor (decision : SandboxValidationDecision) (workers : List ValidationWorkerSpec) :
    Option ValidationWorkerSpec :=
  let preferred :=
    if decision.path.startsWith "tests/" then "BUILTIN-PYTHON-PYTEST" else "BUILTIN-PYTHON-SYNTAX"
  let eligible := workers.filter fun item => item.enabled &&
    item.categories.contains decision.category && item.artifactKinds.contains decision.artifactKind
  (eligible.find? (·.id == preferred)).or eligible.head?

/-- One decision of `_complete_validations`. -/
def completeValidation (ticketId attemptId : String) (decision : SandboxValidationDecision) :
    RunnerAct Unit :=
  Act.when (decision.status = "REQUIRED" ∨ decision.status = "SATISFIED") do
    if decision.category = "REVIEW" then
      outside (.satisfyValidation ticketId attemptId decision.id)
    else do
      let workers ← outside .configuredWorkers
      match workerFor decision workers with
      | some worker => outside (.runValidationWorker ticketId attemptId decision.id worker.id)
      | none => return ()

/-- `_complete_validations`. -/
def completeValidations (ticketId attemptId : String) : RunnerAct Attempt := do
  let attempt ← attemptOf ticketId attemptId
  attempt.validationDecisions.forM (completeValidation ticketId attemptId)
  attemptOf ticketId attemptId

/-- The plan of a ticket, up to its approval. -/
def planTicket (projectId : String) (ticket : TicketRecord) : RunnerAct String := do
  outside (.startChangePlan projectId ticket.description
    (ticket.acceptanceCriteria.map (·.description)) ticket.id)
  let polls ← outside .workspacePolls
  let workspace ← Act.ofExcept (wait (·.status) terminalWork polls)
  Act.require (workspace.status = "COMPLETED") (.runtime (str (orText workspace.error
    (some "Automatic planning failed."))))
  let planId := str workspace.resultId
  outside (.approvePlan ticket.id planId)
  return planId

/-- The implementation of a plan, up to a validated attempt. -/
def implementTicket (ticket : TicketRecord) (planId : String) : RunnerAct Attempt := do
  outside (.startSandbox ticket.id planId)
  let polls ← outside .sandboxPolls
  let sandbox ← Act.ofExcept (wait (·.status) terminalSandbox polls)
  Act.when (sandbox.status ≠ "READY_FOR_REVIEW" ∨ truthy sandbox.attemptId = false) do
    if truthy sandbox.error then Act.fail (.runtime (str sandbox.error))
    else do
      let failure ← attemptFailure ticket.id
      Act.fail (.runtime (str failure))
  let attempt ← completeValidations ticket.id (str sandbox.attemptId)
  Act.require (attempt.status = "READY_FOR_REVIEW") (.runtime (str (orText
    attempt.failureReason (some "Automatic validation did not pass."))))
  return attempt

/-- The promotion of a validated attempt, with its reconciliation. -/
def promoteTicket (ticket : TicketRecord) (attempt : Attempt) : RunnerAct Unit := do
  outside (.approvePromotion ticket.id attempt.id)
  update id
  outside (.promote ticket.id attempt.id)
  let polls ← outside .sandboxPolls
  let promoted ← Act.ofExcept (wait (·.status) terminalSandbox polls)
  Act.require (promoted.status = "PROMOTED") (.runtime (str (orText promoted.error
    (some "Automatic promotion failed."))))
  outside (.reconcile ticket.id attempt.id)

/-- The block of `_run` for one ticket. -/
def executeTicket (projectId : String) (mode : Option ProjectExecutionMode) (ticket : TicketRecord) :
    RunnerAct Unit := do
  let _ ← transition ticket.id "ACTIVE" "Selected from the explicitly authorized disposable queue."
  let planId ← planTicket projectId ticket
  update id
  let attempt ← implementTicket ticket planId
  Act.when (mode = some .autonomousProject) (promoteTicket ticket attempt)
  let _ ← transition ticket.id "AWAITING_REVIEW" (if mode = some .autonomousProject then
      "Implementation promoted and reconciled; criteria await evidence review."
    else "Validated changes remain only in the autonomous sandbox.")
  let state ← Act.perform Op.state
  update fun current => { current with completed := state.completed + 1 }

/-- The `except` clause of a ticket. -/
def ticketFailed (ticketId : String) (e : PyError) : RunnerAct Unit := do
  let current ← getTicket ticketId
  Act.when (["BLOCKED", "SATISFIED", "CLOSED"].contains current.status = false) do
    let _ ← transition ticketId "BLOCKED" s!"Automatic execution stopped for this ticket: {e.message}"
  let state ← Act.perform Op.state
  update fun current => { current with failed := state.failed + 1, error := some e.message }

/-! ## The queue -/

def unauthorized : PyError := .runtime "Automatic project execution is no longer authorized."

/-- One ticket of the queue. -/
def round (projectId : String) (mode : Option ProjectExecutionMode) (ticket : TicketRecord)
    (remaining : Nat) : RunnerAct Unit := do
  update fun state => { state with ticketId := some ticket.id, remaining := remaining }
  Act.onError (executeTicket projectId mode ticket) PyError.isException (ticketFailed ticket.id)

/-- The loop of `_run`. The process ends before the number of rounds is used up. -/
def rounds (projectId : String) : Nat → RunnerAct Unit
  | 0 => Act.fail (.fatal "The process ended.")
  | fuel + 1 => do
    let stop ← Act.perform Op.isStopSet
    if stop then return ()
    else do
      let mode ← Act.perform (Op.executionMode projectId)
      Act.require (autonomous mode = true) unauthorized
      let ready ← Act.perform (Op.ready projectId)
      match ready with
      | [] => return ()
      | ticket :: rest =>
        round projectId mode ticket (rest.length + 1)
        rounds projectId fuel

/-- The end of `_run` behind the loop. -/
def conclude (projectId : String) : RunnerAct Unit := do
  let stop ← Act.perform Op.isStopSet
  let ready ← Act.perform (Op.ready projectId)
  update fun state => { state with
    status := if stop then .stopped else .completed
    ticketId := none
    remaining := ready.length }

/-- `_run`. -/
def run (projectId : String) (fuel : Nat) : RunnerAct Unit :=
  Act.onError (do rounds projectId fuel; conclude projectId) PyError.isException fun e =>
    update fun state => { state with status := .failed, error := some e.message }

end RlmGraph.Tickets.AutomaticRunner
