import RlmGraph.Sandbox.Outcome
import RlmGraph.Workspace.Controller

/-! # The interactive sandbox controller

The workers of the controller as programs. A worker waits for its admission,
runs the manager and leaves a status in the state of the controller, which the
others read. The manager, the scheduler and what the controller persists are a
world of its own; the promotion in it is the modelled one, of an
implementation only its checks are not. -/
namespace RlmGraph.Sandbox.Controller
open RlmGraph.Lib RlmGraph.Lib.Results RlmGraph.Lib.Programs RlmGraph.Governance.ArtifactKinds
open RlmGraph.Scheduler.Work (ScheduledWorkItem WorkStatus)
open RlmGraph.Sandbox.Records RlmGraph.Sandbox.Operations RlmGraph.Sandbox.Promote
open RlmGraph.Sandbox.Lifecycle RlmGraph.Sandbox.Outcome
open RlmGraph.Workspace.Controller (truthy str schedulingCancelled isSchedulingCancelled)

/-! ## The state -/

structure SandboxState where
  attemptId : Option String := none
  scheduledWorkId : Option String := none
  operation : Option String := none
  ticketId : Option String := none
  planRecordId : Option String := none
  status : String := "IDLE"
  error : Option String := none
  deriving DecidableEq

/-! ## Operations -/

inductive SchedulerCall where
  | enqueue (ticketId workKind artifactId : String) (requiresProjectLease : Bool)
  | tryClaim (workId : String)
  | get (workId : String)
  | checkpoint (workId stage : String) (evidence : List String)
  | attachEvidence (workId : String) (evidence : List String)
  | complete (workId status detail : String)

abbrev SchedulerCall.Answer : SchedulerCall → Type
  | .enqueue .. | .get _ | .attachEvidence .. => ScheduledWorkItem
  | .tryClaim _ => Bool
  | _ => Unit

inductive Op where
  | update (values : SandboxState → SandboxState)
  | scheduler (call : SchedulerCall)
  | runManager (ticketId planRecordId : String)
  | promote (ticketId attemptId : String)

abbrev Reply : Op → Type
  | .update _ => Except PyError Unit
  | .scheduler call => Except PyError call.Answer
  | .runManager .. => Except PyError ImplementationSandboxAttempt
  | .promote .. => Except PyError ImplementationSandboxAttempt

abbrev ControllerAct (α : Type) := Act Op Reply Unit PyError α

/-- `_update`. -/
def update (values : SandboxState → SandboxState) : ControllerAct Unit := do
  let updated : Except PyError Unit ← Act.perform (Op.update values)
  Act.ofExcept updated

def scheduler (call : SchedulerCall) : ControllerAct call.Answer := do
  let answer : Except PyError call.Answer ← Act.perform (Op.scheduler call)
  Act.ofExcept answer

/-- `self.manager.run`. -/
def runManager (ticketId planRecordId : String) : ControllerAct ImplementationSandboxAttempt := do
  let ran : Except PyError ImplementationSandboxAttempt ←
    Act.perform (Op.runManager ticketId planRecordId)
  Act.ofExcept ran

/-- `self.manager.promote`. -/
def promoteManager (ticketId attemptId : String) : ControllerAct ImplementationSandboxAttempt := do
  let promoted : Except PyError ImplementationSandboxAttempt ←
    Act.perform (Op.promote ticketId attemptId)
  Act.ofExcept promoted

/-! ## The workers -/

/-- The statuses of an item that will not be admitted. -/
def refused (status : WorkStatus) : Bool :=
  status = .cancelled || status = .failed || status = .blockedBudget

/-- The loops that wait for admission. The process ends before the number of
polls is used up, or while the worker waits. -/
def awaitAdmission (observe : ScheduledWorkItem → ControllerAct Unit) (stopped workId : String) :
    Nat → ControllerAct Unit
  | 0 => Act.fail (.fatal "The process ended while the worker was waiting.")
  | polls + 1 => do
    let claimed ← scheduler (.tryClaim workId)
    if claimed then return ()
    else do
      let item ← scheduler (.get workId)
      observe item
      Act.require (refused item.status = false) (schedulingCancelled ((orText item.blockedReason
        (orText item.cancellationReason (some stopped))).getD ""))
      awaitAdmission observe stopped workId polls

/-- What a worker stores of an attempt it has brought to its end. -/
def concluded (attempt : ImplementationSandboxAttempt) (state : SandboxState) : SandboxState :=
  { state with attemptId := some attempt.id, status := attempt.status }

/-- The part of `_run` that is scheduled. -/
def scheduledRun (polls : Nat) (ticketId planRecordId workId : String) :
    ControllerAct ImplementationSandboxAttempt := do
  awaitAdmission (fun _ => pure ()) "Scheduled work stopped." workId polls
  scheduler (.checkpoint workId "MIRROR_PREFLIGHT" [])
  update fun state => { state with status := "RUNNING" }
  let attempt ← runManager ticketId planRecordId
  let _ ← scheduler (.attachEvidence workId [attempt.id])
  scheduler (.checkpoint workId "PROPOSAL_PERSISTED" [attempt.id])
  scheduler (.complete workId "COMPLETED"
    "Sandbox implementation completed and scheduler capacity released.")
  return attempt

/-- The part of `_run` that waits for the run guard only. -/
def guardedRun (ticketId planRecordId : String) : ControllerAct ImplementationSandboxAttempt := do
  update fun state => { state with status := "RUNNING" }
  runManager ticketId planRecordId

/-- The attempt of `_run`. -/
def implement (polls : Nat) (ticketId planRecordId : String) (scheduledWorkId : Option String) :
    ControllerAct ImplementationSandboxAttempt :=
  if truthy scheduledWorkId then scheduledRun polls ticketId planRecordId (str scheduledWorkId)
  else guardedRun ticketId planRecordId

/-- The body of `_run`. -/
def runBody (polls : Nat) (ticketId planRecordId : String) (scheduledWorkId : Option String) :
    ControllerAct Unit := do
  let attempt ← implement polls ticketId planRecordId scheduledWorkId
  update (concluded attempt)

/-- The steps of `_run_promotion` up to the promotion. -/
def promotionAdmitted (polls : Nat) (workId : String) : ControllerAct Unit := do
  awaitAdmission (fun item => update fun state => { state with status := item.status.text })
    "Scheduled promotion stopped." workId polls
  update fun state => { state with status := "RUNNING" }
  scheduler (.checkpoint workId "PROMOTION_PREFLIGHT" [])

/-- The steps of `_run_promotion` after the promotion. -/
def promotionRecorded (workId : String) (attempt : ImplementationSandboxAttempt) :
    ControllerAct Unit := do
  let evidence := attempt.id :: (attempt.promotion.map (·.id)).toList
  let current ← scheduler (.attachEvidence workId evidence)
  if current.cancellationRequested then
    scheduler (.complete workId "COMPLETED"
      "Cancellation arrived after mutation began; the durable promotion outcome was preserved.")
    update (concluded attempt)
  else
    scheduler (.checkpoint workId "PROMOTION_PERSISTED" evidence)
    scheduler (.complete workId "COMPLETED"
      "Promotion reached a durable outcome and scheduler capacity was released.")
    update (concluded attempt)

/-- The body of `_run_promotion`. -/
def promotionBody (polls : Nat) (ticketId attemptId workId : String) : ControllerAct Unit := do
  promotionAdmitted polls workId
  let attempt ← promoteManager ticketId attemptId
  promotionRecorded workId attempt

/-- The `except` clauses of both workers. -/
def stopped (scheduledWorkId : Option String) (e : PyError) : ControllerAct Unit :=
  if isSchedulingCancelled e then
    update fun state => { state with status := "CANCELLED", error := some e.message }
  else do
    update fun state => { state with status := "FAILED", error := some e.message }
    Act.when (truthy scheduledWorkId = true) do
      let item ← scheduler (.get (str scheduledWorkId))
      Act.when (item.status ≠ .cancelled ∧ item.status ≠ .failed)
        (scheduler (.complete (str scheduledWorkId) "FAILED" e.message))

/-- A worker of the controller, or a promotion in the thread of its caller. -/
inductive Job where
  | implementation (ticketId planRecordId : String) (scheduledWorkId : Option String)
  | promotion (ticketId attemptId scheduledWorkId : String)
  | direct (ticketId attemptId : String)

/-- The end of `promote` without a scheduler. -/
def directPromotion (ticketId attemptId : String) : ControllerAct Unit := do
  let attempt ← promoteManager ticketId attemptId
  update fun state => { concluded attempt state with ticketId := some ticketId }

/-- What a worker does before its `except` clauses. -/
def Job.body (polls : Nat) : Job → ControllerAct Unit
  | .implementation ticketId planRecordId workId => runBody polls ticketId planRecordId workId
  | .promotion ticketId attemptId workId => promotionBody polls ticketId attemptId workId
  | .direct ticketId attemptId => directPromotion ticketId attemptId

def Job.workId : Job → Option String
  | .implementation _ _ workId => workId
  | .promotion _ _ workId => some workId
  | .direct .. => none

/-- `_run`, `_run_promotion`, or `promote` without a scheduler. -/
def Job.program (polls : Nat) : Job → ControllerAct Unit
  | .direct ticketId attemptId => directPromotion ticketId attemptId
  | job => (job.body polls).onError PyError.isException (stopped job.workId)

/-! ## Their meaning -/

/-- What the parts of a run come to that are left to the host: the checks up to
the first checkpoint, the mirror with its patch and validations, the checkpoint
of a failure, the manifest after it and the last checkpoint with the ticket. -/
structure Implementation where
  attempt : ImplementationSandboxAttempt
  checks : Except PyError Unit
  validated : Except PyError (List PatchChange × List SandboxValidationDecision)
  failed : Except PyError Unit
  finalManifest : Except PyError String
  disposed : Except PyError Unit

/-- The status that the validations give an attempt. -/
def validatedStatus (changes : List PatchChange) (decisions : List SandboxValidationDecision) :
    String :=
  if decisions.any (·.status == "FAILED") then "FAILED"
  else if changes.isEmpty then "FAILED"
  else "READY_FOR_REVIEW"

/-- The block of `run` with its `except` clause. -/
def Implementation.validate (i : Implementation) : Except PyError ImplementationSandboxAttempt :=
  match i.validated with
  | .ok (changes, decisions) => .ok { i.attempt with
      changes := changes
      validationDecisions := decisions
      status := validatedStatus changes decisions }
  | .error e =>
    if e.isException then do
      i.failed
      return { i.attempt with status := "FAILED" }
    else .error e

/-- `run`; its last block comes to an end before an exception goes on. -/
def Implementation.run (i : Implementation) : Except PyError ImplementationSandboxAttempt := do
  i.checks
  let manifest ← i.finalManifest
  i.disposed
  let attempt ← i.validate
  return if manifest = attempt.initialManifestSha256 then attempt
    else { attempt with status := "FAILED" }

/-- What a controller finds around it. -/
structure ControllerHost (σ : Type) where
  sandbox : SandboxHost
  saveObserverActivity : SandboxState → σ → Except PyError Unit × σ
  scheduler : (call : SchedulerCall) → World → σ → Except PyError call.Answer × World × σ
  implementation : (ticketId planRecordId : String) → World → σ → Implementation × World × σ

structure System (σ : Type) where
  state : SandboxState
  world : World
  others : σ

/-- What each operation replies and does. The state is replaced before it is
persisted. -/
def perform {σ : Type} (host : ControllerHost σ) : Meaning Op Reply (System σ) := fun op s =>
  match op with
  | .update values =>
    let (reply, others) := host.saveObserverActivity (values s.state) s.others
    (reply, { s with state := values s.state, others := others })
  | .scheduler call =>
    let (reply, world, others) := host.scheduler call s.world s.others
    (reply, { s with world := world, others := others })
  | .runManager ticketId planRecordId =>
    let (implementation, world, others) :=
      host.implementation ticketId planRecordId s.world s.others
    (implementation.run, { s with world := world, others := others })
  | .promote ticketId attemptId =>
    let (reply, world) := (promote host.sandbox ticketId attemptId).run
      (Operations.perform host.sandbox) () s.world
    (reply, { s with world := world })

/-- What a worker comes to. -/
def Job.result {σ : Type} (host : ControllerHost σ) (polls : Nat) (job : Job) (s : System σ) :
    Except PyError Unit × System σ :=
  (job.program polls).run (perform host) () s

/-! ## The status a worker leaves -/

section
variable {σ : Type} {α : Type} {host : ControllerHost σ} {s : System σ}

/-- The operations of a controller, without a condition. -/
abbrev freely (host : ControllerHost σ) : OpSpec Op Reply (System σ) :=
  guarded (fun _ _ => True) (perform host)

theorem wp_update {values : SandboxState → SandboxState}
    {Q : Except PyError Unit → Unit → System σ → Prop}
    (h : ∀ r others, Q r () ⟨values s.state, s.world, others⟩) :
    (update values).wp (freely host) Q () s :=
  Act.wp_op ⟨trivial, h _ _⟩

theorem wp_scheduler {call : SchedulerCall} {Q : Except PyError call.Answer → Unit → System σ → Prop}
    (h : ∀ r world others, Q r () ⟨s.state, world, others⟩) :
    (scheduler call).wp (freely host) Q () s :=
  Act.wp_op ⟨trivial, h _ _ _⟩

/-- The status of an attempt that `run` returns. -/
theorem Implementation.run_status {i : Implementation} {attempt : ImplementationSandboxAttempt}
    (h : i.run = .ok attempt) :
    attempt.status = "READY_FOR_REVIEW" ∨ attempt.status = "FAILED" := by
  have hvalidate : ∀ attempt, i.validate = .ok attempt →
      attempt.status = "READY_FOR_REVIEW" ∨ attempt.status = "FAILED" := by
    intro attempt h
    unfold validate at h
    split at h
    · cases h
      unfold validatedStatus
      split
      · exact Or.inr rfl
      · split
        · exact Or.inr rfl
        · exact Or.inl rfl
    · split at h
      · obtain ⟨-, -, h⟩ := bind_ok h
        cases h
        exact Or.inr rfl
      · cases h
  obtain ⟨-, -, h⟩ := bind_ok h
  obtain ⟨manifest, -, h⟩ := bind_ok h
  obtain ⟨-, -, h⟩ := bind_ok h
  obtain ⟨validated, hvalidated, h⟩ := bind_ok h
  cases h
  split
  · exact hvalidate validated hvalidated
  · exact Or.inr rfl

/-- A handler leaves a status of its own. -/
theorem status_stopped (workId : Option String) (e : PyError) :
    (stopped workId e).wp (freely host) (fun _ _ s' => s'.state.status =
      if isSchedulingCancelled e then "CANCELLED" else "FAILED") () s := by
  unfold stopped
  split
  · exact wp_update fun r others => rfl
  · refine Act.wp_seq (R := fun _ _ s' => s'.state.status = "FAILED") (wp_update fun _ _ => rfl)
      (fun _ l s' h => ?_) fun _ _ _ h => h
    rw [Act.wp_when]
    split
    · refine Act.wp_seq (R := fun _ _ s' => s'.state.status = "FAILED")
        (wp_scheduler fun _ _ _ => h) (fun item l s' h => ?_) fun _ _ _ h => h
      rw [Act.wp_when]
      split
      · exact wp_scheduler fun _ _ _ => h
      · exact h
    · exact h

/-- What holds if a program returns. -/
abbrev Returns {α : Type} (P : α → System σ → Prop) (r : Except PyError α) (_ : Unit)
    (s : System σ) : Prop :=
  ∀ a, r = .ok a → P a s

theorem wp_then {α β : Type} {P : β → System σ → Prop} {x : ControllerAct α}
    {f : α → ControllerAct β}
    (h : ∀ a s', (f a).wp (freely host) (Returns P) () s') : (x >>= f).wp (freely host) (Returns P) () s :=
  Act.wp_seq (Act.wp_free x () s) (fun a _ s' _ => h a s') fun _ _ _ _ _ h => by cases h

theorem status_concluded (attempt : ImplementationSandboxAttempt) :
    (update (concluded attempt)).wp (freely host)
      (Returns fun _ s' => s'.state.status = attempt.status) () s :=
  wp_update fun _ _ _ _ => rfl

theorem status_promotionRecorded (workId : String) (attempt : ImplementationSandboxAttempt) :
    (promotionRecorded workId attempt).wp (freely host)
      (Returns fun _ s' => s'.state.status = attempt.status) () s := by
  refine wp_then fun current s' => ?_
  split
  · exact wp_then fun _ s' => status_concluded attempt
  · exact wp_then fun _ s' => wp_then fun _ s' => status_concluded attempt

theorem wp_runManager (ticketId planRecordId : String) :
    (runManager ticketId planRecordId).wp (freely host) (Returns fun attempt _ =>
      attempt.status = "READY_FOR_REVIEW" ∨ attempt.status = "FAILED") () s :=
  Act.wp_op ⟨trivial, fun _ h => Implementation.run_status h⟩

/-- What `self.manager.promote` returns. -/
theorem wp_promoteManager (ticketId attemptId : String) :
    (promoteManager ticketId attemptId).wp (freely host) (Returns fun attempt _ =>
      ((promote host.sandbox ticketId attemptId).run (Operations.perform host.sandbox) ()
        s.world).1 = .ok attempt) () s :=
  Act.wp_op ⟨trivial, fun _ h => h⟩

theorem wp_implement (polls : Nat) (ticketId planRecordId : String) (workId : Option String) :
    (implement polls ticketId planRecordId workId).wp (freely host) (Returns fun attempt _ =>
      attempt.status = "READY_FOR_REVIEW" ∨ attempt.status = "FAILED") () s := by
  unfold implement
  split
  · refine wp_then fun _ s' => wp_then fun _ s' => wp_then fun _ s' => ?_
    refine Act.wp_seq (wp_runManager ticketId planRecordId) (fun attempt _ s' h => ?_)
      fun _ _ _ _ _ h => by cases h
    refine wp_then fun _ s' => wp_then fun _ s' => wp_then fun _ s' => ?_
    intro returned hreturned
    cases hreturned
    exact h attempt rfl
  · exact wp_then fun _ s' => wp_runManager ticketId planRecordId

theorem status_runBody (polls : Nat) (ticketId planRecordId : String) (workId : Option String) :
    (runBody polls ticketId planRecordId workId).wp (freely host) (Returns fun _ s' =>
      s'.state.status = "READY_FOR_REVIEW" ∨ s'.state.status = "FAILED") () s := by
  refine Act.wp_seq (wp_implement polls ticketId planRecordId workId) (fun attempt _ s' h => ?_)
    fun _ _ _ _ _ h => by cases h
  refine Act.wp_mono (status_concluded attempt) fun r _ s' hstatus a hr => ?_
  show s'.state.status = "READY_FOR_REVIEW" ∨ s'.state.status = "FAILED"
  rw [hstatus a hr]
  exact h attempt rfl

end

/-! ### Promotions -/

section
variable {σ : Type}

/-- The promotion of a job, with the world in which it begins. -/
def Job.promotes (host : ControllerHost σ) (polls : Nat) (s : System σ) :
    Job → Option (String × String × World)
  | .implementation .. => none
  | .promotion ticketId attemptId workId =>
    some (ticketId, attemptId, ((promotionAdmitted polls workId).run (perform host) () s).2.world)
  | .direct ticketId attemptId => some (ticketId, attemptId, s.world)

/-- What the body of a job comes to. -/
def Job.bodyResult (host : ControllerHost σ) (polls : Nat) (job : Job) (s : System σ) :
    Except PyError Unit :=
  ((job.body polls).run (perform host) () s).1

/-- The scheduler stops the worker. -/
def Job.Stopped (host : ControllerHost σ) (polls : Nat) (job : Job) (s : System σ) : Prop :=
  ∃ e, job.bodyResult host polls s = .error e ∧ isSchedulingCancelled e = true

/-- The worker reports a promotion whose files could not be replaced and
validated. -/
def Job.Undone (host : ControllerHost σ) (polls : Nat) (job : Job) (s : System σ) : Prop :=
  job.bodyResult host polls s = .ok () ∧ ∃ ticketId attemptId world,
    job.promotes host polls s = some (ticketId, attemptId, world) ∧
      Fails host.sandbox ticketId attemptId world

/-- The status that a body leaves when it returns. -/
def Job.Reports (host : ControllerHost σ) (polls : Nat) (job : Job) (s : System σ)
    (status : String) : Prop :=
  match job.promotes host polls s with
  | none => status = "READY_FOR_REVIEW" ∨ status = "FAILED"
  | some (ticketId, attemptId, world) => ∃ attempt,
    ((promote host.sandbox ticketId attemptId).run (Operations.perform host.sandbox) ()
      world).1 = .ok attempt ∧ status = attempt.status

variable {host : ControllerHost σ} {polls : Nat} {job : Job} {s : System σ}

theorem status_body : (job.body polls).wp (freely host)
    (Returns fun _ s' => job.Reports host polls s s'.state.status) () s := by
  cases job with
  | implementation ticketId planRecordId workId =>
    exact status_runBody polls ticketId planRecordId workId
  | promotion ticketId attemptId workId =>
    refine Act.wp_seq (Act.wp_exact (Act.wp_free (promotionAdmitted polls workId) () s))
      (fun _ _ s₁ hadmitted => ?_) fun _ _ _ _ _ h => by cases h
    refine Act.wp_seq (wp_promoteManager ticketId attemptId) (fun attempt _ s₂ hpromoted => ?_)
      fun _ _ _ _ _ h => by cases h
    refine Act.wp_mono (status_promotionRecorded workId attempt) fun r _ s₃ hstatus a hr => ?_
    refine ⟨attempt, ?_, hstatus a hr⟩
    have hworld : ((promotionAdmitted polls workId).run (perform host) () s).2.world = s₁.world := by
      unfold Act.run
      rw [hadmitted.2]
    rw [hworld]
    exact hpromoted attempt rfl
  | direct ticketId attemptId =>
    refine Act.wp_seq (wp_promoteManager ticketId attemptId) (fun attempt _ s₁ hpromoted => ?_)
      fun _ _ _ _ _ h => by cases h
    exact wp_update fun _ _ _ _ => ⟨attempt, hpromoted attempt rfl, rfl⟩

/-- The worker comes to an end, and a promotion without a scheduler returns to
its caller. -/
def Job.Ends (host : ControllerHost σ) (polls : Nat) (job : Job) (s : System σ) : Prop :=
  match job with
  | .direct .. => (job.result host polls s).1 = .ok ()
  | _ => ∀ message, (job.result host polls s).1 ≠ .error (.fatal message)

/-- The status a worker leaves that comes to an end. -/
inductive Job.Leaves (host : ControllerHost σ) (polls : Nat) (job : Job) (s : System σ)
    (status : String) : Prop where
  | returned (hbody : job.bodyResult host polls s = .ok ())
      (hstatus : job.Reports host polls s status)
  | cancelled (e : PyError) (hbody : job.bodyResult host polls s = .error e)
      (hcancelled : isSchedulingCancelled e = true) (hstatus : status = "CANCELLED")
  | failed (e : PyError) (hbody : job.bodyResult host polls s = .error e)
      (hfailed : isSchedulingCancelled e = false) (hstatus : status = "FAILED")

theorem leaves_handled (workId : Option String)
    (hprogram : job.program polls = (job.body polls).onError PyError.isException (stopped workId)) :
    (job.program polls).wp (freely host) (fun r _ s' =>
      (∀ message, r ≠ .error (.fatal message)) → job.Leaves host polls s s'.state.status) () s := by
  rw [hprogram]
  refine Act.wp_onError (Act.wp_exact status_body) ?_ ?_ ?_
  · rintro a l s' ⟨hreports, hexec⟩ -
    refine .returned ?_ (hreports a rfl)
    unfold Job.bodyResult Act.run
    rw [hexec]
  · rintro e l s' ⟨-, hexec⟩ -
    have hbody : job.bodyResult host polls s = .error e := by
      unfold Job.bodyResult Act.run
      rw [hexec]
    refine Act.wp_mono (status_stopped workId e) fun r _ s' hstatus _ => ?_
    split at hstatus
    · exact .cancelled e hbody ‹_› hstatus
    · exact .failed e hbody (Bool.eq_false_iff.mpr ‹_›) hstatus
  · rintro e l s' - huncaught hfatal
    cases e with
    | fatal message => exact absurd rfl (hfatal message)
    | _ => cases huncaught

/-- **The status of a worker that comes to an end.** -/
theorem leaves_of_ends (h : job.Ends host polls s) :
    job.Leaves host polls s (job.result host polls s).2.state.status := by
  cases job with
  | implementation ticketId planRecordId workId => exact Act.wp_run (leaves_handled workId rfl) h
  | promotion ticketId attemptId workId =>
    exact Act.wp_run (leaves_handled (some workId) rfl) h
  | direct ticketId attemptId =>
    exact .returned h (Act.wp_run (x := (Job.direct ticketId attemptId).body polls) status_body () h)

end

end RlmGraph.Sandbox.Controller
