import Mathlib.Data.Finset.Card
import RlmGraph.Tickets.AutomaticRunner

/-! # Runs of the automatic runner

What the runner asks for in a round, and in which order, whatever it is
answered (`run_orderly`); and what a run does to the queue. If nobody else
makes a ticket ready, no ticket is selected twice and a run comes to an end
(`queue_drained`). -/
namespace RlmGraph.Tickets.AutomaticRuns
open RlmGraph.Lib RlmGraph.Lib.Programs RlmGraph.Lib.Rows
open RlmGraph.Tickets.Evidence RlmGraph.Tickets.Manager RlmGraph.Tickets.AutomaticRunner
open RlmGraph.Workspace.Controller (truthy str)

/-! ## The order of the calls -/

/-- What a round has heard so far. -/
structure Heard where
  mode : Option ProjectExecutionMode := none
  /-- The ticket that was selected, and the one that was made active. -/
  selected : Option TicketRecord := none
  active : Option String := none
  /-- The calls that returned. -/
  returned : List Outside := []
  /-- What the last waits came to. -/
  plan : Option PlanState := none
  sandbox : Option Sandbox.Controller.SandboxState := none
  /-- The readings of attempts since the implementation was started. -/
  readings : List (String × List Attempt) := []
  workers : List Sandbox.Review.ValidationWorkerSpec := []

/-- A wait is for what was started last. -/
def Heard.answer (heard : Heard) : (call : Outside) → call.Answer → Heard
  | .startChangePlan .., _ => { heard with plan := none }
  | .workspacePolls, polls => { heard with plan := (wait (·.status) terminalWork polls).toOption }
  | .startSandbox .., _ => { heard with sandbox := none, readings := [] }
  | .promote .., _ => { heard with sandbox := none }
  | .sandboxPolls, polls => { heard with sandbox := (wait (·.status) terminalSandbox polls).toOption }
  | .implementationSandboxes ticketId, attempts =>
    { heard with readings := heard.readings ++ [(ticketId, attempts)] }
  | .configuredWorkers, workers => { heard with workers := workers }
  | _, _ => heard

def Heard.told (heard : Heard) (call : Outside) (answer : call.Answer) : Heard :=
  { heard.answer call answer with returned := heard.returned ++ [call] }

/-- A new round begins when the mode of the project is read. -/
def Heard.next (heard : Heard) : (op : Op) → Reply op → Heard
  | .executionMode _, mode => { mode := mode }
  | .ready _, ready => { heard with selected := ready.head? }
  | .transition ticketId status _, .ok _ =>
    { heard with active := if status = "ACTIVE" then some ticketId else heard.active }
  | .outside call, .ok answer => heard.told call answer
  | _, _ => heard

/-- The implementation of the ticket was started, and waited for until the
attempt was ready. -/
structure Heard.Implemented (heard : Heard) (ticketId attemptId : String) : Prop where
  started : ∃ planRecordId, .startSandbox ticketId planRecordId ∈ heard.returned
  ready : ∃ sandbox, heard.sandbox = some sandbox ∧ sandbox.status = "READY_FOR_REVIEW" ∧
    truthy sandbox.attemptId = true ∧ str sandbox.attemptId = attemptId

/-- An open decision of the implemented attempt, as it was read once. -/
structure Heard.Decides (heard : Heard) (ticketId attemptId : String)
    (decision : Governance.ArtifactKinds.SandboxValidationDecision) : Prop where
  implemented : heard.Implemented ticketId attemptId
  read : ∃ attempts, heard.readings = [(ticketId, attempts)] ∧
    ∃ attempt ∈ attempts, attempt.id = attemptId ∧ decision ∈ attempt.validationDecisions
  isOpen : decision.status = "REQUIRED" ∨ decision.status = "SATISFIED"

/-- The attempt was read again, behind its validations, and is ready for review. -/
def Heard.Reviewed (heard : Heard) (ticketId attemptId : String) : Prop :=
  ∃ first attempts, heard.readings = [first, (ticketId, attempts)] ∧
    ∃ attempt ∈ attempts, attempt.id = attemptId ∧ attempt.status = "READY_FOR_REVIEW"

/-- A worker that is enabled and covers a decision. -/
def Covers (worker : Sandbox.Review.ValidationWorkerSpec)
    (decision : Governance.ArtifactKinds.SandboxValidationDecision) : Prop :=
  worker.enabled = true ∧ decision.category ∈ worker.categories ∧
    decision.artifactKind ∈ worker.artifactKinds

/-- What the runner may ask for in a round. -/
def Heard.Allows (heard : Heard) : Op → Prop
  | .outside (.startChangePlan _ request criteria ticketId) =>
    heard.active = some ticketId ∧ ∃ ticket, heard.selected = some ticket ∧ ticket.id = ticketId ∧
      request = ticket.description ∧ criteria = ticket.acceptanceCriteria.map (·.description)
  | .outside (.approvePlan ticketId planRecordId) =>
    (∃ projectId request criteria,
      .startChangePlan projectId request criteria ticketId ∈ heard.returned) ∧
    ∃ plan, heard.plan = some plan ∧ plan.status = "COMPLETED" ∧ str plan.resultId = planRecordId
  | .outside (.startSandbox ticketId planRecordId) =>
    .approvePlan ticketId planRecordId ∈ heard.returned
  | .outside (.satisfyValidation ticketId attemptId decisionId) =>
    ∃ decision, decision.id = decisionId ∧ heard.Decides ticketId attemptId decision ∧
      decision.category = "REVIEW"
  | .outside (.runValidationWorker ticketId attemptId decisionId workerId) =>
    ∃ decision, decision.id = decisionId ∧ heard.Decides ticketId attemptId decision ∧
      decision.category ≠ "REVIEW" ∧
      ∃ worker ∈ heard.workers, worker.id = workerId ∧ Covers worker decision
  | .outside (.approvePromotion ticketId attemptId) =>
    heard.mode = some .autonomousProject ∧ heard.Reviewed ticketId attemptId
  | .outside (.promote ticketId attemptId) =>
    heard.mode = some .autonomousProject ∧ heard.Reviewed ticketId attemptId ∧
      .approvePromotion ticketId attemptId ∈ heard.returned
  | .outside (.reconcile ticketId attemptId) =>
    .promote ticketId attemptId ∈ heard.returned ∧
      ∃ sandbox, heard.sandbox = some sandbox ∧ sandbox.status = "PROMOTED"
  | .transition ticketId status _ =>
    (∃ ticket, heard.selected = some ticket ∧ ticket.id = ticketId) ∧
    (status = "AWAITING_REVIEW" → heard.active = some ticketId ∧
      ∃ attemptId, heard.Reviewed ticketId attemptId ∧
        (heard.mode = some .autonomousProject → .reconcile ticketId attemptId ∈ heard.returned))
  | _ => True

/-- The operations of the runner, whatever they are answered. -/
abbrev orderly : OpSpec Op Reply Heard := protocol Heard.Allows Heard.next

section
variable {heard : Heard}

theorem wp_call {call : Outside} {Q : Except PyError call.Answer → Unit → Heard → Prop}
    (hallowed : heard.Allows (.outside call))
    (hok : ∀ answer, Q (.ok answer) () (heard.told call answer))
    (herror : ∀ e, Q (.error e) () heard) : (outside call).wp orderly Q () heard := by
  refine Act.wp_op ⟨hallowed, fun r => ?_⟩
  cases r with
  | ok answer => exact hok answer
  | error e => exact herror e

/-- A call that only has to return. -/
theorem wp_asked {α : Type} {call : Outside} {f : call.Answer → RunnerAct α}
    {Q : Except PyError α → Unit → Heard → Prop} (hallowed : heard.Allows (.outside call))
    (hok : ∀ answer, (f answer).wp orderly Q () (heard.told call answer))
    (herror : ∀ e, Q (.error e) () heard) : (outside call >>= f).wp orderly Q () heard := by
  rw [Act.wp_bind]
  exact wp_call hallowed hok herror

theorem wp_noted {α : Type} {values : RunnerState → RunnerState} {f : Unit → RunnerAct α}
    {Q : Except PyError α → Unit → Heard → Prop} (hok : (f ()).wp orderly Q () heard)
    (herror : ∀ e, Q (.error e) () heard) : (update values >>= f).wp orderly Q () heard := by
  rw [Act.wp_bind]
  refine Act.wp_op ⟨trivial, fun r => ?_⟩
  cases r with
  | ok _ => exact hok
  | error e => exact herror e

/-- The round goes on: its mode and its ticket are kept, and what has returned. -/
structure Heard.Goes (before after : Heard) : Prop where
  mode : after.mode = before.mode
  selected : after.selected = before.selected
  active : after.active = before.active
  returned : ∀ call ∈ before.returned, call ∈ after.returned

theorem Heard.Goes.refl : heard.Goes heard := ⟨rfl, rfl, rfl, fun _ h => h⟩

theorem Heard.Goes.trans {middle after : Heard} (h : heard.Goes middle) (h' : middle.Goes after) :
    heard.Goes after :=
  ⟨h'.mode.trans h.mode, h'.selected.trans h.selected, h'.active.trans h.active,
    fun call hcall => h'.returned call (h.returned call hcall)⟩

theorem Heard.goes_told (heard : Heard) (call : Outside) (answer : call.Answer) :
    heard.Goes (heard.told call answer) := by
  have hreturned : ∀ c ∈ heard.returned, c ∈ (heard.told call answer).returned :=
    fun _ hcall => List.mem_append_left _ hcall
  cases call <;> exact ⟨rfl, rfl, rfl, hreturned⟩

theorem Heard.mem_told (heard : Heard) (call : Outside) (answer : call.Answer) :
    call ∈ (heard.told call answer).returned :=
  List.mem_append_right _ (List.mem_singleton.mpr rfl)

/-- Meanwhile no wait ends and no attempts are read. -/
structure Heard.Holds (before after : Heard) : Prop extends Heard.Goes before after where
  sandbox : after.sandbox = before.sandbox
  readings : after.readings = before.readings

theorem Heard.Holds.refl : heard.Holds heard := ⟨.refl, rfl, rfl⟩

theorem Heard.Holds.trans {middle after : Heard} (h : heard.Holds middle) (h' : middle.Holds after) :
    heard.Holds after :=
  ⟨h.toGoes.trans h'.toGoes, h'.sandbox.trans h.sandbox, h'.readings.trans h.readings⟩

theorem Heard.Implemented.holds {ticketId attemptId : String} {after : Heard}
    (h : heard.Implemented ticketId attemptId) (hholds : heard.Holds after) :
    after.Implemented ticketId attemptId where
  started := h.started.imp fun _ hcall => hholds.returned _ hcall
  ready := hholds.sandbox ▸ h.ready

theorem Heard.Decides.holds {ticketId attemptId : String} {after : Heard}
    {decision : Governance.ArtifactKinds.SandboxValidationDecision}
    (h : heard.Decides ticketId attemptId decision) (hholds : heard.Holds after) :
    after.Decides ticketId attemptId decision where
  implemented := h.implemented.holds hholds
  read := hholds.readings ▸ h.read
  isOpen := h.isOpen

theorem orderly_planTicket (projectId : String) {ticket : TicketRecord}
    (hselected : heard.selected = some ticket) (hactive : heard.active = some ticket.id) :
    (planTicket projectId ticket).wp orderly (fun r _ after => heard.Goes after ∧
      ∀ planId, r = .ok planId → .approvePlan ticket.id planId ∈ after.returned) () heard := by
  refine wp_asked ⟨hactive, ticket, hselected, rfl, rfl, rfl⟩ (fun _ => ?_)
    fun e => ⟨.refl, fun _ h => by cases h⟩
  refine wp_asked trivial (fun polls => ?_) fun e =>
    ⟨Heard.goes_told _ (.startChangePlan ..) (), fun _ h => by cases h⟩
  have hasked := heard.mem_told (.startChangePlan projectId ticket.description
    (ticket.acceptanceCriteria.map (·.description)) ticket.id) ()
  have hpolled := Heard.goes_told (heard.told (.startChangePlan projectId ticket.description
    (ticket.acceptanceCriteria.map (·.description)) ticket.id) ()) .workspacePolls polls
  have hgoes := (heard.goes_told (.startChangePlan projectId ticket.description
    (ticket.acceptanceCriteria.map (·.description)) ticket.id) ()).trans hpolled
  refine Act.wp_result (fun workspace hwait => ?_) fun e _ => ⟨hgoes, fun _ h => by cases h⟩
  refine Act.wp_check (fun hcompleted => ?_) fun _ => ⟨hgoes, fun _ h => by cases h⟩
  refine wp_asked ⟨⟨_, _, _, hpolled.returned _ hasked⟩, workspace, ?_, hcompleted, rfl⟩ (fun _ => ?_)
    fun e => ⟨hgoes, fun _ h => by cases h⟩
  · simp only [Heard.told, Heard.answer, hwait]
    rfl
  · refine ⟨hgoes.trans (Heard.goes_told _ (.approvePlan ..) ()), fun planId h => ?_⟩
    cases h
    exact Heard.mem_told _ (.approvePlan ..) ()

/-- A reading of the attempts, and the one that is looked for. -/
theorem orderly_attemptOf (ticketId attemptId : String) :
    (attemptOf ticketId attemptId).wp orderly (fun r _ after => heard.Goes after ∧
      after.sandbox = heard.sandbox ∧ ∀ attempt, r = .ok attempt → attempt.id = attemptId ∧
        ∃ attempts, after.readings = heard.readings ++ [(ticketId, attempts)] ∧
          attempt ∈ attempts) () heard := by
  refine wp_asked trivial (fun attempts => ?_) fun e => ⟨.refl, rfl, fun _ h => by cases h⟩
  refine ⟨Heard.goes_told _ (.implementationSandboxes ticketId) attempts, rfl, fun attempt h => ?_⟩
  cases hfound : attempts.find? (·.id == attemptId) with
  | none =>
    rw [hfound] at h
    cases h
  | some found =>
    rw [hfound] at h
    cases h
    have hid := List.find?_some hfound
    exact ⟨beq_iff_eq.mp hid, attempts, rfl, List.mem_of_find?_eq_some hfound⟩

theorem workerFor_covers {decision : Governance.ArtifactKinds.SandboxValidationDecision}
    {workers : List Sandbox.Review.ValidationWorkerSpec} {worker : Sandbox.Review.ValidationWorkerSpec}
    (h : workerFor decision workers = some worker) : worker ∈ workers ∧ Covers worker decision := by
  have heligible : worker ∈ workers.filter fun item => item.enabled &&
      item.categories.contains decision.category &&
      item.artifactKinds.contains decision.artifactKind := by
    obtain hpreferred | ⟨-, hfirst⟩ := Option.or_eq_some_iff.mp h
    · exact List.mem_of_find?_eq_some hpreferred
    · exact List.mem_of_mem_head? hfirst
  obtain ⟨hmem, hfits⟩ := List.mem_filter.mp heligible
  rw [Bool.and_eq_true, Bool.and_eq_true, List.contains_iff_mem, List.contains_iff_mem] at hfits
  exact ⟨hmem, hfits.1.1, hfits.1.2, hfits.2⟩

/-- The validation of an open decision of an implemented attempt. -/
theorem orderly_completeValidation {ticketId attemptId : String} {attempts : List Attempt}
    {attempt : Attempt} {decision : Governance.ArtifactKinds.SandboxValidationDecision}
    (himplemented : heard.Implemented ticketId attemptId)
    (hread : heard.readings = [(ticketId, attempts)]) (hattempt : attempt ∈ attempts)
    (hid : attempt.id = attemptId) (hdecision : decision ∈ attempt.validationDecisions) :
    (completeValidation ticketId attemptId decision).wp orderly
      (fun _ _ after => heard.Holds after) () heard := by
  unfold completeValidation
  rw [Act.wp_when]
  split
  · next hopen =>
    have hdecides : heard.Decides ticketId attemptId decision :=
      ⟨himplemented, ⟨attempts, hread, attempt, hattempt, hid, hdecision⟩, hopen⟩
    rw [Act.wp_ite]
    split
    · next hreview =>
      exact wp_call ⟨decision, rfl, hdecides, hreview⟩
        (fun _ => ⟨Heard.goes_told _ (.satisfyValidation ..) (), rfl, rfl⟩) fun _ => .refl
    · next hother =>
      refine wp_asked trivial (fun workers => ?_) fun _ => .refl
      have hholds : heard.Holds (heard.told .configuredWorkers workers) :=
        ⟨heard.goes_told .configuredWorkers workers, rfl, rfl⟩
      cases hworker : workerFor decision workers with
      | none => exact hholds
      | some worker =>
        obtain ⟨hmem, hcovers⟩ := workerFor_covers hworker
        exact wp_call ⟨decision, rfl, hdecides.holds hholds, hother, worker, hmem, rfl, hcovers⟩
          (fun _ => hholds.trans ⟨Heard.goes_told _ (.runValidationWorker ..) (), rfl, rfl⟩)
          fun _ => hholds
  · exact .refl

theorem orderly_completeValidations {ticketId attemptId : String}
    (himplemented : heard.Implemented ticketId attemptId) (hunread : heard.readings = []) :
    (completeValidations ticketId attemptId).wp orderly (fun r _ after => heard.Goes after ∧
      ∀ attempt, r = .ok attempt → attempt.id = attemptId ∧ ∃ first attempts,
        after.readings = [first, (ticketId, attempts)] ∧ attempt ∈ attempts) () heard := by
  refine Act.wp_seq (orderly_attemptOf ticketId attemptId) (fun attempt _ read hread => ?_)
    fun e _ _ h => ⟨h.1, fun _ h => by cases h⟩
  obtain ⟨hgoes, hsandbox, hfound⟩ := hread
  obtain ⟨hid, attempts, hreadings, hattempt⟩ := hfound attempt rfl
  rw [hunread, List.nil_append] at hreadings
  have himplemented' : read.Implemented ticketId attemptId :=
    ⟨himplemented.started.imp fun _ hcall => hgoes.returned _ hcall, hsandbox ▸ himplemented.ready⟩
  have hall : (attempt.validationDecisions.forM (completeValidation ticketId attemptId)).wp orderly
      (fun _ _ after => read.Holds after) () read := by
    refine Act.wp_forM (fun _ _ after => read.Holds after) .refl
      (fun before decision rest _ after hsplit hholds => ?_) fun _ _ h => h
    have hdecision : decision ∈ attempt.validationDecisions := by simp [hsplit]
    refine Act.wp_mono (orderly_completeValidation (himplemented'.holds hholds)
      (hholds.readings.trans hreadings) hattempt hid hdecision) fun r _ _ h => ?_
    cases r <;> exact hholds.trans h
  refine Act.wp_seq hall (fun _ _ validated hholds => ?_)
    fun e _ _ h => ⟨hgoes.trans h.toGoes, fun _ h => by cases h⟩
  refine Act.wp_mono (orderly_attemptOf ticketId attemptId) fun r _ _ h => ?_
  refine ⟨(hgoes.trans hholds.toGoes).trans h.1, fun again hr => ?_⟩
  obtain ⟨hagain, others, hothers, hmem⟩ := h.2.2 again hr
  rw [hholds.readings, hreadings] at hothers
  exact ⟨hagain, _, others, hothers, hmem⟩

/-- An implementation that is not ready fails, with an explanation. -/
theorem wp_explained {α : Type} {c : Prop} [Decidable c] {ticketId : String} {error : Option String}
    {f : Unit → RunnerAct α} {Q : Except PyError α → Unit → Heard → Prop}
    (hready : ¬c → (f ()).wp orderly Q () heard)
    (hfailed : ∀ e after, heard.Goes after → Q (.error e) () after) :
    (Act.when c (if truthy error then Act.fail (.runtime (str error))
      else do
        let failure ← attemptFailure ticketId
        Act.fail (.runtime (str failure))) >>= f).wp orderly Q () heard := by
  rw [Act.wp_bind, Act.wp_when]
  split
  · rw [Act.wp_ite]
    split
    · exact hfailed _ _ .refl
    · rw [Act.wp_bind]
      refine wp_asked trivial (fun attempts => ?_) fun e => hfailed e _ .refl
      exact hfailed _ _ (Heard.goes_told _ (.implementationSandboxes ticketId) attempts)
  · next hnot => exact hready hnot

theorem orderly_implementTicket {ticket : TicketRecord} {planId : String}
    (happroved : .approvePlan ticket.id planId ∈ heard.returned) :
    (implementTicket ticket planId).wp orderly (fun r _ after => heard.Goes after ∧
      ∀ attempt, r = .ok attempt → after.Reviewed ticket.id attempt.id) () heard := by
  refine wp_asked happroved (fun _ => ?_) fun e => ⟨.refl, fun _ h => by cases h⟩
  have hstart := heard.goes_told (.startSandbox ticket.id planId) ()
  refine wp_asked trivial (fun polls => ?_) fun e => ⟨hstart, fun _ h => by cases h⟩
  have hpolled := (heard.told (.startSandbox ticket.id planId) ()).goes_told .sandboxPolls polls
  have hgoes := hstart.trans hpolled
  have hstarted := hpolled.returned _ (heard.mem_told (.startSandbox ticket.id planId) ())
  refine Act.wp_result (fun sandbox hwait => ?_) fun e _ => ⟨hgoes, fun _ h => by cases h⟩
  refine wp_explained (fun hready => ?_) fun e _ h => ⟨hgoes.trans h, fun _ h => by cases h⟩
  rw [not_or, not_not, Bool.not_eq_false] at hready
  have hended : (wait (·.status) terminalSandbox polls).toOption = some sandbox := by
    rw [hwait]
    rfl
  refine Act.wp_seq (orderly_completeValidations
      ⟨⟨planId, hstarted⟩, sandbox, hended, hready.1, hready.2, rfl⟩ rfl)
    (fun attempt _ validated hvalidated => ?_)
    fun e _ _ h => ⟨hgoes.trans h.1, fun _ h => by cases h⟩
  have hgone := hgoes.trans hvalidated.1
  obtain ⟨-, first, attempts, hreadings, hmem⟩ := hvalidated.2 attempt rfl
  refine Act.wp_check (fun hstatus => ?_) fun _ => ⟨hgone, fun _ h => by cases h⟩
  refine ⟨hgone, fun returned h => ?_⟩
  cases h
  exact ⟨first, attempts, hreadings, attempt, hmem, rfl, hstatus⟩

theorem orderly_promoteTicket {ticket : TicketRecord} {attempt : Attempt}
    (hmode : heard.mode = some .autonomousProject) (hreviewed : heard.Reviewed ticket.id attempt.id) :
    (promoteTicket ticket attempt).wp orderly (fun r _ after => heard.Goes after ∧
      ∀ u, r = .ok u → after.Reviewed ticket.id attempt.id ∧
        .reconcile ticket.id attempt.id ∈ after.returned) () heard := by
  refine wp_asked ⟨hmode, hreviewed⟩ (fun _ => ?_) fun e => ⟨.refl, fun _ h => by cases h⟩
  have happroved := heard.goes_told (.approvePromotion ticket.id attempt.id) ()
  refine wp_noted ?_ fun e => ⟨happroved, fun _ h => by cases h⟩
  refine wp_asked ⟨hmode, hreviewed, Heard.mem_told _ (.approvePromotion ..) ()⟩ (fun _ => ?_)
    fun e => ⟨happroved, fun _ h => by cases h⟩
  have hpromoted := happroved.trans (Heard.goes_told _ (.promote ticket.id attempt.id) ())
  refine wp_asked trivial (fun polls => ?_) fun e => ⟨hpromoted, fun _ h => by cases h⟩
  have hgoes := hpromoted.trans (Heard.goes_told _ .sandboxPolls polls)
  refine Act.wp_result (fun promoted hwait => ?_) fun e _ => ⟨hgoes, fun _ h => by cases h⟩
  refine Act.wp_check (fun hstatus => ?_) fun _ => ⟨hgoes, fun _ h => by cases h⟩
  refine wp_call ⟨?_, promoted, ?_, hstatus⟩ (fun _ => ?_) fun e => ⟨hgoes, fun _ h => by cases h⟩
  · exact (Heard.goes_told _ .sandboxPolls polls).returned _ (Heard.mem_told _ (.promote ..) ())
  · simp only [Heard.told, Heard.answer, hwait]
    rfl
  · refine ⟨hgoes.trans (Heard.goes_told _ (.reconcile ..) ()), fun _ _ => ⟨hreviewed, ?_⟩⟩
    exact Heard.mem_told _ (.reconcile ..) ()

/-- The selected ticket is moved. -/
theorem wp_moved {α : Type} {ticketId status reason : String} {f : TicketRecord → RunnerAct α}
    {Q : Except PyError α → Unit → Heard → Prop}
    (hallowed : heard.Allows (.transition ticketId status reason))
    (hok : ∀ ticket, (f ticket).wp orderly Q ()
      { heard with active := if status = "ACTIVE" then some ticketId else heard.active })
    (herror : ∀ e, Q (.error e) () heard) :
    (transition ticketId status reason >>= f).wp orderly Q () heard := by
  rw [Act.wp_bind]
  refine Act.wp_op ⟨hallowed, fun r => ?_⟩
  cases r with
  | ok ticket => exact hok ticket
  | error e => exact herror e

theorem orderly_executeTicket (projectId : String) {ticket : TicketRecord}
    (hselected : heard.selected = some ticket) :
    (executeTicket projectId heard.mode ticket).wp orderly
      (fun _ _ after => after.selected = some ticket) () heard := by
  refine wp_moved ⟨⟨ticket, hselected, rfl⟩, fun h => absurd h (by decide)⟩ (fun _ => ?_)
    fun _ => hselected
  refine Act.wp_seq (orderly_planTicket projectId hselected (by simp))
    (fun planId _ planned hplanned => ?_) fun _ _ _ h => h.1.selected.trans hselected
  refine wp_noted ?_ fun _ => hplanned.1.selected.trans hselected
  refine Act.wp_seq (orderly_implementTicket (hplanned.2 planId rfl))
    (fun attempt _ implemented himplemented => ?_)
    fun _ _ _ h => (hplanned.1.trans h.1).selected.trans hselected
  have hgoes := hplanned.1.trans himplemented.1
  have hreviewed := himplemented.2 attempt rfl
  have hpromoted : (Act.when (heard.mode = some .autonomousProject)
      (promoteTicket ticket attempt)).wp orderly (fun r _ after => Heard.Goes implemented after ∧
        (r = .ok () → after.Reviewed ticket.id attempt.id ∧
          (heard.mode = some .autonomousProject → .reconcile ticket.id attempt.id ∈ after.returned)))
        () implemented := by
    rw [Act.wp_when]
    split
    · next hproject =>
      refine Act.wp_mono (orderly_promoteTicket (hgoes.mode.trans hproject) hreviewed)
        fun r _ _ h => ⟨h.1, fun hr => ?_⟩
      exact ⟨(h.2 () hr).1, fun _ => (h.2 () hr).2⟩
    · next hsandbox => exact ⟨.refl, fun _ => ⟨hreviewed, fun h => absurd h hsandbox⟩⟩
  refine Act.wp_seq hpromoted (fun _ _ promoted h => ?_)
    fun _ _ _ h => (hgoes.trans h.1).selected.trans hselected
  obtain ⟨hready, hreconciled⟩ := h.2 rfl
  have hdone := hgoes.trans h.1
  refine wp_moved ⟨⟨ticket, hdone.selected.trans hselected, rfl⟩, fun _ => ⟨?_, attempt.id, hready, ?_⟩⟩
    (fun _ => ?_) fun _ => hdone.selected.trans hselected
  · exact hdone.active.trans (by simp)
  · exact fun h => hreconciled (hdone.mode.symm.trans h)
  · exact Act.wp_op ⟨trivial, fun _ => Act.wp_op ⟨trivial, fun _ => hdone.selected.trans hselected⟩⟩

theorem orderly_ticketFailed {ticket : TicketRecord} (hselected : heard.selected = some ticket)
    (e : PyError) : (ticketFailed ticket.id e).wp orderly (fun _ _ _ => True) () heard := by
  refine Act.wp_seq (R := fun _ _ after => after.selected = some ticket)
    (Act.wp_op ⟨trivial, fun _ => hselected⟩) (fun current _ heard hselected => ?_)
    fun _ _ _ _ => trivial
  refine Act.wp_seq (R := fun _ _ _ => True) ?_ (fun _ _ heard _ => ?_) fun _ _ _ _ => trivial
  · rw [Act.wp_when]
    split
    · exact wp_moved ⟨⟨ticket, hselected, rfl⟩, fun h => absurd h (by decide)⟩ (fun _ => trivial)
        fun _ => trivial
    · trivial
  · exact Act.wp_op ⟨trivial, fun _ => Act.wp_op ⟨trivial, fun _ => trivial⟩⟩

theorem orderly_round (projectId : String) {ticket : TicketRecord}
    (hselected : heard.selected = some ticket) (remaining : Nat) :
    (round projectId heard.mode ticket remaining).wp orderly (fun _ _ _ => True) () heard := by
  refine wp_noted ?_ fun _ => trivial
  exact Act.wp_onError (orderly_executeTicket projectId hselected) (fun _ _ _ _ => trivial)
    (fun e _ _ hkept _ => orderly_ticketFailed hkept e) fun _ _ _ _ _ => trivial

theorem orderly_rounds (projectId : String) (fuel : Nat) :
    (rounds projectId fuel).wp orderly (fun _ _ _ => True) () heard := by
  induction fuel generalizing heard with
  | zero => trivial
  | succ fuel ih =>
    refine Act.wp_op ⟨trivial, fun stop => ?_⟩
    dsimp only
    rw [Act.wp_ite]
    split
    · trivial
    · refine Act.wp_op ⟨trivial, fun mode => ?_⟩
      refine Act.wp_check (fun _ => ?_) fun _ => trivial
      refine Act.wp_op ⟨trivial, fun ready => ?_⟩
      cases ready with
      | nil => trivial
      | cons ticket rest =>
        have hround := @orderly_round { mode := mode, selected := some ticket } projectId ticket rfl
        exact Act.wp_seq (hround _) (fun _ _ _ _ => ih) fun _ _ _ _ => trivial

/-- **Everything the runner asks for is allowed in its round**, whatever it is
answered. -/
theorem run_orderly (projectId : String) (fuel : Nat) :
    (run projectId fuel).wp orderly (fun _ _ _ => True) () heard := by
  refine Act.wp_onError (R := fun _ _ _ => True) ?_ (fun _ _ _ _ => trivial)
    (fun e _ _ _ _ => Act.wp_op ⟨trivial, fun _ => trivial⟩) fun _ _ _ _ _ => trivial
  refine Act.wp_seq (orderly_rounds projectId fuel) (fun _ _ heard _ => ?_) fun _ _ _ _ => trivial
  exact Act.wp_op ⟨trivial, fun _ => Act.wp_op ⟨trivial, fun _ => Act.wp_op ⟨trivial, fun _ => trivial⟩⟩⟩

end

/-! ## The queue -/

/-- What a runner finds around it. -/
structure RunnerHost (σ : Type) where
  env : Surroundings
  createdAt : String → Int
  /-- `_target_ticket_id`. -/
  target : Option String
  isStopSet : σ → Bool
  outside : (call : Outside) → TicketStore → σ → Except PyError call.Answer × TicketStore × σ

structure World (σ : Type) where
  store : TicketStore
  state : RunnerState
  others : σ
  /-- The tickets made active so far. Nothing reads it. -/
  selected : List String := []

section
variable {σ : Type}

/-- `_ready`. -/
def readyTickets (host : RunnerHost σ) (projectId : String) (store : TicketStore) : List TicketRecord :=
  (store.tickets.filter fun item => item.projectId == projectId && item.status == "READY" &&
    host.target.elim true (· == item.id)).mergeSort fun a b =>
      decide (host.createdAt a.id ≤ host.createdAt b.id)

def moveTicket (host : RunnerHost σ) (ticketId status reason : String) (w : World σ) :
    Except PyError TicketRecord × World σ :=
  match Manager.transition host.env ticketId status "Disposable automatic runner" reason w.store with
  | (.ok ticket, store) => (.ok ticket, { w with
      store := store
      selected := if status = "ACTIVE" then w.selected ++ [ticketId] else w.selected })
  | (.error e, store) => (.error e, { w with store := store })

/-- What each operation replies and does. -/
def perform (host : RunnerHost σ) : Meaning Op Reply (World σ) := fun op w =>
  match op with
  | .isStopSet => (host.isStopSet w.others, w)
  | .executionMode projectId =>
    ((w.store.projects.find? (·.id == projectId)).map fun _ => w.store.executionMode projectId, w)
  | .ready projectId => (readyTickets host projectId w.store, w)
  | .getTicket ticketId => (Manager.getTicket host.env.host w.store ticketId, w)
  | .transition ticketId status reason => moveTicket host ticketId status reason w
  | .state => (w.state, w)
  | .update values =>
    let (reply, store, others) :=
      host.outside (.saveObserverActivity (values w.state)) w.store w.others
    (reply, { w with state := values w.state, store := store, others := others })
  | .outside call =>
    let (reply, store, others) := host.outside call w.store w.others
    (reply, { w with store := store, others := others })

/-- The ready tickets, each with its project. -/
def ready (store : TicketStore) : Finset (String × String) :=
  ((store.tickets.filter (·.status == "READY")).map fun item => (item.projectId, item.id)).toFinset

theorem mem_ready {store : TicketStore} {projectId ticketId : String} :
    (projectId, ticketId) ∈ ready store ↔ ∃ item ∈ store.tickets,
      item.status = "READY" ∧ item.projectId = projectId ∧ item.id = ticketId := by
  simp [ready, and_assoc]

/-- Nobody else makes a ticket ready. -/
def Calm (host : RunnerHost σ) : Prop :=
  ∀ call store others, ready (host.outside call store others).2.1 ⊆ ready store

/-- The process is not ended from outside. -/
def Undisturbed (host : RunnerHost σ) : Prop :=
  ∀ call store others e, (host.outside call store others).1 = .error e → e.isException = true

/-! ### Transitions -/

/-- The statuses to which the runner moves a ticket. -/
def Moved (status : String) : Prop :=
  status = "ACTIVE" ∨ status = "BLOCKED" ∨ status = "AWAITING_REVIEW"

theorem transition_moved {status : String} (h : Moved status) (env : Surroundings)
    (ticketId actor reason : String) (store : TicketStore) :
    Manager.transition env ticketId status actor reason store =
      match Manager.getTicket env.host store ticketId with
      | .error e => (.error e, store)
      | .ok ticket => setStatus status reason actor ticket store := by
  unfold Manager.transition
  cases Manager.getTicket env.host store ticketId with
  | error e => rfl
  | ok ticket => obtain rfl | rfl | rfl := h <;> rfl

theorem getTicket_id {env : Surroundings} {ticketId : String} {store : TicketStore}
    {ticket : TicketRecord} (h : Manager.getTicket env.host store ticketId = .ok ticket) :
    ticket.id = ticketId := by
  unfold Manager.getTicket at h
  cases hfound : store.tickets.find? (·.id == ticketId) with
  | none =>
    rw [hfound] at h
    cases h
  | some found =>
    rw [hfound] at h
    have hid := List.find?_some hfound
    cases hticket : Governance.Tickets.ticketOf env.host.toGovernanceHost store.projects
        (store.tickets.map (·.toProjectTicket)) ticketId with
    | error e =>
      rw [hticket] at h
      cases h
    | ok _ =>
      rw [hticket] at h
      cases h
      exact beq_iff_eq.mp hid

/-- A ticket that is moved is not ready afterwards; the others are as before. -/
theorem ready_setStatus {status : String} (h : Moved status) (reason actor : String)
    (ticket : TicketRecord) (store : TicketStore) :
    ready (setStatus status reason actor ticket store).2 ⊆ ready store ∧
      ∀ projectId, (projectId, ticket.id) ∉ ready (setStatus status reason actor ticket store).2 := by
  have htickets : (setStatus status reason actor ticket store).2.tickets =
      replaceRow (·.id) { ticket with status := status } store.tickets := rfl
  have hstatus : status ≠ "READY" := by obtain rfl | rfl | rfl := h <;> decide
  have hother : ∀ item ∈ (setStatus status reason actor ticket store).2.tickets,
      item.status = "READY" → item ∈ store.tickets ∧ item.id ≠ ticket.id := by
    intro item hitem hready
    rw [htickets] at hitem
    obtain hkept | rfl := mem_replaceRow.mp hitem
    · exact hkept
    · exact absurd hready hstatus
  constructor
  · rintro ⟨projectId, ticketId⟩ hmem
    obtain ⟨item, hitem, hready, hproject, hid⟩ := mem_ready.mp hmem
    exact mem_ready.mpr ⟨item, (hother item hitem hready).1, hready, hproject, hid⟩
  · intro projectId hmem
    obtain ⟨item, hitem, hready, -, hid⟩ := mem_ready.mp hmem
    exact (hother item hitem hready).2 hid

theorem moveTicket_error {host : RunnerHost σ} {status : String} (h : Moved status) {w : World σ}
    {ticketId : String} {e : PyError}
    (hticket : Manager.getTicket host.env.host w.store ticketId = .error e) (reason : String) :
    moveTicket host ticketId status reason w = (.error e, w) := by
  unfold moveTicket
  rw [transition_moved h, hticket]

theorem moveTicket_ok {host : RunnerHost σ} {status : String} (h : Moved status) {w : World σ}
    {ticketId : String} {ticket : TicketRecord}
    (hticket : Manager.getTicket host.env.host w.store ticketId = .ok ticket) (reason : String) :
    moveTicket host ticketId status reason w = (.ok { ticket with status := status }, { w with
      store := (setStatus status reason "Disposable automatic runner" ticket w.store).2
      selected := if status = "ACTIVE" then w.selected ++ [ticketId] else w.selected }) := by
  unfold moveTicket
  rw [transition_moved h, hticket]
  rfl

/-- Exceptions that a handler of `Exception` catches. -/
abbrev Catchable {α : Type} (r : Except PyError α) : Prop := ∀ e, r = .error e → e.isException = true

theorem catchable_bind {α β : Type} {x : Except PyError α} {f : α → Except PyError β}
    (hx : Catchable x) (hf : ∀ a, Catchable (f a)) : Catchable (x >>= f) := by
  intro e he
  obtain hx' | ⟨a, -, ha⟩ := Results.bind_error he
  · exact hx e hx'
  · exact hf a e ha

theorem catchable_forM {α : Type} {f : α → Except PyError Unit} (hf : ∀ a, Catchable (f a))
    (xs : List α) : Catchable (xs.forM f) := by
  induction xs with
  | nil => exact fun e he => by cases he
  | cons x xs ih => exact catchable_bind (hf x) fun _ => ih

theorem catchable_getTicket (env : Surroundings) (store : TicketStore) (ticketId : String) :
    Catchable (Manager.getTicket env.host store ticketId) := by
  have hgoverned : ∀ projectId, Catchable (Governance.Policy.governedProject env.host.toGovernanceHost
      store.projects projectId) := by
    intro projectId e he
    unfold Governance.Policy.governedProject at he
    repeat' split at he
    all_goals cases he
    all_goals rfl
  have hscope : ∀ tickets ticket scope,
      Catchable (Governance.Tickets.assertScope tickets ticket scope) := by
    intro tickets ticket scope e he
    unfold Governance.Tickets.assertScope at he
    repeat' split at he
    all_goals cases he
    all_goals rfl
  have hticket : Catchable (Governance.Tickets.ticketOf env.host.toGovernanceHost store.projects
      (store.tickets.map (·.toProjectTicket)) ticketId) := by
    unfold Governance.Tickets.ticketOf
    split
    · intro e he
      cases he
      rfl
    · refine catchable_bind (hgoverned _) fun project => ?_
      split
      · intro e he
        cases he
        rfl
      · exact catchable_bind (catchable_forM (fun scope => hscope _ _ scope) _) fun _ _ he => by cases he
  unfold Manager.getTicket
  split
  · intro e he
    cases he
    rfl
  · intro e he
    cases hfound : Governance.Tickets.ticketOf env.host.toGovernanceHost store.projects
        (store.tickets.map (·.toProjectTicket)) ticketId with
    | ok _ =>
      rw [hfound] at he
      cases he
    | error raised =>
      rw [hfound] at he
      cases he
      exact hticket _ hfound

theorem catchable_wait {α : Type} (status : α → String) (terminal : List String)
    (polls : List (α × Bool)) : Catchable (wait status terminal polls) := by
  induction polls with
  | nil =>
    intro e he
    cases he
    rfl
  | cons poll polls ih =>
    unfold wait
    split
    · exact fun e he => by cases he
    · split
      · intro e he
        cases he
        rfl
      · exact ih

/-! ### What a round keeps -/

/-- The tickets made active were ready in the beginning, each only once, and
none of them is ready any more. -/
structure Tended (first now : Finset (String × String)) (w : World σ) : Prop where
  ready : ready w.store ⊆ now
  known : now ⊆ first
  once : w.selected.Nodup
  chosen : ∀ ticketId ∈ w.selected, ∃ projectId, (projectId, ticketId) ∈ first
  gone : ∀ ticketId ∈ w.selected, ∀ projectId, (projectId, ticketId) ∉ AutomaticRuns.ready w.store

variable {host : RunnerHost σ} {first now : Finset (String × String)} {w : World σ}

/-- Fewer tickets are ready, and no other is made active. -/
theorem Tended.shrink {w' : World σ} (h : Tended first now w)
    (hready : AutomaticRuns.ready w'.store ⊆ AutomaticRuns.ready w.store)
    (hselected : w'.selected = w.selected) : Tended first now w' where
  ready := hready.trans h.ready
  known := h.known
  once := hselected ▸ h.once
  chosen := hselected ▸ h.chosen
  gone ticketId hmem projectId hr := h.gone ticketId (hselected ▸ hmem) projectId (hready hr)

abbrev freely (host : RunnerHost σ) : OpSpec Op Reply (World σ) :=
  guarded (fun _ _ => True) (perform host)

/-- A program keeps an invariant, and what it raises is caught. -/
def Tends {α : Type} (host : RunnerHost σ) (I : World σ → Prop) (x : RunnerAct α) : Prop :=
  ∀ w, I w → x.wp (freely host) (fun r _ w' => I w' ∧ Catchable r) () w

section
variable {α β : Type} {I : World σ → Prop}

theorem tends_pure (a : α) : Tends host I (pure a : RunnerAct α) := fun _ h => ⟨h, fun _ he => by cases he⟩

theorem tends_ofExcept {r : Except PyError α} (hr : Catchable r) :
    Tends host I (Act.ofExcept r : RunnerAct α) := fun _ h => ⟨h, hr⟩

theorem tends_fail {e : PyError} (he : e.isException = true) :
    Tends host I (Act.fail e : RunnerAct α) := by
  intro w h
  refine ⟨h, fun e' he' => ?_⟩
  cases he'
  exact he

theorem Tends.bind {x : RunnerAct α} {f : α → RunnerAct β} (hx : Tends host I x)
    (hf : ∀ a, Tends host I (f a)) : Tends host I (x >>= f) := by
  intro w h
  refine Act.wp_seq (hx w h) (fun a _ w' h' => hf a w' h'.1) fun e _ w' h' => ⟨h'.1, fun e' he' => ?_⟩
  cases he'
  exact h'.2 e rfl

theorem Tends.ite {c : Prop} [Decidable c] {x y : RunnerAct α} (hx : Tends host I x)
    (hy : Tends host I y) : Tends host I (if c then x else y) := by
  split
  · exact hx
  · exact hy

theorem Tends.when {c : Prop} [Decidable c] {x : RunnerAct Unit} (hx : Tends host I x) :
    Tends host I (Act.when c x) :=
  hx.ite (tends_pure ())

theorem tends_require {c : Prop} [Decidable c] {e : PyError} (he : e.isException = true) :
    Tends host I (Act.require c e : RunnerAct Unit) :=
  (tends_pure ()).ite (tends_fail he)

theorem tends_forM {xs : List β} {f : β → RunnerAct Unit} (hf : ∀ x, Tends host I (f x)) :
    Tends host I (xs.forM f) := by
  induction xs with
  | nil => exact tends_pure ()
  | cons x xs ih => exact (hf x).bind fun _ => ih

end

/-- What the calls of the outside keep: the invariant speaks of the ready
tickets, monotonically, and of those made active. -/
def Closed (I : World σ → Prop) : Prop :=
  ∀ w w' : World σ, ready w'.store ⊆ ready w.store → w'.selected = w.selected → I w → I w'

section
variable {I : World σ → Prop}

theorem tends_outside (hcalm : Calm host) (hundisturbed : Undisturbed host) (hI : Closed I)
    (call : Outside) : Tends host I (outside call) :=
  fun w h => Act.wp_op ⟨trivial, hI w _ (hcalm call w.store w.others) rfl h,
    hundisturbed call w.store w.others⟩

theorem tends_update (hcalm : Calm host) (hundisturbed : Undisturbed host) (hI : Closed I)
    (values : RunnerState → RunnerState) : Tends host I (update values) :=
  fun w h => Act.wp_op ⟨trivial, hI w _ (hcalm _ w.store w.others) rfl h,
    hundisturbed _ w.store w.others⟩

/-- A transition that makes no ticket active. -/
theorem tends_transition (hI : Closed I) {status : String} (hmoved : Moved status)
    (hstatus : status ≠ "ACTIVE") (ticketId reason : String) :
    Tends host I (transition ticketId status reason) := by
  intro w h
  refine Act.wp_op ⟨trivial, ?_⟩
  show I (moveTicket host ticketId status reason w).2 ∧
    Catchable (moveTicket host ticketId status reason w).1
  cases hticket : Manager.getTicket host.env.host w.store ticketId with
  | error e =>
    rw [moveTicket_error hmoved hticket]
    exact ⟨h, fun e' he' => catchable_getTicket _ _ _ e' (hticket.trans he')⟩
  | ok ticket =>
    rw [moveTicket_ok hmoved hticket]
    refine ⟨hI w _ (ready_setStatus hmoved reason _ ticket w.store).1 (if_neg hstatus) h, ?_⟩
    exact fun _ he => by cases he

/-- A ticket is made active: it was ready, and was not active before. -/
theorem wp_activate (h : Tended first now w) {projectId ticketId : String} (reason : String)
    (hready : (projectId, ticketId) ∈ first) (hnew : ticketId ∉ w.selected) :
    (transition ticketId "ACTIVE" reason).wp (freely host) (fun r _ w' => Tended first now w' ∧
      Catchable r ∧ (∀ ticket, r = .ok ticket → ticketId ∈ w'.selected) ∧
      ∀ e, r = .error e → Manager.getTicket host.env.host w'.store ticketId = .error e) () w := by
  have hmoved : Moved "ACTIVE" := Or.inl rfl
  refine Act.wp_op ⟨trivial, ?_⟩
  show Tended first now (moveTicket host ticketId "ACTIVE" reason w).2 ∧
    Catchable (moveTicket host ticketId "ACTIVE" reason w).1 ∧
    (∀ ticket, (moveTicket host ticketId "ACTIVE" reason w).1 = .ok ticket →
      ticketId ∈ (moveTicket host ticketId "ACTIVE" reason w).2.selected) ∧
    ∀ e, (moveTicket host ticketId "ACTIVE" reason w).1 = .error e →
      Manager.getTicket host.env.host (moveTicket host ticketId "ACTIVE" reason w).2.store ticketId =
        .error e
  cases hticket : Manager.getTicket host.env.host w.store ticketId with
  | error e =>
    rw [moveTicket_error hmoved hticket]
    exact ⟨h, fun e' he' => catchable_getTicket _ _ _ e' (hticket.trans he'),
      fun _ he => (by cases he), fun e' he' => hticket.trans he'⟩
  | ok ticket =>
    rw [moveTicket_ok hmoved hticket]
    have hid := getTicket_id hticket
    obtain ⟨hsub, hgone⟩ := ready_setStatus hmoved reason "Disposable automatic runner" ticket w.store
    refine ⟨⟨hsub.trans h.ready, h.known, ?_, ?_, ?_⟩, fun _ he => (by cases he), fun _ _ => ?_,
      fun _ he => (by cases he)⟩
    · refine List.nodup_append.mpr ⟨h.once, List.nodup_singleton _, fun a ha b hb hab => hnew ?_⟩
      rw [← List.mem_singleton.mp hb, ← hab]
      exact ha
    · intro other hother
      obtain hold | hself := List.mem_append.mp hother
      · exact h.chosen other hold
      · rw [List.mem_singleton.mp hself]
        exact ⟨projectId, hready⟩
    · intro other hother projectId hmem
      obtain hold | hself := List.mem_append.mp hother
      · exact h.gone other hold projectId (hsub hmem)
      · refine hgone projectId ?_
        rw [hid, ← List.mem_singleton.mp hself]
        exact hmem
    · exact List.mem_append_right _ (List.mem_singleton.mpr rfl)

end

/-- The ticket of the round has been made active. -/
def Chosen (first now : Finset (String × String)) (ticketId : String) (w : World σ) : Prop :=
  Tended first now w ∧ ticketId ∈ w.selected

theorem ready_of_mem {projectId : String} {ticket : TicketRecord} {store : TicketStore}
    (h : ticket ∈ readyTickets host projectId store) : (projectId, ticket.id) ∈ ready store := by
  obtain ⟨hmem, hready⟩ := List.mem_filter.mp ((List.mergeSort_perm _ _).mem_iff.mp h)
  simp only [Bool.and_eq_true, beq_iff_eq] at hready
  exact mem_ready.mpr ⟨ticket, hmem, hready.1.2, hready.1.1, rfl⟩

theorem closed_chosen (ticketId : String) : Closed (Chosen (σ := σ) first now ticketId) :=
  fun _ _ hready hselected h => ⟨h.1.shrink hready hselected, hselected ▸ h.2⟩

section
variable (hcalm : Calm host) (hundisturbed : Undisturbed host) {I : World σ → Prop} (hI : Closed I)
include hcalm hundisturbed hI

theorem tends_planTicket (projectId : String) (ticket : TicketRecord) :
    Tends host I (planTicket projectId ticket) := by
  have hcall := tends_outside hcalm hundisturbed hI
  refine (hcall _).bind fun _ => (hcall _).bind fun polls => ?_
  refine (tends_ofExcept (catchable_wait _ _ _)).bind fun workspace => ?_
  refine (tends_require rfl).bind fun _ => (hcall _).bind fun _ => ?_
  exact tends_pure _

theorem tends_attemptOf (ticketId attemptId : String) :
    Tends host I (attemptOf ticketId attemptId) := by
  refine (tends_outside hcalm hundisturbed hI _).bind fun attempts => tends_ofExcept ?_
  intro e he
  cases hfound : attempts.find? (·.id == attemptId) with
  | none =>
    rw [hfound] at he
    cases he
    rfl
  | some attempt =>
    rw [hfound] at he
    cases he

theorem tends_completeValidation (ticketId attemptId : String)
    (decision : Governance.ArtifactKinds.SandboxValidationDecision) :
    Tends host I (completeValidation ticketId attemptId decision) := by
  have hcall := tends_outside hcalm hundisturbed hI
  refine Tends.when ((hcall _).ite ((hcall _).bind fun workers => ?_))
  split
  · exact hcall _
  · exact tends_pure _

theorem tends_implementTicket (ticket : TicketRecord) (planId : String) :
    Tends host I (implementTicket ticket planId) := by
  have hcall := tends_outside hcalm hundisturbed hI
  refine (hcall _).bind fun _ => (hcall _).bind fun polls => ?_
  refine (tends_ofExcept (catchable_wait _ _ _)).bind fun sandbox => ?_
  refine Tends.bind (Tends.when ((tends_fail rfl).ite ?_)) fun _ => ?_
  · refine Tends.bind ((hcall _).bind fun attempts => tends_pure _) fun failure => tends_fail rfl
  have hattempt := tends_attemptOf hcalm hundisturbed hI ticket.id (str sandbox.attemptId)
  refine Tends.bind (hattempt.bind fun attempt => Tends.bind (tends_forM fun decision =>
    tends_completeValidation hcalm hundisturbed hI _ _ decision) fun _ => hattempt) fun attempt => ?_
  exact (tends_require rfl).bind fun _ => tends_pure _

theorem tends_promoteTicket (ticket : TicketRecord) (attempt : Attempt) :
    Tends host I (promoteTicket ticket attempt) := by
  have hcall := tends_outside hcalm hundisturbed hI
  refine (hcall _).bind fun _ => (tends_update hcalm hundisturbed hI _).bind fun _ => ?_
  refine (hcall _).bind fun _ => (hcall _).bind fun polls => ?_
  refine (tends_ofExcept (catchable_wait _ _ _)).bind fun promoted => ?_
  exact (tends_require rfl).bind fun _ => hcall _

/-- The last step of a round counts the ticket. -/
theorem tends_counted (values : RunnerState → RunnerState → RunnerState) : Tends host I (do
    let state ← Act.perform Op.state
    update (values state)) :=
  fun w h => Act.wp_op ⟨trivial, tends_update hcalm hundisturbed hI (values w.state) w h⟩

end

section
variable (hcalm : Calm host) (hundisturbed : Undisturbed host)
include hcalm hundisturbed

theorem wp_executeTicket (h : Tended first now w) {projectId : String} {ticket : TicketRecord}
    (hready : (projectId, ticket.id) ∈ first) (hnew : ticket.id ∉ w.selected)
    (mode : Option ProjectExecutionMode) : (executeTicket projectId mode ticket).wp (freely host)
      (fun r _ w' => Tended first now w' ∧ Catchable r ∧ (ticket.id ∈ w'.selected ∨
        (∃ e, r = .error e) ∧
          ∃ e, Manager.getTicket host.env.host w'.store ticket.id = .error e)) () w := by
  have hI : Closed (Chosen (σ := σ) first now ticket.id) := closed_chosen ticket.id
  refine Act.wp_seq (wp_activate h _ hready hnew) (fun active _ w' hactive => ?_)
    fun e _ w' hfailed => ?_
  · obtain ⟨htended, -, hselected, -⟩ := hactive
    have hrest : Tends host (Chosen (σ := σ) first now ticket.id) (do
        let planId ← planTicket projectId ticket
        update id
        let attempt ← implementTicket ticket planId
        Act.when (mode = some .autonomousProject) (promoteTicket ticket attempt)
        let _ ← transition ticket.id "AWAITING_REVIEW" (if mode = some .autonomousProject then
            "Implementation promoted and reconciled; criteria await evidence review."
          else "Validated changes remain only in the autonomous sandbox.")
        let state ← Act.perform Op.state
        update fun current => { current with completed := state.completed + 1 }) := by
      refine (tends_planTicket hcalm hundisturbed hI projectId ticket).bind fun planId => ?_
      refine (tends_update hcalm hundisturbed hI _).bind fun _ => ?_
      refine (tends_implementTicket hcalm hundisturbed hI ticket planId).bind fun attempt => ?_
      refine (tends_promoteTicket hcalm hundisturbed hI ticket attempt).when.bind fun _ => ?_
      refine (tends_transition hI (Or.inr (Or.inr rfl)) (by decide) _ _).bind fun _ => ?_
      exact tends_counted hcalm hundisturbed hI fun state current =>
        { current with completed := state.completed + 1 }
    refine Act.wp_mono (hrest w' ⟨htended, hselected active rfl⟩) fun r _ w'' hend => ?_
    exact ⟨hend.1.1, hend.2, Or.inl hend.1.2⟩
  · obtain ⟨htended, hcaught, -, hmissing⟩ := hfailed
    refine ⟨htended, fun e' he' => ?_, Or.inr ⟨⟨e, rfl⟩, e, hmissing e rfl⟩⟩
    cases he'
    exact hcaught e rfl

/-- The handler of a ticket that was made active, or that cannot be read. -/
theorem wp_ticketFailed (h : Tended first now w) {ticketId : String}
    (hchosen : ticketId ∈ w.selected ∨
      ∃ e, Manager.getTicket host.env.host w.store ticketId = .error e) (e : PyError) :
    (ticketFailed ticketId e).wp (freely host) (fun r _ w' => Tended first now w' ∧ Catchable r ∧
      (r = .ok () → ticketId ∈ w'.selected)) () w := by
  have hI : Closed (Chosen (σ := σ) first now ticketId) := closed_chosen ticketId
  refine Act.wp_seq (R := fun r _ w' => w' = w ∧
    r = Manager.getTicket host.env.host w.store ticketId) (Act.wp_op ⟨trivial, rfl, rfl⟩) ?_ ?_
  · rintro current _ _ ⟨rfl, hfound⟩
    obtain hselected | ⟨e', he'⟩ := hchosen
    · have hrest : Tends host (Chosen (σ := σ) first now ticketId) (do
          Act.when (["BLOCKED", "SATISFIED", "CLOSED"].contains current.status = false) do
            let _ ← transition ticketId "BLOCKED"
              s!"Automatic execution stopped for this ticket: {e.message}"
          let state ← Act.perform Op.state
          update fun current => { current with failed := state.failed + 1, error := some e.message }) := by
        refine Tends.bind (Tends.when ?_) fun _ => ?_
        · exact (tends_transition hI (Or.inr (Or.inl rfl)) (by decide) _ _).bind fun _ => tends_pure _
        · exact tends_counted hcalm hundisturbed hI fun state current =>
            { current with failed := state.failed + 1, error := some e.message }
      exact Act.wp_mono (hrest _ ⟨h, hselected⟩) fun r _ w' hend => ⟨hend.1.1, hend.2, fun _ => hend.1.2⟩
    · cases hfound.trans he'
  · rintro raised _ _ ⟨rfl, hmissing⟩
    refine ⟨h, fun e' he' => ?_, fun hr => by cases hr⟩
    cases he'
    exact catchable_getTicket _ _ _ raised hmissing.symm

theorem wp_round (h : Tended first now w) {projectId : String} {ticket : TicketRecord}
    (hready : (projectId, ticket.id) ∈ ready w.store) (mode : Option ProjectExecutionMode)
    (remaining : Nat) : (round projectId mode ticket remaining).wp (freely host)
      (fun r _ w' => Tended first now w' ∧ Catchable r ∧ (r = .ok () → ticket.id ∈ w'.selected)) () w := by
  have hnew : ticket.id ∉ w.selected := fun hold => h.gone ticket.id hold projectId hready
  refine Act.wp_seq (R := fun r _ w' => Tended first now w' ∧ Catchable r ∧ w'.selected = w.selected)
    (Act.wp_op ⟨trivial, h.shrink (hcalm _ w.store w.others) rfl, hundisturbed _ w.store w.others, rfl⟩)
    (fun _ _ noted hnoted => ?_) fun e _ _ hfailed => ⟨hfailed.1, fun e' he' => ?_, fun hr => by cases hr⟩
  · obtain ⟨htended, -, hselected⟩ := hnoted
    refine Act.wp_onError (wp_executeTicket hcalm hundisturbed htended (h.known (h.ready hready))
      (hselected ▸ hnew) mode) ?_ ?_ ?_
    · rintro _ _ w' ⟨hdone, hcaught, hchosen⟩
      refine ⟨hdone, hcaught, fun _ => ?_⟩
      obtain hchosen | ⟨⟨e, he⟩, -⟩ := hchosen
      · exact hchosen
      · cases he
    · rintro e _ w' ⟨hdone, -, hchosen⟩ -
      exact wp_ticketFailed hcalm hundisturbed hdone (hchosen.imp_right fun h => h.2) e
    · rintro e _ w' ⟨-, hcaught, -⟩ huncaught
      exact absurd (hcaught e rfl) (by rw [huncaught]; exact Bool.false_ne_true)
  · cases he'
    exact hfailed.2.1 e rfl

/-- The loop comes to an end: each round leaves fewer tickets ready. -/
theorem wp_rounds (projectId : String) {fuel : Nat} (h : Tended first (ready w.store) w)
    (hfuel : (ready w.store).card < fuel) : (rounds projectId fuel).wp (freely host)
      (fun r _ w' => Tended first first w' ∧ Catchable r ∧ (r = .ok () →
        host.isStopSet w'.others = true ∨ readyTickets host projectId w'.store = [])) () w := by
  induction fuel generalizing w with
  | zero => exact absurd hfuel (Nat.not_lt_zero _)
  | succ fuel ih =>
    have hwhole : Tended first first w := { h with ready := h.known, known := subset_rfl }
    refine Act.wp_op ⟨trivial, ?_⟩
    dsimp only
    rw [Act.wp_ite]
    split
    · next hstop => exact ⟨hwhole, fun _ he => (by cases he), fun _ => Or.inl hstop⟩
    · refine Act.wp_op ⟨trivial, ?_⟩
      refine Act.wp_check (fun _ => ?_) fun _ => ⟨hwhole, fun e he => ?_, fun hr => by cases hr⟩
      · refine Act.wp_op ⟨trivial, ?_⟩
        dsimp only [perform]
        cases hqueue : readyTickets host projectId w.store with
        | nil => exact ⟨hwhole, fun _ he => (by cases he), fun _ => Or.inr hqueue⟩
        | cons ticket rest =>
          have hlisted : ticket ∈ readyTickets host projectId w.store := hqueue ▸ List.mem_cons_self
          have hready : (projectId, ticket.id) ∈ ready w.store := ready_of_mem hlisted
          refine Act.wp_seq (wp_round hcalm hundisturbed h hready _ _) (fun _ _ w' hround => ?_)
            fun e _ w' hround => ⟨?_, ?_, fun hr => by cases hr⟩
          · obtain ⟨htended, -, hchosen⟩ := hround
            have hless : ready w'.store ⊂ ready w.store :=
              Finset.ssubset_iff_subset_ne.mpr ⟨htended.ready, fun heq =>
                htended.gone ticket.id (hchosen rfl) projectId (heq ▸ hready)⟩
            refine ih { htended with ready := subset_rfl, known := htended.ready.trans htended.known } ?_
            exact Nat.lt_of_lt_of_le (Finset.card_lt_card hless) (Nat.le_of_lt_succ hfuel)
          · exact { hround.1 with ready := hround.1.ready.trans hround.1.known, known := subset_rfl }
          · intro e' he'
            cases he'
            exact hround.2.1 e rfl
      · cases he
        rfl

/-- What a run leaves. -/
structure Drained (host : RunnerHost σ) (projectId : String) (before after : World σ) : Prop where
  ended : after.state.status = .stopped ∨ after.state.status = .completed ∨
    after.state.status = .failed
  once : after.selected.Nodup
  chosen : ∀ ticketId ∈ after.selected, ∃ project, (project, ticketId) ∈ ready before.store
  gone : ∀ ticketId ∈ after.selected, ∀ project, (project, ticketId) ∉ ready after.store
  emptied : after.state.status = .completed → readyTickets host projectId after.store = []

omit hcalm hundisturbed in
theorem readyTickets_nil {projectId : String} {store store' : TicketStore}
    (hready : ready store' ⊆ ready store) (hnone : readyTickets host projectId store = []) :
    readyTickets host projectId store' = [] := by
  rw [List.eq_nil_iff_forall_not_mem]
  intro ticket hticket
  obtain ⟨hmem, hmatches⟩ := List.mem_filter.mp ((List.mergeSort_perm _ _).mem_iff.mp hticket)
  obtain ⟨item, hitem, hstatus, hproject, hid⟩ := mem_ready.mp (hready (ready_of_mem hticket))
  have hlisted : item ∈ readyTickets host projectId store := by
    refine (List.mergeSort_perm _ _).mem_iff.mpr (List.mem_filter.mpr ⟨hitem, ?_⟩)
    simp only [Bool.and_eq_true] at hmatches ⊢
    rw [hproject, hstatus, hid]
    exact ⟨⟨beq_self_eq_true _, beq_self_eq_true _⟩, hmatches.2⟩
  rw [hnone] at hlisted
  cases hlisted

/-- **A run comes to an end.** If nobody else makes a ticket ready, the tickets
it makes active are distinct and were ready in the beginning, none of them is
ready in the end, and a run that reports completion leaves none. -/
theorem queue_drained (projectId : String) {fuel : Nat} (hfresh : w.selected = [])
    (hfuel : (ready w.store).card < fuel) :
    Drained host projectId w ((run projectId fuel).run (perform host) () w).2 := by
  refine Act.wp_run (G := fun _ _ => True) (Q := fun _ w' => Drained host projectId w w') ?_
  have hstart : Tended (ready w.store) (ready w.store) w := by
    refine ⟨subset_rfl, subset_rfl, ?_, ?_, ?_⟩
    · rw [hfresh]
      exact List.nodup_nil
    · rw [hfresh]
      exact fun _ h => by cases h
    · rw [hfresh]
      exact fun _ h => by cases h
  have hfailed : ∀ {w'} {values : RunnerState → RunnerState}, Tended (ready w.store) (ready w.store) w' →
      (∀ state, (values state).status = .failed) → (update values).wp (freely host)
        (fun _ _ w' => Drained host projectId w w') () w' := by
    intro w' values htended hstatus
    have hlast : Tended (ready w.store) (ready w.store) (perform host (.update values) w').2 :=
      htended.shrink (hcalm _ w'.store w'.others) rfl
    refine Act.wp_op ⟨trivial, Or.inr (Or.inr (hstatus w'.state)), hlast.once, hlast.chosen,
      hlast.gone, fun hcompleted => ?_⟩
    cases (hstatus w'.state).symm.trans hcompleted
  have hbody : (do rounds projectId fuel; conclude projectId : RunnerAct Unit).wp (freely host)
      (fun r _ w' => Tended (ready w.store) (ready w.store) w' ∧ Catchable r ∧
        (r = .ok () → Drained host projectId w w')) () w := by
    refine Act.wp_seq (wp_rounds hcalm hundisturbed projectId hstart hfuel) (fun _ _ w' hloop => ?_)
      fun e _ w' hloop => ⟨hloop.1, fun e' he' => ?_, fun hr => by cases hr⟩
    · obtain ⟨htended, -, hidle⟩ := hloop
      refine Act.wp_op ⟨trivial, Act.wp_op ⟨trivial, Act.wp_op ⟨trivial, ?_⟩⟩⟩
      have hlast : Tended (ready w.store) (ready w.store) (perform host (.update fun state =>
          { state with
            status := if host.isStopSet w'.others then .stopped else .completed
            ticketId := none
            remaining := (readyTickets host projectId w'.store).length }) w').2 :=
        htended.shrink (hcalm _ w'.store w'.others) rfl
      refine ⟨hlast, hundisturbed _ w'.store w'.others, fun _ => ⟨?_, hlast.once, hlast.chosen,
        hlast.gone, fun hcompleted => ?_⟩⟩
      · show (if host.isStopSet w'.others then RunnerStatus.stopped else .completed) = .stopped ∨
          (if host.isStopSet w'.others then RunnerStatus.stopped else .completed) = .completed ∨ _
        split
        · exact Or.inl rfl
        · exact Or.inr (Or.inl rfl)
      · have hstatus : (if host.isStopSet w'.others then RunnerStatus.stopped else .completed) =
            .completed := hcompleted
        obtain hstop | hnone := hidle rfl
        · rw [if_pos hstop] at hstatus
          cases hstatus
        · exact readyTickets_nil (hcalm _ w'.store w'.others) hnone
    · cases he'
      exact hloop.2.1 e rfl
  refine Act.wp_onError hbody (fun _ _ _ h => h.2.2 rfl) (fun e _ w' h _ => hfailed h.1 fun _ => rfl) ?_
  rintro e _ w' ⟨-, hcaught, -⟩ huncaught
  exact absurd (hcaught e rfl) (by rw [huncaught]; exact Bool.false_ne_true)

end

end

/-! ### Two tickets -/

/-- Every call returns, and every wait runs into its deadline. -/
def deafAnswer : (call : Outside) → call.Answer
  | .workspacePolls | .sandboxPolls | .implementationSandboxes _ | .configuredWorkers => []
  | .saveObserverActivity _ | .startChangePlan .. | .approvePlan .. | .startSandbox .. => ()
  | .satisfyValidation .. | .runValidationWorker .. | .approvePromotion .. => ()
  | .promote .. | .reconcile .. => ()

def deafHost : RunnerHost Unit where
  env := ⟨Eligibility.plainHost, ⟨fun _ => none, fun _ => true⟩, 0⟩
  createdAt ticketId := ticketId.length
  target := none
  isStopSet _ := false
  outside call store _ := (.ok (deafAnswer call), store, ())

def queuedTicket (ticketId : String) : TicketRecord where
  id := ticketId
  projectId := "project"
  projectRoot := "root"
  budget := {}
  usage := ⟨0, 0, 0, 0, 0⟩
  status := "READY"

def twoTickets : World Unit where
  store := {
    projects := [⟨"project", "root", true, true⟩]
    executionMode := fun _ => .autonomousSandbox
    policies := fun _ => none
    tickets := [queuedTicket "first", queuedTicket "second"]
    records := fun _ => none
    validations := fun _ => none
    sandboxes := []
    ticketEvents := []
    projectFiles := fun _ => [] }
  state := { status := .running, projectId := some "project" }
  others := ()

theorem queue_drained_two : Drained deafHost "project" twoTickets
    ((run "project" 3).run (perform deafHost) () twoTickets).2 :=
  queue_drained (fun _ _ _ => subset_rfl) (fun _ _ _ _ he => by cases he) "project" rfl
    (by decide +kernel)

end RlmGraph.Tickets.AutomaticRuns
