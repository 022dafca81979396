import RlmGraph.Lib.Interleavings
import RlmGraph.Sandbox.Gates

/-! # Validation workers on one patch

Several workers may serve one gate, and each that comes to an end writes its
own outcome over the gate. A worker that has come to an end on a patch is not
run again on it, so a recorded failure is final for its worker; the pass of
another worker writes over it. -/
namespace RlmGraph.Sandbox.Workers
open RlmGraph.Lib RlmGraph.Lib.PyText RlmGraph.Lib.Programs RlmGraph.Lib.Interleavings
open RlmGraph.Governance.Policy RlmGraph.Governance.ArtifactKinds
open RlmGraph.Sandbox.Records RlmGraph.Sandbox.Operations RlmGraph.Sandbox.Approval
open RlmGraph.Sandbox.Promote RlmGraph.Sandbox.Recover RlmGraph.Sandbox.Confinement
open RlmGraph.Sandbox.Review RlmGraph.Sandbox.Standing RlmGraph.Sandbox.Lifecycle
open RlmGraph.Sandbox.Gates

/-! ## What a call reads -/

/-- The attempts, the projects, the tickets and the files are as before. -/
structure Unmoved (before after : World) : Prop where
  sandboxes : after.store.sandboxes = before.store.sandboxes
  projects : after.store.projects = before.store.projects
  projectFiles : after.store.projectFiles = before.store.projectFiles
  tickets : after.store.tickets = before.store.tickets
  files : after.files = before.files

section
variable {host : ReviewHost} {world world' world'' : World} {α β : Type}

theorem Unmoved.refl (world : World) : Unmoved world world := ⟨rfl, rfl, rfl, rfl, rfl⟩

theorem Unmoved.trans (h : Unmoved world world') (h' : Unmoved world' world'') :
    Unmoved world world'' :=
  ⟨h'.sandboxes.trans h.sandboxes, h'.projects.trans h.projects,
    h'.projectFiles.trans h.projectFiles, h'.tickets.trans h.tickets, h'.files.trans h.files⟩

theorem Unmoved.ticketOf {host : SandboxHost} (h : Unmoved world world') (ticketId : String) :
    ticketOf host ticketId world'.store = ticketOf host ticketId world.store := by
  unfold Operations.ticketOf
  rw [h.projects, h.tickets]

theorem Unmoved.projectRow (h : Unmoved world world') (projectId : String) :
    projectRow projectId world'.store = projectRow projectId world.store := by
  unfold Approval.projectRow
  rw [h.projects]

theorem Unmoved.saved (h : Unmoved world world') (attempt : ImplementationSandboxAttempt) :
    (world'.store.saveImplementationSandbox attempt).sandboxes =
      (world.store.saveImplementationSandbox attempt).sandboxes := by
  unfold Store.saveImplementationSandbox
  rw [h.sandboxes]

theorem unmoved_perform (host : SandboxHost) {o : Op} (ho : looks o) (world : World) :
    Unmoved world (perform host o world).2 := by
  cases o with
  | saveImplementationSandbox _ | saveProjectTicket _ | acquireProjectLease _ _ _ _
  | recordProjectLeaseEvent _ _ _ _ _ _ | replaceFile _ _ | execute _ _ => exact ho.elim
  | _ => exact ⟨rfl, rfl, rfl, rfl, rfl⟩

/-- The rule of a block that only looks. -/
theorem wp_looking {L : Type} {host : SandboxHost} {x : SandboxAct L α} {l : L}
    {g : α → SandboxAct L β} {Q : Except PyError β → L → World → Prop}
    (hx : Act.Confined looks (· = l) x)
    (hok : ∀ a world', Unmoved world world' → (g a).wp (freely host) Q l world')
    (herror : ∀ e world', Unmoved world world' → Q (.error e) l world') :
    (x >>= g).wp (freely host) Q l world := by
  have hmoves : ∀ o (w : World), looks o → Unmoved world w →
      (freely host).holds o w fun _ w' => Unmoved world w' :=
    fun o w ho hw => ⟨trivial, hw.trans (unmoved_perform host ho w)⟩
  have hlooks : Act.Keeps (freely host) (fun l' w => l' = l ∧ Unmoved world w) x :=
    Act.Confined.keeps hx hmoves
  refine Act.wp_seq (hlooks l world ⟨rfl, Unmoved.refl world⟩) ?_ ?_
  · rintro a l' w ⟨rfl, hw⟩
    exact hok a w hw
  · rintro e l' w ⟨rfl, hw⟩
    exact herror e w hw

theorem unmoved_next (host : SandboxHost) (world : World) : Unmoved world (world.next host) :=
  ⟨rfl, rfl, rfl, rfl, rfl⟩

/-- The rule of a question to the files. -/
theorem wp_look {L : Type} {host : SandboxHost} {f : Files → Except PyError α} {l : L}
    {g : α → SandboxAct L β} {Q : Except PyError β → L → World → Prop}
    (hok : ∀ a, f world.files = .ok a → (g a).wp (freely host) Q l (world.next host))
    (herror : ∀ e, f world.files = .error e → Q (.error e) l (world.next host)) :
    (look f >>= g).wp (freely host) Q l world := by
  have hanswer : Act.onOk Q (fun a => (g a).wp (freely host) Q) (f world.files) l
      (world.next host) := by
    cases h : f world.files with
    | error e => exact herror e h
    | ok a => exact hok a h
  rw [Act.wp_bind]
  unfold look
  rw [Act.wp_bind]
  exact ⟨trivial, hanswer⟩

/-! ## What is checked before a worker is run -/

/-- A policy that is read was stored, or is new and made for the project. -/
theorem policyOf_stored {host : GovernanceHost} {projects : List ProjectRecord}
    {newId projectId : String} {policies : PolicyTable} {policy : ProjectGovernancePolicy}
    (h : (policyOf host projects newId projectId policies).1 = .ok policy) :
    policies projectId = some policy ∨ policies projectId = none ∧ policy.projectId = projectId := by
  unfold policyOf at h
  split at h
  · cases h
  · next project hgoverned =>
    split at h
    · next existing hexisting =>
      split at h
      · cases h
      · cases h
        exact Or.inl hexisting
    · next hnone =>
      cases h
      refine Or.inr ⟨hnone, ?_⟩
      unfold governedProject at hgoverned
      split at hgoverned
      · cases hgoverned
      · next found hfound =>
        split_ifs at hgoverned
        cases hgoverned
        simpa using List.find?_some hfound

section
variable {L : Type} {host : SandboxHost} {l : L} {Q : Except PyError β → L → World → Prop}

/-- The rule of a policy, which is stored when it has been read. -/
theorem wp_governed {projectId : String} {g : ProjectGovernancePolicy → SandboxAct L β}
    (hok : ∀ policy w, policyInForce host projectId world = .ok policy → Unmoved world w →
      w.store.policies projectId = some policy → (g policy).wp (freely host) Q l w)
    (herror : ∀ e w, Unmoved world w → Q (.error e) l w) :
    (policy host projectId >>= g).wp (freely host) Q l (world.next host) := by
  unfold policy
  simp only [Act.wp_bind, Act.wp_perform, Act.onOk_ok, Act.wp_ofExcept]
  refine ⟨trivial, trivial, ?_⟩
  change Act.onOk _ _ (policyInForce host projectId world) _ _
  cases hpolicy : policyInForce host projectId world with
  | error e => exact herror e _ ⟨rfl, rfl, rfl, rfl, rfl⟩
  | ok policy =>
    rw [Act.onOk_ok, Act.wp_bind, Act.wp_when]
    split
    · next hnone =>
      refine ⟨trivial, hok policy _ hpolicy ⟨rfl, rfl, rfl, rfl, rfl⟩ ?_⟩
      rcases policyOf_stored hpolicy with hstored | ⟨-, rfl⟩
      · rw [show world.store.policies projectId = none from hnone] at hstored
        cases hstored
      · exact Function.update_self _ _ _
    · next hsome =>
      refine hok policy _ hpolicy ⟨rfl, rfl, rfl, rfl, rfl⟩ ?_
      exact (policyOf_stored hpolicy).resolve_right fun hnone => hsome hnone.1

/-- The rule of a budget, checked under a policy that is stored. -/
theorem wp_checkBudget {ticketId : String} {g : Governance.Tickets.ProjectTicket → SandboxAct L β}
    (hok : ∀ ticket w, ticketOf host ticketId world.store = .ok ticket → exhausted ticket = [] →
      (∀ policy, world.store.policies ticket.projectId = some policy →
        assertBudget policy ticket.budget = .ok ()) →
      Unmoved world w → (g ticket).wp (freely host) Q l w)
    (herror : ∀ e w, Unmoved world w → Q (.error e) l w) :
    (checkBudget host ticketId >>= g).wp (freely host) Q l world := by
  unfold checkBudget
  rw [Act.wp_bind]
  refine wp_ask trivial (fun ticket hticket => wp_governed (fun policy w hpolicy hw _ => ?_)
    fun e w hw => herror e w hw) fun e _ => herror e _ (unmoved_next host world)
  refine Act.wp_result (fun _ hbudget => ?_) fun e _ => herror e w hw
  refine Act.wp_check (fun hleft => ?_) fun _ => herror _ w hw
  refine hok ticket w hticket hleft (fun stored hstored => ?_) hw
  rcases policyOf_stored hpolicy with hsame | ⟨hnone, -⟩
  · rw [show world.store.policies ticket.projectId = some policy from hsame] at hstored
    cases hstored
    exact hbudget
  · rw [show world.store.policies ticket.projectId = none from hnone] at hstored
    cases hstored

/-- The rule of the fingerprint of the registered files. -/
theorem wp_currentManifest {projectId root : String} {g : String → SandboxAct L β}
    (hok : ∀ current w, manifestOf host root (world.store.projectFiles projectId) world.files =
      .ok current → Unmoved world w → (g current).wp (freely host) Q l w)
    (herror : ∀ e w, Unmoved world w → Q (.error e) l w) :
    (currentManifest host projectId root >>= g).wp (freely host) Q l world := by
  unfold currentManifest
  rw [Act.wp_bind]
  refine Act.wp_op ⟨trivial, ?_⟩
  have hanswer : Act.onOk Q (fun current => (g current).wp (freely host) Q)
      (manifestOf host root (world.store.projectFiles projectId) world.files) l
      ((world.next host).next host) := by
    cases h : manifestOf host root (world.store.projectFiles projectId) world.files with
    | error e => exact herror e _ ⟨rfl, rfl, rfl, rfl, rfl⟩
    | ok current => exact hok current _ h ⟨rfl, rfl, rfl, rfl, rfl⟩
  change Act.wp _ (look _) _ _ _
  unfold look
  rw [Act.wp_bind]
  exact ⟨trivial, hanswer⟩

end

/-! ## Executions -/

/-- The execution of a worker for a gate, on the present patch. -/
structure Ended (host : SandboxHost) (attempt : ImplementationSandboxAttempt)
    (decisionId workerId : String) (execution : SandboxValidationWorkerExecution) : Prop where
  decision : execution.decisionId = decisionId
  worker : execution.workerId = workerId
  patch : execution.patchSha256 = patchSha256 host attempt
  final : execution.status ∈ finalStatuses

/-- The time that is left to a ticket. -/
def remaining (ticket : Governance.Tickets.ProjectTicket) : Int :=
  Governance.Tickets.microseconds ticket.budget.maxWallTimeSeconds - ticket.usage.wallTime

/-- The runner passes the worker on a mirror, within the limits of the worker
and the time that is left. -/
structure RunnerPasses (host : ReviewHost) (attempt : ImplementationSandboxAttempt)
    (decision : SandboxValidationDecision) (spec : ValidationWorkerSpec)
    (ticket : Governance.Tickets.ProjectTicket) (mirror after : Mirror) : Prop where
  mirrored : (mirror.lookup decision.path).isSome = true
  accepted : workerRejection host.toSandboxHost attempt decision spec (workerLimits decision spec)
    (host.resolve spec.executable) = none
  time : 0 < remaining ticket
  result : ∃ drawn result, host.validationRunner drawn
      (workerCommand (host.resolve spec.executable) decision.path spec.arguments)
      { workerLimits decision spec with
        maxWallTime := min (workerLimits decision spec).maxWallTime (remaining ticket) } mirror =
      (.ok result, after) ∧ runnerStatus result = "PASSED"

theorem rejected_final : "REJECTED" ∈ finalStatuses := by decide

theorem rejected_ne_passed : "REJECTED" ≠ "PASSED" := by decide

theorem runnerStatus_final (result : BoundedProcessResult) : runnerStatus result ∈ finalStatuses := by
  unfold runnerStatus
  repeat' split
  all_goals decide

theorem wp_executeWorker (ticketId : String) (attempt : ImplementationSandboxAttempt)
    (decision : SandboxValidationDecision) (spec : ValidationWorkerSpec) (mirror : Mirror)
    (columns : Columns) :
    (executeWorker host ticketId attempt decision spec mirror).wp (freely host.toSandboxHost)
      (fun r columns' world' => columns' = columns ∧ Unmoved world world' ∧ ∀ execution after,
        r = .ok (execution, after) →
          Ended host.toSandboxHost attempt decision.id spec.id execution ∧
          (execution.status = "PASSED" → ∃ ticket,
            ticketOf host.toSandboxHost ticketId world.store = .ok ticket ∧
            RunnerPasses host attempt decision spec ticket mirror after))
      columns world := by
  unfold executeWorker
  refine wp_looking (looks_policy host.toSandboxHost _) (fun policy w hw => ?_)
    fun e w hw => ⟨rfl, hw, fun _ _ h => nomatch h⟩
  refine wp_looking looks_newId (fun drawn w' hw' => ?_)
    fun e w' hw' => ⟨rfl, hw.trans hw', fun _ _ h => nomatch h⟩
  refine Act.wp_check (fun hmirrored => ?_) fun _ => ⟨rfl, hw.trans hw', fun _ _ h => nomatch h⟩
  have hmoved := hw.trans hw'
  split
  · refine ⟨rfl, hmoved, fun execution after h => ?_⟩
    cases h
    exact ⟨⟨rfl, rfl, rfl, rejected_final⟩, fun hpassed => absurd hpassed rejected_ne_passed⟩
  · next haccepted =>
    refine wp_checkBudget (fun ticket w'' hticket _ _ hw'' => ?_)
      fun e w'' hw'' => ⟨rfl, hmoved.trans hw'', fun _ _ h => nomatch h⟩
    have hmoved' := hmoved.trans hw''
    rw [hmoved.ticketOf] at hticket
    dsimp only
    split
    · refine ⟨rfl, hmoved', fun execution after h => ?_⟩
      cases h
      exact ⟨⟨rfl, rfl, rfl, rejected_final⟩, fun hpassed => absurd hpassed rejected_ne_passed⟩
    · next htime =>
      refine Act.wp_result (fun result hresult => ?_) fun e _ => ⟨rfl, hmoved', fun _ _ h => nomatch h⟩
      refine ⟨rfl, hmoved', fun execution after h => ?_⟩
      cases h
      refine ⟨⟨rfl, rfl, rfl, runnerStatus_final result⟩, fun hpassed => ⟨ticket, hticket, ?_⟩⟩
      exact ⟨hmirrored, haccepted, not_le.mp htime, drawn, result, Prod.ext hresult rfl, hpassed⟩

theorem Ended.checkMirror {host : SandboxHost} {attempt : ImplementationSandboxAttempt}
    {decisionId workerId : String} {execution : SandboxValidationWorkerExecution}
    (h : Ended host attempt decisionId workerId execution) (baseline mirror : Mirror) :
    Ended host attempt decisionId workerId (checkMirror execution baseline mirror) := by
  unfold Review.checkMirror
  split
  · exact h
  · exact ⟨h.decision, h.worker, h.patch, rejected_final⟩

theorem checkMirror_passed {execution : SandboxValidationWorkerExecution} {baseline mirror : Mirror}
    (h : (checkMirror execution baseline mirror).status = "PASSED") :
    execution.status = "PASSED" ∧ mirror.isPerm baseline = true := by
  unfold checkMirror at h
  split at h
  · exact ⟨h, ‹_›⟩
  · exact absurd h rejected_ne_passed

/-- The runner passes the worker on the files of the attempt, and leaves them. -/
def Passes (host : ReviewHost) (ticketId : String) (attempt : ImplementationSandboxAttempt)
    (decision : SandboxValidationDecision) (spec : ValidationWorkerSpec) (world : World) : Prop :=
  ∃ ticket project mirror after, ticketOf host.toSandboxHost ticketId world.store = .ok ticket ∧
    projectRow attempt.projectId world.store = .ok project ∧
    buildValidationMirror host.toSandboxHost (host.resolve project.root) attempt world.files =
      .ok mirror ∧
    RunnerPasses host attempt decision spec ticket mirror after ∧ after.isPerm mirror = true

/-- The checks of a call that look at the policy, the budget of the ticket and
the registered files let a worker run. -/
structure Admitted (host : ReviewHost) (ticketId : String) (attempt : ImplementationSandboxAttempt)
    (spec : ValidationWorkerSpec) (world : World) : Prop where
  permitted : ∃ policy ticket, policyInForce host.toSandboxHost attempt.projectId world = .ok policy ∧
    assertWorker policy spec.id = .ok () ∧
    ticketOf host.toSandboxHost ticketId world.store = .ok ticket ∧
    assertBudget policy ticket.budget = .ok () ∧ exhausted ticket = []
  unchanged : ∃ project, projectRow attempt.projectId world.store = .ok project ∧
    manifestOf host.toSandboxHost (host.resolve project.root) (world.store.projectFiles project.id)
      world.files = .ok attempt.initialManifestSha256

/-- What a call leaves that has run a worker. -/
structure Ran (host : ReviewHost) (ticketId : String) (before after : Desk)
    (attempt : ImplementationSandboxAttempt) (decision : SandboxValidationDecision)
    (spec : ValidationWorkerSpec) (execution : SandboxValidationWorkerExecution) : Prop where
  saved : ∃ saved, after.world.store.sandboxes =
      (before.world.store.saveImplementationSandbox saved).sandboxes ∧
    saved.id = attempt.id ∧ saved.ticketId = attempt.ticketId ∧ saved.changes = attempt.changes ∧
    saved.validationDecisions =
      (withDecision attempt (workerDecision spec execution decision)).validationDecisions
  columns : ∀ attemptId, (after.columns attemptId).validationWorkerExecutions =
    (before.columns attemptId).validationWorkerExecutions ++
      if attemptId = attempt.id then [execution] else []
  ended : Ended host.toSandboxHost attempt decision.id spec.id execution
  passes : execution.status = "PASSED" → Passes host ticketId attempt decision spec before.world

/-- What a call comes to that runs a worker on an attempt. -/
def Outcome (host : ReviewHost) (ticketId : String) (before : Desk)
    (attempt : ImplementationSandboxAttempt) (decision : SandboxValidationDecision)
    (spec : ValidationWorkerSpec) (after : Desk) : Prop :=
  Untouched before after ∨ Admitted host ticketId attempt spec before.world ∧
    ∃ execution, Ran host ticketId before after attempt decision spec execution

theorem wp_ticketValidationEvent {attempt : ImplementationSandboxAttempt}
    {artifactId status worker : String} {columns : Columns}
    {Q : Except PyError Unit → Columns → World → Prop}
    (h : ∀ r w, Unmoved world w → Q r columns w) :
    (ticketValidationEvent attempt artifactId status worker).wp (freely host.toSandboxHost) Q columns
      world := by
  unfold ticketValidationEvent
  refine Act.wp_op ⟨trivial, ?_⟩
  dsimp only
  rw [Act.wp_ite]
  split
  · exact h _ _ ⟨rfl, rfl, rfl, rfl, rfl⟩
  · exact ⟨trivial, h _ _ ⟨rfl, rfl, rfl, rfl, rfl⟩⟩

/-- A worker's execution is recorded, and the ticket is charged. -/
theorem wp_recordExecution {ticketId : String} {ticket : Governance.Tickets.ProjectTicket}
    {attempt : ImplementationSandboxAttempt} {decision : SandboxValidationDecision}
    {spec : ValidationWorkerSpec} {execution : SandboxValidationWorkerExecution} {desk : Desk}
    {usage : Int → Governance.Tickets.TicketUsage}
    (hmoved : Unmoved desk.world world)
    (hended : Ended host.toSandboxHost attempt decision.id spec.id execution)
    (hpasses : execution.status = "PASSED" → Passes host ticketId attempt decision spec desk.world)
    (hadmitted : Admitted host ticketId attempt spec desk.world) :
    (do
      let attempt ← recordExecution attempt decision spec execution
      let now ← perfCounter
      saveProjectTicket { ticket with usage := usage now }
      ticketValidationEvent attempt execution.id execution.status spec.name
      return attempt : ReviewAct ImplementationSandboxAttempt).wp (freely host.toSandboxHost)
        (fun _ columns' world' => Outcome host ticketId desk attempt decision spec ⟨columns', world'⟩)
        desk.columns world := by
  refine ⟨trivial, trivial, trivial, ?_⟩
  change Act.wp _ (ticketValidationEvent _ _ _ _ >>= fun _ => pure _)
    (fun _ c w => Outcome host ticketId desk attempt decision spec ⟨c, w⟩) _ _
  rw [Act.wp_bind]
  refine wp_ticketValidationEvent fun r w hw => ?_
  suffices h : Outcome host ticketId desk attempt decision spec ⟨_, w⟩ by
    cases r <;> exact h
  refine Or.inr ⟨hadmitted, execution, ?_, fun attemptId => ?_, hended, hpasses⟩
  · exact ⟨_, hw.sandboxes.trans (hmoved.saved _), rfl, rfl, rfl, rfl⟩
  · change (Function.update desk.columns attempt.id _ attemptId).validationWorkerExecutions = _
    by_cases hid : attemptId = attempt.id
    · subst hid
      rw [Function.update_self, if_pos rfl]
      rfl
    · rw [Function.update_of_ne hid, if_neg hid, List.append_nil]

/-- An attempt belongs to the project of its ticket. -/
theorem attemptOf_ticket {host : SandboxHost} {ticketId attemptId : String} {store : Store}
    {attempt : ImplementationSandboxAttempt}
    (h : attemptOf host ticketId attemptId store = .ok attempt) :
    ∃ ticket, ticketOf host ticketId store = .ok ticket ∧ ticket.projectId = attempt.projectId := by
  unfold attemptOf at h
  split at h
  · cases h
  · obtain ⟨ticket, hticket, h⟩ := Results.bind_ok h
    obtain ⟨project, -, h⟩ := Results.bind_ok h
    dsimp only at h
    split at h
    · cases h
    · next hmatches =>
      refine ⟨ticket, hticket, ?_⟩
      split at h
      · cases h
      · cases h
        exact (not_not.mp (not_or.mp hmatches).2).symm

theorem wp_runWorker (ticketId : String) (attempt : ImplementationSandboxAttempt)
    (decision : SandboxValidationDecision) (spec : ValidationWorkerSpec) (desk : Desk)
    {policy : ProjectGovernancePolicy} {own : Governance.Tickets.ProjectTicket}
    (hmoved : Unmoved desk.world world)
    (hpolicy : policyInForce host.toSandboxHost attempt.projectId desk.world = .ok policy)
    (hpermitted : assertWorker policy spec.id = .ok ())
    (hstored : world.store.policies attempt.projectId = some policy)
    (hown : ticketOf host.toSandboxHost ticketId desk.world.store = .ok own)
    (hproject : own.projectId = attempt.projectId) :
    (runWorker host ticketId attempt decision spec).wp (freely host.toSandboxHost)
      (fun _ columns' world' => Outcome host ticketId desk attempt decision spec ⟨columns', world'⟩)
      desk.columns world := by
  unfold runWorker
  refine wp_checkBudget (fun ticket w₁ hticket hleft hbudget h₁ => ?_)
    fun e w h => Or.inl ⟨(hmoved.trans h).sandboxes, rfl⟩
  rw [hmoved.ticketOf, hown] at hticket
  cases hticket
  have hmoved₁ := (hmoved.trans h₁).trans (unmoved_next host.toSandboxHost w₁)
  refine wp_ask trivial (fun project hrow => ?_) fun e _ => Or.inl ⟨hmoved₁.sandboxes, rfl⟩
  rw [(hmoved.trans h₁).projectRow] at hrow
  refine wp_currentManifest (fun current w₂ hmanifest h₂ => ?_)
    fun e w h => Or.inl ⟨(hmoved₁.trans h).sandboxes, rfl⟩
  rw [hmoved₁.projectFiles, hmoved₁.files] at hmanifest
  have hmoved₂ := hmoved₁.trans h₂
  refine Act.wp_check (fun hcurrent => ?_) fun _ => Or.inl ⟨hmoved₂.sandboxes, rfl⟩
  subst hcurrent
  have hadmitted : Admitted host ticketId attempt spec desk.world :=
    ⟨⟨policy, own, hpolicy, hpermitted, hown, hbudget policy (hproject ▸ hstored), hleft⟩,
      project, hrow, hmanifest⟩
  refine wp_looking looks_perfCounter (fun started w₃ h₃ => ?_)
    fun e w h => Or.inl ⟨(hmoved₂.trans h).sandboxes, rfl⟩
  have hmoved₃ := hmoved₂.trans h₃
  have hmoved₄ := hmoved₃.trans (unmoved_next host.toSandboxHost w₃)
  refine wp_look (fun baseline hbaseline => ?_) fun e _ => Or.inl ⟨hmoved₄.sandboxes, rfl⟩
  rw [hmoved₃.files] at hbaseline
  refine Act.wp_seq (wp_executeWorker ticketId attempt decision spec baseline desk.columns)
    (fun executed columns w₅ h₅ => ?_) fun e columns w h => ?_
  · obtain ⟨execution, mirror⟩ := executed
    obtain ⟨rfl, h₅, hexecuted⟩ := h₅
    obtain ⟨hended, hpasses⟩ := hexecuted execution mirror rfl
    refine wp_recordExecution (hmoved₄.trans h₅) (hended.checkMirror baseline mirror)
      (fun hpassed => ?_) hadmitted
    obtain ⟨hstatus, hperm⟩ := checkMirror_passed hpassed
    obtain ⟨ticket, hticket, hrunner⟩ := hpasses hstatus
    rw [hmoved₄.ticketOf] at hticket
    exact ⟨ticket, project, baseline, mirror, hticket, hrow, hbaseline, hrunner, hperm⟩
  · obtain ⟨rfl, hw, -⟩ := h
    exact Or.inl ⟨(hmoved₄.trans hw).sandboxes, rfl⟩

/-! ## Calls -/

/-- A call of `run_validation_worker`. -/
structure WorkerCall where
  ticketId : String
  attemptId : String
  decisionId : String
  workerId : String

def WorkerCall.call (host : ReviewHost) (c : WorkerCall) (desk : Desk) :
    Except PyError ImplementationSandboxAttempt × Desk :=
  desk.call host (runValidationWorker host c.ticketId c.attemptId c.decisionId c.workerId)

def next (host : ReviewHost) (desk : Desk) (c : WorkerCall) : Desk := (c.call host desk).2

/-- The desk after some calls. -/
def worked (host : ReviewHost) (calls : List WorkerCall) (desk : Desk) : Desk :=
  calls.foldl (next host) desk

/-- A call that comes to run a worker: the attempt waits, the worker is
configured and admitted, and it has not come to an end on the patch. -/
structure Runs (host : ReviewHost) (desk : Desk) (c : WorkerCall)
    (attempt : ImplementationSandboxAttempt) (decision : SandboxValidationDecision)
    (spec : ValidationWorkerSpec) : Prop where
  found : listed c.ticketId c.attemptId desk.world.store = some attempt
  waits : attempt.promotion = none ∧ attempt.status ∈ ["READY_FOR_REVIEW", "FAILED"]
  gate : validationDecision attempt c.decisionId = .ok decision
  worker : configuredWorker host c.workerId = .ok spec
  admitted : Admitted host c.ticketId attempt spec desk.world
  fresh : ∀ item ∈ (desk.columns attempt.id).validationWorkerExecutions,
    isDuplicate decision spec (patchSha256 host.toSandboxHost attempt) item = false

theorem wp_runValidationWorker (c : WorkerCall) (desk : Desk) :
    (runValidationWorker host c.ticketId c.attemptId c.decisionId c.workerId).wp
      (freely host.toSandboxHost) (fun _ columns' world' => Untouched desk ⟨columns', world'⟩ ∨
        ∃ attempt decision spec execution, Runs host desk c attempt decision spec ∧
          Ran host c.ticketId desk ⟨columns', world'⟩ attempt decision spec execution)
      desk.columns desk.world := by
  unfold runValidationWorker
  refine wp_ask trivial (fun attempt hattempt => ?_) fun e _ => Or.inl ⟨rfl, rfl⟩
  refine Act.wp_check (fun hwaits => ?_) fun _ => Or.inl ⟨rfl, rfl⟩
  refine Act.wp_result (fun decision hdecision => ?_) fun e _ => Or.inl ⟨rfl, rfl⟩
  refine Act.wp_result (fun spec hspec => ?_) fun e _ => Or.inl ⟨rfl, rfl⟩
  refine wp_governed (fun policy w hpolicy hw hstored => ?_) fun e w hw => Or.inl ⟨hw.sandboxes, rfl⟩
  refine Act.wp_result (fun _ hpermitted => ?_) fun e _ => Or.inl ⟨hw.sandboxes, rfl⟩
  unfold columnsOf
  rw [Act.wp_bind, Act.wp_bind, Act.wp_get, Act.onOk_ok, Act.wp_pure, Act.onOk_ok, Act.wp_ite]
  split
  · exact Or.inl ⟨hw.sandboxes, rfl⟩
  · next hfresh =>
    obtain ⟨own, hown, hproject⟩ := attemptOf_ticket hattempt
    refine Act.wp_mono (wp_runWorker c.ticketId attempt decision spec desk hw hpolicy hpermitted hstored
      hown hproject) fun r columns' world' h => ?_
    obtain huntouched | ⟨hadmitted, execution, hran⟩ := h
    · exact Or.inl huntouched
    · refine Or.inr ⟨attempt, decision, spec, execution, ?_, hran⟩
      refine ⟨(attemptOf_listed hattempt).1, hwaits, hdecision, hspec, hadmitted, fun item hitem => ?_⟩
      simp only [List.any_eq_true, not_exists, not_and, Bool.not_eq_true] at hfresh
      exact hfresh item hitem

theorem next_spec (host : ReviewHost) (desk : Desk) (c : WorkerCall) :
    Untouched desk (next host desk c) ∨ ∃ attempt decision spec execution,
      Runs host desk c attempt decision spec ∧
        Ran host c.ticketId desk (next host desk c) attempt decision spec execution :=
  Desk.call_of_wp (wp_runValidationWorker c desk)

/-! ## Failures -/

/-- The recorded end of a worker on the present patch, other than a pass. -/
structure Failure (host : SandboxHost) (attempt : ImplementationSandboxAttempt)
    (decisionId workerId : String) (item : SandboxValidationWorkerExecution) : Prop where
  ended : Ended host attempt decisionId workerId item
  failed : item.status ≠ "PASSED"

/-- The worker has failed for the gate on the present patch. -/
def Failed (host : ReviewHost) (ticketId attemptId decisionId workerId : String) (desk : Desk) :
    Prop :=
  ∃ attempt, listed ticketId attemptId desk.world.store = some attempt ∧
    ∃ item ∈ (desk.columns attemptId).validationWorkerExecutions,
      Failure host.toSandboxHost attempt decisionId workerId item

def Passed (ticketId attemptId decisionId : String) (desk : Desk) : Prop :=
  ∃ gate, desk.gate ticketId attemptId decisionId = some gate ∧ gate.status = "PASSED"

/-- The call does not run a worker that its runner passes where another one has
failed for the gate. -/
def Unmasked (host : ReviewHost) (desk : Desk) (c : WorkerCall) : Prop :=
  ∀ attempt decision spec, Runs host desk c attempt decision spec →
    Passes host c.ticketId attempt decision spec desk.world →
    ∀ workerId, workerId ≠ c.workerId →
      ∀ item ∈ (desk.columns attempt.id).validationWorkerExecutions,
        ¬Failure host.toSandboxHost attempt c.decisionId workerId item

theorem configuredWorker_id {workerId : String} {spec : ValidationWorkerSpec}
    (h : configuredWorker host workerId = .ok spec) : spec.id = workerId := by
  unfold configuredWorker at h
  split at h
  · next found hfound =>
    cases h
    obtain ⟨hfind, -⟩ := Option.filter_eq_some_iff.mp hfound
    have hid := List.find?_some hfind
    exact beq_iff_eq.mp hid
  · cases h

theorem validationDecision_id {attempt : ImplementationSandboxAttempt} {decisionId : String}
    {decision : SandboxValidationDecision} (h : validationDecision attempt decisionId = .ok decision) :
    decision.id = decisionId := by
  have hid := List.find?_some (validationDecision_ok h)
  exact beq_iff_eq.mp hid

/-- The failure of a worker keeps it from being run again. -/
theorem Runs.not_failed {desk : Desk} {c : WorkerCall} {attempt : ImplementationSandboxAttempt}
    {decision : SandboxValidationDecision} {spec : ValidationWorkerSpec}
    (h : Runs host desk c attempt decision spec) {item : SandboxValidationWorkerExecution}
    (hitem : item ∈ (desk.columns attempt.id).validationWorkerExecutions) :
    ¬Failure host.toSandboxHost attempt c.decisionId c.workerId item := by
  intro hfailure
  have hduplicate := h.fresh item hitem
  have hended := hfailure.ended
  simp [isDuplicate, hended.decision, hended.worker, hended.patch, validationDecision_id h.gate,
    configuredWorker_id h.worker, hended.final] at hduplicate

theorem listed_save_other {ticketId attemptId : String} {store : Store}
    {saved : ImplementationSandboxAttempt} (h : saved.id ≠ attemptId) :
    listed ticketId attemptId (store.saveImplementationSandbox saved) =
      listed ticketId attemptId store := by
  unfold listed Store.saveImplementationSandbox
  have hsaved : [saved].find? (fun item => item.ticketId == ticketId && item.id == attemptId) =
      none := by
    simp [h]
  rw [List.find?_append, hsaved, Option.or_none, List.find?_filter]
  congr 1
  funext item
  by_cases hid : item.id = attemptId
  · have hother : (item.id != saved.id) = true := by simpa [hid] using Ne.symm h
    rw [hother]
    simp only [true_and, Bool.decide_eq_true]
  · simp [hid]

/-- A row found after a save is the saved one, or was found before. -/
theorem listed_saved {ticketId attemptId : String} {store : Store}
    {saved found : ImplementationSandboxAttempt}
    (h : listed ticketId attemptId (store.saveImplementationSandbox saved) = some found) :
    (found = saved ∧ saved.ticketId = ticketId ∧ saved.id = attemptId) ∨
      (saved.id ≠ attemptId ∧ listed ticketId attemptId store = some found) := by
  by_cases hid : saved.id = attemptId
  · left
    have hfits := List.find?_some h
    simp only [Bool.and_eq_true, beq_iff_eq] at hfits
    have hmem := List.mem_of_find?_eq_some h
    obtain ⟨-, hne⟩ | rfl := Store.mem_saveImplementationSandbox.mp hmem
    · exact absurd (hfits.2.trans hid.symm) hne
    · exact ⟨rfl, hfits.1, hfits.2⟩
  · exact Or.inr ⟨hid, by rwa [listed_save_other hid] at h⟩

theorem find?_modify_other {p q : α → Bool} {xs : List α} {y : α} (hpq : ∀ x, p x = true → q x = false)
    (hy : q y = false) : (xs.modify (xs.findIdx p) fun _ => y).find? q = xs.find? q := by
  induction xs with
  | nil => rfl
  | cons x xs ih =>
    by_cases hx : p x = true
    · simp [List.findIdx_cons, hx, hy, hpq x hx]
    · simp [List.findIdx_cons, hx, List.find?_cons, ih]

/-- The gates of an attempt that a worker has not been run for. -/
theorem find?_withDecision_other {attempt : ImplementationSandboxAttempt}
    {decision : SandboxValidationDecision} {decisionId : String} (h : decision.id ≠ decisionId) :
    (withDecision attempt decision).validationDecisions.find? (·.id == decisionId) =
      attempt.validationDecisions.find? (·.id == decisionId) := by
  refine find?_modify_other (fun item hitem => ?_) (by simpa using h)
  rw [beq_iff_eq.mp hitem]
  simpa using h

section
variable {desk after : Desk} {c : WorkerCall} {attempt saved : ImplementationSandboxAttempt}
  {decision : SandboxValidationDecision} {spec : ValidationWorkerSpec}
  {execution : SandboxValidationWorkerExecution} {ticketId attemptId decisionId workerId : String}

theorem Failure.transfer {item : SandboxValidationWorkerExecution}
    (h : Failure host.toSandboxHost attempt decisionId workerId item)
    (hchanges : saved.changes = attempt.changes) :
    Failure host.toSandboxHost saved decisionId workerId item := by
  refine ⟨⟨h.ended.decision, h.ended.worker, ?_, h.ended.final⟩, h.failed⟩
  rw [h.ended.patch]
  unfold patchSha256
  rw [hchanges]

/-- Executions stay recorded. -/
theorem executions_next {item : SandboxValidationWorkerExecution}
    (h : item ∈ (desk.columns attemptId).validationWorkerExecutions) :
    item ∈ ((next host desk c).columns attemptId).validationWorkerExecutions := by
  obtain huntouched | ⟨attempt, decision, spec, execution, -, hran⟩ := next_spec host desk c
  · rw [huntouched.columns]
    exact h
  · rw [hran.columns]
    exact List.mem_append_left _ h

/-- A row after a call: the row before it, or that of the worker's gate. -/
theorem listed_next {found : ImplementationSandboxAttempt}
    (hfound : listed ticketId attemptId (next host desk c).world.store = some found) :
    listed ticketId attemptId desk.world.store = some found ∨
    ∃ attempt decision spec execution, listed ticketId attemptId desk.world.store = some attempt ∧
      attempt.id = attemptId ∧ Runs host desk c attempt decision spec ∧
      Ran host c.ticketId desk (next host desk c) attempt decision spec execution ∧
      found.changes = attempt.changes ∧ found.validationDecisions =
        (withDecision attempt (workerDecision spec execution decision)).validationDecisions := by
  obtain huntouched | ⟨attempt, decision, spec, execution, hruns, hran⟩ := next_spec host desk c
  · left
    unfold listed at hfound ⊢
    rwa [huntouched.sandboxes] at hfound
  · obtain ⟨saved, hsandboxes, hid, hticket, hchanges, hdecisions⟩ := hran.saved
    have hsaved : listed ticketId attemptId (desk.world.store.saveImplementationSandbox saved) =
        some found := by
      unfold listed at hfound ⊢
      rwa [hsandboxes] at hfound
    obtain ⟨rfl, hT, hA⟩ | ⟨-, hold⟩ := listed_saved hsaved
    · right
      have hfits := List.find?_some hruns.found
      simp only [Bool.and_eq_true, beq_iff_eq] at hfits
      refine ⟨attempt, decision, spec, execution, ?_, hid.symm.trans hA, hruns, hran, hchanges,
        hdecisions⟩
      rw [← hT, ← hA, hid, hticket, hfits.1, hfits.2]
      exact hruns.found
    · exact Or.inl hold

/-- Calls do not create attempts. -/
theorem listed_none (calls : List WorkerCall)
    (h : listed ticketId attemptId desk.world.store = none) :
    listed ticketId attemptId (calls.foldl (next host) desk).world.store = none := by
  refine keeps (I := fun d : Desk => listed ticketId attemptId d.world.store = none) calls
    (fun d c hd => ?_) h
  cases hfound : listed ticketId attemptId (next host d c).world.store with
  | none => rfl
  | some found =>
    obtain hsame | ⟨_, _, _, _, hbefore, -⟩ := listed_next hfound
    · exact absurd (hd.symm.trans hsame) (by simp)
    · exact absurd (hd.symm.trans hbefore) (by simp)

/-- A failure stays recorded, as long as the attempt is stored. -/
theorem Failed.next (h : Failed host ticketId attemptId decisionId workerId desk)
    {found : ImplementationSandboxAttempt}
    (hfound : listed ticketId attemptId (next host desk c).world.store = some found) :
    Failed host ticketId attemptId decisionId workerId (next host desk c) := by
  obtain ⟨attempt, hlisted, item, hitem, hfailure⟩ := h
  refine ⟨found, hfound, item, executions_next hitem, ?_⟩
  obtain hsame | ⟨attempt', _, _, _, hbefore, -, -, -, hchanges, -⟩ := listed_next hfound
  · cases Option.some.inj (hlisted.symm.trans hsame)
    exact hfailure
  · cases Option.some.inj (hlisted.symm.trans hbefore)
    exact hfailure.transfer hchanges

/-- A call does not make a gate pass that a worker has failed for. -/
theorem passed_next (h : Failed host ticketId attemptId decisionId workerId desk)
    (hc : Unmasked host desk c) (hpassed : Passed ticketId attemptId decisionId (next host desk c)) :
    Passed ticketId attemptId decisionId desk := by
  obtain ⟨gate, hgate, hstatus⟩ := hpassed
  unfold Desk.gate at hgate
  obtain ⟨found, hfound, hgate⟩ := Option.bind_eq_some_iff.mp hgate
  obtain ⟨attempt, hlisted, item, hitem, hfailure⟩ := h
  obtain hsame | ⟨attempt', decision, spec, execution, hbefore, hid, hruns, hran, -, hdecisions⟩ :=
    listed_next hfound
  · refine ⟨gate, ?_, hstatus⟩
    unfold Desk.gate
    rw [hsame]
    exact hgate
  · cases Option.some.inj (hlisted.symm.trans hbefore)
    rw [hdecisions] at hgate
    by_cases hgated : c.decisionId = decisionId
    · exfalso
      subst hgated
      have hown : (withDecision attempt (workerDecision spec execution decision)).validationDecisions.find?
          (·.id == c.decisionId) = some (workerDecision spec execution decision) :=
        find?_withDecision hruns.gate rfl
      rw [hown] at hgate
      cases hgate
      have hpass : execution.status = "PASSED" := by
        by_contra hother
        simp [workerDecision, hother] at hstatus
      rw [← hid] at hitem
      by_cases hworker : workerId = c.workerId
      · subst hworker
        exact hruns.not_failed hitem hfailure
      · exact hc attempt decision spec hruns (hran.passes hpass) workerId hworker item hitem hfailure
    · have hother : (workerDecision spec execution decision).id ≠ decisionId := by
        rw [show (workerDecision spec execution decision).id = decision.id from rfl,
          validationDecision_id hruns.gate]
        exact hgated
      rw [find?_withDecision_other hother] at hgate
      refine ⟨gate, ?_, hstatus⟩
      unfold Desk.gate
      rw [hlisted]
      exact hgate

/-- The call has recorded an execution that did not pass. -/
def Fails (host : ReviewHost) (desk : Desk) (c : WorkerCall) : Prop :=
  ∃ item ∈ ((next host desk c).columns c.attemptId).validationWorkerExecutions.drop
    (desk.columns c.attemptId).validationWorkerExecutions.length, item.status ≠ "PASSED"

/-- A call that fails leaves its failure, and the gate unmet. -/
theorem Fails.failed (h : Fails host desk c) :
    Failed host c.ticketId c.attemptId c.decisionId c.workerId (next host desk c) ∧
      ¬Passed c.ticketId c.attemptId c.decisionId (next host desk c) := by
  obtain ⟨item, hitem, hfailed⟩ := h
  obtain huntouched | ⟨attempt, decision, spec, execution, hruns, hran⟩ := next_spec host desk c
  · rw [huntouched.columns, List.drop_length] at hitem
    cases hitem
  · have hfits := List.find?_some hruns.found
    simp only [Bool.and_eq_true, beq_iff_eq] at hfits
    rw [hran.columns, List.drop_left, if_pos hfits.2.symm, List.mem_singleton] at hitem
    subst hitem
    obtain ⟨saved, hsandboxes, hid, hticket, hchanges, hdecisions⟩ := hran.saved
    have hrow : listed c.ticketId c.attemptId (next host desk c).world.store = some saved := by
      unfold listed
      rw [hsandboxes]
      exact listed_save (hticket.trans hfits.1) (hid.trans hfits.2)
    have hended := hran.ended
    rw [validationDecision_id hruns.gate, configuredWorker_id hruns.worker] at hended
    constructor
    · refine ⟨saved, hrow, item, ?_, Failure.transfer ⟨hended, hfailed⟩ hchanges⟩
      rw [hran.columns, if_pos hfits.2.symm]
      exact List.mem_append_right _ List.mem_cons_self
    · rintro ⟨gate, hgate, hstatus⟩
      have hown : (withDecision attempt (workerDecision spec item decision)).validationDecisions.find?
          (·.id == c.decisionId) = some (workerDecision spec item decision) :=
        find?_withDecision hruns.gate rfl
      unfold Desk.gate at hgate
      rw [hrow, Option.bind_some, hdecisions, hown] at hgate
      cases hgate
      simp [workerDecision, hfailed] at hstatus

theorem passed_later (later : List WorkerCall) (desk : Desk)
    (hfailed : Failed host ticketId attemptId decisionId workerId desk)
    (hlater : Along (Unmasked host) (next host) desk later)
    (hpassed : Passed ticketId attemptId decisionId (later.foldl (next host) desk)) :
    Passed ticketId attemptId decisionId desk := by
  induction later generalizing desk with
  | nil => exact hpassed
  | cons c later ih =>
    obtain ⟨hc, hrest⟩ := hlater
    cases hfound : listed ticketId attemptId (next host desk c).world.store with
    | none =>
      obtain ⟨gate, hgate, -⟩ := hpassed
      have hnone : listed ticketId attemptId (later.foldl (next host) (next host desk c)).world.store =
          none := listed_none later hfound
      unfold Desk.gate at hgate
      rw [List.foldl_cons, hnone] at hgate
      cases hgate
    | some found => exact passed_next hfailed hc (ih _ (hfailed.next hfound) hrest hpassed)

/-- **A failing worker is not masked by calls that run no passing worker over
its failure**: on the patch it has failed on, no later call makes the gate pass. -/
theorem failure_not_masked (host : ReviewHost) (start : Desk) (earlier later : List WorkerCall)
    (ticketId attemptId decisionId workerId : String)
    (hfailed : Failed host ticketId attemptId decisionId workerId (worked host earlier start))
    (hunmet : ¬Passed ticketId attemptId decisionId (worked host earlier start))
    (hlater : Along (Unmasked host) (next host) (worked host earlier start) later) :
    ¬Passed ticketId attemptId decisionId (worked host (earlier ++ later) start) := by
  intro hpassed
  refine hunmet (passed_later later (worked host earlier start) hfailed hlater ?_)
  unfold worked at hpassed ⊢
  rwa [List.foldl_append] at hpassed

/-- After a call that fails, no call makes the gate pass. -/
theorem failing_call_lasts (host : ReviewHost) (start : Desk) (earlier later : List WorkerCall)
    (c : WorkerCall) (hfails : Fails host (worked host earlier start) c)
    (hlater : Along (Unmasked host) (next host) (worked host (earlier ++ [c]) start) later) :
    ¬Passed c.ticketId c.attemptId c.decisionId (worked host (earlier ++ [c] ++ later) start) := by
  have hafter : worked host (earlier ++ [c]) start = next host (worked host earlier start) c := by
    simp [worked]
  obtain ⟨hfailed, hunmet⟩ := hfails.failed
  rw [← hafter] at hfailed hunmet
  intro hpassed
  refine hunmet (passed_later later (worked host (earlier ++ [c]) start) hfailed hlater ?_)
  unfold worked at hpassed ⊢
  rwa [List.foldl_append] at hpassed

end

end

/-! ## A syntax check after a failed test -/

def builtinLimits (processes memory : Nat) : ValidationWorkerLimits where
  maxProcesses := processes
  maxMemoryBytes := memory
  allowedArtifactKinds := ["PYTHON"]
  allowedExecutables := ["python"]

def pytestWorker : ValidationWorkerSpec where
  id := "BUILTIN-PYTHON-PYTEST"
  name := "Bounded Python pytest"
  categories := ["PYTHON_TEST"]
  artifactKinds := ["PYTHON"]
  executable := "python"
  arguments := ["-m", "pytest", "{path}", "-q", "-p", "no:cacheprovider"]
  limits := builtinLimits 4 (512 * 1024 * 1024)
  authorizationReason := "Targeted pytest within the approved sandbox path slice."

def syntaxWorker : ValidationWorkerSpec where
  id := "BUILTIN-PYTHON-SYNTAX"
  name := "Bounded Python syntax validation"
  categories := ["PYTHON_TEST"]
  artifactKinds := ["PYTHON"]
  executable := "python"
  arguments := ["-c", "import pathlib,sys; compile(pathlib.Path(sys.argv[1]).read_bytes(), sys.argv[1], 'exec')",
    "{path}"]
  limits := builtinLimits 2 (256 * 1024 * 1024)
  authorizationReason := "Syntax-only Python validation within one approved path."

/-- The built-in workers, on a file whose tests fail. -/
def failingTests : ReviewHost := { quietHost with
  sha256 := fun _ => "digest"
  validationWorkers := [pytestWorker, syntaxWorker]
  validationRunner := fun _ command _ mirror =>
    (.ok ⟨if command.contains "pytest" then 1 else 0, "measured", none⟩, mirror) }

def testGate : SandboxValidationDecision where
  id := "gate"
  path := "tests/test_app.py"
  artifactKind := "PYTHON"
  category := "PYTHON_TEST"
  requirement := "Run the indexed targeted Python test under the ticket wall-time budget."
  status := "REQUIRED"

def testedAttempt : ImplementationSandboxAttempt := { reviewAttempt with
  authorizedPaths := ["tests/test_app.py"]
  changes := [{
    path := "tests/test_app.py"
    beforeHash := "before"
    afterHash := "after"
    afterContent := some "def test_app(): assert False" }]
  validationDecisions := [testGate]
  initialManifestSha256 := "digest" }

def testedDesk : Desk where
  columns := fun _ => {}
  world := { unrestored with
    store := { reviewDesk.world.store with
      sandboxes := [testedAttempt]
      projectFiles := fun _ => ["tests/test_app.py"] }
    files := fun path => if path = "root/tests/test_app.py" then some ⟨[], 420⟩ else none }

def runPytest : WorkerCall := ⟨"ticket", "attempt", "gate", "BUILTIN-PYTHON-PYTEST"⟩

def runSyntax : WorkerCall := ⟨"ticket", "attempt", "gate", "BUILTIN-PYTHON-SYNTAX"⟩

theorem pytest_fails : Fails failingTests testedDesk runPytest := by
  have hfails : (((next failingTests testedDesk runPytest).columns "attempt").validationWorkerExecutions.drop
      (testedDesk.columns "attempt").validationWorkerExecutions.length).any (·.status != "PASSED") := by
    decide +kernel
  obtain ⟨item, hitem, hstatus⟩ := List.any_eq_true.mp hfails
  exact ⟨item, hitem, by simpa using hstatus⟩

theorem pytest_again (desk : Desk)
    (h : Failed failingTests "ticket" "attempt" "gate" "BUILTIN-PYTHON-PYTEST" desk) :
    Unmasked failingTests desk runPytest := by
  obtain ⟨attempt, hlisted, item, hitem, hfailure⟩ := h
  intro attempt' decision spec hruns
  cases Option.some.inj (hlisted.symm.trans hruns.found)
  rw [← (listed_some hlisted).2] at hitem
  exact absurd hfailure (hruns.not_failed hitem)

/-- The failed tests are asked for again. -/
theorem failure_not_masked_again :
    ¬Passed "ticket" "attempt" "gate" (worked failingTests [runPytest, runPytest] testedDesk) :=
  failure_not_masked failingTests testedDesk [runPytest] [runPytest] "ticket" "attempt" "gate"
    "BUILTIN-PYTHON-PYTEST" pytest_fails.failed.1 pytest_fails.failed.2
    ⟨pytest_again _ pytest_fails.failed.1, trivial⟩

/-- The syntax check makes the gate pass whose tests have failed. -/
theorem failure_is_masked :
    ¬∀ (host : ReviewHost) (start : Desk) (earlier : List WorkerCall) (c : WorkerCall)
      (workerId : String), workerId ≠ c.workerId →
        Failed host c.ticketId c.attemptId c.decisionId workerId (worked host earlier start) →
        ¬Passed c.ticketId c.attemptId c.decisionId (worked host earlier start) →
          ¬Passed c.ticketId c.attemptId c.decisionId (worked host (earlier ++ [c]) start) := by
  intro hkept
  have hpassed : ((worked failingTests [runPytest, runSyntax] testedDesk).gate "ticket" "attempt"
      "gate").any (·.status == "PASSED") := by decide +kernel
  obtain ⟨gate, hgate, hstatus⟩ := (Option.any_eq_true _ _).mp hpassed
  exact hkept failingTests testedDesk [runPytest] runSyntax "BUILTIN-PYTHON-PYTEST" (by decide)
    pytest_fails.failed.1 pytest_fails.failed.2 ⟨gate, hgate, beq_iff_eq.mp hstatus⟩

end RlmGraph.Sandbox.Workers
