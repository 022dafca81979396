import RlmGraph.Lib.Updates
import RlmGraph.Tickets.Justified

/-! # Calls on one ticket at the same time

Several calls work on one ticket, step by step and in any order. A call of the
sandbox loads the ticket when it checks the budget and saves it with its charge
when it ends; a call of the manager loads it and saves it once or twice. Each
save writes the whole ticket as the call holds it. -/
namespace RlmGraph.Tickets.Updates
open RlmGraph.Lib RlmGraph.Lib.JsonText RlmGraph.Lib.PyText RlmGraph.Lib.Rows RlmGraph.Lib.Updates
open RlmGraph.Governance.Policy
open RlmGraph.Governance.Tickets (TicketUsage)
open RlmGraph.Sandbox.Operations (SandboxHost assertBudget exhausted)
open RlmGraph.Tickets.Evidence RlmGraph.Tickets.Manager
open RlmGraph.Tickets.Eligibility (reviewedTicket)
open RlmGraph.Tickets.Justified (registered plainSurroundings)

/-! ## Changes of a ticket -/

def charge (usage more : TicketUsage) : TicketUsage where
  tokens := usage.tokens + more.tokens
  modelCalls := usage.modelCalls + more.modelCalls
  workerCalls := usage.workerCalls + more.workerCalls
  wallTime := usage.wallTime + more.wallTime
  deepestBranch := max usage.deepestBranch more.deepestBranch

/-- What a call records in the ticket. -/
inductive Change where
  | decided (decision : TicketClosureDecision)
  | statusSet (status : String)
  | resolved (now status : String) (req : CriterionRequest)
      (assessments : List TicketEvidenceAssessment)
  | charged (usage : TicketUsage)

def Change.apply : Change → TicketRecord → TicketRecord
  | .decided decision, ticket => { ticket with
      closureDecisions := ticket.closureDecisions ++ [decision]
      acceptanceCriteria := withAssessments decision.criterionGates ticket.acceptanceCriteria }
  | .statusSet status, ticket => { ticket with status := status }
  | .resolved now status req assessments, ticket => { ticket with
      acceptanceCriteria := changeFirst (·.id == req.criterionId)
        (resolvedCriterion now status req assessments) ticket.acceptanceCriteria }
  | .charged usage, ticket => { ticket with usage := charge ticket.usage usage }

@[simp] theorem Change.apply_id (change : Change) (ticket : TicketRecord) :
    (change.apply ticket).id = ticket.id := by
  cases change <;> rfl

/-! ## Calls -/

/-- A call on the ticket, by what it asks. -/
inductive Call where
  | promote
  | runValidationWorker
  | recoverPromotion
  | attachSandboxAttempt (attempt : SandboxEvidence)
  | transition (status actor reason : String)
  | resolveCriterion (criterionId status : String) (evidenceIds : List String) (reason actor : String)
  | approvePlan (planRecordId actor detail : String)

/-- How far a call is, with the ticket it holds. -/
inductive Phase where
  | called
  | loaded (ticket : TicketRecord)
  | decided (ticket : TicketRecord)
  | returned (result : Except PyError Unit)

def Phase.ticket : Phase → Option TicketRecord
  | .loaded ticket | .decided ticket => some ticket
  | _ => none

/-- What a step finds around the store. -/
structure Moment where
  env : Surroundings
  now : String
  /-- The time that a call of the sandbox has measured. -/
  elapsed : Int
  /-- What a call of the sandbox raises before it charges the ticket. -/
  fault : Option PyError
  /-- Names a policy that is drawn up. -/
  policyId : String

/-- What a step does with the ticket. -/
inductive Contact where
  | loads
  | saves (change : Change)
  | none

/-- The step of a call: where it is then, what it did with the ticket, and the
store it leaves. -/
structure Step where
  phase : Phase
  contact : Contact
  store : TicketStore

def raises (e : PyError) (store : TicketStore) : Step := ⟨.returned (.error e), .none, store⟩

/-- `check_budget`. -/
def checkBudget (host : SandboxHost) (policyId ticketId : String) (store : TicketStore) :
    Outcome TicketRecord :=
  match getTicket host store ticketId with
  | .error e => .raised e store
  | .ok ticket =>
    let (policy, policies) :=
      policyOf host.toGovernanceHost store.projects policyId ticket.projectId store.policies
    let store := { store with policies := policies }
    match policy.bind fun policy => assertBudget policy ticket.budget with
    | .error e => .raised e store
    | .ok () =>
      if exhausted ticket.toProjectTicket = [] then (.ok ticket, store)
      else .raised (.runtime ("Ticket compute budget exhausted: " ++
        ", ".intercalate (exhausted ticket.toProjectTicket))) store

/-- A call goes on with the ticket it has loaded, unless loading raised. -/
def loading : Outcome TicketRecord → Step
  | (.error e, store) => raises e store
  | (.ok ticket, store) => ⟨.loaded ticket, .loads, store⟩

/-- The first step of a call. -/
def Call.load (moment : Moment) (ticketId : String) (store : TicketStore) : Call → Step
  | .promote | .runValidationWorker | .recoverPromotion =>
    loading (checkBudget moment.env.host moment.policyId ticketId store)
  | .attachSandboxAttempt _ | .transition .. | .resolveCriterion .. =>
    loading (getTicket moment.env.host store ticketId, store)
  | .approvePlan planRecordId actor detail =>
    ⟨.returned (.ok ()), .none, Manager.approvePlan ticketId planRecordId actor detail store⟩

/-- The charge with which a call of the sandbox ends. -/
def endSandboxCall (moment : Moment) (workerCalls : Nat) (ticket : TicketRecord)
    (store : TicketStore) : Step :=
  match moment.fault with
  | some e => raises e store
  | none =>
    let change := Change.charged ⟨0, 0, workerCalls, moment.elapsed, 0⟩
    ⟨.returned (.ok ()), .saves change, saveProjectTicket store (change.apply ticket)⟩

/-- The last steps of a transition. -/
def endTransition (status reason actor : String) (ticket : TicketRecord) (store : TicketStore) : Step :=
  ⟨.returned (.ok ()), .saves (.statusSet status), (setStatus status reason actor ticket store).2⟩

/-- The closure decision, kept if it is new. -/
def decideClosure (moment : Moment) (ticket : TicketRecord) (status actor reason : String)
    (store : TicketStore) : Step :=
  if strip actor = "" ∨ strip reason = "" then
    raises (.value "Ticket closure requires an actor and explicit reason.") store
  else
    match closureDecision moment.env store ticket status actor reason with
    | .error e => raises e store
    | .ok decision =>
      match persistClosureDecision ticket decision store with
      | (created, ticket, store) =>
        let contact := if created then Contact.saves (.decided decision) else .none
        if decision.allowed = false then
          ⟨.returned (.error (.value (s!"Ticket cannot be {status}: " ++
            "; ".intercalate decision.failures))), contact, store⟩
        else if created = false ∧ ticket.status = status then ⟨.returned (.ok ()), contact, store⟩
        else ⟨.decided ticket, contact, store⟩

/-- `transition`, with the ticket at hand. -/
def proceedTransition (moment : Moment) (ticket : TicketRecord) (status actor reason : String)
    (store : TicketStore) : Step :=
  if ticketStatuses.contains status = false then
    raises (.value s!"Unknown ticket status: {status}") store
  else if closing.contains status = true then decideClosure moment ticket status actor reason store
  else endTransition status reason actor ticket store

/-- `resolve_criterion`, with the ticket at hand. -/
def proceedResolution (moment : Moment) (ticket : TicketRecord) (req : CriterionRequest)
    (store : TicketStore) : Step :=
  match ticket.acceptanceCriteria.find? (·.id == req.criterionId) with
  | none => raises (.value s!"Acceptance criterion not found: {req.criterionId}") store
  | some criterion =>
    let status := upper moment.env.host.text req.status
    match checkCriterionRequest moment.env store ticket status req with
    | .error e => raises e store
    | .ok assessments =>
      let change := Change.resolved moment.now status req assessments
      ⟨.returned (.ok ()), .saves change, event ticket.id "CRITERION_RESOLVED"
        (strip s!"{criterion.description} → {status}. {req.reason}") req.actor req.evidenceIds
        (saveProjectTicket store (change.apply ticket))⟩

/-- `attach_sandbox_attempt`, with the ticket at hand. -/
def proceedAttachment (moment : Moment) (ticket : TicketRecord) (attempt : SandboxEvidence)
    (store : TicketStore) : Step :=
  match checkAttachedAttempt moment.env.host ticket attempt with
  | .error e => raises e store
  | .ok () =>
    let change := Change.charged ⟨0, attempt.modelCalls, attempt.workerCalls, attempt.elapsedSeconds, 0⟩
    let store := { store with sandboxes := replaceRow (·.id) attempt store.sandboxes }
    ⟨.returned (.ok ()), .saves change, event ticket.id "SANDBOX_ATTEMPT_ATTACHED"
      s!"Sandbox {attempt.id} finished as {attempt.status} with {attempt.changes.length} reviewable changes."
      "Observer sandbox" [attempt.id, attempt.planRecordId]
      (saveProjectTicket store (change.apply ticket))⟩

/-- The step of a call that has loaded the ticket. -/
def Call.proceed (moment : Moment) (ticketId : String) (ticket : TicketRecord) (store : TicketStore) :
    Call → Step
  | .promote | .recoverPromotion => endSandboxCall moment 0 ticket store
  | .runValidationWorker => endSandboxCall moment 1 ticket store
  | .attachSandboxAttempt attempt => proceedAttachment moment ticket attempt store
  | .transition status actor reason =>
    proceedTransition moment ticket (upper moment.env.host.text status) actor reason store
  | .resolveCriterion criterionId status evidenceIds reason actor =>
    proceedResolution moment ticket ⟨ticketId, criterionId, status, evidenceIds, reason, actor⟩ store
  | .approvePlan .. => ⟨.returned (.ok ()), .none, store⟩

/-- The step of a call that has decided on a closure. -/
def Call.conclude (moment : Moment) (ticket : TicketRecord) (store : TicketStore) : Call → Step
  | .transition status actor reason =>
    endTransition (upper moment.env.host.text status) reason actor ticket store
  | _ => ⟨.returned (.ok ()), .none, store⟩

/-- The next step of a call. -/
def Call.step (call : Call) (moment : Moment) (ticketId : String) (store : TicketStore) :
    Phase → Step
  | .called => call.load moment ticketId store
  | .loaded ticket => call.proceed moment ticketId ticket store
  | .decided ticket => call.conclude moment ticket store
  | .returned result => ⟨.returned result, .none, store⟩

/-! ### The calls of the manager, step by step -/

/-- A call that nobody interrupts. -/
def Call.alone (call : Call) (moment : Moment) (ticketId : String) : Nat → Phase → TicketStore → Step
  | 0, phase, store => ⟨phase, .none, store⟩
  | steps + 1, phase, store =>
    let step := call.step moment ticketId store phase
    call.alone moment ticketId steps step.phase step.store

/-- What a step has come to when it is the last of its call. -/
def returning {α : Type} (outcome : Outcome α) : Step :=
  ⟨.returned (outcome.1.map fun _ => ()), .none, outcome.2⟩

@[simp] theorem Call.alone_returned (call : Call) (moment : Moment) (ticketId : String) (steps : Nat)
    (result : Except PyError Unit) (store : TicketStore) :
    call.alone moment ticketId steps (.returned result) store = ⟨.returned result, .none, store⟩ := by
  induction steps with
  | zero => rfl
  | succ steps ih => exact ih

theorem closeTicket_alone (moment : Moment) (ticketId status actor reason : String)
    (ticket : TicketRecord) (store : TicketStore) :
    let step := decideClosure moment ticket (upper moment.env.host.text status) actor reason store
    (Call.transition status actor reason).alone moment ticketId 1 step.phase step.store =
      returning (closeTicket moment.env ticket (upper moment.env.host.text status) actor reason
        store) := by
  intro step
  simp only [step, decideClosure, closeTicket]
  by_cases hblank : strip actor = "" ∨ strip reason = ""
  · simp [hblank, raises, returning, Outcome.raised, Except.map]
  · rw [if_neg hblank, if_neg hblank]
    cases closureDecision moment.env store ticket (upper moment.env.host.text status) actor reason with
    | error e => rfl
    | ok decision =>
      rcases hpersist : persistClosureDecision ticket decision store with ⟨created, kept, left⟩
      simp only [hpersist]
      by_cases hallowed : decision.allowed = false
      · simp [hallowed, returning, Outcome.raised, Except.map]
      · rw [if_neg hallowed, if_neg hallowed]
        by_cases hdone : created = false ∧ kept.status = upper moment.env.host.text status
        · rw [if_pos hdone, if_pos hdone]
          simp [returning, Except.map]
        · rw [if_neg hdone, if_neg hdone]
          rfl

/-- **The steps are those of the manager**: uninterrupted, they make up
`transition`. -/
theorem transition_alone (moment : Moment) (ticketId status actor reason : String)
    (store : TicketStore) :
    (Call.transition status actor reason).alone moment ticketId 3 .called store =
      returning (transition moment.env ticketId status actor reason store) := by
  have hload : (Call.transition status actor reason).load moment ticketId store =
      loading (getTicket moment.env.host store ticketId, store) := rfl
  unfold transition
  rw [Call.alone, Call.step, hload]
  cases getTicket moment.env.host store ticketId with
  | error e => simp [loading, raises, returning, Outcome.raised, Except.map]
  | ok ticket =>
    show Call.alone _ moment ticketId 2 (.loaded ticket) store = _
    rw [Call.alone, Call.step, Call.proceed]
    simp only [proceedTransition, transitionTo]
    by_cases hknown : ticketStatuses.contains (upper moment.env.host.text status) = false
    · rw [if_pos hknown, if_pos hknown]
      simp [raises, returning, Outcome.raised, Except.map]
    · rw [if_neg hknown, if_neg hknown]
      by_cases hclosing : closing.contains (upper moment.env.host.text status) = true
      · rw [if_pos hclosing, if_pos hclosing]
        exact closeTicket_alone moment ticketId status actor reason ticket store
      · rw [if_neg hclosing, if_neg hclosing]
        rfl

/-- Uninterrupted, they make up `resolve_criterion`. -/
theorem resolveCriterion_alone (moment : Moment)
    (ticketId criterionId status : String) (evidenceIds : List String) (reason actor : String)
    (store : TicketStore) :
    (Call.resolveCriterion criterionId status evidenceIds reason actor).alone moment ticketId 2
        .called store =
      returning (resolveCriterion moment.env moment.now
        ⟨ticketId, criterionId, status, evidenceIds, reason, actor⟩ store) := by
  have hload : (Call.resolveCriterion criterionId status evidenceIds reason actor).load moment
      ticketId store = loading (getTicket moment.env.host store ticketId, store) := rfl
  unfold resolveCriterion
  rw [Call.alone, Call.step, hload]
  cases getTicket moment.env.host store ticketId with
  | error e => simp [loading, raises, returning, Outcome.raised, Except.map]
  | ok ticket =>
    show Call.alone _ moment ticketId 1 (.loaded ticket) store = _
    rw [Call.alone, Call.step, Call.proceed]
    simp only [proceedResolution]
    cases hfind : ticket.acceptanceCriteria.find? (·.id == criterionId) with
    | none => simp [raises, returning, Outcome.raised, Except.map]
    | some criterion =>
      simp only
      cases checkCriterionRequest moment.env store ticket (upper moment.env.host.text status)
          ⟨ticketId, criterionId, status, evidenceIds, reason, actor⟩ with
      | error e => rfl
      | ok assessments => rfl

/-! ## Interleavings -/

def row (ticketId : String) (store : TicketStore) : Option TicketRecord :=
  store.tickets.find? (·.id == ticketId)

section
variable {ι : Type} [DecidableEq ι]

/-- The store, and how far each call is. -/
structure Site (ι : Type) where
  store : TicketStore
  phases : ι → Phase

def Site.start (store : TicketStore) : Site ι := ⟨store, fun _ => .called⟩

/-- A call takes its next step, or something else happens to the store that
leaves the ticket. -/
inductive Turn (ι : Type) where
  | call (who : ι) (moment : Moment)
  | elsewhere (store : TicketStore)

/-- The calls on a ticket. -/
structure Calls (ι : Type) where
  ticketId : String
  call : ι → Call

def Calls.step (calls : Calls ι) (site : Site ι) (who : ι) (moment : Moment) : Step :=
  (calls.call who).step moment calls.ticketId site.store (site.phases who)

def Calls.next (calls : Calls ι) (site : Site ι) : Turn ι → Site ι
  | .call who moment =>
    let step := calls.step site who moment
    ⟨step.store, Function.update site.phases who step.phase⟩
  | .elsewhere store =>
    if row calls.ticketId store = row calls.ticketId site.store then ⟨store, site.phases⟩ else site

def Calls.after (calls : Calls ι) (site : Site ι) (turns : List (Turn ι)) : Site ι :=
  turns.foldl calls.next site

def Contact.access (who : ι) : Contact → List (Access ι Change)
  | .loads => [.load who]
  | .saves change => [.save who change]
  | .none => []

/-- What a turn does with the ticket. -/
def Calls.access (calls : Calls ι) (site : Site ι) : Turn ι → List (Access ι Change)
  | .call who moment => (calls.step site who moment).contact.access who
  | .elsewhere _ => []

/-- The loads and saves of the ticket, in their order. -/
def Calls.accesses (calls : Calls ι) : Site ι → List (Turn ι) → List (Access ι Change)
  | _, [] => []
  | site, turn :: turns => calls.access site turn ++ calls.accesses (calls.next site turn) turns

end

/-! ## What a step does with the ticket -/

/-- A step of a call, by its contact with the ticket. -/
structure Sound (ticketId : String) (held : Option TicketRecord) (store : TicketStore) (step : Step) :
    Prop where
  none : step.contact = .none → row ticketId step.store = row ticketId store ∧
    ∀ t, step.phase.ticket = some t → held = some t
  loads : step.contact = .loads → row ticketId step.store = row ticketId store ∧
    ∀ t, step.phase.ticket = some t → row ticketId store = some t
  saves : ∀ change, step.contact = .saves change → ∃ t, held = some t ∧
    row ticketId step.store = some (change.apply t) ∧
    ∀ t', step.phase.ticket = some t' → t' = change.apply t

section
variable {ticketId : String} {held : Option TicketRecord} {store left : TicketStore}

theorem sound_quiet {phase : Phase} (hrow : row ticketId left = row ticketId store)
    (hphase : ∀ t, phase.ticket = some t → held = some t) :
    Sound ticketId held store ⟨phase, .none, left⟩ where
  none _ := ⟨hrow, hphase⟩
  loads h := by cases h
  saves change h := by cases h

theorem sound_raises (e : PyError) : Sound ticketId held store (raises e store) :=
  sound_quiet rfl fun t h => by cases h

theorem row_event (id kind detail actor : String) (artifactIds : List String) :
    row ticketId (event id kind detail actor artifactIds store) = row ticketId store := rfl

theorem row_saved {ticket : TicketRecord} (hid : ticket.id = ticketId) :
    row ticketId (saveProjectTicket store ticket) = some ticket := by
  subst hid
  exact find?_replaceRow_self

/-- A save of the ticket that is held. -/
theorem sound_saves {phase : Phase} {ticket : TicketRecord} {change : Change}
    (hrow : row ticketId left = some (change.apply ticket))
    (hphase : ∀ t, phase.ticket = some t → t = change.apply ticket) :
    Sound ticketId (some ticket) store ⟨phase, .saves change, left⟩ where
  none h := by cases h
  loads h := by cases h
  saves other h := by
    cases h
    exact ⟨ticket, rfl, hrow, hphase⟩

theorem getTicket_row {host : SandboxHost} {ticket : TicketRecord}
    (h : getTicket host store ticketId = .ok ticket) : row ticketId store = some ticket := by
  unfold getTicket at h
  cases hfind : store.tickets.find? (·.id == ticketId) with
  | none =>
    rw [hfind] at h
    cases h
  | some found =>
    rw [hfind] at h
    simp only [Except.map] at h
    split at h
    · cases h
    · cases h
      exact hfind

theorem row_checkBudget {host : SandboxHost} {policyId : String} :
    row ticketId (checkBudget host policyId ticketId store).2 = row ticketId store ∧
      ∀ ticket, (checkBudget host policyId ticketId store).1 = .ok ticket →
        row ticketId store = some ticket := by
  unfold checkBudget
  cases hget : getTicket host store ticketId with
  | error e => exact ⟨rfl, fun ticket h => by cases h⟩
  | ok ticket =>
    simp only
    split
    · exact ⟨rfl, fun ticket h => by cases h⟩
    · split
      · refine ⟨rfl, fun found h => ?_⟩
        cases h
        exact getTicket_row hget
      · exact ⟨rfl, fun ticket h => by cases h⟩

theorem sound_loading {outcome : Outcome TicketRecord}
    (hrow : row ticketId outcome.2 = row ticketId store)
    (hticket : ∀ ticket, outcome.1 = .ok ticket → row ticketId store = some ticket) :
    Sound ticketId held store (loading outcome) := by
  obtain ⟨result, left⟩ := outcome
  cases result with
  | error e => exact sound_quiet hrow fun t h => by cases h
  | ok ticket =>
    have hcopy : ∀ t, (Phase.loaded ticket).ticket = some t → row ticketId store = some t := by
      intro t ht
      cases ht
      exact hticket ticket rfl
    exact {
      none := fun h => by cases h
      loads := fun _ => ⟨hrow, hcopy⟩
      saves := fun change h => by cases h }

theorem sound_load (call : Call) (moment : Moment) :
    Sound ticketId held store (call.load moment ticketId store) := by
  have hget : Sound ticketId held store (loading (getTicket moment.env.host store ticketId, store)) :=
    sound_loading rfl fun ticket h => getTicket_row h
  have hbudget : Sound ticketId held store
      (loading (checkBudget moment.env.host moment.policyId ticketId store)) :=
    sound_loading row_checkBudget.1 row_checkBudget.2
  cases call with
  | promote => exact hbudget
  | runValidationWorker => exact hbudget
  | recoverPromotion => exact hbudget
  | attachSandboxAttempt attempt => exact hget
  | transition status actor reason => exact hget
  | resolveCriterion criterionId status evidenceIds reason actor => exact hget
  | approvePlan planRecordId actor detail => exact sound_quiet rfl fun t h => by cases h

variable {ticket : TicketRecord}

theorem sound_endSandboxCall (hid : ticket.id = ticketId) (moment : Moment) (workerCalls : Nat) :
    Sound ticketId (some ticket) store (endSandboxCall moment workerCalls ticket store) := by
  unfold endSandboxCall
  cases moment.fault with
  | some e => exact sound_raises e
  | none => exact sound_saves (row_saved hid) fun t h => by cases h

theorem sound_endTransition (hid : ticket.id = ticketId) (status reason actor : String) :
    Sound ticketId (some ticket) store (endTransition status reason actor ticket store) :=
  sound_saves (row_saved hid) fun t h => by cases h

theorem sound_decideClosure (hid : ticket.id = ticketId) (moment : Moment)
    (status actor reason : String) :
    Sound ticketId (some ticket) store (decideClosure moment ticket status actor reason store) := by
  unfold decideClosure
  by_cases hblank : strip actor = "" ∨ strip reason = ""
  · rw [if_pos hblank]
    exact sound_raises _
  · rw [if_neg hblank]
    cases closureDecision moment.env store ticket status actor reason with
    | error e => exact sound_raises e
    | ok decision =>
      by_cases hknown : ticket.closureDecisions.any (·.fingerprint == decision.fingerprint) = true
      · have hpersist : persistClosureDecision ticket decision store = (false, ticket, store) := by
          simp [persistClosureDecision, hknown]
        simp only [hpersist]
        split
        · exact sound_quiet rfl fun t h => by cases h
        · split
          · exact sound_quiet rfl fun t h => by cases h
          · exact sound_quiet rfl fun t h => h
      · obtain ⟨kind, detail, artifactIds, hpersist⟩ : ∃ kind detail artifactIds,
            persistClosureDecision ticket decision store =
              (true, (Change.decided decision).apply ticket,
                event ticket.id kind detail decision.actor artifactIds
                  (saveProjectTicket store ((Change.decided decision).apply ticket))) := by
          unfold persistClosureDecision
          rw [if_neg hknown]
          exact ⟨_, _, _, rfl⟩
        have hrow : row ticketId (event ticket.id kind detail decision.actor artifactIds
            (saveProjectTicket store ((Change.decided decision).apply ticket))) =
              some ((Change.decided decision).apply ticket) := row_saved hid
        simp only [hpersist]
        split
        · exact sound_saves hrow fun t h => by cases h
        · split
          · exact sound_saves hrow fun t h => by cases h
          · exact sound_saves hrow fun t h => (Option.some.inj h).symm

theorem sound_proceedTransition (hid : ticket.id = ticketId) (moment : Moment)
    (status actor reason : String) :
    Sound ticketId (some ticket) store (proceedTransition moment ticket status actor reason store) := by
  unfold proceedTransition
  split
  · exact sound_raises _
  · split
    · exact sound_decideClosure hid moment status actor reason
    · exact sound_endTransition hid status reason actor

theorem sound_proceedResolution (hid : ticket.id = ticketId) (moment : Moment)
    (req : CriterionRequest) :
    Sound ticketId (some ticket) store (proceedResolution moment ticket req store) := by
  unfold proceedResolution
  split
  · exact sound_raises _
  · simp only
    split
    · exact sound_raises _
    · exact sound_saves (row_saved hid) fun t h => by cases h

theorem sound_proceedAttachment (hid : ticket.id = ticketId) (moment : Moment)
    (attempt : SandboxEvidence) :
    Sound ticketId (some ticket) store (proceedAttachment moment ticket attempt store) := by
  unfold proceedAttachment
  split
  · exact sound_raises _
  · exact sound_saves (row_saved hid) fun t h => by cases h

theorem sound_proceed (hid : ticket.id = ticketId) (call : Call) (moment : Moment) :
    Sound ticketId (some ticket) store (call.proceed moment ticketId ticket store) := by
  cases call with
  | promote => exact sound_endSandboxCall hid moment 0
  | runValidationWorker => exact sound_endSandboxCall hid moment 1
  | recoverPromotion => exact sound_endSandboxCall hid moment 0
  | attachSandboxAttempt attempt => exact sound_proceedAttachment hid moment attempt
  | transition status actor reason => exact sound_proceedTransition hid moment _ actor reason
  | resolveCriterion criterionId status evidenceIds reason actor =>
    exact sound_proceedResolution hid moment _
  | approvePlan planRecordId actor detail => exact sound_quiet rfl fun t h => by cases h

theorem sound_conclude (hid : ticket.id = ticketId) (call : Call) (moment : Moment) :
    Sound ticketId (some ticket) store (call.conclude moment ticket store) := by
  cases call with
  | transition status actor reason => exact sound_endTransition hid _ reason actor
  | _ => exact sound_quiet rfl fun t h => by cases h

/-- **What a step does**: it leaves the row, loads it, or saves what the call
holds with one change. -/
theorem sound_step (call : Call) (moment : Moment) (phase : Phase)
    (hid : ∀ t, phase.ticket = some t → t.id = ticketId) :
    Sound ticketId phase.ticket store (call.step moment ticketId store phase) := by
  cases phase with
  | called => exact sound_load call moment
  | loaded ticket => exact sound_proceed (hid ticket rfl) call moment
  | decided ticket => exact sound_conclude (hid ticket rfl) call moment
  | returned result => exact sound_quiet rfl fun t h => by cases h

end

/-! ## No update is lost -/

section
variable {ι : Type} [DecidableEq ι] {calls : Calls ι} {site : Site ι} {shared : Shared ι TicketRecord}

/-- The ticket is the shared value, and the calls hold the copies. -/
structure Simulates (calls : Calls ι) (site : Site ι) (shared : Shared ι TicketRecord) : Prop where
  row : row calls.ticketId site.store = some shared.value
  id : shared.value.id = calls.ticketId
  held : ∀ who t, (site.phases who).ticket = some t → shared.held who = some t ∧ t.id = calls.ticketId

theorem simulates_next (h : Simulates calls site shared) (turn : Turn ι) :
    Simulates calls (calls.next site turn) (shared.after Change.apply (calls.access site turn)) := by
  cases turn with
  | elsewhere store =>
    show Simulates calls (calls.next site (.elsewhere store)) shared
    unfold Calls.next
    by_cases hrow : row calls.ticketId store = row calls.ticketId site.store
    · simp only [hrow, if_true]
      exact ⟨hrow.trans h.row, h.id, h.held⟩
    · simp only [hrow, if_false]
      exact h
  | call who moment =>
    have hsound : Sound calls.ticketId (site.phases who).ticket site.store
        (calls.step site who moment) :=
      sound_step (calls.call who) moment (site.phases who) fun t ht => (h.held who t ht).2
    have hother : ∀ x t, x ≠ who →
        ((calls.next site (.call who moment)).phases x).ticket = some t →
          shared.held x = some t ∧ t.id = calls.ticketId := by
      intro x t hne hx
      refine h.held x t ?_
      simpa [Calls.next, hne] using hx
    have hself : ∀ t, ((calls.next site (.call who moment)).phases who).ticket = some t →
        (calls.step site who moment).phase.ticket = some t := by
      intro t ht
      simpa [Calls.next] using ht
    show Simulates calls _ (shared.after Change.apply ((calls.step site who moment).contact.access who))
    cases hcontact : (calls.step site who moment).contact with
    | none =>
      obtain ⟨hrow, hphase⟩ := hsound.none hcontact
      refine ⟨hrow.trans h.row, h.id, fun x t hx => ?_⟩
      by_cases hwho : x = who
      · subst hwho
        exact h.held x t (hphase t (hself t hx))
      · exact hother x t hwho hx
    | loads =>
      obtain ⟨hrow, hphase⟩ := hsound.loads hcontact
      refine ⟨hrow.trans h.row, h.id, fun x t hx => ?_⟩
      by_cases hwho : x = who
      · subst hwho
        have hvalue := h.row.symm.trans (hphase t (hself t hx))
        rw [Option.some.injEq] at hvalue
        subst hvalue
        simp [Contact.access, Shared.after, Shared.next, h.id]
      · simpa [Contact.access, Shared.after, Shared.next, hwho] using hother x t hwho hx
    | saves change =>
      obtain ⟨ticket, hheld, hrow, hphase⟩ := hsound.saves change hcontact
      obtain ⟨hcopy, hid⟩ := h.held who ticket hheld
      have hvalue : (shared.after Change.apply (Contact.access who (.saves change))).value =
          change.apply ticket := by
        simp [Contact.access, Shared.after, Shared.next, hcopy]
      refine ⟨?_, ?_, fun x t hx => ?_⟩
      · rw [hvalue]
        exact hrow
      · rw [hvalue, Change.apply_id, hid]
      · by_cases hwho : x = who
        · subst hwho
          rw [hphase t (hself t hx), Change.apply_id]
          simp [Contact.access, Shared.after, Shared.next, hcopy, hid]
        · simpa [Contact.access, Shared.after, Shared.next, hwho] using hother x t hwho hx

theorem simulates_after (h : Simulates calls site shared) (turns : List (Turn ι)) :
    Simulates calls (calls.after site turns)
      (shared.after Change.apply (calls.accesses site turns)) := by
  induction turns generalizing site shared with
  | nil => exact h
  | cons turn turns ih =>
    rw [Calls.accesses, Shared.after_append]
    exact ih (simulates_next h turn)

/-- **No lost update.** If no other call saves the ticket between the load and a
save of a call, the ticket holds every change that was saved, in the order of
the saves. -/
theorem updates_kept {store : TicketStore} {ticket : TicketRecord} {turns : List (Turn ι)}
    (hrow : row calls.ticketId store = some ticket)
    (hapart : Apart (calls.accesses (Site.start store) turns)) :
    row calls.ticketId (calls.after (Site.start store) turns).store =
      some (inOrder Change.apply (saved (calls.accesses (Site.start store) turns)) ticket) := by
  have hid : ticket.id = calls.ticketId := by
    simpa using List.find?_some hrow
  have hstart : Simulates calls (Site.start store) (Shared.start ticket) :=
    ⟨hrow, hid, fun who t h => by cases h⟩
  rw [(simulates_after hstart turns).row, value_of_apart hapart]

end

/-! ### A worker and a change of status -/

def draftStore : TicketStore := { registered with tickets := [reviewedTicket] }

def quietMoment : Moment := ⟨plainSurroundings, "now", 5, none, "policy"⟩

def workerAndStatus : Calls Bool where
  ticketId := "ticket"
  call worker := if worker then .runValidationWorker else .transition "ACTIVE" "u" "r"

def turnsOf (order : List Bool) : List (Turn Bool) := order.map fun who => .call who quietMoment

theorem updates_kept_one_by_one :
    row "ticket" (workerAndStatus.after (Site.start draftStore)
        (turnsOf [true, true, false, false])).store =
      some (inOrder Change.apply [.charged ⟨0, 0, 1, 5, 0⟩, .statusSet "ACTIVE"] reviewedTicket) := by
  have haccesses : workerAndStatus.accesses (Site.start draftStore)
      (turnsOf [true, true, false, false]) =
        [.load true, .save true (.charged ⟨0, 0, 1, 5, 0⟩), .load false,
          .save false (.statusSet "ACTIVE")] := rfl
  have hapart : Apart (workerAndStatus.accesses (Site.start draftStore)
      (turnsOf [true, true, false, false])) := by
    rw [haccesses]
    intro who other between change hsub
    simp [List.sublist_cons_iff] at hsub
    grind
  have hrow : row workerAndStatus.ticketId draftStore = some reviewedTicket := rfl
  exact (updates_kept hrow hapart).trans (by rw [haccesses]; rfl)

/-- **A status undone.** The worker loads the ticket, the status changes, and
the worker saves the ticket with the old status. Both calls return. -/
theorem status_undone :
    row "ticket" draftStore = some reviewedTicket ∧
    ((workerAndStatus.after (Site.start draftStore) (turnsOf [true, false, false, true])).phases true =
      .returned (.ok ())) ∧
    ((workerAndStatus.after (Site.start draftStore) (turnsOf [true, false, false, true])).phases false =
      .returned (.ok ())) ∧
    (row "ticket" (workerAndStatus.after (Site.start draftStore)
      (turnsOf [true, false, false, true])).store).map (·.status) = some "DRAFT" ∧
    row "ticket" (workerAndStatus.after (Site.start draftStore)
        (turnsOf [true, false, false, true])).store ≠
      some (inOrder Change.apply (saved (workerAndStatus.accesses (Site.start draftStore)
        (turnsOf [true, false, false, true]))) reviewedTicket) := by
  have hdraft : (row "ticket" (workerAndStatus.after (Site.start draftStore)
      (turnsOf [true, false, false, true])).store).map (·.status) = some "DRAFT" := by
    decide
  have hactive : (some (inOrder Change.apply (saved (workerAndStatus.accesses (Site.start draftStore)
      (turnsOf [true, false, false, true]))) reviewedTicket)).map (·.status) = some "ACTIVE" := by
    decide
  refine ⟨rfl, rfl, rfl, hdraft, ?_⟩
  intro h
  rw [h, hactive] at hdraft
  simp at hdraft

end RlmGraph.Tickets.Updates
