import Mathlib.Data.Fintype.EquivFin
import RlmGraph.Tickets.Conversation
import RlmGraph.Tickets.Updates

/-! # Start requests that are repeated

A new ticket keeps the objective of its request with single blanks, and its
title only the first 180 characters of it. No operation changes these texts
afterwards. So a request that is repeated finds the ticket it created exactly if
one of them, or the identifier, still is the objective (`repeated_start_iff`). -/
namespace RlmGraph.Tickets.RepeatedStart
open RlmGraph.Lib RlmGraph.Lib.PyText RlmGraph.Lib.Results RlmGraph.Lib.Rows
open RlmGraph.Governance.Policy hiding candidates
open RlmGraph.Sandbox.Operations (SandboxHost assertBudget)
open RlmGraph.Tickets.Evidence RlmGraph.Tickets.Eligibility RlmGraph.Tickets.Manager RlmGraph.Tickets.Justified
open RlmGraph.Tickets.Updates (getTicket_row)
open RlmGraph.Tickets.Requests RlmGraph.Tickets.Conversation

/-! ## Texts that stay -/

/-- What a request finds a ticket by. -/
structure Texts where
  id : String
  projectId : String
  title : String
  description : String

def texts (ticket : TicketRecord) : Texts :=
  ⟨ticket.id, ticket.projectId, ticket.title, ticket.description⟩

/-- Every ticket of the second store stems from one of the first, and keeps its
texts. -/
abbrev Kept (store store' : TicketStore) : Prop :=
  Revised (·.id) texts store.tickets store'.tickets

variable {env : Surroundings} {host : SandboxHost} {store store' : TicketStore}
  {ticket ticket' : TicketRecord} {ticketId : String}

theorem kept_of_eq (h : store'.tickets = store.tickets) : Kept store store' := by
  unfold Kept
  rw [h]
  exact .refl

theorem kept_save {old : TicketRecord} (new : TicketRecord)
    (hrow : store.tickets.find? (·.id == new.id) = some old) (htexts : texts new = texts old) : Kept store (saveProjectTicket store new) :=
  Revised.refl.save hrow htexts

theorem getTicket_find (h : getTicket host store ticketId = .ok ticket) :
    store.tickets.find? (·.id == ticket.id) = some ticket := by
  obtain ⟨-, rfl⟩ := getTicket_ok h
  exact getTicket_row h

section
variable (hrow : store.tickets.find? (·.id == ticket.id) = some ticket)
include hrow

theorem kept_setStatus (status reason actor : String) :
    Kept store (setStatus status reason actor ticket store).2 :=
  kept_save { ticket with status := status } hrow rfl

theorem kept_persist {decision : TicketClosureDecision} {created : Bool}
    (h : persistClosureDecision ticket decision store = (created, ticket', store')) :
    Kept store store' ∧ store'.tickets.find? (·.id == ticket'.id) = some ticket' := by
  unfold persistClosureDecision at h
  split at h
  · cases h
    exact ⟨.refl, hrow⟩
  · cases h
    exact ⟨kept_save _ hrow rfl, find?_replaceRow_self⟩

theorem kept_closeTicket (status actor reason : String) :
    Kept store (closeTicket env ticket status actor reason store).2 := by
  unfold closeTicket
  split
  · exact .refl
  · split
    · exact .refl
    · split
      rename_i created ticket' store' hpersist
      obtain ⟨hkept, hrow'⟩ := kept_persist hrow hpersist
      split
      · exact hkept
      · split
        · exact hkept
        · exact hkept.trans (kept_setStatus hrow' status reason actor)

theorem kept_charge (usage : RlmGraph.Governance.Tickets.TicketUsage)
    (htickets : store'.tickets = store.tickets) :
    Kept store (saveProjectTicket store' { ticket with usage := usage }) := by
  have hrow' : store'.tickets.find? (·.id == ticket.id) = some ticket := by rw [htickets, hrow]
  have hsaved : Kept store' (saveProjectTicket store' { ticket with usage := usage }) :=
    kept_save _ hrow' rfl
  exact (kept_of_eq htickets).trans hsaved

end

theorem kept_transition (ticketId status actor reason : String) :
    Kept store (transition env ticketId status actor reason store).2 := by
  unfold transition
  split
  · exact .refl
  · rename_i ticket hget
    have hrow := getTicket_find hget
    unfold transitionTo
    split
    · exact .refl
    · split
      · exact kept_closeTicket hrow _ actor reason
      · exact kept_setStatus hrow _ reason actor

theorem kept_resolveCriterion (now : String) (req : CriterionRequest) :
    Kept store (resolveCriterion env now req store).2 := by
  unfold resolveCriterion
  split
  · exact .refl
  · rename_i ticket hget
    have hrow := getTicket_find hget
    split
    · exact .refl
    · simp only
      split
      · exact .refl
      · exact kept_save _ hrow rfl

theorem kept_recordValidation (resultId : String) (req : ValidationRequest) :
    Kept store (recordValidation env resultId req store).2 := by
  unfold recordValidation
  split
  · exact .refl
  · simp only
    split
    · exact .refl
    · split <;> exact .refl

theorem kept_attachSandboxAttempt (ticketId : String) (attempt : SandboxEvidence) :
    Kept store (attachSandboxAttempt host ticketId attempt store).2 := by
  unfold attachSandboxAttempt
  split
  · exact .refl
  · rename_i ticket hget
    split
    · exact .refl
    · exact kept_charge (getTicket_find hget) _ rfl

theorem kept_attachWorkspaceRecord (ticketId : String) (record : ProjectWorkspaceRecord) :
    Kept store (attachWorkspaceRecord host ticketId record store).2 := by
  unfold attachWorkspaceRecord
  split
  · exact .refl
  · rename_i ticket hget
    split
    · exact .refl
    · split
      · exact .refl
      · exact kept_charge (getTicket_find hget) _ rfl

/-! ## New tickets -/

/-- A ticket that is created is saved with the texts of its request. -/
structure Created (req : TicketRequest) (ticketId : String) (store store' : TicketStore)
    (ticket : TicketRecord) : Prop where
  texts : texts ticket = ⟨ticketId, req.projectId, squeeze req.title, squeeze req.description⟩
  tickets : store'.tickets = replaceRow (·.id) ticket store.tickets
  projects : store'.projects = store.projects
  executionMode : store'.executionMode = store.executionMode

theorem project_of_check {req : TicketRequest} {currentClaims : List String → Except PyError Unit}
    {project : ProjectRecord} (h : checkTicketRequest host store req currentClaims = .ok project) :
    project.id = req.projectId := by
  unfold checkTicketRequest at h
  obtain ⟨-, h⟩ := ite_throw_bind_ok h
  obtain ⟨-, h⟩ := ite_throw_bind_ok h
  obtain ⟨-, h⟩ := ite_throw_bind_ok h
  obtain ⟨-, h⟩ := ite_throw_bind_ok h
  obtain ⟨found, hfound, h⟩ := bind_ok h
  obtain ⟨-, h⟩ := ite_throw_bind_ok h
  obtain ⟨-, -, h⟩ := bind_ok h
  obtain ⟨-, h⟩ := ite_throw_bind_ok h
  obtain rfl := Except.ok.inj h
  cases hrow : store.projects.find? (·.id == req.projectId) with
  | none => simp [hrow] at hfound
  | some row =>
    have hid : row.id = req.projectId := by simpa using List.find?_some hrow
    rw [hrow, Option.filter_some] at hfound
    split at hfound
    · cases hfound
      exact hid
    · cases hfound

theorem created_of_create {req : TicketRequest} {policyId : String} {criterionId : Nat → String}
    {currentClaims : List String → Except PyError Unit}
    (h : create host req ticketId policyId criterionId currentClaims store = (.ok ticket, store')) :
    Created req ticketId store store' ticket := by
  unfold create at h
  split at h
  · cases h
  · rename_i project hproject
    simp only at h
    split at h
    · cases h
    · cases h
      exact ⟨by rw [← project_of_check hproject]; rfl, rfl, rfl, rfl⟩

theorem tickets_of_failed {req : TicketRequest} {policyId : String} {criterionId : Nat → String}
    {currentClaims : List String → Except PyError Unit} {e : PyError}
    (h : create host req ticketId policyId criterionId currentClaims store = (.error e, store')) :
    store'.tickets = store.tickets := by
  unfold create at h
  split at h
  · cases h
    rfl
  · simp only at h
    split at h
    · cases h
      rfl
    · cases h

theorem id_of_governed {host : GovernanceHost} {projects : List ProjectRecord} {projectId : String}
    {project : ProjectRecord} (h : governedProject host projects projectId = .ok project) :
    project.id = projectId := by
  unfold governedProject at h
  split at h
  · cases h
  · rename_i found hfind
    have hfound : found.id = projectId := by simpa using List.find?_some hfind
    split at h
    · cases h
    · split at h
      · cases h
      · split at h
        · cases h
        · cases h
          exact hfound

/-- A project keeps the policy that was made for it. -/
theorem policyOf_again {projects : List ProjectRecord} {newId projectId : String}
    {policies policies' : PolicyTable} {policy : ProjectGovernancePolicy}
    (h : policyOf host.toGovernanceHost projects newId projectId policies = (.ok policy, policies')) :
    policyOf host.toGovernanceHost projects newId projectId policies' = (.ok policy, policies') := by
  unfold policyOf at h ⊢
  split at h
  · cases h
  · rename_i project hgoverned
    split at h
    · rename_i existing hexisting
      split at h
      · cases h
      · rename_i hvalid
        cases h
        simp only [hexisting, hvalid]
    · cases h
      obtain rfl := id_of_governed hgoverned
      simp only [Function.update_self]
      rw [validateBinding, if_neg]
      simp [GovernanceHost.canonicalRoot, host.resolve_idem]

/-- What the creation of a ticket looks at besides the tickets. -/
structure SameRules (store store' : TicketStore) : Prop where
  projects : store'.projects = store.projects
  executionMode : store'.executionMode = store.executionMode
  policies : store'.policies = store.policies

/-- What a conversation asks for is created again under the same rules. -/
theorem created_again {objective actor policyId : String} {project : ProjectRecord}
    {criterionId : Nat → String} {currentClaims : List String → Except PyError Unit}
    (h : create host (ticketRequest objective actor project) ticketId policyId criterionId
      currentClaims store = (.ok ticket, store')) {store'' : TicketStore}
    (hrules : SameRules store' store'') (ticketId' : String) :
    ∃ again left, create host (ticketRequest objective actor project) ticketId' policyId criterionId
      currentClaims store'' = (.ok again, left) := by
  have hcreated := created_of_create h
  have hcheck : checkTicketRequest host store'' (ticketRequest objective actor project) currentClaims =
      checkTicketRequest host store (ticketRequest objective actor project) currentClaims := by
    unfold checkTicketRequest
    rw [hrules.projects, hrules.executionMode, hcreated.projects, hcreated.executionMode]
    rfl
  unfold create at h ⊢
  rw [hcheck]
  split at h
  · cases h
  · rename_i found hfound
    rcases hpolicy : policyOf host.toGovernanceHost store.projects policyId found.id store.policies with
      ⟨result, policies'⟩
    rw [hpolicy] at h
    simp only at h
    split at h
    · cases h
    · rename_i hbudget
      cases result with
      | error e => cases hbudget
      | ok policy =>
        cases h
        have hagain : policyOf host.toGovernanceHost store''.projects policyId found.id store''.policies =
            (.ok policy, policies') := by
          rw [hrules.projects, hrules.policies]
          exact policyOf_again hpolicy
        change assertBudget policy (ticketRequest objective actor project).budget = .ok () at hbudget
        simp only [hagain, Except.bind, hbudget]
        exact ⟨_, _, rfl⟩

/-! ## Later worlds -/

/-- A ticket that an operation creates has a new identifier. -/
def NewIdentifier (store : TicketStore) : Operation → Prop
  | .create _ ticketId _ _ _ => ticketId ∉ store.tickets.map (·.id)
  | _ => True

/-- What may become of a world: operations of the ticket manager, and anything
that saves no ticket. -/
inductive Later (w : World) : World → Prop
  | refl : Later w w
  | operation {w' : World} (env : Surroundings) (op : Operation) (h : Later w w')
      (hnew : NewIdentifier w'.store op) : Later w { w' with store := after env op w'.store }
  | elsewhere {w' w'' : World} (h : Later w w') (htickets : w''.store.tickets = w'.store.tickets) :
      Later w w''

theorem kept_after {op : Operation} (h : ∀ req id policyId criterionId currentClaims,
    op ≠ .create req id policyId criterionId currentClaims) : Kept store (after env op store) := by
  cases op with
  | create req id policyId criterionId currentClaims => exact absurd rfl (h _ _ _ _ _)
  | transition id status actor reason => exact kept_transition id status actor reason
  | resolveCriterion now req => exact kept_resolveCriterion now req
  | recordValidation resultId req => exact kept_recordValidation resultId req
  | approvePlan id planRecordId actor detail => exact .refl
  | attachSandboxAttempt id attempt => exact kept_attachSandboxAttempt id attempt
  | attachWorkspaceRecord id record => exact kept_attachWorkspaceRecord id record

/-- A new ticket stands beside the old ones. -/
theorem find_of_created {req : TicketRequest} {k : String} (h : Created req ticketId store store' ticket)
    (hnew : ticketId ∉ store.tickets.map (·.id)) {old : TicketRecord}
    (hold : store.tickets.find? (·.id == k) = some old) :
    store'.tickets.find? (·.id == k) = some old := by
  have hid : ticket.id = ticketId := congrArg Texts.id h.texts
  have hk : k ≠ ticket.id := by
    rintro rfl
    have hsame : old.id = ticket.id := by simpa using List.find?_some hold
    exact hnew (hid ▸ hsame ▸ List.mem_map_of_mem (List.mem_of_find?_eq_some hold))
  have hother : (replaceRow (fun t : TicketRecord => t.id) ticket store.tickets).find?
      (·.id == k) = store.tickets.find? (·.id == k) := find?_replaceRow_other hk
  rw [h.tickets, hother, hold]

/-- **One operation** leaves a ticket its texts. -/
theorem found_after (env : Surroundings) {op : Operation} (hnew : NewIdentifier store op) {k : String}
    (h : store.tickets.find? (·.id == k) = some ticket) :
    ∃ t, (after env op store).tickets.find? (·.id == k) = some t ∧ texts t = texts ticket := by
  cases op with
  | create req id policyId criterionId currentClaims =>
    rcases hcreate : create env.host req id policyId criterionId currentClaims store with
      ⟨result, store'⟩
    have hafter : after env (.create req id policyId criterionId currentClaims) store = store' := by
      rw [after, hcreate]
    rw [hafter]
    cases result with
    | error e => exact ⟨ticket, by rw [tickets_of_failed hcreate, h], rfl⟩
    | ok created => exact ⟨ticket, find_of_created (created_of_create hcreate) hnew h, rfl⟩
  | _ => exact (kept_after (by rintro _ _ _ _ _ ⟨⟩)).find? h

/-- **A ticket keeps its texts** in every later world. -/
theorem Later.found {w w' : World} (h : Later w w') {k : String}
    (hrow : w.store.tickets.find? (·.id == k) = some ticket) :
    ∃ t, w'.store.tickets.find? (·.id == k) = some t ∧ texts t = texts ticket := by
  induction h with
  | refl => exact ⟨ticket, hrow, rfl⟩
  | operation env op _ hnew ih =>
    obtain ⟨t, ht, htexts⟩ := ih
    obtain ⟨t', ht', htexts'⟩ := found_after env hnew ht
    exact ⟨t', ht', htexts'.trans htexts⟩
  | elsewhere _ htickets ih =>
    rw [htickets]
    exact ih

/-! ## What a request finds -/

variable {w w' w'' : World} {m m' : Moment} {work work' : Work} {project : ProjectRecord}
  {message actor : String}

theorem kept_moveTicket (ticketId status actor reason : String) :
    Kept w.store (moveTicket env ticketId status actor reason w).2.store :=
  kept_transition ticketId status actor reason

theorem kept_starter {α : Type} (starter : Starter α) (request : α) :
    Kept w.store (starter.start request w).2.store :=
  kept_of_eq (starter.tickets request w)

theorem kept_then {first : Except PyError Unit × World} {next : World → Except PyError Unit × World}
    (h : Kept w.store first.2.store) (hnext : ∀ w', Kept w'.store (next w').2.store) :
    Kept w.store (match first with
      | (.error e, w') => (.error e, w')
      | (.ok (), w') => next w' : Except PyError Unit × World).2.store := by
  obtain ⟨result, w'⟩ := first
  cases result with
  | error e => exact h
  | ok _ => exact h.trans (hnext w')

theorem kept_startSteps (host : SandboxHost) (m : Moment) (project : ProjectRecord)
    (message actor : String) (ticket : TicketRecord) (w : World) :
    Kept w.store (startSteps host m project message actor ticket w).2.store := by
  unfold startSteps
  simp only
  split
  · refine kept_then ?_ fun w' => kept_starter _ _
    split
    · exact kept_moveTicket _ _ _ _
    · exact .refl
  · exact kept_then (kept_starter _ _) fun w' => kept_moveTicket _ _ _ _

/-- **A ticket that is started** creates none, and the reply is about it. -/
theorem startTicket_spec (host : SandboxHost) (m : Moment) (project : ProjectRecord)
    (message actor : String) (ticket : TicketRecord) (w : World) :
    Kept w.store (startTicket host m project message actor ticket w).2.store ∧
      ∀ answer, (startTicket host m project message actor ticket w).1 = .ok answer →
        ∃ text, answer = reply text (some ticket) := by
  have hkept := kept_startSteps host m project message actor ticket w
  unfold startTicket
  split
  · rename_i w' hsteps
    rw [hsteps] at hkept
    refine ⟨hkept, fun answer h => ?_⟩
    cases h
    exact ⟨_, rfl⟩
  · rename_i e w' hsteps
    rw [hsteps] at hkept
    split
    · refine ⟨hkept, fun answer h => ?_⟩
      cases h
      exact ⟨_, rfl⟩
    · exact ⟨hkept, fun answer h => by cases h⟩

/-- The tickets whose identifiers are new. -/
def newTickets (w w' : World) : List TicketRecord :=
  w'.store.tickets.filter fun t => !(w.store.tickets.map (·.id)).contains t.id

theorem mem_newTickets : ticket ∈ newTickets w w' ↔
    ticket ∈ w'.store.tickets ∧ ticket.id ∉ w.store.tickets.map (·.id) := by
  simp [newTickets]

theorem not_new_of_kept (h : Kept w.store w'.store) : ticket ∉ newTickets w w' := by
  intro hnew
  obtain ⟨hmem, hid⟩ := mem_newTickets.mp hnew
  obtain ⟨old, hold, htexts⟩ := h.mem hmem
  refine hid (List.mem_map.mpr ⟨old, hold, ?_⟩)
  exact (congrArg Texts.id htexts).symm

/-! ### Before a ticket is created -/

/-- The one ticket that is found, if there is one. -/
theorem eq_of_head? {found : List TicketRecord} (h : ¬1 < found.length) (ht : found.head? = some ticket) :
    found = [ticket] := by
  obtain ⟨rest, rfl⟩ := List.head?_eq_some_iff.mp ht
  cases rest with
  | nil => rfl
  | cons t rest => simp at h

/-- A refusal names the one ticket that is found, or none. -/
theorem select_error {r : Reply} (h : select host w work project = .error r) :
    ∃ text found, r = reply text found ∧
      ∀ t ∈ found, candidates host.text w.store.tickets work project = [t] := by
  unfold select at h
  simp only at h
  split at h
  · cases h
    exact ⟨_, none, rfl, fun t ht => by cases ht⟩
  · split at h
    · cases h
      exact ⟨_, none, rfl, fun t ht => by cases ht⟩
    · rename_i hone
      split at h
      · rename_i t ht
        cases h
        refine ⟨_, some t, rfl, fun t' ht' => ?_⟩
        cases ht'
        exact eq_of_head? hone (Option.eq_some_of_filter_eq_some ht)
      · split at h
        · cases h
          exact ⟨_, _, rfl, fun t ht => eq_of_head? hone ht⟩
        · cases h

theorem select_some (h : select host w work project = .ok (some ticket)) :
    candidates host.text w.store.tickets work project = [ticket] := by
  unfold select at h
  simp only at h
  split at h
  · cases h
  · split at h
    · cases h
    · rename_i hone
      split at h
      · cases h
      · split at h
        · cases h
        · exact eq_of_head? hone (Except.ok.inj h)

/-- Nothing is found, by an objective that is no pronoun, while nothing runs. -/
theorem select_none : select host w work project = .ok none ↔
    candidates host.text w.store.tickets work project = [] ∧
      isPronoun host.text work.objective = false ∧
      (isBusy w.workspace || isBusy w.automatic) = false := by
  unfold select
  cases candidates host.text w.store.tickets work project with
  | nil => cases isPronoun host.text work.objective <;>
      cases isBusy w.workspace || isBusy w.automatic <;> simp
  | cons t rest =>
    simp only [List.head?_cons, reduceCtorEq, and_false, if_false, false_and, iff_false]
    split
    · simp
    · split
      · simp
      · split <;> simp

theorem prepare_ok {found : Option TicketRecord} :
    prepare host w work = .ok (work', project, found) ↔
      locate host w.store work = .ok work' ∧ openProject w.store work'.projectId = .ok project ∧
        ¬500 < work'.objective.length ∧ select host w work' project = .ok found := by
  unfold prepare
  constructor
  · intro h
    obtain ⟨located, hlocate, h⟩ := bind_ok h
    obtain ⟨opened, hopen, h⟩ := bind_ok h
    obtain ⟨hlength, h⟩ := ite_throw_bind_ok h
    obtain ⟨selected, hselect, h⟩ := bind_ok h
    cases h
    exact ⟨hlocate, hopen, hlength, hselect⟩
  · rintro ⟨hlocate, hopen, hlength, hselect⟩
    simp [hlocate, hopen, hlength, hselect, bind, Except.bind, pure, Except.pure]

theorem locate_error {r : Reply} (h : locate host store work = .error r) :
    ∃ text, r = reply text none := by
  unfold locate at h
  split at h
  · cases h
  · split at h
    · cases h
    · cases h
      exact ⟨_, rfl⟩

theorem openProject_error {r : Reply} {projectId : Option String}
    (h : openProject store projectId = .error r) : ∃ text, r = reply text none := by
  unfold openProject at h
  split at h
  · cases h
    exact ⟨_, rfl⟩
  · split at h
    · cases h
    · cases h
      exact ⟨_, rfl⟩

/-- A refusal names no ticket but the one that is found in the project. -/
theorem prepare_error {r : Reply} (h : prepare host w work = .error r) :
    ∃ text found, r = reply text found ∧ ∀ t ∈ found, ∃ work' project,
      locate host w.store work = .ok work' ∧
        candidates host.text w.store.tickets work' project = [t] := by
  have hnone : ∀ {text}, r = reply text none → ∃ text found, r = reply text found ∧
      ∀ t ∈ found, ∃ work' project, locate host w.store work = .ok work' ∧
        candidates host.text w.store.tickets work' project = [t] :=
    fun hr => ⟨_, none, hr, fun t ht => by cases ht⟩
  unfold prepare at h
  obtain hlocate | ⟨work', hlocate, h⟩ := bind_error h
  · obtain ⟨text, hr⟩ := locate_error hlocate
    exact hnone hr
  · obtain hopen | ⟨project, hopen, h⟩ := bind_error h
    · obtain ⟨text, hr⟩ := openProject_error hopen
      exact hnone hr
    · change (if _ then _ else _) = _ at h
      split at h
      · cases h
        exact hnone rfl
      · obtain hselect | ⟨found, -, h⟩ := bind_error h
        · obtain ⟨text, found, hr, hfound⟩ := select_error hselect
          exact ⟨text, found, hr, fun t ht => ⟨work', project, hlocate, hfound t ht⟩⟩
        · cases h

/-! ### The objective of a call -/

/-- The objective without the project that it names. -/
def objectiveOf (work : Work) : String :=
  ((namedProject work.objective).map (·.1)).getD work.objective

theorem objective_of_locate (h : locate host store work = .ok work') :
    work'.objective = objectiveOf work := by
  unfold locate at h
  unfold objectiveOf
  split at h
  · rename_i hnamed
    cases h
    rw [hnamed]
    rfl
  · rename_i objective name hnamed
    split at h
    · cases h
      rw [hnamed]
      rfl
    · cases h

theorem mem_candidates {t : TicketRecord} (h : isPronoun host.text work.objective = false) :
    t ∈ candidates host.text w.store.tickets work project ↔
      t ∈ w.store.tickets ∧ t.projectId = project.id ∧ Matches host.text work.objective t := by
  simp [candidates, h]

/-- Every candidate belongs to the project. -/
theorem project_of_candidate {t : TicketRecord}
    (h : t ∈ candidates host.text w.store.tickets work project) : t.projectId = project.id := by
  unfold candidates at h
  split at h
  · simpa using (by simpa using List.mem_filter.mp h : _ ∧ _ ∧ _).2.2
  · simpa using (by simpa using List.mem_filter.mp h : _ ∧ _ ∧ _).2.1

/-- The only ticket that is new is the one that was created. -/
theorem new_of_created {req : TicketRequest} {t : TicketRecord}
    (h : Created req ticketId w.store store' t) (hkept : Kept store' w'.store)
    (hnew : ticket ∈ newTickets w w') : texts ticket = texts t := by
  obtain ⟨hmem, hid⟩ := mem_newTickets.mp hnew
  obtain ⟨t', ht', htexts⟩ := hkept.mem hmem
  rw [h.tickets] at ht'
  obtain ⟨hold, -⟩ | rfl := mem_replaceRow.mp ht'
  · refine absurd (List.mem_map.mpr ⟨t', hold, ?_⟩) hid
    exact (congrArg Texts.id htexts).symm
  · exact htexts

/-- **The first call**: a ticket that is new was created by it. -/
theorem created_of_new (hnew : ticket ∈ newTickets w (handleWork host m message actor work w).2) :
    ∃ work' project t store', prepare host w work = .ok (work', project, none) ∧
      create host (ticketRequest work'.objective actor project) m.ticketId m.policyId m.criterionId
        m.currentClaims w.store = (.ok t, store') ∧
      texts ticket = texts t ∧ Kept store' (handleWork host m message actor work w).2.store := by
  revert hnew
  unfold handleWork
  split
  · intro hnew
    exact absurd hnew (not_new_of_kept .refl)
  · intro hnew
    exact absurd hnew (not_new_of_kept (startTicket_spec _ _ _ _ _ _ _).1)
  · rename_i work' project hprepare
    split
    · rename_i e store' hcreate
      intro hnew
      exact absurd hnew (not_new_of_kept (kept_of_eq (tickets_of_failed hcreate)))
    · rename_i t store' hcreate
      intro hnew
      have hkept : Kept store' (startTicket host m project message actor t
          { w with store := store' }).2.store :=
        (startTicket_spec host m project message actor t { w with store := store' }).1
      exact ⟨work', project, t, store', hprepare, hcreate,
        new_of_created (created_of_create hcreate) hkept hnew, hkept⟩

/-! ## The repeated call -/

/-- The call created no ticket of the project, and what it replies about the
project is about this ticket. -/
structure Finds (ticket : TicketRecord) (w : World)
    (outcome : Except PyError (Option Reply) × World) : Prop where
  none_new : ∀ t ∈ newTickets w outcome.2, t.projectId ≠ ticket.projectId
  answer : ∀ answer, outcome.1 = .ok (some answer) → answer.projectId = some ticket.projectId →
    answer.ticketId = some ticket.id

theorem matches_congr {tables : CaseTables} {objective : String} {t : TicketRecord}
    (h : texts t = texts ticket) : Matches tables objective t ↔ Matches tables objective ticket := by
  obtain ⟨hid, -, htitle, hdescription⟩ := Texts.mk.inj h
  unfold Matches
  rw [hid, htitle, hdescription]

theorem of_map_some {result : Except PyError Reply} {answer : Reply}
    (h : result.map some = .ok (some answer)) : result = .ok answer := by
  cases result with
  | error e => cases h
  | ok r =>
    cases h
    rfl

/-- **The second call**, in a world that has the ticket. -/
theorem finds_of_matches {t : TicketRecord} (hmem : t ∈ w.store.tickets)
    (htexts : texts t = texts ticket) (hpronoun : isPronoun host.text (objectiveOf work) = false)
    (hmatches : Matches host.text (objectiveOf work) ticket) :
    Finds ticket w ((handleWork host m message actor work w).1.map some,
      (handleWork host m message actor work w).2) := by
  have hid : t.id = ticket.id := congrArg Texts.id htexts
  have hproject : t.projectId = ticket.projectId := congrArg Texts.projectId htexts
  have hcandidate : ∀ {work' project}, locate host w.store work = .ok work' →
      ticket.projectId = project.id → t ∈ candidates host.text w.store.tickets work' project := by
    intro work' project hlocate hsame
    have hobjective := objective_of_locate hlocate
    refine (mem_candidates (by rw [hobjective, hpronoun])).mpr ⟨hmem, hproject.trans hsame, ?_⟩
    rw [hobjective]
    exact (matches_congr htexts).mpr hmatches
  -- What is found alone in the project is the ticket.
  have halone : ∀ {work' project x}, locate host w.store work = .ok work' →
      candidates host.text w.store.tickets work' project = [x] → x.projectId = ticket.projectId →
        x.id = ticket.id := by
    intro work' project x hlocate hone hx
    have hsame : x.projectId = project.id :=
      project_of_candidate (hone ▸ List.mem_singleton_self x)
    have ht := hcandidate hlocate (hx.symm.trans hsame)
    rw [hone, List.mem_singleton] at ht
    rw [← ht, hid]
  cases hprepare : prepare host w work with
  | error r =>
    obtain ⟨text, found, rfl, hfound⟩ := prepare_error hprepare
    simp only [handleWork, hprepare]
    refine ⟨fun t ht => absurd ht (not_new_of_kept .refl), fun answer h hanswer => ?_⟩
    obtain rfl := Except.ok.inj (of_map_some h)
    obtain ⟨x, hx, hsame⟩ := Option.map_eq_some_iff.mp hanswer
    obtain ⟨work', project, hlocate, hone⟩ := hfound x hx
    subst hx
    exact congrArg some (halone hlocate hone hsame)
  | ok prepared =>
    obtain ⟨work', project, found⟩ := prepared
    obtain ⟨hlocate, -, -, hselect⟩ := prepare_ok.mp hprepare
    cases found with
    | some x =>
      simp only [handleWork, hprepare]
      obtain ⟨hkept, hreply⟩ := startTicket_spec host m project message actor x w
      refine ⟨fun t ht => absurd ht (not_new_of_kept hkept), fun answer h hanswer => ?_⟩
      obtain ⟨text, rfl⟩ := hreply answer (of_map_some h)
      have hsame : x.projectId = ticket.projectId := Option.some.inj hanswer
      exact congrArg some (halone hlocate (select_some hselect) hsame)
    | none =>
      obtain ⟨hempty, -, -⟩ := select_none.mp hselect
      have hother : project.id ≠ ticket.projectId := by
        intro hsame
        have ht := hcandidate hlocate hsame.symm
        rw [hempty] at ht
        cases ht
      simp only [handleWork, hprepare]
      split
      · rename_i e store' hcreate
        refine ⟨fun t ht => ?_, fun answer h _ => by cases h⟩
        exact absurd ht (not_new_of_kept (kept_of_eq (tickets_of_failed hcreate)))
      · rename_i x store' hcreate
        have hcreated := created_of_create hcreate
        have hx : x.projectId = project.id := congrArg Texts.projectId hcreated.texts
        obtain ⟨hkept, hreply⟩ := startTicket_spec host m project message actor x
          { w with store := store' }
        refine ⟨fun t ht hsame => hother ?_, fun answer h hanswer => ?_⟩
        · have hnew : t.projectId = x.projectId :=
            congrArg Texts.projectId (new_of_created hcreated hkept ht)
          exact hx.symm.trans (hnew.symm.trans hsame)
        · obtain ⟨text, rfl⟩ := hreply answer (of_map_some h)
          exact absurd (hx.symm.trans (Option.some.inj hanswer)) hother

theorem exists_new_identifier (tickets : List TicketRecord) : ∃ id, id ∉ tickets.map (·.id) := by
  obtain ⟨id, hid⟩ := Infinite.exists_notMem_finset (tickets.map (·.id)).toFinset
  exact ⟨id, by rwa [List.mem_toFinset] at hid⟩

/-- What the checks before a ticket look at besides the tickets. -/
theorem prepare_again (hprepare : prepare host w work = .ok (work', project, none))
    (hprojects : w'.store.projects = w.store.projects)
    (hmode : w'.store.executionMode = w.store.executionMode)
    (hidle : (isBusy w'.workspace || isBusy w'.automatic) = false)
    (hnone : candidates host.text w'.store.tickets work' project = []) :
    prepare host w' work = .ok (work', project, none) := by
  obtain ⟨hlocate, hopen, hlength, hselect⟩ := prepare_ok.mp hprepare
  obtain ⟨-, hpronoun, -⟩ := select_none.mp hselect
  refine prepare_ok.mpr ⟨?_, ?_, hlength, select_none.mpr ⟨hnone, hpronoun, hidle⟩⟩
  · rw [← hlocate]
    unfold locate
    rw [hprojects]
  · rw [← hopen]
    unfold openProject
    rw [hprojects, hmode]

/-- **A ticket that the objective does not match** is created again under the
same rules, while nothing runs. -/
theorem created_twice {first : TicketRecord} (message : String)
    (hprepare : prepare host w work = .ok (work', project, none))
    (hcreate : create host (ticketRequest work'.objective actor project) m.ticketId m.policyId
      m.criterionId m.currentClaims w.store = (.ok first, store'))
    (hlost : ¬Matches host.text work'.objective first) (w' : World)
    (hrules : SameRules store' w'.store) (hkept : Kept store' w'.store)
    (hidle : (isBusy w'.workspace || isBusy w'.automatic) = false)
    (id : String) (hid : id ∉ w'.store.tickets.map (·.id)) :
    ∃ t ∈ newTickets w' (handleWork host { m with ticketId := id } message actor work w').2,
      t.projectId = project.id := by
  have hcreated := created_of_create hcreate
  obtain ⟨-, -, -, hselect⟩ := prepare_ok.mp hprepare
  obtain ⟨hempty, hpronoun, -⟩ := select_none.mp hselect
  have hnone : candidates host.text w'.store.tickets work' project = [] := by
    refine List.eq_nil_iff_forall_not_mem.mpr fun x hx => ?_
    obtain ⟨hmem, hproject, hmatches⟩ := (mem_candidates hpronoun).mp hx
    obtain ⟨y, hy, hsame⟩ := hkept.mem hmem
    have hmatches' := (matches_congr hsame).mp hmatches
    rw [hcreated.tickets] at hy
    obtain ⟨hold, -⟩ | rfl := mem_replaceRow.mp hy
    · have hcandidate : y ∈ candidates host.text w.store.tickets work' project :=
        (mem_candidates hpronoun).mpr
          ⟨hold, (congrArg Texts.projectId hsame).symm.trans hproject, hmatches'⟩
      rw [hempty] at hcandidate
      cases hcandidate
    · exact hlost hmatches'
  have hprepare' := prepare_again hprepare (hrules.projects.trans hcreated.projects)
    (hrules.executionMode.trans hcreated.executionMode) hidle hnone
  obtain ⟨again, left, hagain⟩ := created_again hcreate hrules id
  have hcreated' := created_of_create hagain
  simp only [handleWork, hprepare', hagain]
  obtain ⟨hkept', -⟩ := startTicket_spec host { m with ticketId := id } project message actor again
    { w' with store := left }
  have hrow : left.tickets.find? (·.id == again.id) = some again := by
    rw [hcreated'.tickets]
    exact find?_replaceRow_self
  obtain ⟨t, ht, hsame⟩ := hkept'.find? hrow
  have htexts := hsame.trans hcreated'.texts
  refine ⟨t, mem_newTickets.mpr ⟨List.mem_of_find?_eq_some ht, ?_⟩, congrArg Texts.projectId htexts⟩
  rw [show t.id = id from congrArg Texts.id htexts]
  exact hid

/-- The objective that a call asks for. -/
def objective (call : Call) : Option String := call.work.map objectiveOf

/-- The texts of a ticket that is created for the objective still match it: its
identifier, the title, which is cut, or the description. -/
def Findable (tables : CaseTables) (objective ticketId : String) : Prop :=
  casefold tables ticketId = casefold tables objective ∨
    casefold tables (squeeze (String.ofList (objective.toList.take 180))) =
      casefold tables objective ∨
    casefold tables (squeeze objective) = casefold tables objective

instance (tables : CaseTables) (objective ticketId : String) :
    Decidable (Findable tables objective ticketId) :=
  inferInstanceAs (Decidable (_ ∨ _ ∨ _))

variable {call : Call}

theorem answer_of_work (h : call.work = some work) : call.answer host m w =
    ((handleWork host m call.message call.actor work w).1.map some,
      (handleWork host m call.message call.actor work w).2) := by
  unfold Call.answer
  rw [h]

theorem world_of_no_work (h : call.work = none) : (call.answer host m w).2 = w := by
  unfold Call.answer
  rw [h]
  cases call with
  | handle text projectId ticketId actor =>
    simp only
    split <;> rfl
  | startReviewedRequest text projectId actor => rfl

/-- **Repeated start requests**: when a call has created a ticket, the same call
finds it in every later world, or reports why it cannot start, exactly if the
objective matches what a ticket keeps of it. -/
theorem repeated_start_iff (hnew : ticket ∈ newTickets w (call.answer host m w).2) :
    (∀ m' w', Later (call.answer host m w).2 w' → Finds ticket w' (call.answer host m' w')) ↔
      ∃ o, objective call = some o ∧ Findable host.text o ticket.id := by
  cases hwork : call.work with
  | none =>
    rw [world_of_no_work hwork] at hnew
    exact absurd hnew (not_new_of_kept .refl)
  | some work =>
    rw [answer_of_work hwork] at hnew ⊢
    obtain ⟨work', project, first, store', hprepare, hcreate, htexts, hkept⟩ := created_of_new hnew
    obtain ⟨hlocate, -, -, hselect⟩ := prepare_ok.mp hprepare
    obtain ⟨-, hpronoun, -⟩ := select_none.mp hselect
    have hobjective := objective_of_locate hlocate
    have hcreated := created_of_create hcreate
    have hiff : Matches host.text (objectiveOf work) ticket ↔
        ∃ o, objective call = some o ∧ Findable host.text o ticket.id := by
      obtain ⟨-, -, htitle, hdescription⟩ := Texts.mk.inj (htexts.trans hcreated.texts)
      simp only [objective, hwork, Option.map_some, Option.some.injEq, exists_eq_left']
      rw [Matches, htitle, hdescription, ← hobjective]
      rfl
    rw [← hiff]
    constructor
    · -- The world as it was when the ticket had been created, with nothing running.
      intro hfinds
      by_contra hlost
      have hlost' : ¬Matches host.text work'.objective first := by
        rwa [hobjective, ← matches_congr htexts]
      obtain ⟨id, hid⟩ := exists_new_identifier
        (handleWork host m call.message call.actor work w).2.store.tickets
      let idle : World := ⟨{ store' with
        tickets := (handleWork host m call.message call.actor work w).2.store.tickets }, {}, {}⟩
      obtain ⟨t, ht, hproject⟩ := created_twice call.message hprepare hcreate hlost' idle
        ⟨rfl, rfl, rfl⟩ hkept rfl id hid
      have hagain := hfinds { m with ticketId := id } idle (.elsewhere .refl rfl)
      rw [answer_of_work hwork] at hagain
      refine hagain.none_new t ht (hproject.trans ?_)
      exact (congrArg Texts.projectId (htexts.trans hcreated.texts)).symm
    · intro hmatch m' w' hlater
      have hrow : store'.tickets.find? (·.id == first.id) = some first := by
        rw [hcreated.tickets]
        exact find?_replaceRow_self
      obtain ⟨t, ht, hfirst⟩ := hkept.find? hrow
      obtain ⟨t', ht', hsame⟩ := hlater.found ht
      rw [answer_of_work hwork]
      exact finds_of_matches (List.mem_of_find?_eq_some ht')
        (hsame.trans (hfirst.trans htexts.symm)) (hobjective ▸ hpronoun) hmatch

/-! ## A doubled blank -/

/-- A controller that has just been started elsewhere. -/
def refusing (α : Type) : Starter α where
  start := fun _ w => (.error (.runtime "Index needs refreshing"), w)
  tickets := fun _ _ => rfl

def sampleMoment : Moment where
  ticketId := "ticket"
  policyId := "policy"
  criterionId := fun _ => "criterion"
  currentClaims := fun _ => .ok ()
  tree := completeTree
  depth := 1
  startChangePlan := refusing PlanRequest
  automaticStart := refusing (String × String)

def quietWorld : World := ⟨registered, {}, {}⟩

def workOn (text : String) : Call := .handle ("work on " ++ text) (some "project") none "u"

/-- The world after a call on a text that names no project and no ticket. -/
theorem first_sample (text : String)
    (hwork : (workOn text).work = some ⟨text, some "project", none⟩)
    (hnamed : namedProject text = none) (hlength : ¬500 < text.length)
    (hpronoun : isPronoun plainHost.text text = false)
    (htitle : squeeze (String.ofList (text.toList.take 180)) ≠ "") (hdescription : squeeze text ≠ "")
    (hcriteria : squeezed [text] ≠ []) :
    prepare plainHost quietWorld ⟨text, some "project", none⟩ =
        .ok (⟨text, some "project", none⟩, registeredProject, none) ∧
      ∃ first left, create plainHost (ticketRequest text "u" registeredProject) "ticket" "policy"
          (fun _ => "criterion") (fun _ => .ok ()) registered = (.ok first, left) ∧
        left.tickets = [first] ∧ first.id = "ticket" ∧
        ((workOn text).answer plainHost sampleMoment quietWorld).2 = ⟨left, {}, {}⟩ := by
  have hprepare : prepare plainHost quietWorld ⟨text, some "project", none⟩ =
      .ok (⟨text, some "project", none⟩, registeredProject, none) := by
    refine prepare_ok.mpr ⟨?_, rfl, hlength, select_none.mpr ⟨?_, hpronoun, rfl⟩⟩
    · simp [locate, hnamed]
    · simp [candidates, hpronoun, quietWorld, registered]
  have hpriority : upper plainHost.text "MEDIUM" ∈ priorities := by decide
  obtain ⟨left, hcreate, -, htickets⟩ := create_registered (ticketRequest text "u" registeredProject)
    rfl htitle hdescription hcriteria hpriority rfl rfl "ticket" "policy" fun _ => "criterion"
  refine ⟨hprepare, _, left, hcreate, htickets, rfl, ?_⟩
  have hcreate' : create plainHost (ticketRequest text "u" registeredProject) sampleMoment.ticketId
      sampleMoment.policyId sampleMoment.criterionId sampleMoment.currentClaims quietWorld.store =
        (.ok _, left) := hcreate
  have hmode : isAutonomous (left.executionMode registeredProject.id) = false := by
    rw [(created_of_create hcreate).executionMode]
    rfl
  rw [answer_of_work hwork]
  simp only [handleWork, hprepare, show (workOn text).actor = "u" from rfl, hcreate', startTicket,
    startSteps, hmode, Bool.false_eq_true, if_false]
  rfl

theorem repeated_start_found :
    ∃ ticket ∈ newTickets quietWorld ((workOn "Fix export").answer plainHost sampleMoment quietWorld).2,
      ∀ m' w', Later ((workOn "Fix export").answer plainHost sampleMoment quietWorld).2 w' →
        Finds ticket w' ((workOn "Fix export").answer plainHost m' w') := by
  obtain ⟨-, first, left, -, htickets, -, hworld⟩ := first_sample "Fix export"
    (by decide +kernel) (by decide +kernel) (by decide) (by decide) (by decide +kernel)
    (by decide +kernel) (by decide +kernel)
  have hnew : first ∈ newTickets quietWorld
      ((workOn "Fix export").answer plainHost sampleMoment quietWorld).2 := by
    rw [hworld]
    exact mem_newTickets.mpr ⟨htickets ▸ List.mem_singleton_self first, List.not_mem_nil⟩
  exact ⟨first, hnew, (repeated_start_iff hnew).mpr
    ⟨"Fix export", by decide +kernel, .inr (.inr (by decide +kernel))⟩⟩

/-- The objective has two blanks, the description one. -/
theorem repeated_start_duplicated :
    ∃ ticket ∈ newTickets quietWorld
        ((workOn "fix  the export").answer plainHost sampleMoment quietWorld).2,
      ¬Finds ticket ((workOn "fix  the export").answer plainHost sampleMoment quietWorld).2
        ((workOn "fix  the export").answer plainHost { sampleMoment with ticketId := "second" }
          ((workOn "fix  the export").answer plainHost sampleMoment quietWorld).2) := by
  have hwork : (workOn "fix  the export").work = some ⟨"fix  the export", some "project", none⟩ := by
    decide +kernel
  obtain ⟨hprepare, first, left, hcreate, htickets, hid, hworld⟩ := first_sample _ hwork
    (by decide +kernel) (by decide) (by decide) (by decide +kernel) (by decide +kernel)
    (by decide +kernel)
  rw [hworld]
  refine ⟨first, mem_newTickets.mpr ⟨htickets ▸ List.mem_singleton_self first, List.not_mem_nil⟩, ?_⟩
  intro hfinds
  have hcreated := created_of_create hcreate
  have hlost : ¬Matches plainHost.text "fix  the export" first := by
    obtain ⟨-, -, htitle, hdescription⟩ := Texts.mk.inj hcreated.texts
    rw [Matches, hid, htitle, hdescription]
    decide +kernel
  obtain ⟨t, ht, hproject⟩ := created_twice (m := sampleMoment) (workOn "fix  the export").message
    hprepare hcreate hlost ⟨left, {}, {}⟩ ⟨rfl, rfl, rfl⟩
    .refl rfl "second" (by simp [htickets, hid])
  rw [answer_of_work hwork] at hfinds
  exact hfinds.none_new t ht
    (hproject.trans (congrArg Texts.projectId hcreated.texts).symm)

end RlmGraph.Tickets.RepeatedStart
