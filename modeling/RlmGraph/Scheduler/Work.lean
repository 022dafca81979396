import Mathlib.Algebra.GroupWithZero.Nat
import Mathlib.Data.Rat.Defs
import RlmGraph.Lib.Programs
import RlmGraph.Governance.Tickets
import RlmGraph.Store.Lease

/-! # Scheduled work

The durable queue of the resource-aware scheduler: work items, the table that
holds them and the operations of the scheduler as programs that read the table
and save items to it. Each read and each save is one operation; what a claim
decides from the items it read is a computation in between. A call finds the
projects, tickets and leases of the store, a clock and a place for temporary
resources around it (`Surroundings`). Times and latencies are microseconds,
costs and scores are rationals. -/
namespace RlmGraph.Scheduler.Work
open RlmGraph.Lib RlmGraph.Lib.PyText RlmGraph.Lib.Programs
open RlmGraph.Governance.Policy RlmGraph.Governance.Tickets RlmGraph.Store.Lease

/-! ## Records -/

inductive WorkStatus where
  | queued | waitingForCapacity | waitingForLease | blockedBudget | running
  | cancellationRequested | interrupted | completed | failed | cancelled
  deriving DecidableEq

namespace WorkStatus

def text : WorkStatus → String
  | queued => "QUEUED"
  | waitingForCapacity => "WAITING_FOR_CAPACITY"
  | waitingForLease => "WAITING_FOR_LEASE"
  | blockedBudget => "BLOCKED_BUDGET"
  | running => "RUNNING"
  | cancellationRequested => "CANCELLATION_REQUESTED"
  | interrupted => "INTERRUPTED"
  | completed => "COMPLETED"
  | failed => "FAILED"
  | cancelled => "CANCELLED"

/-- `TERMINAL_STATUSES`. -/
def terminal : WorkStatus → Bool
  | completed | failed | cancelled => true
  | _ => false

/-- `ACTIVE_STATUSES`. -/
def active : WorkStatus → Bool
  | running | cancellationRequested => true
  | _ => false

/-- The statuses of the candidates of a claim. -/
def waiting : WorkStatus → Bool
  | queued | waitingForCapacity | waitingForLease => true
  | _ => false

end WorkStatus

structure SchedulerLimits where
  globalConcurrency : Nat := 2
  perProjectConcurrency : Nat := 1
  perTicketConcurrency : Nat := 1
  capacityUnits : Nat := 2
  positive : 1 ≤ globalConcurrency ∧ 1 ≤ perProjectConcurrency ∧ 1 ≤ perTicketConcurrency ∧
    1 ≤ capacityUnits := by decide

structure SchedulerCheckpoint where
  sequence : Nat
  stage : String
  detail : String
  workerCallsUsed : Nat := 0
  wallTimeUsed : Nat := 0
  evidenceIds : List String := []
  createdAt : Int
  deriving DecidableEq

structure ScheduledWorkItem where
  id : String
  ticketId : String
  projectId : String
  projectRoot : String
  workKind : String
  artifactId : Option String := none
  status : WorkStatus := .queued
  priority : String := "MEDIUM"
  requiredValidationCategories : List String := []
  predictedCostUsd : Rat := 0
  predictedLatency : Nat := 0
  predictedWorkerCalls : Nat := 1
  capacityUnits : Nat := 1
  requiresProjectLease : Bool := false
  schedulingScore : Rat := 0
  schedulingReasons : List String := []
  blockedReason : Option String := none
  resumable : Bool := true
  cancellationRequested : Bool := false
  cancelledBy : Option String := none
  cancellationReason : Option String := none
  temporaryResources : List String := []
  resourcesDisposed : Bool := false
  evidenceIds : List String := []
  checkpoints : List SchedulerCheckpoint := []
  enqueuedAt : Int
  startedAt : Option Int := none
  updatedAt : Int
  completedAt : Option Int := none
  deriving DecidableEq

/-- The table `scheduled_work`, in the order of its rows. -/
structure ScheduledWorkTable where
  items : List ScheduledWorkItem
  unique : (items.map (·.id)).Nodup

namespace ScheduledWorkTable

def empty : ScheduledWorkTable := ⟨[], List.nodup_nil⟩

/-- `INSERT OR REPLACE`: the row of the item moves to the end. -/
def save (work : ScheduledWorkTable) (item : ScheduledWorkItem) : ScheduledWorkTable where
  items := work.items.filter (·.id ≠ item.id) ++ [item]
  unique := by
    rw [List.map_append, List.nodup_append]
    refine ⟨work.unique.sublist (List.filter_sublist.map _), by simp, ?_⟩
    intro id hid other hother
    obtain ⟨kept, hkept, rfl⟩ := List.mem_map.mp hid
    obtain rfl : other = item.id := by simpa using hother
    simpa using (List.mem_filter.mp hkept).2

/-- The item with an identifier. -/
def lookup (work : ScheduledWorkTable) (itemId : String) : Option ScheduledWorkItem :=
  work.items.find? (·.id == itemId)

def saveAll (work : ScheduledWorkTable) (items : List ScheduledWorkItem) : ScheduledWorkTable :=
  items.foldl save work

variable {work : ScheduledWorkTable} {item other : ScheduledWorkItem} {itemId : String}

@[simp] theorem items_save : (work.save item).items = work.items.filter (·.id ≠ item.id) ++ [item] :=
  rfl

@[simp] theorem lookup_empty : empty.lookup itemId = none := rfl

@[simp] theorem saveAll_nil : work.saveAll [] = work := rfl

@[simp] theorem saveAll_cons (items : List ScheduledWorkItem) :
    work.saveAll (item :: items) = (work.save item).saveAll items := rfl

theorem saveAll_append (first last : List ScheduledWorkItem) :
    work.saveAll (first ++ last) = (work.saveAll first).saveAll last :=
  List.foldl_append

theorem id_of_lookup (h : work.lookup itemId = some item) : item.id = itemId := by
  simpa using List.find?_some h

theorem mem_of_lookup (h : work.lookup itemId = some item) : item ∈ work.items :=
  List.mem_of_find?_eq_some h

/-- The identifiers are a key of the table. -/
theorem eq_of_id (hitem : item ∈ work.items) (hother : other ∈ work.items)
    (hid : item.id = other.id) : item = other :=
  List.inj_on_of_nodup_map work.unique hitem hother hid

theorem lookup_of_mem (h : item ∈ work.items) : work.lookup item.id = some item := by
  unfold lookup
  cases hfound : work.items.find? (·.id == item.id) with
  | none => simpa using List.find?_eq_none.mp hfound item h
  | some found => rw [eq_of_id (mem_of_lookup hfound) h (id_of_lookup hfound)]

theorem lookup_eq_some : work.lookup itemId = some item ↔ item ∈ work.items ∧ item.id = itemId :=
  ⟨fun h => ⟨mem_of_lookup h, id_of_lookup h⟩, fun ⟨h, hid⟩ => hid ▸ lookup_of_mem h⟩

theorem lookup_eq_none : work.lookup itemId = none ↔ ∀ item ∈ work.items, item.id ≠ itemId := by
  simp [lookup]

/-- **A save reads back**, and nothing else changes. -/
theorem lookup_save : (work.save item).lookup itemId =
    if itemId = item.id then some item else work.lookup itemId := by
  by_cases h : itemId = item.id
  · rw [if_pos h, lookup_eq_some]
    exact ⟨by simp, h.symm⟩
  · rw [if_neg h]
    refine Option.ext fun found => ?_
    rw [lookup_eq_some, lookup_eq_some]
    constructor
    · rintro ⟨hfound, rfl⟩
      refine ⟨?_, rfl⟩
      rcases List.mem_append.mp hfound with hfound | hfound
      · exact (List.mem_filter.mp hfound).1
      · exact (h (congrArg _ (List.mem_singleton.mp hfound))).elim
    · rintro ⟨hfound, rfl⟩
      exact ⟨List.mem_append_left _ (List.mem_filter.mpr ⟨hfound, by simpa using h⟩), rfl⟩

theorem lookup_save_self : (work.save item).lookup item.id = some item := by
  rw [lookup_save, if_pos rfl]

theorem lookup_save_of_ne (h : itemId ≠ item.id) :
    (work.save item).lookup itemId = work.lookup itemId := by
  rw [lookup_save, if_neg h]

theorem lookup_saveAll_of_not_mem {items : List ScheduledWorkItem}
    (h : ∀ item ∈ items, item.id ≠ itemId) :
    (work.saveAll items).lookup itemId = work.lookup itemId := by
  induction items generalizing work with
  | nil => rfl
  | cons item items ih =>
    rw [saveAll_cons, ih fun other hother => h other (List.mem_cons_of_mem item hother)]
    exact lookup_save_of_ne (h item List.mem_cons_self).symm

/-- Of several saves that each concern another item, every one reads back. -/
theorem lookup_saveAll_of_mem {items : List ScheduledWorkItem} (hids : (items.map (·.id)).Nodup)
    (h : item ∈ items) : (work.saveAll items).lookup item.id = some item := by
  induction items generalizing work with
  | nil => cases h
  | cons first items ih =>
    rw [List.map_cons, List.nodup_cons] at hids
    rw [saveAll_cons]
    cases h with
    | head =>
      rw [lookup_saveAll_of_not_mem fun other hother hid => hids.1
        (List.mem_map.mpr ⟨other, hother, hid⟩)]
      exact lookup_save_self
    | tail _ h => exact ih hids.2 h

end ScheduledWorkTable

/-! ## Surroundings -/

structure SchedulerHost extends GovernanceHost where
  parents : String → List String
  isoformat : Int → String
  /-- The format `:g` of a number. -/
  general : Rat → String

/-- What a call finds besides the scheduled work. -/
structure Surroundings where
  projects : List ProjectRecord
  tickets : List ProjectTicket
  leases : List ProjectLease
  now : Int
  temporaryRoot : Option String
  /-- Deletes a file, a link or a directory tree. -/
  delete : String → Except PyError Unit

inductive Op where
  | scheduledWork
  | saveScheduledWork (item : ScheduledWorkItem)

abbrev Reply : Op → Type
  | .scheduledWork => ScheduledWorkTable
  | .saveScheduledWork _ => Unit

def perform : Meaning Op Reply ScheduledWorkTable := fun op work =>
  match op with
  | .scheduledWork => (work, work)
  | .saveScheduledWork item => ((), work.save item)

abbrev SchedulerAct (α : Type) := Act Op Reply Unit PyError α

abbrev scheduledWork : SchedulerAct ScheduledWorkTable := Act.perform Op.scheduledWork

abbrev saveScheduledWork (item : ScheduledWorkItem) : SchedulerAct Unit :=
  Act.perform (Op.saveScheduledWork item)

def notFound (itemId : String) : PyError := .value s!"Scheduled work not found: {itemId}"

/-- `get`. -/
def get (itemId : String) : SchedulerAct ScheduledWorkItem := do
  let work ← scheduledWork
  Act.ofExcept ((work.lookup itemId).elim (.error (notFound itemId)) .ok)

/-! ## Checks -/

/-- `_budget_reasons`. -/
def budgetReasons (ticket : ProjectTicket) (workerCalls latency : Nat) : List String :=
  let checks := [
    (decide (ticket.budget.maxWorkerCalls < ticket.usage.workerCalls + workerCalls),
      "Predicted worker calls exceed the ticket budget"),
    (decide (microseconds ticket.budget.maxWallTimeSeconds < ticket.usage.wallTime + latency),
      "Predicted latency exceeds the ticket wall-time budget"),
    (decide (ticket.budget.maxTokens ≤ ticket.usage.tokens), "Ticket token budget is exhausted"),
    (decide (ticket.budget.maxModelCalls ≤ ticket.usage.modelCalls),
      "Ticket model-call budget is exhausted")]
  (checks.filter (·.1)).map (·.2)

/-- `_lease_contention`. -/
def leaseContention (host : SchedulerHost) (sur : Surroundings) (item : ScheduledWorkItem) :
    Option String :=
  if item.requiresProjectLease = false then none
  else
    match sur.leases.find? fun lease =>
      casefold host.text lease.projectRoot == casefold host.text item.projectRoot with
    | none => none
    | some lease =>
      let expiry := host.isoformat lease.expiresAt
      if lease.live sur.now then
        some s!"Project mutation lease is held by {lease.holderId} until {expiry}."
      else none

/-- `_dispose_resources`: whether the temporary resources are gone. -/
def disposeResources (host : SchedulerHost) (sur : Surroundings) (item : ScheduledWorkItem) :
    Except PyError Bool :=
  if item.temporaryResources = [] then .ok true
  else
    match sur.temporaryRoot with
    | none => .ok false
    | some root => do
      item.temporaryResources.forM fun value =>
        let target := host.resolve value
        if target = host.resolve root ∨ host.resolve root ∉ host.parents target then
          .error (.runtime "Scheduler refused to dispose a resource outside its temporary root.")
        else sur.delete target
      return true

/-! ## Items -/

/-- The part of `_checkpoint` before the item is saved. -/
def ScheduledWorkItem.checkpointed (item : ScheduledWorkItem) (now : Int) (stage detail : String)
    (workerCalls : Nat := 0) (wallTime : Nat := 0) (evidence : List String := []) :
    ScheduledWorkItem :=
  { item with
    checkpoints := item.checkpoints ++ [{
      sequence := item.checkpoints.length + 1, stage := stage, detail := detail,
      workerCallsUsed := workerCalls, wallTimeUsed := wallTime, evidenceIds := evidence,
      createdAt := now }]
    updatedAt := now }

/-- `item.evidence_ids.extend(value for value in evidence if value not in item.evidence_ids)`:
the test is made against the list as it grows. -/
def ScheduledWorkItem.withEvidence (item : ScheduledWorkItem) (evidence : List String) :
    ScheduledWorkItem :=
  { item with
    evidenceIds := evidence.foldl (fun ids value => if value ∈ ids then ids else ids ++ [value])
      item.evidenceIds }

/-- The item that `_block` saves, if it changes anything. -/
def block (now : Int) (item : ScheduledWorkItem) (status : WorkStatus) (reason : String) :
    List ScheduledWorkItem :=
  if item.status ≠ status ∨ item.blockedReason ≠ some reason then
    [{ item with status := status, blockedReason := some reason }.checkpointed now status.text reason]
  else []

/-- The item as a claim starts it. -/
def start (now : Int) (item : ScheduledWorkItem) : ScheduledWorkItem :=
  { item with
    status := .running
    blockedReason := none
    startedAt := some (item.startedAt.getD now) }.checkpointed now "STARTED"
      "Scheduler capacity and current budget admitted the work."

/-! ## Claims -/

/-- What a claim decides from the work it has read: the items it saves, in
order, and its result. -/
structure Decision where
  saves : List ScheduledWorkItem
  result : Except PyError (Option ScheduledWorkItem)

/-- `sorted(..., key=lambda item: (-item.scheduling_score, item.enqueued_at, item.id))` of the
candidates. -/
def candidates (items : List ScheduledWorkItem) : List ScheduledWorkItem :=
  (items.filter (·.status.waiting)).mergeSort fun a b =>
    decide (b.schedulingScore < a.schedulingScore) ||
      (a.schedulingScore == b.schedulingScore && (decide (a.enqueuedAt < b.enqueuedAt) ||
        (a.enqueuedAt == b.enqueuedAt && decide (a.id ≤ b.id))))

def activeItems (items : List ScheduledWorkItem) : List ScheduledWorkItem :=
  items.filter (·.status.active)

/-- The capacity units of the active items. -/
def unitsOf (active : List ScheduledWorkItem) : Nat := (active.map (·.capacityUnits)).sum

def projectOccupied (limits : SchedulerLimits) (active : List ScheduledWorkItem)
    (item : ScheduledWorkItem) : Bool :=
  decide (limits.perProjectConcurrency ≤ active.countP fun other => other.projectId == item.projectId)

def ticketOccupied (limits : SchedulerLimits) (active : List ScheduledWorkItem)
    (item : ScheduledWorkItem) : Bool :=
  decide (limits.perTicketConcurrency ≤ active.countP fun other => other.ticketId == item.ticketId)

/-- A status and the reason to be blocked with it. -/
abbrev Refusal := WorkStatus × String

def globalRefusal : Refusal := (.waitingForCapacity, "Global concurrency limit is occupied.")
def projectRefusal : Refusal := (.waitingForCapacity, "Project concurrency limit is occupied.")
def ticketRefusal : Refusal := (.waitingForCapacity, "Ticket concurrency limit is occupied.")
def unitsRefusal : Refusal := (.waitingForCapacity, "Global capacity units are occupied.")

def leaseRefusal (host : SchedulerHost) (sur : Surroundings) (item : ScheduledWorkItem) :
    Option Refusal :=
  (leaseContention host sur item).map (WorkStatus.waitingForLease, ·)

section
variable (host : SchedulerHost) (limits : SchedulerLimits) (sur : Surroundings)

/-- The budget reasons of an item, on its ticket as it is now. -/
def currentBudgetReasons (item : ScheduledWorkItem) : Except PyError (List String) := do
  let ticket ← ticketOf host.toGovernanceHost sur.projects sur.tickets item.ticketId
  return budgetReasons ticket item.predictedWorkerCalls item.predictedLatency

/-- The checks of `claim_next` on a candidate. -/
def claimNextRefusal (active : List ScheduledWorkItem) (availableUnits : Int)
    (item : ScheduledWorkItem) : Except PyError (Option Refusal) := do
  let budgetReasons ← currentBudgetReasons host sur item
  return if budgetReasons ≠ [] then some (.blockedBudget, "; ".intercalate budgetReasons)
    else if projectOccupied limits active item then some projectRefusal
    else if ticketOccupied limits active item then some ticketRefusal
    else if availableUnits < item.capacityUnits then some unitsRefusal
    else leaseRefusal host sur item

/-- The loop of `claim_next` over its candidates. -/
def admitFirst (active : List ScheduledWorkItem) (availableUnits : Int) :
    List ScheduledWorkItem → Decision
  | [] => ⟨[], .ok none⟩
  | item :: rest =>
    match claimNextRefusal host limits sur active availableUnits item with
    | .error e => ⟨[], .error e⟩
    | .ok (some (status, reason)) =>
      let decision := admitFirst active availableUnits rest
      ⟨block sur.now item status reason ++ decision.saves, decision.result⟩
    | .ok none => ⟨[start sur.now item], .ok (some (start sur.now item))⟩

/-- The body of `claim_next`. -/
def claimNextDecision (items : List ScheduledWorkItem) : Decision :=
  let active := activeItems items
  if limits.globalConcurrency ≤ active.length then
    ⟨(items.filter fun item => item.status == .queued || item.status == .waitingForCapacity).flatMap
      fun item => block sur.now item globalRefusal.1 globalRefusal.2, .ok none⟩
  else
    admitFirst host limits sur active ((limits.capacityUnits : Int) - unitsOf active)
      (candidates items)

/-- The checks of `try_claim` on a candidate ahead of its target. -/
def aheadRefusal (active : List ScheduledWorkItem) (candidate : ScheduledWorkItem) :
    Except PyError (Option Refusal) := do
  let reasons ← currentBudgetReasons host sur candidate
  return if reasons ≠ [] then some (.blockedBudget, "; ".intercalate reasons)
    else if projectOccupied limits active candidate then some projectRefusal
    else if ticketOccupied limits active candidate then some ticketRefusal
    else if limits.capacityUnits < candidate.capacityUnits + unitsOf active then some unitsRefusal
    else leaseRefusal host sur candidate

/-- The checks of `try_claim` on its target. -/
def targetRefusal (active : List ScheduledWorkItem) (target : ScheduledWorkItem) :
    Except PyError (Option Refusal) :=
  if limits.globalConcurrency ≤ active.length then .ok (some globalRefusal)
  else if projectOccupied limits active target then .ok (some projectRefusal)
  else if ticketOccupied limits active target then .ok (some ticketRefusal)
  else if limits.capacityUnits < target.capacityUnits + unitsOf active then .ok (some unitsRefusal)
  else do
    let reasons ← currentBudgetReasons host sur target
    return if reasons ≠ [] then some (.blockedBudget, "; ".intercalate reasons)
      else leaseRefusal host sur target

/-- `try_claim` once its target has come up. -/
def admitTarget (active : List ScheduledWorkItem) (target : ScheduledWorkItem) : Decision :=
  match targetRefusal host limits sur active target with
  | .error e => ⟨[], .error e⟩
  | .ok (some (status, reason)) => ⟨block sur.now target status reason, .ok none⟩
  | .ok none => ⟨[start sur.now target], .ok (some (start sur.now target))⟩

/-- The loop of `try_claim` over the ranked candidates, and what follows it. -/
def admitRanked (active : List ScheduledWorkItem) (target : ScheduledWorkItem) :
    List ScheduledWorkItem → Decision
  | [] => admitTarget host limits sur active target
  | candidate :: rest =>
    if candidate.id = target.id then admitTarget host limits sur active target
    else
      match aheadRefusal host limits sur active candidate with
      | .error e => ⟨[], .error e⟩
      | .ok (some (status, reason)) =>
        let decision := admitRanked active target rest
        ⟨block sur.now candidate status reason ++ decision.saves, decision.result⟩
      | .ok none => ⟨[], .ok none⟩

/-- The body of `try_claim`. -/
def tryClaimDecision (itemId : String) (items : List ScheduledWorkItem) : Decision :=
  match items.find? (·.id == itemId) with
  | none => ⟨[], .error (notFound itemId)⟩
  | some target =>
    if target.status = .running then ⟨[], .ok (some target)⟩
    else if target.status.waiting = false then ⟨[], .ok none⟩
    else admitRanked host limits sur (activeItems items) target (candidates items)

/-- Saves what was decided. -/
def carryOut (decision : Decision) : SchedulerAct (Option ScheduledWorkItem) := do
  decision.saves.forM saveScheduledWork
  Act.ofExcept decision.result

/-- `claim_next`. -/
def claimNext : SchedulerAct (Option ScheduledWorkItem) := do
  let work ← scheduledWork
  carryOut (claimNextDecision host limits sur work.items)

/-- `try_claim`. -/
def tryClaim (itemId : String) : SchedulerAct (Option ScheduledWorkItem) := do
  let work ← scheduledWork
  carryOut (tryClaimDecision host limits sur itemId work.items)

end

/-! ## Admission to the queue -/

/-- `PRIORITY_WEIGHT`. -/
def priorityWeight (priority : String) : Rat :=
  if priority = "URGENT" then 400
  else if priority = "HIGH" then 300
  else if priority = "LOW" then 100
  else 200

structure EnqueueRequest where
  ticketId : String
  workKind : String
  artifactId : Option String := none
  requiredValidationCategories : List String := []
  predictedCostUsd : Rat := 0
  predictedLatency : Int := 0
  predictedWorkerCalls : Int := 1
  capacityUnits : Int := 1
  requiresProjectLease : Bool := false

def invalid (record : String) (fields : List String) : PyError :=
  .other "ValidationError" (record ++ ": " ++ ", ".intercalate fields)

/-- The bounded fields of a new item that are out of bounds. -/
def EnqueueRequest.outOfBounds (request : EnqueueRequest) : List String :=
  let checks := [
    (decide (request.predictedCostUsd < 0), "predicted_cost_usd"),
    (decide (request.predictedLatency < 0), "predicted_latency_seconds"),
    (decide (request.predictedWorkerCalls < 0), "predicted_worker_calls"),
    (decide (request.capacityUnits < 1), "capacity_units")]
  (checks.filter (·.1)).map (·.2)

def EnqueueRequest.score (request : EnqueueRequest) (priority : String) : Rat :=
  priorityWeight priority + (sortedSet request.requiredValidationCategories).length * 5
    - request.predictedCostUsd * 10 - request.predictedLatency / 1000000 / 60
    - (max 0 (request.capacityUnits - 1) : Int) * 2

section
variable (host : SchedulerHost) (sur : Surroundings)

def EnqueueRequest.reasons (request : EnqueueRequest) (priority : String) : List String :=
  let cost := host.general request.predictedCostUsd
  let latency := host.general (request.predictedLatency / 1000000)
  let capacity := request.capacityUnits
  let validations := ",".intercalate (sortedSet request.requiredValidationCategories)
  let needs := if validations = "" then "none" else validations
  [s!"priority={priority}", s!"predicted_cost_usd={cost}", s!"predicted_latency_seconds={latency}",
    s!"capacity_units={capacity}", s!"validation_needs={needs}"]

/-- The item that `enqueue` saves; its budget is checked as requested, its bounds when it is built. -/
def EnqueueRequest.item (request : EnqueueRequest) (newId : String) :
    Except PyError ScheduledWorkItem := do
  let ticket ← ticketOf host.toGovernanceHost sur.projects sur.tickets request.ticketId
  let reasons := budgetReasons ticket request.predictedWorkerCalls.toNat
    request.predictedLatency.toNat
  let priority := upper host.text ticket.priority
  if request.outOfBounds ≠ [] then
    throw (invalid "ScheduledWorkItem" request.outOfBounds)
  let blockedReason := if reasons = [] then none else some ("; ".intercalate reasons)
  let item : ScheduledWorkItem := {
    id := newId
    ticketId := ticket.id
    projectId := ticket.projectId
    projectRoot := ticket.projectRoot
    workKind := upper host.text request.workKind
    artifactId := request.artifactId
    status := if reasons = [] then .queued else .blockedBudget
    priority := priority
    requiredValidationCategories := sortedSet request.requiredValidationCategories
    predictedCostUsd := request.predictedCostUsd
    predictedLatency := request.predictedLatency.toNat
    predictedWorkerCalls := request.predictedWorkerCalls.toNat
    capacityUnits := request.capacityUnits.toNat
    requiresProjectLease := request.requiresProjectLease
    schedulingScore := request.score priority
    schedulingReasons := request.reasons host priority
    blockedReason := blockedReason
    enqueuedAt := sur.now
    updatedAt := sur.now }
  return item.checkpointed sur.now "ENQUEUED"
    (blockedReason.getD "Work admitted to the durable queue.")

/-- `enqueue`, with the identifier drawn for the item. -/
def enqueue (request : EnqueueRequest) (newId : String) : SchedulerAct ScheduledWorkItem := do
  let item ← Act.ofExcept (request.item host sur newId)
  saveScheduledWork item
  return item

/-! ## The life of an item -/

/-- The item as `cancel` leaves it, unless its resources cannot be disposed of. -/
def ScheduledWorkItem.cancel (item : ScheduledWorkItem) (actor reason : String) :
    Except PyError ScheduledWorkItem := do
  let disposed ← disposeResources host sur item
  return { item with
    cancellationRequested := true
    cancelledBy := some (strip actor)
    cancellationReason := some (strip reason)
    status := .cancelled
    completedAt := some sur.now
    resourcesDisposed := disposed }.checkpointed sur.now "CANCELLED" (strip reason)

/-- `cancel` of the item in hand. -/
def cancelCurrent (current : ScheduledWorkItem) (actor reason : String) :
    SchedulerAct ScheduledWorkItem := do
  let item ← Act.ofExcept (current.cancel host sur actor reason)
  saveScheduledWork item
  return item

/-- `cancel`. -/
def cancel (itemId actor reason : String) : SchedulerAct ScheduledWorkItem := do
  let item ← get itemId
  cancelCurrent host sur item actor reason

def schedulingCancelled (message : String) : PyError := .other "SchedulingCancelled" message

/-- The bounded fields of a checkpoint that are out of bounds. -/
def checkpointOutOfBounds (workerCalls wallTime : Int) : List String :=
  let checks := [(decide (workerCalls < 0), "worker_calls_used"),
    (decide (wallTime < 0), "wall_time_seconds_used")]
  (checks.filter (·.1)).map (·.2)

/-- `checkpoint`. -/
def checkpoint (itemId stage detail : String) (workerCalls wallTime : Int) (evidence : List String) :
    SchedulerAct ScheduledWorkItem := do
  let item ← get itemId
  if item.cancellationRequested then
    let _ ← cancel host sur item.id ((orText item.cancelledBy none).getD "scheduler")
      ((orText item.cancellationReason none).getD "Cancellation requested.")
    Act.fail (schedulingCancelled
      ((orText item.cancellationReason none).getD "Scheduled work was cancelled."))
  else
    Act.require (checkpointOutOfBounds workerCalls wallTime = [])
      (invalid "SchedulerCheckpoint" (checkpointOutOfBounds workerCalls wallTime))
    let item := (item.withEvidence evidence).checkpointed sur.now stage detail workerCalls.toNat
      wallTime.toNat evidence
    saveScheduledWork item
    return item

/-- The status a completion is asked for, in upper case. -/
def completionStatus (status : String) : Except PyError WorkStatus :=
  if status = "COMPLETED" then .ok .completed
  else if status = "FAILED" then .ok .failed
  else .error (.value "Scheduled completion status must be COMPLETED or FAILED.")

/-- The item as `complete` leaves it, unless its resources cannot be disposed of. -/
def ScheduledWorkItem.complete (item : ScheduledWorkItem) (status : WorkStatus) (detail : String) :
    Except PyError ScheduledWorkItem := do
  let disposed ← disposeResources host sur item
  return { item with
    status := status, completedAt := some sur.now, resourcesDisposed := disposed }.checkpointed
      sur.now status.text detail

/-- `complete`. -/
def complete (itemId status detail : String) : SchedulerAct ScheduledWorkItem := do
  let status ← Act.ofExcept (completionStatus (upper host.text status))
  let item ← get itemId
  let item ← Act.ofExcept (item.complete host sur status detail)
  saveScheduledWork item
  return item

/-- The statuses that a request for cancellation cancels at once. -/
def WorkStatus.idle : WorkStatus → Bool
  | .queued | .waitingForCapacity | .waitingForLease | .blockedBudget | .interrupted => true
  | _ => false

/-- The item with a pending request for cancellation. -/
def ScheduledWorkItem.withCancellation (item : ScheduledWorkItem) (actor reason : String) :
    ScheduledWorkItem :=
  { item with
    cancellationRequested := true
    cancelledBy := some (strip actor)
    cancellationReason := some (strip reason) }

/-- `request_cancellation`. -/
def requestCancellation (itemId actor reason : String) : SchedulerAct ScheduledWorkItem := do
  let item ← get itemId
  if item.status.terminal then return item
  Act.require (strip actor ≠ "" ∧ strip reason ≠ "")
    (.value "Cancellation requires an actor and reason.")
  let item := item.withCancellation actor reason
  if item.status.idle then cancelCurrent host sur item actor reason
  else
    let item := { item with status := .cancellationRequested }.checkpointed sur.now
      "CANCELLATION_REQUESTED" (strip reason)
    saveScheduledWork item
    return item

/-- `resume`. -/
def resume (itemId : String) : SchedulerAct ScheduledWorkItem := do
  let item ← get itemId
  Act.require (item.status = .interrupted ∧ item.resumable = true)
    (.value "Only resumable interrupted work can return to the queue.")
  let item := { item with status := .queued, blockedReason := none }.checkpointed sur.now "RESUMED"
    "Interrupted work returned to the durable queue."
  saveScheduledWork item
  return item

/-- `register_temporary_resource`. -/
def registerTemporaryResource (itemId path : String) : SchedulerAct ScheduledWorkItem := do
  let item ← get itemId
  let resolved := host.resolve path
  let item := { item with
    temporaryResources := if resolved ∈ item.temporaryResources then item.temporaryResources
      else item.temporaryResources ++ [resolved]
    resourcesDisposed := false }
  saveScheduledWork item
  return item

/-- `attach_evidence`. -/
def attachEvidence (itemId : String) (evidence : List String) : SchedulerAct ScheduledWorkItem := do
  let item ← get itemId
  let item := { item.withEvidence evidence with updatedAt := sur.now }
  saveScheduledWork item
  return item

def interruption : String := "Scheduler process restarted while work was active."

/-- The item as a restart leaves it. -/
def interrupt (now : Int) (item : ScheduledWorkItem) : ScheduledWorkItem :=
  { item with status := .interrupted, blockedReason := some interruption }.checkpointed now
    "INTERRUPTED" interruption

/-- `restore_interrupted`, which a new scheduler begins with. -/
def restoreInterrupted : SchedulerAct (List ScheduledWorkItem) := do
  let work ← scheduledWork
  let restored := (activeItems work.items).map (interrupt sur.now)
  restored.forM saveScheduledWork
  return restored

end

/-! ## A small instance -/

/-- A host on which paths are resolved already. -/
def plainHost : SchedulerHost where
  text := ⟨id, id, id⟩
  resolve := id
  commonPath _ _ := none
  sha256 _ := ""
  parents _ := []
  isoformat _ := ""
  general _ := ""

/-- One project with one ticket, at time zero. -/
def plainSurroundings : Surroundings where
  projects := [{ id := "p", root := "/p", explicitlySelected := true, readOnly := true }]
  tickets := [{
    id := "t", projectId := "p", projectRoot := "/p", budget := {}, usage := ⟨0, 0, 0, 0, 0⟩ }]
  leases := []
  now := 0
  temporaryRoot := none
  delete _ := .ok ()

/-- An item of the ticket, as it waits in the queue. -/
def plainItem : ScheduledWorkItem :=
  { id := "w", ticketId := "t", projectId := "p", projectRoot := "/p", workKind := "VALIDATE",
    enqueuedAt := 0, updatedAt := 0 }

def plainWork : ScheduledWorkTable := ScheduledWorkTable.empty.save plainItem

@[simp] theorem lookup_plainWork : plainWork.lookup "w" = some plainItem :=
  ScheduledWorkTable.lookup_save_self

end RlmGraph.Scheduler.Work
