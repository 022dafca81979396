import Mathlib.Logic.Function.Basic
import RlmGraph.Lib.PyError

/-! # Project mutation leases

The lease table of the graph store: one row for each project root, keyed by the
case-folded resolved path, with a fencing token that counts acquisitions.
`acquireProjectLease`, `renewProjectLease` and `recordProjectLeaseEvent` are the
transactions of the store; a release is a recorded event. Path resolution, case
folding and the printed form of a time stamp come from the host. Times are
microseconds. For each transaction a `_cases` theorem says once everything it
can do to the table; the results about runs are derived from these. -/
namespace RlmGraph.Store.Lease
open RlmGraph.Lib

/-- What the host computes for the store. -/
structure LeaseHost where
  resolve : String → String
  casefold : String → String
  isoformat : Int → String

def LeaseHost.leaseRoot (host : LeaseHost) (root : String) : String :=
  host.casefold (host.resolve root)

inductive ProjectLeaseStatus where
  | active | released | expired
  deriving DecidableEq

inductive ProjectLeaseEventKind where
  | acquired | renewed | contended | reclaimed | recoveryStarted | recoveryCompleted | released
  deriving DecidableEq

structure ProjectLeaseEvent where
  kind : ProjectLeaseEventKind
  holderId : String
  workflowId : Option String
  detail : String
  occurredAt : Int
  deriving DecidableEq

structure ProjectLease where
  id : String
  projectRoot : String
  projectId : Option String
  holderId : String
  workflowId : Option String
  fencingToken : Nat
  status : ProjectLeaseStatus
  acquiredAt : Int
  renewedAt : Int
  expiresAt : Int
  releasedAt : Option Int
  events : List ProjectLeaseEvent
  deriving DecidableEq

structure ProjectLeaseAcquisition where
  acquired : Bool
  reclaimed : Bool
  lease : ProjectLease
  deriving DecidableEq

abbrev LeaseTable := String → Option ProjectLease

/-- A lease in force at a moment. -/
def ProjectLease.live (lease : ProjectLease) (moment : Int) : Bool :=
  lease.status == .active && decide (moment < lease.expiresAt)

/-! ## Acquisition -/

/-- The arguments of an acquisition, with the identifier drawn for a new lease. -/
structure AcquireRequest where
  projectRoot : String
  holderId : String
  workflowId : Option String
  ttl : Int
  now : Int
  recoveryJournalId : Option String
  newLeaseId : String

/-- A refused attempt leaves its trace in the row it ran into. -/
def contend (host : LeaseHost) (req : AcquireRequest) (current : ProjectLease) : ProjectLease :=
  { current with
    events := current.events ++ [{
      kind := .contended, holderId := req.holderId, workflowId := req.workflowId,
      detail := s!"Lease held by {current.holderId} until {host.isoformat current.expiresAt}.",
      occurredAt := req.now }] }

/-- The current holder acquires again: same token, later expiry. -/
def reenter (req : AcquireRequest) (current : ProjectLease) : ProjectLease :=
  { current with
    renewedAt := req.now
    expiresAt := req.now + req.ttl
    workflowId := orText req.workflowId current.workflowId
    events := current.events ++ [{
      kind := .renewed, holderId := req.holderId, workflowId := req.workflowId,
      detail := "Lease renewed by its current holder.", occurredAt := req.now }] }

/-- Whether the row was abandoned: still active, but past its expiry. -/
def isReclaimed (req : AcquireRequest) (current : Option ProjectLease) : Bool :=
  match current with
  | some lease => lease.status == .active && decide (lease.expiresAt ≤ req.now)
  | none => false

/-- A new lease, one token above the row it replaces. -/
def grant (host : LeaseHost) (req : AcquireRequest) (projectId : Option String)
    (current : Option ProjectLease) : ProjectLease :=
  { id := req.newLeaseId
    projectRoot := host.resolve req.projectRoot
    projectId := projectId
    holderId := req.holderId
    workflowId := req.workflowId
    fencingToken := current.elim 1 (·.fencingToken + 1)
    status := .active
    acquiredAt := req.now
    renewedAt := req.now
    expiresAt := req.now + req.ttl
    releasedAt := none
    events := current.elim [] (·.events) ++ [{
      kind := if isReclaimed req current then .reclaimed else .acquired
      holderId := req.holderId
      workflowId := req.workflowId
      detail := if isReclaimed req current then "Expired lease reclaimed by a new holder."
        else "Exclusive project mutation lease acquired."
      occurredAt := req.now }] }

/-- The transaction of `acquire_project_lease`. -/
def acquireTransaction (host : LeaseHost) (req : AcquireRequest) (projectId : Option String)
    (leases : LeaseTable) : ProjectLeaseAcquisition × LeaseTable :=
  let root := host.leaseRoot req.projectRoot
  match leases root with
  | none =>
    let lease := grant host req projectId none
    (⟨true, false, lease⟩, Function.update leases root (some lease))
  | some current =>
    if current.live req.now = true ∧ current.holderId ≠ req.holderId then
      let current := contend host req current
      (⟨false, false, current⟩, Function.update leases root (some current))
    else if current.live req.now = true ∧ current.holderId = req.holderId then
      let lease := reenter req current
      (⟨true, false, lease⟩, Function.update leases root (some lease))
    else
      let lease := grant host req projectId (some current)
      (⟨true, isReclaimed req (some current), lease⟩, Function.update leases root (some lease))

/-- The guard before the transaction: a project with an unfinished journal is
open only to the recovery of that journal. -/
def blockedByJournal (recoveryJournalId : Option String) (unfinished : List String) : Bool :=
  !unfinished.isEmpty && !(recoveryJournalId.elim false unfinished.contains)

/-- `acquire_project_lease`; `unfinished` holds the identifiers of the
non-terminal journals of the root. -/
def acquireProjectLease (host : LeaseHost) (req : AcquireRequest) (unfinished : List String)
    (projectId : Option String) (leases : LeaseTable) :
    Except PyError ProjectLeaseAcquisition × LeaseTable :=
  if blockedByJournal req.recoveryJournalId unfinished then
    (.error (.runtime "Project has an incomplete sandbox promotion; recover it before acquiring another mutation lease."), leases)
  else
    ((.ok (acquireTransaction host req projectId leases).1),
      (acquireTransaction host req projectId leases).2)

/-! ## Renewal, events and release -/

def staleLease : PyError := .runtime "Project lease is stale or owned by another process."
def missingLease : PyError := .runtime "Project lease no longer exists."

/-- The row after a renewal. -/
def renewed (lease : ProjectLease) (holderId : String) (ttl now : Int) : ProjectLease :=
  { lease with
    renewedAt := now
    expiresAt := now + ttl
    events := lease.events ++ [{
      kind := .renewed, holderId := holderId, workflowId := lease.workflowId,
      detail := "Exclusive mutation lease renewed.", occurredAt := now }] }

def renewProjectLease (host : LeaseHost) (projectRoot holderId : String) (fencingToken : Nat)
    (ttl now : Int) (leases : LeaseTable) : Except PyError ProjectLease × LeaseTable :=
  let root := host.leaseRoot projectRoot
  match leases root with
  | none => (.error missingLease, leases)
  | some lease =>
    if lease.status ≠ .active ∨ lease.holderId ≠ holderId ∨ lease.fencingToken ≠ fencingToken ∨
        lease.expiresAt ≤ now then (.error staleLease, leases)
    else
      let lease := renewed lease holderId ttl now
      (.ok lease, Function.update leases root (some lease))

/-- The row after an event of the given kind. -/
def recorded (lease : ProjectLease) (holderId : String) (kind : ProjectLeaseEventKind)
    (detail : String) (workflowId : Option String) (now : Int) : ProjectLease :=
  let lease := { lease with
    events := lease.events ++ [{
      kind := kind, holderId := holderId, workflowId := orText workflowId lease.workflowId,
      detail := detail, occurredAt := now }] }
  if kind = .released then { lease with status := .released, releasedAt := some now } else lease

/-- `record_project_lease_event`. The expiry is not looked at. -/
def recordProjectLeaseEvent (host : LeaseHost) (projectRoot holderId : String)
    (fencingToken : Nat) (kind : ProjectLeaseEventKind) (detail : String)
    (workflowId : Option String) (now : Int) (leases : LeaseTable) :
    Except PyError ProjectLease × LeaseTable :=
  let root := host.leaseRoot projectRoot
  match leases root with
  | none => (.error missingLease, leases)
  | some lease =>
    if lease.holderId ≠ holderId ∨ lease.fencingToken ≠ fencingToken ∨ lease.status ≠ .active then
      (.error staleLease, leases)
    else
      let lease := recorded lease holderId kind detail workflowId now
      (.ok lease, Function.update leases root (some lease))

def releaseProjectLease (host : LeaseHost) (projectRoot holderId : String) (fencingToken : Nat)
    (now : Int) (leases : LeaseTable) : Except PyError ProjectLease × LeaseTable :=
  recordProjectLeaseEvent host projectRoot holderId fencingToken .released
    "Exclusive project mutation lease released." none now leases

/-! ## What each transaction can do -/

/-- **Everything an acquisition can do**: refuse without a trace, note the
contention in a live row of another holder, prolong a live row of the same
holder, or grant a new lease over a row that is absent or not live. -/
theorem acquireProjectLease_cases {host : LeaseHost} {req : AcquireRequest}
    {unfinished : List String} {projectId : Option String} {leases leases' : LeaseTable}
    {result : Except PyError ProjectLeaseAcquisition}
    (h : acquireProjectLease host req unfinished projectId leases = (result, leases')) :
    (blockedByJournal req.recoveryJournalId unfinished = true ∧ (∃ e, result = .error e) ∧
      leases' = leases) ∨
    (∃ current, leases (host.leaseRoot req.projectRoot) = some current ∧
      current.live req.now = true ∧ current.holderId ≠ req.holderId ∧
      result = .ok ⟨false, false, contend host req current⟩ ∧
      leases' = Function.update leases (host.leaseRoot req.projectRoot)
        (some (contend host req current))) ∨
    (∃ current, leases (host.leaseRoot req.projectRoot) = some current ∧
      current.live req.now = true ∧ current.holderId = req.holderId ∧
      result = .ok ⟨true, false, reenter req current⟩ ∧
      leases' = Function.update leases (host.leaseRoot req.projectRoot)
        (some (reenter req current))) ∨
    ((∀ current, leases (host.leaseRoot req.projectRoot) = some current →
        current.live req.now = false) ∧
      result = .ok ⟨true, isReclaimed req (leases (host.leaseRoot req.projectRoot)),
        grant host req projectId (leases (host.leaseRoot req.projectRoot))⟩ ∧
      leases' = Function.update leases (host.leaseRoot req.projectRoot)
        (some (grant host req projectId (leases (host.leaseRoot req.projectRoot))))) := by
  unfold acquireProjectLease at h
  split at h
  · rename_i hblocked
    obtain ⟨rfl, rfl⟩ := Prod.mk.inj h
    exact Or.inl ⟨hblocked, ⟨_, rfl⟩, rfl⟩
  · obtain ⟨rfl, rfl⟩ := Prod.mk.inj h
    refine Or.inr ?_
    cases hrow : leases (host.leaseRoot req.projectRoot) with
    | none => exact Or.inr (Or.inr (by simp [acquireTransaction, hrow, isReclaimed]))
    | some current =>
      by_cases hlive : current.live req.now = true
      · by_cases hholder : current.holderId = req.holderId
        · refine Or.inr (Or.inl ⟨current, rfl, hlive, hholder, ?_⟩)
          simp [acquireTransaction, hrow, hlive, hholder]
        · refine Or.inl ⟨current, rfl, hlive, hholder, ?_⟩
          simp [acquireTransaction, hrow, hlive, hholder]
      · refine Or.inr (Or.inr ⟨?_, ?_⟩)
        · intro c hc
          cases hc
          simpa using hlive
        · simp [acquireTransaction, hrow, hlive]

/-- A renewal needs the live row of the same holder and token. -/
theorem renewProjectLease_cases {host : LeaseHost} {projectRoot holderId : String} {token : Nat}
    {ttl now : Int} {leases leases' : LeaseTable} {result : Except PyError ProjectLease}
    (h : renewProjectLease host projectRoot holderId token ttl now leases = (result, leases')) :
    ((∃ e, result = .error e) ∧ leases' = leases) ∨
    (∃ lease, leases (host.leaseRoot projectRoot) = some lease ∧
      lease.live now = true ∧ lease.holderId = holderId ∧ lease.fencingToken = token ∧
      result = .ok (renewed lease holderId ttl now) ∧
      leases' = Function.update leases (host.leaseRoot projectRoot)
        (some (renewed lease holderId ttl now))) := by
  unfold renewProjectLease at h
  cases hrow : leases (host.leaseRoot projectRoot) with
  | none =>
    simp only [hrow] at h
    obtain ⟨rfl, rfl⟩ := Prod.mk.inj h
    exact Or.inl ⟨⟨_, rfl⟩, rfl⟩
  | some lease =>
    simp only [hrow] at h
    split at h
    · obtain ⟨rfl, rfl⟩ := Prod.mk.inj h
      exact Or.inl ⟨⟨_, rfl⟩, rfl⟩
    · rename_i hok
      obtain ⟨rfl, rfl⟩ := Prod.mk.inj h
      simp only [not_or, Classical.not_not, Int.not_le] at hok
      obtain ⟨hactive, hholder, htoken, hnow⟩ := hok
      exact Or.inr ⟨lease, rfl, by simp [ProjectLease.live, hactive, hnow], hholder, htoken,
        rfl, rfl⟩

theorem recorded_fencingToken (lease : ProjectLease) (holderId : String)
    (kind : ProjectLeaseEventKind) (detail : String) (workflowId : Option String) (now : Int) :
    (recorded lease holderId kind detail workflowId now).fencingToken = lease.fencingToken := by
  unfold recorded
  split <;> rfl

/-- An event needs the active row of the same holder and token. -/
theorem recordProjectLeaseEvent_cases {host : LeaseHost} {projectRoot holderId : String}
    {token : Nat} {kind : ProjectLeaseEventKind} {detail : String} {workflowId : Option String}
    {now : Int} {leases leases' : LeaseTable} {result : Except PyError ProjectLease}
    (h : recordProjectLeaseEvent host projectRoot holderId token kind detail workflowId now leases =
      (result, leases')) :
    ((∃ e, result = .error e) ∧ leases' = leases) ∨
    (∃ lease, leases (host.leaseRoot projectRoot) = some lease ∧ lease.status = .active ∧
      lease.holderId = holderId ∧ lease.fencingToken = token ∧
      result = .ok (recorded lease holderId kind detail workflowId now) ∧
      leases' = Function.update leases (host.leaseRoot projectRoot)
        (some (recorded lease holderId kind detail workflowId now))) := by
  unfold recordProjectLeaseEvent at h
  cases hrow : leases (host.leaseRoot projectRoot) with
  | none =>
    simp only [hrow] at h
    obtain ⟨rfl, rfl⟩ := Prod.mk.inj h
    exact Or.inl ⟨⟨_, rfl⟩, rfl⟩
  | some lease =>
    simp only [hrow] at h
    split at h
    · obtain ⟨rfl, rfl⟩ := Prod.mk.inj h
      exact Or.inl ⟨⟨_, rfl⟩, rfl⟩
    · rename_i hok
      obtain ⟨rfl, rfl⟩ := Prod.mk.inj h
      simp only [not_or, Classical.not_not] at hok
      obtain ⟨hholder, htoken, hactive⟩ := hok
      exact Or.inr ⟨lease, rfl, hactive, hholder, htoken, rfl, rfl⟩

end RlmGraph.Store.Lease
