import RlmGraph.Store.Lease

/-! # Fencing over runs of lease calls

A run is any list of lease calls by any holders on any roots, each one a
transaction; the clock of every call is its own argument, so no assumption on
clocks is needed. The token of a root never goes down (`runCalls_token`), and
from this and the transaction cases follow the exclusion of other holders and
the fencing of superseded ones (`project_lease_fencing`). -/
namespace RlmGraph.Store.LeaseRuns
open RlmGraph.Lib RlmGraph.Store.Lease

inductive LeaseCall where
  | acquire (req : AcquireRequest) (unfinished : List String) (projectId : Option String)
  | renew (projectRoot holderId : String) (fencingToken : Nat) (ttl now : Int)
  | record (projectRoot holderId : String) (fencingToken : Nat) (kind : ProjectLeaseEventKind)
      (detail : String) (workflowId : Option String) (now : Int)
  | release (projectRoot holderId : String) (fencingToken : Nat) (now : Int)

inductive LeaseReply where
  | acquisition (a : ProjectLeaseAcquisition)
  | lease (l : ProjectLease)
  | raised (e : PyError)
  deriving DecidableEq

def acquireReply : Except PyError ProjectLeaseAcquisition → LeaseReply
  | .ok a => .acquisition a
  | .error e => .raised e

def leaseReply : Except PyError ProjectLease → LeaseReply
  | .ok l => .lease l
  | .error e => .raised e

/-- One call, as one transaction. -/
def call (host : LeaseHost) (leases : LeaseTable) : LeaseCall → LeaseReply × LeaseTable
  | .acquire req unfinished projectId =>
    let r := acquireProjectLease host req unfinished projectId leases
    (acquireReply r.1, r.2)
  | .renew root holder token ttl now =>
    let r := renewProjectLease host root holder token ttl now leases
    (leaseReply r.1, r.2)
  | .record root holder token kind detail workflowId now =>
    let r := recordProjectLeaseEvent host root holder token kind detail workflowId now leases
    (leaseReply r.1, r.2)
  | .release root holder token now =>
    let r := releaseProjectLease host root holder token now leases
    (leaseReply r.1, r.2)

def runCalls (host : LeaseHost) (leases : LeaseTable) (calls : List LeaseCall) : LeaseTable :=
  calls.foldl (fun t c => (call host t c).2) leases

/-- The calls made under a (holder, token) pair, with the root they name. -/
def LeaseCall.fencedBy (host : LeaseHost) (root holder : String) (token : Nat) :
    LeaseCall → Prop
  | .acquire .. => False
  | .renew r h t _ _ | .record r h t _ _ _ _ | .release r h t _ =>
    host.leaseRoot r = root ∧ h = holder ∧ t = token

/-! ## One call -/

/-- No call lowers the token of a root or removes its row. -/
def TokensGrow (leases leases' : LeaseTable) : Prop :=
  ∀ root old, leases root = some old → ∃ new, leases' root = some new ∧
    old.fencingToken ≤ new.fencingToken

theorem TokensGrow.refl (leases : LeaseTable) : TokensGrow leases leases :=
  fun _ old h => ⟨old, h, Nat.le_refl _⟩

theorem TokensGrow.trans {a b c : LeaseTable} (hab : TokensGrow a b) (hbc : TokensGrow b c) :
    TokensGrow a c := by
  intro root old h
  obtain ⟨mid, hmid, hle⟩ := hab root old h
  obtain ⟨new, hnew, hle'⟩ := hbc root mid hmid
  exact ⟨new, hnew, Nat.le_trans hle hle'⟩

theorem TokensGrow.update {leases : LeaseTable} {root : String} {lease : ProjectLease}
    (h : ∀ old, leases root = some old → old.fencingToken ≤ lease.fencingToken) :
    TokensGrow leases (Function.update leases root (some lease)) := by
  intro r old hold
  by_cases hr : r = root
  · subst hr
    exact ⟨lease, by simp, h old hold⟩
  · exact ⟨old, by simp [hr, hold], Nat.le_refl _⟩

theorem acquire_tokensGrow {host : LeaseHost} {req : AcquireRequest} {unfinished : List String}
    {projectId : Option String} {leases leases' : LeaseTable}
    {result : Except PyError ProjectLeaseAcquisition}
    (h : acquireProjectLease host req unfinished projectId leases = (result, leases')) :
    TokensGrow leases leases' := by
  rcases acquireProjectLease_cases h with
    ⟨-, -, rfl⟩ | ⟨c, hc, -, -, -, rfl⟩ | ⟨c, hc, -, -, -, rfl⟩ | ⟨-, -, rfl⟩
  · exact TokensGrow.refl leases'
  · refine TokensGrow.update fun old hold => ?_
    rw [hc] at hold; cases hold; exact Nat.le_refl _
  · refine TokensGrow.update fun old hold => ?_
    rw [hc] at hold; cases hold; exact Nat.le_refl _
  · refine TokensGrow.update fun old hold => ?_
    simp [grant, hold]

theorem renew_tokensGrow {host : LeaseHost} {root holder : String} {token : Nat} {ttl now : Int}
    {leases leases' : LeaseTable} {result : Except PyError ProjectLease}
    (h : renewProjectLease host root holder token ttl now leases = (result, leases')) :
    TokensGrow leases leases' := by
  rcases renewProjectLease_cases h with ⟨-, rfl⟩ | ⟨l, hl, -, -, -, -, rfl⟩
  · exact TokensGrow.refl leases'
  · refine TokensGrow.update fun old hold => ?_
    rw [hl] at hold; cases hold; exact Nat.le_refl _

theorem record_tokensGrow {host : LeaseHost} {root holder : String} {token : Nat}
    {kind : ProjectLeaseEventKind} {detail : String} {workflowId : Option String} {now : Int}
    {leases leases' : LeaseTable} {result : Except PyError ProjectLease}
    (h : recordProjectLeaseEvent host root holder token kind detail workflowId now leases =
      (result, leases')) : TokensGrow leases leases' := by
  rcases recordProjectLeaseEvent_cases h with ⟨-, rfl⟩ | ⟨l, hl, -, -, -, -, rfl⟩
  · exact TokensGrow.refl leases'
  · refine TokensGrow.update fun old hold => ?_
    rw [hl] at hold; cases hold; exact Nat.le_of_eq (recorded_fencingToken _ _ _ _ _ _).symm

theorem call_tokensGrow (host : LeaseHost) (leases : LeaseTable) (c : LeaseCall) :
    TokensGrow leases (call host leases c).2 := by
  cases c with
  | acquire req unfinished projectId => exact acquire_tokensGrow rfl
  | renew root holder token ttl now => exact renew_tokensGrow rfl
  | record root holder token kind detail workflowId now => exact record_tokensGrow rfl
  | release root holder token now => exact record_tokensGrow rfl

/-- **Over a run the token of a root never goes down.** -/
theorem runCalls_tokensGrow (host : LeaseHost) (calls : List LeaseCall) (leases : LeaseTable) :
    TokensGrow leases (runCalls host leases calls) := by
  induction calls generalizing leases with
  | nil => exact TokensGrow.refl leases
  | cons c calls ih => exact (call_tokensGrow host leases c).trans (ih _)

/-! ## Superseded holders -/

theorem fenced_record_raises {host : LeaseHost} {leases : LeaseTable} {root : String}
    {token : Nat} {row : ProjectLease} (holder : String) (hrow : leases (host.leaseRoot root) = some row)
    (hlt : token < row.fencingToken) (kind : ProjectLeaseEventKind) (detail : String)
    (workflowId : Option String) (now : Int) :
    ∃ e, recordProjectLeaseEvent host root holder token kind detail workflowId now leases =
      (.error e, leases) := by
  generalize h : recordProjectLeaseEvent host root holder token kind detail workflowId now leases = r
  obtain ⟨result, leases'⟩ := r
  rcases recordProjectLeaseEvent_cases h with ⟨⟨e, rfl⟩, rfl⟩ | ⟨l, hl, -, -, ht, -, -⟩
  · exact ⟨e, rfl⟩
  · rw [hrow] at hl; cases hl; omega

theorem fenced_renew_raises {host : LeaseHost} {leases : LeaseTable} {root : String}
    {token : Nat} {row : ProjectLease} (holder : String) (hrow : leases (host.leaseRoot root) = some row)
    (hlt : token < row.fencingToken) (ttl now : Int) :
    ∃ e, renewProjectLease host root holder token ttl now leases = (.error e, leases) := by
  generalize h : renewProjectLease host root holder token ttl now leases = r
  obtain ⟨result, leases'⟩ := r
  rcases renewProjectLease_cases h with ⟨⟨e, rfl⟩, rfl⟩ | ⟨l, hl, -, -, ht, -, -⟩
  · exact ⟨e, rfl⟩
  · rw [hrow] at hl; cases hl; omega

/-- A call under a token below the stored one raises and changes nothing. -/
theorem fenced_call_raises {host : LeaseHost} {leases : LeaseTable} {root holder : String}
    {token : Nat} {c : LeaseCall} {row : ProjectLease} (hc : c.fencedBy host root holder token)
    (hrow : leases root = some row) (hlt : token < row.fencingToken) :
    ∃ e, call host leases c = (.raised e, leases) := by
  cases c with
  | acquire req unfinished projectId => exact hc.elim
  | renew r h t ttl now =>
    obtain ⟨rfl, rfl, rfl⟩ := hc
    obtain ⟨e, he⟩ := fenced_renew_raises h hrow hlt ttl now
    exact ⟨e, by rw [call, he]; rfl⟩
  | record r h t kind detail workflowId now =>
    obtain ⟨rfl, rfl, rfl⟩ := hc
    obtain ⟨e, he⟩ := fenced_record_raises h hrow hlt kind detail workflowId now
    exact ⟨e, by rw [call, he]; rfl⟩
  | release r h t now =>
    obtain ⟨rfl, rfl, rfl⟩ := hc
    obtain ⟨e, he⟩ := fenced_record_raises h hrow hlt .released
      "Exclusive project mutation lease released." none now
    exact ⟨e, by rw [call, releaseProjectLease, he]; rfl⟩

/-- What a successful acquisition says about the row it found and the row it left. -/
theorem acquired_spec {host : LeaseHost} {leases leases' : LeaseTable} {req : AcquireRequest}
    {unfinished : List String} {projectId : Option String} {a : ProjectLeaseAcquisition}
    (h : acquireProjectLease host req unfinished projectId leases = (.ok a, leases'))
    (ha : a.acquired = true) :
    leases' (host.leaseRoot req.projectRoot) = some a.lease ∧ a.lease.holderId = req.holderId ∧
    ∀ old, leases (host.leaseRoot req.projectRoot) = some old →
      (old.live req.now = true → old.holderId = req.holderId) ∧
      (¬(old.live req.now = true ∧ old.holderId = req.holderId) →
        old.fencingToken < a.lease.fencingToken) := by
  rcases acquireProjectLease_cases h with
    ⟨-, ⟨e, he⟩, -⟩ | ⟨c, hc, -, -, he, -⟩ | ⟨c, hc, hlive, hholder, he, rfl⟩ | ⟨hdead, he, rfl⟩ <;>
    cases he
  · cases ha
  · refine ⟨by simp, hholder, fun old hold => ?_⟩
    rw [hc] at hold; cases hold
    exact ⟨fun _ => hholder, fun hnot => absurd ⟨hlive, hholder⟩ hnot⟩
  · refine ⟨by simp, rfl, fun old hold => ?_⟩
    exact ⟨fun hlive => absurd hlive (by simp [hdead old hold]), fun _ => by simp [grant, hold]⟩

theorem call_acquire_inj {host : LeaseHost} {leases leases' : LeaseTable} {req : AcquireRequest}
    {unfinished : List String} {projectId : Option String} {a : ProjectLeaseAcquisition}
    (h : call host leases (.acquire req unfinished projectId) = (.acquisition a, leases')) :
    acquireProjectLease host req unfinished projectId leases = (.ok a, leases') := by
  rw [call] at h
  generalize acquireProjectLease host req unfinished projectId leases = r at h ⊢
  obtain ⟨result, leases''⟩ := r
  cases result with
  | error e => cases h
  | ok b => cases h; rfl

/-- **Project lease fencing**, over every run of lease calls. From any table
and after any calls: tokens never go down; a successful acquisition raises the
token except when the live row is already the caller's, and it never succeeds
over a live row of another holder; and after it, whatever is called later, a
renewal, event or release under a smaller token raises and changes nothing. -/
theorem project_lease_fencing (host : LeaseHost) (start : LeaseTable)
    (earlier : List LeaseCall) :
    (∀ later, TokensGrow (runCalls host start earlier)
      (runCalls host (runCalls host start earlier) later)) ∧
    ∀ req unfinished projectId a leases',
      call host (runCalls host start earlier) (.acquire req unfinished projectId) =
        (.acquisition a, leases') → a.acquired = true →
      (∀ old, runCalls host start earlier (host.leaseRoot req.projectRoot) = some old →
        (old.live req.now = true → old.holderId = req.holderId) ∧
        (¬(old.live req.now = true ∧ old.holderId = req.holderId) →
          old.fencingToken < a.lease.fencingToken)) ∧
      ∀ later holder token c,
        c.fencedBy host (host.leaseRoot req.projectRoot) holder token →
        token < a.lease.fencingToken →
        ∃ e, call host (runCalls host leases' later) c = (.raised e, runCalls host leases' later) := by
  refine ⟨fun later => runCalls_tokensGrow host later _, ?_⟩
  intro req unfinished projectId a leases' h ha
  obtain ⟨hrow, -, hold⟩ := acquired_spec (call_acquire_inj h) ha
  refine ⟨hold, fun later holder token c hc hlt => ?_⟩
  obtain ⟨row, hrow', hle⟩ := runCalls_tokensGrow host later leases' _ _ hrow
  exact fenced_call_raises hc hrow' (Nat.lt_of_lt_of_le hlt hle)

/-- Two holders on one root: the first lease expires at 10, the second is granted at 20. -/
def plainHost : LeaseHost := ⟨id, id, fun _ => ""⟩

def firstAcquire : AcquireRequest := ⟨"p", "a", none, 10, 0, none, "L1"⟩
def secondAcquire : AcquireRequest := ⟨"p", "b", none, 10, 20, none, "L2"⟩

def afterFirst : LeaseTable := runCalls plainHost (fun _ => none) [.acquire firstAcquire [] none]
def secondLease : ProjectLease := grant plainHost secondAcquire none (afterFirst "p")

theorem project_lease_fencing_takeover :
    (1 < secondLease.fencingToken) ∧
    ∃ e, call plainHost (Function.update afterFirst "p" (some secondLease))
      (.release "p" "a" 1 30) =
        (.raised e, Function.update afterFirst "p" (some secondLease)) :=
  have second := (project_lease_fencing plainHost (fun _ => none)
    [.acquire firstAcquire [] none]).2 secondAcquire [] none ⟨true, true, secondLease⟩
    (Function.update afterFirst "p" (some secondLease)) rfl rfl
  ⟨(second.1 _ rfl).2 (by decide), second.2 [] "a" 1 (.release "p" "a" 1 30) ⟨rfl, rfl, rfl⟩
    (by decide)⟩

end RlmGraph.Store.LeaseRuns
