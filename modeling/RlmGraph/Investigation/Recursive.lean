import Mathlib.Algebra.Order.BigOperators.Group.List
import Mathlib.Algebra.Order.Group.Nat
import RlmGraph.Lib.PyText
import RlmGraph.Lib.Rounds
import RlmGraph.Runner.Records

/-! # Recursive investigation

`RecursiveInvestigationSupervisor.run`: an exact replay, or a plan, the branches
of a queue that grows while it is worked off, and a synthesis. The host answers
what the models return or raise and what the clock shows. Edges, conflicts and
progress reports are left out. -/
namespace RlmGraph.Investigation.Recursive

open RlmGraph.Lib RlmGraph.Lib.PyText RlmGraph.Lib.Rounds
open RlmGraph.Runner.Records hiding Claim GraphStore

/-- The budgets that the constructor accepts. -/
structure RecursiveConfig where
  maxDepth : Nat := 2
  maxBranches : Nat := 4
  maxModelCalls : Nat := 8
  maxWallTimeSeconds : Option ℚ := some 180
  depth : 1 ≤ maxDepth := by decide
  branches : 2 ≤ maxBranches := by decide
  calls : 4 ≤ maxModelCalls := by decide
  wallTime : ∀ limit ∈ maxWallTimeSeconds, 0 < limit := by decide

structure Claim where
  id : String
  conclusion : String
  evidence : List String := []
  confidence : ℚ
  unresolvedQuestions : List String := []
  current : Bool := true
  deriving DecidableEq

/-- What `branch_supervisor.run` or `_investigate_bounded` returns. -/
structure BranchResult where
  task : Task
  claim : Claim
  cacheHit : Bool
  investigationCalls : Nat

structure RecursiveRunResult where
  task : Task
  claim : Claim
  subTasks : List Task
  findingClaims : List Claim
  planningQuestions : List String
  cacheHit : Bool
  reuseType : Option String
  investigationCalls : Nat
  budgetExhausted : Bool

structure RecursiveHost where
  tables : CaseTables
  taskFingerprint : String → String → String
  newId : Nat → String
  now : Nat → Int
  clock : Nat → ℚ
  /-- What the planner returns or raises. -/
  plan : String → Except PyError InvestigationResult
  /-- What the investigation of the n-th branch returns or raises. -/
  branch : Nat → String → Except PyError BranchResult
  /-- How many model calls that investigation makes. -/
  branchCalls : Nat → String → Nat
  synthesize : String → List Claim → Except PyError InvestigationResult

/-- The tasks and claims of the store. -/
structure GraphStore where
  tasks : List Task
  claims : List Claim

def isTimeout : PyError → Bool
  | .other name _ => name == "TimeoutError"
  | _ => false

/-- `except (ReadOnlyViolation, RuntimeError, TimeoutError)`. -/
def isBranchFailure : PyError → Bool
  | .readOnlyViolation _ | .runtime _ => true
  | e => isTimeout e

/-! ## Exact replay -/

section
local instance lawfulParents : LawfulBEq (Option String) := inferInstance

/-- `children`: the tasks below what has been collected that are not in it. -/
def newChildren (tasks : List Task) (rootId : String) (descendants : List Task) : List Task :=
  let parentIds := rootId :: descendants.map (·.id)
  (tasks.filter fun task => decide (task.parentTaskId ∈ parentIds.map some)).filter
    fun task => decide (task ∉ descendants)

end

/-- One turn of the loop that collects the descendants. -/
def deeper (tasks : List Task) (rootId : String) (descendants : List Task) : List Task × Bool :=
  if newChildren tasks rootId descendants = [] then (descendants, false)
  else (descendants ++ newChildren tasks rootId descendants, true)

/-- `_exact_replay`; `none` where the rounds do not suffice. -/
def exactReplay (store : GraphStore) (rootFingerprint projectState : String) (fuel : Nat) :
    Option (Option RecursiveRunResult) :=
  let getClaim := fun id => store.claims.find? (·.id == id)
  match store.tasks.reverse.find? fun task =>
    task.fingerprint == rootFingerprint && task.projectFingerprint == projectState &&
      task.status == .done && (given task.outputClaimId).isSome with
  | none => some none
  | some root =>
    match getClaim (root.outputClaimId.getD "") with
    | none => some none
    | some claim =>
      let findings := (root.sourceClaimIds.filterMap getClaim).filter (·.current)
      if !claim.current then some none
      else if findings.length ≠ root.sourceClaimIds.length then some none
      else
        (whileChanged (deeper store.tasks root.id) fuel []).map fun descendants => some {
          task := root
          claim
          subTasks := descendants
          findingClaims := findings
          planningQuestions :=
            (descendants.filter fun task => task.parentTaskId == some root.id).map (·.question)
          cacheHit := true
          reuseType := some "exact-recursive-replay"
          investigationCalls := 0
          budgetExhausted := false }

/-! ## Branches -/

/-- The variables of the loop over the queue. -/
structure Branching where
  queue : List (Task × String × Nat)
  seen : List String
  modelCalls : Nat
  tasks : List Task := []
  findings : List Claim := []
  reused : Nat := 0
  budgetExhausted : Bool := false
  branchOrdinal : Nat := 0
  branchFailures : List String
  /-- What the loop is left with, if it is left by an exception. -/
  raised : Option PyError := none
  /-- How often the clock has been read. -/
  readings : Nat := 1
  drawn : Nat := 1
  /-- How many model calls have been made. Nothing reads it. -/
  calls : Nat
  /-- The depths of the branches that have been investigated. Nothing reads it. -/
  expanded : List Nat := []

section
variable (host : RecursiveHost) (config : RecursiveConfig)

/-- `_normalize`. -/
def normalize (text : String) : String := squeeze (lower host.tables text)

/-- `_expired`, where `started` is the first reading of the clock. -/
def expired (s : Branching) : Bool × Branching :=
  match config.maxWallTimeSeconds with
  | none => (false, s)
  | some limit =>
    (decide (limit ≤ host.clock s.readings - host.clock 0), { s with readings := s.readings + 1 })

/-- `_planned_questions`. -/
def plannedQuestions (original : String) (result : InvestigationResult) : List String :=
  let questions := (result.unresolvedQuestions.map squeeze).filter (· ≠ "")
  let unique := (distinct questions).take config.maxBranches
  if 2 ≤ unique.length then unique else [original]

/-- The gaps of a claim that no question has been asked for yet. -/
def enqueueGaps (task : Task) (depth : Nat) :
    List String → List (Task × String × Nat) × List String → List (Task × String × Nat) × List String
  | [], s => s
  | gap :: gaps, (queue, seen) =>
    let normalized := normalize host gap
    if normalized ≠ "" ∧ normalized ∉ seen then
      enqueueGaps task depth gaps
        (queue ++ [(task, "Resolve this evidence gap: " ++ gap, depth + 1)], normalized :: seen)
    else enqueueGaps task depth gaps (queue, seen)

/-- A branch that was stopped: it is charged one call. -/
def stopped (projectRoot projectState : String) (parent : Task) (question : String) (depth : Nat)
    (error : PyError) (s : Branching) : Branching :=
  let failed : Task := {
    id := host.newId s.drawn
    question
    fingerprint := host.taskFingerprint ("rejected-branch:" ++ question) projectState
    projectFingerprint := projectState
    projectRoot
    kind := .followUp
    parentTaskId := some parent.id
    depth
    route := some .localInvestigator
    status := .stopped
    stoppingReason := some .retryExhausted
    lastError := some error.message
    createdAt := host.now s.drawn }
  { s with
    modelCalls := s.modelCalls + 1
    drawn := s.drawn + 1
    tasks := s.tasks ++ [failed]
    branchFailures := s.branchFailures ++
      ["Rejected branch '" ++ question ++ "': " ++ error.message] }

/-- A branch that returned: its calls are charged, and its gaps are queued where
the depth allows it. -/
def returned (parent : Task) (depth : Nat) (result : BranchResult) (s : Branching) : Branching :=
  let task := { result.task with
    kind := .followUp, parentTaskId := some parent.id, depth := (depth : Int) }
  let gaps := if depth < config.maxDepth then result.claim.unresolvedQuestions.take config.maxBranches
    else []
  let (queue, seen) := enqueueGaps host task depth gaps (s.queue, s.seen)
  { s with
    modelCalls := s.modelCalls + result.investigationCalls
    tasks := s.tasks ++ [task]
    findings := s.findings ++ [result.claim]
    reused := s.reused + result.cacheHit.toNat
    queue
    seen }

/-- One turn of the loop over the queue, and whether there is another one. -/
def branchStep (projectRoot projectState : String) (s : Branching) : Branching × Bool :=
  match s.raised, s.queue with
  | some _, _ | none, [] => (s, false)
  | none, (parent, question, depth) :: queue =>
    let s := { s with queue }
    -- the clock is not read where no call is left
    if config.maxModelCalls - 1 ≤ s.modelCalls then ({ s with budgetExhausted := true }, false)
    else
      let (late, s) := expired host config s
      if late then ({ s with budgetExhausted := true }, false)
      else
        let ordinal := s.branchOrdinal + 1
        let s := { s with
          branchOrdinal := ordinal
          calls := s.calls + host.branchCalls ordinal question
          expanded := s.expanded ++ [depth] }
        match host.branch ordinal question with
        | .ok result => (returned host config parent depth result s, true)
        | .error error =>
          if isBranchFailure error then
            (stopped host projectRoot projectState parent question depth error s, true)
          else ({ s with raised := some error }, false)

/-! ## The run -/

/-- `max(findings, key=confidence)`: the first of the strongest. -/
def strongest (first : Claim) (rest : List Claim) : Claim :=
  rest.foldl (fun best next => if best.confidence < next.confidence then next else best) first

/-- `_fallback_synthesis`. -/
def fallbackSynthesis (first : Claim) (rest : List Claim) (reason : String) : InvestigationResult :=
  let strongest := strongest first rest
  { conclusion := strongest.conclusion
    evidence := strongest.evidence
    confidence := strongest.confidence
    unresolvedQuestions := strongest.unresolvedQuestions ++
      ["Partial evidence returned because synthesis did not complete: " ++ reason] }

/-- What a run returns or raises, with the model calls it made and the depths
of the branches it investigated. -/
structure Outcome where
  result : Except PyError RecursiveRunResult
  calls : Nat
  expanded : List Nat

/-- The synthesis, and whether it timed out. -/
def synthesisOf (question : String) (first : Claim) (rest : List Claim) (late : Bool) :
    Except PyError (InvestigationResult × Bool) :=
  if late then .ok (fallbackSynthesis first rest "The total evidence deadline was reached.", true)
  else match host.synthesize question (first :: rest) with
    | .ok synthesis => .ok (synthesis, false)
    | .error error =>
      if isTimeout error then .ok (fallbackSynthesis first rest error.message, true)
      else .error error

/-- After the loop. -/
def conclude (root : Task) (question : String) (planned : List String) (s : Branching) : Outcome :=
  match s.raised, s.findings with
  | some error, _ => { result := .error error, calls := s.calls, expanded := s.expanded }
  | none, [] =>
    { result := .error (.runtime
        "Recursive investigation exhausted its budget before any branch completed.")
      calls := s.calls
      expanded := s.expanded }
  | none, first :: rest =>
    let (late, s) := expired host config s
    let calls := if late then s.calls else s.calls + 1
    match synthesisOf host question first rest late with
    | .error error => { result := .error error, calls, expanded := s.expanded }
    | .ok (synthesis, timedOut) =>
      let budgetExhausted := s.budgetExhausted || timedOut
      let unresolved := distinct (synthesis.unresolvedQuestions ++ s.branchFailures)
      let claim : Claim := {
        id := host.newId s.drawn
        conclusion := synthesis.conclusion
        evidence := synthesis.evidence
        confidence := synthesis.confidence
        unresolvedQuestions := unresolved }
      let reused := s.reused == s.tasks.length
      let reuseType := if reused then some "recursive-memory" else none
      let root := { root with
        outputClaimId := some claim.id
        sourceClaimIds := (first :: rest).map (·.id)
        status := if budgetExhausted || unresolved ≠ [] then .recurse else .done
        stoppingReason := some (if budgetExhausted then .callBudget
          else if unresolved ≠ [] then .lowConfidence else .completed)
        reuseType }
      { result := .ok {
          task := root
          claim
          subTasks := s.tasks
          findingClaims := first :: rest
          planningQuestions := planned
          cacheHit := s.tasks ≠ [] && reused
          reuseType
          investigationCalls := s.modelCalls + 1
          budgetExhausted }
        calls
        expanded := s.expanded }

/-- The state in which the loop over the queue begins, or what the planner
raised. -/
def planning (question : String) (root : Task) : Except PyError (List String × Branching) :=
  match host.plan question with
  | .ok plan => .ok (begin (plannedQuestions config question plan) [])
  | .error error =>
    if isTimeout error then
      .ok (begin [question] ["Planning timed out; continued with the authoritative user question: "
        ++ error.message])
    else .error error
where
  begin (planned failures : List String) : List String × Branching :=
    (planned, {
      queue := planned.map fun item => (root, item, 1)
      seen := planned.map (normalize host)
      modelCalls := 1
      branchFailures := failures
      calls := 1 })

/-- The task of the run. -/
def rootTask (question projectRoot projectState : String) : Task :=
  { id := host.newId 0
    question
    fingerprint := host.taskFingerprint ("recursive:" ++ question) projectState
    projectFingerprint := projectState
    projectRoot
    attemptCount := 1
    route := some .codex
    createdAt := host.now 0 }

/-- `run`; `none` where the rounds do not suffice. -/
def run (store : GraphStore) (question projectRoot projectState : String)
    (forceInvestigation : Bool) (fuel : Nat) : Option Outcome :=
  let rootFingerprint := host.taskFingerprint ("recursive:" ++ question) projectState
  let replay :=
    if forceInvestigation then some none else exactReplay store rootFingerprint projectState fuel
  match replay with
  | none => none
  | some (some replay) => some { result := .ok replay, calls := 0, expanded := [] }
  | some none =>
    let root := rootTask host question projectRoot projectState
    match planning host config question root with
    | .error error => some { result := .error error, calls := 1, expanded := [] }
    | .ok (planned, s) =>
      (whileChanged (branchStep host config projectRoot projectState) fuel s).map
        (conclude host config root question planned)

end

/-! ## The replay ends -/

theorem deeper_lt {tasks : List Task} {rootId : String} {descendants : List Task}
    (h : (deeper tasks rootId descendants).2 = true) :
    (tasks.filter fun task => decide (task ∉ (deeper tasks rootId descendants).1)).length <
      (tasks.filter fun task => decide (task ∉ descendants)).length := by
  unfold deeper at h ⊢
  split at h
  · cases h
  · rename_i hchildren
    rw [if_neg hchildren]
    obtain ⟨child, hchild⟩ := List.exists_mem_of_ne_nil _ hchildren
    obtain ⟨hmem, hnew⟩ := List.mem_filter.mp hchild
    have htask : child ∈ tasks := List.mem_of_mem_filter hmem
    have hsub : (tasks.filter fun task => decide (task ∉ descendants ++
        newChildren tasks rootId descendants)).Sublist
        (tasks.filter fun task => decide (task ∉ descendants)) := by
      refine List.monotone_filter_right tasks fun task htask => ?_
      simp only [decide_eq_true_eq, List.mem_append, not_or] at htask ⊢
      exact htask.1
    refine Nat.lt_of_le_of_ne hsub.length_le fun heq => ?_
    have hin : child ∈ tasks.filter fun task => decide (task ∉ descendants) :=
      List.mem_filter.mpr ⟨htask, hnew⟩
    rw [← hsub.eq_of_length heq] at hin
    have hout : child ∉ descendants ++ newChildren tasks rootId descendants :=
      of_decide_eq_true (List.mem_filter.mp hin).2
    exact hout (List.mem_append_right _ hchild)

theorem descendants_return (tasks : List Task) (rootId : String) :
    ∃ descendants, ∀ fuel, tasks.length < fuel →
      whileChanged (deeper tasks rootId) fuel [] = some descendants := by
  obtain ⟨descendants, hends⟩ := whileChanged_returns (f := deeper tasks rootId)
    (P := fun _ => True) (s := [])
    (μ := fun ds => (tasks.filter fun task => decide (task ∉ ds)).length)
    (fun _ _ => trivial) (fun _ _ h => deeper_lt h) trivial
  refine ⟨descendants, fun fuel hfuel => hends fuel ?_⟩
  exact Nat.lt_of_le_of_lt (List.length_filter_le _ _) hfuel

theorem map_returns {α β : Type} {n : Nat} {o : Nat → Option α}
    (h : ∃ a, ∀ fuel, n < fuel → o fuel = some a) (f : α → β) :
    ∃ b, ∀ fuel, n < fuel → (o fuel).map f = some b := by
  obtain ⟨a, ha⟩ := h
  refine ⟨f a, fun fuel hfuel => ?_⟩
  rw [ha fuel hfuel]
  rfl

theorem exactReplay_returns (store : GraphStore) (rootFingerprint projectState : String) :
    ∃ replay, ∀ fuel, store.tasks.length < fuel →
      exactReplay store rootFingerprint projectState fuel = some replay := by
  unfold exactReplay
  split
  · exact ⟨none, fun _ _ => rfl⟩
  · rename_i root _
    dsimp only
    split
    · exact ⟨none, fun _ _ => rfl⟩
    · split
      · exact ⟨none, fun _ _ => rfl⟩
      · split
        · exact ⟨none, fun _ _ => rfl⟩
        · exact map_returns (descendants_return store.tasks root.id) _

/-! ## The queue is worked off -/

section
variable {host : RecursiveHost} {config : RecursiveConfig} {projectRoot projectState : String}

variable (host) in
/-- The gaps that are queued, one level deeper. -/
theorem enqueueGaps_spec (task : Task) (depth : Nat) (gaps : List String)
    (s : List (Task × String × Nat) × List String) :
    ∃ new, (enqueueGaps host task depth gaps s).1 = s.1 ++ new ∧ new.length ≤ gaps.length ∧
      ∀ item ∈ new, item.2.2 = depth + 1 := by
  induction gaps generalizing s with
  | nil => exact ⟨[], (List.append_nil _).symm, Nat.le_refl _, fun item h => by cases h⟩
  | cons gap gaps ih =>
    rw [enqueueGaps]
    split
    · obtain ⟨new, hqueue, hlength, hdepth⟩ := ih
        (s.1 ++ [(task, "Resolve this evidence gap: " ++ gap, depth + 1)],
          normalize host gap :: s.2)
      refine ⟨(task, "Resolve this evidence gap: " ++ gap, depth + 1) :: new, ?_,
        Nat.succ_le_succ hlength, List.forall_mem_cons.mpr ⟨rfl, hdepth⟩⟩
      rw [hqueue, List.append_assoc, List.singleton_append]
    · obtain ⟨new, hqueue, hlength, hdepth⟩ := ih s
      exact ⟨new, hqueue, Nat.le_succ_of_le hlength, hdepth⟩

/-- How many branches can come of one that has `r` levels below it. -/
def weight (config : RecursiveConfig) : Nat → Nat
  | 0 => 1
  | r + 1 => 1 + config.maxBranches * weight config r

def queueWeight (config : RecursiveConfig) (queue : List (Task × String × Nat)) : Nat :=
  (queue.map fun item => weight config (config.maxDepth - item.2.2)).sum

theorem weight_pos (config : RecursiveConfig) (r : Nat) : 0 < weight config r := by
  cases r with
  | zero => exact Nat.one_pos
  | succ r => exact Nat.add_pos_left Nat.one_pos _

/-- What a branch leaves in the queue weighs less than the branch did. -/
theorem returned_weight (parent : Task) {depth : Nat} {question : String} (result : BranchResult)
    (s : Branching) :
    queueWeight config (returned host config parent depth result s).queue <
      queueWeight config ((parent, question, depth) :: s.queue) := by
  obtain ⟨new, hqueue, hlength, hdepth⟩ := enqueueGaps_spec host
    { result.task with kind := .followUp, parentTaskId := some parent.id, depth := (depth : Int) }
    depth
    (if depth < config.maxDepth then result.claim.unresolvedQuestions.take config.maxBranches
      else []) (s.queue, s.seen)
  have hnew : (returned host config parent depth result s).queue = s.queue ++ new := hqueue
  have hsum : queueWeight config new ≤ new.length * weight config (config.maxDepth - (depth + 1)) := by
    have h := List.sum_le_card_nsmul
      (new.map fun item => weight config (config.maxDepth - item.2.2))
      (weight config (config.maxDepth - (depth + 1))) (by
        intro w hw
        obtain ⟨item, hitem, rfl⟩ := List.mem_map.mp hw
        rw [hdepth item hitem])
    simpa [queueWeight] using h
  have hless : queueWeight config new < weight config (config.maxDepth - depth) := by
    by_cases hd : depth < config.maxDepth
    · rw [if_pos hd] at hlength
      have hcount : new.length ≤ config.maxBranches :=
        Nat.le_trans hlength (List.length_take_le _ _)
      have hlevel : config.maxDepth - depth = (config.maxDepth - (depth + 1)) + 1 := by omega
      rw [hlevel, weight]
      have hmul := Nat.mul_le_mul_right (weight config (config.maxDepth - (depth + 1))) hcount
      omega
    · rw [if_neg hd] at hlength
      rw [List.length_eq_zero_iff.mp (Nat.le_zero.mp hlength)]
      exact weight_pos config _
  have happend : queueWeight config (s.queue ++ new) =
      queueWeight config s.queue + queueWeight config new := by
    simp [queueWeight]
  have hcons : queueWeight config ((parent, question, depth) :: s.queue) =
      weight config (config.maxDepth - depth) + queueWeight config s.queue := by
    simp [queueWeight]
  rw [hnew, happend, hcons]
  omega

/-- The branch that is taken up next, with the variables of the loop. -/
def takenUp (host : RecursiveHost) (queue : List (Task × String × Nat)) (question : String)
    (depth readings : Nat) (s : Branching) : Branching :=
  { s with
    queue
    readings
    branchOrdinal := s.branchOrdinal + 1
    calls := s.calls + host.branchCalls (s.branchOrdinal + 1) question
    expanded := s.expanded ++ [depth] }

variable (host config) in
theorem expired_eq (s : Branching) :
    ∃ late readings, expired host config s = (late, { s with readings }) := by
  unfold expired
  cases config.maxWallTimeSeconds with
  | none => exact ⟨false, s.readings, rfl⟩
  | some limit => exact ⟨_, s.readings + 1, rfl⟩

variable (host config projectRoot projectState) in
/-- What one turn of the loop can do. -/
theorem branchStep_cases (s : Branching) :
    ((branchStep host config projectRoot projectState s).2 = false ∧
      ∃ queue readings exhausted, queue ⊆ s.queue ∧
        (branchStep host config projectRoot projectState s).1 =
          { s with queue, readings, budgetExhausted := exhausted }) ∨
    ∃ parent question depth queue readings, s.raised = none ∧
      s.queue = (parent, question, depth) :: queue ∧ s.modelCalls < config.maxModelCalls - 1 ∧
      ((∃ result, host.branch (s.branchOrdinal + 1) question = .ok result ∧
          branchStep host config projectRoot projectState s =
            (returned host config parent depth result
              (takenUp host queue question depth readings s), true)) ∨
        ∃ error, host.branch (s.branchOrdinal + 1) question = .error error ∧
          (branchStep host config projectRoot projectState s =
              (stopped host projectRoot projectState parent question depth error
                (takenUp host queue question depth readings s), true) ∨
            branchStep host config projectRoot projectState s =
              ({ takenUp host queue question depth readings s with raised := some error },
                false))) := by
  unfold branchStep
  split
  · exact Or.inl ⟨rfl, s.queue, s.readings, s.budgetExhausted, List.Subset.refl _, rfl⟩
  · exact Or.inl ⟨rfl, s.queue, s.readings, s.budgetExhausted, List.Subset.refl _, rfl⟩
  · rename_i parent question depth queue hraised hqueue
    have hsub : queue ⊆ s.queue := hqueue ▸ List.subset_cons_self _ _
    dsimp only
    split
    · exact Or.inl ⟨rfl, queue, s.readings, true, hsub, rfl⟩
    · rename_i hcalls
      obtain ⟨late, readings, hexpired⟩ := expired_eq host config { s with queue }
      rw [hexpired]
      dsimp only
      split
      · exact Or.inl ⟨rfl, queue, readings, true, hsub, rfl⟩
      · refine Or.inr ⟨parent, question, depth, queue, readings, hraised, hqueue, by omega, ?_⟩
        cases hbranch : host.branch (s.branchOrdinal + 1) question with
        | ok result => exact Or.inl ⟨result, rfl, rfl⟩
        | error error =>
          refine Or.inr ⟨error, rfl, ?_⟩
          by_cases hfailure : isBranchFailure error = true
          · exact Or.inl (if_pos hfailure)
          · exact Or.inr (if_neg hfailure)

/-- The calls are within what the loop counts, and the loop within the budget
that leaves a call for the synthesis; no branch is below the depth. -/
structure Within (config : RecursiveConfig) (s : Branching) : Prop where
  counted : s.raised = none → s.calls ≤ s.modelCalls
  calls : s.calls ≤ config.maxModelCalls - 1
  budget : s.modelCalls ≤ config.maxModelCalls - 1
  queued : ∀ item ∈ s.queue, item.2.2 ≤ config.maxDepth
  expanded : ∀ d ∈ s.expanded, d ≤ config.maxDepth

/-- A branch makes at most one model call, and reports it. -/
def OneCall (host : RecursiveHost) : Prop :=
  ∀ ordinal question, host.branchCalls ordinal question ≤ 1 ∧
    ∀ result, host.branch ordinal question = .ok result →
      result.investigationCalls = host.branchCalls ordinal question

/-- The gaps of a branch are queued only above the deepest level. -/
theorem returned_queued (parent : Task) {depth : Nat} (result : BranchResult) {s : Branching}
    (hdepth : depth ≤ config.maxDepth) (hqueue : ∀ item ∈ s.queue, item.2.2 ≤ config.maxDepth) :
    ∀ item ∈ (returned host config parent depth result s).queue, item.2.2 ≤ config.maxDepth := by
  obtain ⟨new, hnew, hlength, hlevel⟩ := enqueueGaps_spec host
    { result.task with kind := .followUp, parentTaskId := some parent.id, depth := (depth : Int) }
    depth
    (if depth < config.maxDepth then result.claim.unresolvedQuestions.take config.maxBranches
      else []) (s.queue, s.seen)
  have heq : (returned host config parent depth result s).queue = s.queue ++ new := hnew
  rw [heq]
  refine List.forall_mem_append.mpr ⟨hqueue, fun item hitem => ?_⟩
  rw [hlevel item hitem]
  by_contra hbelow
  have hlast : ¬ depth < config.maxDepth := by omega
  rw [if_neg hlast, List.length_nil, Nat.le_zero, List.length_eq_zero_iff] at hlength
  rw [hlength] at hitem
  cases hitem

theorem within_step (hone : OneCall host) {s : Branching} (h : Within config s) :
    Within config (branchStep host config projectRoot projectState s).1 := by
  rcases branchStep_cases host config projectRoot projectState s with
    ⟨-, queue, readings, exhausted, hsub, heq⟩ |
    ⟨parent, question, depth, queue, readings, hraised, hqueue, hcalls, hbranch⟩
  · rw [heq]
    exact ⟨h.counted, h.calls, h.budget, fun item hitem => h.queued item (hsub hitem), h.expanded⟩
  · obtain ⟨honce, hreports⟩ := hone (s.branchOrdinal + 1) question
    have hcounted := h.counted hraised
    have hdepth : depth ≤ config.maxDepth := h.queued _ (hqueue ▸ List.mem_cons_self)
    have hrest : ∀ item ∈ queue, item.2.2 ≤ config.maxDepth := fun item hitem =>
      h.queued item (hqueue ▸ List.mem_cons_of_mem _ hitem)
    have hexpanded : ∀ d ∈ s.expanded ++ [depth], d ≤ config.maxDepth :=
      List.forall_mem_append.mpr ⟨h.expanded, List.forall_mem_singleton.mpr hdepth⟩
    have hmade : s.calls + host.branchCalls (s.branchOrdinal + 1) question ≤
        config.maxModelCalls - 1 := by omega
    rcases hbranch with ⟨result, hok, heq⟩ | ⟨error, -, heq | heq⟩
    · rw [heq]
      have hreported := hreports result hok
      refine ⟨fun _ => ?_, hmade, ?_, returned_queued parent result hdepth hrest, hexpanded⟩
      · show s.calls + host.branchCalls (s.branchOrdinal + 1) question ≤
          s.modelCalls + result.investigationCalls
        omega
      · show s.modelCalls + result.investigationCalls ≤ config.maxModelCalls - 1
        omega
    · rw [heq]
      refine ⟨fun _ => ?_, hmade, ?_, hrest, hexpanded⟩
      · show s.calls + host.branchCalls (s.branchOrdinal + 1) question ≤ s.modelCalls + 1
        omega
      · show s.modelCalls + 1 ≤ config.maxModelCalls - 1
        omega
    · rw [heq]
      exact ⟨fun hnone => (by cases hnone), hmade, h.budget, hrest, hexpanded⟩

/-- Each turn that is not the last takes weight from the queue. -/
theorem step_weight {s : Branching}
    (h : (branchStep host config projectRoot projectState s).2 = true) :
    queueWeight config (branchStep host config projectRoot projectState s).1.queue <
      queueWeight config s.queue := by
  rcases branchStep_cases host config projectRoot projectState s with
    ⟨hlast, -⟩ | ⟨parent, question, depth, queue, readings, -, hqueue, -, hbranch⟩
  · rw [hlast] at h
    cases h
  · rcases hbranch with ⟨result, -, heq⟩ | ⟨error, -, heq | heq⟩
    · rw [heq, hqueue]
      exact returned_weight parent result (takenUp host queue question depth readings s)
    · rw [heq, hqueue]
      show queueWeight config queue < queueWeight config ((parent, question, depth) :: queue)
      have hcons : queueWeight config ((parent, question, depth) :: queue) =
          weight config (config.maxDepth - depth) + queueWeight config queue := by
        simp [queueWeight]
      have hpos := weight_pos config (config.maxDepth - depth)
      omega
    · rw [heq] at h
      cases h

variable (host) in
theorem conclude_within (root : Task) (question : String) (planned : List String) {s : Branching}
    (h : Within config s) :
    (conclude host config root question planned s).calls ≤ config.maxModelCalls ∧
      ∀ d ∈ (conclude host config root question planned s).expanded, d ≤ config.maxDepth := by
  have hcalls := h.calls
  have hbudget := config.calls
  unfold conclude
  split
  · exact ⟨by dsimp only; omega, h.expanded⟩
  · exact ⟨by dsimp only; omega, h.expanded⟩
  · rename_i first rest _ _
    obtain ⟨late, readings, hexpired⟩ := expired_eq host config s
    rw [hexpired]
    dsimp only
    split <;> exact ⟨by dsimp only; split <;> omega, h.expanded⟩

/-- The loop begins with one call, and at the first level. -/
theorem planning_within {question : String} {root : Task} {planned : List String} {s : Branching}
    (h : planning host config question root = .ok (planned, s)) : Within config s := by
  have hbegin : ∀ planned failures, Within config (planning.begin host root planned failures).2 := by
    intro planned failures
    have hbudget := config.calls
    refine ⟨fun _ => Nat.le_refl 1, ?_, ?_, fun item hitem => ?_, fun d hd => by cases hd⟩
    · show 1 ≤ config.maxModelCalls - 1
      omega
    · show 1 ≤ config.maxModelCalls - 1
      omega
    · obtain ⟨q, -, rfl⟩ := List.mem_map.mp hitem
      exact config.depth
  unfold planning at h
  split at h
  · cases h
    exact hbegin _ _
  · split at h
    · cases h
      exact hbegin _ _
    · cases h

variable (projectRoot projectState) in
/-- The loop comes to an end, within the budget. -/
theorem branches_end (hone : OneCall host) {s : Branching} (h : Within config s) :
    ∃ last, Within config last ∧ ∀ fuel, queueWeight config s.queue < fuel →
      whileChanged (branchStep host config projectRoot projectState) fuel s = some last := by
  have hkeep : ∀ s, Within config s →
      Within config (branchStep host config projectRoot projectState s).1 :=
    fun s hs => within_step hone hs
  obtain ⟨last, hlast⟩ := whileChanged_returns
    (f := branchStep host config projectRoot projectState)
    (μ := fun s => queueWeight config s.queue) hkeep (fun s _ h => step_weight h) h
  obtain ⟨r, hr, hround⟩ := whileChanged_spec hkeep h (hlast _ (Nat.lt_succ_self _))
  have hkept := hkeep r hr
  rw [hround] at hkept
  exact ⟨last, hkept, hlast⟩

end

/-- **Recursive investigation is bounded**: the run ends, makes at most the
model calls of its budget, and investigates no branch below the depth. -/
theorem run_bounded (host : RecursiveHost) (config : RecursiveConfig) (hone : OneCall host)
    (store : GraphStore) (question projectRoot projectState : String) (forceInvestigation : Bool) :
    ∃ bound outcome, (∀ fuel, bound < fuel →
        run host config store question projectRoot projectState forceInvestigation fuel =
          some outcome) ∧
      outcome.calls ≤ config.maxModelCalls ∧ ∀ d ∈ outcome.expanded, d ≤ config.maxDepth := by
  obtain ⟨replay, hreplay⟩ : ∃ replay, ∀ fuel, store.tasks.length < fuel →
      (if forceInvestigation = true then some none else exactReplay store
        (host.taskFingerprint ("recursive:" ++ question) projectState) projectState fuel) =
          some replay := by
    by_cases hforce : forceInvestigation = true
    · exact ⟨none, fun _ _ => if_pos hforce⟩
    · simp only [if_neg hforce]
      exact exactReplay_returns _ _ _
  unfold run
  dsimp only
  cases replay with
  | some replay =>
    refine ⟨store.tasks.length, { result := .ok replay, calls := 0, expanded := [] },
      fun fuel hfuel => ?_, Nat.zero_le _, fun d hd => by cases hd⟩
    rw [hreplay fuel hfuel]
  | none =>
    generalize rootTask host question projectRoot projectState = root
    cases hplan : planning host config question root with
    | error error =>
      refine ⟨store.tasks.length, { result := .error error, calls := 1, expanded := [] },
        fun fuel hfuel => ?_, ?_, fun d hd => by cases hd⟩
      · rw [hreplay fuel hfuel]
      · have hbudget := config.calls
        show 1 ≤ config.maxModelCalls
        omega
    | ok begun =>
      obtain ⟨planned, s⟩ := begun
      obtain ⟨last, hwithin, hlast⟩ := branches_end projectRoot projectState hone (planning_within hplan)
      obtain ⟨hcalls, hdepths⟩ := conclude_within host root question planned hwithin
      refine ⟨max store.tasks.length (queueWeight config s.queue),
        conclude host config root question planned last, fun fuel hfuel => ?_, hcalls, hdepths⟩
      obtain ⟨htasks, hqueue⟩ := max_lt_iff.mp hfuel
      rw [hreplay fuel htasks]
      dsimp only
      rw [hlast fuel hqueue]
      rfl

/-- A host whose branches each leave a gap. -/
def curious : RecursiveHost where
  tables := { upper := id, lower := id, casefold := id }
  taskFingerprint question state := question ++ state
  newId n := toString n
  now n := n
  clock n := n
  plan _ := .ok { conclusion := "", evidence := [], confidence := 0,
                  unresolvedQuestions := ["What is there?", "What is missing?"] }
  branch ordinal question := .ok {
    task := { id := toString ordinal, question, fingerprint := "", projectRoot := "/", createdAt := 0 }
    claim := { id := toString ordinal, conclusion := question, confidence := 1 / 2,
               unresolvedQuestions := ["Why " ++ question] }
    cacheHit := false
    investigationCalls := 1 }
  branchCalls _ _ := 1
  synthesize _ _ := .ok { conclusion := "", evidence := [], confidence := 1, unresolvedQuestions := [] }

theorem run_bounded_curious :
    ∃ bound outcome, (∀ fuel, bound < fuel →
        run curious {} { tasks := [], claims := [] } "What?" "/" "S" false fuel = some outcome) ∧
      outcome.calls ≤ 8 ∧ ∀ d ∈ outcome.expanded, d ≤ 2 :=
  run_bounded curious {} (fun _ _ => ⟨Nat.le_refl 1, fun _ h => by cases h; rfl⟩)
    { tasks := [], claims := [] } "What?" "/" "S" false

end RlmGraph.Investigation.Recursive
