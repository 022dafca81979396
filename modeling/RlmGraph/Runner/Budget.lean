import RlmGraph.Runner.Pursue

/-! # The budget of a pursuit

A call is admitted before it is made, and an admitted follow-up may make more
calls than one, which are charged when it is done. The calls that are made stay
within the limit in every run. The tokens that are charged do too, except where
an investigation raises before it has reset its count: what an earlier one
counted is then charged again, unseen by the admission. -/
namespace RlmGraph.Runner.Budget
open RlmGraph.Lib RlmGraph.Runner.Records RlmGraph.Runner.Planner RlmGraph.Runner.Executors
open RlmGraph.Runner.Pursue

/-! ## The counters -/

/-- What the budget is about, and where the call is. -/
structure Counters where
  used : Nat
  tokens : Nat
  calls : Nat
  investigator : Investigator
  phase : Phase

def counters (s : Pursuit) : Counters :=
  ⟨s.run.modelCallsUsed, s.run.retrievalTokensUsed, s.modelCalls, s.investigator, s.phase⟩

section
variable (s : Pursuit) (task : Task) (tasks : List Task) (reason : StoppingReason)

@[simp] theorem counters_saveTask : counters (s.saveTask task) = counters s := rfl

@[simp] theorem counters_next : counters s.next = counters s := rfl

@[simp] theorem counters_stopFor : counters (s.stopFor reason) = counters s := rfl

@[simp] theorem counters_codexCalls (n : Nat) : counters { s with codexCalls := n } = counters s := rfl

@[simp] theorem counters_enqueue : counters (enqueue tasks s) = counters s := rfl

@[simp] theorem counters_toLoop : counters (toLoop s) = { counters s with phase := .loop } := rfl

@[simp] theorem counters_raise (e : PyError) :
    counters (Pursuit.raise s e) = { counters s with phase := .raised e } := rfl

@[simp] theorem counters_assess : counters (assess task s).2 = counters s := rfl

@[simp] theorem counters_tick (host : PursuitHost) : counters (tick host s) = counters s := rfl

@[simp] theorem counters_propagateStopping :
    counters (propagateStopping task reason s) = counters s := rfl

@[simp] theorem counters_propagateCompletion :
    counters (propagateCompletion task s) = counters s := rfl

@[simp] theorem counters_requeueParent : counters (requeueParent task s) = counters s := by
  unfold requeueParent
  split <;> rfl

@[simp] theorem counters_markClusterUnresolved :
    counters (markClusterUnresolved task s) = counters s := by
  unfold markClusterUnresolved
  split
  · rfl
  · split <;> rfl

@[simp] theorem counters_stop : counters (stop task reason s) = counters s := by
  simp [stop]

@[simp] theorem counters_endResolution :
    counters (endResolution task s) = { counters s with phase := .loop } := by
  unfold endResolution
  split <;> rfl

@[simp] theorem counters_visitInvestigation : counters (visitInvestigation task s) = counters s := by
  unfold visitInvestigation
  dsimp only
  split
  · rfl
  · split <;> rfl

@[simp] theorem counters_createFrom (host : PursuitHost) (gaps existing : List String) :
    counters (createFrom host task gaps existing s).2 = counters s := by
  induction gaps generalizing existing s with
  | nil => rfl
  | cons gap gaps ih =>
    unfold createFrom
    dsimp only
    split
    · exact ih s existing
    · exact ih _ _

@[simp] theorem counters_createFollowUps (host : PursuitHost) (config : PursuitConfig)
    (questions : List String) :
    counters (createFollowUps host config task questions s).2 = counters s :=
  counters_createFrom s task host _ _

@[simp] theorem counters_replan (host : PursuitHost) (config : PursuitConfig)
    (result : ResolutionResult) :
    counters (replan host config task result s) = { counters s with phase := .loop } := by
  unfold replan
  split
  · simp
  · dsimp only
    split
    · simp
    · split <;> simp

theorem counters_retry (config : PursuitConfig) :
    ∃ task', counters (retry config task s) = { counters s with phase := .resolve task' } := by
  unfold retry
  dsimp only
  split
  · have hstop := counters_stop (s.saveTask task) task .retryExhausted
    exact ⟨stopped task .retryExhausted, congrArg (fun c : Counters =>
      { c with phase := .resolve (stopped task .retryExhausted) }) hstop⟩
  · exact ⟨task, rfl⟩

end

/-! ## Admissions -/

section
variable {host : PursuitHost} {config : PursuitConfig} {task : Task} {text : String}
  {s s' : Pursuit} {reason : StoppingReason}

/-- A call that is not admitted costs nothing. -/
theorem counters_refused (h : admitCall host config task text s = (some reason, s')) :
    counters s' = counters s := by
  unfold admitCall at h
  dsimp only at h
  repeat' split at h
  all_goals first | (obtain ⟨-, rfl⟩ := Prod.mk.inj h; rfl) | (cases (Prod.mk.inj h).1)

/-- A call that is admitted is charged, and fits. -/
theorem counters_admitted (h : admitCall host config task text s = (none, s')) :
    s.run.modelCallsUsed < config.maxCodexCalls ∧
      s.run.retrievalTokensUsed + tokenEstimate text ≤ config.maxRetrievalTokens ∧
      counters s' = { counters s with
        used := s.run.modelCallsUsed + 1, tokens := s.run.retrievalTokensUsed + tokenEstimate text } ∧
      s'.store = s.store := by
  unfold admitCall at h
  dsimp only at h
  split at h
  · cases (Prod.mk.inj h).1
  split at h
  · cases (Prod.mk.inj h).1
  split at h
  · cases (Prod.mk.inj h).1
  split at h
  · cases (Prod.mk.inj h).1
  split at h
  · cases (Prod.mk.inj h).1
  obtain ⟨-, rfl⟩ := Prod.mk.inj h
  rename_i hcalls htokens _ _
  exact ⟨not_le.mp hcalls, not_lt.mp htokens, rfl, rfl⟩

end

/-! ## Calls -/

/-- What an investigation does to the counters: `made` calls, and a count. -/
structure Dispatched (s s' : Pursuit) (question : String) (made : Nat) : Prop where
  run : s'.run = s.run
  followUpCalls : s'.followUpCalls = s.followUpCalls
  phase : s'.phase = s.phase
  calls : s'.modelCalls = s.modelCalls + made
  count : s'.investigator = { s.investigator with
    lastCallCount := s.investigator.lastCallCount + made }
  budget : s.investigator.lastCallCount + made ≤
    max s.investigator.lastCallCount s.investigator.maxCallsForExecution
  fits : 0 < made → 0 < s.investigator.lastCallCount ∨ 1 < made →
    (tokenEstimate question : Int) ≤ s.investigator.maxRetrievalTokensForExecution

theorem Dispatched.none (s : Pursuit) (question : String) : Dispatched s s question 0 where
  run := rfl
  followUpCalls := rfl
  phase := rfl
  calls := rfl
  count := rfl
  budget := by simp
  fits h := absurd h (lt_irrefl 0)

theorem Dispatched.counters_eq {s s' : Pursuit} {question : String} {made : Nat}
    (h : Dispatched s s' question made) : counters s' = { counters s with
      calls := s.modelCalls + made
      investigator := { s.investigator with
        lastCallCount := s.investigator.lastCallCount + made } } := by
  unfold counters
  rw [h.run, h.calls, h.count, h.phase]

/-- A call, and what is dispatched after it. -/
theorem Dispatched.after_call {s s' : Pursuit} {question : String} {made : Nat}
    (hcount : s.investigator.lastCallCount < s.investigator.maxCallsForExecution)
    (hfits : 0 < s.investigator.lastCallCount →
      (tokenEstimate question : Int) ≤ s.investigator.maxRetrievalTokensForExecution)
    (h : Dispatched (called s) s' question made) : Dispatched s s' question (made + 1) where
  run := h.run
  followUpCalls := h.followUpCalls
  phase := h.phase
  calls := by
    rw [h.calls]
    simp only [called, Pursuit.next]
    omega
  count := by
    rw [h.count]
    simp only [called, Pursuit.next, Investigator.mk.injEq, and_true]
    omega
  budget := by
    have := h.budget
    simp only [called, Pursuit.next] at this
    omega
  fits _ hmore := by
    by_cases hfirst : 0 < s.investigator.lastCallCount
    · exact hfits hfirst
    · have hmade : 0 < made := by omega
      exact h.fits hmade (Or.inl (by simp [called, Pursuit.next]))

theorem dispatched_dispatch (host : PursuitHost) (planned : TaskRoute) (question : String)
    (routes : List TaskRoute) (seen : Seen) (s : Pursuit) : ∃ made ≤ routes.length,
      Dispatched s (dispatch host planned question routes seen s).2 question made := by
  induction routes generalizing seen s with
  | nil => exact ⟨0, le_refl _, .none s question⟩
  | cons route routes ih =>
    unfold dispatch
    split
    · exact ⟨0, Nat.zero_le _, .none s question⟩
    split
    · exact ⟨0, Nat.zero_le _, .none s question⟩
    rename_i hcount hfits
    have hcount : s.investigator.lastCallCount < s.investigator.maxCallsForExecution := not_le.mp hcount
    have hfits : 0 < s.investigator.lastCallCount →
        (tokenEstimate question : Int) ≤ s.investigator.maxRetrievalTokensForExecution :=
      fun h => not_lt.mp fun hlt => hfits ⟨h, hlt⟩
    have hlast : ∃ made ≤ (route :: routes).length, Dispatched s (called s) question made :=
      ⟨1, by simp, (Dispatched.none (called s) question).after_call hcount hfits⟩
    have hnext : ∀ seen, ∃ made ≤ (route :: routes).length, Dispatched s
        (dispatch host planned question routes seen (called s)).2 question made := by
      intro seen
      obtain ⟨made, hmade, h⟩ := ih seen (called s)
      exact ⟨made + 1, by simpa using hmade, h.after_call hcount hfits⟩
    split
    · obtain ⟨made, hmade, h⟩ := ih _ s
      exact ⟨made, Nat.le_succ_of_le hmade, h⟩
    · split
      · split
        · exact hnext _
        · exact hlast
      · dsimp only
        split
        · exact hlast
        · exact hnext _

/-- An investigation whose lookup succeeds starts a count of its own. -/
theorem dispatched_investigate {host : PursuitHost} {question projectRoot : String} {s : Pursuit}
    {found : TaskRoute × TaskRoute} (h : lookup host question projectRoot s = .ok found) :
    ∃ made ≤ 2, Dispatched
      { s.next with investigator := { s.investigator with lastCallCount := 0 } }
      (investigate host question projectRoot s).2 question made := by
  have hroutes : (routesFrom host found.2).length ≤ 2 := by
    unfold routesFrom
    split <;> simp
  obtain ⟨made, hmade, hdone⟩ := dispatched_dispatch host found.1 question (routesFrom host found.2) {}
    { s.next with investigator := { s.investigator with lastCallCount := 0 } }
  refine ⟨made, hmade.trans hroutes, ?_⟩
  unfold investigate
  rw [h]
  exact hdone

theorem counters_saveFollowUp (host : PursuitHost) (task : Task) (result : InvestigationResult)
    (s : Pursuit) : counters (saveFollowUp host task result s).2 = counters s ∧
      (saveFollowUp host task result s).2.followUpCalls = s.followUpCalls := by
  unfold saveFollowUp
  dsimp only
  split <;> exact ⟨rfl, rfl⟩

/-- A follow-up whose lookup raises is counted from what was left. -/
theorem executeFollowUp_leftover {host : PursuitHost} {taskId : String} {s : Pursuit} {task : Task}
    {e : PyError} (hopen : followUpTask s.store taskId = .ok task)
    (hlookup : lookup host task.question task.projectRoot (s.saveTask (opening task)) = .error e) :
    (executeFollowUp host taskId s).1 = .error e ∧
      counters (executeFollowUp host taskId s).2 = counters s ∧
      (executeFollowUp host taskId s).2.followUpCalls =
        s.followUpCalls + max 1 s.investigator.lastCallCount := by
  have hfails : investigate host (opening task).question (opening task).projectRoot
      (s.saveTask (opening task)) = (.error e, (s.saveTask (opening task)).next) := by
    unfold investigate
    rw [show lookup host (opening task).question (opening task).projectRoot
      (s.saveTask (opening task)) = .error e from hlookup]
  unfold executeFollowUp
  rw [hopen]
  dsimp only
  rw [hfails]
  exact ⟨rfl, rfl, rfl⟩

/-- A follow-up whose lookup succeeds is counted by the calls that are made. -/
theorem executeFollowUp_dispatched {host : PursuitHost} {taskId : String} {s : Pursuit} {task : Task}
    {found : TaskRoute × TaskRoute} (hopen : followUpTask s.store taskId = .ok task)
    (hlookup : lookup host task.question task.projectRoot (s.saveTask (opening task)) = .ok found) :
    ∃ made ≤ 2, made ≤ s.investigator.maxCallsForExecution ∧
      (1 < made → (tokenEstimate task.question : Int) ≤
        s.investigator.maxRetrievalTokensForExecution) ∧
      counters (executeFollowUp host taskId s).2 = { counters s with
        calls := s.modelCalls + made
        investigator := { s.investigator with lastCallCount := made } } ∧
      (executeFollowUp host taskId s).2.followUpCalls = s.followUpCalls + max 1 made := by
  obtain ⟨made, hmade, hdone⟩ := dispatched_investigate hlookup
  have hbudget := hdone.budget
  simp only [Pursuit.saveTask, Nat.zero_add, Nat.zero_max] at hbudget
  refine ⟨made, hmade, by simpa using hbudget, fun hmore => ?_, ?_⟩
  · exact hdone.fits (by omega) (Or.inr hmore)
  rcases hreply : investigate host task.question task.projectRoot (s.saveTask (opening task))
    with ⟨reply, done⟩
  rw [hreply] at hdone
  have hcounters := hdone.counters_eq
  simp only [Nat.zero_add] at hcounters
  unfold executeFollowUp
  rw [hopen]
  dsimp only
  rw [show investigate host (opening task).question (opening task).projectRoot
    (s.saveTask (opening task)) = (reply, done) from hreply]
  have hcount : done.followUpCalls + max 1 done.investigator.lastCallCount =
      s.followUpCalls + max 1 made := by
    rw [hdone.followUpCalls, hdone.count]
    simp only [Nat.zero_add]
    rfl
  cases reply with
  | error e => exact ⟨hcounters, hcount⟩
  | ok result =>
    obtain ⟨hsame, hcalls⟩ := counters_saveFollowUp host (opening task) result
      { done with followUpCalls := done.followUpCalls + max 1 done.investigator.lastCallCount }
    exact ⟨hsame.trans hcounters, hcalls.trans hcount⟩

/-! ## The calls of a run -/

/-- An admitted follow-up: its first call is charged and not made, and the
investigator may make the calls and read the tokens that are left. -/
structure Ready (config : PursuitConfig) (initial : Nat) (task : Task) (s : Pursuit) : Prop where
  charged : initial + s.modelCalls + 1 ≤ s.run.modelCallsUsed
  within : s.run.modelCallsUsed ≤ config.maxCodexCalls
  calls : s.investigator.maxCallsForExecution + s.run.modelCallsUsed = 1 + config.maxCodexCalls
  tokens : s.investigator.maxRetrievalTokensForExecution =
    config.maxRetrievalTokens - s.run.retrievalTokensUsed
  question : ∃ stored, s.store.getTask task.id = some stored ∧ stored.question = task.question

/-- The invariant of the calls: every call that was made is charged. -/
structure CallsWithin (config : PursuitConfig) (initial : Nat) (s : Pursuit) : Prop where
  bound : s.modelCalls ≤ config.maxCodexCalls
  charged : (∀ e, s.phase ≠ .raised e) → initial + s.modelCalls ≤ s.run.modelCallsUsed
  ready : ∀ task, s.phase = .followUp task → Ready config initial task s

section
variable {host : PursuitHost} {config : PursuitConfig} {initial : Nat} {task : Task} {s s' : Pursuit}

/-- A state with every call charged, in which no follow-up is admitted. -/
theorem CallsWithin.settled (hbound : s.modelCalls ≤ config.maxCodexCalls)
    (hcharged : initial + s.modelCalls ≤ s.run.modelCallsUsed)
    (hphase : ∀ task, s.phase ≠ .followUp task) : CallsWithin config initial s :=
  ⟨hbound, fun _ => hcharged, fun task htask => absurd htask (hphase task)⟩

/-- A step that leaves the counters and does not admit a follow-up. -/
theorem CallsWithin.quiet (phase : Phase) (hbound : s.modelCalls ≤ config.maxCodexCalls)
    (hcharged : initial + s.modelCalls ≤ s.run.modelCallsUsed)
    (h : counters s' = { counters s with phase := phase }) (hphase : ∀ task, phase ≠ .followUp task) :
    CallsWithin config initial s' := by
  have hcalls : s'.modelCalls = s.modelCalls := congrArg Counters.calls h
  have hused : s'.run.modelCallsUsed = s.run.modelCallsUsed := congrArg Counters.used h
  have hp : s'.phase = phase := congrArg Counters.phase h
  exact .settled (by omega) (by omega) fun task htask => hphase task (hp.symm.trans htask)

theorem counters_of_phase (h : s.phase = .loop) (hsame : counters s' = counters s) :
    counters s' = { counters s with phase := .loop } := by
  rw [hsame, ← h]
  rfl

theorem within_visitFollowUp (hloop : s.phase = .loop) (hbound : s.modelCalls ≤ config.maxCodexCalls)
    (hcharged : initial + s.modelCalls ≤ s.run.modelCallsUsed)
    (htask : s.store.getTask task.id = some task) :
    CallsWithin config initial (visitFollowUp host config task s) := by
  have hquiet : ∀ s', counters s' = counters s → CallsWithin config initial s' := fun s' h =>
    .quiet .loop hbound hcharged (counters_of_phase hloop h) fun _ => by simp
  unfold visitFollowUp
  split
  · exact hquiet _ (by simp)
  split
  · exact hquiet _ (by simp)
  split
  · exact hquiet _ (by simp)
  split
  · rename_i reason refused hadmit
    exact hquiet _ (by simp [counters_refused hadmit])
  · rename_i admitted hadmit
    obtain ⟨hcalls, htokens, hcounters, hstore⟩ := counters_admitted hadmit
    have hused : admitted.run.modelCallsUsed = s.run.modelCallsUsed + 1 :=
      congrArg Counters.used hcounters
    have hmade : admitted.modelCalls = s.modelCalls := congrArg Counters.calls hcounters
    have hphase : admitted.phase = .loop := (congrArg Counters.phase hcounters).trans hloop
    have hready : ∀ (task' : Task) (store' : GraphStore), store'.getTask task'.id = some task' →
        CallsWithin config initial
          { configured config admitted with store := store', phase := .followUp task' } := by
      intro task' store' hstored
      refine ⟨by simpa [configured, configureBudget, hmade] using hbound, fun _ => ?_, fun t ht => ?_⟩
      · simp only [configured, configureBudget, hmade, hused]
        omega
      · obtain rfl : task' = t := by simpa using ht
        refine ⟨?_, ?_, ?_, rfl, task', hstored, rfl⟩
        · simp only [configured, configureBudget, hmade, hused]
          omega
        · simp only [configured, configureBudget, hused]
          omega
        · simp only [configured, configureBudget, hused]
          omega
    dsimp only
    split
    · split
      · refine .settled ?_ ?_ fun t ht => ?_
        · simp only [Pursuit.stopFor, configured, configureBudget, hmade, hbound]
        · simp only [Pursuit.stopFor, configured, configureBudget, hmade, hused]
          omega
        · simp [Pursuit.stopFor, configured, configureBudget, hphase] at ht
      · exact hready (reopened task) (admitted.store.saveTask (reopened task))
          (GraphStore.getTask_saveTask _ _)
    · exact hready task admitted.store (by rw [hstore]; exact htask)

theorem within_visitTask (hloop : s.phase = .loop) (hbound : s.modelCalls ≤ config.maxCodexCalls)
    (hcharged : initial + s.modelCalls ≤ s.run.modelCallsUsed)
    (htask : s.store.getTask task.id = some task) :
    CallsWithin config initial (visitTask host config task s) := by
  have hquiet : ∀ s', counters s' = counters s → CallsWithin config initial s' := fun s' h =>
    .quiet .loop hbound hcharged (counters_of_phase hloop h) fun _ => by simp
  unfold visitTask
  split
  · exact hquiet _ (by simp)
  · exact within_visitFollowUp hloop hbound hcharged htask
  · unfold visitResolution
    split
    · exact hquiet _ rfl
    split
    · exact hquiet _ (by simp)
    dsimp only
    split
    · split
      · exact hquiet _ (by simp)
      · exact hquiet _ (by simp)
    split
    · exact hquiet _ (by simp)
    split
    · exact .quiet (s := s) (.resolve (reopened task)) hbound hcharged rfl fun _ => by simp
    · exact .quiet (s := s) (.resolve task) hbound hcharged rfl fun _ => by simp

theorem within_visit (hloop : s.phase = .loop) (hbound : s.modelCalls ≤ config.maxCodexCalls)
    (hcharged : initial + s.modelCalls ≤ s.run.modelCallsUsed) (taskId : String) :
    CallsWithin config initial (visit host config taskId s) := by
  unfold visit
  split
  · exact .quiet (.raised (.other "AssertionError" "")) hbound hcharged rfl fun _ => by simp
  · rename_i task htask
    unfold routed
    split
    · exact within_visitTask hloop hbound hcharged (GraphStore.getTask_saveTask _ _)
    · refine within_visitTask hloop hbound hcharged ?_
      rw [GraphStore.getTask_id htask]
      exact htask

/-! ### An admitted follow-up -/

theorem counters_chargeExtra (before : Nat) (task : Task) (s : Pursuit) :
    counters (chargeExtra before task s) = { counters s with
      used := s.run.modelCallsUsed + (s.followUpCalls - before - 1)
      tokens := s.run.retrievalTokensUsed +
        (s.followUpCalls - before - 1) * tokenEstimate task.question } := by
  unfold chargeExtra
  dsimp only
  split
  · rfl
  · rename_i hnone
    simp [counters, Nat.eq_zero_of_not_pos hnone]

/-- A follow-up ends the call, or its extra calls are charged. -/
theorem counters_stepFollowUp (host : PursuitHost) (config : PursuitConfig) (task : Task)
    (s : Pursuit) :
    (∃ e, (executeFollowUp host task.id s).1 = .error e ∧ e.isException = false ∧
      counters (stepFollowUp host config task s) =
        { counters (executeFollowUp host task.id s).2 with phase := .raised e }) ∨
    (∀ e, (executeFollowUp host task.id s).1 = .error e → e.isException = true) ∧
      counters (stepFollowUp host config task s) =
        { counters (chargeExtra s.followUpCalls task (executeFollowUp host task.id s).2) with
          phase := .loop } := by
  unfold stepFollowUp
  rcases hdone : executeFollowUp host task.id s with ⟨reply, done⟩
  cases reply with
  | ok value =>
    exact Or.inr ⟨fun e h => (by cases h), by simp⟩
  | error e =>
    dsimp only
    by_cases hfatal : e.isException = false
    · rw [if_pos hfatal]
      exact Or.inl ⟨e, rfl, hfatal, rfl⟩
    · rw [if_neg hfatal]
      refine Or.inr ⟨fun e' h => (by cases h; simpa using hfatal), ?_⟩
      split <;> simp

theorem within_stepFollowUp (h : Ready config initial task s) :
    CallsWithin config initial (stepFollowUp host config task s) := by
  have hcharged := h.charged
  have hwithin := h.within
  have hbudget := h.calls
  -- the calls that were made, and what is counted of them
  obtain ⟨made, hmade, hcalls, hused, hcounted⟩ : ∃ made, made ≤ 1 + config.maxCodexCalls -
      s.run.modelCallsUsed ∧ (executeFollowUp host task.id s).2.modelCalls = s.modelCalls + made ∧
      (executeFollowUp host task.id s).2.run.modelCallsUsed = s.run.modelCallsUsed ∧
      made ≤ 1 + ((executeFollowUp host task.id s).2.followUpCalls - s.followUpCalls - 1) := by
    cases hopen : followUpTask s.store task.id with
    | error e =>
      have hnone : executeFollowUp host task.id s = (.error e, s) := by
        unfold executeFollowUp
        rw [hopen]
      rw [hnone]
      exact ⟨0, Nat.zero_le _, rfl, rfl, Nat.zero_le _⟩
    | ok opened =>
      cases hlookup : lookup host opened.question opened.projectRoot
          (s.saveTask (opening opened)) with
      | error e =>
        obtain ⟨-, hsame, -⟩ := executeFollowUp_leftover hopen hlookup
        exact ⟨0, Nat.zero_le _, congrArg Counters.calls hsame, congrArg Counters.used hsame,
          Nat.zero_le _⟩
      | ok found =>
        obtain ⟨made, hmade, hmax, -, hdone, hcalls⟩ := executeFollowUp_dispatched hopen hlookup
        exact ⟨made, by omega, congrArg Counters.calls hdone, congrArg Counters.used hdone, by omega⟩
  obtain ⟨e, -, -, hcounters⟩ | ⟨-, hcounters⟩ := counters_stepFollowUp host config task s
  · have hphase : (stepFollowUp host config task s).phase = .raised e :=
      congrArg Counters.phase hcounters
    have hsame : (stepFollowUp host config task s).modelCalls =
        (executeFollowUp host task.id s).2.modelCalls := congrArg Counters.calls hcounters
    refine ⟨by omega, fun hraised => absurd hphase (hraised e), fun t ht => ?_⟩
    rw [hphase] at ht
    cases ht
  · rw [counters_chargeExtra] at hcounters
    have hphase : (stepFollowUp host config task s).phase = .loop := congrArg Counters.phase hcounters
    have hsame : (stepFollowUp host config task s).modelCalls =
        (executeFollowUp host task.id s).2.modelCalls := congrArg Counters.calls hcounters
    have hextra : (stepFollowUp host config task s).run.modelCallsUsed =
        (executeFollowUp host task.id s).2.run.modelCallsUsed +
          ((executeFollowUp host task.id s).2.followUpCalls - s.followUpCalls - 1) :=
      congrArg Counters.used hcounters
    exact .settled (by omega) (by omega) fun t => by simp [hphase]

/-! ### A resolution -/

/-- An attempt makes at most one call, and charges none. -/
theorem executeResolution_cases (host : PursuitHost) (taskId : String) (s : Pursuit) :
    ∃ made ≤ 1, counters (executeResolution host taskId s).2 =
      { counters s with calls := s.modelCalls + made } := by
  unfold executeResolution
  split
  · exact ⟨0, by omega, rfl⟩
  · dsimp only
    split
    · exact ⟨0, by omega, rfl⟩
    · split
      · exact ⟨1, le_refl _, rfl⟩
      · split
        · unfold saveAdjudicated
          dsimp only
          split
          · exact ⟨1, le_refl _, rfl⟩
          · split <;> exact ⟨1, le_refl _, rfl⟩
        · exact ⟨1, le_refl _, rfl⟩

/-- An admitted attempt charges one call, and the retrieved text; the phase it
ends in is not that of a follow-up. -/
theorem counters_stepResolution (host : PursuitHost) (config : PursuitConfig) (task : Task)
    (s : Pursuit) :
    ∃ phase, (∀ task', phase ≠ .followUp task') ∧
      (counters (stepResolution host config task s) = { counters s with phase := phase } ∨
      s.run.modelCallsUsed < config.maxCodexCalls ∧ ∃ made ≤ 1, ∃ tokens ≤ config.maxRetrievalTokens,
        counters (stepResolution host config task s) = { counters s with
          used := s.run.modelCallsUsed + 1
          tokens := tokens
          calls := s.modelCalls + made
          phase := phase }) := by
  unfold stepResolution
  split
  · split
    · rename_i reason refused hadmit
      exact ⟨.loop, by simp, Or.inl (by simp [counters_refused hadmit])⟩
    · rename_i admitted hadmit
      obtain ⟨hcalls, htokens, hcounters, -⟩ := counters_admitted hadmit
      obtain ⟨made, hmade, hdone⟩ := executeResolution_cases host task.id admitted
      have hsame : admitted.modelCalls = s.modelCalls := congrArg Counters.calls hcounters
      rw [hcounters, hsame] at hdone
      split
      · rename_i e failed hreply
        rw [hreply] at hdone
        dsimp only at hdone
        split
        · refine ⟨.raised e, by simp, Or.inr ⟨hcalls, made, hmade, _, htokens, ?_⟩⟩
          rw [counters_raise, hdone]
        · obtain ⟨task', hretry⟩ := counters_retry
            { failed with
              codexCalls := failed.codexCalls + (failed.resolutionCalls - admitted.resolutionCalls) }
            (failedAttempt failed.store task e) config
          refine ⟨.resolve task', by simp, Or.inr ⟨hcalls, made, hmade, _, htokens, ?_⟩⟩
          rw [hretry, counters_codexCalls, hdone]
      · rename_i task' result resolved hreply
        rw [hreply] at hdone
        dsimp only at hdone ⊢
        refine ⟨.loop, by simp, Or.inr ⟨hcalls, made, hmade, _, htokens, ?_⟩⟩
        split
        · rw [counters_endResolution, counters_propagateCompletion, counters_codexCalls, hdone]
        · rw [counters_replan, counters_codexCalls, hdone]
  · exact ⟨.loop, by simp, Or.inl (counters_endResolution s task)⟩

/-- The step lemma of the calls. -/
theorem CallsWithin.step (h : CallsWithin config initial s) :
    CallsWithin config initial (step host config s) := by
  have hbound := h.bound
  cases hphase : s.phase with
  | loop =>
    have hcharged := h.charged fun e => by simp [hphase]
    cases hqueue : s.queue with
    | nil =>
      rw [step_done hphase hqueue]
      unfold finish
      split
      · exact .settled hbound hcharged fun _ => by simp [Pursuit.raise]
      · exact .settled hbound hcharged fun _ => by simp
    | cons taskId queue =>
      rw [step_visit hphase hqueue]
      exact within_visit (s := { s with queue := queue }) hphase hbound hcharged taskId
  | followUp task =>
    rw [step_followUp hphase]
    exact within_stepFollowUp (h.ready task hphase)
  | resolve task =>
    have hcharged := h.charged fun e => by simp [hphase]
    rw [step_resolve hphase]
    obtain ⟨phase, hfollow, hsame | ⟨hcalls, made, hmade, tokens, -, hcounters⟩⟩ :=
      counters_stepResolution host config task s
    · exact .quiet phase hbound hcharged hsame hfollow
    · have hused : (stepResolution host config task s).run.modelCallsUsed =
          s.run.modelCallsUsed + 1 := congrArg Counters.used hcounters
      have hdone : (stepResolution host config task s).modelCalls = s.modelCalls + made :=
        congrArg Counters.calls hcounters
      have hp : (stepResolution host config task s).phase = phase := congrArg Counters.phase hcounters
      exact .settled (by omega) (by omega) fun t => by rw [hp]; exact hfollow t
  | returned status reason =>
    unfold Pursue.step
    rw [hphase]
    exact h
  | raised e =>
    unfold Pursue.step
    rw [hphase]
    exact h

end

/-! ## The tokens of a run -/

section
variable {host : PursuitHost} {config : PursuitConfig} {initial : Nat} {task : Task} {s : Pursuit}

def TokensWithin (config : PursuitConfig) (s : Pursuit) : Prop :=
  s.run.retrievalTokensUsed ≤ config.maxRetrievalTokens

theorem TokensWithin.of_counters {s' : Pursuit} (h : TokensWithin config s)
    (hsame : counters s' = counters s) : TokensWithin config s' := by
  have htokens : s'.run.retrievalTokensUsed = s.run.retrievalTokensUsed :=
    congrArg Counters.tokens hsame
  unfold TokensWithin
  rw [htokens]
  exact h

theorem tokens_visitFollowUp (h : TokensWithin config s) :
    TokensWithin config (visitFollowUp host config task s) := by
  unfold visitFollowUp
  split
  · exact h.of_counters (by simp)
  split
  · exact h.of_counters (by simp)
  split
  · exact h.of_counters (by simp)
  split
  · rename_i reason refused hadmit
    exact h.of_counters (by simp [counters_refused hadmit])
  · rename_i admitted hadmit
    obtain ⟨-, htokens, hcounters, -⟩ := counters_admitted hadmit
    have hwithin : TokensWithin config admitted := by
      have hsum : admitted.run.retrievalTokensUsed = s.run.retrievalTokensUsed +
          tokenEstimate (retrievalContext task s.store) := congrArg Counters.tokens hcounters
      unfold TokensWithin
      rw [hsum]
      exact htokens
    dsimp only
    split
    · split <;> exact hwithin
    · exact hwithin

theorem tokens_visit (h : TokensWithin config s) (taskId : String) :
    TokensWithin config (visit host config taskId s) := by
  have hkinds : ∀ (task : Task) (s' : Pursuit), TokensWithin config s' →
      TokensWithin config (visitTask host config task s') := by
    intro task s' h
    unfold visitTask
    split
    · exact h.of_counters (by simp)
    · exact tokens_visitFollowUp h
    · unfold visitResolution
      split
      · exact h
      split
      · exact h.of_counters (by simp)
      dsimp only
      split
      · split <;> exact h.of_counters (by simp)
      split
      · exact h
      split <;> exact h
  unfold visit
  split
  · exact h
  · unfold routed
    split <;> exact hkinds _ _ h

/-- The calls an investigation counts if its lookup raises fit in the budget:
they are those of an earlier one, and no call is made. -/
def LeftoverFits (host : PursuitHost) (config : PursuitConfig) (s : Pursuit) : Prop :=
  ∀ task opened e, s.phase = .followUp task → followUpTask s.store task.id = .ok opened →
    lookup host opened.question opened.projectRoot (s.saveTask (opening opened)) = .error e →
    e.isException = true →
      s.run.retrievalTokensUsed +
        (s.investigator.lastCallCount - 1) * tokenEstimate task.question ≤ config.maxRetrievalTokens

/-- A follow-up whose lookup raises is charged what was left. -/
theorem tokens_leftover {opened : Task} {e : PyError}
    (hopened : followUpTask s.store task.id = .ok opened)
    (hlookup : lookup host opened.question opened.projectRoot (s.saveTask (opening opened)) = .error e)
    (hexception : e.isException = true) :
    (stepFollowUp host config task s).run.retrievalTokensUsed = s.run.retrievalTokensUsed +
      (s.investigator.lastCallCount - 1) * tokenEstimate task.question := by
  obtain ⟨hreply, hsame, hcounted⟩ := executeFollowUp_leftover hopened hlookup
  have htokens : (executeFollowUp host task.id s).2.run.retrievalTokensUsed =
      s.run.retrievalTokensUsed := congrArg Counters.tokens hsame
  obtain ⟨e', he', hfatal, -⟩ | ⟨-, hcounters⟩ := counters_stepFollowUp host config task s
  · rw [hreply] at he'
    cases he'
    rw [hexception] at hfatal
    cases hfatal
  · rw [counters_chargeExtra, hcounted, htokens] at hcounters
    have hsum := congrArg Counters.tokens hcounters
    have hextra : s.followUpCalls + max 1 s.investigator.lastCallCount - s.followUpCalls - 1 =
        s.investigator.lastCallCount - 1 := by omega
    rw [hextra] at hsum
    exact hsum

theorem followUpTask_ok {store : GraphStore} {taskId : String} {opened : Task}
    (h : followUpTask store taskId = .ok opened) : store.getTask taskId = some opened := by
  unfold followUpTask at h
  split at h
  · cases h
  · split at h
    · cases h
    · split at h
      · cases h
      · cases h
        assumption

/-- Where the lookup succeeds, the extra call fits: it was made within what was
left of the tokens. -/
theorem tokens_dispatched {opened : Task} {found : TaskRoute × TaskRoute}
    (hready : Ready config initial task s) (h : TokensWithin config s)
    (hopened : followUpTask s.store task.id = .ok opened)
    (hlookup : lookup host opened.question opened.projectRoot (s.saveTask (opening opened)) = .ok found) :
    TokensWithin config (stepFollowUp host config task s) := by
  obtain ⟨made, hmade, -, hfits, hdone, hcounted⟩ := executeFollowUp_dispatched hopened hlookup
  have htokens : (executeFollowUp host task.id s).2.run.retrievalTokensUsed =
      s.run.retrievalTokensUsed := congrArg Counters.tokens hdone
  have hquestion : opened.question = task.question := by
    obtain ⟨stored, hstored, hsame⟩ := hready.question
    rw [followUpTask_ok hopened] at hstored
    cases hstored
    exact hsame
  unfold TokensWithin at h ⊢
  obtain ⟨e, -, -, hcounters⟩ | ⟨-, hcounters⟩ := counters_stepFollowUp host config task s
  · rw [show (stepFollowUp host config task s).run.retrievalTokensUsed =
      (executeFollowUp host task.id s).2.run.retrievalTokensUsed from
        congrArg Counters.tokens hcounters, htokens]
    exact h
  · rw [counters_chargeExtra, hcounted, htokens] at hcounters
    have hextra : s.followUpCalls + max 1 made - s.followUpCalls - 1 = made - 1 := by omega
    have hsum : (stepFollowUp host config task s).run.retrievalTokensUsed =
        s.run.retrievalTokensUsed +
          (s.followUpCalls + max 1 made - s.followUpCalls - 1) * tokenEstimate task.question :=
      congrArg Counters.tokens hcounters
    rw [hsum, hextra]
    by_cases hmore : 1 < made
    · obtain rfl : made = 2 := by omega
      have hfit := hfits hmore
      rw [hquestion, hready.tokens] at hfit
      omega
    · have hnone : made - 1 = 0 := by omega
      rw [hnone, Nat.zero_mul]
      exact h

theorem tokens_stepFollowUp (hready : Ready config initial task s) (hphase : s.phase = .followUp task)
    (h : TokensWithin config s) (hleft : LeftoverFits host config s) :
    TokensWithin config (stepFollowUp host config task s) := by
  cases hopened : followUpTask s.store task.id with
  | error e =>
    have hnone : executeFollowUp host task.id s = (.error e, s) := by
      unfold executeFollowUp
      rw [hopened]
    have htokens : (stepFollowUp host config task s).run.retrievalTokensUsed =
        s.run.retrievalTokensUsed := by
      obtain ⟨e', -, -, hcounters⟩ | ⟨-, hcounters⟩ := counters_stepFollowUp host config task s
      · rw [hnone] at hcounters
        exact congrArg Counters.tokens hcounters
      · rw [counters_chargeExtra, hnone] at hcounters
        have hextra : s.followUpCalls - s.followUpCalls - 1 = 0 := by omega
        simpa [hextra, counters] using congrArg Counters.tokens hcounters
    unfold TokensWithin
    rw [htokens]
    exact h
  | ok opened =>
    cases hlookup : lookup host opened.question opened.projectRoot (s.saveTask (opening opened)) with
    | ok found => exact tokens_dispatched hready h hopened hlookup
    | error e =>
      by_cases hexception : e.isException = true
      · unfold TokensWithin
        rw [tokens_leftover hopened hlookup hexception]
        exact hleft task opened e hphase hopened hlookup hexception
      · obtain ⟨hreply, hsame, -⟩ := executeFollowUp_leftover hopened hlookup
        obtain ⟨e', he', -, hcounters⟩ | ⟨hnone, -⟩ := counters_stepFollowUp host config task s
        · unfold TokensWithin
          rw [show (stepFollowUp host config task s).run.retrievalTokensUsed =
            (executeFollowUp host task.id s).2.run.retrievalTokensUsed from
              congrArg Counters.tokens hcounters]
          exact h.of_counters hsame
        · exact absurd (hnone e hreply) hexception

/-- The step lemma of the tokens. -/
theorem TokensWithin.step (hcalls : CallsWithin config initial s) (h : TokensWithin config s)
    (hleft : LeftoverFits host config s) : TokensWithin config (step host config s) := by
  cases hphase : s.phase with
  | loop =>
    cases hqueue : s.queue with
    | nil =>
      rw [step_done hphase hqueue]
      unfold finish
      split <;> exact h
    | cons taskId queue =>
      rw [step_visit hphase hqueue]
      exact tokens_visit (s := { s with queue := queue }) h taskId
  | followUp task =>
    rw [step_followUp hphase]
    exact tokens_stepFollowUp (hcalls.ready task hphase) hphase h hleft
  | resolve task =>
    rw [step_resolve hphase]
    obtain ⟨phase, -, hsame | ⟨-, made, -, tokens, htokens, hcounters⟩⟩ :=
      counters_stepResolution host config task s
    · unfold TokensWithin
      rw [show (stepResolution host config task s).run.retrievalTokensUsed =
        s.run.retrievalTokensUsed from congrArg Counters.tokens hsame]
      exact h
    · unfold TokensWithin
      rw [show (stepResolution host config task s).run.retrievalTokensUsed = tokens from
        congrArg Counters.tokens hcounters]
      exact htokens
  | returned status reason =>
    unfold Pursue.step
    rw [hphase]
    exact h
  | raised e =>
    unfold Pursue.step
    rw [hphase]
    exact h

end

/-! ## Runs -/

section
variable (host : PursuitHost) (config : PursuitConfig) (rootTaskId : String) (initial : Nat)
  (investigator : Investigator) (followUpCalls resolutionCalls : Nat) (store : GraphStore)

/-- The state of the call after some steps. -/
abbrev stateAfter (steps : Nat) : Pursuit :=
  pursue host config steps (start rootTaskId initial investigator followUpCalls resolutionCalls store)

theorem pursue_succ (steps : Nat) (s : Pursuit) :
    pursue host config (steps + 1) s = step host config (pursue host config steps s) :=
  Function.iterate_succ_apply' (step host config) steps s

/-- **The calls of a run**: never more than the limit, whatever the models return. -/
theorem calls_within (steps : Nat) : CallsWithin config initial
    (stateAfter host config rootTaskId initial investigator followUpCalls resolutionCalls store
      steps) := by
  induction steps with
  | zero =>
    unfold stateAfter pursue start
    dsimp only [Function.iterate_zero, id]
    split
    · exact .settled (Nat.zero_le _) (le_refl _) fun _ => by simp [Pursuit.raise]
    · exact .settled (Nat.zero_le _) (le_refl _) fun _ => by simp [assess, Pursuit.saveTask]
  | succ steps ih =>
    unfold stateAfter
    rw [pursue_succ]
    exact ih.step

/-- **The budget of a pursuit**: the calls made and the tokens charged stay
within their limits in every state of a run if and only if what an investigation
whose lookup raises counts of an earlier one fits in the tokens left. -/
theorem within_budget_iff :
    (∀ steps, (stateAfter host config rootTaskId initial investigator followUpCalls resolutionCalls
        store steps).modelCalls ≤ config.maxCodexCalls ∧
      (stateAfter host config rootTaskId initial investigator followUpCalls resolutionCalls store
        steps).run.retrievalTokensUsed ≤ config.maxRetrievalTokens) ↔
    ∀ steps, LeftoverFits host config (stateAfter host config rootTaskId initial investigator
      followUpCalls resolutionCalls store steps) := by
  constructor
  · intro hwithin steps task opened e hphase hopened hlookup hexception
    have hnext := (hwithin (steps + 1)).2
    unfold stateAfter at hnext
    rw [pursue_succ, step_followUp hphase, tokens_leftover hopened hlookup hexception] at hnext
    exact hnext
  · intro hfits steps
    refine ⟨(calls_within host config rootTaskId initial investigator followUpCalls resolutionCalls
      store steps).bound, ?_⟩
    induction steps with
    | zero =>
      unfold stateAfter pursue start
      dsimp only [Function.iterate_zero, id]
      split <;> exact Nat.zero_le _
    | succ steps ih =>
      unfold stateAfter
      rw [pursue_succ]
      exact TokensWithin.step (calls_within host config rootTaskId initial investigator followUpCalls
        resolutionCalls store steps) ih (hfits steps)

end

/-! ## A task with an unresolved root -/

/-- Every model answers with confidence, and `link` resolves to another path. -/
def linkedHost : PursuitHost where
  resolve path := if path = "link" then "/project" else path
  strip := id
  taskFingerprint question _ := question
  now := fun _ => 0
  elapsed := fun _ => 0
  newId := toString
  workers := [.localModel, .codex]
  minimumConfidence := 3 / 4
  predict := fun _ _ route => .ok route
  investigate := fun _ _ _ => .ok ⟨"found", [], 1, []⟩
  resolver := fun _ _ => .ok ⟨none, "unsettled", [], 1, []⟩
  resolvesClusters := true
  successful := fun _ _ _ _ => false
  provenanceFault := fun _ => none
  followsUp := true

/-- A follow-up whose root is not its resolved form, so no open task matches it. -/
def linkedTask : Task where
  id := "task"
  question := "Which module writes the lease table?"
  fingerprint := "fingerprint"
  projectRoot := "link"
  kind := .followUp
  createdAt := 0

/-- The third step of a pursuit, with the count that an escalated answer left. -/
theorem two_retries : 1 ≤ 2 := by decide

def linkedState : Pursuit :=
  stateAfter linkedHost { maxRetrievalTokens := 12, retries := two_retries } "task" 0 { lastCallCount := 2 } 2 0
    ⟨[linkedTask], [], []⟩ 2

/-- A call that is not made is charged beyond the limit. -/
theorem leftover_overcharged : ¬∀ (host : PursuitHost) (config : PursuitConfig) (rootTaskId : String)
    (initial : Nat) (investigator : Investigator) (followUpCalls resolutionCalls : Nat)
    (store : GraphStore) (steps : Nat),
      (stateAfter host config rootTaskId initial investigator followUpCalls resolutionCalls store
        steps).modelCalls ≤ config.maxCodexCalls ∧
      (stateAfter host config rootTaskId initial investigator followUpCalls resolutionCalls store
        steps).run.retrievalTokensUsed ≤ config.maxRetrievalTokens := by
  intro hwithin
  have htokens := (hwithin linkedHost { maxRetrievalTokens := 12 } "task" 0 { lastCallCount := 2 } 2 0
    ⟨[linkedTask], [], []⟩ 2).2
  have hcharged : linkedState.run.retrievalTokensUsed = 19 := by decide +kernel
  unfold linkedState at hcharged
  rw [hcharged] at htokens
  exact absurd htokens (by decide)

end RlmGraph.Runner.Budget
