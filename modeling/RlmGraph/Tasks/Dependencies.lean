import RlmGraph.Tasks.Graph

/-! # Done tasks and their dependencies

A task is claimed when all its dependencies are done, and what is invalidated
takes everything that depends on it along. So a task that was begun and not
invalidated has all its dependencies done (`Grounded`). The one operation that
does not look is the reconciliation of a task with outside evidence: the
invariant holds in every run in which it names no task whose dependencies are
not done (`dependencies_done`). -/
namespace RlmGraph.Tasks.Dependencies
open RlmGraph.Lib.JsonText RlmGraph.Lib.Rows RlmGraph.Lib.Dependents
open RlmGraph.Tasks.Graph

/-! ## Operations of a run -/

inductive Operation where
  | claimNext (maxAttempts : Int) (leaseId : String)
  | beginVerification (lease : TaskLease) (result : Json) (memoryRefs : List String)
  | complete (now : String) (lease : TaskLease) (evidence : List Json)
      (memoryRefs : Option (List String))
  | fail (lease : TaskLease) (reason : String) (evidence : List Json)
      (memoryRefs : Option (List String))
  | blockExhausted (maxAttempts : Int)
  | recoverInterrupted
  | invalidate (taskId : Int) (reason : String)
  | reconcileComplete (now : String) (taskId : Int) (evidence : Json)

def run : Operation → TaskGraph → Except TaskError TaskGraph
  | .claimNext maxAttempts leaseId, g => .ok (claimNext maxAttempts leaseId g).2
  | .beginVerification lease result memoryRefs, g => beginVerification lease result memoryRefs g
  | .complete now lease evidence memoryRefs, g => complete now lease evidence memoryRefs g
  | .fail lease reason evidence memoryRefs, g => fail lease reason evidence memoryRefs g
  | .blockExhausted maxAttempts, g => .ok (blockExhausted maxAttempts g).2
  | .recoverInterrupted, g => .ok (recoverInterrupted g).2
  | .invalidate taskId reason, g => invalidate taskId reason g
  | .reconcileComplete now taskId evidence, g => .ok (reconcileComplete now taskId evidence g).2

/-- The table after an operation; one that raises leaves it as it was. -/
def after (op : Operation) (g : TaskGraph) : TaskGraph :=
  match run op g with
  | .ok g' => g'
  | .error _ => g

/-- Operations on a table of new tasks, each of which meets a condition. -/
inductive Run (meets : TaskGraph → Operation → Prop) : TaskGraph → Prop
  | initial (tasks : List NewTask) : Run meets (empty.initializeTasks tasks)
  | step {g : TaskGraph} (op : Operation) (h : Run meets g) (hmeets : meets g op) :
      Run meets (after op g)

variable {g g' : TaskGraph} {hit : Task → Bool} {change : Task → TaskState} {t : Task}
  {taskId : Int} {lease : TaskLease}

/-! ## The invariant -/

theorem mem_completed {d : Int} :
    d ∈ g.completed ↔ ∃ t ∈ g.tasks, t.spec.taskId = d ∧ t.state.status = .done := by
  rw [TaskGraph.completed, List.mem_map]
  simp only [List.mem_filter, beq_iff_eq]
  constructor
  · rintro ⟨t, ⟨ht, hdone⟩, hid⟩
    exact ⟨t, ht, hid, hdone⟩
  · rintro ⟨t, ht, hid, hdone⟩
    exact ⟨t, ⟨ht, hdone⟩, hid⟩

/-- All dependencies of the task are done. -/
def Justified (g : TaskGraph) (t : Task) : Prop := ∀ d ∈ t.spec.dependencies, d ∈ g.completed

instance (g : TaskGraph) (t : Task) : Decidable (Justified g t) :=
  inferInstanceAs (Decidable (∀ d ∈ t.spec.dependencies, d ∈ g.completed))

/-- The statuses that only a claimed task comes to. -/
def begun : TaskStatus → Bool
  | .inProgress | .verifying | .done | .failed | .blocked => true
  | .pending | .ready | .invalidated => false

def Grounded (g : TaskGraph) : Prop :=
  ∀ t ∈ g.tasks, begun t.state.status = true → Justified g t

/-- **Updates** that take no task from done keep the invariant, if what they
begin is justified. -/
theorem Grounded.update (h : Grounded g)
    (hkeeps : ∀ t ∈ g.tasks, hit t = true → t.state.status = .done → (change t).status = .done)
    (hbegins : ∀ t ∈ g.tasks, hit t = true → begun (change t).status = true →
      begun t.state.status = true ∨ Justified g t) :
    Grounded (g.update hit change) := by
  have hcompleted : ∀ d ∈ g.completed, d ∈ (g.update hit change).completed := by
    intro d hd
    obtain ⟨u, hu, hid, hdone⟩ := mem_completed.mp hd
    refine mem_completed.mpr ⟨u.updated hit change, List.mem_map_of_mem hu, by simpa using hid, ?_⟩
    unfold Task.updated
    split
    · exact hkeeps u hu ‹_› hdone
    · exact hdone
  intro t ht hbegun
  obtain ⟨u, hu, ⟨hhit, rfl⟩ | ⟨-, rfl⟩⟩ := mem_update.mp ht
  · have hjustified : Justified g u := (hbegins u hu hhit hbegun).elim (h u hu) id
    exact fun d hd => hcompleted d (hjustified d hd)
  · exact fun d hd => hcompleted d (h t hu hbegun d hd)

theorem holds_iff {statuses : List TaskStatus} : lease.holds statuses t = true ↔
    t.spec.taskId = lease.taskId ∧ t.state.leaseId = lease.leaseId ∧ t.state.status ∈ statuses := by
  simp [TaskLease.holds, and_assoc]

/-- The task that `claim_next` selects. -/
theorem selected_spec {maxAttempts : Int} (h : g.selected maxAttempts = some t) :
    t ∈ g.tasks ∧ claimable maxAttempts t = true ∧ Justified g t := by
  have hmem := List.mem_of_find?_eq_some h
  rw [List.mem_mergeSort, List.mem_filter] at hmem
  have hall := List.find?_some h
  rw [List.all_eq_true] at hall
  exact ⟨hmem.1, hmem.2, fun d hd => by simpa using hall d hd⟩

theorem grounded_claimNext (h : Grounded g) (maxAttempts : Int) (leaseId : String) :
    Grounded (claimNext maxAttempts leaseId g).2 := by
  unfold claimNext
  split
  · exact h
  · rename_i t hselected
    obtain ⟨ht, hclaimable, hjustified⟩ := selected_spec hselected
    have hsame : ∀ u ∈ g.tasks, (u.spec.taskId == t.spec.taskId) = true → u = t :=
      fun u hu hid => task_unique hu ht (by simpa using hid)
    refine h.update (fun u hu hhit hdone => ?_) (fun u hu hhit _ => ?_)
    · rw [hsame u hu hhit] at hdone
      rw [claimable, hdone] at hclaimable
      cases hclaimable
    · rw [hsame u hu hhit]
      exact Or.inr hjustified

/-- What a lease may do to its task: the task was begun, and is not done. -/
theorem grounded_leased (h : Grounded g) {statuses : List TaskStatus}
    (hstatuses : ∀ s ∈ statuses, s = .inProgress ∨ s = .verifying)
    (hupdate : g.updateOne (lease.holds statuses) change = .ok g') : Grounded g' := by
  obtain ⟨rfl, -⟩ := updateOne_ok hupdate
  refine h.update (fun u _ hhit hdone => ?_) (fun u _ hhit _ => Or.inl ?_)
  · obtain ⟨-, -, hstatus⟩ := holds_iff.mp hhit
    rcases hstatuses _ hstatus with heq | heq <;> simp [heq] at hdone
  · obtain ⟨-, -, hstatus⟩ := holds_iff.mp hhit
    rcases hstatuses _ hstatus with heq | heq <;> rw [heq] <;> rfl

theorem grounded_invalidate (h : Grounded g) {reason : String}
    (hinvalidate : invalidate taskId reason g = .ok g') : Grounded g' := by
  unfold invalidate invalidated at hinvalidate
  split at hinvalidate
  · cases hinvalidate
  · obtain rfl := Except.ok.inj hinvalidate
    intro t ht hbegun
    obtain ⟨u, hu, ⟨hhit, rfl⟩ | ⟨hout, rfl⟩⟩ := mem_update.mp ht
    · cases hbegun
    · intro d hd
      obtain ⟨v, hv, hid, hdone⟩ := mem_completed.mp (h t hu hbegun d hd)
      -- the dependency is not affected, or the task would be
      have hfree : d ∉ spread g.rows [taskId] := by
        intro hin
        have hrow : (t.spec.taskId, t.spec.dependencies) ∈ g.rows := List.mem_map.mpr ⟨t, hu, rfl⟩
        have hreached := spread_closed g.rows [taskId] _ hrow ⟨d, hd, hin⟩
        simp only [List.contains_eq_mem, decide_eq_false_iff_not] at hout
        exact hout hreached
      have hkept : v ∈ (invalidateRows (spread g.rows [taskId]) reason g).tasks :=
        mem_update.mpr ⟨v, hv, Or.inr ⟨by simpa [hid] using hfree, rfl⟩⟩
      exact mem_completed.mpr ⟨v, hkept, hid, hdone⟩

theorem grounded_reconcile (h : Grounded g) {now : String} {evidence : Json}
    (hready : ∀ t, g.find? taskId = some t → t.state.status ≠ .done → Justified g t) :
    Grounded (reconcileComplete now taskId evidence g).2 := by
  unfold reconcileComplete reconciled
  cases hfind : g.find? taskId with
  | none => exact h
  | some t =>
    by_cases hdone : t.state.status = .done
    · simp only [hdone, if_true]
      exact h
    · simp only [hdone, if_false]
      obtain ⟨ht, hid⟩ := find?_eq_some.mp hfind
      refine h.update (fun _ _ _ _ => rfl) (fun u hu hhit _ => Or.inr ?_)
      have hsame : u = t := task_unique hu ht (by rw [hid]; simpa using hhit)
      rw [hsame]
      exact hready t hfind hdone

/-! ## Runs -/

/-- A reconciliation finds the dependencies of its task done. -/
def ReconcilesJustified (g : TaskGraph) : Operation → Prop
  | .reconcileComplete _ taskId _ =>
    ∀ t, g.find? taskId = some t → t.state.status ≠ .done → Justified g t
  | _ => True

/-- **One operation** keeps the invariant. -/
theorem Grounded.after (h : Grounded g) {op : Operation} (hmeets : ReconcilesJustified g op) :
    Grounded (after op g) := by
  unfold Dependencies.after
  cases hrun : Dependencies.run op g with
  | error e => exact h
  | ok g' =>
    cases op with
    | claimNext maxAttempts leaseId =>
      obtain rfl := Except.ok.inj hrun
      exact grounded_claimNext h maxAttempts leaseId
    | beginVerification lease result memoryRefs =>
      exact grounded_leased h (by simp) hrun
    | complete now lease evidence memoryRefs =>
      simp only [Dependencies.run, complete] at hrun
      split at hrun
      · cases hrun
      · exact grounded_leased h (by simp) hrun
    | fail lease reason evidence memoryRefs => exact grounded_leased h (by simp) hrun
    | blockExhausted maxAttempts =>
      obtain rfl := Except.ok.inj hrun
      have hfailed : ∀ t : Task, exhausted maxAttempts t = true → t.state.status = .failed :=
        fun t ht => by simp [exhausted] at ht; exact ht.1
      refine h.update (fun t _ hhit hdone => ?_) (fun t _ hhit _ => Or.inl ?_)
      · rw [hfailed t hhit] at hdone
        cases hdone
      · rw [hfailed t hhit]
        rfl
    | recoverInterrupted =>
      obtain rfl := Except.ok.inj hrun
      have hleased : ∀ t : Task, interrupted t = true →
          t.state.status = .inProgress ∨ t.state.status = .verifying :=
        fun t ht => by simpa [interrupted] using ht
      refine h.update (fun t _ hhit hdone => ?_) (fun t _ hhit _ => Or.inl ?_)
      · rcases hleased t hhit with heq | heq <;> simp [heq] at hdone
      · rcases hleased t hhit with heq | heq <;> rw [heq] <;> rfl
    | invalidate taskId reason => exact grounded_invalidate h hrun
    | reconcileComplete now taskId evidence =>
      obtain rfl := Except.ok.inj hrun
      exact grounded_reconcile h hmeets

theorem forall_mem_insertOrIgnore {p : Task → Prop} {spec : TaskSpec} (h : ∀ t ∈ g.tasks, p t)
    (hnew : p ⟨spec, {}⟩) : ∀ t ∈ (g.insertOrIgnore spec).tasks, p t := by
  unfold TaskGraph.insertOrIgnore
  split
  · exact h
  · exact forall_mem_concat h hnew

/-- New tasks are as the table's defaults have them. -/
theorem default_states {tasks : List NewTask} (h : ∀ t ∈ g.tasks, t.state = {}) :
    ∀ t ∈ (g.initializeTasks tasks).tasks, t.state = {} := by
  induction tasks generalizing g with
  | nil => exact h
  | cons task tasks ih => exact ih (forall_mem_insertOrIgnore h rfl)

theorem Run.grounded (h : Run ReconcilesJustified g) : Grounded g := by
  induction h with
  | initial tasks =>
    intro t ht hbegun
    rw [default_states (fun _ h => by cases h) t ht] at hbegun
    cases hbegun
  | step op _ hmeets ih => exact ih.after hmeets

/-- Every done task has all its dependencies done. -/
def DependenciesDone (g : TaskGraph) : Prop := ∀ t ∈ g.tasks, t.state.status = .done → Justified g t

instance (g : TaskGraph) : Decidable (DependenciesDone g) :=
  inferInstanceAs (Decidable (∀ t ∈ g.tasks, t.state.status = .done → Justified g t))

/-- **Dependency soundness.** In every run whose reconciliations find the
dependencies of their task done, every done task has all its dependencies
done. -/
theorem dependencies_done (h : Run ReconcilesJustified g) : DependenciesDone g :=
  fun t ht hdone => h.grounded t ht (by rw [hdone]; rfl)

/-- A task that failed or was blocked has its dependencies done, so it may be
reconciled. -/
theorem reconciles_failed (h : Run ReconcilesJustified g) (hfind : g.find? taskId = some t)
    (hfailed : t.state.status = .failed ∨ t.state.status = .blocked) (now : String) (evidence : Json) :
    ReconcilesJustified g (.reconcileComplete now taskId evidence) := by
  intro u hu _
  obtain rfl : t = u := Option.some.inj (hfind.symm.trans hu)
  refine h.grounded t (find?_eq_some.mp hfind).1 ?_
  rcases hfailed with heq | heq <;> rw [heq] <;> rfl

/-- Two tasks, the second after the first. -/
def pair : TaskGraph :=
  empty.initializeTasks [⟨1, "first", none, [], 0⟩, ⟨2, "second", none, [1], 0⟩]

theorem selected_pair : pair.selected 2 = some ⟨⟨1, "first", "first", [], 0⟩, {}⟩ := by
  have hclaimable : pair.tasks.filter (claimable 2) = pair.tasks := rfl
  rw [TaskGraph.selected, hclaimable]
  have hsorted : pair.tasks.mergeSort claimOrder = pair.tasks :=
    List.mergeSort_of_pairwise (by decide)
  rw [hsorted]
  rfl

def claimed : TaskGraph :=
  pair.update (·.spec.taskId == 1) fun u =>
    { u.state with status := .inProgress, attemptCount := 1, leaseId := "a" }

theorem claimNext_pair : after (.claimNext 2 "a") pair = claimed := by
  simp only [after, run, claimNext, selected_pair]
  rfl

/-- The first task is claimed and completed. -/
def firstDone : TaskGraph :=
  after (.complete "now" ⟨1, "first", "first", [], 1, "a", ""⟩ [.null] none)
    (after (.claimNext 2 "a") pair)

theorem dependencies_done_reconciled :
    DependenciesDone (after (.reconcileComplete "later" 2 .null) firstDone) := by
  have hdone : ∀ t ∈ firstDone.tasks, Justified firstDone t := by
    unfold firstDone
    rw [claimNext_pair]
    decide
  exact dependencies_done (.step _ (.step _ (.step _ (.initial _) trivial) trivial)
    fun t hfind _ => hdone t (find?_eq_some.mp hfind).1)

/-- **The second task is reconciled first.** -/
theorem reconciled_before_dependency :
    Run (fun _ _ => True) (after (.reconcileComplete "now" 2 .null) pair) ∧
      ¬ DependenciesDone (after (.reconcileComplete "now" 2 .null) pair) :=
  ⟨.step _ (.initial _) trivial, by decide⟩

end RlmGraph.Tasks.Dependencies
