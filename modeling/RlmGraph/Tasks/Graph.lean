import Mathlib.Data.List.Basic
import Mathlib.Data.String.Basic
import RlmGraph.Lib.JsonText
import RlmGraph.Lib.Rows
import RlmGraph.Lib.Dependents

/-! # The project task graph

One table of tasks. What a task is and what it depends on never changes; its
status, its attempts, its lease and its results do. Every operation is an
update of the rows that meet a condition. An operation that raises leaves the
table as it was. -/
namespace RlmGraph.Tasks.Graph
open RlmGraph.Lib.JsonText RlmGraph.Lib.Rows RlmGraph.Lib.Dependents

inductive TaskStatus where
  | pending | ready | inProgress | verifying | done | failed | blocked | invalidated
  deriving DecidableEq

/-- The columns that are written once. -/
structure TaskSpec where
  taskId : Int
  objective : String
  acceptance : String
  dependencies : List Int
  priority : Int
  deriving DecidableEq

/-- The columns that operations update. -/
structure TaskState where
  status : TaskStatus := .pending
  attemptCount : Nat := 0
  leaseId : String := ""
  memoryRefs : List String := []
  result : Json := .obj []
  evidence : List Json := []
  failure : String := ""
  completedAt : String := ""
  invalidatedReason : String := ""

structure Task where
  spec : TaskSpec
  state : TaskState

/-- The table. No two tasks have the same identifier. -/
structure TaskGraph where
  tasks : List Task
  ids : (tasks.map (·.spec.taskId)).Nodup

structure TaskLease where
  taskId : Int
  objective : String
  acceptance : String
  dependencies : List Int
  attempt : Nat
  leaseId : String
  priorFailure : String
  deriving DecidableEq

inductive TaskError where
  | value (message : String)
  | runtime (message : String)
  deriving DecidableEq

/-! ## Rows -/

def empty : TaskGraph := ⟨[], List.nodup_nil⟩

/-- `INSERT OR IGNORE`. -/
def TaskGraph.insertOrIgnore (g : TaskGraph) (spec : TaskSpec) : TaskGraph :=
  if h : spec.taskId ∈ g.tasks.map (·.spec.taskId) then g
  else
    { tasks := g.tasks ++ [⟨spec, {}⟩]
      ids := by
        rw [List.map_append, List.map_singleton]
        exact List.nodup_append.mpr ⟨g.ids, List.nodup_singleton _, fun a ha b hb hab =>
          h (List.mem_singleton.mp hb ▸ hab ▸ ha)⟩ }

def Task.updated (hit : Task → Bool) (change : Task → TaskState) (t : Task) : Task :=
  if hit t then { t with state := change t } else t

@[simp] theorem updated_spec (hit : Task → Bool) (change : Task → TaskState) (t : Task) :
    (t.updated hit change).spec = t.spec := by
  unfold Task.updated
  split <;> rfl

/-- `UPDATE … SET … WHERE`. -/
def TaskGraph.update (g : TaskGraph) (hit : Task → Bool) (change : Task → TaskState) : TaskGraph where
  tasks := g.tasks.map (Task.updated hit change)
  ids := by
    have hspec : (g.tasks.map (Task.updated hit change)).map (·.spec.taskId) =
        g.tasks.map (·.spec.taskId) := by
      rw [List.map_map]
      exact List.map_congr_left fun t _ => congrArg (·.taskId) (updated_spec hit change t)
    rw [hspec]
    exact g.ids

/-- `cursor.rowcount` of an update. -/
def TaskGraph.rowcount (g : TaskGraph) (hit : Task → Bool) : Nat := g.tasks.countP hit

def TaskGraph.find? (g : TaskGraph) (taskId : Int) : Option Task :=
  g.tasks.find? (·.spec.taskId == taskId)

/-! ## Operations -/

/-- A task as `initialize` is given it. -/
structure NewTask where
  taskId : Int
  objective : String
  acceptance : Option String := none
  dependencies : List Int := []
  priority : Int := 0

def NewTask.spec (task : NewTask) : TaskSpec where
  taskId := task.taskId
  objective := task.objective
  acceptance := task.acceptance.getD task.objective
  dependencies := task.dependencies
  priority := task.priority

/-- `initialize`. -/
def TaskGraph.initializeTasks (g : TaskGraph) (tasks : List NewTask) : TaskGraph :=
  tasks.foldl (fun g task => g.insertOrIgnore task.spec) g

/-- Failed tasks first, then invalidated ones. -/
def statusOrder : TaskStatus → Nat
  | .failed => 0
  | .invalidated => 1
  | _ => 2

/-- `ORDER BY` status, descending priority, identifier. -/
def claimOrder (a b : Task) : Bool :=
  decide (statusOrder a.state.status < statusOrder b.state.status ∨
    (statusOrder a.state.status = statusOrder b.state.status ∧
      (b.spec.priority < a.spec.priority ∨
        (a.spec.priority = b.spec.priority ∧ a.spec.taskId ≤ b.spec.taskId))))

def claimable (maxAttempts : Int) (t : Task) : Bool :=
  [.pending, .ready, .failed, .invalidated].contains t.state.status &&
    decide ((t.state.attemptCount : Int) < maxAttempts)

/-- The identifiers of the tasks that are done. -/
def TaskGraph.completed (g : TaskGraph) : List Int :=
  (g.tasks.filter (·.state.status == .done)).map (·.spec.taskId)

/-- The first claimable task whose dependencies are all done. -/
def TaskGraph.selected (g : TaskGraph) (maxAttempts : Int) : Option Task :=
  ((g.tasks.filter (claimable maxAttempts)).mergeSort claimOrder).find? fun t =>
    t.spec.dependencies.all (g.completed.contains ·)

def claimNext (maxAttempts : Int) (leaseId : String) (g : TaskGraph) : Option TaskLease × TaskGraph :=
  match g.selected maxAttempts with
  | none => (none, g)
  | some t =>
    let attempt := t.state.attemptCount + 1
    (some ⟨t.spec.taskId, t.spec.objective, t.spec.acceptance, t.spec.dependencies, attempt, leaseId,
        t.state.failure⟩,
      g.update (·.spec.taskId == t.spec.taskId) fun u =>
        { u.state with status := .inProgress, attemptCount := attempt, leaseId := leaseId })

def staleLease : TaskError := .runtime "Task lease is stale or task is in an invalid state."

/-- The row of a lease, in one of the statuses. -/
def TaskLease.holds (lease : TaskLease) (statuses : List TaskStatus) (t : Task) : Bool :=
  t.spec.taskId == lease.taskId && t.state.leaseId == lease.leaseId && statuses.contains t.state.status

/-- An update that must meet exactly one row. -/
def TaskGraph.updateOne (g : TaskGraph) (hit : Task → Bool) (change : Task → TaskState) :
    Except TaskError TaskGraph :=
  if g.rowcount hit != 1 then .error staleLease else .ok (g.update hit change)

def beginVerification (lease : TaskLease) (result : Json) (memoryRefs : List String) (g : TaskGraph) :
    Except TaskError TaskGraph :=
  g.updateOne (lease.holds [.inProgress]) fun t =>
    { t.state with status := .verifying, result := result, memoryRefs := memoryRefs }

/-- `_transition_leased`, with the other fields it sets. -/
def transitionLeased (lease : TaskLease) (status : TaskStatus) (fields : TaskState → TaskState)
    (g : TaskGraph) : Except TaskError TaskGraph :=
  g.updateOne (lease.holds [.inProgress, .verifying]) fun t =>
    { fields t.state with status := status, leaseId := "" }

def complete (now : String) (lease : TaskLease) (evidence : List Json)
    (memoryRefs : Option (List String)) (g : TaskGraph) : Except TaskError TaskGraph :=
  if evidence.isEmpty then .error (.value "Completion requires verification evidence.")
  else transitionLeased lease .done (fun s =>
    { s with evidence := evidence, failure := "", completedAt := now,
             memoryRefs := memoryRefs.getD s.memoryRefs }) g

/-- `reason[:2000]`. -/
def clipped (reason : String) : String := String.ofList (reason.toList.take 2000)

def fail (lease : TaskLease) (reason : String) (evidence : List Json)
    (memoryRefs : Option (List String)) (g : TaskGraph) : Except TaskError TaskGraph :=
  transitionLeased lease .failed (fun s =>
    { s with failure := clipped reason, evidence := evidence,
             memoryRefs := memoryRefs.getD s.memoryRefs }) g

def exhausted (maxAttempts : Int) (t : Task) : Bool :=
  t.state.status == .failed && decide (maxAttempts ≤ (t.state.attemptCount : Int))

def blockExhausted (maxAttempts : Int) (g : TaskGraph) : Nat × TaskGraph :=
  (g.rowcount (exhausted maxAttempts),
    g.update (exhausted maxAttempts) fun t => { t.state with status := .blocked })

/-- The tasks with what they depend on. -/
def TaskGraph.rows (g : TaskGraph) : List (Row Int) :=
  g.tasks.map fun t => (t.spec.taskId, t.spec.dependencies)

/-- What `invalidate` has found out before its update. -/
def invalidated (taskId : Int) (g : TaskGraph) : Except TaskError (List Int) :=
  if (g.find? taskId).map (·.state.status) != some .done then
    .error (.value "Only completed tasks can be invalidated.")
  else .ok (spread g.rows [taskId])

def invalidateRows (affected : List Int) (reason : String) (g : TaskGraph) : TaskGraph :=
  g.update (affected.contains ·.spec.taskId) fun t =>
    { t.state with status := .invalidated, invalidatedReason := clipped reason, completedAt := "",
                   attemptCount := 0, failure := "" }

def invalidate (taskId : Int) (reason : String) (g : TaskGraph) : Except TaskError TaskGraph :=
  (invalidated taskId g).map fun affected => invalidateRows affected reason g

def interrupted (t : Task) : Bool := [.inProgress, .verifying].contains t.state.status

def recoverInterrupted (g : TaskGraph) : Nat × TaskGraph :=
  (g.rowcount interrupted, g.update interrupted fun t =>
    { t.state with status := .failed, leaseId := "",
                   failure := "Worker interrupted before verification completed" })

/-- What `reconcile_complete` has found out before its update: the evidence to
store. -/
def reconciled (taskId : Int) (evidence : Json) (g : TaskGraph) : Option (List Json) :=
  match g.find? taskId with
  | none => none
  | some t => if t.state.status = .done then none else some (t.state.evidence ++ [evidence])

def reconcileRow (now : String) (taskId : Int) (combined : List Json) (g : TaskGraph) : TaskGraph :=
  g.update (·.spec.taskId == taskId) fun t =>
    { t.state with status := .done, evidence := combined, failure := "", completedAt := now,
                   invalidatedReason := "" }

/-- Promotes a task that is not done. -/
def reconcileComplete (now : String) (taskId : Int) (evidence : Json) (g : TaskGraph) :
    Bool × TaskGraph :=
  match reconciled taskId evidence g with
  | none => (false, g)
  | some combined => (true, reconcileRow now taskId combined g)

/-! ## Rows after an update -/

variable {g : TaskGraph} {hit : Task → Bool} {change : Task → TaskState} {t : Task} {taskId : Int}

theorem task_unique {t u : Task} (ht : t ∈ g.tasks) (hu : u ∈ g.tasks)
    (hid : t.spec.taskId = u.spec.taskId) : t = u :=
  List.inj_on_of_nodup_map g.ids ht hu hid

theorem find?_eq_some : g.find? taskId = some t ↔ t ∈ g.tasks ∧ t.spec.taskId = taskId := by
  constructor
  · intro h
    exact ⟨List.mem_of_find?_eq_some h, by simpa using List.find?_some h⟩
  · rintro ⟨ht, rfl⟩
    exact find?_of_mem g.ids ht

theorem mem_update : t ∈ (g.update hit change).tasks ↔
    ∃ u ∈ g.tasks, (hit u = true ∧ t = { u with state := change u }) ∨ (hit u = false ∧ t = u) := by
  show t ∈ g.tasks.map (Task.updated hit change) ↔ _
  rw [List.mem_map]
  refine exists_congr fun u => and_congr_right fun _ => ?_
  unfold Task.updated
  cases hit u <;> simp [eq_comm]

/-- An update of one row found a row to update. -/
theorem updateOne_ok {g' : TaskGraph} (h : g.updateOne hit change = .ok g') :
    g' = g.update hit change ∧ ∃ t ∈ g.tasks, hit t = true := by
  unfold TaskGraph.updateOne at h
  split at h
  · cases h
  · rename_i hcount
    refine ⟨(Except.ok.inj h).symm, ?_⟩
    have hone : g.rowcount hit = 1 := by simpa using hcount
    exact List.countP_pos_iff.mp (by rw [TaskGraph.rowcount] at hone; omega)

theorem updateOne_error (h : ∀ t ∈ g.tasks, hit t = false) :
    g.updateOne hit change = .error staleLease := by
  have hzero : g.rowcount hit = 0 := List.countP_eq_zero.mpr fun t ht => by simp [h t ht]
  unfold TaskGraph.updateOne
  rw [hzero]
  rfl

end RlmGraph.Tasks.Graph
