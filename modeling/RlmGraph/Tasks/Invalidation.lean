import RlmGraph.Lib.Interleavings
import RlmGraph.Tasks.Leases

/-! # Invalidated and completed tasks

An invalidation rewrites the task and all that depends on it, and nothing else
(`invalidation_exact`). What it writes beside the status is the reason, which
`reconcile_complete` clears and `complete` does not: so done tasks are coherent
in the runs that complete no task with a reason left (`done_tasks_coherent`). -/
namespace RlmGraph.Tasks.Invalidation
open RlmGraph.Lib.JsonText RlmGraph.Lib.Rows RlmGraph.Lib.Dependents RlmGraph.Lib.Interleavings
open RlmGraph.Tasks.Graph RlmGraph.Tasks.Dependencies RlmGraph.Tasks.Leases

variable {g g' : TaskGraph} {hit : Task → Bool} {change : Task → TaskState} {t : Task}
  {taskId : Int} {lease : TaskLease} {w : World}

/-! ## Exactly the dependents -/

/-- A task names another among its dependencies. -/
def DependsOn (g : TaskGraph) (a b : Int) : Prop :=
  ∃ t ∈ g.tasks, t.spec.taskId = b ∧ a ∈ t.spec.dependencies

/-- The task itself, and what depends on it directly or transitively. -/
def Affected (g : TaskGraph) (taskId other : Int) : Prop :=
  Relation.ReflTransGen (DependsOn g) taskId other

theorem on_rows_iff {a b : Int} : On g.rows a b ↔ DependsOn g a b := by
  constructor
  · rintro ⟨row, hrow, rfl, hdep⟩
    obtain ⟨t, ht, rfl⟩ := List.mem_map.mp hrow
    exact ⟨t, ht, rfl, hdep⟩
  · rintro ⟨t, ht, rfl, hdep⟩
    exact ⟨_, List.mem_map.mpr ⟨t, ht, rfl⟩, rfl, hdep⟩

theorem mem_spread_rows {other : Int} : other ∈ spread g.rows [taskId] ↔ Affected g taskId other := by
  have hon : On g.rows = DependsOn g := by
    funext a b
    exact propext on_rows_iff
  rw [mem_spread_iff, hon]
  simp [Affected]

/-- The row of an affected task. -/
def invalidatedTask (reason : String) (t : Task) : Task :=
  { t with state := { t.state with
      status := .invalidated, invalidatedReason := reason, completedAt := "", attemptCount := 0,
      failure := "" } }

/-- What an invalidation does to a row. -/
def Rewritten (g : TaskGraph) (taskId : Int) (reason : String) (t t' : Task) : Prop :=
  (Affected g taskId t.spec.taskId ∧ t' = invalidatedTask reason t) ∨
    (¬Affected g taskId t.spec.taskId ∧ t' = t)

theorem invalidate_done {reason : String} (hfind : g.find? taskId = some t)
    (hdone : t.state.status = .done) :
    invalidate taskId reason g = .ok (invalidateRows (spread g.rows [taskId]) reason g) := by
  have hstatus : (g.find? taskId).map (·.state.status) = some .done := by rw [hfind]; exact congrArg some hdone
  unfold invalidate invalidated
  rw [if_neg (by simp [hstatus])]
  rfl

/-- Row by row, an invalidation writes the clipped reason to what is affected. -/
theorem invalidateRows_rewrites (g : TaskGraph) (taskId : Int) (reason : String) :
    List.Forall₂ (Rewritten g taskId (clipped reason)) g.tasks
      (invalidateRows (spread g.rows [taskId]) reason g).tasks := by
  refine List.forall₂_map_right_iff.mpr (List.forall₂_same.mpr fun t _ => ?_)
  unfold Task.updated
  split
  · rename_i hin
    exact Or.inl ⟨mem_spread_rows.mp (by simpa using hin), rfl⟩
  · rename_i hout
    exact Or.inr ⟨fun haffected => hout (by simpa using mem_spread_rows.mpr haffected), rfl⟩

/-- **Exactly the dependents.** The invalidation of a done task returns, and
rewrites the task and what depends on it, with the first 2000 characters of the
reason; every other row stays as it is. -/
theorem invalidation_exact (g : TaskGraph) (taskId : Int) (reason : String) (t : Task)
    (hfind : g.find? taskId = some t) (hdone : t.state.status = .done) :
    ∃ g', invalidate taskId reason g = .ok g' ∧
      List.Forall₂ (Rewritten g taskId (clipped reason)) g.tasks g'.tasks :=
  ⟨_, invalidate_done hfind hdone, invalidateRows_rewrites g taskId reason⟩

/-- A task with two that depend on it, the second by way of the first; the
second is also on a cycle, and a last task depends on nothing. -/
def web : TaskGraph :=
  ⟨[⟨⟨1, "first", "first", [], 0⟩, { status := .done, completedAt := "now", evidence := [.null] }⟩,
    ⟨⟨2, "second", "second", [1], 0⟩, { status := .done, completedAt := "now", evidence := [.null] }⟩,
    ⟨⟨3, "third", "third", [2, 4], 0⟩, { status := .inProgress, leaseId := "a" }⟩,
    ⟨⟨4, "fourth", "fourth", [3], 0⟩, {}⟩,
    ⟨⟨5, "fifth", "fifth", [], 0⟩, { status := .done, completedAt := "now", evidence := [.null] }⟩],
    by decide⟩

theorem invalidation_exact_web :
    ∃ g', invalidate 1 "stale" web = .ok g' ∧
      List.Forall₂ (Rewritten web 1 (clipped "stale")) web.tasks g'.tasks :=
  invalidation_exact web 1 "stale" _ rfl rfl

/-- A done task. -/
def oneDone : TaskGraph :=
  ⟨[⟨⟨1, "first", "first", [1], 0⟩, { status := .done, completedAt := "now", evidence := [.null] }⟩],
    List.nodup_singleton _⟩

theorem clipped_length_le (reason : String) : (clipped reason).length ≤ 2000 := by
  unfold clipped
  rw [String.length_ofList, List.length_take]
  exact Nat.min_le_left _ _

def longReason : String := String.ofList (List.replicate 2001 'a')

theorem longReason_length : longReason.length = 2001 :=
  String.length_ofList.trans List.length_replicate

/-- **A long reason is cut.** -/
theorem long_reason_is_cut :
    ¬∀ (g : TaskGraph) (taskId : Int) (reason : String) (t : Task), g.find? taskId = some t →
      t.state.status = .done → ∃ g', invalidate taskId reason g = .ok g' ∧
        List.Forall₂ (Rewritten g taskId reason) g.tasks g'.tasks := by
  intro h
  obtain ⟨g', hrun, hrows⟩ := h oneDone 1 longReason _ rfl rfl
  obtain rfl := Except.ok.inj ((invalidate_done rfl rfl).symm.trans hrun)
  have hclipped := invalidateRows_rewrites oneDone 1 longReason
  have hself : Affected oneDone 1 1 := .refl
  cases hrows with
  | cons hfull _ =>
    cases hclipped with
    | cons hcut _ =>
      rcases hfull with ⟨-, hfull⟩ | ⟨hnot, -⟩
      · rcases hcut with ⟨-, hcut⟩ | ⟨hnot, -⟩
        · have hreason : longReason = clipped longReason :=
            congrArg (·.state.invalidatedReason) (hfull.symm.trans hcut)
          have hle := clipped_length_le longReason
          rw [← hreason, longReason_length] at hle
          exact absurd hle (by decide)
        · exact hnot hself
      · exact hnot hself

/-! ## Coherent records -/

/-- A done task, and only a done task, has a time of completion; it has evidence,
no failure and no reason of an invalidation. -/
structure CoherentTask (s : TaskState) : Prop where
  completed : s.status = .done ↔ s.completedAt ≠ ""
  evidence : s.status = .done → s.evidence ≠ []
  failure : s.status = .done → s.failure = ""
  reason : s.status = .done → s.invalidatedReason = ""

def Coherent (g : TaskGraph) : Prop := ∀ t ∈ g.tasks, CoherentTask t.state

/-- One step of a run, each with the limit of attempts it is given. -/
def advance (w : World) (step : Int × Action) : World := act step.1 step.2 w

/-- The clock of a step shows a time. -/
def Clocked : Action → Prop
  | .present _ (.complete now _ _) => now ≠ ""
  | .resume now _ => now ≠ ""
  | _ => True

/-- A task is not completed with the reason of an invalidation left. -/
def CompletesClean (w : World) : Action → Prop
  | .present lease (.complete _ evidence _) =>
    evidence ≠ [] → ∀ t ∈ w.graph.tasks, lease.holds [.inProgress, .verifying] t = true →
      t.state.invalidatedReason = ""
  | _ => True

/-- A row that is not done and has no time of completion. -/
theorem coherent_open {s : TaskState} (hstatus : s.status ≠ .done) (hempty : s.completedAt = "") :
    CoherentTask s where
  completed := ⟨fun h => absurd h hstatus, fun h => absurd hempty h⟩
  evidence h := absurd h hstatus
  failure h := absurd h hstatus
  reason h := absurd h hstatus

theorem CoherentTask.empty {s : TaskState} (h : CoherentTask s) (hstatus : s.status ≠ .done) :
    s.completedAt = "" := by
  by_contra hne
  exact hstatus (h.completed.mpr hne)

theorem Coherent.update (h : Coherent g)
    (hchange : ∀ t ∈ g.tasks, hit t = true → CoherentTask t.state → CoherentTask (change t)) :
    Coherent (g.update hit change) := by
  intro t ht
  obtain ⟨u, hu, ⟨hhit, rfl⟩ | ⟨-, rfl⟩⟩ := mem_update.mp ht
  · exact hchange u hu hhit (h u hu)
  · exact h t hu

/-- A call that presents a lease finds its task neither done nor with a time of
completion. -/
theorem CoherentTask.leased {statuses : List TaskStatus} (h : CoherentTask t.state)
    (hstatuses : .done ∉ statuses) (hhit : lease.holds statuses t = true) :
    t.state.completedAt = "" := by
  obtain ⟨-, -, hstatus⟩ := holds_iff.mp hhit
  exact h.empty fun hdone => hstatuses (hdone ▸ hstatus)

theorem coherent_present {call : LeaseCall} (h : Coherent g)
    (hclean : ∀ now evidence refs, call = .complete now evidence refs → now ≠ "" ∧
      (evidence ≠ [] → ∀ t ∈ g.tasks, lease.holds [.inProgress, .verifying] t = true →
        t.state.invalidatedReason = ""))
    (hrun : present lease call g = .ok g') : Coherent g' := by
  cases call with
  | beginVerification result memoryRefs =>
    obtain ⟨rfl, -⟩ := updateOne_ok hrun
    refine h.update fun t _ hhit ht => coherent_open (by simp) (ht.leased (by decide) hhit)
  | fail reason evidence memoryRefs =>
    obtain ⟨rfl, -⟩ := updateOne_ok hrun
    exact h.update fun t _ hhit ht => coherent_open (by simp) (ht.leased (by decide) hhit)
  | complete now evidence memoryRefs =>
    obtain ⟨hnow, hreason⟩ := hclean now evidence memoryRefs rfl
    have hcomplete : complete now lease evidence memoryRefs g = .ok g' := hrun
    unfold complete at hcomplete
    split at hcomplete
    · cases hcomplete
    · rename_i hevidence
      have hevidence : evidence ≠ [] := by simpa using hevidence
      obtain ⟨rfl, -⟩ := updateOne_ok hcomplete
      refine h.update fun t ht hhit _ => ?_
      exact ⟨iff_of_true rfl hnow, fun _ => hevidence, fun _ => rfl, fun _ => hreason hevidence t ht hhit⟩

theorem reconciled_ne_nil {evidence : Json} {combined : List Json}
    (h : reconciled taskId evidence g = some combined) : combined ≠ [] := by
  unfold reconciled at h
  split at h
  · cases h
  · split at h
    · cases h
    · cases h
      exact List.append_ne_nil_of_right_ne_nil _ (List.cons_ne_nil _ _)

/-- What is known of a run: the records are coherent, and the evidence that a
reconciliation will write is not empty. -/
structure Kept (w : World) : Prop where
  coherent : Coherent w.graph
  pending : ∀ taskId combined, .reconcileRead taskId combined ∈ w.pending → combined ≠ []

theorem coherent_initialize {tasks : List NewTask} (h : Coherent g) :
    Coherent (g.initializeTasks tasks) := by
  induction tasks generalizing g with
  | nil => exact h
  | cons task tasks ih =>
    exact ih (forall_mem_insertOrIgnore h (coherent_open (by simp) rfl))

theorem coherent_claimNext {maxAttempts : Int} {leaseId : String} (h : Coherent g) :
    Coherent (claimNext maxAttempts leaseId g).2 := by
  obtain heq | ⟨t, ht, hclaimable, _, -, -, heq⟩ := claimNext_cases maxAttempts leaseId g
  · rw [heq]
    exact h
  · rw [heq]
    refine h.update fun u hu hhit hrow => coherent_open (by simp) ?_
    obtain rfl := task_unique hu ht (by simpa using hhit)
    exact hrow.empty fun hdone => by simp [claimable, hdone] at hclaimable

theorem coherent_resume {call : PendingCall} {now : String} (hnow : now ≠ "") (h : Coherent g)
    (hcall : ∀ taskId combined, call = .reconcileRead taskId combined → combined ≠ []) :
    Coherent (call.resume now g).1 := by
  cases call with
  | invalidateChecked taskId reason => exact h
  | invalidateRead affected reason => exact h.update fun t _ _ _ => coherent_open (by simp) rfl
  | reconcileRead taskId combined =>
    refine h.update fun t _ _ _ => ?_
    exact ⟨iff_of_true rfl hnow, fun _ => hcall taskId combined rfl, fun _ => rfl, fun _ => rfl⟩

theorem Kept.act (h : Kept w) {maxAttempts : Int} {a : Action} (hclock : Clocked a)
    (hclean : CompletesClean w a) : Kept (act maxAttempts a w) := by
  cases a with
  | initializeTasks tasks => exact { h with coherent := coherent_initialize h.coherent }
  | claimNext leaseId => exact { h with coherent := coherent_claimNext h.coherent }
  | present lease call =>
    simp only [Leases.act]
    split
    · rename_i g' hrun
      refine { h with coherent := coherent_present h.coherent ?_ hrun }
      rintro now evidence refs rfl
      exact ⟨hclock, hclean⟩
    · exact h
  | blockExhausted limit =>
    refine { h with coherent := h.coherent.update fun t _ hhit ht => coherent_open (by simp) ?_ }
    exact ht.empty fun hdone => by simp [exhausted, hdone] at hhit
  | recoverInterrupted =>
    refine { h with coherent := h.coherent.update fun t _ hhit ht => coherent_open (by simp) ?_ }
    exact ht.empty fun hdone => by simp [interrupted, hdone] at hhit
  | invalidate taskId reason =>
    simp only [Leases.act]
    split
    · refine { h with pending := fun id combined hmem => ?_ }
      rcases List.mem_append.mp hmem with hmem | hmem
      · exact h.pending id combined hmem
      · cases List.mem_singleton.mp hmem
    · exact h
  | reconcileComplete taskId evidence =>
    simp only [Leases.act]
    split
    · rename_i combined hread
      refine { h with pending := fun id combined' hmem => ?_ }
      rcases List.mem_append.mp hmem with hmem | hmem
      · exact h.pending id combined' hmem
      · cases List.mem_singleton.mp hmem
        exact reconciled_ne_nil hread
    · exact h
  | resume now i =>
    simp only [Leases.act]
    split
    · rename_i call hcall
      have hmem := List.mem_of_getElem? hcall
      refine ⟨coherent_resume hclock h.coherent ?_, ?_⟩
      · rintro id combined rfl
        exact h.pending id combined hmem
      · intro id combined hnew
        rcases List.mem_append.mp hnew with hold | hnew
        · exact h.pending id combined (List.mem_of_mem_eraseIdx hold)
        · cases call <;> simp [PendingCall.resume] at hnew
    · exact h

/-- A completion with evidence of a task under its lease is accepted. -/
theorem complete_accepted {evidence : List Json} (now : String) (refs : Option (List String))
    (hevidence : evidence ≠ []) (ht : t ∈ g.tasks)
    (hholds : lease.holds [.inProgress, .verifying] t = true) :
    ∃ g', complete now lease evidence refs g = .ok g' ∧ ∃ u ∈ g'.tasks,
      u.state.status = .done ∧ u.state.invalidatedReason = t.state.invalidatedReason := by
  have hcount : g.rowcount (lease.holds [.inProgress, .verifying]) = 1 := by
    refine countP_eq_one g.ids ht hholds fun u _ hu => ?_
    rw [(holds_iff.mp hu).1, (holds_iff.mp hholds).1]
  unfold complete transitionLeased TaskGraph.updateOne
  rw [if_neg (by simpa using hevidence), hcount]
  exact ⟨_, rfl, _, mem_update.mpr ⟨t, ht, Or.inl ⟨hholds, rfl⟩⟩, rfl, rfl⟩

/-- A completion leaves the reason of the task it completes. -/
theorem not_coherent_act (maxAttempts : Int) {a : Action} (hdirty : ¬CompletesClean w a) :
    ¬Coherent (Leases.act maxAttempts a w).graph := by
  cases a with
  | present lease call =>
    cases call with
    | complete now evidence refs =>
      simp only [CompletesClean, not_forall] at hdirty
      obtain ⟨hevidence, t, ht, hholds, hreason⟩ := hdirty
      obtain ⟨g', hrun, u, hu, hdone, hkept⟩ :=
        complete_accepted now refs hevidence ht hholds
      have hpresent : present lease (.complete now evidence refs) w.graph = .ok g' := hrun
      intro hcoherent
      simp only [Leases.act, hpresent] at hcoherent
      exact hreason (hkept.symm.trans ((hcoherent u hu).reason hdone))
    | _ => exact absurd trivial hdirty
  | _ => exact absurd trivial hdirty

/-- **Coherent records.** The tasks are coherent in every state of a run iff no
step of it completes a task that has the reason of an invalidation left. -/
theorem done_tasks_coherent (steps : List (Int × Action))
    (hclock : ∀ step ∈ steps, Clocked step.2) :
    (∀ earlier later, steps = earlier ++ later →
      Coherent (earlier.foldl advance ({} : World)).graph) ↔
    Along (fun w step => CompletesClean w step.2) advance {} steps := by
  rw [along_iff]
  constructor
  · intro h earlier step later heq
    by_contra hdirty
    refine not_coherent_act step.1 hdirty ?_
    have hcoherent := h (earlier ++ [step]) later (by simp [heq])
    rwa [List.foldl_concat] at hcoherent
  · intro h earlier later heq
    have hbefore : ∀ before step rest, earlier = before ++ step :: rest →
        Clocked step.2 ∧ CompletesClean (before.foldl advance {}) step.2 := by
      intro before step rest hearlier
      refine ⟨hclock step ?_, h before step (rest ++ later) ?_⟩ <;> simp [heq, hearlier]
    have halong : Along (fun w step => Clocked step.2 ∧ CompletesClean w step.2) advance {} earlier :=
      along_iff.mpr hbefore
    have hkept : Kept (earlier.foldl advance ({} : World)) := by
      refine halong.keeps (fun w step hw hstep => hw.act hstep.1 hstep.2) ⟨?_, ?_⟩
      · intro t ht
        cases ht
      · intro id combined hmem
        cases hmem
    exact hkept.coherent

/-- A task is completed, invalidated and completed again. -/
def completedAgain : List (Int × Action) :=
  [(2, .initializeTasks [⟨1, "first", none, [], 0⟩]), (2, .claimNext "a"),
    (2, .present ⟨1, "first", "first", [], 1, "a", ""⟩ (.complete "noon" [.null] none)),
    (2, .invalidate 1 "stale"), (2, .resume "one" 0), (2, .resume "two" 0), (2, .claimNext "b"),
    (2, .present ⟨1, "first", "first", [], 1, "b", ""⟩ (.complete "three" [.null] none))]

theorem completedAgain_clocked : ∀ step ∈ completedAgain, Clocked step.2 := by
  simp [completedAgain, Clocked]

theorem done_tasks_coherent_completedAgain :
    (∀ earlier later, completedAgain = earlier ++ later →
      Coherent (earlier.foldl advance ({} : World)).graph) ↔
    Along (fun w step => CompletesClean w step.2) advance {} completedAgain :=
  done_tasks_coherent completedAgain completedAgain_clocked

/-- **The reason of an invalidation outlives the completion.** -/
theorem reason_outlives_completion :
    (∀ step ∈ completedAgain, Clocked step.2) ∧
      ¬Coherent (completedAgain.foldl advance ({} : World)).graph := by
  refine ⟨completedAgain_clocked, fun h => ?_⟩
  have hrows : (completedAgain.foldl advance ({} : World)).graph.tasks.map
      (fun t => (t.state.status, t.state.invalidatedReason)) = [(.done, "stale")] := by
    decide +kernel
  obtain ⟨t, ht, hrow⟩ := List.mem_map.mp (hrows ▸ List.mem_singleton_self _)
  obtain ⟨hdone, hreason⟩ := Prod.mk.inj hrow
  have hempty := (h t ht).reason hdone
  rw [hreason] at hempty
  exact absurd hempty (by decide)

end RlmGraph.Tasks.Invalidation
