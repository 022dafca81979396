import RlmGraph.Tasks.Dependencies

/-! # Task leases among several workers

Workers call the task graph in any order. A claim is one transaction and so is
every single update, but an invalidation reads the status of its task, then all
dependencies, and writes only then, and a reconciliation writes after its read:
these calls are split where others can come in between. The leases that were
issued are kept beside the table, to say which of them can still be used.

No step but a claim brings a lease back to a row, and a claim brings a new one.
So a lease that ended stays ended (`Steps.live`), and with this every call that
presents it is refused (`leases_exclusive`). -/
namespace RlmGraph.Tasks.Leases
open RlmGraph.Lib.JsonText RlmGraph.Lib.Rows RlmGraph.Lib.Dependents
open RlmGraph.Tasks.Graph RlmGraph.Tasks.Dependencies

/-! ## Workers -/

/-- What a worker does with a lease. -/
inductive LeaseCall where
  | beginVerification (result : Json) (memoryRefs : List String)
  | complete (now : String) (evidence : List Json) (memoryRefs : Option (List String))
  | fail (reason : String) (evidence : List Json) (memoryRefs : Option (List String))

def present (lease : TaskLease) : LeaseCall → TaskGraph → Except TaskError TaskGraph
  | .beginVerification result memoryRefs, g => beginVerification lease result memoryRefs g
  | .complete now evidence memoryRefs, g => complete now lease evidence memoryRefs g
  | .fail reason evidence memoryRefs, g => fail lease reason evidence memoryRefs g

/-- The calls that end the lease they present. -/
def LeaseCall.isEnding : LeaseCall → Bool
  | .beginVerification .. => false
  | .complete .. | .fail .. => true

/-- A call that has not made its update yet. -/
inductive PendingCall where
  /-- `invalidate` has seen that its task is done. -/
  | invalidateChecked (taskId : Int) (reason : String)
  /-- `invalidate` has collected the tasks to write. -/
  | invalidateRead (affected : List Int) (reason : String)
  /-- `reconcile_complete` has read the evidence of its task. -/
  | reconcileRead (taskId : Int) (combined : List Json)

structure World where
  graph : TaskGraph := empty
  issued : List TaskLease := []
  pending : List PendingCall := []

inductive Action where
  | initializeTasks (tasks : List NewTask)
  | claimNext (leaseId : String)
  | present (lease : TaskLease) (call : LeaseCall)
  | blockExhausted (limit : Int)
  | recoverInterrupted
  | invalidate (taskId : Int) (reason : String)
  | reconcileComplete (taskId : Int) (evidence : Json)
  /-- A call begun before goes on. -/
  | resume (now : String) (i : Nat)

/-- The next part of a pending call, with what then remains of it. -/
def PendingCall.resume (now : String) (g : TaskGraph) : PendingCall → TaskGraph × List PendingCall
  | .invalidateChecked taskId reason => (g, [.invalidateRead (spread g.rows [taskId]) reason])
  | .invalidateRead affected reason => (invalidateRows affected reason g, [])
  | .reconcileRead taskId combined => (reconcileRow now taskId combined g, [])

/-- One step. A call that raises changes nothing. -/
def act (maxAttempts : Int) : Action → World → World
  | .initializeTasks tasks, w => { w with graph := w.graph.initializeTasks tasks }
  | .claimNext leaseId, w =>
    { w with graph := (claimNext maxAttempts leaseId w.graph).2
             issued := w.issued ++ (claimNext maxAttempts leaseId w.graph).1.toList }
  | .present lease call, w =>
    match present lease call w.graph with
    | .ok g => { w with graph := g }
    | .error _ => w
  | .blockExhausted limit, w => { w with graph := (blockExhausted limit w.graph).2 }
  | .recoverInterrupted, w => { w with graph := (recoverInterrupted w.graph).2 }
  | .invalidate taskId reason, w =>
    match invalidated taskId w.graph with
    | .ok _ => { w with pending := w.pending ++ [.invalidateChecked taskId reason] }
    | .error _ => w
  | .reconcileComplete taskId evidence, w =>
    match reconciled taskId evidence w.graph with
    | some combined => { w with pending := w.pending ++ [.reconcileRead taskId combined] }
    | none => w
  | .resume now i, w =>
    match w.pending[i]? with
    | some call =>
      { w with graph := (call.resume now w.graph).1
               pending := w.pending.eraseIdx i ++ (call.resume now w.graph).2 }
    | none => w

/-- A claim takes an identifier that no issued lease has. -/
def Action.Fresh (w : World) : Action → Prop
  | .claimNext leaseId => ∀ lease ∈ w.issued, lease.leaseId ≠ leaseId
  | _ => True

/-- Steps of any workers in any order. -/
inductive Steps (maxAttempts : Int) (w : World) : World → Prop
  | refl : Steps maxAttempts w w
  | step {w' : World} (a : Action) (h : Steps maxAttempts w w') (hfresh : a.Fresh w') :
      Steps maxAttempts w (act maxAttempts a w')

/-- The actions that end a lease. -/
def Ends (w : World) (lease : TaskLease) : Action → Prop
  | .present presented call =>
    presented.taskId = lease.taskId ∧ presented.leaseId = lease.leaseId ∧ call.isEnding = true ∧
      ∃ g, present presented call w.graph = .ok g
  | .recoverInterrupted => True
  | .resume _ i =>
    match w.pending[i]? with
    | some (.invalidateRead affected _) => lease.taskId ∈ affected
    | some (.reconcileRead taskId _) => lease.taskId = taskId
    | _ => False
  | _ => False

variable {g g' : TaskGraph} {hit : Task → Bool} {change : Task → TaskState} {w w' : World}
  {lease : TaskLease} {maxAttempts : Int}

/-! ## Live leases -/

/-- A row under the lease. -/
def Live (g : TaskGraph) (lease : TaskLease) : Prop :=
  ∃ t ∈ g.tasks, lease.holds [.inProgress, .verifying] t = true

/-- **Accepted calls** present a live lease, and only the start of a
verification leaves it live. -/
theorem present_ok {call : LeaseCall} (h : present lease call g = .ok g') :
    Live g lease ∧ ∃ hit change, g' = g.update hit change ∧
      ∀ t ∈ g.tasks, hit t = true → lease.holds [.inProgress, .verifying] t = true ∧
        (call.isEnding = true → (change t).status = .done ∨ (change t).status = .failed) := by
  cases call with
  | beginVerification result memoryRefs =>
    obtain ⟨rfl, t, ht, hhit⟩ := updateOne_ok h
    have hsub : ∀ t, lease.holds [.inProgress] t = true →
        lease.holds [.inProgress, .verifying] t = true := by
      intro t ht
      obtain ⟨hid, hlease, hstatus⟩ := holds_iff.mp ht
      exact holds_iff.mpr ⟨hid, hlease, by simp at hstatus; simp [hstatus]⟩
    exact ⟨⟨t, ht, hsub t hhit⟩, _, _, rfl, fun u _ hu => ⟨hsub u hu, fun hend => by cases hend⟩⟩
  | complete now evidence memoryRefs =>
    have hrun : complete now lease evidence memoryRefs g = .ok g' := h
    unfold complete at hrun
    split at hrun
    · cases hrun
    · obtain ⟨rfl, t, ht, hhit⟩ := updateOne_ok hrun
      exact ⟨⟨t, ht, hhit⟩, _, _, rfl, fun u _ hu => ⟨hu, fun _ => Or.inl rfl⟩⟩
  | fail reason evidence memoryRefs =>
    obtain ⟨rfl, t, ht, hhit⟩ := updateOne_ok h
    exact ⟨⟨t, ht, hhit⟩, _, _, rfl, fun u _ hu => ⟨hu, fun _ => Or.inr rfl⟩⟩

/-- A lease that is not live is refused. -/
theorem present_dead (hdead : ¬ Live g lease) (call : LeaseCall) :
    ∃ e, present lease call g = .error e := by
  cases hrun : present lease call g with
  | error e => exact ⟨e, rfl⟩
  | ok g' => exact absurd (present_ok hrun).1 hdead

/-- **Updates** that put no row under the lease do not bring it back. -/
theorem Live.of_update (h : Live (g.update hit change) lease)
    (hlive : ∀ t ∈ g.tasks, hit t = true → (change t).leaseId = lease.leaseId →
      t.spec.taskId = lease.taskId →
      (change t).status = .inProgress ∨ (change t).status = .verifying → Live g lease) :
    Live g lease := by
  obtain ⟨t, ht, hholds⟩ := h
  obtain ⟨u, hu, ⟨hhit, rfl⟩ | ⟨-, rfl⟩⟩ := mem_update.mp ht
  · obtain ⟨hid, hlease, hstatus⟩ := holds_iff.mp hholds
    exact hlive u hu hhit hlease hid (by simpa using hstatus)
  · exact ⟨t, hu, hholds⟩

/-- Updates that leave no row under a lease. -/
theorem Live.of_update_status {status : TaskStatus}
    (hstatus : status ≠ .inProgress ∧ status ≠ .verifying)
    (h : Live (g.update hit change) lease) (hchange : ∀ t, (change t).status = status) :
    Live g lease :=
  h.of_update fun t _ _ _ _ hlive => by
    rw [hchange] at hlive
    exact (hlive.elim hstatus.1 hstatus.2).elim

theorem Live.of_insertOrIgnore {spec : TaskSpec} (h : Live (g.insertOrIgnore spec) lease) :
    Live g lease := by
  by_contra hdead
  obtain ⟨t, ht, hholds⟩ := h
  have hnone : ∀ t ∈ (g.insertOrIgnore spec).tasks,
      ¬ lease.holds [.inProgress, .verifying] t = true :=
    forall_mem_insertOrIgnore (fun u hu hlive => hdead ⟨u, hu, hlive⟩) fun hlive => by
      obtain ⟨-, -, hstatus⟩ := holds_iff.mp hlive
      simp at hstatus
  exact hnone t ht hholds

theorem Live.of_initialize {tasks : List NewTask} (h : Live (g.initializeTasks tasks) lease) :
    Live g lease := by
  induction tasks generalizing g with
  | nil => exact h
  | cons task tasks ih => exact (ih h).of_insertOrIgnore

/-- What a claim does. -/
theorem claimNext_cases (maxAttempts : Int) (leaseId : String) (g : TaskGraph) :
    claimNext maxAttempts leaseId g = (none, g) ∨
      ∃ t ∈ g.tasks, claimable maxAttempts t = true ∧ ∃ lease : TaskLease,
        lease.taskId = t.spec.taskId ∧ lease.leaseId = leaseId ∧
        claimNext maxAttempts leaseId g = (some lease,
          g.update (·.spec.taskId == t.spec.taskId) fun u =>
            { u.state with status := .inProgress, attemptCount := t.state.attemptCount + 1,
                           leaseId := leaseId }) := by
  unfold claimNext
  cases hselected : g.selected maxAttempts with
  | none => exact Or.inl rfl
  | some t =>
    obtain ⟨ht, hclaim, -⟩ := selected_spec hselected
    exact Or.inr ⟨t, ht, hclaim, _, rfl, rfl, rfl⟩

theorem Live.of_claimNext {leaseId : String} (hne : lease.leaseId ≠ leaseId)
    (h : Live (claimNext maxAttempts leaseId g).2 lease) : Live g lease := by
  obtain heq | ⟨t, _, _, _, _, _, heq⟩ := claimNext_cases maxAttempts leaseId g
  · rwa [heq] at h
  · rw [heq] at h
    exact h.of_update fun u _ _ hlease _ _ => absurd hlease.symm hne

theorem Live.of_resume {call : PendingCall} {now : String}
    (h : Live (call.resume now g).1 lease) : Live g lease := by
  cases call with
  | invalidateChecked taskId reason => exact h
  | invalidateRead affected reason => exact h.of_update_status (by decide) fun _ => rfl
  | reconcileRead taskId combined => exact h.of_update_status (by decide) fun _ => rfl

/-- **Steps** bring no issued lease back. -/
theorem Live.of_act {a : Action} (hissued : lease ∈ w.issued) (hfresh : a.Fresh w)
    (h : Live (act maxAttempts a w).graph lease) : Live w.graph lease := by
  cases a with
  | initializeTasks tasks => exact h.of_initialize
  | claimNext leaseId => exact h.of_claimNext (hfresh lease hissued)
  | present presented call =>
    simp only [act] at h
    split at h
    · rename_i g' hrun
      obtain ⟨-, hit, change, hg, hspec⟩ := present_ok hrun
      cases call with
      | beginVerification result memoryRefs =>
        obtain ⟨rfl, -⟩ := updateOne_ok hrun
        refine h.of_update fun t ht hhit hlease hid _ => ⟨t, ht, ?_⟩
        obtain ⟨-, -, hstatus⟩ := holds_iff.mp hhit
        exact holds_iff.mpr ⟨hid, hlease, by simp at hstatus; simp [hstatus]⟩
      | complete now evidence memoryRefs =>
        obtain rfl := hg
        refine h.of_update fun t ht hhit _ _ hlive => ?_
        rcases (hspec t ht hhit).2 rfl with heq | heq <;> simp [heq] at hlive
      | fail reason evidence memoryRefs =>
        obtain rfl := hg
        refine h.of_update fun t ht hhit _ _ hlive => ?_
        rcases (hspec t ht hhit).2 rfl with heq | heq <;> simp [heq] at hlive
    · exact h
  | blockExhausted limit => exact h.of_update_status (by decide) fun _ => rfl
  | recoverInterrupted => exact h.of_update_status (by decide) fun _ => rfl
  | invalidate taskId reason =>
    simp only [act] at h
    split at h <;> exact h
  | reconcileComplete taskId evidence =>
    simp only [act] at h
    split at h <;> exact h
  | resume now i =>
    simp only [act] at h
    split at h
    · exact h.of_resume
    · exact h

/-! ## Ends -/

theorem not_live_update {status : TaskStatus}
    (hstatus : status ≠ .inProgress ∧ status ≠ .verifying) (hchange : ∀ t, (change t).status = status)
    (hhit : ∀ t ∈ g.tasks, lease.holds [.inProgress, .verifying] t = true → hit t = true) :
    ¬ Live (g.update hit change) lease := by
  rintro ⟨t, ht, hholds⟩
  obtain ⟨u, hu, ⟨-, rfl⟩ | ⟨hmiss, rfl⟩⟩ := mem_update.mp ht
  · obtain ⟨-, -, hlive⟩ := holds_iff.mp hholds
    rw [show ({ u with state := change u } : Task).state.status = status from hchange u] at hlive
    simp [hstatus] at hlive
  · rw [hhit t hu hholds] at hmiss
    cases hmiss

/-- **The ends.** After an action that ends a lease it is not live. -/
theorem Ends.not_live {a : Action} (h : Ends w lease a) : ¬ Live (act maxAttempts a w).graph lease := by
  cases a with
  | present presented call =>
    obtain ⟨hid, hlease, hending, g', hrun⟩ := h
    have hgraph : (act maxAttempts (.present presented call) w).graph = g' := by
      simp only [act, hrun]
    have hholds : ∀ statuses t, lease.holds statuses t = presented.holds statuses t := fun _ _ => by
      unfold TaskLease.holds
      rw [hid, hlease]
    rw [hgraph]
    cases call with
    | beginVerification result memoryRefs => cases hending
    | complete now evidence memoryRefs =>
      have hcomplete : complete now presented evidence memoryRefs w.graph = .ok g' := hrun
      unfold complete at hcomplete
      split at hcomplete
      · cases hcomplete
      · obtain ⟨rfl, -⟩ := updateOne_ok hcomplete
        exact not_live_update (by decide) (fun _ => rfl) fun t _ ht => (hholds _ t).symm.trans ht
    | fail reason evidence memoryRefs =>
      obtain ⟨rfl, -⟩ := updateOne_ok (show w.graph.updateOne _ _ = _ from hrun)
      exact not_live_update (by decide) (fun _ => rfl) fun t _ ht => (hholds _ t).symm.trans ht
  | recoverInterrupted =>
    refine not_live_update (by decide) (fun _ => rfl) fun t _ ht => ?_
    obtain ⟨-, -, hstatus⟩ := holds_iff.mp ht
    simpa [interrupted] using hstatus
  | resume now i =>
    simp only [Ends] at h
    split at h
    · rename_i affected reason hcall
      simp only [act, hcall]
      refine not_live_update (by decide) (fun _ => rfl) fun t _ ht => ?_
      simpa [(holds_iff.mp ht).1] using h
    · rename_i taskId combined hcall
      simp only [act, hcall]
      refine not_live_update (by decide) (fun _ => rfl) fun t _ ht => ?_
      simpa [(holds_iff.mp ht).1] using h
    · exact h.elim
  | initializeTasks tasks => exact h.elim
  | claimNext leaseId => exact h.elim
  | blockExhausted limit => exact h.elim
  | invalidate taskId reason => exact h.elim
  | reconcileComplete taskId evidence => exact h.elim

/-! ## Runs -/

theorem issued_act (a : Action) (h : lease ∈ w.issued) : lease ∈ (act maxAttempts a w).issued := by
  cases a with
  | claimNext leaseId => exact List.mem_append_left _ h
  | present presented call => simp only [act]; split <;> exact h
  | invalidate taskId reason => simp only [act]; split <;> exact h
  | reconcileComplete taskId evidence => simp only [act]; split <;> exact h
  | resume now i => simp only [act]; split <;> exact h
  | initializeTasks tasks => exact h
  | blockExhausted limit => exact h
  | recoverInterrupted => exact h

theorem Steps.issued (h : Steps maxAttempts w w') (hissued : lease ∈ w.issued) : lease ∈ w'.issued := by
  induction h with
  | refl => exact hissued
  | step a _ _ ih => exact issued_act a ih

/-- **Later states** bring no issued lease back. -/
theorem Steps.live (h : Steps maxAttempts w w') (hissued : lease ∈ w.issued)
    (hlive : Live w'.graph lease) : Live w.graph lease := by
  induction h with
  | refl => exact hlive
  | step a hsteps hfresh ih => exact ih (hlive.of_act (hsteps.issued hissued) hfresh)

/-- No two issued leases have the same identifier, and no task was attempted
more often than allowed. -/
structure Bounded (maxAttempts : Int) (w : World) : Prop where
  leaseIds : (w.issued.map (·.leaseId)).Nodup
  attempts : ∀ t ∈ w.graph.tasks, (t.state.attemptCount : Int) ≤ maxAttempts

/-- Updates that raise no count. -/
theorem attempts_update (h : ∀ t ∈ g.tasks, (t.state.attemptCount : Int) ≤ maxAttempts)
    (hchange : ∀ t ∈ g.tasks, hit t = true → ((change t).attemptCount : Int) ≤ maxAttempts) :
    ∀ t ∈ (g.update hit change).tasks, (t.state.attemptCount : Int) ≤ maxAttempts := by
  intro t ht
  obtain ⟨u, hu, ⟨hhit, rfl⟩ | ⟨-, rfl⟩⟩ := mem_update.mp ht
  · exact hchange u hu hhit
  · exact h t hu

theorem attempts_present {call : LeaseCall}
    (h : ∀ t ∈ g.tasks, (t.state.attemptCount : Int) ≤ maxAttempts)
    (hrun : present lease call g = .ok g') :
    ∀ t ∈ g'.tasks, (t.state.attemptCount : Int) ≤ maxAttempts := by
  cases call with
  | beginVerification result memoryRefs =>
    obtain ⟨rfl, -⟩ := updateOne_ok hrun
    exact attempts_update h fun t ht _ => h t ht
  | complete now evidence memoryRefs =>
    have hcomplete : complete now lease evidence memoryRefs g = .ok g' := hrun
    unfold complete at hcomplete
    split at hcomplete
    · cases hcomplete
    · obtain ⟨rfl, -⟩ := updateOne_ok hcomplete
      exact attempts_update h fun t ht _ => h t ht
  | fail reason evidence memoryRefs =>
    obtain ⟨rfl, -⟩ := updateOne_ok hrun
    exact attempts_update h fun t ht _ => h t ht

theorem attempts_resume {call : PendingCall} {now : String} (hmax : 0 ≤ maxAttempts)
    (h : ∀ t ∈ g.tasks, (t.state.attemptCount : Int) ≤ maxAttempts) :
    ∀ t ∈ (call.resume now g).1.tasks, (t.state.attemptCount : Int) ≤ maxAttempts := by
  cases call with
  | invalidateChecked taskId reason => exact h
  | invalidateRead affected reason => exact attempts_update h fun t _ _ => hmax
  | reconcileRead taskId combined => exact attempts_update h fun t ht _ => h t ht

theorem attempts_initialize {tasks : List NewTask} (hmax : 0 ≤ maxAttempts)
    (h : ∀ t ∈ g.tasks, (t.state.attemptCount : Int) ≤ maxAttempts) :
    ∀ t ∈ (g.initializeTasks tasks).tasks, (t.state.attemptCount : Int) ≤ maxAttempts := by
  induction tasks generalizing g with
  | nil => exact h
  | cons task tasks ih => exact ih (forall_mem_insertOrIgnore h hmax)

theorem Bounded.act (h : Bounded maxAttempts w) (hmax : 0 ≤ maxAttempts) {a : Action}
    (hfresh : a.Fresh w) : Bounded maxAttempts (act maxAttempts a w) := by
  cases a with
  | initializeTasks tasks => exact { h with attempts := attempts_initialize hmax h.attempts }
  | claimNext leaseId =>
    obtain heq | ⟨t, ht, hclaim, lease, -, hlease, heq⟩ :=
      claimNext_cases maxAttempts leaseId w.graph
    · simp only [Leases.act, heq]
      exact { h with leaseIds := by simpa using h.leaseIds }
    · simp only [Leases.act, heq]
      refine ⟨?_, attempts_update h.attempts fun u _ _ => ?_⟩
      · show ((w.issued ++ [lease]).map (·.leaseId)).Nodup
        rw [List.map_append, List.map_singleton]
        refine List.nodup_append.mpr ⟨h.leaseIds, List.nodup_singleton _, ?_⟩
        intro x hx y hy hxy
        obtain ⟨l, hl, rfl⟩ := List.mem_map.mp hx
        exact hfresh l hl (hxy.trans ((List.mem_singleton.mp hy).trans hlease))
      · have hlt : (t.state.attemptCount : Int) < maxAttempts := by
          simpa using (Bool.and_eq_true_iff.mp hclaim).2
        show ((t.state.attemptCount + 1 : Nat) : Int) ≤ maxAttempts
        omega
  | present presented call =>
    simp only [Leases.act]
    split
    · exact { h with attempts := attempts_present h.attempts ‹_› }
    · exact h
  | blockExhausted limit =>
    exact { h with attempts := attempts_update h.attempts fun t ht _ => h.attempts t ht }
  | recoverInterrupted =>
    exact { h with attempts := attempts_update h.attempts fun t ht _ => h.attempts t ht }
  | invalidate taskId reason =>
    simp only [Leases.act]
    split
    · exact { h with }
    · exact h
  | reconcileComplete taskId evidence =>
    simp only [Leases.act]
    split
    · exact { h with }
    · exact h
  | resume now i =>
    simp only [Leases.act]
    split
    · exact { h with attempts := attempts_resume hmax h.attempts }
    · exact h

theorem Steps.bounded (h : Steps maxAttempts {} w) (hmax : 0 ≤ maxAttempts) : Bounded maxAttempts w := by
  induction h with
  | refl => exact ⟨List.nodup_nil, fun t ht => by cases ht⟩
  | step a _ hfresh ih => exact ih.act hmax hfresh

/-- The lease can be used in the next call. -/
def Usable (g : TaskGraph) (lease : TaskLease) : Prop := ∃ call g', present lease call g = .ok g'

/-- **Exclusive leases.** In every state that workers reach in any order, at
most one issued lease of a task can be used; a lease that ended is refused in
every later state, with the table as it was; and no task was attempted more
often than allowed. -/
theorem leases_exclusive (hmax : 0 ≤ maxAttempts) (h : Steps maxAttempts {} w) :
    (∀ l₁ ∈ w.issued, ∀ l₂ ∈ w.issued, l₁.taskId = l₂.taskId →
      Usable w.graph l₁ → Usable w.graph l₂ → l₁ = l₂) ∧
    (∀ lease ∈ w.issued, ∀ a, a.Fresh w → Ends w lease a →
      ∀ w', Steps maxAttempts (act maxAttempts a w) w' → ∀ call,
        (∃ e, present lease call w'.graph = .error e) ∧
          act maxAttempts (.present lease call) w' = w') ∧
    ∀ t ∈ w.graph.tasks, (t.state.attemptCount : Int) ≤ maxAttempts := by
  have hbounded := h.bounded hmax
  refine ⟨?_, ?_, hbounded.attempts⟩
  · intro l₁ hl₁ l₂ hl₂ htask ⟨_, _, hrun₁⟩ ⟨_, _, hrun₂⟩
    obtain ⟨t₁, ht₁, hholds₁⟩ := (present_ok hrun₁).1
    obtain ⟨t₂, ht₂, hholds₂⟩ := (present_ok hrun₂).1
    obtain ⟨hid₁, hlease₁, -⟩ := holds_iff.mp hholds₁
    obtain ⟨hid₂, hlease₂, -⟩ := holds_iff.mp hholds₂
    obtain rfl := task_unique ht₁ ht₂ (hid₁.trans (htask.trans hid₂.symm))
    exact List.inj_on_of_nodup_map hbounded.leaseIds hl₁ hl₂ (hlease₁.symm.trans hlease₂)
  · intro lease hissued a hfresh hends w' hsteps call
    have hdead : ¬ Live w'.graph lease := fun hlive =>
      hends.not_live (hsteps.live (issued_act a hissued) hlive)
    obtain ⟨e, hrun⟩ := present_dead hdead call
    exact ⟨⟨e, hrun⟩, by simp only [act, hrun]⟩

/-- A task and the claim of it. -/
def claimed : World :=
  act 2 (.claimNext "a") (act 2 (.initializeTasks [⟨1, "first", none, [], 0⟩]) {})

theorem leases_exclusive_claimed :
    (∃ e, present ⟨1, "first", "first", [], 1, "a", ""⟩ (.fail "late" [] none)
      (act 2 .recoverInterrupted claimed).graph = .error e) := by
  have hissued : claimed.issued = [⟨1, "first", "first", [], 1, "a", ""⟩] := by
    simp [claimed, act, claimNext, TaskGraph.selected, TaskGraph.initializeTasks, empty,
      TaskGraph.insertOrIgnore, claimable, NewTask.spec]
  have hsteps : Steps 2 {} claimed :=
    .step (.claimNext "a") (.step (.initializeTasks _) .refl trivial) fun _ h => by cases h
  refine ((leases_exclusive (by decide) hsteps).2.1 _ ?_ .recoverInterrupted trivial trivial _ .refl
    (.fail "late" [] none)).1
  rw [hissued]
  exact List.mem_singleton.mpr rfl

end RlmGraph.Tasks.Leases
