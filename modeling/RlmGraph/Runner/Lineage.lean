import RlmGraph.Runner.Budget

/-! # What a pursuit keeps of the graph

A pursuit saves tasks over the rows they were read from and adds follow-ups below
resolutions; the place of a task in the graph stays. An investigation that is
done stays done, and a resolution is done through its own attempt only, which
completes the investigation above it once the others below it are done
(`Tracked.step`). So a pursuit that returns leaves no investigation open whose
resolutions are done (`Tracked.pursue`), and a pursuit of an investigation that is
done returns with it done (`pursue_of_done`). -/
namespace RlmGraph.Runner.Lineage
open RlmGraph.Lib RlmGraph.Lib.Rows RlmGraph.Runner.Records RlmGraph.Runner.Planner
open RlmGraph.Runner.Executors RlmGraph.Runner.Pursue RlmGraph.Runner.Budget

/-! ## Saves -/

/-- The place of a task in the graph. -/
structure Place where
  kind : TaskKind
  parentTaskId : Option String
  projectFingerprint : String
  disputedAssertionKey : Option String

def place (task : Task) : Place :=
  ⟨task.kind, task.parentTaskId, task.projectFingerprint, task.disputedAssertionKey⟩

/-- A task that is saved over its row. Only the pending resolution may become done. -/
structure Carries (pending : Option String) (old row : Task) : Prop where
  id : row.id = old.id
  place : place row = place old
  stays : old.kind = .investigation → old.status = .done → row.status = .done
  finishes : old.kind = .resolution → row.status = .done → old.status = .done ∨ pending = some old.id

/-- The saves of a part of a pursuit. -/
inductive Quiet (host : PursuitHost) (pending : Option String) (s : Pursuit) : Pursuit → Prop
  | refl : Quiet host pending s s
  | idle {t u : Pursuit} (h : Quiet host pending s t) (htasks : u.store.tasks = t.store.tasks)
      (htick : t.tick ≤ u.tick) : Quiet host pending s u
  | save {t u : Pursuit} {old row : Task} (h : Quiet host pending s t)
      (hold : t.store.getTask old.id = some old) (hrow : Carries pending old row)
      (htasks : u.store.tasks = (t.store.saveTask row).tasks) (htick : t.tick ≤ u.tick) :
      Quiet host pending s u
  | follow {t u : Pursuit} {parent row : Task} (h : Quiet host pending s t)
      (hnew : t.store.getTask row.id = none) (hid : row.id = host.newId t.tick)
      (hparent : t.store.getTask parent.id = some parent) (hresolution : parent.kind = .resolution)
      (hkind : row.kind = .followUp) (hchild : row.parentTaskId = some parent.id)
      (htasks : u.store.tasks = (t.store.saveTask row).tasks) (htick : t.tick < u.tick) :
      Quiet host pending s u

/-- No identifier that is still to be drawn is the one of a task. -/
def Unused (host : PursuitHost) (s : Pursuit) : Prop :=
  ∀ task ∈ s.store.tasks, ∀ n, s.tick ≤ n → host.newId n ≠ task.id

/-- The task has a row, in its place. -/
def At (s : Pursuit) (task : Task) : Prop :=
  ∃ old, s.store.getTask task.id = some old ∧ place old = place task

section
variable {host : PursuitHost} {pending : Option String} {s t u : Pursuit} {task row old : Task}

theorem Quiet.trans (h : Quiet host pending s t) (h' : Quiet host pending t u) : Quiet host pending s u := by
  induction h' with
  | refl => exact h
  | idle _ htasks htick ih => exact ih.idle htasks htick
  | save _ hold hrow htasks htick ih => exact ih.save hold hrow htasks htick
  | follow _ hnew hid hparent hresolution hkind hchild htasks htick ih =>
    exact ih.follow hnew hid hparent hresolution hkind hchild htasks htick

/-- What changes no task. -/
theorem quiet_idle (htasks : t.store.tasks = s.store.tasks) (htick : s.tick ≤ t.tick) :
    Quiet host pending s t :=
  Quiet.refl.idle htasks htick

/-- A save over a row. -/
theorem quiet_save (hold : s.store.getTask row.id = some old) (hrow : Carries pending old row) :
    Quiet host pending s (s.saveTask row) :=
  Quiet.refl.save (hrow.id ▸ hold) hrow rfl (le_refl _)

theorem getTask_congr {store store' : GraphStore} (h : store'.tasks = store.tasks) (taskId : String) :
    store'.getTask taskId = store.getTask taskId := by
  unfold GraphStore.getTask
  rw [h]

theorem getTask_saveTask_other (store : GraphStore) {taskId : String} (h : taskId ≠ row.id) :
    (store.saveTask row).getTask taskId = store.getTask taskId :=
  find?_replaceRow_other h

theorem at_of_row (h : s.store.getTask task.id = some task) : At s task := ⟨task, h, rfl⟩

theorem Carries.refl (task : Task) : Carries pending task task := ⟨rfl, rfl, fun _ h => h, fun _ h => .inl h⟩

theorem Carries.trans {first second third : Task} (h : Carries pending first second)
    (h' : Carries pending second third) : Carries pending first third where
  id := h'.id.trans h.id
  place := h'.place.trans h.place
  stays hkind hdone := h'.stays ((congrArg Place.kind h.place).trans hkind) (h.stays hkind hdone)
  finishes hkind hdone := by
    obtain hsecond | hpending := h'.finishes ((congrArg Place.kind h.place).trans hkind) hdone
    · exact h.finishes hkind hsecond
    · exact .inr (h.id ▸ hpending)

theorem row_of_saved (pending : Option String) {store store' : GraphStore} {taskId : String}
    (htasks : store'.tasks = (store.saveTask row).tasks) (hrow : store.getTask taskId = some old)
    (hsame : taskId = row.id → Carries pending old row) :
    ∃ row', store'.getTask taskId = some row' ∧ Carries pending old row' := by
  rw [getTask_congr htasks]
  by_cases hid : taskId = row.id
  · refine ⟨row, ?_, hsame hid⟩
    rw [hid]
    exact GraphStore.getTask_saveTask store row
  · exact ⟨old, (getTask_saveTask_other store hid).trans hrow, Carries.refl old⟩

/-- A row keeps its place, and how it may change is limited. -/
theorem Quiet.found (h : Quiet host pending s t) {taskId : String} {first : Task}
    (hfirst : s.store.getTask taskId = some first) :
    ∃ last, t.store.getTask taskId = some last ∧ Carries pending first last := by
  induction h with
  | refl => exact ⟨first, hfirst, Carries.refl first⟩
  | idle _ htasks _ ih =>
    obtain ⟨known, hknown, hcarries⟩ := ih
    exact ⟨known, (getTask_congr htasks _).trans hknown, hcarries⟩
  | @save t u old row _ hold hrow htasks _ ih =>
    obtain ⟨known, hknown, hcarries⟩ := ih
    obtain ⟨last, hlast, hnext⟩ := row_of_saved pending htasks hknown fun hid => by
      obtain rfl : known = old := Option.some.inj (hknown.symm.trans ((hid.trans hrow.id) ▸ hold))
      exact hrow
    exact ⟨last, hlast, hcarries.trans hnext⟩
  | @follow t u parent row _ hnew _ _ _ _ _ htasks _ ih =>
    obtain ⟨known, hknown, hcarries⟩ := ih
    obtain ⟨last, hlast, hnext⟩ := row_of_saved pending htasks hknown fun hid => by
      rw [hid, hnew] at hknown
      cases hknown
    exact ⟨last, hlast, hcarries.trans hnext⟩

/-- A task keeps its place. -/
theorem Quiet.at (h : Quiet host pending s t) (hat : At s task) : At t task := by
  obtain ⟨old, hold, hplace⟩ := hat
  obtain ⟨last, hlast, hcarries⟩ := h.found hold
  exact ⟨last, hlast, hcarries.place.trans hplace⟩

/-- What is drawn stays apart from what was drawn. -/
theorem Quiet.unused (hinj : Function.Injective host.newId) (h : Quiet host pending s t)
    (hs : Unused host s) : Unused host t := by
  have hsaved : ∀ {t u : Pursuit} {row : Task}, Unused host t → t.tick ≤ u.tick →
      u.store.tasks = (t.store.saveTask row).tasks → (∀ n, u.tick ≤ n → host.newId n ≠ row.id) →
      Unused host u := by
    intro t u row ht htick htasks hrow task htask n hn
    rw [htasks] at htask
    rcases mem_replaceRow.mp htask with ⟨hmem, -⟩ | rfl
    · exact ht task hmem n (htick.trans hn)
    · exact hrow n hn
  induction h with
  | refl => exact hs
  | idle _ htasks htick ih =>
    intro task htask n hn
    exact ih task (htasks ▸ htask) n (htick.trans hn)
  | @save t u old row _ hold hrow htasks htick ih =>
    refine hsaved ih htick htasks fun n hn => ?_
    rw [hrow.id]
    exact ih old (List.mem_of_find?_eq_some hold) n (htick.trans hn)
  | @follow t u parent row _ _ hid _ _ _ _ htasks htick ih =>
    refine hsaved ih htick.le htasks fun n hn heq => ?_
    rw [hid] at heq
    exact absurd (hinj heq) (Nat.ne_of_gt (htick.trans_le hn))

end

/-! ## The parts of a pursuit -/

section
variable {host : PursuitHost} {config : PursuitConfig} {pending : Option String} {s t : Pursuit}
  {task : Task} {reason : StoppingReason}

/-- The same task, with another status, route or count. -/
theorem carries_of_kind {old row : Task} (hid : row.id = old.id) (hplace : place row = place old)
    (hkind : old.kind ≠ .investigation)
    (hstatus : row.status = .done → old.status = .done ∨ pending = some old.id ∨ old.kind ≠ .resolution) :
    Carries pending old row where
  id := hid
  place := hplace
  stays h := absurd h hkind
  finishes hresolution hdone := by
    rcases hstatus hdone with h | h | h
    · exact .inl h
    · exact .inr h
    · exact absurd hresolution h

theorem carries_same {old row : Task} (hid : row.id = old.id) (hplace : place row = place old)
    (hstatus : row.status = old.status) : Carries pending old row where
  id := hid
  place := hplace
  stays _ h := hstatus.trans h
  finishes _ h := .inl (hstatus.symm.trans h)

theorem quiet_enqueue (tasks : List Task) : Quiet host pending s (enqueue tasks s) :=
  quiet_idle rfl (le_refl _)

theorem quiet_stopFor : Quiet host pending s (s.stopFor reason) := quiet_idle rfl (le_refl _)

theorem quiet_requeueParent : Quiet host pending s (requeueParent task s) := by
  unfold requeueParent
  split
  · exact .refl
  · exact quiet_enqueue _

theorem quiet_markClusterUnresolved : Quiet host pending s (markClusterUnresolved task s) := by
  unfold markClusterUnresolved
  split
  · exact .refl
  · split
    · exact .refl
    · exact quiet_idle rfl (le_refl _)

/-- An assessment changes scores and the route. -/
theorem quiet_assess (h : s.store.getTask task.id = some task) : Quiet host pending s (assess task s).2 :=
  quiet_save h (carries_same rfl rfl rfl)

theorem quiet_stopFrom (fuel : Nat) (parentId : Option String) (seen : List String) (s : Pursuit) :
    Quiet host pending s { s with store := stopFrom reason fuel parentId seen s.store } := by
  induction fuel generalizing parentId seen s with
  | zero => exact .refl
  | succ fuel ih =>
    unfold stopFrom
    split
    · exact .refl
    · next id _ =>
      split
      · exact .refl
      · split
        · exact .refl
        · next parent hparent =>
          split
          · exact .refl
          · next hopen =>
            have hrow : s.store.getTask parent.id = some parent := GraphStore.getTask_id hparent ▸ hparent
            have hsave : Quiet host pending s (s.saveTask { parent with
                status := .stopped, stoppingReason := some reason }) := by
              refine quiet_save hrow ⟨rfl, rfl, ?_, ?_⟩
              · exact fun _ hdone => absurd hdone hopen
              · exact fun _ hdone => by cases hdone
            exact hsave.trans (ih parent.parentTaskId (parent.id :: seen) _)

theorem quiet_propagateStopping : Quiet host pending s (propagateStopping task reason s) :=
  quiet_stopFrom _ _ _ s

theorem quiet_stop (hat : At s task) (hkind : task.kind ≠ .investigation) :
    Quiet host pending s (stop task reason s) := by
  obtain ⟨old, hold, hplace⟩ := hat
  have hid := GraphStore.getTask_id hold
  have hsave : Quiet host pending s (s.saveTask (stopped task reason)) := by
    refine quiet_save hold (carries_of_kind hid.symm hplace.symm ?_ ?_)
    · rw [show old.kind = task.kind from congrArg Place.kind hplace]
      exact hkind
    · exact fun hdone => by cases hdone
  unfold stop
  exact ((hsave.trans quiet_markClusterUnresolved).trans quiet_propagateStopping).trans quiet_stopFor

theorem quiet_completeFrom (fuel : Nat) (parentId : Option String) (s : Pursuit) :
    Quiet host pending s { s with store := completeFrom fuel parentId s.store } := by
  induction fuel generalizing parentId s with
  | zero => exact .refl
  | succ fuel ih =>
    unfold completeFrom
    split
    · exact .refl
    · next parent hparent =>
      dsimp only
      split
      · exact .refl
      · next hopen =>
        obtain ⟨id, -, hfound⟩ := Option.bind_eq_some_iff.mp hparent
        have hrow : s.store.getTask parent.id = some parent := GraphStore.getTask_id hfound ▸ hfound
        have hsave : Quiet host pending s (s.saveTask { parent with
            status := .done, stoppingReason := some .completed }) := by
          refine quiet_save hrow ⟨rfl, rfl, fun _ _ => rfl, ?_⟩
          exact fun hresolution => absurd (.inl hresolution) hopen
        exact hsave.trans (ih parent.parentTaskId _)

theorem quiet_propagateCompletion : Quiet host pending s (propagateCompletion task s) :=
  quiet_completeFrom _ _ s

theorem quiet_admitCall {text : String} {refused : Option StoppingReason}
    (h : admitCall host config task text s = (refused, t)) : Quiet host pending s t := by
  have htick : (tick host s).tick = s.tick + 1 := rfl
  unfold admitCall at h
  dsimp only at h
  repeat' split at h
  all_goals
    obtain ⟨-, rfl⟩ := Prod.mk.inj h
    exact quiet_idle rfl (Nat.le_of_lt (htick ▸ Nat.lt_succ_self _))

/-! ### Follow-ups -/

theorem quiet_createFrom (hinj : Function.Injective host.newId) {parent : Task}
    (hkind : parent.kind = .resolution) (gaps existing : List String) (hat : At s parent)
    (hunused : Unused host s) : Quiet host pending s (createFrom host parent gaps existing s).2 := by
  induction gaps generalizing existing s with
  | nil => exact .refl
  | cons gap gaps ih =>
    unfold createFrom
    dsimp only
    split
    · exact ih existing hat hunused
    · obtain ⟨old, hold, hplace⟩ := hat
      have hid := GraphStore.getTask_id hold
      have hfollow : ∀ child : Task, child.id = host.newId s.tick → child.kind = .followUp →
          child.parentTaskId = some parent.id →
          Quiet host pending s (assess child (s.next.saveTask child)).2 := by
        intro child hchild hfollowUp hbelow
        have hnew : s.store.getTask child.id = none := by
          refine List.find?_eq_none.mpr fun row hrow => ?_
          have hne := hunused row hrow s.tick (le_refl _)
          simpa [hchild] using Ne.symm hne
        have hsave : Quiet host pending s (s.next.saveTask child) :=
          Quiet.refl.follow hnew hchild (hid ▸ hold : s.store.getTask old.id = some old)
            ((congrArg Place.kind hplace).trans hkind) hfollowUp (hid ▸ hbelow) rfl (Nat.lt_succ_self _)
        exact hsave.trans (quiet_assess (GraphStore.getTask_saveTask s.next.store child))
      cases reusableFor s.store (host.taskFingerprint gap parent.projectFingerprint)
          parent.projectFingerprint with
      | none =>
        have hchild := hfollow (followUpOf host parent gap s) rfl rfl rfl
        exact hchild.trans (ih _ (hchild.at ⟨old, hold, hplace⟩) (hchild.unused hinj hunused))
      | some reusable =>
        have hchild := hfollow (reusing (followUpOf host parent gap s) reusable) rfl rfl rfl
        exact hchild.trans (ih _ (hchild.at ⟨old, hold, hplace⟩) (hchild.unused hinj hunused))

theorem quiet_createFollowUps (hinj : Function.Injective host.newId) (hkind : task.kind = .resolution)
    (hat : At s task) (hunused : Unused host s) (questions : List String) :
    Quiet host pending s (createFollowUps host config task questions s).2 :=
  quiet_createFrom hinj hkind _ _ hat hunused

theorem quiet_called : Quiet host pending s (called s) := quiet_idle rfl (Nat.le_succ _)

theorem quiet_dispatch (planned : TaskRoute) (question : String) (routes : List TaskRoute) (seen : Seen)
    (s : Pursuit) : Quiet host pending s (dispatch host planned question routes seen s).2 := by
  induction routes generalizing seen s with
  | nil => exact .refl
  | cons route routes ih =>
    unfold dispatch
    split
    · exact .refl
    split
    · exact .refl
    split
    · exact ih _ s
    split
    · split
      · exact quiet_called.trans (ih _ _)
      · exact quiet_called
    · dsimp only
      split
      · exact quiet_called
      · exact quiet_called.trans (ih _ _)

theorem quiet_investigate (question projectRoot : String) :
    Quiet host pending s (investigate host question projectRoot s).2 := by
  unfold investigate
  split
  · exact quiet_idle rfl (Nat.le_succ _)
  · have hbegin : Quiet host pending s { s.next with
        investigator := { s.investigator with lastCallCount := 0 } } := quiet_idle rfl (Nat.le_succ _)
    exact hbegin.trans (quiet_dispatch _ _ _ _ _)

theorem quiet_saveFollowUp (hat : At s task) (hkind : task.kind = .followUp) (result : InvestigationResult) :
    Quiet host pending s (saveFollowUp host task result s).2 := by
  obtain ⟨old, hold, hplace⟩ := hat
  have hid := GraphStore.getTask_id hold
  have hsave : Quiet host pending s (s.saveTask { task with
      outputClaimId := some (host.newId s.tick), status := .done }) := by
    have holdKind : old.kind = .followUp := (congrArg Place.kind hplace).trans hkind
    refine quiet_save hold (carries_of_kind hid.symm hplace.symm ?_ ?_)
    · rw [holdKind]; decide
    · exact fun _ => .inr (.inr (by rw [holdKind]; decide))
  unfold saveFollowUp
  dsimp only
  split
  · exact hsave.trans (quiet_idle rfl (Nat.le_succ _))
  · exact hsave.trans (quiet_idle rfl (Nat.le_succ _))

theorem followUpTask_row {store : GraphStore} {taskId : String} (h : followUpTask store taskId = .ok task) :
    store.getTask task.id = some task ∧ task.kind = .followUp := by
  unfold followUpTask at h
  split at h
  · cases h
  · next row hrow =>
    split at h
    · cases h
    · next hkind =>
      split at h
      · cases h
      · cases h
        exact ⟨GraphStore.getTask_id hrow ▸ hrow, not_not.mp hkind⟩

theorem quiet_executeFollowUp (taskId : String) : Quiet host pending s (executeFollowUp host taskId s).2 := by
  unfold executeFollowUp
  split
  · exact .refl
  · next task htask =>
    obtain ⟨hrow, hkind⟩ := followUpTask_row htask
    have hsave : Quiet host pending s (s.saveTask (opening task)) :=
      quiet_save hrow (carries_same rfl rfl rfl)
    have hasked : Quiet host pending s (investigate host (opening task).question
        (opening task).projectRoot (s.saveTask (opening task))).2 := hsave.trans (quiet_investigate _ _)
    dsimp only
    generalize investigate host (opening task).question (opening task).projectRoot
      (s.saveTask (opening task)) = asked at hasked
    obtain ⟨reply, done⟩ := asked
    cases reply with
    | error e => exact hasked.trans (quiet_idle rfl (le_refl _))
    | ok result =>
      have hcounted : Quiet host pending s { done with
          followUpCalls := done.followUpCalls + max 1 done.investigator.lastCallCount } :=
        hasked.trans (quiet_idle rfl (le_refl _))
      have hat : At _ (opening task) := hcounted.at ⟨task, hrow, rfl⟩
      exact hcounted.trans (quiet_saveFollowUp hat hkind result)

/-! ### Resolutions -/

theorem resolutionTask_row {store : GraphStore} {taskId : String} {claims : List Claim}
    {cluster : Option ConflictCluster} (h : resolutionTask store taskId = .ok (task, claims, cluster)) :
    task.id = taskId ∧ store.getTask task.id = some task ∧ task.kind = .resolution ∧ task.status = .open := by
  unfold resolutionTask at h
  split at h
  · cases h
  · next row hrow =>
    split at h
    · cases h
    · next hkind =>
      split at h
      · cases h
      · next hstatus =>
        split at h
        · cases h
        · split at h
          · cases h
          · cases h
            have hid := GraphStore.getTask_id hrow
            exact ⟨hid, hid ▸ hrow, not_not.mp hkind, not_not.mp hstatus⟩

/-- The saves of an adjudication; the one that makes the task done comes first. -/
theorem quiet_saveAdjudicated (hat : At s task) (hkind : task.kind = .resolution)
    (cluster : Option ConflictCluster) (result : ResolutionResult) :
    Quiet host (some task.id) s (saveAdjudicated host task cluster result s).2 := by
  obtain ⟨old, hold, hplace⟩ := hat
  have hid := GraphStore.getTask_id hold
  have hsave : Quiet host (some task.id) s (s.saveTask { task with
      status := .done, resolvedClaimId := some (host.newId s.tick), stoppingReason := some .completed }) := by
    refine quiet_save hold (carries_of_kind hid.symm hplace.symm ?_ ?_)
    · rw [show old.kind = .resolution from (congrArg Place.kind hplace).trans hkind]
      decide
    · exact fun _ => .inr (.inl (congrArg some hid.symm))
  unfold saveAdjudicated
  dsimp only
  split
  · exact hsave.trans (quiet_idle rfl (Nat.le_succ _))
  · split
    · exact hsave.trans (quiet_idle rfl (Nat.le_succ _))
    · exact hsave.trans (quiet_idle rfl (Nat.le_succ _))

theorem saveAdjudicated_ok {cluster : Option ConflictCluster} {result result' : ResolutionResult}
    {outcome : Task} (h : saveAdjudicated host task cluster result s = (.ok (outcome, result'), t)) :
    t.store.getTask outcome.id = some outcome ∧ outcome.id = task.id ∧ place outcome = place task ∧
      outcome.status = .done := by
  have hrow := fun row : Task => GraphStore.getTask_saveTask s.store row
  unfold saveAdjudicated at h
  dsimp only at h
  split at h
  · cases h
  · split at h
    · cases h
      exact ⟨hrow _, rfl, rfl, rfl⟩
    · cases h
      exact ⟨hrow _, rfl, rfl, rfl⟩

/-- An attempt, and the task it ends with. -/
theorem quiet_executeResolution (taskId : String) :
    Quiet host (some taskId) s (executeResolution host taskId s).2 ∧
      ∀ outcome result t, executeResolution host taskId s = (.ok (outcome, result), t) →
        t.store.getTask outcome.id = some outcome ∧ outcome.id = taskId ∧ outcome.kind = .resolution ∧
          (outcome.status = .done ∨ outcome.status = .recurse) := by
  unfold executeResolution
  split
  · exact ⟨.refl, by rintro _ _ _ ⟨⟩⟩
  · next task claims cluster htask =>
    obtain ⟨rfl, hrow, hkind, hstatus⟩ := resolutionTask_row htask
    have hsave : Quiet host (some task.id) s (s.saveTask (opening task)) :=
      quiet_save hrow (carries_same rfl rfl rfl)
    dsimp only
    split
    · exact ⟨hsave.trans (quiet_idle rfl (le_refl _)), by rintro _ _ _ ⟨⟩⟩
    · split
      · exact ⟨hsave.trans (quiet_idle rfl (Nat.le_succ _)), by rintro _ _ _ ⟨⟩⟩
      · next result _ =>
        have hreplied := hsave.trans (quiet_idle (t := { ({ s.saveTask (opening task) with
          resolutionCalls := s.resolutionCalls + 1 } : Pursuit).next with
            modelCalls := s.modelCalls + 1 }) rfl (Nat.le_succ _))
        have hat : At _ (opening task) := hreplied.at ⟨task, hrow, rfl⟩
        split
        · refine ⟨hreplied.trans (quiet_saveAdjudicated hat hkind cluster result), ?_⟩
          intro outcome result' t houtcome
          obtain ⟨hsaved, hid, hplace, hdone⟩ := saveAdjudicated_ok houtcome
          exact ⟨hsaved, hid, (congrArg Place.kind hplace).trans hkind, .inl hdone⟩
        · obtain ⟨old, hold, hplace⟩ := hat
          have hid := GraphStore.getTask_id hold
          refine ⟨hreplied.trans (quiet_save hold
            (carries_of_kind hid.symm hplace.symm ?_ ?_)), ?_⟩
          · rw [show old.kind = .resolution from (congrArg Place.kind hplace).trans hkind]
            decide
          · exact fun hdone => by cases hdone
          · rintro outcome result' t ⟨⟩
            exact ⟨GraphStore.getTask_saveTask _ _, rfl, hkind, .inr rfl⟩

end

/-! ## Investigations and their resolutions -/

/-- An investigation that is recorded with the keys it disputes. -/
structure Recorded where
  taskId : String
  keys : List String
  projectFingerprint : String

/-- The investigation is done. -/
def Recorded.Done (recorded : Recorded) (tasks : List Task) : Prop :=
  ∃ task ∈ tasks, task.id = recorded.taskId ∧ task.status = .done

/-- The investigation has only resolutions of its keys below it, one for each key
until it is done, and it is done once they all are; the pending resolution is not
counted as done. -/
structure Tracked (norm : String → String) (recorded : Recorded) (pending : Option String)
    (tasks : List Task) : Prop where
  ids : (tasks.map (·.id)).Nodup
  named : recorded.taskId ≠ ""
  root : ∃ task ∈ tasks, task.id = recorded.taskId ∧ task.kind = .investigation
  children : ∀ child ∈ tasks, child.parentTaskId = some recorded.taskId → child.kind = .resolution ∧
    child.projectFingerprint = recorded.projectFingerprint ∧
    norm (child.disputedAssertionKey.getD "") ∈ recorded.keys
  keyed : recorded.Done tasks ∨
    ∀ key ∈ recorded.keys, ∃ child ∈ tasks, child.parentTaskId = some recorded.taskId ∧
      norm (child.disputedAssertionKey.getD "") = key
  closed : (∀ child ∈ tasks, child.parentTaskId = some recorded.taskId →
      child.status = .done ∧ pending ≠ some child.id) → recorded.Done tasks

section
variable {norm : String → String} {recorded : Recorded} {pending : Option String}
  {tasks tasks' : List Task} {old row parent : Task}

theorem eq_of_id (hids : (tasks.map (·.id)).Nodup) {a b : Task} (ha : a ∈ tasks) (hb : b ∈ tasks)
    (h : a.id = b.id) : a = b :=
  Option.some.inj ((find?_of_mem hids ha).symm.trans ((by rw [h]) : _ = _) |>.trans (find?_of_mem hids hb))

/-- Every row was there, in its place, or is the saved one. -/
theorem Tracked.over (h : Tracked norm recorded pending tasks) (hold : old ∈ tasks)
    (hrow : Carries pending old row) : Tracked norm recorded pending (replaceRow (·.id) row tasks) := by
  have hparent : row.parentTaskId = old.parentTaskId := congrArg Place.parentTaskId hrow.place
  have hkey : row.disputedAssertionKey = old.disputedAssertionKey :=
    congrArg Place.disputedAssertionKey hrow.place
  have hfinger : row.projectFingerprint = old.projectFingerprint :=
    congrArg Place.projectFingerprint hrow.place
  have hkind : row.kind = old.kind := congrArg Place.kind hrow.place
  have hkeep : ∀ task ∈ tasks, ∃ task' ∈ replaceRow (·.id) row tasks, task'.id = task.id ∧
      (task' = task ∨ (task = old ∧ task' = row)) := by
    intro task htask
    by_cases hid : task.id = row.id
    · obtain rfl := eq_of_id h.ids htask hold (hid.trans hrow.id)
      exact ⟨row, mem_replaceRow.mpr (.inr rfl), hid.symm, .inr ⟨rfl, rfl⟩⟩
    · exact ⟨task, mem_replaceRow.mpr (.inl ⟨htask, hid⟩), rfl, .inl rfl⟩
  have hdone : recorded.Done tasks → recorded.Done (replaceRow (·.id) row tasks) := by
    rintro ⟨task, htask, hid, hstatus⟩
    obtain ⟨task', htask', hid', rfl | ⟨rfl, rfl⟩⟩ := hkeep task htask
    · exact ⟨task', htask', hid, hstatus⟩
    · obtain ⟨root, hroot, hrootId, hinvestigation⟩ := h.root
      obtain rfl := eq_of_id h.ids hroot htask (hrootId.trans hid.symm)
      exact ⟨task', htask', hid'.trans hid, hrow.stays hinvestigation hstatus⟩
  constructor
  case ids => exact nodup_replaceRow h.ids
  case named => exact h.named
  case root =>
    obtain ⟨root, hroot, hid, hinvestigation⟩ := h.root
    obtain ⟨task', htask', hid', rfl | ⟨rfl, rfl⟩⟩ := hkeep root hroot
    · exact ⟨task', htask', hid, hinvestigation⟩
    · exact ⟨task', htask', hid'.trans hid, hkind.trans hinvestigation⟩
  case children =>
    intro child hchild hbelow
    rcases mem_replaceRow.mp hchild with ⟨hmem, -⟩ | rfl
    · exact h.children child hmem hbelow
    · rw [hkind, hfinger, hkey]
      exact h.children old hold (hparent.symm.trans hbelow)
  case keyed =>
    refine h.keyed.imp hdone fun hkeys key hmem => ?_
    obtain ⟨child, hchild, hbelow, hsame⟩ := hkeys key hmem
    obtain ⟨child', hchild', -, rfl | ⟨rfl, rfl⟩⟩ := hkeep child hchild
    · exact ⟨child', hchild', hbelow, hsame⟩
    · exact ⟨child', hchild', hparent.trans hbelow, by rw [hkey]; exact hsame⟩
  case closed =>
    intro hall
    refine hdone (h.closed fun child hchild hbelow => ?_)
    obtain ⟨child', hchild', hid, rfl | ⟨rfl, rfl⟩⟩ := hkeep child hchild
    · exact hall child' hchild' hbelow
    · obtain ⟨hstatus, hpending⟩ := hall child' hchild' (hparent.trans hbelow)
      rw [hid] at hpending
      obtain hbefore | hnow := hrow.finishes (h.children child hchild hbelow).1 hstatus
      · exact ⟨hbefore, hpending⟩
      · exact absurd hnow hpending

/-- A task that is saved elsewhere, and was elsewhere unless the investigation is done. -/
theorem Tracked.elsewhere (h : Tracked norm recorded pending tasks) (hid : row.id ≠ recorded.taskId)
    (hparent : row.parentTaskId ≠ some recorded.taskId)
    (hold : ∀ old ∈ tasks, old.id = row.id → old.parentTaskId = some recorded.taskId → recorded.Done tasks) :
    Tracked norm recorded pending (replaceRow (·.id) row tasks) := by
  have hkeep : ∀ task ∈ tasks, task.id = recorded.taskId → task ∈ replaceRow (·.id) row tasks :=
    fun task htask hsame => mem_replaceRow.mpr (.inl ⟨htask, fun hrow => hid (hrow.symm.trans hsame)⟩)
  have hdone : recorded.Done tasks → recorded.Done (replaceRow (·.id) row tasks) := by
    rintro ⟨task, htask, hsame, hstatus⟩
    exact ⟨task, hkeep task htask hsame, hsame, hstatus⟩
  have hchildren : ∀ child ∈ replaceRow (·.id) row tasks, child.parentTaskId = some recorded.taskId →
      child ∈ tasks := by
    intro child hchild hbelow
    rcases mem_replaceRow.mp hchild with ⟨hmem, -⟩ | rfl
    · exact hmem
    · exact absurd hbelow hparent
  -- a child that is not replaced is still there
  have hstay : ¬recorded.Done tasks → ∀ child ∈ tasks, child.parentTaskId = some recorded.taskId →
      child ∈ replaceRow (·.id) row tasks := by
    intro hopen child hchild hbelow
    exact mem_replaceRow.mpr (.inl ⟨hchild, fun hsame => hopen (hold child hchild hsame hbelow)⟩)
  constructor
  case ids => exact nodup_replaceRow h.ids
  case named => exact h.named
  case root =>
    obtain ⟨root, hroot, hsame, hrest⟩ := h.root
    exact ⟨root, hkeep root hroot hsame, hsame, hrest⟩
  case children => exact fun child hchild hbelow => h.children child (hchildren child hchild hbelow) hbelow
  case keyed =>
    by_cases hopen : recorded.Done tasks
    · exact .inl (hdone hopen)
    · refine .inr fun key hmem => ?_
      obtain ⟨child, hchild, hbelow, hsame⟩ := (h.keyed.resolve_left hopen) key hmem
      exact ⟨child, hstay hopen child hchild hbelow, hbelow, hsame⟩
  case closed =>
    intro hall
    refine hdone ?_
    by_contra hopen
    exact hopen (h.closed fun child hchild hbelow => hall child (hstay hopen child hchild hbelow) hbelow)

/-- A new task below another one changes nothing. -/
theorem Tracked.follow (h : Tracked norm recorded pending tasks) (hnew : row.id ∉ tasks.map (·.id))
    (hparent : row.parentTaskId ≠ some recorded.taskId) :
    Tracked norm recorded pending (replaceRow (·.id) row tasks) := by
  refine h.elsewhere (fun hid => ?_) hparent fun old hold hid _ => absurd (List.mem_map.mpr ⟨old, hold, hid⟩) hnew
  obtain ⟨root, hroot, hsame, -⟩ := h.root
  exact hnew (List.mem_map.mpr ⟨root, hroot, hsame.trans hid.symm⟩)

end

/-! ## The steps of a pursuit -/

section
variable {host : PursuitHost} {config : PursuitConfig} {norm : String → String} {recorded : Recorded}
  {pending : Option String} {s t : Pursuit} {task : Task} {tasks : List Task} {taskId : String}

theorem mem_of_getTask {store : GraphStore} (h : store.getTask taskId = some task) :
    task ∈ store.tasks ∧ task.id = taskId :=
  ⟨List.mem_of_find?_eq_some h, GraphStore.getTask_id h⟩

theorem getTask_of_mem {store : GraphStore} (hids : (store.tasks.map (·.id)).Nodup) (h : task ∈ store.tasks) :
    store.getTask task.id = some task :=
  find?_of_mem hids h

theorem Quiet.tracked (h : Quiet host pending s t) (hs : Tracked norm recorded pending s.store.tasks) :
    Tracked norm recorded pending t.store.tasks := by
  induction h with
  | refl => exact hs
  | idle _ htasks _ ih => rw [htasks]; exact ih
  | save _ hold hrow htasks _ ih =>
    rw [htasks]
    exact ih.over (mem_of_getTask hold).1 hrow
  | @follow t u parent row _ hnew _ hparent hresolution _ hchild htasks _ ih =>
    rw [htasks]
    refine ih.follow (fun hmem => ?_) fun hbelow => ?_
    · obtain ⟨known, hknown, hid⟩ := List.mem_map.mp hmem
      exact List.find?_eq_none.mp hnew known hknown (by simpa using hid)
    · obtain ⟨root, hroot, hid, hinvestigation⟩ := ih.root
      have hsame : parent.id = recorded.taskId := Option.some.inj (hchild.symm.trans hbelow)
      obtain rfl := eq_of_id ih.ids (mem_of_getTask hparent).1 hroot (hsame.trans hid.symm)
      rw [hresolution] at hinvestigation
      cases hinvestigation

/-- Before a resolution is attempted. -/
theorem Tracked.attempt (h : Tracked norm recorded none tasks) (taskId : String) :
    Tracked norm recorded (some taskId) tasks :=
  { h with closed := fun hall => h.closed fun child hchild hbelow =>
      ⟨(hall child hchild hbelow).1, by rintro ⟨⟩⟩ }

/-- After it was attempted: where the resolution is below the investigation and all are
done, the investigation is. -/
theorem Tracked.release (h : Tracked norm recorded (some taskId) tasks)
    (hlast : (∀ child ∈ tasks, child.parentTaskId = some recorded.taskId → child.status = .done) →
      (∃ child ∈ tasks, child.id = taskId ∧ child.parentTaskId = some recorded.taskId) →
      recorded.Done tasks) :
    Tracked norm recorded none tasks := by
  refine { h with closed := fun hall => ?_ }
  have hdone : ∀ child ∈ tasks, child.parentTaskId = some recorded.taskId → child.status = .done :=
    fun child hchild hbelow => (hall child hchild hbelow).1
  by_cases hmember : ∃ child ∈ tasks, child.id = taskId ∧ child.parentTaskId = some recorded.taskId
  · exact hlast hdone hmember
  · refine h.closed fun child hchild hbelow => ⟨hdone child hchild hbelow, fun hsame => ?_⟩
    exact hmember ⟨child, hchild, (Option.some.inj hsame).symm, hbelow⟩

/-- A resolution that is not done after its attempt closes nothing. -/
theorem Tracked.release_open (h : Tracked norm recorded (some taskId) s.store.tasks)
    (hrow : s.store.getTask taskId = some task) (hopen : task.status ≠ .done) :
    Tracked norm recorded none s.store.tasks := by
  refine h.release fun hall ⟨child, hchild, hid, hbelow⟩ => ?_
  obtain ⟨hmem, htask⟩ := mem_of_getTask hrow
  obtain rfl := eq_of_id h.ids hchild hmem (hid.trans htask.symm)
  exact absurd (hall child hchild hbelow) hopen

/-- The completion of a resolution completes the investigation above it. -/
theorem completeFrom_done {store : GraphStore} {root : Task} (hname : taskId ≠ "")
    (hroot : store.getTask taskId = some root) (hkind : root.kind = .investigation)
    (hsome : ∃ child ∈ store.tasks, child.parentTaskId = some taskId)
    (hall : ∀ child ∈ store.tasks, child.parentTaskId = some taskId → child.status = .done) (fuel : Nat) :
    completeFrom (fuel + 1) (some taskId) store = completeFrom fuel root.parentTaskId
      (store.saveTask { root with status := .done, stoppingReason := some .completed }) := by
  have hgiven : given (some taskId) = some taskId := by
    unfold given
    rw [Option.filter_some, if_pos (by simpa using hname)]
  have hid : root.id = taskId := GraphStore.getTask_id hroot
  have hopen : ¬(root.kind = .resolution ∨ store.children root.id = [] ∨
      (store.children root.id).any fun item => decide (item.status ≠ .done)) := by
    rw [hid]
    rintro (hresolution | hnone | hany)
    · rw [hkind] at hresolution
      cases hresolution
    · obtain ⟨child, hchild, hbelow⟩ := hsome
      have hmem : child ∈ store.children taskId := List.mem_filter.mpr ⟨hchild, by simpa using hbelow⟩
      rw [hnone] at hmem
      cases hmem
    · obtain ⟨child, hchild, hstatus⟩ := List.any_eq_true.mp hany
      obtain ⟨hmem, hbelow⟩ := List.mem_filter.mp hchild
      exact of_decide_eq_true hstatus (hall child hmem (by simpa using hbelow))
  rw [completeFrom, hgiven, Option.bind_some, hroot]
  exact if_neg hopen

/-- The completion of a resolution that is done leaves no investigation open. -/
theorem Tracked.complete (host : PursuitHost) (h : Tracked norm recorded (some task.id) s.store.tasks)
    (hrow : s.store.getTask task.id = some task) :
    Tracked norm recorded none (propagateCompletion task s).store.tasks := by
  have hquiet : ∀ pending, Quiet host pending s (propagateCompletion task s) :=
    fun _ => quiet_propagateCompletion
  have hend := (hquiet (some task.id)).tracked h
  refine hend.release fun hall ⟨child, hchild, hid, hbelow⟩ => ?_
  have hparent : task.parentTaskId = some recorded.taskId := by
    obtain ⟨last, hlast, hcarries⟩ := (hquiet none).found hrow
    obtain ⟨hmem, hlastId⟩ := mem_of_getTask hlast
    obtain rfl := eq_of_id hend.ids hmem hchild (hlastId.trans hid.symm)
    exact (congrArg Place.parentTaskId hcarries.place).symm.trans hbelow
  have hdone : ∀ child ∈ s.store.tasks, child.parentTaskId = some recorded.taskId → child.status = .done := by
    intro other hother hunder
    obtain ⟨last, hlast, hcarries⟩ := (hquiet none).found (getTask_of_mem h.ids hother)
    have hstatus := hall last (mem_of_getTask hlast).1
      ((congrArg Place.parentTaskId hcarries.place).trans hunder)
    obtain hbefore | hpending := hcarries.finishes (h.children other hother hunder).1 hstatus
    · exact hbefore
    · cases hpending
  obtain ⟨root, hroot, hrootId, hinvestigation⟩ := h.root
  have hstored : s.store.getTask recorded.taskId = some root := hrootId ▸ getTask_of_mem h.ids hroot
  have hsome : ∃ child ∈ s.store.tasks, child.parentTaskId = some recorded.taskId :=
    ⟨task, (mem_of_getTask hrow).1, hparent⟩
  have hcompleted : (propagateCompletion task s).store = completeFrom s.store.tasks.length root.parentTaskId
      (s.store.saveTask { root with status := .done, stoppingReason := some .completed }) := by
    unfold propagateCompletion
    dsimp only
    rw [hparent]
    exact completeFrom_done h.named hstored hinvestigation hsome hdone _
  have hrest : Quiet host none
      (s.saveTask { root with status := .done, stoppingReason := some .completed }) _ :=
    quiet_completeFrom s.store.tasks.length root.parentTaskId _
  obtain ⟨last, hlast, hcarries⟩ := hrest.found (GraphStore.getTask_saveTask s.store _)
  obtain ⟨hmem, hid⟩ := mem_of_getTask hlast
  rw [hcompleted]
  exact ⟨last, hmem, hid.trans hrootId, hcarries.stays hinvestigation rfl⟩

/-- What is tracked in a phase: a resolution in its retry loop is pending. -/
def Followed (config : PursuitConfig) (norm : String → String) (recorded : Recorded) (s : Pursuit) : Prop :=
  match s.phase with
  | .loop | .returned _ _ => Tracked norm recorded none s.store.tasks
  | .followUp task => Tracked norm recorded none s.store.tasks ∧ At s task ∧ task.kind = .followUp
  | .resolve task => Tracked norm recorded (some task.id) s.store.tasks ∧ At s task ∧
      task.kind = .resolution ∧ ((config.maxRetriesPerTask : Int) ≤ task.attemptCount →
        ∃ row, s.store.getTask task.id = some row ∧ row.status ≠ .done)
  | .raised _ => True

/-- A part of a pursuit, up to the next phase. -/
structure Goes (host : PursuitHost) (config : PursuitConfig) (norm : String → String) (recorded : Recorded)
    (s t : Pursuit) : Prop where
  unused : Function.Injective host.newId → Unused host s → Unused host t
  followed : Followed config norm recorded t

theorem quiet_phase (phase : Phase) : Quiet host pending s { s with phase := phase } :=
  quiet_idle rfl (le_refl _)

theorem followed_loop (hphase : s.phase = .loop) (h : Tracked norm recorded none s.store.tasks) :
    Followed config norm recorded s := by
  unfold Followed
  rw [hphase]
  exact h

theorem goes_loop (h : Tracked norm recorded none s.store.tasks) (hquiet : Quiet host none s t)
    (hphase : t.phase = .loop) : Goes host config norm recorded s t :=
  ⟨fun hinj => hquiet.unused hinj, followed_loop hphase (hquiet.tracked h)⟩

theorem phase_stop (task : Task) (reason : StoppingReason) (s : Pursuit) :
    (stop task reason s).phase = s.phase :=
  congrArg Counters.phase (counters_stop s task reason)

theorem phase_requeueParent (task : Task) (s : Pursuit) : (requeueParent task s).phase = s.phase :=
  congrArg Counters.phase (counters_requeueParent s task)

theorem phase_admitCall {text : String} {refused : Option StoppingReason}
    (h : admitCall host config task text s = (refused, t)) : t.phase = s.phase := by
  cases refused with
  | some reason => exact congrArg Counters.phase (counters_refused h)
  | none =>
    obtain ⟨-, -, hcounters, -⟩ := counters_admitted h
    exact congrArg Counters.phase hcounters

/-! ### Visits -/

theorem goes_visitInvestigation (h : Tracked norm recorded none s.store.tasks) (hloop : s.phase = .loop) :
    Goes host config norm recorded s (visitInvestigation task s) := by
  refine goes_loop h ?_ ((congrArg Counters.phase (counters_visitInvestigation s task)).trans hloop)
  unfold visitInvestigation
  dsimp only
  split
  · exact quiet_enqueue _
  · split
    · exact quiet_stopFor
    · exact .refl

theorem goes_visitFollowUp (h : Tracked norm recorded none s.store.tasks) (hloop : s.phase = .loop)
    (hrow : s.store.getTask task.id = some task) (hkind : task.kind = .followUp) :
    Goes host config norm recorded s (visitFollowUp host config task s) := by
  have hstop : ∀ {t : Pursuit} (reason : StoppingReason), Quiet host none s t → t.phase = .loop →
      Goes host config norm recorded s (stop task reason t) := by
    intro t reason hquiet hphase
    have hat := hquiet.at (at_of_row hrow)
    exact goes_loop h (hquiet.trans (quiet_stop hat (by rw [hkind]; decide)))
      ((phase_stop task reason t).trans hphase)
  unfold visitFollowUp
  split
  · exact goes_loop h quiet_requeueParent ((phase_requeueParent task s).trans hloop)
  · split
    · next reusable _ =>
      have hsave : Quiet host none s (s.saveTask (reusing task reusable)) := by
        refine quiet_save hrow (carries_of_kind rfl rfl ?_ fun _ => .inr (.inr ?_))
        · rw [hkind]; decide
        · rw [hkind]; decide
      exact goes_loop h (hsave.trans quiet_requeueParent) ((phase_requeueParent _ _).trans hloop)
    · split
      · exact hstop .lowConfidence .refl hloop
      · split
        · next reason t hadmit => exact hstop reason (quiet_admitCall hadmit) ((phase_admitCall hadmit).trans hloop)
        · next t hadmit =>
          have hquiet : Quiet host none s (configured config t) :=
            (quiet_admitCall hadmit).trans (quiet_idle rfl (le_refl _))
          have hphase : (configured config t).phase = .loop := (phase_admitCall hadmit).trans hloop
          have hadmitted : (configured config t).store.getTask task.id = some task := by
            obtain ⟨-, -, -, hstore⟩ := counters_admitted hadmit
            show t.store.getTask task.id = some task
            rw [hstore]
            exact hrow
          dsimp only
          split
          · split
            · exact goes_loop h (hquiet.trans quiet_stopFor) hphase
            · have hopened : Quiet host none s ((configured config t).saveTask (reopened task)) := by
                refine hquiet.trans (quiet_save hadmitted ⟨rfl, rfl, ?_, ?_⟩)
                · intro hinvestigation
                  rw [hkind] at hinvestigation
                  cases hinvestigation
                · intro _ hdone
                  cases hdone
              refine ⟨fun hinj => (hopened.trans (quiet_phase _)).unused hinj, hopened.tracked h, ?_, hkind⟩
              exact ⟨_, GraphStore.getTask_saveTask _ (reopened task), rfl⟩
          · refine ⟨fun hinj => (hquiet.trans (quiet_phase _)).unused hinj, hquiet.tracked h, ?_, hkind⟩
            exact ⟨task, hadmitted, rfl⟩

theorem goes_visitResolution (h : Tracked norm recorded none s.store.tasks) (hloop : s.phase = .loop)
    (hrow : s.store.getTask task.id = some task) (hkind : task.kind = .resolution) :
    Goes host config norm recorded s (visitResolution task s) := by
  have hstop : ∀ reason, Goes host config norm recorded s (stop task reason s) := by
    intro reason
    exact goes_loop h (quiet_stop (at_of_row hrow) (by rw [hkind]; decide)) ((phase_stop task reason s).trans hloop)
  unfold visitResolution
  split
  · exact goes_loop h .refl hloop
  · next hopen =>
    split
    · exact hstop .cycleDetected
    · dsimp only
      split
      · split
        · exact hstop _
        · exact goes_loop h ((quiet_enqueue _).trans (quiet_enqueue _)) hloop
      · split
        · exact goes_loop h quiet_stopFor hloop
        · split
          · have hopened : Quiet host none s (s.saveTask (reopened task)) := by
              refine quiet_save hrow ⟨rfl, rfl, ?_, ?_⟩
              · intro hinvestigation
                rw [hkind] at hinvestigation
                cases hinvestigation
              · intro _ hdone
                cases hdone
            have hsaved := GraphStore.getTask_saveTask s.store (reopened task)
            refine ⟨fun hinj => (hopened.trans (quiet_phase _)).unused hinj, (hopened.tracked h).attempt _, ?_, hkind, ?_⟩
            · exact ⟨_, hsaved, rfl⟩
            · exact fun _ => ⟨reopened task, hsaved, fun hdone => by cases hdone⟩
          · refine ⟨fun _ hunused => hunused, h.attempt _, ⟨task, hrow, rfl⟩, hkind, ?_⟩
            exact fun _ => ⟨task, hrow, hopen⟩

theorem quiet_routed (hrow : s.store.getTask task.id = some task) : Quiet host pending s (routed task s).2 := by
  unfold routed
  split
  · exact quiet_assess hrow
  · exact .refl

theorem routed_row (hrow : s.store.getTask task.id = some task) : (routed task s).2.phase = s.phase ∧
    (routed task s).2.store.getTask (routed task s).1.id = some (routed task s).1 := by
  unfold routed
  split
  · exact ⟨rfl, GraphStore.getTask_saveTask s.store (assessed s.store task)⟩
  · exact ⟨rfl, hrow⟩

theorem Goes.after (hquiet : Quiet host pending s t) {u : Pursuit}
    (h : Goes host config norm recorded t u) : Goes host config norm recorded s u :=
  ⟨fun hinj hunused => h.unused hinj (hquiet.unused hinj hunused), h.followed⟩

theorem goes_raise (hquiet : Quiet host pending s t) (e : PyError) :
    Goes host config norm recorded s (Pursuit.raise t e) :=
  ⟨fun hinj => (hquiet.trans (quiet_phase _)).unused hinj, trivial⟩

theorem goes_visit (h : Tracked norm recorded none s.store.tasks) (hloop : s.phase = .loop) (taskId : String) :
    Goes host config norm recorded s (visit host config taskId s) := by
  unfold visit
  split
  · exact goes_raise (.refl : Quiet host none s s) _
  · next task hfound =>
    have hrow : s.store.getTask task.id = some task := GraphStore.getTask_id hfound ▸ hfound
    have hquiet : Quiet host none s (routed task s).2 := quiet_routed hrow
    obtain ⟨hphase, hsaved⟩ := routed_row hrow
    have htracked := hquiet.tracked h
    have hloop' := hphase.trans hloop
    refine Goes.after hquiet ?_
    unfold visitTask
    split
    · exact goes_visitInvestigation htracked hloop'
    · next hkind => exact goes_visitFollowUp htracked hloop' hsaved hkind
    · next hkind => exact goes_visitResolution htracked hloop' hsaved hkind

/-! ### Attempts -/

theorem quiet_chargeExtra (before : Nat) : Quiet host pending s (chargeExtra before task s) := by
  unfold chargeExtra
  dsimp only
  split
  · exact quiet_idle rfl (le_refl _)
  · exact quiet_idle rfl (le_refl _)

theorem quiet_toLoop : Quiet host pending s (toLoop s) := quiet_idle rfl (le_refl _)

/-- The task of an attempt, as it is read again. -/
theorem at_reread (hat : At s task) : ∃ row, s.store.getTask task.id = some row ∧
    (s.store.getTask task.id).getD task = row ∧ row.id = task.id ∧ place row = place task := by
  obtain ⟨row, hrow, hplace⟩ := hat
  exact ⟨row, hrow, by rw [hrow]; rfl, GraphStore.getTask_id hrow, hplace⟩

theorem goes_stepFollowUp (h : Tracked norm recorded none s.store.tasks) (hat : At s task)
    (hkind : task.kind = .followUp) : Goes host config norm recorded s (stepFollowUp host config task s) := by
  have hquiet : Quiet host none s (executeFollowUp host task.id s).2 := quiet_executeFollowUp task.id
  unfold stepFollowUp
  generalize executeFollowUp host task.id s = outcome at hquiet
  obtain ⟨reply, done⟩ := outcome
  have hcharged : ∀ task', Quiet host none s (chargeExtra s.followUpCalls task' done) :=
    fun _ => hquiet.trans (quiet_chargeExtra _)
  cases reply with
  | ok _ =>
    exact goes_loop h ((hcharged task).trans (quiet_requeueParent.trans quiet_toLoop)) rfl
  | error e =>
    dsimp only
    split
    · exact goes_raise hquiet e
    · obtain ⟨row, hrow, hread, hid, hplace⟩ := at_reread ((hcharged task).at hat)
      rw [hread]
      split
      · have hcurrent : At (chargeExtra s.followUpCalls task done) { row with lastError := some e.message } :=
          ⟨row, hid ▸ hrow, rfl⟩
        have hrowKind : row.kind = .followUp := (congrArg Place.kind hplace).trans hkind
        refine goes_loop h ((hcharged task).trans ((quiet_stop hcurrent ?_).trans quiet_toLoop)) rfl
        show row.kind ≠ .investigation
        rw [hrowKind]
        decide
      · exact goes_loop h ((hcharged task).trans ((quiet_enqueue _).trans quiet_toLoop)) rfl

/-- A resolution that is stopped is not done. -/
theorem stop_open (host : PursuitHost) (hkind : task.kind = .resolution) (reason : StoppingReason) (s : Pursuit) :
    ∃ row, (stop task reason s).store.getTask task.id = some row ∧ row.status ≠ .done := by
  have hsaved := GraphStore.getTask_saveTask s.store (stopped task reason)
  have hrest : Quiet host none (s.saveTask (stopped task reason)) (stop task reason s) :=
    (quiet_markClusterUnresolved.trans quiet_propagateStopping).trans quiet_stopFor
  obtain ⟨row, hrow, hcarries⟩ := hrest.found hsaved
  refine ⟨row, hrow, fun hdone => ?_⟩
  obtain hbefore | hpending := hcarries.finishes hkind hdone
  · cases hbefore
  · cases hpending

theorem quiet_endResolution : Quiet host pending s (endResolution task s) := by
  unfold endResolution
  split
  · exact quiet_toLoop
  · exact (quiet_enqueue _).trans quiet_toLoop

theorem store_endResolution : (endResolution task s).store = s.store := by
  unfold endResolution
  split <;> rfl

theorem phase_endResolution (task : Task) (s : Pursuit) : (endResolution task s).phase = .loop :=
  congrArg Counters.phase (counters_endResolution s task)

/-- The end of the retry loop of a resolution that is not done. -/
theorem goes_endResolution (h : Tracked norm recorded (some taskId) s.store.tasks)
    (hquiet : Quiet host (some taskId) s t) {row : Task} (hrow : t.store.getTask taskId = some row)
    (hopen : row.status ≠ .done) : Goes host config norm recorded s (endResolution task t) := by
  refine ⟨fun hinj => (hquiet.trans quiet_endResolution).unused hinj, ?_⟩
  refine followed_loop (phase_endResolution task t) ?_
  rw [store_endResolution]
  exact (hquiet.tracked h).release_open hrow hopen

theorem quiet_reopened (hat : At s task) (hkind : task.kind = .resolution) :
    Quiet host pending s (s.saveTask (reopened task)) := by
  obtain ⟨old, hold, hplace⟩ := hat
  have hid := GraphStore.getTask_id hold
  refine quiet_save hold (carries_of_kind hid.symm hplace.symm ?_ fun hdone => by cases hdone)
  rw [show old.kind = .resolution from (congrArg Place.kind hplace).trans hkind]
  decide

theorem quiet_replan (hinj : Function.Injective host.newId) (hat : At s task) (hkind : task.kind = .resolution)
    (hunused : Unused host s) (result : ResolutionResult) :
    Quiet host pending s (replan host config task result s) := by
  unfold replan
  split
  · exact ((quiet_markClusterUnresolved.trans quiet_propagateStopping).trans quiet_stopFor).trans
      quiet_endResolution
  · have hcreated : Quiet host pending s
        (createFollowUps host config task result.unresolvedQuestions s).2 :=
      quiet_createFollowUps hinj hkind hat hunused _
    have hat' := hcreated.at hat
    dsimp only
    split
    · exact hcreated.trans ((quiet_reopened hat' hkind).trans
        (((quiet_enqueue _).trans (quiet_enqueue _)).trans quiet_endResolution))
    · split
      · exact hcreated.trans ((quiet_reopened hat' hkind).trans ((quiet_enqueue _).trans quiet_endResolution))
      · exact hcreated.trans ((quiet_stop hat' (by rw [hkind]; decide)).trans quiet_endResolution)

/-- An attempt that raised goes back to its loop, or stops. -/
theorem goes_retry (h : Tracked norm recorded (some task.id) s.store.tasks) (hat : At s task)
    (hkind : task.kind = .resolution) (e : PyError) :
    Goes host config norm recorded s (retry config (failedAttempt s.store task e) s) := by
  obtain ⟨row, hrow, hread, hid, hplace⟩ := at_reread hat
  generalize hcurrent : failedAttempt s.store task e = current
  have hsame : current.id = row.id ∧ place current = place row ∧ current.status = row.status := by
    rw [← hcurrent]
    unfold failedAttempt
    rw [hread]
    exact ⟨rfl, rfl, rfl⟩
  have hcurrentKind : current.kind = .resolution :=
    (congrArg Place.kind (hsame.2.1.trans hplace)).trans hkind
  have hcurrentId : current.id = task.id := hsame.1.trans hid
  have hsave : Quiet host (some task.id) s (s.saveTask current) :=
    quiet_save (hcurrentId ▸ hrow) (carries_same hsame.1 hsame.2.1 hsame.2.2)
  have hsaved := GraphStore.getTask_saveTask s.store current
  unfold retry
  dsimp only
  split
  · have hstop : Quiet host (some task.id) s (stop current .retryExhausted (s.saveTask current)) :=
      hsave.trans (quiet_stop ⟨current, hsaved, rfl⟩ (by rw [hcurrentKind]; decide))
    refine ⟨fun hinj => (hstop.trans (quiet_phase _)).unused hinj, ?_, ?_, hcurrentKind, fun _ => ?_⟩
    · exact hcurrentId ▸ hstop.tracked h
    · have hlater : Quiet host none (s.saveTask current) (stop current .retryExhausted (s.saveTask current)) :=
        quiet_stop ⟨current, hsaved, rfl⟩ (by rw [hcurrentKind]; decide)
      exact hlater.at ⟨current, hsaved, rfl⟩
    · exact stop_open host hcurrentKind .retryExhausted (s.saveTask current)
  · next hleft =>
    refine ⟨fun hinj => (hsave.trans (quiet_phase _)).unused hinj, ?_, ⟨current, hsaved, rfl⟩, hcurrentKind,
      fun hspent => absurd hspent hleft⟩
    exact hcurrentId ▸ hsave.tracked h

theorem goes_stepResolution (hinj : Function.Injective host.newId)
    (h : Tracked norm recorded (some task.id) s.store.tasks) (hat : At s task) (hkind : task.kind = .resolution)
    (hspent : (config.maxRetriesPerTask : Int) ≤ task.attemptCount →
      ∃ row, s.store.getTask task.id = some row ∧ row.status ≠ .done)
    (hunused : Unused host s) : Goes host config norm recorded s (stepResolution host config task s) := by
  unfold stepResolution
  split
  · split
    · next reason t hadmit =>
      have hadmitted : Quiet host (some task.id) s t := quiet_admitCall hadmit
      obtain ⟨row, hrow, hopen⟩ := stop_open host hkind reason t
      exact goes_endResolution h (hadmitted.trans (quiet_stop (hadmitted.at hat) (by rw [hkind]; decide))) hrow hopen
    · next t hadmit =>
      have hadmitted : Quiet host (some task.id) s t := quiet_admitCall hadmit
      obtain ⟨hattempt, houtcome⟩ : Quiet host (some task.id) t (executeResolution host task.id t).2 ∧ _ :=
        quiet_executeResolution task.id
      generalize executeResolution host task.id t = attempted at hattempt houtcome
      obtain ⟨reply, done⟩ := attempted
      have hcounted : Quiet host (some task.id) s
          { done with codexCalls := done.codexCalls + (done.resolutionCalls - t.resolutionCalls) } :=
        (hadmitted.trans hattempt).trans (quiet_idle rfl (le_refl _))
      have htracked := hcounted.tracked h
      have hat' := hcounted.at hat
      cases reply with
      | error e =>
        dsimp only
        split
        · exact goes_raise (hadmitted.trans hattempt) e
        · exact (goes_retry htracked hat' hkind e).after hcounted
      | ok answer =>
        obtain ⟨outcome, result⟩ := answer
        obtain ⟨hrow, hid, houtcomeKind, -⟩ := houtcome outcome result done rfl
        dsimp only
        rw [← hid] at htracked hcounted
        split
        · refine ⟨fun hinj => ((hcounted.trans quiet_propagateCompletion).trans quiet_endResolution).unused hinj, ?_⟩
          refine followed_loop (phase_endResolution outcome _) ?_
          rw [store_endResolution]
          exact htracked.complete host hrow
        · next hopen =>
          refine Goes.after hcounted (goes_loop (htracked.release_open hrow hopen) ?_
            (congrArg Counters.phase (counters_replan _ outcome host config result)))
          have hunused' := hcounted.unused hinj hunused
          refine quiet_replan hinj ?_ houtcomeKind hunused' result
          exact ⟨outcome, hrow, rfl⟩
  · next hleft =>
    obtain ⟨row, hrow, hopen⟩ := hspent (not_lt.mp hleft)
    exact goes_endResolution h .refl hrow hopen

/-! ## The run -/

/-- The step lemma. -/
theorem Followed.step (hinj : Function.Injective host.newId) (h : Followed config norm recorded s)
    (hunused : Unused host s) :
    Followed config norm recorded (Pursue.step host config s) ∧
      Unused host (Pursue.step host config s) := by
  suffices hgoes : (∃ e, s.phase = .raised e) ∨ Goes host config norm recorded s (Pursue.step host config s) by
    obtain ⟨e, hraised⟩ | hgoes := hgoes
    · have hsame : Pursue.step host config s = s := by
        unfold Pursue.step
        rw [hraised]
      rw [hsame]
      exact ⟨h, hunused⟩
    · exact ⟨hgoes.followed, hgoes.unused hinj hunused⟩
  unfold Followed at h
  cases hphase : s.phase with
  | loop =>
    rw [hphase] at h
    cases hqueue : s.queue with
    | nil =>
      rw [step_done hphase hqueue]
      unfold finish
      split
      · exact .inr (goes_raise (.refl : Quiet host none s s) _)
      · have htick : Quiet host none s (tick host s) := quiet_idle rfl (Nat.le_succ _)
        exact .inr ⟨fun hinj => (htick.trans (quiet_phase _)).unused hinj, htick.tracked h⟩
    | cons taskId queue =>
      rw [step_visit hphase hqueue]
      have hdequeued : Quiet host none s { s with queue := queue } := quiet_idle rfl (le_refl _)
      exact .inr ((goes_visit (hdequeued.tracked h) hphase taskId).after hdequeued)
  | followUp task =>
    rw [hphase] at h
    rw [step_followUp hphase]
    exact .inr (goes_stepFollowUp h.1 h.2.1 h.2.2)
  | resolve task =>
    rw [hphase] at h
    rw [step_resolve hphase]
    exact .inr (goes_stepResolution hinj h.1 h.2.1 h.2.2.1 h.2.2.2 hunused)
  | returned status reason =>
    rw [hphase] at h
    have hsame : Pursue.step host config s = s := by
      unfold Pursue.step
      rw [hphase]
    rw [hsame]
    exact .inr ⟨fun _ hunused => hunused, by unfold Followed; rw [hphase]; exact h⟩
  | raised e => exact .inl ⟨e, rfl⟩

theorem Followed.pursue (hinj : Function.Injective host.newId) (steps : Nat)
    (h : Followed config norm recorded s) (hunused : Unused host s) :
    Followed config norm recorded (Pursue.pursue host config steps s) ∧
      Unused host (Pursue.pursue host config steps s) := by
  induction steps with
  | zero => exact ⟨h, hunused⟩
  | succ steps ih =>
    rw [pursue_succ]
    exact ih.1.step hinj ih.2

theorem followed_start (config : PursuitConfig) {rootTaskId : String} {initial followUpCalls resolutionCalls : Nat}
    {investigator : Investigator} {store : GraphStore} (h : Tracked norm recorded none store.tasks)
    (hinj : Function.Injective host.newId) (hunused : ∀ task ∈ store.tasks, ∀ n, host.newId n ≠ task.id) :
    Followed config norm recorded (start rootTaskId initial investigator followUpCalls resolutionCalls store) ∧
      Unused host (start rootTaskId initial investigator followUpCalls resolutionCalls store) := by
  have hbegin : ∀ s : Pursuit, s.store = store → Unused host s := by
    intro s hstore task htask n _
    exact hunused task (hstore ▸ htask) n
  unfold start
  dsimp only
  split
  · exact ⟨trivial, hbegin _ rfl⟩
  · next root hroot =>
    have hquiet : Quiet host none _ (assess root _).2 :=
      quiet_assess (s := ⟨rootTaskId, store, { modelCallsUsed := initial }, investigator, followUpCalls,
        resolutionCalls, initial, [rootTaskId], none, .loop, 0, 0⟩) (GraphStore.getTask_id hroot ▸ hroot)
    exact ⟨followed_loop rfl (hquiet.tracked h), hquiet.unused hinj (hbegin _ rfl)⟩

/-- **A pursuit that returns leaves no investigation open whose resolutions are done.** -/
theorem Tracked.pursue {rootTaskId : String} {initial followUpCalls resolutionCalls steps : Nat}
    {investigator : Investigator} {store : GraphStore} {status : TaskStatus} {reason : StoppingReason}
    (h : Tracked norm recorded none store.tasks) (hinj : Function.Injective host.newId)
    (hunused : ∀ task ∈ store.tasks, ∀ n, host.newId n ≠ task.id)
    (hreturned : (pursue host config steps
      (start rootTaskId initial investigator followUpCalls resolutionCalls store)).phase =
        .returned status reason) :
    Tracked norm recorded none (pursue host config steps
      (start rootTaskId initial investigator followUpCalls resolutionCalls store)).store.tasks := by
  obtain ⟨hstart, hdrawn⟩ := followed_start config h hinj hunused
  have hend := (hstart.pursue hinj steps hdrawn).1
  unfold Followed at hend
  rw [hreturned] at hend
  exact hend

/-! ### An investigation that is done -/

/-- The pursuit of a root that is done, with resolutions in the queue that are done. -/
structure Settling (rootTaskId : String) (s : Pursuit) : Prop where
  loop : s.phase = .loop
  unstopped : s.stopReason = none
  asked : s.rootTaskId = rootTaskId
  root : ∃ task, s.store.getTask rootTaskId = some task ∧ task.status = .done
  queued : ∀ taskId ∈ s.queue, ∃ task, s.store.getTask taskId = some task ∧ task.kind = .resolution ∧
    task.status = .done

/-- An assessment changes no kind and no status. -/
theorem routed_same (hrow : s.store.getTask task.id = some task) {other : Task}
    (hother : s.store.getTask taskId = some other) :
    ∃ last, (routed task s).2.store.getTask taskId = some last ∧ last.kind = other.kind ∧
      last.status = other.status := by
  unfold routed
  split
  · by_cases hid : taskId = task.id
    · subst hid
      obtain rfl := Option.some.inj (hrow.symm.trans hother)
      exact ⟨assessed s.store task, GraphStore.getTask_saveTask s.store _, rfl, rfl⟩
    · have hsame : (assess task s).2.store.getTask taskId = s.store.getTask taskId :=
        find?_replaceRow_other hid
      exact ⟨other, hsame.trans hother, rfl, rfl⟩
  · exact ⟨other, hother, rfl, rfl⟩

theorem routed_counters (task : Task) (s : Pursuit) : (routed task s).2.phase = s.phase ∧
    (routed task s).2.stopReason = s.stopReason ∧ (routed task s).2.rootTaskId = s.rootTaskId ∧
    (routed task s).2.queue = s.queue ∧ (routed task s).1.kind = task.kind ∧
    (routed task s).1.status = task.status := by
  unfold routed
  split <;> exact ⟨rfl, rfl, rfl, rfl, rfl, rfl⟩

theorem Settling.routed {rootTaskId : String} (h : Settling rootTaskId s)
    (hrow : s.store.getTask task.id = some task) : Settling rootTaskId (Pursue.routed task s).2 := by
  obtain ⟨hphase, hreason, hroot, hqueue, -, -⟩ := routed_counters task s
  constructor
  case loop => rw [hphase]; exact h.loop
  case unstopped => rw [hreason]; exact h.unstopped
  case asked => rw [hroot]; exact h.asked
  case root =>
    obtain ⟨root, hfound, hdone⟩ := h.root
    obtain ⟨last, hlast, -, hstatus⟩ := routed_same hrow hfound
    exact ⟨last, hlast, hstatus.trans hdone⟩
  case queued =>
    intro taskId htaskId
    obtain ⟨other, hother, hkind, hdone⟩ := h.queued taskId (hqueue ▸ htaskId)
    obtain ⟨last, hlast, hsame, hstatus⟩ := routed_same hrow hother
    exact ⟨last, hlast, hsame.trans hkind, hstatus.trans hdone⟩

/-- A resolution that is done is passed over. -/
theorem Settling.visit (host : PursuitHost) (config : PursuitConfig) {rootTaskId : String} {queue : List String} (h : Settling rootTaskId s)
    (hqueue : s.queue = taskId :: queue) :
    Settling rootTaskId (Pursue.step host config s) ∧ (Pursue.step host config s).queue = queue := by
  obtain ⟨task, hfound, hkind, hdone⟩ := h.queued taskId (hqueue ▸ List.mem_cons_self)
  have hrow : s.store.getTask task.id = some task := GraphStore.getTask_id hfound ▸ hfound
  have hdequeued : Settling rootTaskId { s with queue := queue } :=
    { h with queued := fun id hid => h.queued id (hqueue ▸ List.mem_cons_of_mem _ hid) }
  obtain ⟨-, -, -, hrest, hsameKind, hsameStatus⟩ := routed_counters task { s with queue := queue }
  have hvisit : Pursue.step host config s = (Pursue.routed task { s with queue := queue }).2 := by
    rw [step_visit h.loop hqueue]
    unfold Pursue.visit
    rw [show ({ s with queue := queue } : Pursuit).store.getTask taskId = some task from hfound]
    unfold visitTask
    dsimp only
    rw [hsameKind, hkind]
    exact if_pos (hsameStatus.trans hdone)
  rw [hvisit]
  exact ⟨hdequeued.routed hrow, hrest⟩

theorem Settling.returns (host : PursuitHost) (config : PursuitConfig) {rootTaskId : String} (h : Settling rootTaskId s) :
    ∃ steps, (Pursue.pursue host config steps s).phase = .returned .done .completed ∧
      ∃ task, (Pursue.pursue host config steps s).store.getTask rootTaskId = some task ∧
        task.status = .done := by
  generalize hqueue : s.queue = queue
  induction queue generalizing s with
  | nil =>
    obtain ⟨task, hfound, hdone⟩ := h.root
    have hfinish : Pursue.step host config s =
        { tick host s with phase := .returned .done .completed } := by
      rw [step_done h.loop hqueue]
      unfold finish
      rw [h.asked, hfound]
      dsimp only
      rw [h.unstopped, hdone]
      rfl
    refine ⟨1, ?_⟩
    show (Pursue.step host config s).phase = _ ∧ ∃ task, (Pursue.step host config s).store.getTask _ = some task ∧ _
    rw [hfinish]
    exact ⟨rfl, task, hfound, hdone⟩
  | cons taskId queue ih =>
    obtain ⟨hnext, hrest⟩ := h.visit host config hqueue
    obtain ⟨steps, hreturned⟩ := ih hnext hrest
    exact ⟨steps + 1, hreturned⟩

theorem routed_eq (h : task.route ≠ none) : Pursue.routed task s = (task, s) := if_neg h

theorem mem_appendNew {queue ids : List String} : taskId ∈ appendNew queue ids ↔ taskId ∈ queue ∨ taskId ∈ ids := by
  unfold appendNew
  induction ids generalizing queue with
  | nil => simp
  | cons id ids ih =>
    rw [List.foldl_cons, ih, List.mem_cons]
    split
    · next hmem =>
      constructor
      · exact fun h => h.imp_right .inr
      · rintro (h | rfl | h)
        · exact .inl h
        · exact .inl hmem
        · exact .inr h
    · rw [List.mem_append, List.mem_singleton, or_assoc]

/-- The children of an investigation that is done are queued. -/
theorem Settling.begin (hids : (s.store.tasks.map (·.id)).Nodup) (hloop : s.phase = .loop) (hstop : s.stopReason = none)
    (hasked : s.rootTaskId = task.id) (hqueue : s.queue = [task.id])
    (hrow : s.store.getTask task.id = some task) (hroute : task.route ≠ none) (hkind : task.kind = .investigation)
    (hdone : task.status = .done)
    (hchildren : ∀ child ∈ s.store.tasks, child.parentTaskId = some task.id →
      child.kind = .resolution ∧ child.status = .done) :
    Settling task.id (Pursue.step host config s) := by
  have hvisit : Pursue.step host config s = visitInvestigation task { s with queue := [] } := by
    rw [step_visit hloop hqueue]
    unfold Pursue.visit
    rw [show ({ s with queue := [] } : Pursuit).store.getTask task.id = some task from hrow]
    dsimp only
    rw [routed_eq hroute]
    unfold visitTask
    rw [hkind]
  rw [hvisit]
  unfold visitInvestigation
  dsimp only
  split
  · refine ⟨hloop, hstop, hasked, ⟨task, hrow, hdone⟩, fun id hid => ?_⟩
    have hmem := (mem_appendNew.mp ((List.mergeSort_perm _ _).mem_iff.mp hid)).resolve_left (List.not_mem_nil)
    obtain ⟨child, hchild, rfl⟩ := List.mem_map.mp hmem
    obtain ⟨hstored, hbelow⟩ := List.mem_filter.mp hchild
    exact ⟨child, getTask_of_mem hids hstored, hchildren child hstored (by simpa using hbelow)⟩
  · rw [if_neg (by rw [hdone]; decide)]
    exact ⟨hloop, hstop, hasked, ⟨task, hrow, hdone⟩, fun id hid => by cases hid⟩

/-- **Once its resolutions are done, a pursuit of an investigation returns with it done.** -/
theorem pursue_of_done {initial followUpCalls resolutionCalls : Nat} {investigator : Investigator}
    {store : GraphStore} (h : Tracked norm recorded none store.tasks)
    (hall : ∀ child ∈ store.tasks, child.parentTaskId = some recorded.taskId → child.status = .done) :
    ∃ steps, (pursue host config steps (start recorded.taskId initial investigator followUpCalls
        resolutionCalls store)).phase = .returned .done .completed ∧
      ∃ task, (pursue host config steps (start recorded.taskId initial investigator followUpCalls
        resolutionCalls store)).store.getTask recorded.taskId = some task ∧ task.status = .done := by
  obtain ⟨root, hroot, hid, hdone⟩ := h.closed fun child hchild hbelow => ⟨hall child hchild hbelow, by rintro ⟨⟩⟩
  obtain ⟨known, hknown, hknownId, hkind⟩ := h.root
  obtain rfl := eq_of_id h.ids hknown hroot (hknownId.trans hid.symm)
  have hfound : store.getTask recorded.taskId = some known := hid ▸ getTask_of_mem h.ids hroot
  unfold start
  dsimp only
  rw [hfound]
  dsimp only
  have hsaved : (store.saveTask (assessed store known)).getTask (assessed store known).id =
      some (assessed store known) := GraphStore.getTask_saveTask store (assessed store known)
  have hchildren : ∀ child ∈ (store.saveTask (assessed store known)).tasks,
      child.parentTaskId = some (assessed store known).id → child.kind = .resolution ∧ child.status = .done := by
    intro child hchild hbelow
    rw [show (assessed store known).id = recorded.taskId from hid] at hbelow
    rcases mem_replaceRow.mp hchild with ⟨hmem, -⟩ | rfl
    · exact ⟨(h.children child hmem hbelow).1, hall child hmem hbelow⟩
    · have hresolution := (h.children known hroot hbelow).1
      rw [hkind] at hresolution
      cases hresolution
  have hsettling : Settling (assessed store known).id (Pursue.step host config (assess known
      ⟨recorded.taskId, store, { modelCallsUsed := initial }, investigator, followUpCalls, resolutionCalls,
        initial, [recorded.taskId], none, .loop, 0, 0⟩).2) :=
    Settling.begin (nodup_replaceRow h.ids) rfl rfl hid.symm (congrArg (fun id => [id]) hid.symm) hsaved
      (by rintro ⟨⟩) hkind hdone hchildren
  rw [show (assessed store known).id = recorded.taskId from hid] at hsettling
  obtain ⟨steps, hreturned⟩ := hsettling.returns host config
  exact ⟨steps + 1, hreturned⟩

end

end RlmGraph.Runner.Lineage
