import RlmGraph.Scheduler.Effects

/-! # The life of a work item

Two laws of a work item over the runs of the scheduler: once its cancellation
has been requested it never runs again, and once its status is terminal it
keeps that status. Neither holds of every run. A restart turns a pending
cancellation into interrupted work, which `resume` puts back into the queue;
`complete`, `cancel` and `checkpoint` do not look at the status they replace.
Each law is proved under the condition that these calls are not made, and for
the second one the condition is shown to be exact. -/
namespace RlmGraph.Scheduler.Lifecycle
open RlmGraph.Lib.PyText RlmGraph.Lib.Programs
open RlmGraph.Scheduler.Work RlmGraph.Scheduler.Effects

variable {host : SchedulerHost} {limits : SchedulerLimits} {sur : Surroundings}
  {work : ScheduledWorkTable} {call : Call} {itemId : String}

/-- The status of an item. -/
def statusOf (work : ScheduledWorkTable) (itemId : String) : Option WorkStatus :=
  (work.lookup itemId).map (·.status)

theorem status_of_lookup {item : ScheduledWorkItem} {status : WorkStatus}
    (hitem : work.lookup itemId = some item) (h : statusOf work itemId = some status) :
    item.status = status := by
  rw [statusOf, hitem] at h
  exact Option.some.inj h

/-- Whether a call returned. -/
def accepted (host : SchedulerHost) (limits : SchedulerLimits) (sur : Surroundings) (call : Call)
    (work : ScheduledWorkTable) : Bool :=
  match call.reply host limits sur work with
  | .ok _ => true
  | .error _ => false

/-! ## Requested cancellations -/

/-- An item that a requested cancellation keeps from running. -/
structure Stopped (item : ScheduledWorkItem) : Prop where
  flag : item.cancellationRequested = true
  status : item.status = .cancellationRequested ∨ item.status = .interrupted ∨
    item.status.terminal = true

theorem Stopped.not_running {item : ScheduledWorkItem} (h : Stopped item) :
    item.status ≠ .running := by
  intro hrunning
  rcases h.status with h | h | h <;>
  · rw [hrunning] at h
    cases h

theorem Stopped.not_waiting {item : ScheduledWorkItem} (h : Stopped item) :
    item.status.waiting = false := by
  rcases h.status with h | h | h
  · rw [h]
    rfl
  · rw [h]
    rfl
  · revert h
    cases item.status <;> intro h <;> first | rfl | cases h

/-- The call does not put the item back into the queue when its cancellation was
requested before a restart. -/
def NoRequestedResume (itemId : String) (work : ScheduledWorkTable) (made : Surroundings × Call) :
    Prop :=
  ∀ item, made.2 = .resume itemId → work.lookup itemId = some item →
    item.status = .interrupted → item.resumable = true → item.cancellationRequested = false

theorem terminal_of_completionStatus {text : String} {status : WorkStatus}
    (h : completionStatus text = .ok status) : status.terminal = true := by
  unfold completionStatus at h
  split_ifs at h
  · cases h
    rfl
  · cases h
    rfl

/-- **The step**: a stopped item stays stopped. -/
theorem stopped_after (host : SchedulerHost) (limits : SchedulerLimits) (sur : Surroundings)
    {old : ScheduledWorkItem} (hfresh : call.Fresh work)
    (hresume : NoRequestedResume itemId work (sur, call)) (hold : work.lookup itemId = some old)
    (hstopped : Stopped old) :
    ∃ new, (call.after host limits sur work).lookup itemId = some new ∧ Stopped new := by
  obtain ⟨new, hnew, hchange⟩ := item_after host limits sur hfresh
    hold
  refine ⟨new, hnew, ?_⟩
  rcases hchange with rfl | hchange | ⟨hstart, -⟩
  · exact hstopped
  · cases hchange with
    | blocked _ hwaiting _ _ =>
      rw [hstopped.not_waiting] at hwaiting
      cases hwaiting
    | recorded hstatus hflag => exact ⟨hflag.trans hstopped.flag, hstatus ▸ hstopped.status⟩
    | completed hstatus _ hflag =>
      exact ⟨hflag.trans hstopped.flag, Or.inr (Or.inr (terminal_of_completionStatus hstatus))⟩
    | cancelled _ _ hstatus hflag => exact ⟨hflag, Or.inr (Or.inr (by rw [hstatus]; rfl))⟩
    | requested _ hstatus hflag => exact ⟨hflag, Or.inl hstatus⟩
    | resumed hinterrupted hresumable _ _ =>
      obtain rfl := ScheduledWorkTable.id_of_lookup hold
      have hflag := hresume old rfl hold hinterrupted hresumable
      rw [hstopped.flag] at hflag
      cases hflag
    | interrupted _ hstatus hflag => exact ⟨hflag.trans hstopped.flag, Or.inr (Or.inl hstatus)⟩
  · have hwaiting := hstart.waiting
    rw [hstopped.not_waiting] at hwaiting
    cases hwaiting

theorem stopped_runCalls {old : ScheduledWorkItem} (calls : List (Surroundings × Call))
    (hsteps : EveryStep host limits (fun work made => made.2.Fresh work ∧ NoRequestedResume itemId work made)
      calls work) (hold : work.lookup itemId = some old) (hstopped : Stopped old) :
    ∃ new, (runCalls host limits calls work).lookup itemId = some new ∧ Stopped new := by
  induction calls generalizing work old with
  | nil => exact ⟨old, hold, hstopped⟩
  | cons made calls ih =>
    obtain ⟨hfresh, hresume⟩ := hsteps.head
    obtain ⟨new, hnew, hstopped⟩ := stopped_after host limits made.1 hfresh hresume
      hold hstopped
    exact ih hsteps.tail hnew hstopped

/-- An accepted request stops an item that is not terminal. -/
theorem stopped_of_accepted {item : ScheduledWorkItem} {actor reason : String}
    (hitem : work.lookup itemId = some item) (hterminal : item.status.terminal = false)
    (haccepted : accepted host limits sur (.requestCancellation itemId actor reason) work = true) :
    ∃ new, ((Call.requestCancellation itemId actor reason).after host limits sur work).lookup
      itemId = some new ∧ Stopped new := by
  unfold accepted at haccepted
  have hrun : ∀ items, (Call.requestCancellation itemId actor reason).reply host limits sur work =
      .ok items → ∃ new, ((Call.requestCancellation itemId actor reason).after host limits sur
        work).lookup itemId = some new ∧ Stopped new := by
    refine Act.wp_run (G := fun _ _ => True) (Q := fun r after => ∀ items, r = .ok items →
      ∃ new, ScheduledWorkTable.lookup after itemId = some new ∧ Stopped new) ?_
    have hsaved : ∀ new : ScheduledWorkItem, new.id = itemId → Stopped new →
        ∃ found, (work.save new).lookup itemId = some found ∧ Stopped found := by
      rintro new rfl hstopped
      exact ⟨new, ScheduledWorkTable.lookup_save_self, hstopped⟩
    have hid := ScheduledWorkTable.id_of_lookup hitem
    unfold Call.program Work.requestCancellation
    rw [Act.wp_bind]
    refine wp_get (fun found hfound => ?_) fun _ _ h => by cases h
    rw [hitem] at hfound
    cases hfound
    rw [Act.wp_ite, if_neg (by simp [hterminal])]
    refine Act.wp_check (fun _ => ?_) fun _ _ h => by cases h
    rw [Act.wp_ite]
    split
    · refine wp_cancelCurrent (show SameWork item _ from ⟨rfl, rfl, rfl, rfl⟩)
        (fun new hsame _ hstatus hflag => ?_) fun _ _ h => by cases h
      exact fun _ _ => hsaved new (hsame.id.trans hid) ⟨hflag, Or.inr (Or.inr (by rw [hstatus]; rfl))⟩
    · refine wp_save ?_
      exact fun _ _ => hsaved _ hid ⟨rfl, Or.inl rfl⟩
  cases hreply : (Call.requestCancellation itemId actor reason).reply host limits sur work with
  | ok items => exact hrun items hreply
  | error e =>
    rw [hreply] at haccepted
    cases haccepted

/-- **Cancelled work never runs again**, as long as no `resume` takes it back
into the queue after its cancellation was requested: after an accepted request
for an item that is not terminal, it is not running after any later calls. -/
theorem cancelled_work_never_runs (host : SchedulerHost) (limits : SchedulerLimits)
    (sur : Surroundings) (work : ScheduledWorkTable) (itemId actor reason : String)
    (item : ScheduledWorkItem) (later : List (Surroundings × Call))
    (hitem : work.lookup itemId = some item) (hterminal : item.status.terminal = false)
    (haccepted : accepted host limits sur (.requestCancellation itemId actor reason) work = true)
    (hsteps : EveryStep host limits (fun work made => made.2.Fresh work ∧ NoRequestedResume itemId work made)
      later ((Call.requestCancellation itemId actor reason).after host limits sur work)) :
    ∀ first rest, later = first ++ rest →
      statusOf (runCalls host limits first
        ((Call.requestCancellation itemId actor reason).after host limits sur work)) itemId ≠
          some .running := by
  intro first rest hlater hrunning
  obtain ⟨requested, hrequested, hstopped⟩ := stopped_of_accepted hitem hterminal haccepted
  obtain ⟨new, hnew, hstopped⟩ := stopped_runCalls first
    (fun earlier made between h => hsteps earlier made (between ++ rest) (by rw [hlater, h]; simp))
    hrequested hstopped
  rw [statusOf, hnew] at hrunning
  exact hstopped.not_running (Option.some.inj hrunning)

/-- The run behind the condition: running work whose cancellation was requested
is interrupted by a restart, resumed and claimed again. -/
def rerun : List Call :=
  [.restoreInterrupted, .resume "w", .claimNext]

def here (calls : List Call) : List (Surroundings × Call) := calls.map (plainSurroundings, ·)

/-- The table with the one item of the small instance enqueued and claimed. -/
def claimedWork : ScheduledWorkTable :=
  runCalls plainHost {} (here [.enqueue { ticketId := "t", workKind := "validate" } "w", .claimNext])
    ScheduledWorkTable.empty

theorem cancelled_work_runs_again :
    statusOf claimedWork "w" = some .running ∧
      accepted plainHost {} plainSurroundings (.requestCancellation "w" "operator" "stop")
        claimedWork = true ∧
      statusOf (runCalls plainHost {} (here rerun)
        ((Call.requestCancellation "w" "operator" "stop").after plainHost {} plainSurroundings
          claimedWork)) "w" = some .running := by
  decide +kernel

/-- The running item is cancelled at its next checkpoint; nobody can resume it
then. -/
def refusedResume : List Call :=
  [.checkpoint "w" "RUN" "halfway" 0 0 [], .resume "w", .restoreInterrupted, .claimNext]

theorem cancelled_work_never_runs_refusedResume :
    accepted plainHost {} plainSurroundings (.resume "w") (runCalls plainHost {}
      (here (refusedResume.take 1)) ((Call.requestCancellation "w" "operator" "stop").after plainHost
        {} plainSurroundings claimedWork)) = false ∧
    statusOf (runCalls plainHost {} (here refusedResume)
      ((Call.requestCancellation "w" "operator" "stop").after plainHost {} plainSurroundings
        claimedWork)) "w" ≠ some .running := by
  obtain ⟨item, hitem, hstatus⟩ : ∃ item, claimedWork.lookup "w" = some item ∧
      item.status = .running := Option.map_eq_some_iff.mp (by decide +kernel)
  refine ⟨by decide +kernel, cancelled_work_never_runs plainHost {} plainSurroundings claimedWork "w"
    "operator" "stop" item (here refusedResume) hitem (by rw [hstatus]; rfl) (by decide +kernel) ?_
    (here refusedResume) [] (List.append_nil _).symm⟩
  refine everyStep_cons ⟨trivial, fun _ h => by cases h⟩ (everyStep_cons ⟨trivial, ?_⟩
    (everyStep_cons ⟨trivial, fun _ h => by cases h⟩
      (everyStep_cons ⟨trivial, fun _ h => by cases h⟩ everyStep_nil)))
  intro found _ hfound hinterrupted
  have hcancelled : statusOf (runCalls plainHost {} (here (refusedResume.take 1))
      ((Call.requestCancellation "w" "operator" "stop").after plainHost {} plainSurroundings
        claimedWork)) "w" = some .cancelled := by decide +kernel
  rw [status_of_lookup hfound hcancelled] at hinterrupted
  cases hinterrupted

/-! ## Terminal statuses -/

/-- Every terminal status of a table is still there in another. -/
def KeepsTerminal (work after : ScheduledWorkTable) : Prop :=
  ∀ itemId item, work.lookup itemId = some item → item.status.terminal = true →
    statusOf after itemId = some item.status

/-- A call that comes late for an item: the item is in a terminal status, and the
call writes another one. -/
inductive Late (host : SchedulerHost) (work : ScheduledWorkTable) :
    Surroundings × Call → Prop
  | complete {sur : Surroundings} {item : ScheduledWorkItem} {asked : WorkStatus}
      {itemId status detail : String} (hitem : work.lookup itemId = some item)
      (hterminal : item.status.terminal = true)
      (hasked : completionStatus (upper host.text status) = .ok asked) (hother : asked ≠ item.status)
      (hdispose : Disposable host sur item) : Late host work (sur, .complete itemId status detail)
  | cancel {sur : Surroundings} {item : ScheduledWorkItem} {itemId actor reason : String}
      (hitem : work.lookup itemId = some item) (hterminal : item.status.terminal = true)
      (hother : item.status ≠ .cancelled) (hdispose : Disposable host sur item) :
      Late host work (sur, .cancel itemId actor reason)
  | checkpoint {sur : Surroundings} {item : ScheduledWorkItem} {itemId stage detail : String}
      {workerCalls wallTime : Int} {evidence : List String}
      (hitem : work.lookup itemId = some item) (hterminal : item.status.terminal = true)
      (hother : item.status ≠ .cancelled) (hpending : item.cancellationRequested = true)
      (hdispose : Disposable host sur item) :
      Late host work (sur, .checkpoint itemId stage detail workerCalls wallTime evidence)

theorem statusOf_save {new : ScheduledWorkItem} (hid : new.id = itemId) :
    statusOf (work.save new) itemId = some new.status := by
  unfold statusOf
  rw [← hid, ScheduledWorkTable.lookup_save_self]
  rfl

section
variable {item : ScheduledWorkItem}

theorem wp_cancel_status {actor reason : String} (hitem : work.lookup itemId = some item)
    (hdispose : Disposable host sur item) :
    (Work.cancel host sur itemId actor reason).wp stored
      (fun _ _ after => statusOf after itemId = some .cancelled) () work := by
  unfold Work.cancel
  refine wp_get (fun found hfound => ?_) fun hmissing => ?_
  · rw [hitem] at hfound
    cases hfound
    refine wp_computed (fun new hnew => wp_save ?_) fun e herror => ?_
    · obtain ⟨hsame, -, hstatus, -⟩ := cancel_ok hnew
      have hid := hsame.id.trans (ScheduledWorkTable.id_of_lookup hitem)
      exact (statusOf_save hid).trans (congrArg some hstatus)
    · obtain ⟨disposed, hdisposed⟩ := hdispose
      unfold ScheduledWorkItem.cancel at herror
      rw [hdisposed] at herror
      cases herror
  · rw [hitem] at hmissing
    cases hmissing

theorem wp_checkpoint_status {stage detail : String} {workerCalls wallTime : Int}
    {evidence : List String} (hitem : work.lookup itemId = some item)
    (hpending : item.cancellationRequested = true) (hdispose : Disposable host sur item) :
    (Work.checkpoint host sur itemId stage detail workerCalls wallTime evidence).wp stored
      (fun _ _ after => statusOf after itemId = some .cancelled) () work := by
  unfold Work.checkpoint
  refine wp_get (fun found hfound => ?_) fun hmissing => ?_
  · rw [hitem] at hfound
    cases hfound
    rw [Act.wp_ite, if_pos hpending]
    obtain rfl := ScheduledWorkTable.id_of_lookup hitem
    exact Act.wp_seq (wp_cancel_status hitem hdispose) (fun _ _ _ h => h) fun _ _ _ h => h
  · rw [hitem] at hmissing
    cases hmissing

theorem wp_complete_status {status detail : String} {asked : WorkStatus}
    (hitem : work.lookup itemId = some item)
    (hasked : completionStatus (upper host.text status) = .ok asked)
    (hdispose : Disposable host sur item) :
    (Work.complete host sur itemId status detail).wp stored
      (fun _ _ after => statusOf after itemId = some asked) () work := by
  unfold Work.complete
  rw [hasked]
  refine wp_get (fun found hfound => ?_) fun hmissing => ?_
  · rw [hitem] at hfound
    cases hfound
    refine wp_computed (fun new hnew => wp_save ?_) fun e herror => ?_
    · obtain ⟨hsame, -, hstatus, -⟩ := complete_ok hnew
      have hid := hsame.id.trans (ScheduledWorkTable.id_of_lookup hitem)
      exact (statusOf_save hid).trans (congrArg some hstatus)
    · obtain ⟨disposed, hdisposed⟩ := hdispose
      unfold ScheduledWorkItem.complete at herror
      rw [hdisposed] at herror
      cases herror
  · rw [hitem] at hmissing
    cases hmissing

/-- The status a program ends with is the status after its call. -/
theorem statusOf_after {x : SchedulerAct ScheduledWorkItem} {status : WorkStatus}
    (hprogram : call.program host limits sur = x >>= fun item => pure [item])
    (hx : x.wp stored (fun _ _ after => statusOf after itemId = some status) () work) :
    statusOf (call.after host limits sur work) itemId = some status := by
  unfold Call.after
  rw [hprogram]
  exact Act.wp_run (G := fun _ _ => True) (Q := fun _ after => statusOf after itemId = some status)
    (wp_return hx)

end

/-- **A late call takes a terminal status away.** -/
theorem not_keepsTerminal_of_late (limits : SchedulerLimits) (h : Late host work (sur, call)) :
    ¬KeepsTerminal work (call.after host limits sur work) := by
  intro hkeeps
  cases h with
  | @complete _ item asked itemId status detail hitem hterminal hasked hother hdispose =>
    have hafter : statusOf ((Call.complete itemId status detail).after host limits sur work)
        itemId = some asked :=
      statusOf_after rfl (wp_complete_status hitem hasked hdispose)
    rw [hkeeps _ _ hitem hterminal] at hafter
    exact hother (Option.some.inj hafter).symm
  | @cancel _ item itemId actor reason hitem hterminal hother hdispose =>
    have hafter : statusOf ((Call.cancel itemId actor reason).after host limits sur work)
        itemId = some .cancelled :=
      statusOf_after rfl (wp_cancel_status hitem hdispose)
    rw [hkeeps _ _ hitem hterminal] at hafter
    exact hother (Option.some.inj hafter)
  | @checkpoint _ item itemId stage detail workerCalls wallTime evidence hitem hterminal hother
      hpending hdispose =>
    have hafter : statusOf ((Call.checkpoint itemId stage detail workerCalls wallTime
        evidence).after host limits sur work) itemId = some .cancelled :=
      statusOf_after rfl (wp_checkpoint_status hitem hpending hdispose)
    rw [hkeeps _ _ hitem hterminal] at hafter
    exact hother (Option.some.inj hafter)

theorem not_terminal_of_waiting {status : WorkStatus} (h : status.waiting = true) :
    status.terminal = false := by
  cases status <;> first | rfl | cases h

theorem not_terminal_of_idle {status : WorkStatus} (h : status.idle = true) :
    status.terminal = false := by
  cases status <;> first | rfl | cases h

theorem not_terminal_of_active {status : WorkStatus} (h : status.active = true) :
    status.terminal = false := by
  cases status <;> first | rfl | cases h

/-- A change of a terminal status is made by a late call. -/
theorem status_eq_of_not_late {old new : ScheduledWorkItem} (hold : work.lookup old.id = some old)
    (hterminal : old.status.terminal = true) (hchange : Change host sur old new call)
    (hlate : ¬Late host work (sur, call)) : new.status = old.status := by
  cases hchange with
  | blocked _ hwaiting _ _ =>
    rw [not_terminal_of_waiting hwaiting] at hterminal
    cases hterminal
  | recorded hstatus _ => exact hstatus
  | completed hasked hdispose _ =>
    by_contra hother
    exact hlate (.complete hold hterminal hasked hother hdispose)
  | cancelled hcall hdispose hstatus _ =>
    rw [hstatus]
    by_contra hother
    cases call with
    | cancel itemId actor reason =>
      obtain rfl : itemId = old.id := hcall
      exact hlate (.cancel hold hterminal (Ne.symm hother) hdispose)
    | requestCancellation itemId actor reason =>
      rw [not_terminal_of_idle hcall.2] at hterminal
      cases hterminal
    | checkpoint itemId stage detail workerCalls wallTime evidence =>
      obtain ⟨rfl, hpending⟩ : itemId = old.id ∧ old.cancellationRequested = true := hcall
      exact hlate (.checkpoint hold hterminal (Ne.symm hother) hpending hdispose)
    | _ => exact hcall.elim
  | requested hactive _ _ =>
    rw [not_terminal_of_active hactive] at hterminal
    cases hterminal
  | resumed hinterrupted _ _ _ =>
    rw [hinterrupted] at hterminal
    cases hterminal
  | interrupted hactive _ _ =>
    rw [not_terminal_of_active hactive] at hterminal
    cases hterminal

/-- A call that is not late takes none away. -/
theorem keepsTerminal_of_not_late (hfresh : call.Fresh work) (hlate : ¬Late host work (sur, call)) :
    KeepsTerminal work (call.after host limits sur work) := by
  intro itemId old hold hterminal
  obtain ⟨new, hnew, hchange⟩ := item_after host limits sur hfresh
    hold
  obtain rfl := ScheduledWorkTable.id_of_lookup hold
  unfold statusOf
  rw [hnew]
  refine congrArg some ?_
  rcases hchange with rfl | hchange | ⟨hstart, -⟩
  · rfl
  · exact status_eq_of_not_late hold hterminal hchange hlate
  · rw [not_terminal_of_waiting hstart.waiting] at hterminal
    cases hterminal

theorem KeepsTerminal.trans {first middle last : ScheduledWorkTable}
    (hearlier : KeepsTerminal first middle) (hlater : KeepsTerminal middle last) :
    KeepsTerminal first last := by
  intro itemId item hitem hterminal
  have hmiddle := hearlier itemId item hitem hterminal
  obtain ⟨found, hfound, hstatus⟩ := Option.map_eq_some_iff.mp hmiddle
  rw [← hstatus] at hterminal ⊢
  exact hlater itemId found hfound hterminal

/-- Terminal statuses are absorbing along a run: what is terminal after some of
its calls has the same status after more of them. -/
def Absorbing (host : SchedulerHost) (limits : SchedulerLimits) (calls : List (Surroundings × Call))
    (work : ScheduledWorkTable) : Prop :=
  ∀ first second rest, calls = first ++ second ++ rest →
    KeepsTerminal (runCalls host limits first work) (runCalls host limits (first ++ second) work)

theorem keepsTerminal_runCalls {calls : List (Surroundings × Call)}
    (hfresh : EveryStep host limits (fun work made => made.2.Fresh work) calls work)
    (hlate : EveryStep host limits (fun work made => ¬Late host work made) calls work) :
    KeepsTerminal work (runCalls host limits calls work) := by
  induction calls generalizing work with
  | nil =>
    intro itemId item hitem _
    unfold statusOf
    rw [show runCalls host limits [] work = work from rfl, hitem]
    rfl
  | cons made calls ih =>
    exact (keepsTerminal_of_not_late hfresh.head hlate.head).trans (ih hfresh.tail hlate.tail)

/-- **Terminal statuses are absorbing exactly when no call comes late**, in every
run from a store without scheduled work whose new identifiers are new. -/
theorem absorbing_iff_no_late_call (host : SchedulerHost) (limits : SchedulerLimits)
    (calls : List (Surroundings × Call))
    (hfresh : EveryStep host limits (fun work made => made.2.Fresh work) calls
      ScheduledWorkTable.empty) :
    Absorbing host limits calls ScheduledWorkTable.empty ↔
      EveryStep host limits (fun work made => ¬Late host work made) calls
        ScheduledWorkTable.empty := by
  constructor
  · intro habsorbing earlier made later hcalls hlate
    refine not_keepsTerminal_of_late limits hlate ?_
    have hstep := habsorbing earlier [made] later (by rw [hcalls]; simp)
    rw [runCalls_append] at hstep
    exact hstep
  · intro hlate first second rest hcalls
    rw [runCalls_append]
    refine keepsTerminal_runCalls ?_ ?_
    · intro earlier made later hsecond
      rw [← runCalls_append]
      exact hfresh (first ++ earlier) made (later ++ rest) (by rw [hcalls, hsecond]; simp)
    · intro earlier made later hsecond
      rw [← runCalls_append]
      exact hlate (first ++ earlier) made (later ++ rest) (by rw [hcalls, hsecond]; simp)

/-- Work that completes; it is reported completed again, and its cancellation is
asked for, when it is over. -/
def timelyCalls : List Call :=
  [.enqueue { ticketId := "t", workKind := "validate" } "w", .claimNext,
    .complete "w" "completed" "done", .complete "w" "completed" "done",
    .requestCancellation "w" "operator" "stop", .claimNext]

theorem statusOf_timelyCalls :
    statusOf (runCalls plainHost {} (here (timelyCalls.take 2)) ScheduledWorkTable.empty) "w" =
        some .running ∧
      statusOf (runCalls plainHost {} (here (timelyCalls.take 3)) ScheduledWorkTable.empty) "w" =
        some .completed := by
  decide +kernel

theorem not_late_timelyCalls :
    EveryStep plainHost {} (fun work made => ¬Late plainHost work made) (here timelyCalls)
      ScheduledWorkTable.empty := by
  obtain ⟨hrunning, hcompleted⟩ := statusOf_timelyCalls
  refine everyStep_cons (fun h => by cases h) (everyStep_cons (fun h => by cases h)
    (everyStep_cons ?_ (everyStep_cons ?_ (everyStep_cons (fun h => by cases h)
      (everyStep_cons (fun h => by cases h) everyStep_nil)))))
  · rintro (@⟨_, item, _, _, _, _, hitem, hterminal, -⟩ | _ | _)
    rw [status_of_lookup hitem hrunning] at hterminal
    cases hterminal
  · rintro (@⟨_, item, asked, _, _, _, hitem, -, hasked, hother, -⟩ | _ | _)
    have hsame : completionStatus (upper plainHost.text "completed") = .ok .completed := by
      decide +kernel
    exact hother ((Except.ok.inj (hasked.symm.trans hsame)).trans (status_of_lookup hitem hcompleted).symm)

theorem absorbing_iff_no_late_call_timelyCalls :
    statusOf (runCalls plainHost {} (here (timelyCalls.take 3)) ScheduledWorkTable.empty) "w" =
        some .completed ∧
      Absorbing plainHost {} (here timelyCalls) ScheduledWorkTable.empty := by
  refine ⟨statusOf_timelyCalls.2, (absorbing_iff_no_late_call plainHost {} (here timelyCalls) ?_).mpr
    not_late_timelyCalls⟩
  exact everyStep_cons rfl (everyStep_cons trivial (everyStep_cons trivial
    (everyStep_cons trivial (everyStep_cons trivial (everyStep_cons trivial everyStep_nil)))))

/-- Cancelled work, completed late. -/
def lateCompletion : List Call :=
  [.enqueue { ticketId := "t", workKind := "validate" } "w", .claimNext,
    .cancel "w" "operator" "stop", .complete "w" "completed" "done"]

theorem not_absorbing_lateCompletion :
    ¬Absorbing plainHost {} (here lateCompletion) ScheduledWorkTable.empty := by
  intro habsorbing
  have hcancelled : statusOf (runCalls plainHost {} (here (lateCompletion.take 3))
      ScheduledWorkTable.empty) "w" = some .cancelled := by decide +kernel
  have hcompleted : statusOf (runCalls plainHost {} (here lateCompletion)
      ScheduledWorkTable.empty) "w" = some .completed := by decide +kernel
  obtain ⟨item, hitem, hstatus⟩ := Option.map_eq_some_iff.mp hcancelled
  have hkept := habsorbing (here (lateCompletion.take 3)) (here (lateCompletion.drop 3)) [] rfl
    "w" item hitem (by rw [hstatus]; rfl)
  rw [show here (lateCompletion.take 3) ++ here (lateCompletion.drop 3) = here lateCompletion from
    rfl, hcompleted, hstatus] at hkept
  cases hkept

end RlmGraph.Scheduler.Lifecycle
