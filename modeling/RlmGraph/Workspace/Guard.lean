import RlmGraph.Workspace.Controller

/-! # The run guard

Who holds the guard that the controllers share. Each thread keeps a contract
(`threadSpec`): a `suggest_ideas` call releases what it acquired, a call that
acquired the guard hands it over to the worker it starts, a worker without
scheduled work begins with the guard and releases it, and the other workers
leave it alone. A controller with a scheduler keeps the contract only where it
has a ticket to schedule the work by (`Ticketed`), since its calls do not take
the guard and its workers without scheduled work release it all the same. The
rule of pools puts the threads together (`World`). -/
namespace RlmGraph.Workspace.Guard
open RlmGraph.Lib RlmGraph.Lib.PyText RlmGraph.Lib.Programs RlmGraph.Workspace.Controller
open RlmGraph.Scheduler.Work (plainItem)

/-! ## The contract of a thread -/

/-- An activity that a controller with a scheduler can resume under it. -/
def Resumable (w : WorkspaceController) (state : WorkspaceState) : Prop :=
  w.scheduler = true → state.status = .interrupted →
    truthy state.ticketId = true ∨ truthy state.scheduledWorkId = true

/-- The call names a ticket if the controller has a scheduler. -/
def Ticketed (w : WorkspaceController) : Request → Prop
  | .startDiagnostic _ _ ticketId => w.scheduler = true → truthy ticketId = true
  | .startChangePlan _ _ _ ticketId => w.scheduler = true → truthy ticketId = true
  | _ => True

/-- What a thread that holds the guard, or does not, may do. -/
def Allowed (w : WorkspaceController) (kind : Kind) (holds : Bool) (op : Op) : Prop :=
  (kind = .worker false → holds = true) ∧
    match op with
    | .acquireGuard => holds = false ∧ (kind = .suggest ∨ kind = .call)
    | .releaseGuard => holds = true ∧ kind ≠ .call
    | .startThread job => kind = .call ∧ (holds = true ↔ job.scheduledWorkId.isSome = false)
    | .setState state => Resumable w state
    | _ => True

/-- Whether a call that has reserved the guard is let down by an answer. -/
def LetDown (w : WorkspaceController) (kind : Kind) : (o : Op) → Reply o → Prop
  | .startThread _, .error _ => kind = .call ∧ w.scheduler = false
  | .outside (.saveObserverActivity _), .error _ => kind = .call ∧ w.scheduler = false
  | _, _ => False

/-- The replies a thread relies on; with `strict` also that it is not let down. -/
def Legal (w : WorkspaceController) (kind : Kind) (strict : Prop) (o : Op) (r : Reply o) : Prop :=
  (strict → ¬LetDown w kind o r) ∧
    match o, r with
    | .state, state => Resumable w state
    | _, _ => True

/-- Whether the thread holds the guard afterwards. -/
def holdsAfter (holds : Bool) : (o : Op) → Reply o → Bool
  | .acquireGuard, acquired => acquired
  | .releaseGuard, _ => false
  | .startThread _, .ok _ => false
  | _, _ => holds

def threadSpec (w : WorkspaceController) (strict : Prop) (kind : Kind) : OpSpec Op Reply Bool :=
  contract (Allowed w kind) (Legal w kind strict) holdsAfter

/-- A thread does not keep the guard; a call may, if it was let down. -/
def Ended (strict : Prop) (kind : Kind) (holds : Bool) : Prop :=
  (kind = .call → strict) → holds = false

section
variable {w : WorkspaceController} {strict : Prop} {kind : Kind} {b : Bool}

/-- Programs that leave the guard alone. -/
abbrev Leaves (w : WorkspaceController) (strict : Prop) (kind : Kind) (b : Bool) {α : Type}
    (x : WorkspaceAct α) : Prop :=
  Act.Keeps (threadSpec w strict kind) (fun _ holds => holds = b) x

variable {α β : Type} {x : WorkspaceAct α} (hb : kind = .worker false → b = true)
include hb

theorem leaves_outside (call : Outside) : Leaves w strict kind b (outside call) := by
  refine Act.Keeps.bind (Act.keeps_perform fun _ holds h => ?_) fun answer =>
    Act.keeps_ofExcept answer
  subst h
  exact ⟨⟨hb, trivial⟩, fun _ _ => rfl⟩

theorem leaves_suspend : Leaves w strict kind b (Act.perform Op.suspend) :=
  Act.keeps_perform fun _ holds h => by subst h; exact ⟨⟨hb, trivial⟩, fun _ _ => rfl⟩

theorem Leaves.withLock (h : Leaves w strict kind b x) :
    Leaves w strict kind b (Controller.withLock x) := by
  refine Act.Keeps.bind (Act.keeps_perform fun _ holds h => ?_) fun _ =>
    h.andFinally (Act.keeps_perform fun _ holds h => ?_)
  · subst h
    exact ⟨⟨hb, trivial⟩, fun _ _ => rfl⟩
  · subst h
    exact ⟨⟨hb, trivial⟩, fun _ _ => rfl⟩

/-- A read of the state. -/
theorem leaves_state {f : WorkspaceState → WorkspaceAct β}
    (hf : ∀ state, Resumable w state → Leaves w strict kind b (f state)) :
    Leaves w strict kind b (Act.perform Op.state >>= f) := by
  intro l holds h
  refine Act.wp_op ?_
  subst h
  exact ⟨⟨hb, trivial⟩, fun state hstate => hf state hstate.2 l _ rfl⟩

theorem leaves_storeState {state : WorkspaceState} (hstate : Resumable w state) :
    Leaves w strict kind b (storeState state) := by
  refine Act.Keeps.bind (Act.keeps_perform fun _ holds h => ?_) fun _ => leaves_outside hb _
  subst h
  exact ⟨⟨hb, hstate⟩, fun _ _ => rfl⟩

theorem leaves_snapshot : Leaves w strict kind b snapshot :=
  Leaves.withLock hb (leaves_state hb fun _ _ => Act.keeps_pure _)

theorem leaves_update (jobId : String) {status : Option WorkspaceStatus}
    (hstatus : status ≠ some .interrupted) : Leaves w strict kind b (update jobId status) := by
  refine Leaves.withLock hb (leaves_state hb fun state hstate => ?_)
  refine Act.Keeps.when (leaves_storeState hb fun hscheduler hinterrupted => ?_)
  cases status with
  | none => exact hstate hscheduler hinterrupted
  | some status => exact (hstatus (congrArg some hinterrupted)).elim

theorem leaves_projectOption (projectId : String) :
    Leaves w strict kind b (projectOption projectId) :=
  (leaves_outside hb _).bind fun _ => Act.keeps_ofExcept _

theorem leaves_indexedPaths (projectId : String) :
    Leaves w strict kind b (indexedPaths w projectId) := by
  refine (leaves_outside hb _).bind fun files => ?_
  refine Act.Keeps.ite (Act.keeps_pure _) ?_
  exact (leaves_outside hb _).bind fun _ => Act.keeps_pure _

theorem leaves_suggestInside (option : ProjectOption) (projectId : String) :
    Leaves w strict kind b (suggestInside w option projectId) := by
  refine (leaves_outside hb _).bind fun _ => (leaves_outside hb _).bind fun _ => ?_
  refine (leaves_outside hb _).bind fun _ => (Act.keeps_require _ _).bind fun _ => ?_
  refine (leaves_indexedPaths hb _).bind fun _ => (leaves_outside hb _).bind fun _ => ?_
  refine (leaves_outside hb _).bind fun _ => (Act.keeps_require _ _).bind fun _ => ?_
  exact Act.keeps_pure _

theorem leaves_preflight (projectId prompt : String) (ticketId : Option String) :
    Leaves w strict kind b (preflight projectId prompt ticketId) := by
  refine (Act.keeps_require _ _).bind fun _ => (Act.keeps_require _ _).bind fun _ => ?_
  refine (leaves_projectOption hb _).bind fun _ => (leaves_outside hb _).bind fun _ => ?_
  refine (Act.Keeps.when ((leaves_outside hb _).bind fun _ => Act.keeps_require _ _)).bind fun _ => ?_
  refine (leaves_outside hb _).bind fun _ => ?_
  refine (Act.Keeps.when ((leaves_outside hb _).bind fun _ => (leaves_outside hb _).bind fun _ =>
    leaves_outside hb _)).bind fun _ => ?_
  exact (Act.Keeps.when (leaves_outside hb _)).bind fun _ => Act.keeps_pure _

theorem leaves_awaitAdmission (workId : String) (polls : Nat) :
    Leaves w strict kind b (awaitAdmission workId polls) := by
  induction polls with
  | zero => exact leaves_suspend hb
  | succ polls ih =>
    refine (leaves_outside hb _).bind fun _ => Act.Keeps.ite (Act.keeps_pure _) ?_
    exact (leaves_outside hb _).bind fun _ => (Act.keeps_require _ _).bind fun _ => ih

theorem leaves_work (polls : Nat) (job : Job) : Leaves w strict kind b (work w polls job) := by
  refine (Act.Keeps.when ((leaves_awaitAdmission hb _ _).bind fun _ =>
    leaves_outside hb _)).bind fun _ => ?_
  refine (leaves_update hb _ (by decide)).bind fun _ => (leaves_outside hb _).bind fun _ => ?_
  refine (leaves_outside hb _).bind fun _ => (leaves_outside hb _).bind fun _ => ?_
  refine (Act.keeps_require _ _).bind fun _ => (leaves_update hb _ (by decide)).bind fun _ => ?_
  refine (leaves_outside hb _).bind fun _ => (leaves_update hb _ (by decide)).bind fun _ => ?_
  refine (leaves_outside hb _).bind fun _ => (Act.keeps_require _ _).bind fun _ => ?_
  refine Act.Keeps.bind (x := saveRecord job _) ?_ fun _ => ?_
  · exact Act.Keeps.ite (leaves_outside hb _) (leaves_outside hb _)
  refine (Act.Keeps.when ((leaves_outside hb _).bind fun _ => (leaves_outside hb _).bind fun _ =>
    leaves_outside hb _)).bind fun _ => ?_
  exact leaves_update hb _ (by decide)

theorem leaves_stopped (job : Job) (e : PyError) : Leaves w strict kind b (stopped w job e) := by
  unfold stopped
  split
  · exact leaves_update hb _ (by decide)
  · refine (leaves_update hb _ (by decide)).bind fun _ => Act.Keeps.when ?_
    exact (leaves_outside hb _).bind fun _ => Act.Keeps.when (leaves_outside hb _)

end

/-! ## The programs keep the contract -/

section
variable {w : WorkspaceController} {strict : Prop}

/-- What a call or a worker ends in. -/
abbrev Keeps (w : WorkspaceController) (strict : Prop) (kind : Kind) {α : Type} (x : WorkspaceAct α)
    (holds : Bool) : Prop :=
  x.wp (threadSpec w strict kind) (fun _ _ holds => Ended strict kind holds) () holds

theorem Leaves.keeps {kind : Kind} {α : Type} {x : WorkspaceAct α}
    (h : Leaves w strict kind false x) : Keeps w strict kind x false :=
  Act.wp_mono (h () false rfl) fun _ _ _ hholds _ => hholds

/-- The guard is released by a thread that holds it. -/
theorem wp_releaseGuard {kind : Kind} {Q : Except PyError Unit → Unit → Bool → Prop} {u : Unit}
    (hkind : kind ≠ .call) (h : ∀ r, Q r u false) :
    releaseGuard.wp (threadSpec w strict kind) Q u true := by
  refine Act.wp_op ⟨⟨fun _ => rfl, rfl, hkind⟩, fun wasLocked _ => ?_⟩
  show (Act.require _ _).wp _ Q u false
  rw [Act.wp_require]
  split
  · exact h _
  · exact h _

/-- A block that begins with the guard and releases it at its end. -/
theorem wp_guarded {kind : Kind} {α : Type} {x : WorkspaceAct α} {u : Unit}
    {Q : Except PyError α → Unit → Bool → Prop} (hkind : kind ≠ .call)
    (hx : Leaves w strict kind true x) (h : ∀ r, Q r () false) :
    (x.andFinally releaseGuard).wp (threadSpec w strict kind) Q u true := by
  refine Act.wp_andFinally (hx u true rfl) fun r u' holds hholds => ?_
  subst hholds
  refine wp_releaseGuard hkind fun r' => ?_
  cases r' with
  | ok _ => exact h r
  | error e => exact h (.error e)

theorem keeps_suggestIdeas (projectId : String) :
    Keeps w strict .suggest (suggestIdeas w projectId) false := by
  have hb : (Kind.suggest = .worker false → false = true) := fun h => by cases h
  have hb' : (Kind.suggest = .worker false → true = true) := fun _ => rfl
  refine Act.wp_check (fun _ => ?_) fun _ _ => rfl
  refine Act.wp_seq (leaves_projectOption hb projectId () false rfl) ?_ fun _ _ _ h _ => h
  rintro option - holds rfl
  have hcurrent : Leaves w strict .suggest false (indexCurrent option projectId) :=
    Act.Keeps.ite (leaves_outside hb _) (Act.keeps_pure _)
  refine Act.wp_seq (hcurrent () false rfl) ?_ fun _ _ _ h _ => h
  rintro current - holds rfl
  refine Act.wp_check (fun _ => ?_) fun _ _ => rfl
  have hidle : Leaves w strict .suggest false assertIdle :=
    Leaves.withLock hb (leaves_state hb fun _ _ => Act.keeps_require _ _)
  refine Act.wp_seq (hidle () false rfl) ?_ fun _ _ _ h _ => h
  rintro - - holds rfl
  refine Act.wp_op ⟨⟨hb, rfl, Or.inl rfl⟩, fun acquired _ => ?_⟩
  refine Act.wp_check (fun hacquired => ?_) fun hacquired _ => ?_
  · subst hacquired
    exact wp_guarded (by decide) (leaves_suggestInside hb' option projectId) fun _ _ => rfl
  · exact Bool.eq_false_iff.mpr hacquired

/-- A call has reserved the guard if its controller has no scheduler. -/
def Reserving (w : WorkspaceController) (holds : Bool) : Prop := holds = true ↔ w.scheduler = false

theorem Reserving.free {holds : Bool} (h : Reserving w holds) (hscheduler : w.scheduler = true) :
    holds = false := by
  cases holds with
  | false => rfl
  | true => rw [h.mp rfl] at hscheduler; cases hscheduler

theorem call_ne_worker {holds : Bool} : Kind.call = .worker false → holds = true :=
  fun h => by cases h

theorem wp_reserveGuard :
    (reserveGuard w).wp (threadSpec w strict .call)
      (fun r _ holds => r = .ok holds ∧ (w.scheduler = true → holds = false)) () false := by
  unfold reserveGuard
  split
  · exact ⟨rfl, fun _ => rfl⟩
  · rename_i hscheduler
    exact ⟨⟨call_ne_worker, rfl, Or.inr rfl⟩, fun acquired _ => ⟨rfl, fun h => (hscheduler h).elim⟩⟩

/-- A new job is scheduled if and only if there is a scheduler. -/
theorem wp_schedule {kind jobId : String} {ticketId : Option String} {holds : Bool}
    (hticket : w.scheduler = true → truthy ticketId = true) :
    (schedule w kind jobId ticketId).wp (threadSpec w strict .call)
      (fun r _ holds' => holds' = holds ∧
        match r with
        | .ok scheduled => scheduled.isSome = w.scheduler
        | .error _ => w.scheduler = true) () holds := by
  unfold schedule
  by_cases hscheduler : w.scheduler = true
  · rw [if_pos ⟨hscheduler, hticket hscheduler⟩]
    refine Act.wp_seq (leaves_outside call_ne_worker _ () holds rfl) (fun workId _ _ h => ?_)
      fun _ _ _ h => ⟨h, hscheduler⟩
    exact ⟨h, hscheduler.symm⟩
  · rw [if_neg fun h => hscheduler h.1]
    exact ⟨rfl, (Bool.eq_false_iff.mpr hscheduler).symm⟩

theorem wp_storeState {state : WorkspaceState} {holds : Bool} (hstate : Resumable w state) :
    (storeState state).wp (threadSpec w strict .call)
      (fun r _ holds' => holds' = holds ∧
        match r with
        | .ok _ => True
        | .error _ => strict → w.scheduler = true) () holds := by
  refine Act.wp_op ⟨⟨call_ne_worker, hstate⟩, fun _ _ => ?_⟩
  refine Act.wp_op ⟨⟨call_ne_worker, trivial⟩, fun answer hlegal => ⟨rfl, ?_⟩⟩
  cases answer with
  | ok _ => trivial
  | error e =>
    intro hstrict
    by_contra hscheduler
    exact hlegal.1 hstrict ⟨rfl, Bool.eq_false_iff.mpr hscheduler⟩

/-- What a call has after its block under the lock. -/
def Reserved (w : WorkspaceController) (strict : Prop) (r : Except PyError Job) (holds : Bool) : Prop :=
  match r with
  | .ok job => Reserving w holds ∧ job.scheduledWorkId.isSome = w.scheduler
  | .error _ => strict → holds = false

theorem wp_reserve {kind : String} {option : ProjectOption} {projectId prompt : String}
    {criteria : List String} {ticketId : Option String}
    (hticket : w.scheduler = true → truthy ticketId = true) :
    (reserve w kind option projectId prompt criteria ticketId).wp (threadSpec w strict .call)
      (fun r _ holds => Reserved w strict r holds) () false := by
  refine Act.wp_op ⟨⟨call_ne_worker, trivial⟩, fun _ _ => ?_⟩
  -- the lock is released with what the block has come to
  refine Act.wp_andFinally (R := fun r _ holds => Reserved w strict r holds) ?_ fun r _ holds h =>
    ⟨⟨call_ne_worker, trivial⟩, fun _ _ => h⟩
  refine Act.wp_op ⟨⟨call_ne_worker, trivial⟩, fun state _ => ?_⟩
  refine Act.wp_check (fun _ => ?_) fun _ _ => rfl
  refine Act.wp_seq wp_reserveGuard ?_ fun _ _ _ h => by cases h.1
  rintro holds - _ ⟨hacquired, hfree⟩
  cases hacquired
  refine Act.wp_check (fun hreserved => ?_) fun hrefused _ => ?_
  · have hreserving : Reserving w holds := by
      constructor
      · intro hholds
        by_contra hscheduler
        rw [hfree (Bool.not_eq_false _ ▸ hscheduler)] at hholds
        cases hholds
      · intro hscheduler
        exact hreserved.resolve_left (by simp [hscheduler])
    refine Act.wp_op ⟨⟨call_ne_worker, trivial⟩, fun jobId _ => ?_⟩
    refine Act.wp_seq (wp_schedule hticket) ?_ fun _ _ _ h _ =>
      h.1.trans (hreserving.free h.2)
    rintro scheduled - _ ⟨rfl, hscheduled⟩
    have hqueued : ∀ state : WorkspaceState, state.status = .queued → Resumable w state :=
      fun state hstatus _ hinterrupted => by rw [hstatus] at hinterrupted; cases hinterrupted
    refine Act.wp_seq (wp_storeState (hqueued _ rfl)) ?_ fun _ _ _ h hstrict =>
      h.1.trans (hreserving.free (h.2 hstrict))
    rintro - - _ ⟨rfl, -⟩
    exact ⟨hreserving, hscheduled⟩
  · exact Bool.eq_false_iff.mpr fun hholds => hrefused (Or.inr hholds)

/-- A call hands the guard over to the worker it starts. -/
theorem wp_startThread {job : Job} {holds : Bool} (hreserving : Reserving w holds)
    (hscheduled : job.scheduledWorkId.isSome = w.scheduler) :
    (startThread job).wp (threadSpec w strict .call)
      (fun r _ holds' =>
        match r with
        | .ok _ => holds' = false
        | .error _ => strict → holds' = false) () holds := by
  refine Act.wp_op ⟨⟨call_ne_worker, rfl, by rw [hscheduled]; exact hreserving⟩, fun r hlegal => ?_⟩
  cases r with
  | ok _ => rfl
  | error e =>
    intro hstrict
    refine hreserving.free ?_
    by_contra hscheduler
    exact hlegal.1 hstrict ⟨rfl, Bool.eq_false_iff.mpr hscheduler⟩

theorem keeps_start {kind projectId prompt : String} {criteria : List String}
    {ticketId : Option String} (hticket : w.scheduler = true → truthy ticketId = true) :
    Keeps w strict .call (start w kind projectId prompt criteria ticketId) false := by
  refine Act.wp_seq (leaves_preflight call_ne_worker _ _ _ () false rfl) ?_ fun _ _ _ h _ => h
  rintro option - _ rfl
  refine Act.wp_seq (wp_reserve hticket) ?_ fun _ _ _ h hstrict => h (hstrict rfl)
  rintro job - holds ⟨hreserving, hscheduled⟩
  refine Act.wp_seq (wp_startThread hreserving hscheduled) ?_ fun _ _ _ h hstrict =>
    h (hstrict rfl)
  rintro - - _ rfl
  exact (leaves_snapshot call_ne_worker).keeps

theorem keeps_startChangePlan {projectId request : String} {criteria : List String}
    {ticketId : Option String} (hticket : w.scheduler = true → truthy ticketId = true) :
    Keeps w strict .call (startChangePlan w projectId request criteria ticketId) false := by
  refine Act.wp_check (fun _ => ?_) fun _ _ => rfl
  exact Act.wp_check (fun _ => keeps_start hticket) fun _ _ => rfl

theorem wp_snapshot : snapshot.wp (threadSpec w strict .call)
    (fun r _ holds => ∃ state, r = .ok state ∧ Resumable w state ∧ holds = false) () false := by
  refine Act.wp_op ⟨⟨call_ne_worker, trivial⟩, fun _ _ => ?_⟩
  refine Act.wp_andFinally
    (R := fun r _ holds => ∃ state, r = .ok state ∧ Resumable w state ∧ holds = false) ?_
    fun r _ holds h => ⟨⟨call_ne_worker, trivial⟩, fun _ _ => h⟩
  exact ⟨⟨call_ne_worker, trivial⟩, fun state hstate => ⟨state, rfl, hstate.2, rfl⟩⟩

/-- Resumed work goes on under the scheduler, or is started anew. -/
theorem keeps_resume : Keeps w strict .call (resume w) false := by
  refine Act.wp_seq wp_snapshot ?_ fun _ _ _ h => by obtain ⟨_, h, -⟩ := h; cases h
  rintro state - _ ⟨_, h, hresumable, rfl⟩
  cases h
  refine Act.wp_check (fun hinterrupted => ?_) fun _ _ => rfl
  by_cases hscheduled : truthy state.scheduledWorkId = true ∧ w.scheduler = true
  · rw [if_pos hscheduled]
    have hreserving : Reserving w false := by simp [Reserving, hscheduled.2]
    refine Act.wp_seq (leaves_outside call_ne_worker _ () false rfl) ?_ fun _ _ _ h _ => h
    rintro - - _ rfl
    refine Act.wp_seq (leaves_update call_ne_worker _ (by decide) () false rfl) ?_
      fun _ _ _ h _ => h
    rintro - - _ rfl
    refine Act.wp_seq (wp_startThread hreserving hscheduled.2.symm) ?_ fun _ _ _ h hstrict =>
      h (hstrict rfl)
    rintro - - _ rfl
    exact (leaves_snapshot call_ne_worker).keeps
  · rw [if_neg hscheduled]
    refine keeps_start fun hscheduler => ?_
    exact (hresumable hscheduler hinterrupted).resolve_right fun h => hscheduled ⟨h, hscheduler⟩

theorem leaves_cancel {actor reason : String} :
    Leaves w strict .call false (Controller.cancel w actor reason) := by
  refine (leaves_snapshot call_ne_worker).bind fun state => (Act.keeps_require _ _).bind fun _ => ?_
  refine (leaves_outside call_ne_worker _).bind fun item => ?_
  refine (Act.Keeps.when (leaves_state call_ne_worker fun state _ =>
    leaves_update call_ne_worker _ (by decide))).bind fun _ => ?_
  exact leaves_snapshot call_ne_worker

/-- **The calls keep the contract.** -/
theorem keeps_program {request : Request} (hticketed : Ticketed w request) :
    Keeps w strict request.kind (request.program w) false := by
  -- what a call returns goes to the caller, and the guard is not touched any more
  have hreturn : ∀ {kind : Kind} {α : Type} {x : WorkspaceAct α}, Keeps w strict kind x false →
      Keeps w strict kind (do let _ ← x) false := by
    intro kind α x h
    exact Act.wp_seq h (fun _ _ _ h => h) fun _ _ _ h => h
  cases request with
  | suggestIdeas projectId => exact hreturn (keeps_suggestIdeas projectId)
  | startDiagnostic projectId question ticketId => exact hreturn (keeps_start hticketed)
  | startChangePlan projectId request criteria ticketId =>
    exact hreturn (keeps_startChangePlan hticketed)
  | resume => exact hreturn keeps_resume
  | cancel actor reason => exact hreturn leaves_cancel.keeps

/-- **The worker keeps the contract**: it begins with the guard if and only if it
has no scheduled work. -/
theorem keeps_run (polls : Nat) (job : Job) :
    Keeps w strict (.worker job.scheduledWorkId.isSome) (run w polls job)
      (!job.scheduledWorkId.isSome) := by
  have hbody : ∀ {b : Bool}, (Kind.worker job.scheduledWorkId.isSome = .worker false → b = true) →
      Leaves w strict (.worker job.scheduledWorkId.isSome) b
        ((work w polls job).onError PyError.isException (stopped w job)) :=
    fun hb => (leaves_work hb polls job).onError fun e => leaves_stopped hb job e
  unfold run
  cases hscheduled : job.scheduledWorkId with
  | none =>
    rw [hscheduled] at hbody
    exact wp_guarded (by decide) (hbody fun _ => rfl) fun _ _ => rfl
  | some workId =>
    rw [hscheduled] at hbody
    have hb : Kind.worker true = .worker false → false = true := fun h => by cases h
    exact Leaves.keeps ((hbody hb).andFinally (Act.keeps_pure ()))

end
/-! ## Who holds the guard -/

/-- The guard changes hands in turn: each release follows an acquisition by the
same workflow, and no acquisition comes between. At last `owner` holds it. -/
inductive Matched : List GuardEvent → Option Nat → Prop
  | nobody : Matched [] none
  | acquired {history : List GuardEvent} (workflow : Nat) (h : Matched history none) :
      Matched (history ++ [.acquired workflow]) (some workflow)
  | released {history : List GuardEvent} {workflow : Nat} (h : Matched history (some workflow)) :
      Matched (history ++ [.released workflow]) none

theorem Matched.owner {history : List GuardEvent} {owner : Option Nat} {workflow : Nat}
    (h : Matched history owner) (hacquired : .acquired workflow ∈ history)
    (hreleased : .released workflow ∉ history) : owner = some workflow := by
  induction h with
  | nobody => cases hacquired
  | acquired last h ih =>
    rw [List.mem_append, not_or] at hreleased
    rcases List.mem_append.mp hacquired with hbefore | hlast
    · cases ih hbefore hreleased.1
    · cases List.mem_singleton.mp hlast
      rfl
  | @released history last h ih =>
    rw [List.mem_append, not_or] at hreleased
    rcases List.mem_append.mp hacquired with hbefore | hlast
    · cases ih hbefore hreleased.1
      exact (hreleased.2 List.mem_cons_self).elim
    · cases List.mem_singleton.mp hlast

variable {ι : Type} {spaces : ι → WorkspaceController}

/-- The guard, the phases of the threads and the states of the controllers fit
together. -/
structure World (spaces : ι → WorkspaceController) (roles : List (Role ι)) (holds : Nat → Bool)
    (s : System ι) : Prop where
  guard : ∃ owner, Matched s.history owner ∧ s.guard = owner.isSome ∧
    (∀ i, holds i = true → ∃ role : Role ι, roles[i]? = some role ∧ owner = some role.workflow) ∧
    (owner ≠ none → ∃ i, holds i = true)
  one : ∀ i j, holds i = true → holds j = true → i = j
  calls : ∀ i (role : Role ι), roles[i]? = some role →
    (∀ scheduled, role.kind ≠ .worker scheduled) → role.workflow = i
  workers : ∀ role ∈ roles, ∀ scheduled, role.kind = .worker scheduled →
    ∃ caller, roles[role.workflow]? = some caller ∧ caller.kind = .call
  states : ∀ c, Resumable (spaces c) (s.states c)

theorem World.congr {roles : List (Role ι)} {holds : Nat → Bool} {s s' : System ι}
    (h : World spaces roles holds s) (hguard : s'.guard = s.guard)
    (hhistory : s'.history = s.history) (hstates : ∀ c, Resumable (spaces c) (s'.states c)) :
    World spaces roles holds s' where
  guard := by rw [hguard, hhistory]; exact h.guard
  one := h.one
  calls := h.calls
  workers := h.workers
  states := hstates

/-- The phase of a thread that exists. -/
theorem World.lt {roles : List (Role ι)} {holds : Nat → Bool} {s : System ι}
    (h : World spaces roles holds s) {i : Nat} (hi : holds i = true) : i < roles.length := by
  obtain ⟨owner, -, -, hholder, -⟩ := h.guard
  obtain ⟨role, hrole, -⟩ := hholder i hi
  exact (List.getElem?_eq_some_iff.mp hrole).1

theorem World.acquire {roles : List (Role ι)} {holds : Nat → Bool} {s : System ι} {i : Nat}
    {role : Role ι} (h : World spaces roles holds s) (hrole : roles[i]? = some role)
    (hfree : s.guard = false) :
    World spaces roles (Function.update holds i true)
      { s with guard := true, history := s.history ++ [.acquired role.workflow] } := by
  obtain ⟨owner, hmatched, howner, hholder, -⟩ := h.guard
  have hnone : owner = none := by
    cases owner with
    | none => rfl
    | some _ => rw [hfree] at howner; cases howner
  subst hnone
  have hnobody : ∀ j, holds j ≠ true := fun j hj => by
    obtain ⟨_, _, hsome⟩ := hholder j hj
    cases hsome
  have honly : ∀ j, Function.update holds i true j = true → j = i := by
    intro j hj
    by_contra hne
    rw [Function.update_of_ne hne] at hj
    exact hnobody j hj
  refine ⟨⟨some role.workflow, hmatched.acquired _, rfl, ?_, ?_⟩, ?_, h.calls, h.workers, h.states⟩
  · intro j hj
    rw [honly j hj]
    exact ⟨role, hrole, rfl⟩
  · exact fun _ => ⟨i, Function.update_self i true holds⟩
  · intro j k hj hk
    rw [honly j hj, honly k hk]

theorem World.release {roles : List (Role ι)} {holds : Nat → Bool} {s : System ι} {i : Nat}
    {role : Role ι} (h : World spaces roles holds s) (hrole : roles[i]? = some role)
    (hi : holds i = true) :
    World spaces roles (Function.update holds i false)
      { s with guard := false, history := s.history ++ [.released role.workflow] } := by
  obtain ⟨owner, hmatched, -, hholder, -⟩ := h.guard
  obtain ⟨role', hrole', rfl⟩ := hholder i hi
  cases hrole.symm.trans hrole'
  have hnobody : ∀ j, Function.update holds i false j ≠ true := by
    intro j hj
    by_cases heq : j = i
    · rw [heq, Function.update_self] at hj
      cases hj
    · rw [Function.update_of_ne heq] at hj
      exact heq (h.one j i hj hi)
  refine ⟨⟨none, hmatched.released, rfl, ?_, ?_⟩, ?_, h.calls, h.workers, h.states⟩
  · exact fun j hj => (hnobody j hj).elim
  · exact fun hne => (hne rfl).elim
  · exact fun j k hj _ => (hnobody j hj).elim

/-- A new thread without the guard. -/
theorem World.grow {roles : List (Role ι)} {holds : Nat → Bool} {s : System ι} {role : Role ι}
    (h : World spaces roles holds s)
    (hcall : (∀ scheduled, role.kind ≠ .worker scheduled) → role.workflow = roles.length)
    (hworker : ∀ scheduled, role.kind = .worker scheduled →
      ∃ caller, roles[role.workflow]? = some caller ∧ caller.kind = .call) :
    World spaces (roles ++ [role]) (Function.update holds roles.length false) s := by
  have hold : ∀ {i : Nat} {found : Role ι}, roles[i]? = some found →
      (roles ++ [role])[i]? = some found := fun hfound => by
    rw [List.getElem?_append_left (List.getElem?_eq_some_iff.mp hfound).1]
    exact hfound
  have hholds : ∀ i, Function.update holds roles.length false i = true → holds i = true := by
    intro i hi
    by_cases heq : i = roles.length
    · rw [heq, Function.update_self] at hi
      cases hi
    · rwa [Function.update_of_ne heq] at hi
  obtain ⟨owner, hmatched, howner, hholder, hsome⟩ := h.guard
  refine ⟨⟨owner, hmatched, howner, ?_, ?_⟩, ?_, ?_, ?_, h.states⟩
  · intro i hi
    obtain ⟨found, hfound, hworkflow⟩ := hholder i (hholds i hi)
    exact ⟨found, hold hfound, hworkflow⟩
  · intro hne
    obtain ⟨i, hi⟩ := hsome hne
    exact ⟨i, by rw [Function.update_of_ne (Nat.ne_of_lt (h.lt hi))]; exact hi⟩
  · exact fun i j hi hj => h.one i j (hholds i hi) (hholds j hj)
  · intro i found hfound hkind
    by_cases hlt : i < roles.length
    · rw [List.getElem?_append_left hlt] at hfound
      exact h.calls i found hfound hkind
    · rw [List.getElem?_append_right (Nat.le_of_not_lt hlt)] at hfound
      obtain ⟨hi, hrole⟩ := List.getElem?_eq_some_iff.mp hfound
      have hi : i - roles.length = 0 := by simpa using hi
      obtain rfl : role = found := by simpa [hi] using hrole
      rw [hcall hkind]
      omega
  · intro found hfound scheduled hkind
    rcases List.mem_append.mp hfound with hmem | hmem
    · obtain ⟨caller, hcaller, hcall⟩ := h.workers found hmem scheduled hkind
      exact ⟨caller, hold hcaller, hcall⟩
    · obtain rfl := List.mem_singleton.mp hmem
      obtain ⟨caller, hcaller, hcall⟩ := hworker scheduled hkind
      exact ⟨caller, hold hcaller, hcall⟩

/-- The guard passes from a call to a thread of its workflow. -/
theorem World.handOver {roles : List (Role ι)} {holds : Nat → Bool} {s : System ι} {i j : Nat}
    {role role' : Role ι} (h : World spaces roles holds s) (hi : holds i = true)
    (hrole : roles[i]? = some role) (hrole' : roles[j]? = some role')
    (hworkflow : role'.workflow = role.workflow) :
    World spaces roles (Function.update (Function.update holds i false) j true) s := by
  obtain ⟨owner, hmatched, howner, hholder, -⟩ := h.guard
  obtain ⟨found, hfound, rfl⟩ := hholder i hi
  cases hrole.symm.trans hfound
  have honly : ∀ k, Function.update (Function.update holds i false) j true k = true → k = j := by
    intro k hk
    by_contra hne
    rw [Function.update_of_ne hne] at hk
    by_cases heq : k = i
    · rw [heq, Function.update_self] at hk
      cases hk
    · rw [Function.update_of_ne heq] at hk
      exact heq (h.one k i hk hi)
  refine ⟨⟨some role.workflow, hmatched, howner, ?_, ?_⟩, ?_, h.calls, h.workers, h.states⟩
  · intro k hk
    rw [honly k hk]
    exact ⟨role', hrole', by rw [hworkflow]⟩
  · exact fun _ => ⟨j, Function.update_self ..⟩
  · intro k l hk hl
    rw [honly k hk, honly l hl]

/-! ## The steps -/

variable {polls : Nat} {strict : Prop} {pool : Workers ι} {holds : Nat → Bool}

/-- Every thread keeps its contract, and the guard fits what they hold. -/
abbrev Guarded (spaces : ι → WorkspaceController) (strict : Prop) (holds : Nat → Bool) (pool : Workers ι) :
    Prop :=
  PoolSpec (fun role => threadSpec (spaces role.controller) strict role.kind)
    (fun role _ holds => Ended strict role.kind holds) (World spaces) holds pool

/-- An operation that starts no thread and leaves the phase of its own as it was. -/
theorem moved_quiet {roles : List (Role ι)} {i : Nat} {o : Op} {K : Reply o → Bool → Prop}
    {outcome : Outcome Op Reply (System ι) (Role ι) (Except PyError Unit × Unit) o}
    (hstarted : outcome.started = []) (hown : K outcome.reply (holds i))
    (hworld : World spaces roles holds outcome.state) :
    ∃ holds', Moved (fun role => threadSpec (spaces role.controller) strict role.kind)
      (fun role _ holds => Ended strict role.kind holds) (World spaces) roles holds i K outcome
      holds' := by
  refine ⟨holds, hown, fun _ _ _ => rfl, ?_, ?_⟩
  · intro k role p hget
    rw [hstarted] at hget
    cases hget
  · rw [hstarted, List.map_nil, List.append_nil]
    exact hworld

/-- A call starts a worker, and hands the guard over if it holds it. -/
theorem exists_started {roles : List (Role ι)} {s : System ι} {i : Nat} {role : Role ι}
    {scheduled : Bool} (h : World spaces roles holds s) (hlt : i < roles.length)
    (hrole : roles[i]? = some role) (hcall : role.kind = .call)
    (hholds : holds i = true ↔ scheduled = false) :
    ∃ holds' : Nat → Bool, holds' i = false ∧
      (∀ j, j < roles.length → j ≠ i → holds' j = holds j) ∧ holds' roles.length = !scheduled ∧
      World spaces (roles ++ [⟨role.controller, role.workflow, .worker scheduled⟩]) holds' s := by
  have hworkflow : role.workflow = i :=
    h.calls i role hrole fun _ hworker => by rw [hcall] at hworker; cases hworker
  have hgrown : World spaces (roles ++ [⟨role.controller, role.workflow, .worker scheduled⟩])
      (Function.update holds roles.length false) s :=
    h.grow (fun hkind => (hkind scheduled rfl).elim)
      fun _ _ => ⟨role, by rw [hworkflow]; exact hrole, hcall⟩
  cases scheduled with
  | true =>
    have hfree : holds i = false := Bool.eq_false_iff.mpr fun hi => by cases hholds.mp hi
    refine ⟨_, ?_, fun j hj _ => ?_, Function.update_self .., hgrown⟩
    · rw [Function.update_of_ne (Nat.ne_of_lt hlt)]
      exact hfree
    · exact Function.update_of_ne (Nat.ne_of_lt hj) _ _
  | false =>
    have hi : Function.update holds roles.length false i = true := by
      rw [Function.update_of_ne (Nat.ne_of_lt hlt)]
      exact hholds.mpr rfl
    have hold : (roles ++ [⟨role.controller, role.workflow, .worker false⟩])[i]? = roles[i]? :=
      List.getElem?_append_left hlt
    refine ⟨_, ?_, fun j hj hne => ?_, Function.update_self .., hgrown.handOver hi
      (hold.trans hrole) (List.getElem?_concat_length ..) rfl⟩
    · rw [Function.update_of_ne (Nat.ne_of_lt hlt), Function.update_self]
    · rw [Function.update_of_ne (Nat.ne_of_lt hj), Function.update_of_ne hne,
        Function.update_of_ne (Nat.ne_of_lt hj)]

theorem guarded_opened {persisted : ι → Option WorkspaceState}
    (hpersisted : ∀ c, Resumable (spaces c) (restoredState (persisted c))) :
    Guarded spaces strict (fun _ => false) (opened persisted) where
  threads := fun i role p hget => by cases hget
  world := {
    guard := ⟨none, .nobody, rfl, fun _ h => (by cases h), fun h => (h rfl).elim⟩
    one := fun _ _ h => (by cases h)
    calls := fun _ _ h => (by cases h)
    workers := fun _ h => (by cases h)
    states := hpersisted }

/-- A thread runs an unscheduled workflow: a worker without scheduled work, or a
`suggest_ideas` call between its acquisition and its release. -/
def RunsUnscheduled (pool : Workers ι) (i : Nat) : Prop :=
  ∃ role p, pool.threads[i]? = some (role, p) ∧
    (role.kind = .worker false ∧ p.isDone = false ∨
      role.kind = .suggest ∧ .acquired role.workflow ∈ pool.state.history ∧
        .released role.workflow ∉ pool.state.history)

instance (pool : Workers ι) (i : Nat) : Decidable (RunsUnscheduled pool i) :=
  match hget : pool.threads[i]? with
  | none => isFalse fun h => by
    obtain ⟨role, p, hthread, -⟩ := h
    rw [hget] at hthread
    cases hthread
  | some (role, p) =>
    decidable_of_iff
      (role.kind = .worker false ∧ p.isDone = false ∨
        role.kind = .suggest ∧ .acquired role.workflow ∈ pool.state.history ∧
          .released role.workflow ∉ pool.state.history)
      ⟨fun h => ⟨role, p, hget, h⟩, fun h => by
        obtain ⟨role', p', hthread, h⟩ := h
        cases hget.symm.trans hthread
        exact h⟩

/-- A thread that runs an unscheduled workflow holds the guard. -/
theorem holds_of_runsUnscheduled (h : Guarded spaces strict holds pool) {i : Nat}
    (hruns : RunsUnscheduled pool i) : holds i = true := by
  obtain ⟨role, p, hget, hruns⟩ := hruns
  have hrole : pool.roles[i]? = some role := by simp [Pool.roles, hget]
  rcases hruns with ⟨hkind, hlive⟩ | ⟨hkind, hacquired, hreleased⟩
  · have hp := h.threads i role p hget
    cases p with
    | done r => cases hlive
    | op o next => exact hp.1.1 hkind
  · obtain ⟨owner, hmatched, -, hholder, hsome⟩ := h.world.guard
    have howner := hmatched.owner hacquired hreleased
    obtain ⟨j, hj⟩ := hsome (by rw [howner]; exact Option.some_ne_none _)
    obtain ⟨holder, hholderRole, hworkflow⟩ := hholder j hj
    -- the holder is of the workflow of a call that starts no worker
    have hsame : holder.workflow = role.workflow := Option.some.inj (hworkflow.symm.trans howner)
    have hi : role.workflow = i :=
      h.world.calls i role hrole fun _ hworker => by rw [hkind] at hworker; cases hworker
    by_cases hworker : ∃ scheduled, holder.kind = .worker scheduled
    · obtain ⟨scheduled, hworker⟩ := hworker
      obtain ⟨caller, hcaller, hcall⟩ :=
        h.world.workers holder (List.mem_of_getElem? hholderRole) scheduled hworker
      rw [hsame, hi, hrole] at hcaller
      cases hcaller
      rw [hkind] at hcall
      cases hcall
    · have hj' : holder.workflow = j :=
        h.world.calls j holder hholderRole fun scheduled hworks => hworker ⟨scheduled, hworks⟩
      rw [← hi, ← hsame, hj']
      exact hj

variable [DecidableEq ι]

/-- A call that has reserved the guard gets an exception for an answer, when it
persists the state or starts the worker. -/
def LetsDown (spaces : ι → WorkspaceController) (polls : Nat) (pool : Workers ι) : Step ι → Prop
  | .call _ _ => False
  | .turn i answers => ∃ role o next outcome, pool.threads[i]? = some (role, .op o next) ∧
      perform spaces polls answers role o pool.state = some outcome ∧
      LetDown (spaces role.controller) role.kind o outcome.reply

theorem guarded_call {c : ι} {request : Request} (h : Guarded spaces strict holds pool)
    (hticketed : Ticketed (spaces c) request) :
    ∃ holds', Guarded spaces strict holds' (step spaces polls pool (.call c request)) := by
  refine ⟨_, h.start false (keeps_program hticketed) ?_⟩
  have hlength : pool.roles.length = pool.threads.length := List.length_map _
  have hkind : ∀ scheduled, request.kind ≠ .worker scheduled := by
    intro scheduled
    cases request <;> exact fun h => by cases h
  rw [← hlength]
  exact h.world.grow (fun _ => rfl) fun scheduled hworker => (hkind scheduled hworker).elim

theorem guarded_turn {i : Nat} {answers : Answers} (h : Guarded spaces strict holds pool)
    (hkept : strict → ¬LetsDown spaces polls pool (.turn i answers)) :
    ∃ holds', Guarded spaces strict holds' (step spaces polls pool (.turn i answers)) := by
  refine h.turn i fun role o next outcome K hget hrole houtcome hholds => ?_
  obtain ⟨⟨hworker, hallowed⟩, hK⟩ := hholds
  have hdown : strict → ¬LetDown (spaces role.controller) role.kind o outcome.reply :=
    fun hstrict hdown => hkept hstrict ⟨role, o, next, outcome, hget, houtcome, hdown⟩
  have hlt : i < pool.roles.length := (List.getElem?_eq_some_iff.mp hrole).1
  have hworld := h.world
  cases o with
  | acquireGuard =>
    cases houtcome
    have hown := hK _ ⟨hdown, trivial⟩
    cases hguard : pool.state.guard with
    | true =>
      refine moved_quiet rfl ?_ (by simp [hworld])
      rw [hallowed.1]
      simpa [hguard, holdsAfter] using hown
    | false =>
      refine ⟨Function.update holds i true, ?_, fun j _ hne => Function.update_of_ne hne _ _, ?_, ?_⟩
      · rw [Function.update_self]
        simpa [hguard, holdsAfter] using hown
      · exact fun k role p hget => by cases hget
      · simpa [hguard] using hworld.acquire hrole hguard
  | releaseGuard =>
    cases houtcome
    refine ⟨Function.update holds i false, ?_, fun j _ hne => Function.update_of_ne hne _ _, ?_, ?_⟩
    · rw [Function.update_self]
      exact hK _ ⟨hdown, trivial⟩
    · exact fun k role p hget => by cases hget
    · simpa using hworld.release hrole hallowed.1
  | lock =>
    by_cases hlocked : pool.state.locks role.controller = true
    · simp only [perform, if_pos hlocked] at houtcome
      cases houtcome
    · simp only [perform, if_neg hlocked] at houtcome
      cases houtcome
      exact moved_quiet rfl (hK _ ⟨hdown, trivial⟩) (hworld.congr rfl rfl hworld.states)
  | unlock =>
    cases houtcome
    exact moved_quiet rfl (hK _ ⟨hdown, trivial⟩) (hworld.congr rfl rfl hworld.states)
  | state =>
    cases houtcome
    exact moved_quiet rfl (hK _ ⟨hdown, hworld.states _⟩) hworld
  | setState state =>
    cases houtcome
    refine moved_quiet rfl (hK _ ⟨hdown, trivial⟩) (hworld.congr rfl rfl fun c => ?_)
    show Resumable (spaces c) (Function.update pool.state.states role.controller state c)
    by_cases hc : c = role.controller
    · rw [hc, Function.update_self]
      exact hallowed
    · rw [Function.update_of_ne hc]
      exact hworld.states c
  | startThread job =>
    obtain ⟨hcall, hholds⟩ := hallowed
    cases houtcome
    cases hstarts : answers.starts with
    | error e =>
      refine moved_quiet (by simp) ?_ hworld
      simpa [hstarts, holdsAfter] using hK _ ⟨hdown, trivial⟩
    | ok u =>
      have hown : K (.ok u) false := by
        simpa [hstarts, holdsAfter] using hK _ ⟨hdown, trivial⟩
      obtain ⟨holds', hown', hothers, hnew, hgrown⟩ := exists_started hworld hlt hrole hcall hholds
      refine ⟨holds', by rw [hown']; exact hown, hothers, fun k role' p hget => ?_, ?_⟩
      · simp only at hget
        obtain ⟨hk, hget⟩ := List.getElem?_eq_some_iff.mp hget
        obtain rfl : k = 0 := by simpa using hk
        cases hget
        rw [Nat.add_zero, hnew]
        exact keeps_run polls job
      · simpa [hstarts] using hgrown
  | newJobId =>
    cases houtcome
    exact moved_quiet rfl (hK _ ⟨hdown, trivial⟩) hworld
  | outside call =>
    cases houtcome
    exact moved_quiet rfl (hK _ ⟨hdown, trivial⟩) hworld
  | suspend => cases houtcome

/-! ## Runs -/

/-- No call that has reserved the guard is let down in a run. -/
def NoneLetDown (spaces : ι → WorkspaceController) (polls : Nat) : List (Step ι) → Workers ι → Prop
  | [], _ => True
  | made :: steps, pool =>
    ¬LetsDown spaces polls pool made ∧ NoneLetDown spaces polls steps (step spaces polls pool made)

/-- A step that names a ticket where the controller has a scheduler. -/
def StepTicketed (spaces : ι → WorkspaceController) : Step ι → Prop
  | .call c request => Ticketed (spaces c) request
  | .turn _ _ => True

theorem guarded_runSteps {steps : List (Step ι)} (h : Guarded spaces strict holds pool)
    (hticketed : ∀ made ∈ steps, StepTicketed spaces made)
    (hkept : strict → NoneLetDown spaces polls steps pool) :
    ∃ holds', Guarded spaces strict holds' (runSteps spaces polls steps pool) := by
  induction steps generalizing pool holds with
  | nil => exact ⟨holds, h⟩
  | cons made steps ih =>
    have hmade : ∃ holds', Guarded spaces strict holds' (step spaces polls pool made) := by
      cases made with
      | call c request => exact guarded_call h (hticketed _ List.mem_cons_self)
      | turn i answers => exact guarded_turn h fun hstrict => (hkept hstrict).1
    obtain ⟨holds', h'⟩ := hmade
    exact ih h' (fun other hother => hticketed other (List.mem_cons_of_mem made hother))
      fun hstrict => (hkept hstrict).2

/-- **The guard is kept.** Whatever calls are made of any number of controllers,
and however their threads interleave: if the controllers with a scheduler have
tickets to schedule by, the guard is released only by the workflow that acquired
it, at most once, and no two unscheduled workflows run at a time. If besides no
call is let down after it has reserved the guard, the guard is released for sure:
while it is held, its workflow has a thread that goes on. -/
theorem guard_kept (spaces : ι → WorkspaceController) (polls : Nat) (persisted : ι → Option WorkspaceState)
    (steps : List (Step ι))
    (hpersisted : ∀ c, Resumable (spaces c) (restoredState (persisted c)))
    (hticketed : ∀ made ∈ steps, StepTicketed spaces made) :
    ∃ owner, Matched (runSteps spaces polls steps (opened persisted)).state.history owner ∧
      (runSteps spaces polls steps (opened persisted)).state.guard = owner.isSome ∧
      (∀ i j, RunsUnscheduled (runSteps spaces polls steps (opened persisted)) i →
        RunsUnscheduled (runSteps spaces polls steps (opened persisted)) j → i = j) ∧
      (NoneLetDown spaces polls steps (opened persisted) → ∀ workflow, owner = some workflow →
        ∃ thread ∈ (runSteps spaces polls steps (opened persisted)).threads,
          thread.1.workflow = workflow ∧ thread.2.isDone = false) := by
  obtain ⟨holds, h⟩ : ∃ holds, Guarded spaces (NoneLetDown spaces polls steps (opened persisted))
      holds (runSteps spaces polls steps (opened persisted)) :=
    guarded_runSteps (guarded_opened hpersisted) hticketed id
  obtain ⟨owner, hmatched, hguard, hholder, hsome⟩ := h.world.guard
  refine ⟨owner, hmatched, hguard, fun i j hi hj => ?_, fun hkept workflow howner => ?_⟩
  · exact h.world.one i j (holds_of_runsUnscheduled h hi) (holds_of_runsUnscheduled h hj)
  · obtain ⟨i, hi⟩ := hsome (by rw [howner]; exact Option.some_ne_none _)
    obtain ⟨role, hrole, hworkflow⟩ := hholder i hi
    rw [Pool.roles, List.getElem?_map] at hrole
    obtain ⟨thread, hget, rfl⟩ := Option.map_eq_some_iff.mp hrole
    refine ⟨thread, List.mem_of_getElem? hget, ?_, ?_⟩
    · exact Option.some.inj (hworkflow.symm.trans howner)
    · -- a thread that is done does not hold the guard any more
      have hp := h.threads i thread.1 thread.2 hget
      cases hdone : thread.2 with
      | op o next => rfl
      | done r =>
        rw [hdone] at hp
        have hfree : holds i = false := hp fun _ => hkept
        rw [hi] at hfree
        cases hfree

/-! ## Runs of three controllers -/

/-- An outside world in which everything goes well. -/
def plainAnswer : (call : Outside) → call.Answer
  | .options => [⟨"p", "P", true⟩]
  | .projectIndexCurrent _ => true
  | .manifests _ => ("m", "m")
  | .projectFiles _ => ["f"]
  | .unrealArtifacts _ => []
  | .suggest _ => ⟨[], []⟩
  | .sourceRecord .. => "r"
  | .checkBudget _ => "p"
  | .enqueue .. => "w"
  | .tryClaim _ => true
  | .scheduledItem _ => plainItem
  | .requestCancellation .. => plainItem
  | .policy _ | .project _ | .resolveRoot _ | .scan _ | .saveObserverActivity _
  | .assertCurrentSourceClaims _ | .attachWorkspaceRecord .. | .saveProjectWorkspaceRecord _
  | .checkpoint .. | .attachEvidence .. | .complete .. | .resumeWork _ => ()

def plainAnswers : Answers := ⟨fun call => .ok (plainAnswer call), .ok (), "j"⟩

/-- The controller `1` has a scheduler, the others have none. -/
def plainSpaces (c : Nat) : WorkspaceController := ⟨c == 1, true, ⟨id, id, id⟩⟩

def ask (c : Nat) : Step Nat := .call c (.startDiagnostic "p" "q" none)

/-- A thread goes on, as far as it can. -/
def goOn (thread : Nat) : List (Step Nat) := List.replicate 40 (.turn thread plainAnswers)

/-- The first controller starts a worker. -/
def firstAsked : Workers Nat :=
  runSteps plainSpaces 0 (ask 0 :: goOn 0) (opened fun _ => none)

theorem guard_kept_firstAsked :
    ∃ owner, Matched firstAsked.state.history owner ∧ firstAsked.state.guard = owner.isSome ∧
      (∀ i j, RunsUnscheduled firstAsked i → RunsUnscheduled firstAsked j → i = j) ∧
      (NoneLetDown plainSpaces 0 (ask 0 :: goOn 0) (opened fun _ => none) →
        ∀ workflow, owner = some workflow → ∃ thread ∈ firstAsked.threads,
          thread.1.workflow = workflow ∧ thread.2.isDone = false) := by
  have hidle : ∀ c, Resumable (plainSpaces c) (restoredState none) := fun c _ h => by cases h
  have hticketed : ∀ made ∈ ask 0 :: goOn 0, StepTicketed plainSpaces made := by
    intro made hmade
    rcases List.mem_cons.mp hmade with rfl | hmade
    · exact fun h => by cases h
    · rw [List.eq_of_mem_replicate hmade]
      trivial
  unfold firstAsked
  exact guard_kept plainSpaces 0 (fun _ => none) (ask 0 :: goOn 0) hidle hticketed

/-- Then the controller with the scheduler does the same without a ticket, and
its worker comes to its end. A third controller starts a worker, too. -/
def thirdAsked : Workers Nat :=
  runSteps plainSpaces 0 (ask 1 :: goOn 2 ++ goOn 3 ++ ask 2 :: goOn 4) firstAsked

/-- A worker releases the guard of another workflow: two workflows run at a time. -/
theorem guard_released_for_another :
    thirdAsked.state.history = [.acquired 0, .released 2, .acquired 4] ∧
      RunsUnscheduled thirdAsked 1 ∧ RunsUnscheduled thirdAsked 5 := by
  decide +kernel

/-- The worker does not start, and the guard that the call has reserved for it is
never released. -/
theorem guard_never_released :
    let pool := runSteps plainSpaces 0 (ask 0 :: List.replicate 40
      (.turn 0 { plainAnswers with starts := .error (.runtime "can't start new thread") }))
      (opened fun _ => none)
    pool.state.history = [.acquired 0] ∧ pool.threads.all (·.2.isDone) = true := by
  decide +kernel

end RlmGraph.Workspace.Guard
