import RlmGraph.Sandbox.Standing

/-! # The lifecycle of a sandbox attempt

The operations of the manager on one stored attempt, complete or cut short, in
any order. An attempt is decided once a promotion of it has returned as
promoted, and while its journal is unfinished. Every operation but a discard
leaves the status of a decided attempt as it is; the recovery may change it
while the journal is unfinished. -/
namespace RlmGraph.Sandbox.Lifecycle
open RlmGraph.Lib RlmGraph.Lib.Programs
open RlmGraph.Governance.Policy (ProjectRecord ProjectGovernancePolicy)
open RlmGraph.Governance.Tickets (ProjectTicket)
open RlmGraph.Sandbox.Records RlmGraph.Sandbox.Operations RlmGraph.Sandbox.Promote
open RlmGraph.Sandbox.Recover RlmGraph.Sandbox.Review RlmGraph.Sandbox.Confinement
open RlmGraph.Sandbox.Standing

/-! ## A promotion that returns -/

section
variable {A : String} {α β : Type} {host : SandboxHost} {world : World} {l : Locals}

/-- The operations, without a condition. -/
abbrev freely (host : SandboxHost) : OpSpec Op Reply World :=
  guarded (fun _ _ => True) (perform host)

def HasId (A : String) (l : Locals) : Prop := l.attempt.id = A

theorem frame_hasId : Frame (fun _ => True) (HasId A) KeepsId where
  reads _ _ := trivial
  executes _ _ := trivial
  replaces _ _ := trivial
  saves _ _ := trivial
  others l l' h hl := by
    unfold HasId
    rw [h]
    exact hl
  updates f hf l hl := (hf l.attempt).trans hl

/-- The journal of the promotion is terminal. -/
def Terminal (attempt : ImplementationSandboxAttempt) : Prop :=
  ∃ journal, attempt.journal = some journal ∧ journal.terminal = true

/-- An attempt that is promoted is so with a terminal journal. -/
def Ended (attempt : ImplementationSandboxAttempt) : Prop :=
  attempt.status = "PROMOTED" → Terminal attempt

theorem Terminal.finished {attempt : ImplementationSandboxAttempt} (h : Terminal attempt) :
    attempt.promotion ≠ none ∧ attempt.unfinishedJournal = none := by
  obtain ⟨journal, hjournal, hterminal⟩ := h
  constructor
  · intro hnone
    simp [ImplementationSandboxAttempt.journal, hnone] at hjournal
  · simp [ImplementationSandboxAttempt.unfinishedJournal, hjournal, hterminal]

/-! ### Checkpoints -/

/-- The attempt with a checkpoint of its promotion. -/
def checkedIn (stage detail : String) (attempt : ImplementationSandboxAttempt) :
    ImplementationSandboxAttempt :=
  let attempt := attempt.onPromotion fun promotion =>
    { promotion with checkpoints := appended promotion.checkpoints stage detail }
  { attempt with checkpoints := appended attempt.checkpoints ("PROMOTION_" ++ stage) detail }

/-- The attempt with a checkpoint of its journal. -/
def journaled (stage detail : String) (attempt : ImplementationSandboxAttempt) :
    ImplementationSandboxAttempt :=
  attempt.onJournal fun journal => { journal with
    stage := if stage ∈ unstagedCheckpoints then journal.stage else stage
    checkpoints := appended journal.checkpoints stage detail }

theorem journal_onPromotion (attempt : ImplementationSandboxAttempt)
    {f : SandboxPromotionRecord → SandboxPromotionRecord}
    (hf : ∀ promotion, (f promotion).mutationJournal = promotion.mutationJournal) :
    (attempt.onPromotion f).journal = attempt.journal := by
  cases hp : attempt.promotion <;>
    simp [ImplementationSandboxAttempt.journal, ImplementationSandboxAttempt.onPromotion, hp, hf]

theorem journal_onJournal (attempt : ImplementationSandboxAttempt)
    (f : SandboxMutationJournal → SandboxMutationJournal) :
    (attempt.onJournal f).journal = attempt.journal.map f := by
  cases hp : attempt.promotion <;>
    simp [ImplementationSandboxAttempt.journal, ImplementationSandboxAttempt.onJournal,
      ImplementationSandboxAttempt.onPromotion, hp]

theorem journal_checkedIn (stage detail : String) (attempt : ImplementationSandboxAttempt) :
    (checkedIn stage detail attempt).journal = attempt.journal :=
  journal_onPromotion attempt fun _ => rfl

theorem terminal_journaled {stage detail : String} {attempt : ImplementationSandboxAttempt}
    (h : Terminal attempt) : Terminal (journaled stage detail attempt) := by
  obtain ⟨journal, hjournal, hterminal⟩ := h
  unfold Terminal journaled
  rw [journal_onJournal, hjournal]
  exact ⟨_, rfl, hterminal⟩

theorem terminal_checkedIn {stage detail : String} {attempt : ImplementationSandboxAttempt}
    (h : Terminal attempt) : Terminal (checkedIn stage detail attempt) := by
  unfold Terminal
  rw [journal_checkedIn]
  exact h

theorem wp_promotionCheckpoint {S : Type} {T : OpSpec Op Reply S} {s : S} {stage detail : String}
    {Q : Except PyError Unit → Locals → S → Prop}
    (hopen : l.attempt.promotion ≠ none →
      T.holds (.saveImplementationSandbox (checkedIn stage detail l.attempt)) s fun _ s' =>
        Q (.ok ()) { l with attempt := checkedIn stage detail l.attempt } s')
    (hclosed : ∀ e, Q (.error e) l s) : (promotionCheckpoint stage detail).wp T Q l s := by
  unfold promotionCheckpoint
  rw [Act.wp_bind, wp_currentAttempt, Act.onOk_ok]
  exact Act.wp_check hopen fun _ => hclosed _

theorem wp_journalCheckpoint {S : Type} {T : OpSpec Op Reply S} {s : S} {stage detail : String}
    {Q : Except PyError Unit → Locals → S → Prop}
    (hopen : l.attempt.journal ≠ none →
      T.holds (.saveImplementationSandbox (journaled stage detail l.attempt)) s fun _ s' =>
        Q (.ok ()) { l with attempt := journaled stage detail l.attempt } s')
    (hclosed : ∀ e, Q (.error e) l s) : (journalCheckpoint stage detail).wp T Q l s := by
  unfold journalCheckpoint
  rw [Act.wp_bind, wp_currentAttempt, Act.onOk_ok]
  exact Act.wp_check hopen fun _ => hclosed _

/-! ### The blocks -/

/-- A block that keeps the identifier, with what holds if it returns. -/
abbrev Returns (A : String) (P : α → Locals → World → Prop) (r : Except PyError α) (l : Locals)
    (world : World) : Prop :=
  HasId A l ∧ ∀ a, r = .ok a → P a l world

theorem wp_hasId {x : PromotionAct α} (hx : Act.Confined (fun _ => True) (HasId A) x)
    (hl : HasId A l) : x.wp (freely host) (fun _ l' _ => HasId A l') l world := by
  have hkeeps : Act.Keeps (freely host) (fun l _ => HasId A l ∧ True) x :=
    Act.Confined.keeps hx fun _ _ _ _ => ⟨trivial, trivial⟩
  exact Act.wp_mono (hkeeps l world ⟨hl, trivial⟩) fun _ _ _ h => h.1

theorem wp_then {P : β → Locals → World → Prop} {x : PromotionAct α} {f : α → PromotionAct β}
    (hx : Act.Confined (fun _ => True) (HasId A) x) (hl : HasId A l)
    (hf : ∀ a l' world', HasId A l' → (f a).wp (freely host) (Returns A P) l' world') :
    (x >>= f).wp (freely host) (Returns A P) l world := by
  refine Act.wp_seq (wp_hasId hx hl) (fun a l' w' h => hf a l' w' h) ?_
  exact fun e l' w' h => ⟨h, fun a ha => by cases ha⟩

/-- The last steps of a promotion that has been validated. -/
theorem ends_committed (hl : HasId A l) (applied : String) :
    (do
      updatePromotion fun promotion => { promotion with
        status := "PROMOTED", finalManifestSha256 := some applied }
      updateAttempt fun attempt => { attempt with status := "PROMOTED" }
      updateJournal fun journal => { journal with
        stage := "PROMOTED"
        validationState := "PASSED"
        finalManifestSha256 := some applied
        recoveryRequired := false
        terminal := true }
      journalCheckpoint "PROMOTED" "Journal reached verified promoted terminal state."
      promotionCheckpoint "PROMOTED"
        "Promotion completed; graph reconciliation remains pending.").wp (freely host)
      (Returns A fun _ l _ => l.attempt.status = "PROMOTED" ∧ Terminal l.attempt) l world := by
  refine Act.wp_set (Act.wp_set (Act.wp_set ?_))
  rw [Act.wp_bind]
  refine wp_journalCheckpoint (fun hopen => ⟨trivial, ?_⟩) fun e => ⟨hl, fun _ h => by cases h⟩
  rw [Act.onOk_ok]
  refine wp_promotionCheckpoint (fun _ => ⟨trivial, hl, fun _ _ => ⟨rfl, ?_⟩⟩) fun e =>
    ⟨hl, fun _ h => by cases h⟩
  refine terminal_checkedIn (terminal_journaled ?_)
  rw [journal_onJournal] at hopen
  obtain ⟨journal, hjournal⟩ := Option.ne_none_iff_exists'.mp hopen
  obtain ⟨before, -, rfl⟩ := Option.map_eq_some_iff.mp hjournal
  exact ⟨_, (journal_onJournal _ _).trans hjournal, rfl⟩

seal Act.wp in
theorem ends_validateApplied (hl : HasId A l) (p : Promotion) (commands : List (List String)) :
    (validateApplied host p commands).wp (freely host)
      (Returns A fun _ l _ => l.attempt.status = "PROMOTED" ∧ Terminal l.attempt) l world := by
  have F : Frame (fun _ => True) (HasId A) KeepsId := frame_hasId
  refine wp_then (F.looking (looks_currentManifest host _ _)) hl fun applied l w hl => ?_
  refine wp_then (F.updateAttempt (by intro; rfl)) hl fun _ l w hl => ?_
  refine wp_then (F.updateAttempt (by intro; rfl)) hl fun _ l w hl => ?_
  refine wp_then (F.progress.promotionCheckpoint _ _) hl fun _ l w hl => ?_
  refine wp_then (F.looking (looks_injectFault _)) hl fun _ l w hl => ?_
  refine wp_then (F.updateAttempt (by intro; rfl)) hl fun _ l w hl => ?_
  refine wp_then (F.progress.journalCheckpoint _ _) hl fun _ l w hl => ?_
  refine wp_then (Act.keeps_forM fun command _ => F.validateOnce host _ _ _ command) hl
    fun _ l w hl => ?_
  refine wp_then (F.looking (looks_currentManifest host _ _)) hl fun current l w hl => ?_
  refine wp_then F.currentAttempt hl fun attempt l w hl => ?_
  refine wp_then (Act.keeps_require _ _) hl fun _ l w hl => ?_
  exact ends_committed hl applied

/-- A body that returns has promoted the attempt. -/
theorem ends_applyPromotion (hl : HasId A l) (p : Promotion) :
    (applyPromotion host p).wp (freely host)
      (Returns A fun _ l _ => l.attempt.status = "PROMOTED" ∧ Terminal l.attempt) l world := by
  have F : Frame (fun _ => True) (HasId A) KeepsId := frame_hasId
  refine wp_then (F.prepareJournal host p) hl fun prepared l w hl => ?_
  refine wp_then (F.progress.applySources host prepared.1) hl fun _ l w hl => ?_
  exact ends_validateApplied hl p prepared.2

/-- The last steps of a handled failure. -/
theorem ends_failed (hl : HasId A l) (status final detail : String) (verified : Bool) :
    (do
      updateAttempt fun attempt => { attempt with status := status }
      let reason := (← currentAttempt).promotion.bind (·.failureReason)
      updateJournal fun journal => { journal with
        stage := status
        finalManifestSha256 := some final
        rollbackState := if verified then "VERIFIED" else "FAILED"
        recoveryRequired := !verified
        terminal := verified
        failureReason := reason }
      promotionCheckpoint status detail).wp (freely host)
      (Returns A fun _ l _ => l.attempt.status = status) l world := by
  refine Act.wp_set ?_
  rw [Act.wp_bind, wp_currentAttempt, Act.onOk_ok]
  refine Act.wp_set ?_
  exact wp_promotionCheckpoint (fun _ => ⟨trivial, hl, fun _ _ => rfl⟩) fun e =>
    ⟨hl, fun _ h => by cases h⟩

theorem failureStatus_ne (applied verified : Bool) : failureStatus applied verified ≠ "PROMOTED" := by
  cases applied <;> cases verified <;> simp [failureStatus]

/-- A handled failure leaves a status of its own. -/
theorem ends_rollBackPromotion (hl : HasId A l) (p : Promotion) (e : PyError) :
    (rollBackPromotion host p e).wp (freely host) (Returns A fun _ l _ =>
      ∃ applied verified, l.attempt.status = failureStatus applied verified) l world := by
  have F : Frame (fun _ => True) (HasId A) KeepsId := frame_hasId
  refine wp_then (F.updateAttempt (by intro; rfl)) hl fun _ l w hl => ?_
  refine wp_then (F.progress.undoPromotion host p) hl fun verified l w hl => ?_
  refine wp_then (F.looking (looks_currentManifest host _ _)) hl fun final l w hl => ?_
  refine wp_then Act.keeps_get hl fun locals l w hl => ?_
  refine wp_then (F.updateAttempt (by intro; rfl)) hl fun _ l w hl => ?_
  refine Act.wp_mono (ends_failed hl _ final _ verified) fun r l w h => ⟨h.1, fun a ha => ?_⟩
  exact ⟨_, _, h.2 a ha⟩

theorem ended_checkedIn {stage detail : String} {attempt : ImplementationSandboxAttempt}
    (h : Ended attempt) : Ended (checkedIn stage detail attempt) :=
  fun hpromoted => terminal_checkedIn (h hpromoted)

/-- The attempt in memory is the one that is stored. -/
def Stored (A : String) (l : Locals) (world : World) : Prop := rows A world.store = [l.attempt]

theorem rows_saved (hl : HasId A l) (store : Store) :
    rows A (store.saveImplementationSandbox l.attempt) = [l.attempt] := by
  rw [rows_save]
  exact if_pos hl

/-- A first step that leaves the attempt in memory. -/
theorem wp_after_unchanged {P : β → Locals → World → Prop} {x : PromotionAct α}
    {f : α → PromotionAct β} (hl : HasId A l)
    (hx : x.wp (freely host) (fun _ l' _ => l' = l) l world)
    (hf : ∀ a world', (f a).wp (freely host) (Returns A P) l world') :
    (x >>= f).wp (freely host) (Returns A P) l world := by
  refine Act.wp_seq hx (fun a l' w h => ?_) fun e l' w h => ?_
  · rw [h]
    exact hf a w
  · rw [h]
    exact ⟨hl, fun _ h => by cases h⟩

/-- The end of a promotion stores the attempt as it is returned. -/
theorem stored_closePromotion (hl : HasId A l) (hended : Ended l.attempt) (p : Promotion) :
    (closePromotion p).wp (freely host)
      (Returns A fun _ l world => Ended l.attempt ∧ Stored A l world) l world := by
  refine wp_after_unchanged hl ⟨trivial, rfl⟩ fun _ w => ?_
  refine wp_after_unchanged hl ⟨trivial, rfl⟩ fun lease w => ?_
  rw [Act.wp_bind]
  refine wp_promotionCheckpoint (fun _ => ⟨trivial, ?_⟩) fun e => ⟨hl, fun _ h => by cases h⟩
  rw [Act.onOk_ok]
  exact ⟨trivial, trivial, hl, fun _ _ => ⟨ended_checkedIn hended,
    rows_saved (l := ⟨checkedIn _ _ l.attempt, _, _⟩) hl _⟩⟩

theorem ends_body (hl : HasId A l) (p : Promotion) :
    (Act.onError (applyPromotion host p) PyError.isException (rollBackPromotion host p)).wp
      (freely host) (Returns A fun _ l _ => Ended l.attempt) l world := by
  refine Act.wp_onError (ends_applyPromotion hl p) ?_ ?_ ?_
  · exact fun a _ _ h => ⟨h.1, fun _ _ _ => (h.2 a rfl).2⟩
  · refine fun e _ _ h _ => Act.wp_mono (ends_rollBackPromotion h.1 p e) fun r l w h => ?_
    refine ⟨h.1, fun a ha hpromoted => ?_⟩
    obtain ⟨applied, verified, hstatus⟩ := h.2 a ha
    exact absurd (hstatus.symm.trans hpromoted) (failureStatus_ne applied verified)
  · exact fun e _ _ h _ => ⟨h.1, fun a ha => by cases ha⟩

/-- What a promotion returns is stored, and its journal is terminal if it is
promoted. -/
theorem stored_promoteAttempt (hl : HasId A l) (ticket : ProjectTicket) :
    (promoteAttempt host ticket).wp (freely host)
      (Returns A fun attempt _ world => Ended attempt ∧ rows A world.store = [attempt]) l world := by
  have F : Frame (fun _ => True) (HasId A) KeepsId := frame_hasId
  refine wp_then (F.standing.promotionGate host) hl fun passed l w hl => ?_
  refine wp_then (F.openPromotion (fun _ _ => trivial) ticket passed.1 passed.2 _) hl
    fun p l w hl => ?_
  have hclosed : ((Act.onError (applyPromotion host p) PyError.isException
      (rollBackPromotion host p)).andFinally (closePromotion p)).wp (freely host)
        (Returns A fun _ l world => Ended l.attempt ∧ Stored A l world) l w := by
    refine Act.wp_andFinally (ends_body hl p) fun r l w h => ?_
    cases r with
    | error e =>
      have hclose := F.closePromotion (fun _ _ => trivial) (fun _ => trivial) p
      refine Act.wp_mono (wp_hasId hclose h.1) fun r' l w h => ?_
      cases r' <;> exact ⟨h, fun _ h => by cases h⟩
    | ok a =>
      refine Act.wp_mono (stored_closePromotion h.1 (h.2 a rfl) p) fun r' l w h => ?_
      cases r' with
      | error e => exact ⟨h.1, fun _ h => by cases h⟩
      | ok b => exact ⟨h.1, fun _ _ => h.2 b rfl⟩
  refine Act.wp_seq hclosed (fun a l w h => ?_) fun e l w h => ⟨h.1, fun _ h => by cases h⟩
  rw [wp_currentAttempt]
  refine ⟨h.1, fun attempt hattempt => ?_⟩
  cases hattempt
  exact h.2 a rfl

/-- **What a promotion returns**: the attempt as it is stored now, with a
terminal journal if it is promoted. -/
theorem stored_promote (host : SandboxHost) (A ticketId : String) (columns : Columns)
    (world : World) : (promote host ticketId A).wp (freely host) (fun r _ world =>
      ∀ attempt, r = .ok attempt → Ended attempt ∧ rows A world.store = [attempt]) columns world := by
  refine Act.wp_seq (R := fun _ _ _ => True) (wp_free _ world) (fun ticket l w _ => ?_)
    fun e _ _ _ _ h => by cases h
  refine wp_ask trivial (fun attempt hfound => ?_) fun e _ _ h => by cases h
  obtain ⟨-, hid⟩ := attemptOf_id hfound
  refine Act.wp_within ?_
  exact Act.wp_mono (stored_promoteAttempt (l := ⟨attempt, _, _⟩) hid ticket) fun _ _ _ h => h.2

end

/-! ## Runs -/

/-- What happens to the manager's world: a call, with the columns it starts
with, a call that is cut short, or whatever else is done to other records. -/
inductive Event where
  | complete (host : ReviewHost) (columns : Columns) (operation : Operation)
  | interrupted (host : ReviewHost) (columns : Columns) (operation : Operation) (steps : Nat)
  | elsewhere (world : World)

/-- The operation of an event. -/
def Event.operation : Event → Option Operation
  | .complete _ _ operation | .interrupted _ _ operation _ => some operation
  | .elsewhere _ => none

/-- The world after an event; what is done elsewhere leaves the attempt alone. -/
def Event.next (attemptId : String) : Event → World → World
  | .complete host columns operation, world =>
    ((operation.call host).run (perform host.toSandboxHost) columns world).2
  | .interrupted host columns operation steps, world =>
    (operation.call host columns).after (perform host.toSandboxHost) steps world
  | .elsewhere other, world =>
    if rows attemptId other.store = rows attemptId world.store then other else world

def after (attemptId : String) (events : List Event) (world : World) : World :=
  events.foldl (fun world event => event.next attemptId world) world

/-- A promotion of the attempt that returns as promoted. -/
def Event.promoted (attemptId : String) (event : Event) (world : World) : Prop :=
  ∃ host columns ticketId attempt,
    event = .complete host columns (.promote ticketId attemptId) ∧
    ((promote host.toSandboxHost ticketId attemptId).run (perform host.toSandboxHost) columns
      world).1 = .ok attempt ∧ attempt.status = "PROMOTED"

/-- A discard that finds the attempt, and not as discarded. -/
def Event.discards (attemptId : String) (event : Event) (world : World) : Prop :=
  ∃ ticketId, event.operation = some (.discard ticketId attemptId) ∧
    ∃ attempt, listed ticketId attemptId world.store = some attempt ∧ attempt.status ≠ "DISCARDED"

/-- A recovery of the attempt, whose journal is unfinished. -/
def Event.recovers (attemptId : String) (event : Event) (world : World) : Prop :=
  (∃ ticketId, event.operation = some (.recoverPromotion ticketId attemptId)) ∧
    unfinished attemptId world.store

/-- After these events a promotion of the attempt has returned as promoted, or
its journal is unfinished. -/
def Decided (attemptId : String) (events : List Event) (start : World) : Prop :=
  (∃ earlier event later, events = earlier ++ event :: later ∧
    event.promoted attemptId (after attemptId earlier start)) ∨
  unfinished attemptId (after attemptId events start).store

/-! ### One event -/

section
variable {A st : String} {pr : Option SandboxPromotionRecord} {event : Event} {world : World}

/-- The attempt is stored, once. -/
def Held (attemptId : String) (world : World) : Prop :=
  ∃ attempt, rows attemptId world.store = [attempt]

theorem held_perform (host : SandboxHost) (o : Op) (world : World) (h : Held A world) :
    Held A (perform host o world).2 := by
  by_cases hsave : ∃ attempt, o = .saveImplementationSandbox attempt
  · obtain ⟨attempt, rfl⟩ := hsave
    show ∃ attempt', rows A (world.store.saveImplementationSandbox attempt) = [attempt']
    rw [rows_save]
    by_cases hid : attempt.id = A
    · exact ⟨attempt, if_pos hid⟩
    · rw [if_neg hid]
      exact h
  · unfold Held rows
    rw [sandboxes_perform host o world fun attempt ha => hsave ⟨attempt, ha⟩]
    exact h

theorem rows_elsewhere (A : String) (other world : World) :
    rows A ((Event.elsewhere other).next A world).store = rows A world.store := by
  simp only [Event.next]
  split
  · assumption
  · rfl

theorem held_next (h : Held A world) : Held A (event.next A world) := by
  cases event with
  | complete host columns operation => exact exec_keeps (held_perform host.toSandboxHost) _ h
  | interrupted host columns operation steps =>
    exact after_keeps (held_perform host.toSandboxHost) steps _ h
  | elsewhere other =>
    unfold Held
    rw [rows_elsewhere]
    exact h

theorem held_after (events : List Event) (h : Held A world) : Held A (after A events world) := by
  induction events generalizing world with
  | nil => exact h
  | cons event events ih => exact ih (held_next h)

/-- An operation on an attempt whose promotion has begun. -/
theorem stands_call (host : ReviewHost) (columns : Columns) (operation : Operation) (hpr : pr ≠ none)
    (h : Stands A st pr world.store)
    (hdiscard : ∀ ticketId attempt, operation = .discard ticketId A →
      listed ticketId A world.store = some attempt → attempt.status = "DISCARDED")
    (hrecover : ∀ ticketId, operation = .recoverPromotion ticketId A →
      ((pr.bind (·.mutationJournal)).filter (!·.terminal)) = none) :
    (operation.call host).wp (standing host.toSandboxHost A st pr)
      (fun _ _ world' => Stands A st pr world'.store) columns world := by
  cases operation with
  | discard ticketId attemptId =>
    refine stands_discard h (fun hA attempt hlisted => ?_) columns
    subst hA
    exact hdiscard ticketId attempt rfl hlisted
  | satisfyValidation ticketId attemptId decisionId actor detail governanceDecision =>
    exact stands_satisfyValidation host hpr h columns ticketId attemptId decisionId actor detail
      governanceDecision
  | runValidationWorker ticketId attemptId decisionId workerId =>
    exact stands_runValidationWorker host hpr h columns ticketId attemptId decisionId workerId
  | importExternalValidationReport ticketId attemptId decisionId actor req =>
    exact stands_importExternalValidationReport host hpr h columns ticketId attemptId decisionId
      actor req
  | approvePromotion ticketId attemptId actor reason decision =>
    exact stands_approvePromotion host.toSandboxHost hpr h columns ticketId attemptId actor reason
      decision
  | promote ticketId attemptId =>
    exact stands_promote host.toSandboxHost hpr h columns ticketId attemptId
  | recoverPromotion ticketId attemptId =>
    refine stands_recoverPromotion host.toSandboxHost columns ticketId attemptId (fun hA => ?_) h
    subst hA
    exact hrecover ticketId rfl

/-- The step lemma: an event that does not discard the attempt, nor recovers it
from an unfinished journal, leaves its status and its promotion. -/
theorem stands_next (hpr : pr ≠ none) (h : Stands A st pr world.store)
    (hdiscards : ¬event.discards A world) (hrecovers : ¬event.recovers A world) :
    Stands A st pr (event.next A world).store := by
  have hdiscard : ∀ operation, event.operation = some operation → ∀ ticketId attempt,
      operation = .discard ticketId A → listed ticketId A world.store = some attempt →
        attempt.status = "DISCARDED" := by
    intro operation hoperation ticketId attempt hop hlisted
    by_contra hstatus
    exact hdiscards ⟨ticketId, hop ▸ hoperation, attempt, hlisted, hstatus⟩
  have hrecover : ∀ operation, event.operation = some operation → ∀ ticketId,
      operation = .recoverPromotion ticketId A →
        ((pr.bind (·.mutationJournal)).filter (!·.terminal)) = none := by
    intro operation hoperation ticketId hop
    by_contra hjournal
    obtain ⟨attempt, hrows, -, rfl⟩ := h
    exact hrecovers ⟨⟨ticketId, hop ▸ hoperation⟩, attempt, by simp [hrows], hjournal⟩
  cases event with
  | complete host columns operation =>
    exact wp_exec (stands_call host columns operation hpr h (hdiscard operation rfl)
      (hrecover operation rfl))
  | interrupted host columns operation steps =>
    obtain ⟨_, hstands⟩ | ⟨_, hstands⟩ := wp_after (stands_call host columns operation hpr h
      (hdiscard operation rfl) (hrecover operation rfl)) steps
    · exact hstands
    · exact hstands
  | elsewhere other =>
    unfold Stands
    rw [rows_elsewhere]
    exact h

/-- The promotion of the stored attempt has begun and has left nothing to recover. -/
def Concluded (attemptId : String) (world : World) : Prop :=
  ∃ attempt, rows attemptId world.store = [attempt] ∧ attempt.promotion ≠ none ∧
    attempt.unfinishedJournal = none

theorem concluded_of_promoted (h : event.promoted A world) : Concluded A (event.next A world) := by
  obtain ⟨host, columns, ticketId, attempt, rfl, hreturned, hstatus⟩ := h
  obtain ⟨hended, hrows⟩ := Act.wp_run (stored_promote host.toSandboxHost A ticketId columns world)
    attempt hreturned
  obtain ⟨hpromotion, hfinished⟩ := (hended hstatus).finished
  exact ⟨attempt, hrows, hpromotion, hfinished⟩

theorem Concluded.not_unfinished (h : Concluded A world) : ¬unfinished A world.store := by
  obtain ⟨attempt, hrows, -, hfinished⟩ := h
  rintro ⟨other, hmem, hother⟩
  rw [hrows, List.mem_singleton] at hmem
  subst hmem
  exact hother hfinished

theorem Concluded.next (h : Concluded A world) (hdiscards : ¬event.discards A world) :
    Concluded A (event.next A world) := by
  have hrecovers : ¬event.recovers A world := fun hr => h.not_unfinished hr.2
  obtain ⟨attempt, hrows, hpromotion, hfinished⟩ := h
  obtain ⟨later, hlater, -, hsame⟩ := stands_next hpromotion ⟨attempt, hrows, rfl, rfl⟩ hdiscards
    hrecovers
  refine ⟨later, hlater, by rw [hsame]; exact hpromotion, ?_⟩
  unfold ImplementationSandboxAttempt.unfinishedJournal ImplementationSandboxAttempt.journal
  rw [hsame]
  exact hfinished

end

/-! ### Whole runs -/

section
variable {A : String} {start : World} {events : List Event}

/-- No event discards an attempt that is decided. -/
def NeverDiscarded (attemptId : String) (start : World) (events : List Event) : Prop :=
  ∀ earlier event later, events = earlier ++ event :: later → Decided attemptId earlier start →
    ¬event.discards attemptId (after attemptId earlier start)

theorem NeverDiscarded.of_append (later : List Event)
    (h : NeverDiscarded A start (events ++ later)) : NeverDiscarded A start events :=
  fun earlier event rest hevents => h earlier event (rest ++ later) (by simp [hevents])

theorem after_concat (A : String) (events : List Event) (event : Event) (start : World) :
    after A (events ++ [event]) start = event.next A (after A events start) :=
  List.foldl_append

/-- The run lemma: once promoted, an attempt stays concluded. -/
theorem concluded_after (h : NeverDiscarded A start events)
    (hpromoted : ∃ earlier event later, events = earlier ++ event :: later ∧
      event.promoted A (after A earlier start)) : Concluded A (after A events start) := by
  induction events using List.reverseRecOn with
  | nil =>
    obtain ⟨earlier, event, later, hevents, -⟩ := hpromoted
    simp at hevents
  | append_singleton events last ih =>
    obtain ⟨earlier, event, later, hevents, hevent⟩ := hpromoted
    rw [after_concat]
    obtain rfl | ⟨later, end', rfl⟩ := List.eq_nil_or_concat' later
    · obtain ⟨rfl, hlast⟩ := List.append_inj' hevents rfl
      cases hlast
      exact concluded_of_promoted hevent
    · have hsplit : events ++ [last] = (earlier ++ event :: later) ++ [end'] := by simp [hevents]
      obtain ⟨rfl, hlast⟩ := List.append_inj' hsplit rfl
      have hearlier := ih (h.of_append _) ⟨earlier, event, later, rfl, hevent⟩
      exact hearlier.next (h _ last [] rfl (Or.inl ⟨earlier, event, later, rfl, hevent⟩))

/-- **The status of a decided attempt**: in every run that never discards a
decided attempt, an event other than the recovery of an unfinished journal
leaves its status as it is. -/
theorem status_kept (A : String) (start : World) (hstart : Held A start) (events : List Event)
    (hdiscards : NeverDiscarded A start events) (earlier later : List Event) (event : Event)
    (hevents : events = earlier ++ event :: later) (hdecided : Decided A earlier start)
    (hrecovers : ¬event.recovers A (after A earlier start)) :
    status A (after A (earlier ++ [event]) start).store = status A (after A earlier start).store := by
  obtain ⟨attempt, hrows⟩ := held_after earlier hstart
  have hpromotion : attempt.promotion ≠ none := by
    rcases hdecided with hpromoted | ⟨other, hmem, hother⟩
    · obtain ⟨current, hcurrent, hbegun, -⟩ := concluded_after
        (NeverDiscarded.of_append (event :: later) (hevents ▸ hdiscards)) hpromoted
      rw [hrows] at hcurrent
      cases hcurrent
      exact hbegun
    · rw [hrows, List.mem_singleton] at hmem
      subst hmem
      intro hnone
      simp [ImplementationSandboxAttempt.unfinishedJournal, ImplementationSandboxAttempt.journal,
        hnone] at hother
  obtain ⟨next, hnext, hstatus, -⟩ := stands_next hpromotion ⟨attempt, hrows, rfl, rfl⟩
    (hdiscards earlier event later hevents hdecided) hrecovers
  rw [after_concat]
  unfold status
  rw [hrows, hnext]
  simp [hstatus]

end

/-! ## A rollback that could not be verified -/

/-- A host without commands and without faults. -/
def quietHost : ReviewHost where
  text := ⟨id, id, id⟩
  resolve := id
  commonPath := fun _ _ => none
  sha256 := fun bytes => s!"digest of {bytes.length} bytes"
  resolve_idem := fun _ => rfl
  isoformat := toString
  join := fun root path => root ++ "/" ++ path
  isAbsolute := fun _ => false
  parts := fun path => [path]
  isRelativeTo := fun _ _ => true
  b64decode := fun _ => none
  executable := "python"
  validationTimeout := 60000000
  execute := fun _ _ _ files => (.ok 0, files)
  replaceFault := fun _ => none
  faultInjector := fun _ _ => none
  perfCounter := fun _ => 0
  elapsed := fun _ => 1
  newId := toString
  validationWorkers := []
  validationRunner := fun _ _ _ mirror => (.error (.os "no runner"), mirror)
  maxExternalReportBytes := 2000000

/-- The journal of a promotion whose rollback failed. -/
def openJournal : SandboxMutationJournal where
  id := "journal"
  ticketId := "ticket"
  attemptId := "attempt"
  promotionId := "promotion"
  approvalId := "approval"
  projectId := "project"
  projectRoot := "root"
  authorizedPaths := ["main.py"]
  initialManifestSha256 := "initial"
  approvedManifestSha256 := "initial"
  leaseId := "lease"
  leaseHolderId := "sandbox-promotion:attempt"
  fencingToken := 1
  stage := "ROLLBACK_FAILED"
  entries := []
  validationCommands := []
  rollbackState := "FAILED"

def unrestoredAttempt : ImplementationSandboxAttempt where
  id := "attempt"
  ticketId := "ticket"
  projectId := "project"
  projectRoot := "root"
  status := "ROLLBACK_FAILED"
  authorizedPaths := ["main.py"]
  changes := []
  validations := []
  validationDecisions := []
  promotion := some {
    id := "promotion"
    projectId := "project"
    projectRoot := "root"
    approvalId := "approval"
    status := "ROLLBACK_FAILED"
    initialManifestSha256 := "initial"
    leaseId := "lease"
    fencingToken := 1
    mutationJournal := some openJournal }
  initialManifestSha256 := "initial"

def reviewProject : ProjectRecord where
  id := "project"
  root := "root"
  explicitlySelected := true
  readOnly := true

theorem one_approval : 1 ≤ 1 := le_rfl

def reviewPolicy : ProjectGovernancePolicy where
  id := "policy"
  projectId := "project"
  projectRoot := "root"
  terms := { approvalRules := [
    { id := "PLAN-APPROVAL", action := "PLAN", positive := one_approval },
    { id := "PROMOTION-APPROVAL", action := "PROMOTION", positive := one_approval },
    { id := "VALIDATION-ATTESTATION", action := "ATTESTATION", positive := one_approval }] }

def reviewTicket : Governance.Tickets.ProjectTicket where
  id := "ticket"
  projectId := "project"
  projectRoot := "root"
  budget := {}
  usage := ⟨0, 0, 0, 0, 0⟩

def unrestored : World where
  store := {
    projects := [reviewProject]
    policies := fun _ => some reviewPolicy
    sandboxes := [unrestoredAttempt]
    tickets := [reviewTicket]
    ticketEvents := []
    projectFiles := fun _ => ["main.py"] }
  leases := fun _ => none
  files := fun _ => none
  clock := 0
  tick := 0
  settled := fun _ => none

def discarding : Event :=
  .complete quietHost (fun _ => {}) (.discard "ticket" "attempt")

theorem unrestored_unfinished : unfinished "attempt" unrestored.store :=
  ⟨unrestoredAttempt, by simp [rows, unrestored, unrestoredAttempt], by
    simp [ImplementationSandboxAttempt.unfinishedJournal, ImplementationSandboxAttempt.journal,
      unrestoredAttempt, openJournal]⟩

/-- An attempt that waits for its recovery is discarded. -/
theorem discarded_before_recovery :
    ¬∀ (A : String) (start : World) (earlier : List Event) (event : Event), Held A start →
      Decided A earlier start → ¬event.recovers A (after A earlier start) →
        status A (after A (earlier ++ [event]) start).store =
          status A (after A earlier start).store := by
  intro hkept
  have hsame := hkept "attempt" unrestored [] discarding ⟨unrestoredAttempt, rfl⟩
    (Or.inr unrestored_unfinished) (fun h => by simp [discarding, Event.recovers, Event.operation] at h)
  have hbefore : status "attempt" unrestored.store = some "ROLLBACK_FAILED" := rfl
  have hafter : status "attempt" (discarding.next "attempt" unrestored).store = some "DISCARDED" := rfl
  rw [after_concat] at hsame
  change status "attempt" (discarding.next "attempt" unrestored).store =
    status "attempt" unrestored.store at hsame
  rw [hbefore, hafter] at hsame
  simp at hsame

def approving : Event :=
  .complete quietHost (fun _ => {})
    (.approvePromotion "ticket" "attempt" "reviewer" "ready" "APPROVED")

/-- The unrestored attempt is found and cannot be approved again. -/
theorem approval_refused :
    (((Operation.approvePromotion "ticket" "attempt" "reviewer" "ready" "APPROVED").call
      quietHost).run (perform quietHost.toSandboxHost) (fun _ => {}) unrestored).1 =
      .error (.value "Only an unpromoted reviewable sandbox can receive a promotion decision.") ∧
    status "attempt" (after "attempt" [approving] unrestored).store =
      status "attempt" (after "attempt" [] unrestored).store :=
  ⟨rfl, status_kept "attempt" unrestored ⟨unrestoredAttempt, rfl⟩ [approving]
    (fun earlier event later hevents _ hdiscards => by
      obtain ⟨ticketId, hop, -⟩ := hdiscards
      obtain ⟨rfl, hevents⟩ | ⟨rest, rfl, hrest⟩ := List.append_eq_cons_iff.mp hevents.symm
      · cases hevents
        simp [approving, Event.operation] at hop
      · simp at hrest)
    [] [] approving rfl (Or.inr unrestored_unfinished)
    (fun h => by simp [approving, Event.recovers, Event.operation] at h)⟩

end RlmGraph.Sandbox.Lifecycle
