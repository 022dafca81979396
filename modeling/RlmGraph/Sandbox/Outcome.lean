import RlmGraph.Sandbox.Lifecycle

/-! # What a promotion returns

A promotion that passes its gate runs its body under a lease. If the body
returns, the attempt is promoted; if it raises, the handler gives the attempt
one of three statuses of a failure. The last block changes neither. -/
namespace RlmGraph.Sandbox.Outcome
open RlmGraph.Lib RlmGraph.Lib.Programs
open RlmGraph.Governance.Tickets (ProjectTicket)
open RlmGraph.Sandbox.Records RlmGraph.Sandbox.Operations RlmGraph.Sandbox.Promote
open RlmGraph.Sandbox.Confinement RlmGraph.Sandbox.Standing RlmGraph.Sandbox.Lifecycle

/-- A promotion up to the end of its body, with what the body comes to. -/
def trialAttempt (host : SandboxHost) (ticket : ProjectTicket) : PromotionAct (Except PyError Unit) := do
  let (approval, project) ← promotionGate host
  let p ← openPromotion ticket approval project (host.resolve project.root)
  (applyPromotion host p).captured

def trial {L : Type} (host : SandboxHost) (ticketId attemptId : String) :
    SandboxAct L (Except PyError Unit) := do
  let ticket ← checkBudget host ticketId
  let attempt ← ask (attemptOf host ticketId attemptId)
  (trialAttempt host ticket).within { attempt }

/-- The promotion passes its gate, but its files cannot be replaced and
validated. -/
def Fails (host : SandboxHost) (ticketId attemptId : String) (world : World) : Prop :=
  ∃ e, ((trial host ticketId attemptId).run (perform host) () world).1 = .ok (.error e)

/-- The status of a returned attempt, for what the body came to. -/
def Concluded (body : Except PyError Unit) (attempt : ImplementationSandboxAttempt) : Prop :=
  match body with
  | .ok _ => attempt.status = "PROMOTED"
  | .error _ => ∃ applied verified, attempt.status = failureStatus applied verified

theorem Concluded.same {body : Except PyError Unit} {attempt attempt' : ImplementationSandboxAttempt}
    (h : Concluded body attempt) (hstatus : attempt'.status = attempt.status) :
    Concluded body attempt' := by
  cases body with
  | ok _ => exact hstatus.trans h
  | error e =>
    obtain ⟨applied, verified, hfailed⟩ := h
    exact ⟨applied, verified, hstatus.trans hfailed⟩

section
variable {A : String} {host : SandboxHost} {world world' : World} {l l' : Locals}

/-- The last block keeps the status. -/
theorem status_closePromotion (hl : HasId A l) (p : Promotion) :
    (closePromotion p).wp (freely host)
      (Returns A fun _ l' _ => l'.attempt.status = l.attempt.status) l world := by
  refine wp_after_unchanged hl ⟨trivial, rfl⟩ fun _ w => ?_
  refine wp_after_unchanged hl ⟨trivial, rfl⟩ fun lease w => ?_
  rw [Act.wp_bind]
  refine wp_promotionCheckpoint (fun _ => ⟨trivial, ?_⟩) fun e => ⟨hl, fun _ h => by cases h⟩
  rw [Act.onOk_ok]
  exact ⟨trivial, trivial, hl, fun _ _ => rfl⟩

/-- The body with its handler. -/
theorem concluded_body (hl : HasId A l) (p : Promotion) :
    (Act.onError (applyPromotion host p) PyError.isException (rollBackPromotion host p)).wp
      (freely host) (Returns A fun _ l' _ =>
        Concluded ((applyPromotion host p l).exec (perform host) world).1.1 l'.attempt) l world := by
  refine Act.wp_onError (Act.wp_exact (ends_applyPromotion hl p)) ?_ ?_ ?_
  · rintro a l' w' ⟨hreturns, hexec⟩
    refine ⟨hreturns.1, fun _ _ => ?_⟩
    rw [hexec]
    exact (hreturns.2 a rfl).1
  · rintro e l' w' ⟨hreturns, hexec⟩ -
    rw [hexec]
    exact ends_rollBackPromotion hreturns.1 p e
  · rintro e l' w' ⟨hreturns, hexec⟩ -
    exact ⟨hreturns.1, fun _ h => by cases h⟩

theorem concluded_promoteAttempt (hl : HasId A l) (ticket : ProjectTicket) :
    (promoteAttempt host ticket).wp (freely host) (fun r _ _ => ∀ attempt, r = .ok attempt →
      ∃ body, ((trialAttempt host ticket l).exec (perform host) world).1.1 = .ok body ∧
        Concluded body attempt) l world := by
  have F : Frame (fun _ => True) (HasId A) KeepsId := frame_hasId
  refine Act.wp_seq (Act.wp_exact (wp_hasId (F.standing.promotionGate host) hl)) ?_
    fun e _ _ _ _ h => by cases h
  rintro ⟨approval, project⟩ l₁ w₁ ⟨hl₁, hgate⟩
  refine Act.wp_seq (Act.wp_exact (wp_hasId (F.openPromotion (fun _ _ => trivial) ticket approval project
    (host.resolve project.root)) hl₁)) ?_ fun e _ _ _ _ h => by cases h
  rintro p l₂ w₂ ⟨hl₂, hopen⟩
  have htrial : ((trialAttempt host ticket l).exec (perform host) world).1.1 =
      .ok ((applyPromotion host p l₂).exec (perform host) w₂).1.1 := by
    unfold trialAttempt
    rw [Act.exec_bind hgate]
    change ((openPromotion ticket approval project (host.resolve project.root) >>= fun p =>
      (applyPromotion host p).captured) l₁ |>.exec (perform host) w₁).1.1 = _
    rw [Act.exec_bind hopen, Act.exec_captured]
  have hclosed : ((Act.onError (applyPromotion host p) PyError.isException
      (rollBackPromotion host p)).andFinally (closePromotion p)).wp (freely host)
        (Returns A fun _ l _ =>
          Concluded ((applyPromotion host p l₂).exec (perform host) w₂).1.1 l.attempt) l₂ w₂ := by
    refine Act.wp_andFinally (concluded_body hl₂ p) fun r l w h => ?_
    refine Act.wp_mono (status_closePromotion h.1 p) fun r' l' w' h' => ?_
    cases r' with
    | error e => exact ⟨h'.1, fun _ h => by cases h⟩
    | ok _ => exact ⟨h'.1, fun a ha => (h.2 a ha).same (h'.2 () rfl)⟩
  refine Act.wp_seq hclosed (fun a l w h => ?_) fun e l w _ _ h => by cases h
  rw [wp_currentAttempt]
  intro attempt hattempt
  cases hattempt
  exact ⟨_, htrial, h.2 a rfl⟩

end

/-- **What a promotion returns**: a promoted attempt if its body returns, and
one with a status of a failure if its body raises. -/
theorem concluded_promote {host : SandboxHost} {ticketId attemptId : String} {world : World}
    {attempt : ImplementationSandboxAttempt}
    (h : ((promote host ticketId attemptId).run (perform host) () world).1 = .ok attempt) :
    ∃ body, ((trial host ticketId attemptId).run (perform host) () world).1 = .ok body ∧
      Concluded body attempt := by
  have hpromote : (promote host ticketId attemptId).wp (freely host) (fun r _ _ =>
      ∀ attempt, r = .ok attempt →
        ∃ body, ((trial host ticketId attemptId ()).exec (perform host) world).1.1 = .ok body ∧
          Concluded body attempt) () world := by
    refine Act.wp_seq (Act.wp_exact (Act.wp_free (checkBudget host ticketId) () world)) ?_
      fun e _ _ _ _ h => by cases h
    rintro ticket u₁ w₁ ⟨-, hticket⟩
    refine Act.wp_seq (Act.wp_exact (Act.wp_free (ask (attemptOf host ticketId attemptId)) u₁ w₁)) ?_
      fun e _ _ _ _ h => by cases h
    rintro found u₂ w₂ ⟨-, hfound⟩
    have hid : HasId found.id { attempt := found } := rfl
    refine Act.wp_within (Act.wp_mono (concluded_promoteAttempt hid ticket) fun r _ _ h a ha => ?_)
    obtain ⟨body, hbody, hconcluded⟩ := h a ha
    refine ⟨body, ?_, hconcluded⟩
    unfold trial
    rw [Act.exec_bind hticket, Act.exec_bind hfound, Act.exec_within]
    exact hbody
  exact Act.wp_run hpromote attempt h

end RlmGraph.Sandbox.Outcome
