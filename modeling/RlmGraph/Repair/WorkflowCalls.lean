import RlmGraph.Repair.PromotionCalls

/-! # What the workflow writes

A workflow is stored wherever its call raises, and each status that it takes is
justified by the rows of that moment: it waits with nothing decided, and ends as
its decision and its promotion did. What a call returns is stored. -/
namespace RlmGraph.Repair.WorkflowCalls
open RlmGraph.Lib RlmGraph.Lib.Programs RlmGraph.Store.Lease
open RlmGraph.Repair.Records (RepairProposal RepairValidation)
open RlmGraph.Repair.Promotion RlmGraph.Repair.Workflow RlmGraph.Repair.Bookkeeping
open RlmGraph.Repair.PromotionCalls

variable {host : WorkflowHost} {solo : Prop} {b : Book} {w : World}
  {g workflow : MaintenanceWorkflow}

/-- The rule of `assert value is not None`. -/
theorem wp_asserted {β : Type} {value : Option String} {f : String → WorkflowAct β}
    {Q : Except PyError β → Unit → World → Prop}
    (h : ∀ a, value = some a → (f a).wp (lawful host solo) Q () w)
    (herror : ∀ e, Q (.error e) () w) : (asserted value >>= f).wp (lawful host solo) Q () w := by
  unfold asserted
  refine Act.wp_result (fun a ha => h a ?_) fun e _ => herror e
  cases value with
  | none => cases ha
  | some _ =>
    cases ha
    rfl

/-! ## Transitions -/

/-- What a part of a call leaves: the workflow that it returns is stored. -/
structure Stepped (host : WorkflowHost) (solo : Prop) (P : MaintenanceWorkflow → Prop)
    (r : Except PyError MaintenanceWorkflow) (w : World) : Prop where
  sound : Sound host solo (bookOf w)
  returned : ∀ f, r = .ok f → f ∈ (bookOf w).workflows ∧ P f

theorem stepped_error {P : MaintenanceWorkflow → Prop} {e : PyError} (h : Sound host solo (bookOf w)) :
    Stepped host solo P (.error e) w :=
  ⟨h, fun _ heq => by cases heq⟩

theorem stepped_ok {P : MaintenanceWorkflow → Prop} (h : Sound host solo (bookOf w))
    (hmem : workflow ∈ (bookOf w).workflows) (hP : P workflow) :
    Stepped host solo P (.ok workflow) w := by
  refine ⟨h, fun f heq => ?_⟩
  cases heq
  exact ⟨hmem, hP⟩

/-- The stored workflow that a call is about, which has not ended. -/
structure Current (b : Book) (g workflow : MaintenanceWorkflow) : Prop where
  stored : g ∈ b.workflows
  opened : terminal g.status = false
  ident : workflow.id = g.id
  signature : workflow.signature = g.signature

theorem transition_wp {P : MaintenanceWorkflow → Prop} {status : MaintenanceWorkflowStatus}
    {detail : String} {artifactIds : List String} (h : Sound host solo (bookOf w))
    (hcurrent : Current (bookOf w) g workflow)
    (hjustified : Justified (bookOf w) { workflow with
      status := status, events := workflow.events ++ [⟨status, detail, artifactIds⟩] })
    (hP : P { workflow with
      status := status, events := workflow.events ++ [⟨status, detail, artifactIds⟩] }) :
    (transition workflow status detail artifactIds).wp (lawful host solo)
      (fun r _ w' => Stepped host solo P r w') () w := by
  unfold transition
  have hsame : ∀ q ∈ (bookOf w).workflows, q.id = workflow.id → q = g := fun q hq hid =>
    List.inj_on_of_nodup_map h.workflowIds hq hcurrent.stored (hid.trans hcurrent.ident)
  have hmay : MayAdvance host (bookOf w) { workflow with
      status := status, events := workflow.events ++ [⟨status, detail, artifactIds⟩] } := by
    refine ⟨?_, hjustified, by simp, fun q hq hid => ?_, fun q hq hsignature => ?_⟩
    · exact hcurrent.ident ▸ h.drawnWorkflows g hcurrent.stored
    · obtain rfl := hsame q hq hid
      exact ⟨hcurrent.opened, hcurrent.signature.symm⟩
    · obtain rfl := List.inj_on_of_nodup_map h.signatures hq hcurrent.stored
        (hsignature.trans hcurrent.signature)
      exact hcurrent.ident.symm
  refine wp_saveWorkflow hmay (fun w' hsaved _ => ?_) fun e w' hbeside => ?_
  · refine stepped_ok ?_ ?_ hP
    · rw [hsaved]
      exact h.advance hmay
    · rw [hsaved]
      exact Rows.mem_upsert.mpr (Or.inl rfl)
  · exact stepped_error (hbeside.book.symm ▸ h)

theorem pending_of (h : Sound host solo (bookOf w)) (hmem : workflow ∈ (bookOf w).workflows)
    (hstatus : workflow.status = .created ∨ workflow.status = .diagnosed ∨
      workflow.status = .waitingForApproval) : Pending workflow := by
  have hjustified := h.justified workflow hmem
  unfold Justified at hjustified
  rcases hstatus with hs | hs | hs <;> rw [hs] at hjustified
  · exact hjustified
  · exact hjustified.1
  · exact hjustified.1

theorem current_self (hmem : workflow ∈ b.workflows) (hopen : terminal workflow.status = false) :
    Current b workflow workflow :=
  ⟨hmem, hopen, rfl, rfl⟩

theorem debugged_wp (h : Sound host solo (bookOf w)) (hmem : workflow ∈ (bookOf w).workflows)
    (hstatus : workflow.status = .created) : (debugged workflow).wp (lawful host solo)
      (fun r _ w' => Stepped host solo (·.status = .diagnosed) r w') () w := by
  unfold debugged
  have hpending := pending_of h hmem (Or.inl hstatus)
  refine wp_outside (fun result w' hbook => ?_) fun e w' hbook => stepped_error (hbook ▸ h)
  rw [← hbook] at h hmem
  exact transition_wp h ⟨hmem, by rw [hstatus]; rfl, rfl, rfl⟩ ⟨hpending, rfl⟩ rfl

theorem diagnose_wp (h : Sound host solo (bookOf w)) (hmem : workflow ∈ (bookOf w).workflows)
    (hstatus : workflow.status = .created) : (diagnose workflow).wp (lawful host solo)
      (fun r _ w' => Stepped host solo (·.status = .diagnosed) r w') () w := by
  unfold diagnose
  have hpending := pending_of h hmem (Or.inl hstatus)
  refine wp_store ?_
  dsimp only
  split
  · exact debugged_wp h hmem hstatus
  · next task _ =>
    refine wp_store ?_
    split
    · exact transition_wp h ⟨hmem, by rw [hstatus]; rfl, rfl, rfl⟩ ⟨hpending, rfl⟩ rfl
    · exact debugged_wp h hmem hstatus

/-- How a workflow stands when its repair has been tried. -/
def Tried (f : MaintenanceWorkflow) : Prop := f.status = .failed ∨ f.status = .waitingForApproval

theorem concludeRepair_wp {proposal : RepairProposal} {validation : RepairValidation}
    (h : Sound host solo (bookOf w)) (hcurrent : Current (bookOf w) g workflow)
    (hpending : Pending workflow) :
    (concludeRepair workflow proposal validation).wp (lawful host solo)
      (fun r _ w' => Stepped host solo Tried r w') () w := by
  unfold concludeRepair
  dsimp only
  split
  · exact transition_wp h ⟨hcurrent.stored, hcurrent.opened, hcurrent.ident, hcurrent.signature⟩
      (Or.inl hpending) (Or.inl rfl)
  · exact transition_wp h ⟨hcurrent.stored, hcurrent.opened, hcurrent.ident, hcurrent.signature⟩
      ⟨hpending, rfl, rfl⟩ (Or.inr rfl)

theorem validateRepair_wp (h : Sound host solo (bookOf w)) (hmem : workflow ∈ (bookOf w).workflows)
    (hstatus : workflow.status = .diagnosed) : (validateRepair workflow).wp (lawful host solo)
      (fun r _ w' => Stepped host solo Tried r w') () w := by
  unfold validateRepair
  have hpending := pending_of h hmem (Or.inr (Or.inl hstatus))
  have hopen : terminal workflow.status = false := by rw [hstatus]; rfl
  refine wp_asserted (fun claimId _ => ?_) fun e => stepped_error h
  refine wp_store (wp_store ?_)
  dsimp only
  split
  · exact concludeRepair_wp h ⟨hmem, hopen, rfl, rfl⟩ hpending
  · refine wp_outside (fun result w' hbook => ?_) fun e w' hbook => stepped_error (hbook ▸ h)
    rw [← hbook] at h hmem
    exact concludeRepair_wp h ⟨hmem, hopen, rfl, rfl⟩ hpending

/-! ## After a decision -/

/-- A workflow that has ended with its decision. -/
def Ruled (decision : ApprovalDecision) (f : MaintenanceWorkflow) : Prop :=
  terminal f.status = true ∧ f.approvalId.isSome = true ∧
    (f.status = .rejected ↔ decision = .rejected)

theorem finishDecision_wp {proposalId : String} {result : PromotionRunResult}
    {C : ApprovalDecision → Prop} (h : Sound host solo (bookOf w)) (hmem : g ∈ (bookOf w).workflows)
    (hstatus : g.status = .waitingForApproval) (hproposal : g.proposalId = some proposalId)
    (hresult : Deciding proposalId C result (bookOf w)) :
    (finishDecision (Workflow.decided g result) result.approval.decision).wp (lawful host solo)
      (fun r _ w' => Stepped host solo (Ruled result.approval.decision) r w') () w := by
  obtain ⟨hof, -, hdecided⟩ := hresult
  obtain ⟨-, hnone⟩ := pending_of h hmem (Or.inr (Or.inr hstatus))
  have hcurrent : ∀ f : MaintenanceWorkflow, f.id = g.id → f.signature = g.signature →
      Current (bookOf w) g f := fun f hid hsignature =>
    ⟨hmem, by rw [hstatus]; rfl, hid, hsignature⟩
  unfold finishDecision Workflow.decided
  refine wp_asserted (fun approvalId _ => ?_) fun e => stepped_error h
  split
  · next hrejected =>
    refine transition_wp h (hcurrent _ rfl rfl) ⟨?_, result.approval, hdecided.stored, hrejected,
      rfl, hof ▸ hproposal⟩ ⟨rfl, rfl, by simp [hrejected]⟩
    dsimp only
    rw [hdecided.rejected hrejected]
    exact hnone
  · next hnot =>
    have happroved : result.approval.decision = .approved := approved_of_ne hnot
    obtain ⟨p, hp, hpromotion, hby, hsettled⟩ := hdecided.promoted happroved
    refine wp_store ?_
    dsimp only
    split
    · exact stepped_error h
    · next promotion hfound =>
      have hpid : promotion.id = p.id := by
        have hcond := List.find?_some hfound
        simp only [hpromotion, Option.elim_some, Bool.and_eq_true, beq_iff_eq, Option.some.injEq] at hcond
        exact hcond.2
      obtain rfl := List.inj_on_of_nodup_map h.promotionIds
        (List.mem_of_find?_eq_some hfound) hp hpid
      have hconcluded : ∀ {status} {f : MaintenanceWorkflow}, promotion.status = status →
          f.approvalId = some result.approval.id → f.proposalId = g.proposalId →
          f.promotionId = some promotion.id → Concluded (bookOf w) f status :=
        fun hs ha hpr hpm => ⟨result.approval, hdecided.stored, promotion, hp, happroved, ha,
          hpr.trans (hof ▸ hproposal), hpm, hby, hs⟩
      have hruled : ∀ f : MaintenanceWorkflow, terminal f.status = true → f.status ≠ .rejected →
          f.approvalId.isSome = true → Ruled result.approval.decision f := fun f ht hne hs =>
        ⟨ht, hs, fun heq => absurd heq hne, fun heq => by rw [happroved] at heq; cases heq⟩
      split
      · next hverified =>
        refine wp_store ?_
        split
        · exact stepped_error h
        · next current hlast =>
          have hlisted := List.mem_filter.mp (List.mem_of_getLast? hlast)
          have hfor : current.promotionId = promotion.id := by simpa using hlisted.2
          refine transition_wp h (hcurrent _ rfl rfl) ⟨hconcluded hverified rfl rfl ?_, current,
            hlisted.1, rfl, ?_⟩ (hruled _ rfl (by simp) rfl)
          · simp [hpromotion]
          · simp [hpromotion, hfor]
      · next hrolledBack =>
        refine transition_wp h (hcurrent _ rfl rfl) (hconcluded hrolledBack rfl rfl ?_)
          (hruled _ rfl (by simp) rfl)
        simp [hpromotion]
      · next hverified hrolledBack =>
        have hfailed : promotion.status = .applicationFailed := by
          rcases settled_status h hp hsettled with (hstatus | hstatus) | hstatus
          · exact absurd hstatus hrolledBack
          · exact hstatus
          · exact absurd hstatus hverified
        refine transition_wp h (hcurrent _ rfl rfl) (Or.inr (hconcluded hfailed rfl rfl ?_))
          (hruled _ rfl (by simp) rfl)
        simp [hpromotion]

/-! ## Under the lease -/

section Lease
variable {holderId : String} {token : Nat}

/-- An operation on leases writes no row. -/
theorem keeps_quiet {op : Op} (hquiet : quiet op = true) (hlegal : ∀ w, Legal host solo op w) :
    Act.Keeps (lawful host solo) (fun (_ : Unit) w => Left host solo b (bookOf w))
      (Act.perform op : WorkflowAct (Reply op)) := by
  refine Act.keeps_perform fun _ w h => ⟨hlegal w, ?_⟩
  change Left host solo b (bookOf (perform host op w).2)
  rwa [book_quiet hquiet]

theorem keeps_acquireLease : Act.Keeps (lawful host solo)
    (fun (_ : Unit) w => Left host solo b (bookOf w)) (acquireLease workflow holderId) := by
  unfold acquireLease
  refine Act.Keeps.bind (Act.keeps_perform fun _ w h => ⟨trivial, h.sound.draw, h.approvals, h.workflows⟩)
    fun newLeaseId => ?_
  exact Act.Keeps.bind (keeps_quiet rfl fun _ => trivial) fun _ => Act.keeps_ofExcept _

theorem keeps_renewLease : Act.Keeps (lawful host solo)
    (fun (_ : Unit) w => Left host solo b (bookOf w)) (renewLease workflow holderId token) := by
  unfold renewLease
  refine Act.Keeps.bind (keeps_quiet rfl fun _ => trivial) fun renewed => ?_
  exact (Act.keeps_ofExcept _).bind fun _ => Act.keeps_pure _

theorem keeps_recordLease {kind : ProjectLeaseEventKind} {detail : String} {workflowId : Option String} :
    Act.Keeps (lawful host solo) (fun (_ : Unit) w => Left host solo b (bookOf w))
      (recordLease workflow holderId token kind detail workflowId) := by
  unfold recordLease
  refine Act.Keeps.bind (keeps_quiet rfl fun _ => trivial) fun recorded => ?_
  exact (Act.keeps_ofExcept _).bind fun _ => Act.keeps_pure _

theorem keeps_recoverAbandoned : Act.Keeps (lawful host solo)
    (fun (_ : Unit) w => Left host solo b (bookOf w)) (recoverAbandoned host workflow holderId token) := by
  have hstore : Act.Keeps (lawful host solo) (fun (_ : Unit) w => Left host solo b (bookOf w))
      (store : WorkflowAct Store) := keeps_quiet rfl fun _ => trivial
  refine hstore.bind fun stored => ?_
  dsimp only
  split
  · exact Act.keeps_pure _
  · refine keeps_recordLease.bind fun _ => Act.Keeps.bind (Act.keeps_forM fun promotion _ => ?_)
      fun _ => keeps_recordLease
    refine Act.Keeps.bind (fun _ w h => ?_) fun _ => Act.keeps_pure _
    exact Act.wp_mono (resumeApproval_wp h) fun _ _ _ h' => h'.left

end Lease

/-- A decision under the lease is one: the lease adds no row, and takes none. -/
theorem underLease_wp {holderId : String} {acquisition : ProjectLeaseAcquisition}
    {body : WorkflowAct PromotionRunResult} {proposalId : String} {C : ApprovalDecision → Prop}
    (h : Left host solo b (bookOf w))
    (hbody : ∀ w', Left host solo b (bookOf w') → body.wp (lawful host solo)
      (fun r _ w'' => Taken host solo b (Deciding proposalId C) r w'') () w') :
    (underLease host workflow holderId acquisition body).wp (lawful host solo)
      (fun r _ w' => Taken host solo b (Deciding proposalId C) r w') () w := by
  unfold underLease
  refine Act.wp_andFinally (R := fun r _ w' => Taken host solo b (Deciding proposalId C) r w') ?_
    fun r _ w' hr => ?_
  · have herror : ∀ {e : PyError} {w' : World}, Left host solo b (bookOf w') →
        Taken host solo b (Deciding proposalId C) (.error e) w' := fun hleft =>
      taken_error hleft.sound hleft.workflows
    refine Act.wp_seq (Act.Keeps.when keeps_recoverAbandoned () w h) (fun _ _ w₁ h₁ => ?_)
      fun _ _ _ h₁ => herror h₁
    exact Act.wp_seq (keeps_renewLease () w₁ h₁) (fun _ _ w₂ h₂ => hbody w₂ h₂) fun _ _ _ h₂ => herror h₂
  · have hlast : (recordLease workflow holderId acquisition.lease.fencingToken .released
        "Exclusive project mutation lease released." none).wp (lawful host solo)
        (fun _ _ w'' => bookOf w'' = bookOf w') () w' := by
      refine Act.wp_op ⟨trivial, Act.wp_result (fun _ _ => ?_) fun _ _ => ?_⟩
      · exact book_quiet rfl
      · exact book_quiet rfl
    refine Act.wp_mono hlast fun r' _ w'' hbook => ?_
    have hworkflows : (bookOf w'').workflows = b.workflows := hbook ▸ hr.workflows
    cases r' with
    | error e => exact taken_error (hbook ▸ hr.sound) hworkflows
    | ok _ => exact ⟨hbook ▸ hr.sound, hworkflows, fun result heq => hbook ▸ hr.returned result heq⟩

theorem resumed_taken {approval : RepairApproval} {C : ApprovalDecision → Prop}
    {r : Except PyError PromotionRunResult} (ha : approval ∈ b.approvals) (hC : C approval.decision)
    (h : Resumed host solo b approval.id r w) :
    Taken host solo b (Deciding approval.proposalId C) r w := by
  refine ⟨h.left.sound, h.left.workflows, fun result heq => ?_⟩
  obtain ⟨hid, hdecided⟩ := h.returned result heq
  obtain rfl := List.inj_on_of_nodup_map h.left.sound.approvalIds hdecided.stored
    (h.left.approvals ▸ ha) hid
  exact ⟨rfl, hC, hdecided⟩

/-- The last of the approvals of a proposal is one of them. -/
theorem mem_approvalsOf {proposalId : String} {approval : RepairApproval}
    (h : (approvalsOf w.store proposalId).getLast? = some approval) :
    approval ∈ (bookOf w).approvals ∧ approval.proposalId = proposalId := by
  have hmem := List.mem_filter.mp (List.mem_of_getLast? h)
  exact ⟨hmem.1, by simpa using hmem.2⟩

/-- What follows a decision under the lease. -/
theorem finish_wp {proposalId : String} {result : PromotionRunResult} {C : ApprovalDecision → Prop}
    (h : Taken host solo b (Deciding proposalId C) (.ok result) w) (hmem : g ∈ b.workflows)
    (hstatus : g.status = .waitingForApproval) (hproposal : g.proposalId = some proposalId) :
    (finishDecision (Workflow.decided g result) result.approval.decision).wp (lawful host solo)
      (fun r _ w' => Stepped host solo (fun f => ∃ decision, C decision ∧ Ruled decision f) r w') () w := by
  have hdeciding := h.returned result rfl
  refine Act.wp_mono (finishDecision_wp h.sound (h.workflows ▸ hmem) hstatus hproposal hdeciding)
    fun r _ w' hstep => ⟨hstep.sound, fun f heq => ?_⟩
  obtain ⟨hstored, hruled⟩ := hstep.returned f heq
  exact ⟨hstored, _, hdeciding.2.1, hruled⟩

/-- What becomes of a workflow whose decision may have been taken before. -/
structure Recovered (host : WorkflowHost) (solo : Prop) (b : Book)
    (r : Except PyError (Option MaintenanceWorkflow)) (w : World) : Prop where
  sound : Sound host solo (bookOf w)
  untaken : r = .ok none → (bookOf w).workflows = b.workflows
  taken : ∀ f, r = .ok (some f) → f ∈ (bookOf w).workflows ∧ terminal f.status = true

theorem recovered_error {e : PyError} (h : Sound host solo (bookOf w)) :
    Recovered host solo b (.error e) w :=
  ⟨h, fun heq => (by cases heq), fun _ heq => by cases heq⟩

theorem recoverDecision_wp {holderId : String} (h : Sound host solo (bookOf w))
    (hmem : workflow ∈ (bookOf w).workflows) (hstatus : workflow.status = .waitingForApproval) :
    (recoverDecision host holderId workflow).wp (lawful host solo)
      (fun r _ w' => Recovered host solo (bookOf w) r w') () w := by
  unfold recoverDecision
  refine wp_asserted (fun proposalId hproposal => wp_store ?_) fun e => recovered_error h
  split
  · exact ⟨h, fun _ => rfl, fun _ heq => by cases heq⟩
  · next approval hlast =>
    obtain ⟨ha, rfl⟩ := mem_approvalsOf hlast
    refine Act.wp_seq (keeps_acquireLease () w (Left.refl h)) (fun acquisition _ w₁ h₁ => ?_)
      fun _ _ _ h₁ => recovered_error h₁.sound
    split
    · exact ⟨h₁.sound, fun _ => h₁.workflows, fun _ heq => by cases heq⟩
    · have hlease : (underLease host workflow holderId acquisition (resumeApproval host approval.id)).wp
          (lawful host solo) (fun r _ w' => Taken host solo (bookOf w)
            (Deciding approval.proposalId fun _ => True) r w') () w₁ :=
        underLease_wp h₁ fun w' h' =>
          Act.wp_mono (resumeApproval_wp h') fun _ _ _ hr => resumed_taken ha trivial hr
      refine Act.wp_seq hlease (fun result _ w₂ h₂ => ?_) fun _ _ _ h₂ => recovered_error h₂.sound
      refine Act.wp_seq (finish_wp h₂ hmem hstatus hproposal) (fun f _ w₃ h₃ => ?_)
        fun _ _ _ h₃ => recovered_error h₃.sound
      obtain ⟨hstored, decision, -, hruled⟩ := h₃.returned f rfl
      refine ⟨h₃.sound, fun heq => (by cases heq), fun f' heq => ?_⟩
      cases heq
      exact ⟨hstored, hruled.1⟩

/-! ## Advancing -/

/-- Where `advance` may stop: at the end, before a decision, or at its limit. -/
def Advanced (maxTransitions : Option Nat) (f : MaintenanceWorkflow) : Prop :=
  terminal f.status = true ∨ f.status = .waitingForApproval ∨ maxTransitions.isSome = true

/-- The transitions that are left to a workflow. -/
def ahead : MaintenanceWorkflowStatus → Nat
  | .created => 3
  | .diagnosed => 2
  | .waitingForApproval => 1
  | .rejected | .completed | .rolledBack | .failed => 0

theorem advanceLoop_wp {holderId : String} {maxTransitions : Option Nat} {fuel transitions : Nat}
    (h : Sound host solo (bookOf w)) (hmem : workflow ∈ (bookOf w).workflows)
    (hfuel : ahead workflow.status < fuel) :
    (advanceLoop host holderId maxTransitions fuel transitions workflow).wp (lawful host solo)
      (fun r _ w' => Stepped host solo (Advanced maxTransitions) r w') () w := by
  induction fuel generalizing workflow transitions w with
  | zero => exact absurd hfuel (Nat.not_lt_zero _)
  | succ fuel ih =>
    unfold advanceLoop
    split
    · next hstop =>
      refine stepped_ok h hmem ?_
      rcases Bool.or_eq_true_iff.mp hstop with hterminal | hlimit
      · exact Or.inl hterminal
      · cases maxTransitions with
        | none => cases hlimit
        | some n => exact Or.inr (Or.inr rfl)
    · next hgo =>
      have hlater : ∀ {P : MaintenanceWorkflow → Prop} {r : Except PyError MaintenanceWorkflow} {w'},
          (∀ f, P f → ahead f.status < fuel) → Stepped host solo P r w' → ∀ f, r = .ok f →
          (advanceLoop host holderId maxTransitions fuel (transitions + 1) f).wp (lawful host solo)
            (fun r _ w' => Stepped host solo (Advanced maxTransitions) r w') () w' := by
        intro P r w' hP hstep f heq
        obtain ⟨hstored, hf⟩ := hstep.returned f heq
        exact ih hstep.sound hstored (hP f hf)
      split
      · next hstatus =>
        rw [hstatus] at hfuel
        refine Act.wp_seq (diagnose_wp h hmem hstatus) (fun f _ w' h' => ?_) fun _ _ _ h' => stepped_error h'.sound
        refine hlater (fun f hf => ?_) h' f rfl
        rw [hf]
        exact Nat.lt_of_succ_lt_succ hfuel
      · next hstatus =>
        rw [hstatus] at hfuel
        refine Act.wp_seq (validateRepair_wp h hmem hstatus) (fun f _ w' h' => ?_)
          fun _ _ _ h' => stepped_error h'.sound
        refine hlater (fun f hf => ?_) h' f rfl
        rcases hf with hf | hf <;> rw [hf] <;> dsimp only [ahead] at hfuel ⊢ <;> omega
      · next hstatus =>
        rw [hstatus] at hfuel
        refine Act.wp_seq (recoverDecision_wp h hmem hstatus) (fun recovered _ w' h' => ?_)
          fun _ _ _ h' => stepped_error h'.sound
        split
        · exact stepped_ok h'.sound ((h'.untaken rfl).symm ▸ hmem) (Or.inr (Or.inl hstatus))
        · next f =>
          obtain ⟨hstored, hterminal⟩ := h'.taken f rfl
          refine ih h'.sound hstored ?_
          have hnone : ahead f.status = 0 := by
            cases hs : f.status <;> rw [hs] at hterminal <;> first | rfl | cases hterminal
          dsimp only [ahead] at hfuel
          omega
      · next hcreated hdiagnosed hwaiting =>
        refine stepped_ok h hmem (Or.inl ?_)
        cases hs : workflow.status <;> first | rfl | exact absurd hs (by assumption)

theorem advance_wp {holderId workflowId : String} {maxTransitions : Option Nat}
    (h : Sound host solo (bookOf w)) :
    (advance host holderId workflowId maxTransitions).wp (lawful host solo)
      (fun r _ w' => Stepped host solo (Advanced maxTransitions) r w') () w := by
  unfold advance workflowOf
  refine Act.wp_seq (R := fun r _ w' => w' = w ∧ ∀ f, r = .ok f → f ∈ (bookOf w).workflows) ?_
    (fun f _ w' hf => ?_) fun e _ w' hf => stepped_error (hf.1 ▸ h)
  · refine wp_store ⟨rfl, fun f heq => ?_⟩
    cases hfound : w.store.tables.workflows.find? (·.id == workflowId) with
    | none => rw [hfound] at heq; cases heq
    | some found =>
      rw [hfound] at heq
      cases heq
      exact List.mem_of_find?_eq_some hfound
  · obtain ⟨rfl, hstored⟩ := hf
    refine advanceLoop_wp h (hstored f rfl) ?_
    cases f.status <;> decide

theorem start_wp {holderId question projectRoot testPath : String} {maxTransitions : Option Nat}
    (h : Sound host solo (bookOf w)) :
    (start host holderId question projectRoot testPath maxTransitions).wp (lawful host solo)
      (fun r _ w' => Stepped host solo (Advanced maxTransitions) r w') () w := by
  unfold start
  refine Act.wp_result (fun root _ => ?_) fun e _ => stepped_error h
  refine wp_store ?_
  dsimp only
  split
  · exact advance_wp h
  · next hnone =>
    refine wp_store ?_
    split
    · exact stepped_error h
    · next project _ =>
      refine wp_store (wp_newId fun w' hdrawn _ => ?_)
      have hmay : MayAdvance host (bookOf w') {
          id := host.newId "WORKFLOW" (bookOf w).drawn
          signature := signature host question root (Records.forwardSlashes testPath)
          question
          projectRoot := root
          testPath := Records.forwardSlashes testPath
          initialProjectFingerprint := host.indexedProjectFingerprint root
            (w.store.records.projectFiles project.id)
          events := [⟨.created,
            "Durable maintenance workflow created from the indexed project state.", []⟩] } := by
        rw [hdrawn]
        refine ⟨drawn_new _, ⟨rfl, rfl⟩, rfl, fun q hq hid => ?_, fun q hq hsignature => ?_⟩
        · exact absurd (List.mem_map.mpr ⟨q, hq, hid⟩) (not_mem_ids h.drawnWorkflows)
        · have hne := List.find?_eq_none.mp hnone q hq
          simp [hsignature] at hne
      refine wp_saveWorkflow hmay (fun w'' hsaved _ => advance_wp ?_) fun e w'' hbeside => stepped_error ?_
      · rw [hsaved]
        exact Sound.advance (hdrawn ▸ h.draw) hmay
      · rw [hbeside.book, hdrawn]
        exact h.draw

/-! ## Deciding -/

/-- What a decision returns: a workflow that has ended, by this very decision. -/
structure Answered (b : Book) (decision : ApprovalDecision) (f : MaintenanceWorkflow) : Prop where
  stored : f ∈ b.workflows
  ended : terminal f.status = true
  agreed : ∀ a ∈ b.approvals, f.approvalId = some a.id → a.id ≠ "" → a.decision = decision

theorem answered_of_ruled {decision : ApprovalDecision} (h : Sound host solo b)
    (hmem : workflow ∈ b.workflows) (hruled : Ruled decision workflow) :
    Answered b decision workflow := by
  obtain ⟨hterminal, hsome, hrejected⟩ := hruled
  refine ⟨hmem, hterminal, fun a ha hname _ => ?_⟩
  have hconcluded : ∀ {status}, workflow.status ≠ .rejected → Concluded b workflow status →
      a.decision = decision := by
    rintro status hne ⟨a', ha', p, -, hdecision, hname', -⟩
    obtain rfl := List.inj_on_of_nodup_map h.approvalIds ha ha'
      (Option.some.inj (hname.symm.trans hname'))
    cases decision with
    | approved => exact hdecision
    | rejected => exact absurd (hrejected.mpr rfl) hne
  have hjustified := h.justified workflow hmem
  unfold Justified at hjustified
  split at hjustified
  · next hs => rw [hs] at hterminal; cases hterminal
  · next hs => rw [hs] at hterminal; cases hterminal
  · next hs => rw [hs] at hterminal; cases hterminal
  · next hs =>
    obtain ⟨-, a', ha', hdecision, hname', -⟩ := hjustified
    obtain rfl := List.inj_on_of_nodup_map h.approvalIds ha ha'
      (Option.some.inj (hname.symm.trans hname'))
    exact hdecision.trans (hrejected.mp hs).symm
  · next hs => exact hconcluded (by rw [hs]; decide) hjustified.1
  · next hs => exact hconcluded (by rw [hs]; decide) hjustified
  · next hs =>
    rcases hjustified with ⟨hnone, -⟩ | hfailed
    · rw [hnone] at hsome
      cases hsome
    · exact hconcluded (by rw [hs]; decide) hfailed

/-- What a decision leaves. -/
structure Concluding (host : WorkflowHost) (solo : Prop) (decision : ApprovalDecision)
    (r : Except PyError MaintenanceWorkflow) (w : World) : Prop where
  sound : Sound host solo (bookOf w)
  returned : ∀ f, r = .ok f → Answered (bookOf w) decision f

theorem concluding_error {decision : ApprovalDecision} {e : PyError} (h : Sound host solo (bookOf w)) :
    Concluding host solo decision (.error e) w :=
  ⟨h, fun _ heq => by cases heq⟩

theorem decideEnded_wp {decision : ApprovalDecision} (h : Sound host solo (bookOf w))
    (hmem : workflow ∈ (bookOf w).workflows) (hterminal : terminal workflow.status = true) :
    (decideEnded workflow decision).wp (lawful host solo)
      (fun r _ w' => Concluding host solo decision r w') () w := by
  unfold decideEnded
  split
  · next hnone =>
    refine ⟨h, fun f heq => ?_⟩
    cases heq
    refine ⟨hmem, hterminal, fun a _ hname _ => ?_⟩
    rw [hnone] at hname
    cases hname
  · next approvalId happroval =>
    refine wp_store (Act.wp_check (fun hagrees => ?_) fun _ => concluding_error h)
    refine ⟨h, fun f heq => ?_⟩
    cases heq
    refine ⟨hmem, hterminal, fun a ha hname hid => ?_⟩
    obtain rfl := Option.some.inj (happroval.symm.trans hname)
    have hself : (bookOf w).approvals.find? (·.id == a.id) = some a := Rows.find?_of_mem h.approvalIds ha
    rcases hagrees with hfound | hempty
    · change ((bookOf w).approvals.find? (·.id == a.id)).all _ = true at hfound
      rw [hself] at hfound
      simpa using hfound
    · exact absurd hempty hid

theorem decideOpen_wp {proposalId approvedBy reason : String} {decision : ApprovalDecision}
    (h : Left host solo b (bookOf w)) :
    (decideOpen host workflow proposalId decision approvedBy reason).wp (lawful host solo)
      (fun r _ w' => Taken host solo b (Deciding proposalId (· = decision)) r w') () w := by
  unfold decideOpen
  refine wp_store ?_
  split
  · next approval hlast =>
    obtain ⟨ha, rfl⟩ := mem_approvalsOf hlast
    refine Act.wp_check (fun hsame => ?_) fun _ => taken_error h.sound h.workflows
    exact Act.wp_mono (resumeApproval_wp h) fun _ _ _ hr => resumed_taken (h.approvals ▸ ha) hsame hr
  · next hlast =>
    refine decideRepair_wp h.sound h.workflows fun _ hmem => ?_
    obtain ⟨a, ha, hof⟩ := List.mem_map.mp hmem
    have hlisted : a ∈ approvalsOf w.store proposalId := List.mem_filter.mpr ⟨ha, by simp [hof]⟩
    rw [List.getLast?_eq_none_iff.mp hlast] at hlisted
    cases hlisted

theorem decide_wp {holderId workflowId approvedBy reason : String} {decision : ApprovalDecision}
    (h : Sound host solo (bookOf w)) :
    (Workflow.decide host holderId workflowId decision approvedBy reason).wp (lawful host solo)
      (fun r _ w' => Concluding host solo decision r w') () w := by
  unfold Workflow.decide
  refine Act.wp_seq (advance_wp h) (fun f _ w₁ h₁ => ?_) fun _ _ _ h₁ => concluding_error h₁.sound
  have hmem := (h₁.returned f rfl).1
  split
  · next hterminal => exact decideEnded_wp h₁.sound hmem hterminal
  · refine Act.wp_check (fun hstatus => ?_) fun _ => concluding_error h₁.sound
    refine wp_asserted (fun proposalId hproposal => ?_) fun e => concluding_error h₁.sound
    refine Act.wp_seq (keeps_acquireLease () w₁ (Left.refl h₁.sound)) (fun acquisition _ w₂ h₂ => ?_)
      fun _ _ _ h₂ => concluding_error h₂.sound
    refine Act.wp_check (fun _ => ?_) fun _ => concluding_error h₂.sound
    refine Act.wp_seq (underLease_wp h₂ fun w' h' => decideOpen_wp h') (fun result _ w₃ h₃ => ?_)
      fun _ _ _ h₃ => concluding_error h₃.sound
    refine Act.wp_mono (finish_wp h₃ hmem hstatus hproposal) fun r _ w₄ h₄ =>
      ⟨h₄.sound, fun f' heq => ?_⟩
    obtain ⟨hstored, _, rfl, hruled⟩ := h₄.returned f' heq
    exact answered_of_ruled h₄.sound hstored hruled

end RlmGraph.Repair.WorkflowCalls
