import RlmGraph.Lib.Results
import RlmGraph.Repair.Bookkeeping

/-! # What the promoter writes

Every operation of the promoter and of the reconciler is legal, wherever a call
raises. A promotion that is being carried out is followed by its journal, which
stays open until it is settled (`Working`); what a call returns is settled. -/
namespace RlmGraph.Repair.PromotionCalls
open RlmGraph.Lib RlmGraph.Lib.JsonText RlmGraph.Lib.Programs
open RlmGraph.Sandbox.Records (FileState PatchChange TestExecution)
open RlmGraph.Repair.Records (RepairProposal RepairValidation)
open RlmGraph.Repair.Recovery (PromotionStatus RepairPromotion Original setOriginal originals
  validatedPath validatedPaths unrecoverable)
open RlmGraph.Repair.Promotion RlmGraph.Repair.Bookkeeping

/-- The operations, each of them legal. -/
abbrev lawful (host : WorkflowHost) (solo : Prop) : OpSpec Op Reply World :=
  guarded (Legal host solo) (perform host)

/-- A world with the same rows. -/
structure Beside (w w' : World) : Prop where
  book : bookOf w' = bookOf w
  records : w'.records = w.records

variable {host : WorkflowHost} {solo : Prop} {b : Book} {k : Journal} {w : World}

section Rules
variable {L β : Type} {Q : Except PyError β → L → World → Prop} {l : L}

theorem wp_store {f : Store → Act Op Reply L PyError β}
    (h : (f w.store).wp (lawful host solo) Q l w) : (store >>= f).wp (lawful host solo) Q l w :=
  Act.wp_op ⟨trivial, h⟩

theorem wp_files {f : Recovery.Tree → Act Op Reply L PyError β}
    (h : (f w.tree).wp (lawful host solo) Q l w) : (files >>= f).wp (lawful host solo) Q l w :=
  Act.wp_op ⟨trivial, h⟩

theorem wp_newId {kind : String} {f : String → Act Op Reply L PyError β}
    (h : ∀ w', bookOf w' = (bookOf w).draw → w'.records = w.records →
      (f (host.newId kind (bookOf w).drawn)).wp (lawful host solo) Q l w') :
    (newId kind >>= f).wp (lawful host solo) Q l w :=
  Act.wp_op ⟨trivial, h _ rfl rfl⟩

theorem wp_replace {target : String} {content : FileState} {Q : Except PyError Unit → L → World → Prop}
    (hlegal : Authorized host w target content) (h : ∀ r w', Beside w w' → Q r l w') :
    (replace target content).wp (lawful host solo) Q l w := by
  refine Act.wp_op ⟨hlegal, h _ _ ⟨book_quiet rfl, ?_⟩⟩
  unfold perform
  dsimp only
  split <;> rfl

theorem wp_execute {command : List String} {root : String} {f : TestExecution → Act Op Reply L PyError β}
    (hok : ∀ test w', Beside w w' → (f test).wp (lawful host solo) Q l w')
    (herror : ∀ e w', Beside w w' → Q (.error e) l w') :
    (execute command root >>= f).wp (lawful host solo) Q l w := by
  unfold execute
  simp only [Act.wp_bind, Act.wp_perform]
  refine ⟨trivial, ?_⟩
  have hbeside : Beside w (perform host (.execute command root) w).2 := ⟨rfl, rfl⟩
  cases hr : (perform host (.execute command root) w).1 with
  | ok test => exact hok test _ hbeside
  | error e => exact herror e _ hbeside

theorem wp_outside {call : Outside} {f : call.Answer → Act Op Reply L PyError β}
    (hok : ∀ answer w', bookOf w' = bookOf w → (f answer).wp (lawful host solo) Q l w')
    (herror : ∀ e w', bookOf w' = bookOf w → Q (.error e) l w') :
    (outside call >>= f).wp (lawful host solo) Q l w := by
  unfold outside
  simp only [Act.wp_bind, Act.wp_perform]
  refine ⟨trivial, ?_⟩
  have hbook : bookOf (perform host (.outside call) w).2 = bookOf w := book_quiet rfl
  cases hr : (perform host (.outside call) w).1 with
  | ok answer => exact hok answer _ hbook
  | error e => exact herror e _ hbook

/-- The rule of a call that others follow. -/
theorem wp_call {L' α : Type} {x : Act Op Reply L' PyError α} {l' : L'}
    {f : α → Act Op Reply L PyError β} {R : Except PyError α → World → Prop}
    (hx : x.wp (lawful host solo) (fun r _ w' => R r w') l' w)
    (hok : ∀ a w', R (.ok a) w' → (f a).wp (lawful host solo) Q l w')
    (herror : ∀ e w', R (.error e) w' → Q (.error e) l w') :
    (x.within l' >>= f).wp (lawful host solo) Q l w := by
  rw [Act.wp_bind]
  refine Act.wp_within (Act.wp_mono hx fun r _ w' h => ?_)
  cases r with
  | ok a => exact hok a w' h
  | error e => exact herror e w' h

/-- The rule of a save: it is made, or it raises. -/
theorem wp_save {x : Act Op Reply L PyError Unit} {f : Unit → Act Op Reply L PyError β} {tables : Tables}
    (hx : ∀ {Q : Except PyError Unit → L → World → Prop},
      Q (w.save host tables).1 l (w.save host tables).2 → x.wp (lawful host solo) Q l w)
    (hok : ∀ w', bookOf w' = bookOf { w with tables := tables } → w'.records = w.records →
      (f ()).wp (lawful host solo) Q l w')
    (herror : ∀ e w', Beside w w' → Q (.error e) l w') : (x >>= f).wp (lawful host solo) Q l w := by
  rw [Act.wp_bind]
  refine hx ?_
  unfold World.save
  split
  · exact herror _ _ ⟨rfl, rfl⟩
  · exact hok _ rfl rfl

theorem wp_savePromotion {p : RepairPromotion} {f : Unit → Act Op Reply L PyError β}
    (hmay : MayPromote host (bookOf w) p)
    (hok : ∀ w', bookOf w' = (bookOf w).promote p → w'.records = w.records →
      (f ()).wp (lawful host solo) Q l w')
    (herror : ∀ e w', Beside w w' → Q (.error e) l w') :
    (savePromotion p >>= f).wp (lawful host solo) Q l w :=
  wp_save (fun hQ => Act.wp_op ⟨hmay, hQ⟩) hok herror

theorem wp_saveApproval {a : RepairApproval} {f : Unit → Act Op Reply L PyError β}
    (hmay : MayApprove host solo (bookOf w) a) (hreviewed : Reviewed w.records a)
    (hok : ∀ w', bookOf w' = (bookOf w).approve a → w'.records = w.records →
      (f ()).wp (lawful host solo) Q l w')
    (herror : ∀ e w', Beside w w' → Q (.error e) l w') :
    (saveApproval a >>= f).wp (lawful host solo) Q l w :=
  wp_save (fun hQ => Act.wp_op ⟨⟨hmay, hreviewed⟩, hQ⟩) hok herror

theorem wp_saveReconciliation {r : PostRepairReconciliation} {f : Unit → Act Op Reply L PyError β}
    (hmay : MayReconcile host (bookOf w) r)
    (hok : ∀ w', bookOf w' = (bookOf w).reconcile r → w'.records = w.records →
      (f ()).wp (lawful host solo) Q l w')
    (herror : ∀ e w', Beside w w' → Q (.error e) l w') :
    (saveReconciliation r >>= f).wp (lawful host solo) Q l w :=
  wp_save (fun hQ => Act.wp_op ⟨hmay, hQ⟩) hok herror

theorem wp_saveWorkflow {workflow : MaintenanceWorkflow} {f : Unit → Act Op Reply L PyError β}
    (hmay : MayAdvance host (bookOf w) workflow)
    (hok : ∀ w', bookOf w' = (bookOf w).advance workflow → w'.records = w.records →
      (f ()).wp (lawful host solo) Q l w')
    (herror : ∀ e w', Beside w w' → Q (.error e) l w') :
    (saveWorkflow workflow >>= f).wp (lawful host solo) Q l w :=
  wp_save (fun hQ => Act.wp_op ⟨hmay, hQ⟩) hok herror

end Rules

/-! ## Reconciliation -/

/-- What the promoter leaves of the rows. -/
structure Left (host : WorkflowHost) (solo : Prop) (b b' : Book) : Prop where
  sound : Sound host solo b'
  approvals : b'.approvals = b.approvals
  workflows : b'.workflows = b.workflows

structure Reconciled (host : WorkflowHost) (solo : Prop) (b : Book) (w : World) (promotionId : String)
    (r : Except PyError PostRepairReconciliation) (w' : World) : Prop where
  left : Left host solo b (bookOf w')
  promotions : (bookOf w').promotions = (bookOf w).promotions
  raised : ∀ e, r = .error e → (bookOf w').reconciliations = (bookOf w).reconciliations
  returned : ∀ made, r = .ok made → made ∈ (bookOf w').reconciliations ∧ made.promotionId = promotionId

theorem reconciled_error {promotionId : String} {e : PyError} {w' : World}
    (h : Left host solo b (bookOf w')) (hpromotions : (bookOf w').promotions = (bookOf w).promotions)
    (hsame : (bookOf w').reconciliations = (bookOf w).reconciliations) :
    Reconciled host solo b w promotionId (.error e) w' :=
  ⟨h, hpromotions, fun _ _ => hsame, fun _ heq => (by cases heq)⟩

theorem reconcile_wp {promotionId : String} (h : Left host solo b (bookOf w)) :
    (reconcile host promotionId).wp (lawful host solo) (fun r _ w' =>
      Reconciled host solo b w promotionId r w') () w := by
  unfold reconcile
  have hfail : ∀ e, Reconciled host solo b w promotionId (.error e) w := fun e =>
    reconciled_error h rfl rfl
  refine wp_store ?_
  split
  · exact hfail _
  · next promotion hfound =>
    have hmem : promotion ∈ (bookOf w).promotions := List.mem_of_find?_eq_some hfound
    have hid : promotion.id = promotionId := by simpa using List.find?_some hfound
    refine Act.wp_check (fun hverified => wp_store ?_) fun _ => hfail _
    split
    · next existing hexisting =>
      refine ⟨h, rfl, fun _ heq => (by cases heq), fun made heq => ?_⟩
      cases heq
      refine ⟨List.mem_of_find?_eq_some hexisting, ?_⟩
      have hof : existing.promotionId = promotion.id := by simpa using List.find?_some hexisting
      exact hof.trans hid
    · next hnone =>
      refine wp_store ?_
      split
      · exact hfail _
      · next proposal hproposal =>
        refine Act.wp_result (fun root _ => ?_) fun e _ => hfail e
        refine Act.wp_check (fun _ => ?_) fun _ => hfail _
        have hraised : ∀ {e w'}, bookOf w' = bookOf w →
            Reconciled host solo b w promotionId (.error e) w' := fun hbook =>
          reconciled_error (hbook.symm ▸ h) (hbook ▸ rfl) (hbook ▸ rfl)
        refine wp_outside (fun followUp w' hbook => ?_) fun e w' hbook => hraised hbook
        refine wp_newId fun w'' hdrawn _ => ?_
        rw [hbook] at hdrawn ⊢
        have hleft : Left host solo b (bookOf w'') := by
          rw [hdrawn]
          exact ⟨h.sound.draw, h.approvals, h.workflows⟩
        have hpid : proposal.id = promotion.proposalId := by simpa using List.find?_some hproposal
        have hfirst : promotion.id ∉ (bookOf w).reconciliations.map (·.promotionId) := by
          intro hmem'
          obtain ⟨r, hr, hof⟩ := List.mem_map.mp hmem'
          have hne := List.find?_eq_none.mp hnone r hr
          simp [hof] at hne
        have hmay : MayReconcile host (bookOf w'') {
            id := host.newId "RECONCILE" (bookOf w).drawn
            promotionId := promotion.id
            proposalId := proposal.id
            projectRoot := root
            affectedPaths := (promotion.changes.map (·.path)).mergeSort
            followUpTaskId := followUp.taskId
            followUpClaimId := followUp.claimId
            followUpWorkerCalls := followUp.workerCalls } := by
          rw [hdrawn]
          exact ⟨drawn_new _, not_mem_ids h.sound.drawnReconciliations,
            ⟨promotion, hmem, rfl, hpid.symm, hverified⟩, hfirst⟩
        refine wp_saveReconciliation hmay (fun w₃ hsaved _ => ?_) fun e w₃ hbeside => ?_
        · refine ⟨⟨?_, ?_, ?_⟩, ?_, fun _ heq => (by cases heq), fun made heq => ?_⟩
          · rw [hsaved]
            exact hleft.sound.reconcile hmay
          · rw [hsaved]
            exact hleft.approvals
          · rw [hsaved]
            exact hleft.workflows
          · rw [hsaved, hdrawn]
            rfl
          · cases heq
            rw [hsaved]
            exact ⟨Rows.mem_upsert.mpr (Or.inl rfl), hid⟩
        · refine reconciled_error (hbeside.book.symm ▸ hleft) ?_ ?_
          · rw [hbeside.book, hdrawn]
            rfl
          · rw [hbeside.book, hdrawn]
            rfl

/-! ## A promotion under way -/

/-- The stored promotion with the journal is open. -/
structure Working (host : WorkflowHost) (solo : Prop) (b : Book) (k : Journal) (b' : Book) : Prop where
  left : Left host solo b b'
  opened : ∃ q ∈ b'.promotions, journal q = k ∧ ¬Settled b' q

/-- A promotion with the journal is settled. -/
structure Finished (host : WorkflowHost) (solo : Prop) (b : Book) (k : Journal) (p : RepairPromotion)
    (b' : Book) : Prop where
  left : Left host solo b b'
  stored : p ∈ b'.promotions
  journal : journal p = k
  settled : Settled b' p

section Working
variable {b' : Book} {p : RepairPromotion} (h : Working host solo b k b') (hjournal : journal p = k)
include h hjournal

theorem Working.mayPromote (hrecorded : Recorded p) : MayPromote host b' p := by
  obtain ⟨q, hq, hof, hopen⟩ := h.opened
  have heq : journal q = journal p := hof.trans hjournal.symm
  have hid : q.id = p.id := congrArg Journal.id heq
  obtain ⟨a, ha, hdecision, happroval, hproposal⟩ := h.left.sound.approved q hq
  refine ⟨hid ▸ h.left.sound.drawnPromotions q hq, ?_, hrecorded, fun q' hq' hid' => ?_⟩
  · exact ⟨a, ha, hdecision, happroval.trans (congrArg Journal.approvalId heq),
      hproposal.trans (congrArg Journal.proposalId heq)⟩
  · obtain rfl := List.inj_on_of_nodup_map h.left.sound.promotionIds hq' hq (hid'.trans hid.symm)
    exact ⟨hopen, heq⟩

theorem Working.left_promote (hrecorded : Recorded p) : Left host solo b (b'.promote p) :=
  ⟨h.left.sound.promote (h.mayPromote hjournal hrecorded), h.left.approvals, h.left.workflows⟩

/-- The promotion goes on. -/
theorem Working.promote (hrecorded : Recorded p) (hstatus : closed p.status = false) :
    Working host solo b k (b'.promote p) := by
  refine ⟨h.left_promote hjournal hrecorded, p, Rows.mem_upsert.mpr (Or.inl rfl), hjournal, ?_⟩
  obtain ⟨q, hq, hof, hopen⟩ := h.opened
  have hid : q.id = p.id := congrArg Journal.id (hof.trans hjournal.symm)
  rintro (hclosed | ⟨r, hr, hname⟩)
  · rw [hstatus] at hclosed
    cases hclosed
  · exact hopen (Or.inr ⟨r, hr, hname.trans hid.symm⟩)

/-- The promotion is closed. -/
theorem Working.finish (hrecorded : Recorded p) (hstatus : closed p.status = true) :
    Finished host solo b k p (b'.promote p) :=
  ⟨h.left_promote hjournal hrecorded, Rows.mem_upsert.mpr (Or.inl rfl), hjournal, Or.inl hstatus⟩

end Working

/-- A file of the promotion is given a content of its change. -/
theorem Working.authorized {change : PatchChange} {target : String} {content : FileState}
    (h : Working host solo b k (bookOf w)) (hchange : change ∈ k.changes)
    (htarget : target = host.target k.projectRoot change.path)
    (hcontent : Content host change content.bytes) : Authorized host w target content := by
  obtain ⟨q, hq, rfl, hopen⟩ := h.opened
  obtain ⟨a, ha, hdecision, happroval, hproposal⟩ := h.left.sound.approved q hq
  exact ⟨q, hq, hopen, a, ha, hdecision, happroval, hproposal, change,
    Or.inl ⟨hchange, htarget⟩, hcontent⟩

/-- A new status with its event. -/
theorem recorded_mark {p : RepairPromotion} (status : PromotionStatus) (detail : String)
    (hverified : status = .verified → p.appliedTreeFingerprint ≠ none ∧
      ∃ test, p.finalValidation = some test ∧ test.exitCode = 0)
    (hrolledBack : status = .rolledBack →
      p.rollbackVerified = some true ∧ p.rollbackTreeFingerprint = some p.originalTreeFingerprint) :
    Recorded { p with status := status, events := p.events ++ [⟨status, detail⟩] } :=
  ⟨by simp, hverified, hrolledBack⟩

/-- The locals and rows of a promotion under way. -/
def Underway (host : WorkflowHost) (solo : Prop) (b : Book) (k : Journal) (l : Promoting) (w : World) :
    Prop :=
  journal l.promotion = k ∧ Working host solo b k (bookOf w)

theorem Underway.beside {l : Promoting} {w' : World} (h : Underway host solo b k l w)
    (hbook : bookOf w' = bookOf w) : Underway host solo b k l w' :=
  ⟨h.1, hbook.symm ▸ h.2⟩

section
variable {β : Type} {Q : Except PyError β → Promoting → World → Prop} {l : Promoting}

theorem wp_saveCurrent {f : Unit → PromotingAct β} (h : Underway host solo b k l w)
    (hrecorded : Recorded l.promotion)
    (hok : ∀ w', bookOf w' = (bookOf w).promote l.promotion → w'.records = w.records →
      (f ()).wp (lawful host solo) Q l w')
    (herror : ∀ e w', Beside w w' → Q (.error e) l w') :
    (saveCurrent >>= f).wp (lawful host solo) Q l w := by
  have hsave := wp_savePromotion (Q := Q) (f := f) (h.2.mayPromote h.1 hrecorded) hok herror
  rw [Act.wp_bind] at hsave ⊢
  exact hsave

end

/-- How the attempt to apply a repair ends. -/
def Attempted (host : WorkflowHost) (solo : Prop) (b : Book) (k : Journal) (r : Except PyError Bool)
    (l : Promoting) (w : World) : Prop :=
  match r with
  | .ok true => Finished host solo b k l.promotion (bookOf w)
  | .ok false | .error _ => Underway host solo b k l w

theorem verify_wp {root : String} {final : TestExecution} {l : Promoting}
    (h : Underway host solo b k l w) :
    (verify host root final).wp (lawful host solo) (Attempted host solo b k) l w := by
  refine Act.wp_set (wp_files ?_)
  rw [Act.wp_bind, Act.wp_get, Act.onOk_ok]
  dsimp only
  split
  · next hpassed =>
    obtain ⟨hexit, hstable⟩ := hpassed
    have happlied : l.promotion.appliedTreeFingerprint = some (host.treeFingerprint root w.tree) :=
      (beq_iff_eq.mp hstable).symm
    have hrecorded := recorded_mark (p := { l.promotion with finalValidation := some final }) .verified
      "Affected test passed in the explicitly selected project."
      (fun _ => ⟨happlied ▸ Option.some_ne_none _, final, rfl, hexit⟩) fun hs => by cases hs
    refine Act.wp_set (wp_saveCurrent ⟨h.1, h.2⟩ hrecorded (fun w' hsaved _ => ?_) fun e w' hbeside => ?_)
    · have hworking : Working host solo b k (bookOf w') := by
        rw [hsaved]
        exact h.2.promote h.1 hrecorded rfl
      refine wp_call (reconcile_wp hworking.left) (fun made w'' hdone => ?_) fun e w'' hraised => ?_
      · obtain ⟨hmade, hof⟩ := hdone.returned made rfl
        refine ⟨hdone.left, ?_, h.1, Or.inr ⟨made, hmade, hof⟩⟩
        rw [hdone.promotions, hsaved]
        exact Rows.mem_upsert.mpr (Or.inl rfl)
      · obtain ⟨q, hq, hjournal, hopen⟩ := hworking.opened
        refine ⟨h.1, hraised.left, q, by rwa [hraised.promotions], hjournal, ?_⟩
        rintro (hclosed | ⟨r, hr, hname⟩)
        · exact hopen (Or.inl hclosed)
        · exact hopen (Or.inr ⟨r, hraised.raised e rfl ▸ hr, hname⟩)
    · exact ⟨h.1, hbeside.book.symm ▸ h.2⟩
  · exact ⟨h.1, h.2⟩

/-- What is known of the targets of the changes and of their files. -/
def Aligned (host : WorkflowHost) (k : Journal) (targets : List (PatchChange × String × FileState)) :
    Prop :=
  ∀ change target state, (change, target, state) ∈ targets → change ∈ k.changes ∧
    target = host.target k.projectRoot change.path ∧ (∃ text, change.afterContent = some text) ∧
    host.sha256 state.bytes = change.beforeHash

section Attempt
variable {l : Promoting} {changes : List PatchChange} {paths : List (String × FileState)}
  (h : Underway host solo b k l w) (haligned : Aligned host k (changes.zip paths))
include h haligned

theorem replaceAll_wp : (replaceAll changes paths).wp (lawful host solo)
    (fun _ l' w' => Underway host solo b k l' w') l w := by
  unfold replaceAll
  refine Act.wp_op ⟨trivial, Act.wp_result (fun _ _ => ?_) fun _ _ => h.beside (book_quiet rfl)⟩
  refine Act.wp_forM (fun _ => Underway host solo b k) (h.beside (book_quiet rfl)) ?_ fun _ _ h => h
  rintro before ⟨change, target, state⟩ after l' w' hsplit hunder
  have hmem : (change, target, state) ∈ changes.zip paths := by
    rw [hsplit]
    exact List.mem_append_right before List.mem_cons_self
  obtain ⟨hchange, htarget, ⟨text, htext⟩, -⟩ := haligned change target state hmem
  refine wp_replace (hunder.2.authorized hchange htarget (Or.inl ?_)) fun r w'' hbeside => ?_
  · rw [htext]
    rfl
  · cases r <;> exact hunder.beside hbeside.book

end Attempt

theorem checkApplied_wp {l : Promoting} {change : PatchChange} {target : String}
    (h : Underway host solo b k l w) : (checkApplied host change target).wp (lawful host solo)
      (fun _ l' w' => Underway host solo b k l' w') l w := by
  unfold checkApplied
  refine wp_files (Act.wp_result (fun digest _ => ?_) fun _ _ => h)
  rw [Act.wp_require]
  split <;> exact h

theorem applyRepair_wp {proposal : RepairProposal} {root : String} {paths : List (String × FileState)}
    {l : Promoting} (h : Underway host solo b k l w)
    (haligned : Aligned host k (proposal.changes.zip paths)) :
    (applyRepair host proposal root paths).wp (lawful host solo) (Attempted host solo b k) l w := by
  unfold applyRepair
  have happlying := recorded_mark (p := l.promotion) .applying
    "All source hashes matched; atomically replacing authorized files."
    (fun hs => by cases hs) fun hs => by cases hs
  refine Act.wp_set (wp_saveCurrent h happlying (fun w₁ hsaved _ => ?_) fun e w₁ hbeside => ?_)
  · have hunder : Underway host solo b k _ w₁ := ⟨h.1, hsaved ▸ h.2.promote h.1 happlying rfl⟩
    refine Act.wp_set (Act.wp_seq (replaceAll_wp hunder haligned) (fun _ l₂ w₂ h₂ => ?_) fun _ _ _ h₂ => h₂)
    refine Act.wp_seq (R := fun _ l' w' => Underway host solo b k l' w') ?_ (fun _ l₃ w₃ h₃ => ?_)
      fun _ _ _ h₃ => h₃
    · refine Act.wp_forM (fun _ => Underway host solo b k) h₂ ?_ fun _ _ h => h
      rintro before ⟨change, target, state⟩ after l' w' - hunder'
      refine Act.wp_mono (checkApplied_wp hunder') fun r _ _ h' => ?_
      cases r <;> exact h'
    · have happlied := recorded_mark
        (p := { l₃.promotion with appliedTreeFingerprint := some (host.treeFingerprint root w₃.tree) })
        .applied "Verified sandbox bytes applied to every authorized target."
        (fun hs => by cases hs) fun hs => by cases hs
      refine wp_files (Act.wp_set (Act.wp_set (wp_saveCurrent h₃ happlied (fun w₄ hsaved' _ => ?_)
        fun e w₄ hbeside => ?_)))
      · have hunder₄ : Underway host solo b k _ w₄ := ⟨h₃.1, hsaved' ▸ h₃.2.promote h₃.1 happlied rfl⟩
        refine wp_execute (fun test w₅ hbeside => verify_wp (hunder₄.beside hbeside.book))
          fun e w₅ hbeside => hunder₄.beside hbeside.book
      · exact h₃.beside hbeside.book
  · exact h.beside hbeside.book

/-! ## Rollback -/

theorem mem_setOriginals {paths : List (String × FileState)} {start : List Original} {o : Original}
    (ho : o ∈ paths.foldl (fun originals (target, state) => setOriginal originals ⟨target, state⟩) start) :
    o ∈ start ∨ (o.target, o.content) ∈ paths := by
  induction paths generalizing start with
  | nil => exact Or.inl ho
  | cons path paths ih =>
    obtain ⟨target, state⟩ := path
    rcases ih ho with hstart | hmem
    · rcases Rows.mem_upsert.mp hstart with rfl | ⟨hmem, -⟩
      · exact Or.inr List.mem_cons_self
      · exact Or.inl hmem
    · exact Or.inr (List.mem_cons_of_mem _ hmem)

/-- Files are given contents that they may be given. -/
theorem restoreAll_wp {originals : List Original} {failed : PyError → PromotingAct Unit} {l : Promoting}
    {I : Promoting → World → Prop} (h : I l w)
    (hauthorized : ∀ l w, I l w → ∀ o ∈ originals, Authorized host w o.target o.content)
    (hreplaced : ∀ l w w', I l w → Beside w w' → I l w')
    (hfailed : ∀ e l w, I l w → (failed e).wp (lawful host solo) (fun _ => I) l w) :
    (restoreAll originals failed).wp (lawful host solo) (fun _ => I) l w := by
  refine Act.wp_onError (R := fun _ => I) ?_ (fun _ _ _ h => h) (fun e l' w' h' _ => ?_)
    fun _ _ _ h _ => h
  · refine Act.wp_seq (R := fun _ => I) ?_ (fun _ _ _ h => h) fun _ _ _ h => h
    refine Act.wp_forM (fun _ => I) h ?_ fun _ _ h => h
    intro before o after l' w' hsplit h'
    have ho : o ∈ originals := by
      rw [hsplit]
      exact List.mem_append_right before List.mem_cons_self
    refine wp_replace (hauthorized l' w' h' o ho) fun r w'' hbeside => ?_
    cases r <;> exact hreplaced l' w' w'' h' hbeside
  · exact Act.wp_seq (hfailed e l' w' h') (fun _ _ _ h => h) fun _ _ _ h => h

/-- The rollback that the locals speak of. -/
def Inspected (l : Promoting) (verified : Bool) : Prop :=
  l.promotion.rollbackVerified = some verified ∧
    (verified = true → l.promotion.rollbackTreeFingerprint = some l.promotion.originalTreeFingerprint)

theorem inspectRollback_wp {proposal : RepairProposal} {root : String} {rollbackError : Option PyError}
    {l : Promoting} (h : Underway host solo b k l w) :
    (inspectRollback host proposal root rollbackError).wp (lawful host solo) (fun r l' w' =>
      Underway host solo b k l' w' ∧ ∀ verified, r = .ok verified → Inspected l' verified) l w := by
  unfold inspectRollback
  refine wp_files ?_
  rw [Act.wp_bind, Act.wp_get, Act.onOk_ok]
  refine Act.wp_set (wp_execute (fun test w' hbeside => Act.wp_set ?_) fun e w' hbeside => ?_)
  · refine ⟨h.beside hbeside.book, fun verified heq => ?_⟩
    cases heq
    refine ⟨rfl, fun hverified => ?_⟩
    have hsame := (Bool.and_eq_true_iff.mp hverified).2
    exact congrArg some (beq_iff_eq.mp hsame)
  · exact ⟨h.beside hbeside.book, fun _ heq => by cases heq⟩

theorem recorded_rolledBack {l : Promoting} {verified : Bool} (h : Inspected l verified) (detail : String) :
    Recorded { l.promotion with
      status := rolledBackStatus verified
      events := l.promotion.events ++ [⟨rolledBackStatus verified, detail⟩] } := by
  cases verified with
  | true => exact recorded_mark .rolledBack detail (fun hs => by cases hs) fun _ => ⟨h.1, h.2 rfl⟩
  | false => exact recorded_mark .applicationFailed detail (fun hs => by cases hs) fun hs => by cases hs

theorem closed_rolledBack (verified : Bool) : closed (rolledBackStatus verified) = true := by
  cases verified <;> rfl

/-- How a promotion ends: settled, or by an exception. -/
def Ended (host : WorkflowHost) (solo : Prop) (b : Book) (k : Journal)
    (r : Except PyError RepairPromotion) (w : World) : Prop :=
  match r with
  | .ok p => Finished host solo b k p (bookOf w)
  | .error _ => Left host solo b (bookOf w)

/-- The status behind a rollback is stored. -/
theorem wp_close {l : Promoting} {verified : Bool} {detail : String} (h : Underway host solo b k l w)
    (hinspected : Inspected l verified) :
    (do mark (rolledBackStatus verified) detail
        saveCurrent
        let l ← Act.get
        return l.promotion : PromotingAct RepairPromotion).wp (lawful host solo)
      (fun r _ w' => Ended host solo b k r w') l w := by
  have hrecorded := recorded_rolledBack hinspected detail
  refine Act.wp_set (wp_saveCurrent h hrecorded (fun w' hsaved _ => ?_) fun e w' hbeside => ?_)
  · change Finished host solo b k _ (bookOf w')
    rw [hsaved]
    exact h.2.finish h.1 hrecorded (closed_rolledBack verified)
  · exact (h.beside hbeside.book).2.left

theorem wp_inspect {proposal : RepairProposal} {root : String} {rollbackError : Option PyError}
    {detail : Bool → String} {l : Promoting} (h : Underway host solo b k l w) :
    (do let verified ← inspectRollback host proposal root rollbackError
        mark (rolledBackStatus verified) (detail verified)
        saveCurrent
        let l ← Act.get
        return l.promotion : PromotingAct RepairPromotion).wp (lawful host solo)
      (fun r _ w' => Ended host solo b k r w') l w :=
  Act.wp_seq (inspectRollback_wp h) (fun verified _ _ h' => wp_close h'.1 (h'.2 verified rfl))
    fun _ _ _ h' => h'.1.2.left

theorem rollBack_wp {proposal : RepairProposal} {root : String} {originals : List Original}
    {l : Promoting} (h : Underway host solo b k l w)
    (hauthorized : ∀ w, Working host solo b k (bookOf w) → ∀ o ∈ originals,
      Authorized host w o.target o.content) :
    (rollBack host proposal root originals).wp (lawful host solo)
      (fun r _ w' => Ended host solo b k r w') l w := by
  unfold rollBack
  rw [Act.wp_bind, Act.wp_get, Act.onOk_ok]
  dsimp only
  split
  · refine Act.wp_seq (restoreAll_wp h (fun l w h => hauthorized w h.2)
      (fun l w w' h hbeside => h.beside hbeside.book) fun e l w h => h) (fun rollbackError l' w' h' => ?_)
      fun _ _ _ h' => h'.2.left
    exact wp_inspect h'
  · exact wp_inspect h

theorem carryOut_wp {proposal : RepairProposal} {root : String} {paths : List (String × FileState)}
    {l : Promoting} (h : Underway host solo b k l w)
    (haligned : Aligned host k (proposal.changes.zip paths))
    (hpaired : ∀ path ∈ paths, ∃ change, (change, path) ∈ proposal.changes.zip paths) :
    (carryOut host proposal root paths).wp (lawful host solo)
      (fun r _ w' => Ended host solo b k r w') l w := by
  unfold carryOut
  refine Act.wp_seq (R := Attempted host solo b k) ?_ (fun verified l' w' h' => ?_) fun _ _ _ h' => h'.2.left
  · refine Act.wp_onError (applyRepair_wp h haligned) (fun _ _ _ h' => h') (fun e l' w' h' _ => ?_)
      fun _ _ _ h' _ => h'
    exact h'
  · cases verified with
    | true => exact h'
    | false =>
      refine rollBack_wp h' fun w'' hworking o ho => ?_
      rcases mem_setOriginals ho with hnone | hpath
      · cases hnone
      · obtain ⟨change, hpair⟩ := hpaired _ hpath
        obtain ⟨hchange, htarget, -, hhash⟩ := haligned change o.target o.content hpair
        exact hworking.authorized hchange htarget (Or.inr (Or.inl hhash))

/-! ## Promotion -/

theorem checkBefore_wp {change : PatchChange} {target : String} :
    (checkBefore host change target).wp (lawful host solo) (fun r _ w' => w' = w ∧
      ∀ u, r = .ok u → contentHash host w.tree target = .ok change.beforeHash) () w := by
  unfold checkBefore
  refine wp_files (Act.wp_result (fun digest hdigest => ?_) fun _ _ => ⟨rfl, fun _ heq => by cases heq⟩)
  rw [Act.wp_require]
  split
  · next hsame => exact ⟨rfl, fun _ _ => hsame ▸ hdigest⟩
  · exact ⟨rfl, fun _ heq => by cases heq⟩

theorem file_of_validatedPath {root : String} {proposal : RepairProposal} {tree : Recovery.Tree}
    {change : PatchChange} {target : String} {state : FileState}
    (h : validatedPath host.toPromoterHost root proposal tree change = .ok (target, state)) :
    target = host.target root change.path ∧ tree target = some (.file state) ∧
      change.path ∈ proposal.authorizedPaths := by
  unfold validatedPath at h
  split at h
  · cases h
  · next hauthorized =>
    split at h
    · cases h
    · split at h
      · cases h
      · next node hnode =>
        split at h
        · cases h
        · split at h
          · cases h
          · cases h
            exact ⟨rfl, hnode, by simpa using hauthorized⟩

/-- The files of validated targets with the hashes from before. -/
theorem aligned_of_checked {root : String} {proposal : RepairProposal} {tree : Recovery.Tree}
    {paths : List (String × FileState)}
    (hpaths : validatedPaths host.toPromoterHost root proposal tree = .ok paths)
    (hchanges : k.changes = proposal.changes) (hroot : k.projectRoot = root)
    (hafter : proposal.changes.all (·.afterContent.isSome) = true)
    (hchecked : ∀ x ∈ proposal.changes.zip paths, contentHash host tree x.2.1 = .ok x.1.beforeHash) :
    Aligned host k (proposal.changes.zip paths) := by
  intro change target state hmem
  have hvalid := List.forall₂_zip (Results.mapM_ok hpaths) hmem
  obtain ⟨htarget, hfile, -⟩ := file_of_validatedPath hvalid
  have hchange : change ∈ proposal.changes := (List.of_mem_zip hmem).1
  refine ⟨hchanges ▸ hchange, hroot ▸ htarget, ?_, ?_⟩
  · exact Option.isSome_iff_exists.mp (List.all_eq_true.mp hafter change hchange)
  · have hhash := hchecked _ hmem
    unfold contentHash at hhash
    rw [hfile] at hhash
    exact Except.ok.inj hhash

/-- What a promotion leaves: what it returns is settled. -/
structure Promoted (host : WorkflowHost) (solo : Prop) (b : Book) (approvalId : String)
    (r : Except PyError RepairPromotion) (w : World) : Prop where
  left : Left host solo b (bookOf w)
  returned : ∀ p, r = .ok p →
    p ∈ (bookOf w).promotions ∧ p.approvalId = approvalId ∧ Settled (bookOf w) p

theorem promoted_error {approvalId : String} {e : PyError} (h : Left host solo b (bookOf w)) :
    Promoted host solo b approvalId (.error e) w :=
  ⟨h, fun _ heq => by cases heq⟩

theorem Ended.promoted {r : Except PyError RepairPromotion} (h : Ended host solo b k r w) :
    Promoted host solo b k.approvalId r w := by
  cases r with
  | error e => exact promoted_error h
  | ok p =>
    refine ⟨h.left, fun p' heq => ?_⟩
    cases heq
    exact ⟨h.stored, congrArg Journal.approvalId h.journal, h.settled⟩

section Promote
variable {proposal : RepairProposal} {validation : RepairValidation} {approval : RepairApproval}
  {root : String}

/-- A promotion under a new identifier. -/
theorem underway_new {w' : World} {p : RepairPromotion} (h : Left host solo b (bookOf w))
    (ha : approval ∈ (bookOf w).approvals) (hdecision : approval.decision = .approved)
    (hid : p.id = host.newId "PROMOTION" (bookOf w).drawn) (hof : p.approvalId = approval.id)
    (hproposal : p.proposalId = approval.proposalId) (hrecorded : Recorded p)
    (hdrawn : bookOf w' = (bookOf w).draw) :
    MayPromote host (bookOf w') p ∧ Left host solo b ((bookOf w').promote p) ∧
      (closed p.status = false → Working host solo b (journal p) ((bookOf w').promote p)) := by
  have hnew : ∀ q ∈ (bookOf w).promotions, q.id ≠ p.id := fun q hq heq =>
    not_mem_ids h.sound.drawnPromotions (List.mem_map.mpr ⟨q, hq, heq.trans hid⟩)
  have hmay : MayPromote host (bookOf w') p := by
    rw [hdrawn]
    refine ⟨hid ▸ drawn_new _, ⟨approval, ha, hdecision, hof.symm, hproposal.symm⟩, hrecorded, ?_⟩
    exact fun q hq heq => absurd heq (hnew q hq)
  have hleft : Left host solo b ((bookOf w').promote p) := by
    refine ⟨Sound.promote ?_ hmay, ?_, ?_⟩
    · rw [hdrawn]
      exact h.sound.draw
    · rw [hdrawn]
      exact h.approvals
    · rw [hdrawn]
      exact h.workflows
  refine ⟨hmay, hleft, fun hstatus => ⟨hleft, p, Rows.mem_upsert.mpr (Or.inl rfl), rfl, ?_⟩⟩
  rintro (hclosed | ⟨r, hr, hname⟩)
  · rw [hstatus] at hclosed
    cases hclosed
  · rw [hdrawn] at hr
    obtain ⟨q, hq, hqid, -⟩ := h.sound.reconciled r hr
    exact hnew q hq (hqid.trans hname)

theorem promote_wp (h : Left host solo b (bookOf w)) (ha : approval ∈ (bookOf w).approvals)
    (hdecision : approval.decision = .approved) (hof : approval.proposalId = proposal.id) :
    (promote host proposal validation approval root).wp (lawful host solo)
      (fun r _ w' => Promoted host solo b approval.id r w') () w := by
  unfold promote
  have hfail : ∀ e, Promoted host solo b approval.id (.error e) w := fun e => promoted_error h
  refine Act.wp_check (fun _ => ?_) fun _ => hfail _
  refine Act.wp_check (fun hcontents => ?_) fun _ => hfail _
  refine wp_files (Act.wp_check (fun _ => ?_) fun _ => hfail _)
  refine wp_files (Act.wp_result (fun paths hpaths => ?_) fun e _ => hfail e)
  refine Act.wp_seq (R := fun r _ w' => w' = w ∧ ∀ u, r = .ok u → ∀ x ∈ proposal.changes.zip paths,
    contentHash host w.tree x.2.1 = .ok x.1.beforeHash) ?_ (fun u _ w' hchecked => ?_) fun e _ w' hchecked => ?_
  · refine Act.wp_forM (fun before _ w' => w' = w ∧ ∀ x ∈ before,
      contentHash host w.tree x.2.1 = .ok x.1.beforeHash) ⟨rfl, fun x hx => by cases hx⟩ ?_
      fun _ _ h => ⟨h.1, fun _ _ => h.2⟩
    rintro before ⟨change, target, state⟩ after _ w' - ⟨rfl, hbefore⟩
    refine Act.wp_mono checkBefore_wp fun r _ w'' hone => ?_
    obtain ⟨rfl, hdigest⟩ := hone
    cases r with
    | error e => exact ⟨rfl, fun _ heq => by cases heq⟩
    | ok u => exact ⟨rfl, Rows.forall_mem_concat hbefore (hdigest u rfl)⟩
  · obtain ⟨rfl, hhashes⟩ := hchecked
    refine wp_newId fun w₁ hdrawn _ => ?_
    obtain ⟨hmay, hleft, hworking⟩ := underway_new (p := {
      id := host.newId "PROMOTION" (bookOf w').drawn
      proposalId := proposal.id
      validationId := validation.id
      approvalId := approval.id
      projectRoot := root
      status := .approved
      changes := proposal.changes
      originalTreeFingerprint := host.treeFingerprint root w'.tree
      events := [⟨.approved, "Human approval recorded."⟩] }) h ha hdecision rfl rfl hof.symm
      ⟨rfl, fun hs => (by cases hs), fun hs => (by cases hs)⟩ hdrawn
    refine wp_savePromotion hmay (fun w₂ hsaved _ => ?_) fun e w₂ hbeside => ?_
    · have hopened := hworking rfl
      rw [← hsaved] at hopened
      refine Act.wp_within (Act.wp_mono (carryOut_wp ⟨rfl, hopened⟩ ?_ fun path hpath => ?_)
        fun r _ w₃ hended => hended.promoted)
      · exact aligned_of_checked hpaths rfl rfl hcontents.2 (hhashes u rfl)
      · exact Results.exists_zip_of_mem_forall₂ (Results.mapM_ok hpaths) hpath
    · refine promoted_error ?_
      rw [hbeside.book, hdrawn]
      exact ⟨h.sound.draw, h.approvals, h.workflows⟩
  · obtain ⟨rfl, -⟩ := hchecked
    exact hfail e

end Promote

/-! ## Interrupted promotions -/

/-- A file of a stored proposal is given a content of its change. -/
theorem Working.authorized_later {proposal : RepairProposal} {approval : RepairApproval} {root : String}
    {change : PatchChange} {content : FileState} (h : Working host solo b k (bookOf w))
    (hproposal : proposal ∈ w.records.repairProposals) (hid : proposal.id = k.proposalId)
    (ha : approval ∈ (bookOf w).approvals) (hof : approval.id = k.approvalId)
    (hroot : host.selectRoot approval.projectRoot = .ok root) (hchange : change ∈ proposal.changes)
    (hpath : change.path ∈ proposal.authorizedPaths) (hcontent : Content host change content.bytes) :
    Authorized host w (host.target root change.path) content := by
  obtain ⟨q, hq, rfl, hopen⟩ := h.opened
  obtain ⟨a, hstored, hdecision, happroval, hproposal'⟩ := h.left.sound.approved q hq
  obtain rfl := List.inj_on_of_nodup_map h.left.sound.approvalIds hstored ha (happroval.trans hof.symm)
  exact ⟨q, hq, hopen, a, ha, hdecision, happroval, hproposal', change,
    Or.inr ⟨proposal, hproposal, hid, hchange, hpath, root, hroot, rfl⟩, hcontent⟩

theorem mem_originals {changes : List PatchChange} {paths : List (String × FileState)} {o : Original}
    (ho : o ∈ originals changes paths) : ∃ change target state, (change, target, state) ∈ changes.zip paths ∧
      o = ⟨target, utf8 (change.beforeContent.getD ""), state.mode⟩ := by
  suffices hfrom : ∀ (pairs : List (PatchChange × String × FileState)) (start : List Original),
      o ∈ pairs.foldl (fun os x =>
        setOriginal os ⟨x.2.1, utf8 (x.1.beforeContent.getD ""), x.2.2.mode⟩) start →
      o ∈ start ∨ ∃ change target state, (change, target, state) ∈ pairs ∧
        o = ⟨target, utf8 (change.beforeContent.getD ""), state.mode⟩ by
    rcases hfrom _ _ ho with hnone | hfound
    · cases hnone
    · exact hfound
  intro pairs
  induction pairs with
  | nil => exact fun _ h => Or.inl h
  | cons pair pairs ih =>
    obtain ⟨change, target, state⟩ := pair
    intro start h
    rcases ih _ h with hstart | ⟨change', target', state', hmem, heq⟩
    · rcases Rows.mem_upsert.mp hstart with rfl | ⟨hmem, -⟩
      · exact Or.inr ⟨change, target, state, List.mem_cons_self, rfl⟩
      · exact Or.inl hmem
    · exact Or.inr ⟨change', target', state', List.mem_cons_of_mem _ hmem, heq⟩

theorem recoverInterrupted_wp {proposal : RepairProposal} {approval : RepairApproval} {root : String}
    {l : Promoting} (h : Underway host solo b k l w) (hproposal : proposal ∈ w.records.repairProposals)
    (hid : proposal.id = k.proposalId) (ha : approval ∈ b.approvals) (hof : approval.id = k.approvalId)
    (hroot : host.selectRoot approval.projectRoot = .ok root) :
    (recoverInterrupted host proposal root).wp (lawful host solo)
      (fun r _ w' => Ended host solo b k r w') l w := by
  unfold recoverInterrupted
  split
  · have hrecorded := recorded_mark (p := { l.promotion with failureReason := some unrecoverable })
      .applicationFailed unrecoverable (fun hs => by cases hs) fun hs => by cases hs
    refine Act.wp_set (Act.wp_set (wp_saveCurrent h hrecorded (fun w' hsaved _ => ?_) fun e w' hbeside => ?_))
    · change Finished host solo b k _ (bookOf w')
      rw [hsaved]
      exact h.2.finish h.1 hrecorded rfl
    · exact (h.beside hbeside.book).2.left
  · next hcomplete =>
    refine wp_files (Act.wp_result (fun paths hpaths => ?_) fun _ _ => h.2.left)
    have hrestorable : ∀ w', Working host solo b k (bookOf w') → w'.records = w.records →
        ∀ o ∈ originals proposal.changes paths, Authorized host w' o.target o.content := by
      intro w' hworking hrecords o ho
      obtain ⟨change, target, state, hmem, rfl⟩ := mem_originals ho
      obtain ⟨rfl, -, hpath⟩ := file_of_validatedPath (List.forall₂_zip (Results.mapM_ok hpaths) hmem)
      have hchange : change ∈ proposal.changes := (List.of_mem_zip hmem).1
      refine hworking.authorized_later (hrecords ▸ hproposal) hid (hworking.left.approvals ▸ ha) hof hroot
        hchange hpath (Or.inr (Or.inr ?_))
      cases hbefore : change.beforeContent with
      | some text => rfl
      | none => exact absurd (List.any_eq_true.mpr ⟨change, hchange, by rw [hbefore]; rfl⟩) hcomplete
    refine Act.wp_seq (restoreAll_wp (I := fun l' w' => Underway host solo b k l' w' ∧ w'.records = w.records)
      ⟨h, rfl⟩ (fun _ w' h' => hrestorable w' h'.1.2 h'.2)
      (fun _ _ _ h' hbeside => ⟨h'.1.beside hbeside.book, hbeside.records.trans h'.2⟩) fun _ _ _ h' => h')
      (fun rollbackError l' w' h' => ?_) fun _ _ _ h' => h'.1.2.left
    refine Act.wp_seq (inspectRollback_wp h'.1) (fun verified l'' w'' h'' => ?_) fun _ _ _ h'' => h''.1.2.left
    exact Act.wp_set (wp_close h''.1 (h''.2 verified rfl))

/-! ## Approvals -/

/-- What is stored of a decision that a call returns. -/
structure Decided (b : Book) (result : PromotionRunResult) : Prop where
  stored : result.approval ∈ b.approvals
  rejected : result.approval.decision = .rejected → result.promotion = none
  promoted : result.approval.decision = .approved → ∃ p ∈ b.promotions, result.promotion = some p ∧
    p.approvalId = result.approval.id ∧ Settled b p

theorem approved_of_ne {decision : ApprovalDecision} (h : decision ≠ .rejected) :
    decision = .approved := by
  cases decision with
  | approved => rfl
  | rejected => exact absurd rfl h

theorem decided_of_rejected {approval : RepairApproval} (ha : approval ∈ b.approvals)
    (hdecision : approval.decision = .rejected) : Decided b { approval } :=
  ⟨ha, fun _ => rfl, fun happroved => by rw [hdecision] at happroved; cases happroved⟩

theorem decided_of_promoted {approval : RepairApproval} {p : RepairPromotion} (ha : approval ∈ b.approvals)
    (hdecision : approval.decision = .approved) (hp : p ∈ b.promotions)
    (hof : p.approvalId = approval.id) (hsettled : Settled b p) :
    Decided b { approval, promotion := some p } :=
  ⟨ha, fun hrejected => (by rw [hdecision] at hrejected; cases hrejected),
    fun _ => ⟨p, hp, rfl, hof, hsettled⟩⟩

/-- What a decision leaves, and what it returns. -/
structure Resumed (host : WorkflowHost) (solo : Prop) (b : Book) (approvalId : String)
    (r : Except PyError PromotionRunResult) (w : World) : Prop where
  left : Left host solo b (bookOf w)
  returned : ∀ result, r = .ok result → result.approval.id = approvalId ∧ Decided (bookOf w) result

theorem resumed_error {approvalId : String} {e : PyError} (h : Left host solo b (bookOf w)) :
    Resumed host solo b approvalId (.error e) w :=
  ⟨h, fun _ heq => by cases heq⟩

theorem resumed_ok {approval : RepairApproval} {promotion : Option RepairPromotion}
    (h : Left host solo b (bookOf w)) (hdecided : Decided (bookOf w) { approval, promotion }) :
    Resumed host solo b approval.id (.ok { approval, promotion }) w := by
  refine ⟨h, fun result heq => ?_⟩
  cases heq
  exact ⟨rfl, hdecided⟩

theorem review_wp {proposalId : String} {Q : Except PyError (RepairProposal × RepairValidation) → Unit →
      World → Prop} (hok : ∀ proposal ∈ w.records.repairProposals,
      ∀ validation ∈ w.records.repairValidations, proposal.id = proposalId → proposal.status = .verified →
      validation.proposalId = proposalId → validation.status = .verified →
      Q (.ok (proposal, validation)) () w) (herror : ∀ e, Q (.error e) () w) :
    (review proposalId).wp (lawful host solo) Q () w := by
  unfold review
  refine wp_store ?_
  split
  · exact herror _
  · next proposal hproposal =>
    refine wp_store ?_
    dsimp only
    split
    · exact herror _
    · next validation hvalidation =>
      refine Act.wp_check (fun hverified => ?_) fun _ => herror _
      have hid : proposal.id = proposalId := by simpa using List.find?_some hproposal
      have hof := List.find?_some hvalidation
      simp only [Bool.and_eq_true, beq_iff_eq] at hof
      exact hok proposal (List.mem_of_find?_eq_some hproposal) validation
        (List.mem_reverse.mp (List.mem_of_find?_eq_some hvalidation)) hid hverified (hof.1.trans hid) hof.2

theorem resumeApproval_wp {approvalId : String} (h : Left host solo b (bookOf w)) :
    (resumeApproval host approvalId).wp (lawful host solo)
      (fun r _ w' => Resumed host solo b approvalId r w') () w := by
  unfold resumeApproval
  have hfail : ∀ e, Resumed host solo b approvalId (.error e) w := fun e => resumed_error h
  refine wp_store ?_
  split
  · exact hfail _
  · next approval hfound =>
    have ha : approval ∈ (bookOf w).approvals := List.mem_of_find?_eq_some hfound
    obtain rfl : approval.id = approvalId := by simpa using List.find?_some hfound
    split
    · next hrejected => exact resumed_ok h (decided_of_rejected ha hrejected)
    · next hnot =>
      have hdecision : approval.decision = .approved := approved_of_ne hnot
      rw [Act.wp_bind]
      refine review_wp (fun proposal hproposal validation _ hid _ _ _ => ?_) hfail
      rw [Act.onOk_ok]
      dsimp only
      refine Act.wp_result (fun root hroot => wp_store ?_) fun e _ => hfail e
      split
      · refine Act.wp_seq (promote_wp h ha hdecision hid.symm) (fun p _ w' hdone => ?_)
          fun e _ w' hdone => resumed_error hdone.left
        obtain ⟨hp, hof, hsettled⟩ := hdone.returned p rfl
        refine resumed_ok hdone.left (decided_of_promoted ?_ hdecision hp hof hsettled)
        rwa [hdone.left.approvals, ← h.approvals]
      · next existing hexisting =>
        have hmem := List.mem_filter.mp (List.mem_reverse.mp (List.mem_of_find?_eq_some hexisting))
        have hstored : existing ∈ (bookOf w).promotions := hmem.1
        have hof : existing.approvalId = approval.id := by simpa using List.find?_some hexisting
        split
        · refine Act.wp_seq (reconcile_wp h) (fun made _ w' hdone => ?_)
            fun e _ w' hdone => resumed_error hdone.left
          obtain ⟨hmade, hname⟩ := hdone.returned made rfl
          refine resumed_ok hdone.left (decided_of_promoted ?_ hdecision ?_ hof (Or.inr ⟨made, hmade, hname⟩))
          · rwa [hdone.left.approvals, ← h.approvals]
          · rwa [hdone.promotions]
        · next hunverified =>
          split
          · next hclosed =>
            refine resumed_ok h (decided_of_promoted ha hdecision hstored hof (Or.inl ?_))
            rcases hclosed with hstatus | hstatus <;> rw [hstatus] <;> rfl
          · next hopen =>
            have hworking : Working host solo b (journal existing) (bookOf w) := by
              refine ⟨h, existing, hstored, rfl, fun hsettled => ?_⟩
              rcases settled_status h.sound hstored hsettled with hclosed | hverified
              · exact hopen hclosed
              · exact hunverified hverified
            have hproposalId : proposal.id = existing.proposalId := by
              simpa using (beq_iff_eq.mp hmem.2).symm
            refine wp_call (R := Promoted host solo b approval.id) (Act.wp_mono
              (recoverInterrupted_wp ⟨rfl, hworking⟩ hproposal hproposalId (h.approvals ▸ ha) hof.symm hroot)
              fun r _ w' hended => ?_) (fun p w' hdone => ?_) fun e w' hdone => resumed_error hdone.left
            · exact hof ▸ hended.promoted
            · obtain ⟨hp, hof', hsettled⟩ := hdone.returned p rfl
              refine resumed_ok hdone.left (decided_of_promoted ?_ hdecision hp hof' hsettled)
              rwa [hdone.left.approvals, ← h.approvals]

/-! ## Decisions -/

theorem Left.refl (h : Sound host solo (bookOf w)) : Left host solo (bookOf w) (bookOf w) :=
  ⟨h, rfl, rfl⟩

theorem mem_approve {b' : Book} {a : RepairApproval} (h : b' = b.approve a) : a ∈ b'.approvals := by
  rw [h]
  exact Rows.mem_upsert.mpr (Or.inl rfl)

/-- A refused promotion is closed at once, and the refusal goes on. -/
theorem recordRefusal_wp {proposal : RepairProposal} {validation : RepairValidation}
    {approval : RepairApproval} {root : String} (e : PyError) (h : Left host solo b (bookOf w))
    (ha : approval ∈ (bookOf w).approvals) (hdecision : approval.decision = .approved)
    (hof : approval.proposalId = proposal.id) :
    (recordRefusal host proposal validation approval root e).wp (lawful host solo)
      (fun r _ w' => Promoted host solo b approval.id r w') () w := by
  unfold recordRefusal
  refine wp_files (wp_newId fun w₁ hdrawn _ => ?_)
  obtain ⟨hmay, hleft, -⟩ := underway_new (p := {
    id := host.newId "PROMOTION" (bookOf w).drawn
    proposalId := proposal.id
    validationId := validation.id
    approvalId := approval.id
    projectRoot := root
    status := .applicationFailed
    changes := proposal.changes
    originalTreeFingerprint := host.treeFingerprint root w.tree
    failureReason := some s!"promotion precondition failed: {e.message}"
    events := [⟨.approved, "Human approval recorded."⟩,
      ⟨.applicationFailed, s!"Promotion refused before source writes: {e.message}"⟩] })
    h ha hdecision rfl rfl hof.symm ⟨rfl, fun hs => (by cases hs), fun hs => (by cases hs)⟩ hdrawn
  refine wp_savePromotion hmay (fun w₂ hsaved _ => ?_) fun e' w₂ hbeside => ?_
  · refine promoted_error ?_
    rw [hsaved]
    exact hleft
  · refine promoted_error ?_
    rw [hbeside.book, hdrawn]
    exact ⟨h.sound.draw, h.approvals, h.workflows⟩

/-- What a decision on a proposal leaves. -/
structure Taken (host : WorkflowHost) (solo : Prop) (b : Book)
    (P : PromotionRunResult → Book → Prop) (r : Except PyError PromotionRunResult) (w : World) :
    Prop where
  sound : Sound host solo (bookOf w)
  workflows : (bookOf w).workflows = b.workflows
  returned : ∀ result, r = .ok result → P result (bookOf w)

/-- A decision on a proposal, with a condition on it. -/
def Deciding (proposalId : String) (C : ApprovalDecision → Prop) (result : PromotionRunResult)
    (b : Book) : Prop :=
  result.approval.proposalId = proposalId ∧ C result.approval.decision ∧ Decided b result

theorem taken_error {P : PromotionRunResult → Book → Prop} {e : PyError}
    (h : Sound host solo (bookOf w)) (hworkflows : (bookOf w).workflows = b.workflows) :
    Taken host solo b P (.error e) w :=
  ⟨h, hworkflows, fun _ heq => by cases heq⟩

theorem taken_ok {P : PromotionRunResult → Book → Prop} {result : PromotionRunResult}
    (h : Sound host solo (bookOf w)) (hworkflows : (bookOf w).workflows = b.workflows)
    (hP : P result (bookOf w)) : Taken host solo b P (.ok result) w :=
  ⟨h, hworkflows, fun _ heq => by cases heq; exact hP⟩

theorem decideRepair_wp {proposalId projectRoot approvedBy reason : String} {decision : ApprovalDecision}
    (h : Sound host solo (bookOf w)) (hworkflows : (bookOf w).workflows = b.workflows)
    (hfirst : solo → proposalId ∉ (bookOf w).approvals.map (·.proposalId)) :
    (decideRepair host proposalId projectRoot decision approvedBy reason).wp (lawful host solo)
      (fun r _ w' => Taken host solo b (Deciding proposalId (· = decision)) r w') () w := by
  unfold decideRepair
  have hfail : ∀ e, Taken host solo b (Deciding proposalId (· = decision)) (.error e) w := fun e =>
    taken_error h hworkflows
  rw [Act.wp_bind]
  refine review_wp (fun proposal hproposal validation hvalidation hid hverified hvof hvstatus => ?_) hfail
  rw [Act.onOk_ok]
  dsimp only
  refine Act.wp_result (fun root _ => ?_) fun e _ => hfail e
  refine Act.wp_check (fun _ => ?_) fun _ => hfail _
  refine Act.wp_check (fun hsigned => ?_) fun _ => hfail _
  refine Act.wp_seq (R := fun _ _ w' => w' = w) ?_ (fun _ _ w' hw => ?_) fun e _ w' hw => hw ▸ hfail e
  · unfold requireOnboarded
    refine wp_store ?_
    rw [Act.wp_require]
    split <;> rfl
  · subst hw
    refine wp_newId fun w₁ hdrawn hrecords => ?_
    have hmay : MayApprove host solo (bookOf w₁) {
        id := host.newId "APPROVAL" (bookOf w').drawn
        proposalId := proposal.id
        validationId := validation.id
        projectRoot := root
        proposalSignature := proposal.signature
        sourceTreeFingerprint := proposal.sourceTreeFingerprint
        decision
        approvedBy := PyText.strip approvedBy
        reason := PyText.strip reason } := by
      rw [hdrawn]
      exact ⟨drawn_new _, not_mem_ids h.drawnApprovals, hsigned, fun hsolo => hid ▸ hfirst hsolo⟩
    have hsound : Sound host solo (bookOf w₁) := hdrawn ▸ h.draw
    have hsame : (bookOf w₁).workflows = b.workflows := by
      rw [hdrawn]
      exact hworkflows
    refine wp_saveApproval hmay ?_ (fun w₂ hsaved _ => ?_) fun e w₂ hbeside => ?_
    · refine ⟨proposal, hrecords ▸ hproposal, rfl, hverified, validation, hrecords ▸ hvalidation, rfl, ?_,
        hvstatus⟩
      exact hvof.trans hid.symm
    · have hsound₂ : Sound host solo (bookOf w₂) := hsaved ▸ hsound.approve hmay
      have hstored := mem_approve hsaved
      have hsame₂ : (bookOf w₂).workflows = b.workflows := by
        rw [hsaved]
        exact hsame
      split
      · next hrejected =>
        exact taken_ok hsound₂ hsame₂ ⟨hid, rfl, decided_of_rejected hstored hrejected⟩
      · next hnot =>
        have hdecision : decision = .approved := approved_of_ne hnot
        refine Act.wp_seq (R := fun r _ w' => Promoted host solo (bookOf w₂) _ r w')
          (Act.wp_onError (promote_wp (Left.refl hsound₂) hstored hdecision rfl)
          (fun _ _ _ h' => h') (fun e l' w₃ h' _ => ?_) fun _ _ _ h' _ => h')
          (fun p _ w₃ hdone => ?_) fun e _ w₃ hdone => ?_
        · exact recordRefusal_wp e h'.left (h'.left.approvals ▸ hstored) hdecision rfl
        · obtain ⟨hp, hof, hsettled⟩ := hdone.returned p rfl
          refine taken_ok hdone.left.sound (hdone.left.workflows.trans hsame₂) ⟨hid, rfl, ?_⟩
          exact decided_of_promoted (hdone.left.approvals ▸ hstored) hdecision hp hof hsettled
        · exact taken_error hdone.left.sound (hdone.left.workflows.trans hsame₂)
    · refine taken_error (hbeside.book ▸ hsound) ?_
      rw [hbeside.book]
      exact hsame

end RlmGraph.Repair.PromotionCalls
