import RlmGraph.Sandbox.Confinement
import RlmGraph.Sandbox.Review

/-! # The standing of a sandbox attempt

The operations of the manager that work on an attempt, and which of them leave
the status and the promotion of an attempt as they are once its promotion has
begun: each checks the promotion and refuses, or works on another attempt.
`discard` has no such check. -/
namespace RlmGraph.Sandbox.Standing
open RlmGraph.Lib RlmGraph.Lib.Programs
open RlmGraph.Governance.Tickets (ProjectTicket)
open RlmGraph.Governance.Policy RlmGraph.Governance.ArtifactKinds
open RlmGraph.Sandbox.Records RlmGraph.Sandbox.Operations RlmGraph.Sandbox.Approval
open RlmGraph.Sandbox.Promote RlmGraph.Sandbox.Recover RlmGraph.Sandbox.Review
open RlmGraph.Sandbox.Confinement

/-! ## Operations -/

/-- What the manager does to an attempt, by ticket and identifier. -/
inductive Operation where
  | discard (ticketId attemptId : String)
  | satisfyValidation (ticketId attemptId decisionId actor detail governanceDecision : String)
  | runValidationWorker (ticketId attemptId decisionId workerId : String)
  | importExternalValidationReport (ticketId attemptId decisionId actor : String) (req : ExternalReport)
  | approvePromotion (ticketId attemptId actor reason decision : String)
  | promote (ticketId attemptId : String)
  | recoverPromotion (ticketId attemptId : String)

def Operation.call (host : ReviewHost) : Operation → ReviewAct ImplementationSandboxAttempt
  | .discard ticketId attemptId => Review.discard ticketId attemptId
  | .satisfyValidation ticketId attemptId decisionId actor detail governanceDecision =>
    Review.satisfyValidation host ticketId attemptId decisionId actor detail governanceDecision
  | .runValidationWorker ticketId attemptId decisionId workerId =>
    Review.runValidationWorker host ticketId attemptId decisionId workerId
  | .importExternalValidationReport ticketId attemptId decisionId actor req =>
    Review.importExternalValidationReport host ticketId attemptId decisionId actor req
  | .approvePromotion ticketId attemptId actor reason decision =>
    Approval.approvePromotion host.toSandboxHost ticketId attemptId actor reason decision
  | .promote ticketId attemptId => Promote.promote host.toSandboxHost ticketId attemptId
  | .recoverPromotion ticketId attemptId =>
    Recover.recoverPromotion host.toSandboxHost ticketId attemptId

/-- The rows of an attempt; the key of the table allows one. -/
def rows (attemptId : String) (store : Store) : List ImplementationSandboxAttempt :=
  store.sandboxes.filter (·.id == attemptId)

/-- The status that is stored of an attempt. -/
def status (attemptId : String) (store : Store) : Option String :=
  (rows attemptId store).head?.map (·.status)

def unfinished (attemptId : String) (store : Store) : Prop :=
  ∃ attempt ∈ rows attemptId store, attempt.unfinishedJournal ≠ none

/-! ## What an operation may save -/

/-- Saves the attempt only with this status and this promotion. -/
def Respects (attemptId status : String) (promotion : Option SandboxPromotionRecord) (o : Op) : Prop :=
  ∀ attempt, o = .saveImplementationSandbox attempt → attempt.id = attemptId →
    attempt.status = status ∧ attempt.promotion = promotion

section
variable {A st : String} {pr : Option SandboxPromotionRecord} {L α β : Type} {I : L → Prop}

theorem respects_of_looks {o : Op} (h : looks o) : Respects A st pr o := by
  intro attempt ho
  subst ho
  exact h.elim

theorem respects_looking {x : SandboxAct L α} (h : Act.Confined looks I x) :
    Act.Confined (Respects A st pr) I x :=
  h.mono fun _ => respects_of_looks

theorem confined_within {ok : Op → Prop} {L' : Type} {I' : L' → Prop} {x : SandboxAct L α} {l : L}
    (hx : Act.Confined ok I x) (hl : I l) :
    Act.Confined ok I' (x.within l : SandboxAct L' α) :=
  fun _ s hl' => Act.wp_within (Act.wp_mono (hx l s hl) fun _ _ _ _ => hl')

theorem respects_save {attempt : ImplementationSandboxAttempt} (h : attempt.id ≠ A) :
    Respects A st pr (.saveImplementationSandbox attempt) := by
  intro saved ho hid
  cases ho
  exact absurd hid h

theorem respects_checkpoint {attempt : ImplementationSandboxAttempt} (h : attempt.id ≠ A)
    (stage detail : String) : Act.Confined (Respects A st pr) I (checkpoint attempt stage detail) := by
  exact Act.Keeps.bind (Act.confined_perform (respects_save h)) fun _ => Act.keeps_pure _

theorem respects_ticket (ticket : ProjectTicket) :
    Act.Confined (Respects A st pr) I (saveProjectTicket ticket : SandboxAct L Unit) :=
  Act.confined_perform fun _ ho => by cases ho

/-- The row of an attempt, by ticket and identifier. -/
def listed (ticketId attemptId : String) (store : Store) : Option ImplementationSandboxAttempt :=
  store.sandboxes.find? fun item => item.ticketId == ticketId && item.id == attemptId

theorem listed_some {ticketId attemptId : String} {store : Store}
    {attempt : ImplementationSandboxAttempt} (h : listed ticketId attemptId store = some attempt) :
    attempt ∈ rows attemptId store ∧ attempt.id = attemptId := by
  have hfits := List.find?_some h
  simp only [Bool.and_eq_true, beq_iff_eq] at hfits
  exact ⟨List.mem_filter.mpr ⟨List.mem_of_find?_eq_some h, by simpa using hfits.2⟩, hfits.2⟩

theorem attemptOf_listed {host : SandboxHost} {ticketId attemptId : String} {store : Store}
    {attempt : ImplementationSandboxAttempt}
    (h : attemptOf host ticketId attemptId store = .ok attempt) :
    listed ticketId attemptId store = some attempt ∧ attempt.ticketId = ticketId := by
  unfold attemptOf at h
  cases hfind : store.sandboxes.find? fun item => item.ticketId == ticketId && item.id == attemptId with
  | none =>
    rw [hfind] at h
    cases h
  | some found =>
    rw [hfind] at h
    obtain rfl : found = attempt := by
      simp only [bind, Except.bind] at h
      repeat' split at h
      all_goals first | (cases h; rfl) | cases h
    have hfits := List.find?_some hfind
    simp only [Bool.and_eq_true, beq_iff_eq] at hfits
    exact ⟨hfind, hfits.1⟩

theorem attemptOf_id {host : SandboxHost} {ticketId attemptId : String} {store : Store}
    {attempt : ImplementationSandboxAttempt}
    (h : attemptOf host ticketId attemptId store = .ok attempt) :
    attempt ∈ store.sandboxes ∧ attempt.id = attemptId := by
  obtain ⟨hrow, hid⟩ := listed_some (attemptOf_listed h).1
  exact ⟨(List.mem_filter.mp hrow).1, hid⟩

/-! ### The calls of a review -/

theorem respects_updateColumns (attemptId : String) (f : ReviewColumns → ReviewColumns) :
    Act.Confined (Respects A st pr) (fun _ => True) (updateColumns attemptId f) :=
  Act.keeps_modify fun _ _ _ => trivial

theorem respects_ticketValidationEvent (attempt : ImplementationSandboxAttempt)
    (artifactId status worker : String) :
    Act.Confined (Respects A st pr) (fun _ => True)
      (ticketValidationEvent attempt artifactId status worker) := by
  refine (respects_looking looks_readStore).bind fun store => ?_
  exact Act.Keeps.ite (Act.keeps_pure _) (respects_looking (Act.confined_perform trivial))

variable {attempt : ImplementationSandboxAttempt}

seal Act.wp in
theorem respects_executeWorker (host : ReviewHost) (ticketId : String)
    (decision : SandboxValidationDecision) (spec : ValidationWorkerSpec) (mirror : Mirror) :
    Act.Confined (Respects A st pr) (fun _ => True)
      (executeWorker host ticketId attempt decision spec mirror) := by
  refine (respects_looking (looks_policy host.toSandboxHost _)).bind fun policy => ?_
  refine (respects_looking looks_newId).bind fun drawn => ?_
  refine (Act.keeps_require _ _).bind fun _ => ?_
  split
  · exact Act.keeps_pure _
  · refine (respects_looking (looks_checkBudget host.toSandboxHost _)).bind fun ticket => ?_
    refine Act.Keeps.ite (Act.keeps_pure _) ?_
    exact (Act.keeps_ofExcept _).bind fun _ => Act.keeps_pure _

theorem respects_recordExecution (h : attempt.id ≠ A) (decision : SandboxValidationDecision)
    (spec : ValidationWorkerSpec) (execution : SandboxValidationWorkerExecution) :
    Act.Confined (Respects A st pr) (fun _ => True)
      (recordExecution attempt decision spec execution) :=
  (respects_updateColumns _ _).bind fun _ => respects_checkpoint (by exact h) _ _

seal Act.wp in
theorem respects_runWorker (h : attempt.id ≠ A) (host : ReviewHost) (ticketId : String)
    (decision : SandboxValidationDecision) (spec : ValidationWorkerSpec) :
    Act.Confined (Respects A st pr) (fun _ => True)
      (runWorker host ticketId attempt decision spec) := by
  refine (respects_looking (looks_checkBudget host.toSandboxHost _)).bind fun ticket => ?_
  refine (respects_looking (looks_ask _)).bind fun project => ?_
  refine (respects_looking (looks_currentManifest host.toSandboxHost _ _)).bind fun current => ?_
  refine (Act.keeps_require _ _).bind fun _ => ?_
  refine (respects_looking looks_perfCounter).bind fun started => ?_
  refine (respects_looking (looks_look _)).bind fun baseline => ?_
  refine (respects_executeWorker host ticketId decision spec baseline).bind fun executed => ?_
  refine (respects_recordExecution h decision spec _).bind fun recorded => ?_
  refine (respects_looking looks_perfCounter).bind fun now => ?_
  refine (respects_ticket _).bind fun _ => ?_
  exact (respects_ticketValidationEvent _ _ _ _).bind fun _ => Act.keeps_pure _

seal Act.wp in
theorem respects_recordReport (h : attempt.id ≠ A) (host : ReviewHost) (ticketId : String)
    (decision : SandboxValidationDecision) (actor : String) (req : ExternalReport) :
    Act.Confined (Respects A st pr) (fun _ => True)
      (recordReport host ticketId attempt decision actor req) := by
  refine (respects_looking (looks_policy host.toSandboxHost _)).bind fun policy => ?_
  refine (respects_looking looks_newId).bind fun drawn => ?_
  refine (Act.keeps_ofExcept _).bind fun records => ?_
  refine (respects_looking looks_newId).bind fun reportId => ?_
  refine (Act.keeps_ofExcept _).bind fun found => ?_
  refine (respects_updateColumns _ _).bind fun _ => ?_
  refine (respects_checkpoint (by exact h) _ _).bind fun recorded => ?_
  exact (respects_ticketValidationEvent _ _ _ _).bind fun _ => Act.keeps_pure _

end
/-! ## A decided attempt -/

/-- The attempt is stored once, with this status and this promotion. -/
def Stands (attemptId status : String) (promotion : Option SandboxPromotionRecord) (store : Store) :
    Prop :=
  ∃ attempt, rows attemptId store = [attempt] ∧ attempt.status = status ∧
    attempt.promotion = promotion

theorem rows_save (attemptId : String) (store : Store) (attempt : ImplementationSandboxAttempt) :
    rows attemptId (store.saveImplementationSandbox attempt) =
      if attempt.id = attemptId then [attempt] else rows attemptId store := by
  unfold rows Store.saveImplementationSandbox
  simp only [List.filter_append, List.filter_filter]
  by_cases hid : attempt.id = attemptId
  · subst hid
    have hnone : store.sandboxes.filter (fun a => a.id == attempt.id && a.id != attempt.id) = [] := by
      simp
    simp [hnone]
  · have hsame : ∀ a : ImplementationSandboxAttempt,
        (a.id == attemptId && a.id != attempt.id) = (a.id == attemptId) := by
      intro a
      by_cases ha : a.id = attemptId
      · simp [ha, Ne.symm hid]
      · simp [ha]
    simp [hsame, hid]

/-- An operation but a save of an attempt leaves the rows of the attempts. -/
theorem sandboxes_perform (host : SandboxHost) (o : Op) (world : World)
    (h : ∀ attempt, o ≠ .saveImplementationSandbox attempt) :
    (perform host o world).2.store.sandboxes = world.store.sandboxes := by
  cases o with
  | saveImplementationSandbox attempt => exact absurd rfl (h attempt)
  | replaceFile target content =>
    simp only [perform]
    split <;> rfl
  | _ => rfl

section
variable {A st : String} {pr : Option SandboxPromotionRecord} {L α β : Type} {I : L → Prop}
  {host : SandboxHost} {world : World} {l : L}

/-- The operations, with the standing of the attempt before each of them. -/
abbrev standing (host : SandboxHost) (A st : String) (pr : Option SandboxPromotionRecord) :
    OpSpec Op Reply World :=
  guarded (fun _ world => Stands A st pr world.store) (perform host)

theorem stands_perform {o : Op} (ho : Respects A st pr o) (h : Stands A st pr world.store) :
    Stands A st pr (perform host o world).2.store := by
  by_cases hsave : ∃ attempt, o = .saveImplementationSandbox attempt
  · obtain ⟨attempt, rfl⟩ := hsave
    obtain ⟨current, hrows, hstatus, hpromotion⟩ := h
    show Stands A st pr (world.store.saveImplementationSandbox attempt)
    unfold Stands
    rw [rows_save]
    by_cases hid : attempt.id = A
    · rw [if_pos hid]
      exact ⟨attempt, rfl, ho attempt rfl hid⟩
    · rw [if_neg hid]
      exact ⟨current, hrows, hstatus, hpromotion⟩
  · have hsame := sandboxes_perform host o world fun attempt ha => hsave ⟨attempt, ha⟩
    unfold Stands rows
    rw [hsame]
    exact h

theorem wp_of_respects {x : SandboxAct L α} (hx : Act.Confined (Respects A st pr) I x) (hl : I l)
    (h : Stands A st pr world.store) :
    x.wp (standing host A st pr) (fun _ l' world' => I l' ∧ Stands A st pr world'.store) l world := by
  have hops : ∀ o (w : World), Respects A st pr o → Stands A st pr w.store →
      (standing host A st pr).holds o w fun _ w' => Stands A st pr w'.store :=
    fun o w ho hw => ⟨hw, stands_perform ho hw⟩
  have hkeeps : Act.Keeps (standing host A st pr) (fun l w => I l ∧ Stands A st pr w.store) x :=
    Act.Confined.keeps hx hops
  exact hkeeps l world ⟨hl, h⟩

/-- The rule of a question to the store. -/
theorem wp_ask {G : Op → World → Prop} {f : Store → Except PyError α} {g : α → SandboxAct L β}
    {Q : Except PyError β → L → World → Prop} (hG : G .readStore world)
    (hok : ∀ a, f world.store = .ok a →
      (g a).wp (guarded G (perform host)) Q l (world.next host))
    (herror : ∀ e, f world.store = .error e → Q (.error e) l (world.next host)) :
    (ask f >>= g).wp (guarded G (perform host)) Q l world := by
  have hanswer : Act.onOk Q (fun a => (g a).wp (guarded G (perform host)) Q) (f world.store) l
      (world.next host) := by
    cases h : f world.store with
    | error e => exact herror e h
    | ok a => exact hok a h
  rw [Act.wp_bind]
  unfold ask
  rw [Act.wp_bind]
  exact ⟨hG, hanswer⟩

/-- A call that looks up an attempt and goes on with it. -/
theorem wp_attempt {ticketId attemptId : String} {g : ImplementationSandboxAttempt → SandboxAct L β}
    (hl : I l) (h : Stands A st pr world.store)
    (hg : ∀ attempt, attempt.id = attemptId →
      (attempt.id = A → attempt.status = st ∧ attempt.promotion = pr) →
        Act.Confined (Respects A st pr) I (g attempt)) :
    (ask (attemptOf host ticketId attemptId) >>= g).wp (standing host A st pr)
      (fun _ l' world' => I l' ∧ Stands A st pr world'.store) l world := by
  refine wp_ask h (fun attempt hfound => ?_) fun e _ => ⟨hl, h⟩
  obtain ⟨hmem, hid⟩ := attemptOf_id hfound
  refine wp_of_respects (hg attempt hid fun hA => ?_) hl h
  obtain ⟨current, hrows, hstatus, hpromotion⟩ := h
  have hrow : attempt ∈ rows A world.store := List.mem_filter.mpr ⟨hmem, by simpa using hA⟩
  rw [hrows, List.mem_singleton] at hrow
  subst hrow
  exact ⟨hstatus, hpromotion⟩

/-! ### Operations on a decided attempt -/

/-- A call that goes on with an attempt only if no promotion of it has begun. -/
theorem stands_review {ticketId attemptId : String}
    {g : ImplementationSandboxAttempt → ReviewAct ImplementationSandboxAttempt} (hpr : pr ≠ none)
    (hrefuses : ∀ attempt, attempt.promotion ≠ none →
      Act.Confined (Respects A st pr) (fun _ => True) (g attempt))
    (hother : ∀ attempt, attempt.id ≠ A →
      Act.Confined (Respects A st pr) (fun _ => True) (g attempt))
    (h : Stands A st pr world.store) (columns : Columns) :
    (ask (attemptOf host ticketId attemptId) >>= g).wp (standing host A st pr)
      (fun _ _ world' => Stands A st pr world'.store) columns world := by
  refine Act.wp_mono (wp_attempt (I := fun _ => True) trivial h fun attempt _ hA => ?_)
    fun _ _ _ h' => h'.2
  by_cases hid : attempt.id = A
  · exact hrefuses attempt (by rw [(hA hid).2]; exact hpr)
  · exact hother attempt hid

seal Act.wp in
theorem stands_satisfyValidation (host : ReviewHost) (hpr : pr ≠ none)
    (h : Stands A st pr world.store) (columns : Columns)
    (ticketId attemptId decisionId actor detail governanceDecision : String) :
    (satisfyValidation host ticketId attemptId decisionId actor detail governanceDecision).wp
      (standing host.toSandboxHost A st pr) (fun _ _ world' => Stands A st pr world'.store)
      columns world := by
  unfold satisfyValidation
  refine stands_review hpr (fun attempt hp => ?_) (fun attempt hid => ?_) h columns
  · exact (Act.refuses_check fun hc => hp hc.2).confined
  · refine (Act.keeps_require _ _).bind fun _ => ?_
    refine (Act.keeps_require _ _).bind fun _ => ?_
    refine (Act.keeps_ofExcept _).bind fun decision => ?_
    refine (Act.keeps_require _ _).bind fun _ => ?_
    refine (Act.keeps_require _ _).bind fun _ => ?_
    refine (respects_looking (looks_policy host.toSandboxHost _)).bind fun policy => ?_
    refine (respects_looking looks_newId).bind fun drawn => ?_
    refine (Act.keeps_ofExcept _).bind fun records => ?_
    refine (Act.keeps_ofExcept _).bind fun report => ?_
    refine Act.Keeps.bind (Act.Keeps.when (respects_updateColumns _ _)) fun _ => ?_
    exact respects_checkpoint (by exact hid) _ _

seal Act.wp in
theorem stands_runValidationWorker (host : ReviewHost) (hpr : pr ≠ none)
    (h : Stands A st pr world.store) (columns : Columns)
    (ticketId attemptId decisionId workerId : String) :
    (runValidationWorker host ticketId attemptId decisionId workerId).wp
      (standing host.toSandboxHost A st pr) (fun _ _ world' => Stands A st pr world'.store)
      columns world := by
  unfold runValidationWorker
  refine stands_review hpr (fun attempt hp => ?_) (fun attempt hid => ?_) h columns
  · exact (Act.refuses_check fun hc => hp hc.1).confined
  · refine (Act.keeps_require _ _).bind fun _ => ?_
    refine (Act.keeps_ofExcept _).bind fun decision => ?_
    refine (Act.keeps_ofExcept _).bind fun spec => ?_
    refine (respects_looking (looks_policy host.toSandboxHost _)).bind fun policy => ?_
    refine (Act.keeps_ofExcept _).bind fun _ => ?_
    refine (Act.keeps_get.bind fun _ => Act.keeps_pure _).bind fun reviewed => ?_
    exact Act.Keeps.ite (Act.keeps_pure _) (respects_runWorker hid host ticketId decision spec)

seal Act.wp in
theorem stands_importExternalValidationReport (host : ReviewHost) (hpr : pr ≠ none)
    (h : Stands A st pr world.store) (columns : Columns)
    (ticketId attemptId decisionId actor : String) (req : ExternalReport) :
    (importExternalValidationReport host ticketId attemptId decisionId actor req).wp
      (standing host.toSandboxHost A st pr) (fun _ _ world' => Stands A st pr world'.store)
      columns world := by
  unfold importExternalValidationReport
  refine stands_review hpr (fun attempt hp => ?_) (fun attempt hid => ?_) h columns
  · exact (Act.refuses_check fun hc => hp hc.1).confined
  · refine (Act.keeps_require _ _).bind fun _ => ?_
    refine (Act.keeps_ofExcept _).bind fun decision => ?_
    refine (Act.keeps_ofExcept _).bind fun _ => ?_
    refine (Act.keeps_get.bind fun _ => Act.keeps_pure _).bind fun reviewed => ?_
    refine Act.Keeps.ite (Act.keeps_pure _) ?_
    refine (Act.keeps_require _ _).bind fun _ => ?_
    refine (respects_looking (looks_ask _)).bind fun project => ?_
    refine (respects_looking (looks_currentManifest host.toSandboxHost _ _)).bind fun current => ?_
    refine (Act.keeps_require _ _).bind fun _ => ?_
    exact respects_recordReport hid host ticketId decision actor req

seal Act.wp in
theorem stands_approvePromotion (host : SandboxHost) (hpr : pr ≠ none)
    (h : Stands A st pr world.store) (columns : Columns)
    (ticketId attemptId actor reason decision : String) :
    (approvePromotion host ticketId attemptId actor reason decision).wp (standing host A st pr)
      (fun _ _ world' => Stands A st pr world'.store) columns world := by
  unfold approvePromotion
  refine stands_review hpr (fun attempt hp => ?_) (fun attempt hid => ?_) h columns
  · refine (respects_looking (looks_policy host _)).bind fun policy => ?_
    refine (Act.keeps_ofExcept _).bind fun _ => ?_
    exact (Act.refuses_check fun hc => hp hc.2).confined
  · refine (respects_looking (looks_policy host _)).bind fun policy => ?_
    refine (Act.keeps_ofExcept _).bind fun _ => ?_
    refine (Act.keeps_require _ _).bind fun _ => ?_
    refine (Act.keeps_require _ _).bind fun _ => ?_
    refine (Act.keeps_require _ _).bind fun _ => ?_
    refine (Act.keeps_require _ _).bind fun _ => ?_
    refine (Act.keeps_ofExcept _).bind fun _ => ?_
    refine (respects_looking (looks_ask _)).bind fun project => ?_
    refine (respects_looking (looks_currentManifest host _ _)).bind fun current => ?_
    refine (Act.keeps_require _ _).bind fun _ => ?_
    refine (respects_looking looks_newId).bind fun drawn => ?_
    refine (Act.keeps_ofExcept _).bind fun records => ?_
    refine (Act.keeps_ofExcept _).bind fun report => ?_
    refine (respects_looking looks_newId).bind fun approvalId => ?_
    exact respects_checkpoint (by exact hid) _ _

/-- The attempt in memory has this status and this promotion. -/
def DecidedAs (status : String) (promotion : Option SandboxPromotionRecord) (l : Locals) : Prop :=
  l.attempt.status = status ∧ l.attempt.promotion = promotion

/-- Promotions and recoveries of other attempts. -/
theorem frame_other : Frame (Respects A st pr) (fun l => l.attempt.id ≠ A) KeepsId where
  reads _ := respects_of_looks
  executes _ _ _ ho := by cases ho
  replaces _ _ _ ho := by cases ho
  saves l hl attempt ho hid := by
    cases ho
    exact absurd hid hl
  others l l' h hl := by
    rw [h]
    exact hl
  updates f hf l hl := by
    rw [hf l.attempt]
    exact hl

/-- The attempt itself, as long as its status and its promotion stay. -/
theorem frame_decided :
    Frame (Respects A st pr) (DecidedAs st pr) KeepsStanding where
  reads _ := respects_of_looks
  executes _ _ _ ho := by cases ho
  replaces _ _ _ ho := by cases ho
  saves l hl attempt ho _ := by
    cases ho
    exact hl
  others l l' h hl := by
    unfold DecidedAs
    rw [h]
    exact hl
  updates f hf l hl := ⟨(hf.status l.attempt).trans hl.1, (hf.promotion l.attempt).trans hl.2⟩

theorem respects_lease {o : Op} (h : touchesLease o) : Respects A st pr o := by
  intro attempt ho
  subst ho
  exact h.elim

theorem respects_saveProjectTicket (ticket : ProjectTicket) :
    Respects A st pr (.saveProjectTicket ticket) := by
  intro attempt ho
  cases ho

theorem refuses_currentAttempt {ok : Op → Prop} {I : Locals → Prop}
    {g : ImplementationSandboxAttempt → PromotionAct α}
    (hg : ∀ l, I l → Act.Refuses ok I (g l.attempt)) : Act.Refuses ok I (currentAttempt >>= g) :=
  fun l s hl => hg l hl l s hl

seal Act.wp in
/-- The gate of a promotion refuses an attempt whose promotion has begun. -/
theorem refuses_promotionGate (host : SandboxHost) (hpr : pr ≠ none) :
    Act.Refuses (Respects A st pr) (DecidedAs st pr) (promotionGate host) := by
  have F : Frame (Respects A st pr) (DecidedAs st pr) KeepsStanding := frame_decided
  refine refuses_currentAttempt fun l hl => ?_
  have hbegun : l.attempt.promotion ≠ none := by
    rw [hl.2]
    exact hpr
  refine (F.looking (looks_policy host _)).refuses_bind fun policy => ?_
  refine Act.Confined.refuses_bind (Act.keeps_ofExcept _) fun _ => ?_
  refine Act.Confined.refuses_bind (Act.keeps_ofExcept _) fun approval => ?_
  refine (F.looking (looks_ask _)).refuses_bind fun governed => ?_
  refine (F.looking (looks_currentManifest host _ _)).refuses_bind fun manifest => ?_
  refine Act.Confined.refuses_bind (Act.Keeps.when ?_) fun _ => ?_
  · exact (F.updateAttempt ⟨by intro; rfl, by intro; rfl, by intro; rfl⟩).bind fun _ => F.save
  refine Act.Confined.refuses_bind (Act.keeps_ofExcept _) fun report => ?_
  refine (F.updateAttempt ⟨by intro; rfl, by intro; rfl, by intro; rfl⟩).refuses_bind fun _ => ?_
  refine Act.Confined.refuses_bind (Act.Keeps.when ?_) fun _ => ?_
  · refine (F.updateAttempt ⟨by intro; rfl, by intro; rfl, by intro; rfl⟩).bind fun _ => ?_
    exact F.save.bind fun _ => Act.keeps_fail _
  refine Act.Confined.refuses_bind (Act.keeps_require _ _) fun _ => ?_
  exact Act.refuses_check hbegun

theorem stands_promote (host : SandboxHost) (hpr : pr ≠ none) (h : Stands A st pr world.store)
    (columns : Columns) (ticketId attemptId : String) :
    (promote host ticketId attemptId).wp (standing host A st pr)
      (fun _ _ world' => Stands A st pr world'.store) columns world := by
  refine Act.wp_seq (wp_of_respects (I := fun _ => True)
    (respects_looking (looks_checkBudget host ticketId)) trivial h) (fun ticket l' w' hw => ?_)
    fun _ _ _ hw => hw.2
  refine Act.wp_mono (wp_attempt (I := fun _ => True) trivial hw.2 fun attempt _ hA => ?_)
    fun _ _ _ h' => h'.2
  by_cases hid : attempt.id = A
  · exact confined_within (refuses_promotionGate host hpr).bind.confined (hA hid)
  · exact confined_within (frame_other.promoteAttempt (fun _ => respects_lease)
      respects_saveProjectTicket host ticket) hid

theorem stands_recoverPromotion (host : SandboxHost)
    (columns : Columns) (ticketId attemptId : String)
    (hpr : attemptId = A → ((pr.bind (·.mutationJournal)).filter (!·.terminal)) = none)
    (h : Stands A st pr world.store) :
    (recoverPromotion host ticketId attemptId).wp (standing host A st pr)
      (fun _ _ world' => Stands A st pr world'.store) columns world := by
  refine Act.wp_mono (wp_attempt (I := fun _ => True) trivial h fun attempt hattempt hA => ?_)
    fun _ _ _ h' => h'.2
  cases hjournal : attempt.journal with
  | none => exact Act.keeps_fail _
  | some journal =>
    by_cases hid : attempt.id = A
    · have hterminal : journal.terminal = true := by
        have hfinished := hpr (hattempt.symm.trans hid)
        rw [← (hA hid).2, show attempt.promotion.bind (·.mutationJournal) = some journal from hjournal]
          at hfinished
        simpa using hfinished
      simp only [hterminal, if_true]
      exact Act.keeps_pure _
    · exact Act.Keeps.ite (Act.keeps_pure _) (confined_within (frame_other.recoverAttempt
        (fun _ => respects_lease) respects_saveProjectTicket host ticketId journal) hid)

/-- A discard that does not find the attempt, or finds it discarded. -/
theorem stands_discard {ticketId attemptId : String} (h : Stands A st pr world.store)
    (hfound : attemptId = A → ∀ attempt, listed ticketId attemptId world.store = some attempt →
      attempt.status = "DISCARDED") (columns : Columns) :
    (Review.discard ticketId attemptId).wp (standing host A st pr)
      (fun _ _ world' => Stands A st pr world'.store) columns world := by
  unfold Review.discard
  refine wp_ask h (fun attempt hfind => ?_) fun e _ => h
  have hlisted : listed ticketId attemptId world.store = some attempt := by
    unfold listed
    split at hfind
    · cases hfind
      assumption
    · cases hfind
  have hrespects : ∀ saved : ImplementationSandboxAttempt, saved.id = attempt.id →
      saved.status = "DISCARDED" → saved.promotion = attempt.promotion →
        Respects A st pr (.saveImplementationSandbox saved) := by
    intro saved hid hstatus hpromotion other ho hother
    cases ho
    obtain ⟨hrow, hattempt⟩ := listed_some hlisted
    have hA : attemptId = A := by rw [← hattempt, ← hid, hother]
    subst hA
    have hdiscarded := hfound rfl attempt hlisted
    obtain ⟨current, hrows, hcurrent, hpr⟩ := h
    rw [hrows, List.mem_singleton] at hrow
    subst hrow
    exact ⟨by rw [hstatus, ← hcurrent, hdiscarded], by rw [hpromotion, hpr]⟩
  suffices hrest : Act.Confined (Respects A st pr) (fun _ => True) _ from
    Act.wp_mono (wp_of_respects hrest trivial h) fun _ _ _ h' => h'.2
  refine (respects_updateColumns _ _).bind fun _ => ?_
  exact fun _ _ _ => ⟨hrespects _ rfl rfl rfl, fun _ => ⟨hrespects _ rfl rfl rfl, fun _ => trivial⟩⟩

end

end RlmGraph.Sandbox.Standing
