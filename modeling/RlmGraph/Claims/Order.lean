import RlmGraph.Claims.Loss

/-! # The order of evidence

An assessment reads the records of a claim as a set: two ledgers that agree on
the records of a claim assess it alike (`assess_agree`). What a call of
`append_evidence` adds depends on its evidence only, and whether it returns on
what is stored under the identifier (`returns_iff`). So calls that append the
same evidence, in any order and any number of times, lead to the same
assessment, and calls never lower a level (`evidence_order_irrelevant`). -/
namespace RlmGraph.Claims.Order
open RlmGraph.Lib.Rows RlmGraph.Lib.JsonText RlmGraph.Lib.HashChain RlmGraph.Lib.Results
open RlmGraph.Claims.Ledger RlmGraph.Claims.Verify RlmGraph.Claims.Integrity RlmGraph.Claims.Records
open RlmGraph.Claims.Histories RlmGraph.Claims.Progress RlmGraph.Claims.Authentication
open RlmGraph.Claims.Loss

variable {crypto : Crypto} {disk disk' : Disk} {keys keys' : AuthenticationKeys} {r r' : Registry}
  {t t' u : Tables} {claim : ClaimStatement} {claimId : String}

/-! ## Records as a set -/

/-- Two ledgers hold the same about a claim. -/
structure Agree (claimId : String) (t u : Tables) : Prop where
  claim : t.claim? claimId = u.claim? claimId
  records : ∀ row, row.claimId = claimId → (row ∈ t.records ↔ row ∈ u.records)
  supersession : t.supersession? claimId = u.supersession? claimId

/-- The part of an assessment that evidence decides. -/
def judged (a : ClaimAssessment) : EvidenceLevel × ClaimDisposition × List String × String :=
  (a.evidenceLevel, a.disposition, a.eligibleEvidenceIds, a.evidenceMerkleRoot)

theorem recordIds_nodup (h : Reachable crypto t) : (t.records.map (·.evidenceId)).Nodup := by
  obtain ⟨r, hrep, hs⟩ := h.recorded
  rw [hrep.records, List.map_map]
  exact hs.ids

theorem recordsOf_agree (ht : Reachable crypto t) (hu : Reachable crypto u)
    (h : Agree claimId t u) : t.recordsOf claimId = u.recordsOf claimId := by
  have hids := recordIds_nodup ht
  have hperm : (t.records.filter (·.claimId == claimId)).Perm
      (u.records.filter (·.claimId == claimId)) := by
    refine (List.perm_ext_iff_of_nodup (hids.of_map.filter _)
      ((recordIds_nodup hu).of_map.filter _)).mpr fun row => ?_
    rw [List.mem_filter, List.mem_filter, beq_iff_eq]
    constructor
    · exact fun hrow => ⟨(h.records row hrow.2).mp hrow.1, hrow.2⟩
    · exact fun hrow => ⟨(h.records row hrow.2).mpr hrow.1, hrow.2⟩
  refine List.Perm.eq_of_pairwise ?_ (orderBy_pairwise EvidenceRow.evidenceId _)
    (orderBy_pairwise EvidenceRow.evidenceId _)
    ((List.mergeSort_perm _ _).trans (hperm.trans (List.mergeSort_perm _ _).symm))
  intro a b ha hb hab hba
  have ha' : a ∈ t.records := List.mem_of_mem_filter (List.mem_mergeSort.mp ha)
  have hb' : b ∈ t.records :=
    List.mem_of_mem_filter (hperm.mem_iff.mpr (List.mem_mergeSort.mp hb))
  exact List.inj_on_of_nodup_map hids ha' hb' (le_antisymm hab hba)

theorem loadClaim_agree (h : t.claim? claimId = u.claim? claimId) :
    loadClaim t claimId = loadClaim u claimId := by
  unfold loadClaim
  rw [h]

theorem assessMaturity_agree (ht : Reachable crypto t) (hu : Reachable crypto u)
    (h : Agree claimId t u) (disk : Disk) :
    assessMaturity crypto disk t claimId = assessMaturity crypto disk u claimId := by
  unfold assessMaturity
  rw [loadClaim_agree h.claim, recordsOf_agree ht hu h, h.supersession]

/-- What an assessment says before it looks at the authentications. -/
theorem assess_judged (h : Reachable crypto t) (keys : AuthenticationKeys) (disk : Disk)
    (claimId : String) :
    (assess crypto keys disk t claimId).map judged =
      (assessMaturity crypto disk t claimId).map
        fun m => (m.level, m.disposition, m.eligibleIds, m.evidenceRoot) := by
  obtain ⟨r, hrep, -⟩ := h.recorded
  unfold assess
  cases assessMaturity crypto disk t claimId with
  | error e => rfl
  | ok m =>
    obtain ⟨state, hstate, -⟩ := authenticationState_of_represents hrep keys m
    simp only [bind, Except.bind, hstate]
    rfl

/-- **Ledgers that agree on a claim assess it alike.** -/
theorem assess_agree (ht : Reachable crypto t) (hu : Reachable crypto u) (h : Agree claimId t u)
    (keys keys' : AuthenticationKeys) (disk : Disk) :
    (assess crypto keys disk t claimId).map judged =
      (assess crypto keys' disk u claimId).map judged := by
  rw [assess_judged ht, assess_judged hu, assessMaturity_agree ht hu h]

theorem assess_claimId {a : ClaimAssessment} (h : assess crypto keys disk t claimId = .ok a) :
    a.claimId = claimId := by
  obtain ⟨m, -, h⟩ := bind_ok h
  obtain ⟨state, -, h⟩ := bind_ok h
  cases h
  rfl

/-! ## A call of `append_evidence` -/

/-- A call with the keys and the disk that it meets. -/
structure Append where
  keys : AuthenticationKeys
  disk : Disk
  evidence : ClaimEvidence

def Append.call (crypto : Crypto) (a : Append) (t : Tables) :
    Except LedgerError ClaimAssessment × Tables :=
  Ledger.call crypto a.keys a.disk (.appendEvidence a.evidence) t

theorem Append.reachable (a : Append) (h : Reachable crypto t) :
    Reachable crypto (a.call crypto t).2 := h.call _ _ _ trivial

/-- The tables with the row of some evidence. -/
structure Stores (crypto : Crypto) (evidence : ClaimEvidence) (t t' : Tables) : Prop where
  claims : t'.claims = t.claims
  supersessions : t'.supersessions = t.supersessions
  records : ∀ row, row ∈ t'.records ↔ row ∈ t.records ∨ row = evidenceRow crypto evidence

/-- Nothing else is stored under the identifier of the evidence. -/
def Fits (crypto : Crypto) (evidence : ClaimEvidence) (t : Tables) : Prop :=
  ∀ row ∈ t.records, row.evidenceId = evidence.evidenceId → row = evidenceRow crypto evidence

/-- A ledger accepts evidence that is valid, for a stored claim, and no other
than what is stored under its identifier. -/
def Accepts (crypto : Crypto) (disk : Disk) (t : Tables) (evidence : ClaimEvidence) : Prop :=
  ∃ valid, validateEvidence crypto disk evidence = .ok valid ∧
    (t.claim? evidence.claimId).isSome = true ∧ Fits crypto valid t

theorem evidenceRow_eq_of_payload {e e' : ClaimEvidence}
    (h : canonicalJson (evidencePayload e) = canonicalJson (evidencePayload e')) :
    evidenceRow crypto e = evidenceRow crypto e' := by
  have hcanon : canon (evidencePayload e) = canon (evidencePayload e') := by
    have hloads := loads_canonicalJson (evidencePayload e)
    rw [h, loads_canonicalJson] at hloads
    exact (Option.some.inj hloads).symm
  have hid := congrArg (·.get? "evidence_id") hcanon
  have hclaim := congrArg (·.get? "claim_id") hcanon
  simp only [evidencePayload] at hid hclaim
  rw [canon_get? (by simp), canon_get? (by simp)] at hid hclaim
  have hid : e.evidenceId = e'.evidenceId := by simpa [List.lookup] using hid
  have hclaim : e.claimId = e'.claimId := by simpa [List.lookup] using hclaim
  simp only [evidenceRow, evidenceSha256, h, hid, hclaim]

theorem fits_of_record (h : Reachable crypto t) {evidence : ClaimEvidence} {row : EvidenceRow}
    (hrow : t.record? evidence.evidenceId = some row)
    (hsame : row.payload = canonicalJson (evidencePayload evidence)) :
    evidenceRow crypto evidence ∈ t.records ∧ Fits crypto evidence t := by
  obtain ⟨r, hrep, -⟩ := h.recorded
  have hmem := List.mem_of_find?_eq_some hrow
  have hid : row.evidenceId = evidence.evidenceId := by simpa using List.find?_some hrow
  have heq : row = evidenceRow crypto evidence := by
    have hstored := hmem
    rw [hrep.records] at hstored
    obtain ⟨e, -, rfl⟩ := List.mem_map.mp hstored
    exact evidenceRow_eq_of_payload hsame
  refine ⟨heq ▸ hmem, fun other hother hsameId => ?_⟩
  rw [← heq]
  exact List.inj_on_of_nodup_map (recordIds_nodup h) hother hmem (hsameId.trans hid.symm)

theorem fits_of_new {evidence : ClaimEvidence} (h : t.record? evidence.evidenceId = none) :
    Fits crypto evidence t := by
  intro row hrow hid
  have hne := List.find?_eq_none.mp h row hrow
  simp [hid] at hne

/-- **A call that returns** stores the evidence as it was validated. -/
theorem Append.stores {a : Append} (h : Reachable crypto t) {reply : ClaimAssessment}
    (hcall : a.call crypto t = (.ok reply, t')) :
    ∃ valid, validateEvidence crypto a.disk a.evidence = .ok valid ∧
      (t.claim? a.evidence.claimId).isSome = true ∧ Fits crypto valid t ∧
      Stores crypto valid t t' := by
  have hrun : appendEvidence crypto a.keys a.disk a.evidence t = .ok (reply, t') := by
    rw [Append.call, Ledger.call] at hcall
    cases hrun : runCall crypto a.keys a.disk (.appendEvidence a.evidence) t with
    | error e => simp [hrun] at hcall
    | ok done =>
      obtain ⟨reply', t''⟩ := done
      simp only [hrun, Prod.mk.injEq, Except.ok.injEq] at hcall
      rw [← hcall.1, ← hcall.2]
      exact hrun
  obtain ⟨valid, hvalid, hrun⟩ := bind_ok hrun
  obtain ⟨loaded, hload, hstore⟩ := bind_ok hrun
  obtain ⟨path, rfl, -⟩ := validateEvidence_eq hvalid
  have hclaim : (t.claim? a.evidence.claimId).isSome = true := by
    obtain ⟨claim, sha256⟩ := loaded
    rw [← Option.isSome_map, loadClaim_ok hload]
    rfl
  refine ⟨_, hvalid, hclaim, ?_⟩
  rcases store_ok hstore with ⟨hstored, rfl, -⟩ | ⟨hnew, v, hv, -, hevent⟩
  · obtain ⟨row, hrow, hsame⟩ := Option.map_eq_some_iff.mp hstored
    obtain ⟨hmem, hfits⟩ := fits_of_record h hrow hsame
    refine ⟨hfits, rfl, rfl, fun other => ⟨Or.inl, ?_⟩⟩
    rintro (hother | rfl)
    · exact hother
    · exact hmem
  · obtain ⟨hnone, rfl⟩ := insertRecord_ok hv
    obtain ⟨event, rfl⟩ := appendEvent_tables hevent
    refine ⟨fits_of_new hnone, rfl, rfl, fun other => ?_⟩
    rw [List.mem_append, List.mem_singleton]
    rfl

/-- The refusal of an event whose identifier another event has. -/
def collision : LedgerError := .constraint "claim_evidence_state_events.event_id"

theorem chained_of_reachable (h : Reachable crypto t) : Chained eventLink t.stateEvents := by
  induction h with
  | empty => exact fun _ => trivial
  | @call t _ keys disk c _ ih =>
    cases hrun : runCall crypto keys disk c t with
    | error e => simpa only [Ledger.call, hrun] using ih
    | ok reply =>
      obtain ⟨assessment, t'⟩ := reply
      simp only [Ledger.call, hrun]
      rcases runCall_wrote hrun with rfl | ⟨u, claimId, kind, id, hinsert, -, hevent⟩
      · exact ih
      · have hu : Chained eventLink u.stateEvents := by
          cases hinsert <;> exact ih
        obtain ⟨row, _, rfl, -, -, hcontinues⟩ := appendEvent_ok hu hevent
        exact hu.append hcontinues

variable (crypto) in
/-- An event is appended unless its identifier is taken. -/
theorem appendEvent_goes_or (hc : Chained eventLink u.stateEvents) (a : ClaimAssessment)
    (kind id : String) {loaded : ClaimStatement × String}
    (hload : loadClaim u a.claimId = .ok loaded) :
    (∃ t', appendEvent crypto u a kind id = .ok t') ∨
      appendEvent crypto u a kind id = .error collision := by
  obtain ⟨claim, claimSha256⟩ := loaded
  have hclaim : (u.claim? a.claimId).isSome = true := by
    rw [← Option.isSome_map, loadClaim_ok hload]
    rfl
  rw [appendEvent_eq hload]
  by_cases hids : u.stateEvents.all (·.eventId != (nextEvent crypto u a claimSha256 kind id).eventId) =
      true
  · refine Or.inl ⟨_, insertEvent_goes (by simpa using hids) ?_ hclaim⟩
    intro event hevent hsame
    have hlt := sequence_lt hc hevent
    rw [hsame] at hlt
    exact Nat.ne_of_lt hlt
  · refine Or.inr ?_
    rw [Tables.insertEvent, eq_false_of_ne_true hids]
    rfl

/-- The tables with a record more. -/
def withRecord (crypto : Crypto) (t : Tables) (evidence : ClaimEvidence) : Tables :=
  { t with records := t.records ++ [evidenceRow crypto evidence] }

theorem append_stored {a : Append} {valid : ClaimEvidence} {row : EvidenceRow}
    {loaded : ClaimStatement × String} {reply : ClaimAssessment}
    (hvalid : validateEvidence crypto a.disk a.evidence = .ok valid)
    (hload : loadClaim t valid.claimId = .ok loaded)
    (hrecord : t.record? valid.evidenceId = some row)
    (hsame : row.payload = canonicalJson (evidencePayload valid))
    (hreply : assess crypto a.keys a.disk t valid.claimId = .ok reply) :
    (a.call crypto t).1 = .ok reply := by
  simp only [Append.call, Ledger.call, runCall, appendEvidence, hvalid, hload, hrecord, hsame, hreply,
    bind, Except.bind, Option.map_some, store, require, beq_self_eq_true, if_true]
  rfl

theorem append_new {a : Append} {valid : ClaimEvidence} {loaded : ClaimStatement × String}
    {reply : ClaimAssessment} (hvalid : validateEvidence crypto a.disk a.evidence = .ok valid)
    (hload : loadClaim t valid.claimId = .ok loaded)
    (hclaim : (t.claim? valid.claimId).isSome = true)
    (hrecord : t.record? valid.evidenceId = none)
    (hreply : assess crypto a.keys a.disk (withRecord crypto t valid) valid.claimId = .ok reply) :
    runCall crypto a.keys a.disk (.appendEvidence a.evidence) t = do
      let t' ← appendEvent crypto (withRecord crypto t valid) reply "EVIDENCE_APPENDED"
        valid.evidenceId
      return (reply, t') := by
  have hinsert : t.insertRecord (evidenceRow crypto valid) = .ok (withRecord crypto t valid) := by
    have hnone : t.record? (evidenceRow crypto valid).evidenceId = none := hrecord
    have hsome : (t.claim? (evidenceRow crypto valid).claimId).isSome = true := hclaim
    rw [Tables.insertRecord, hnone, hsome]
    rfl
  simp only [runCall, appendEvidence, hvalid, hload, bind, Except.bind, hrecord, Option.map_none, store]
  rw [evidenceRow, evidenceSha256] at hinsert
  simp only [hinsert, hreply]

/-- **A call returns exactly when the ledger accepts its evidence**, unless the
identifier of its event is taken. -/
theorem Append.returns_iff {a : Append} (h : Reachable crypto t)
    (hfree : (a.call crypto t).1 ≠ .error collision) :
    (∃ reply, (a.call crypto t).1 = .ok reply) ↔ Accepts crypto a.disk t a.evidence := by
  constructor
  · rintro ⟨reply, hreply⟩
    obtain ⟨valid, hvalid, hclaim, hfits, -⟩ := Append.stores h (Prod.ext hreply rfl)
    exact ⟨valid, hvalid, hclaim, hfits⟩
  · rintro ⟨valid, hvalid, hclaim, hfits⟩
    obtain ⟨r, hrep, hs⟩ := h.recorded
    obtain ⟨path, heq, -⟩ := validateEvidence_eq hvalid
    have hclaimId : valid.claimId = a.evidence.claimId := by rw [heq]
    rw [← hclaimId] at hclaim
    obtain ⟨claim, hstored⟩ : ∃ claim, r.claim? valid.claimId = some claim := by
      rw [hrep.claim?, Option.isSome_map] at hclaim
      exact Option.isSome_iff_exists.mp hclaim
    have hload := loadClaim_of_represents hrep hstored (hs.schemaOf hstored)
    cases hrecord : t.record? valid.evidenceId with
    | some row =>
      have hsame := hfits row (List.mem_of_find?_eq_some hrecord)
        (by simpa using List.find?_some hrecord)
      obtain ⟨reply, hreply, -⟩ := assess_of_represents hrep hstored (hs.schemaOf hstored)
        a.keys a.disk
      exact ⟨reply, append_stored hvalid hload hrecord (by rw [hsame]; rfl) hreply⟩
    | none =>
      have hrep' : Represents crypto { r with evidence := r.evidence ++ [valid] }
          (withRecord crypto t valid) := hrep.addEvidence valid
      obtain ⟨reply, hreply, -⟩ := assess_of_represents hrep' hstored (hs.schemaOf hstored)
        a.keys a.disk
      have hload' := loadClaim_of_represents hrep' hstored (hs.schemaOf hstored)
      rw [← assess_claimId hreply] at hload'
      have hchained : Chained eventLink (withRecord crypto t valid).stateEvents := by
        have hc := chained_of_reachable h
        exact hc
      have hrun := append_new hvalid hload hclaim hrecord hreply
      rcases appendEvent_goes_or crypto hchained reply "EVIDENCE_APPENDED" valid.evidenceId hload' with
        ⟨t', ht'⟩ | hrefused
      · refine ⟨reply, ?_⟩
        simp only [Append.call, Ledger.call, hrun, ht', bind, Except.bind]
        rfl
      · refine absurd ?_ hfree
        simp only [Append.call, Ledger.call, hrun, hrefused, bind, Except.bind]

/-! ## Sequences of calls -/

/-- The tables after the calls. -/
def afterAll (crypto : Crypto) (calls : List Append) (t : Tables) : Tables :=
  calls.foldl (fun t a => (a.call crypto t).2) t

/-- The evidence of the calls that return. -/
def appended (crypto : Crypto) : List Append → Tables → List ClaimEvidence
  | [], _ => []
  | a :: calls, t =>
    match a.call crypto t with
    | (.ok _, t') => a.evidence :: appended crypto calls t'
    | (.error _, t') => appended crypto calls t'

/-- Each call finds its artifact as it is on the given disk. -/
def Intact (disk : Disk) (calls : List Append) : Prop :=
  ∀ a ∈ calls, a.disk.resolve a.evidence.artifactPath = disk.resolve a.evidence.artifactPath ∧
    ∀ path, disk.resolve a.evidence.artifactPath = some path →
      a.disk.isFile path = disk.isFile path ∧ a.disk.read path = disk.read path

theorem Intact.tail {a : Append} {calls : List Append} (h : Intact disk (a :: calls)) :
    Intact disk calls := fun b hb => h b (List.mem_cons_of_mem a hb)

theorem Intact.validateEvidence {calls : List Append} (h : Intact disk calls) {a : Append}
    (ha : a ∈ calls) :
    validateEvidence crypto a.disk a.evidence = validateEvidence crypto disk a.evidence := by
  obtain ⟨hresolve, hfile⟩ := h a ha
  have hartifact : evidenceArtifact crypto a.disk a.evidence =
      evidenceArtifact crypto disk a.evidence := by
    unfold evidenceArtifact
    rw [hresolve]
    cases hpath : disk.resolve a.evidence.artifactPath with
    | none => rfl
    | some path =>
      obtain ⟨hisFile, hread⟩ := hfile path hpath
      simp only [Option.elim_some, bind, Except.bind, hisFile, hread]
  unfold Ledger.validateEvidence
  rw [hartifact]

/-- A call that raises leaves the tables as they were. -/
theorem Append.refused {a : Append} {e : LedgerError} (h : (a.call crypto t).1 = .error e) :
    (a.call crypto t).2 = t := by
  rw [Append.call, Ledger.call] at h ⊢
  cases hrun : runCall crypto a.keys a.disk (.appendEvidence a.evidence) t with
  | error e => rfl
  | ok reply => simp [hrun] at h

theorem appended_cons_ok {a : Append} {calls : List Append} {reply : ClaimAssessment}
    (h : (a.call crypto t).1 = .ok reply) :
    appended crypto (a :: calls) t = a.evidence :: appended crypto calls (a.call crypto t).2 := by
  rw [appended, show a.call crypto t = (.ok reply, (a.call crypto t).2) from Prod.ext h rfl]

theorem appended_cons_error {a : Append} {calls : List Append} {e : LedgerError}
    (h : (a.call crypto t).1 = .error e) :
    appended crypto (a :: calls) t = appended crypto calls t := by
  rw [appended, show a.call crypto t = (.error e, t) from Prod.ext h (Append.refused h)]

/-- The tables with the rows of some evidence. -/
structure Gathers (crypto : Crypto) (disk : Disk) (es : List ClaimEvidence) (t t' : Tables) :
    Prop where
  claims : t'.claims = t.claims
  supersessions : t'.supersessions = t.supersessions
  records : ∀ row, row ∈ t'.records ↔ row ∈ t.records ∨
    ∃ e ∈ es, ∃ valid, validateEvidence crypto disk e = .ok valid ∧ row = evidenceRow crypto valid

theorem Gathers.cons {e valid : ClaimEvidence} {es : List ClaimEvidence}
    (hvalid : validateEvidence crypto disk e = .ok valid) (hs : Stores crypto valid t u)
    (h : Gathers crypto disk es u t') : Gathers crypto disk (e :: es) t t' where
  claims := h.claims.trans hs.claims
  supersessions := h.supersessions.trans hs.supersessions
  records row := by
    rw [h.records, hs.records, List.exists_mem_cons_iff, or_assoc]
    refine or_congr_right (or_congr_left ⟨fun hrow => ⟨valid, hvalid, hrow⟩, ?_⟩)
    rintro ⟨valid', hvalid', hrow⟩
    rw [hvalid] at hvalid'
    cases hvalid'
    exact hrow

/-- **After calls the ledger holds what they have appended.** -/
theorem afterAll_gathers {calls : List Append} (h : Reachable crypto t) (hintact : Intact disk calls) :
    Reachable crypto (afterAll crypto calls t) ∧
      Gathers crypto disk (appended crypto calls t) t (afterAll crypto calls t) := by
  induction calls generalizing t with
  | nil => exact ⟨h, rfl, rfl, fun row => by simp [afterAll, appended]⟩
  | cons a calls ih =>
    obtain ⟨hreached, hgathers⟩ := ih (a.reachable h) hintact.tail
    refine ⟨hreached, ?_⟩
    cases hreply : (a.call crypto t).1 with
    | ok reply =>
      obtain ⟨valid, hvalid, -, -, hstores⟩ := Append.stores h (Prod.ext hreply rfl)
      rw [hintact.validateEvidence List.mem_cons_self] at hvalid
      rw [appended_cons_ok hreply]
      exact hgathers.cons hvalid hstores
    | error e =>
      rw [Append.refused hreply] at hgathers
      rw [appended_cons_error hreply]
      show Gathers crypto disk _ t (afterAll crypto calls (a.call crypto t).2)
      rw [Append.refused hreply]
      exact hgathers

/-- Ledgers that agree on a claim agree after the same evidence for it. -/
theorem Gathers.agree {es es' : List ClaimEvidence} (h : Agree claimId t u)
    (ht : Gathers crypto disk es t t') {u' : Tables} (hu : Gathers crypto disk es' u u')
    (hsame : ∀ e, e.claimId = claimId → (e ∈ es ↔ e ∈ es')) : Agree claimId t' u' where
  claim := by
    have hclaim := h.claim
    rw [Tables.claim?, Tables.claim?] at hclaim ⊢
    rw [ht.claims, hu.claims, hclaim]
  supersession := by
    have hsupersession := h.supersession
    rw [Tables.supersession?, Tables.supersession?] at hsupersession ⊢
    rw [ht.supersessions, hu.supersessions, hsupersession]
  records row hrow := by
    rw [ht.records, hu.records, h.records row hrow]
    refine or_congr_right (exists_congr fun e => and_congr_left ?_)
    rintro ⟨valid, hvalid, rfl⟩
    obtain ⟨path, rfl, -⟩ := validateEvidence_eq hvalid
    exact hsame e hrow

/-! ## What is appended -/

/-- No event of the calls is refused. -/
def NoCollision (crypto : Crypto) : List Append → Tables → Prop
  | [], _ => True
  | a :: calls, t =>
    (a.call crypto t).1 ≠ .error collision ∧ NoCollision crypto calls (a.call crypto t).2

theorem accepts_stores {e e' valid : ClaimEvidence} (hvalid : validateEvidence crypto disk e = .ok valid)
    (hs : Stores crypto valid t t') (hid : e.evidenceId = e'.evidenceId → e = e') :
    Accepts crypto disk t' e' ↔ Accepts crypto disk t e' := by
  have hclaim : t'.claim? e'.claimId = t.claim? e'.claimId := by
    rw [Tables.claim?, Tables.claim?, hs.claims]
  refine exists_congr fun valid' => and_congr_right fun hvalid' => ?_
  rw [hclaim]
  refine and_congr_right fun _ => ?_
  constructor
  · exact fun hfits row hrow => hfits row ((hs.records row).mpr (Or.inl hrow))
  · intro hfits row hrow hrowId
    rcases (hs.records row).mp hrow with hrow | rfl
    · exact hfits row hrow hrowId
    · obtain ⟨path, rfl, -⟩ := validateEvidence_eq hvalid
      obtain ⟨path', rfl, -⟩ := validateEvidence_eq hvalid'
      have heq := hid hrowId
      subst heq
      rw [hvalid] at hvalid'
      cases hvalid'
      rfl

/-- **What calls append is decided before the first of them**, evidence by
evidence, when no two of them use one identifier for different evidence. -/
theorem mem_appended_iff {calls : List Append} (h : Reachable crypto t) (hintact : Intact disk calls)
    (hids : ∀ a ∈ calls, ∀ b ∈ calls, a.evidence.evidenceId = b.evidence.evidenceId →
      a.evidence = b.evidence) (hfree : NoCollision crypto calls t) (e : ClaimEvidence) :
    e ∈ appended crypto calls t ↔ (∃ a ∈ calls, a.evidence = e) ∧ Accepts crypto disk t e := by
  induction calls generalizing t with
  | nil => simp [appended]
  | cons a calls ih =>
    obtain ⟨hfirst, hrest⟩ := hfree
    have ih := ih (a.reachable h) hintact.tail
      (fun b hb c hc => hids b (List.mem_cons_of_mem a hb) c (List.mem_cons_of_mem a hc)) hrest
    have hiff := Append.returns_iff h hfirst
    have hdisk : Accepts crypto a.disk t a.evidence ↔ Accepts crypto disk t a.evidence := by
      rw [Accepts, hintact.validateEvidence List.mem_cons_self]
      rfl
    rw [hdisk] at hiff
    rw [List.exists_mem_cons_iff, or_and_right]
    cases hreply : (a.call crypto t).1 with
    | ok reply =>
      obtain ⟨valid, hvalid, -, -, hstores⟩ := Append.stores h (Prod.ext hreply rfl)
      rw [hintact.validateEvidence List.mem_cons_self] at hvalid
      rw [appended_cons_ok hreply, List.mem_cons, ih]
      have haccepts := hiff.mp ⟨reply, hreply⟩
      refine or_congr ⟨fun he => ⟨he.symm, he ▸ haccepts⟩, fun he => he.1.symm⟩ ?_
      refine and_congr_right ?_
      rintro ⟨b, hb, rfl⟩
      exact accepts_stores hvalid hstores
        (hids a List.mem_cons_self b (List.mem_cons_of_mem a hb))
    | error error =>
      have hrefused : ¬Accepts crypto disk t a.evidence := by
        intro haccepts
        obtain ⟨reply, hok⟩ := hiff.mpr haccepts
        rw [hreply] at hok
        cases hok
      rw [Append.refused hreply] at ih
      rw [appended_cons_error hreply, ih]
      constructor
      · exact Or.inr
      · rintro (⟨rfl, haccepts⟩ | hlater)
        · exact absurd haccepts hrefused
        · exact hlater

/-! ## Levels never fall -/

/-- The records after calls have the records before them. -/
theorem afterAll_grows (calls : List Append) (hrep : Represents crypto r t)
    (hs : Registry.Sound crypto r) :
    ∃ r', Represents crypto r' (afterAll crypto calls t) ∧ Registry.Sound crypto r' ∧
      Histories.Grows r r' := by
  induction calls generalizing r t with
  | nil => exact ⟨r, hrep, hs, fun _ _ hclaim => hclaim, List.Subset.refl _⟩
  | cons a calls ih =>
    rcases call_represents hrep hs.toValid a.keys a.disk (.appendEvidence a.evidence) with
      hsame | ⟨r₁, hadded, hrep₁⟩
    · refine ih (t := (a.call crypto t).2) ?_ hs
      rw [Append.call, hsame]
      exact hrep
    · obtain ⟨r', hrep', hs', hgrows⟩ := ih hrep₁ (Added.sound hadded hs)
      have hfirst := Added.grows hadded
      exact ⟨r', hrep', hs', fun id claim hclaim => hgrows.claims id claim (hfirst.claims id claim hclaim),
        List.Subset.trans hfirst.evidence hgrows.evidence⟩

theorem level_grows (h : Reachable crypto t) (calls : List Append) {a : ClaimAssessment}
    (hu : Untouched disk disk' t) (ha : assess crypto keys disk t claimId = .ok a)
    (keys' : AuthenticationKeys) :
    ∃ a', assess crypto keys' disk' (afterAll crypto calls t) claimId = .ok a' ∧
      rank a.evidenceLevel ≤ rank a'.evidenceLevel := by
  obtain ⟨r, hrep, hs⟩ := h.recorded
  obtain ⟨r', hrep', hs', hgrows⟩ := afterAll_grows calls hrep hs
  obtain ⟨m, hm, -⟩ := bind_ok ha
  obtain ⟨loaded, hload, -⟩ := bind_ok hm
  obtain ⟨claim, hclaim⟩ := hrep.claim?_isSome hload
  obtain ⟨a₁, ha₁, hlevel, -⟩ := assess_authenticated_iff hrep hs hclaim keys disk
  obtain ⟨a', ha', hlevel', -⟩ :=
    assess_authenticated_iff hrep' hs' (hgrows.claims _ _ hclaim) keys' disk'
  obtain rfl : a = a₁ := Except.ok.inj (ha.symm.trans ha₁)
  refine ⟨a', ha', ?_⟩
  rw [hlevel, hlevel']
  refine levelOf_mono fun x hx => ?_
  obtain ⟨hstored, hid, hcounts⟩ := mem_counted.mp hx
  exact mem_counted.mpr ⟨hgrows.evidence hstored, hid, by rw [untouched_counts hrep hu hstored, hcounts]⟩

/-- **Assessments depend on the set of evidence.** Two ledgers that agree on a
claim and have appended the same evidence for it, in any order and with any
repetitions, assess it alike; and no calls lower its level. -/
theorem evidence_order_irrelevant (ht : Reachable crypto t) (hu : Reachable crypto u)
    (hagree : Agree claimId t u) (calls calls' : List Append) (hintact : Intact disk calls)
    (hintact' : Intact disk calls')
    (hsame : ∀ e, e.claimId = claimId →
      (e ∈ appended crypto calls t ↔ e ∈ appended crypto calls' u)) :
    (∀ keys keys', (assess crypto keys disk (afterAll crypto calls t) claimId).map judged =
      (assess crypto keys' disk (afterAll crypto calls' u) claimId).map judged) ∧
    (∀ keys keys' disk₀ a, Untouched disk₀ disk t → assess crypto keys disk₀ t claimId = .ok a →
      ∃ a', assess crypto keys' disk (afterAll crypto calls t) claimId = .ok a' ∧
        rank a.evidenceLevel ≤ rank a'.evidenceLevel) := by
  obtain ⟨ht', hgathers⟩ := afterAll_gathers ht hintact
  obtain ⟨hu', hgathers'⟩ := afterAll_gathers hu hintact'
  refine ⟨fun keys keys' => ?_, fun keys keys' disk₀ a huntouched ha => ?_⟩
  · exact assess_agree ht' hu' (hgathers.agree hagree hgathers' hsame) keys keys' disk
  · exact level_grows ht calls huntouched ha keys'

/-! ## A sample in two orders -/

theorem Agree.refl (claimId : String) (t : Tables) : Agree claimId t t :=
  ⟨rfl, fun _ _ => Iff.rfl, rfl⟩

/-- A call that adds an event has returned. -/
theorem Append.returned {a : Append} {names : List String} {n : Nat} (h : Ready names disk r t n)
    (h' : Ready names disk r' (a.call marking t).2 (n + 1)) :
    ∃ reply, (a.call marking t).1 = .ok reply := by
  cases hreply : (a.call marking t).1 with
  | ok reply => exact ⟨reply, rfl⟩
  | error e =>
    have hlength := h'.events
    rw [Append.refused hreply, h.events] at hlength
    omega

def labRun : Append := ⟨keyring, shelf, evidenceFor "E1" .testRun .passed 2 "lab"⟩

def fieldRun : Append := ⟨keyring, shelf, evidenceFor "E2" .replicationRun .passed 2 "field"⟩

def fresh : Tables := runCalls marking keyring shelf [.propose (statement "A")] {}

theorem fresh_ready : Ready ["A"] shelf ⟨[statement "A"], [], [], []⟩ fresh 1 := by
  rw [fresh, runCalls_cons, runCalls_nil]
  exact propose_ready (ready_empty ["A"] shelf) distinct_name (by omega) keyring
    (validateClaim_statement rfl) rfl (by simp [statement])

/-- Two valid pieces of evidence under two identifiers are both appended. -/
theorem appended_pair {a b : Append} (ha : a.disk = shelf) (hb : b.disk = shelf)
    (hvalid : validateEvidence marking shelf a.evidence =
      .ok { a.evidence with artifactPath := "report" })
    (hvalid' : validateEvidence marking shelf b.evidence =
      .ok { b.evidence with artifactPath := "report" })
    (hclaim : a.evidence.claimId = "A") (hclaim' : b.evidence.claimId = "A")
    (hid : a.evidence.evidenceId ≠ b.evidence.evidenceId) :
    appended marking [a, b] fresh = [a.evidence, b.evidence] := by
  have hready := fresh_ready
  have hready₁ : Ready ["A"] shelf
      ⟨[statement "A"], [{ a.evidence with artifactPath := "report" }], [], []⟩
      (a.call marking fresh).2 2 := by
    rw [Append.call, ha]
    exact appendEvidence_ready hready distinct_name (by omega) a.keys hvalid rfl
      (by rw [hclaim]; rfl) (by simp [hclaim])
  have hready₂ : Ready ["A"] shelf
      ⟨[statement "A"], [{ a.evidence with artifactPath := "report" },
        { b.evidence with artifactPath := "report" }], [], []⟩
      (b.call marking (a.call marking fresh).2).2 3 := by
    rw [Append.call, hb]
    exact appendEvidence_ready hready₁ distinct_name (by omega) b.keys hvalid'
      (by simpa [Registry.evidence?] using hid) (by rw [hclaim']; rfl) (by simp [hclaim'])
  obtain ⟨_, hreply⟩ := Append.returned hready hready₁
  obtain ⟨_, hreply'⟩ := Append.returned hready₁ hready₂
  rw [appended_cons_ok hreply, appended_cons_ok hreply', appended]

theorem evidence_order_irrelevant_twoRuns :
    (assess marking keyring shelf (afterAll marking [labRun, fieldRun] fresh) "A").map judged =
      (assess marking keyring shelf (afterAll marking [fieldRun, labRun] fresh) "A").map judged := by
  have hlab : validateEvidence marking shelf labRun.evidence =
      .ok { labRun.evidence with artifactPath := "report" } := validateEvidence_evidenceFor rfl rfl
  have hfield : validateEvidence marking shelf fieldRun.evidence =
      .ok { fieldRun.evidence with artifactPath := "report" } := validateEvidence_evidenceFor rfl rfl
  have hid : labRun.evidence.evidenceId ≠ fieldRun.evidence.evidenceId := by decide
  have hreachable : Reachable marking fresh := run_reachable ((Run.empty shelf).calls keyring _)
  have hintact : ∀ calls : List Append, (∀ a ∈ calls, a.disk = shelf) → Intact shelf calls :=
    fun calls hdisk a ha => by simp [hdisk a ha]
  refine (evidence_order_irrelevant hreachable hreachable (Agree.refl "A" fresh)
    [labRun, fieldRun] [fieldRun, labRun] (hintact _ (by simp [labRun, fieldRun]))
    (hintact _ (by simp [labRun, fieldRun])) ?_).1 keyring keyring
  intro e _
  rw [appended_pair rfl rfl hlab hfield rfl rfl hid, appended_pair rfl rfl hfield hlab rfl rfl hid.symm]
  simp [or_comm]

end RlmGraph.Claims.Order
