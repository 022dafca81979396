import RlmGraph.Claims.Verify
import RlmGraph.Lib.Results
import RlmGraph.Lib.Rows

/-! # Integrity over runs of the ledger

A run starts from empty tables and takes calls, under any keys, and changes of
the disk that leave the artifacts of stored evidence alone. A call that wrote
anything wrote exactly one record and then one event about it
(`runCall_cases`), so a run keeps the rows sound and leaves no record without
its event (`Run.sound`, `Run.complete`). A call made twice has the effect of
one (`call_repeated`). -/
namespace RlmGraph.Claims.Integrity
open RlmGraph.Lib.JsonText RlmGraph.Lib.HashChain RlmGraph.Lib.Results RlmGraph.Lib.Rows
open RlmGraph.Claims.Ledger RlmGraph.Claims.Verify

/-- The artifact files of the stored evidence are the same on both disks. -/
def Untouched (disk disk' : Disk) (t : Tables) : Prop :=
  ∀ row ∈ t.records, ∀ raw path, loads row.payload = some raw →
    raw.get? "artifact_path" = some (.str path) →
    disk'.isFile path = disk.isFile path ∧ disk'.read path = disk.read path

inductive Run (crypto : Crypto) : Disk → Tables → Prop where
  | empty (disk : Disk) : Run crypto disk {}
  | call {disk : Disk} {t : Tables} (keys : AuthenticationKeys) (c : LedgerCall)
      (h : Run crypto disk t) : Run crypto disk (call crypto keys disk c t).2
  | files {disk disk' : Disk} {t : Tables} (h : Run crypto disk t) (hu : Untouched disk disk' t) :
      Run crypto disk' t

/-- Calls of one ledger, one after the other. -/
def runCalls (crypto : Crypto) (keys : AuthenticationKeys) (disk : Disk) (calls : List LedgerCall)
    (t : Tables) : Tables :=
  calls.foldl (fun t c => (call crypto keys disk c t).2) t

theorem runCalls_nil (crypto : Crypto) (keys : AuthenticationKeys) (disk : Disk) (t : Tables) :
    runCalls crypto keys disk [] t = t := rfl

theorem runCalls_cons (crypto : Crypto) (keys : AuthenticationKeys) (disk : Disk) (c : LedgerCall)
    (calls : List LedgerCall) (t : Tables) :
    runCalls crypto keys disk (c :: calls) t =
      runCalls crypto keys disk calls (call crypto keys disk c t).2 := rfl

theorem Run.calls {crypto : Crypto} {disk : Disk} {t : Tables} (h : Run crypto disk t)
    (keys : AuthenticationKeys) (calls : List LedgerCall) :
    Run crypto disk (runCalls crypto keys disk calls t) := by
  induction calls generalizing t with
  | nil => exact h
  | cons c calls ih => exact ih (h.call keys c)

/-! ## What a call can do -/

theorem require_ok {ok : Bool} {e : LedgerError} {u : Unit} (h : require ok e = .ok u) :
    ok = true := by
  cases ok with
  | true => rfl
  | false => cases h

/-- One record more, with the action its event will name. -/
inductive Inserted (crypto : Crypto) (disk : Disk) (t : Tables) :
    Tables → String → String → String → Prop where
  | claim (claim : ClaimStatement) (hs : claim.schemaVersion = claimSchema)
      (hnew : t.claim? claim.claimId = none) :
      Inserted crypto disk t
        { t with claims := t.claims ++ [⟨claim.claimId,
            crypto.sha256Text (canonicalJson (claimPayload claim)),
            canonicalJson (claimPayload claim)⟩] }
        claim.claimId "CLAIM_PROPOSED" (crypto.sha256Text (canonicalJson (claimPayload claim)))
  | record (evidence : ClaimEvidence) (hs : ArtifactStands crypto disk evidence)
      (hnew : t.record? evidence.evidenceId = none) :
      Inserted crypto disk t
        { t with records := t.records ++ [⟨evidence.evidenceId, evidence.claimId,
            crypto.sha256Text (canonicalJson (evidencePayload evidence)),
            canonicalJson (evidencePayload evidence)⟩] }
        evidence.claimId "EVIDENCE_APPENDED" evidence.evidenceId
  | authentication (envelopeId claimId serialized : String)
      (hid : envelopeId = "CLAIM-AUTH-" ++ first32 (crypto.sha256Text serialized))
      (hnew : t.authentication? envelopeId = none) :
      Inserted crypto disk t
        { t with authentications := t.authentications ++ [⟨envelopeId, claimId,
            crypto.sha256Text serialized, serialized⟩] }
        claimId "CLAIM_AUTHENTICATED" envelopeId
  | supersession (claimId replacement reason : String)
      (hnew : t.supersession? claimId = none) :
      Inserted crypto disk t
        { t with supersessions := t.supersessions ++ [⟨claimId, replacement,
            crypto.sha256Text (canonicalJson (supersessionPayload claimId replacement reason)),
            canonicalJson (supersessionPayload claimId replacement reason)⟩] }
        claimId "CLAIM_SUPERSEDED"
        (crypto.sha256Text (canonicalJson (supersessionPayload claimId replacement reason)))

/-- What a call that returns has written: nothing, or a record and its event. -/
def Wrote (crypto : Crypto) (keys : AuthenticationKeys) (disk : Disk) (t t' : Tables)
    (assessment : ClaimAssessment) : Prop :=
  t' = t ∨ ∃ u claimId kind id, Inserted crypto disk t u claimId kind id ∧
    assess crypto keys disk u claimId = .ok assessment ∧
    appendEvent crypto u assessment kind id = .ok t'

theorem validateClaim_ok {claim claim' : ClaimStatement} (h : validateClaim claim = .ok claim') :
    claim' = claim ∧ claim.schemaVersion = claimSchema := by
  obtain ⟨_, hschema, h⟩ := bind_ok h
  obtain ⟨_, -, h⟩ := bind_ok h
  cases h
  exact ⟨rfl, by simpa using require_ok hschema⟩

theorem found_ok {α : Type} {x : Option α} {e : LedgerError} {a : α}
    (h : x.elim (.error e) .ok = Except.ok a) : x = some a := by
  cases x with
  | none => cases h
  | some b => cases h; rfl

/-- Validated evidence names a resolved file that has the declared digest. -/
theorem validateEvidence_ok {crypto : Crypto} {disk : Disk} {evidence evidence' : ClaimEvidence}
    (h : validateEvidence crypto disk evidence = .ok evidence') :
    ArtifactStands crypto disk evidence' := by
  obtain ⟨_, -, h⟩ := bind_ok h
  obtain ⟨artifact, hartifact, h⟩ := bind_ok h
  obtain ⟨_, -, h⟩ := bind_ok h
  cases h
  obtain ⟨path, -, hartifact⟩ := bind_ok hartifact
  obtain ⟨_, hfile, hartifact⟩ := bind_ok hartifact
  obtain ⟨bytes, hread, hartifact⟩ := bind_ok hartifact
  obtain ⟨_, hsha, hartifact⟩ := bind_ok hartifact
  cases hartifact
  exact ⟨require_ok hfile, bytes, found_ok hread, by simpa using require_ok hsha⟩

/-- The inserts add their row when no row has its key. -/
theorem insertClaim_ok {t u : Tables} {row : ClaimRow} (h : t.insertClaim row = .ok u) :
    t.claim? row.claimId = none ∧ u = { t with claims := t.claims ++ [row] } := by
  obtain ⟨_, hnew, h⟩ := bind_ok h
  cases h
  exact ⟨by simpa using require_ok hnew, rfl⟩

theorem insertRecord_ok {t u : Tables} {row : EvidenceRow} (h : t.insertRecord row = .ok u) :
    t.record? row.evidenceId = none ∧ u = { t with records := t.records ++ [row] } := by
  obtain ⟨_, hnew, h⟩ := bind_ok h
  obtain ⟨_, -, h⟩ := bind_ok h
  cases h
  exact ⟨by simpa using require_ok hnew, rfl⟩

theorem insertSupersession_ok {t u : Tables} {row : SupersessionRow}
    (h : t.insertSupersession row = .ok u) :
    t.supersession? row.claimId = none ∧
      u = { t with supersessions := t.supersessions ++ [row] } := by
  obtain ⟨_, hnew, h⟩ := bind_ok h
  obtain ⟨_, -, h⟩ := bind_ok h
  cases h
  exact ⟨by simpa using require_ok hnew, rfl⟩

theorem insertAuthentication_ok {t u : Tables} {row : AuthenticationRow}
    (h : t.insertAuthentication row = .ok u) :
    t.authentication? row.envelopeId = none ∧
      u = { t with authentications := t.authentications ++ [row] } := by
  obtain ⟨_, hnew, h⟩ := bind_ok h
  obtain ⟨_, -, h⟩ := bind_ok h
  cases h
  exact ⟨by simpa using require_ok hnew, rfl⟩

theorem insertEvent_ok {t u : Tables} {row : EventRow} (h : t.insertEvent row = .ok u) :
    u = { t with stateEvents := t.stateEvents ++ [row] } := by
  obtain ⟨_, -, h⟩ := bind_ok h
  obtain ⟨_, -, h⟩ := bind_ok h
  obtain ⟨_, -, h⟩ := bind_ok h
  cases h
  rfl

/-- The two ways the common end returns. -/
theorem store_ok {crypto : Crypto} {keys : AuthenticationKeys} {disk : Disk} {t t' : Tables}
    {stored : Option String} {serialized : String} {conflict : LedgerError}
    {insert : Except LedgerError Tables} {claimId kind id : String} {assessment : ClaimAssessment}
    (h : store crypto keys disk t stored serialized conflict insert claimId kind id =
      .ok (assessment, t')) :
    (stored = some serialized ∧ t' = t ∧ assess crypto keys disk t claimId = .ok assessment) ∨
    (stored = none ∧ ∃ u, insert = .ok u ∧ assess crypto keys disk u claimId = .ok assessment ∧
      appendEvent crypto u assessment kind id = .ok t') := by
  cases stored with
  | some payload =>
    obtain ⟨_, hsame, h⟩ := bind_ok h
    obtain ⟨a, hassess, h⟩ := bind_ok h
    cases h
    exact Or.inl ⟨by simpa using require_ok hsame, rfl, hassess⟩
  | none =>
    obtain ⟨u, hinsert, h⟩ := bind_ok h
    obtain ⟨a, hassess, h⟩ := bind_ok h
    obtain ⟨v, hevent, h⟩ := bind_ok h
    cases h
    exact Or.inr ⟨rfl, u, hinsert, hassess, hevent⟩

theorem store_wrote {crypto : Crypto} {keys : AuthenticationKeys} {disk : Disk} {t t' : Tables}
    {stored : Option String} {serialized : String} {conflict : LedgerError}
    {insert : Except LedgerError Tables} {claimId kind id : String} {assessment : ClaimAssessment}
    (h : store crypto keys disk t stored serialized conflict insert claimId kind id =
      .ok (assessment, t'))
    (hinsert : ∀ u, insert = .ok u → Inserted crypto disk t u claimId kind id) :
    Wrote crypto keys disk t t' assessment := by
  rcases store_ok h with ⟨-, ht, -⟩ | ⟨-, u, hu, hassess, hevent⟩
  · exact Or.inl ht
  · exact Or.inr ⟨u, claimId, kind, id, hinsert u hu, hassess, hevent⟩

theorem propose_wrote {crypto : Crypto} {keys : AuthenticationKeys} {disk : Disk}
    {claim : ClaimStatement} {t t' : Tables} {assessment : ClaimAssessment}
    (h : propose crypto keys disk claim t = .ok (assessment, t')) :
    Wrote crypto keys disk t t' assessment := by
  obtain ⟨valid, hvalid, hstore⟩ := bind_ok h
  obtain ⟨rfl, hschema⟩ := validateClaim_ok hvalid
  refine store_wrote hstore fun u hu => ?_
  obtain ⟨hnew, rfl⟩ := insertClaim_ok hu
  exact .claim _ hschema hnew

theorem appendEvidence_wrote {crypto : Crypto} {keys : AuthenticationKeys} {disk : Disk}
    {evidence : ClaimEvidence} {t t' : Tables} {assessment : ClaimAssessment}
    (h : appendEvidence crypto keys disk evidence t = .ok (assessment, t')) :
    Wrote crypto keys disk t t' assessment := by
  obtain ⟨valid, hvalid, h⟩ := bind_ok h
  obtain ⟨_, -, h⟩ := bind_ok h
  refine store_wrote h fun u hu => ?_
  obtain ⟨hnew, rfl⟩ := insertRecord_ok hu
  exact .record _ (validateEvidence_ok hvalid) hnew

theorem authenticate_wrote {crypto : Crypto} {keys : AuthenticationKeys} {disk : Disk}
    {claimId keyId : String} {t t' : Tables} {assessment : ClaimAssessment}
    (h : authenticate crypto keys disk claimId keyId t = .ok (assessment, t')) :
    Wrote crypto keys disk t t' assessment := by
  obtain ⟨_, -, h⟩ := bind_ok h
  obtain ⟨secret, -, h⟩ := bind_ok h
  obtain ⟨m, -, h⟩ := bind_ok h
  obtain ⟨_, -, h⟩ := bind_ok h
  obtain ⟨_, -, h⟩ := bind_ok h
  obtain ⟨_, -, h⟩ := bind_ok h
  refine store_wrote h fun u hu => ?_
  obtain ⟨hnew, rfl⟩ := insertAuthentication_ok hu
  exact .authentication _ _ _ rfl hnew

theorem supersede_wrote {crypto : Crypto} {keys : AuthenticationKeys} {disk : Disk}
    {claimId replacement reason : String} {t t' : Tables} {assessment : ClaimAssessment}
    (h : supersede crypto keys disk claimId replacement reason t = .ok (assessment, t')) :
    Wrote crypto keys disk t t' assessment := by
  obtain ⟨_, -, h⟩ := bind_ok h
  obtain ⟨_, -, h⟩ := bind_ok h
  obtain ⟨_, -, h⟩ := bind_ok h
  obtain ⟨_, -, h⟩ := bind_ok h
  refine store_wrote h fun u hu => ?_
  obtain ⟨hnew, rfl⟩ := insertSupersession_ok hu
  exact .supersession _ _ _ hnew

/-- **A call that returns wrote nothing, or one record and its event.** -/
theorem runCall_wrote {crypto : Crypto} {keys : AuthenticationKeys} {disk : Disk} {c : LedgerCall}
    {t t' : Tables} {assessment : ClaimAssessment}
    (h : runCall crypto keys disk c t = .ok (assessment, t')) :
    Wrote crypto keys disk t t' assessment := by
  cases c with
  | propose claim => exact propose_wrote h
  | appendEvidence evidence => exact appendEvidence_wrote h
  | authenticate claimId keyId => exact authenticate_wrote h
  | supersede claimId replacement reason => exact supersede_wrote h

/-! ## What an assessment was derived from -/

/-- Claims and evidence stay as they were stored. -/
structure Grows (t u : Tables) : Prop where
  claim : ∀ id row, t.claim? id = some row → u.claim? id = some row
  record : ∀ id row, t.record? id = some row → u.record? id = some row

theorem Inserted.grows {crypto : Crypto} {disk : Disk} {t u : Tables} {claimId kind id : String}
    (h : Inserted crypto disk t u claimId kind id) : Grows t u := by
  cases h with
  | claim claim hs hnew => exact ⟨fun _ _ => find?_append_of_some, fun _ _ hr => hr⟩
  | record evidence hs hnew => exact ⟨fun _ _ hc => hc, fun _ _ => find?_append_of_some⟩
  | authentication envelopeId claimId serialized hid hnew =>
    exact ⟨fun _ _ hc => hc, fun _ _ hr => hr⟩
  | supersession claimId replacement reason hnew => exact ⟨fun _ _ hc => hc, fun _ _ hr => hr⟩

theorem inventorySound_mono {crypto : Crypto} {t u : Tables} {assessment : ClaimAssessment}
    (hg : Grows t u) (h : InventorySound crypto t assessment) : InventorySound crypto u assessment := by
  obtain ⟨eligible, hids, hrows, hroot⟩ := h.bound
  exact ⟨h.subset, eligible, hids, fun row hr =>
    ⟨hg.record _ _ (hrows row hr).1, (hrows row hr).2⟩, hroot⟩

theorem eventSound_mono {crypto : Crypto} {t u : Tables} {row : EventRow} (hg : Grows t u)
    (h : EventSound crypto t row) : EventSound crypto u row := by
  obtain ⟨assessment, claimSha256, kind, id, hsays, hclaim, hinventory⟩ := h
  refine ⟨assessment, claimSha256, kind, id, hsays, ?_, inventorySound_mono hg hinventory⟩
  obtain ⟨c, hc, hsha⟩ := Option.map_eq_some_iff.mp hclaim
  rw [hg.claim _ _ hc, Option.map_some, hsha]

theorem loadRecords_rows {rows : List EvidenceRow} {records : List LoadedRecord}
    (h : loadRecords rows = .ok records) : records.map (·.1) = rows := by
  induction rows generalizing records with
  | nil => cases h; rfl
  | cons row rows ih =>
    rw [loadRecords, List.mapM_cons] at h
    obtain ⟨r, hr, h⟩ := bind_ok h
    obtain ⟨rs, hrs, h⟩ := bind_ok h
    obtain ⟨raw, -, hr⟩ := bind_ok hr
    cases h
    cases hr
    rw [List.map_cons, ih hrs]

theorem orderBy_pairwise {ρ : Type} (column : ρ → String) (rows : List ρ) :
    (orderBy column rows).Pairwise fun a b => column a ≤ column b := by
  have htrans : ∀ a b c : ρ, decide (column a ≤ column b) = true →
      decide (column b ≤ column c) = true → decide (column a ≤ column c) = true :=
    fun a b c hab hbc => decide_eq_true (le_trans (of_decide_eq_true hab) (of_decide_eq_true hbc))
  have htotal : ∀ a b : ρ, (decide (column a ≤ column b) || decide (column b ≤ column a)) = true :=
    fun a b => by simpa using le_total (column a) (column b)
  have h := List.pairwise_mergeSort htrans htotal rows
  exact h.imp fun hab => of_decide_eq_true hab

/-- **An assessment of sound tables is bound to stored evidence.** -/
theorem assess_inventory {crypto : Crypto} {keys : AuthenticationKeys} {disk : Disk} {t : Tables}
    {claimId : String} {assessment : ClaimAssessment}
    (hn : (t.records.map (·.evidenceId)).Nodup)
    (h : assess crypto keys disk t claimId = .ok assessment) :
    assessment.claimId = claimId ∧ InventorySound crypto t assessment := by
  obtain ⟨m, hm, h⟩ := bind_ok h
  obtain ⟨_, -, h⟩ := bind_ok h
  cases h
  obtain ⟨⟨claim, claimSha256⟩, -, hm⟩ := bind_ok hm
  obtain ⟨records, hrecords, hm⟩ := bind_ok hm
  cases hm
  have hrows := loadRecords_rows hrecords
  have hsub : ((eligibleRecords crypto disk claim records).map (·.1)).Sublist (t.recordsOf claimId) := by
    rw [← hrows]; exact List.filter_sublist.map _
  have hsorted : ((eligibleRecords crypto disk claim records).map (·.1.evidenceId)).Pairwise
      fun a b => decide (a ≤ b) = true := by
    have hp := (orderBy_pairwise (·.evidenceId) (t.records.filter (·.claimId == claimId))).sublist hsub
    rw [List.pairwise_map] at hp ⊢
    exact hp.imp fun hab => decide_eq_true hab
  have hids : sortedTexts ((eligibleRecords crypto disk claim records).map (·.1.evidenceId)) =
      (eligibleRecords crypto disk claim records).map (·.1.evidenceId) :=
    List.mergeSort_of_pairwise hsorted
  refine ⟨rfl, ?_, (eligibleRecords crypto disk claim records).map (·.1), ?_, ?_, ?_⟩
  · intro evidenceId hid
    simp only [hids] at hid
    obtain ⟨r, hr, rfl⟩ := List.mem_map.mp hid
    exact List.mem_map.mpr ⟨r, List.mem_of_mem_filter hr, rfl⟩
  · simp [hids]
  · intro row hrow
    have hmem := List.mem_mergeSort.mp (hsub.subset hrow)
    obtain ⟨hmem, hclaim⟩ := List.mem_filter.mp hmem
    exact ⟨find?_of_mem hn hmem, by simpa using hclaim⟩
  · simp [Function.comp_def]

/-! ## The event of a call -/

theorem loadClaim_ok {t : Tables} {claimId : String} {claim : ClaimStatement} {sha256 : String}
    (h : loadClaim t claimId = .ok (claim, sha256)) :
    (t.claim? claimId).map (·.payloadSha256) = some sha256 := by
  unfold loadClaim at h
  split at h
  · cases h
  · rename_i row hrow
    obtain ⟨_, -, h⟩ := bind_ok h
    obtain ⟨_, -, h⟩ := bind_ok h
    cases h
    rw [hrow, Option.map_some]

/-- The events of a claim, as read back, are its chain. -/
theorem eventsOf_eq_chainOf {t : Tables} (h : Chained eventLink t.stateEvents) (claimId : String) :
    t.eventsOf claimId = chainOf eventLink claimId t.stateEvents := by
  have hfilter : t.stateEvents.filter (·.claimId == claimId) =
      chainOf eventLink claimId t.stateEvents := by
    rfl
  rw [Tables.eventsOf, hfilter]
  exact List.mergeSort_of_pairwise ((h claimId).pairwise.imp fun hlt =>
    decide_eq_true (Nat.le_of_lt hlt))

/-- The appended event continues the chain of its claim. -/
theorem appendEvent_ok {crypto : Crypto} {u t' : Tables} {assessment : ClaimAssessment}
    {kind id : String} (hc : Chained eventLink u.stateEvents)
    (h : appendEvent crypto u assessment kind id = .ok t') :
    ∃ row claimSha256, t' = { u with stateEvents := u.stateEvents ++ [row] } ∧
      EventSays crypto row assessment claimSha256 kind id ∧
      (u.claim? row.claimId).map (·.payloadSha256) = some claimSha256 ∧
      Continues eventLink (endTip eventLink none (chainOf eventLink row.claimId u.stateEvents)) row := by
  obtain ⟨⟨claim, claimSha256⟩, hload, h⟩ := bind_ok h
  refine ⟨_, claimSha256, insertEvent_ok h, ⟨rfl, rfl, rfl, rfl⟩, loadClaim_ok hload, ?_⟩
  rw [endTip_eq_getLast?, ← eventsOf_eq_chainOf hc]
  constructor
  · simp only [eventLink]
    cases (u.eventsOf assessment.claimId).getLast? <;> rfl
  · simp only [eventLink]
    cases (u.eventsOf assessment.claimId).getLast? <;> rfl

/-! ## One call -/

theorem inserted_sound {crypto : Crypto} {disk : Disk} {t u : Tables} {claimId kind id : String}
    (h : Inserted crypto disk t u claimId kind id) (hs : Sound crypto disk t) :
    Sound crypto disk u := by
  have hevents : ∀ row ∈ t.stateEvents, EventSound crypto u row :=
    fun row hr => eventSound_mono h.grows (hs.events row hr)
  cases h with
  | claim claim hschema hnew =>
    refine { hs with claims := forall_mem_concat hs.claims ?_, events := hevents }
    exact ⟨claim, hschema, rfl, rfl, rfl⟩
  | record evidence hstands hnew =>
    have hfresh : evidence.evidenceId ∉ t.records.map (·.evidenceId) := by
      intro hmem
      obtain ⟨row, hr, hid⟩ := List.mem_map.mp hmem
      exact absurd hid (by simpa using List.find?_eq_none.mp hnew row hr)
    have hids : ((t.records.map (·.evidenceId)) ++ [evidence.evidenceId]).Nodup :=
      List.nodup_append.mpr ⟨hs.recordIds, List.nodup_singleton _, fun a ha b hb hab =>
        hfresh (by rw [← List.mem_singleton.mp hb, ← hab]; exact ha)⟩
    refine { hs with records := forall_mem_concat hs.records ?_, recordIds := ?_, events := hevents }
    · exact ⟨evidence, rfl, rfl, rfl, rfl, hstands⟩
    · rw [List.map_append]; exact hids
  | authentication envelopeId claimId serialized hid hnew =>
    refine { hs with authentications := forall_mem_concat hs.authentications ?_, events := hevents }
    exact ⟨rfl, hid⟩
  | supersession claimId replacement reason hnew =>
    refine { hs with supersessions := forall_mem_concat hs.supersessions ?_, events := hevents }
    exact ⟨reason, rfl, rfl⟩

/-- A call keeps the tables sound. -/
theorem wrote_sound {crypto : Crypto} {keys : AuthenticationKeys} {disk : Disk} {t t' : Tables}
    {assessment : ClaimAssessment} (h : Wrote crypto keys disk t t' assessment)
    (hs : Sound crypto disk t) : Sound crypto disk t' := by
  rcases h with rfl | ⟨u, claimId, kind, id, hinsert, hassess, hevent⟩
  · exact hs
  · have hu := inserted_sound hinsert hs
    obtain ⟨row, claimSha256, rfl, hsays, hclaim, hcontinues⟩ := appendEvent_ok hu.chained hevent
    have hinventory := (assess_inventory hu.recordIds hassess).2
    have hgrows : Grows u { u with stateEvents := u.stateEvents ++ [row] } :=
      ⟨fun _ _ hc => hc, fun _ _ hr => hr⟩
    have hrow := forall_mem_concat hu.events ⟨assessment, claimSha256, kind, id, hsays, hclaim, hinventory⟩
    exact { hu with events := fun r hr => eventSound_mono hgrows (hrow r hr),
                    chained := hu.chained.append hcontinues }

/-- The tables hold an event of the claim that names the action. -/
def HasEvent (t : Tables) (claimId kind id : String) : Prop :=
  ∃ row ∈ t.stateEvents, row.claimId = claimId ∧ ∃ raw, loads row.payload = some raw ∧
    raw.get? "action_kind" = some (.str kind) ∧ raw.get? "action_id" = some (.str id)

/-- No record is partial: each one has its event. -/
structure Complete (t : Tables) : Prop where
  claims : ∀ row ∈ t.claims, HasEvent t row.claimId "CLAIM_PROPOSED" row.payloadSha256
  records : ∀ row ∈ t.records, HasEvent t row.claimId "EVIDENCE_APPENDED" row.evidenceId
  supersessions : ∀ row ∈ t.supersessions,
    HasEvent t row.claimId "CLAIM_SUPERSEDED" row.payloadSha256
  authentications : ∀ row ∈ t.authentications,
    HasEvent t row.claimId "CLAIM_AUTHENTICATED" row.envelopeId

theorem HasEvent.append {t u : Tables} {claimId kind id : String} (h : HasEvent t claimId kind id)
    (hsub : t.stateEvents ⊆ u.stateEvents) : HasEvent u claimId kind id := by
  obtain ⟨row, hr, hrest⟩ := h
  exact ⟨row, hsub hr, hrest⟩

/-- A call leaves no record without its event. -/
theorem wrote_complete {crypto : Crypto} {keys : AuthenticationKeys} {disk : Disk} {t t' : Tables}
    {assessment : ClaimAssessment} (h : Wrote crypto keys disk t t' assessment)
    (hs : Sound crypto disk t) (hc : Complete t) : Complete t' := by
  rcases h with rfl | ⟨u, claimId, kind, id, hinsert, hassess, hevent⟩
  · exact hc
  · have hu := inserted_sound hinsert hs
    obtain ⟨row, claimSha256, rfl, hsays, -, -⟩ := appendEvent_ok hu.chained hevent
    have hid := (assess_inventory hu.recordIds hassess).1
    have hloads := loads_canonicalJson (eventBody assessment claimSha256 row.sequence
      row.previousEventSha256 kind id)
    rw [← hsays.payload] at hloads
    obtain ⟨-, -, -, -, hkind, haction, -⟩ := eventBody_get? assessment claimSha256 row.sequence
      row.previousEventSha256 kind id
    have hnew : HasEvent { u with stateEvents := u.stateEvents ++ [row] } claimId kind id :=
      ⟨row, List.mem_append_right _ (List.mem_singleton_self _), hsays.claimId.trans hid, _, hloads,
        hkind, haction⟩
    have hsub : t.stateEvents ⊆ u.stateEvents ++ [row] := by
      cases hinsert <;> exact List.subset_append_left _ _
    have hold : ∀ {c k i}, HasEvent t c k i →
        HasEvent { u with stateEvents := u.stateEvents ++ [row] } c k i := fun he => he.append hsub
    have hclaims := fun r hr => hold (hc.claims r hr)
    have hrecords := fun r hr => hold (hc.records r hr)
    have hsupersessions := fun r hr => hold (hc.supersessions r hr)
    have hauthentications := fun r hr => hold (hc.authentications r hr)
    cases hinsert with
    | claim => exact ⟨forall_mem_concat hclaims hnew, hrecords, hsupersessions, hauthentications⟩
    | record => exact ⟨hclaims, forall_mem_concat hrecords hnew, hsupersessions, hauthentications⟩
    | authentication =>
      exact ⟨hclaims, hrecords, hsupersessions, forall_mem_concat hauthentications hnew⟩
    | supersession =>
      exact ⟨hclaims, hrecords, forall_mem_concat hsupersessions hnew, hauthentications⟩

/-! ## Repeated calls -/

theorem appendEvent_tables {crypto : Crypto} {u t' : Tables} {assessment : ClaimAssessment}
    {kind id : String} (h : appendEvent crypto u assessment kind id = .ok t') :
    ∃ row, t' = { u with stateEvents := u.stateEvents ++ [row] } := by
  obtain ⟨_, -, h⟩ := bind_ok h
  exact ⟨_, insertEvent_ok h⟩

/-- What is already stored with the same payload is only assessed. -/
theorem store_stored {crypto : Crypto} {keys : AuthenticationKeys} {disk : Disk} {t : Tables}
    {stored : Option String} {serialized : String} {conflict : LedgerError}
    {insert : Except LedgerError Tables} {claimId kind id : String} {assessment : ClaimAssessment}
    (hstored : stored = some serialized)
    (h : assess crypto keys disk t claimId = .ok assessment) :
    store crypto keys disk t stored serialized conflict insert claimId kind id =
      .ok (assessment, t) := by
  subst hstored
  simp only [store, require, beq_self_eq_true, if_true, h]
  rfl

theorem propose_repeated {crypto : Crypto} {keys : AuthenticationKeys} {disk : Disk}
    {claim : ClaimStatement} {t t' : Tables} {assessment : ClaimAssessment}
    (h : propose crypto keys disk claim t = .ok (assessment, t')) :
    propose crypto keys disk claim t' = .ok (assessment, t') := by
  obtain ⟨valid, hvalid, hstore⟩ := bind_ok h
  rcases store_ok hstore with ⟨-, rfl, -⟩ | ⟨-, u, hinsert, hassess, hevent⟩
  · exact h
  · obtain ⟨hnew, rfl⟩ := insertClaim_ok hinsert
    obtain ⟨row, rfl⟩ := appendEvent_tables hevent
    rw [propose, hvalid]
    refine store_stored ?_ hassess
    rw [Tables.claim?, find?_append_new hnew (by simp), Option.map_some]

theorem appendEvidence_repeated {crypto : Crypto} {keys : AuthenticationKeys} {disk : Disk}
    {evidence : ClaimEvidence} {t t' : Tables} {assessment : ClaimAssessment}
    (h : appendEvidence crypto keys disk evidence t = .ok (assessment, t')) :
    appendEvidence crypto keys disk evidence t' = .ok (assessment, t') := by
  obtain ⟨valid, hvalid, hrest⟩ := bind_ok h
  obtain ⟨loaded, hload, hstore⟩ := bind_ok hrest
  rcases store_ok hstore with ⟨-, rfl, -⟩ | ⟨-, u, hinsert, hassess, hevent⟩
  · exact h
  · obtain ⟨hnew, rfl⟩ := insertRecord_ok hinsert
    obtain ⟨row, rfl⟩ := appendEvent_tables hevent
    have hload' : ∀ records events, loadClaim { t with records := records, stateEvents := events }
        valid.claimId = .ok loaded := fun _ _ => hload
    simp only [appendEvidence, hvalid, hload', bind, Except.bind]
    refine store_stored ?_ hassess
    rw [Tables.record?, find?_append_new hnew (by simp), Option.map_some]

theorem authenticate_repeated {crypto : Crypto} {keys : AuthenticationKeys} {disk : Disk}
    {claimId keyId : String} {t t' : Tables} {assessment : ClaimAssessment}
    (h : authenticate crypto keys disk claimId keyId t = .ok (assessment, t')) :
    authenticate crypto keys disk claimId keyId t' = .ok (assessment, t') := by
  obtain ⟨_, hkey, hrest⟩ := bind_ok h
  obtain ⟨secret, hsecret, hrest⟩ := bind_ok hrest
  obtain ⟨m, hm, hrest⟩ := bind_ok hrest
  obtain ⟨_, -, hrest⟩ := bind_ok hrest
  obtain ⟨_, hactive, hrest⟩ := bind_ok hrest
  obtain ⟨_, hlevel, hstore⟩ := bind_ok hrest
  rcases store_ok hstore with ⟨-, rfl, -⟩ | ⟨-, u, hinsert, hassess, hevent⟩
  · exact h
  · obtain ⟨hnew, rfl⟩ := insertAuthentication_ok hinsert
    obtain ⟨row, rfl⟩ := appendEvent_tables hevent
    -- the maturity does not look at envelopes or events
    have hm' : ∀ rows events, assessMaturity crypto disk
        { t with authentications := rows, stateEvents := events } claimId = .ok m :=
      fun _ _ => hm
    obtain ⟨m', hm'', hassess'⟩ := bind_ok hassess
    obtain rfl : m = m' := Except.ok.inj (hm.symm.trans hm'')
    obtain ⟨state, hstate, -⟩ := bind_ok hassess'
    have hstate' : ∀ events, authenticationState crypto keys
        { t with authentications := _, stateEvents := events } m = .ok state := fun _ => hstate
    simp only [authenticate, hkey, hsecret, hm', hstate', hactive, hlevel, bind, Except.bind]
    refine store_stored ?_ hassess
    rw [Tables.authentication?, find?_append_new hnew (by simp), Option.map_some]

theorem supersede_repeated {crypto : Crypto} {keys : AuthenticationKeys} {disk : Disk}
    {claimId replacement reason : String} {t t' : Tables} {assessment : ClaimAssessment}
    (h : supersede crypto keys disk claimId replacement reason t = .ok (assessment, t')) :
    supersede crypto keys disk claimId replacement reason t' = .ok (assessment, t') := by
  obtain ⟨_, hreason, hrest⟩ := bind_ok h
  obtain ⟨_, hself, hrest⟩ := bind_ok hrest
  obtain ⟨old, hold, hrest⟩ := bind_ok hrest
  obtain ⟨new, hnewClaim, hstore⟩ := bind_ok hrest
  rcases store_ok hstore with ⟨-, rfl, -⟩ | ⟨-, u, hinsert, hassess, hevent⟩
  · exact h
  · obtain ⟨hnew, rfl⟩ := insertSupersession_ok hinsert
    obtain ⟨row, rfl⟩ := appendEvent_tables hevent
    have hload : ∀ rows events id, loadClaim { t with supersessions := rows, stateEvents := events }
        id = loadClaim t id := fun _ _ _ => rfl
    simp only [supersede, hreason, hself, hload, hold, hnewClaim, bind, Except.bind]
    refine store_stored ?_ hassess
    rw [Tables.supersession?, find?_append_new hnew (by simp), Option.map_some]

/-- **A call made twice has the reply and the effect of one.** -/
theorem call_repeated (crypto : Crypto) (keys : AuthenticationKeys) (disk : Disk) (c : LedgerCall)
    (t : Tables) :
    call crypto keys disk c (call crypto keys disk c t).2 = call crypto keys disk c t := by
  cases hrun : runCall crypto keys disk c t with
  | error e => simp only [call, hrun]
  | ok reply =>
    obtain ⟨assessment, t'⟩ := reply
    have hagain : runCall crypto keys disk c t' = .ok (assessment, t') := by
      cases c with
      | propose claim => exact propose_repeated hrun
      | appendEvidence evidence => exact appendEvidence_repeated hrun
      | authenticate claimId keyId => exact authenticate_repeated hrun
      | supersede claimId replacement reason => exact supersede_repeated hrun
    simp only [call, hrun, hagain]

/-- A call returns, or it leaves the tables as they were. -/
theorem call_reply (crypto : Crypto) (keys : AuthenticationKeys) (disk : Disk) (c : LedgerCall)
    (t : Tables) : (∃ a, (call crypto keys disk c t).1 = .ok a) ∨ (call crypto keys disk c t).2 = t := by
  cases hrun : runCall crypto keys disk c t with
  | error e => exact Or.inr (by simp only [call, hrun])
  | ok reply => exact Or.inl ⟨reply.1, by simp only [call, hrun]⟩

/-! ## Runs -/

theorem untouched_sound {crypto : Crypto} {disk disk' : Disk} {t : Tables}
    (hu : Untouched disk disk' t) (hs : Sound crypto disk t) : Sound crypto disk' t := by
  refine { hs with records := fun row hr => ?_ }
  obtain ⟨evidence, hid, hclaim, hpayload, hsha, hfile, bytes, hread, hdigest⟩ := hs.records row hr
  have hloads := loads_canonicalJson (evidencePayload evidence)
  rw [← hpayload] at hloads
  have hpath : (canon (evidencePayload evidence)).get? "artifact_path" =
      some (.str evidence.artifactPath) := by
    rw [evidencePayload, canon_get? (by simp)]; simp [List.lookup]
  obtain ⟨hfile', hread'⟩ := hu row hr _ _ hloads hpath
  exact ⟨evidence, hid, hclaim, hpayload, hsha, hfile'.trans hfile, bytes, hread'.trans hread, hdigest⟩

/-- A run leaves sound tables in which every record has its event. -/
theorem Run.sound {crypto : Crypto} {disk : Disk} {t : Tables} (h : Run crypto disk t) :
    Sound crypto disk t ∧ Complete t := by
  induction h with
  | empty disk =>
    refine ⟨⟨?_, ?_, List.nodup_nil, ?_, ?_, ?_, fun k => trivial⟩, ⟨?_, ?_, ?_, ?_⟩⟩ <;>
      exact fun _ hr => by cases hr
  | @call disk t keys c _ ih =>
    cases hrun : runCall crypto keys disk c t with
    | error e => simpa only [Ledger.call, hrun] using ih
    | ok reply =>
      obtain ⟨assessment, t'⟩ := reply
      have hwrote := runCall_wrote hrun
      simp only [Ledger.call, hrun]
      exact ⟨wrote_sound hwrote ih.1, wrote_complete hwrote ih.1 ih.2⟩
  | files _ hu ih => exact ⟨untouched_sound hu ih.1, ih.2⟩

/-- Every stored payload has its stored digest. -/
structure PayloadsHashed (crypto : Crypto) (t : Tables) : Prop where
  claims : ∀ row ∈ t.claims, crypto.sha256Text row.payload = row.payloadSha256
  records : ∀ row ∈ t.records, crypto.sha256Text row.payload = row.payloadSha256
  supersessions : ∀ row ∈ t.supersessions, crypto.sha256Text row.payload = row.payloadSha256
  authentications : ∀ row ∈ t.authentications, crypto.sha256Text row.payload = row.payloadSha256
  events : ∀ row ∈ t.stateEvents, crypto.sha256Text row.payload = row.eventSha256

theorem payloadsHashed_of_sound {crypto : Crypto} {disk : Disk} {t : Tables}
    (h : Sound crypto disk t) : PayloadsHashed crypto t where
  claims row hr := by
    obtain ⟨_, _, _, _, hsha⟩ := h.claims row hr
    exact hsha.symm
  records row hr := by
    obtain ⟨_, _, _, _, hsha, _⟩ := h.records row hr
    exact hsha.symm
  supersessions row hr := by
    obtain ⟨_, _, hsha⟩ := h.supersessions row hr
    exact hsha.symm
  authentications row hr := (h.authentications row hr).1.symm
  events row hr := by
    obtain ⟨_, _, _, _, hsays, _⟩ := h.events row hr
    exact hsays.digest.symm

/-- **Ledger integrity.** After every run the verifier reports no error; the
events of each claim are numbered from one without a gap and each names the
digest of the one before it; every payload has its digest; no record is
without its event; a call that raises leaves the tables as they were, and a
call made twice in a row has the reply and the effect of one. -/
theorem claim_ledger_integrity {crypto : Crypto} {disk : Disk} {t : Tables}
    (h : Run crypto disk t) :
    (verifyIntegrity crypto disk t).ok = true ∧
    (∀ claimId,
      (t.eventsOf claimId).map (·.sequence) = List.range' 1 (t.eventsOf claimId).length ∧
      Linked eventLink none (t.eventsOf claimId)) ∧
    PayloadsHashed crypto t ∧ Complete t ∧
    ∀ keys c,
      (∀ e, (call crypto keys disk c t).1 = .error e → (call crypto keys disk c t).2 = t) ∧
      call crypto keys disk c (call crypto keys disk c t).2 = call crypto keys disk c t := by
  obtain ⟨hsound, hcomplete⟩ := h.sound
  refine ⟨hsound.verifies, fun claimId => ?_, payloadsHashed_of_sound hsound, hcomplete, ?_⟩
  · rw [eventsOf_eq_chainOf hsound.chained]
    exact ⟨(hsound.chained claimId).sequences, hsound.chained claimId⟩
  · refine fun keys c => ⟨fun e he => ?_, call_repeated crypto keys disk c t⟩
    cases hrun : runCall crypto keys disk c t with
    | error e' => simp only [call, hrun]
    | ok reply => simp [call, hrun] at he

/-- A digest that adds the bytes up. -/
def checksum : Crypto where
  sha256 bytes := List.replicate 32 (bytes.foldl (· + ·) 0)
  hmacSha256 secret bytes := List.replicate 32 ((secret ++ bytes).foldl (· + ·) 0)

def emptyDisk : Disk := ⟨fun _ => none, fun _ => false, fun _ => none⟩

def digestOfZeros : String := String.ofList (List.replicate 64 '0')

def sampleClaim (assertion : String) : ClaimStatement where
  claimId := "C-1"
  subject := "parser"
  assertion := assertion
  sourceManifestSha256 := digestOfZeros
  policySha256 := digestOfZeros
  requiredTestSpecSha256 := digestOfZeros

/-- A claim proposed twice, the second time with another assertion. -/
theorem claim_ledger_integrity_proposedTwice :
    (verifyIntegrity checksum emptyDisk (runCalls checksum (fun _ => none) emptyDisk
      [.propose (sampleClaim "accepts good input"), .propose (sampleClaim "rejects bad input")]
      {})).ok = true :=
  (claim_ledger_integrity ((Run.empty emptyDisk).calls (fun _ => none)
    [.propose (sampleClaim "accepts good input"), .propose (sampleClaim "rejects bad input")])).1

end RlmGraph.Claims.Integrity
