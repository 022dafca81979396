import RlmGraph.Lib.HashChain
import RlmGraph.Claims.Ledger

/-! # Verifying a ledger

`verifyIntegrity` re-derives every digest of the stored tables and follows the
event chains. `Sound` says what the stored rows are: the canonical text of the
record they stand for, its digest, and for every event its place in the chain
of its claim and the evidence it was derived from. A sound ledger verifies
(`Sound.verifies`), whatever the hash function is. -/
namespace RlmGraph.Claims.Verify
open RlmGraph.Lib.JsonText RlmGraph.Lib.HashChain RlmGraph.Claims.Ledger

structure IntegrityReport where
  ok : Bool
  claimCount : Nat
  evidenceCount : Nat
  eventCount : Nat
  authenticationCount : Nat
  errors : List String

/-- The message, unless the condition holds. -/
def errorUnless (ok : Bool) (message : String) : List String := if ok then [] else [message]

def checkClaim (crypto : Crypto) (row : ClaimRow) : List String :=
  errorUnless (crypto.sha256Text row.payload == row.payloadSha256)
    s!"claim payload hash mismatch: {row.claimId}"

def checkRecord (crypto : Crypto) (disk : Disk) (row : EvidenceRow) : List String :=
  if crypto.sha256Text row.payload ≠ row.payloadSha256 then
    [s!"evidence payload hash mismatch: {row.evidenceId}"]
  else match loads row.payload with
    | none => [s!"evidence payload is not JSON: {row.evidenceId}"]
    | some raw => errorUnless (artifactMatches crypto disk raw)
        s!"evidence artifact hash mismatch: {row.evidenceId}"

def checkSupersession (crypto : Crypto) (row : SupersessionRow) : List String :=
  errorUnless (crypto.sha256Text row.payload == row.payloadSha256)
      s!"supersession payload hash mismatch: {row.claimId}" ++
    match loads row.payload with
    | none => [s!"supersession payload is not JSON: {row.claimId}"]
    | some raw => errorUnless (raw.get? "claim_id" == some (.str row.claimId) &&
          raw.get? "replacement_claim_id" == some (.str row.replacementClaimId))
        s!"supersession binding mismatch: {row.claimId}"

def checkAuthentication (crypto : Crypto) (row : AuthenticationRow) : List String :=
  errorUnless (crypto.sha256Text row.payload == row.payloadSha256)
      s!"authentication payload hash mismatch: {row.envelopeId}" ++
    errorUnless (row.envelopeId == "CLAIM-AUTH-" ++ first32 (crypto.sha256Text row.payload))
      s!"authentication envelope id mismatch: {row.envelopeId}"

/-- The record an identifier of an event's inventory is bound to. -/
def boundRecord (t : Tables) (claimId : String) : Json → Option (String × String)
  | .str evidenceId =>
    ((t.record? evidenceId).filter (·.claimId == claimId)).map fun row =>
      (evidenceId, row.payloadSha256)
  | _ => none

def checkInventory (crypto : Crypto) (t : Tables) (row : EventRow) (raw : Json) : List String :=
  match (raw.get? "evidence_ids").getD (.arr []), (raw.get? "eligible_evidence_ids").getD (.arr []) with
  | .arr ids, .arr eligible =>
    errorUnless (eligible.all (ids.contains ·))
        s!"event eligible evidence is not a subset: {row.eventId}" ++
      (eligible.flatMap fun evidenceId => errorUnless (boundRecord t row.claimId evidenceId).isSome
        s!"event evidence binding mismatch: {row.eventId}") ++
      errorUnless (raw.get? "evidence_merkle_root" ==
          some (.str (merkleRoot crypto (eligible.filterMap (boundRecord t row.claimId)))))
        s!"event evidence root mismatch: {row.eventId}"
  | _, _ => [s!"event evidence inventory is invalid: {row.eventId}"]

/-- One event against the tip of its chain. An event that is not JSON is left
out of the chain. -/
def checkEvent (crypto : Crypto) (t : Tables) (previous : Tip String) (row : EventRow) :
    List String × Bool :=
  let actual := crypto.sha256Text row.payload
  let digests :=
    errorUnless (actual == row.eventSha256) s!"event payload hash mismatch: {row.eventId}" ++
      errorUnless (row.eventId == "CLAIM-EVENT-" ++ first32 actual) s!"event id mismatch: {row.eventId}"
  match loads row.payload with
  | none => (digests ++ [s!"event payload is not JSON: {row.eventId}"], false)
  | some raw =>
    (digests ++
      errorUnless (row.sequence == nextSequence previous &&
          raw.get? "sequence" == some (.int row.sequence))
        s!"event sequence mismatch: {row.eventId}" ++
      errorUnless (row.previousEventSha256 == tipDigest previous &&
          (raw.get? "previous_event_sha256").getD .null == optionalText (tipDigest previous))
        s!"event chain mismatch: {row.eventId}" ++
      errorUnless (raw.get? "claim_id" == some (.str row.claimId))
        s!"event claim mismatch: {row.eventId}" ++
      errorUnless ((raw.get? "claim_payload_sha256").getD .null ==
          optionalText ((t.claim? row.claimId).map (·.payloadSha256)))
        s!"event claim payload binding mismatch: {row.eventId}" ++
      checkInventory crypto t row raw, true)

/-- The events as links: one chain for each claim. -/
def eventLink : Link String EventRow String where
  key := EventRow.claimId
  sequence := EventRow.sequence
  previous := EventRow.previousEventSha256
  digest := EventRow.eventSha256

/-- `ORDER BY claim_id, sequence`. -/
def eventLE (a b : EventRow) : Bool :=
  decide (a.claimId < b.claimId ∨ (a.claimId = b.claimId ∧ a.sequence ≤ b.sequence))

def integrityErrors (crypto : Crypto) (disk : Disk) (t : Tables) : List String :=
  (orderBy (·.claimId) t.claims).flatMap (checkClaim crypto) ++
    (orderBy (·.evidenceId) t.records).flatMap (checkRecord crypto disk) ++
    (orderBy (·.claimId) t.supersessions).flatMap (checkSupersession crypto) ++
    (orderBy (·.envelopeId) t.authentications).flatMap (checkAuthentication crypto) ++
    scan eventLink (checkEvent crypto t) (fun _ => none) (t.stateEvents.mergeSort eventLE)

def verifyIntegrity (crypto : Crypto) (disk : Disk) (t : Tables) : IntegrityReport :=
  let errors := integrityErrors crypto disk t
  { ok := errors.isEmpty
    claimCount := t.claims.length
    evidenceCount := t.records.length
    eventCount := t.stateEvents.length
    authenticationCount := t.authentications.length
    errors := errors }

/-! ## Sound rows -/

def ClaimSound (crypto : Crypto) (row : ClaimRow) : Prop :=
  ∃ claim, claim.schemaVersion = claimSchema ∧ row.claimId = claim.claimId ∧
    row.payload = canonicalJson (claimPayload claim) ∧
    row.payloadSha256 = crypto.sha256Text row.payload

/-- The artifact of the evidence is there and has the recorded digest. -/
def ArtifactStands (crypto : Crypto) (disk : Disk) (evidence : ClaimEvidence) : Prop :=
  disk.isFile evidence.artifactPath = true ∧
    ∃ bytes, disk.read evidence.artifactPath = some bytes ∧
      crypto.sha256Bytes bytes = evidence.artifactSha256

def RecordSound (crypto : Crypto) (disk : Disk) (row : EvidenceRow) : Prop :=
  ∃ evidence, row.evidenceId = evidence.evidenceId ∧ row.claimId = evidence.claimId ∧
    row.payload = canonicalJson (evidencePayload evidence) ∧
    row.payloadSha256 = crypto.sha256Text row.payload ∧ ArtifactStands crypto disk evidence

def SupersessionSound (crypto : Crypto) (row : SupersessionRow) : Prop :=
  ∃ reason,
    row.payload = canonicalJson (supersessionPayload row.claimId row.replacementClaimId reason) ∧
    row.payloadSha256 = crypto.sha256Text row.payload

def AuthenticationSound (crypto : Crypto) (row : AuthenticationRow) : Prop :=
  row.payloadSha256 = crypto.sha256Text row.payload ∧
    row.envelopeId = "CLAIM-AUTH-" ++ first32 row.payloadSha256

/-- The evidence an event was derived from is stored, under the digests the
root was computed from. -/
structure InventorySound (crypto : Crypto) (t : Tables) (assessment : ClaimAssessment) : Prop where
  subset : ∀ evidenceId ∈ assessment.eligibleEvidenceIds, evidenceId ∈ assessment.evidenceIds
  bound : ∃ eligible : List EvidenceRow,
    eligible.map (·.evidenceId) = assessment.eligibleEvidenceIds ∧
    (∀ row ∈ eligible, t.record? row.evidenceId = some row ∧ row.claimId = assessment.claimId) ∧
    assessment.evidenceMerkleRoot =
      merkleRoot crypto (eligible.map fun row => (row.evidenceId, row.payloadSha256))

/-- What an event says: the action it records and the assessment after it. -/
structure EventSays (crypto : Crypto) (row : EventRow) (assessment : ClaimAssessment)
    (claimPayloadSha256 actionKind actionId : String) : Prop where
  claimId : row.claimId = assessment.claimId
  payload : row.payload = canonicalJson (eventBody assessment claimPayloadSha256 row.sequence
    row.previousEventSha256 actionKind actionId)
  digest : row.eventSha256 = crypto.sha256Text row.payload
  eventId : row.eventId = "CLAIM-EVENT-" ++ first32 row.eventSha256

def EventSound (crypto : Crypto) (t : Tables) (row : EventRow) : Prop :=
  ∃ assessment claimSha256 actionKind actionId,
    EventSays crypto row assessment claimSha256 actionKind actionId ∧
    (t.claim? row.claimId).map (·.payloadSha256) = some claimSha256 ∧
    InventorySound crypto t assessment

structure Sound (crypto : Crypto) (disk : Disk) (t : Tables) : Prop where
  claims : ∀ row ∈ t.claims, ClaimSound crypto row
  records : ∀ row ∈ t.records, RecordSound crypto disk row
  recordIds : (t.records.map (·.evidenceId)).Nodup
  supersessions : ∀ row ∈ t.supersessions, SupersessionSound crypto row
  authentications : ∀ row ∈ t.authentications, AuthenticationSound crypto row
  events : ∀ row ∈ t.stateEvents, EventSound crypto t row
  chained : Chained eventLink t.stateEvents

/-! ## Sound rows pass their check -/

@[simp] theorem errorUnless_eq_nil {ok : Bool} {message : String} :
    errorUnless ok message = [] ↔ ok = true := by
  cases ok <;> simp [errorUnless]

theorem loads_canonicalJson (v : Json) : loads (canonicalJson v) = some (canon v) :=
  loads_dumps _ v

@[simp] theorem canon_optionalText (text : Option String) :
    canon (optionalText text) = optionalText text := by
  cases text <;> simp [optionalText]

theorem artifactMatches_payload {crypto : Crypto} {disk : Disk} {evidence : ClaimEvidence}
    (h : ArtifactStands crypto disk evidence) :
    artifactMatches crypto disk (canon (evidencePayload evidence)) = true := by
  obtain ⟨hfile, bytes, hread, hsha⟩ := h
  have hpath : (canon (evidencePayload evidence)).get? "artifact_path" =
      some (.str evidence.artifactPath) := by
    rw [evidencePayload, canon_get? (by simp)]; simp [List.lookup]
  have hdigest : (canon (evidencePayload evidence)).get? "artifact_sha256" =
      some (.str evidence.artifactSha256) := by
    rw [evidencePayload, canon_get? (by simp)]; simp [List.lookup]
  simp [artifactMatches, hpath, hdigest, hfile, hread, hsha]

theorem checkClaim_sound {crypto : Crypto} {row : ClaimRow} (h : ClaimSound crypto row) :
    checkClaim crypto row = [] := by
  obtain ⟨_, _, _, _, hsha⟩ := h
  simp [checkClaim, hsha]

theorem checkRecord_sound {crypto : Crypto} {disk : Disk} {row : EvidenceRow}
    (h : RecordSound crypto disk row) : checkRecord crypto disk row = [] := by
  obtain ⟨evidence, -, -, hpayload, hsha, hstands⟩ := h
  have hloads : loads row.payload = some (canon (evidencePayload evidence)) := by
    rw [hpayload, loads_canonicalJson]
  simp [checkRecord, hsha, hloads, artifactMatches_payload hstands]

theorem checkSupersession_sound {crypto : Crypto} {row : SupersessionRow}
    (h : SupersessionSound crypto row) : checkSupersession crypto row = [] := by
  obtain ⟨reason, hpayload, hsha⟩ := h
  have hloads : loads row.payload =
      some (canon (supersessionPayload row.claimId row.replacementClaimId reason)) := by
    rw [hpayload, loads_canonicalJson]
  have hclaim : (canon (supersessionPayload row.claimId row.replacementClaimId reason)).get?
      "claim_id" = some (.str row.claimId) := by
    rw [supersessionPayload, canon_get? (by simp)]; simp [List.lookup]
  have hreplacement : (canon (supersessionPayload row.claimId row.replacementClaimId reason)).get?
      "replacement_claim_id" = some (.str row.replacementClaimId) := by
    rw [supersessionPayload, canon_get? (by simp)]; simp [List.lookup]
  simp [checkSupersession, hsha, hloads, hclaim, hreplacement]

theorem checkAuthentication_sound {crypto : Crypto} {row : AuthenticationRow}
    (h : AuthenticationSound crypto row) : checkAuthentication crypto row = [] := by
  obtain ⟨hsha, hid⟩ := h
  simp [checkAuthentication, hsha.symm, hid]

/-! ## Events -/

theorem boundRecord_stored {t : Tables} {claimId : String} {row : EvidenceRow}
    (hrow : t.record? row.evidenceId = some row) (hclaim : row.claimId = claimId) :
    boundRecord t claimId (.str row.evidenceId) = some (row.evidenceId, row.payloadSha256) := by
  simp [boundRecord, hrow, hclaim]

theorem filterMap_boundRecord {t : Tables} (claimId : String) {eligible : List EvidenceRow}
    (h : ∀ row ∈ eligible, t.record? row.evidenceId = some row ∧ row.claimId = claimId) :
    ((eligible.map (·.evidenceId)).map Json.str).filterMap (boundRecord t claimId) =
      eligible.map fun row => (row.evidenceId, row.payloadSha256) := by
  induction eligible with
  | nil => rfl
  | cons row rows ih =>
    obtain ⟨hrow, hclaim⟩ := h row (List.mem_cons_self ..)
    have hrows := ih fun r hr => h r (List.mem_cons_of_mem _ hr)
    simp only [List.map_cons, List.filterMap_cons, boundRecord_stored hrow hclaim, hrows]

theorem checkInventory_sound {crypto : Crypto} {t : Tables} {row : EventRow}
    {assessment : ClaimAssessment} {raw : Json} (hclaim : row.claimId = assessment.claimId)
    (hids : raw.get? "evidence_ids" = some (.arr (assessment.evidenceIds.map .str)))
    (heligible : raw.get? "eligible_evidence_ids" =
      some (.arr (assessment.eligibleEvidenceIds.map .str)))
    (hroot : raw.get? "evidence_merkle_root" = some (.str assessment.evidenceMerkleRoot))
    (h : InventorySound crypto t assessment) : checkInventory crypto t row raw = [] := by
  obtain ⟨eligible, hmap, hrows, hmerkle⟩ := h.bound
  have hsubset : (assessment.eligibleEvidenceIds.map Json.str).all
      ((assessment.evidenceIds.map Json.str).contains ·) = true := by
    simpa using h.subset
  have hbound : ∀ v ∈ assessment.eligibleEvidenceIds.map Json.str,
      (boundRecord t row.claimId v).isSome = true := by
    intro v hv
    rw [← hmap, List.map_map, List.mem_map] at hv
    obtain ⟨r, hr, rfl⟩ := hv
    obtain ⟨hrow, hid⟩ := hrows r hr
    rw [Function.comp_apply, boundRecord_stored hrow (hid.trans hclaim.symm)]
    rfl
  have hrecords := filterMap_boundRecord row.claimId fun r hr =>
    ⟨(hrows r hr).1, (hrows r hr).2.trans hclaim.symm⟩
  rw [hmap] at hrecords
  simp only [checkInventory, hids, heligible, hroot, Option.getD_some, hrecords, ← hmerkle,
    List.append_eq_nil_iff, errorUnless_eq_nil, List.flatMap_eq_nil_iff]
  exact ⟨⟨hsubset, hbound⟩, by simp⟩

/-- The members of an event body the verifier reads. -/
theorem eventBody_get? (assessment : ClaimAssessment) (claimSha256 : String) (sequence : Nat)
    (previous : Option String) (kind id : String) :
    let raw := canon (eventBody assessment claimSha256 sequence previous kind id)
    raw.get? "claim_id" = some (.str assessment.claimId) ∧
    raw.get? "claim_payload_sha256" = some (.str claimSha256) ∧
    raw.get? "sequence" = some (.int sequence) ∧
    raw.get? "previous_event_sha256" = some (optionalText previous) ∧
    raw.get? "action_kind" = some (.str kind) ∧ raw.get? "action_id" = some (.str id) ∧
    raw.get? "evidence_ids" = some (.arr (assessment.evidenceIds.map .str)) ∧
    raw.get? "eligible_evidence_ids" = some (.arr (assessment.eligibleEvidenceIds.map .str)) ∧
    raw.get? "evidence_merkle_root" = some (.str assessment.evidenceMerkleRoot) := by
  have hget : ∀ key, (canon (eventBody assessment claimSha256 sequence previous kind id)).get? key
      = _ := fun key => canon_get? (by simp) key
  simp only [hget]
  simp [List.lookup]

theorem checkEvent_sound {crypto : Crypto} {t : Tables} {row : EventRow} {tip : Tip String}
    (h : EventSound crypto t row) (hc : Continues eventLink tip row) :
    checkEvent crypto t tip row = ([], true) := by
  obtain ⟨assessment, claimSha256, kind, id, hsays, hclaim, hinventory⟩ := h
  obtain ⟨hsequence, hprevious⟩ := hc
  obtain ⟨hid, hpayload, hdigest, hevent⟩ := hsays
  have hloads := loads_canonicalJson (eventBody assessment claimSha256 row.sequence
    row.previousEventSha256 kind id)
  rw [← hpayload] at hloads
  obtain ⟨hclaimId, hclaimSha, hseq, hprev, -, -, hids, heligible, hroot⟩ :=
    eventBody_get? assessment claimSha256 row.sequence row.previousEventSha256 kind id
  have hinv := checkInventory_sound hid hids heligible hroot hinventory
  have hsequence : row.sequence = nextSequence tip := hsequence
  rw [hid] at hclaim
  have hprevious : row.previousEventSha256 = tipDigest tip := hprevious
  simp only [checkEvent, hloads, hinv, ← hdigest, hclaim, hclaimId, hclaimSha, hseq, hprev,
    ← hsequence, ← hprevious, ← hevent, hid, Option.getD_some, optionalText]
  simp [errorUnless]

theorem eventLE_trans (a b c : EventRow) (hab : eventLE a b = true) (hbc : eventLE b c = true) :
    eventLE a c = true := by
  simp only [eventLE, decide_eq_true_eq] at *
  rcases hab with hab | ⟨hab, hab'⟩ <;> rcases hbc with hbc | ⟨hbc, hbc'⟩
  · exact Or.inl (lt_trans hab hbc)
  · exact Or.inl (hbc ▸ hab)
  · exact Or.inl (hab ▸ hbc)
  · exact Or.inr ⟨hab.trans hbc, Nat.le_trans hab' hbc'⟩

theorem eventLE_total (a b : EventRow) : (eventLE a b || eventLE b a) = true := by
  simp only [eventLE, Bool.or_eq_true, decide_eq_true_eq]
  rcases lt_trichotomy a.claimId b.claimId with h | h | h
  · exact Or.inl (Or.inl h)
  · rcases Nat.le_total a.sequence b.sequence with hle | hle
    · exact Or.inl (Or.inr ⟨h, hle⟩)
    · exact Or.inr (Or.inr ⟨h.symm, hle⟩)
  · exact Or.inr (Or.inl h)

/-- **A sound ledger verifies.** -/
theorem Sound.verifies {crypto : Crypto} {disk : Disk} {t : Tables} (h : Sound crypto disk t) :
    (verifyIntegrity crypto disk t).ok = true := by
  have hchains : ∀ k, Linked eventLink none (chainOf eventLink k (t.stateEvents.mergeSort eventLE)) := by
    intro k
    rw [chainOf_sorted eventLE_trans eventLE_total ?_ h.chained k]
    · exact h.chained k
    · intro a b hkey hlt
      exact decide_eq_true (Or.inr ⟨hkey, Nat.le_of_lt hlt⟩)
  have hscan : scan eventLink (checkEvent crypto t) (fun _ => none) (t.stateEvents.mergeSort eventLE) = [] :=
    scan_eq_nil hchains fun r hr tip hc => checkEvent_sound (h.events r (List.mem_mergeSort.mp hr)) hc
  have herrors : integrityErrors crypto disk t = [] := by
    simp only [integrityErrors, orderBy, hscan, List.append_nil, List.append_eq_nil_iff,
      List.flatMap_eq_nil_iff, List.mem_mergeSort]
    refine ⟨⟨⟨?_, ?_⟩, ?_⟩, ?_⟩
    · exact fun row hr => checkClaim_sound (h.claims row hr)
    · exact fun row hr => checkRecord_sound (h.records row hr)
    · exact fun row hr => checkSupersession_sound (h.supersessions row hr)
    · exact fun row hr => checkAuthentication_sound (h.authentications row hr)
  simp [verifyIntegrity, herrors]

end RlmGraph.Claims.Verify
