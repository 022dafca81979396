import RlmGraph.Claims.Integrity

/-! # The records behind a ledger

A registry holds the records themselves: claims, evidence, supersessions and
authentication envelopes. Tables represent a registry when they hold the
canonical texts of its records. On tables that represent a registry an
assessment can be computed from the records (`assessMaturity_of_represents`),
and every call adds at most one record (`call_represents`). -/
namespace RlmGraph.Claims.Records
open RlmGraph.Lib.Rows RlmGraph.Lib.JsonText RlmGraph.Lib.Results
open RlmGraph.Claims.Ledger RlmGraph.Claims.Verify RlmGraph.Claims.Integrity

structure Supersession where
  claimId : String
  replacementClaimId : String
  reason : String

/-- What `authenticate` has signed, with the key. -/
structure Envelope where
  keyId : String
  secret : Bytes
  maturity : Maturity

/-- The records in the order of insertion. -/
structure Registry where
  claims : List ClaimStatement := []
  evidence : List ClaimEvidence := []
  supersessions : List Supersession := []
  envelopes : List Envelope := []

variable {crypto : Crypto} {disk : Disk} {keys : AuthenticationKeys} {r : Registry} {t : Tables}
  {claim : ClaimStatement} {claimId : String}

/-! ## Assessing records -/

/-- The artifact of the evidence is there and has the recorded digest. -/
def stands (crypto : Crypto) (disk : Disk) (evidence : ClaimEvidence) : Bool :=
  disk.isFile evidence.artifactPath &&
    (disk.read evidence.artifactPath).elim false (crypto.sha256Bytes · == evidence.artifactSha256)

/-- The evidence was made for the sources, the policy and the tests of the claim. -/
def bound (claim : ClaimStatement) (evidence : ClaimEvidence) : Bool :=
  evidence.sourceManifestSha256 == claim.sourceManifestSha256 &&
    evidence.policySha256 == claim.policySha256 &&
    (!([.testRun, .replicationRun, .counterevidence].contains evidence.kind) ||
      evidence.testSpecSha256 == some claim.requiredTestSpecSha256)

def counts (crypto : Crypto) (disk : Disk) (claim : ClaimStatement) (evidence : ClaimEvidence) :
    Bool :=
  stands crypto disk evidence && bound claim evidence

def passing (evidence : List ClaimEvidence) : List ClaimEvidence :=
  evidence.filter fun e => [.testRun, .replicationRun].contains e.kind && e.outcome == .passed

def independenceKeys (evidence : List ClaimEvidence) : List String :=
  ((passing evidence).filterMap fun e =>
    match e.independenceKey with
    | some s => if s = "" then none else some s
    | none => none).dedup

def levelOf (evidence : List ClaimEvidence) : EvidenceLevel :=
  if 2 ≤ (independenceKeys evidence).length then .replicated
  else if (passing evidence).isEmpty = false then .tested
  else if evidence.any (·.kind == .sourceObservation) then .observed
  else .proposed

/-- A failure that counts against the claim. -/
def counters (evidence : ClaimEvidence) : Bool :=
  evidence.kind == .counterevidence && evidence.outcome == .failed

def dispositionOf (superseded : Bool) (evidence : List ClaimEvidence) : ClaimDisposition :=
  if superseded then .superseded
  else if evidence.any counters then .rejected
  else .active

def claimSha256 (crypto : Crypto) (claim : ClaimStatement) : String :=
  crypto.sha256Text (canonicalJson (claimPayload claim))

def evidenceSha256 (crypto : Crypto) (evidence : ClaimEvidence) : String :=
  crypto.sha256Text (canonicalJson (evidencePayload evidence))

def Registry.claim? (r : Registry) (claimId : String) : Option ClaimStatement :=
  r.claims.find? (·.claimId == claimId)

def Registry.evidence? (r : Registry) (evidenceId : String) : Option ClaimEvidence :=
  r.evidence.find? (·.evidenceId == evidenceId)

/-- The claim that supersedes another. -/
def Registry.replacement? (r : Registry) (claimId : String) : Option String :=
  (r.supersessions.find? (·.claimId == claimId)).map (·.replacementClaimId)

/-- The evidence of a claim, by identifier. -/
def Registry.evidenceOf (r : Registry) (claimId : String) : List ClaimEvidence :=
  orderBy (·.evidenceId) (r.evidence.filter (·.claimId == claimId))

def Registry.counted (r : Registry) (crypto : Crypto) (disk : Disk) (claim : ClaimStatement) :
    List ClaimEvidence :=
  (r.evidenceOf claim.claimId).filter (counts crypto disk claim)

def Registry.maturity (r : Registry) (crypto : Crypto) (disk : Disk) (claim : ClaimStatement) :
    Maturity where
  claim := claim
  claimSha256 := claimSha256 crypto claim
  level := levelOf (r.counted crypto disk claim)
  disposition := dispositionOf (r.replacement? claim.claimId).isSome (r.counted crypto disk claim)
  evidenceIds := (r.evidenceOf claim.claimId).map (·.evidenceId)
  eligibleIds := (r.counted crypto disk claim).map (·.evidenceId)
  evidenceRoot := merkleRoot crypto
    ((r.counted crypto disk claim).map fun e => (e.evidenceId, evidenceSha256 crypto e))
  supersededBy := r.replacement? claim.claimId

/-! ## Tables of records -/

def claimRow (crypto : Crypto) (claim : ClaimStatement) : ClaimRow :=
  ⟨claim.claimId, claimSha256 crypto claim, canonicalJson (claimPayload claim)⟩

def evidenceRow (crypto : Crypto) (evidence : ClaimEvidence) : EvidenceRow :=
  ⟨evidence.evidenceId, evidence.claimId, evidenceSha256 crypto evidence,
    canonicalJson (evidencePayload evidence)⟩

def supersessionRow (crypto : Crypto) (s : Supersession) : SupersessionRow :=
  let text := canonicalJson (supersessionPayload s.claimId s.replacementClaimId s.reason)
  ⟨s.claimId, s.replacementClaimId, crypto.sha256Text text, text⟩

/-- The members of an envelope, with its signature. -/
def Envelope.raw (crypto : Crypto) (e : Envelope) : Json :=
  let body := signedBody e.maturity.claim.claimId e.keyId e.maturity
  let signature := hexdigest (crypto.hmacSha256 e.secret (utf8 (canonicalJson (.obj body))))
  .obj (body ++ [("signature", .str signature)])

def envelopeRow (crypto : Crypto) (e : Envelope) : AuthenticationRow :=
  let text := canonicalJson (e.raw crypto)
  ⟨"CLAIM-AUTH-" ++ first32 (crypto.sha256Text text), e.maturity.claim.claimId,
    crypto.sha256Text text, text⟩

/-- The tables hold the texts of the records. -/
structure Represents (crypto : Crypto) (r : Registry) (t : Tables) : Prop where
  claims : t.claims = r.claims.map (claimRow crypto)
  records : t.records = r.evidence.map (evidenceRow crypto)
  supersessions : t.supersessions = r.supersessions.map (supersessionRow crypto)
  authentications : t.authentications = r.envelopes.map (envelopeRow crypto)

theorem Represents.claim? (h : Represents crypto r t) :
    t.claim? claimId = (r.claim? claimId).map (claimRow crypto) := by
  rw [Tables.claim?, h.claims]
  exact find?_map_key (fun _ => rfl) r.claims

theorem Represents.record? (h : Represents crypto r t) {evidenceId : String} :
    t.record? evidenceId = (r.evidence? evidenceId).map (evidenceRow crypto) := by
  rw [Tables.record?, h.records]
  exact find?_map_key (fun _ => rfl) r.evidence

theorem Represents.supersession? (h : Represents crypto r t) :
    t.supersession? claimId =
      (r.supersessions.find? (·.claimId == claimId)).map (supersessionRow crypto) := by
  rw [Tables.supersession?, h.supersessions]
  exact find?_map_key (fun _ => rfl) r.supersessions

theorem Represents.replacement (h : Represents crypto r t) :
    (t.supersession? claimId).map (·.replacementClaimId) = r.replacement? claimId := by
  rw [h.supersession?, Option.map_map]
  rfl

theorem Represents.superseded (h : Represents crypto r t) :
    (t.supersession? claimId).isSome = (r.replacement? claimId).isSome := by
  rw [← h.replacement, Option.isSome_map]

theorem Represents.recordsOf (h : Represents crypto r t) :
    t.recordsOf claimId = (r.evidenceOf claimId).map (evidenceRow crypto) := by
  rw [Tables.recordsOf, h.records, List.filter_map, Registry.evidenceOf, orderBy, orderBy]
  exact (List.map_mergeSort (f := evidenceRow crypto) fun _ _ _ _ => rfl).symm

/-! ## Reading the texts back -/

theorem canon_claimPayload_get? (key : String) :
    (canon (claimPayload claim)).get? key =
      (List.lookup key [("claim_id", Json.str claim.claimId), ("subject", .str claim.subject),
        ("assertion", .str claim.assertion),
        ("source_manifest_sha256", .str claim.sourceManifestSha256),
        ("policy_sha256", .str claim.policySha256),
        ("required_test_spec_sha256", .str claim.requiredTestSpecSha256),
        ("schema_version", .str claimSchema)]).map canon := by
  rw [claimPayload, canon_get? (by simp)]

/-- A claim is read back as it was written. -/
theorem claimOfJson_payload (hschema : claim.schemaVersion = claimSchema) :
    claimOfJson (canon (claimPayload claim)) = .ok claim := by
  obtain ⟨id, subject, assertion, manifest, policy, spec, schema⟩ := claim
  obtain rfl : schema = claimSchema := hschema
  simp [claimOfJson, textAt, canon_claimPayload_get?, List.lookup, bind, Except.bind, pure,
    Except.pure]

theorem loadPayload_canonicalJson (v : Json) : loadPayload (canonicalJson v) = .ok (canon v) := by
  rw [loadPayload, loads_canonicalJson]
  rfl

theorem loadClaim_of_represents (h : Represents crypto r t) (hclaim : r.claim? claimId = some claim)
    (hschema : claim.schemaVersion = claimSchema) :
    loadClaim t claimId = .ok (claim, claimSha256 crypto claim) := by
  unfold loadClaim
  rw [h.claim?, hclaim, Option.map_some]
  simp only [claimRow, loadPayload_canonicalJson, claimOfJson_payload hschema, bind, Except.bind]
  rfl

/-- The members of stored evidence that an assessment reads. -/
structure ReadsAs (raw : Json) (e : ClaimEvidence) : Prop where
  kind : raw.get? "kind" = some (.str e.kind.value)
  artifactPath : raw.get? "artifact_path" = some (.str e.artifactPath)
  artifactSha256 : raw.get? "artifact_sha256" = some (.str e.artifactSha256)
  sourceManifestSha256 : raw.get? "source_manifest_sha256" = some (.str e.sourceManifestSha256)
  policySha256 : raw.get? "policy_sha256" = some (.str e.policySha256)
  outcome : raw.get? "outcome" = some (.str e.outcome.value)
  testSpecSha256 : raw.get? "test_spec_sha256" = some (optionalText e.testSpecSha256)
  independenceKey : raw.get? "independence_key" = some (optionalText e.independenceKey)

theorem readsAs_payload (e : ClaimEvidence) : ReadsAs (canon (evidencePayload e)) e := by
  constructor <;> rw [evidencePayload, canon_get? (by simp)] <;> simp [List.lookup]

theorem EvidenceKind.value_inj {a b : EvidenceKind} : a.value = b.value ↔ a = b := by
  cases a <;> cases b <;> decide

theorem EvidenceOutcome.value_inj {a b : EvidenceOutcome} : a.value = b.value ↔ a = b := by
  cases a <;> cases b <;> decide

theorem optionalText_eq_str {text : Option String} {s : String} :
    optionalText text = .str s ↔ text = some s := by
  cases text <;> simp [optionalText]

section
variable {raw : Json} {e : ClaimEvidence} (h : ReadsAs raw e)
include h

theorem ReadsAs.kindIn (kinds : List EvidenceKind) : kindIn raw kinds = kinds.contains e.kind := by
  rw [Ledger.kindIn, h.kind]
  induction kinds with
  | nil => rfl
  | cons kind kinds ih =>
    rw [List.any_cons, ih, List.contains_cons, Bool.eq_iff_iff]
    simp [EvidenceKind.value_inj]

theorem ReadsAs.outcome_beq (outcome : EvidenceOutcome) :
    (raw.get? "outcome" == some (.str outcome.value)) = (e.outcome == outcome) := by
  rw [h.outcome, Bool.eq_iff_iff]
  simp [EvidenceOutcome.value_inj]

theorem ReadsAs.artifactMatches : artifactMatches crypto disk raw = stands crypto disk e := by
  simp only [Ledger.artifactMatches, h.artifactPath, h.artifactSha256, stands]

theorem ReadsAs.bindingMatches : bindingMatches claim raw = bound claim e := by
  simp only [Ledger.bindingMatches, h.kindIn, h.sourceManifestSha256, h.policySha256,
    h.testSpecSha256, bound]
  rw [Bool.eq_iff_iff]
  simp [optionalText_eq_str]

end

/-! ## Assessments of stored records -/

/-- A record with its text read back. -/
def loaded (crypto : Crypto) (e : ClaimEvidence) : LoadedRecord :=
  (evidenceRow crypto e, canon (evidencePayload e))

theorem loadRecords_rows_of (es : List ClaimEvidence) :
    loadRecords (es.map (evidenceRow crypto)) = .ok (es.map (loaded crypto)) := by
  unfold loadRecords
  induction es with
  | nil => rfl
  | cons e es ih =>
    rw [List.map_cons, List.mapM_cons, ih]
    simp only [evidenceRow, loadPayload_canonicalJson, bind, Except.bind, pure, Except.pure]
    rfl

theorem readsAs_loaded (e : ClaimEvidence) : ReadsAs (loaded crypto e).2 e := readsAs_payload e

theorem eligibleRecords_loaded (es : List ClaimEvidence) :
    eligibleRecords crypto disk claim (es.map (loaded crypto)) =
      (es.filter (counts crypto disk claim)).map (loaded crypto) := by
  rw [eligibleRecords, List.filter_map]
  refine congrArg _ (List.filter_congr fun e _ => ?_)
  rw [Function.comp_apply, (readsAs_loaded e).artifactMatches, (readsAs_loaded e).bindingMatches,
    counts]

theorem passingTests_loaded (es : List ClaimEvidence) :
    passingTests (es.map (loaded crypto)) = (passing es).map (loaded crypto) := by
  rw [passingTests, List.filter_map, passing]
  refine congrArg _ (List.filter_congr fun e _ => ?_)
  rw [Function.comp_apply, (readsAs_loaded e).kindIn, (readsAs_loaded e).outcome_beq]

theorem independentKeys_loaded (es : List ClaimEvidence) :
    independentKeys (es.map (loaded crypto)) = independenceKeys es := by
  rw [independentKeys, passingTests_loaded, List.filterMap_map, independenceKeys]
  refine congrArg _ (List.filterMap_congr fun e _ => ?_)
  rw [Function.comp_apply, (readsAs_loaded e).independenceKey]
  cases e.independenceKey <;> rfl

theorem evidenceLevel_loaded (es : List ClaimEvidence) :
    evidenceLevel (es.map (loaded crypto)) = levelOf es := by
  have hany : (es.map (loaded crypto)).any (kindIn ·.2 [.sourceObservation]) =
      es.any (·.kind == .sourceObservation) := by
    rw [List.any_map]
    refine congrArg _ (funext fun e => ?_)
    rw [Function.comp_apply, (readsAs_loaded e).kindIn, Bool.eq_iff_iff]
    simp
  rw [evidenceLevel, independentKeys_loaded, passingTests_loaded, List.isEmpty_map, hany, levelOf]

theorem isRejected_loaded (es : List ClaimEvidence) :
    isRejected (es.map (loaded crypto)) = es.any counters := by
  rw [isRejected, List.any_map]
  refine congrArg _ (funext fun e => ?_)
  rw [Function.comp_apply, (readsAs_loaded e).kindIn, (readsAs_loaded e).outcome_beq, counters,
    Bool.eq_iff_iff]
  simp

theorem counted_sublist : (r.counted crypto disk claim).Sublist (r.evidenceOf claim.claimId) :=
  List.filter_sublist

theorem sortedTexts_counted :
    sortedTexts ((r.counted crypto disk claim).map (·.evidenceId)) =
      (r.counted crypto disk claim).map (·.evidenceId) := by
  refine List.mergeSort_of_pairwise ?_
  rw [List.pairwise_map]
  exact ((orderBy_pairwise _ _).sublist counted_sublist).imp fun hab => decide_eq_true hab

/-- **The assessment of stored records.** -/
theorem assessMaturity_of_represents (h : Represents crypto r t)
    (hclaim : r.claim? claimId = some claim) (hschema : claim.schemaVersion = claimSchema) :
    assessMaturity crypto disk t claimId = .ok (r.maturity crypto disk claim) := by
  obtain rfl : claim.claimId = claimId := by simpa using List.find?_some hclaim
  have hids : ∀ es : List ClaimEvidence, (es.map (loaded crypto)).map (·.1.evidenceId) =
      es.map (·.evidenceId) := fun es => by rw [List.map_map]; rfl
  have hleaves : ((r.counted crypto disk claim).map (loaded crypto)).map
      (fun row => (row.1.evidenceId, row.1.payloadSha256)) =
        (r.counted crypto disk claim).map fun e => (e.evidenceId, evidenceSha256 crypto e) := by
    rw [List.map_map]
    rfl
  simp only [assessMaturity, loadClaim_of_represents h hclaim hschema, h.recordsOf,
    loadRecords_rows_of, bind, Except.bind, eligibleRecords_loaded, h.replacement, hids,
    evidenceLevel_loaded, claimDisposition, h.superseded, isRejected_loaded]
  show Except.ok _ = Except.ok _
  refine congrArg _ ?_
  rw [Registry.maturity, ← sortedTexts_counted (r := r), ← hleaves]
  rfl

/-! ## Envelopes -/

/-- An envelope was made for what an assessment has found. -/
structure Covers (m signed : Maturity) : Prop where
  claimSha256 : signed.claimSha256 = m.claimSha256
  sourceManifestSha256 : signed.claim.sourceManifestSha256 = m.claim.sourceManifestSha256
  policySha256 : signed.claim.policySha256 = m.claim.policySha256
  requiredTestSpecSha256 : signed.claim.requiredTestSpecSha256 = m.claim.requiredTestSpecSha256
  level : signed.level = m.level
  disposition : signed.disposition = m.disposition
  eligibleIds : signed.eligibleIds = m.eligibleIds
  evidenceRoot : signed.evidenceRoot = m.evidenceRoot

/-- The envelope as it is read back. -/
def Envelope.stored (crypto : Crypto) (e : Envelope) : Json := canon (e.raw crypto)

/-- The signature of an envelope is valid under the configured keys. -/
def Envelope.valid (crypto : Crypto) (keys : AuthenticationKeys) (e : Envelope) : Bool :=
  envelopeSigned crypto keys (e.stored crypto)

/-- The members of a stored envelope that an assessment compares. -/
structure EnvelopeReadsAs (raw : Json) (m : Maturity) : Prop where
  claimSha256 : raw.get? "claim_payload_sha256" = some (.str m.claimSha256)
  sourceManifestSha256 :
    raw.get? "source_manifest_sha256" = some (.str m.claim.sourceManifestSha256)
  policySha256 : raw.get? "policy_sha256" = some (.str m.claim.policySha256)
  testSpecSha256 : raw.get? "test_spec_sha256" = some (.str m.claim.requiredTestSpecSha256)
  level : raw.get? "evidence_level" = some (.str m.level.value)
  disposition : raw.get? "disposition" = some (.str m.disposition.value)
  eligibleIds : raw.get? "evidence_ids" = some (.arr (m.eligibleIds.map .str))
  evidenceRoot : raw.get? "evidence_merkle_root" = some (.str m.evidenceRoot)

theorem envelopeReadsAs_stored (e : Envelope) :
    EnvelopeReadsAs (e.stored crypto) e.maturity := by
  constructor <;> rw [Envelope.stored, Envelope.raw, canon_get? (by simp [signedBody])] <;>
    simp [signedBody, List.lookup, Function.comp_def]

theorem EvidenceLevel.value_inj {a b : EvidenceLevel} : a.value = b.value ↔ a = b := by
  cases a <;> cases b <;> decide

theorem ClaimDisposition.value_inj {a b : ClaimDisposition} : a.value = b.value ↔ a = b := by
  cases a <;> cases b <;> decide

theorem map_str_inj {as bs : List String} : as.map Json.str = bs.map Json.str ↔ as = bs :=
  List.map_inj_right fun _ _ h => Json.str.inj h

theorem envelopeMatches_iff {raw : Json} {m signed : Maturity} (h : EnvelopeReadsAs raw signed) :
    envelopeMatches m raw = true ↔ Covers m signed := by
  have hiff : envelopeMatches m raw = true ↔
      signed.claimSha256 = m.claimSha256 ∧
      signed.claim.sourceManifestSha256 = m.claim.sourceManifestSha256 ∧
      signed.claim.policySha256 = m.claim.policySha256 ∧
      signed.claim.requiredTestSpecSha256 = m.claim.requiredTestSpecSha256 ∧
      signed.level = m.level ∧ signed.disposition = m.disposition ∧
      signed.eligibleIds = m.eligibleIds ∧ signed.evidenceRoot = m.evidenceRoot := by
    simp only [envelopeMatches, h.claimSha256, h.sourceManifestSha256, h.policySha256,
      h.testSpecSha256, h.level, h.disposition, h.eligibleIds, h.evidenceRoot, Option.getD_some,
      Bool.and_eq_true, beq_iff_eq, Option.some.injEq, Json.str.injEq, Json.arr.injEq, map_str_inj,
      EvidenceLevel.value_inj, ClaimDisposition.value_inj, and_assoc]
  rw [hiff]
  constructor
  · rintro ⟨h₁, h₂, h₃, h₄, h₅, h₆, h₇, h₈⟩
    exact ⟨h₁, h₂, h₃, h₄, h₅, h₆, h₇, h₈⟩
  · exact fun h => ⟨h.1, h.2, h.3, h.4, h.5, h.6, h.7, h.8⟩

/-- The envelopes of a claim, in the order of their identifiers. -/
def Registry.envelopesOf (r : Registry) (crypto : Crypto) (claimId : String) : List Envelope :=
  orderBy (fun e => (envelopeRow crypto e).envelopeId)
    (r.envelopes.filter (·.maturity.claim.claimId == claimId))

theorem mem_envelopesOf {e : Envelope} :
    e ∈ r.envelopesOf crypto claimId ↔ e ∈ r.envelopes ∧ e.maturity.claim.claimId = claimId := by
  rw [Registry.envelopesOf, orderBy, List.mem_mergeSort, List.mem_filter, beq_iff_eq]

theorem Represents.authenticationsOf (h : Represents crypto r t) :
    orderBy (·.envelopeId) (t.authentications.filter (·.claimId == claimId)) =
      (r.envelopesOf crypto claimId).map (envelopeRow crypto) := by
  rw [h.authentications, List.filter_map, Registry.envelopesOf, orderBy, orderBy]
  exact (List.map_mergeSort (f := envelopeRow crypto) fun _ _ _ _ => rfl).symm

theorem mapM_loadPayload (es : List Envelope) :
    ((es.map (envelopeRow crypto)).mapM fun row => loadPayload row.payload) =
      .ok (es.map (Envelope.stored crypto)) := by
  induction es with
  | nil => rfl
  | cons e es ih =>
    rw [List.map_cons, List.mapM_cons, ih]
    simp only [envelopeRow, loadPayload_canonicalJson, bind, Except.bind, pure, Except.pure]
    rfl

/-- **The authentication of a claim** with stored envelopes. -/
theorem authenticationState_of_represents (h : Represents crypto r t) (keys : AuthenticationKeys)
    (m : Maturity) :
    ∃ state, authenticationState crypto keys t m = .ok state ∧
      (state = .authenticated ↔ ∃ e ∈ r.envelopes, e.maturity.claim.claimId = m.claim.claimId ∧
        Covers m e.maturity ∧ e.valid crypto keys = true) := by
  have hcovers : ∀ e : Envelope, envelopeMatches m (e.stored crypto) = true ↔ Covers m e.maturity :=
    fun e => envelopeMatches_iff (envelopeReadsAs_stored e)
  have hstate : ∃ matching, matching = ((r.envelopesOf crypto m.claim.claimId).map
      (Envelope.stored crypto)).filter (envelopeMatches m) ∧
      authenticationState crypto keys t m = .ok (if matching.isEmpty then .unauthenticated
        else if matching.any (envelopeSigned crypto keys) then .authenticated else .invalid) := by
    refine ⟨_, rfl, ?_⟩
    simp only [authenticationState, h.authenticationsOf, mapM_loadPayload, bind, Except.bind]
    rfl
  obtain ⟨matching, rfl, hstate⟩ := hstate
  refine ⟨_, hstate, ?_⟩
  constructor
  · intro hstate
    split at hstate
    · cases hstate
    · split at hstate
      · rename_i hsigned
        obtain ⟨raw, hraw, hvalid⟩ := List.any_eq_true.mp hsigned
        obtain ⟨hraw, hmatches⟩ := List.mem_filter.mp hraw
        obtain ⟨e, he, rfl⟩ := List.mem_map.mp hraw
        obtain ⟨he, hid⟩ := mem_envelopesOf.mp he
        exact ⟨e, he, hid, (hcovers e).mp hmatches, hvalid⟩
      · cases hstate
  · rintro ⟨e, he, hid, hmatches, hvalid⟩
    have hmem : e.stored crypto ∈ ((r.envelopesOf crypto m.claim.claimId).map
        (Envelope.stored crypto)).filter (envelopeMatches m) :=
      List.mem_filter.mpr ⟨List.mem_map_of_mem (mem_envelopesOf.mpr ⟨he, hid⟩),
        (hcovers e).mpr hmatches⟩
    rw [if_neg, if_pos]
    · exact List.any_eq_true.mpr ⟨_, hmem, hvalid⟩
    · rw [List.isEmpty_iff]
      exact List.ne_nil_of_mem hmem

/-- The assessment with an authentication. -/
def assessmentOf (m : Maturity) (authentication : AuthenticationState) : ClaimAssessment where
  claimId := m.claim.claimId
  evidenceLevel := m.level
  disposition := m.disposition
  authentication := authentication
  displayState := displayState m.level m.disposition authentication
  evidenceIds := m.evidenceIds
  eligibleEvidenceIds := m.eligibleIds
  evidenceMerkleRoot := m.evidenceRoot
  supersededByClaimId := m.supersededBy

/-- **The assessment of a claim** with stored records. -/
theorem assess_of_represents (h : Represents crypto r t) (hclaim : r.claim? claimId = some claim)
    (hschema : claim.schemaVersion = claimSchema) (keys : AuthenticationKeys) (disk : Disk) :
    ∃ a, assess crypto keys disk t claimId = .ok a ∧
      a.evidenceLevel = (r.maturity crypto disk claim).level ∧
      a.disposition = (r.maturity crypto disk claim).disposition ∧
      a.eligibleEvidenceIds = (r.maturity crypto disk claim).eligibleIds ∧
      a.evidenceMerkleRoot = (r.maturity crypto disk claim).evidenceRoot ∧
      a.supersededByClaimId = r.replacement? claimId ∧
      (a.authentication = .authenticated ↔ ∃ e ∈ r.envelopes, e.maturity.claim.claimId = claimId ∧
        Covers (r.maturity crypto disk claim) e.maturity ∧ e.valid crypto keys = true) := by
  obtain rfl : claim.claimId = claimId := by simpa using List.find?_some hclaim
  obtain ⟨state, hstate, hiff⟩ := authenticationState_of_represents h keys
    (r.maturity crypto disk claim)
  have hassess : assess crypto keys disk t claim.claimId =
      .ok (assessmentOf (r.maturity crypto disk claim) state) := by
    simp only [assess, assessMaturity_of_represents h hclaim hschema, hstate, bind, Except.bind]
    rfl
  exact ⟨_, hassess, rfl, rfl, rfl, rfl, rfl, hiff⟩

/-! ## Calls -/

/-- The claims are of the schema, and no evidence has the identifier of other evidence. -/
structure Registry.Valid (r : Registry) : Prop where
  schema : ∀ claim ∈ r.claims, claim.schemaVersion = claimSchema
  ids : (r.evidence.map (·.evidenceId)).Nodup

theorem Registry.Valid.schemaOf (h : r.Valid) (hclaim : r.claim? claimId = some claim) :
    claim.schemaVersion = claimSchema :=
  h.schema claim (List.mem_of_find?_eq_some hclaim)

/-- The record that a call adds, with what the call has checked. -/
inductive Added (crypto : Crypto) (keys : AuthenticationKeys) (disk : Disk) (r : Registry) :
    LedgerCall → Registry → Prop
  | statement (claim : ClaimStatement) (hschema : claim.schemaVersion = claimSchema)
      (hnew : r.claim? claim.claimId = none) :
      Added crypto keys disk r (.propose claim) { r with claims := r.claims ++ [claim] }
  | evidence (evidence : ClaimEvidence) (path : String)
      (hstands : stands crypto disk { evidence with artifactPath := path } = true)
      (hnew : r.evidence? evidence.evidenceId = none) :
      Added crypto keys disk r (.appendEvidence evidence)
        { r with evidence := r.evidence ++ [{ evidence with artifactPath := path }] }
  | envelope (claim : ClaimStatement) (keyId : String) (secret : Bytes)
      (hkey : keys keyId = some secret) (hclaim : r.claim? claim.claimId = some claim)
      (hactive : (r.maturity crypto disk claim).disposition = .active)
      (hlevel : (r.maturity crypto disk claim).level = .replicated) :
      Added crypto keys disk r (.authenticate claim.claimId keyId)
        { r with envelopes := r.envelopes ++ [⟨keyId, secret, r.maturity crypto disk claim⟩] }
  | supersession (claimId replacement reason : String) (hne : claimId ≠ replacement)
      (hnew : r.replacement? claimId = none) (hstored : (r.claim? replacement).isSome = true) :
      Added crypto keys disk r (.supersede claimId replacement reason)
        { r with supersessions := r.supersessions ++ [⟨claimId, replacement, reason⟩] }

/-- The events of a ledger are not records. -/
theorem Represents.events (h : Represents crypto r t) (events : List EventRow) :
    Represents crypto r { t with stateEvents := events } :=
  ⟨h.claims, h.records, h.supersessions, h.authentications⟩

/-! Tables and registry with one record more. -/

theorem Represents.addClaim (h : Represents crypto r t) (claim : ClaimStatement) :
    Represents crypto { r with claims := r.claims ++ [claim] }
      { t with claims := t.claims ++ [claimRow crypto claim] } :=
  ⟨by rw [h.claims, List.map_append]; rfl, h.records, h.supersessions, h.authentications⟩

theorem Represents.addEvidence (h : Represents crypto r t) (evidence : ClaimEvidence) :
    Represents crypto { r with evidence := r.evidence ++ [evidence] }
      { t with records := t.records ++ [evidenceRow crypto evidence] } :=
  ⟨h.claims, by rw [h.records, List.map_append]; rfl, h.supersessions, h.authentications⟩

theorem Represents.addSupersession (h : Represents crypto r t) (s : Supersession) :
    Represents crypto { r with supersessions := r.supersessions ++ [s] }
      { t with supersessions := t.supersessions ++ [supersessionRow crypto s] } :=
  ⟨h.claims, h.records, by rw [h.supersessions, List.map_append]; rfl, h.authentications⟩

theorem Represents.addEnvelope (h : Represents crypto r t) (e : Envelope) :
    Represents crypto { r with envelopes := r.envelopes ++ [e] }
      { t with authentications := t.authentications ++ [envelopeRow crypto e] } :=
  ⟨h.claims, h.records, h.supersessions, by rw [h.authentications, List.map_append]; rfl⟩

theorem Represents.claim?_isSome (h : Represents crypto r t) {row : ClaimStatement × String}
    (hload : loadClaim t claimId = .ok row) : ∃ claim, r.claim? claimId = some claim := by
  obtain ⟨c, sha256⟩ := row
  have hrow := loadClaim_ok hload
  rw [h.claim?] at hrow
  obtain ⟨row, hrow, -⟩ := Option.map_eq_some_iff.mp hrow
  obtain ⟨claim, hclaim, -⟩ := Option.map_eq_some_iff.mp hrow
  exact ⟨claim, hclaim⟩

/-- The effect of the common end of the calls. -/
theorem store_represents {stored : Option String} {serialized : String} {conflict : LedgerError}
    {insert : Except LedgerError Tables} {kind id : String} {reply : ClaimAssessment × Tables}
    {P : Registry → Prop}
    (hstore : store crypto keys disk t stored serialized conflict insert claimId kind id = .ok reply)
    (hinsert : ∀ u, insert = .ok u → ∃ r', P r' ∧ Represents crypto r' u) :
    reply.2 = t ∨ ∃ r', P r' ∧ Represents crypto r' reply.2 := by
  rcases store_ok hstore with ⟨-, rfl, -⟩ | ⟨-, u, hu, -, hevent⟩
  · exact Or.inl rfl
  · obtain ⟨row, ht⟩ := appendEvent_tables hevent
    obtain ⟨r', hr', hrep⟩ := hinsert u hu
    rw [ht]
    exact Or.inr ⟨r', hr', hrep.events _⟩

theorem validateEvidence_eq {evidence valid : ClaimEvidence}
    (h : validateEvidence crypto disk evidence = .ok valid) :
    ∃ path, valid = { evidence with artifactPath := path } ∧ stands crypto disk valid = true := by
  obtain ⟨hfile, bytes, hread, hsha⟩ := validateEvidence_ok h
  obtain ⟨_, -, h⟩ := bind_ok h
  obtain ⟨path, -, h⟩ := bind_ok h
  obtain ⟨_, -, h⟩ := bind_ok h
  cases h
  exact ⟨path, rfl, by simp [stands, hfile, hread, hsha]⟩

theorem propose_represents (h : Represents crypto r t) {reply : ClaimAssessment × Tables}
    (hcall : propose crypto keys disk claim t = .ok reply) :
    reply.2 = t ∨ ∃ r', Added crypto keys disk r (.propose claim) r' ∧ Represents crypto r' reply.2 := by
  obtain ⟨valid, hvalid, hstore⟩ := bind_ok hcall
  obtain ⟨rfl, hschema⟩ := validateClaim_ok hvalid
  refine store_represents hstore fun u hu => ⟨_, .statement valid hschema ?_, ?_⟩
  · obtain ⟨hnew, -⟩ := insertClaim_ok hu
    simpa [h.claim?] using hnew
  · obtain ⟨-, rfl⟩ := insertClaim_ok hu
    exact h.addClaim valid

theorem appendEvidence_represents (h : Represents crypto r t) {evidence : ClaimEvidence}
    {reply : ClaimAssessment × Tables}
    (hcall : appendEvidence crypto keys disk evidence t = .ok reply) :
    reply.2 = t ∨
      ∃ r', Added crypto keys disk r (.appendEvidence evidence) r' ∧ Represents crypto r' reply.2 := by
  obtain ⟨valid, hvalid, hcall⟩ := bind_ok hcall
  obtain ⟨_, -, hstore⟩ := bind_ok hcall
  obtain ⟨path, rfl, hstands⟩ := validateEvidence_eq hvalid
  refine store_represents hstore fun u hu => ⟨_, .evidence evidence path hstands ?_, ?_⟩
  · obtain ⟨hnew, -⟩ := insertRecord_ok hu
    simpa [h.record?] using hnew
  · obtain ⟨-, rfl⟩ := insertRecord_ok hu
    exact h.addEvidence _

theorem authenticate_represents (h : Represents crypto r t) (hvalid : r.Valid) {keyId : String}
    {reply : ClaimAssessment × Tables}
    (hcall : authenticate crypto keys disk claimId keyId t = .ok reply) :
    reply.2 = t ∨ ∃ r', Added crypto keys disk r (.authenticate claimId keyId) r' ∧
      Represents crypto r' reply.2 := by
  obtain ⟨_, -, hcall⟩ := bind_ok hcall
  obtain ⟨secret, hsecret, hcall⟩ := bind_ok hcall
  obtain ⟨m, hm, hcall⟩ := bind_ok hcall
  obtain ⟨_, -, hcall⟩ := bind_ok hcall
  obtain ⟨_, hactive, hcall⟩ := bind_ok hcall
  obtain ⟨_, hlevel, hstore⟩ := bind_ok hcall
  obtain ⟨_, hload, -⟩ := bind_ok hm
  obtain ⟨claim, hclaim⟩ := h.claim?_isSome hload
  obtain rfl : claim.claimId = claimId := by simpa using List.find?_some hclaim
  rw [assessMaturity_of_represents h hclaim (hvalid.schemaOf hclaim)] at hm
  cases hm
  refine store_represents hstore fun u hu => ⟨_, .envelope claim keyId secret (found_ok hsecret) hclaim
    (by simpa using require_ok hactive) (by simpa using require_ok hlevel), ?_⟩
  obtain ⟨-, rfl⟩ := insertAuthentication_ok hu
  exact h.addEnvelope _

theorem supersede_represents (h : Represents crypto r t) {replacement reason : String}
    {reply : ClaimAssessment × Tables}
    (hcall : supersede crypto keys disk claimId replacement reason t = .ok reply) :
    reply.2 = t ∨ ∃ r', Added crypto keys disk r (.supersede claimId replacement reason) r' ∧
      Represents crypto r' reply.2 := by
  obtain ⟨_, -, hcall⟩ := bind_ok hcall
  obtain ⟨_, hne, hcall⟩ := bind_ok hcall
  obtain ⟨_, -, hcall⟩ := bind_ok hcall
  obtain ⟨_, hload, hstore⟩ := bind_ok hcall
  obtain ⟨_, hstored⟩ := h.claim?_isSome hload
  refine store_represents hstore fun u hu => ⟨_, .supersession claimId replacement reason
    (by simpa using require_ok hne) ?_ (Option.isSome_of_eq_some hstored), ?_⟩
  · obtain ⟨hnew, -⟩ := insertSupersession_ok hu
    rw [← h.replacement, hnew]
    rfl
  · obtain ⟨-, rfl⟩ := insertSupersession_ok hu
    exact h.addSupersession _

/-- **A call adds at most one record.** -/
theorem call_represents (h : Represents crypto r t) (hvalid : r.Valid) (keys : AuthenticationKeys)
    (disk : Disk) (c : LedgerCall) :
    (call crypto keys disk c t).2 = t ∨ ∃ r', Added crypto keys disk r c r' ∧
      Represents crypto r' (call crypto keys disk c t).2 := by
  cases hrun : runCall crypto keys disk c t with
  | error e => exact Or.inl (by simp only [call, hrun])
  | ok reply =>
    simp only [call, hrun]
    cases c with
    | propose claim => exact propose_represents h hrun
    | appendEvidence evidence => exact appendEvidence_represents h hrun
    | authenticate claimId keyId => exact authenticate_represents h hvalid hrun
    | supersede claimId replacement reason => exact supersede_represents h hrun

end RlmGraph.Claims.Records
