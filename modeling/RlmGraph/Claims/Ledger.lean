import Mathlib.Data.List.Dedup
import RlmGraph.Lib.JsonText
import RlmGraph.Lib.PyText

/-! # The claim-evidence ledger

Claims, the evidence appended to them, their supersessions, their
authentication envelopes, and one event chain for each claim, held in five
append-only tables. The four calls of the ledger are transactions: an exception
undoes everything the call wrote. Payload columns hold JSON text, and what a
call reads back it parses from that text. The hash functions and the artifact
files are parameters. -/
namespace RlmGraph.Claims.Ledger
open RlmGraph.Lib.JsonText RlmGraph.Lib.PyText

inductive LedgerError where
  | value (message : String)
  | duplicatePayload (message : String)
  | evidenceIntegrity (message : String)
  | claimTransition (message : String)
  | key (claimId : String)
  | os (path : String)
  | constraint (column : String)
  deriving DecidableEq

structure Crypto where
  sha256 : Bytes → Bytes
  hmacSha256 : Bytes → Bytes → Bytes

/-- The artifact files: resolution of a path, and what is found at one. -/
structure Disk where
  resolve : String → Option String
  isFile : String → Bool
  read : String → Option Bytes

abbrev AuthenticationKeys := String → Option Bytes

/-! ## Enumerations and records -/

inductive EvidenceLevel where
  | proposed | observed | tested | replicated
  deriving DecidableEq

def EvidenceLevel.value : EvidenceLevel → String
  | proposed => "PROPOSED"
  | observed => "OBSERVED"
  | tested => "TESTED"
  | replicated => "REPLICATED"

inductive ClaimDisposition where
  | active | rejected | superseded
  deriving DecidableEq

def ClaimDisposition.value : ClaimDisposition → String
  | active => "ACTIVE"
  | rejected => "REJECTED"
  | superseded => "SUPERSEDED"

inductive AuthenticationState where
  | unauthenticated | authenticated | invalid
  deriving DecidableEq

def AuthenticationState.value : AuthenticationState → String
  | unauthenticated => "UNAUTHENTICATED"
  | authenticated => "AUTHENTICATED"
  | invalid => "INVALID"

inductive ClaimDisplayState where
  | proposed | observed | tested | replicated | authenticated | rejected | superseded
  deriving DecidableEq

def ClaimDisplayState.value : ClaimDisplayState → String
  | proposed => "PROPOSED"
  | observed => "OBSERVED"
  | tested => "TESTED"
  | replicated => "REPLICATED"
  | authenticated => "AUTHENTICATED"
  | rejected => "REJECTED"
  | superseded => "SUPERSEDED"

inductive EvidenceKind where
  | agentReport | sourceObservation | testRun | replicationRun | counterevidence
  deriving DecidableEq

def EvidenceKind.value : EvidenceKind → String
  | agentReport => "AGENT_REPORT"
  | sourceObservation => "SOURCE_OBSERVATION"
  | testRun => "TEST_RUN"
  | replicationRun => "REPLICATION_RUN"
  | counterevidence => "COUNTEREVIDENCE"

inductive EvidenceOutcome where
  | passed | failed | inapplicable
  deriving DecidableEq

def EvidenceOutcome.value : EvidenceOutcome → String
  | passed => "PASSED"
  | failed => "FAILED"
  | inapplicable => "INAPPLICABLE"

def claimSchema : String := "rlmgraph-claim-statement-v1"
def evidenceSchema : String := "rlmgraph-claim-evidence-v1"
def eventSchema : String := "rlmgraph-claim-state-event-v1"
def authenticationSchema : String := "rlmgraph-claim-authentication-v1"
def authenticationPurpose : String := "RLMGRAPH_CLAIM_EVIDENCE_V1"

structure ClaimStatement where
  claimId : String
  subject : String
  assertion : String
  sourceManifestSha256 : String
  policySha256 : String
  requiredTestSpecSha256 : String
  schemaVersion : String := claimSchema
  deriving DecidableEq

structure ClaimEvidence where
  evidenceId : String
  claimId : String
  kind : EvidenceKind
  artifactPath : String
  artifactSha256 : String
  sourceManifestSha256 : String
  policySha256 : String
  producerId : String
  outcome : EvidenceOutcome := .inapplicable
  testSpecSha256 : Option String := none
  runId : Option String := none
  independenceKey : Option String := none
  detail : String := ""
  schemaVersion : String := evidenceSchema
  deriving DecidableEq

structure ClaimAssessment where
  claimId : String
  evidenceLevel : EvidenceLevel
  disposition : ClaimDisposition
  authentication : AuthenticationState
  displayState : ClaimDisplayState
  evidenceIds : List String
  eligibleEvidenceIds : List String
  evidenceMerkleRoot : String
  supersededByClaimId : Option String
  deriving DecidableEq

/-! ## Hashes and canonical text -/

def canonicalJson (v : Json) : String := dumps ⟨false, false⟩ v

/-- Two lowercase hexadecimal digits for each byte. -/
def hexdigest (bytes : Bytes) : String :=
  String.ofList (bytes.flatMap fun b => [(b.toNat / 16).digitChar, (b.toNat % 16).digitChar])

def Crypto.sha256Bytes (crypto : Crypto) (bytes : Bytes) : String := hexdigest (crypto.sha256 bytes)

def Crypto.sha256Text (crypto : Crypto) (text : String) : String := crypto.sha256Bytes (utf8 text)

/-- `text[:32]`. -/
def first32 (text : String) : String := String.ofList (text.toList.take 32)

/-- The bytes a digest spells in hexadecimal are the digest itself. -/
def merkleLeaf (crypto : Crypto) (record : String × String) : Bytes :=
  crypto.sha256 (utf8 (canonicalJson
    (.obj [("id", .str record.1), ("payload_sha256", .str record.2)])))

/-- One level up: neighbours are hashed together, a last odd one with itself. -/
def merkleLevel (crypto : Crypto) : List Bytes → List Bytes
  | [] => []
  | [leaf] => [crypto.sha256 (leaf ++ leaf)]
  | a :: b :: rest => crypto.sha256 (a ++ b) :: merkleLevel crypto rest

theorem merkleLevel_length (crypto : Crypto) (leaves : List Bytes) :
    (merkleLevel crypto leaves).length = (leaves.length + 1) / 2 := by
  induction leaves using merkleLevel.induct with
  | case1 => rfl
  | case2 leaf => simp [merkleLevel]
  | case3 a b rest ih => simp only [merkleLevel, List.length_cons, ih]; omega

def merkleFold (crypto : Crypto) (leaves : List Bytes) : Bytes :=
  match leaves with
  | [] => crypto.sha256 []
  | [leaf] => leaf
  | a :: b :: rest => merkleFold crypto (merkleLevel crypto (a :: b :: rest))
termination_by leaves.length
decreasing_by simp only [merkleLevel_length, List.length_cons]; omega

/-- The order of tuples. -/
def recordLE (a b : String × String) : Bool := decide (a.1 < b.1 ∨ (a.1 = b.1 ∧ a.2 ≤ b.2))

def merkleRoot (crypto : Crypto) (records : List (String × String)) : String :=
  hexdigest (merkleFold crypto ((records.mergeSort recordLE).map (merkleLeaf crypto)))

/-! ## Payloads -/

def optionalText : Option String → Json
  | some s => .str s
  | none => .null

def claimPayload (claim : ClaimStatement) : Json :=
  .obj [("claim_id", .str claim.claimId), ("subject", .str claim.subject),
    ("assertion", .str claim.assertion),
    ("source_manifest_sha256", .str claim.sourceManifestSha256),
    ("policy_sha256", .str claim.policySha256),
    ("required_test_spec_sha256", .str claim.requiredTestSpecSha256),
    ("schema_version", .str claimSchema)]

def evidencePayload (evidence : ClaimEvidence) : Json :=
  .obj [("evidence_id", .str evidence.evidenceId), ("claim_id", .str evidence.claimId),
    ("kind", .str evidence.kind.value), ("artifact_path", .str evidence.artifactPath),
    ("artifact_sha256", .str evidence.artifactSha256),
    ("source_manifest_sha256", .str evidence.sourceManifestSha256),
    ("policy_sha256", .str evidence.policySha256), ("producer_id", .str evidence.producerId),
    ("outcome", .str evidence.outcome.value),
    ("test_spec_sha256", optionalText evidence.testSpecSha256),
    ("run_id", optionalText evidence.runId),
    ("independence_key", optionalText evidence.independenceKey), ("detail", .str evidence.detail),
    ("schema_version", .str evidenceSchema)]

def supersessionPayload (claimId replacementClaimId reason : String) : Json :=
  .obj [("schema_version", .str "rlmgraph-claim-supersession-v1"), ("claim_id", .str claimId),
    ("replacement_claim_id", .str replacementClaimId), ("reason", .str reason)]

/-! ## Validation -/

/-- Raises unless the condition holds. -/
def require (ok : Bool) (e : LedgerError) : Except LedgerError Unit :=
  if ok then .ok () else .error e

def requireText (value label : String) : Except LedgerError Unit :=
  require (value.toList.any (!isSpace ·)) (.value s!"{label} must be a non-empty string")

def requireSha256 (value label : String) : Except LedgerError Unit :=
  require (value.toList.length == 64 && value.toList.all ("0123456789abcdef".toList.contains ·))
    (.value s!"{label} must be a lowercase SHA-256 digest")

def claimFields (claim : ClaimStatement) : Except LedgerError Unit := do
  requireText claim.claimId "claim id"
  requireText claim.subject "claim subject"
  requireText claim.assertion "claim assertion"
  requireSha256 claim.sourceManifestSha256 "source manifest hash"
  requireSha256 claim.policySha256 "policy hash"
  requireSha256 claim.requiredTestSpecSha256 "test specification hash"

def validateClaim (claim : ClaimStatement) : Except LedgerError ClaimStatement := do
  require (claim.schemaVersion == claimSchema)
    (.value s!"unsupported claim schema: {claim.schemaVersion}")
  claimFields claim
  return claim

/-- `not value` for an optional text. -/
def missing (value : Option String) : Bool := value.elim true (· == "")

def evidenceFields (evidence : ClaimEvidence) : Except LedgerError Unit := do
  require (evidence.schemaVersion == evidenceSchema)
    (.value s!"unsupported evidence schema: {evidence.schemaVersion}")
  requireText evidence.evidenceId "evidence id"
  requireText evidence.claimId "claim id"
  requireText evidence.producerId "evidence producer"
  requireSha256 evidence.artifactSha256 "artifact hash"
  requireSha256 evidence.sourceManifestSha256 "source manifest hash"
  requireSha256 evidence.policySha256 "policy hash"
  match evidence.testSpecSha256 with
  | some spec => requireSha256 spec "test specification hash"
  | none => return

/-- The resolved artifact path, once its file has the declared digest. -/
def evidenceArtifact (crypto : Crypto) (disk : Disk) (evidence : ClaimEvidence) :
    Except LedgerError String := do
  let artifact ← (disk.resolve evidence.artifactPath).elim
    (.error (.os evidence.artifactPath)) .ok
  require (disk.isFile artifact)
    (.evidenceIntegrity s!"evidence artifact is not a file: {artifact}")
  let bytes ← (disk.read artifact).elim (.error (.os artifact)) .ok
  require (crypto.sha256Bytes bytes == evidence.artifactSha256)
    (.evidenceIntegrity s!"evidence artifact hash mismatch for {evidence.evidenceId}")
  return artifact

/-- What the kind of the evidence requires of its other fields. -/
def evidenceKindRules (evidence : ClaimEvidence) : Except LedgerError Unit := do
  require (!((evidence.kind == .testRun || evidence.kind == .replicationRun) &&
      (evidence.testSpecSha256.isNone || missing evidence.runId)))
    (.value "test evidence requires a test specification and run id")
  require (!(evidence.kind == .replicationRun && missing evidence.independenceKey))
    (.value "replication evidence requires an independence key")
  require (!(evidence.kind == .counterevidence && evidence.outcome != .failed))
    (.value "counterevidence must record a FAILED outcome")
  require (!(evidence.kind == .counterevidence && evidence.testSpecSha256.isNone))
    (.value "counterevidence requires a test specification")

def validateEvidence (crypto : Crypto) (disk : Disk) (evidence : ClaimEvidence) :
    Except LedgerError ClaimEvidence := do
  evidenceFields evidence
  let artifact ← evidenceArtifact crypto disk evidence
  evidenceKindRules evidence
  return { evidence with artifactPath := artifact }

/-! ## Tables -/

structure ClaimRow where
  claimId : String
  payloadSha256 : String
  payload : String
  deriving DecidableEq

structure EvidenceRow where
  evidenceId : String
  claimId : String
  payloadSha256 : String
  payload : String
  deriving DecidableEq

structure SupersessionRow where
  claimId : String
  replacementClaimId : String
  payloadSha256 : String
  payload : String
  deriving DecidableEq

structure AuthenticationRow where
  envelopeId : String
  claimId : String
  payloadSha256 : String
  payload : String
  deriving DecidableEq

structure EventRow where
  eventId : String
  claimId : String
  sequence : Nat
  previousEventSha256 : Option String
  eventSha256 : String
  payload : String
  deriving DecidableEq

/-- The five tables, rows in the order of insertion. -/
structure Tables where
  claims : List ClaimRow := []
  records : List EvidenceRow := []
  supersessions : List SupersessionRow := []
  authentications : List AuthenticationRow := []
  stateEvents : List EventRow := []
  deriving DecidableEq

def Tables.claim? (t : Tables) (claimId : String) : Option ClaimRow :=
  t.claims.find? (·.claimId == claimId)

def Tables.record? (t : Tables) (evidenceId : String) : Option EvidenceRow :=
  t.records.find? (·.evidenceId == evidenceId)

def Tables.supersession? (t : Tables) (claimId : String) : Option SupersessionRow :=
  t.supersessions.find? (·.claimId == claimId)

def Tables.authentication? (t : Tables) (envelopeId : String) : Option AuthenticationRow :=
  t.authentications.find? (·.envelopeId == envelopeId)

/-- `ORDER BY` a text column. -/
def orderBy {ρ : Type} (column : ρ → String) (rows : List ρ) : List ρ :=
  rows.mergeSort fun a b => decide (column a ≤ column b)

/-- The records of a claim, by evidence identifier. -/
def Tables.recordsOf (t : Tables) (claimId : String) : List EvidenceRow :=
  orderBy (·.evidenceId) (t.records.filter (·.claimId == claimId))

/-- The events of a claim, by place. -/
def Tables.eventsOf (t : Tables) (claimId : String) : List EventRow :=
  (t.stateEvents.filter (·.claimId == claimId)).mergeSort fun a b => decide (a.sequence ≤ b.sequence)

/-! The inserts check the keys of their table. -/

def Tables.insertClaim (t : Tables) (row : ClaimRow) : Except LedgerError Tables := do
  require (t.claim? row.claimId).isNone (.constraint "claim_evidence_claims.claim_id")
  return { t with claims := t.claims ++ [row] }

def Tables.insertRecord (t : Tables) (row : EvidenceRow) : Except LedgerError Tables := do
  require (t.record? row.evidenceId).isNone (.constraint "claim_evidence_records.evidence_id")
  require (t.claim? row.claimId).isSome (.constraint "FOREIGN KEY")
  return { t with records := t.records ++ [row] }

def Tables.insertSupersession (t : Tables) (row : SupersessionRow) : Except LedgerError Tables := do
  require (t.supersession? row.claimId).isNone (.constraint "claim_evidence_supersessions.claim_id")
  require ((t.claim? row.claimId).isSome && (t.claim? row.replacementClaimId).isSome)
    (.constraint "FOREIGN KEY")
  return { t with supersessions := t.supersessions ++ [row] }

def Tables.insertAuthentication (t : Tables) (row : AuthenticationRow) :
    Except LedgerError Tables := do
  require (t.authentication? row.envelopeId).isNone
    (.constraint "claim_evidence_authentications.envelope_id")
  require (t.claim? row.claimId).isSome (.constraint "FOREIGN KEY")
  return { t with authentications := t.authentications ++ [row] }

def Tables.insertEvent (t : Tables) (row : EventRow) : Except LedgerError Tables := do
  require (t.stateEvents.all (·.eventId != row.eventId))
    (.constraint "claim_evidence_state_events.event_id")
  require (t.stateEvents.all fun e => !(e.claimId == row.claimId && e.sequence == row.sequence))
    (.constraint "claim_evidence_state_events.claim_id, claim_evidence_state_events.sequence")
  require (t.claim? row.claimId).isSome (.constraint "FOREIGN KEY")
  return { t with stateEvents := t.stateEvents ++ [row] }

/-! ## Assessment -/

def loadPayload (text : String) : Except LedgerError Json :=
  (loads text).elim (.error (.value "payload is not JSON")) .ok

def textAt (raw : Json) (key : String) : Except LedgerError String :=
  match raw.get? key with
  | some (.str s) => .ok s
  | _ => .error (.value key)

/-- `ClaimStatement(**raw)`. -/
def claimOfJson (raw : Json) : Except LedgerError ClaimStatement := do
  return {
    claimId := ← textAt raw "claim_id"
    subject := ← textAt raw "subject"
    assertion := ← textAt raw "assertion"
    sourceManifestSha256 := ← textAt raw "source_manifest_sha256"
    policySha256 := ← textAt raw "policy_sha256"
    requiredTestSpecSha256 := ← textAt raw "required_test_spec_sha256"
    schemaVersion := ← textAt raw "schema_version" }

def loadClaim (t : Tables) (claimId : String) : Except LedgerError (ClaimStatement × String) :=
  match t.claim? claimId with
  | none => .error (.key claimId)
  | some row => do
    let raw ← loadPayload row.payload
    let claim ← claimOfJson raw
    return (claim, row.payloadSha256)

/-- Whether the artifact a record names still has the digest it names. -/
def artifactMatches (crypto : Crypto) (disk : Disk) (raw : Json) : Bool :=
  match raw.get? "artifact_path", raw.get? "artifact_sha256" with
  | some (.str path), some (.str sha256) =>
    disk.isFile path && (disk.read path).elim false (crypto.sha256Bytes · == sha256)
  | _, _ => false

def kindIn (raw : Json) (kinds : List EvidenceKind) : Bool :=
  kinds.any fun kind => raw.get? "kind" == some (.str kind.value)

def bindingMatches (claim : ClaimStatement) (raw : Json) : Bool :=
  raw.get? "source_manifest_sha256" == some (.str claim.sourceManifestSha256) &&
    raw.get? "policy_sha256" == some (.str claim.policySha256) &&
    (!kindIn raw [.testRun, .replicationRun, .counterevidence] ||
      raw.get? "test_spec_sha256" == some (.str claim.requiredTestSpecSha256))

/-- A record with its parsed payload. -/
abbrev LoadedRecord := EvidenceRow × Json

def loadRecords (rows : List EvidenceRow) : Except LedgerError (List LoadedRecord) :=
  rows.mapM fun row => do
    let raw ← loadPayload row.payload
    return (row, raw)

def eligibleRecords (crypto : Crypto) (disk : Disk) (claim : ClaimStatement)
    (records : List LoadedRecord) : List LoadedRecord :=
  records.filter fun r => artifactMatches crypto disk r.2 && bindingMatches claim r.2

def passingTests (eligible : List LoadedRecord) : List LoadedRecord :=
  eligible.filter fun r => kindIn r.2 [.testRun, .replicationRun] &&
    r.2.get? "outcome" == some (.str EvidenceOutcome.passed.value)

/-- The distinct independence keys of the passing tests. -/
def independentKeys (eligible : List LoadedRecord) : List String :=
  ((passingTests eligible).filterMap fun r =>
    match r.2.get? "independence_key" with
    | some (.str s) => if s = "" then none else some s
    | _ => none).dedup

def evidenceLevel (eligible : List LoadedRecord) : EvidenceLevel :=
  if 2 ≤ (independentKeys eligible).length then .replicated
  else if (passingTests eligible).isEmpty = false then .tested
  else if eligible.any (kindIn ·.2 [.sourceObservation]) then .observed
  else .proposed

def isRejected (eligible : List LoadedRecord) : Bool :=
  eligible.any fun r => kindIn r.2 [.counterevidence] &&
    r.2.get? "outcome" == some (.str EvidenceOutcome.failed.value)

def claimDisposition (supersession : Option SupersessionRow) (eligible : List LoadedRecord) :
    ClaimDisposition :=
  if supersession.isSome then .superseded
  else if isRejected eligible then .rejected
  else .active

/-- `raw` without its signature. -/
def unsigned : Json → Json
  | .obj fields => .obj (fields.filter (·.1 != "signature"))
  | raw => raw

/-- What an assessment derives before it looks at the authentications. -/
structure Maturity where
  claim : ClaimStatement
  claimSha256 : String
  level : EvidenceLevel
  disposition : ClaimDisposition
  evidenceIds : List String
  eligibleIds : List String
  evidenceRoot : String
  supersededBy : Option String

def sortedTexts (texts : List String) : List String := texts.mergeSort fun a b => decide (a ≤ b)

def assessMaturity (crypto : Crypto) (disk : Disk) (t : Tables) (claimId : String) :
    Except LedgerError Maturity := do
  let (claim, claimSha256) ← loadClaim t claimId
  let records ← loadRecords (t.recordsOf claimId)
  let eligible := eligibleRecords crypto disk claim records
  return {
    claim := claim
    claimSha256 := claimSha256
    level := evidenceLevel eligible
    disposition := claimDisposition (t.supersession? claimId) eligible
    evidenceIds := records.map (·.1.evidenceId)
    eligibleIds := sortedTexts (eligible.map (·.1.evidenceId))
    evidenceRoot := merkleRoot crypto (eligible.map fun r => (r.1.evidenceId, r.1.payloadSha256))
    supersededBy := (t.supersession? claimId).map (·.replacementClaimId) }

/-- Whether an envelope was made for exactly this maturity. -/
def envelopeMatches (m : Maturity) (raw : Json) : Bool :=
  raw.get? "claim_payload_sha256" == some (.str m.claimSha256) &&
    raw.get? "source_manifest_sha256" == some (.str m.claim.sourceManifestSha256) &&
    raw.get? "policy_sha256" == some (.str m.claim.policySha256) &&
    raw.get? "test_spec_sha256" == some (.str m.claim.requiredTestSpecSha256) &&
    raw.get? "evidence_level" == some (.str m.level.value) &&
    raw.get? "disposition" == some (.str m.disposition.value) &&
    (raw.get? "evidence_ids").getD (.arr []) == .arr (m.eligibleIds.map .str) &&
    raw.get? "evidence_merkle_root" == some (.str m.evidenceRoot)

def envelopeSigned (crypto : Crypto) (keys : AuthenticationKeys) (raw : Json) : Bool :=
  match raw.get? "key_id" with
  | some (.str keyId) =>
    (keys keyId).elim false fun secret =>
      raw.get? "algorithm" == some (.str "HMAC-SHA256") &&
        raw.get? "signature" ==
          some (.str (hexdigest (crypto.hmacSha256 secret (utf8 (canonicalJson (unsigned raw))))))
  | _ => false

def authenticationState (crypto : Crypto) (keys : AuthenticationKeys) (t : Tables)
    (m : Maturity) : Except LedgerError AuthenticationState := do
  let rows := orderBy (·.envelopeId) (t.authentications.filter (·.claimId == m.claim.claimId))
  let raws ← rows.mapM fun row => loadPayload row.payload
  let matching := raws.filter (envelopeMatches m)
  return if matching.isEmpty then .unauthenticated
    else if matching.any (envelopeSigned crypto keys) then .authenticated
    else .invalid

def displayState (level : EvidenceLevel) (disposition : ClaimDisposition)
    (authentication : AuthenticationState) : ClaimDisplayState :=
  match disposition with
  | .superseded => .superseded
  | .rejected => .rejected
  | .active =>
    if authentication = .authenticated then .authenticated
    else match level with
      | .proposed => .proposed
      | .observed => .observed
      | .tested => .tested
      | .replicated => .replicated

def assess (crypto : Crypto) (keys : AuthenticationKeys) (disk : Disk) (t : Tables)
    (claimId : String) : Except LedgerError ClaimAssessment := do
  let m ← assessMaturity crypto disk t claimId
  let authentication ← authenticationState crypto keys t m
  return {
    claimId := claimId
    evidenceLevel := m.level
    disposition := m.disposition
    authentication := authentication
    displayState := displayState m.level m.disposition authentication
    evidenceIds := m.evidenceIds
    eligibleEvidenceIds := m.eligibleIds
    evidenceMerkleRoot := m.evidenceRoot
    supersededByClaimId := m.supersededBy }

/-! ## Events -/

def eventBody (assessment : ClaimAssessment) (claimPayloadSha256 : String) (sequence : Nat)
    (previousSha256 : Option String) (actionKind actionId : String) : Json :=
  .obj [("schema_version", .str eventSchema), ("claim_id", .str assessment.claimId),
    ("claim_payload_sha256", .str claimPayloadSha256), ("sequence", .int sequence),
    ("previous_event_sha256", optionalText previousSha256), ("action_kind", .str actionKind),
    ("action_id", .str actionId), ("evidence_level", .str assessment.evidenceLevel.value),
    ("disposition", .str assessment.disposition.value),
    ("authentication", .str assessment.authentication.value),
    ("display_state", .str assessment.displayState.value),
    ("evidence_ids", .arr (assessment.evidenceIds.map .str)),
    ("eligible_evidence_ids", .arr (assessment.eligibleEvidenceIds.map .str)),
    ("evidence_merkle_root", .str assessment.evidenceMerkleRoot),
    ("superseded_by_claim_id", optionalText assessment.supersededByClaimId)]

def appendEvent (crypto : Crypto) (t : Tables) (assessment : ClaimAssessment)
    (actionKind actionId : String) : Except LedgerError Tables := do
  let (_, claimPayloadSha256) ← loadClaim t assessment.claimId
  let previous := (t.eventsOf assessment.claimId).getLast?
  let sequence := previous.elim 1 (·.sequence + 1)
  let previousSha256 := previous.map (·.eventSha256)
  let serialized := canonicalJson
    (eventBody assessment claimPayloadSha256 sequence previousSha256 actionKind actionId)
  let eventSha256 := crypto.sha256Text serialized
  t.insertEvent ⟨"CLAIM-EVENT-" ++ first32 eventSha256, assessment.claimId, sequence,
    previousSha256, eventSha256, serialized⟩

/-! ## The four calls -/

/-- The end that the four calls share: what is stored under the identifier must
have the same payload; otherwise a record is inserted, and its event after it. -/
def store (crypto : Crypto) (keys : AuthenticationKeys) (disk : Disk) (t : Tables)
    (stored : Option String) (serialized : String) (conflict : LedgerError)
    (insert : Except LedgerError Tables) (claimId actionKind actionId : String) :
    Except LedgerError (ClaimAssessment × Tables) :=
  match stored with
  | some payload => do
    require (payload == serialized) conflict
    let assessment ← assess crypto keys disk t claimId
    return (assessment, t)
  | none => do
    let u ← insert
    let assessment ← assess crypto keys disk u claimId
    let t ← appendEvent crypto u assessment actionKind actionId
    return (assessment, t)

def propose (crypto : Crypto) (keys : AuthenticationKeys) (disk : Disk) (claim : ClaimStatement)
    (t : Tables) : Except LedgerError (ClaimAssessment × Tables) := do
  let claim ← validateClaim claim
  let serialized := canonicalJson (claimPayload claim)
  let payloadSha256 := crypto.sha256Text serialized
  store crypto keys disk t ((t.claim? claim.claimId).map (·.payload)) serialized
    (.duplicatePayload s!"claim id {claim.claimId} already has different immutable content")
    (t.insertClaim ⟨claim.claimId, payloadSha256, serialized⟩)
    claim.claimId "CLAIM_PROPOSED" payloadSha256

def appendEvidence (crypto : Crypto) (keys : AuthenticationKeys) (disk : Disk)
    (evidence : ClaimEvidence) (t : Tables) : Except LedgerError (ClaimAssessment × Tables) := do
  let evidence ← validateEvidence crypto disk evidence
  let serialized := canonicalJson (evidencePayload evidence)
  let payloadSha256 := crypto.sha256Text serialized
  let _ ← loadClaim t evidence.claimId
  store crypto keys disk t ((t.record? evidence.evidenceId).map (·.payload)) serialized
    (.duplicatePayload s!"evidence id {evidence.evidenceId} already has different immutable content")
    (t.insertRecord ⟨evidence.evidenceId, evidence.claimId, payloadSha256, serialized⟩)
    evidence.claimId "EVIDENCE_APPENDED" evidence.evidenceId

/-- The signed members of an envelope. -/
def signedBody (claimId keyId : String) (m : Maturity) : List (String × Json) :=
  [("schema_version", .str authenticationSchema), ("purpose", .str authenticationPurpose),
    ("claim_id", .str claimId), ("claim_payload_sha256", .str m.claimSha256),
    ("source_manifest_sha256", .str m.claim.sourceManifestSha256),
    ("policy_sha256", .str m.claim.policySha256),
    ("test_spec_sha256", .str m.claim.requiredTestSpecSha256),
    ("evidence_level", .str m.level.value), ("disposition", .str m.disposition.value),
    ("evidence_ids", .arr (m.eligibleIds.map .str)), ("evidence_merkle_root", .str m.evidenceRoot),
    ("key_id", .str keyId), ("algorithm", .str "HMAC-SHA256")]

/-- The text of the envelope. -/
def envelopeText (crypto : Crypto) (secret : Bytes) (claimId keyId : String) (m : Maturity) :
    String :=
  let body := signedBody claimId keyId m
  let signature := hexdigest (crypto.hmacSha256 secret (utf8 (canonicalJson (.obj body))))
  canonicalJson (.obj (body ++ [("signature", .str signature)]))

def authenticate (crypto : Crypto) (keys : AuthenticationKeys) (disk : Disk)
    (claimId keyId : String) (t : Tables) : Except LedgerError (ClaimAssessment × Tables) := do
  requireText keyId "authentication key id"
  let secret ← (keys keyId).elim
    (.error (.claimTransition s!"authentication key is unavailable: {keyId}")) .ok
  let m ← assessMaturity crypto disk t claimId
  let _ ← authenticationState crypto keys t m
  require (m.disposition == .active)
    (.claimTransition "only active claims can be authenticated")
  require (m.level == .replicated)
    (.claimTransition "authentication requires independently replicated evidence")
  let serialized := envelopeText crypto secret claimId keyId m
  let payloadSha256 := crypto.sha256Text serialized
  let envelopeId := "CLAIM-AUTH-" ++ first32 payloadSha256
  store crypto keys disk t ((t.authentication? envelopeId).map (·.payload)) serialized
    (.duplicatePayload s!"authentication envelope {envelopeId} has conflicting content")
    (t.insertAuthentication ⟨envelopeId, claimId, payloadSha256, serialized⟩)
    claimId "CLAIM_AUTHENTICATED" envelopeId

def supersede (crypto : Crypto) (keys : AuthenticationKeys) (disk : Disk)
    (claimId replacementClaimId reason : String) (t : Tables) :
    Except LedgerError (ClaimAssessment × Tables) := do
  requireText reason "supersession reason"
  require (claimId != replacementClaimId) (.claimTransition "a claim cannot supersede itself")
  let serialized := canonicalJson (supersessionPayload claimId replacementClaimId reason)
  let payloadSha256 := crypto.sha256Text serialized
  let _ ← loadClaim t claimId
  let _ ← loadClaim t replacementClaimId
  store crypto keys disk t ((t.supersession? claimId).map (·.payload)) serialized
    (.duplicatePayload s!"claim {claimId} already has a different supersession")
    (t.insertSupersession ⟨claimId, replacementClaimId, payloadSha256, serialized⟩)
    claimId "CLAIM_SUPERSEDED" payloadSha256

/-! ## Calls as transactions -/

inductive LedgerCall where
  | propose (claim : ClaimStatement)
  | appendEvidence (evidence : ClaimEvidence)
  | authenticate (claimId keyId : String)
  | supersede (claimId replacementClaimId reason : String)

def runCall (crypto : Crypto) (keys : AuthenticationKeys) (disk : Disk) :
    LedgerCall → Tables → Except LedgerError (ClaimAssessment × Tables)
  | .propose claim => propose crypto keys disk claim
  | .appendEvidence evidence => appendEvidence crypto keys disk evidence
  | .authenticate claimId keyId => authenticate crypto keys disk claimId keyId
  | .supersede claimId replacement reason => supersede crypto keys disk claimId replacement reason

/-- The call inside its connection: committed when it returns, rolled back when
it raises. -/
def call (crypto : Crypto) (keys : AuthenticationKeys) (disk : Disk) (c : LedgerCall)
    (t : Tables) : Except LedgerError ClaimAssessment × Tables :=
  match runCall crypto keys disk c t with
  | .ok (assessment, t') => (.ok assessment, t')
  | .error e => (.error e, t)

end RlmGraph.Claims.Ledger
