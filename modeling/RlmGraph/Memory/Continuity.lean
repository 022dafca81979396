import Mathlib.Algebra.Order.Ring.Unbundled.Rat
import RlmGraph.Lib.JsonLines
import RlmGraph.Lib.Rows

/-! # Continuity memory

Records in a file with one line of JSON for each, and beside it an index of
their tokens in a second file, of at most 5000 entries. Every call first checks
the records and the index against each other and refuses to go on when they do
not agree. Hashes, times, case conversion and the vectors of tokens are
parameters. -/
namespace RlmGraph.Memory.Continuity
open RlmGraph.Lib.JsonText RlmGraph.Lib.JsonLines RlmGraph.Lib.PyText RlmGraph.Lib.Rows

/-- `_SHA256.fullmatch`. -/
def isDigest (text : String) : Bool :=
  text.toList.length == 64 && text.toList.all ("0123456789abcdef".toList.contains ·)

/-- `_CANARY.fullmatch`. -/
def isCanary (text : String) : Bool :=
  text.toList.length == 12 && text.toList.all ("0123456789ABCDEF".toList.contains ·)

def plain (text : String) : Bool := text.toList.all (!isWideBreak ·)

/-- The hash of a text in hexadecimal, the text of a moment and the texts that
are read as one, case conversion, and the vector of a list of tokens. -/
structure Host where
  sha256 : String → String
  sha256_digest : ∀ text, isDigest (sha256 text) = true
  isoformat : Nat → String
  fromisoformat : String → Bool
  fromisoformat_isoformat : ∀ moment, fromisoformat (isoformat moment) = true
  isoformat_text : ∀ moment, isBlankText (isoformat moment) = false ∧ plain (isoformat moment) = true
  tables : CaseTables
  hashedVector : List String → List Rat
  repr : String → String

/-! ## Tokens -/

def isTokenChar (c : Char) : Bool := ('a' ≤ c && c ≤ 'z') || ('0' ≤ c && c ≤ '9') || c == '_'

/-- The matches of `[a-z0-9_]+`. -/
def memoryTokens (host : Host) (text : String) : List String :=
  (((casefold host.tables text).toList.splitOnP (!isTokenChar ·)).filter (· ≠ [])).map String.ofList

def tokenizeMemory (host : Host) (text : String) : List String := sortedSet (memoryTokens host text)

def conceptStopWords : List String :=
  ["a", "an", "and", "are", "as", "at", "be", "by", "for", "from", "in", "is", "it", "of", "on", "or",
    "that", "the", "this", "to", "was", "with"]

/-- The 32 most frequent concepts, the first ones of a frequency first. -/
def extractMemoryConcepts (host : Host) (text : String) : List String :=
  let concepts := (memoryTokens host text).filter fun token =>
    !conceptStopWords.contains token && 3 ≤ token.toList.length
  ((distinct concepts).mergeSort fun a b => decide (concepts.count b ≤ concepts.count a)).take 32

structure Entry where
  fingerprint : String
  terms : List String
  concepts : List String
  vector : List Rat
  importance : Rat
  protect : Bool
  accessCount : Nat
  lastAccessed : String
  deriving DecidableEq

abbrev Entries := List (String × Entry)

def newEntry (host : Host) (now : String) (text : String) (importance : Rat) : Entry where
  fingerprint := host.sha256 text
  terms := tokenizeMemory host text
  concepts := extractMemoryConcepts host text
  vector := host.hashedVector (tokenizeMemory host text)
  importance := max 0 (min 1 importance)
  protect := false
  accessCount := 1
  lastAccessed := now

/-- The order in which entries are released. -/
def releaseLE (a b : String × Entry) : Bool :=
  let key (p : String × Entry) := (p.2.importance, p.2.accessCount, p.2.lastAccessed, p.1)
  let (i, n, l, id) := key a
  let (j, m, k, id') := key b
  decide (i < j) || (i == j && (decide (n < m) || (n == m && (decide (l < k) ||
    (l == k && decide (id ≤ id'))))))

def maxEntries : Nat := 5000

def releaseUnimportant (entries : Entries) : Entries :=
  if entries.length ≤ maxEntries then entries
  else
    let candidates := (entries.filter (!·.2.protect)).mergeSort releaseLE
    let released := (candidates.take (entries.length - maxEntries)).map (·.1)
    entries.filter (!released.contains ·.1)

/-- `PersistentMemoryTokenIndex.remember`: the entry, and the entries that are saved. -/
def indexRemember (host : Host) (now memoryId text : String) (importance : Rat) (entries : Entries) :
    Entry × Entries :=
  let fresh := newEntry host now text importance
  match entries.lookup memoryId with
  | some cached =>
    if cached.fingerprint = fresh.fingerprint then
      let touched := { cached with
        lastAccessed := now, accessCount := cached.accessCount + 1
        importance := max cached.importance importance }
      (touched, upsert Prod.fst (memoryId, touched) entries)
    else (fresh, releaseUnimportant (upsert Prod.fst (memoryId, fresh) entries))
  | none => (fresh, releaseUnimportant (upsert Prod.fst (memoryId, fresh) entries))

/-! ## Records -/

/-- What the hash of a record covers. -/
structure Body where
  memoryId : String
  projectScope : String
  originTaskId : String
  claimType : String
  semanticRule : String
  fieldOrder : List String
  runCanary : String
  verificationStatus : String
  workerModel : String
  workerOutputDigest : String
  semanticValidatorDigest : String
  testResultDigest : String
  candidatePatchDigest : String
  candidatePromoted : Bool
  createdAfterValidation : Bool
  createdAt : String
  deriving DecidableEq

structure ContinuityMemoryRecord extends Body where
  contentSha256 : String
  deriving DecidableEq

def bodyFields (b : Body) : List (String × Json) :=
  [("memory_id", .str b.memoryId), ("project_scope", .str b.projectScope),
    ("origin_task_id", .str b.originTaskId), ("claim_type", .str b.claimType),
    ("semantic_rule", .str b.semanticRule), ("field_order", .arr (b.fieldOrder.map .str)),
    ("run_canary", .str b.runCanary), ("verification_status", .str b.verificationStatus),
    ("worker_model", .str b.workerModel), ("worker_output_digest", .str b.workerOutputDigest),
    ("semantic_validator_digest", .str b.semanticValidatorDigest),
    ("test_result_digest", .str b.testResultDigest),
    ("candidate_patch_digest", .str b.candidatePatchDigest),
    ("candidate_promoted", .bool b.candidatePromoted),
    ("created_after_validation", .bool b.createdAfterValidation), ("created_at", .str b.createdAt)]

def recordJson (r : ContinuityMemoryRecord) : Json :=
  .obj (bodyFields r.toBody ++ [("content_sha256", .str r.contentSha256)])

/-- `json.dumps` with sorted keys, without blanks and without escapes of
characters outside ASCII. -/
def style : Style := ⟨false, false⟩

def contentSha256 (host : Host) (b : Body) : String := host.sha256 (dumps style (.obj (bodyFields b)))

def textAt (raw : Json) (key : String) : Option String :=
  match raw.get? key with
  | some (.str s) => some s
  | _ => none

def textsAt (raw : Json) (key : String) : Option (List String) :=
  match raw.get? key with
  | some (.arr items) => items.mapM fun | .str s => some s | _ => none
  | _ => none

def flagAt (raw : Json) (key : String) : Option Bool :=
  match raw.get? key with
  | some (.bool b) => some b
  | _ => none

/-- `ContinuityMemoryRecord(**raw)`. -/
def recordOfJson (raw : Json) : Option ContinuityMemoryRecord := do
  return {
    memoryId := ← textAt raw "memory_id"
    projectScope := ← textAt raw "project_scope"
    originTaskId := ← textAt raw "origin_task_id"
    claimType := ← textAt raw "claim_type"
    semanticRule := ← textAt raw "semantic_rule"
    fieldOrder := ← textsAt raw "field_order"
    runCanary := ← textAt raw "run_canary"
    verificationStatus := ← textAt raw "verification_status"
    workerModel := ← textAt raw "worker_model"
    workerOutputDigest := ← textAt raw "worker_output_digest"
    semanticValidatorDigest := ← textAt raw "semantic_validator_digest"
    testResultDigest := ← textAt raw "test_result_digest"
    candidatePatchDigest := ← textAt raw "candidate_patch_digest"
    candidatePromoted := ← flagAt raw "candidate_promoted"
    createdAfterValidation := ← flagAt raw "created_after_validation"
    createdAt := ← textAt raw "created_at"
    contentSha256 := ← textAt raw "content_sha256" }

/-- The two files, and the entries that the index holds in memory. -/
structure Store where
  file : List Char := []
  saved : Option Entries := none
  entries : Entries := []
  deriving DecidableEq

def records (s : Store) : Option (List ContinuityMemoryRecord) := do
  (← loadLines s.file).mapM recordOfJson

def searchable (b : Body) : String :=
  " ".intercalate [b.claimType, b.semanticRule, " ".intercalate b.fieldOrder]

/-! ## Integrity -/

def errorUnless (ok : Bool) (message : String) : List String := if ok then [] else [message]

/-- Three distinct fields with text. -/
def fieldOrderOk (fields : List String) : Bool :=
  fields.length == 3 && decide fields.Nodup && fields.all (!isBlankText ·)

def statusOk (status : String) : Bool := status == "PROPOSED" || status == "VERIFIED"

/-- A verified record comes from a discarded candidate, after its validation. -/
def provenanceOk (status : String) (promoted afterValidation : Bool) : Bool :=
  !(status == "VERIFIED" && (promoted || !afterValidation))

def digestsOf (r : ContinuityMemoryRecord) : List (String × String) :=
  [("worker output", r.workerOutputDigest), ("semantic validator", r.semanticValidatorDigest),
    ("test result", r.testResultDigest), ("candidate patch", r.candidatePatchDigest),
    ("content", r.contentSha256)]

def recordErrors (host : Host) (r : ContinuityMemoryRecord) : List String :=
  errorUnless ([r.memoryId, r.projectScope, r.originTaskId, r.claimType, r.semanticRule, r.workerModel,
      r.createdAt].all (!isBlankText ·))
    ("Invalid continuity text field: " ++ host.repr r.memoryId) ++
  errorUnless (fieldOrderOk r.fieldOrder) ("Invalid continuity field order: " ++ host.repr r.memoryId) ++
  errorUnless (isCanary r.runCanary) ("Invalid continuity canary: " ++ host.repr r.memoryId) ++
  errorUnless (statusOk r.verificationStatus) ("Invalid continuity status: " ++ host.repr r.memoryId) ++
  (digestsOf r).flatMap (fun d =>
    errorUnless (isDigest d.2) ("Invalid " ++ d.1 ++ " digest: " ++ host.repr r.memoryId)) ++
  errorUnless (host.fromisoformat r.createdAt)
    ("Invalid continuity timestamp: " ++ host.repr r.memoryId) ++
  errorUnless (contentSha256 host r.toBody == r.contentSha256)
    ("Continuity memory hash mismatch: " ++ r.memoryId) ++
  errorUnless (provenanceOk r.verificationStatus r.candidatePromoted r.createdAfterValidation)
    ("Invalid verified provenance: " ++ r.memoryId)

/-- The errors of the records, in their order. -/
def recordsErrors (host : Host) : List String → List ContinuityMemoryRecord → List String
  | _, [] => []
  | seen, r :: rest =>
    errorUnless (!seen.contains r.memoryId) ("Duplicate memory id: " ++ r.memoryId) ++
      recordErrors host r ++ recordsErrors host (r.memoryId :: seen) rest

/-- Whether the tokens of an entry are the ones of a record, member by member. -/
def entryChecks (host : Host) (r : ContinuityMemoryRecord) (entry : Entry) : List (String × Bool) :=
  let fresh := newEntry host "" (searchable r.toBody) 0
  [("fingerprint", entry.fingerprint == fresh.fingerprint), ("terms", entry.terms == fresh.terms),
    ("concepts", entry.concepts == fresh.concepts), ("vector", entry.vector == fresh.vector)]

def entryErrors (host : Host) (entries : Entries) (r : ContinuityMemoryRecord) : List String :=
  match entries.lookup r.memoryId with
  | none => ["Missing continuity token entry: " ++ r.memoryId]
  | some entry => (entryChecks host r entry).flatMap fun check =>
      errorUnless check.2 ("Continuity token entry mismatch (" ++ check.1 ++ "): " ++ r.memoryId)

def sameMembers (as bs : List String) : Bool := as.all (bs.contains ·) && bs.all (as.contains ·)

def tokenErrors (host : Host) (saved : Option Entries) (rs : List ContinuityMemoryRecord) : List String :=
  match saved, rs with
  | none, [] => []
  | none, _ => ["Continuity token index entries are missing."]
  | some entries, rs =>
    errorUnless (sameMembers (entries.map (·.1)) (rs.map (·.memoryId)))
      "Continuity token index inventory does not match records." ++
    rs.flatMap (entryErrors host entries)

/-- `verify_integrity`: the errors; there are none when the memory is sound. -/
def verifyIntegrity (host : Host) (s : Store) : List String :=
  match records s with
  | none => ["Unreadable continuity memory"]
  | some rs => recordsErrors host [] rs ++ tokenErrors host s.saved rs

/-! ## Remembering -/

inductive ContinuityError where
  | value (message : String)
  | integrity (message : String)
  deriving DecidableEq

def require (ok : Bool) (e : ContinuityError) : Except ContinuityError Unit :=
  if ok then .ok () else .error e

/-- The arguments of `remember`, with the random number and the moment it reads. -/
structure Request where
  projectScope : String
  originTaskId : String
  claimType : String
  semanticRule : String
  fieldOrder : List String
  runCanary : String
  verificationStatus : String
  workerModel : String
  workerOutputDigest : String
  semanticValidatorDigest : String
  testResultDigest : String
  candidatePatchDigest : String
  candidatePromoted : Bool
  createdAfterValidation : Bool
  memoryId : Option String := none
  uuid : BitVec 128 := 0
  moment : Nat := 0
  deriving DecidableEq

/-- `uuid4().hex`. -/
def uuidHex (uuid : BitVec 128) : String :=
  String.ofList ((List.range 32).reverse.map fun i => (uuid.toNat / 16 ^ i % 16).digitChar)

def Request.id (q : Request) : String :=
  match q.memoryId with
  | some id => if id = "" then "CONTINUITY-" ++ uuidHex q.uuid else id
  | none => "CONTINUITY-" ++ uuidHex q.uuid

def validateDigest (value label : String) : Except ContinuityError Unit :=
  require (isDigest value) (.value (label ++ " must be a lowercase SHA-256 digest"))

def validate (q : Request) : Except ContinuityError Unit := do
  require ([q.projectScope, q.originTaskId, q.claimType, q.semanticRule, q.workerModel].all
    (!isBlankText ·)) (.value "Continuity memory text fields must not be empty.")
  require (fieldOrderOk q.fieldOrder)
    (.value "Continuity field order must contain three distinct fields.")
  require (isCanary q.runCanary)
    (.value "Continuity canary must be twelve uppercase hexadecimal characters.")
  validateDigest q.workerOutputDigest "worker output digest"
  validateDigest q.semanticValidatorDigest "semantic validator digest"
  validateDigest q.testResultDigest "test result digest"
  validateDigest q.candidatePatchDigest "candidate patch digest"
  require (statusOk q.verificationStatus)
    (.value "Continuity memory status must be PROPOSED or VERIFIED.")
  require (provenanceOk q.verificationStatus q.candidatePromoted q.createdAfterValidation)
    (.value "Verified continuity memory requires a discarded candidate and post-validation write.")

def Request.body (host : Host) (q : Request) : Body where
  memoryId := q.id
  projectScope := q.projectScope
  originTaskId := q.originTaskId
  claimType := q.claimType
  semanticRule := q.semanticRule
  fieldOrder := q.fieldOrder
  runCanary := q.runCanary
  verificationStatus := q.verificationStatus
  workerModel := q.workerModel
  workerOutputDigest := q.workerOutputDigest
  semanticValidatorDigest := q.semanticValidatorDigest
  testResultDigest := q.testResultDigest
  candidatePatchDigest := q.candidatePatchDigest
  candidatePromoted := q.candidatePromoted
  createdAfterValidation := q.createdAfterValidation
  createdAt := host.isoformat q.moment

def Request.record (host : Host) (q : Request) : ContinuityMemoryRecord :=
  { q.body host with contentSha256 := contentSha256 host (q.body host) }

def checkIntegrity (host : Host) (message : String) (s : Store) : Except ContinuityError Unit :=
  let errors := verifyIntegrity host s
  require errors.isEmpty (.integrity (message ++ "; ".intercalate errors))

/-- The store with a record more. -/
def Store.append (host : Host) (now : String) (r : ContinuityMemoryRecord) (s : Store) : Store :=
  let importance := if r.verificationStatus = "VERIFIED" then 1 else 1 / 10
  let entries := (indexRemember host now r.memoryId (searchable r.toBody) importance s.entries).2
  ⟨s.file ++ dumpLine style (recordJson r), some entries, entries⟩

def remember (host : Host) (q : Request) (s : Store) :
    Except ContinuityError (ContinuityMemoryRecord × Store) := do
  validate q
  let record := q.record host
  checkIntegrity host "Existing continuity memory failed integrity: " s
  match ((records s).getD []).find? (·.memoryId == record.memoryId) with
  | some existing =>
    require (existing == record) (.value "Continuity memory identifier has conflicting content.")
    return (existing, s)
  | none => return (record, s.append host (host.isoformat q.moment) record)

/-! ## Retrieving -/

/-- `[a-z]` of a pattern that ignores case: the Latin letters and the four
letters that fold to one. -/
def isQueryLetter (c : Char) : Bool :=
  ('a' ≤ c && c ≤ 'z') || ('A' ≤ c && c ≤ 'Z') || ['İ', 'ı', 'ſ', 'K'].contains c

def isQueryChar (c : Char) : Bool := isQueryLetter c || ('0' ≤ c && c ≤ '9') || c == '_'

/-- The matches of `[a-z][a-z0-9_]{2,}`, case folded. -/
def queryTokens (host : Host) (text : String) : List String :=
  ((((text.toList.splitOnP (!isQueryChar ·)).map (·.dropWhile (!isQueryLetter ·))).filter
    (3 ≤ ·.length)).map fun token => casefold host.tables (String.ofList token)).dedup

structure CandidateMemory where
  memoryId : String
  verificationStatus : String
  projectScope : String
  contentSha256 : String
  semanticOverlap : Nat
  eligible : Bool
  rejectionReasons : List String
  deriving DecidableEq

structure ContinuityRetrieval where
  query : String
  projectScope : String
  candidateMemories : List CandidateMemory
  selectedMemory : Option ContinuityMemoryRecord
  selectionReason : String
  deriving DecidableEq

def candidateOf (query : List String) (projectScope : String) (r : ContinuityMemoryRecord)
    (concepts : List String) : CandidateMemory :=
  let overlap := (query.filter (concepts.contains ·)).length
  let scopeMatch := r.projectScope == projectScope
  let verified := r.verificationStatus == "VERIFIED"
  let safe := !r.candidatePromoted && r.createdAfterValidation
  { memoryId := r.memoryId, verificationStatus := r.verificationStatus, projectScope := r.projectScope
    contentSha256 := r.contentSha256, semanticOverlap := overlap
    eligible := scopeMatch && verified && safe && decide (0 < overlap)
    rejectionReasons := errorUnless scopeMatch "WRONG_SCOPE" ++ errorUnless verified "NOT_VERIFIED" ++
      errorUnless safe "INVALID_PROVENANCE" ++ errorUnless (overlap != 0) "NO_SEMANTIC_OVERLAP" }

/-- The candidates, each read from the index, which notes the access. -/
def candidatesOf (host : Host) (now : String) (query : List String) (projectScope : String) :
    List ContinuityMemoryRecord → Entries → List (CandidateMemory × ContinuityMemoryRecord) × Entries
  | [], entries => ([], entries)
  | r :: rest, entries =>
    let (entry, entries) := indexRemember host now r.memoryId (searchable r.toBody) (1 / 2) entries
    let (candidates, entries) := candidatesOf host now query projectScope rest entries
    ((candidateOf query projectScope r entry.concepts, r) :: candidates, entries)

/-- More overlap first, then the identifier. -/
def rankLE (a b : CandidateMemory × ContinuityMemoryRecord) : Bool :=
  decide (b.1.semanticOverlap < a.1.semanticOverlap) ||
    (a.1.semanticOverlap == b.1.semanticOverlap && decide (a.2.memoryId ≤ b.2.memoryId))

def retrieve (host : Host) (now query projectScope : String) (s : Store) :
    Except ContinuityError (ContinuityRetrieval × Store) := do
  require (!isBlankText query) (.value "Continuity retrieval query must not be empty.")
  require (!isBlankText projectScope) (.value "Continuity retrieval scope must not be empty.")
  checkIntegrity host "Continuity memory integrity failed: " s
  let rs := (records s).getD []
  let (candidates, entries) :=
    candidatesOf host now (queryTokens host query) projectScope rs s.entries
  let eligible := (candidates.filter (·.1.eligible)).mergeSort rankLE
  let selected := eligible.head?.map (·.2)
  return ({
    query := query, projectScope := projectScope, candidateMemories := candidates.map (·.1)
    selectedMemory := selected
    selectionReason := if selected.isSome then
        "Highest semantic overlap among exact-scope VERIFIED memories."
      else "No exact-scope VERIFIED memory had semantic overlap." },
    if rs.isEmpty then s else ⟨s.file, some entries, entries⟩)

/-- The index read again from its file. -/
def reopen (s : Store) : Store := { s with entries := s.saved.getD [] }

end RlmGraph.Memory.Continuity
