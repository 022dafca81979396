import RlmGraph.Knowledge.Conflicts
import RlmGraph.Lib.Results
import RlmGraph.Projects.Slices
import RlmGraph.Runner.Records

/-! # Resolutions of conflicts

A resolution task names the claims that dispute a key: a pair, or the members of
a cluster that groups them by what they assert first. The executor asks a
resolver, keeps its reply as an attempt, and writes a verdict; an accepted reply
becomes an adjudicated claim. A cluster groups its claims exactly by what they
assert first (`grouped_interpretations`). Edges and times are left out; of the
files the host tells hashes. -/
namespace RlmGraph.Knowledge.Resolution
open RlmGraph.Lib RlmGraph.Lib.PyText RlmGraph.Lib.Rows RlmGraph.Lib.Results
open RlmGraph.Knowledge.Conflicts
open RlmGraph.Knowledge.Records (Assertion Evidence SourceFile ValidityEvent)
open RlmGraph.Runner.Records (Task ClusterStatus given)
open RlmGraph.Projects.Slices (forwardSlashes)

inductive ResolutionChoice where
  | left | right | value | neither
  deriving DecidableEq

inductive ClaimKind where
  | discovery | adjudicated
  deriving DecidableEq

inductive VerdictStatus where
  | resolved | unresolved
  deriving DecidableEq

structure ResolutionResult where
  selectedClaim : ResolutionChoice
  resolvedAssertion : Option Assertion
  rationale : String
  evidence : List Evidence := []
  confidence : ℚ
  unresolvedQuestions : List String := []
  selectedValue : Option String := none
  selectedClaimIds : List String := []
  corroboratedClaimIds : List String := []
  outlierClaimIds : List String := []
  deriving DecidableEq

/-- A claim, with what a resolution writes into it. -/
structure Claim extends Records.Claim where
  fingerprint : String := ""
  producer : String := ""
  kind : ClaimKind := .discovery
  resolutionTaskId : Option String := none
  conclusion : String := ""
  unresolvedQuestions : List String := []
  conflictVerdictId : Option String := none
  deriving DecidableEq

structure Interpretation where
  value : String
  normalizedValue : String
  claimIds : List String := []
  deriving DecidableEq

structure ConflictCluster where
  id : String
  projectFingerprint : String
  assertionKey : String
  claimIds : List String := []
  interpretations : List Interpretation := []
  corroboratedClaimIds : List String := []
  outlierClaimIds : List String := []
  resolutionTaskId : Option String := none
  resolvedClaimId : Option String := none
  selectedValue : Option String := none
  status : ClusterStatus := .open
  deriving DecidableEq

structure ResolutionAttempt where
  id : String
  taskId : String
  result : ResolutionResult
  evidenceClaimIds : List String
  deriving DecidableEq

structure ConflictVerdict where
  id : String
  resolutionTaskId : String
  conflictClusterId : Option String
  assertionKey : String
  status : VerdictStatus
  selectedValue : Option String
  confidence : ℚ
  rationale : String
  evidence : List Evidence
  claimIds : List String
  supportingClaimIds : List String
  contradictingClaimIds : List String
  evidenceClaimIds : List String
  resolverAttemptId : String
  unresolvedQuestions : List String
  confidenceThreshold : ℚ
  maxResolutionAttempts : Int
  deriving DecidableEq

/-! ## The store -/

/-- The tables a resolution reads and writes, with their unique columns. -/
structure GraphStore where
  tasks : List Task := []
  claims : List Claim := []
  clusters : List ConflictCluster := []
  attempts : List ResolutionAttempt := []
  verdicts : List ConflictVerdict := []
  claimIds : (claims.map (·.id)).Nodup := by decide
  /-- `ix_verdict_resolution_task`. -/
  verdictTasks : (verdicts.map (·.resolutionTaskId)).Nodup := by decide

namespace GraphStore
variable (store : GraphStore)

def getTask (taskId : String) : Option Task := store.tasks.find? (·.id == taskId)

def getClaim (claimId : String) : Option Claim := store.claims.find? (·.id == claimId)

def getConflictCluster (clusterId : String) : Option ConflictCluster :=
  store.clusters.find? (·.id == clusterId)

def resolutionAttempts (taskId : String) : List ResolutionAttempt :=
  store.attempts.filter (·.taskId == taskId)

def conflictVerdicts (taskId : String) : List ConflictVerdict :=
  store.verdicts.filter (·.resolutionTaskId == taskId)

def saveTask (task : Task) : GraphStore :=
  { store with tasks := replaceRow (·.id) task store.tasks }

/-- The row of a claim. -/
def putClaim (claim : Claim) : GraphStore :=
  { store with
    claims := replaceRow (·.id) claim store.claims
    claimIds := nodup_replaceRow store.claimIds }

def saveConflictCluster (cluster : ConflictCluster) : GraphStore :=
  { store with clusters := replaceRow (·.id) cluster store.clusters }

def saveResolutionAttempt (attempt : ResolutionAttempt) : GraphStore :=
  { store with attempts := replaceRow (·.id) attempt store.attempts }

/-- `INSERT OR REPLACE` removes the row with the id, and the one of the task. -/
def saveConflictVerdict (verdict : ConflictVerdict) : GraphStore :=
  { store with
    verdicts := replaceRow (·.resolutionTaskId) verdict
      (store.verdicts.filter fun row => row.id != verdict.id)
    verdictTasks := nodup_replaceRow
      (store.verdictTasks.sublist (List.filter_sublist.map _)) }

@[simp] theorem getTask_saveTask (task : Task) : (store.saveTask task).getTask task.id = some task :=
  find?_replaceRow_self

end GraphStore

/-! ## Clusters -/

/-- The first assertion of a claim on a key. -/
def firstOn (tables : CaseTables) (key : String) (claim : Claim) : Option Assertion :=
  claim.assertions.find? fun item => normalizeAssertion tables item.key == normalizeAssertion tables key

/-- One claim of `cluster_interpretations`. -/
def interpret (tables : CaseTables) (key : String) (groups : List Interpretation) (claim : Claim) :
    List Interpretation :=
  match firstOn tables key claim with
  | none => groups
  | some assertion =>
    let normalizedValue := normalizeAssertion tables assertion.value
    if normalizedValue ∈ groups.map (·.normalizedValue) then
      groups.map fun group =>
        if group.normalizedValue = normalizedValue ∧ claim.id ∉ group.claimIds then
          { group with claimIds := group.claimIds ++ [claim.id] }
        else group
    else groups ++ [⟨assertion.value, normalizedValue, [claim.id]⟩]

/-- The interpretations, the corroborated claims and the outliers. -/
def clusterInterpretations (tables : CaseTables) (assertionKey : String) (claims : List Claim) :
    List Interpretation × List String × List String :=
  let interpretations := claims.foldl (interpret tables assertionKey) []
  (interpretations,
    (interpretations.filter fun item => decide (1 < item.claimIds.length)).flatMap (·.claimIds),
    interpretations.filterMap fun item =>
      if item.claimIds.length = 1 then item.claimIds.head? else none)

def buildConflictCluster (tables : CaseTables) (newId projectFingerprint assertionKey : String)
    (claims : List Claim) (existing : Option ConflictCluster) : ConflictCluster :=
  let (interpretations, corroborated, outliers) := clusterInterpretations tables assertionKey claims
  let cluster := existing.getD
    { id := newId, projectFingerprint := projectFingerprint, assertionKey := assertionKey }
  { cluster with
    claimIds := interpretations.flatMap (·.claimIds)
    interpretations := interpretations
    corroboratedClaimIds := corroborated
    outlierClaimIds := outliers }

/-! ## Provenance -/

/-- The file system below a project. -/
structure ProjectFiles where
  /-- `str(Path(path).resolve())`. -/
  resolve : String → String
  /-- The hash of a file below the root, nothing for another path, or what the
  operating system raises on the way. -/
  sourceHash : String → String → Except PyError (Option String)

def supportingPaths (claim : Claim) : List String :=
  let evidencePaths := claim.evidence.map (·.path)
  let paths := if evidencePaths = [] then claim.filesExamined else evidencePaths
  distinct (paths.map forwardSlashes)

def captureSourceFiles (files : ProjectFiles) (projectRoot : String) (claim : Claim) :
    Except PyError (List SourceFile) := do
  let sources ← (supportingPaths claim).mapM fun relative => do
    let contentHash ← files.sourceHash projectRoot relative
    pure (contentHash.map (SourceFile.mk relative ·))
  pure sources.reduceOption

/-- The source files of a claim, captured if it has none. -/
def sourcesOf (files : ProjectFiles) (task : Task) (claim : Claim) : Except PyError (List SourceFile) :=
  if claim.sourceFiles = [] then captureSourceFiles files task.projectRoot claim
  else .ok claim.sourceFiles

def initializeProvenance (files : ProjectFiles) (task : Task) (claim : Claim) : Except PyError Claim := do
  let sourceFiles ← sourcesOf files task claim
  let validityReason := if sourceFiles = [] then "Ungrounded claim is restricted to its exact repository state."
    else "Every supporting source file still matches its learned content hash."
  pure { claim with
    projectRoot := if claim.projectRoot = "" then files.resolve task.projectRoot else claim.projectRoot
    sourceTaskId := (given claim.sourceTaskId).or (some task.id)
    sourceClaimIds := distinct (claim.sourceClaimIds ++ task.sourceClaimIds ++ claim.resolvedClaimIds)
    sourceFiles := sourceFiles
    validFrom := (given claim.validFrom).or (some task.projectFingerprint)
    validityStatus := .current
    validityReason := validityReason
    validityHistory := if claim.validityHistory = [] then
        [⟨.current, task.projectFingerprint, validityReason⟩]
      else claim.validityHistory
    memoryTier := if claim.memoryTier = .working then .episodic else claim.memoryTier }

/-! ## The executor -/

structure ResolutionContext where
  followUpClaims : List Claim
  previousAttempts : List ResolutionAttempt
  conflictCluster : Option ConflictCluster

structure Resolver where
  /-- `type(resolver).__name__`. -/
  name : String
  resolve : Task → Claim → Claim → ResolutionContext → Except PyError ResolutionResult
  resolveCluster : Option (Task → List Claim → ResolutionContext → Except PyError ResolutionResult)

structure ResolutionExecutor where
  resolver : Resolver
  confidenceThreshold : ℚ := 3 / 4
  maxResolutionAttempts : Int := 2

/-- The task, the claims it considers with the first two of them, and its cluster. -/
structure Dispute where
  task : Task
  claims : List Claim
  left : Claim
  right : Claim
  cluster : Option ConflictCluster

/-- The dispute that may be resolved. -/
def disputeOf (store : GraphStore) (taskId : String) : Except PyError Dispute := do
  match store.getTask taskId with
  | none => .error (.value ("Resolution task not found: " ++ taskId))
  | some task =>
    if task.kind ≠ .resolution then .error (.value ("Task is not a resolution task: " ++ taskId))
    else if task.status ≠ .open then .error (.value ("Resolution task is not open: " ++ taskId))
    else if task.conflictingClaimIds.length < 2 then
      .error (.value ("Resolution task must reference at least two claims: " ++ taskId))
    else
      let missing := PyError.value ("Resolution task references a missing claim: " ++ taskId)
      let claims ← task.conflictingClaimIds.mapM fun claimId =>
        match store.getClaim claimId with
        | none => Except.error missing
        | some claim => .ok claim
      match claims with
      | left :: right :: _ => .ok {
          task := task
          claims := claims
          left := left
          right := right
          cluster := (given task.conflictClusterId).bind store.getConflictCluster }
      | _ => .error missing

/-- The claims of the follow-ups of the task. -/
def evidenceClaims (store : GraphStore) (task : Task) : List Claim :=
  store.tasks.filterMap fun child =>
    if child.parentTaskId = some task.id then (given child.outputClaimId).bind store.getClaim else none

/-- The reply of the resolver. -/
def ask (resolver : Resolver) (dispute : Dispute) (store : GraphStore) :
    Except PyError ResolutionResult :=
  let context : ResolutionContext := {
    followUpClaims := evidenceClaims store dispute.task
    previousAttempts := store.resolutionAttempts dispute.task.id
    conflictCluster := dispute.cluster }
  if dispute.cluster.isSome then
    match resolver.resolveCluster with
    | none => .error (.type "Resolver does not support multi-claim conflict clusters")
    | some resolveCluster => resolveCluster dispute.task dispute.claims context
  else resolver.resolve dispute.task dispute.left dispute.right context

def isSuccessful (tables : CaseTables) (threshold : ℚ) (assertionKey : Option String)
    (result : ResolutionResult) (left right : Claim) : Bool :=
  if result.selectedClaim = .neither then false
  else if result.confidence < threshold ∨ result.unresolvedQuestions ≠ [] then false
  else match result.resolvedAssertion, assertionKey with
    | some resolved, some key =>
      if normalizeAssertion tables resolved.key ≠ normalizeAssertion tables key then false
      else
        let selected := if result.selectedClaim = .left then left else right
        match firstOn tables key selected with
        | none => false
        | some expected =>
          normalizeAssertion tables expected.value == normalizeAssertion tables resolved.value
    | _, _ => false

/-- `set(left) == set(right)`. -/
def sameSet (left right : List String) : Bool := left.all (· ∈ right) && right.all (· ∈ left)

def isClusterSuccessful (tables : CaseTables) (threshold : ℚ) (assertionKey : Option String)
    (result : ResolutionResult) (cluster : ConflictCluster) : Bool :=
  if result.selectedClaim ≠ .value then false
  else if result.confidence < threshold ∨ result.unresolvedQuestions ≠ [] then false
  else match result.resolvedAssertion, assertionKey, result.selectedValue with
    | some resolved, some key, some selectedValue =>
      if normalizeAssertion tables resolved.key ≠ normalizeAssertion tables key then false
      else if normalizeAssertion tables resolved.value ≠ normalizeAssertion tables selectedValue then false
      else match cluster.interpretations.find?
          (·.normalizedValue == normalizeAssertion tables selectedValue) with
        | none => false
        | some interpretation =>
          sameSet result.selectedClaimIds interpretation.claimIds &&
          sameSet result.corroboratedClaimIds cluster.corroboratedClaimIds &&
          sameSet result.outlierClaimIds cluster.outlierClaimIds
    | _, _, _ => false

/-- The test for the cluster, or for the pair. -/
def accepted (tables : CaseTables) (threshold : ℚ) (result : ResolutionResult) (dispute : Dispute) : Bool :=
  match dispute.cluster with
  | some cluster => isClusterSuccessful tables threshold dispute.task.disputedAssertionKey result cluster
  | none =>
    isSuccessful tables threshold dispute.task.disputedAssertionKey result dispute.left dispute.right

/-- The first assertion of the claim on the key has the value. -/
def supports (tables : CaseTables) (key value : String) (claim : Claim) : Bool :=
  (firstOn tables key claim).any fun assertion =>
    normalizeAssertion tables assertion.value == normalizeAssertion tables value

/-- The identifiers that are drawn by one execution. -/
structure NewIds where
  attempt : String
  verdict : String
  claim : String

/-- The bounds of `ConflictVerdict` on what the executor was built with. -/
def ResolutionExecutor.inBounds (executor : ResolutionExecutor) : Bool :=
  decide (0 ≤ executor.confidenceThreshold ∧ executor.confidenceThreshold ≤ 1 ∧
    1 ≤ executor.maxResolutionAttempts)

def buildVerdict (tables : CaseTables) (executor : ResolutionExecutor) (ids : NewIds)
    (dispute : Dispute) (result : ResolutionResult) (attempt : ResolutionAttempt)
    (successful : Bool) (store : GraphStore) : Except PyError ConflictVerdict :=
  let task := dispute.task
  let key := task.disputedAssertionKey.getD ""
  let selectedValue := if successful then result.resolvedAssertion.map (·.value) else none
  let claimIds := dispute.claims.map (·.id)
  if executor.inBounds then .ok {
    id := ((store.conflictVerdicts task.id).getLast?.map (·.id)).getD ids.verdict
    resolutionTaskId := task.id
    conflictClusterId := task.conflictClusterId
    assertionKey := key
    status := if successful then .resolved else .unresolved
    selectedValue := selectedValue
    confidence := result.confidence
    rationale := result.rationale
    evidence := result.evidence
    claimIds := claimIds
    supportingClaimIds := match selectedValue with
      | none => []
      | some value => (dispute.claims.filter (supports tables key value)).map (·.id)
    contradictingClaimIds := match selectedValue with
      | none => []
      | some value => (dispute.claims.filter (!supports tables key value ·)).map (·.id)
    evidenceClaimIds := distinct (claimIds ++ attempt.evidenceClaimIds)
    resolverAttemptId := attempt.id
    unresolvedQuestions := result.unresolvedQuestions
    confidenceThreshold := executor.confidenceThreshold
    maxResolutionAttempts := executor.maxResolutionAttempts }
  else .error (.other "ValidationError" "ConflictVerdict: confidence_threshold, max_resolution_attempts")

structure ResolutionRunResult where
  task : Task
  result : ResolutionResult
  adjudicatedClaim : Option Claim := none
  verdict : ConflictVerdict

/-- The claim of an accepted result, before its provenance. -/
def adjudicate (executor : ResolutionExecutor) (ids : NewIds) (dispute : Dispute)
    (result : ResolutionResult) (resolved : Assertion) (verdict : ConflictVerdict) : Claim where
  id := ids.claim
  fingerprint := dispute.task.fingerprint
  projectFingerprint := dispute.task.projectFingerprint
  subject := " | ".intercalate (distinct (dispute.claims.map (·.subject))) ++ " | " ++ resolved.key
  producer := executor.resolver.name
  kind := .adjudicated
  resolutionTaskId := some dispute.task.id
  resolvedClaimIds := dispute.claims.map (·.id)
  conclusion := result.rationale
  confidence := result.confidence
  evidence := result.evidence
  filesExamined := sortedSet (dispute.claims.flatMap (·.filesExamined))
  assertions := [resolved]
  conflictVerdictId := some verdict.id

/-- The task of a result that was not accepted. -/
def Dispute.recursed (dispute : Dispute) : Task :=
  { dispute.task with status := .recurse, stoppingReason := some .lowConfidence }

/-- The task that the claim resolves. -/
def Dispute.settled (dispute : Dispute) (claimId : String) : Task :=
  { dispute.task with
    status := .done, resolvedClaimId := some claimId, stoppingReason := some .completed }

/-- The cluster that the claim resolves. -/
def resolveCluster (cluster : ConflictCluster) (claimId value : String) : ConflictCluster :=
  { cluster with status := .resolved, resolvedClaimId := some claimId, selectedValue := some value }

/-- What follows an accepted result. The claim is saved after the task. -/
def settle (files : ProjectFiles) (executor : ResolutionExecutor) (ids : NewIds) (dispute : Dispute)
    (result : ResolutionResult) (resolved : Assertion) (verdict : ConflictVerdict) (store : GraphStore) :
    Except PyError ResolutionRunResult × GraphStore :=
  let task := dispute.settled ids.claim
  let store := store.saveTask task
  match initializeProvenance files task (adjudicate executor ids dispute result resolved verdict) with
  | .error e => (.error e, store)
  | .ok adjudicated =>
    let store := store.putClaim adjudicated
    let store := match dispute.cluster with
      | none => store
      | some cluster => store.saveConflictCluster (resolveCluster cluster adjudicated.id resolved.value)
    (.ok { task := task, result := result, adjudicatedClaim := some adjudicated, verdict := verdict }, store)

/-- The attempt that is kept of a reply. -/
def attemptOf (ids : NewIds) (dispute : Dispute) (result : ResolutionResult) (store : GraphStore) :
    ResolutionAttempt where
  id := ids.attempt
  taskId := dispute.task.id
  result := result
  evidenceClaimIds := (evidenceClaims store dispute.task).map (·.id)

/-- What follows the reply. -/
def conclude (tables : CaseTables) (files : ProjectFiles) (executor : ResolutionExecutor) (ids : NewIds)
    (dispute : Dispute) (result : ResolutionResult) (store : GraphStore) :
    Except PyError ResolutionRunResult × GraphStore :=
  let attempt := attemptOf ids dispute result store
  let store := store.saveResolutionAttempt attempt
  let successful := accepted tables executor.confidenceThreshold result dispute
  match buildVerdict tables executor ids dispute result attempt successful store with
  | .error e => (.error e, store)
  | .ok verdict =>
    let store := store.saveConflictVerdict verdict
    match successful, result.resolvedAssertion with
    | true, some resolved => settle files executor ids dispute result resolved verdict store
    | true, none => (.error (.other "AssertionError" ""), store)
    | false, _ =>
      let task := dispute.recursed
      (.ok { task := task, result := result, verdict := verdict }, store.saveTask task)

/-- The dispute once the attempt is counted. -/
def Dispute.opened (dispute : Dispute) : Dispute :=
  { dispute with task := { dispute.task with
      attemptCount := dispute.task.attemptCount + 1, lastError := none } }

def execute (tables : CaseTables) (files : ProjectFiles) (executor : ResolutionExecutor) (ids : NewIds)
    (taskId : String) (store : GraphStore) : Except PyError ResolutionRunResult × GraphStore :=
  match disputeOf store taskId with
  | .error e => (.error e, store)
  | .ok found =>
    let dispute := found.opened
    let store := store.saveTask dispute.task
    match ask executor.resolver dispute store with
    | .error e => (.error e, store)
    | .ok result => conclude tables files executor ids dispute result store

/-! ## What a claim asserts first -/

section
variable {tables : CaseTables} {key value : String} {claim : Claim}

/-- The normalized value that a claim asserts first. -/
def valueOn (tables : CaseTables) (key : String) (claim : Claim) : Option String :=
  (firstOn tables key claim).map (normalizeAssertion tables ·.value)

theorem supports_iff : supports tables key value claim = true ↔
    valueOn tables key claim = some (normalizeAssertion tables value) := by
  unfold supports valueOn
  cases firstOn tables key claim with
  | none => simp
  | some assertion => simp

theorem firstOn_congr {key' : String} {claim' : Claim}
    (hkey : normalizeAssertion tables key = normalizeAssertion tables key')
    (hclaim : claim.assertions = claim'.assertions) : firstOn tables key claim = firstOn tables key' claim' := by
  unfold firstOn
  rw [hkey, hclaim]

theorem valueOn_congr {key' : String} {claim' : Claim}
    (hkey : normalizeAssertion tables key = normalizeAssertion tables key')
    (hclaim : claim.assertions = claim'.assertions) : valueOn tables key claim = valueOn tables key' claim' := by
  unfold valueOn
  rw [firstOn_congr hkey hclaim]

end

/-! ## What a cluster groups -/

section
variable {tables : CaseTables} {key : String} {claims : List Claim} {groups : List Interpretation}

/-- The groups of the claims by what they assert first. -/
structure Grouped (tables : CaseTables) (key : String) (claims : List Claim)
    (groups : List Interpretation) : Prop where
  members : ∀ group ∈ groups, ∀ claimId, claimId ∈ group.claimIds ↔
    ∃ claim ∈ claims, claim.id = claimId ∧ valueOn tables key claim = some group.normalizedValue
  complete : ∀ claim ∈ claims, ∀ value, valueOn tables key claim = some value →
    value ∈ groups.map (·.normalizedValue)
  nonempty : ∀ group ∈ groups, group.claimIds ≠ []

theorem Grouped.empty : Grouped tables key [] [] where
  members _ h := by cases h
  complete _ h := by cases h
  nonempty _ h := by cases h

/-- One more claim, that asserts nothing of the key. -/
theorem Grouped.silent (h : Grouped tables key claims groups) {claim : Claim}
    (hnone : valueOn tables key claim = none) : Grouped tables key (claims ++ [claim]) groups where
  members group hgroup claimId := by
    rw [h.members group hgroup]
    constructor
    · rintro ⟨other, hother, hvalue⟩
      exact ⟨other, List.mem_append_left _ hother, hvalue⟩
    · rintro ⟨other, hother, hid, hvalue⟩
      rcases List.mem_append.mp hother with hother | hother
      · exact ⟨other, hother, hid, hvalue⟩
      · rw [List.mem_singleton.mp hother, hnone] at hvalue
        cases hvalue
  complete := by
    refine forall_mem_concat h.complete fun value hvalue => ?_
    rw [hnone] at hvalue
    cases hvalue
  nonempty := h.nonempty

theorem mem_claimIds_joined {group : Interpretation} {value claimId id : String} :
    id ∈ (if group.normalizedValue = value ∧ claimId ∉ group.claimIds then
        { group with claimIds := group.claimIds ++ [claimId] } else group).claimIds ↔
      id ∈ group.claimIds ∨ (group.normalizedValue = value ∧ id = claimId) := by
  split
  · next h => simp [h.1]
  · next h =>
    constructor
    · exact .inl
    · rintro (hid | ⟨hvalue, rfl⟩)
      · exact hid
      · by_contra hnot
        exact h ⟨hvalue, hnot⟩

/-- One more claim, whose value has a group. -/
theorem Grouped.join (h : Grouped tables key claims groups) {claim : Claim} {value : String}
    (hvalue : valueOn tables key claim = some value) (hmem : value ∈ groups.map (·.normalizedValue)) :
    Grouped tables key (claims ++ [claim]) (groups.map fun group =>
      if group.normalizedValue = value ∧ claim.id ∉ group.claimIds then
        { group with claimIds := group.claimIds ++ [claim.id] } else group) := by
  have hnormalized : ∀ group : Interpretation,
      (if group.normalizedValue = value ∧ claim.id ∉ group.claimIds then
        { group with claimIds := group.claimIds ++ [claim.id] } else group).normalizedValue =
      group.normalizedValue := by
    intro group
    split <;> rfl
  constructor
  · intro joined hjoined claimId
    obtain ⟨group, hgroup, rfl⟩ := List.mem_map.mp hjoined
    rw [mem_claimIds_joined, h.members group hgroup, hnormalized]
    constructor
    · rintro (⟨other, hother, hrest⟩ | ⟨hsame, rfl⟩)
      · exact ⟨other, List.mem_append_left _ hother, hrest⟩
      · exact ⟨claim, List.mem_append_right _ (List.mem_singleton.mpr rfl), rfl, hsame ▸ hvalue⟩
    · rintro ⟨other, hother, hid, hother'⟩
      rcases List.mem_append.mp hother with hmember | hlast
      · exact .inl ⟨other, hmember, hid, hother'⟩
      · obtain rfl := List.mem_singleton.mp hlast
        exact .inr ⟨Option.some.inj (hother'.symm.trans hvalue), hid.symm⟩
  · have hkeys : (groups.map fun group =>
        if group.normalizedValue = value ∧ claim.id ∉ group.claimIds then
          { group with claimIds := group.claimIds ++ [claim.id] } else group).map (·.normalizedValue) =
        groups.map (·.normalizedValue) := by
      rw [List.map_map]
      exact List.map_congr_left fun group _ => hnormalized group
    rw [hkeys]
    refine forall_mem_concat h.complete fun other hother => ?_
    rw [hvalue] at hother
    exact Option.some.inj hother ▸ hmem
  · intro joined hjoined
    obtain ⟨group, hgroup, rfl⟩ := List.mem_map.mp hjoined
    obtain ⟨claimId, hclaimId⟩ := List.exists_mem_of_ne_nil _ (h.nonempty group hgroup)
    exact List.ne_nil_of_mem (mem_claimIds_joined.mpr (.inl hclaimId))

/-- One more claim, with a value of its own. -/
theorem Grouped.start (h : Grouped tables key claims groups) {claim : Claim} {value text : String}
    (hvalue : valueOn tables key claim = some value) (hnew : value ∉ groups.map (·.normalizedValue)) :
    Grouped tables key (claims ++ [claim]) (groups ++ [⟨text, value, [claim.id]⟩]) where
  members := by
    refine forall_mem_concat (fun group hgroup claimId => ?_) fun claimId => ?_
    · rw [h.members group hgroup]
      constructor
      · rintro ⟨other, hother, hrest⟩
        exact ⟨other, List.mem_append_left _ hother, hrest⟩
      · rintro ⟨other, hother, hid, hother'⟩
        rcases List.mem_append.mp hother with hmember | hlast
        · exact ⟨other, hmember, hid, hother'⟩
        · obtain rfl := List.mem_singleton.mp hlast
          obtain rfl := Option.some.inj (hother'.symm.trans hvalue)
          exact absurd (List.mem_map_of_mem hgroup) hnew
    · constructor
      · intro hid
        exact ⟨claim, List.mem_append_right _ (List.mem_singleton.mpr rfl),
          (List.mem_singleton.mp hid).symm, hvalue⟩
      · rintro ⟨other, hother, rfl, hother'⟩
        rcases List.mem_append.mp hother with hmember | hlast
        · exact absurd (h.complete other hmember value hother') hnew
        · exact List.mem_singleton.mpr (congrArg (·.id) (List.mem_singleton.mp hlast))
  complete := by
    rw [List.map_append]
    refine forall_mem_concat (fun other hother v hv => ?_) fun v hv => ?_
    · exact List.mem_append_left _ (h.complete other hother v hv)
    · rw [hvalue] at hv
      exact List.mem_append_right _ (by simp [Option.some.inj hv])
  nonempty := forall_mem_concat h.nonempty (List.cons_ne_nil _ _)

theorem Grouped.interpret (h : Grouped tables key claims groups) (claim : Claim) :
    Grouped tables key (claims ++ [claim]) (interpret tables key groups claim) := by
  unfold Resolution.interpret
  split
  · next hnone => exact h.silent (by rw [valueOn, hnone, Option.map_none])
  · next assertion hfirst =>
    have hvalue : valueOn tables key claim = some (normalizeAssertion tables assertion.value) := by
      rw [valueOn, hfirst, Option.map_some]
    dsimp only
    split
    · next hmem => exact h.join hvalue hmem
    · next hnew => exact h.start hvalue hnew

theorem grouped_interpretations (tables : CaseTables) (key : String) (claims : List Claim) :
    Grouped tables key claims (clusterInterpretations tables key claims).1 := by
  show Grouped tables key claims (claims.foldl (interpret tables key) [])
  induction claims using List.reverseRecOn with
  | nil => exact .empty
  | append_singleton claims claim ih =>
    rw [List.foldl_append, List.foldl_cons, List.foldl_nil]
    exact ih.interpret claim

end

/-! ## The tasks of conflicts -/

/-- What a new task of a conflict is made of, and the identifiers that are drawn. -/
structure NewTask where
  id : String
  clusterId : String
  createdAt : Int
  taskFingerprint : String → String → String

/-- The question about a cluster. -/
def clusterQuestion (assertionKey : String) (cluster : ConflictCluster) : String :=
  let interpretations := ", ".intercalate (cluster.interpretations.map fun item =>
    let count := item.claimIds.length
    "'" ++ item.value ++ "' (" ++ toString count ++ " claim" ++ (if count ≠ 1 then "s" else "") ++ ")")
  "Resolve conflict cluster for assertion '" ++ assertionKey ++ "' across " ++
    toString cluster.claimIds.length ++ " claims: " ++ interpretations ++ "."

/-- The cluster of the key in the project state. -/
def clusterOfKey (tables : CaseTables) (projectFingerprint assertionKey : String) (store : GraphStore) :
    Option ConflictCluster :=
  store.clusters.find? fun cluster => cluster.projectFingerprint == projectFingerprint &&
    normalizeAssertion tables cluster.assertionKey == normalizeAssertion tables assertionKey

/-- The resolution task of the key in the project state. -/
def resolutionOfKey (tables : CaseTables) (projectFingerprint assertionKey : String) (store : GraphStore) :
    Option Task :=
  store.tasks.find? fun task => task.kind == .resolution &&
    task.projectFingerprint == projectFingerprint &&
    normalizeAssertion tables (task.disputedAssertionKey.getD "") == normalizeAssertion tables assertionKey

/-- `Supervisor.create_conflict_resolution_task`. -/
def createConflictResolutionTask (tables : CaseTables) (files : ProjectFiles) (new : NewTask)
    (parent : Task) (assertionKey : String) (claims : List Claim) (store : GraphStore) :
    Except PyError ((Task × ConflictCluster) × GraphStore) :=
  if claims.length < 2 then
    .error (.value "A conflict resolution task requires at least two claims.")
  else if claims.any fun claim => claim.projectFingerprint != parent.projectFingerprint then
    .error (.value "Conflict claims must match the parent project state.")
  else
    let built := buildConflictCluster tables new.clusterId parent.projectFingerprint assertionKey claims
      (clusterOfKey tables parent.projectFingerprint assertionKey store)
    let question := clusterQuestion assertionKey built
    let resolution := (resolutionOfKey tables parent.projectFingerprint assertionKey store).getD {
      id := new.id
      question := question
      fingerprint := new.taskFingerprint question parent.projectFingerprint
      projectFingerprint := parent.projectFingerprint
      projectRoot := files.resolve parent.projectRoot
      kind := .resolution
      depth := parent.depth + 1
      createdAt := new.createdAt }
    let resolution := { resolution with
      question := question
      parentTaskId := some parent.id
      conflictingClaimIds := built.claimIds
      disputedAssertionKey := some assertionKey
      conflictClusterId := some built.id
      status := .open
      stoppingReason := none }
    let cluster := { built with status := .open, resolutionTaskId := some resolution.id }
    .ok ((resolution, cluster), (store.saveConflictCluster cluster).saveTask resolution)

section
variable {tables : CaseTables} {store : GraphStore} {task : Task} {cluster : ConflictCluster}

/-- The cluster groups stored claims by the key of the task, which names its members. -/
def Clustered (tables : CaseTables) (store : GraphStore) (task : Task) (cluster : ConflictCluster) : Prop :=
  ∃ (key : String) (claims : List Claim),
    (∀ claim ∈ claims, ∃ row, store.getClaim claim.id = some row ∧ row.assertions = claim.assertions) ∧
    (task.disputedAssertionKey.map (normalizeAssertion tables) = some (normalizeAssertion tables key)) ∧
    cluster.interpretations = (clusterInterpretations tables key claims).1 ∧
    task.conflictingClaimIds = cluster.interpretations.flatMap (·.claimIds)

/-- The cluster that a conflict is given is one of its task. -/
theorem clustered_of_created {files : ProjectFiles} {new : NewTask} {parent : Task} {assertionKey : String}
    {claims : List Claim} {after : GraphStore}
    (hstored : ∀ claim ∈ claims, store.getClaim claim.id = some claim)
    (h : createConflictResolutionTask tables files new parent assertionKey claims store =
      .ok ((task, cluster), after)) :
    after.getTask task.id = some task ∧ after.getConflictCluster cluster.id = some cluster ∧
      task.conflictClusterId = some cluster.id ∧ Clustered tables after task cluster := by
  unfold createConflictResolutionTask at h
  split at h
  · cases h
  · split at h
    · cases h
    · cases h
      refine ⟨find?_replaceRow_self, find?_replaceRow_self, rfl, assertionKey, claims, ?_, rfl, rfl, rfl⟩
      exact fun claim hclaim => ⟨claim, hstored claim hclaim, rfl⟩

end

end RlmGraph.Knowledge.Resolution
