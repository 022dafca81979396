import Mathlib.Data.Rat.Floor
import RlmGraph.Lib.JsonText
import RlmGraph.Lib.PyError
import RlmGraph.Lib.PyText
import RlmGraph.Lib.Results
import RlmGraph.Memory.Reconstruction

/-! # Virtual pathways

A traversal that recurs is promoted to a pathway, whose token stands for the
claims it goes through. The token has the first eight digits of the traversal's
signature and a version, and the table replaces a row whose token is saved again:
a promotion leaves the pathways of other signatures as they are if and only if
none of them has the token (`promotion_frame_iff`). -/
namespace RlmGraph.Memory.Pathways
open RlmGraph.Lib RlmGraph.Lib.JsonText RlmGraph.Lib.PyText RlmGraph.Lib.Rows
open RlmGraph.Lib.Results
open RlmGraph.Knowledge.Records RlmGraph.Memory.Reconstruction

/-! ## Records -/

inductive PathwayLifecycle where
  | active | invalidated
  deriving DecidableEq

structure VirtualMemoryPathway where
  id : String
  token : String
  version : Int
  signature : String
  projectRoot : String
  nodeIds : List String
  edges : List GraphEdge := []
  childTokens : List String := []
  supportingTaskIds : List String := []
  supportingReconstructionIds : List String := []
  sourceClaimIds : List String := []
  sourceFiles : List SourceFile := []
  accessFrequency : Nat
  averageTokensSaved : ℚ
  confidence : ℚ
  stability : ℚ
  lifecycle : PathwayLifecycle := .active
  validityReason : String
  validFrom : String
  validUntil : Option String := none
  policyDecisionId : String
  deriving DecidableEq

structure BenchmarkRun where
  taskId : String
  reconstructionId : String
  projectRoot : String
  question : String
  /-- `active.input_tokens`. -/
  activeInputTokens : Nat
  traversalNodeIds : List String := []
  traversalEdges : List GraphEdge := []
  passed : Bool

structure PathwayPolicy where
  minimumFrequency : Nat := 3
  minimumTokensSaved : Nat := 100
  minimumConfidence : ℚ := 4 / 5
  minimumStability : ℚ := 1
  version : String := "virtual-pathway-v1"

inductive PromotionOutcome where
  | accepted | rejected
  deriving DecidableEq

structure PathwayPromotionDecision where
  id : String
  projectRoot : String
  signature : String
  outcome : PromotionOutcome
  candidateReconstructionIds : List String
  candidateTaskIds : List String
  candidateNodeIds : List String
  pathwayId : Option String := none
  token : Option String := none
  policy : PathwayPolicy
  observedFrequency : Nat
  observedAverageTokensSaved : ℚ
  observedConfidence : ℚ
  observedStability : ℚ
  contradictoryClaimIds : List String
  staleClaimIds : List String
  reason : String

structure PathwayHost where
  tables : CaseTables
  /-- `hashlib.sha256(text.encode()).hexdigest()`. -/
  sha256 : String → String
  /-- `project_fingerprint`. -/
  projectFingerprint : String → String
  /-- `assess_claim(claim, root, state)[0]`. -/
  assessClaim : Claim → String → String → Bool
  /-- `count_o200k_tokens`. -/
  countTokens : Json → Nat
  /-- `f"{value:.1f}"`. -/
  oneDecimal : ℚ → String

/-- `virtual_pathways`, in the order of its rows. -/
structure PathwayTable where
  rows : List VirtualMemoryPathway
  ids : (rows.map (·.id)).Nodup
  tokens : (rows.map (·.token)).Nodup

/-- The rows that a saved pathway leaves: those with its identifier or token give way. -/
def rowsBeside (pathway : VirtualMemoryPathway) (rows : List VirtualMemoryPathway) :
    List VirtualMemoryPathway :=
  rows.filter fun row => row.id != pathway.id && row.token != pathway.token

theorem mem_rowsBeside {pathway row : VirtualMemoryPathway} {rows : List VirtualMemoryPathway} :
    row ∈ rowsBeside pathway rows ↔
      row ∈ rows ∧ row.id ≠ pathway.id ∧ row.token ≠ pathway.token := by
  simp [rowsBeside]

/-- A key that no other row has stays one. -/
theorem nodup_saved {f : VirtualMemoryPathway → String} {pathway : VirtualMemoryPathway}
    {rows : List VirtualMemoryPathway} (h : (rows.map f).Nodup)
    (hkey : ∀ row ∈ rowsBeside pathway rows, f row ≠ f pathway) :
    ((rowsBeside pathway rows ++ [pathway]).map f).Nodup := by
  refine nodup_concat (h.sublist (List.filter_sublist.map f)) fun hmem => ?_
  obtain ⟨row, hrow, heq⟩ := List.mem_map.mp hmem
  exact hkey row hrow heq

/-- `save_pathway`. -/
def PathwayTable.savePathway (table : PathwayTable) (pathway : VirtualMemoryPathway) : PathwayTable where
  rows := rowsBeside pathway table.rows ++ [pathway]
  ids := nodup_saved table.ids fun _ hrow => (mem_rowsBeside.mp hrow).2.1
  tokens := nodup_saved table.tokens fun _ hrow => (mem_rowsBeside.mp hrow).2.2

theorem mem_savePathway {table : PathwayTable} {pathway row : VirtualMemoryPathway} :
    row ∈ (table.savePathway pathway).rows ↔
      row = pathway ∨ row ∈ table.rows ∧ row.id ≠ pathway.id ∧ row.token ≠ pathway.token := by
  rw [PathwayTable.savePathway, List.mem_append, List.mem_singleton, mem_rowsBeside, or_comm]

/-- What the registry reads and writes of the store. -/
structure PathwayStore where
  pathways : PathwayTable
  claims : List Claim
  edges : List GraphEdge
  benchmarkRuns : List BenchmarkRun
  decisions : List PathwayPromotionDecision := []

/-! ## Signatures and tokens -/

def edgeBefore (a b : GraphEdge) : Bool :=
  (compare a.source b.source |>.then (compare a.relation.value b.relation.value)
    |>.then (compare a.target b.target)).isLE

def edgeJson (edge : GraphEdge) : Json :=
  .obj [("relation", .str edge.relation.value), ("source", .str edge.source),
    ("target", .str edge.target)]

def pathwaySignature (host : PathwayHost) (nodeIds : List String) (edges : List GraphEdge) : String :=
  let payload := Json.obj [
    ("edges", .arr ((edges.insertionSort (edgeBefore · ·)).map edgeJson)),
    ("nodes", .arr ((nodeIds.insertionSort (· ≤ ·)).map .str))]
  host.sha256 (String.ofList (print ⟨true, false⟩ payload))

/-- `f"[MEM:{signature[:8].upper()}:v{version}]"`. -/
def pathwayToken (host : PathwayHost) (signature : String) (version : Int) : String :=
  "[MEM:" ++ upper host.tables (String.ofList (signature.toList.take 8)) ++ ":v" ++
    toString version ++ "]"

def priorVersions (rows : List VirtualMemoryPathway) (signature : String) : List Int :=
  (rows.filter (·.signature == signature)).map (·.version)

/-- `max(prior_versions, default=0) + 1`. -/
def nextVersion (rows : List VirtualMemoryPathway) (signature : String) : Int :=
  (priorVersions rows signature).max?.getD 0 + 1

/-! ## Validity -/

/-- The source claims of a pathway that are gone or no longer stand. -/
def staleClaimIds (host : PathwayHost) (claims : List Claim) (pathway : VirtualMemoryPathway) :
    List String :=
  let state := host.projectFingerprint pathway.projectRoot
  pathway.sourceClaimIds.filter fun id =>
    match getClaim claims id with
    | none => true
    | some claim => !host.assessClaim claim pathway.projectRoot state

/-- `synchronize_validity`: the pathway, and the table. -/
def synchronizeValidity (host : PathwayHost) (claims : List Claim) (pathway : VirtualMemoryPathway)
    (table : PathwayTable) : VirtualMemoryPathway × PathwayTable :=
  let stale := staleClaimIds host claims pathway
  if stale ≠ [] ∧ pathway.lifecycle ≠ .invalidated then
    let pathway := { pathway with
      lifecycle := .invalidated
      validUntil := some (host.projectFingerprint pathway.projectRoot)
      validityReason := "Source claims became stale: " ++ ", ".intercalate stale }
    (pathway, table.savePathway pathway)
  else (pathway, table)

/-! ## Promotion -/

/-- `[claims_by_id[node_id] for node_id in node_ids]`. -/
def traversed (claims : List Claim) : List String → Except PyError (List Claim)
  | [] => .ok []
  | id :: ids =>
    match getClaim claims id with
    | none => .error (.key id)
    | some claim => (traversed claims ids).map (claim :: ·)

/-- What a promotion is decided from. -/
structure Observation where
  candidates : List BenchmarkRun
  averageSaved : ℚ
  confidence : ℚ
  stability : ℚ
  stale : List String
  contradictory : List String
  existing : Option VirtualMemoryPathway

-- The code sums and divides doubles. What follows reads of an accepted promotion
-- its signature, version and token.
def average (values : List ℚ) : ℚ := if values = [] then 0 else values.sum / values.length

/-- The costs are those of a question with a token in place of its memory. -/
def tokensSaved (host : PathwayHost) (run : BenchmarkRun) : ℚ :=
  run.activeInputTokens - (host.countTokens (.obj [("question", .str run.question),
    ("memory_tokens", .arr [.str "[MEM:CANDIDATE]"])]) : ℚ)

/-- The outcome, with its reason. -/
def promotionOutcome (host : PathwayHost) (policy : PathwayPolicy) (o : Observation) :
    PromotionOutcome × String :=
  if o.contradictory ≠ [] then
    (.rejected, "Contradictory claims cannot be compressed into a trusted pathway.")
  else if o.stale ≠ [] then
    (.rejected, "Stale source claims cannot be compressed into a virtual pathway.")
  else match o.existing with
  | some pathway => (.rejected,
      "Active virtual pathway " ++ pathway.token ++ " already represents this traversal.")
  | none =>
    if o.candidates.length < policy.minimumFrequency then
      (.rejected, "Traversal occurred " ++ toString o.candidates.length ++
        " time(s); policy requires " ++ toString policy.minimumFrequency ++ ".")
    else if o.averageSaved < policy.minimumTokensSaved then
      (.rejected, "Average savings " ++ host.oneDecimal o.averageSaved ++
        " tokens are below policy minimum " ++ toString policy.minimumTokensSaved ++ ".")
    else if o.confidence < policy.minimumConfidence then
      (.rejected, "Pathway confidence is below promotion policy.")
    else if o.stability < policy.minimumStability then
      (.rejected, "Pathway stability is below promotion policy.")
    else (.accepted, "Traversal recurred " ++ toString o.candidates.length ++
      " times, remained stable, and saves " ++ host.oneDecimal o.averageSaved ++
        " tokens on average.")

/-- The active pathway of a signature, once its validity is synchronized, and the table. -/
def existingPathway (host : PathwayHost) (store : PathwayStore) (signature : String) :
    Option VirtualMemoryPathway × PathwayTable :=
  match store.pathways.rows.find? fun row => row.signature == signature && row.lifecycle == .active with
  | none => (none, store.pathways)
  | some pathway =>
    let (pathway, table) := synchronizeValidity host store.claims pathway store.pathways
    (if pathway.lifecycle = .active then some pathway else none, table)

/-- What the store says of a run's traversal, and its table of pathways. -/
def observation (host : PathwayHost) (store : PathwayStore) (run : BenchmarkRun) :
    Except PyError (Observation × List Claim × PathwayTable) := do
  let signature := pathwaySignature host run.traversalNodeIds run.traversalEdges
  let candidates := store.benchmarkRuns.filter fun item =>
    item.projectRoot == run.projectRoot &&
      pathwaySignature host item.traversalNodeIds item.traversalEdges == signature && item.passed
  let claims ← traversed store.claims run.traversalNodeIds
  let state := host.projectFingerprint run.projectRoot
  let valid := fun claim : Claim =>
    claim.validityStatus == .current && host.assessClaim claim run.projectRoot state
  let contradicted := (store.edges.filter (·.relation.value == "CONTRADICTS")).flatMap fun edge =>
    [edge.source, edge.target]
  if claims = [] then throw (.other "ZeroDivisionError" "division by zero")
  let (existing, table) := existingPathway host store signature
  return ({
    candidates
    averageSaved := average (candidates.map (tokensSaved host))
    confidence := average (claims.map (·.confidence))
    stability := average (claims.map fun claim => if valid claim then 1 else 0)
    stale := (claims.filter (!valid ·)).map (·.id)
    contradictory := (claims.filter fun claim => contradicted.contains claim.id).map (·.id)
    existing }, claims, table)

/-- The sources of the claims: one of each path and digest. -/
def pathwaySources (claims : List Claim) : List SourceFile :=
  (claims.flatMap (·.sourceFiles)).eraseDups

/-- `observe`, with the identifiers that the pathway and the decision draw. -/
def observe (host : PathwayHost) (policy : PathwayPolicy) (pathwayId decisionId : String)
    (run : BenchmarkRun) (store : PathwayStore) :
    Except PyError (PathwayPromotionDecision × Option VirtualMemoryPathway × PathwayStore) := do
  let signature := pathwaySignature host run.traversalNodeIds run.traversalEdges
  let (o, claims, table) ← observation host store run
  let (outcome, reason) := promotionOutcome host policy o
  let decision : PathwayPromotionDecision := {
    id := decisionId
    projectRoot := run.projectRoot
    signature, outcome
    candidateReconstructionIds := o.candidates.map (·.reconstructionId)
    candidateTaskIds := o.candidates.map (·.taskId)
    candidateNodeIds := run.traversalNodeIds
    policy
    observedFrequency := o.candidates.length
    observedAverageTokensSaved := o.averageSaved
    observedConfidence := o.confidence
    observedStability := o.stability
    contradictoryClaimIds := o.contradictory
    staleClaimIds := o.stale
    reason }
  match outcome with
  | .rejected =>
    return (decision, none,
      { store with pathways := table, decisions := store.decisions ++ [decision] })
  | .accepted =>
    let version := nextVersion table.rows signature
    let pathway : VirtualMemoryPathway := {
      id := pathwayId
      token := pathwayToken host signature version
      version, signature
      projectRoot := run.projectRoot
      nodeIds := run.traversalNodeIds
      edges := run.traversalEdges
      supportingTaskIds := decision.candidateTaskIds
      supportingReconstructionIds := decision.candidateReconstructionIds
      sourceClaimIds := run.traversalNodeIds
      sourceFiles := pathwaySources claims
      accessFrequency := o.candidates.length
      averageTokensSaved := o.averageSaved
      confidence := o.confidence
      stability := o.stability
      validityReason := "Every pathway claim and source file is current."
      validFrom := host.projectFingerprint run.projectRoot
      policyDecisionId := decisionId }
    let decision := { decision with pathwayId := some pathwayId, token := some pathway.token }
    return (decision, some pathway, { store with
      pathways := table.savePathway pathway
      decisions := store.decisions ++ [decision] })

/-! ## What a promotion leaves -/

section
variable {host : PathwayHost} {policy : PathwayPolicy} {store after : PathwayStore} {run : BenchmarkRun}
  {claims : List Claim} {table : PathwayTable} {pathway row : VirtualMemoryPathway}
  {signature pathwayId decisionId : String} {decision : PathwayPromotionDecision}

/-- Two rows with the same identifier are the same row. -/
theorem PathwayTable.eq_of_id (table : PathwayTable) {a b : VirtualMemoryPathway} (ha : a ∈ table.rows)
    (hb : b ∈ table.rows) (h : a.id = b.id) : a = b :=
  List.inj_on_of_nodup_map table.ids ha hb h

theorem PathwayTable.eq_of_token (table : PathwayTable) {a b : VirtualMemoryPathway}
    (ha : a ∈ table.rows) (hb : b ∈ table.rows) (h : a.token = b.token) : a = b :=
  List.inj_on_of_nodup_map table.tokens ha hb h

/-- What a synchronization leaves of a pathway, and of the table it is in. -/
structure Synchronized (table : PathwayTable) (pathway : VirtualMemoryPathway)
    (result : VirtualMemoryPathway × PathwayTable) : Prop where
  id : result.1.id = pathway.id
  token : result.1.token = pathway.token
  signature : result.1.signature = pathway.signature
  version : result.1.version = pathway.version
  rows : ∀ row, row ∈ result.2.rows ↔ row = result.1 ∨ row ∈ table.rows ∧ row ≠ pathway

theorem synchronized (host : PathwayHost) (claims : List Claim) (hmem : pathway ∈ table.rows) :
    Synchronized table pathway (synchronizeValidity host claims pathway table) := by
  unfold synchronizeValidity
  dsimp only
  split
  · refine ⟨rfl, rfl, rfl, rfl, fun row => ?_⟩
    rw [mem_savePathway]
    refine or_congr_right (and_congr_right fun hrow => ⟨fun h heq => h.1 (by rw [heq]), ?_⟩)
    exact fun hne => ⟨fun hid => hne (table.eq_of_id hrow hmem hid),
      fun htoken => hne (table.eq_of_token hrow hmem htoken)⟩
  · refine ⟨rfl, rfl, rfl, rfl, fun row => ?_⟩
    by_cases heq : row = pathway
    · simp [heq, hmem]
    · simp [heq]

/-- Looking for the active pathway of a signature changes no row of another, and
no version. -/
theorem existingPathway_rows (host : PathwayHost) (store : PathwayStore) (signature : String) :
    (∀ row, row.signature ≠ signature →
      (row ∈ (existingPathway host store signature).2.rows ↔ row ∈ store.pathways.rows)) ∧
    (∀ row ∈ (existingPathway host store signature).2.rows, ∃ old ∈ store.pathways.rows,
      old.id = row.id ∧ old.signature = row.signature ∧ old.version = row.version) ∧
    ∀ old ∈ store.pathways.rows, ∃ row ∈ (existingPathway host store signature).2.rows,
      row.signature = old.signature ∧ row.version = old.version := by
  unfold existingPathway
  cases hfind : store.pathways.rows.find? fun row =>
      row.signature == signature && row.lifecycle == .active with
  | none => exact ⟨fun _ _ => Iff.rfl, fun row hrow => ⟨row, hrow, rfl, rfl, rfl⟩,
      fun old hold => ⟨old, hold, rfl, rfl⟩⟩
  | some pathway =>
    have hmem := List.mem_of_find?_eq_some hfind
    have hsignature : pathway.signature = signature := by
      have hfound := List.find?_some hfind
      rw [Bool.and_eq_true] at hfound
      exact beq_iff_eq.mp hfound.1
    have h := synchronized host store.claims hmem
    refine ⟨fun row hother => ?_, fun row hrow => ?_, fun old hold => ?_⟩
    · have hne : row ≠ pathway := fun heq => hother (heq ▸ hsignature)
      have hnew : row ≠ (synchronizeValidity host store.claims pathway store.pathways).1 := fun heq =>
        hother (by rw [heq, h.signature, hsignature])
      exact (h.rows row).trans ⟨fun hrow => (hrow.resolve_left hnew).1, fun hrow => .inr ⟨hrow, hne⟩⟩
    · obtain rfl | ⟨hold, -⟩ := (h.rows row).mp hrow
      · exact ⟨pathway, hmem, h.id.symm, h.signature.symm, h.version.symm⟩
      · exact ⟨row, hold, rfl, rfl, rfl⟩
    · by_cases heq : old = pathway
      · subst heq
        exact ⟨_, (h.rows _).mpr (.inl rfl), h.signature, h.version⟩
      · exact ⟨old, (h.rows old).mpr (.inr ⟨hold, heq⟩), rfl, rfl⟩

theorem mem_priorVersions {rows : List VirtualMemoryPathway} {version : Int} :
    version ∈ priorVersions rows signature ↔
      ∃ row ∈ rows, row.signature = signature ∧ row.version = version := by
  simp [priorVersions, and_assoc]

/-- The next version depends on which versions there are. -/
theorem nextVersion_congr {rows rows' : List VirtualMemoryPathway}
    (h : ∀ version, version ∈ priorVersions rows signature ↔ version ∈ priorVersions rows' signature) :
    nextVersion rows signature = nextVersion rows' signature := by
  unfold nextVersion
  have hmax : (priorVersions rows signature).max? = (priorVersions rows' signature).max? := by
    cases hrows : (priorVersions rows' signature).max? with
    | none =>
      rw [List.max?_eq_none_iff] at hrows ⊢
      refine List.eq_nil_iff_forall_not_mem.mpr fun version hversion => ?_
      rw [h, hrows] at hversion
      cases hversion
    | some version =>
      rw [List.max?_eq_some_iff] at hrows ⊢
      exact ⟨(h _).mpr hrows.1, fun other hother => hrows.2 other ((h other).mp hother)⟩
  rw [hmax]

theorem nextVersion_existing (host : PathwayHost) (store : PathwayStore) (signature : String) :
    nextVersion (existingPathway host store signature).2.rows signature =
      nextVersion store.pathways.rows signature := by
  obtain ⟨-, hold, hnew⟩ := existingPathway_rows host store signature
  refine nextVersion_congr fun version => ?_
  rw [mem_priorVersions, mem_priorVersions]
  constructor
  · rintro ⟨row, hrow, rfl, rfl⟩
    obtain ⟨old, hmem, -, hsignature, hversion⟩ := hold row hrow
    exact ⟨old, hmem, hsignature, hversion⟩
  · rintro ⟨old, hmem, rfl, rfl⟩
    obtain ⟨row, hrow, hsignature, hversion⟩ := hnew old hmem
    exact ⟨row, hrow, hsignature, hversion⟩

theorem observation_table {o : Observation} {table : PathwayTable}
    (h : observation host store run = .ok (o, claims, table)) : table =
      (existingPathway host store
        (pathwaySignature host run.traversalNodeIds run.traversalEdges)).2 := by
  unfold observation at h
  obtain ⟨_, -, h⟩ := bind_ok h
  obtain ⟨-, h⟩ := ite_throw_bind_ok h
  cases h
  rfl

/-- An accepted promotion saves one pathway. -/
theorem observe_accepted
    (h : observe host policy pathwayId decisionId run store = .ok (decision, some pathway, after)) :
    decision.signature = pathwaySignature host run.traversalNodeIds run.traversalEdges ∧
      pathway.id = pathwayId ∧
      pathway.token = pathwayToken host decision.signature
        (nextVersion store.pathways.rows decision.signature) ∧
      pathway.signature = decision.signature ∧
      after.pathways = (existingPathway host store decision.signature).2.savePathway pathway := by
  unfold observe at h
  obtain ⟨⟨o, claims, table⟩, hobservation, h⟩ := bind_ok h
  have htable := observation_table hobservation
  dsimp only at h
  split at h
  · cases h
  · cases h
    rw [htable]
    exact ⟨rfl, rfl, by rw [nextVersion_existing], rfl, rfl⟩

/-- **A promotion replaces no pathway of another signature that has another token.** -/
theorem promotion_frame_iff (host : PathwayHost) (policy : PathwayPolicy)
    (pathwayId decisionId : String) (run : BenchmarkRun) (store after : PathwayStore)
    (decision : PathwayPromotionDecision) (pathway : VirtualMemoryPathway)
    (hfresh : ∀ row ∈ store.pathways.rows, row.id ≠ pathwayId)
    (hobserve : observe host policy pathwayId decisionId run store =
      .ok (decision, some pathway, after)) :
    (∀ row ∈ store.pathways.rows, row.signature ≠ decision.signature → row ∈ after.pathways.rows) ↔
      ∀ row ∈ store.pathways.rows, row.signature ≠ decision.signature →
        row.token ≠ pathwayToken host decision.signature
          (nextVersion store.pathways.rows decision.signature) := by
  obtain ⟨-, hid, htoken, hsignature, hafter⟩ := observe_accepted hobserve
  obtain ⟨hothers, -, -⟩ := existingPathway_rows host store decision.signature
  refine forall_congr' fun row => forall_congr' fun hrow => forall_congr' fun hother => ?_
  have hne : row ≠ pathway := fun heq => hother (heq ▸ hsignature)
  rw [hafter, mem_savePathway, hothers row hother, htoken, hid]
  exact ⟨fun h => (h.resolve_left hne).2.2, fun h => .inr ⟨hrow, hfresh row hrow, h⟩⟩

end

/-! ## Two traversals -/

/-- A digest of 64 digits. -/
def padded (digits : String) : String :=
  digits ++ String.ofList (List.replicate (64 - digits.toList.length) '0')

/-- A host whose digest of the first traversal starts with given digits. -/
def plainHost (digits : String) : PathwayHost where
  tables := ⟨id, id, id⟩
  sha256 payload := if hasPart payload "CLAIM-1" then padded digits else padded "0a1b2c3d11"
  projectFingerprint _ := "state"
  assessClaim _ _ _ := true
  countTokens _ := 20
  oneDecimal _ := "380.0"

def firstRun : BenchmarkRun where
  taskId := "TASK-1"
  reconstructionId := "RECONSTRUCTION-1"
  projectRoot := "root"
  question := "What stable rule governs this fixture?"
  activeInputTokens := 400
  traversalNodeIds := ["CLAIM-1"]
  passed := true

/-- The pathway of the second traversal. -/
def secondPathway : VirtualMemoryPathway where
  id := "PATHWAY-2"
  token := "[MEM:0A1B2C3D:v1]"
  version := 1
  signature := padded "0a1b2c3d11"
  projectRoot := "root"
  nodeIds := ["CLAIM-2"]
  accessFrequency := 3
  averageTokensSaved := 380
  confidence := 1
  stability := 1
  validityReason := "Every pathway claim and source file is current."
  validFrom := "state"
  policyDecisionId := "DECISION-2"

def plainStore : PathwayStore where
  pathways := ⟨[secondPathway], List.nodup_singleton _, List.nodup_singleton _⟩
  claims := [{ id := "CLAIM-1", confidence := 1 }]
  edges := []
  benchmarkRuns := [firstRun, firstRun, firstRun]

/-- The pathway that a call promoted. -/
def promoted (result : Except PyError
    (PathwayPromotionDecision × Option VirtualMemoryPathway × PathwayStore)) :
    Option VirtualMemoryPathway :=
  match result with
  | .ok (_, pathway, _) => pathway
  | .error _ => none

theorem exists_promoted {result : Except PyError
    (PathwayPromotionDecision × Option VirtualMemoryPathway × PathwayStore)}
    (h : (promoted result).isSome = true) :
    ∃ decision pathway after, result = .ok (decision, some pathway, after) := by
  unfold promoted at h
  split at h
  · next decision pathway after =>
    obtain ⟨pathway, rfl⟩ := Option.isSome_iff_exists.mp h
    exact ⟨decision, pathway, after, rfl⟩
  · cases h

/-- With another first digit the second pathway stays. -/
theorem promotion_frame_iff_apart : ∃ decision pathway after,
    observe (plainHost "1a1b2c3d00") {} "PATHWAY-1" "DECISION-1" firstRun plainStore =
      .ok (decision, some pathway, after) ∧ secondPathway ∈ after.pathways.rows := by
  have hsome : (promoted (observe (plainHost "1a1b2c3d00") {} "PATHWAY-1" "DECISION-1" firstRun
    plainStore)).isSome = true := by decide +kernel
  obtain ⟨decision, pathway, after, hobserve⟩ := exists_promoted hsome
  have hsignature := (observe_accepted hobserve).1
  refine ⟨decision, pathway, after, hobserve, ?_⟩
  refine (promotion_frame_iff _ {} "PATHWAY-1" "DECISION-1" firstRun plainStore after decision pathway
    (by decide) hobserve).mpr ?_ secondPathway List.mem_cons_self ?_
  · rw [hsignature]
    decide +kernel
  · rw [hsignature]
    decide +kernel

/-- With the same first digits it is replaced. -/
theorem same_digits_replaced : ¬∀ (run : BenchmarkRun) (store after : PathwayStore)
    (decision : PathwayPromotionDecision) (pathway : VirtualMemoryPathway),
    (∀ row ∈ store.pathways.rows, row.id ≠ "PATHWAY-1") →
    observe (plainHost "0a1b2c3d00") {} "PATHWAY-1" "DECISION-1" run store =
      .ok (decision, some pathway, after) →
    ∀ row ∈ store.pathways.rows, row.signature ≠ decision.signature →
      row ∈ after.pathways.rows := by
  intro h
  have hsome : (promoted (observe (plainHost "0a1b2c3d00") {} "PATHWAY-1" "DECISION-1" firstRun
    plainStore)).isSome = true := by decide +kernel
  obtain ⟨decision, pathway, after, hobserve⟩ := exists_promoted hsome
  obtain ⟨hsignature, hid, htoken, -, hafter⟩ := observe_accepted hobserve
  have hmem := h firstRun plainStore after decision pathway (by decide) hobserve secondPathway
    List.mem_cons_self (by rw [hsignature]; decide +kernel)
  rw [hafter, mem_savePathway] at hmem
  obtain heq | ⟨-, -, hother⟩ := hmem
  · rw [← heq] at hid
    revert hid
    decide
  · refine hother ?_
    rw [htoken, hsignature]
    decide +kernel

end RlmGraph.Memory.Pathways
