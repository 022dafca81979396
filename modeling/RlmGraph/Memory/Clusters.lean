import Mathlib.Data.Prod.Lex
import RlmGraph.Lib.Components
import RlmGraph.Memory.Branches

/-! # Memory clusters

`MemoryClusterer.rebuild` makes clusters of facts from the relationship
interpretations of a session, and clusters of clusters level by level. The
clusters of a level are split into those that share centroid terms
(`components_partition`). Whatever a session adds and rebuilds, a cluster
stands on clusters of the level below it, and a rebuild that follows another
makes nothing (`hierarchy_of_run`). -/
namespace RlmGraph.Memory.Clusters
open RlmGraph.Lib.PyText RlmGraph.Lib.Components Relation

/-! ## Records -/

inductive MemoryAssociationType where
  | similarTo | contrastsWith | analogousTo | supersedes
  deriving DecidableEq

def MemoryAssociationType.value : MemoryAssociationType → String
  | similarTo => "SIMILAR_TO"
  | contrastsWith => "CONTRASTS_WITH"
  | analogousTo => "ANALOGOUS_TO"
  | supersedes => "SUPERSEDES"

/-- What is given of a `MemoryRelationshipInterpretation` and read by a rebuild. -/
structure InterpretationFields where
  sourceMemoryIds : List String
  relationship : MemoryAssociationType
  sharedPattern : String
  possibleAbstraction : String
  confidence : ℚ

structure RelationshipInterpretation extends InterpretationFields where
  id : String
  sessionId : String
  createdAt : Nat

/-- What a rebuild gives of a `MemoryCluster`. -/
structure ClusterFields where
  sessionId : String
  signature : String
  label : String
  definingPattern : String
  abstractionLevel : Nat
  memberMemoryIds : List String
  supportingFactIds : List String
  relationshipInterpretationIds : List String
  centroidTerms : List String
  confidence : ℚ

/-- `MemoryCluster`; the record draws its own id and time. -/
structure MemoryCluster extends ClusterFields where
  id : String
  status : String := "CANDIDATE"
  createdAt : Nat

/-- The bounds of the pydantic model. Means of confidences are confidences. -/
def ClusterFields.accepted (fields : ClusterFields) : Bool :=
  decide (1 ≤ fields.abstractionLevel ∧ fields.abstractionLevel ≤ 4) &&
    decide (2 ≤ fields.memberMemoryIds.length ∧ fields.memberMemoryIds.length ≤ 8) &&
    decide (2 ≤ fields.supportingFactIds.length) && decide (fields.centroidTerms.length ≤ 16)

/-! ## The tables -/

/-- The rows of the session store, and how many ids and times were drawn. -/
structure SessionTables where
  interpretations : List RelationshipInterpretation := []
  clusters : List MemoryCluster := []
  drawn : Nat := 0

/-- `save_memory_cluster`: `INSERT OR IGNORE`, ids and signatures are unique. -/
def saveMemoryCluster (cluster : MemoryCluster) (clusters : List MemoryCluster) :
    List MemoryCluster :=
  if clusters.any fun row => row.id == cluster.id || row.signature == cluster.signature then
    clusters
  else clusters ++ [cluster]

/-- `ORDER BY abstraction_level, created_at, id`. -/
def MemoryCluster.place (cluster : MemoryCluster) : ℕ ×ₗ ℕ ×ₗ String :=
  toLex (cluster.abstractionLevel, toLex (cluster.createdAt, cluster.id))

/-- `memory_clusters`. -/
def memoryClusters (session : String) (tables : SessionTables) : List MemoryCluster :=
  (tables.clusters.filter (·.sessionId == session)).insertionSort fun a b => a.place ≤ b.place

/-- `memory_relationship_interpretations`, in the order of `created_at, id`. -/
def memoryRelationshipInterpretations (session : String) (tables : SessionTables) :
    List RelationshipInterpretation :=
  (tables.interpretations.filter (·.sessionId == session)).insertionSort fun a b =>
    toLex (a.createdAt, a.id) ≤ toLex (b.createdAt, b.id)

/-! ## The clusterer -/

/-- The host: its case tables, `sha256(text.encode()).hexdigest()`,
`round(value, 4)`, and the ids and the times that are drawn one after another. -/
structure ClusterHost where
  tables : CaseTables
  hexdigest : String → String
  round4 : ℚ → ℚ
  newId : Nat → String
  newId_injective : Function.Injective newId
  now : Nat → Nat
  now_strictMono : StrictMono now

structure ClusterLimits where
  maximumMembers : Nat := 8
  maximumDepth : Nat := 4

variable (host : ClusterHost) (limits : ClusterLimits) (session : String)

def ignoredTerms : List String := ["a", "an", "and", "both", "for", "in", "of", "or", "the", "to"]

/-- `_terms`. -/
def clusterTerms (text : String) : List String :=
  sortedSet (((((casefold host.tables text).toList.splitOnP
    fun c => !Branches.isWordChar c).filter (· ≠ [])).map String.ofList).filter
      (· ∉ ignoredTerms))

/-- `_signature`. -/
def clusterSignature (level : Nat) (members : List String) : String :=
  let digest := host.hexdigest
    (toString level ++ ":" ++ ":".intercalate (members.insertionSort (· ≤ ·)))
  "memory-cluster-v1:" ++ toString level ++ ":" ++ String.ofList (digest.toList.take 20)

def meanConfidence (confidences : List ℚ) : ℚ :=
  host.round4 (confidences.sum / confidences.length)

/-- What groups interpretations. -/
def groupKey (item : RelationshipInterpretation) : String :=
  casefold host.tables (item.relationship.value ++ ":" ++ item.sharedPattern)

/-- The groups, in the order of their first items. -/
def groups (interpretations : List RelationshipInterpretation) :
    List (List RelationshipInterpretation) :=
  (distinct (interpretations.map (groupKey host))).map fun key =>
    interpretations.filter (groupKey host · == key)

/-- The cluster a group is for, if it has two items and two facts. -/
def groupFields : List RelationshipInterpretation → Option ClusterFields
  | [] => none
  | first :: rest =>
    let items := first :: rest
    let factIds := (distinct (items.flatMap (·.sourceMemoryIds))).take limits.maximumMembers
    if items.length < 2 ∨ factIds.length < 2 then none
    else some {
      sessionId := session
      signature := clusterSignature host 1 factIds
      label := first.possibleAbstraction
      definingPattern := first.sharedPattern
      abstractionLevel := 1
      memberMemoryIds := factIds
      supportingFactIds := factIds
      relationshipInterpretationIds := (items.take 8).map (·.id)
      centroidTerms := (clusterTerms host first.possibleAbstraction).take 16
      confidence := meanConfidence host (items.map (·.confidence)) }

/-- `current_terms.intersection(item.centroid_terms)`. -/
def sharesTerm (current item : MemoryCluster) : Bool :=
  current.centroidTerms.any (· ∈ item.centroidTerms)

/-- `_components`. -/
def clusterComponents (clusters : List MemoryCluster) : List (List MemoryCluster) :=
  components (·.id) sharesTerm clusters

/-- The terms all members share; the first of all their terms, if they share none. -/
def sharedTerms (members : List MemoryCluster) : List String :=
  let all := members.flatMap (·.centroidTerms)
  let common := sortedSet (all.filter fun term => members.all (term ∈ ·.centroidTerms))
  if common = [] then (sortedSet all).take 8 else common

/-- The cluster a component is for, if it has two members. -/
def componentFields (level : Nat) (component : List MemoryCluster) : Option ClusterFields :=
  let members := component.take limits.maximumMembers
  if members.length < 2 then none
  else
    let memberIds := members.map (·.id)
    let terms := sharedTerms members
    some {
      sessionId := session
      signature := clusterSignature host level memberIds
      label := "higher-order pattern: " ++ ", ".intercalate (terms.take 6)
      definingPattern := "recurring concepts across lower-level memory clusters"
      abstractionLevel := level
      memberMemoryIds := memberIds
      supportingFactIds := distinct (members.flatMap (·.supportingFactIds))
      relationshipInterpretationIds :=
        (distinct (members.flatMap (·.relationshipInterpretationIds))).take 8
      centroidTerms := terms.take 16
      confidence := meanConfidence host (members.map (·.confidence)) }

theorem sharesTerm_iff {a b : MemoryCluster} :
    sharesTerm a b = true ↔ ∃ term, term ∈ a.centroidTerms ∧ term ∈ b.centroidTerms := by
  simp [sharesTerm, List.any_eq_true]

theorem sharesTerm_comm (a b : MemoryCluster) : sharesTerm a b = sharesTerm b a := by
  rw [Bool.eq_iff_iff, sharesTerm_iff, sharesTerm_iff]
  exact exists_congr fun term => and_comm

/-- **The components are the connected components**: they hold every cluster
once, and two clusters are in one of them if and only if a chain of the
clusters whose neighbors share a term joins them. -/
theorem components_partition (clusters : List MemoryCluster)
    (hids : (clusters.map (·.id)).Nodup) :
    (clusterComponents clusters).flatten.Perm clusters ∧
      (∀ part ∈ clusterComponents clusters, part ≠ []) ∧
      ∀ a ∈ clusters, ∀ b, (∃ part ∈ clusterComponents clusters, a ∈ part ∧ b ∈ part) ↔
        ReflTransGen (fun x y => y ∈ clusters ∧
          ∃ term, term ∈ x.centroidTerms ∧ term ∈ y.centroidTerms) a b := by
  refine ⟨perm_components sharesTerm hids, fun part => ne_nil_of_mem_components hids, ?_⟩
  intro a ha b
  have hsame := same_component_iff (b := b) hids sharesTerm_comm ha
  simpa only [Lib.Components.Joined, sharesTerm_iff, clusterComponents] using hsame

/-- A cluster of the level with an id and terms. -/
def sampleCluster (id : String) (terms : List String) : MemoryCluster where
  sessionId := "SESSION-1"
  signature := id
  label := id
  definingPattern := "pattern"
  abstractionLevel := 1
  memberMemoryIds := ["FACT-1", "FACT-2"]
  supportingFactIds := ["FACT-1", "FACT-2"]
  relationshipInterpretationIds := []
  centroidTerms := terms
  confidence := 1
  id := id
  createdAt := 0

/-- The first two are joined by the third. -/
def sampleClusters : List MemoryCluster :=
  [sampleCluster "CLUSTER-1" ["tea"], sampleCluster "CLUSTER-2" ["cup"],
    sampleCluster "CLUSTER-3" ["tea", "cup"], sampleCluster "CLUSTER-4" []]

theorem components_partition_four :
    (sampleClusters.map (·.id)).Nodup ∧
      (clusterComponents sampleClusters).flatten.Perm sampleClusters ∧
      (∀ part ∈ clusterComponents sampleClusters, part ≠ []) ∧
      ∀ a ∈ sampleClusters, ∀ b,
        (∃ part ∈ clusterComponents sampleClusters, a ∈ part ∧ b ∈ part) ↔
          ReflTransGen (fun x y => y ∈ sampleClusters ∧
            ∃ term, term ∈ x.centroidTerms ∧ term ∈ y.centroidTerms) a b :=
  ⟨by decide, components_partition sampleClusters (by decide)⟩

/-! ## A rebuild -/

/-- What the loops of `rebuild` share; `raised` once a cluster was refused. -/
structure Rebuilding where
  tables : SessionTables
  existing : List MemoryCluster
  signatures : List String
  created : List MemoryCluster := []
  raised : Bool := false

/-- A cluster is written. -/
def write (s : Rebuilding) (fields : ClusterFields) : Rebuilding :=
  let cluster : MemoryCluster := { fields with
    id := host.newId s.tables.drawn
    createdAt := host.now s.tables.drawn }
  { s with
    tables := { s.tables with
      clusters := saveMemoryCluster cluster s.tables.clusters
      drawn := s.tables.drawn + 1 }
    existing := s.existing ++ [cluster]
    signatures := s.signatures ++ [fields.signature]
    created := s.created ++ [cluster] }

/-- A cluster is written, unless its signature is known. -/
def offer (s : Rebuilding) (fields : ClusterFields) : Rebuilding :=
  if s.raised = true ∨ fields.signature ∈ s.signatures then s
  else if fields.accepted then write host s fields
  else { s with raised := true }

/-- The clusters of facts. -/
def offerGroups (s : Rebuilding) : Rebuilding :=
  ((groups host (memoryRelationshipInterpretations session s.tables)).filterMap
    (groupFields host limits session)).foldl (offer host) s

/-- The clusters of one level, from the components of the level below. -/
def offerLevel (level : Nat) (s : Rebuilding) : Rebuilding :=
  let prior := s.existing.filter (·.abstractionLevel == level - 1)
  ((clusterComponents prior).filterMap (componentFields host limits session level)).foldl
    (offer host) s

/-- So many levels, from one on, until a level makes no cluster. -/
def offerLevels : Nat → Nat → Rebuilding → Rebuilding
  | 0, _, s => s
  | levels + 1, level, s =>
    let next := offerLevel host limits session level s
    if next.raised = true ∨ next.created.length = s.created.length then next
    else offerLevels levels (level + 1) next

def startRebuild (tables : SessionTables) : Rebuilding :=
  let existing := memoryClusters session tables
  { tables, existing, signatures := existing.map (·.signature) }

/-- `rebuild`: the levels are `range(2, maximum_depth + 1)`. -/
def rebuild (tables : SessionTables) : Rebuilding :=
  let s := offerGroups host limits session (startRebuild session tables)
  if s.raised then s else offerLevels host limits session (limits.maximumDepth - 1) 2 s

/-! ## Runs of a session -/

inductive SessionEvent where
  | interpreted (fields : InterpretationFields)
  | rebuilt

def sessionStep (tables : SessionTables) : SessionEvent → SessionTables
  | .interpreted fields =>
    { tables with
      interpretations := tables.interpretations ++ [{ fields with
        id := host.newId tables.drawn
        sessionId := session
        createdAt := host.now tables.drawn }]
      drawn := tables.drawn + 1 }
  | .rebuilt => (rebuild host limits session tables).tables

def sessionRun (events : List SessionEvent) : SessionTables :=
  events.foldl (sessionStep host limits session) {}

/-! ## What is stored -/

/-- A cluster over clusters: it has members enough and not too many, each a
cluster of its session one level down, and it is supported by what they are
supported by. -/
structure Fits (clusters : List MemoryCluster) (fields : ClusterFields) : Prop where
  enough : 2 ≤ fields.memberMemoryIds.length
  bounded : fields.memberMemoryIds.length ≤ limits.maximumMembers
  nodup : fields.memberMemoryIds.Nodup
  below : ∀ id ∈ fields.memberMemoryIds, ∃ child ∈ clusters, child.id = id ∧
    child.sessionId = fields.sessionId ∧ child.abstractionLevel + 1 = fields.abstractionLevel
  supported : ∀ fact, fact ∈ fields.supportingFactIds ↔
    ∃ child ∈ clusters, child.id ∈ fields.memberMemoryIds ∧ fact ∈ child.supportingFactIds

/-- The clusters of a session. -/
structure Hierarchy (clusters : List MemoryCluster) : Prop where
  session : ∀ cluster ∈ clusters, cluster.sessionId = session
  fits : ∀ cluster ∈ clusters, 2 ≤ cluster.abstractionLevel →
    Fits limits clusters cluster.toClusterFields
  depth : ∀ cluster ∈ clusters, cluster.abstractionLevel ≤ limits.maximumDepth
  signatures : (clusters.map (·.signature)).Nodup

/-- And each was written with an id and a time of its own, in order. -/
structure Stored (tables : SessionTables) : Prop extends
    Hierarchy limits session tables.clusters where
  stamped : ∀ cluster ∈ tables.clusters, ∃ n < tables.drawn,
    cluster.id = host.newId n ∧ cluster.createdAt = host.now n
  ordered : tables.clusters.Pairwise (·.createdAt < ·.createdAt)

section
variable {host limits session} {tables before : SessionTables} {fields : ClusterFields}

theorem Stored.ids (h : Stored host limits session tables) :
    (tables.clusters.map (·.id)).Nodup := by
  refine List.pairwise_map.mpr (h.ordered.imp_of_mem fun {a b} ha hb hlt hid => ?_)
  obtain ⟨m, -, hidA, htimeA⟩ := h.stamped a ha
  obtain ⟨n, -, hidB, htimeB⟩ := h.stamped b hb
  have hsame : m = n := host.newId_injective (by rw [← hidA, ← hidB, hid])
  rw [htimeA, htimeB, hsame] at hlt
  exact Nat.lt_irrefl _ hlt

/-- Of one level, the clusters are read in the order they were written. -/
theorem Stored.filter_memoryClusters (h : Stored host limits session tables) (level : Nat) :
    (memoryClusters session tables).filter (·.abstractionLevel == level) =
      tables.clusters.filter (·.abstractionLevel == level) := by
  have hsession : tables.clusters.filter (·.sessionId == session) = tables.clusters :=
    List.filter_eq_self.mpr fun cluster hmem => beq_iff_eq.mpr (h.session cluster hmem)
  have hperm : ((memoryClusters session tables).filter (·.abstractionLevel == level)).Perm
      (tables.clusters.filter (·.abstractionLevel == level)) := by
    unfold memoryClusters
    rw [hsession]
    exact (List.perm_insertionSort _ _).filter _
  have hread : ((memoryClusters session tables).filter (·.abstractionLevel == level)).Pairwise
      fun a b => a.place ≤ b.place :=
    (List.pairwise_insertionSort (fun a b : MemoryCluster => a.place ≤ b.place) _).filter _
  have hwritten : (tables.clusters.filter (·.abstractionLevel == level)).Pairwise
      fun a b => a.place ≤ b.place := by
    refine (h.ordered.filter _).imp_of_mem fun {a b} ha hb hlt => ?_
    have hlevelA : a.abstractionLevel = level := by simpa using (List.mem_filter.mp ha).2
    have hlevelB : b.abstractionLevel = level := by simpa using (List.mem_filter.mp hb).2
    rw [MemoryCluster.place, MemoryCluster.place, hlevelA, hlevelB]
    exact Prod.Lex.toLex_le_toLex.mpr (.inr ⟨rfl, Prod.Lex.toLex_le_toLex.mpr (.inl hlt)⟩)
  refine hperm.eq_of_pairwise ?_ hread hwritten
  intro a b ha hb hab hba
  have hid : a.id = b.id := congrArg (fun place => (ofLex (ofLex place).2).2) (le_antisymm hab hba)
  exact List.inj_on_of_nodup_map h.ids
    (List.mem_of_mem_filter (hperm.mem_iff.mp ha)) (List.mem_of_mem_filter hb) hid

end

/-! ## What a rebuild keeps -/

/-- What the session may write beside its clusters. -/
structure Offerable (clusters : List MemoryCluster) (fields : ClusterFields) : Prop where
  session : fields.sessionId = session
  fits : 2 ≤ fields.abstractionLevel → Fits limits clusters fields
  depth : fields.abstractionLevel ≤ limits.maximumDepth

/-- A rebuild under way: what it knows is what is stored. -/
structure Building (before : SessionTables) (s : Rebuilding) : Prop where
  stored : Stored host limits session s.tables
  known : ∀ signature, signature ∈ s.signatures ↔
    signature ∈ s.tables.clusters.map (·.signature)
  levels : ∀ level, s.existing.filter (·.abstractionLevel == level) =
    s.tables.clusters.filter (·.abstractionLevel == level)
  unchanged : s.created = [] → s.tables = before

section
variable {host limits session} {tables before : SessionTables} {fields : ClusterFields}
  {s : Rebuilding} {cluster : MemoryCluster} {clusters : List MemoryCluster}

theorem Stored.fresh (h : Stored host limits session tables) :
    ∀ cluster ∈ tables.clusters, cluster.id ≠ host.newId tables.drawn := by
  intro cluster hmem hid
  obtain ⟨n, hn, hstamp, -⟩ := h.stamped cluster hmem
  exact Nat.ne_of_lt hn (host.newId_injective (hstamp.symm.trans hid))

/-- A new cluster is no member of those that were there. -/
theorem Fits.append (h : Fits limits clusters fields)
    (hnew : ∀ child ∈ clusters, child.id ≠ cluster.id) :
    Fits limits (clusters ++ [cluster]) fields where
  enough := h.enough
  bounded := h.bounded
  nodup := h.nodup
  below := by
    intro id hid
    obtain ⟨child, hmem, hchild⟩ := h.below id hid
    exact ⟨child, List.mem_append_left _ hmem, hchild⟩
  supported := by
    intro fact
    rw [h.supported fact]
    constructor
    · rintro ⟨child, hmem, hchild⟩
      exact ⟨child, List.mem_append_left _ hmem, hchild⟩
    · rintro ⟨child, hmem, hid, hfact⟩
      refine ⟨child, (List.mem_append.mp hmem).resolve_right fun hlast => ?_, hid, hfact⟩
      obtain ⟨known, hknown, heq, -⟩ := h.below child.id hid
      exact hnew known hknown (heq.trans (congrArg (·.id) (List.mem_singleton.mp hlast)))

theorem Offerable.append (h : Offerable limits session clusters fields)
    (hnew : ∀ child ∈ clusters, child.id ≠ cluster.id) :
    Offerable limits session (clusters ++ [cluster]) fields :=
  ⟨h.session, fun hlevel => (h.fits hlevel).append hnew, h.depth⟩

/-- A cluster with an id and a signature of its own is stored. -/
theorem saveMemoryCluster_new (hid : ∀ row ∈ clusters, row.id ≠ cluster.id)
    (hsig : cluster.signature ∉ clusters.map (·.signature)) :
    saveMemoryCluster cluster clusters = clusters ++ [cluster] := by
  refine if_neg fun hany => ?_
  obtain ⟨row, hrow, hsame⟩ := List.any_eq_true.mp hany
  rcases Bool.or_eq_true_iff.mp hsame with h | h
  · exact hid row hrow (beq_iff_eq.mp h)
  · exact hsig (List.mem_map.mpr ⟨row, hrow, beq_iff_eq.mp h⟩)

/-- The cluster that is written next. -/
def Rebuilding.next (host : ClusterHost) (s : Rebuilding) (fields : ClusterFields) :
    MemoryCluster :=
  { fields with id := host.newId s.tables.drawn, createdAt := host.now s.tables.drawn }

theorem Building.write_clusters (h : Building host limits session before s)
    (hnew : fields.signature ∉ s.signatures) :
    (write host s fields).tables.clusters = s.tables.clusters ++ [s.next host fields] :=
  saveMemoryCluster_new h.stored.fresh fun hmem => hnew ((h.known _).mpr hmem)

theorem Stored.concat (cluster : MemoryCluster) (h : Stored host limits session tables)
    (hfields : Offerable limits session tables.clusters fields)
    (hsig : fields.signature ∉ tables.clusters.map (·.signature))
    (hcluster : cluster.toClusterFields = fields) (hid : cluster.id = host.newId tables.drawn)
    (htime : cluster.createdAt = host.now tables.drawn) :
    Stored host limits session
      { tables with clusters := tables.clusters ++ [cluster], drawn := tables.drawn + 1 } where
  session := Lib.Rows.forall_mem_concat h.session (hcluster ▸ hfields.session)
  fits := by
    have hnew : ∀ child ∈ tables.clusters, child.id ≠ cluster.id := hid ▸ h.fresh
    refine Lib.Rows.forall_mem_concat (fun row hrow hlevel => (h.fits row hrow hlevel).append hnew) ?_
    intro hlevel
    rw [hcluster] at hlevel ⊢
    exact (hfields.fits hlevel).append hnew
  depth := Lib.Rows.forall_mem_concat h.depth (hcluster ▸ hfields.depth)
  signatures := Lib.Rows.nodup_concat h.signatures (by rwa [hcluster])
  stamped := by
    refine Lib.Rows.forall_mem_concat (fun row hrow => ?_) ⟨tables.drawn, Nat.lt_succ_self _, hid, htime⟩
    obtain ⟨n, hn, hstamp⟩ := h.stamped row hrow
    exact ⟨n, Nat.lt_succ_of_lt hn, hstamp⟩
  ordered := by
    refine List.pairwise_append.mpr ⟨h.ordered, List.pairwise_singleton _ _, ?_⟩
    intro row hrow last hlast
    obtain ⟨n, hn, -, hstamp⟩ := h.stamped row hrow
    rw [List.mem_singleton.mp hlast, hstamp, htime]
    exact host.now_strictMono hn

theorem Building.write (h : Building host limits session before s)
    (hfields : Offerable limits session s.tables.clusters fields)
    (hnew : fields.signature ∉ s.signatures) :
    Building host limits session before (write host s fields) where
  stored := by
    have hsig : fields.signature ∉ s.tables.clusters.map (·.signature) :=
      fun hmem => hnew ((h.known _).mpr hmem)
    have hstored := h.stored.concat (s.next host fields) hfields hsig rfl rfl rfl
    rw [← h.write_clusters hnew] at hstored
    exact hstored
  known := by
    intro signature
    have hknown := h.known signature
    rw [h.write_clusters hnew, List.map_append, List.mem_append, ← hknown]
    exact List.mem_append
  levels := by
    intro level
    rw [h.write_clusters hnew, List.filter_append, ← h.levels level]
    exact List.filter_append ..
  unchanged := fun hnone => absurd hnone (List.append_ne_nil_of_right_ne_nil _ (List.cons_ne_nil _ _))

/-- One cluster is offered. -/
theorem Building.offer (h : Building host limits session before s)
    (hfields : Offerable limits session s.tables.clusters fields) :
    Building host limits session before (offer host s fields) := by
  unfold Clusters.offer
  split
  · exact h
  · rename_i hnew
    split
    · exact h.write hfields (not_or.mp hnew).2
    · exact ⟨h.stored, h.known, h.levels, h.unchanged⟩

/-- Clusters of a level or above it were added, and nothing was forgotten. -/
structure Grown (level : Nat) (s t : Rebuilding) : Prop where
  more : ∃ more, t.tables.clusters = s.tables.clusters ++ more ∧
    ∀ cluster ∈ more, level ≤ cluster.abstractionLevel
  known : s.signatures ⊆ t.signatures
  interpretations : t.tables.interpretations = s.tables.interpretations

theorem Grown.refl (level : Nat) (s : Rebuilding) : Grown level s s :=
  ⟨⟨[], (List.append_nil _).symm, List.forall_mem_nil _⟩, fun _ => id, rfl⟩

theorem Grown.trans {level : Nat} {s t u : Rebuilding} (h : Grown level s t)
    (h' : Grown level t u) : Grown level s u := by
  obtain ⟨more, hmore, hlevel⟩ := h.more
  obtain ⟨more', hmore', hlevel'⟩ := h'.more
  refine ⟨⟨more ++ more', ?_, List.forall_mem_append.mpr ⟨hlevel, hlevel'⟩⟩,
    fun _ hmem => h'.known (h.known hmem), h'.interpretations.trans h.interpretations⟩
  rw [hmore', hmore, List.append_assoc]

theorem Grown.mono {level above : Nat} {s t : Rebuilding} (h : Grown above s t)
    (hle : level ≤ above) : Grown level s t := by
  obtain ⟨more, hmore, hlevel⟩ := h.more
  exact ⟨⟨more, hmore, fun cluster hmem => Nat.le_trans hle (hlevel cluster hmem)⟩, h.known,
    h.interpretations⟩

/-- Below the level nothing was added. -/
theorem Grown.filter {level : Nat} {s t : Rebuilding} (h : Grown (level + 1) s t) :
    t.tables.clusters.filter (·.abstractionLevel == level) =
      s.tables.clusters.filter (·.abstractionLevel == level) := by
  obtain ⟨more, hmore, hlevel⟩ := h.more
  have hnone : more.filter (·.abstractionLevel == level) = [] := by
    refine List.filter_eq_nil_iff.mpr fun cluster hmem heq => ?_
    exact Nat.not_succ_le_self level (beq_iff_eq.mp heq ▸ hlevel cluster hmem)
  rw [hmore, List.filter_append, hnone, List.append_nil]

theorem Building.grown_offer (h : Building host limits session before s) :
    Grown fields.abstractionLevel s (Clusters.offer host s fields) := by
  unfold Clusters.offer
  split
  · exact .refl _ _
  · rename_i hnew
    split
    · exact ⟨⟨[s.next host fields], h.write_clusters (not_or.mp hnew).2,
        List.forall_mem_singleton.mpr (Nat.le_refl _)⟩, List.subset_append_left _ _, rfl⟩
    · exact ⟨⟨[], (List.append_nil _).symm, List.forall_mem_nil _⟩, fun _ => id, rfl⟩

/-- What may be written may be written after others were. -/
theorem Building.offerable_offer {other : ClusterFields}
    (h : Building host limits session before s)
    (hother : Offerable limits session s.tables.clusters other) :
    Offerable limits session (Clusters.offer host s fields).tables.clusters other := by
  unfold Clusters.offer
  split
  · exact hother
  · rename_i hnew
    split
    · rw [h.write_clusters (not_or.mp hnew).2]
      exact hother.append h.stored.fresh
    · exact hother

/-- All clusters of a level are offered. -/
theorem Building.offers {level : Nat} {offered : List ClusterFields}
    (h : Building host limits session before s)
    (hoffered : ∀ fields ∈ offered, Offerable limits session s.tables.clusters fields)
    (hlevel : ∀ fields ∈ offered, level ≤ fields.abstractionLevel) :
    Building host limits session before (offered.foldl (Clusters.offer host) s) ∧
      Grown level s (offered.foldl (Clusters.offer host) s) := by
  induction offered generalizing s with
  | nil => exact ⟨h, .refl _ _⟩
  | cons first offered ih =>
    obtain ⟨hfirst, hrest⟩ := List.forall_mem_cons.mp hoffered
    obtain ⟨hle, hlevel⟩ := List.forall_mem_cons.mp hlevel
    have hlater := ih (h.offer hfirst) (fun fields hmem => h.offerable_offer (hrest fields hmem)) hlevel
    exact ⟨hlater.1, (h.grown_offer.mono hle).trans hlater.2⟩

/-! ## What is offered -/

/-- A group is for a cluster of facts. -/
theorem offerable_group (hdepth : 1 ≤ limits.maximumDepth)
    {items : List RelationshipInterpretation}
    (hfields : groupFields host limits session items = some fields) :
    Offerable limits session clusters fields ∧ fields.abstractionLevel = 1 := by
  cases items with
  | nil => cases hfields
  | cons first rest =>
    dsimp only [groupFields] at hfields
    split at hfields
    · cases hfields
    · obtain rfl := Option.some.inj hfields
      exact ⟨⟨rfl, fun hlevel => absurd hlevel (Nat.not_succ_le_self 1), hdepth⟩, rfl⟩

/-- Rows of a table with ids of their own that have one id are one. -/
theorem Stored.eq_of_id (h : Stored host limits session tables) {a b : MemoryCluster}
    (ha : a ∈ tables.clusters) (hb : b ∈ tables.clusters) (hid : a.id = b.id) : a = b :=
  List.inj_on_of_nodup_map h.ids ha hb hid

/-- Clusters of the level below are a cluster's members. -/
theorem Stored.fits_members (h : Stored host limits session tables) {level : Nat}
    {members : List MemoryCluster} (hstored : ∀ member ∈ members, member ∈ tables.clusters)
    (hlevel : ∀ member ∈ members, member.abstractionLevel + 1 = level)
    (hnodup : members.Nodup) (henough : 2 ≤ members.length)
    (hbounded : members.length ≤ limits.maximumMembers)
    (hsession : fields.sessionId = session) (habove : fields.abstractionLevel = level)
    (hids : fields.memberMemoryIds = members.map (·.id))
    (hfacts : fields.supportingFactIds = distinct (members.flatMap (·.supportingFactIds))) :
    Fits limits tables.clusters fields where
  enough := by rw [hids, List.length_map]; exact henough
  bounded := by rw [hids, List.length_map]; exact hbounded
  nodup := by
    rw [hids]
    exact List.Nodup.map_on (fun a ha b hb hid => h.eq_of_id (hstored a ha) (hstored b hb) hid) hnodup
  below := by
    intro id hid
    rw [hids] at hid
    obtain ⟨member, hmember, rfl⟩ := List.mem_map.mp hid
    refine ⟨member, hstored member hmember, rfl, ?_, ?_⟩
    · rw [h.session member (hstored member hmember), hsession]
    · rw [hlevel member hmember, habove]
  supported := by
    intro fact
    rw [hfacts, mem_distinct, List.mem_flatMap, hids]
    constructor
    · rintro ⟨member, hmember, hfact⟩
      exact ⟨member, hstored member hmember, List.mem_map_of_mem hmember, hfact⟩
    · rintro ⟨child, hchild, hid, hfact⟩
      obtain ⟨member, hmember, hsame⟩ := List.mem_map.mp hid
      have heq := h.eq_of_id (hstored member hmember) hchild hsame
      exact ⟨child, heq ▸ hmember, hfact⟩

/-- A component of the clusters of a level is for a cluster of the next. -/
theorem Building.offerable_component (h : Building host limits session before s) {level : Nat}
    (hlevel : level + 1 ≤ limits.maximumDepth) {component : List MemoryCluster}
    (hcomponent : component ∈
      clusterComponents (s.existing.filter (·.abstractionLevel == level)))
    (hfields : componentFields host limits session (level + 1) component = some fields) :
    Offerable limits session s.tables.clusters fields ∧ fields.abstractionLevel = level + 1 := by
  rw [h.levels level] at hcomponent
  have hpriorIds : ((s.tables.clusters.filter (·.abstractionLevel == level)).map (·.id)).Nodup :=
    h.stored.ids.sublist (List.filter_sublist.map _)
  have hperm := perm_components sharesTerm hpriorIds
  have hnodup : component.Nodup :=
    (List.nodup_flatten.mp (hperm.nodup_iff.mpr (List.Nodup.of_map _ hpriorIds))).1 component
      hcomponent
  have hprior : ∀ member ∈ component.take limits.maximumMembers,
      member ∈ s.tables.clusters ∧ member.abstractionLevel = level := by
    intro member hmember
    have hmem := hperm.mem_iff.mp (List.mem_flatten_of_mem hcomponent (List.mem_of_mem_take hmember))
    simpa using List.mem_filter.mp hmem
  dsimp only [componentFields] at hfields
  split at hfields
  · cases hfields
  · rename_i henough
    obtain rfl := Option.some.inj hfields
    refine ⟨⟨rfl, fun _ => ?_, hlevel⟩, rfl⟩
    exact h.stored.fits_members (fun member hmember => (hprior member hmember).1)
      (fun member hmember => congrArg (· + 1) (hprior member hmember).2)
      (hnodup.sublist (List.take_sublist _ _)) (Nat.le_of_not_lt henough)
      (List.length_take_le _ _) rfl rfl rfl rfl

/-! ## The parts of a rebuild -/

theorem Building.offerGroups (h : Building host limits session before s)
    (hdepth : 1 ≤ limits.maximumDepth) :
    Building host limits session before (offerGroups host limits session s) ∧
      Grown 1 s (offerGroups host limits session s) := by
  have hgroup : ∀ fields ∈ (groups host (memoryRelationshipInterpretations session s.tables)).filterMap
      (groupFields host limits session),
      Offerable limits session s.tables.clusters fields ∧ fields.abstractionLevel = 1 := by
    intro fields hmem
    obtain ⟨items, -, hfields⟩ := List.mem_filterMap.mp hmem
    exact offerable_group hdepth hfields
  exact h.offers (fun fields hmem => (hgroup fields hmem).1)
    fun fields hmem => Nat.le_of_eq (hgroup fields hmem).2.symm

theorem Building.offerLevel (h : Building host limits session before s) (level : Nat)
    (hlevel : level + 1 ≤ limits.maximumDepth) :
    Building host limits session before (offerLevel host limits session (level + 1) s) ∧
      Grown (level + 1) s (offerLevel host limits session (level + 1) s) := by
  have hcomponent : ∀ fields ∈ (clusterComponents (s.existing.filter
      (·.abstractionLevel == level + 1 - 1))).filterMap (componentFields host limits session (level + 1)),
      Offerable limits session s.tables.clusters fields ∧ fields.abstractionLevel = level + 1 := by
    intro fields hmem
    obtain ⟨component, hcomponent, hfields⟩ := List.mem_filterMap.mp hmem
    exact h.offerable_component hlevel hcomponent hfields
  exact h.offers (fun fields hmem => (hcomponent fields hmem).1)
    fun fields hmem => Nat.le_of_eq (hcomponent fields hmem).2.symm

/-- One level after another. -/
theorem Building.offerLevels (levels level : Nat) (h : Building host limits session before s)
    (hlevels : level + levels ≤ limits.maximumDepth) :
    Building host limits session before (offerLevels host limits session levels (level + 1) s) ∧
      Grown (level + 1) s (offerLevels host limits session levels (level + 1) s) := by
  induction levels generalizing s level with
  | zero => exact ⟨h, .refl _ _⟩
  | succ levels ih =>
    obtain ⟨hnext, hgrown⟩ := h.offerLevel level (by omega)
    dsimp only [Clusters.offerLevels]
    split
    · exact ⟨hnext, hgrown⟩
    · obtain ⟨hlast, hrest⟩ := ih (level + 1) hnext (by omega)
      exact ⟨hlast, hgrown.trans (hrest.mono (Nat.le_succ _))⟩

theorem Stored.start (h : Stored host limits session tables) :
    Building host limits session tables (startRebuild session tables) where
  stored := h
  known := by
    intro signature
    have hperm : (memoryClusters session tables).Perm tables.clusters := by
      have hsession : tables.clusters.filter (·.sessionId == session) = tables.clusters :=
        List.filter_eq_self.mpr fun cluster hmem => beq_iff_eq.mpr (h.session cluster hmem)
      unfold memoryClusters
      rw [hsession]
      exact List.perm_insertionSort _ _
    exact (hperm.map _).mem_iff
  levels := h.filter_memoryClusters
  unchanged := fun _ => rfl

theorem Stored.rebuild (h : Stored host limits session tables)
    (hdepth : 1 ≤ limits.maximumDepth) :
    Building host limits session tables (rebuild host limits session tables) := by
  have hgroups := (h.start.offerGroups hdepth).1
  dsimp only [Clusters.rebuild]
  split
  · exact hgroups
  · exact (hgroups.offerLevels _ 1 (by omega)).1

/-! ## A rebuild after a rebuild -/

theorem foldl_raised {offered : List ClusterFields} (h : s.raised = true) :
    offered.foldl (Clusters.offer host) s = s := by
  induction offered with
  | nil => rfl
  | cons first offered ih => rw [List.foldl_cons, Clusters.offer, if_pos (.inl h), ih]

theorem subset_offer : s.signatures ⊆ (Clusters.offer host s fields).signatures := by
  unfold Clusters.offer
  split
  · exact List.Subset.refl _
  · split
    · exact List.subset_append_left _ _
    · exact List.Subset.refl _

theorem subset_offers {offered : List ClusterFields} :
    s.signatures ⊆ (offered.foldl (Clusters.offer host) s).signatures := by
  induction offered generalizing s with
  | nil => exact List.Subset.refl _
  | cons first offered ih => exact fun _ hmem => ih (subset_offer hmem)

/-- What was offered is offered again: all of it is known up to what is refused,
as it was. -/
theorem offered_again {offered : List ClusterFields} {t : Rebuilding}
    (hs : s.raised = false) (ht : t.raised = false)
    (hknown : (offered.foldl (Clusters.offer host) s).signatures ⊆ t.signatures)
    (hsame : (offered.foldl (Clusters.offer host) s).raised = true →
      t.signatures ⊆ (offered.foldl (Clusters.offer host) s).signatures) :
    offered.foldl (Clusters.offer host) t =
      { t with raised := (offered.foldl (Clusters.offer host) s).raised } := by
  induction offered generalizing s with
  | nil =>
    rw [List.foldl_nil, List.foldl_nil, hs, ← ht]
  | cons first offered ih =>
    rw [List.foldl_cons] at hknown hsame
    rw [List.foldl_cons, List.foldl_cons]
    have hskip : first.signature ∈ (Clusters.offer host s first).signatures →
        Clusters.offer host t first = t := fun hmem =>
      if_pos (.inr (hknown (subset_offers hmem)))
    by_cases hold : s.raised = true ∨ first.signature ∈ s.signatures
    · have hoffer : Clusters.offer host s first = s := if_pos hold
      rw [hoffer] at hknown hsame hskip ⊢
      rw [hskip (hold.resolve_left (by simp [hs]))]
      exact ih hs hknown hsame
    · by_cases haccepted : first.accepted = true
      · have hoffer : Clusters.offer host s first = write host s first := by
          rw [Clusters.offer, if_neg hold, if_pos haccepted]
        rw [hoffer] at hknown hsame hskip ⊢
        rw [hskip (List.mem_append_right _ (List.mem_singleton_self _))]
        exact ih hs hknown hsame
      · -- the refused cluster is refused again, as nothing was written since
        have hoffer : Clusters.offer host s first = { s with raised := true } := by
          rw [Clusters.offer, if_neg hold, if_neg haccepted]
        have hstop : offered.foldl (Clusters.offer host) { s with raised := true } =
            { s with raised := true } := foldl_raised rfl
        rw [hoffer, hstop] at hsame ⊢
        have hnew : ¬(t.raised = true ∨ first.signature ∈ t.signatures) := by
          rw [ht]
          rintro (hfalse | hmem)
          · cases hfalse
          · exact hold (.inr (hsame rfl hmem))
        have hagain : Clusters.offer host t first = { t with raised := true } := by
          rw [Clusters.offer, if_neg hnew, if_neg haccepted]
        rw [hagain, foldl_raised rfl]

/-- A state that knows what another came to know, and no more if that was
stopped. -/
structure Knows (t u : Rebuilding) : Prop where
  calm : t.raised = false
  all : u.signatures ⊆ t.signatures
  only : u.raised = true → t.signatures ⊆ u.signatures

theorem offerGroups_again {t : Rebuilding} (hs : s.raised = false)
    (hinterpretations : t.tables.interpretations = s.tables.interpretations)
    (h : Knows t (Clusters.offerGroups host limits session s)) :
    Clusters.offerGroups host limits session t =
      { t with raised := (Clusters.offerGroups host limits session s).raised } := by
  have hread : memoryRelationshipInterpretations session t.tables =
      memoryRelationshipInterpretations session s.tables := by
    unfold memoryRelationshipInterpretations
    rw [hinterpretations]
  unfold Clusters.offerGroups at h ⊢
  rw [hread]
  exact offered_again hs h.calm h.all h.only

theorem offerLevel_again {t : Rebuilding} {level : Nat} (hs : s.raised = false)
    (hprior : t.existing.filter (·.abstractionLevel == level) =
      s.existing.filter (·.abstractionLevel == level))
    (h : Knows t (Clusters.offerLevel host limits session (level + 1) s)) :
    Clusters.offerLevel host limits session (level + 1) t =
      { t with raised := (Clusters.offerLevel host limits session (level + 1) s).raised } := by
  unfold Clusters.offerLevel at h ⊢
  rw [Nat.add_sub_cancel] at h ⊢
  rw [hprior]
  exact offered_again hs h.calm h.all h.only

/-- After the levels, the first of them makes nothing, and so none does. -/
theorem Building.offerLevels_again {t : Rebuilding} {levels level : Nat}
    (h : Building host limits session before s) (hs : s.raised = false)
    (hlevels : level + levels ≤ limits.maximumDepth)
    (hprior : t.existing.filter (·.abstractionLevel == level) =
      s.existing.filter (·.abstractionLevel == level))
    (hknows : Knows t (Clusters.offerLevels host limits session levels (level + 1) s)) :
    (Clusters.offerLevels host limits session levels (level + 1) t).created = t.created ∧
      (Clusters.offerLevels host limits session levels (level + 1) t).tables = t.tables := by
  cases levels with
  | zero => exact ⟨rfl, rfl⟩
  | succ levels =>
    have hfirst : Knows t (Clusters.offerLevel host limits session (level + 1) s) := by
      dsimp only [Clusters.offerLevels] at hknows
      split at hknows
      · exact hknows
      · rename_i hgoes
        have hnext := (h.offerLevel level (by omega)).1
        have hgrown := (hnext.offerLevels levels (level + 1) (by omega)).2
        exact ⟨hknows.calm, fun _ hmem => hknows.all (hgrown.known hmem),
          fun hraised => absurd hraised (not_or.mp hgoes).1⟩
    have hagain := offerLevel_again hs hprior hfirst
    dsimp only [Clusters.offerLevels]
    rw [hagain, if_pos (.inr rfl)]
    exact ⟨rfl, rfl⟩

/-- A rebuild of what a rebuild has left makes nothing. -/
theorem Stored.rebuild_again (h : Stored host limits session tables)
    (hdepth : 1 ≤ limits.maximumDepth) {once : SessionTables}
    (honce : once = (Clusters.rebuild host limits session tables).tables) :
    (Clusters.rebuild host limits session once).created = [] ∧
      (Clusters.rebuild host limits session once).tables = once := by
  have hlast := h.rebuild hdepth
  have hstart : Building host limits session once (startRebuild session once) := by
    rw [honce]
    exact hlast.stored.start
  have hknown : ∀ signature, signature ∈ (startRebuild session once).signatures ↔
      signature ∈ (Clusters.rebuild host limits session tables).signatures := fun signature => by
    rw [hstart.known, hlast.known, honce]
    rfl
  have hknows : Knows (startRebuild session once) (Clusters.rebuild host limits session tables) :=
    ⟨rfl, fun _ hmem => (hknown _).mpr hmem, fun _ _ hmem => (hknown _).mp hmem⟩
  obtain ⟨hfirst, hgroups⟩ := h.start.offerGroups hdepth
  cases hraised : (Clusters.offerGroups host limits session (startRebuild session tables)).raised with
  | true =>
    have hsame : Clusters.rebuild host limits session tables =
        Clusters.offerGroups host limits session (startRebuild session tables) := if_pos hraised
    rw [hsame] at hknows honce
    have hagain := offerGroups_again rfl (by rw [honce]; exact hgroups.interpretations) hknows
    have hstop : Clusters.rebuild host limits session once =
        { startRebuild session once with raised := true } := by
      dsimp only [Clusters.rebuild]
      rw [hagain, hraised, if_pos rfl]
    rw [hstop]
    exact ⟨rfl, rfl⟩
  | false =>
    have hsame : Clusters.rebuild host limits session tables =
        Clusters.offerLevels host limits session (limits.maximumDepth - 1) 2
          (Clusters.offerGroups host limits session (startRebuild session tables)) :=
      if_neg (by rw [hraised]; decide)
    have hlevels : 1 + (limits.maximumDepth - 1) ≤ limits.maximumDepth := by omega
    have hgrown := (hfirst.offerLevels _ 1 hlevels).2
    rw [hsame] at hknows honce
    have hfirstKnown : Knows (startRebuild session once)
        (Clusters.offerGroups host limits session (startRebuild session tables)) :=
      ⟨rfl, fun _ hmem => hknows.all (hgrown.known hmem),
        fun h => absurd h (by rw [hraised]; decide)⟩
    have hagain := offerGroups_again rfl
      (by rw [honce]; exact hgrown.interpretations.trans hgroups.interpretations) hfirstKnown
    have hstart' : Clusters.offerGroups host limits session (startRebuild session once) =
        startRebuild session once := by
      rw [hagain, hraised]
      rfl
    have hprior : (startRebuild session once).existing.filter (·.abstractionLevel == 1) =
        (Clusters.offerGroups host limits session (startRebuild session tables)).existing.filter
          (·.abstractionLevel == 1) := by
      rw [hstart.levels 1, hfirst.levels 1, ← hgrown.filter, honce]
      rfl
    have hstop : Clusters.rebuild host limits session once =
        Clusters.offerLevels host limits session (limits.maximumDepth - 1) 2
          (startRebuild session once) := by
      dsimp only [Clusters.rebuild]
      rw [hstart']
      exact if_neg Bool.false_ne_true
    rw [hstop]
    exact hfirst.offerLevels_again hraised hlevels hprior hknows

/-! ## Runs -/

theorem Stored.interpreted (h : Stored host limits session tables)
    {interpretations : List RelationshipInterpretation} :
    Stored host limits session
      { tables with interpretations, drawn := tables.drawn + 1 } where
  toHierarchy := h.toHierarchy
  stamped := by
    intro cluster hmem
    obtain ⟨n, hn, hstamp⟩ := h.stamped cluster hmem
    exact ⟨n, Nat.lt_succ_of_lt hn, hstamp⟩
  ordered := h.ordered

theorem Stored.step (h : Stored host limits session tables) (hdepth : 1 ≤ limits.maximumDepth)
    (event : SessionEvent) : Stored host limits session (sessionStep host limits session tables event) := by
  cases event with
  | interpreted fields => exact h.interpreted
  | rebuilt => exact (h.rebuild hdepth).stored

theorem stored_run (hdepth : 1 ≤ limits.maximumDepth) (events : List SessionEvent) :
    Stored host limits session (sessionRun host limits session events) := by
  have hrun : ∀ tables, Stored host limits session tables →
      Stored host limits session (events.foldl (sessionStep host limits session) tables) := by
    induction events with
    | nil => exact fun _ h => h
    | cons event events ih => exact fun tables h => ih _ (h.step hdepth event)
  refine hrun {} ⟨⟨?_, ?_, ?_, List.nodup_nil⟩, ?_, List.Pairwise.nil⟩ <;>
    exact List.forall_mem_nil _

end

/-- **The clusters of a session are a hierarchy, whatever it adds and rebuilds**,
and a rebuild that follows another makes nothing. -/
theorem hierarchy_of_run (hdepth : 1 ≤ limits.maximumDepth) (events : List SessionEvent) :
    Hierarchy limits session (sessionRun host limits session events).clusters ∧
      let once := (rebuild host limits session (sessionRun host limits session events)).tables
      (rebuild host limits session once).created = [] ∧
        (rebuild host limits session once).tables = once :=
  ⟨(stored_run hdepth events).toHierarchy, (stored_run hdepth events).rebuild_again hdepth rfl⟩

/-- A host that counts. -/
def countingHost : ClusterHost where
  tables := ⟨id, id, id⟩
  hexdigest := id
  round4 := id
  newId n := String.ofList (List.replicate n 'i')
  newId_injective m n h := by simpa using congrArg (fun text => text.toList.length) h
  now := id
  now_strictMono := strictMono_id

def likeness (pattern : String) (facts : List String) : InterpretationFields where
  sourceMemoryIds := facts
  relationship := .similarTo
  sharedPattern := pattern
  possibleAbstraction := "tea"
  confidence := 1

/-- Two patterns of tea, interpreted twice each, and a rebuild. -/
def likenessEvents : List SessionEvent :=
  [.interpreted (likeness "likes" ["FACT-1", "FACT-2"]),
    .interpreted (likeness "likes" ["FACT-1", "FACT-2"]),
    .interpreted (likeness "wants" ["FACT-3", "FACT-4"]),
    .interpreted (likeness "wants" ["FACT-3", "FACT-4"]), .rebuilt]

def likenessTables : SessionTables :=
  sessionRun countingHost ⟨8, 4⟩ "SESSION-1" likenessEvents

/-- The two clusters of facts make one of the level above them. -/
theorem hierarchy_of_run_likeness :
    likenessTables.clusters.map (·.abstractionLevel) = [1, 1, 2] ∧
      Hierarchy ⟨8, 4⟩ "SESSION-1" likenessTables.clusters ∧
      let once := (rebuild countingHost ⟨8, 4⟩ "SESSION-1" likenessTables).tables
      (rebuild countingHost ⟨8, 4⟩ "SESSION-1" once).created = [] ∧
        (rebuild countingHost ⟨8, 4⟩ "SESSION-1" once).tables = once :=
  ⟨by decide +kernel, hierarchy_of_run countingHost ⟨8, 4⟩ "SESSION-1" (by decide) likenessEvents⟩

end RlmGraph.Memory.Clusters
