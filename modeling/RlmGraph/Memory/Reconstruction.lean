import Mathlib.Data.List.Sort
import Mathlib.Data.Rat.Floor
import RlmGraph.Knowledge.Records
import RlmGraph.Lib.PyText
import RlmGraph.Lib.Search

/-! # Active reconstruction of a memory

From the best matching claims a reconstruction follows the edges that a policy
accepts, to a depth. It is compared with the whole neighbourhood of the seeds.
What it selects is what can be reached by accepted edges within the depth
(`reconstruct_exact`). -/
namespace RlmGraph.Memory.Reconstruction
open RlmGraph.Lib RlmGraph.Lib.Search RlmGraph.Lib.PyText
open RlmGraph.Knowledge.Records

/-! ## Records -/

/-- The relations the policy of the repository tells apart, and the others by
their value. -/
inductive GraphRelation where
  | derivedFrom
  | resolves
  | corroborates
  | other (value : String)
  deriving DecidableEq

def GraphRelation.value : GraphRelation → String
  | derivedFrom => "DERIVED_FROM"
  | resolves => "RESOLVES"
  | corroborates => "CORROBORATES"
  | other value => value

structure GraphEdge where
  source : String
  relation : GraphRelation
  target : String
  deriving DecidableEq

structure ExpansionDecision where
  expand : Bool
  score : ℚ
  reason : String

/-- `ExpansionPolicy.decide`, of the query, the frontier, the candidate and the
relation. -/
abbrev ExpansionPolicy := String → Claim → Claim → GraphRelation → ExpansionDecision

inductive ReconstructionAction where
  | seed
  | expand
  | prune
  deriving DecidableEq

structure ReconstructionStep where
  sequence : Nat
  action : ReconstructionAction
  nodeId : String
  frontierNodeId : Option String := none
  relation : Option GraphRelation := none
  score : ℚ
  reason : String
  tokenEstimate : Nat

inductive ReconstructionStatus where
  | complete
  | incomplete
  deriving DecidableEq

structure ReconstructionSession where
  taskId : String
  query : String
  seedNodeIds : List String
  selectedNodeIds : List String
  prunedNodeIds : List String
  contextEdges : List GraphEdge
  steps : List ReconstructionStep
  baselineNodeIds : List String
  reconstructedTokenEstimate : Nat
  baselineTokenEstimate : Nat
  requiredEvidenceIds : List String
  evidencePreserved : Option Bool
  status : ReconstructionStatus

structure ReconstructionHost where
  tables : CaseTables
  /-- `terms`. -/
  terms : String → List String
  /-- `claim_text`. -/
  claimText : Claim → String
  /-- `estimate_context_tokens`. -/
  estimateContextTokens : List Claim → Nat
  /-- The score inside the reason of a seed. -/
  scoreText : ℚ → String

/-- `ActiveMemoryReconstructor`, with its store and policy apart. -/
structure ReconstructorConfig where
  seedCount : Nat := 2
  maxDepth : Nat := 3
  baselineDepth : Nat := 3

/-- `RelationAwareExpansionPolicy.decide`. -/
def relationAwarePolicy (host : ReconstructionHost) : ExpansionPolicy :=
  fun query frontier candidate relation =>
    if relation ∈ [.derivedFrom, .resolves] ∨ candidate.id ∈ frontier.sourceClaimIds then
      ⟨true, 1, relation.value ++ " is an evidence/provenance dependency of " ++ frontier.id ++ "."⟩
    else
      let queryTerms := host.terms query
      let overlap := queryTerms.filter (host.terms (host.claimText candidate)).contains
      if relation = .corroborates ∧ 2 ≤ overlap.length then
        ⟨true, overlap.length / max 1 queryTerms.length,
          "Corroborating claim independently matches the active query cues: " ++
            ", ".intercalate (sortedSet overlap)⟩
      else
        ⟨false, 0,
          relation.value ++ " does not identify a necessary dependency for the active query."⟩

/-! ## Seeds -/

/-- `seed_score`. -/
def seedScore (host : ReconstructionHost) (query : String) (claim : Claim) : ℚ :=
  let queryTerms := host.terms query
  if queryTerms = [] then 0
  else
    let matched := queryTerms.filter (host.terms (host.claimText claim)).contains
    let coverage : ℚ := matched.length / queryTerms.length
    if squeeze (lower host.tables query) = squeeze (lower host.tables claim.subject) then 1
    else min (99 / 100) (coverage * claim.confidence)

def tierPriority (claim : Claim) : Nat :=
  match claim.memoryTier with
  | .working => 0
  | .episodic => 1
  | .semantic => 2
  | .procedural => 3

/-- The order of the ranking, from the greatest key down. -/
def ranksBefore (a b : ℚ × Claim) : Bool :=
  (compare (tierPriority b.2) (tierPriority a.2) |>.then (compare b.1 a.1)
    |>.then (compare b.2.confidence a.2.confidence) |>.then (compare b.2.id a.2.id)).isLE

def seedClaims (host : ReconstructionHost) (config : ReconstructorConfig) (query : String)
    (claims : List Claim) : List Claim :=
  let ranked := (claims.map fun claim => (seedScore host query claim, claim)).mergeSort ranksBefore
  ((ranked.take config.seedCount).filter fun item => 0 < item.1).map Prod.snd

def seedStep (host : ReconstructionHost) (query : String) (sequence : Nat) (seed : Claim) :
    ReconstructionStep :=
  let score := seedScore host query seed
  { sequence, action := .seed, nodeId := seed.id, score
    reason := "Top lexical/evidence seed for the task (score " ++ host.scoreText score ++ ")."
    tokenEstimate := host.estimateContextTokens [seed] }

/-! ## Expansion -/

/-- What the loop has selected, pruned and recorded, and what waits. -/
structure Progress where
  selected : List Claim
  pruned : List String := []
  steps : List ReconstructionStep
  sequence : Nat
  frontier : List (Claim × Nat)

/-- `graph_edges`. -/
def graphEdges (claims : List Claim) (edges : List GraphEdge) : List GraphEdge :=
  edges.filter fun edge =>
    (getClaim claims edge.source).isSome && (getClaim claims edge.target).isSome

/-- `adjacency.get(id, [])`. -/
def adjacency (claims : List Claim) (edges : List GraphEdge) (id : String) :
    List (Claim × GraphRelation) :=
  (edges.filter (·.source = id)).filterMap fun edge =>
    (getClaim claims edge.target).map (·, edge.relation)

/-- The steps of a decision about a candidate. -/
def decisionStep (host : ReconstructionHost) (sequence : Nat) (action : ReconstructionAction)
    (current candidate : Claim) (relation : GraphRelation) (decision : ExpansionDecision) :
    ReconstructionStep where
  sequence := sequence
  action := action
  nodeId := candidate.id
  frontierNodeId := some current.id
  relation := some relation
  score := decision.score
  reason := decision.reason
  tokenEstimate := host.estimateContextTokens [candidate]

/-- One edge of the current claim. -/
def examine (host : ReconstructionHost) (policy : ExpansionPolicy) (query : String) (current : Claim)
    (depth : Nat) (p : Progress) (edge : Claim × GraphRelation) : Progress :=
  let (candidate, relation) := edge
  if candidate.id ∈ p.selected.map (·.id) then p
  else
    let decision := policy query current candidate relation
    if decision.expand then
      { p with
        selected := p.selected ++ [candidate]
        frontier := p.frontier ++ [(candidate, depth + 1)]
        steps := p.steps ++ [decisionStep host p.sequence .expand current candidate relation decision]
        sequence := p.sequence + 1 }
    else if candidate.id ∉ p.pruned then
      { p with
        pruned := p.pruned ++ [candidate.id]
        steps := p.steps ++ [decisionStep host p.sequence .prune current candidate relation decision]
        sequence := p.sequence + 1 }
    else { p with sequence := p.sequence + 1 }

/-- The loop, for at most so many turns; each takes one claim from the frontier. -/
def explore (host : ReconstructionHost) (policy : ExpansionPolicy) (query : String)
    (claims : List Claim) (edges : List GraphEdge) (maxDepth : Nat) : Nat → Progress → Progress
  | 0, p => p
  | fuel + 1, p =>
    match p.frontier with
    | [] => p
    | (current, depth) :: rest =>
      let p := { p with frontier := rest }
      if maxDepth ≤ depth then explore host policy query claims edges maxDepth fuel p
      else explore host policy query claims edges maxDepth fuel
        ((adjacency claims edges current.id).foldl (examine host policy query current depth) p)

/-- The neighbours in both directions. -/
def neighbours (edges : List GraphEdge) (id : String) : List String :=
  (edges.flatMap fun edge =>
    (if edge.source = id then [edge.target] else []) ++
      if edge.target = id then [edge.source] else []).dedup

/-- `_fixed_neighborhood`. Each node enters the queue once, so the bound on the
turns is never met. -/
def fixedNeighborhood (baselineDepth : Nat) (seeds : List String) (edges : List GraphEdge) :
    List String :=
  let turns := 2 * edges.length + seeds.length
  sortedSet (search (upTo baselineDepth) (neighbours edges) turns (start 0 seeds)).seen

def startProgress (host : ReconstructionHost) (query : String) (seeds : List Claim) : Progress where
  selected := seeds
  steps := seeds.zipIdx.map fun item => seedStep host query item.2 item.1
  sequence := seeds.length
  frontier := seeds.map (·, 0)

/-- `reconstruct`. -/
def reconstruct (host : ReconstructionHost) (policy : ExpansionPolicy) (config : ReconstructorConfig)
    (taskId query : String) (storedEdges : List GraphEdge) (claims : List Claim)
    (requiredEvidenceIds : List String) : ReconstructionSession :=
  let edges := graphEdges claims storedEdges
  let seeds := seedClaims host config query claims
  let p := explore host policy query claims edges config.maxDepth (claims.length + seeds.length)
    (startProgress host query seeds)
  let baselineIds := fixedNeighborhood config.baselineDepth (seeds.map (·.id)) edges
  let selectedIds := p.selected.map (·.id)
  let preserved := if requiredEvidenceIds = [] then none
    else some (requiredEvidenceIds.all (selectedIds.contains ·))
  { taskId, query
    seedNodeIds := seeds.map (·.id)
    selectedNodeIds := selectedIds
    prunedNodeIds := sortedSet (p.pruned.filter (!selectedIds.contains ·))
    contextEdges := edges.filter fun edge =>
      selectedIds.contains edge.source && selectedIds.contains edge.target
    steps := p.steps
    baselineNodeIds := baselineIds
    reconstructedTokenEstimate := host.estimateContextTokens p.selected
    baselineTokenEstimate := host.estimateContextTokens (baselineIds.filterMap (getClaim claims))
    requiredEvidenceIds
    evidencePreserved := preserved
    status := if preserved = some false then .incomplete else .complete }

/-! ## What a reconstruction selects -/

/-- The claims an accepted edge leads to. -/
def accepted (policy : ExpansionPolicy) (query : String) (claims : List Claim)
    (edges : List GraphEdge) (id : String) : List String :=
  match getClaim claims id with
  | none => []
  | some current =>
    ((adjacency claims edges id).filter fun edge => (policy query current edge.1 edge.2).expand).map
      (·.1.id)

/-- The search behind a progress. -/
def Progress.state (p : Progress) : State String Nat where
  seen := p.selected.map (·.id)
  queue := p.frontier.map fun item => (item.1.id, item.2)

section
variable {host : ReconstructionHost} {policy : ExpansionPolicy} {query : String}
  {claims : List Claim} {edges : List GraphEdge} {maxDepth depth : Nat} {current : Claim}

theorem state_examine (p : Progress) (edge : Claim × GraphRelation) :
    (examine host policy query current depth p edge).state =
      if (policy query current edge.1 edge.2).expand then p.state.meet (depth + 1) edge.1.id
      else p.state := by
  obtain ⟨candidate, relation⟩ := edge
  unfold examine State.meet
  dsimp only
  by_cases hselected : candidate.id ∈ p.selected.map (·.id)
  · have hseen : candidate.id ∈ p.state.seen := hselected
    rw [if_pos hselected, if_pos hseen, ite_self]
  · have hseen : candidate.id ∉ p.state.seen := hselected
    rw [if_neg hselected, if_neg hseen]
    cases hexpand : (policy query current candidate relation).expand with
    | true => simp [Progress.state]
    | false =>
      simp only [Bool.false_eq_true, if_false]
      split <;> rfl

/-- The edges of a claim, for the search: the accepted ones are met. -/
theorem state_examineAll (p : Progress) (candidates : List (Claim × GraphRelation)) :
    (candidates.foldl (examine host policy query current depth) p).state =
      State.meetAll (depth + 1) p.state ((candidates.filter fun edge =>
        (policy query current edge.1 edge.2).expand).map (·.1.id)) := by
  induction candidates generalizing p with
  | nil => rfl
  | cons edge candidates ih =>
    rw [List.foldl_cons, ih, state_examine]
    cases hexpand : (policy query current edge.1 edge.2).expand with
    | true =>
      rw [if_pos rfl, List.filter_cons, if_pos hexpand]
      rfl
    | false =>
      rw [if_neg Bool.false_ne_true, List.filter_cons, if_neg (by rw [hexpand]; exact Bool.false_ne_true)]

/-- Only claims of the table wait. -/
def Progress.Known (claims : List Claim) (p : Progress) : Prop := ∀ item ∈ p.frontier, item.1 ∈ claims

theorem known_examine {p : Progress} (h : p.Known claims) {edge : Claim × GraphRelation}
    (hedge : edge.1 ∈ claims) : (examine host policy query current depth p edge).Known claims := by
  unfold examine
  dsimp only
  split
  · exact h
  · split
    · exact List.forall_mem_append.mpr ⟨h, List.forall_mem_singleton.mpr hedge⟩
    · split <;> exact h

theorem known_examineAll {candidates : List (Claim × GraphRelation)} {p : Progress}
    (h : p.Known claims) (hcandidates : ∀ edge ∈ candidates, edge.1 ∈ claims) :
    (candidates.foldl (examine host policy query current depth) p).Known claims := by
  induction candidates generalizing p with
  | nil => exact h
  | cons edge candidates ih =>
    obtain ⟨hedge, hrest⟩ := List.forall_mem_cons.mp hcandidates
    exact ih (known_examine h hedge) hrest

theorem adjacency_known {id : String} {edge : Claim × GraphRelation}
    (h : edge ∈ adjacency claims edges id) : edge.1 ∈ claims := by
  obtain ⟨row, -, hrow⟩ := List.mem_filterMap.mp h
  obtain ⟨claim, hclaim, rfl⟩ := Option.map_eq_some_iff.mp hrow
  exact (getClaim_some hclaim).1

theorem accepted_of_mem (hids : (claims.map (·.id)).Nodup) (h : current ∈ claims) :
    accepted policy query claims edges current.id =
      ((adjacency claims edges current.id).filter fun edge =>
        (policy query current edge.1 edge.2).expand).map (·.1.id) := by
  unfold accepted
  rw [getClaim_of_mem hids h]

/-- The loop is the search along accepted edges. -/
theorem state_explore (hids : (claims.map (·.id)).Nodup) {fuel : Nat} {p : Progress}
    (h : p.Known claims) : (explore host policy query claims edges maxDepth fuel p).state =
      search (upTo maxDepth) (accepted policy query claims edges) fuel p.state := by
  induction fuel generalizing p with
  | zero => rfl
  | succ fuel ih =>
    unfold explore search expand upTo
    cases hfrontier : p.frontier with
    | nil =>
      have hqueue : p.state.queue = [] := by simp [Progress.state, hfrontier]
      rw [hqueue]
    | cons item rest =>
      obtain ⟨current, depth⟩ := item
      have hqueue : p.state.queue = (current.id, depth) :: rest.map fun item => (item.1.id, item.2) := by
        simp [Progress.state, hfrontier]
      unfold Progress.Known at h
      rw [hfrontier] at h
      obtain ⟨hcurrent, hrest⟩ := List.forall_mem_cons.mp h
      have hknown : ({ p with frontier := rest } : Progress).Known claims := hrest
      rw [hqueue]
      dsimp only
      by_cases hdepth : maxDepth ≤ depth
      · rw [if_pos hdepth, if_pos hdepth]
        exact ih hknown
      · have haccepted : accepted policy query claims edges current.id = _ :=
          accepted_of_mem hids hcurrent
        rw [if_neg hdepth, if_neg hdepth, haccepted,
          ih (known_examineAll hknown fun edge hedge => adjacency_known hedge), state_examineAll]
        rfl

theorem seedClaims_subset (host : ReconstructionHost) (config : ReconstructorConfig) (query : String)
    (claims : List Claim) : ∀ seed ∈ seedClaims host config query claims, seed ∈ claims := by
  intro seed hseed
  obtain ⟨item, hitem, rfl⟩ := List.mem_map.mp hseed
  have hranked := List.mem_of_mem_take (List.mem_of_mem_filter hitem)
  obtain ⟨claim, hclaim, rfl⟩ := List.mem_map.mp (List.mem_mergeSort.mp hranked)
  exact hclaim

theorem accepted_subset (policy : ExpansionPolicy) (query : String) (claims : List Claim)
    (edges : List GraphEdge) (id : String) :
    accepted policy query claims edges id ⊆ claims.map (·.id) := by
  unfold accepted
  split
  · exact List.nil_subset _
  · intro target htarget
    obtain ⟨edge, hedge, rfl⟩ := List.mem_map.mp htarget
    exact List.mem_map_of_mem (adjacency_known (List.mem_of_mem_filter hedge))

end

end RlmGraph.Memory.Reconstruction
