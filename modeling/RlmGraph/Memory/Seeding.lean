import Mathlib.Data.Prod.Lex
import Mathlib.Order.Compare
import RlmGraph.Knowledge.Lessons
import RlmGraph.Lib.Ranking
import RlmGraph.Memory.Reconstruction

/-! # What claims without a match do to a reconstruction

The ranking of the seeds puts the tier of a claim before its score, and is cut
before claims without a score are left out of it. Claims that neither match the
query nor have an edge change nothing as long as the seeds keep their places
among the first (`seeding_iff`). -/
namespace RlmGraph.Memory.Seeding
open RlmGraph.Lib RlmGraph.Lib.PyText RlmGraph.Lib.Search RlmGraph.Lib.Ranking
open RlmGraph.Knowledge.Records RlmGraph.Memory.Reconstruction

/-! ## The ranking -/

/-- What a claim is ranked by, the greatest first. -/
def rankKey (item : ℚ × Claim) : ℕ ×ₗ ℚ ×ₗ ℚ ×ₗ String :=
  toLex (tierPriority item.2, toLex (item.1, toLex (item.2.confidence, item.2.id)))

theorem ranksBefore_iff (a b : ℚ × Claim) : ranksBefore a b = true ↔ rankKey b ≤ rankKey a := by
  have hid : (compare b.2.id a.2.id).isLE = true ↔ b.2.id ≤ a.2.id := by
    rw [Ordering.isLE_iff_ne_gt, compare_gt_iff_gt, not_lt]
  simp only [ranksBefore, rankKey, Prod.Lex.toLex_le_toLex, Ordering.isLE_then_iff_or,
    Ordering.then_eq_lt, Ordering.then_eq_eq, compare_lt_iff_lt, compare_eq_iff_eq, hid]
  tauto

theorem ranksBefore_eq_false_iff (a b : ℚ × Claim) :
    ranksBefore a b = false ↔ rankKey a < rankKey b := by
  rw [Bool.eq_false_iff, ne_eq, ranksBefore_iff, not_le]

section
variable {host : ReconstructionHost} {query : String} {claims extra merged : List Claim}

/-- A claim with its seed score. -/
def scored (host : ReconstructionHost) (query : String) (claim : Claim) : ℚ × Claim :=
  (seedScore host query claim, claim)

/-- How many of the claims are ranked above one. -/
def standing (host : ReconstructionHost) (query : String) (claims : List Claim) (claim : Claim) : Nat :=
  claims.countP fun other => !ranksBefore (scored host query claim) (scored host query other)

/-- How many of the claims are of a higher tier than one. -/
def higher (claims : List Claim) (claim : Claim) : Nat :=
  claims.countP fun other => decide (tierPriority claim < tierPriority other)

theorem above_scored (claim : Claim) : above ranksBefore (claims.map (scored host query))
    (scored host query claim) = standing host query claims claim := by
  simp [above, standing, List.countP_map, Function.comp_def]

theorem mem_scored {item : ℚ × Claim} : item ∈ claims.map (scored host query) ↔
    item = scored host query item.2 ∧ item.2 ∈ claims := by
  constructor
  · intro h
    obtain ⟨claim, hclaim, rfl⟩ := List.mem_map.mp h
    exact ⟨rfl, hclaim⟩
  · exact fun ⟨heq, hclaim⟩ => List.mem_map.mpr ⟨item.2, hclaim, heq.symm⟩

/-- Claims with identifiers of their own are ranked one after the other. -/
theorem ranks_scored (hids : (claims.map (·.id)).Nodup) :
    Ranks ranksBefore (claims.map (scored host query)) where
  trans a b c hab hbc := by
    rw [ranksBefore_iff] at *
    exact hbc.trans hab
  total a b := by
    rw [Bool.or_eq_true, ranksBefore_iff, ranksBefore_iff]
    exact le_total _ _
  antisymm a ha b hb hab hba := by
    rw [ranksBefore_iff] at hab hba
    have hkey : rankKey a = rankKey b := le_antisymm hba hab
    have hid : a.2.id = b.2.id := congrArg (fun key => (ofLex (ofLex (ofLex key).2).2).2) hkey
    obtain ⟨hascored, haclaim⟩ := mem_scored.mp ha
    obtain ⟨hbscored, hbclaim⟩ := mem_scored.mp hb
    rw [hascored, hbscored, eq_of_id hids haclaim hbclaim hid]
  nodup := by
    refine (List.Nodup.of_map _ hids).map fun a b hab => ?_
    exact congrArg Prod.snd hab

theorem seedClaims_eq (config : ReconstructorConfig) (claims : List Claim) :
    seedClaims host config query claims = ((firsts ranksBefore config.seedCount
      (claims.map (scored host query))).filter fun item => 0 < item.1).map Prod.snd := rfl

/-- A seed has a score and one of the first places. -/
theorem mem_seedClaims {config : ReconstructorConfig} (hids : (claims.map (·.id)).Nodup)
    {claim : Claim} : claim ∈ seedClaims host config query claims ↔
      claim ∈ claims ∧ 0 < seedScore host query claim ∧
        standing host query claims claim < config.seedCount := by
  rw [seedClaims_eq, List.mem_map]
  constructor
  · rintro ⟨item, hitem, rfl⟩
    obtain ⟨hfirst, hscore⟩ := List.mem_filter.mp hitem
    obtain ⟨hmem, habove⟩ := (mem_firsts_iff (ranks_scored hids)).mp hfirst
    obtain ⟨heq, hclaim⟩ := mem_scored.mp hmem
    rw [heq, above_scored] at habove
    rw [heq] at hscore
    exact ⟨hclaim, of_decide_eq_true hscore, habove⟩
  · rintro ⟨hclaim, hscore, hstanding⟩
    refine ⟨scored host query claim, List.mem_filter.mpr ⟨?_, decide_eq_true hscore⟩, rfl⟩
    refine (mem_firsts_iff (ranks_scored hids)).mpr ⟨List.mem_map_of_mem hclaim, ?_⟩
    rwa [above_scored]

/-! ## Claims without a match -/

/-- A claim that does not match the query and has no edge. -/
structure Irrelevant (host : ReconstructionHost) (query : String) (edges : List GraphEdge)
    (claim : Claim) : Prop where
  score : seedScore host query claim = 0
  edgeless : ∀ edge ∈ edges, edge.source ≠ claim.id ∧ edge.target ≠ claim.id

/-- A claim with a score is below the claims without one that are of a higher tier. -/
theorem standing_irrelevant {claim : Claim} (hscore : 0 < seedScore host query claim)
    (hextra : ∀ other ∈ extra, seedScore host query other = 0) :
    standing host query extra claim = higher extra claim := by
  refine List.countP_congr fun other hother => ?_
  have hzero := hextra other hother
  rw [Bool.not_eq_true', ranksBefore_eq_false_iff, decide_eq_true_iff, rankKey, rankKey,
    Prod.Lex.toLex_lt_toLex, Prod.Lex.toLex_lt_toLex]
  simp only [scored, hzero]
  constructor
  · rintro (htier | ⟨-, hlt | ⟨heq, -⟩⟩)
    · exact htier
    · exact absurd hlt hscore.not_gt
    · exact absurd heq hscore.ne'
  · exact Or.inl

theorem standing_merged (hmerged : merged.Perm (claims ++ extra)) (claim : Claim) :
    standing host query merged claim =
      standing host query claims claim + standing host query extra claim := by
  unfold standing
  rw [hmerged.countP_eq, List.countP_append]

end

/-! ## The reconstruction -/

section
variable {host : ReconstructionHost} {policy : ExpansionPolicy} {config : ReconstructorConfig}
  {query taskId : String} {claims extra merged : List Claim} {edges : List GraphEdge} {maxDepth : Nat}

theorem getClaim_merged (hids : (merged.map (·.id)).Nodup) (hmerged : merged.Perm (claims ++ extra))
    {id : String} (hid : ∀ other ∈ extra, other.id ≠ id) : getClaim merged id = getClaim claims id := by
  cases hfind : getClaim claims id with
  | some claim =>
    obtain ⟨hmem, rfl⟩ := getClaim_some hfind
    exact getClaim_of_mem hids (hmerged.mem_iff.mpr (List.mem_append_left extra hmem))
  | none =>
    refine List.find?_eq_none.mpr fun claim hclaim => ?_
    obtain hclaim | hclaim := List.mem_append.mp (hmerged.mem_iff.mp hclaim)
    · exact List.find?_eq_none.mp hfind claim hclaim
    · simpa using hid claim hclaim

/-- No edge of the merged claims is an edge of a claim that has none. -/
theorem graphEdges_merged (hids : (merged.map (·.id)).Nodup)
    (hmerged : merged.Perm (claims ++ extra))
    (hextra : ∀ other ∈ extra, Irrelevant host query edges other) :
    graphEdges merged edges = graphEdges claims edges := by
  refine List.filter_congr fun edge hedge => ?_
  rw [getClaim_merged hids hmerged fun other hother => ((hextra other hother).edgeless edge hedge).1.symm,
    getClaim_merged hids hmerged fun other hother => ((hextra other hother).edgeless edge hedge).2.symm]

theorem adjacency_merged (hids : (merged.map (·.id)).Nodup)
    (hmerged : merged.Perm (claims ++ extra))
    (hextra : ∀ other ∈ extra, Irrelevant host query edges other) (id : String) :
    adjacency merged (graphEdges claims edges) id = adjacency claims (graphEdges claims edges) id := by
  refine List.filterMap_congr fun edge hedge => ?_
  have hstored : edge ∈ edges := List.mem_of_mem_filter (List.mem_of_mem_filter hedge)
  rw [getClaim_merged hids hmerged fun other hother =>
    ((hextra other hother).edgeless edge hstored).2.symm]

/-- The loop reads the claims along edges only. -/
theorem explore_congr (h : ∀ id, adjacency merged edges id = adjacency claims edges id) (fuel : Nat)
    (p : Progress) : explore host policy query merged edges maxDepth fuel p =
      explore host policy query claims edges maxDepth fuel p := by
  induction fuel generalizing p with
  | zero => rfl
  | succ fuel ih =>
    unfold explore
    cases p.frontier with
    | nil => rfl
    | cons item rest =>
      dsimp only
      rw [h, ih, ih]

/-- A loop with nothing left stays as it is. -/
theorem explore_stays {fuel fuel' : Nat} {p : Progress}
    (hfrontier : (explore host policy query claims edges maxDepth fuel p).frontier = [])
    (hle : fuel ≤ fuel') : explore host policy query claims edges maxDepth fuel' p =
      explore host policy query claims edges maxDepth fuel p := by
  induction fuel generalizing fuel' p with
  | zero =>
    have hnil : p.frontier = [] := hfrontier
    cases fuel' with
    | zero => rfl
    | succ fuel' =>
      unfold explore
      rw [hnil]
  | succ fuel ih =>
    obtain ⟨fuel', rfl⟩ : ∃ n, fuel' = n + 1 := ⟨fuel' - 1, by omega⟩
    unfold explore at hfrontier ⊢
    cases hwaiting : p.frontier with
    | nil => rfl
    | cons item rest =>
      rw [hwaiting] at hfrontier
      dsimp only at hfrontier ⊢
      by_cases hdepth : maxDepth ≤ item.2
      · rw [if_pos hdepth] at hfrontier ⊢
        rw [if_pos hdepth]
        exact ih hfrontier (by omega)
      · rw [if_neg hdepth] at hfrontier ⊢
        rw [if_neg hdepth]
        exact ih hfrontier (by omega)

theorem frontier_explore (hids : (claims.map (·.id)).Nodup) (edges : List GraphEdge) :
    (explore host policy query claims edges config.maxDepth
      (claims.length + (seedClaims host config query claims).length)
      (startProgress host query (seedClaims host config query claims))).frontier = [] := by
  have hknown : (startProgress host query (seedClaims host config query claims)).Known claims := by
    intro item hitem
    obtain ⟨seed, hseed, rfl⟩ := List.mem_map.mp hitem
    exact seedClaims_subset host config query claims seed hseed
  have hstart : (startProgress host query (seedClaims host config query claims)).state =
      start 0 ((seedClaims host config query claims).map (·.id)) := by
    simp [startProgress, Progress.state, start]
  have hstate : (explore host policy query claims edges config.maxDepth
      (claims.length + (seedClaims host config query claims).length)
      (startProgress host query (seedClaims host config query claims))).state =
      search (upTo config.maxDepth) (accepted policy query claims edges)
        (claims.length + (seedClaims host config query claims).length) _ :=
    state_explore hids hknown
  have hqueue := congrArg State.queue hstate
  rw [hstart, search_finished (accepted_subset policy query claims edges)
    ((left_start 0 _ _).trans (by simp))] at hqueue
  simpa [Progress.state] using hqueue

/-- With the same seeds the same claims are selected. -/
theorem selected_merged (hids : (merged.map (·.id)).Nodup) (hmerged : merged.Perm (claims ++ extra))
    (hextra : ∀ other ∈ extra, Irrelevant host query edges other)
    (hseeds : seedClaims host config query merged = seedClaims host config query claims)
    (required : List String) :
    (reconstruct host policy config taskId query edges merged required).selectedNodeIds =
      (reconstruct host policy config taskId query edges claims required).selectedNodeIds := by
  have hclaims : (claims.map (·.id)).Nodup := by
    have hall : ((claims ++ extra).map (·.id)).Nodup := (hmerged.map _).nodup_iff.mp hids
    rw [List.map_append] at hall
    exact (List.nodup_append.mp hall).1
  have hlength : claims.length ≤ merged.length := by
    rw [hmerged.length_eq, List.length_append]
    exact Nat.le_add_right _ _
  simp only [reconstruct, hseeds, graphEdges_merged hids hmerged hextra]
  rw [explore_congr (adjacency_merged hids hmerged hextra),
    explore_stays (frontier_explore hclaims _) (by omega)]

/-- What claims without a match leave as it was, and what they do not hide. -/
structure Unhidden (host : ReconstructionHost) (policy : ExpansionPolicy)
    (config : ReconstructorConfig) (taskId query : String) (edges : List GraphEdge)
    (required : List String) (claims merged : List Claim) : Prop where
  seeds : (reconstruct host policy config taskId query edges merged required).seedNodeIds =
    (reconstruct host policy config taskId query edges claims required).seedNodeIds
  selected : (reconstruct host policy config taskId query edges merged required).selectedNodeIds =
    (reconstruct host policy config taskId query edges claims required).selectedNodeIds
  found : 0 < config.seedCount → (∃ claim ∈ merged, 0 < seedScore host query claim) →
    (reconstruct host policy config taskId query edges merged required).seedNodeIds ≠ []

/-- The first places have room for the seeds below the further claims of a higher
tier, and for one claim with a score below all claims of a higher tier. -/
structure Room (host : ReconstructionHost) (config : ReconstructorConfig) (query : String)
    (claims extra merged : List Claim) : Prop where
  kept : ∀ claim ∈ claims, 0 < seedScore host query claim →
    standing host query claims claim < config.seedCount →
    standing host query claims claim + higher extra claim < config.seedCount
  found : 0 < config.seedCount → (∃ claim ∈ merged, 0 < seedScore host query claim) →
    (merged.countP fun other => merged.all fun claim =>
      seedScore host query claim ≤ 0 || tierPriority claim < tierPriority other) < config.seedCount

/-- The seeds are the same if those there were keep their places. -/
theorem seedClaims_merged_iff (config : ReconstructorConfig) (hids : (merged.map (·.id)).Nodup)
    (hmerged : merged.Perm (claims ++ extra))
    (hextra : ∀ other ∈ extra, seedScore host query other = 0) :
    seedClaims host config query merged = seedClaims host config query claims ↔
      ∀ claim ∈ claims, 0 < seedScore host query claim →
        standing host query claims claim < config.seedCount →
        standing host query claims claim + higher extra claim < config.seedCount := by
  have hclaims : (claims.map (·.id)).Nodup := by
    have hall : ((claims ++ extra).map (·.id)).Nodup := (hmerged.map _).nodup_iff.mp hids
    rw [List.map_append] at hall
    exact (List.nodup_append.mp hall).1
  have hstanding : ∀ claim, 0 < seedScore host query claim → standing host query merged claim =
      standing host query claims claim + higher extra claim := fun claim hscore => by
    rw [standing_merged hmerged, standing_irrelevant hscore hextra]
  constructor
  · intro hsame claim hclaim hscore hplace
    have hseed : claim ∈ seedClaims host config query claims :=
      (mem_seedClaims hclaims).mpr ⟨hclaim, hscore, hplace⟩
    rw [← hsame] at hseed
    have hkept := ((mem_seedClaims hids).mp hseed).2.2
    rwa [hstanding claim hscore] at hkept
  · intro hkept
    rw [seedClaims_eq, seedClaims_eq]
    refine congrArg (List.map Prod.snd) (filter_firsts_congr (ranks_scored hids) (ranks_scored hclaims) ?_)
    intro item hitem
    have hpositive : 0 < item.1 := of_decide_eq_true hitem
    rw [mem_firsts_iff (ranks_scored hids), mem_firsts_iff (ranks_scored hclaims), mem_scored,
      mem_scored]
    constructor
    · rintro ⟨⟨heq, hmem⟩, habove⟩
      have hscore : 0 < seedScore host query item.2 := by rwa [heq] at hpositive
      rw [heq, above_scored, hstanding _ hscore] at habove
      obtain hmem | hmem := List.mem_append.mp (hmerged.mem_iff.mp hmem)
      · refine ⟨⟨heq, hmem⟩, ?_⟩
        rw [heq, above_scored]
        omega
      · exact absurd (hextra item.2 hmem) hscore.ne'
    · rintro ⟨⟨heq, hmem⟩, habove⟩
      have hscore : 0 < seedScore host query item.2 := by rwa [heq] at hpositive
      refine ⟨⟨heq, hmerged.mem_iff.mpr (List.mem_append_left extra hmem)⟩, ?_⟩
      rw [heq, above_scored] at habove ⊢
      rw [hstanding _ hscore]
      exact hkept item.2 hmem hscore habove

/-- There is a seed if a claim with a score has one of the first places. -/
theorem seedClaims_ne_nil_iff (hids : (merged.map (·.id)).Nodup)
    (hsome : ∃ claim ∈ merged, 0 < seedScore host query claim) :
    seedClaims host config query merged ≠ [] ↔
      (merged.countP fun other => merged.all fun claim =>
        seedScore host query claim ≤ 0 || tierPriority claim < tierPriority other) <
          config.seedCount := by
  have hitem : ∃ item ∈ merged.map (scored host query), decide (0 < item.1) = true := by
    obtain ⟨claim, hclaim, hscore⟩ := hsome
    exact ⟨scored host query claim, List.mem_map_of_mem hclaim, decide_eq_true hscore⟩
  have hfirst := exists_mem_firsts_iff (k := config.seedCount) (ranks_scored hids) hitem
  have hcount : ((merged.map (scored host query)).countP fun y =>
      (merged.map (scored host query)).all fun x => !decide (0 < x.1) || !ranksBefore x y) =
      merged.countP fun other => merged.all fun claim =>
        seedScore host query claim ≤ 0 || tierPriority claim < tierPriority other := by
    rw [List.countP_map]
    refine List.countP_congr fun other hother => ?_
    simp only [Function.comp_apply, List.all_map, List.all_eq_true, Bool.or_eq_true,
      Bool.not_eq_true', decide_eq_true_iff, ranksBefore_eq_false_iff, scored]
    constructor
    · intro habove claim hclaim
      obtain hnone | hlt := habove claim hclaim
      · exact .inl (not_lt.mp (of_decide_eq_false hnone))
      · have hzero : seedScore host query other ≤ 0 :=
          not_lt.mp (of_decide_eq_false ((habove other hother).resolve_right (lt_irrefl _)))
        rw [rankKey, rankKey, Prod.Lex.toLex_lt_toLex, Prod.Lex.toLex_lt_toLex] at hlt
        obtain htier | ⟨-, hless | ⟨heq, -⟩⟩ := hlt
        · exact .inr htier
        · exact .inl (hless.le.trans hzero)
        · exact .inl (heq.le.trans hzero)
    · intro habove claim hclaim
      refine (habove claim hclaim).imp (fun hnone => decide_eq_false (not_lt.mpr hnone)) ?_
      exact fun htier => Prod.Lex.toLex_lt_toLex.mpr (.inl htier)
  rw [← hcount, ← hfirst, seedClaims_eq]
  constructor
  · intro hne
    obtain ⟨claim, hclaim⟩ := List.exists_mem_of_ne_nil _ hne
    obtain ⟨item, hfilter, -⟩ := List.mem_map.mp hclaim
    exact ⟨item, List.mem_of_mem_filter hfilter, (List.mem_filter.mp hfilter).2⟩
  · rintro ⟨item, hmem, hpositive⟩
    exact List.ne_nil_of_mem (List.mem_map_of_mem (List.mem_filter.mpr ⟨hmem, hpositive⟩))

/-- **Claims without a match hide nothing if the first places have room.** -/
theorem seeding_iff (host : ReconstructionHost) (policy : ExpansionPolicy)
    (config : ReconstructorConfig) (taskId query : String) (edges : List GraphEdge)
    (required : List String) (claims extra : List Claim) (table : ClaimTable)
    (hmerged : table.rows.Perm (claims ++ extra))
    (hextra : ∀ other ∈ extra, Irrelevant host query edges other) :
    Unhidden host policy config taskId query edges required claims table.rows ↔
      Room host config query claims extra table.rows := by
  have hseeds := seedClaims_merged_iff config table.ids hmerged
    fun other hother => (hextra other hother).score
  have hids : ∀ claims, (reconstruct host policy config taskId query edges claims required).seedNodeIds =
      (seedClaims host config query claims).map (·.id) := fun _ => rfl
  have hfound : ∀ claims, (reconstruct host policy config taskId query edges claims required).seedNodeIds ≠ [] ↔
      seedClaims host config query claims ≠ [] := fun claims => by rw [hids, ne_eq, List.map_eq_nil_iff]
  constructor
  · intro h
    refine ⟨hseeds.mp ?_, fun hcount hsome => ?_⟩
    · have hsome : ∀ seeds : List Claim, seeds ⊆ table.rows →
          (seeds.map (·.id)).map (getClaim table.rows) = seeds.map some := fun seeds hsub => by
        rw [List.map_map]
        exact List.map_congr_left fun seed hseed => getClaim_of_mem table.ids (hsub hseed)
      have hold : seedClaims host config query claims ⊆ table.rows := fun seed hseed =>
        hmerged.mem_iff.mpr (List.mem_append_left extra
          (seedClaims_subset host config query claims seed hseed))
      have hmaps := congrArg (List.map (getClaim table.rows)) h.seeds
      rw [hids, hids, hsome _ (seedClaims_subset host config query table.rows), hsome _ hold] at hmaps
      exact List.map_injective_iff.mpr (Option.some_injective Claim) hmaps
    · exact (seedClaims_ne_nil_iff table.ids hsome).mp ((hfound _).mp (h.found hcount hsome))
  · intro h
    have hsame := hseeds.mpr h.kept
    refine ⟨by rw [hids, hids, hsame], selected_merged table.ids hmerged hextra hsame required,
      fun hcount hsome => ?_⟩
    exact (hfound _).mpr ((seedClaims_ne_nil_iff table.ids hsome).mpr (h.found hcount hsome))

end

/-! ## Two rankings of three claims -/

def plainTables : CaseTables := ⟨id, id, id⟩

def plainHost : ReconstructionHost where
  tables := plainTables
  terms := Knowledge.Lessons.terms { sha256 := id, tables := plainTables }
  claimText claim := claim.subject ++ "  "
  estimateContextTokens := List.length
  scoreText _ := "0.90"

def retryClaim : Claim where
  id := "CLAIM-1"
  subject := "the retry policy doubles the delay"
  confidence := 9 / 10
  memoryTier := .episodic

def releaseClaim (id : String) : Claim where
  id := id
  subject := "release checklist"
  confidence := 9 / 10
  memoryTier := .semantic

def retryQuery : String := "retry policy"

theorem releaseClaim_irrelevant (id : String) (edges : List GraphEdge)
    (hedges : ∀ edge ∈ edges, edge.source ≠ id ∧ edge.target ≠ id) :
    Irrelevant plainHost retryQuery edges (releaseClaim id) := by
  refine ⟨?_, hedges⟩
  have hscore : seedScore plainHost retryQuery (releaseClaim "") = 0 := by decide +kernel
  exact hscore

/-- One further claim leaves the other place to the seed. -/
theorem seeding_iff_oneFurther : Unhidden plainHost (relationAwarePolicy plainHost) {} "TASK-1" retryQuery
    [] [] [retryClaim] [releaseClaim "CLAIM-2", retryClaim] := by
  refine (seeding_iff plainHost (relationAwarePolicy plainHost) {} "TASK-1" retryQuery [] []
    [retryClaim] [releaseClaim "CLAIM-2"] ⟨[releaseClaim "CLAIM-2", retryClaim], by decide⟩
    (List.Perm.swap _ _ _) ?_).mpr ⟨?_, ?_⟩
  · intro other hother
    rw [List.mem_singleton.mp hother]
    exact releaseClaim_irrelevant "CLAIM-2" [] fun edge hedge => nomatch hedge
  · decide +kernel
  · decide +kernel

/-- Two further claims take both places, and nothing is found. -/
theorem further_claims_hide : ¬∀ (claims extra : List Claim) (table : ClaimTable),
    table.rows.Perm (claims ++ extra) →
    (∀ other ∈ extra, Irrelevant plainHost retryQuery [] other) →
    Unhidden plainHost (relationAwarePolicy plainHost) {} "TASK-1" retryQuery [] [] claims
      table.rows := by
  intro h
  have hunhidden := h [retryClaim] [releaseClaim "CLAIM-2", releaseClaim "CLAIM-3"]
    ⟨[retryClaim, releaseClaim "CLAIM-2", releaseClaim "CLAIM-3"], by decide⟩ (List.Perm.refl _) ?_
  · have hsome : ∃ claim ∈ [retryClaim, releaseClaim "CLAIM-2", releaseClaim "CLAIM-3"],
        0 < seedScore plainHost retryQuery claim := by decide +kernel
    have hseeds : seedClaims plainHost {} retryQuery
        [retryClaim, releaseClaim "CLAIM-2", releaseClaim "CLAIM-3"] ≠ [] := fun hnil =>
      hunhidden.found (by decide) hsome (congrArg (List.map Claim.id) hnil)
    have hcount := (seedClaims_ne_nil_iff (by decide) hsome).mp hseeds
    revert hcount
    decide +kernel
  · intro other hother
    obtain rfl | rfl : other = releaseClaim "CLAIM-2" ∨ other = releaseClaim "CLAIM-3" := by
      simpa using hother
    · exact releaseClaim_irrelevant "CLAIM-2" [] fun edge hedge => nomatch hedge
    · exact releaseClaim_irrelevant "CLAIM-3" [] fun edge hedge => nomatch hedge

end RlmGraph.Memory.Seeding
