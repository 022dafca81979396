import Mathlib.Data.Prod.Lex
import RlmGraph.Memory.Retrieval

/-! # The ranker in shadow mode

A learned ranker reorders the records a memory has ranked. Until it is ready it
orders the records of one score by their ids, while the memories order them by
relation or path: a shadow ranker changes nothing if and only if the two orders
agree (`shadow_iff`). Of the network it is only used that it predicts and is
trained. -/
namespace RlmGraph.Memory.ShadowRanking
open RlmGraph.Lib RlmGraph.Lib.CompactJson RlmGraph.Lib.Filling RlmGraph.Lib.PyText
open RlmGraph.Memory.Continuity RlmGraph.Memory.Retrieval

/-! ## The ranker -/

/-- `(id, text, deterministic score, kind, confidence, vector, terms)`. -/
structure Candidate where
  memoryId : String
  text : String
  score : Nat
  kind : String
  confidence : ℚ
  cachedVector : List ℚ
  cachedTerms : List String

/-- What the network makes of the features of a query and a candidate with its
relevance: a prediction, and weights trained toward a target. -/
structure Network (W : Type) where
  forward : W → String → Candidate → ℚ → ℚ
  train : W → String → Candidate → ℚ → ℚ → W

structure RankerState (W : Type) where
  weights : W
  trainingExamples : Nat
  outcomeExamples : Nat
  rollingLoss : ℚ
  topKAgreement : ℚ

variable {W : Type}

/-- `_ema`. -/
def ema (previous current : ℚ) : ℚ :=
  if previous = 0 then current else 95 / 100 * previous + 5 / 100 * current

def RankerState.ready (state : RankerState W) : Bool :=
  decide (250 ≤ state.trainingExamples) && decide (40 ≤ state.outcomeExamples) &&
    decide (8 / 10 ≤ state.topKAgreement)

/-- One candidate is predicted and learned from. -/
def learn (network : Network W) (query : String) (maximum : Nat)
    (s : RankerState W × List (ℚ × String)) (candidate : Candidate) :
    RankerState W × List (ℚ × String) :=
  let relevance : ℚ := candidate.score / maximum
  let prediction := network.forward s.1.weights query candidate relevance
  let target := max 0 (min 1 relevance)
  ({ s.1 with
      weights := network.train s.1.weights query candidate relevance target
      trainingExamples := s.1.trainingExamples + 1
      rollingLoss := ema s.1.rollingLoss ((prediction - target) ^ 2) },
    s.2 ++ [(prediction, candidate.memoryId)])

/-- The share of the first eight ids that two orders have in common. -/
def agreement (neuralIds deterministicIds : List String) : ℚ :=
  let cutoff := min 8 deterministicIds.length
  (((neuralIds.take cutoff).dedup.filter (deterministicIds.take cutoff).contains).length : ℚ) /
    (max cutoff 1 : Nat)

/-- The order in shadow mode: `(-score, id, id)`. -/
def shadowKey (candidate : Candidate) : ℕᵒᵈ ×ₗ String ×ₗ String :=
  toLex (OrderDual.toDual candidate.score, toLex (candidate.memoryId, candidate.memoryId))

def shadowOrder (candidates : List Candidate) : List Candidate :=
  candidates.insertionSort fun a b => shadowKey a ≤ shadowKey b

/-- The order once the ranker is ready: `(-score, -neural_by_id[id], id)`. -/
def assistedOrder (predictions : List (ℚ × String)) (candidates : List Candidate) : List Candidate :=
  let neural (id : String) := ((predictions.reverse.find? (·.2 == id)).map (·.1)).getD 0
  candidates.insertionSort fun a b =>
    toLex (OrderDual.toDual a.score, toLex (OrderDual.toDual (neural a.memoryId), a.memoryId)) ≤
      toLex (OrderDual.toDual b.score, toLex (OrderDual.toDual (neural b.memoryId), b.memoryId))

/-- `rank`: the ordered ids, and the state after the call. -/
def rank (network : Network W) (state : RankerState W) (query : String)
    (candidates : List Candidate) : List String × RankerState W :=
  if candidates = [] then ([], state)
  else
    let best := (candidates.map (·.score)).foldl max 0
    let maximum := if best = 0 then 1 else best
    let (learned, predictions) := candidates.foldl (learn network query maximum) (state, [])
    let deterministicIds := (candidates.insertionSort fun a b =>
      toLex (OrderDual.toDual a.score, a.memoryId) ≤ toLex (OrderDual.toDual b.score, b.memoryId)).map
        (·.memoryId)
    let neuralIds := (predictions.insertionSort fun a b =>
      toLex (OrderDual.toDual a.1, a.2) ≤ toLex (OrderDual.toDual b.1, b.2)).map (·.2)
    let after := { learned with
      topKAgreement := ema learned.topKAgreement (agreement neuralIds deterministicIds) }
    let ordered := if after.ready then assistedOrder predictions candidates
      else shadowOrder candidates
    (ordered.map (·.memoryId), after)

/-- A ranker that is not ready once it has learned from the call orders by id. -/
theorem rank_of_not_ready (network : Network W) (state : RankerState W) (query : String)
    (candidates : List Candidate) (h : (rank network state query candidates).2.ready = false) :
    (rank network state query candidates).1 = (shadowOrder candidates).map (·.memoryId) := by
  unfold rank at h ⊢
  by_cases hnone : candidates = []
  · subst hnone
    rfl
  · rw [if_neg hnone] at h ⊢
    dsimp only at h ⊢
    rw [h]
    rfl

/-! ## Positions -/

/-- The position of an id is that of its last occurrence. -/
theorem position_of_mem {order : List String} {id : String} (hmem : id ∈ order) :
    ∃ i, position order id = .ok i ∧ order[i]? = some id ∧ ∀ j, i < j → order[j]? ≠ some id := by
  cases hfind : order.reverse.idxOf? id with
  | none => exact absurd (List.mem_reverse.mpr hmem) (List.idxOf?_eq_none_iff.mp hfind)
  | some k =>
    obtain ⟨hk, hid, hbefore⟩ := List.findIdx?_eq_some_iff_getElem.mp hfind
    rw [List.length_reverse] at hk
    refine ⟨order.length - 1 - k, ?_, ?_, ?_⟩
    · rw [position, hfind]
    · rw [List.getElem_reverse, beq_iff_eq] at hid
      rw [List.getElem?_eq_getElem (by omega), hid]
    · intro j hj hlater
      obtain ⟨hlt, hj'⟩ := List.getElem?_eq_some_iff.mp hlater
      refine hbefore (order.length - 1 - j) (by omega) ?_
      rw [List.getElem_reverse, beq_iff_eq]
      simpa only [show order.length - 1 - (order.length - 1 - j) = j by omega] using hj'

section
variable {α K : Type} [LinearOrder K] {key : α → K} {name : α → String} {items : List α}

/-- Among items sorted by keys that tell names apart, one name's position is
before another's if an item of the other stands behind all of the one. -/
theorem position_le_iff (hsorted : items.Pairwise fun a b => key a ≤ key b)
    (hkey : ∀ a b, key a = key b → name a = name b) {m n : String} {i j : Nat}
    (hm : m ∈ items.map name) (hn : n ∈ items.map name)
    (hi : position (items.map name) m = .ok i) (hj : position (items.map name) n = .ok j) :
    i ≤ j ↔ m = n ∨ ∃ b ∈ items, name b = n ∧ ∀ a ∈ items, name a = m → key a < key b := by
  obtain ⟨i', hi', hmi, hmlast⟩ := position_of_mem hm
  obtain rfl := Except.ok.inj (hi.symm.trans hi')
  obtain ⟨j', hj', hnj, hnlast⟩ := position_of_mem hn
  obtain rfl := Except.ok.inj (hj.symm.trans hj')
  rw [List.getElem?_map, Option.map_eq_some_iff] at hmi hnj
  obtain ⟨x, hx, hxm⟩ := hmi
  obtain ⟨y, hy, hyn⟩ := hnj
  obtain ⟨hilt, hxi⟩ := List.getElem?_eq_some_iff.mp hx
  obtain ⟨hjlt, hyj⟩ := List.getElem?_eq_some_iff.mp hy
  have hle : ∀ {k l : Nat} (hk : k < items.length) (hl : l < items.length), k ≤ l →
      key items[k] ≤ key items[l] := by
    intro k l hk hl hkl
    rcases Nat.eq_or_lt_of_le hkl with rfl | hlt
    · exact le_refl _
    · exact List.pairwise_iff_getElem.mp hsorted k l hk hl hlt
  -- an item of a name is nowhere behind the name's position
  have hlast : ∀ {name' : String} {p : Nat}, (∀ l, p < l → (items.map name)[l]? ≠ some name') →
      ∀ l (hl : l < items.length), name items[l] = name' → l ≤ p := by
    intro name' p hend l hl hname
    by_contra hlt
    refine hend l (Nat.not_le.mp hlt) ?_
    rw [List.getElem?_map, List.getElem?_eq_getElem hl, Option.map_some, hname]
  constructor
  · intro hij
    by_cases hmn : m = n
    · exact .inl hmn
    · refine .inr ⟨y, hyj ▸ List.getElem_mem hjlt, hyn, fun a ha ham => ?_⟩
      obtain ⟨l, hl, rfl⟩ := List.getElem_of_mem ha
      have hlj := Nat.le_trans (hlast hmlast l hl ham) hij
      refine lt_of_le_of_ne (hyj ▸ hle hl hjlt hlj) fun heq => hmn ?_
      rw [← ham, hkey _ _ heq, hyn]
  · rintro (rfl | ⟨b, hb, hbn, hbehind⟩)
    · exact Nat.le_of_eq (Except.ok.inj (hi.symm.trans hj))
    · obtain ⟨l, hl, rfl⟩ := List.getElem_of_mem hb
      have hlt := hbehind x (hxi ▸ List.getElem_mem hilt) hxm
      have hil : i < l := by
        by_contra hge
        exact absurd (hle hl hilt (Nat.not_lt.mp hge)) (not_le.mpr (hxi ▸ hlt))
      exact Nat.le_trans (Nat.le_of_lt hil) (hlast hnlast l hl hbn)

end

/-! ## Ranked records in the order of the ranker -/

section
variable {ρ : Type} {memoryId : ρ → String} {candidate : Nat × ρ → Candidate}
  {ranked reordered : List (Nat × ρ)} {order : List String}

/-- Records are sorted by their scores. -/
def ByScore (ranked : List (Nat × ρ)) : Prop := ranked.Pairwise fun a b => b.1 ≤ a.1

/-- Records of one score stay as they are: the ids of the earlier ones come
first, where the place of an id is that of its last record. -/
def TiesKept (memoryId : ρ → String) (ranked : List (Nat × ρ)) : Prop :=
  ranked.Pairwise fun a b => a.1 = b.1 →
    memoryId a.2 = memoryId b.2 ∨ ∃ last ∈ ranked, memoryId last.2 = memoryId b.2 ∧
      ∀ other ∈ ranked, memoryId other.2 = memoryId a.2 →
        last.1 < other.1 ∨ last.1 = other.1 ∧ memoryId a.2 < memoryId b.2

/-- The place of an id in an order that has it. -/
def placeIn (order : List String) (id : String) : Nat := (position order id).toOption.getD 0

theorem position_eq_placeIn {id : String} (hmem : id ∈ order) :
    position order id = .ok (placeIn order id) := by
  obtain ⟨i, hi, -⟩ := position_of_mem hmem
  rw [placeIn, hi]
  rfl

/-- Before a record: a better score, or the same and a place no later. -/
def Before (memoryId : ρ → String) (order : List String) (a b : Nat × ρ) : Prop :=
  b.1 < a.1 ∨ b.1 = a.1 ∧ placeIn order (memoryId a.2) ≤ placeIn order (memoryId b.2)

/-- The order of `reranked` on records with their places. -/
def placedBefore (a b : Nat × (Nat × ρ)) : Bool :=
  (compare b.2.1 a.2.1 |>.then (compare a.1 b.1)).isLE

theorem placedBefore_iff {a b : Nat × (Nat × ρ)} :
    placedBefore a b = true ↔ b.2.1 < a.2.1 ∨ b.2.1 = a.2.1 ∧ a.1 ≤ b.1 := by
  unfold placedBefore
  rw [Ordering.isLE_then_iff_or, Nat.compare_eq_lt, Nat.compare_eq_eq, Nat.isLE_compare]

instance : Std.Total fun a b : Nat × (Nat × ρ) => placedBefore a b = true where
  total a b := by
    simp only [placedBefore_iff]
    omega

instance : IsTrans (Nat × (Nat × ρ)) fun a b => placedBefore a b = true where
  trans a b c := by
    simp only [placedBefore_iff]
    omega

/-- The ranked records with their places, sorted. -/
def sortedPlaces (memoryId : ρ → String) (order : List String) (ranked : List (Nat × ρ)) :
    List (Nat × (Nat × ρ)) :=
  (ranked.map fun item => (placeIn order (memoryId item.2), item)).insertionSort
    fun a b => placedBefore a b = true

theorem reranked_eq (hmem : ∀ item ∈ ranked, memoryId item.2 ∈ order) :
    reranked memoryId order ranked = .ok ((sortedPlaces memoryId order ranked).map (·.2)) := by
  have hmap : ranked.mapM (fun item => (position order (memoryId item.2)).map (·, item)) =
      .ok (ranked.map fun item => (placeIn order (memoryId item.2), item)) := by
    induction ranked with
    | nil => rfl
    | cons item ranked ih =>
      obtain ⟨hfirst, hrest⟩ := List.forall_mem_cons.mp hmem
      rw [List.mapM_cons, position_eq_placeIn hfirst, ih hrest]
      rfl
  rw [reranked, hmap]
  rfl

theorem perm_sortedPlaces (memoryId : ρ → String) (order : List String) (ranked : List (Nat × ρ)) :
    ((sortedPlaces memoryId order ranked).map (·.2)).Perm ranked := by
  have hperm := (List.perm_insertionSort (fun a b : Nat × (Nat × ρ) => placedBefore a b = true)
    (ranked.map fun item => (placeIn order (memoryId item.2), item))).map (·.2)
  rw [List.map_map] at hperm
  exact hperm.trans (List.Perm.of_eq (List.map_id _))

/-- The records are in the order of their scores and places. -/
theorem pairwise_sortedPlaces (memoryId : ρ → String) (order : List String)
    (ranked : List (Nat × ρ)) :
    ((sortedPlaces memoryId order ranked).map (·.2)).Pairwise (Before memoryId order) := by
  have hsorted : (sortedPlaces memoryId order ranked).Pairwise fun a b => placedBefore a b = true :=
    List.pairwise_insertionSort (fun a b : Nat × (Nat × ρ) => placedBefore a b = true) _
  have hplaces : ∀ item ∈ sortedPlaces memoryId order ranked,
      item.1 = placeIn order (memoryId item.2.2) := by
    intro item hitem
    obtain ⟨record, -, rfl⟩ := List.mem_map.mp ((List.mem_insertionSort _).mp hitem)
    rfl
  refine List.pairwise_map.mpr (hsorted.imp_of_mem fun {a b} ha hb hbefore => ?_)
  rw [placedBefore_iff, hplaces a ha, hplaces b hb] at hbefore
  exact hbefore

/-- The records keep their order if and only if their ids do, which is when
they are in the order of their places already. -/
theorem sortedPlaces_eq_iff (memoryId : ρ → String) (order : List String)
    (hscores : ByScore ranked) :
    ((sortedPlaces memoryId order ranked).map (·.2) = ranked ↔
      ranked.Pairwise (Before memoryId order)) ∧
    (((sortedPlaces memoryId order ranked).map (·.2)).map (memoryId ·.2) = ranked.map (memoryId ·.2) →
      (sortedPlaces memoryId order ranked).map (·.2) = ranked) := by
  have hkept : ranked.Pairwise (Before memoryId order) →
      (sortedPlaces memoryId order ranked).map (·.2) = ranked := by
    intro hbefore
    have hplaced : (ranked.map fun item => (placeIn order (memoryId item.2), item)).Pairwise
        fun a b => placedBefore a b = true :=
      List.pairwise_map.mpr (hbefore.imp fun h => placedBefore_iff.mpr h)
    rw [sortedPlaces, hplaced.insertionSort_eq, List.map_map]
    exact List.map_id _
  have hpairs := pairwise_sortedPlaces memoryId order ranked
  refine ⟨⟨fun heq => heq ▸ hpairs, hkept⟩, fun hids => hkept ?_⟩
  have hperm := perm_sortedPlaces memoryId order ranked
  have hdown : ∀ items : List (Nat × ρ), ByScore items →
      (items.map (·.1)).Pairwise (· ≥ ·) := fun items h => List.pairwise_map.mpr h
  have hscores' : ByScore ((sortedPlaces memoryId order ranked).map (·.2)) :=
    hpairs.imp fun h => h.elim Nat.le_of_lt fun h => Nat.le_of_eq h.1
  have hsame : ((sortedPlaces memoryId order ranked).map (·.2)).map (·.1) = ranked.map (·.1) :=
    (hperm.map _).eq_of_pairwise (fun a b _ _ hab hba => Nat.le_antisymm hba hab)
      (hdown _ hscores') (hdown _ hscores)
  -- a record's score and id decide where it may stand
  have hstand : ∀ items : List (Nat × ρ), items.map (fun item => (item.1, memoryId item.2)) =
      (items.map (·.1)).zip (items.map (memoryId ·.2)) := fun items => List.zip_map'.symm
  have hboth : ((sortedPlaces memoryId order ranked).map (·.2)).map
      (fun item => (item.1, memoryId item.2)) = ranked.map fun item => (item.1, memoryId item.2) := by
    rw [hstand, hstand, hsame, hids]
  have hbefore : ∀ items : List (Nat × ρ), items.Pairwise (Before memoryId order) ↔
      (items.map fun item => (item.1, memoryId item.2)).Pairwise fun a b =>
        b.1 < a.1 ∨ b.1 = a.1 ∧ placeIn order a.2 ≤ placeIn order b.2 :=
    fun items => Iff.symm (List.pairwise_map (f := fun item : Nat × ρ => (item.1, memoryId item.2)))
  exact (hbefore ranked).mpr (hboth ▸ (hbefore _).mp hpairs)

/-! ## The order of a shadow ranker -/

/-- The candidates of ranked records carry their scores and ids. -/
structure Presents (memoryId : ρ → String) (candidate : Nat × ρ → Candidate) : Prop where
  score : ∀ item, (candidate item).score = item.1
  memoryId : ∀ item, (candidate item).memoryId = memoryId item.2

theorem shadowKey_lt {a b : Candidate} : shadowKey a < shadowKey b ↔
    b.score < a.score ∨ b.score = a.score ∧ a.memoryId < b.memoryId := by
  unfold shadowKey
  rw [Prod.Lex.toLex_lt_toLex, Prod.Lex.toLex_lt_toLex, OrderDual.toDual_lt_toDual,
    OrderDual.toDual_inj]
  constructor
  · rintro (hscore | ⟨hscore, hid | ⟨-, hid⟩⟩)
    · exact .inl hscore
    · exact .inr ⟨hscore.symm, hid⟩
    · exact .inr ⟨hscore.symm, hid⟩
  · rintro (hscore | ⟨hscore, hid⟩)
    · exact .inl hscore
    · exact .inr ⟨hscore.symm, .inl hid⟩

/-- The ids of the shadow order. -/
def shadowIds (candidate : Nat × ρ → Candidate) (ranked : List (Nat × ρ)) : List String :=
  (shadowOrder (ranked.map candidate)).map (·.memoryId)

theorem mem_shadowOrder {c : Candidate} :
    c ∈ shadowOrder (ranked.map candidate) ↔ ∃ item ∈ ranked, candidate item = c := by
  rw [shadowOrder, List.mem_insertionSort, List.mem_map]

theorem mem_shadowIds (h : Presents memoryId candidate) {item : Nat × ρ} (hitem : item ∈ ranked) :
    memoryId item.2 ∈ shadowIds candidate ranked :=
  List.mem_map.mpr ⟨candidate item, mem_shadowOrder.mpr ⟨item, hitem, rfl⟩, h.memoryId item⟩

/-- One record's place is no later than another's. -/
theorem placeIn_shadowIds_le_iff (h : Presents memoryId candidate) {a b : Nat × ρ}
    (ha : a ∈ ranked) (hb : b ∈ ranked) :
    placeIn (shadowIds candidate ranked) (memoryId a.2) ≤
        placeIn (shadowIds candidate ranked) (memoryId b.2) ↔
      memoryId a.2 = memoryId b.2 ∨ ∃ last ∈ ranked, memoryId last.2 = memoryId b.2 ∧
        ∀ other ∈ ranked, memoryId other.2 = memoryId a.2 →
          last.1 < other.1 ∨ last.1 = other.1 ∧ memoryId a.2 < memoryId b.2 := by
  have hmemA := mem_shadowIds h ha
  have hmemB := mem_shadowIds h hb
  have hsorted : (shadowOrder (ranked.map candidate)).Pairwise fun c d => shadowKey c ≤ shadowKey d :=
    List.pairwise_insertionSort (fun c d : Candidate => shadowKey c ≤ shadowKey d) _
  have hkey : ∀ c d : Candidate, shadowKey c = shadowKey d → c.memoryId = d.memoryId := fun c d heq =>
    congrArg (fun key => (ofLex (ofLex key).2).1) heq
  refine (position_le_iff hsorted hkey hmemA hmemB (position_eq_placeIn hmemA)
    (position_eq_placeIn hmemB)).trans (or_congr_right ?_)
  constructor
  · rintro ⟨c, hc, hid, hbehind⟩
    obtain ⟨last, hlast, rfl⟩ := mem_shadowOrder.mp hc
    rw [h.memoryId] at hid
    refine ⟨last, hlast, hid, fun other hother hsame => ?_⟩
    have hlt := shadowKey_lt.mp (hbehind (candidate other)
      (mem_shadowOrder.mpr ⟨other, hother, rfl⟩) ((h.memoryId other).trans hsame))
    rwa [h.score, h.score, h.memoryId, h.memoryId, hsame, hid] at hlt
  · rintro ⟨last, hlast, hid, hbehind⟩
    refine ⟨candidate last, mem_shadowOrder.mpr ⟨last, hlast, rfl⟩, (h.memoryId last).trans hid, ?_⟩
    intro c hc hsame
    obtain ⟨other, hother, rfl⟩ := mem_shadowOrder.mp hc
    rw [h.memoryId] at hsame
    rw [shadowKey_lt, h.score, h.score, h.memoryId, h.memoryId, hsame, hid]
    exact hbehind other hother hsame

/-- The records are in the order of their places if and only if the ties are. -/
theorem before_shadow_iff (h : Presents memoryId candidate) (hscores : ByScore ranked) :
    ranked.Pairwise (Before memoryId (shadowIds candidate ranked)) ↔ TiesKept memoryId ranked := by
  have hplaces : ∀ a b : Nat × ρ, b.1 ≤ a.1 → (Before memoryId (shadowIds candidate ranked) a b ↔
      (a.1 = b.1 → placeIn (shadowIds candidate ranked) (memoryId a.2) ≤
        placeIn (shadowIds candidate ranked) (memoryId b.2))) := by
    intro a b hle
    unfold Before
    constructor
    · rintro (hlt | ⟨-, hplace⟩) heq
      · exact absurd heq (Nat.ne_of_gt hlt)
      · exact hplace
    · intro hplace
      rcases Nat.eq_or_lt_of_le hle with heq | hlt
      · exact .inr ⟨heq, hplace heq.symm⟩
      · exact .inl hlt
  constructor
  · intro hbefore
    refine (hscores.and hbefore).imp_of_mem fun {a b} ha hb hboth heq => ?_
    exact (placeIn_shadowIds_le_iff h ha hb).mp ((hplaces a b hboth.1).mp hboth.2 heq)
  · intro hties
    refine (hscores.and hties).imp_of_mem fun {a b} ha hb hboth => ?_
    exact (hplaces a b hboth.1).mpr fun heq => (placeIn_shadowIds_le_iff h ha hb).mpr (hboth.2 heq)

/-! ## What is selected -/

/-- With room for all records the loop takes them all. -/
theorem fill_ranked_all {host : RetrievalHost} {value : Nat × ρ → Value} {limit : Nat}
    {taken : List (Nat × ρ)}
    (hroom : (rankedFiller host value).used (taken ++ ranked) ≤ limit) :
    (rankedFiller host value).fill limit ranked ((rankedFiller host value).used taken) taken =
      taken ++ ranked := by
  induction ranked generalizing taken with
  | nil => exact (List.append_nil taken).symm
  | cons item ranked ih =>
    have hmore : taken ++ item :: ranked = taken ++ [item] ++ ranked := by
      rw [List.append_assoc, List.singleton_append]
    have hfits : (rankedFiller host value).used taken + (rankedFiller host value).size item ≤ limit := by
      rw [hmore, Filler.used, List.map_append, List.sum_append] at hroom
      have hused : (rankedFiller host value).used (taken ++ [item]) =
          (rankedFiller host value).used taken + (rankedFiller host value).size item :=
        Filler.used_concat
      unfold Filler.used at hused ⊢
      omega
    rw [Filler.fill_take rfl hfits Bool.false_ne_true, ih (hmore ▸ hroom), ← hmore]

/-- What a retrieval returns for records in an order. -/
def rankedContext (host : RetrievalHost) (header : String) (memoryId : ρ → String)
    (value : Nat × ρ → Value) (charBudget : Nat) (ranked : List (Nat × ρ)) : RetrievedContext :=
  let selected := (rankedFiller host value).fill charBudget ranked 2 []
  retrievedContext host header (selected.map (memoryId ·.2)) (selected.map value)

theorem memoryIds_rankedContext {host : RetrievalHost} {header : String} {value : Nat × ρ → Value}
    {charBudget : Nat} (hroom : (rankedFiller host value).used ranked ≤ charBudget) :
    (rankedContext host header memoryId value charBudget ranked).memoryIds =
      ranked.map (memoryId ·.2) := by
  have hall : (rankedFiller host value).fill charBudget ranked
      ((rankedFiller host value).used []) [] = [] ++ ranked := fill_ranked_all hroom
  rw [Filler.used_nil] at hall
  unfold rankedContext
  rw [hall]
  rfl

/-- Reordered by a shadow ranker, the records give the same contexts if and only
if ties are kept. -/
theorem reordered_iff (host : RetrievalHost) (header : String) (value : Nat × ρ → Value)
    (h : Presents memoryId candidate) (hscores : ByScore ranked) :
    ∃ reordered, reranked memoryId (shadowIds candidate ranked) ranked = .ok reordered ∧
      ((∀ charBudget, rankedContext host header memoryId value charBudget reordered =
          rankedContext host header memoryId value charBudget ranked) ↔ TiesKept memoryId ranked) := by
  refine ⟨_, reranked_eq fun item hitem => mem_shadowIds h hitem, ?_⟩
  obtain ⟨hkept, hids⟩ := sortedPlaces_eq_iff memoryId (shadowIds candidate ranked) hscores
  rw [← before_shadow_iff h hscores, ← hkept]
  constructor
  · intro hsame
    -- with room for everything the ids are those of the two orders
    let room := max ((rankedFiller host value).used
      ((sortedPlaces memoryId (shadowIds candidate ranked) ranked).map (·.2)))
      ((rankedFiller host value).used ranked)
    have hrooms := congrArg (·.memoryIds) (hsame room)
    rw [memoryIds_rankedContext (Nat.le_max_left _ _),
      memoryIds_rankedContext (Nat.le_max_right _ _)] at hrooms
    exact hids hrooms
  · intro heq charBudget
    rw [heq]

end

/-! ## The memories -/

/-- The candidates of a spatial memory, with the vector of a record. -/
def spatialCandidate (vector : SpatialMemoryRecord → List ℚ) (item : Nat × SpatialMemoryRecord) :
    Candidate where
  memoryId := item.2.memoryId
  text := spatialText item.2
  score := item.1
  kind := "spatial"
  confidence := 1
  cachedVector := vector item.2
  cachedTerms := item.2.searchTerms

/-- The candidates of a geometric memory. -/
def geometricCandidate (host : RetrievalHost) (vector : GeometricMemoryRecord → List ℚ)
    (item : Nat × GeometricMemoryRecord) : Candidate :=
  let searchable := " ".intercalate ([item.2.assetPath, item.2.semanticKind] ++ item.2.constraints)
  { memoryId := item.2.memoryId
    text := searchable
    score := item.1
    kind := "geometry"
    confidence := 1
    cachedVector := vector item.2
    cachedTerms := if item.2.searchTerms = [] then tokenizeMemory host.text searchable
      else item.2.searchTerms }

theorem presents_spatial (vector : SpatialMemoryRecord → List ℚ) :
    Presents (·.memoryId) (spatialCandidate vector) :=
  ⟨fun _ => rfl, fun _ => rfl⟩

theorem presents_geometric (host : RetrievalHost) (vector : GeometricMemoryRecord → List ℚ) :
    Presents (·.memoryId) (geometricCandidate host vector) :=
  ⟨fun _ => rfl, fun _ => rfl⟩

/-- The ids in the order of a ranker. -/
def rankIds {ρ : Type} (network : Network W) (state : RankerState W) (candidate : Nat × ρ → Candidate)
    (query : String) (ranked : List (Nat × ρ)) : List String :=
  (rank network state query (ranked.map candidate)).1

theorem isLE_compare_iff {K : Type} [LinearOrder K] {a b : K} :
    (compare a b).isLE = true ↔ a ≤ b := by
  rw [Ordering.isLE_iff_ne_gt, ← not_lt, ← compare_gt_iff_gt]

section
variable {ρ K : Type} [LinearOrder K] {before : Nat × ρ → Nat × ρ → Prop} [DecidableRel before]

/-- Items sorted by their scores and then by keys are sorted by their scores. -/
theorem byScore_insertionSort (key : ρ → K) (items : List (Nat × ρ))
    (hbefore : ∀ a b, before a b ↔ b.1 < a.1 ∨ b.1 = a.1 ∧ key a.2 ≤ key b.2) :
    ByScore (items.insertionSort before) := by
  have htotal : Std.Total before := by
    constructor
    intro a b
    rw [hbefore, hbefore]
    rcases Nat.lt_trichotomy a.1 b.1 with hlt | heq | hgt
    · exact .inr (.inl hlt)
    · rcases le_total (key a.2) (key b.2) with hkey | hkey
      · exact .inl (.inr ⟨heq.symm, hkey⟩)
      · exact .inr (.inr ⟨heq, hkey⟩)
    · exact .inl (.inl hgt)
  have htrans : IsTrans _ before := by
    constructor
    intro a b c
    rw [hbefore, hbefore, hbefore]
    rintro (hab | ⟨hab, hkey⟩) (hbc | ⟨hbc, hkey'⟩)
    · exact .inl (Nat.lt_trans hbc hab)
    · exact .inl (hbc ▸ hab)
    · exact .inl (hab ▸ hbc)
    · exact .inr ⟨hbc.trans hab, hkey.trans hkey'⟩
  refine (List.pairwise_insertionSort before items).imp fun {a b} h => ?_
  rcases (hbefore a b).mp h with hlt | ⟨heq, -⟩
  · exact Nat.le_of_lt hlt
  · exact Nat.le_of_eq heq

end

theorem byScore_spatial {host : RetrievalHost} {stored : List SpatialMemoryRecord} {query : String}
    {ranked : List (Nat × SpatialMemoryRecord)}
    (hranked : (SpatialMemory.mk stored 0 none).ranked host query = .ok ranked) : ByScore ranked := by
  obtain rfl := Except.ok.inj hranked
  refine byScore_insertionSort (fun record => toLex (record.relation, record.memoryId)) _ fun a b => ?_
  rw [Ordering.isLE_then_iff_or, Ordering.then_eq_lt, Ordering.then_eq_eq, compare_lt_iff_lt,
    compare_eq_iff_eq, compare_lt_iff_lt, compare_eq_iff_eq, isLE_compare_iff,
    Prod.Lex.toLex_le_toLex]
  tauto

theorem byScore_geometric {host : RetrievalHost} {stored : List GeometricMemoryRecord}
    {query : String} {ranked : List (Nat × GeometricMemoryRecord)}
    (hranked : (GeometricMemory.mk stored 0 none).ranked host query = .ok ranked) :
    ByScore ranked := by
  obtain rfl := Except.ok.inj hranked
  refine byScore_insertionSort (fun record => record.assetPath) _ fun a b => ?_
  rw [Ordering.isLE_then_iff_or, compare_lt_iff_lt, compare_eq_iff_eq, isLE_compare_iff]

/-- **A shadow ranker changes nothing if ties are kept**: for a store and a
query, the retrievals with a ranker that is not ready in the call are those
without it, whatever the budget, if and only if no two records of one score are
ordered one way by relation and id, or path, and the other way by id. -/
theorem shadow_iff (host : RetrievalHost) (network : Network W) (state : RankerState W) :
    (∀ vector stored query ranked,
      (SpatialMemory.mk stored 0 none).ranked host query = .ok ranked →
      (rank network state query (ranked.map (spatialCandidate vector))).2.ready = false →
      ((∀ charBudget,
        (SpatialMemory.mk stored charBudget
          (some (rankIds network state (spatialCandidate vector)))).retrieve host query =
        (SpatialMemory.mk stored charBudget none).retrieve host query) ↔
          TiesKept (·.memoryId) ranked)) ∧
    ∀ vector stored query ranked,
      (GeometricMemory.mk stored 0 none).ranked host query = .ok ranked →
      (rank network state query (ranked.map (geometricCandidate host vector))).2.ready = false →
      ((∀ charBudget,
        (GeometricMemory.mk stored charBudget
          (some (rankIds network state (geometricCandidate host vector)))).retrieve host query =
        (GeometricMemory.mk stored charBudget none).retrieve host query) ↔
          TiesKept (·.memoryId) ranked) := by
  constructor
  · intro vector stored query ranked hranked hready
    obtain ⟨reordered, hreordered, hiff⟩ := reordered_iff host spatialHeader spatialValue
      (presents_spatial vector) (byScore_spatial hranked)
    rw [← hiff]
    refine forall_congr' fun charBudget => ?_
    have hplain : (SpatialMemory.mk stored charBudget none).ranked host query = .ok ranked := hranked
    have hshadow : (SpatialMemory.mk stored charBudget
        (some (rankIds network state (spatialCandidate vector)))).ranked host query =
        .ok reordered := by
      rw [← hreordered, shadowIds, ← rank_of_not_ready network state query _ hready]
      obtain rfl := Except.ok.inj hranked
      rfl
    rw [SpatialMemory.retrieve_of_ranked _ hplain, SpatialMemory.retrieve_of_ranked _ hshadow]
    exact ⟨fun h => Except.ok.inj h, fun h => congrArg Except.ok h⟩
  · intro vector stored query ranked hranked hready
    obtain ⟨reordered, hreordered, hiff⟩ := reordered_iff host geometricHeader geometricValue
      (presents_geometric host vector) (byScore_geometric hranked)
    rw [← hiff]
    refine forall_congr' fun charBudget => ?_
    have hplain : (GeometricMemory.mk stored charBudget none).ranked host query = .ok ranked := hranked
    have hshadow : (GeometricMemory.mk stored charBudget
        (some (rankIds network state (geometricCandidate host vector)))).ranked host query =
        .ok reordered := by
      rw [← hreordered, shadowIds, ← rank_of_not_ready network state query _ hready]
      obtain rfl := Except.ok.inj hranked
      rfl
    rw [GeometricMemory.retrieve_of_ranked _ hplain, GeometricMemory.retrieve_of_ranked _ hshadow]
    exact ⟨fun h => Except.ok.inj h, fun h => congrArg Except.ok h⟩

/-! ## Two records of a wall -/

/-- A network that has learned nothing. -/
def flatNetwork : Network Unit where
  forward _ _ _ _ := 1 / 2
  train weights _ _ _ _ := weights

def newState : RankerState Unit := ⟨(), 0, 0, 0, 0⟩

def wallCandidate : Nat × SpatialMemoryRecord → Candidate := spatialCandidate fun _ => []

theorem walls_not_ready :
    (rank flatNetwork newState "Build a wall." (rankedWalls.map wallCandidate)).2.ready = false := by
  decide +kernel

theorem shadow_iff_walls :
    (∀ charBudget,
      (SpatialMemory.mk (wallMemory 0).stored charBudget
        (some (rankIds flatNetwork newState wallCandidate))).retrieve plainRetrieval "Build a wall." =
      (wallMemory charBudget).retrieve plainRetrieval "Build a wall.") ↔
        TiesKept (·.memoryId) rankedWalls :=
  (shadow_iff plainRetrieval flatNetwork newState).1 (fun _ => []) _ _ _ (ranked_walls 0)
    walls_not_ready

/-- With room for one record, another one is returned. -/
theorem shadow_ranker_reorders :
    (rank flatNetwork newState "Build a wall." (rankedWalls.map wallCandidate)).2.ready = false ∧
      ((wallMemory 300).retrieve plainRetrieval "Build a wall.").map (·.memoryIds) =
        .ok ["SPATIAL-2"] ∧
      ((SpatialMemory.mk (wallMemory 300).stored 300
        (some (rankIds flatNetwork newState wallCandidate))).retrieve plainRetrieval
          "Build a wall.").map (·.memoryIds) = .ok ["SPATIAL-1"] := by
  refine ⟨walls_not_ready, ?_, ?_⟩
  · decide +kernel
  · decide +kernel

end RlmGraph.Memory.ShadowRanking
