import Mathlib.Algebra.Order.Ring.Rat
import Mathlib.Data.Prod.Lex
import RlmGraph.Lib.CompactJson
import RlmGraph.Lib.Filling
import RlmGraph.Memory.ContinuityRuns
import RlmGraph.Memory.Symbols

/-! # Retrieval within a budget of characters

Four memories rank their records for a query and return the ones that fit a
budget of characters. The budget counts the text of each record and the brackets
of the list, but no separator: the list's text is within the budget if and only
if no separator decides (`retrieval_within_iff`). -/
namespace RlmGraph.Memory.Retrieval
open RlmGraph.Lib RlmGraph.Lib.CompactJson RlmGraph.Lib.Filling RlmGraph.Lib.PyText
open RlmGraph.Memory.Continuity

structure RetrievalHost where
  text : Continuity.Host
  /-- `repr` of a float. -/
  floatText : ℚ → List Char
  exactTokens : String → Nat
  /-- `_WORD.findall`. -/
  findWords : String → List String
  /-- `token_index.concepts(memory_id, text)`. -/
  indexedConcepts : String → String → List String
  /-- `round(value, 6)`. -/
  rounded : ℚ → ℚ

def textSize (host : RetrievalHost) (value : Value) : Nat := (text host.floatText value).length

/-- `json.dumps(selected, separators=(",", ":"))`. -/
def listText (host : RetrievalHost) (values : List Value) : List Char :=
  text host.floatText (.arr values)

/-- `set(re.findall(r"[a-z0-9_]+", query.casefold()))`. -/
def queryTerms (host : RetrievalHost) (query : String) : List String :=
  (memoryTokens host.text query).dedup

/-- `set(cached or tokenize_memory(searchable))` met by the terms of a query. -/
def overlap (host : RetrievalHost) (query : String) (cached : List String) (searchable : String) : Nat :=
  let terms := if cached = [] then tokenizeMemory host.text searchable else cached
  ((queryTerms host query).filter terms.contains).length

structure RetrievedContext where
  text : String
  memoryIds : List String
  recordCount : Nat
  characters : Nat
  tokens : Nat
  submissionDerivedRecords : Nat := 0

/-- What a retrieval returns, with the header of its memory. -/
def retrievedContext (host : RetrievalHost) (header : String) (memoryIds : List String)
    (values : List Value) : RetrievedContext :=
  let text := header ++ String.ofList (listText host values)
  { text, memoryIds
    recordCount := values.length
    characters := text.toList.length
    tokens := host.exactTokens text }

/-- The list of records behind the header. -/
def RetrievedContext.records (context : RetrievedContext) (header : String) : List Char :=
  context.text.toList.drop header.toList.length

/-! ## The order of the ranker -/

/-- `{memory_id: index for index, memory_id in enumerate(order)}[memory_id]`. -/
def position (order : List String) (memoryId : String) : Except PyError Nat :=
  match order.reverse.idxOf? memoryId with
  | none => .error (.key memoryId)
  | some i => .ok (order.length - 1 - i)

/-- The ranked records by their scores, and by the ranker's order within a score. -/
def reranked {ρ : Type} (memoryId : ρ → String) (order : List String) (ranked : List (Nat × ρ)) :
    Except PyError (List (Nat × ρ)) := do
  let placed ← ranked.mapM fun item => (position order (memoryId item.2)).map (·, item)
  return (placed.insertionSort fun a b =>
    (compare b.2.1 a.2.1 |>.then (compare a.1 b.1)).isLE).map (·.2)

/-! ## Spatial memory -/

structure SpatialMemoryRecord where
  memoryId : String
  relation : String
  subjectType : String
  objectType : String
  invariant : String
  verificationStrategy : String
  concepts : List String
  provenance : String := "TGRAM_VERIFIED_SPATIAL_ONTOLOGY"
  verified : Bool := true
  submissionDerived : Bool := false
  searchTerms : List String := []
  deriving DecidableEq

structure SpatialMemory where
  /-- The records of the lines that hold one. -/
  stored : List SpatialMemoryRecord
  charBudget : Nat := 6500
  /-- `neural_ranker.rank`: the order of the ranked records. -/
  neuralRanker : Option (String → List (Nat × SpatialMemoryRecord) → List String) := none

def SpatialMemory.records (memory : SpatialMemory) : List SpatialMemoryRecord :=
  memory.stored.filter fun record => record.verified && !record.submissionDerived

def spatialText (record : SpatialMemoryRecord) : String :=
  " ".intercalate ([record.relation, record.subjectType, record.objectType, record.invariant,
    record.verificationStrategy] ++ record.concepts)

def SpatialMemory.ranked (memory : SpatialMemory) (host : RetrievalHost) (query : String) :
    Except PyError (List (Nat × SpatialMemoryRecord)) :=
  let scored := memory.records.map fun record =>
    (overlap host query record.searchTerms (spatialText record), record)
  let ranked := (scored.filter (·.1 ≠ 0)).insertionSort fun a b =>
    (compare b.1 a.1 |>.then (compare a.2.relation b.2.relation)
      |>.then (compare a.2.memoryId b.2.memoryId)).isLE
  match memory.neuralRanker with
  | none => .ok ranked
  | some rank => reranked (·.memoryId) (rank query ranked) ranked

/-- The payload of a ranked record. -/
def spatialValue (item : Nat × SpatialMemoryRecord) : Value :=
  let record := item.2
  .obj [("memory_id", .str record.memoryId), ("relation", .str record.relation),
    ("subject_type", .str record.subjectType), ("object_type", .str record.objectType),
    ("invariant", .str record.invariant),
    ("verification_strategy", .str record.verificationStrategy),
    ("concepts", strings record.concepts), ("provenance", .str record.provenance),
    ("verified", .bool record.verified), ("submission_derived", .bool record.submissionDerived),
    ("relevance", .int item.1)]

/-- The loop over ranked records, of which each is offered. -/
def rankedFiller {κ : Type} (host : RetrievalHost) (value : κ → Value) : Filler κ κ where
  offer _ item := some item
  full _ := false
  size item := textSize host (value item)

def spatialHeader : String :=
  "TGRAM SPATIAL MEMORY (reusable relation constraints; build a new scene-local " ++
    "occupancy graph, never copy a prior layout):\n"

/-- `SpatialMemory.retrieve`. -/
def SpatialMemory.retrieve (memory : SpatialMemory) (host : RetrievalHost) (query : String) :
    Except PyError RetrievedContext := do
  let ranked ← memory.ranked host query
  let selected := (rankedFiller host spatialValue).fill memory.charBudget ranked 2 []
  return retrievedContext host spatialHeader (selected.map (·.2.memoryId)) (selected.map spatialValue)

/-! ## Geometric memory -/

/-- A port of an asset, by its kind. -/
inductive ConnectionPort where
  | edge (name : String) (localPosition : List ℚ) (axis : String)
  | interface (name : String) (localPosition : List ℚ)
  | side (name axis : String) (coordinate : ℚ)

def floats (values : List ℚ) : Value := .arr (values.map .float)

def ConnectionPort.value : ConnectionPort → Value
  | edge name localPosition axis =>
    .obj [("name", .str name), ("local_position", floats localPosition), ("axis", .str axis)]
  | interface name localPosition =>
    .obj [("name", .str name), ("local_position", floats localPosition)]
  | side name axis coordinate =>
    .obj [("name", .str name), ("axis", .str axis), ("coordinate", .float coordinate)]

structure GeometricMemoryRecord where
  memoryId : String
  assetPath : String
  semanticKind : String
  dimensions : List ℚ
  boundsMin : List ℚ
  boundsMax : List ℚ
  pivotOffsetFromCenter : List ℚ
  upAxis : String
  primaryAxis : String
  thicknessAxis : String
  connectionPorts : List ConnectionPort := []
  constraints : List String := []
  provenance : String := "UNREAL_SOURCE_ASSET_PROBE"
  sourceFingerprint : String := ""
  verified : Bool := true
  submissionDerived : Bool := false
  searchTerms : List String := []

structure GeometricMemory where
  stored : List GeometricMemoryRecord
  charBudget : Nat := 8000
  neuralRanker : Option (String → List (Nat × GeometricMemoryRecord) → List String) := none

def GeometricMemory.records (memory : GeometricMemory) : List GeometricMemoryRecord :=
  memory.stored.filter fun record => record.verified && !record.submissionDerived

def geometricText (host : RetrievalHost) (record : GeometricMemoryRecord) : String :=
  casefold host.text.tables
    (" ".intercalate ([record.assetPath, record.semanticKind] ++ record.constraints))

/-- A record whose path the query names comes before those it only shares terms with. -/
def geometricScore (host : RetrievalHost) (query : String) (record : GeometricMemoryRecord) : Nat :=
  let shared := overlap host query record.searchTerms (geometricText host record)
  if hasPart (casefold host.text.tables query) (casefold host.text.tables record.assetPath) then
    shared + 100
  else shared

def GeometricMemory.ranked (memory : GeometricMemory) (host : RetrievalHost) (query : String) :
    Except PyError (List (Nat × GeometricMemoryRecord)) :=
  let scored := memory.records.map fun record => (geometricScore host query record, record)
  let ranked := (scored.filter (·.1 ≠ 0)).insertionSort fun a b =>
    (compare b.1 a.1 |>.then (compare a.2.assetPath b.2.assetPath)).isLE
  match memory.neuralRanker with
  | none => .ok ranked
  | some rank => reranked (·.memoryId) (rank query ranked) ranked

def geometricValue (item : Nat × GeometricMemoryRecord) : Value :=
  let record := item.2
  .obj [("memory_id", .str record.memoryId), ("asset_path", .str record.assetPath),
    ("semantic_kind", .str record.semanticKind), ("dimensions", floats record.dimensions),
    ("bounds_min", floats record.boundsMin), ("bounds_max", floats record.boundsMax),
    ("pivot_offset_from_center", floats record.pivotOffsetFromCenter),
    ("up_axis", .str record.upAxis), ("primary_axis", .str record.primaryAxis),
    ("thickness_axis", .str record.thicknessAxis),
    ("connection_ports", .arr (record.connectionPorts.map (·.value))),
    ("constraints", strings record.constraints), ("provenance", .str record.provenance),
    ("source_fingerprint", .str record.sourceFingerprint), ("verified", .bool record.verified),
    ("submission_derived", .bool record.submissionDerived), ("relevance", .int item.1)]

def geometricHeader : String :=
  "TGRAM GEOMETRIC MEMORY (verified source facts; constraints, not a saved layout):\n"

/-- `GeometricMemory.retrieve`. -/
def GeometricMemory.retrieve (memory : GeometricMemory) (host : RetrievalHost) (query : String) :
    Except PyError RetrievedContext := do
  let ranked ← memory.ranked host query
  let selected := (rankedFiller host geometricValue).fill memory.charBudget ranked 2 []
  return retrievedContext host geometricHeader (selected.map (·.2.memoryId))
    (selected.map geometricValue)

/-! ## Action memory -/

structure ParsedActionMemory where
  id : String
  milestoneIndex : Int
  phase : String
  action : String
  invariant : String
  concepts : List String
  files : List String
  symbols : List String
  evidence : String
  confidence : ℚ
  archiveRef : String := ""
  fingerprint : String := ""
  supersedes : List String := []

structure ProjectActionMemory where
  records : List ParsedActionMemory
  maxRecords : Nat := 6
  charBudget : Nat := 1800

def actionStopWords : List String :=
  ["add", "allow", "and", "are", "current", "every", "for", "from", "into", "only", "preserve",
    "project", "return", "support", "task", "that", "the", "this", "through", "using", "with",
    "worker"]

/-- `_concepts(query)`. -/
def queryConcepts (host : RetrievalHost) (query : String) : List String :=
  (distinct ((host.findWords (casefold host.text.tables query)).filter
    (!actionStopWords.contains ·))).take 24

def actionText (record : ParsedActionMemory) : String :=
  " ".intercalate [record.phase, record.action, record.invariant, " ".intercalate record.concepts,
    " ".intercalate record.files, " ".intercalate record.symbols]

/-- `asdict(record)`. -/
def actionRecordValue (record : ParsedActionMemory) : Value :=
  .obj [("id", .str record.id), ("milestone_index", .int record.milestoneIndex),
    ("phase", .str record.phase), ("action", .str record.action),
    ("invariant", .str record.invariant), ("concepts", strings record.concepts),
    ("files", strings record.files), ("symbols", strings record.symbols),
    ("evidence", .str record.evidence), ("confidence", .float record.confidence),
    ("archive_ref", .str record.archiveRef), ("fingerprint", .str record.fingerprint),
    ("supersedes", strings record.supersedes)]

/-- The utility of a record, unless nothing of the query leads to it. -/
def actionUtility (host : RetrievalHost) (query : String) (currentMilestone : Int)
    (record : ParsedActionMemory) : Option ℚ :=
  let cached := host.indexedConcepts record.id (actionText record)
  let overlap := ((queryConcepts host query).filter cached.contains).length
  let sharedFile := record.files.countP fun name =>
    hasPart (casefold host.text.tables query) (casefold host.text.tables name)
  let recency : ℚ := 1 / (1 + max 0 (currentMilestone - record.milestoneIndex) : ℤ)
  let reviewBonus : ℚ := if record.phase = "REVIEW_AND_REPAIR" then 1 / 4 else 0
  let score := (overlap * 3 + sharedFile * 2 + recency + reviewBonus) *
    (1 / 2 + record.confidence / 2)
  if overlap ≠ 0 ∨ sharedFile ≠ 0 ∨ record.milestoneIndex = currentMilestone then
    some (score / max 1 (textSize host (actionRecordValue record)))
  else none

/-- What the records are sorted by. -/
def actionKey (item : ℚ × ParsedActionMemory) : ℚ ×ₗ ℤ ×ₗ String :=
  toLex (-item.1, toLex (-item.2.milestoneIndex, item.2.id))

def rankedBefore (a b : ℚ × ParsedActionMemory) : Bool := decide (actionKey a ≤ actionKey b)

def ProjectActionMemory.ranked (memory : ProjectActionMemory) (host : RetrievalHost) (query : String)
    (currentMilestone : Int) : List (ℚ × ParsedActionMemory) :=
  let superseded := memory.records.flatMap (·.supersedes)
  let scored := memory.records.filterMap fun record =>
    if superseded.contains record.id then none
    else (actionUtility host query currentMilestone record).map (·, record)
  scored.insertionSort (rankedBefore · ·)

structure ActionContext where
  record : ParsedActionMemory
  relevance : ℚ

def actionValue (context : ActionContext) : Value :=
  let record := context.record
  .obj [("memory_id", .str record.id), ("milestone", .int record.milestoneIndex),
    ("phase", .str record.phase), ("action", .str record.action),
    ("invariant", .str record.invariant), ("concepts", strings record.concepts),
    ("files", strings record.files), ("symbols", strings record.symbols),
    ("confidence", .float record.confidence), ("archive_ref", .str record.archiveRef),
    ("relevance", .float context.relevance)]

/-- The concepts of a record that those selected have. -/
def redundancy (selected : List ActionContext) (record : ParsedActionMemory) : Nat :=
  (record.concepts.dedup.filter (selected.flatMap (·.record.concepts)).contains).length

def actionFiller (host : RetrievalHost) (maxRecords : Nat) :
    Filler (ℚ × ParsedActionMemory) ActionContext where
  offer selected item :=
    some ⟨item.2, host.rounded (item.1 / (1 + redundancy selected item.2 * (35 / 100)))⟩
  full selected := decide (maxRecords ≤ selected.length)
  size context := textSize host (actionValue context)

/-- `ProjectActionMemory.retrieve`. -/
def ProjectActionMemory.retrieve (memory : ProjectActionMemory) (host : RetrievalHost) (query : String)
    (currentMilestone : Int) : List ActionContext :=
  (actionFiller host memory.maxRecords).fill memory.charBudget
    ((memory.ranked host query currentMilestone).take (memory.maxRecords * 4)) 2 []

/-! ## Symbol memory -/

/-- The payload of a symbol. Its relevance is a float if it counts the hint at a class. -/
def symbolValue (context : Symbols.SymbolContext) : Value :=
  let record := context.record
  .obj [("path", .str record.path), ("symbol", .str record.symbol), ("kind", .str record.kind.text),
    ("signature", .str record.signature), ("start_line", .int record.startLine),
    ("end_line", .int record.endLine), ("content_hash", .str record.contentHash),
    ("concepts", strings record.concepts), ("dependencies", strings record.dependencies),
    ("source", .str context.source),
    ("relevance", if context.relevance % 2 = 0 then .int (context.relevance / 2 : Nat)
      else .float (context.relevance / 2))]

/-- The sizes of the payloads are those of their texts. -/
def symbolHost (host : RetrievalHost) (symbols : Symbols.SymbolHost) : Symbols.SymbolHost :=
  { symbols with payloadSize := fun context => textSize host (symbolValue context) }

/-- `ProjectSymbolMemory.retrieve`, with the records that are stored. -/
def retrieveSymbols (host : RetrievalHost) (symbols : Symbols.SymbolHost) (project : Symbols.Project)
    (stored : List Symbols.SymbolRecord) (query : String) (maxSymbols charBudget : Nat) :
    Except PyError (List Symbols.SymbolContext) :=
  Symbols.select (symbolHost host symbols) project maxSymbols charBudget
    (Symbols.ranked (symbolHost host symbols) query stored) 2 []

/-- What the loop over the ranked symbols offers, where their files can be read. -/
def symbolFiller (host : RetrievalHost) (project : Symbols.Project) (maxSymbols : Nat) :
    Filler (Nat × Symbols.SymbolRecord) Symbols.SymbolContext where
  offer selected item :=
    if selected ≠ [] ∧ item.1 = 0 then none
    else match project.readText item.2.path with
    | .error _ => none
    | .ok source => some
      { record := item.2
        source := Symbols.joined
          (Lines.slice (item.2.startLine - 1) item.2.endLine (Symbols.splitlines source))
        relevance := item.1 }
  full selected := decide (maxSymbols ≤ selected.length)
  size context := textSize host (symbolValue context)

section
variable {host : RetrievalHost} {symbols : Symbols.SymbolHost} {project : Symbols.Project}
  {maxSymbols charBudget : Nat}

/-- A selection that reads every file it comes to is that of the loop. -/
theorem select_eq_fill {candidates : List (Nat × Symbols.SymbolRecord)} {used : Nat}
    {selected found : List Symbols.SymbolContext}
    (h : Symbols.select (symbolHost host symbols) project maxSymbols charBudget candidates used selected =
      .ok found) :
    found = (symbolFiller host project maxSymbols).fill charBudget candidates used selected := by
  induction candidates generalizing used selected with
  | nil =>
    cases h
    rfl
  | cons candidate rest ih =>
    obtain ⟨score, record⟩ := candidate
    unfold Symbols.select at h
    unfold Filler.fill
    by_cases hskip : selected ≠ [] ∧ score = 0
    · have hoffer : (symbolFiller host project maxSymbols).offer selected (score, record) = none :=
        if_pos hskip
      rw [if_pos hskip] at h
      rw [hoffer]
      exact ih h
    · rw [if_neg hskip] at h
      cases htext : project.readText record.path with
      | error error =>
        rw [htext] at h
        cases h
      | ok source =>
        have hoffer : (symbolFiller host project maxSymbols).offer selected (score, record) = some
            { record
              source := Symbols.joined
                (Lines.slice (record.startLine - 1) record.endLine (Symbols.splitlines source))
              relevance := score } := by
          refine (if_neg hskip).trans ?_
          rw [htext]
        rw [htext] at h
        rw [hoffer]
        simp only [bind, Except.bind, pure, Except.pure] at h
        dsimp only
        split at h
        · next hover => exact (ih h).trans (if_pos hover).symm
        · next hroom =>
          refine Eq.trans ?_ (if_neg hroom).symm
          split at h
          · next hfull =>
            cases h
            exact (if_pos (by simpa [symbolFiller] using hfull)).symm
          · next hmore =>
            refine (ih h).trans (if_neg ?_).symm
            simpa [symbolFiller] using hmore

/-! ## The text of the list -/

/-- The text of a list has the size that counts its separators. -/
theorem length_listText {κ π : Type} (filler : Filler κ π) (value : π → Value)
    (hsize : ∀ item, filler.size item = textSize host (value item)) (items : List π) :
    (listText host (items.map value)).length = filler.listSize items := by
  rw [listText, length_text_arr, Filler.listSize, Filler.used, List.map_map, List.length_map]
  congr 3
  exact List.map_congr_left fun item _ => (hsize item).symm

theorem records_retrievedContext (header : String) (memoryIds : List String) (values : List Value) :
    (retrievedContext host header memoryIds values).records header = listText host values := by
  simp [RetrievedContext.records, retrievedContext]

theorem SpatialMemory.retrieve_of_ranked (memory : SpatialMemory) {query : String}
    {ranked : List (Nat × SpatialMemoryRecord)} (h : memory.ranked host query = .ok ranked) :
    let selected := (rankedFiller host spatialValue).fill memory.charBudget ranked 2 []
    memory.retrieve host query = .ok (retrievedContext host spatialHeader
      (selected.map (·.2.memoryId)) (selected.map spatialValue)) := by
  rw [SpatialMemory.retrieve, h]
  rfl

theorem GeometricMemory.retrieve_of_ranked (memory : GeometricMemory) {query : String}
    {ranked : List (Nat × GeometricMemoryRecord)} (h : memory.ranked host query = .ok ranked) :
    let selected := (rankedFiller host geometricValue).fill memory.charBudget ranked 2 []
    memory.retrieve host query = .ok (retrievedContext host geometricHeader
      (selected.map (·.2.memoryId)) (selected.map geometricValue)) := by
  rw [GeometricMemory.retrieve, h]
  rfl

/-- **The list of a retrieval is within its budget if no separator decides.** -/
theorem retrieval_within_iff (host : RetrievalHost) :
    (∀ (memory : SpatialMemory) query ranked context,
      memory.ranked host query = .ok ranked → memory.retrieve host query = .ok context →
        ((context.records spatialHeader).length ≤ memory.charBudget ↔
          2 ≤ memory.charBudget ∧
            (rankedFiller host spatialValue).SeparatorsFit memory.charBudget ranked)) ∧
    (∀ (memory : GeometricMemory) query ranked context,
      memory.ranked host query = .ok ranked → memory.retrieve host query = .ok context →
        ((context.records geometricHeader).length ≤ memory.charBudget ↔
          2 ≤ memory.charBudget ∧
            (rankedFiller host geometricValue).SeparatorsFit memory.charBudget ranked)) ∧
    (∀ (memory : ProjectActionMemory) query currentMilestone,
      ((listText host ((memory.retrieve host query currentMilestone).map actionValue)).length ≤
          memory.charBudget ↔
        2 ≤ memory.charBudget ∧ (actionFiller host memory.maxRecords).SeparatorsFit memory.charBudget
          ((memory.ranked host query currentMilestone).take (memory.maxRecords * 4)))) ∧
    ∀ symbols project stored query maxSymbols charBudget found,
      retrieveSymbols host symbols project stored query maxSymbols charBudget = .ok found →
        ((listText host (found.map symbolValue)).length ≤ charBudget ↔
          2 ≤ charBudget ∧ (symbolFiller host project maxSymbols).SeparatorsFit charBudget
            (Symbols.ranked (symbolHost host symbols) query stored)) := by
  refine ⟨fun memory query ranked context hranked hcontext => ?_,
    fun memory query ranked context hranked hcontext => ?_,
    fun memory query currentMilestone => ?_,
    fun symbols project stored query maxSymbols charBudget found hfound => ?_⟩
  · rw [memory.retrieve_of_ranked hranked] at hcontext
    cases hcontext
    rw [records_retrievedContext,
      length_listText (rankedFiller host spatialValue) spatialValue fun _ => rfl]
    exact Filler.fill_within_iff
  · rw [memory.retrieve_of_ranked hranked] at hcontext
    cases hcontext
    rw [records_retrievedContext,
      length_listText (rankedFiller host geometricValue) geometricValue fun _ => rfl]
    exact Filler.fill_within_iff
  · rw [length_listText (actionFiller host memory.maxRecords) actionValue fun _ => rfl]
    exact Filler.fill_within_iff
  · rw [length_listText (symbolFiller host project maxSymbols) symbolValue fun _ => rfl,
      select_eq_fill hfound]
    exact Filler.fill_within_iff

end

/-! ## Two records of a wall -/

def plainRetrieval : RetrievalHost where
  text := ContinuityRuns.plainHost
  floatText _ := "0.5".toList
  exactTokens text := text.toList.length
  findWords _ := []
  indexedConcepts _ _ := []
  rounded x := x

def wallRecord (memoryId relation : String) : SpatialMemoryRecord where
  memoryId
  relation
  subjectType := "wall"
  objectType := "floor"
  invariant := "Walls stand."
  verificationStrategy := "Compare bounds."
  concepts := ["wall"]
  searchTerms := ["wall"]

def wallMemory (charBudget : Nat) : SpatialMemory where
  stored := [wallRecord "SPATIAL-1" "SUPPORTED_BY", wallRecord "SPATIAL-2" "COVERS"]
  charBudget

def rankedWalls : List (Nat × SpatialMemoryRecord) :=
  [(1, wallRecord "SPATIAL-2" "COVERS"), (1, wallRecord "SPATIAL-1" "SUPPORTED_BY")]

theorem ranked_walls (charBudget : Nat) :
    (wallMemory charBudget).ranked plainRetrieval "Build a wall." = .ok rankedWalls := by
  have h : (wallMemory 0).ranked plainRetrieval "Build a wall." = .ok rankedWalls := by decide +kernel
  exact h

/-- Both records fit with their separator. -/
theorem retrieval_within_iff_walls : ∃ context,
    (wallMemory 573).retrieve plainRetrieval "Build a wall." = .ok context ∧
      (context.records spatialHeader).length ≤ 573 := by
  have hretrieve := (wallMemory 573).retrieve_of_ranked (ranked_walls 573)
  refine ⟨_, hretrieve, ((retrieval_within_iff plainRetrieval).1 (wallMemory 573) "Build a wall."
    rankedWalls _ (ranked_walls 573) hretrieve).mpr ⟨by decide, ?_⟩⟩
  unfold Filler.SeparatorsFit
  decide +kernel

/-- With one character less both are taken, and the list is over the budget. -/
theorem separator_over_budget : ¬∀ (memory : SpatialMemory) query context,
    memory.retrieve plainRetrieval query = .ok context →
      (context.records spatialHeader).length ≤ memory.charBudget := by
  intro h
  have hlength := h _ _ _ ((wallMemory 572).retrieve_of_ranked (ranked_walls 572))
  rw [records_retrievedContext] at hlength
  revert hlength
  decide +kernel

end RlmGraph.Memory.Retrieval
