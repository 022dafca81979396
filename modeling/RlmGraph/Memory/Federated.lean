import Mathlib.Algebra.Order.Ring.Rat
import RlmGraph.Lib.Paths
import RlmGraph.Lib.Results
import RlmGraph.Lib.Rows
import RlmGraph.Memory.Symbols

/-! # Recall across projects

A turn of a conversation is met with what the stores of the connected projects
hold: repairs, tasks, symbols, theories and components, merged in one dictionary
by derived identifiers. Every task and symbol is recalled as its own record if
and only if none is read for two projects and none gives its identifier up to a
later item (`recalled_iff`). -/
namespace RlmGraph.Memory.Federated
open RlmGraph.Lib RlmGraph.Lib.Paths RlmGraph.Lib.PyText RlmGraph.Lib.Results RlmGraph.Lib.Rows
open RlmGraph.Memory.Symbols (SymbolRecord)

/-! ## The stores -/

structure RepairOutcomeRecord where
  id : String
  taskId : Int
  criterion : String
  observedFailure : String
  diagnosis : String
  attemptedChange : String
  attempt : Int
  targetPassed : Bool
  regressions : List String
  verified : Bool
  actionMemoryId : String
  evidenceRefs : List String
  deriving DecidableEq

/-- A row of `project_tasks`, as `snapshot` reads it. -/
structure TaskRow where
  taskId : Int
  objective : String
  acceptance : String
  dependencies : List Int
  status : String
  attemptCount : Int
  memoryRefs : List String
  failure : String
  completedAt : String
  deriving DecidableEq

structure DeductiveTheory where
  id : String
  subject : String
  /-- `premise.source_id` of its premises. -/
  sourceIds : List String
  inferenceRule : String
  conclusion : String
  confidence : ℚ
  falsifiers : List String
  status : String := "ACTIVE_THEORY"
  deriving DecidableEq

structure ArchitectureComponent where
  name : String
  role : String
  paths : List String := []
  deriving DecidableEq

structure ProjectArchitectureContext where
  projectId : Option String := none
  scope : String
  components : List ArchitectureComponent := []

structure ConnectedProject where
  id : String
  root : String

/-- The files of the stores, where there are any. -/
structure Disk where
  repairs : PurePath → Option (List RepairOutcomeRecord)
  tasks : PurePath → Option (List TaskRow)
  symbols : PurePath → Option (List SymbolRecord)
  /-- The twelve newest repair memories of the benchmark runs below a root. -/
  benchmarkRepairs : PurePath → List PurePath

structure FederatedHost where
  tables : CaseTables
  /-- `_WORDS.findall`. -/
  findWords : String → List String
  /-- `token_index.terms(memory_id, text)`. -/
  terms : String → String → List String
  /-- Whether a message speaks of the system. -/
  systemHint : String → Bool
  /-- Whether a message speaks of a repair. -/
  repairHint : String → Bool
  /-- `Path(root).resolve()`. -/
  resolve : String → PurePath

/-! ## What is recalled -/

inductive MemoryType where
  | repairOutcome | taskState | symbol | deductiveTheory | architecture
  deriving DecidableEq

inductive Details where
  | repair (taskId attempt : Int) (attemptedChange : String) (targetPassed : Bool)
      (regressions : List String) (actionMemoryId : String)
  | task (acceptance : String) (dependencies : List Int) (completedAt : String)
  | symbol (path signature : String) (dependencies : List String)
  | theory (inferenceRule : String) (falsifiers : List String)
  | none
  deriving DecidableEq

structure ConversationOperationalMemory where
  memoryId : String
  memoryType : MemoryType
  scope : String
  projectId : Option String
  title : String
  summary : String
  status : String := "CURRENT"
  confidence : ℚ := 1
  evidenceRefs : List String
  details : Details := .none
  relevance : Nat
  deriving DecidableEq

/-- A project, or the system itself, whose stores are read. -/
structure MemoryRoot where
  projectId : String
  root : PurePath
  scope : String
  deriving DecidableEq

/-- A task or symbol, with the file it is stored in. -/
inductive StoredRow where
  | task (path : PurePath) (row : TaskRow)
  | symbol (path : PurePath) (record : SymbolRecord)
  deriving DecidableEq

/-- One item of one store, with the root it is read for: a task or symbol with
the file it is from. -/
inductive Item where
  | repair (owner : MemoryRoot) (record : RepairOutcomeRecord)
  | task (owner : MemoryRoot) (path : PurePath) (row : TaskRow)
  | symbol (owner : MemoryRoot) (path : PurePath) (record : SymbolRecord)
  | theory (t : DeductiveTheory)
  | component (projectId : Option String) (scope : String) (part : ArchitectureComponent)
  deriving DecidableEq

/-- What is stored of a task or symbol, whichever root it is read for. -/
def Item.row : Item → Option StoredRow
  | task _ path row => some (.task path row)
  | symbol _ path record => some (.symbol path record)
  | _ => none

/-- Tasks and symbols are of one project and file. -/
def Item.owned (item : Item) : Bool := item.row.isSome

def firstChars (n : Nat) (text : String) : String := String.ofList (text.toList.take n)

def Item.memoryId : Item → String
  | repair _ record => record.id
  | task owner _ row => "TASK-" ++ owner.projectId ++ "-" ++ toString row.taskId
  | symbol _ _ record => "SYMBOL-" ++ firstChars 12 record.contentHash
  | theory t => t.id
  | component projectId _ part => "ARCHITECTURE-" ++ projectId.getD "None" ++ "-" ++ part.name

/-- The text that is met with the query. -/
def Item.text : Item → String
  | repair _ record => record.criterion ++ " " ++ record.diagnosis
  | task _ _ row => row.objective ++ " " ++ row.acceptance ++ " " ++ row.failure
  | symbol _ _ record => record.path ++ " " ++ record.symbol ++ " " ++ record.signature ++ " " ++
      " ".intercalate record.concepts
  | theory t => t.subject ++ " " ++ t.inferenceRule ++ " " ++ t.conclusion
  | component _ _ part => part.name ++ " " ++ part.role ++ " " ++ " ".intercalate part.paths

def Item.bonus : Item → Nat
  | repair .. => 5
  | task _ _ row => if row.status ≠ "DONE" then 2 else 0
  | theory t => if t.status = "ACTIVE_THEORY" then 1 else 0
  | _ => 0

/-- `set(_WORDS.findall(query.casefold()))`. -/
def queryTerms (host : FederatedHost) (query : String) : List String :=
  (host.findWords (casefold host.tables query)).dedup

/-- `_score`. -/
def Item.score (host : FederatedHost) (query : String) (item : Item) : Nat :=
  ((queryTerms host query).filter (host.terms item.memoryId item.text).contains).length * 3 +
    item.bonus

/-- The record of an item. -/
def Item.record (host : FederatedHost) (query : String) (item : Item) : ConversationOperationalMemory :=
  let memoryId := item.memoryId
  let relevance := item.score host query
  match item with
  | repair owner record =>
    { memoryId, relevance
      memoryType := .repairOutcome
      scope := owner.scope
      projectId := some owner.projectId
      title := "Repair of " ++ record.criterion
      summary := record.observedFailure ++ " Diagnosis: " ++ record.diagnosis ++ " Outcome: " ++
        (if record.verified then "verified" else "not verified") ++ "."
      status := if record.verified then "VERIFIED" else "REJECTED_THEORY"
      confidence := if record.verified then 1 else 65 / 100
      evidenceRefs := record.evidenceRefs
      details := .repair record.taskId record.attempt record.attemptedChange record.targetPassed
        record.regressions record.actionMemoryId }
  | task owner _ row =>
    { memoryId, relevance
      memoryType := .taskState
      scope := owner.scope
      projectId := some owner.projectId
      title := firstChars 160 row.objective
      summary := strip ("Task " ++ toString row.taskId ++ " is " ++ row.status ++ " after " ++
        toString row.attemptCount ++ " attempt(s). " ++ row.failure)
      status := row.status
      evidenceRefs := row.memoryRefs.take 12
      details := .task row.acceptance row.dependencies row.completedAt }
  | symbol owner _ record =>
    let place := record.path ++ ":" ++ toString record.startLine
    { memoryId, relevance
      memoryType := .symbol
      scope := owner.scope
      projectId := some owner.projectId
      title := record.symbol
      summary := record.kind.text ++ " " ++ record.symbol ++ " is in " ++ place ++ "."
      evidenceRefs := [place]
      details := .symbol record.path record.signature (record.dependencies.take 12) }
  | theory t =>
    { memoryId, relevance
      memoryType := .deductiveTheory
      scope := "SYSTEM"
      projectId := none
      title := t.subject
      summary := t.conclusion
      status := t.status
      confidence := t.confidence
      evidenceRefs := t.sourceIds
      details := .theory t.inferenceRule t.falsifiers }
  | component projectId scope part =>
    { memoryId, relevance
      memoryType := .architecture
      scope, projectId
      title := part.name
      summary := part.role
      confidence := 9 / 10
      evidenceRefs := part.paths }

/-! ## Retrieval -/

/-- `_roots`. -/
def memoryRoots (host : FederatedHost) (projects : List ConnectedProject) (systemRoot : Option PurePath)
    (message : String) (selectedProjectId : Option String) : List MemoryRoot :=
  let lowered := casefold host.tables message
  let system := if host.systemHint message then
      systemRoot.toList.map fun root => ⟨"TGRAM-SYSTEM", root, "SYSTEM"⟩
    else []
  system ++ projects.filterMap fun project =>
    let root := host.resolve project.root
    if some project.id = selectedProjectId ∨ hasPart lowered (casefold host.tables project.id) ∨
        hasPart lowered (casefold host.tables (root.parts.getLast?.getD "")) then
      some ⟨project.id, root, "PROJECT"⟩
    else none

def repairSearchable (host : FederatedHost) (record : RepairOutcomeRecord) : String :=
  casefold host.tables (" ".intercalate [record.criterion, record.observedFailure, record.diagnosis,
    record.attemptedChange, " ".intercalate record.regressions])

/-- `RepairOutcomeMemoryStore.retrieve`. -/
def retrieveRepairs (host : FederatedHost) (query : String) (limit : Nat)
    (records : List RepairOutcomeRecord) : List RepairOutcomeRecord :=
  let ranked := records.zipIdx.filterMap fun (record, index) =>
    let terms := host.terms record.id (repairSearchable host record)
    let overlap := ((queryTerms host query).filter terms.contains).length
    let hint := host.repairHint query
    if overlap ≠ 0 ∨ hint then some (overlap * 3 + (if hint then 2 else 0), index, record) else none
  ((ranked.insertionSort fun a b =>
    (compare b.1 a.1 |>.then (compare b.2.1 a.2.1)).isLE).map (·.2.2)).take limit

/-- `_repairs`. -/
def repairItems (host : FederatedHost) (disk : Disk) (query : String) (owner : MemoryRoot) : List Item :=
  let candidates := [owner.root.join ".rlmgraph/repair-outcome-memory.jsonl",
      owner.root.parent.join "rlmgraph-repair-memory.jsonl"] ++
    if owner.scope = "SYSTEM" then
      owner.root.join ".rlmgraph/system-repair-memory.jsonl" :: disk.benchmarkRepairs owner.root
    else []
  candidates.eraseDups.flatMap fun path =>
    match disk.repairs path with
    | none => []
    | some records => (retrieveRepairs host query 4 records).map (.repair owner)

/-- The items of the first files that score. -/
def scoredItems {ρ : Type} (host : FederatedHost) (query : String) (file : PurePath → Option (List ρ))
    (item : PurePath → ρ → Item) (candidates : List PurePath) : List Item :=
  candidates.flatMap fun path =>
    match file path with
    | none => []
    | some records => (records.map (item path)).filter fun item => decide (0 < item.score host query)

/-- `_tasks`. -/
def taskItems (host : FederatedHost) (disk : Disk) (query : String) (owner : MemoryRoot) : List Item :=
  scoredItems host query disk.tasks (.task owner)
    [owner.root.join ".rlmgraph/task-state.db", owner.root.parent.join "rlmgraph-task-state.db"]

/-- `_symbols`. -/
def symbolItems (host : FederatedHost) (disk : Disk) (query : String) (owner : MemoryRoot) : List Item :=
  scoredItems host query disk.symbols (.symbol owner)
    [owner.root.join ".rlmgraph/symbol-memory.json",
      owner.root.parent.join "rlmgraph-symbol-memory.json",
      owner.root.parent.join (owner.root.parts.getLast?.getD "" ++ "-symbol-memory.json")]

/-- What a turn asks for: the message and what the gateway is called with. -/
structure Recall where
  message : String
  projectId : Option String
  projects : List ConnectedProject
  systemRoot : Option PurePath
  theories : List DeductiveTheory
  architectureContexts : List ProjectArchitectureContext := []

/-- The items that are scored, in the order in which they are gathered. -/
def gathered (host : FederatedHost) (disk : Disk) (asked : Recall) : List Item :=
  let query := asked.message
  let roots := memoryRoots host asked.projects asked.systemRoot query asked.projectId
  let scores := fun item : Item => decide (0 < item.score host query)
  (roots.flatMap fun owner => repairItems host disk query owner ++ taskItems host disk query owner ++
      symbolItems host disk query owner) ++
    (asked.theories.map Item.theory).filter scores ++
    (asked.architectureContexts.flatMap fun context =>
      context.components.map (.component context.projectId context.scope)).filter scores

/-- A record has at most twelve references. -/
def validated (record : ConversationOperationalMemory) : Except PyError ConversationOperationalMemory :=
  if 12 < record.evidenceRefs.length then
    .error (.other "ValidationError" "evidence_refs: at most 12 items")
  else .ok record

def rankedBefore (a b : ConversationOperationalMemory) : Bool :=
  (compare b.relevance a.relevance |>.then (compare b.confidence a.confidence)
    |>.then (compare a.memoryId b.memoryId)).isLE

/-- `FederatedConversationMemory.retrieve`. -/
def retrieve (host : FederatedHost) (disk : Disk) (asked : Recall) (limit : Nat) :
    Except PyError (List ConversationOperationalMemory) := do
  let records ← (gathered host disk asked).mapM fun item =>
    validated (item.record host asked.message)
  return ((valuesBy (·.memoryId) records).insertionSort (rankedBefore · ·)).take limit

/-! ## What is recalled of the items -/

def ConversationOperationalMemory.owned (record : ConversationOperationalMemory) : Bool :=
  record.memoryType == .taskState || record.memoryType == .symbol

/-- The tasks and symbols of the items, each row of a file once. -/
def storedRows (items : List Item) : List StoredRow := (items.filterMap Item.row).dedup

/-- Every task and symbol has its own item, the row with its project, and the
records of tasks and symbols are those of the rows, each once. -/
def Recalled (host : FederatedHost) (message : String) (items : List Item)
    (result : List ConversationOperationalMemory) : Prop :=
  ∃ own : StoredRow → Item, (∀ item ∈ items, ∀ row, item.row = some row → item = own row) ∧
    (result.filter (·.owned)).Perm ((storedRows items).map fun row => (own row).record host message)

/-- No task or symbol of a file is read for two roots. -/
def ReadForOne (items : List Item) : Prop :=
  ∀ item ∈ items, item.owned = true → ∀ other ∈ items, other.row = item.row → other = item

/-- No other item with the identifier is gathered later. -/
def LastOfId (items : List Item) (item : Item) : Prop :=
  (items.filter (·.memoryId == item.memoryId)).getLast? = some item

section
variable {host : FederatedHost} {disk : Disk} {asked : Recall} {message : String} {items : List Item}
  {item : Item} {limit : Nat}

@[simp] theorem memoryId_record : (item.record host message).memoryId = item.memoryId := by
  cases item <;> rfl

@[simp] theorem owned_record : (item.record host message).owned = item.owned := by
  cases item <;> rfl

theorem mapM_validated (h : ∀ item ∈ items, (item.record host message).evidenceRefs.length ≤ 12) :
    items.mapM (fun item => validated (item.record host message)) =
      .ok (items.map (·.record host message)) := by
  induction items with
  | nil => rfl
  | cons item items ih =>
    have hitem : validated (item.record host message) = .ok (item.record host message) :=
      if_neg (Nat.not_lt.mpr (h item List.mem_cons_self))
    rw [List.mapM_cons, hitem, ih fun x hx => h x (List.mem_cons_of_mem item hx)]
    rfl

/-- The values of the dictionary are the last items of their identifiers. -/
theorem valuesBy_records : valuesBy (·.memoryId) (items.map (·.record host message)) =
    (valuesBy (·.memoryId) items).map (·.record host message) := by
  rw [valuesBy_map]
  simp only [memoryId_record]

theorem owned_iff : item.owned = true ↔ ∃ row, item.row = some row := Option.isSome_iff_exists

theorem mem_storedRows {row : StoredRow} :
    row ∈ storedRows items ↔ ∃ item ∈ items, item.row = some row := by
  rw [storedRows, List.mem_dedup, List.mem_filterMap]

/-- The own items of the rows are the tasks and symbols. -/
theorem ownItems_perm {own : StoredRow → Item}
    (hown : ∀ item ∈ items, ∀ row, item.row = some row → item = own row) :
    ((storedRows items).map own).Perm (items.filter (·.owned)).dedup := by
  have hrow : ∀ row ∈ storedRows items, own row ∈ items ∧ (own row).row = some row := by
    intro row hmem
    obtain ⟨item, hitem, hstored⟩ := mem_storedRows.mp hmem
    rw [← hown item hitem row hstored]
    exact ⟨hitem, hstored⟩
  have hnodup : ((storedRows items).map own).Nodup := by
    refine List.Nodup.map_on (fun row hmem other hother hsame => ?_) (List.nodup_dedup _)
    have hrows := congrArg Item.row hsame
    rw [(hrow row hmem).2, (hrow other hother).2] at hrows
    exact Option.some.inj hrows
  refine (List.perm_ext_iff_of_nodup hnodup (List.nodup_dedup _)).mpr fun item => ?_
  rw [List.mem_map, List.mem_dedup, List.mem_filter]
  constructor
  · rintro ⟨row, hmem, rfl⟩
    exact ⟨(hrow row hmem).1, owned_iff.mpr ⟨row, (hrow row hmem).2⟩⟩
  · rintro ⟨hitem, howned⟩
    obtain ⟨row, hstored⟩ := owned_iff.mp howned
    exact ⟨row, mem_storedRows.mpr ⟨item, hitem, hstored⟩, (hown item hitem row hstored).symm⟩

/-- The rows have their own items where none is read for two roots. -/
theorem ownItems_exist_iff :
    (∃ own : StoredRow → Item, ∀ item ∈ items, ∀ row, item.row = some row → item = own row) ↔
      ReadForOne items := by
  constructor
  · rintro ⟨own, hown⟩ item hitem howned other hother hsame
    obtain ⟨row, hstored⟩ := owned_iff.mp howned
    rw [hown item hitem row hstored, hown other hother row (hsame.trans hstored)]
  · intro hone
    have hitem : ∀ row, ∃ own : Item, ∀ item ∈ items, item.row = some row → item = own := by
      intro row
      by_cases hread : ∃ own ∈ items, own.row = some row
      · obtain ⟨own, hmem, hstored⟩ := hread
        refine ⟨own, fun item hitem hsame => ?_⟩
        exact hone own hmem (owned_iff.mpr ⟨row, hstored⟩) item hitem (hsame.trans hstored.symm)
      · exact ⟨.component none "" ⟨"", "", []⟩, fun item hitem hsame =>
          absurd ⟨item, hitem, hsame⟩ hread⟩
    choose own hown using hitem
    exact ⟨own, fun item hmem row => hown row item hmem⟩

/-- Recalled are the tasks and symbols, where none is read for two roots. -/
theorem recalled_iff_items {result : List ConversationOperationalMemory} :
    Recalled host message items result ↔ ReadForOne items ∧
      (result.filter (·.owned)).Perm ((items.filter (·.owned)).dedup.map (·.record host message)) := by
  constructor
  · rintro ⟨own, hown, hperm⟩
    refine ⟨ownItems_exist_iff.mp ⟨own, hown⟩, hperm.trans ?_⟩
    have hitems := (ownItems_perm hown).map (·.record host message)
    rwa [List.map_map] at hitems
  · rintro ⟨hone, hperm⟩
    obtain ⟨own, hown⟩ := ownItems_exist_iff.mpr hone
    have hitems := (ownItems_perm hown).map (·.record host message)
    rw [List.map_map] at hitems
    exact ⟨own, hown, hperm.trans hitems.symm⟩

/-- What is recalled of a retrieval that raises nothing. -/
theorem recalled_values_iff {result : List ConversationOperationalMemory}
    (h : result.Perm ((valuesBy (·.memoryId) items).map (·.record host message))) :
    (result.filter (·.owned)).Perm ((items.filter (·.owned)).dedup.map (·.record host message)) ↔
      ∀ item ∈ items, item.owned = true → LastOfId items item := by
  have hkept : (result.filter (·.owned)).Perm
      (((valuesBy (·.memoryId) items).filter (·.owned)).map (·.record host message)) := by
    refine (h.filter _).trans (List.Perm.of_eq ?_)
    rw [List.filter_map]
    congr 1
    exact List.filter_congr fun item _ => owned_record
  have hsubset : (valuesBy (·.memoryId) items).filter (·.owned) ⊆ (items.filter (·.owned)).dedup := by
    intro item hitem
    obtain ⟨hvalue, howned⟩ := List.mem_filter.mp hitem
    have hmem := (List.mem_filter.mp (List.mem_of_getLast? (mem_valuesBy.mp hvalue))).1
    exact List.mem_dedup.mpr (List.mem_filter.mpr ⟨hmem, howned⟩)
  have hsub := List.subperm_of_subset ((nodup_valuesBy (·.memoryId) items).filter (·.owned)) hsubset
  constructor
  · intro hrecalled item hitem howned
    have hlength : ((items.filter (·.owned)).dedup).length ≤
        ((valuesBy (·.memoryId) items).filter (·.owned)).length := by
      have hsame := (hkept.symm.trans hrecalled).length_eq
      rw [List.length_map, List.length_map] at hsame
      exact hsame.ge
    have hvalue := (hsub.perm_of_length_le hlength).mem_iff.mpr
      (List.mem_dedup.mpr (List.mem_filter.mpr ⟨hitem, howned⟩))
    exact mem_valuesBy.mp (List.mem_filter.mp hvalue).1
  · intro hlast
    have hsame : ((valuesBy (·.memoryId) items).filter (·.owned)).Perm (items.filter (·.owned)).dedup := by
      refine (List.perm_ext_iff_of_nodup ((nodup_valuesBy _ _).filter _) (List.nodup_dedup _)).mpr
        fun item => ⟨fun hitem => hsubset hitem, fun hitem => ?_⟩
      obtain ⟨hmem, howned⟩ := List.mem_filter.mp (List.mem_dedup.mp hitem)
      exact List.mem_filter.mpr ⟨mem_valuesBy.mpr (hlast item hmem howned), howned⟩
    exact hkept.trans (hsame.map _)

/-- The dictionary holds no more than the items. -/
theorem length_valuesBy_le : (valuesBy (·.memoryId) items).length ≤ items.length := by
  have hvalues : valuesBy (·.memoryId) items ⊆ items := fun item hitem =>
    (List.mem_filter.mp (List.mem_of_getLast? (mem_valuesBy.mp hitem))).1
  exact (List.subperm_of_subset (nodup_valuesBy _ _) hvalues).length_le

theorem retrieve_of_valid
    (hvalid : ∀ item ∈ gathered host disk asked,
      (item.record host asked.message).evidenceRefs.length ≤ 12)
    (hlimit : (gathered host disk asked).length ≤ limit) :
    retrieve host disk asked limit = .ok (((valuesBy (·.memoryId) (gathered host disk asked)).map
      (·.record host asked.message)).insertionSort (rankedBefore · ·)) := by
  rw [retrieve, mapM_validated hvalid]
  change Except.ok _ = _
  rw [valuesBy_records]
  refine congrArg Except.ok (List.take_of_length_le ?_)
  rw [List.length_insertionSort, List.length_map]
  exact length_valuesBy_le.trans hlimit

/-- **Every task and symbol is recalled as its own record iff none is read for two
roots, no other item takes its identifier later, and no record has more than
twelve references.** -/
theorem recalled_iff (host : FederatedHost) (disk : Disk) (asked : Recall) (limit : Nat)
    (hlimit : (gathered host disk asked).length ≤ limit) :
    (∃ result, retrieve host disk asked limit = .ok result ∧
        Recalled host asked.message (gathered host disk asked) result) ↔
      (∀ item ∈ gathered host disk asked,
        (item.record host asked.message).evidenceRefs.length ≤ 12) ∧
      ReadForOne (gathered host disk asked) ∧
      ∀ item ∈ gathered host disk asked, item.owned = true →
        LastOfId (gathered host disk asked) item := by
  by_cases hvalid : ∀ item ∈ gathered host disk asked,
      (item.record host asked.message).evidenceRefs.length ≤ 12
  · rw [and_iff_right hvalid]
    have hretrieve := retrieve_of_valid hvalid hlimit
    have hperm := List.perm_insertionSort (rankedBefore · · = true)
      ((valuesBy (·.memoryId) (gathered host disk asked)).map (·.record host asked.message))
    rw [hretrieve, ← recalled_values_iff hperm, ← recalled_iff_items]
    constructor
    · intro ⟨result, hresult, hrecalled⟩
      cases hresult
      exact hrecalled
    · exact fun hrecalled => ⟨_, rfl, hrecalled⟩
  · refine iff_of_false (fun ⟨result, hresult, _⟩ => hvalid fun item hitem => ?_) fun h => hvalid h.1
    rw [retrieve] at hresult
    obtain ⟨records, hrecords, -⟩ := bind_ok hresult
    obtain ⟨record, -, hrecord⟩ := exists_of_forall₂ (mapM_ok hrecords) hitem
    unfold validated at hrecord
    split at hrecord
    · cases hrecord
    · next hfits => exact Nat.not_lt.mp hfits

end

/-! ## One function in two files -/

def notesHost : FederatedHost where
  tables := ⟨id, id, id⟩
  findWords := words
  terms _ text := words text
  systemHint _ := false
  repairHint _ := false
  resolve := PurePath.parse

def totalIn (path : String) : SymbolRecord where
  path
  symbol := "total"
  kind := .function
  signature := "def total(items):"
  startLine := 1
  endLine := 2
  contentHash := "0a1b2c3d4e5f60718293"
  concepts := ["items", "total"]
  dependencies := ["items", "sum"]

/-- The symbol memory inside the project. -/
def notesDisk (symbols : List SymbolRecord) : Disk where
  repairs _ := none
  tasks _ := none
  symbols path := if path.parts = ["work", "notes", ".rlmgraph", "symbol-memory.json"] then some symbols
    else none
  benchmarkRepairs _ := []

def notesRecall : Recall where
  message := "Where is total in notes?"
  projectId := some "PROJECT-NOTES"
  projects := [⟨"PROJECT-NOTES", "/work/notes"⟩]
  systemRoot := none
  theories := []

def notesItem (path : String) : Item :=
  .symbol ⟨"PROJECT-NOTES", ⟨"/", ["work", "notes"]⟩, "PROJECT"⟩
    ⟨"/", ["work", "notes", ".rlmgraph", "symbol-memory.json"]⟩ (totalIn path)

theorem gathered_one : gathered notesHost (notesDisk [totalIn "a.py"]) notesRecall =
    [notesItem "a.py"] := by decide +kernel

theorem gathered_two : gathered notesHost (notesDisk [totalIn "a.py", totalIn "b.py"]) notesRecall =
    [notesItem "a.py", notesItem "b.py"] := by decide +kernel

theorem recalled_iff_total : ∃ result,
    retrieve notesHost (notesDisk [totalIn "a.py"]) notesRecall 12 = .ok result ∧
      Recalled notesHost notesRecall.message (gathered notesHost (notesDisk [totalIn "a.py"]) notesRecall)
        result := by
  have hlimit : (gathered notesHost (notesDisk [totalIn "a.py"]) notesRecall).length ≤ 12 := by
    rw [gathered_one]
    decide
  refine (recalled_iff notesHost (notesDisk [totalIn "a.py"]) notesRecall 12 hlimit).mpr ?_
  rw [gathered_one]
  refine ⟨List.forall_mem_singleton.mpr ?_, fun item hitem _ other hother _ => ?_,
    List.forall_mem_singleton.mpr fun _ => ?_⟩
  · decide +kernel
  · rw [List.mem_singleton.mp hitem, List.mem_singleton.mp hother]
  · unfold LastOfId
    decide +kernel

/-- The same function in a second file takes the identifier of the first. -/
theorem same_code_forgotten : ¬∀ disk asked limit,
    (gathered notesHost disk asked).length ≤ limit → ∃ result,
      retrieve notesHost disk asked limit = .ok result ∧
        Recalled notesHost asked.message (gathered notesHost disk asked) result := by
  intro h
  have hlimit : (gathered notesHost (notesDisk [totalIn "a.py", totalIn "b.py"]) notesRecall).length ≤ 12 := by
    rw [gathered_two]
    decide
  obtain ⟨result, hretrieve, hrecalled⟩ := h _ _ _ hlimit
  have hvalid : ∀ item ∈ gathered notesHost (notesDisk [totalIn "a.py", totalIn "b.py"]) notesRecall,
      (item.record notesHost notesRecall.message).evidenceRefs.length ≤ 12 := by
    rw [gathered_two]
    decide +kernel
  rw [retrieve_of_valid hvalid hlimit, gathered_two] at hretrieve
  have hone : (valuesBy (·.memoryId) [notesItem "a.py", notesItem "b.py"]).length = 1 := by
    decide +kernel
  have hshort : result.length = 1 := by
    rw [← Except.ok.inj hretrieve, List.length_insertionSort, List.length_map, hone]
  have htwo : ((([notesItem "a.py", notesItem "b.py"]).filter (·.owned)).dedup.map
      (·.record notesHost notesRecall.message)).length = 2 := by decide +kernel
  have hsame := (recalled_iff_items.mp hrecalled).2.length_eq
  rw [gathered_two, htwo] at hsame
  have hle := List.length_filter_le (·.owned) result
  omega

end RlmGraph.Memory.Federated
