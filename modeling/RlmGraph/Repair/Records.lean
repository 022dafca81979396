import RlmGraph.Knowledge.Records
import RlmGraph.Runner.Records
import RlmGraph.Sandbox.Records

/-! # Records of a repair

What the validation and the promotion of a repair read and write. A repair is
tried on a mirror: the authorized files of the project, by path, as they were
copied and as tests and the worker leave them. Paths are those of the index. -/
namespace RlmGraph.Repair.Records
open RlmGraph.Lib RlmGraph.Lib.JsonText
open RlmGraph.Knowledge.Records (SourceFile)
open RlmGraph.Runner.Records (TaskStatus StoppingReason)
open RlmGraph.Sandbox.Records (PatchChange TestExecution)

inductive RepairStatus where
  | proposed | verified | rejected
  deriving DecidableEq

/-- The claim of a diagnosis. -/
structure Claim where
  id : String
  fingerprint : String
  conclusion : String
  sourceTaskId : Option String
  sourceClaimIds : List String := []
  sourceFiles : List SourceFile

structure Task where
  id : String
  question : String
  fingerprint : String
  projectFingerprint : String
  projectRoot : String
  parentTaskId : Option String := none
  sourceClaimIds : List String := []
  relevantFiles : List String := []
  depth : Int := 0
  status : TaskStatus := .open
  reuseType : Option String := none
  reuseReason : Option String := none
  stoppingReason : Option StoppingReason := none
  lastError : Option String := none

structure RepairWorkerResult where
  rationale : String
  confidence : ℚ
  filesChanged : List String
  modelCalls : Nat := 1

structure RepairProposal where
  id : String
  repairTaskId : String
  diagnosisClaimId : String
  projectRoot : String
  projectFingerprint : String
  sourceTreeFingerprint : String
  testPath : String
  authorizedPaths : List String
  supportingClaimIds : List String
  changes : List PatchChange
  rationale : String
  confidence : ℚ
  worker : String
  modelCalls : Nat
  signature : String
  status : RepairStatus

/-! ## Files -/

/-- What there is at a resolved path of the project. -/
inductive Node where
  | file (bytes : Bytes)
  | folder
  deriving DecidableEq

abbrev Project := String → Option Node

/-- The regular files of a mirror, by path. -/
abbrev Mirror := List (String × Bytes)

structure RepairValidation where
  id : String
  repairTaskId : String
  proposalId : String
  attempt : Nat
  status : RepairStatus
  before : TestExecution
  after : TestExecution
  originalUnchanged : Bool
  failureReason : Option String
  /-- The slice it was run on. Nothing reads it. -/
  slice : Mirror

structure RepairRunResult where
  repairTask : Task
  proposal : RepairProposal
  validation : RepairValidation
  attempts : List RepairValidation
  retryTasks : List Task := []
  workerCalls : Nat
  modelCalls : Nat
  reused : Bool := false

structure RepairStore where
  claims : List Claim
  tasks : List Task
  repairProposals : List RepairProposal := []
  repairValidations : List RepairValidation := []

/-- What the validator is given, with oracles for the tests, the worker and the
identifiers, by number. -/
structure RepairHost where
  sha256 : Bytes → String
  taskFingerprint : String → String → String
  treeFingerprint : String → Project → String
  /-- `ProjectSelection.explicit`. -/
  selectRoot : String → Except PyError String
  isAbsolute : String → Bool
  /-- `(root / relative).resolve()`. -/
  target : String → String → String
  isRelativeTo : String → String → Bool
  /-- `sys.executable`. -/
  executable : String
  /-- A list of texts inside a message. -/
  listText : List String → String
  /-- A number with three decimals. -/
  threeDecimals : ℚ → String
  newId : String → Nat → String
  newId_inj : ∀ kind, Function.Injective (newId kind)
  execute : Nat → List String → Mirror → Except PyError (TestExecution × Mirror)
  repair : Nat → String → Claim → Mirror → Except PyError (RepairWorkerResult × Mirror)
  workerName : String
  minimumConfidence : ℚ := 3 / 4
  maxAttempts : Nat := 2
  attempts_pos : 1 ≤ maxAttempts

structure World where
  store : RepairStore
  project : Project
  /-- The number of the next oracle. -/
  tick : Nat

/-! ## Texts -/

/-- `sorted(dict.fromkeys(paths))`. -/
def sortedPaths (paths : List String) : List String := paths.dedup.insertionSort (· ≤ ·)

@[simp] theorem mem_sortedPaths {paths : List String} {path : String} :
    path ∈ sortedPaths paths ↔ path ∈ paths := by
  simp [sortedPaths]

/-- `path.replace("\\", "/")`. -/
def forwardSlashes (path : String) : String :=
  String.ofList (path.toList.map fun c => if c = '\\' then '/' else c)

/-- `bytes.decode("utf-8")`. -/
def decodeUtf8 (bytes : Bytes) : Except PyError String :=
  match String.fromUTF8? ⟨bytes.toArray⟩ with
  | some text => .ok text
  | none => .error (.value "'utf-8' codec can't decode the bytes")

/-- What is decoded is the text with these bytes. -/
theorem utf8_of_decode {bytes : Bytes} {text : String} (h : decodeUtf8 bytes = .ok text) :
    utf8 text = bytes := by
  unfold decodeUtf8 String.fromUTF8? at h
  split at h
  · next found hfound =>
    cases h
    split at hfound
    · cases hfound
      rfl
    · cases hfound
  · cases h

theorem decode_utf8 (text : String) : decodeUtf8 (utf8 text) = .ok text := by
  have hbytes : (⟨(utf8 text).toArray⟩ : ByteArray) = text.toByteArray :=
    ByteArray.ext Array.toArray_toList
  unfold decodeUtf8 String.fromUTF8?
  rw [hbytes, dif_pos text.isValidUTF8]
  rfl

end RlmGraph.Repair.Records
