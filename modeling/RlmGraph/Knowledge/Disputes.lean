import RlmGraph.Knowledge.Adjudication
import RlmGraph.Runner.Lineage

/-! # Disputes of investigations

A run of the supervisor records what an investigation found, compares it with what
the claims of the project state assert, and leaves the investigation open above a
resolution for each key that is disputed. The resolution of a key is shared: a later
run that disputes the key with at least three claims takes it over. A run that takes
none from an open investigation, and a pursuit that returns, keep every recorded
investigation above the resolutions of its keys, and complete it with them
(`kept_of_run`). What other code writes into the tables beside the tasks is left
open (`Step`). -/
namespace RlmGraph.Knowledge.Disputes
open RlmGraph.Lib RlmGraph.Lib.PyText RlmGraph.Lib.Rows RlmGraph.Lib.Results
open RlmGraph.Knowledge.Conflicts RlmGraph.Knowledge.Resolution
open RlmGraph.Knowledge.Records (Assertion Evidence SourceFile)
open RlmGraph.Runner
open RlmGraph.Runner.Records (Task PursuitHost PursuitConfig Investigator Pursuit)
open RlmGraph.Runner.Lineage (Recorded Tracked Carries eq_of_id)

/-- An `InvestigationResult`. -/
structure InvestigationResult where
  conclusion : String
  evidence : List Evidence := []
  confidence : ℚ
  filesExamined : List String := []
  unresolvedQuestions : List String := []
  assertions : List Assertion := []

/-- What a run reads and draws. -/
structure RunHost where
  tables : CaseTables
  files : ProjectFiles
  /-- `type(investigator).__name__`. -/
  producer : String
  claimId : String
  /-- What the resolution of a normalized key is made of. -/
  newTask : String → NewTask
  /-- The sources that the project index captured; none without an index. -/
  indexedSources : List SourceFile := []

/-- `Supervisor._create_resolution_task`. -/
def createResolutionTask (files : ProjectFiles) (new : NewTask) (parent : Task) (conflict : ClaimConflict)
    (store : GraphStore) : Task × GraphStore :=
  let left := conflict.leftClaimId
  let right := conflict.rightClaimId
  let question := "Resolve contradiction for assertion '" ++ conflict.assertionKey ++ "': " ++ left ++
    " says '" ++ conflict.leftValue ++ "', while " ++ right ++ " says '" ++ conflict.rightValue ++ "'."
  let existing := store.tasks.find? fun task => task.kind == .resolution &&
    task.projectFingerprint == parent.projectFingerprint &&
    task.disputedAssertionKey == some conflict.assertionKey && sameSet task.conflictingClaimIds [left, right]
  match existing with
  | some task => (task, store)
  | none =>
    let resolution : Task := {
      id := new.id
      question := question
      fingerprint := new.taskFingerprint question parent.projectFingerprint
      projectFingerprint := parent.projectFingerprint
      projectRoot := files.resolve parent.projectRoot
      kind := .resolution
      parentTaskId := some parent.id
      depth := parent.depth + 1
      conflictingClaimIds := [left, right]
      disputedAssertionKey := some conflict.assertionKey
      createdAt := new.createdAt }
    (resolution, store.saveTask resolution)

/-- The claims that assert something of a normalized key. -/
def participants (tables : CaseTables) (key : String) (claims : List Claim) : List Claim :=
  claims.filter fun claim => claim.assertions.any fun item => normalizeAssertion tables item.key == key

/-- One conflict of the loop of `_record_discovery`, with the keys that are handled. -/
def recordConflict (host : RunHost) (task : Task) (conflicts : List ClaimConflict) (allClaims : List Claim)
    (state : List String × GraphStore) (conflict : ClaimConflict) : Except PyError (List String × GraphStore) :=
  let key := normalizeAssertion host.tables conflict.assertionKey
  if key ∈ state.1 then .ok state
  else
    let participating := participants host.tables key allClaims
    if 3 ≤ participating.length then
      (createConflictResolutionTask host.tables host.files (host.newTask key) task conflict.assertionKey
        participating state.2).map fun created => (key :: state.1, created.2)
    else
      let same := conflicts.filter fun item => normalizeAssertion host.tables item.assertionKey == key
      .ok (key :: state.1, same.foldl (fun store item =>
        (createResolutionTask host.files (host.newTask key) task item store).2) state.2)

/-- The claim of a discovery. -/
def discovered (host : RunHost) (task : Task) (result : InvestigationResult) : Claim where
  id := host.claimId
  fingerprint := task.fingerprint
  projectFingerprint := task.projectFingerprint
  subject := task.question
  producer := host.producer
  conclusion := result.conclusion
  confidence := result.confidence
  evidence := result.evidence
  filesExamined := result.filesExamined
  unresolvedQuestions := result.unresolvedQuestions
  assertions := result.assertions
  sourceFiles := host.indexedSources

/-- The task of a result, before conflicts are looked for. -/
def answered (task : Task) (result : InvestigationResult) : Task :=
  if result.unresolvedQuestions ≠ [] then
    { task with status := .recurse, stoppingReason := some .lowConfidence }
  else { task with status := .done, stoppingReason := some .completed }

/-- The conflicts with the claims of the project state. -/
def conflictsOf (host : RunHost) (task : Task) (result : InvestigationResult) (store : GraphStore) :
    List ClaimConflict :=
  detectConflicts host.tables (discovered host task result).toClaim
    ((store.claims.filter (·.projectFingerprint == task.projectFingerprint)).map (·.toClaim))

/-- `Supervisor._record_discovery`, up to the task it returns. -/
def recordDiscovery (host : RunHost) (task : Task) (result : InvestigationResult) (store : GraphStore) :
    Except PyError Task × GraphStore :=
  let existingClaims := store.claims.filter (·.projectFingerprint == task.projectFingerprint)
  let claim := discovered host task result
  let conflicts := conflictsOf host task result store
  let task := answered task result
  let store := store.saveTask task
  match initializeProvenance host.files task claim with
  | .error e => (.error e, store)
  | .ok claim =>
    let store := store.putClaim claim
    match conflicts.foldlM (recordConflict host task conflicts (existingClaims ++ [claim])) ([], store) with
    | .error e => (.error e, store)
    | .ok (_, store) =>
      if conflicts = [] then (.ok task, store)
      else
        let task := { task with status := .recurse, stoppingReason := none }
        (.ok task, store.saveTask task)

/-- `Supervisor.run`, where memory answers nothing: the task is remembered, and its
discovery recorded. -/
def run (host : RunHost) (task : Task) (result : InvestigationResult) (store : GraphStore) :
    Except PyError Task × GraphStore :=
  let task := { task with attemptCount := task.attemptCount + 1 }
  recordDiscovery host task result (store.saveTask task)

/-! ## Steps -/

/-- The tables, and the investigations that runs left open because of conflicts. -/
structure World where
  store : GraphStore
  recorded : List Recorded
  ids : (store.tasks.map (·.id)).Nodup

/-- What a run left open, with the normalized keys of its conflicts. -/
def recordOf (host : RunHost) (task : Task) (result : InvestigationResult) (store : GraphStore) : Recorded where
  taskId := task.id
  keys := (conflictsOf host task result store).map fun conflict =>
    normalizeAssertion host.tables conflict.assertionKey
  projectFingerprint := task.projectFingerprint

/-- `Task.create`: an investigation of its own. -/
structure Created (task : Task) (tasks : List Task) : Prop where
  named : task.id ≠ ""
  new : task.id ∉ tasks.map (·.id)
  childless : ∀ other ∈ tasks, other.parentTaskId ≠ some task.id
  kind : task.kind = .investigation
  root : task.parentTaskId = none
  undisputed : task.conflictingClaimIds = []

/-- The identifiers that a run draws are new. -/
structure Drawn (host : RunHost) (task : Task) (tasks : List Task) : Prop where
  claim : ∀ other ∈ tasks, host.claimId ∉ other.conflictingClaimIds
  tasks : ∀ key, (host.newTask key).id ∉ tasks.map (·.id)
  task : ∀ key, (host.newTask key).id ≠ task.id
  injective : Function.Injective fun key => (host.newTask key).id

/-- The resolution of a normalized key in a project state. -/
def resolutionOf (tables : CaseTables) (projectFingerprint key : String) (tasks : List Task) : Option Task :=
  tasks.find? fun task => task.kind == .resolution && task.projectFingerprint == projectFingerprint &&
    normalizeAssertion tables (task.disputedAssertionKey.getD "") == key

/-- The run takes no resolution from an investigation that is open: where a disputed key
has at least three claims, the task above its resolution is done. -/
def TakesNone (host : RunHost) (task : Task) (result : InvestigationResult) (store : GraphStore) : Prop :=
  ∀ conflict ∈ conflictsOf host task result store,
    let key := normalizeAssertion host.tables conflict.assertionKey
    3 ≤ (participants host.tables key
      (store.claims.filter (·.projectFingerprint == task.projectFingerprint) ++
        [discovered host task result])).length →
    ∀ resolution, resolutionOf host.tables task.projectFingerprint key store.tasks = some resolution →
    ∀ parent ∈ store.tasks, resolution.parentTaskId = some parent.id → parent.kind = .investigation →
      parent.status = .done

/-- A call of `pursue`, and the steps it takes. -/
structure PursuitCall where
  host : PursuitHost
  config : PursuitConfig
  rootTaskId : String
  initialCodexCalls : Nat := 0
  investigator : Investigator := {}
  followUpCalls : Nat := 0
  resolutionCalls : Nat := 0
  steps : Nat
  graph : Runner.Records.GraphStore

def PursuitCall.result (call : PursuitCall) : Pursuit :=
  Pursue.pursue call.host call.config call.steps (Pursue.start call.rootTaskId call.initialCodexCalls
    call.investigator call.followUpCalls call.resolutionCalls call.graph)

/-- A run that records a discovery, a run that ends otherwise (what is remembered of its
task stays), or a pursuit. -/
inductive Call where
  | discover (host : RunHost) (task : Task) (result : InvestigationResult)
  | remember (task : Task)
  | pursue (call : PursuitCall)

/-- The call returns, and leaves these tasks; the other tables are left open. -/
def Call.Does (tables : CaseTables) (w : World) : Call → World → Prop
  | discover host task result, w' => host.tables = tables ∧ Created task w.store.tasks ∧
      Drawn host task w.store.tasks ∧ (∃ outcome, (run host task result w.store).1 = .ok outcome) ∧
      w'.store.tasks = (run host task result w.store).2.tasks ∧
      w'.recorded = if conflictsOf host task result w.store = [] then w.recorded
        else recordOf host task result w.store :: w.recorded
  | remember task, w' => Created task w.store.tasks ∧ w'.store.tasks = (w.store.saveTask task).tasks ∧
      w'.recorded = w.recorded
  | pursue call, w' => call.graph.tasks = w.store.tasks ∧ Function.Injective call.host.newId ∧
      (∀ task ∈ w.store.tasks, ∀ n, call.host.newId n ≠ task.id) ∧
      (∃ status reason, call.result.phase = .returned status reason) ∧
      w'.store.tasks = call.result.store.tasks ∧ w'.recorded = w.recorded

/-- Only the run of a discovery takes over resolutions. -/
def Call.TakesNone (w : World) : Call → Prop
  | discover host task result => Disputes.TakesNone host task result w.store
  | _ => True

def Step (tables : CaseTables) (w w' : World) : Prop := ∃ call : Call, call.Does tables w w'

/-- A call that takes no resolution from an investigation that is open. -/
def QuietStep (tables : CaseTables) (w w' : World) : Prop :=
  ∃ call : Call, call.Does tables w w' ∧ call.TakesNone w

/-- An investigation that a run left open: until it is done it is above a
resolution of each of its keys, and once the resolutions of its keys are done, a pursuit of
it returns with it done. -/
structure Unorphaned (tables : CaseTables) (w : World) (recorded : Recorded) : Prop where
  keeps : recorded.Done w.store.tasks ∨ ∀ key ∈ recorded.keys, ∃ child ∈ w.store.tasks,
    child.kind = .resolution ∧ child.parentTaskId = some recorded.taskId ∧
    normalizeAssertion tables (child.disputedAssertionKey.getD "") = key
  completes : (∀ task ∈ w.store.tasks, task.kind = .resolution →
      task.projectFingerprint = recorded.projectFingerprint →
      normalizeAssertion tables (task.disputedAssertionKey.getD "") ∈ recorded.keys → task.status = .done) →
    ∀ call : PursuitCall, call.rootTaskId = recorded.taskId → call.graph.tasks = w.store.tasks →
      ∃ steps, { call with steps := steps }.result.phase = .returned .done .completed ∧
        recorded.Done { call with steps := steps }.result.store.tasks

/-! ## The loop over the conflicts -/

section
variable {host : RunHost} {task row : Task} {handled handled' : List String} {before tasks : List Task}
  {key : String} {recorded : Recorded} {takes : String → Prop}

/-- The normalized key of a resolution. -/
def keyOf (tables : CaseTables) (task : Task) : String :=
  normalizeAssertion tables (task.disputedAssertionKey.getD "")

/-- The loop has put open resolutions of the handled keys below the task, and no others. -/
structure Disputing (host : RunHost) (task : Task) (before : List Task) (handled : List String)
    (tasks : List Task) : Prop where
  ids : (tasks.map (·.id)).Nodup
  self : ∃ row ∈ tasks, row.id = task.id ∧ row.kind = .investigation
  below : ∀ child ∈ tasks, child.parentTaskId = some task.id → child.kind = .resolution ∧
    child.status = .open ∧ child.projectFingerprint = task.projectFingerprint ∧
    keyOf host.tables child ∈ handled
  keyed : ∀ key ∈ handled, ∃ child ∈ tasks, child.parentTaskId = some task.id ∧ keyOf host.tables child = key
  claim : ∀ other ∈ tasks, host.claimId ∈ other.conflictingClaimIds → keyOf host.tables other ∈ handled
  drawn : ∀ other ∈ tasks, ∀ key, other.id = (host.newTask key).id →
    other.parentTaskId = some task.id ∧ keyOf host.tables other = key
  found : ∀ key, key ∉ handled → resolutionOf host.tables task.projectFingerprint key tasks =
    resolutionOf host.tables task.projectFingerprint key before

/-- A resolution that the loop saves: a new one, or the one there is. -/
structure Saves (host : RunHost) (task : Task) (key : String) (tasks : List Task) (row : Task) : Prop where
  kind : row.kind = .resolution
  status : row.status = .open
  parent : row.parentTaskId = some task.id
  projectFingerprint : row.projectFingerprint = task.projectFingerprint
  sameKey : keyOf host.tables row = key
  origin : row.id = (host.newTask key).id ∨ ∃ old ∈ tasks, old.id = row.id ∧ old.kind = .resolution ∧
    keyOf host.tables old = key

/-- What is saved over has the same key. -/
theorem Disputing.old_key (h : Disputing host task before handled tasks) (hrow : Saves host task key tasks row)
    {old : Task} (hold : old ∈ tasks) (hid : old.id = row.id) : keyOf host.tables old = key := by
  rcases hrow.origin with hnew | ⟨found, hfound, hsame, -, hkey⟩
  · exact (h.drawn old hold key (hid.trans hnew)).2
  · obtain rfl := eq_of_id h.ids hold hfound (hid.trans hsame.symm)
    exact hkey

/-- It is not an investigation. -/
theorem Disputing.old_kind (h : Disputing host task before handled tasks) (hrow : Saves host task key tasks row)
    {old : Task} (hold : old ∈ tasks) (hid : old.id = row.id) : old.kind = .resolution := by
  rcases hrow.origin with hnew | ⟨found, hfound, hsame, hkind, -⟩
  · exact (h.below old hold (h.drawn old hold key (hid.trans hnew)).1).1
  · obtain rfl := eq_of_id h.ids hold hfound (hid.trans hsame.symm)
    exact hkind

theorem Disputing.save (hinj : Function.Injective fun key => (host.newTask key).id)
    (h : Disputing host task before handled tasks) (hrow : Saves host task key tasks row)
    (hhandled : ∀ other, other ∈ handled' ↔ other = key ∨ other ∈ handled) :
    Disputing host task before handled' (replaceRow (·.id) row tasks) := by
  have hkey : key ∈ handled' := (hhandled key).mpr (.inl rfl)
  have hgrow : ∀ other, other ∈ handled → other ∈ handled' := fun other hmem => (hhandled other).mpr (.inr hmem)
  have hrowMem : row ∈ replaceRow (·.id) row tasks := mem_replaceRow.mpr (.inr rfl)
  constructor
  case ids => exact nodup_replaceRow h.ids
  case self =>
    obtain ⟨self, hself, hid, hkind⟩ := h.self
    refine ⟨self, mem_replaceRow.mpr (.inl ⟨hself, fun hsame => ?_⟩), hid, hkind⟩
    rw [h.old_kind hrow hself hsame] at hkind
    cases hkind
  case below =>
    intro child hchild hbelow
    rcases mem_replaceRow.mp hchild with ⟨hmem, -⟩ | rfl
    · obtain ⟨hkind, hstatus, hsame, hmember⟩ := h.below child hmem hbelow
      exact ⟨hkind, hstatus, hsame, hgrow _ hmember⟩
    · exact ⟨hrow.kind, hrow.status, hrow.projectFingerprint, hrow.sameKey ▸ hkey⟩
  case keyed =>
    intro other hother
    obtain rfl | hmem := (hhandled other).mp hother
    · exact ⟨row, hrowMem, hrow.parent, hrow.sameKey⟩
    · obtain ⟨child, hchild, hbelow, hsame⟩ := h.keyed other hmem
      by_cases hid : child.id = row.id
      · exact ⟨row, hrowMem, hrow.parent, hrow.sameKey.trans ((h.old_key hrow hchild hid).symm.trans hsame)⟩
      · exact ⟨child, mem_replaceRow.mpr (.inl ⟨hchild, hid⟩), hbelow, hsame⟩
  case claim =>
    intro other hother hclaim
    rcases mem_replaceRow.mp hother with ⟨hmem, -⟩ | rfl
    · exact hgrow _ (h.claim other hmem hclaim)
    · exact hrow.sameKey ▸ hkey
  case drawn =>
    intro other hother drawnKey hid
    rcases mem_replaceRow.mp hother with ⟨hmem, -⟩ | rfl
    · exact h.drawn other hmem drawnKey hid
    · refine ⟨hrow.parent, hrow.sameKey.trans ?_⟩
      rcases hrow.origin with hnew | ⟨old, hold, hsame, -, hsameKey⟩
      · exact hinj (hnew.symm.trans hid)
      · exact hsameKey.symm.trans (h.drawn old hold drawnKey (hsame.trans hid)).2
  case found =>
    intro other hother
    have hne : key ≠ other := fun heq => hother (heq ▸ hkey)
    rw [← h.found other fun hmem => hother (hgrow _ hmem)]
    refine find?_replaceRow_of_not ?_ fun old hold hid => ?_
    · have hrowKey : normalizeAssertion host.tables (row.disputedAssertionKey.getD "") ≠ other :=
        fun heq => hne (hrow.sameKey.symm.trans heq)
      simp [hrowKey]
    · have holdKey : normalizeAssertion host.tables (old.disputedAssertionKey.getD "") ≠ other :=
        fun heq => hne ((h.old_key hrow hold hid).symm.trans heq)
      simp [holdKey]

/-- Another investigation, while the loop goes on: the keys that the run takes over have no
resolution below it, or it is done. -/
structure Watched (host : RunHost) (task : Task) (before : List Task) (takes : String → Prop)
    (recorded : Recorded) (tasks : List Task) : Prop where
  tracked : Tracked (normalizeAssertion host.tables) recorded none tasks
  other : recorded.taskId ≠ task.id
  same : recorded.Done tasks ↔ recorded.Done before
  free : ∀ key, takes key → ∀ resolution,
    resolutionOf host.tables task.projectFingerprint key before = some resolution →
    resolution.parentTaskId = some recorded.taskId → recorded.Done before

theorem Watched.save (hdisputing : Disputing host task before handled tasks)
    (hrow : Saves host task key tasks row) (h : Watched host task before takes recorded tasks)
    (hold : ∀ old ∈ tasks, old.id = row.id → old.parentTaskId = some recorded.taskId → recorded.Done tasks) :
    Watched host task before takes recorded (replaceRow (·.id) row tasks) := by
  have hid : row.id ≠ recorded.taskId := by
    intro hsame
    obtain ⟨root, hroot, hrootId, hinvestigation⟩ := h.tracked.root
    rw [hdisputing.old_kind hrow hroot (hrootId.trans hsame.symm)] at hinvestigation
    cases hinvestigation
  refine ⟨h.tracked.elsewhere hid ?_ hold, h.other, ?_, h.free⟩
  · rw [hrow.parent]
    exact fun hsame => h.other (Option.some.inj hsame).symm
  · rw [← h.same]
    constructor
    · rintro ⟨root, hroot, hrootId, hdone⟩
      rcases mem_replaceRow.mp hroot with ⟨hmem, -⟩ | rfl
      · exact ⟨root, hmem, hrootId, hdone⟩
      · exact absurd hrootId hid
    · rintro ⟨root, hroot, hrootId, hdone⟩
      exact ⟨root, mem_replaceRow.mpr (.inl ⟨hroot, fun hsame => hid (hsame.symm.trans hrootId)⟩), hrootId, hdone⟩

/-- A part of the loop. -/
structure Reaches (host : RunHost) (task : Task) (before : List Task) (takes : String → Prop)
    (tasks : List Task) (handled' : List String) (tasks' : List Task) : Prop where
  disputing : Disputing host task before handled' tasks'
  watched : ∀ recorded, Watched host task before takes recorded tasks →
    Watched host task before takes recorded tasks'

theorem Reaches.trans {tasks' tasks'' : List Task} {handled'' : List String}
    (h : Reaches host task before takes tasks handled' tasks')
    (h' : Reaches host task before takes tasks' handled'' tasks'') :
    Reaches host task before takes tasks handled'' tasks'' :=
  ⟨h'.disputing, fun recorded hrecorded => h'.watched recorded (h.watched recorded hrecorded)⟩

/-- A new resolution, under the identifier that was drawn for its key. -/
theorem reaches_new (hinj : Function.Injective fun key => (host.newTask key).id)
    (h : Disputing host task before handled tasks) (hrow : Saves host task key tasks row)
    (hid : row.id = (host.newTask key).id)
    (hhandled : ∀ other, other ∈ handled' ↔ other = key ∨ other ∈ handled) :
    Reaches host task before takes tasks handled' (replaceRow (·.id) row tasks) where
  disputing := h.save hinj hrow hhandled
  watched recorded hrecorded := by
    refine hrecorded.save h hrow fun old hold hsame hbelow => ?_
    have hparent := (h.drawn old hold key (hsame.trans hid)).1
    exact absurd (Option.some.inj (hbelow.symm.trans hparent)) hrecorded.other

variable {store after : GraphStore}

/-- What a conflict of at least three claims saves. -/
theorem created_saves {assertionKey : String} {claims : List Claim} {created : Task × ConflictCluster}
    (hcreate : createConflictResolutionTask host.tables host.files (host.newTask key) task assertionKey claims
      store = .ok (created, after)) (hkey : normalizeAssertion host.tables assertionKey = key) :
    after.tasks = replaceRow (·.id) created.1 store.tasks ∧ Saves host task key store.tasks created.1 ∧
      (created.1.id = (host.newTask key).id ∨ ∃ old,
        resolutionOf host.tables task.projectFingerprint key store.tasks = some old ∧ old.id = created.1.id) := by
  unfold createConflictResolutionTask at hcreate
  split at hcreate
  · cases hcreate
  split at hcreate
  · cases hcreate
  have hlookup : resolutionOfKey host.tables task.projectFingerprint assertionKey store =
      resolutionOf host.tables task.projectFingerprint key store.tasks := by rw [← hkey]; rfl
  dsimp only at hcreate
  rw [hlookup] at hcreate
  cases hfound : resolutionOf host.tables task.projectFingerprint key store.tasks with
  | none =>
    rw [hfound] at hcreate
    cases hcreate
    exact ⟨rfl, ⟨rfl, rfl, rfl, rfl, hkey, .inl rfl⟩, .inl rfl⟩
  | some old =>
    rw [hfound] at hcreate
    cases hcreate
    obtain ⟨hmem, hold⟩ := And.intro (List.mem_of_find?_eq_some hfound) (List.find?_some hfound)
    simp only [Bool.and_eq_true, beq_iff_eq] at hold
    obtain ⟨⟨hkind, hfingerprint⟩, hsame⟩ := hold
    exact ⟨rfl, ⟨hkind, rfl, rfl, hfingerprint, hkey, .inr ⟨old, hmem, rfl, hkind, hsame⟩⟩, .inr ⟨old, rfl, rfl⟩⟩

/-- What a conflict of two claims saves, if it has no resolution. -/
theorem createResolutionTask_cases (host : RunHost) (task : Task) (item : ClaimConflict) (store : GraphStore)
    (hkey : normalizeAssertion host.tables item.assertionKey = key) :
    ((createResolutionTask host.files (host.newTask key) task item store).2 = store ∧
      ∃ existing ∈ store.tasks, item.rightClaimId ∈ existing.conflictingClaimIds ∧
        keyOf host.tables existing = key) ∨
    ∃ row, (createResolutionTask host.files (host.newTask key) task item store).2.tasks =
        replaceRow (·.id) row store.tasks ∧
      Saves host task key store.tasks row ∧ row.id = (host.newTask key).id := by
  unfold createResolutionTask
  dsimp only
  split
  · next existing hfound =>
    have hsame := List.find?_some hfound
    simp only [Bool.and_eq_true, beq_iff_eq, sameSet, List.all_eq_true, decide_eq_true_eq] at hsame
    obtain ⟨⟨_, hdisputed⟩, -, hids⟩ := hsame
    refine .inl ⟨rfl, existing, List.mem_of_find?_eq_some hfound, hids _ (by simp), ?_⟩
    rw [keyOf, hdisputed]
    exact hkey
  · exact .inr ⟨_, rfl, ⟨rfl, rfl, rfl, rfl, hkey, .inl rfl⟩, rfl⟩

/-- The pairs of a key that is handled. -/
theorem reaches_pairs (hinj : Function.Injective fun key => (host.newTask key).id) (items : List ClaimConflict)
    (hitems : ∀ item ∈ items, normalizeAssertion host.tables item.assertionKey = key)
    (hkey : key ∈ handled) (h : Disputing host task before handled store.tasks) :
    Reaches host task before takes store.tasks handled (items.foldl (fun store item =>
      (createResolutionTask host.files (host.newTask key) task item store).2) store).tasks := by
  induction items generalizing store with
  | nil => exact ⟨h, fun _ hrecorded => hrecorded⟩
  | cons item items ih =>
    obtain ⟨hitem, hrest⟩ := List.forall_mem_cons.mp hitems
    rw [List.foldl_cons]
    obtain ⟨hsame, -⟩ | ⟨row, htasks, hrow, hid⟩ := createResolutionTask_cases host task item store hitem
    · rw [hsame]
      exact ih hrest h
    · have hfirst : Reaches host task before takes store.tasks handled (replaceRow (·.id) row store.tasks) :=
        reaches_new hinj h hrow hid fun other => ⟨.inr, fun hother => hother.elim (fun heq => heq ▸ hkey) id⟩
      rw [← htasks] at hfirst
      exact hfirst.trans (ih hrest hfirst.disputing)

/-- The pairs of a key that is not handled: the first has no resolution yet. -/
theorem reaches_dispute (hinj : Function.Injective fun key => (host.newTask key).id) {items : List ClaimConflict}
    {conflict : ClaimConflict} (hmember : conflict ∈ items)
    (hitems : ∀ item ∈ items, normalizeAssertion host.tables item.assertionKey = key)
    (hright : ∀ item ∈ items, item.rightClaimId = host.claimId)
    (hnew : key ∉ handled) (h : Disputing host task before handled store.tasks) :
    Reaches host task before takes store.tasks (key :: handled) (items.foldl (fun store item =>
      (createResolutionTask host.files (host.newTask key) task item store).2) store).tasks := by
  cases items with
  | nil => cases hmember
  | cons item items =>
    obtain ⟨hitem, hrest⟩ := List.forall_mem_cons.mp hitems
    rw [List.foldl_cons]
    obtain ⟨-, existing, hexisting, hclaim, hkey⟩ | ⟨row, htasks, hrow, hid⟩ :=
      createResolutionTask_cases host task item store hitem
    · rw [(List.forall_mem_cons.mp hright).1] at hclaim
      exact absurd (hkey ▸ h.claim existing hexisting hclaim) hnew
    · have hfirst : Reaches host task before takes store.tasks (key :: handled) (replaceRow (·.id) row store.tasks) :=
        reaches_new hinj h hrow hid fun _ => List.mem_cons
      rw [← htasks] at hfirst
      exact hfirst.trans (reaches_pairs hinj items hrest List.mem_cons_self hfirst.disputing)

/-- One conflict of the loop. -/
theorem reaches_conflict (hinj : Function.Injective fun key => (host.newTask key).id)
    {conflicts : List ClaimConflict} {allClaims : List Claim} {conflict : ClaimConflict}
    {state : List String × GraphStore} (hconflict : conflict ∈ conflicts)
    (hright : ∀ item ∈ conflicts, item.rightClaimId = host.claimId)
    (htakes : 3 ≤ (participants host.tables (normalizeAssertion host.tables conflict.assertionKey)
      allClaims).length → takes (normalizeAssertion host.tables conflict.assertionKey))
    (h : Disputing host task before handled store.tasks)
    (hrun : recordConflict host task conflicts allClaims (handled, store) conflict = .ok state) :
    Reaches host task before takes store.tasks state.1 state.2.tasks ∧
      ∀ key, key ∈ state.1 ↔ key = normalizeAssertion host.tables conflict.assertionKey ∨ key ∈ handled := by
  unfold recordConflict at hrun
  dsimp only at hrun
  split at hrun
  · next hknown =>
    cases hrun
    refine ⟨⟨h, fun _ hrecorded => hrecorded⟩, fun key => ⟨.inr, ?_⟩⟩
    exact fun hkey => hkey.elim (fun heq => heq ▸ hknown) id
  · next hnew =>
    split at hrun
    · next hmany =>
      cases hcreate : createConflictResolutionTask host.tables host.files
          (host.newTask (normalizeAssertion host.tables conflict.assertionKey)) task conflict.assertionKey
          (participants host.tables (normalizeAssertion host.tables conflict.assertionKey) allClaims) store with
      | error e =>
        rw [hcreate] at hrun
        cases hrun
      | ok made =>
        obtain ⟨created, after⟩ := made
        rw [hcreate] at hrun
        cases hrun
        obtain ⟨hafter, hsaves, hid⟩ := created_saves hcreate rfl
        refine ⟨?_, fun key => List.mem_cons⟩
        rw [show (_ : List String × GraphStore).2.tasks = _ from hafter]
        refine hid.elim (fun hdrawn => reaches_new hinj h hsaves hdrawn fun _ => List.mem_cons) ?_
        rintro ⟨old, hold, holdId⟩
        refine ⟨h.save hinj hsaves fun _ => List.mem_cons, fun recorded hrecorded => ?_⟩
        refine hrecorded.save h hsaves fun row hrow hsame hbelow => ?_
        obtain rfl := eq_of_id h.ids hrow (List.mem_of_find?_eq_some hold) (hsame.trans holdId.symm)
        rw [h.found _ hnew] at hold
        exact hrecorded.same.mpr (hrecorded.free _ (htakes hmany) row hold hbelow)
    · cases hrun
      refine ⟨?_, fun key => List.mem_cons⟩
      refine reaches_dispute hinj (List.mem_filter.mpr ⟨hconflict, beq_self_eq_true _⟩) ?_ ?_ hnew h
      · exact fun item hitem => eq_of_beq (List.mem_filter.mp hitem).2
      · exact fun item hitem => hright item (List.mem_filter.mp hitem).1

/-- The loop. -/
theorem reaches_conflicts (hinj : Function.Injective fun key => (host.newTask key).id)
    {conflicts : List ClaimConflict} {allClaims : List Claim} (items : List ClaimConflict)
    (hitems : ∀ item ∈ items, item ∈ conflicts) {state : List String × GraphStore}
    (hright : ∀ item ∈ conflicts, item.rightClaimId = host.claimId)
    (htakes : ∀ item ∈ items, 3 ≤ (participants host.tables (normalizeAssertion host.tables item.assertionKey)
      allClaims).length → takes (normalizeAssertion host.tables item.assertionKey))
    (h : Disputing host task before handled store.tasks)
    (hrun : items.foldlM (recordConflict host task conflicts allClaims) (handled, store) = .ok state) :
    Reaches host task before takes store.tasks state.1 state.2.tasks ∧
      ∀ key, key ∈ state.1 ↔ key ∈ handled ∨
        key ∈ items.map fun item => normalizeAssertion host.tables item.assertionKey := by
  induction items generalizing handled store with
  | nil =>
    cases hrun
    exact ⟨⟨h, fun _ hrecorded => hrecorded⟩, fun key => by simp⟩
  | cons item items ih =>
    obtain ⟨hitem, hrest⟩ := List.forall_mem_cons.mp hitems
    rw [List.foldlM_cons] at hrun
    obtain ⟨middle, hfirst, hrun⟩ := bind_ok hrun
    obtain ⟨htake, htakes⟩ := List.forall_mem_cons.mp htakes
    obtain ⟨hreaches, hhandled⟩ := reaches_conflict hinj hitem hright htake h hfirst
    obtain ⟨hlater, hkeys⟩ := ih hrest htakes hreaches.disputing hrun
    refine ⟨hreaches.trans hlater, fun key => ?_⟩
    rw [hkeys, hhandled, List.map_cons, List.mem_cons]
    tauto

/-! ### The task that is left open -/

/-- The row of the task is none of its resolutions. -/
theorem Disputing.not_self (h : Disputing host task before handled tasks) {old : Task} (hold : old ∈ tasks)
    (hkind : old.kind = .resolution) : old.id ≠ task.id := by
  intro hsame
  obtain ⟨self, hself, hid, hinvestigation⟩ := h.self
  obtain rfl := eq_of_id h.ids hold hself (hsame.trans hid.symm)
  rw [hkind] at hinvestigation
  cases hinvestigation

/-- The run's own investigation. -/
theorem Disputing.left (h : Disputing host task before handled tasks) (hname : task.id ≠ "")
    (hid : row.id = task.id) (hkind : row.kind = .investigation) (hroot : row.parentTaskId = none)
    (htask : recorded.taskId = task.id) (hfingerprint : recorded.projectFingerprint = task.projectFingerprint)
    (hkeys : ∀ key, key ∈ handled ↔ key ∈ recorded.keys) (hsome : recorded.keys ≠ []) :
    Tracked (normalizeAssertion host.tables) recorded none (replaceRow (·.id) row tasks) := by
  have hstay : ∀ child ∈ tasks, child.parentTaskId = some task.id → child ∈ replaceRow (·.id) row tasks := by
    intro child hchild hbelow
    exact mem_replaceRow.mpr (.inl ⟨hchild, hid ▸ h.not_self hchild (h.below child hchild hbelow).1⟩)
  have hkeyed : ∀ key ∈ recorded.keys, ∃ child ∈ tasks, child.parentTaskId = some task.id ∧
      keyOf host.tables child = key := fun key hkey => h.keyed key ((hkeys key).mpr hkey)
  constructor
  case ids => exact nodup_replaceRow h.ids
  case named => exact htask ▸ hname
  case root => exact ⟨row, mem_replaceRow.mpr (.inr rfl), hid.trans htask.symm, hkind⟩
  case children =>
    intro child hchild hbelow
    rcases mem_replaceRow.mp hchild with ⟨hmem, -⟩ | rfl
    · obtain ⟨hresolution, -, hsame, hmember⟩ := h.below child hmem (htask ▸ hbelow)
      exact ⟨hresolution, hsame.trans hfingerprint.symm, (hkeys _).mp hmember⟩
    · rw [hroot] at hbelow
      cases hbelow
  case keyed =>
    refine .inr fun key hkey => ?_
    obtain ⟨child, hchild, hbelow, hsame⟩ := hkeyed key hkey
    exact ⟨child, hstay child hchild hbelow, htask ▸ hbelow, hsame⟩
  case closed =>
    -- one of its resolutions is open
    intro hall
    obtain ⟨key, hkey⟩ := List.exists_mem_of_ne_nil _ hsome
    obtain ⟨child, hchild, hbelow, -⟩ := hkeyed key hkey
    have hdone := (hall child (hstay child hchild hbelow) (htask ▸ hbelow)).1
    rw [(h.below child hchild hbelow).2.1] at hdone
    cases hdone

/-- The other investigations. -/
theorem Watched.left (h : Watched host task before takes recorded tasks)
    (hdisputing : Disputing host task before handled tasks) (hid : row.id = task.id)
    (hroot : row.parentTaskId = none) :
    Tracked (normalizeAssertion host.tables) recorded none (replaceRow (·.id) row tasks) := by
  refine h.tracked.elsewhere (fun hsame => h.other (hsame.symm.trans hid)) (hroot ▸ by rintro ⟨⟩) ?_
  intro old hold hsame hbelow
  exact absurd (hsame.trans hid) (hdisputing.not_self hold (h.tracked.children old hold hbelow).1)

end

/-! ## A run -/

section
variable {host : RunHost} {task : Task} {result : InvestigationResult} {store : GraphStore} {outcome : Task}
  {recorded : Recorded}

theorem rightClaimId_of_conflict {conflict : ClaimConflict} (h : conflict ∈ conflictsOf host task result store) :
    conflict.rightClaimId = host.claimId := by
  obtain ⟨existing, -, hmem⟩ := List.mem_flatMap.mp h
  split at hmem
  · cases hmem
  · obtain ⟨assertion, -, hcompare⟩ := List.mem_filterMap.mp hmem
    unfold compareAssertion at hcompare
    split at hcompare
    · cases hcompare
    · split at hcompare
      · cases hcompare
      · cases hcompare
        rfl

/-- The provenance of the new claim decides nothing. -/
theorem participants_length {files : ProjectFiles} {claim claim' : Claim} {tables : CaseTables} {key : String}
    {existing : List Claim} (h : initializeProvenance files task claim = .ok claim') :
    (participants tables key (existing ++ [claim'])).length = (participants tables key (existing ++ [claim])).length := by
  unfold participants
  rw [List.filter_append, List.filter_append, List.length_append, List.length_append]
  congr 1
  rw [List.filter_singleton, List.filter_singleton, (Adjudication.initializeProvenance_content h).assertions]
  cases claim.assertions.any fun item => normalizeAssertion tables item.key == key <;> rfl

/-- The row of a task that was answered. -/
theorem answered_place (task : Task) (result : InvestigationResult) :
    (answered task result).id = task.id ∧ (answered task result).kind = task.kind ∧
      (answered task result).parentTaskId = task.parentTaskId ∧
      (answered task result).projectFingerprint = task.projectFingerprint ∧
      (answered task result).conflictingClaimIds = task.conflictingClaimIds := by
  unfold answered
  split
  · exact ⟨rfl, rfl, rfl, rfl, rfl⟩
  · exact ⟨rfl, rfl, rfl, rfl, rfl⟩

/-- The task of a run once its result is there. -/
def answer (task : Task) (result : InvestigationResult) : Task :=
  answered { task with attemptCount := task.attemptCount + 1 } result

/-- What a run that returns did. -/
theorem run_ok (h : (run host task result store).1 = .ok outcome) :
    ∃ (claim : Claim) (begun : GraphStore) (state : List String × GraphStore),
      initializeProvenance host.files (answer task result) (discovered host task result) = .ok claim ∧
      begun.tasks = replaceRow (·.id) (answer task result) store.tasks ∧
      (conflictsOf host task result store).foldlM (recordConflict host (answer task result)
        (conflictsOf host task result store)
        (store.claims.filter (·.projectFingerprint == task.projectFingerprint) ++ [claim])) ([], begun) =
          .ok state ∧
      (run host task result store).2.tasks = if conflictsOf host task result store = [] then state.2.tasks
        else replaceRow (·.id) { answer task result with status := .recurse, stoppingReason := none }
          state.2.tasks := by
  unfold run recordDiscovery at h ⊢
  dsimp only at h ⊢
  split at h
  · cases h
  · next claim hclaim =>
    split at h
    · cases h
    · next handled after hloop =>
      refine ⟨claim, _, (handled, after), hclaim, replaceRow_twice (answered_place _ result).1, hloop, ?_⟩
      dsimp only
      split
      · next hnone => exact (if_pos hnone).symm
      · next hsome => exact (if_neg hsome).symm

/-- A key that the run disputes with at least three claims. -/
def Taken (host : RunHost) (task : Task) (result : InvestigationResult) (store : GraphStore) (key : String) : Prop :=
  ∃ conflict ∈ conflictsOf host task result store, normalizeAssertion host.tables conflict.assertionKey = key ∧
    3 ≤ (participants host.tables key (store.claims.filter (·.projectFingerprint == task.projectFingerprint) ++
      [discovered host task result])).length

/-- The row of the run, before its conflicts are looked at. -/
theorem disputing_begun (result : InvestigationResult) (hcreated : Created task store.tasks) (hdrawn : Drawn host task store.tasks)
    (hids : (store.tasks.map (·.id)).Nodup) : Disputing host (answer task result) store.tasks []
      (replaceRow (·.id) (answer task result) store.tasks) := by
  obtain ⟨hid, hkind, hroot, -, hclaims⟩ := answered_place { task with attemptCount := task.attemptCount + 1 } result
  have hkind : (answer task result).kind = .investigation := hkind.trans hcreated.kind
  have hroot : (answer task result).parentTaskId = none := hroot.trans hcreated.root
  constructor
  case ids => exact nodup_replaceRow hids
  case self => exact ⟨_, mem_replaceRow.mpr (.inr rfl), rfl, hkind⟩
  case below =>
    intro child hchild hbelow
    rcases mem_replaceRow.mp hchild with ⟨hmem, -⟩ | rfl
    · exact absurd (hbelow.trans (congrArg some hid)) (hcreated.childless child hmem)
    · rw [hroot] at hbelow
      cases hbelow
  case keyed => exact fun key hkey => by cases hkey
  case claim =>
    intro other hother hclaim
    rcases mem_replaceRow.mp hother with ⟨hmem, -⟩ | rfl
    · exact absurd hclaim (hdrawn.claim other hmem)
    · rw [show (answer task result).conflictingClaimIds = [] from hclaims.trans hcreated.undisputed] at hclaim
      cases hclaim
  case drawn =>
    intro other hother key hsame
    rcases mem_replaceRow.mp hother with ⟨hmem, -⟩ | rfl
    · exact absurd (List.mem_map.mpr ⟨other, hmem, hsame⟩) (hdrawn.tasks key)
    · exact absurd (hsame.symm.trans hid) (hdrawn.task key)
  case found =>
    intro key _
    refine find?_replaceRow_of_not (by rw [hkind]; rfl) fun old hold hsame => ?_
    exact absurd (List.mem_map.mpr ⟨old, hold, hsame.trans hid⟩) hcreated.new

/-- An investigation that a run finds. -/
theorem watched_begun (hcreated : Created task store.tasks)
    (hfree : TakesNone host task result store)
    (h : Tracked (normalizeAssertion host.tables) recorded none store.tasks) :
    Watched host (answer task result) store.tasks (Taken host task result store) recorded
      (replaceRow (·.id) (answer task result) store.tasks) := by
  obtain ⟨hid, -, hroot, hfingerprint, -⟩ := answered_place { task with attemptCount := task.attemptCount + 1 } result
  have hnew : (answer task result).id ∉ store.tasks.map (·.id) := fun hmem => hcreated.new (hid ▸ hmem)
  have hother : recorded.taskId ≠ (answer task result).id := by
    obtain ⟨root, hmem, hsame, -⟩ := h.root
    exact fun heq => hnew (List.mem_map.mpr ⟨root, hmem, hsame.trans heq⟩)
  constructor
  case tracked =>
    refine h.follow hnew ?_
    rw [show (answer task result).parentTaskId = none from hroot.trans hcreated.root]
    rintro ⟨⟩
  case other => exact hother
  case same =>
    rw [replaceRow_new hnew]
    constructor
    · rintro ⟨row, hrow, hsame, hdone⟩
      obtain hmem | hlast := List.mem_append.mp hrow
      · exact ⟨row, hmem, hsame, hdone⟩
      · obtain rfl := List.mem_singleton.mp hlast
        exact absurd hsame.symm hother
    · rintro ⟨row, hrow, hsame, hdone⟩
      exact ⟨row, List.mem_append_left _ hrow, hsame, hdone⟩
  case free =>
    rintro key ⟨conflict, hconflict, rfl, hmany⟩ resolution hresolution hbelow
    rw [show (answer task result).projectFingerprint = task.projectFingerprint from hfingerprint] at hresolution
    obtain ⟨root, hmem, hsame, hkind⟩ := h.root
    exact ⟨root, hmem, hsame, hfree conflict hconflict hmany resolution hresolution root hmem
      (hbelow.trans (congrArg some hsame.symm)) hkind⟩

/-- **A run that takes no resolution from an open investigation keeps every recorded one, and
leaves its own above a resolution of each of its keys.** -/
theorem tracked_of_run (hcreated : Created task store.tasks) (hdrawn : Drawn host task store.tasks)
    (hids : (store.tasks.map (·.id)).Nodup) (hfree : TakesNone host task result store)
    (hrun : (run host task result store).1 = .ok outcome) :
    (∀ recorded, Tracked (normalizeAssertion host.tables) recorded none store.tasks →
      Tracked (normalizeAssertion host.tables) recorded none (run host task result store).2.tasks) ∧
    (conflictsOf host task result store ≠ [] → Tracked (normalizeAssertion host.tables)
      (recordOf host task result store) none (run host task result store).2.tasks) := by
  obtain ⟨claim, begun, state, hclaim, hbegun, hloop, hafter⟩ := run_ok hrun
  have hstart := disputing_begun result hcreated hdrawn hids
  rw [← hbegun] at hstart
  have htaken : ∀ conflict ∈ conflictsOf host task result store, 3 ≤ (participants host.tables
      (normalizeAssertion host.tables conflict.assertionKey)
      (store.claims.filter (·.projectFingerprint == task.projectFingerprint) ++ [claim])).length →
      Taken host task result store (normalizeAssertion host.tables conflict.assertionKey) :=
    fun conflict hconflict hmany => ⟨conflict, hconflict, rfl, participants_length hclaim ▸ hmany⟩
  obtain ⟨hreaches, hkeys⟩ := reaches_conflicts hdrawn.injective (conflictsOf host task result store)
    (fun _ h => h) (fun _ h => rightClaimId_of_conflict h) htaken hstart hloop
  have hwatched := fun recorded h => hreaches.watched recorded (hbegun ▸ watched_begun hcreated hfree h)
  obtain ⟨hid, hkind, hroot, hfingerprint, -⟩ :=
    answered_place { task with attemptCount := task.attemptCount + 1 } result
  rw [hafter]
  constructor
  · intro recorded h
    split
    · exact (hwatched recorded h).tracked
    · exact (hwatched recorded h).left hreaches.disputing rfl (hroot.trans hcreated.root)
  · intro hsome
    rw [if_neg hsome]
    refine hreaches.disputing.left (hid ▸ hcreated.named) rfl (hkind.trans hcreated.kind) (hroot.trans hcreated.root)
      hid.symm hfingerprint.symm (fun key => (hkeys key).trans ?_) (List.map_eq_nil_iff.not.mpr hsome)
    exact ⟨fun h => h.resolve_left (List.not_mem_nil), .inr⟩

end

/-! ## Runs of calls -/

section
variable {tables : CaseTables} {w w' : World} {recorded : Recorded}

/-- Every recorded investigation is above the resolutions of its keys. -/
def Held (tables : CaseTables) (w : World) : Prop :=
  ∀ recorded ∈ w.recorded, Tracked (normalizeAssertion tables) recorded none w.store.tasks

theorem Held.step (h : Held tables w) (hstep : QuietStep tables w w') : Held tables w' := by
  obtain ⟨call, hdoes, hfree⟩ := hstep
  cases call with
  | discover host task result =>
    obtain ⟨rfl, hcreated, hdrawn, ⟨outcome, hrun⟩, htasks, hrecorded⟩ := hdoes
    obtain ⟨hothers, hown⟩ := tracked_of_run hcreated hdrawn w.ids hfree hrun
    unfold Held
    rw [htasks, hrecorded]
    split
    · exact fun recorded hmem => hothers recorded (h recorded hmem)
    · next hsome => exact List.forall_mem_cons.mpr ⟨hown hsome, fun recorded hmem => hothers recorded (h recorded hmem)⟩
  | remember task =>
    obtain ⟨hcreated, htasks, hrecorded⟩ := hdoes
    unfold Held
    rw [htasks, hrecorded]
    intro recorded hmem
    refine (h recorded hmem).follow hcreated.new ?_
    rw [hcreated.root]
    rintro ⟨⟩
  | pursue call =>
    obtain ⟨hgraph, hinj, hunused, ⟨status, reason, hreturned⟩, htasks, hrecorded⟩ := hdoes
    unfold Held
    rw [htasks, hrecorded]
    exact fun recorded hmem => (hgraph ▸ h recorded hmem).pursue hinj (hgraph ▸ hunused) hreturned

theorem Held.run {w0 : World} (h : Held tables w0) (run : Relation.ReflTransGen (QuietStep tables) w0 w) :
    Held tables w := by
  induction run with
  | refl => exact h
  | tail _ hstep ih => exact ih.step hstep

theorem Unorphaned.of_tracked (h : Tracked (normalizeAssertion tables) recorded none w.store.tasks) :
    Unorphaned tables w recorded where
  keeps := h.keyed.imp_right fun hkeys key hkey => by
    obtain ⟨child, hchild, hbelow, hsame⟩ := hkeys key hkey
    exact ⟨child, hchild, (h.children child hchild hbelow).1, hbelow, hsame⟩
  completes hdone call hroot hgraph := by
    have hall : ∀ child ∈ call.graph.tasks, child.parentTaskId = some recorded.taskId → child.status = .done := by
      rw [hgraph]
      intro child hchild hbelow
      obtain ⟨hkind, hfingerprint, hkey⟩ := h.children child hchild hbelow
      exact hdone child hchild hkind hfingerprint hkey
    obtain ⟨steps, hreturned, root, hfound, hstatus⟩ := Lineage.pursue_of_done (hgraph ▸ h) hall
    refine ⟨steps, ?_, ?_⟩
    · unfold PursuitCall.result
      rw [hroot]
      exact hreturned
    · obtain ⟨hmem, hid⟩ := Lineage.mem_of_getTask hfound
      unfold PursuitCall.result
      rw [hroot]
      exact ⟨root, hmem, hid, hstatus⟩

/-- **No investigation is orphaned in a run whose discoveries take no resolution from an open
investigation.** -/
theorem kept_of_run (tables : CaseTables) (w0 w : World) (hnone : w0.recorded = [])
    (run : Relation.ReflTransGen (QuietStep tables) w0 w) : ∀ recorded ∈ w.recorded, Unorphaned tables w recorded := by
  have hheld : Held tables w0 := by
    intro recorded hmem
    rw [hnone] at hmem
    cases hmem
  exact fun recorded hmem => .of_tracked (hheld.run run recorded hmem)

end

/-! ## Three runs on one key -/

/-- What the run of a number reads and draws. -/
def runHost (number : Char) : RunHost where
  tables := plainTables
  files := ⟨id, fun _ _ => .ok (some "hash")⟩
  producer := "CodexInvestigator"
  claimId := String.ofList ['C', number]
  newTask key := ⟨String.ofList (number :: key.toList), String.ofList ['K', number], 0, fun question _ => question⟩

def asked (number : Char) : Task where
  id := String.ofList ['T', number]
  question := "How does the delay grow?"
  fingerprint := "task"
  projectFingerprint := "state"
  projectRoot := "/project"
  createdAt := 0

def found (value : String) : InvestigationResult where
  conclusion := value
  confidence := 9 / 10
  assertions := [⟨"retry.mode", value⟩]

theorem no_verdicts : (([] : List ConflictVerdict).map (·.resolutionTaskId)).Nodup := List.nodup_nil

def noVerdicts : GraphStore := { verdictTasks := no_verdicts }

def storeOne : GraphStore := (run (runHost '1') (asked '1') (found "linear") noVerdicts).2
def storeTwo : GraphStore := (run (runHost '2') (asked '2') (found "doubling") storeOne).2
def storeThree : GraphStore := (run (runHost '3') (asked '3') (found "doubling") storeTwo).2

/-- The investigation that the second run leaves open. -/
def second : Recorded := recordOf (runHost '2') (asked '2') (found "doubling") storeOne

def noRuns : World := ⟨noVerdicts, [], List.nodup_nil⟩
def oneRun : World := ⟨storeOne, [], by decide +kernel⟩
def twoRuns : World := ⟨storeTwo, [second], by decide +kernel⟩
def threeRuns : World :=
  ⟨storeThree, [recordOf (runHost '3') (asked '3') (found "doubling") storeTwo, second], by decide +kernel⟩

/-- The identifiers of a run start with its number. -/
theorem drawn_numbered {number : Char} {tasks : List Task} (hnumber : number ≠ 'T')
    (hclaim : ∀ other ∈ tasks, (runHost number).claimId ∉ other.conflictingClaimIds)
    (hids : ∀ id ∈ tasks.map (·.id), id.toList.head? ≠ some number) : Drawn (runHost number) (asked number) tasks := by
  have hhead : ∀ key, ((runHost number).newTask key).id.toList = number :: key.toList :=
    fun key => String.toList_ofList
  refine ⟨hclaim, fun key hmem => hids _ hmem ?_, fun key hsame => ?_, fun key key' hsame => ?_⟩
  · rw [hhead]
    rfl
  · have hlists := congrArg String.toList hsame
    rw [hhead, show (asked number).id.toList = ['T', number] from String.toList_ofList] at hlists
    exact hnumber (List.cons.inj hlists).1
  · have hlists := congrArg String.toList hsame
    rw [hhead, hhead] at hlists
    exact String.toList_inj.mp (List.cons.inj hlists).2

theorem one_does : (Call.discover (runHost '1') (asked '1') (found "linear")).Does plainTables noRuns oneRun :=
  ⟨rfl, ⟨by decide +kernel, by decide +kernel, by decide +kernel, rfl, rfl, rfl⟩,
    drawn_numbered (by decide) (by decide +kernel) (by decide +kernel), ⟨_, rfl⟩, rfl,
    (if_pos (by decide +kernel)).symm⟩

theorem two_does : (Call.discover (runHost '2') (asked '2') (found "doubling")).Does plainTables oneRun twoRuns :=
  ⟨rfl, ⟨by decide +kernel, by decide +kernel, by decide +kernel, rfl, rfl, rfl⟩,
    drawn_numbered (by decide) (by decide +kernel) (by decide +kernel), ⟨_, rfl⟩, rfl,
    (if_neg (by decide +kernel)).symm⟩

theorem three_does : (Call.discover (runHost '3') (asked '3') (found "doubling")).Does plainTables twoRuns threeRuns :=
  ⟨rfl, ⟨by decide +kernel, by decide +kernel, by decide +kernel, rfl, rfl, rfl⟩,
    drawn_numbered (by decide) (by decide +kernel) (by decide +kernel), ⟨_, rfl⟩, rfl,
    (if_neg (by decide +kernel)).symm⟩

/-- The first two runs dispute a key with two claims. -/
theorem kept_of_two_runs : Unorphaned plainTables twoRuns second := by
  have hone : QuietStep plainTables noRuns oneRun := by
    refine ⟨_, one_does, fun conflict hconflict => ?_⟩
    rw [show conflictsOf (runHost '1') (asked '1') (found "linear") noRuns.store = [] by decide +kernel] at hconflict
    cases hconflict
  have htwo : QuietStep plainTables oneRun twoRuns := by
    have hfew : ∀ conflict ∈ conflictsOf (runHost '2') (asked '2') (found "doubling") oneRun.store,
        ¬3 ≤ (participants plainTables (normalizeAssertion plainTables conflict.assertionKey)
          (oneRun.store.claims.filter (·.projectFingerprint == "state") ++
            [discovered (runHost '2') (asked '2') (found "doubling")])).length := by decide +kernel
    exact ⟨_, two_does, fun conflict hconflict hmany => absurd hmany (hfew conflict hconflict)⟩
  exact kept_of_run plainTables noRuns twoRuns rfl (.tail (.single hone) htwo) second (List.mem_singleton_self _)

/-- The third run takes the resolution of the second: the second investigation is open and has no
resolution left. -/
theorem taken_by_third_run : ¬∀ (tables : CaseTables) (w0 w : World), w0.recorded = [] →
    Relation.ReflTransGen (Step tables) w0 w → ∀ recorded ∈ w.recorded, Unorphaned tables w recorded := by
  intro h
  have hopen : ∀ task ∈ threeRuns.store.tasks, task.id = second.taskId → task.status ≠ .done := by decide +kernel
  have hchildless : ∀ task ∈ threeRuns.store.tasks, task.parentTaskId ≠ some second.taskId := by decide +kernel
  have hkeys : second.keys = ["retry mode"] := by decide +kernel
  have hkept := h plainTables noRuns threeRuns rfl
    (.tail (.tail (.single ⟨_, one_does⟩) ⟨_, two_does⟩) ⟨_, three_does⟩) second
    (List.mem_cons_of_mem _ List.mem_cons_self)
  obtain ⟨task, htask, hid, hdone⟩ | hbelow := hkept.keeps
  · exact hopen task htask hid hdone
  · obtain ⟨child, hchild, -, hparent, -⟩ := hbelow "retry mode" (by rw [hkeys]; exact List.mem_cons_self)
    exact hchildless child hchild hparent

end RlmGraph.Knowledge.Disputes
