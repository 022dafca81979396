import RlmGraph.Lib.Results
import RlmGraph.Lib.Rows
import RlmGraph.Repair.Records

/-! # Recovery of an interrupted promotion

A promotion of a repair that was interrupted is rolled back when its approval is
resumed: every target of the patch gets its content from before. Nothing is
compared first, so what somebody has written since is lost; the recovery spares
it exactly if every target that is reached still holds one of the two contents
of the proposal (`recovery_spares_iff`). -/
namespace RlmGraph.Repair.Recovery
open RlmGraph.Lib RlmGraph.Lib.JsonText RlmGraph.Lib.Results
open RlmGraph.Sandbox.Records (FileState PatchChange TestExecution)
open RlmGraph.Repair.Records (RepairProposal)

inductive PromotionStatus where
  | approved | applying | applied | verified | rolledBack | applicationFailed
  deriving DecidableEq

structure PromotionEvent where
  status : PromotionStatus
  detail : String

structure RepairPromotion where
  id : String
  proposalId : String
  validationId : String
  approvalId : String
  projectRoot : String
  status : PromotionStatus
  changes : List PatchChange
  originalTreeFingerprint : String
  appliedTreeFingerprint : Option String := none
  finalValidation : Option TestExecution := none
  rollbackTreeFingerprint : Option String := none
  rollbackValidation : Option TestExecution := none
  rollbackVerified : Option Bool := none
  failureReason : Option String := none
  events : List PromotionEvent := []

/-- What there is at a resolved path. -/
inductive Node where
  | file (state : FileState)
  | folder
  deriving DecidableEq

abbrev Tree := String → Option Node

/-- Oracles by number: how a test ends and what it does, and which writes fail. -/
structure PromoterHost where
  isAbsolute : String → Bool
  /-- `(root / relative).resolve()`. -/
  target : String → String → String
  isRelativeTo : String → String → Bool
  treeFingerprint : String → Tree → String
  /-- `sys.executable`. -/
  executable : String
  execute : Nat → List String → String → Tree → Except PyError TestExecution × Tree
  /-- What keeps a file from being replaced. -/
  replaceFault : Nat → Option PyError

structure World where
  promotions : List RepairPromotion
  tree : Tree
  /-- The number of the next operation. -/
  tick : Nat
  /-- The files replaced so far, with what they held. Nothing reads it. -/
  overwritten : List (String × Option Node) := []
  /-- The files as the last replacement left them. Nothing reads it. -/
  settled : Tree

/-! ## `_validated_paths` -/

/-- The target of one change. -/
def validatedPath (host : PromoterHost) (root : String) (proposal : RepairProposal) (tree : Tree)
    (change : PatchChange) : Except PyError (String × FileState) :=
  if change.path ∉ proposal.authorizedPaths then
    .error (.readOnlyViolation s!"Patch path is not authorized: {change.path}")
  else if host.isAbsolute change.path then
    .error (.readOnlyViolation s!"Absolute patch path is forbidden: {change.path}")
  else
    match tree (host.target root change.path) with
    | none => .error (.os s!"No such file or directory: {change.path}")
    | some node =>
      if host.isRelativeTo (host.target root change.path) root = false then
        .error (.readOnlyViolation s!"Patch path escapes the selected project: {change.path}")
      else
        match node with
        | .folder => .error (.readOnlyViolation s!"Patch target is not a regular file: {change.path}")
        | .file state => .ok (host.target root change.path, state)

/-- The targets, with the files that are there. -/
def validatedPaths (host : PromoterHost) (root : String) (proposal : RepairProposal) (tree : Tree) :
    Except PyError (List (String × FileState)) :=
  proposal.changes.mapM (validatedPath host root proposal tree)

/-! ## `_restore_all` -/

/-- A target with the content and the mode it is given. -/
structure Original where
  target : String
  content : FileState

/-- `mapping[key] = value`. -/
def setOriginal (originals : List Original) (original : Original) : List Original :=
  Rows.upsert (·.target) original originals

/-- The originals by target, in the order of the changes; the mode is that of
the file that is there. -/
def originals (changes : List PatchChange) (paths : List (String × FileState)) : List Original :=
  (changes.zip paths).foldl (fun originals (change, target, state) =>
    setOriginal originals ⟨target, utf8 (change.beforeContent.getD ""), state.mode⟩) []

def restoreAll (host : PromoterHost) : List Original → World → Except PyError Unit × World
  | [], world => (.ok (), world)
  | original :: rest, world =>
    match host.replaceFault world.tick with
    | some e => (.error e, { world with tick := world.tick + 1 })
    | none =>
      let tree := Function.update world.tree original.target (some (.file original.content))
      restoreAll host rest { world with
        tree
        tick := world.tick + 1
        overwritten := world.overwritten ++ [(original.target, world.tree original.target)]
        settled := tree }

/-! ## `_recover_interrupted` -/

def testCommand (host : PromoterHost) (testPath : String) : List String :=
  [host.executable, "-m", "pytest", testPath, "-q", "-p", "no:cacheprovider"]

/-- `store.save_repair_promotion`. -/
def savePromotion (world : World) (promotion : RepairPromotion) : World :=
  { world with promotions := Rows.upsert (·.id) promotion world.promotions }

def unrecoverable : String := "Interrupted promotion lacks recoverable original bytes."

/-- The part behind the rollback: the tests are run and the outcome is recorded. -/
def reportRollback (host : PromoterHost) (promotion : RepairPromotion) (proposal : RepairProposal)
    (root : String) (rollbackError : Option PyError) (world : World) :
    Except PyError RepairPromotion × World :=
  let fingerprint := host.treeFingerprint root world.tree
  let verified := rollbackError = none ∧ fingerprint = promotion.originalTreeFingerprint
  let next := { world with tick := world.tick + 1 }
  match host.execute world.tick (testCommand host proposal.testPath) root world.tree with
  | (.error e, tree) => (.error e, { next with tree })
  | (.ok execution, tree) =>
    let status := if verified then .rolledBack else .applicationFailed
    let reason :=
      if verified then "Interrupted promotion was automatically rolled back during resume."
      else "Interrupted promotion rollback failed: " ++ rollbackError.elim "None" (·.message)
    let promotion := { promotion with
      rollbackTreeFingerprint := some fingerprint
      rollbackVerified := some (decide verified)
      rollbackValidation := some execution
      status
      failureReason := some reason
      events := promotion.events ++ [⟨status, reason⟩] }
    (.ok promotion, savePromotion { next with tree } promotion)

/-- `_recover_interrupted`. -/
def recoverInterrupted (host : PromoterHost) (promotion : RepairPromotion) (proposal : RepairProposal)
    (root : String) (world : World) : Except PyError RepairPromotion × World :=
  if proposal.changes.any (·.beforeContent == none) then
    let promotion := { promotion with
      status := .applicationFailed
      failureReason := some unrecoverable
      events := promotion.events ++ [⟨.applicationFailed, unrecoverable⟩] }
    (.ok promotion, savePromotion world promotion)
  else
    match validatedPaths host root proposal world.tree with
    | .error e => (.error e, world)
    | .ok paths =>
      match restoreAll host (originals proposal.changes paths) world with
      | (.ok (), world) => reportRollback host promotion proposal root none world
      | (.error e, world) =>
        if e.isOSError then reportRollback host promotion proposal root (some e) world
        else (.error e, world)

/-! ## What is overwritten -/

/-- The contents of the proposal at a target: before and after. -/
def Known (host : PromoterHost) (root : String) (proposal : RepairProposal) (target : String)
    (bytes : Bytes) : Prop :=
  ∃ change ∈ proposal.changes, host.target root change.path = target ∧
    (change.beforeContent.map utf8 = some bytes ∨ change.afterContent.map utf8 = some bytes)

/-- A file is overwritten only if it holds a content of the proposal, and keeps
what else it holds. -/
structure Spares (host : PromoterHost) (root : String) (proposal : RepairProposal)
    (world world' : World) : Prop where
  overwritten : ∀ target node, (target, node) ∈ world'.overwritten →
    ∃ state, node = some (.file state) ∧ Known host root proposal target state.bytes
  kept : ∀ target state, world.tree target = some (.file state) →
    ¬Known host root proposal target state.bytes → world'.settled target = some (.file state)

/-- The targets up to the first write that fails. -/
def reached (host : PromoterHost) : Nat → List String → List String
  | _, [] => []
  | tick, target :: rest =>
    if (host.replaceFault tick).isSome then [] else target :: reached host (tick + 1) rest

/-- The targets of a patch, each where it comes first. -/
def targetsOf (host : PromoterHost) (root : String) (changes : List PatchChange) : List String :=
  changes.foldl (fun targets change =>
    if host.target root change.path ∈ targets then targets
    else targets ++ [host.target root change.path]) []

/-- The recovery writes only where the files are as the promotion knows them. -/
def Undisturbed (host : PromoterHost) (root : String) (proposal : RepairProposal) (world : World) : Prop :=
  (∀ change ∈ proposal.changes, change.beforeContent ≠ none) →
    ∀ paths, validatedPaths host root proposal world.tree = .ok paths →
      ∀ target ∈ reached host world.tick (targetsOf host root proposal.changes),
        ∃ state, world.tree target = some (.file state) ∧ Known host root proposal target state.bytes

section
variable {host : PromoterHost} {root : String} {proposal : RepairProposal} {world : World}

theorem target_of_validatedPath {tree : Tree} {change : PatchChange} {path : String × FileState}
    (h : validatedPath host root proposal tree change = .ok path) :
    path.1 = host.target root change.path := by
  unfold validatedPath at h
  repeat' split at h
  all_goals cases h
  rfl

theorem targets_setOriginal (os : List Original) (original : Original) :
    (setOriginal os original).map (·.target) =
      if original.target ∈ os.map (·.target) then os.map (·.target)
      else os.map (·.target) ++ [original.target] := by
  unfold setOriginal
  split
  · next h => exact Rows.map_key_upsert_old h
  · next h => rw [Rows.upsert_new h, List.map_append, List.map_singleton]

/-- The originals stand under the targets of the changes. -/
theorem targets_originals {tree : Tree} {changes : List PatchChange} {paths : List (String × FileState)}
    (h : List.Forall₂ (fun change path => validatedPath host root proposal tree change = .ok path)
      changes paths) : (originals changes paths).map (·.target) = targetsOf host root changes := by
  suffices hfrom : ∀ os : List Original,
      ((changes.zip paths).foldl (fun os (change, target, state) =>
        setOriginal os ⟨target, utf8 (change.beforeContent.getD ""), state.mode⟩) os).map (·.target) =
      changes.foldl (fun targets change =>
        if host.target root change.path ∈ targets then targets
        else targets ++ [host.target root change.path]) (os.map (·.target)) from hfrom []
  induction h with
  | nil => intro os; rfl
  | @cons change path changes paths hpath _ ih =>
    intro os
    rw [List.zip_cons_cons, List.foldl_cons, List.foldl_cons, ih, targets_setOriginal,
      target_of_validatedPath hpath]

theorem nodup_targetsOf (changes : List PatchChange) : (targetsOf host root changes).Nodup := by
  suffices hfrom : ∀ targets : List String, targets.Nodup → (changes.foldl (fun targets change =>
      if host.target root change.path ∈ targets then targets
      else targets ++ [host.target root change.path]) targets).Nodup from hfrom [] List.nodup_nil
  induction changes with
  | nil => exact fun _ h => h
  | cons change changes ih =>
    intro targets h
    rw [List.foldl_cons]
    split
    · exact ih targets h
    · next hnew =>
      exact ih _ (List.concat_eq_append ▸ h.concat hnew)

theorem reached_subset {tick : Nat} {targets : List String} {target : String}
    (h : target ∈ reached host tick targets) : target ∈ targets := by
  induction targets generalizing tick with
  | nil => cases h
  | cons first rest ih =>
    unfold reached at h
    split at h
    · cases h
    · obtain rfl | h := List.mem_cons.mp h
      · exact List.mem_cons_self
      · exact List.mem_cons_of_mem _ (ih h)

/-- No target is written twice, so each holds at its write what it held before. -/
theorem overwritten_restoreAll {os : List Original} (h : (os.map (·.target)).Nodup) :
    (restoreAll host os world).2.overwritten = world.overwritten ++
      (reached host world.tick (os.map (·.target))).map fun target => (target, world.tree target) := by
  induction os generalizing world with
  | nil => simp [restoreAll, reached]
  | cons original os ih =>
    rw [List.map_cons, List.nodup_cons] at h
    unfold restoreAll
    cases hfault : host.replaceFault world.tick with
    | some e => simp [reached, hfault]
    | none =>
      have hlater : (reached host (world.tick + 1) (os.map (·.target))).map (fun target =>
            (target, Function.update world.tree original.target (some (.file original.content)) target)) =
          (reached host (world.tick + 1) (os.map (·.target))).map fun target =>
            (target, world.tree target) := by
        refine List.map_congr_left fun target htarget => ?_
        have hne : target ≠ original.target := fun heq => h.1 (heq ▸ reached_subset htarget)
        rw [Function.update_of_ne hne]
      dsimp only
      rw [ih h.2]
      simp [reached, hfault, hlater]

/-- What is not reached stays as it is. -/
theorem settled_restoreAll {os : List Original} {path : String} (hsettled : world.settled = world.tree)
    (h : path ∉ reached host world.tick (os.map (·.target))) :
    (restoreAll host os world).2.settled path = world.tree path := by
  induction os generalizing world with
  | nil => exact congrFun hsettled path
  | cons original os ih =>
    unfold restoreAll
    cases hfault : host.replaceFault world.tick with
    | some e => exact congrFun hsettled path
    | none =>
      simp [reached, hfault] at h
      refine (ih rfl h.2).trans ?_
      exact Function.update_of_ne h.1 _ _

theorem reportRollback_keeps {promotion : RepairPromotion} {rollbackError : Option PyError} :
    (reportRollback host promotion proposal root rollbackError world).2.overwritten =
        world.overwritten ∧
      (reportRollback host promotion proposal root rollbackError world).2.settled = world.settled := by
  unfold reportRollback
  dsimp only
  split <;> exact ⟨rfl, rfl⟩

/-- A recovery stops before it writes anything, or it restores the originals. -/
theorem recoverInterrupted_cases (promotion : RepairPromotion) :
    let world' := (recoverInterrupted host promotion proposal root world).2
    (world'.overwritten = world.overwritten ∧ world'.settled = world.settled ∧
        ((∃ change ∈ proposal.changes, change.beforeContent = none) ∨
          ∃ e, validatedPaths host root proposal world.tree = .error e)) ∨
      (∀ change ∈ proposal.changes, change.beforeContent ≠ none) ∧
        ∃ paths, validatedPaths host root proposal world.tree = .ok paths ∧
          let restored := (restoreAll host (originals proposal.changes paths) world).2
          world'.overwritten = restored.overwritten ∧ world'.settled = restored.settled := by
  unfold recoverInterrupted
  dsimp only
  split
  · next hlacks =>
    obtain ⟨change, hchange, hnone⟩ := List.any_eq_true.mp hlacks
    exact Or.inl ⟨rfl, rfl, Or.inl ⟨change, hchange, beq_iff_eq.mp hnone⟩⟩
  · next hcomplete =>
    split
    · next e he => exact Or.inl ⟨rfl, rfl, Or.inr ⟨e, he⟩⟩
    · next paths hpaths =>
      refine Or.inr ⟨fun change hchange hnone => hcomplete ?_, paths, hpaths, ?_⟩
      · exact List.any_eq_true.mpr ⟨change, hchange, beq_iff_eq.mpr hnone⟩
      · split
        · next world' hrestored =>
          rw [hrestored]
          exact reportRollback_keeps
        · next e world' hrestored =>
          rw [hrestored]
          split
          · exact reportRollback_keeps
          · exact ⟨rfl, rfl⟩

/-- **A recovery overwrites known contents only, exactly if every target it
reaches still holds one.** -/
theorem recovery_spares_iff {promotion : RepairPromotion} (hfresh : world.overwritten = [])
    (hsettled : world.settled = world.tree) :
    Spares host root proposal world (recoverInterrupted host promotion proposal root world).2 ↔
      Undisturbed host root proposal world := by
  obtain ⟨hnothing, hkept, hstopped⟩ | ⟨hcomplete, paths, hpaths, hwritten, hleft⟩ :=
    @recoverInterrupted_cases host root proposal world promotion
  · refine iff_of_true ⟨fun target node hmem => ?_, fun target state hstate _ => ?_⟩ ?_
    · rw [hnothing, hfresh] at hmem
      cases hmem
    · rw [hkept, hsettled]
      exact hstate
    · intro hcomplete paths hpaths
      obtain ⟨change, hchange, hnone⟩ | ⟨e, he⟩ := hstopped
      · exact absurd hnone (hcomplete change hchange)
      · cases he.symm.trans hpaths
  · have htargets := targets_originals (mapM_ok hpaths)
    have hnodup : ((originals proposal.changes paths).map (·.target)).Nodup := by
      rw [htargets]
      exact nodup_targetsOf proposal.changes
    rw [overwritten_restoreAll hnodup, htargets, hfresh, List.nil_append] at hwritten
    constructor
    · intro hspares _ _ _ target htarget
      refine hspares.overwritten target _ ?_
      rw [hwritten]
      exact List.mem_map.mpr ⟨target, htarget, rfl⟩
    · intro hundisturbed
      have hknown := hundisturbed hcomplete paths hpaths
      refine ⟨fun target node hmem => ?_, fun target state hstate hforeign => ?_⟩
      · rw [hwritten] at hmem
        obtain ⟨target, htarget, heq⟩ := List.mem_map.mp hmem
        cases heq
        exact hknown target htarget
      · have hout : target ∉ reached host world.tick (targetsOf host root proposal.changes) := by
          intro htarget
          obtain ⟨found, hfound, hheld⟩ := hknown target htarget
          cases hstate.symm.trans hfound
          exact hforeign hheld
        rw [← htargets] at hout
        rw [hleft, settled_restoreAll hsettled hout]
        exact hstate

end

/-! ## A file edited after the crash -/

/-- Nothing fails, and every tree looks alike. -/
def calmHost : PromoterHost where
  isAbsolute _ := false
  target root relative := root ++ "/" ++ relative
  isRelativeTo _ _ := true
  treeFingerprint _ _ := "tree"
  executable := "python"
  execute _ command _ tree := (.ok ⟨command, 0⟩, tree)
  replaceFault _ := none

def oldToNew : PatchChange where
  path := "a.py"
  beforeHash := "before"
  afterHash := "after"
  beforeContent := some "old"
  afterContent := some "new"

def repairOfA : RepairProposal where
  id := "REPAIR"
  repairTaskId := "TASK"
  diagnosisClaimId := "CLAIM"
  projectRoot := "project"
  projectFingerprint := "state"
  sourceTreeFingerprint := "tree"
  testPath := "t.py"
  authorizedPaths := ["a.py", "t.py"]
  supportingClaimIds := ["CLAIM"]
  changes := [oldToNew]
  rationale := "repaired"
  confidence := 1
  worker := "Worker"
  modelCalls := 1
  signature := "key"
  status := .verified

def interrupted : RepairPromotion where
  id := "PROMOTION"
  proposalId := "REPAIR"
  validationId := "VALIDATION"
  approvalId := "APPROVAL"
  projectRoot := "project"
  status := .applying
  changes := [oldToNew]
  originalTreeFingerprint := "tree"

def holding (text : String) : Tree := fun path =>
  if path = "project/a.py" then some (.file ⟨utf8 text, 0o644⟩) else none

/-- Somebody has edited the file since the promotion was interrupted. -/
def editedWorld : World where
  promotions := [interrupted]
  tree := holding "edited"
  tick := 0
  settled := holding "edited"

theorem recovery_spares_iff_edited :
    Spares calmHost "project" repairOfA editedWorld
        (recoverInterrupted calmHost interrupted repairOfA "project" editedWorld).2 ↔
      Undisturbed calmHost "project" repairOfA editedWorld :=
  recovery_spares_iff rfl rfl

/-- The edit is overwritten. -/
theorem foreign_edit_lost : ("project/a.py", some (Node.file ⟨utf8 "edited", 0o644⟩)) ∈
      (recoverInterrupted calmHost interrupted repairOfA "project" editedWorld).2.overwritten ∧
    ¬Spares calmHost "project" repairOfA editedWorld
      (recoverInterrupted calmHost interrupted repairOfA "project" editedWorld).2 := by
  have hlost : ("project/a.py", some (Node.file ⟨utf8 "edited", 0o644⟩)) ∈
      (recoverInterrupted calmHost interrupted repairOfA "project" editedWorld).2.overwritten := by
    decide +kernel
  refine ⟨hlost, fun hspares => ?_⟩
  obtain ⟨state, hstate, change, hchange, -, hknown⟩ := hspares.overwritten _ _ hlost
  cases hstate
  cases List.mem_singleton.mp hchange
  obtain hknown | hknown := hknown <;> exact absurd hknown (by decide +kernel)

end RlmGraph.Repair.Recovery
