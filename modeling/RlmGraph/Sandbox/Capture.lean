import RlmGraph.Lib.Base64
import RlmGraph.Sandbox.Workers

/-! # Capture and application of a patch

What `run` captures of the mirror a worker has edited, and what the application
block of `promote` makes of it. A change holds the bytes of a file before and
after; a file the worker has deleted is captured as an empty one, so a patch
gives back the mirror exactly if nothing is deleted (`applied_iff`). -/
namespace RlmGraph.Sandbox.Capture
open RlmGraph.Lib RlmGraph.Lib.JsonText RlmGraph.Lib.PyText RlmGraph.Lib.Programs
open RlmGraph.Sandbox.Records RlmGraph.Sandbox.Operations RlmGraph.Sandbox.Promote
open RlmGraph.Sandbox.Lifecycle

structure CaptureHost extends SandboxHost where
  b64encode : Bytes → String
  b64decode_b64encode : ∀ bytes, b64decode (b64encode bytes) = some bytes
  /-- `bytes.decode("utf-8", errors="replace")`. -/
  decodeReplace : Bytes → String
  /-- A list of texts inside a message. -/
  listText : List String → String

/-! ## The mirror -/

inductive Entry where
  | file (bytes : Bytes)
  | directory
  deriving DecidableEq

/-- The mirror after the worker: what there is at a path of a file name, and
the regular files that `rglob` finds, by the name it gives them. -/
structure Mirror where
  entry : String → Option Entry
  listed : List (String × Bytes)
  listed_entry : ∀ path bytes, listed.lookup path = some bytes → entry path = some (.file bytes)

/-- The bytes of a regular file. -/
def Mirror.content (mirror : Mirror) (path : String) : Option Bytes :=
  match mirror.entry path with
  | some (.file bytes) => some bytes
  | _ => none

/-- What the worker reports. -/
structure SandboxWorkerResult where
  filesRead : List String
  filesChanged : List String

/-! ## Capture -/

/-- `_changed_paths`. -/
def changedPaths (mirror : Mirror) (baseline : List (String × Bytes)) : List String :=
  sortedSet ((baseline.map Prod.fst ++ mirror.listed.map Prod.fst).filter fun path =>
    baseline.lookup path != mirror.listed.lookup path)

/-- `after_path.read_bytes() if after_path.exists() else b""`. -/
def afterBytes (mirror : Mirror) (relative : String) : Except PyError Bytes :=
  match mirror.entry relative with
  | some (.file bytes) => .ok bytes
  | some .directory => .error (.os s!"Is a directory: {relative}")
  | none => .ok []

/-- `_patch`. -/
def patch (host : CaptureHost) (mirror : Mirror) (relative : String) (before : Bytes) :
    Except PyError PatchChange := do
  let after ← afterBytes mirror relative
  return {
    path := relative
    beforeHash := host.sha256 before
    afterHash := host.sha256 after
    beforeContent := some (host.decodeReplace before)
    afterContent := some (host.decodeReplace after)
    beforeBytesBase64 := some (host.b64encode before)
    afterBytesBase64 := some (host.b64encode after) }

def namesSorted (paths : List String) : List String := paths.mergeSort fun a b => decide (a ≤ b)

/-- The capture in `run`: the reports of the worker are checked, and the
changes are the patches of the changed paths. `baseline[relative]` raises for a
path that is not authorized, which the check before excludes. -/
def capture (host : CaptureHost) (baseline : List (String × Bytes)) (result : SandboxWorkerResult)
    (mirror : Mirror) : Except PyError (List PatchChange) := do
  let authorized := baseline.map Prod.fst
  let unsafeReads := (sortedSet (result.filesRead.map slashed)).filter (!authorized.contains ·)
  if unsafeReads ≠ [] then
    throw (.readOnlyViolation ("Sandbox worker reported reads outside authorized paths: " ++
      ", ".intercalate unsafeReads))
  let actual := changedPaths mirror baseline
  let reported := namesSorted (result.filesChanged.map slashed)
  if actual ≠ reported then
    throw (.readOnlyViolation ("Worker change report does not match sandbox diff: reported " ++
      host.listText reported ++ ", actual " ++ host.listText actual))
  let outside := actual.filter (!authorized.contains ·)
  if outside ≠ [] then
    throw (.readOnlyViolation ("Sandbox worker changed unauthorized paths: " ++
      ", ".intercalate outside))
  actual.mapM fun relative => do patch host mirror relative (← item baseline relative)

/-! ## What is captured -/

section
variable {host : CaptureHost} {mirror : Mirror} {baseline : List (String × Bytes)}
  {result : SandboxWorkerResult} {changes : List PatchChange}

/-- A change is the patch of its path. -/
structure IsPatch (host : CaptureHost) (mirror : Mirror) (change : PatchChange) (after : Bytes) :
    Prop where
  read : afterBytes mirror change.path = .ok after
  bytes : changeBytes host.toSandboxHost change = .ok after
  hash : change.afterHash = host.sha256 after

theorem isPatch {relative : String} {before : Bytes} {change : PatchChange}
    (h : patch host mirror relative before = .ok change) :
    change.path = relative ∧ ∃ after, IsPatch host mirror change after := by
  obtain ⟨after, hafter, h⟩ := Results.bind_ok h
  cases h
  refine ⟨rfl, after, hafter, ?_, rfl⟩
  simp only [changeBytes, host.b64decode_b64encode]

/-- The changes of a captured patch. -/
structure Captured (host : CaptureHost) (mirror : Mirror) (baseline : List (String × Bytes))
    (changes : List PatchChange) : Prop where
  paths : ∀ path, path ∈ changes.map (·.path) ↔ path ∈ changedPaths mirror baseline
  authorized : ∀ change ∈ changes, change.path ∈ baseline.map Prod.fst
  patches : ∀ change ∈ changes, ∃ after, IsPatch host mirror change after

theorem captured (h : capture host baseline result mirror = .ok changes) :
    Captured host mirror baseline changes := by
  obtain ⟨-, h⟩ := Results.ite_throw_bind_ok h
  obtain ⟨-, h⟩ := Results.ite_throw_bind_ok h
  obtain ⟨houtside, h⟩ := Results.ite_throw_bind_ok h
  have hall := Results.mapM_ok h
  have hpatch : ∀ relative change, (do patch host mirror relative (← item baseline relative)) =
      Except.ok change → change.path = relative ∧ ∃ after, IsPatch host mirror change after := by
    intro relative change hchange
    obtain ⟨before, -, hchange⟩ := Results.bind_ok hchange
    exact isPatch hchange
  refine ⟨fun path => ⟨fun hpath => ?_, fun hpath => ?_⟩, fun change hchange => ?_,
    fun change hchange => ?_⟩
  · obtain ⟨change, hchange, rfl⟩ := List.mem_map.mp hpath
    obtain ⟨relative, hrelative, hmade⟩ := Results.mem_of_forall₂ hall hchange
    rw [(hpatch relative change hmade).1]
    exact hrelative
  · obtain ⟨change, hchange, hmade⟩ := Results.exists_of_forall₂ hall hpath
    exact List.mem_map.mpr ⟨change, hchange, (hpatch path change hmade).1⟩
  · obtain ⟨relative, hrelative, hmade⟩ := Results.mem_of_forall₂ hall hchange
    rw [(hpatch relative change hmade).1]
    by_contra hnot
    refine houtside (List.ne_nil_of_mem (List.mem_filter.mpr ⟨hrelative, ?_⟩))
    simpa using hnot
  · obtain ⟨relative, -, hmade⟩ := Results.mem_of_forall₂ hall hchange
    exact (hpatch relative change hmade).2

/-- An authorized file that is not changed is as it was. -/
theorem unchanged {path : String} (hpath : path ∈ baseline.map Prod.fst)
    (hsame : path ∉ changedPaths mirror baseline) :
    ∃ bytes, baseline.lookup path = some bytes ∧ mirror.content path = some bytes := by
  obtain ⟨bytes, hbytes⟩ : ∃ bytes, baseline.lookup path = some bytes := by
    cases hlookup : baseline.lookup path with
    | some bytes => exact ⟨bytes, rfl⟩
    | none =>
      obtain ⟨⟨other, bytes⟩, hmem, rfl⟩ := List.mem_map.mp hpath
      have hdiffers := List.lookup_eq_none_iff.mp hlookup (other, bytes) hmem
      simp at hdiffers
  have hlisted : mirror.listed.lookup path = some bytes := by
    by_contra hdiffers
    refine hsame (mem_sortedSet.mpr (List.mem_filter.mpr ⟨List.mem_append_left _ hpath, ?_⟩))
    rw [hbytes]
    exact bne_iff_ne.mpr fun h => hdiffers h.symm
  refine ⟨bytes, hbytes, ?_⟩
  unfold Mirror.content
  rw [mirror.listed_entry path bytes hlisted]

/-- What a patch writes is what the mirror holds, unless the file is deleted. -/
theorem content_of_afterBytes {path : String} {after : Bytes}
    (h : afterBytes mirror path = .ok after) :
    mirror.content path = some after ∨ mirror.content path = none ∧ after = [] := by
  unfold afterBytes at h
  unfold Mirror.content
  split at h
  · next bytes hentry =>
    cases h
    rw [hentry]
    exact Or.inl rfl
  · cases h
  · next hentry =>
    cases h
    rw [hentry]
    exact Or.inr ⟨rfl, rfl⟩

end

/-! ## The application block -/

/-- No write fails and no fault is injected. -/
def Quiet (host : SandboxHost) : Prop :=
  (∀ tick, host.replaceFault tick = none) ∧ ∀ tick stage, host.faultInjector tick stage = none

/-- The locals, as far as the application reads them. -/
structure Carries (l l' : Locals) : Prop where
  changes : l'.attempt.changes = l.attempt.changes
  authorized : l'.attempt.authorizedPaths = l.attempt.authorizedPaths
  originals : l'.originals = l.originals
  journal : l.attempt.journal ≠ none → l'.attempt.journal ≠ none

theorem Carries.refl (l : Locals) : Carries l l := ⟨rfl, rfl, rfl, id⟩

theorem Carries.trans {l l' l'' : Locals} (h : Carries l l') (h' : Carries l' l'') :
    Carries l l'' :=
  ⟨h'.changes.trans h.changes, h'.authorized.trans h.authorized, h'.originals.trans h.originals,
    fun hj => h'.journal (h.journal hj)⟩

theorem carries_onJournal (l : Locals) (f : SandboxMutationJournal → SandboxMutationJournal) :
    Carries l { l with attempt := l.attempt.onJournal f } := by
  refine ⟨rfl, rfl, rfl, fun h => ?_⟩
  unfold ImplementationSandboxAttempt.onJournal ImplementationSandboxAttempt.onPromotion
  unfold ImplementationSandboxAttempt.journal at h ⊢
  cases hpromotion : l.attempt.promotion with
  | none => simp [hpromotion] at h
  | some promotion => simpa [hpromotion] using h

theorem carries_checkpoints (l : Locals) (f : List SandboxCheckpoint → List SandboxCheckpoint)
    (checkpoints : List SandboxCheckpoint) : Carries l { l with
      attempt := { l.attempt.onPromotion fun promotion =>
        { promotion with checkpoints := f promotion.checkpoints } with checkpoints := checkpoints } } := by
  refine ⟨rfl, rfl, rfl, fun h => ?_⟩
  unfold ImplementationSandboxAttempt.onPromotion
  unfold ImplementationSandboxAttempt.journal at h ⊢
  cases hpromotion : l.attempt.promotion with
  | none => simp [hpromotion] at h
  | some promotion => simpa [hpromotion] using h

theorem carries_applying (l : Locals) : Carries l { l with
    attempt := l.attempt.onPromotion fun promotion => { promotion with status := "APPLYING" }
    applied := true } := by
  refine ⟨rfl, rfl, rfl, fun h => ?_⟩
  unfold ImplementationSandboxAttempt.onPromotion
  unfold ImplementationSandboxAttempt.journal at h ⊢
  cases hpromotion : l.attempt.promotion with
  | none => simp [hpromotion] at h
  | some promotion => simpa [hpromotion] using h

section
variable {host : SandboxHost} {l : Locals} {world : World} {Q : Except PyError Unit → Locals → World → Prop}

theorem wp_journalCheckpoint {stage detail : String}
    (h : l.attempt.journal ≠ none → ∀ l' world', Carries l l' → world'.files = world.files →
      Q (.ok ()) l' world')
    (hnone : ∀ e, l.attempt.journal = none → Q (.error e) l world) :
    (journalCheckpoint stage detail).wp (freely host) Q l world := by
  unfold journalCheckpoint
  rw [Act.wp_bind, wp_currentAttempt]
  refine Act.wp_check (fun hjournal => ?_) fun habsent => hnone _ (not_not.mp habsent)
  exact ⟨trivial, h hjournal _ _ (carries_onJournal l _) rfl⟩

theorem wp_promotionCheckpoint {stage detail : String}
    (h : ∀ l' world', Carries l l' → world'.files = world.files → Q (.ok ()) l' world')
    (herror : ∀ e, Q (.error e) l world) :
    (promotionCheckpoint stage detail).wp (freely host) Q l world := by
  unfold promotionCheckpoint
  rw [Act.wp_bind, wp_currentAttempt]
  refine Act.wp_check (fun _ => ?_) fun _ => herror _
  exact ⟨trivial, h _ _ (carries_checkpoints l (appended · stage detail) _) rfl⟩

theorem wp_injectFault {stage : String} (h : Q (.ok ()) l (world.next host))
    (hfault : ∀ e, ¬Quiet host → Q (.error e) l (world.next host)) :
    (injectFault stage : PromotionAct Unit).wp (freely host) Q l world := by
  refine Act.wp_op ⟨trivial, ?_⟩
  change Q ((host.faultInjector world.tick stage).elim (.ok ()) .error) l (world.next host)
  cases hinjected : host.faultInjector world.tick stage with
  | none => exact h
  | some e =>
    refine hfault e fun hquiet => ?_
    rw [hquiet.2 world.tick stage] at hinjected
    cases hinjected

theorem wp_replaceSingle {target : String} {content : Bytes} {mode : Nat}
    (h : ∀ world', world'.files = Function.update world.files target (some ⟨content, mode⟩) →
      Q (.ok ()) l world')
    (hfault : ∀ e world', ¬Quiet host → Q (.error e) l world') :
    (replaceSingle target content mode : PromotionAct Unit).wp (freely host) Q l world := by
  refine Act.wp_op ⟨trivial, ?_⟩
  cases hfails : host.replaceFault world.tick with
  | none =>
    simp only [perform, hfails]
    exact h _ rfl
  | some fault =>
    obtain ⟨replaced, e⟩ := fault
    have hloud : ¬Quiet host := by
      intro hquiet
      rw [hquiet.1 world.tick] at hfails
      cases hfails
    cases replaced <;> simp only [perform, hfails] <;> exact hfault e _ hloud

/-- The rule of a block whose journal checkpoint comes next. -/
theorem wp_checkpointed {stage detail : String} {index : Nat}
    {f : SandboxMutationJournalEntry → SandboxMutationJournalEntry} {g : PromotionAct Unit}
    (hjournal : l.attempt.journal ≠ none)
    (h : ∀ l' world', Carries l l' → world'.files = world.files → g.wp (freely host) Q l' world') :
    (do updateEntry index f; journalCheckpoint stage detail; g).wp (freely host) Q l world := by
  have hcarries := carries_onJournal l fun journal =>
    { journal with entries := journal.entries.modify index f }
  refine Act.wp_set ?_
  rw [Act.wp_bind]
  exact wp_journalCheckpoint (fun _ l' world' hl' hfiles => h l' world' (hcarries.trans hl') hfiles)
    fun e hnone => absurd hnone (hcarries.journal hjournal)

/-- One file of the patch is replaced, unless a fault comes up. -/
theorem wp_replaceSource {index : Nat} {change : PatchChange} {target : String} {content : Bytes}
    {original : FileState} (hjournal : l.attempt.journal ≠ none)
    (hcontent : changeBytes host change = .ok content) (horiginal : item l.originals target = .ok original)
    (h : ∀ l' world', Carries l l' →
      world'.files = Function.update world.files target (some ⟨content, original.mode⟩) →
        Q (.ok ()) l' world')
    (hfault : ∀ e l' world', ¬Quiet host → Q (.error e) l' world') :
    (replaceSource host index change target).wp (freely host) Q l world := by
  unfold replaceSource
  refine wp_checkpointed hjournal fun l₁ w₁ hl₁ hw₁ => ?_
  rw [Act.wp_bind]
  refine wp_injectFault ?_ fun e hloud => hfault e l₁ _ hloud
  refine Act.wp_result (fun content' hcontent' => ?_) fun e he => by rw [hcontent] at he; cases he
  obtain rfl := Except.ok.inj (hcontent.symm.trans hcontent')
  rw [Act.wp_bind, Act.wp_get, Act.onOk_ok]
  refine Act.wp_result (fun original' horiginal' => ?_) fun e he => by
    rw [hl₁.originals, horiginal] at he
    cases he
  rw [hl₁.originals] at horiginal'
  obtain rfl := Except.ok.inj (horiginal.symm.trans horiginal')
  rw [Act.wp_bind]
  refine wp_replaceSingle (fun w₂ hw₂ => ?_) fun e w₂ hloud => hfault e l₁ w₂ hloud
  refine wp_checkpointed (hl₁.journal hjournal) fun l₃ w₃ hl₃ hw₃ => ?_
  refine wp_injectFault (h l₃ _ (hl₁.trans hl₃) ?_) fun e hloud => hfault e l₃ _ hloud
  change w₃.files = _
  rw [hw₃, hw₂]
  change Function.update w₁.files target _ = _
  rw [hw₁]

/-- The check of a file that is there. -/
theorem wp_verifySource {index : Nat} {change : PatchChange} {target : String} {file : FileState}
    (hjournal : l.attempt.journal ≠ none) (hfile : world.files target = some file)
    (h : ∀ l' world', Carries l l' → world'.files = world.files → Q (.ok ()) l' world')
    (hmismatch : ∀ e l' world', host.sha256 file.bytes ≠ change.afterHash → Q (.error e) l' world') :
    (verifySource host index change target).wp (freely host) Q l world := by
  have hdigest : fileContentHash host target world.files = .ok (host.sha256 file.bytes) := by
    unfold fileContentHash readFile
    rw [hfile]
    rfl
  unfold verifySource
  refine Workers.wp_look (fun digest hd => ?_) fun e he => by rw [hdigest] at he; cases he
  obtain rfl := Except.ok.inj (hdigest.symm.trans hd)
  refine Act.wp_check (fun _ => ?_) fun hne => hmismatch _ l _ hne
  rw [Act.wp_bind, wp_currentAttempt, Act.onOk_ok, Act.wp_when]
  split
  · have hcarries := carries_onJournal l fun journal =>
      { journal with entries := journal.entries.modify index fun entry =>
        { entry with replacementCompleted := true } }
    refine Act.wp_set ?_
    exact wp_journalCheckpoint
      (fun _ l' world' hl' hfiles => h l' world' (hcarries.trans hl') hfiles)
      fun e hnone => absurd hnone (hcarries.journal hjournal)
  · exact h l _ (Carries.refl l) rfl

/-- The files with what is written over their targets, in order. -/
def written (value : PatchChange × String → FileState) (pairs : List (PatchChange × String))
    (files : Files) : Files :=
  pairs.foldl (fun files pair => Function.update files pair.2 (some (value pair))) files

theorem written_concat (value : PatchChange × String → FileState)
    (pairs : List (PatchChange × String)) (pair : PatchChange × String) (files : Files) :
    written value (pairs ++ [pair]) files =
      Function.update (written value pairs files) pair.2 (some (value pair)) := by
  unfold written
  rw [List.foldl_append]
  rfl

/-- A file is what the last change of it wrote, or what it was. -/
theorem written_cases (value : PatchChange × String → FileState)
    (pairs : List (PatchChange × String)) (files : Files) (target : String) :
    ((∀ pair ∈ pairs, pair.2 ≠ target) ∧ written value pairs files target = files target) ∨
      ∃ pair ∈ pairs, pair.2 = target ∧ written value pairs files target = some (value pair) := by
  induction pairs using List.reverseRecOn with
  | nil => exact Or.inl ⟨fun pair hpair => (nomatch hpair), rfl⟩
  | append_singleton pairs pair ih =>
    rw [written_concat]
    by_cases htarget : pair.2 = target
    · refine Or.inr ⟨pair, List.mem_append_right _ (List.mem_singleton.mpr rfl), htarget, ?_⟩
      rw [← htarget, Function.update_self]
    · rw [Function.update_of_ne (Ne.symm htarget)]
      obtain ⟨hnone, hsame⟩ | ⟨other, hother, hsame⟩ := ih
      · refine Or.inl ⟨fun other hmem => ?_, hsame⟩
        obtain hmem | hmem := List.mem_append.mp hmem
        · exact hnone other hmem
        · rw [List.mem_singleton.mp hmem]
          exact htarget
      · exact Or.inr ⟨other, List.mem_append_left _ hother, hsame⟩

/-- What the application writes for a change: its bytes, under the mode of the original. -/
def Writes (host : SandboxHost) (l : Locals) (value : PatchChange × String → FileState)
    (pair : PatchChange × String) : Prop :=
  changeBytes host pair.1 = .ok (value pair).bytes ∧
    ∃ original, item l.originals pair.2 = .ok original ∧ original.mode = (value pair).mode

theorem Writes.carried {l' : Locals} {value : PatchChange × String → FileState}
    {pair : PatchChange × String} (h : Writes host l value pair) (hl : Carries l l') :
    Writes host l' value pair := by
  obtain ⟨hbytes, horiginal⟩ := h
  exact ⟨hbytes, by rw [hl.originals]; exact horiginal⟩

/-- The loop of the replacements. -/
theorem wp_replaceAll {value : PatchChange × String → FileState}
    {pairs : List ((PatchChange × String) × Nat)} (hjournal : l.attempt.journal ≠ none)
    (hvalue : ∀ pair ∈ pairs, Writes host l value pair.1)
    (h : ∀ l' world', Carries l l' →
      world'.files = written value (pairs.map Prod.fst) world.files → Q (.ok ()) l' world')
    (hfault : ∀ e l' world', ¬Quiet host → Q (.error e) l' world') :
    (pairs.forM fun ((change, target), index) => replaceSource host index change target).wp
      (freely host) Q l world := by
  refine Act.wp_forM (fun before l' world' => Carries l l' ∧
    world'.files = written value (before.map Prod.fst) world.files) ⟨Carries.refl l, rfl⟩ ?_
    fun l' world' hdone => h l' world' hdone.1 hdone.2
  rintro before ⟨⟨change, target⟩, index⟩ after l' world' hpairs ⟨hl', hfiles⟩
  obtain ⟨hbytes, original, horiginal, hmode⟩ := hvalue ⟨⟨change, target⟩, index⟩
    (by rw [hpairs]; exact List.mem_append_right _ List.mem_cons_self)
  rw [← hl'.originals] at horiginal
  refine wp_replaceSource (hl'.journal hjournal) hbytes horiginal (fun l'' world'' hl'' hnext => ?_)
    fun e l'' world'' hloud => hfault e l'' world'' hloud
  refine ⟨hl'.trans hl'', ?_⟩
  rw [hnext, hfiles, hmode, List.map_append]
  exact (written_concat value (before.map Prod.fst) (change, target) world.files).symm

/-- The loop of the checks. -/
theorem wp_verifyAll {pairs : List ((PatchChange × String) × Nat)}
    (hjournal : l.attempt.journal ≠ none) (hthere : ∀ pair ∈ pairs, world.files pair.1.2 ≠ none)
    (h : ∀ l' world', world'.files = world.files → Q (.ok ()) l' world')
    (hmismatch : ∀ e l' world', (∃ pair ∈ pairs, ∃ file, world.files pair.1.2 = some file ∧
      host.sha256 file.bytes ≠ pair.1.1.afterHash) → Q (.error e) l' world') :
    (pairs.forM fun ((change, target), index) => verifySource host index change target).wp
      (freely host) Q l world := by
  refine Act.wp_forM (fun _ l' world' => Carries l l' ∧ world'.files = world.files)
    ⟨Carries.refl l, rfl⟩ ?_ fun l' world' hdone => h l' world' hdone.2
  rintro before ⟨⟨change, target⟩, index⟩ after l' world' hpairs ⟨hl', hfiles⟩
  have hmem : ((change, target), index) ∈ pairs := by
    rw [hpairs]
    exact List.mem_append_right _ List.mem_cons_self
  obtain ⟨file, hfile⟩ := Option.ne_none_iff_exists'.mp (hthere _ hmem)
  refine wp_verifySource (hl'.journal hjournal) (by rw [hfiles]; exact hfile)
    (fun l'' world'' hl'' hnext => ⟨hl'.trans hl'', hnext.trans hfiles⟩)
    fun e l'' world'' hdiffers => hmismatch e l'' world'' ⟨_, hmem, file, hfile, hdiffers⟩

theorem map_fst_zipIdx {α : Type} (xs : List α) : xs.zipIdx.map Prod.fst = xs := by
  rw [List.zipIdx_map_fst]

theorem mem_of_zipIdx {α : Type} {xs : List α} {x : α × Nat} (h : x ∈ xs.zipIdx) : x.1 ∈ xs := by
  rw [← map_fst_zipIdx xs]
  exact List.mem_map_of_mem h

/-- The application block: it writes the changes one after the other, and
raises only for a fault or for a file that another change has written over. -/
theorem wp_applySources {paths : List String} {value : PatchChange × String → FileState}
    (hjournal : l.attempt.journal ≠ none)
    (hvalue : ∀ pair ∈ l.attempt.changes.zip paths, Writes host l value pair) :
    (applySources host paths).wp (freely host) (fun r _ world' =>
      (r = .ok () → world'.files = written value (l.attempt.changes.zip paths) world.files) ∧
        (∀ e, r = .error e → ¬Quiet host ∨ ∃ pair ∈ l.attempt.changes.zip paths, ∃ file,
          written value (l.attempt.changes.zip paths) world.files pair.2 = some file ∧
            host.sha256 file.bytes ≠ pair.1.afterHash)) l world := by
  unfold applySources
  rw [Act.wp_bind, wp_currentAttempt, Act.onOk_ok]
  have hcarries := (carries_applying l).trans (carries_onJournal _ fun journal =>
    { journal with stage := "APPLYING" })
  refine Act.wp_set (Act.wp_set (Act.wp_set ?_))
  rw [Act.wp_bind]
  have hwrites := fun pair (hpair : pair ∈ (l.attempt.changes.zip paths).zipIdx) =>
    (hvalue pair.1 (mem_of_zipIdx hpair)).carried hcarries
  refine wp_replaceAll (hcarries.journal hjournal) hwrites (fun l₁ w₁ hl₁ hw₁ => ?_)
    fun e l₁ w₁ hloud => ⟨fun h => (nomatch h), fun _ _ => Or.inl hloud⟩
  rw [map_fst_zipIdx] at hw₁
  rw [Act.onOk_ok]
  refine wp_verifyAll (hl₁.journal (hcarries.journal hjournal)) (fun pair hpair => ?_)
    (fun l₂ w₂ hw₂ => ⟨fun _ => hw₂.trans hw₁, fun e h => (nomatch h)⟩) fun e l₂ w₂ hdiffers =>
      ⟨fun h => (nomatch h), fun _ _ => Or.inr ?_⟩
  · rw [hw₁]
    obtain ⟨hnone, -⟩ | ⟨other, -, -, hwritten⟩ :=
      written_cases value (l.attempt.changes.zip paths) world.files pair.1.2
    · exact absurd rfl (hnone pair.1 (mem_of_zipIdx hpair))
    · rw [hwritten]
      exact Option.some_ne_none _
  · obtain ⟨pair, hpair, file, hfile, hne⟩ := hdiffers
    exact ⟨pair.1, mem_of_zipIdx hpair, file, hw₁ ▸ hfile, hne⟩

end

/-! ## Up to the application -/

theorem lookup_replaced {α : Type} (mapping : List (String × α)) (key other : String) (value : α) :
    (mapping.map fun item => if item.1 = key then (key, value) else item).lookup other =
      if other = key then (mapping.lookup key).map fun _ => value else mapping.lookup other := by
  induction mapping with
  | nil => simp
  | cons entry mapping ih =>
    obtain ⟨name, held⟩ := entry
    rw [List.map_cons]
    by_cases hname : name = key
    · subst hname
      rw [if_pos rfl, List.lookup_cons, ih]
      by_cases hother : other = name
      · subst hother
        simp
      · have hdiffers : (other == name) = false := by simpa using hother
        simp only [hdiffers, List.lookup_cons, if_neg hother]
    · rw [if_neg hname, List.lookup_cons, ih, List.lookup_cons, List.lookup_cons]
      have hkey : (key == name) = false := by simpa using Ne.symm hname
      simp only [hkey]
      by_cases hother : other = name
      · subst hother
        simp [hname]
      · have hdiffers : (other == name) = false := by simpa using hother
        simp only [hdiffers]

theorem lookup_setItem {α : Type} (mapping : List (String × α)) (key other : String) (value : α) :
    (setItem mapping key value).lookup other =
      if other = key then some value else mapping.lookup other := by
  unfold setItem
  split
  · next hthere =>
    obtain ⟨held, hheld⟩ := Option.isSome_iff_exists.mp hthere
    rw [lookup_replaced, hheld, Option.map_some]
  · next habsent =>
    have hnone : mapping.lookup key = none := Option.not_isSome_iff_eq_none.mp habsent
    rw [List.lookup_append, List.lookup_cons, List.lookup_nil]
    by_cases hother : other = key
    · subst hother
      simp [hnone]
    · have hdiffers : (other == key) = false := by simpa using hother
      simp [hother, hdiffers]

/-- The locals of a promotion that reads its originals. -/
structure Reads (files : Files) (l l' : Locals) (targets : List String) : Prop where
  attempt : l'.attempt = l.attempt
  originals : ∀ target ∈ targets, item l'.originals target = readFile target files

theorem Reads.setItem {files : Files} {l l' : Locals} {targets : List String} {target : String}
    {file : FileState} (h : Reads files l l' targets) (hfile : readFile target files = .ok file) :
    Reads files l { l' with originals := setItem l'.originals target file } (targets ++ [target]) where
  attempt := h.attempt
  originals other hother := by
    unfold item
    rw [lookup_setItem]
    by_cases hsame : other = target
    · rw [if_pos hsame, hsame, hfile]
    · rw [if_neg hsame]
      obtain hother | hother := List.mem_append.mp hother
      · exact h.originals other hother
      · exact absurd (List.mem_singleton.mp hother) hsame

section
variable {host : SandboxHost} {l : Locals} {world : World}

theorem promotionPaths_congr {attempt other : ImplementationSandboxAttempt} {root : String}
    {files : Files} (hchanges : attempt.changes = other.changes)
    (hauthorized : attempt.authorizedPaths = other.authorizedPaths) :
    promotionPaths host root attempt files = promotionPaths host root other files := by
  unfold promotionPaths promotionTarget
  rw [hchanges, hauthorized]

/-- What `prepareJournal` leaves where it returns. -/
def Leaves (host : SandboxHost) (p : Promotion) (l : Locals) (world : World)
    (r : Except PyError (List String × List (List String))) (l' : Locals) (world' : World) : Prop :=
  ∀ paths commands, r = .ok (paths, commands) →
    world'.files = world.files ∧ l'.attempt.changes = l.attempt.changes ∧
      l'.attempt.journal ≠ none ∧
      promotionPaths host p.root l'.attempt world.files = .ok paths ∧
      ∀ target ∈ paths, item l'.originals target = readFile target world.files

theorem leaves_error {p : Promotion} {l' : Locals} {world' : World} (e : PyError) :
    Leaves host p l world (.error e) l' world' :=
  fun _ _ h => nomatch h

/-- The body of the loop that reads the originals. -/
def readOriginal (host : SandboxHost) (pair : PatchChange × String) : PromotionAct Unit :=
  match pair with
  | (change, target) => do
    let digest ← look (fileContentHash host target)
    Act.require (digest = change.beforeHash)
      (.readOnlyViolation s!"Source precondition failed for {change.path}.")
    let file ← look (readFile target)
    Act.modify fun l => { l with originals := setItem l.originals target file }

theorem wp_readOriginals {β : Type} {files : Files} {pairs : List (PatchChange × String)}
    {g : Unit → PromotionAct β} {Q : Except PyError β → Locals → World → Prop}
    (hfiles : world.files = files)
    (h : ∀ l' world', world'.files = files → Reads files l l' (pairs.map Prod.snd) →
      (g ()).wp (freely host) Q l' world')
    (herror : ∀ e l' world', Q (.error e) l' world') :
    (pairs.forM (readOriginal host) >>= g).wp (freely host) Q l world := by
  rw [Act.wp_bind]
  refine Act.wp_forM (fun before l' world' => world'.files = files ∧
    Reads files l l' (before.map Prod.snd)) ⟨hfiles, rfl, fun target htarget => (nomatch htarget)⟩ ?_
    fun l' world' hdone => h l' world' hdone.1 hdone.2
  rintro before ⟨change, target⟩ after l' world' - ⟨hworld, hreads⟩
  unfold readOriginal
  refine Workers.wp_look (fun digest _ => ?_) fun e _ => herror e _ _
  refine Act.wp_check (fun _ => ?_) fun _ => herror _ _ _
  refine Workers.wp_look (fun file hfile => ?_) fun e _ => herror e _ _
  have hread : readFile target files = .ok file := by
    rw [← hworld]
    exact hfile
  refine ⟨hworld, ?_⟩
  rw [List.map_append]
  exact hreads.setItem hread

theorem wp_prepareJournal (p : Promotion) :
    (prepareJournal host p).wp (freely host) (Leaves host p l world) l world := by
  unfold prepareJournal
  rw [Act.wp_bind, wp_currentAttempt, Act.onOk_ok]
  refine Workers.wp_looking (Confinement.looks_currentManifest host _ _) (fun current w hw => ?_)
    fun e w hw => leaves_error e
  refine Act.wp_check (fun _ => ?_) fun _ => leaves_error _
  refine Workers.wp_look (fun paths hpaths => ?_) fun e he => leaves_error e
  refine wp_readOriginals hw.files (fun l₁ w₁ hw₁ hl₁ => ?_) fun e l₁ w₁ => leaves_error e
  refine Act.wp_result (fun commands _ => ?_) fun e _ => leaves_error e
  rw [Act.wp_bind, Act.wp_get, Act.onOk_ok]
  refine Act.wp_result (fun entries _ => ?_) fun e _ => leaves_error e
  refine Workers.wp_looking Confinement.looks_newId (fun journalId w₂ hw₂ => ?_)
    fun e w₂ _ => leaves_error e
  refine Act.wp_set ?_
  rw [Act.wp_bind]
  refine wp_journalCheckpoint (fun hjournal l₃ w₃ hl₃ hw₃ => ?_) fun e _ => leaves_error e
  rw [Act.onOk_ok, Act.wp_bind]
  refine wp_injectFault ?_ fun e _ => leaves_error e
  rw [Act.onOk_ok, Act.wp_bind]
  refine wp_promotionCheckpoint (fun l₄ w₄ hl₄ hw₄ => ?_) fun e => leaves_error e
  intro paths' commands' hreturns
  cases hreturns
  have hcarries := hl₃.trans hl₄
  have hfiles : w₄.files = world.files := by
    rw [hw₄]
    change w₃.files = _
    rw [hw₃, hw₂.files, hw₁]
  have hchanges : l₄.attempt.changes = l.attempt.changes := by
    rw [hcarries.changes]
    change l₁.attempt.changes = _
    rw [hl₁.attempt]
  have hauthorized : l₄.attempt.authorizedPaths = l.attempt.authorizedPaths := by
    rw [hcarries.authorized]
    change l₁.attempt.authorizedPaths = _
    rw [hl₁.attempt]
  rw [hw.files] at hpaths
  have hlength := (Results.mapM_ok hpaths).length_eq
  refine ⟨hfiles, hchanges, hcarries.journal hjournal, ?_, fun target htarget => ?_⟩
  · rw [promotionPaths_congr hchanges hauthorized, hpaths]
  · rw [hcarries.originals]
    refine hl₁.originals target ?_
    rw [List.map_snd_zip hlength.ge]
    exact htarget

end

/-! ## A captured patch applied -/

/-- The project tree holds the baseline at the targets of the authorized paths. -/
def AtBaseline (host : SandboxHost) (root : String) (baseline : List (String × Bytes))
    (files : Files) : Prop :=
  ∀ path ∈ baseline.map Prod.fst, (files (host.target root path)).map (·.bytes) = baseline.lookup path

/-- The project tree holds at the targets of the authorized paths what the
mirror holds at the paths, and nothing where it holds nothing. -/
def AsMirror (host : SandboxHost) (root : String) (baseline : List (String × Bytes))
    (mirror : Mirror) (files : Files) : Prop :=
  ∀ path ∈ baseline.map Prod.fst, (files (host.target root path)).map (·.bytes) = mirror.content path

/-- Where `promote` stands in front of the application: the attempt holds the
captured changes and a journal, and each change has its target and its original. -/
structure Prepared (host : CaptureHost) (root : String) (changes : List PatchChange)
    (paths : List String) (l : Locals) (files : Files) : Prop where
  changes : l.attempt.changes = changes
  journal : l.attempt.journal ≠ none
  targets : promotionPaths host.toSandboxHost root l.attempt files = .ok paths
  originals : ∀ target ∈ paths, item l.originals target = readFile target files

/-- A promotion of a captured patch that has prepared its journal is prepared. -/
theorem prepared_of_leaves {host : CaptureHost} {p : Promotion} {l l' : Locals} {world world' : World}
    {paths : List String} {commands : List (List String)}
    (h : Leaves host.toSandboxHost p l world (.ok (paths, commands)) l' world') :
    Prepared host p.root l.attempt.changes paths l' world'.files := by
  obtain ⟨hfiles, hchanges, hjournal, htargets, horiginals⟩ := h paths commands rfl
  rw [← hfiles] at htargets horiginals
  exact ⟨hchanges, hjournal, htargets, horiginals⟩

/-- No authorized file is deleted, and two authorized paths of one file end alike. -/
structure Kept (host : SandboxHost) (root : String) (baseline : List (String × Bytes))
    (mirror : Mirror) : Prop where
  kept : ∀ path ∈ baseline.map Prod.fst, mirror.content path ≠ none
  aliases : ∀ path ∈ baseline.map Prod.fst, ∀ other ∈ baseline.map Prod.fst,
    host.target root path = host.target root other → mirror.content path = mirror.content other

section
variable {host : CaptureHost} {root : String} {mirror : Mirror} {baseline : List (String × Bytes)}
  {changes : List PatchChange} {paths : List String} {l : Locals} {files : Files}

theorem promotionTarget_ok {host : SandboxHost} {attempt : ImplementationSandboxAttempt}
    {path target : String} (h : promotionTarget host root attempt files path = .ok target) :
    target = host.target root path ∧ files target ≠ none := by
  unfold promotionTarget at h
  split at h
  · cases h
  · split at h
    · cases h
    · split at h
      · cases h
      · next hthere =>
        split at h
        · cases h
        · cases h
          exact ⟨rfl, hthere⟩

/-- The targets of the changes are those of their paths. -/
theorem Prepared.pairs (h : Prepared host root changes paths l files) :
    ∀ pair ∈ l.attempt.changes.zip paths, pair.1 ∈ changes ∧ pair.2 ∈ paths ∧
      pair.2 = host.target root pair.1.path ∧ files pair.2 ≠ none := by
  have hall := Results.mapM_ok h.targets
  rw [← h.changes]
  intro pair hpair
  obtain ⟨htarget, hthere⟩ := promotionTarget_ok (List.forall₂_iff_zip.mp hall |>.2 hpair)
  exact ⟨(List.of_mem_zip hpair).1, (List.of_mem_zip hpair).2, htarget, hthere⟩

theorem Prepared.change_zip (h : Prepared host root changes paths l files) {change : PatchChange}
    (hchange : change ∈ changes) : ∃ target, (change, target) ∈ l.attempt.changes.zip paths := by
  rw [← h.changes] at hchange
  exact Results.exists_zip_of_forall₂ (Results.mapM_ok h.targets) hchange

/-- What is written for a change. -/
def appliedFile (host : SandboxHost) (l : Locals) (pair : PatchChange × String) : FileState :=
  ⟨(changeBytes host pair.1).toOption.getD [], (item l.originals pair.2).toOption.elim 0 (·.mode)⟩

theorem appliedFile_bytes {change : PatchChange} {after : Bytes} (h : IsPatch host mirror change after)
    (target : String) : (appliedFile host.toSandboxHost l (change, target)).bytes = after := by
  unfold appliedFile
  rw [h.bytes]
  rfl

theorem Prepared.writes (h : Prepared host root changes paths l files)
    (hcaptured : Captured host mirror baseline changes) :
    ∀ pair ∈ l.attempt.changes.zip paths,
      Writes host.toSandboxHost l (appliedFile host.toSandboxHost l) pair := by
  rintro ⟨change, target⟩ hpair
  obtain ⟨hchange, htarget, -, hthere⟩ := h.pairs _ hpair
  obtain ⟨after, hpatch⟩ := hcaptured.patches change hchange
  obtain ⟨original, hfile⟩ := Option.ne_none_iff_exists'.mp hthere
  have horiginal : item l.originals target = .ok original := by
    rw [h.originals target htarget]
    unfold readFile
    rw [hfile]
  refine ⟨?_, original, horiginal, ?_⟩
  · rw [appliedFile_bytes hpatch, hpatch.bytes]
  · unfold appliedFile
    rw [horiginal]
    rfl

/-- The file at the target of an authorized path after the application: what
the path's file was, or what is captured of a path with the same target. -/
theorem Prepared.written_at (h : Prepared host root changes paths l files)
    (hcaptured : Captured host mirror baseline changes)
    (hbaseline : AtBaseline host.toSandboxHost root baseline files) {path : String}
    (hpath : path ∈ baseline.map Prod.fst) :
    (∃ bytes, mirror.content path = some bytes ∧
      (written (appliedFile host.toSandboxHost l) (l.attempt.changes.zip paths) files
        (host.target root path)).map (·.bytes) = some bytes) ∨
      ∃ other ∈ baseline.map Prod.fst, host.target root other = host.target root path ∧
        ∃ after, afterBytes mirror other = .ok after ∧
          (written (appliedFile host.toSandboxHost l) (l.attempt.changes.zip paths) files
            (host.target root path)).map (·.bytes) = some after := by
  obtain ⟨hnone, hsame⟩ | ⟨⟨change, target⟩, hpair, htarget, hsame⟩ :=
    written_cases (appliedFile host.toSandboxHost l) (l.attempt.changes.zip paths) files
      (host.target root path)
  · refine Or.inl ?_
    have hunchanged : path ∉ changedPaths mirror baseline := by
      intro hchanged
      obtain ⟨change, hchange, rfl⟩ := List.mem_map.mp ((hcaptured.paths path).mpr hchanged)
      obtain ⟨target, hzip⟩ := h.change_zip hchange
      exact hnone _ hzip (h.pairs _ hzip).2.2.1
    obtain ⟨bytes, hbytes, hcontent⟩ := unchanged hpath hunchanged
    refine ⟨bytes, hcontent, ?_⟩
    rw [hsame, hbaseline path hpath, hbytes]
  · obtain ⟨hchange, -, hresolved, -⟩ := h.pairs _ hpair
    obtain ⟨after, hpatch⟩ := hcaptured.patches change hchange
    refine Or.inr ⟨change.path, hcaptured.authorized change hchange, hresolved.symm.trans htarget,
      after, hpatch.read, ?_⟩
    rw [hsame, Option.map_some, appliedFile_bytes hpatch]

/-- What is written is the mirror's, exactly if nothing is deleted. -/
theorem Prepared.written_iff (h : Prepared host root changes paths l files)
    (hcaptured : Captured host mirror baseline changes)
    (hbaseline : AtBaseline host.toSandboxHost root baseline files) :
    AsMirror host.toSandboxHost root baseline mirror
        (written (appliedFile host.toSandboxHost l) (l.attempt.changes.zip paths) files) ↔
      Kept host.toSandboxHost root baseline mirror := by
  constructor
  · intro hmirror
    refine ⟨fun path hpath => ?_, fun path hpath other hother htarget => ?_⟩
    · rw [← hmirror path hpath]
      obtain ⟨bytes, -, hbytes⟩ | ⟨other, -, -, after, -, hafter⟩ :=
        h.written_at hcaptured hbaseline hpath
      · rw [hbytes]
        exact Option.some_ne_none _
      · rw [hafter]
        exact Option.some_ne_none _
    · rw [← hmirror path hpath, ← hmirror other hother, htarget]
  · intro hkept path hpath
    obtain ⟨bytes, hcontent, hbytes⟩ | ⟨other, hother, htarget, after, hafter, hbytes⟩ :=
      h.written_at hcaptured hbaseline hpath
    · rw [hbytes, hcontent]
    · rw [hbytes, ← hkept.aliases other hother path hpath htarget]
      obtain hcontent | ⟨hdeleted, -⟩ := content_of_afterBytes hafter
      · exact hcontent.symm
      · exact absurd hdeleted (hkept.kept other hother)

/-- If nothing is deleted, every change is found as it was written. -/
theorem Prepared.verified (h : Prepared host root changes paths l files)
    (hcaptured : Captured host mirror baseline changes)
    (hbaseline : AtBaseline host.toSandboxHost root baseline files)
    (hkept : Kept host.toSandboxHost root baseline mirror) :
    ∀ pair ∈ l.attempt.changes.zip paths, ∀ file,
      written (appliedFile host.toSandboxHost l) (l.attempt.changes.zip paths) files pair.2 = some file →
        host.sha256 file.bytes = pair.1.afterHash := by
  rintro ⟨change, target⟩ hpair file hfile
  obtain ⟨hchange, -, htarget, -⟩ := h.pairs _ hpair
  obtain ⟨after, hpatch⟩ := hcaptured.patches change hchange
  have hpath := hcaptured.authorized change hchange
  have hmirror := (h.written_iff hcaptured hbaseline).mpr hkept change.path hpath
  dsimp only at htarget hfile
  rw [← htarget, hfile, Option.map_some] at hmirror
  obtain hcontent | ⟨hdeleted, -⟩ := content_of_afterBytes hpatch.read
  · rw [hcontent] at hmirror
    rw [hpatch.hash, Option.some.inj hmirror]
  · exact absurd hdeleted (hkept.kept change.path hpath)

/-- A captured patch, from the preparation of its journal on. -/
theorem wp_prepared_applied {p : Promotion} {result : SandboxWorkerResult} {world : World}
    (hcapture : capture host baseline result mirror = .ok l.attempt.changes)
    (hbaseline : AtBaseline host.toSandboxHost p.root baseline world.files) :
    (prepareJournal host.toSandboxHost p >>= fun prepared =>
        applySources host.toSandboxHost prepared.1).wp (freely host.toSandboxHost)
      (fun r _ world' => r = Except.ok () →
        (AsMirror host.toSandboxHost p.root baseline mirror world'.files ↔
          Kept host.toSandboxHost p.root baseline mirror)) l world := by
  have hcaptured := captured hcapture
  refine Act.wp_seq (wp_prepareJournal p) (fun prepared l' world' hleaves => ?_)
    fun e l' world' _ h => (nomatch h)
  obtain ⟨paths, commands⟩ := prepared
  have hprepared := prepared_of_leaves hleaves
  obtain ⟨hfiles, -⟩ := hleaves paths commands rfl
  rw [← hfiles] at hbaseline
  refine Act.wp_mono (wp_applySources hprepared.journal (hprepared.writes hcaptured)) ?_
  intro r l'' world'' hends hok
  rw [hends.1 hok]
  exact hprepared.written_iff hcaptured hbaseline

end

/-- **Capture and application are the identity on edits that delete nothing.**
An application that completes gives back the mirror exactly if no authorized
file is deleted; then it completes, unless a fault comes up. -/
theorem applied_iff (host : CaptureHost) {root : String} {baseline : List (String × Bytes)}
    {result : SandboxWorkerResult} {mirror : Mirror} {changes : List PatchChange}
    (hcapture : capture host baseline result mirror = .ok changes) {paths : List String} {l : Locals}
    {world : World} (hprepared : Prepared host root changes paths l world.files)
    (hbaseline : AtBaseline host.toSandboxHost root baseline world.files) :
    (((applySources host.toSandboxHost paths).run (perform host.toSandboxHost) l world).1 = .ok () →
      (AsMirror host.toSandboxHost root baseline mirror
        ((applySources host.toSandboxHost paths).run (perform host.toSandboxHost) l world).2.files ↔
          Kept host.toSandboxHost root baseline mirror)) ∧
      (Quiet host.toSandboxHost → Kept host.toSandboxHost root baseline mirror →
        ((applySources host.toSandboxHost paths).run (perform host.toSandboxHost) l world).1 =
          .ok ()) := by
  have hcaptured := captured hcapture
  have hwp : (applySources host.toSandboxHost paths).wp (freely host.toSandboxHost) _ l world :=
    wp_applySources hprepared.journal (hprepared.writes hcaptured)
  have hends := Act.wp_run hwp
  refine ⟨fun hok => ?_, fun hquiet hkept => ?_⟩
  · rw [hends.1 hok]
    exact hprepared.written_iff hcaptured hbaseline
  · cases hr : ((applySources host.toSandboxHost paths).run (perform host.toSandboxHost) l world).1 with
    | ok u => rfl
    | error e =>
      obtain hloud | ⟨pair, hpair, file, hfile, hne⟩ := hends.2 e hr
      · exact absurd hquiet hloud
      · exact absurd (hprepared.verified hcaptured hbaseline hkept pair hpair file hfile) hne

/-! ## A file edited, and a file deleted -/

theorem resolve_quiet (path : String) : quietHost.resolve (quietHost.resolve path) = quietHost.resolve path :=
  rfl

def plainHost : CaptureHost where
  toSandboxHost := { quietHost with b64decode := Base64.decode, resolve_idem := resolve_quiet }
  b64encode := Base64.encode
  b64decode_b64encode := Base64.decode_encode
  decodeReplace bytes := String.ofList (bytes.map fun b => Char.ofNat b.toNat)
  listText paths := "[" ++ ", ".intercalate paths ++ "]"

/-- A file of three bytes. -/
def plainBaseline : List (String × Bytes) := [("main.py", utf8 "a=1")]

/-- The mirror with the file as the worker left it. -/
def mirrorWith (left : Option Bytes) : Mirror where
  entry path := if path = "main.py" then left.map .file else none
  listed := left.toList.map fun bytes => ("main.py", bytes)
  listed_entry path bytes h := by
    cases left with
    | none => cases h
    | some left =>
      by_cases hpath : path = "main.py"
      · subst hpath
        rw [if_pos rfl]
        simp only [Option.toList_some, List.map_cons, List.map_nil, List.lookup_cons, beq_self_eq_true,
          Option.some.injEq] at h
        rw [h]
        rfl
      · have hdiffers : (path == "main.py") = false := by simpa using hpath
        rw [Option.toList_some, List.map_cons, List.lookup_cons, hdiffers] at h
        cases h

/-- The change of the file, with the bytes after it. -/
def changeTo (after : Bytes) : PatchChange where
  path := "main.py"
  beforeHash := plainHost.sha256 (utf8 "a=1")
  afterHash := plainHost.sha256 after
  beforeContent := some (plainHost.decodeReplace (utf8 "a=1"))
  afterContent := some (plainHost.decodeReplace after)
  beforeBytesBase64 := some (plainHost.b64encode (utf8 "a=1"))
  afterBytesBase64 := some (plainHost.b64encode after)

def edited : SandboxWorkerResult := ⟨["main.py"], ["main.py"]⟩

def plainFiles : Files := fun path => if path = "root/main.py" then some ⟨utf8 "a=1", 420⟩ else none

def plainLocals (after : Bytes) : Locals where
  attempt := { unrestoredAttempt with changes := [changeTo after] }
  originals := [("root/main.py", ⟨utf8 "a=1", 420⟩)]

def plainWorld : World := { unrestored with files := plainFiles }

theorem prepared_plain (after : Bytes) :
    Prepared plainHost "root" [changeTo after] ["root/main.py"] (plainLocals after) plainWorld.files where
  changes := rfl
  journal := fun h => nomatch h
  targets := rfl
  originals target htarget := by
    obtain rfl := List.mem_singleton.mp htarget
    rfl

theorem plain_atBaseline :
    AtBaseline plainHost.toSandboxHost "root" plainBaseline plainWorld.files := by
  intro path hpath
  obtain rfl := List.mem_singleton.mp hpath
  rfl

/-- An edited file is there as the worker left it. -/
theorem applied_iff_edited :
    ((applySources plainHost.toSandboxHost ["root/main.py"]).run (perform plainHost.toSandboxHost)
        (plainLocals (utf8 "a=2")) plainWorld).1 = .ok () ∧
      AsMirror plainHost.toSandboxHost "root" plainBaseline (mirrorWith (some (utf8 "a=2")))
        ((applySources plainHost.toSandboxHost ["root/main.py"]).run (perform plainHost.toSandboxHost)
          (plainLocals (utf8 "a=2")) plainWorld).2.files := by
  have hcapture : capture plainHost plainBaseline edited (mirrorWith (some (utf8 "a=2"))) =
      .ok [changeTo (utf8 "a=2")] := by decide +kernel
  have hkept : Kept plainHost.toSandboxHost "root" plainBaseline (mirrorWith (some (utf8 "a=2"))) := by
    refine ⟨fun path hpath => ?_, fun path hpath other hother _ => ?_⟩
    · obtain rfl := List.mem_singleton.mp hpath
      exact fun h => nomatch h
    · obtain rfl := List.mem_singleton.mp hpath
      obtain rfl := List.mem_singleton.mp hother
      rfl
  obtain ⟨hiff, hcompletes⟩ :=
    applied_iff plainHost hcapture (prepared_plain (utf8 "a=2")) plain_atBaseline
  have hok := hcompletes ⟨fun _ => rfl, fun _ _ => rfl⟩ hkept
  exact ⟨hok, (hiff hok).mpr hkept⟩

/-- A deleted file is there, and empty. -/
theorem deletion_not_applied :
    ¬∀ (host : CaptureHost) (root : String) (baseline : List (String × Bytes))
      (result : SandboxWorkerResult) (mirror : Mirror) (changes : List PatchChange)
      (paths : List String) (l : Locals) (world : World),
      capture host baseline result mirror = .ok changes →
        Prepared host root changes paths l world.files →
          AtBaseline host.toSandboxHost root baseline world.files → Quiet host.toSandboxHost →
            AsMirror host.toSandboxHost root baseline mirror
              ((applySources host.toSandboxHost paths).run (perform host.toSandboxHost) l world).2.files := by
  intro hall
  have hcapture : capture plainHost plainBaseline edited (mirrorWith none) = .ok [changeTo []] := by
    decide +kernel
  have hmirror := hall plainHost "root" plainBaseline edited (mirrorWith none) [changeTo []]
    ["root/main.py"] (plainLocals []) plainWorld hcapture (prepared_plain []) plain_atBaseline
    ⟨fun _ => rfl, fun _ _ => rfl⟩ "main.py" (List.mem_singleton.mpr rfl)
  have hfile : ((applySources plainHost.toSandboxHost ["root/main.py"]).run
      (perform plainHost.toSandboxHost) (plainLocals []) plainWorld).2.files "root/main.py" =
        some ⟨[], 420⟩ := by decide +kernel
  have htarget : plainHost.target "root" "main.py" = "root/main.py" := rfl
  rw [htarget, hfile] at hmirror
  cases hmirror

end RlmGraph.Sandbox.Capture
