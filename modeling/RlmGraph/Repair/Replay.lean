import RlmGraph.Repair.Validation

/-! # Replayed repairs

The runs of the validator: calls, with changes of the project's files and of the
claims and tasks between them. A call that finds a verified repair under its key
reuses it. What it reuses fits the files if it and the earlier calls under its
key find the digests of the diagnosis to be those of the authorized files, or if
no edit between them changes such a file (`replay_fits`). -/
namespace RlmGraph.Repair.Replay
open RlmGraph.Lib RlmGraph.Lib.JsonText RlmGraph.Lib.Results
open RlmGraph.Repair.Records RlmGraph.Repair.Validation

inductive Event where
  | edit (project : Project)
  | record (claims : List Claim) (tasks : List Task)
  | validate (call : Call)

def step (host : RepairHost) (world : World) : Event → World
  | .edit project => { world with project }
  | .record claims tasks => { world with store := { world.store with claims, tasks } }
  | .validate call => (validate host call world).2

def run (host : RepairHost) (world : World) (events : List Event) : World :=
  events.foldl (step host) world

/-- A condition on every call of a run and the world it finds. -/
def EveryCall (host : RepairHost) (P : World → Call → Prop) (world : World) (events : List Event) :
    Prop :=
  ∀ earlier call later, events = earlier ++ .validate call :: later → P (run host world earlier) call

/-- The recorded digests are those of the authorized files. -/
def CurrentFiles (host : RepairHost) (project : Project) (request : Request) : Prop :=
  ∀ path ∈ request.authorized,
    (∃ source ∈ request.diagnosis.sourceFiles, source.path = path) ∧
    ∀ source ∈ request.diagnosis.sourceFiles, source.path = path →
      ∃ bytes, project (host.target request.root path) = some (.file bytes) ∧
        source.contentHash = host.sha256 bytes

/-- The key of a request. -/
def keyOf (host : RepairHost) (request : Request) : String :=
  signature host request.diagnosis request.authorized request.command

/-- The authorized files are the same in two states of the project. -/
def SameFiles (host : RepairHost) (request : Request) (project project' : Project) : Prop :=
  ∀ path ∈ request.authorized,
    project' (host.target request.root path) = project (host.target request.root path)

/-- Two requests under one key, each with the project it finds: both find the
recorded digests to be those of the authorized files, or no edit between them
changes an authorized file. -/
def Steady (host : RepairHost) (first again : Request) (project project' : Project)
    (between : List Event) : Prop :=
  (CurrentFiles host project first ∧ CurrentFiles host project' again) ∨
    (first.root = again.root ∧
      ∀ edited, .edit edited ∈ between → SameFiles host first project edited)

/-- A call that finds a verified repair under its key is steady with the earlier
calls under this key. -/
def EveryRepeat (host : RepairHost) (world : World) (events : List Event) : Prop :=
  ∀ earlier call between again later,
    events = earlier ++ .validate call :: between ++ .validate again :: later →
    let before := run host world earlier
    let now := run host world (earlier ++ .validate call :: between)
    ∀ p q, prepare host call before = .ok p → prepare host again now = .ok q →
      keyOf host p.request = keyOf host q.request →
      verifiedReplay now.store (keyOf host q.request) ≠ none →
        Steady host p.request q.request before.project now.project between

/-- A reused repair was validated on what the authorized files hold. -/
def Fits (host : RepairHost) (world : World) (call : Call) : Prop :=
  ∀ result, (validate host call world).1 = .ok result → result.reused = true →
    ∀ p, prepare host call world = .ok p → ∀ path ∈ p.request.authorized,
      ∃ bytes, world.project (host.target p.request.root path) = some (.file bytes) ∧
        result.validation.slice.lookup path = some bytes

section
variable {host : RepairHost} {world : World}

theorem signed_keys (diagnosis : Claim) (authorized command : List String) :
    ((signed diagnosis authorized command).map Prod.fst).Nodup := by
  simp [signed]

/-- The key tells the recorded sources and the authorized paths apart. -/
theorem signature_inj (hdigest : Function.Injective host.sha256) {a b : Claim}
    {authorized authorized' command command' : List String}
    (h : signature host a authorized command = signature host b authorized' command') :
    a.sourceFiles = b.sourceFiles ∧ authorized = authorized' := by
  have hcanon := dumps_inj.mp (utf8_inj.mp (hdigest h))
  have hkeys : ∀ key, ((signed a authorized command).lookup key).map canon =
      ((signed b authorized' command').lookup key).map canon := by
    intro key
    rw [← canon_get? (signed_keys a authorized command), hcanon,
      canon_get? (signed_keys b authorized' command')]
  have hsources := hkeys "sources"
  have hpaths := hkeys "authorized"
  simp [signed, List.lookup] at hsources hpaths
  constructor
  · refine List.map_injective_iff.mpr (fun s s' hs => ?_) hsources
    obtain ⟨path, contentHash⟩ := s
    simp at hs
    obtain ⟨rfl, rfl⟩ := hs
    rfl
  · refine List.map_injective_iff.mpr (fun s s' hs => ?_) hpaths
    simpa using hs

/-! ## What the store remembers -/

/-- The proposal was made for the request, and its validation was run on the
authorized files of the project. -/
structure Ran (host : RepairHost) (project : Project) (request : Request)
    (proposal : RepairProposal) (validation : RepairValidation) : Prop where
  key : proposal.signature = keyOf host request
  slice : ∀ path ∈ request.authorized, ∃ bytes,
    project (host.target request.root path) = some (.file bytes) ∧
      validation.slice.lookup path = some bytes

/-- Proposals and their validations belong together, and each pair was made. -/
structure Recorded (host : RepairHost) (made : RepairProposal → RepairValidation → Prop)
    (world : World) : Prop where
  issued : ∀ proposal ∈ world.store.repairProposals, ∃ n < world.tick,
    proposal.id = host.newId "REPAIR" n
  answered : ∀ validation ∈ world.store.repairValidations, ∃ n < world.tick,
    validation.proposalId = host.newId "REPAIR" n
  made : ∀ proposal ∈ world.store.repairProposals, ∀ validation ∈ world.store.repairValidations,
    validation.proposalId = proposal.id → made proposal validation

variable {made made' : RepairProposal → RepairValidation → Prop} {request : Request}

theorem Recorded.weaken (h : Recorded host made world)
    (himp : ∀ proposal validation, made proposal validation → made' proposal validation) :
    Recorded host made' world :=
  { h with made := fun proposal hp validation hv hsame => himp _ _ (h.made proposal hp validation hv hsame) }

theorem Recorded.mono {world' : World} (h : Recorded host made world)
    (hproposals : world'.store.repairProposals = world.store.repairProposals)
    (hvalidations : world'.store.repairValidations = world.store.repairValidations)
    (htick : world.tick ≤ world'.tick) : Recorded host made world' := by
  constructor
  · rw [hproposals]
    intro proposal hproposal
    obtain ⟨n, hn, hid⟩ := h.issued proposal hproposal
    exact ⟨n, hn.trans_le htick, hid⟩
  · rw [hvalidations]
    intro validation hvalidation
    obtain ⟨n, hn, hid⟩ := h.answered validation hvalidation
    exact ⟨n, hn.trans_le htick, hid⟩
  · rw [hproposals, hvalidations]
    exact h.made

/-- A new proposal with its validation. -/
theorem Recorded.concat {world' : World} (h : Recorded host made world) {proposal : RepairProposal}
    {validation : RepairValidation}
    (hproposals : world'.store.repairProposals = world.store.repairProposals ++ [proposal])
    (hvalidations : world'.store.repairValidations = world.store.repairValidations ++ [validation])
    (htick : world.tick < world'.tick) (hid : proposal.id = host.newId "REPAIR" world.tick)
    (hanswers : validation.proposalId = proposal.id) (hmade : made proposal validation) :
    Recorded host made world' := by
  -- no identifier of an earlier tick is that of the new proposal
  have hfresh : ∀ n < world.tick, host.newId "REPAIR" n ≠ proposal.id := by
    intro n hn heq
    exact absurd (host.newId_inj "REPAIR" (heq.trans hid)) (Nat.ne_of_lt hn)
  constructor
  · rw [hproposals]
    refine Rows.forall_mem_concat (fun old hold => ?_) ⟨world.tick, htick, hid⟩
    obtain ⟨n, hn, hold⟩ := h.issued old hold
    exact ⟨n, hn.trans htick, hold⟩
  · rw [hvalidations]
    refine Rows.forall_mem_concat (fun old hold => ?_) ⟨world.tick, htick, hanswers.trans hid⟩
    obtain ⟨n, hn, hold⟩ := h.answered old hold
    exact ⟨n, hn.trans htick, hold⟩
  · rw [hproposals, hvalidations]
    refine Rows.forall_mem_concat (fun old hold => ?_) ?_
    · refine Rows.forall_mem_concat (h.made old hold) fun hsame => ?_
      obtain ⟨n, hn, hissued⟩ := h.issued old hold
      exact absurd (hissued.symm.trans (hsame.symm.trans hanswers)) (hfresh n hn)
    · refine Rows.forall_mem_concat (fun old hold hsame => ?_) fun _ => hmade
      obtain ⟨n, hn, hanswered⟩ := h.answered old hold
      exact absurd (hanswered.symm.trans hsame) (hfresh n hn)

/-- The slice holds every authorized file as the project does. -/
theorem lookup_copySlice {root : String} {project : Project} {authorized : List String} {slice : Mirror}
    (h : copySlice host root project authorized = .ok slice) {path : String} (hpath : path ∈ authorized) :
    ∃ bytes, project (host.target root path) = some (.file bytes) ∧ slice.lookup path = some bytes := by
  have hall := mapM_ok h
  clear h
  induction hall with
  | nil => cases hpath
  | @cons relative entry authorized slice hcopied _ ih =>
    have hentry : ∃ bytes, entry = (relative, bytes) ∧
        project (host.target root relative) = some (.file bytes) := by
      unfold copyFile at hcopied
      split at hcopied <;> cases hcopied
      next bytes hfile => exact ⟨bytes, rfl, hfile⟩
    obtain ⟨bytes, rfl, hfile⟩ := hentry
    by_cases hsame : path = relative
    · subst hsame
      exact ⟨bytes, hfile, List.lookup_cons_self⟩
    · obtain ⟨found, hnode, hlookup⟩ := ih ((List.mem_cons.mp hpath).resolve_left hsame)
      have hne : (path == relative) = false := by simpa using hsame
      exact ⟨found, hnode, by rw [List.lookup_cons, hne]; exact hlookup⟩

theorem copied_of_trial {request : Request} {question : String} {t : Trial}
    (h : trial host request question world = .ok t) :
    copySlice host request.root world.project request.authorized = .ok t.slice := by
  obtain ⟨slice, hslice, h⟩ := bind_ok h
  obtain ⟨⟨before, tested⟩, -, h⟩ := bind_ok h
  obtain ⟨-, h⟩ := ite_throw_bind_ok h
  obtain ⟨⟨result, repaired⟩, -, h⟩ := bind_ok h
  obtain ⟨-, h⟩ := ite_throw_bind_ok h
  obtain ⟨-, h⟩ := ite_throw_bind_ok h
  obtain ⟨changes, -, h⟩ := bind_ok h
  obtain ⟨⟨after, last⟩, -, h⟩ := bind_ok h
  cases h
  exact hslice

/-- What a part of a call leaves: the project as it was, the store in order. -/
structure Leaves (host : RepairHost) (request : Request) (world world' : World) : Prop where
  project : world'.project = world.project
  recorded : ∀ made : RepairProposal → RepairValidation → Prop,
    (∀ proposal validation, Ran host world.project request proposal validation →
      made proposal validation) → Recorded host made world → Recorded host made world'

theorem Leaves.trans {a b c : World} (h : Leaves host request a b) (h' : Leaves host request b c) :
    Leaves host request a c where
  project := h'.project.trans h.project
  recorded made hmade hrecorded :=
    h'.recorded made (by rwa [h.project]) (h.recorded made hmade hrecorded)

theorem Leaves.later {world' : World} (hproject : world'.project = world.project)
    (hproposals : world'.store.repairProposals = world.store.repairProposals)
    (hvalidations : world'.store.repairValidations = world.store.repairValidations)
    (htick : world.tick ≤ world'.tick) : Leaves host request world world' :=
  ⟨hproject, fun _ _ h => h.mono hproposals hvalidations htick⟩

theorem Leaves.refl : Leaves host request world world := .later rfl rfl rfl le_rfl

theorem leaves_createTask (p : Prepared) (question : String) (number : Nat) (parent : Option Task) :
    Leaves host request world (createTask host p question number parent world).2 :=
  .later rfl rfl rfl (Nat.le_succ _)

theorem leaves_attempt {task : Task} {originalState : String} {number : Nat}
    {result : Except PyError Attempted} {world' : World}
    (h : attempt host request task (keyOf host request) originalState number world =
      (result, world')) : Leaves host request world world' := by
  unfold attempt at h
  dsimp only at h
  split at h
  · cases h
    exact .later rfl rfl rfl (Nat.le_add_right _ 2)
  · next t ht =>
    split at h
    · cases h
      exact .later rfl rfl rfl (Nat.le_add_right _ 2)
    · cases h
      refine ⟨rfl, fun made hmade h => ?_⟩
      exact h.concat rfl rfl (Nat.lt_add_of_pos_right Nat.two_pos) rfl rfl
        (hmade _ _ ⟨rfl, fun path hpath => lookup_copySlice (copied_of_trial ht) hpath⟩)

theorem leaves_tryOnce {p : Prepared} {prompt originalState : String} {prior : Option Attempts}
    {result : Except PyError Attempts} {world' : World}
    (h : tryOnce host p prompt originalState prior world = (result, world')) :
    Leaves host p.request world world' := by
  unfold tryOnce at h
  dsimp only at h
  generalize hcreated : createTask host p _ _ _ world = created at h
  have hleaves : Leaves host p.request world created.2 := hcreated ▸ leaves_createTask p _ _ _
  split at h
  · next hattempted =>
    cases h
    exact hleaves.trans (leaves_attempt hattempted)
  · next hattempted =>
    cases h
    exact hleaves.trans (leaves_attempt hattempted)

theorem leaves_retryLoop {p : Prepared} {prompt originalState : String} (left : Nat) (a : Attempts) :
    Leaves host p.request world (retryLoop host p prompt originalState left a world).2 := by
  induction left generalizing a world with
  | zero => exact .refl
  | succ left ih =>
    unfold retryLoop
    split
    · exact .refl
    · split
      · next htry => exact leaves_tryOnce htry
      · next a' world' htry => exact (leaves_tryOnce htry).trans (ih a')

theorem leaves_replayed {p : Prepared} {prompt : String} {replay : RepairProposal × RepairValidation} :
    Leaves host p.request world (replayed host p prompt replay world).2 :=
  .later rfl rfl rfl (Nat.le_succ _)

/-- What a call leaves. -/
theorem leaves_validate {call : Call} {p : Prepared} (hp : prepare host call world = .ok p) :
    Leaves host p.request world (validate host call world).2 := by
  unfold validate
  rw [hp]
  dsimp only
  split
  · exact leaves_replayed
  · split
    · next htry => exact leaves_tryOnce htry
    · next a world' htry => exact (leaves_tryOnce htry).trans (leaves_retryLoop _ a)

theorem validate_error {call : Call} {e : PyError} (h : prepare host call world = .error e) :
    (validate host call world).2 = world := by
  unfold validate
  rw [h]

/-- No call changes the project. -/
theorem project_validate (call : Call) : (validate host call world).2.project = world.project := by
  cases hp : prepare host call world with
  | error e => rw [validate_error hp]
  | ok p => exact (leaves_validate hp).project

/-! ## Runs -/

theorem run_concat (events : List Event) (event : Event) :
    run host world (events ++ [event]) = step host (run host world events) event := by
  simp [run]

theorem run_append (events more : List Event) :
    run host world (events ++ more) = run host (run host world events) more := by
  simp [run]

/-- A call of the run made the proposal and the validation. -/
def Made (host : RepairHost) (world : World) (events : List Event) (proposal : RepairProposal)
    (validation : RepairValidation) : Prop :=
  ∃ earlier call between p, events = earlier ++ .validate call :: between ∧
    prepare host call (run host world earlier) = .ok p ∧
      Ran host (run host world earlier).project p.request proposal validation

theorem Made.concat {events : List Event} {event : Event} {proposal : RepairProposal}
    {validation : RepairValidation} (h : Made host world events proposal validation) :
    Made host world (events ++ [event]) proposal validation := by
  obtain ⟨earlier, call, between, p, rfl, hmade⟩ := h
  exact ⟨earlier, call, between ++ [event], p, by simp, hmade⟩

/-- **Every validation that is stored** is of a call of the run. -/
theorem recorded_run (hproposals : world.store.repairProposals = [])
    (hvalidations : world.store.repairValidations = []) (events : List Event) :
    Recorded host (Made host world events) (run host world events) := by
  induction events using List.reverseRecOn with
  | nil =>
    constructor <;> simp [run, hproposals, hvalidations]
  | append_singleton events event ih =>
    have hold : Recorded host (Made host world (events ++ [event])) (run host world events) :=
      ih.weaken fun _ _ hmade => hmade.concat
    rw [run_concat]
    cases event with
    | edit project => exact hold.mono rfl rfl le_rfl
    | record claims tasks => exact hold.mono rfl rfl le_rfl
    | validate call =>
      cases hp : prepare host call (run host world events) with
      | error e =>
        change Recorded host _ (validate host call (run host world events)).2
        rwa [validate_error hp]
      | ok p =>
        refine (leaves_validate hp).recorded _ (fun proposal validation hran => ?_) hold
        exact ⟨events, call, [], p, rfl, hp, hran⟩

/-- What no edit changes is what it was. -/
theorem project_run {target : String} {node : Option Node} {events : List Event}
    (h : world.project target = node)
    (hedits : ∀ project, .edit project ∈ events → project target = node) :
    (run host world events).project target = node := by
  induction events using List.reverseRecOn with
  | nil => exact h
  | append_singleton events event ih =>
    rw [run_concat]
    cases event with
    | edit project => exact hedits project (by simp)
    | record claims tasks => exact ih fun project hmem => hedits project (List.mem_append_left _ hmem)
    | validate call =>
      change (validate host call (run host world events)).2.project target = node
      rw [project_validate]
      exact ih fun project hmem => hedits project (List.mem_append_left _ hmem)

/-- A replay is a stored proposal under the key, with one of its validations. -/
theorem mem_of_verifiedReplay {store : RepairStore} {key : String} {proposal : RepairProposal}
    {validation : RepairValidation} (h : verifiedReplay store key = some (proposal, validation)) :
    proposal ∈ store.repairProposals ∧ proposal.signature = key ∧
      validation ∈ store.repairValidations ∧ validation.proposalId = proposal.id := by
  obtain ⟨found, hfound, hmap⟩ := List.exists_of_findSome?_eq_some h
  obtain ⟨answer, hanswer, heq⟩ := Option.map_eq_some_iff.mp hmap
  cases heq
  have hproposal := List.mem_filter.mp (List.mem_reverse.mp hfound)
  have hvalidation := List.mem_reverse.mp (List.mem_of_find?_eq_some hanswer)
  have hmatches := List.find?_some hanswer
  simp at hproposal hmatches
  exact ⟨hproposal.1, hproposal.2.1, hvalidation, hmatches.1⟩

theorem reused_retryLoop {p : Prepared} {prompt originalState : String} {left : Nat} {a : Attempts}
    {result : RepairRunResult}
    (h : (retryLoop host p prompt originalState left a world).1 = .ok result) : result.reused = false := by
  induction left generalizing a world with
  | zero =>
    cases h
    rfl
  | succ left ih =>
    unfold retryLoop at h
    split at h
    · cases h
      rfl
    · split at h
      · cases h
      · exact ih h

/-- Only a replay is reported as reused. -/
theorem replay_of_reused {call : Call} {p : Prepared} {result : RepairRunResult}
    (hp : prepare host call world = .ok p) (h : (validate host call world).1 = .ok result)
    (hreused : result.reused = true) : ∃ proposal, verifiedReplay world.store
      (signature host p.request.diagnosis p.request.authorized p.request.command) =
        some (proposal, result.validation) := by
  unfold validate at h
  rw [hp] at h
  dsimp only at h
  split at h
  · next replay hreplay =>
    cases h
    exact ⟨replay.1, hreplay⟩
  · split at h
    · cases h
    · rw [reused_retryLoop h] at hreused
      cases hreused

/-- A file that no edit changes is what the first call found. -/
theorem sameFiles_run {call : Call} {between : List Event}
    (hedits : ∀ edited, .edit edited ∈ between → SameFiles host request world.project edited) :
    SameFiles host request world.project (run host world (.validate call :: between)).project := by
  intro path hpath
  change (run host (validate host call world).2 between).project _ = _
  refine project_run ?_ fun edited hedited => hedits edited hedited path hpath
  rw [project_validate]

/-- What was validated for one request fits a later one under its key, if both
find the recorded digests or the same files. -/
theorem fits_of_ran {again : Request} {project project' : Project} {proposal : RepairProposal}
    {validation : RepairValidation} (hdigest : Function.Injective host.sha256)
    (hkey : keyOf host request = keyOf host again)
    (hran : Ran host project request proposal validation)
    (hfiles : (CurrentFiles host project request ∧ CurrentFiles host project' again) ∨
      (request.root = again.root ∧ SameFiles host request project project')) :
    ∀ path ∈ again.authorized, ∃ bytes,
      project' (host.target again.root path) = some (.file bytes) ∧
        validation.slice.lookup path = some bytes := by
  obtain ⟨hsources, hauthorized⟩ := signature_inj hdigest hkey
  intro path hpath
  have hfirst : path ∈ request.authorized := hauthorized ▸ hpath
  obtain ⟨bytes, hfile, hlookup⟩ := hran.slice path hfirst
  rcases hfiles with ⟨hbefore, hnow⟩ | ⟨hroot, hsame⟩
  · obtain ⟨⟨source, hsource, hpathOf⟩, hrecorded⟩ := hbefore path hfirst
    obtain ⟨found, hfound, hcontent⟩ := hrecorded source hsource hpathOf
    cases hfile.symm.trans hfound
    obtain ⟨now, hnode, hdigested⟩ := (hnow path hpath).2 source (hsources ▸ hsource) hpathOf
    cases hdigest (hcontent.symm.trans hdigested)
    exact ⟨_, hnode, hlookup⟩
  · exact ⟨bytes, by rw [← hroot, hsame path hfirst, hfile], hlookup⟩

/-- **In every run in which a call that finds a verified repair is steady with
the earlier calls under its key, a reused repair fits the files.** -/
theorem replay_fits {events : List Event} (hdigest : Function.Injective host.sha256)
    (hproposals : world.store.repairProposals = []) (hvalidations : world.store.repairValidations = [])
    (hsteady : EveryRepeat host world events) :
    EveryCall host (Fits host) world events := by
  intro earlier again later hevents result hresult hreused q hq
  obtain ⟨proposal, hreplay⟩ := replay_of_reused hq hresult hreused
  obtain ⟨hproposal, hsigned, hvalidation, hanswers⟩ := mem_of_verifiedReplay hreplay
  have hrecorded : Recorded host (Made host world earlier) (run host world earlier) :=
    recorded_run hproposals hvalidations earlier
  obtain ⟨before, call, between, p, rfl, hp, hran⟩ :=
    hrecorded.made proposal hproposal result.validation hvalidation hanswers
  have hkey : keyOf host p.request = keyOf host q.request := hran.key.symm.trans hsigned
  have hfound : verifiedReplay (run host world (before ++ .validate call :: between)).store
      (keyOf host q.request) ≠ none := by
    rw [keyOf, hreplay]
    exact Option.some_ne_none _
  refine fits_of_ran hdigest hkey hran
    ((hsteady before call between again later hevents p q hp hq hkey hfound).imp_right ?_)
  rintro ⟨hroot, hedits⟩
  refine ⟨hroot, ?_⟩
  rw [run_append]
  exact sameFiles_run hedits

end

/-! ## A file edited after its repair -/

theorem toNat_byteChar : ∀ n < 256, (Char.ofNat n).toNat = n := by decide +kernel

theorem bytesText_inj : Function.Injective bytesText := by
  intro a b h
  refine List.map_injective_iff.mpr (fun x y hxy => ?_) (String.ofList_injective h)
  have hnat := congrArg Char.toNat hxy
  rw [toNat_byteChar _ x.toNat_lt, toNat_byteChar _ y.toNat_lt] at hnat
  exact UInt8.toNat_inj.mp hnat

/-- The test passes on a repaired source and writes nothing. -/
def plainHost : RepairHost :=
  { rewritingHost with
    execute := fun _ command mirror =>
      .ok (⟨command, if mirror.lookup "a.py" = some (utf8 "new") then 0 else 1⟩, mirror) }

def diagnosed : World where
  store := {
    claims := [⟨"CLAIM", "fingerprint", "conclusion", some "TASK", [], [⟨"a.py", "old"⟩, ⟨"t.py", "old"⟩]⟩]
    tasks := [{
      id := "TASK"
      question := "question"
      fingerprint := "question"
      projectFingerprint := "state"
      projectRoot := "project"
      relevantFiles := ["a.py", "t.py"]
      status := .done }] }
  project := sourceAndTest
  tick := 0

def diagnosedCall : Call := ⟨"CLAIM", "t.py", none⟩

def edited : Project
  | "a.py" => some (.file (utf8 "edited"))
  | path => sourceAndTest path

def noted : Project
  | "notes.md" => some (.file (utf8 "noted"))
  | path => sourceAndTest path

/-- Validated, and validated again after an edit of another file. -/
def notedBetween : List Event :=
  [.validate diagnosedCall, .edit noted, .validate diagnosedCall]

theorem sameFiles_noted {request : Request} (hauthorized : request.authorized = ["a.py", "t.py"])
    (hroot : request.root = "project") : SameFiles plainHost request sourceAndTest noted := by
  intro path hpath
  rw [hauthorized] at hpath
  rw [hroot]
  simp at hpath
  obtain rfl | rfl := hpath <;> rfl

theorem split_noted {earlier between later : List Event} {call again : Call}
    (h : notedBetween = earlier ++ .validate call :: between ++ .validate again :: later) :
    earlier = [] ∧ call = diagnosedCall ∧ between = [.edit noted] ∧ again = diagnosedCall := by
  rcases earlier with _ | ⟨e₁, _ | ⟨e₂, _ | ⟨e₃, earlier⟩⟩⟩ <;>
    rcases between with _ | ⟨b₁, _ | ⟨b₂, between⟩⟩ <;> simp [notedBetween] at h
  obtain ⟨rfl, rfl, rfl, -⟩ := h
  exact ⟨rfl, rfl, rfl, rfl⟩

theorem everyRepeat_noted : EveryRepeat plainHost diagnosed notedBetween := by
  rintro earlier call between again later hevents before now p q hp hq - -
  obtain ⟨rfl, rfl, rfl, rfl⟩ := split_noted hevents
  have hfirst : (prepare plainHost diagnosedCall before).toOption.map (fun p =>
      (p.request.authorized, p.request.root)) = some (["a.py", "t.py"], "project") := by
    decide +kernel
  have hsecond : (prepare plainHost diagnosedCall now).toOption.map (·.request.root) =
      some "project" := by
    decide +kernel
  rw [hp] at hfirst
  rw [hq] at hsecond
  obtain ⟨hauthorized, hroot⟩ := Prod.mk.inj (Option.some.inj hfirst)
  refine Or.inr ⟨hroot.trans (Option.some.inj hsecond).symm, fun edited hedited => ?_⟩
  cases Event.edit.inj (List.mem_singleton.mp hedited)
  exact sameFiles_noted hauthorized hroot

/-- The repair is reused, and fits. -/
theorem replay_fits_noted :
    (validate plainHost diagnosedCall (run plainHost diagnosed (notedBetween.take 2))).1.toOption.map
      (·.reused) = some true ∧ EveryCall plainHost (Fits plainHost) diagnosed notedBetween :=
  ⟨by decide +kernel, replay_fits bytesText_inj rfl rfl everyRepeat_noted⟩

/-- Validated, edited and validated again: the old repair is reused. -/
theorem edited_reused : ¬EveryCall plainHost (Fits plainHost) diagnosed
    [.validate diagnosedCall, .edit edited, .validate diagnosedCall] := by
  intro hfits
  have hfit := hfits [.validate diagnosedCall, .edit edited] diagnosedCall [] rfl
  generalize hworld : run plainHost diagnosed [.validate diagnosedCall, .edit edited] = world at hfit
  have hreused : (validate plainHost diagnosedCall world).1.toOption.map (fun result =>
      (result.reused, result.validation.slice.lookup "a.py")) = some (true, some (utf8 "old")) := by
    rw [← hworld]
    decide +kernel
  have hprepared : (prepare plainHost diagnosedCall world).toOption.map (fun p =>
      (p.request.authorized, p.request.root)) = some (["a.py", "t.py"], "project") := by
    rw [← hworld]
    decide +kernel
  have hproject : world.project "a.py" = some (.file (utf8 "edited")) := by
    rw [← hworld]
    rfl
  cases hresult : (validate plainHost diagnosedCall world).1 with
  | error e =>
    rw [hresult] at hreused
    cases hreused
  | ok result =>
    cases hp : prepare plainHost diagnosedCall world with
    | error e =>
      rw [hp] at hprepared
      cases hprepared
    | ok p =>
      rw [hresult] at hreused
      rw [hp] at hprepared
      obtain ⟨hreused, hslice⟩ := Prod.mk.inj (Option.some.inj hreused)
      obtain ⟨hauthorized, -⟩ := Prod.mk.inj (Option.some.inj hprepared)
      have hpath : "a.py" ∈ p.request.authorized := by simp [hauthorized]
      obtain ⟨bytes, hnow, hlookup⟩ := hfit result hresult hreused p hp "a.py" hpath
      cases hproject.symm.trans hnow
      exact absurd (hslice.symm.trans hlookup) (by decide)

end RlmGraph.Repair.Replay
