import RlmGraph.Knowledge.Resolution

/-! # Justified resolutions

A result is accepted by tests on the reply and the claims, while the verdict
counts the support on its own: the two agree (`selected_of_clustered`), so an
execution ends with a claim whose value a considered claim asserts, or with a
task to take up again (`Justified`), unless the sources of the new claim cannot
be captured after the task was saved as done (`justified_iff`). -/
namespace RlmGraph.Knowledge.Adjudication
open RlmGraph.Lib RlmGraph.Lib.PyText RlmGraph.Lib.Rows RlmGraph.Lib.Results
open RlmGraph.Knowledge.Conflicts RlmGraph.Knowledge.Resolution
open RlmGraph.Knowledge.Records (Assertion SourceFile)
open RlmGraph.Runner.Records (Task given)
open RlmGraph.Projects.Slices (forwardSlashes)

/-! ## What a result says -/

section
variable {tables : CaseTables} {key value : String} {threshold : ℚ} {result : ResolutionResult}
  {claim left right : Claim} {cluster : ConflictCluster} {assertionKey : Option String}

/-- The claim asserts the value of the key. -/
def Asserts (tables : CaseTables) (key value : String) (claim : Claim) : Prop :=
  ∃ assertion ∈ claim.assertions, normalizeAssertion tables assertion.key = normalizeAssertion tables key ∧
    normalizeAssertion tables assertion.value = normalizeAssertion tables value

theorem asserts_of_supports (h : supports tables key value claim = true) : Asserts tables key value claim := by
  obtain ⟨assertion, hfirst, hvalue⟩ := Option.map_eq_some_iff.mp (supports_iff.mp h)
  refine ⟨assertion, List.mem_of_find?_eq_some hfirst, ?_, hvalue⟩
  simpa using List.find?_some hfirst

/-- What every accepted result has. -/
structure Decided (tables : CaseTables) (threshold : ℚ) (assertionKey : Option String)
    (result : ResolutionResult) (resolved : Assertion) (key : String) : Prop where
  assertion : result.resolvedAssertion = some resolved
  disputed : assertionKey = some key
  confident : threshold ≤ result.confidence
  answered : result.unresolvedQuestions = []
  sameKey : normalizeAssertion tables resolved.key = normalizeAssertion tables key

/-- A result for a pair names what the claim it selects asserts first. -/
theorem decided_of_successful (h : isSuccessful tables threshold assertionKey result left right = true) :
    ∃ resolved key, Decided tables threshold assertionKey result resolved key ∧
      ∃ claim, (claim = left ∨ claim = right) ∧ supports tables key resolved.value claim = true := by
  unfold isSuccessful at h
  split at h
  · cases h
  · split at h
    · cases h
    · next hquality =>
      obtain ⟨hconfidence, hquestions⟩ := not_or.mp hquality
      split at h
      · next resolved key hresolved =>
        split at h
        · cases h
        · next hkey =>
          refine ⟨resolved, key, ⟨hresolved, rfl, not_lt.mp hconfidence, not_not.mp hquestions,
            not_not.mp hkey⟩, if result.selectedClaim = .left then left else right, ?_, ?_⟩
          · split
            · exact .inl rfl
            · exact .inr rfl
          · dsimp only at h
            split at h
            · cases h
            · next expected hexpected =>
              unfold supports
              rw [hexpected]
              exact h
      · cases h

/-- A result for a cluster names the value of one of its interpretations. -/
theorem decided_of_clusterSuccessful
    (h : isClusterSuccessful tables threshold assertionKey result cluster = true) :
    ∃ resolved key, Decided tables threshold assertionKey result resolved key ∧
      ∃ interpretation ∈ cluster.interpretations,
        interpretation.normalizedValue = normalizeAssertion tables resolved.value := by
  unfold isClusterSuccessful at h
  split at h
  · cases h
  · split at h
    · cases h
    · next hquality =>
      obtain ⟨hconfidence, hquestions⟩ := not_or.mp hquality
      split at h
      · next resolved key selectedValue hresolved _ =>
        split at h
        · cases h
        · next hkey =>
          split at h
          · cases h
          · next hvalue =>
            split at h
            · cases h
            · next interpretation hfound =>
              refine ⟨resolved, key, ⟨hresolved, rfl, not_lt.mp hconfidence, not_not.mp hquestions,
                not_not.mp hkey⟩, interpretation, List.mem_of_find?_eq_some hfound, ?_⟩
              rw [not_not.mp hvalue]
              simpa using List.find?_some hfound
      · cases h

end

/-! ## Justified resolutions -/

section
variable {tables : CaseTables} {files : ProjectFiles} {executor : ResolutionExecutor} {ids : NewIds}
  {store after : GraphStore} {taskId : String} {dispute : Dispute} {result : ResolutionResult}

/-- A pair, or a cluster of stored claims. -/
def InScope (tables : CaseTables) (store : GraphStore) (dispute : Dispute) : Prop :=
  match dispute.cluster with
  | none => dispute.task.conflictingClaimIds.length = 2
  | some cluster => Clustered tables store dispute.task cluster

/-- The dispute was resolved by the claim that was added. -/
structure Adjudicated (tables : CaseTables) (executor : ResolutionExecutor) (dispute : Dispute)
    (store after : GraphStore) (claim : Claim) (resolved : Assertion) (verdict : ConflictVerdict) : Prop where
  done : (after.getTask dispute.task.id).map (·.status) = some .done
  added : after.claims = store.claims ++ [claim]
  kind : claim.kind = .adjudicated
  assertions : claim.assertions = [resolved]
  key : dispute.task.disputedAssertionKey.map (normalizeAssertion tables) =
    some (normalizeAssertion tables resolved.key)
  asserted : ∃ considered ∈ dispute.claims, Asserts tables resolved.key resolved.value considered
  confident : executor.confidenceThreshold ≤ claim.confidence
  answered : claim.unresolvedQuestions = []
  verdicts : after.conflictVerdicts dispute.task.id = [verdict]
  status : verdict.status = .resolved
  selected : verdict.selectedValue = some resolved.value
  supporting : verdict.supportingClaimIds =
    (dispute.claims.filter (supports tables resolved.key resolved.value)).map (·.id)
  contradicting : verdict.contradictingClaimIds =
    (dispute.claims.filter (!supports tables resolved.key resolved.value ·)).map (·.id)
  members : ∀ cluster, dispute.cluster = some cluster → ∃ interpretation ∈ cluster.interpretations,
    interpretation.normalizedValue = normalizeAssertion tables resolved.value ∧
    ∀ claimId, claimId ∈ verdict.supportingClaimIds ↔ claimId ∈ interpretation.claimIds

/-- The dispute stays open, with a verdict that says so. -/
structure Undecided (dispute : Dispute) (store after : GraphStore) (verdict : ConflictVerdict) : Prop where
  recurse : (after.getTask dispute.task.id).map (·.status) = some .recurse
  claims : after.claims = store.claims
  verdicts : after.conflictVerdicts dispute.task.id = [verdict]
  status : verdict.status = .unresolved
  selected : verdict.selectedValue = none
  supporting : verdict.supportingClaimIds = []

/-- What an execution may lead to. -/
def Justified (tables : CaseTables) (executor : ResolutionExecutor) (dispute : Dispute)
    (store after : GraphStore) : Prop :=
  (∃ claim resolved verdict, Adjudicated tables executor dispute store after claim resolved verdict) ∨
    ∃ verdict, Undecided dispute store after verdict

/-- The paths the new claim rests on. -/
def citedPaths (dispute : Dispute) (result : ResolutionResult) : List String :=
  (if result.evidence = [] then dispute.claims.flatMap (·.filesExamined)
    else result.evidence.map (·.path)).map forwardSlashes

/-- The capture of the sources of the new claim raises nothing. -/
def Readable (files : ProjectFiles) (dispute : Dispute) (result : ResolutionResult) : Prop :=
  ∀ path ∈ citedPaths dispute result, ∃ hash, files.sourceHash dispute.task.projectRoot path = .ok hash

/-- What `disputeOf` checks of the task. -/
structure Open (store : GraphStore) (taskId : String) (dispute : Dispute) : Prop where
  stored : store.getTask taskId = some dispute.task
  status : dispute.task.status = .open
  claims : List.Forall₂ (fun claimId claim => store.getClaim claimId = some claim)
    dispute.task.conflictingClaimIds dispute.claims
  left : dispute.left ∈ dispute.claims
  right : dispute.right ∈ dispute.claims
  cluster : dispute.cluster = (given dispute.task.conflictClusterId).bind store.getConflictCluster

theorem disputeOf_open (h : disputeOf store taskId = .ok dispute) : Open store taskId dispute := by
  unfold disputeOf at h
  split at h
  · cases h
  · next task htask =>
    split at h
    · cases h
    · split at h
      · cases h
      · next hstatus =>
        split at h
        · cases h
        · obtain ⟨claims, hclaims, h⟩ := bind_ok h
          split at h
          · next left right rest =>
            cases h
            refine ⟨htask, not_not.mp hstatus, ?_, List.mem_cons_self,
              List.mem_cons_of_mem _ List.mem_cons_self, rfl⟩
            refine (mapM_ok hclaims).imp fun claimId claim hclaim => ?_
            split at hclaim
            · cases hclaim
            · next hfound =>
              cases hclaim
              exact hfound
          · cases h

theorem getTask_id {task : Task} (h : store.getTask taskId = some task) : task.id = taskId := by
  simpa using List.find?_some h

theorem getClaim_id {claimId : String} {claim : Claim} (h : store.getClaim claimId = some claim) :
    claim.id = claimId := by
  simpa using List.find?_some h

/-- The considered claims are the stored claims that the task names. -/
theorem Open.mem_claims (h : Open store taskId dispute) {claim : Claim} : claim ∈ dispute.claims ↔
    claim.id ∈ dispute.task.conflictingClaimIds ∧ store.getClaim claim.id = some claim := by
  constructor
  · intro hclaim
    obtain ⟨claimId, hclaimId, hfound⟩ := mem_of_forall₂ h.claims hclaim
    obtain rfl := getClaim_id hfound
    exact ⟨hclaimId, hfound⟩
  · rintro ⟨hclaimId, hfound⟩
    obtain ⟨other, hother, hfound'⟩ := exists_of_forall₂ h.claims hclaimId
    exact Option.some.inj (hfound.symm.trans hfound') ▸ hother

/-- The support that the verdict counts is the interpretation that was selected. -/
theorem selected_of_clustered {cluster : ConflictCluster} (h : Clustered tables store dispute.task cluster)
    (hopen : Open store taskId dispute) (key value : String)
    (hkey : dispute.task.disputedAssertionKey.map (normalizeAssertion tables) =
      some (normalizeAssertion tables key))
    {interpretation : Interpretation} (hmem : interpretation ∈ cluster.interpretations)
    (hvalue : interpretation.normalizedValue = normalizeAssertion tables value) (claimId : String) :
    claimId ∈ (dispute.claims.filter (supports tables key value)).map (·.id) ↔
      claimId ∈ interpretation.claimIds := by
  obtain ⟨key', claims, hstored, hkey', hbuilt, hids⟩ := h
  have hgroups := grouped_interpretations tables key' claims
  rw [← hbuilt] at hgroups
  have hsame : normalizeAssertion tables key' = normalizeAssertion tables key :=
    Option.some.inj (hkey'.symm.trans hkey)
  rw [List.mem_map, hgroups.members interpretation hmem]
  constructor
  · rintro ⟨considered, hconsidered, rfl⟩
    obtain ⟨hclaim, hsupports⟩ := List.mem_filter.mp hconsidered
    obtain ⟨hnamed, hfound⟩ := hopen.mem_claims.mp hclaim
    rw [hids] at hnamed
    obtain ⟨group, hgroup, hin⟩ := List.mem_flatMap.mp hnamed
    obtain ⟨claim, hbuiltFrom, hid, -⟩ := (hgroups.members group hgroup _).mp hin
    obtain ⟨row, hrow, hassertions⟩ := hstored claim hbuiltFrom
    obtain rfl : considered = row := Option.some.inj (hfound.symm.trans (hid ▸ hrow))
    refine ⟨claim, hbuiltFrom, hid, ?_⟩
    rw [valueOn_congr hsame hassertions.symm, hvalue]
    exact supports_iff.mp hsupports
  · rintro ⟨claim, hclaim, rfl, hasserted⟩
    obtain ⟨row, hrow, hassertions⟩ := hstored claim hclaim
    have hid : row.id = claim.id := getClaim_id hrow
    refine ⟨row, List.mem_filter.mpr ⟨hopen.mem_claims.mpr ⟨?_, hid ▸ hrow⟩, supports_iff.mpr ?_⟩, hid⟩
    · rw [hids, hid]
      exact List.mem_flatMap.mpr ⟨interpretation, hmem,
        (hgroups.members interpretation hmem _).mpr ⟨claim, hclaim, rfl, hasserted⟩⟩
    · rw [valueOn_congr hsame.symm hassertions, hasserted, hvalue]

/-- An accepted result has a value that a considered claim asserts. -/
theorem decided_of_accepted (hopen : Open store taskId dispute) (hscope : InScope tables store dispute)
    {threshold : ℚ} (h : accepted tables threshold result dispute = true) :
    ∃ resolved key, Decided tables threshold dispute.task.disputedAssertionKey result resolved key ∧
      (∃ claim ∈ dispute.claims, supports tables key resolved.value claim = true) ∧
      ∀ cluster, dispute.cluster = some cluster → ∃ interpretation ∈ cluster.interpretations,
        interpretation.normalizedValue = normalizeAssertion tables resolved.value ∧
        ∀ claimId, claimId ∈ (dispute.claims.filter (supports tables key resolved.value)).map (·.id) ↔
          claimId ∈ interpretation.claimIds := by
  unfold accepted at h
  unfold InScope at hscope
  cases hcluster : dispute.cluster with
  | none =>
    rw [hcluster] at h
    obtain ⟨resolved, key, hdecided, claim, hclaim, hsupports⟩ := decided_of_successful h
    refine ⟨resolved, key, hdecided, ⟨claim, ?_, hsupports⟩, by rintro _ ⟨⟩⟩
    rcases hclaim with rfl | rfl
    · exact hopen.left
    · exact hopen.right
  | some cluster =>
    rw [hcluster] at h hscope
    obtain ⟨resolved, key, hdecided, interpretation, hmem, hvalue⟩ := decided_of_clusterSuccessful h
    have hselected := selected_of_clustered hscope hopen key resolved.value
      (by rw [hdecided.disputed]; rfl) hmem hvalue
    refine ⟨resolved, key, hdecided, ?_, ?_⟩
    · obtain ⟨key', claims, -, -, hbuilt, -⟩ := hscope
      have hne := (grouped_interpretations tables key' claims).nonempty interpretation (hbuilt ▸ hmem)
      obtain ⟨claimId, hclaimId⟩ := List.exists_mem_of_ne_nil _ hne
      obtain ⟨claim, hclaim, -⟩ := List.mem_map.mp ((hselected claimId).mpr hclaimId)
      exact ⟨claim, (List.mem_filter.mp hclaim).1, (List.mem_filter.mp hclaim).2⟩
    · rintro _ ⟨⟩
      exact ⟨interpretation, hmem, hvalue, hselected⟩

/-! ### The new claim -/

theorem captureSourceFiles_ok_iff {projectRoot : String} {claim : Claim} :
    (∃ sources, captureSourceFiles files projectRoot claim = .ok sources) ↔
      ∀ path ∈ supportingPaths claim, ∃ hash, files.sourceHash projectRoot path = .ok hash := by
  constructor
  · rintro ⟨sources, h⟩ path hpath
    obtain ⟨captured, hcaptured, -⟩ := bind_ok h
    obtain ⟨source, -, hsource⟩ := exists_of_forall₂ (mapM_ok hcaptured) hpath
    obtain ⟨hash, hhash, -⟩ := bind_ok hsource
    exact ⟨hash, hhash⟩
  · intro h
    unfold captureSourceFiles
    have hall : ∀ path ∈ supportingPaths claim, ∃ source,
        (do
          let contentHash ← files.sourceHash projectRoot path
          pure (contentHash.map (SourceFile.mk path ·)) : Except PyError _) = .ok source := by
      intro path hpath
      obtain ⟨hash, hhash⟩ := h path hpath
      rw [hhash]
      exact ⟨_, rfl⟩
    obtain ⟨captured, hcaptured⟩ := exists_mapM_ok hall
    rw [hcaptured]
    exact ⟨_, rfl⟩

/-- The provenance leaves what the claim says. -/
structure SameContent (claim claim' : Claim) : Prop where
  id : claim'.id = claim.id
  kind : claim'.kind = claim.kind
  assertions : claim'.assertions = claim.assertions
  confidence : claim'.confidence = claim.confidence
  unresolvedQuestions : claim'.unresolvedQuestions = claim.unresolvedQuestions

theorem initializeProvenance_content {task : Task} {claim claim' : Claim}
    (h : initializeProvenance files task claim = .ok claim') : SameContent claim claim' := by
  obtain ⟨sources, -, h⟩ := bind_ok h
  cases h
  exact ⟨rfl, rfl, rfl, rfl, rfl⟩

theorem initializeProvenance_ok_iff {task : Task} {claim : Claim} (h : claim.sourceFiles = []) :
    (∃ claim', initializeProvenance files task claim = .ok claim') ↔
      ∀ path ∈ supportingPaths claim, ∃ hash, files.sourceHash task.projectRoot path = .ok hash := by
  rw [← captureSourceFiles_ok_iff]
  have hsourcesOf : sourcesOf files task claim = captureSourceFiles files task.projectRoot claim :=
    if_pos h
  constructor
  · rintro ⟨claim', hclaim'⟩
    obtain ⟨sources, hsources, -⟩ := bind_ok hclaim'
    exact ⟨sources, hsourcesOf ▸ hsources⟩
  · rintro ⟨sources, hsources⟩
    unfold initializeProvenance
    rw [hsourcesOf, hsources]
    exact ⟨_, rfl⟩

theorem mem_supportingPaths {resolved : Assertion} {verdict : ConflictVerdict} {path : String} :
    path ∈ supportingPaths (adjudicate executor ids dispute result resolved verdict) ↔
      path ∈ citedPaths dispute result := by
  unfold supportingPaths citedPaths adjudicate
  dsimp only
  rw [mem_distinct]
  by_cases hevidence : result.evidence = []
  · rw [if_pos (by rw [hevidence]; rfl), if_pos hevidence, List.mem_map, List.mem_map]
    simp only [mem_sortedSet]
  · rw [if_neg (by simpa using hevidence), if_neg hevidence]

/-! ### What an execution leaves -/

theorem conflictVerdicts_save {verdict : ConflictVerdict} :
    (store.saveConflictVerdict verdict).conflictVerdicts verdict.resolutionTaskId = [verdict] := by
  show ((replaceRow (·.resolutionTaskId) verdict _).filter (·.resolutionTaskId == verdict.resolutionTaskId)) = _
  unfold replaceRow
  rw [List.filter_append, List.filter_filter]
  have hnone : ∀ rows : List ConflictVerdict, rows.filter (fun row =>
      row.resolutionTaskId == verdict.resolutionTaskId && row.resolutionTaskId != verdict.resolutionTaskId) = [] := by
    intro rows
    refine List.filter_eq_nil_iff.mpr fun row _ => ?_
    simp
  rw [hnone]
  simp

/-- What the verdict says, accepted or not. -/
structure Written (tables : CaseTables) (dispute : Dispute) (result : ResolutionResult) (successful : Bool)
    (verdict : ConflictVerdict) : Prop where
  task : verdict.resolutionTaskId = dispute.task.id
  status : verdict.status = if successful then .resolved else .unresolved
  selected : verdict.selectedValue = if successful then result.resolvedAssertion.map (·.value) else none
  supporting : verdict.supportingClaimIds = match verdict.selectedValue with
    | none => []
    | some value => (dispute.claims.filter
        (supports tables (dispute.task.disputedAssertionKey.getD "") value)).map (·.id)
  contradicting : verdict.contradictingClaimIds = match verdict.selectedValue with
    | none => []
    | some value => (dispute.claims.filter
        (!supports tables (dispute.task.disputedAssertionKey.getD "") value ·)).map (·.id)

theorem buildVerdict_cases (tables : CaseTables) (executor : ResolutionExecutor) (ids : NewIds)
    (dispute : Dispute) (result : ResolutionResult) (attempt : ResolutionAttempt) (successful : Bool)
    (store : GraphStore) :
    (executor.inBounds = true ∧ ∃ verdict,
      buildVerdict tables executor ids dispute result attempt successful store = .ok verdict ∧
      Written tables dispute result successful verdict) ∨
    (executor.inBounds = false ∧ ∃ e,
      buildVerdict tables executor ids dispute result attempt successful store = .error e) := by
  unfold buildVerdict
  cases hbounds : executor.inBounds with
  | true => exact .inl ⟨rfl, _, rfl, rfl, rfl, rfl, rfl, rfl⟩
  | false => exact .inr ⟨rfl, _, rfl⟩

/-- The tables once the attempt and the verdict are written. -/
def written (store : GraphStore) (attempt : ResolutionAttempt) (verdict : ConflictVerdict) :
    GraphStore :=
  (store.saveResolutionAttempt attempt).saveConflictVerdict verdict

theorem conflictVerdicts_written (attempt : ResolutionAttempt) {verdict : ConflictVerdict} :
    (written store attempt verdict).conflictVerdicts verdict.resolutionTaskId = [verdict] :=
  conflictVerdicts_save

/-- No verdict, a verdict that leaves the dispute open, or one that settles it. -/
theorem conclude_cases (tables : CaseTables) (files : ProjectFiles) (executor : ResolutionExecutor)
    (ids : NewIds) (dispute : Dispute) (result : ResolutionResult) (store : GraphStore) :
    (executor.inBounds = false ∧ (conclude tables files executor ids dispute result store).2.tasks = store.tasks) ∨
    executor.inBounds = true ∧ ∃ verdict,
      Written tables dispute result (accepted tables executor.confidenceThreshold result dispute) verdict ∧
      (accepted tables executor.confidenceThreshold result dispute = false →
        (conclude tables files executor ids dispute result store).2 =
          (written store (attemptOf ids dispute result store) verdict).saveTask dispute.recursed) ∧
      ∀ resolved, accepted tables executor.confidenceThreshold result dispute = true →
        result.resolvedAssertion = some resolved →
        conclude tables files executor ids dispute result store =
          settle files executor ids dispute result resolved verdict
            (written store (attemptOf ids dispute result store) verdict) := by
  unfold conclude
  dsimp only
  obtain ⟨hbounds, verdict, hverdict, hwritten⟩ | ⟨hbounds, e, he⟩ := buildVerdict_cases tables executor
    ids dispute result (attemptOf ids dispute result store)
    (accepted tables executor.confidenceThreshold result dispute)
    (store.saveResolutionAttempt (attemptOf ids dispute result store))
  · rw [hverdict]
    refine .inr ⟨hbounds, verdict, hwritten, fun hrejected => ?_, fun resolved haccepted hresolved => ?_⟩
    · rw [hrejected]
      rfl
    · rw [haccepted, hresolved]
      rfl
  · rw [he]
    exact .inl ⟨hbounds, rfl⟩

/-- The task is done, and the claim is there if its sources could be captured. -/
theorem settle_cases (files : ProjectFiles) (executor : ResolutionExecutor) (dispute : Dispute)
    (result : ResolutionResult) (resolved : Assertion) (verdict : ConflictVerdict) (store : GraphStore)
    (hid : ids.claim ∉ store.claims.map (·.id)) :
    (settle files executor ids dispute result resolved verdict store).2.getTask dispute.task.id =
        some (dispute.settled ids.claim) ∧
      (settle files executor ids dispute result resolved verdict store).2.verdicts = store.verdicts ∧
      ((Readable files dispute result ∧ ∃ claim,
        SameContent (adjudicate executor ids dispute result resolved verdict) claim ∧
        (settle files executor ids dispute result resolved verdict store).2.claims = store.claims ++ [claim]) ∨
      (¬Readable files dispute result ∧
        (settle files executor ids dispute result resolved verdict store).2.claims = store.claims)) := by
  have hreadable : (∃ claim, initializeProvenance files (dispute.settled ids.claim)
      (adjudicate executor ids dispute result resolved verdict) = .ok claim) ↔ Readable files dispute result := by
    rw [initializeProvenance_ok_iff rfl]
    simp only [mem_supportingPaths]
    rfl
  have htask : (store.saveTask (dispute.settled ids.claim)).getTask dispute.task.id =
      some (dispute.settled ids.claim) :=
    store.getTask_saveTask (dispute.settled ids.claim)
  unfold settle
  dsimp only
  cases hclaim : initializeProvenance files (dispute.settled ids.claim)
      (adjudicate executor ids dispute result resolved verdict) with
  | error e =>
    refine ⟨htask, rfl, .inr ⟨fun hread => ?_, rfl⟩⟩
    obtain ⟨claim, hclaim'⟩ := hreadable.mpr hread
    cases hclaim.symm.trans hclaim'
  | ok claim =>
    have hcontent := initializeProvenance_content hclaim
    have hnew : claim.id ∉ store.claims.map (·.id) := by
      rw [hcontent.id]
      exact hid
    have hadded : replaceRow (·.id) claim store.claims = store.claims ++ [claim] := replaceRow_new hnew
    cases dispute.cluster with
    | none => exact ⟨htask, rfl, .inl ⟨hreadable.mp ⟨claim, hclaim⟩, claim, hcontent, hadded⟩⟩
    | some cluster => exact ⟨htask, rfl, .inl ⟨hreadable.mp ⟨claim, hclaim⟩, claim, hcontent, hadded⟩⟩

/-- A verdict without a value, and the task to be taken up again. -/
theorem undecided_of_written {attempt : ResolutionAttempt} {verdict : ConflictVerdict}
    (h : Written tables dispute result false verdict) :
    Undecided dispute store ((written store attempt verdict).saveTask dispute.recursed) verdict where
  recurse := congrArg (·.map (·.status)) (GraphStore.getTask_saveTask _ dispute.recursed)
  claims := rfl
  verdicts := by
    rw [← h.task]
    exact conflictVerdicts_written attempt
  status := h.status
  selected := h.selected
  supporting := by
    rw [h.supporting, show verdict.selectedValue = none from h.selected]

/-- What the new claim and the verdict of an accepted result say. -/
theorem adjudicated_of_settled {verdict : ConflictVerdict} {resolved : Assertion} {key : String} {claim : Claim}
    (hwritten : Written tables dispute result true verdict)
    (hdecided : Decided tables executor.confidenceThreshold dispute.task.disputedAssertionKey result resolved key)
    (hsupported : ∃ claim ∈ dispute.claims, supports tables key resolved.value claim = true)
    (hselected : ∀ cluster, dispute.cluster = some cluster → ∃ interpretation ∈ cluster.interpretations,
      interpretation.normalizedValue = normalizeAssertion tables resolved.value ∧
      ∀ claimId, claimId ∈ (dispute.claims.filter (supports tables key resolved.value)).map (·.id) ↔
        claimId ∈ interpretation.claimIds)
    (hdone : after.getTask dispute.task.id = some (dispute.settled ids.claim))
    (hverdicts : after.conflictVerdicts dispute.task.id = [verdict])
    (hcontent : SameContent (adjudicate executor ids dispute result resolved verdict) claim)
    (hclaims : after.claims = store.claims ++ [claim]) :
    Adjudicated tables executor dispute store after claim resolved verdict := by
  have hvalue : verdict.selectedValue = some resolved.value := by
    rw [hwritten.selected, hdecided.assertion]
    rfl
  have hsame : supports tables key resolved.value = supports tables resolved.key resolved.value := by
    funext considered
    unfold supports
    rw [firstOn_congr hdecided.sameKey.symm rfl]
  have hkey : dispute.task.disputedAssertionKey.getD "" = key := by rw [hdecided.disputed]; rfl
  have hsupporting : verdict.supportingClaimIds =
      (dispute.claims.filter (supports tables key resolved.value)).map (·.id) := by
    rw [hwritten.supporting, hvalue, hkey]
  constructor
  case done => rw [hdone]; rfl
  case added => exact hclaims
  case kind => exact hcontent.kind
  case assertions => exact hcontent.assertions
  case key => rw [hdecided.disputed, hdecided.sameKey]; rfl
  case asserted =>
    obtain ⟨considered, hconsidered, hsupports⟩ := hsupported
    exact ⟨considered, hconsidered, asserts_of_supports (hsame ▸ hsupports)⟩
  case confident => rw [hcontent.confidence]; exact hdecided.confident
  case answered => exact hcontent.unresolvedQuestions
  case verdicts => exact hverdicts
  case status => exact hwritten.status
  case selected => exact hvalue
  case supporting => rw [hsupporting, hsame]
  case contradicting =>
    rw [hwritten.contradicting, hvalue, hkey, ← hsame]
  case members =>
    intro cluster hcluster
    obtain ⟨interpretation, hmem, hnormalized, hall⟩ := hselected cluster hcluster
    exact ⟨interpretation, hmem, hnormalized, fun claimId => hsupporting ▸ hall claimId⟩

/-- Counting the attempt changes nothing of this. -/
theorem Justified.of_opened
    (h : Justified tables executor dispute.opened (store.saveTask dispute.opened.task) after) :
    Justified tables executor dispute store after := by
  rcases h with ⟨claim, resolved, verdict, h⟩ | ⟨verdict, h⟩
  · exact .inl ⟨claim, resolved, verdict, { h with }⟩
  · exact .inr ⟨verdict, { h with }⟩

/-- **A resolution is justified by a claim it considered, if and only if the
executor is within the bounds of a verdict and, where the result is accepted, the
sources it cites can be captured.** -/
theorem justified_iff (tables : CaseTables) (files : ProjectFiles) (executor : ResolutionExecutor)
    (ids : NewIds) (taskId : String) (store : GraphStore) (dispute : Dispute) (result : ResolutionResult)
    (hdispute : disputeOf store taskId = .ok dispute) (hscope : InScope tables store dispute)
    (hreply : ask executor.resolver dispute.opened (store.saveTask dispute.opened.task) = .ok result)
    (hid : ids.claim ∉ store.claims.map (·.id)) :
    Justified tables executor dispute store (execute tables files executor ids taskId store).2 ↔
      executor.inBounds = true ∧
        (accepted tables executor.confidenceThreshold result dispute = true →
          Readable files dispute result) := by
  have hopen := disputeOf_open hdispute
  have hexecute : execute tables files executor ids taskId store =
      conclude tables files executor ids dispute.opened result (store.saveTask dispute.opened.task) := by
    unfold execute
    rw [hdispute]
    dsimp only
    rw [hreply]
  rw [hexecute]
  obtain ⟨hbounds, htasks⟩ | ⟨hbounds, verdict, hwritten, hrejected, hsettled⟩ := conclude_cases tables files
    executor ids dispute.opened result (store.saveTask dispute.opened.task)
  · -- without a verdict the task is as it was opened
    have htask : (conclude tables files executor ids dispute.opened result
        (store.saveTask dispute.opened.task)).2.getTask dispute.task.id = some dispute.opened.task := by
      unfold GraphStore.getTask
      rw [htasks]
      exact store.getTask_saveTask dispute.opened.task
    have hstatus : dispute.opened.task.status = .open := hopen.status
    constructor
    · rintro (⟨_, _, _, h⟩ | ⟨_, h⟩)
      · have hdone := h.done
        rw [htask, Option.map_some, hstatus] at hdone
        cases hdone
      · have hrecurse := h.recurse
        rw [htask, Option.map_some, hstatus] at hrecurse
        cases hrecurse
    · rintro ⟨htrue, -⟩
      cases hbounds.symm.trans htrue
  · cases haccepted : accepted tables executor.confidenceThreshold result dispute with
    | false =>
      rw [hrejected haccepted]
      rw [show accepted tables executor.confidenceThreshold result dispute.opened = false from haccepted]
        at hwritten
      exact iff_of_true (.of_opened (.inr ⟨verdict, undecided_of_written hwritten⟩)) ⟨hbounds, by rintro ⟨⟩⟩
    | true =>
      rw [show accepted tables executor.confidenceThreshold result dispute.opened = true from haccepted]
        at hwritten
      obtain ⟨resolved, key, hdecided, hsupported, hselected⟩ := decided_of_accepted hopen hscope haccepted
      rw [hsettled resolved haccepted hdecided.assertion]
      obtain ⟨hdone, hverdicts, hclaims⟩ := settle_cases files executor dispute.opened result resolved
        verdict (written (store.saveTask dispute.opened.task)
          (attemptOf ids dispute.opened result (store.saveTask dispute.opened.task)) verdict) hid
      obtain ⟨hreadable, claim, hcontent, hadded⟩ | ⟨hunreadable, hsame⟩ := hclaims
      · refine iff_of_true (.of_opened (.inl ⟨claim, resolved, verdict, ?_⟩)) ⟨hbounds, fun _ => hreadable⟩
        refine adjudicated_of_settled hwritten hdecided hsupported hselected hdone ?_ hcontent hadded
        unfold GraphStore.conflictVerdicts
        rw [hverdicts, ← hwritten.task]
        exact conflictVerdicts_written _
      · refine iff_of_false ?_ fun hright => hunreadable (hright.2 rfl)
        rintro (⟨claim, _, _, h⟩ | ⟨_, h⟩)
        · have hlength := congrArg List.length (hsame.symm.trans h.added)
          rw [List.length_append] at hlength
          exact absurd hlength (Nat.ne_of_lt (Nat.lt_succ_self _))
        · cases (congrArg (·.map (·.status)) hdone).symm.trans h.recurse

end

/-! ## A source that cannot be read -/

def considered (id value : String) : Claim where
  id := id
  projectFingerprint := "state"
  subject := "retry"
  confidence := 9 / 10
  assertions := [⟨"retry.mode", value⟩]

/-- Two claims on one key. -/
def pair : Task where
  id := "TASK-2"
  question := "Which claim holds?"
  fingerprint := "task"
  projectFingerprint := "state"
  projectRoot := "/project"
  kind := .resolution
  conflictingClaimIds := ["CLAIM-1", "CLAIM-2"]
  disputedAssertionKey := some "retry.mode"
  createdAt := 0

def disputed : GraphStore where
  tasks := [pair]
  claims := [considered "CLAIM-1" "linear", considered "CLAIM-2" "doubling"]

def disputedPair : Dispute where
  task := pair
  claims := [considered "CLAIM-1" "linear", considered "CLAIM-2" "doubling"]
  left := considered "CLAIM-1" "linear"
  right := considered "CLAIM-2" "doubling"
  cluster := none

/-- The left claim, on the evidence of a file. -/
def leftHolds (path : String) : ResolutionResult where
  selectedClaim := .left
  resolvedAssertion := some ⟨"retry.mode", "Linear"⟩
  rationale := "The delay grows by a constant."
  evidence := [⟨path, "delay += step", some 12⟩]
  confidence := 9 / 10

def answering (result : ResolutionResult) : ResolutionExecutor where
  resolver := ⟨"CodexCliResolver", fun _ _ _ _ => .ok result, none⟩

/-- Files of which one may not be read. -/
def lockedFiles : ProjectFiles where
  resolve path := path
  sourceHash _ path :=
    if path = "src/locked.py" then .error (.os "[Errno 13] Permission denied: '/project/src/locked.py'")
    else .ok (some "hash")

def drawn : NewIds := ⟨"ATTEMPT-1", "VERDICT-1", "CLAIM-3"⟩

/-- With readable sources the resolution is justified. -/
theorem justified_iff_readable : Justified plainTables (answering (leftHolds "src/retry.py")) disputedPair
    disputed (execute plainTables lockedFiles (answering (leftHolds "src/retry.py")) drawn "TASK-2"
      disputed).2 := by
  have hpaths : citedPaths disputedPair (leftHolds "src/retry.py") = ["src/retry.py"] := by decide +kernel
  refine (justified_iff plainTables lockedFiles (answering (leftHolds "src/retry.py")) drawn "TASK-2" disputed
    disputedPair (leftHolds "src/retry.py") rfl rfl rfl (by decide)).mpr
    ⟨by decide +kernel, fun _ path hpath => ⟨some "hash", ?_⟩⟩
  rw [hpaths] at hpath
  rw [List.mem_singleton.mp hpath]
  rfl

/-- The task is done, and no claim was added. -/
theorem unreadable_source_unjustified : ¬∀ (files : ProjectFiles) (executor : ResolutionExecutor)
    (ids : NewIds) (taskId : String) (store : GraphStore) (dispute : Dispute) (result : ResolutionResult),
    disputeOf store taskId = .ok dispute → InScope plainTables store dispute →
    ask executor.resolver dispute.opened (store.saveTask dispute.opened.task) = .ok result →
    ids.claim ∉ store.claims.map (·.id) → executor.inBounds = true →
    Justified plainTables executor dispute store (execute plainTables files executor ids taskId store).2 := by
  intro h
  have hclaims : (execute plainTables lockedFiles (answering (leftHolds "src/locked.py")) drawn "TASK-2"
      disputed).2.claims = disputed.claims := by decide +kernel
  have hstatus : ((execute plainTables lockedFiles (answering (leftHolds "src/locked.py")) drawn "TASK-2"
      disputed).2.getTask "TASK-2").map (·.status) = some .done := by decide +kernel
  obtain ⟨claim, _, _, hadjudicated⟩ | ⟨_, hundecided⟩ := h lockedFiles (answering (leftHolds "src/locked.py"))
    drawn "TASK-2" disputed disputedPair (leftHolds "src/locked.py") rfl rfl rfl (by decide) (by decide +kernel)
  · have hlength := congrArg List.length (hclaims.symm.trans hadjudicated.added)
    cases hlength
  · cases hstatus.symm.trans hundecided.recurse

end RlmGraph.Knowledge.Adjudication
