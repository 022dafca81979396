import RlmGraph.Claims.Authentication

/-! # Losing evidence

An assessment looks only at evidence whose artifact still has its digest. When
artifacts are lost, the evidence that counts afterwards is a part of what
counted before (`counted_sublist_of_lost`). So the level never rises, but a
claim improves when its counter-evidence is lost, and when what is left is
again what an old envelope was made for (`loss_helps_iff`). -/
namespace RlmGraph.Claims.Loss
open RlmGraph.Lib.JsonText RlmGraph.Lib.Results
open RlmGraph.Claims.Ledger RlmGraph.Claims.Verify RlmGraph.Claims.Integrity RlmGraph.Claims.Records
open RlmGraph.Claims.Histories RlmGraph.Claims.Progress RlmGraph.Claims.Authentication

variable {crypto : Crypto} {disk disk' : Disk} {keys : AuthenticationKeys} {r : Registry}
  {t : Tables} {claim : ClaimStatement} {claimId : String}

/-- Files were deleted or altered: a stored artifact that has its digest
afterwards had it before. -/
def Lost (crypto : Crypto) (disk disk' : Disk) (t : Tables) : Prop :=
  ∀ row ∈ t.records, ∀ raw, loads row.payload = some raw →
    artifactMatches crypto disk' raw = true → artifactMatches crypto disk raw = true

/-- As long as all artifacts are intact, every other disk is one with losses. -/
theorem lost_of_run (h : Run crypto disk t) (disk' : Disk) : Lost crypto disk disk' t := by
  intro row hrow raw hraw _
  obtain ⟨evidence, -, -, hpayload, -, hfile, bytes, hread, hdigest⟩ := h.sound.1.records row hrow
  have hloads := loads_canonicalJson (evidencePayload evidence)
  rw [← hpayload, hraw] at hloads
  obtain rfl := Option.some.inj hloads
  rw [(readsAs_payload evidence).artifactMatches]
  simp [stands, hfile, hread, hdigest]

theorem counts_of_lost (h : Represents crypto r t) (hlost : Lost crypto disk disk' t)
    (claim : ClaimStatement) {x : ClaimEvidence} (hx : x ∈ r.evidence) (hcounts : counts crypto disk' claim x = true) :
    counts crypto disk claim x = true := by
  have hrow : evidenceRow crypto x ∈ t.records := by
    rw [h.records]
    exact List.mem_map_of_mem hx
  have hmatches := hlost _ hrow _ (loads_canonicalJson (evidencePayload x))
  rw [(readsAs_payload x).artifactMatches, (readsAs_payload x).artifactMatches] at hmatches
  rw [counts, Bool.and_eq_true] at hcounts ⊢
  exact ⟨hmatches hcounts.1, hcounts.2⟩

/-- **What counts after a loss counted before.** -/
theorem counted_sublist_of_lost (h : Represents crypto r t) (hlost : Lost crypto disk disk' t)
    (claim : ClaimStatement) :
    (r.counted crypto disk' claim).Sublist (r.counted crypto disk claim) := by
  have hagain : r.counted crypto disk' claim =
      (r.counted crypto disk claim).filter (counts crypto disk' claim) := by
    rw [Registry.counted, Registry.counted, List.filter_filter]
    refine List.filter_congr fun x hx => ?_
    rw [Registry.evidenceOf, orderBy, List.mem_mergeSort] at hx
    have hcounts := counts_of_lost h hlost claim (List.mem_of_mem_filter hx)
    cases hafter : counts crypto disk' claim x with
    | false => rfl
    | true => rw [hcounts hafter]; rfl
  rw [hagain]
  exact List.filter_sublist

/-! ## Levels -/

def rank : EvidenceLevel → Nat
  | .proposed => 0
  | .observed => 1
  | .tested => 2
  | .replicated => 3

theorem independenceKeys_length {es es' : List ClaimEvidence} (h : es ⊆ es') :
    (independenceKeys es).length ≤ (independenceKeys es').length := by
  have hpassing : passing es ⊆ passing es' := List.filter_subset _ h
  refine List.Nodup.length_le_of_subset (List.nodup_dedup _) ?_
  intro key hkey
  exact List.mem_dedup.mpr (List.filterMap_subset _ hpassing (List.mem_dedup.mp hkey))

/-- What brings evidence to a level. -/
theorem rank_levelOf (es : List ClaimEvidence) :
    (2 ≤ (independenceKeys es).length → rank (levelOf es) = 3) ∧
    ((passing es).isEmpty = false → 2 ≤ rank (levelOf es)) ∧
    (es.any (·.kind == .sourceObservation) = true → 1 ≤ rank (levelOf es)) := by
  unfold levelOf
  by_cases htwo : 2 ≤ (independenceKeys es).length
  · simp [htwo, rank]
  · by_cases hpassing : (passing es).isEmpty = false
    · simp [htwo, hpassing, rank]
    · by_cases hany : es.any (·.kind == .sourceObservation) = true
      · simp [htwo, hpassing, hany, rank]
      · exact ⟨fun h => absurd h htwo, fun h => absurd h hpassing, fun h => absurd h hany⟩

/-- More evidence has at least the level of less. -/
theorem levelOf_mono {es es' : List ClaimEvidence} (h : es ⊆ es') :
    rank (levelOf es) ≤ rank (levelOf es') := by
  obtain ⟨htwo, hone, hobserved⟩ := rank_levelOf es'
  have hkeys := independenceKeys_length h
  have hpassing : passing es ⊆ passing es' := List.filter_subset _ h
  conv_lhs => unfold levelOf
  split
  · rw [htwo (by omega)]
    decide
  · split
    · rename_i hsome
      refine hone ?_
      rw [List.isEmpty_eq_false_iff] at hsome ⊢
      exact fun hnil => hsome (List.subset_nil.mp (hnil ▸ hpassing))
    · split
      · rename_i hany
        obtain ⟨e, he, hkind⟩ := List.any_eq_true.mp hany
        exact hobserved (List.any_eq_true.mpr ⟨e, h he, hkind⟩)
      · exact Nat.zero_le _

/-! ## Better assessments -/

/-- The second assessment of a claim is no better than the first. -/
structure NoBetter (a a' : ClaimAssessment) : Prop where
  level : rank a'.evidenceLevel ≤ rank a.evidenceLevel
  authentication : a'.authentication = .authenticated → a.authentication = .authenticated
  disposition : a.disposition = .rejected → a'.disposition ≠ .active

/-- A valid envelope of the claim was made for exactly this evidence. -/
def SignedFor (crypto : Crypto) (keys : AuthenticationKeys) (r : Registry) (claimId : String)
    (es : List ClaimEvidence) : Prop :=
  ∃ e ∈ r.envelopes, e.maturity.claim.claimId = claimId ∧
    e.maturity.eligibleIds = es.map (·.evidenceId) ∧ e.valid crypto keys = true

/-- The claim is superseded; or all counter-evidence was not lost, where there
was some, and what is left is not what an old envelope was made for, where what
there was before is not. -/
def Harmless (crypto : Crypto) (keys : AuthenticationKeys) (r : Registry) (claimId : String)
    (before after : List ClaimEvidence) : Prop :=
  r.replacement? claimId ≠ none ∨
    ((before.any counters = true → after.any counters = true) ∧
      (SignedFor crypto keys r claimId after → SignedFor crypto keys r claimId before))

theorem dispositionOf_rejected {superseded : Bool} {es : List ClaimEvidence} :
    dispositionOf superseded es = .rejected ↔ superseded = false ∧ es.any counters = true := by
  unfold dispositionOf
  cases superseded <;> cases es.any counters <;> simp

/-- **A loss helps a claim** exactly when it takes all its counter-evidence or
brings it back to an old envelope. In every reachable state, after every loss
of artifacts, the assessment of a claim is no better than before exactly when
the loss was harmless. -/
theorem loss_helps_iff (h : Reachable crypto t) (hlost : Lost crypto disk disk' t) :
    ∃ r, Represents crypto r t ∧ ∀ keys claimId a a', assess crypto keys disk t claimId = .ok a →
      assess crypto keys disk' t claimId = .ok a' →
      ∃ claim, r.claim? claimId = some claim ∧
        (NoBetter a a' ↔ Harmless crypto keys r claimId (r.counted crypto disk claim)
          (r.counted crypto disk' claim)) := by
  obtain ⟨r, hrep, hs⟩ := h.recorded
  refine ⟨r, hrep, fun keys claimId a a' ha ha' => ?_⟩
  obtain ⟨claim, hclaim⟩ := assess_claim hrep ha
  refine ⟨claim, hclaim, ?_⟩
  obtain ⟨b, hb, hlevel, hdisposition, hiff⟩ := assess_authenticated_iff hrep hs hclaim keys disk
  obtain rfl : a = b := Except.ok.inj (ha.symm.trans hb)
  obtain ⟨b', hb', hlevel', hdisposition', hiff'⟩ := assess_authenticated_iff hrep hs hclaim keys disk'
  obtain rfl : a' = b' := Except.ok.inj (ha'.symm.trans hb')
  have hsub := counted_sublist_of_lost hrep hlost claim
  have hmono : rank a'.evidenceLevel ≤ rank a.evidenceLevel := by
    rw [hlevel, hlevel']
    exact levelOf_mono hsub.subset
  cases hreplacement : r.replacement? claimId with
  | some replacement =>
    have hnot : r.replacement? claimId ≠ none := by simp [hreplacement]
    constructor
    · intro _
      exact Or.inl hnot
    · intro _
      refine ⟨hmono, fun hauthenticated => absurd (hiff'.mp hauthenticated).1 hnot, fun _ hactive => ?_⟩
      have hfalse := (dispositionOf_active.mp (hdisposition'.symm.trans hactive)).1
      simp [hreplacement] at hfalse
  | none =>
    rw [hreplacement] at hdisposition hdisposition'
    have hauthenticated : a.authentication = .authenticated ↔
        SignedFor crypto keys r claimId (r.counted crypto disk claim) :=
      hiff.trans ⟨fun hboth => hboth.2, fun hsigned => ⟨hreplacement, hsigned⟩⟩
    have hauthenticated' : a'.authentication = .authenticated ↔
        SignedFor crypto keys r claimId (r.counted crypto disk' claim) :=
      hiff'.trans ⟨fun hboth => hboth.2, fun hsigned => ⟨hreplacement, hsigned⟩⟩
    have hrejected : a.disposition = .rejected ↔ (r.counted crypto disk claim).any counters = true := by
      rw [hdisposition, dispositionOf_rejected]
      simp
    have hactive' : a'.disposition = .active ↔
        (r.counted crypto disk' claim).any counters = false := by
      rw [hdisposition', dispositionOf_active]
      simp
    constructor
    · intro hno
      refine Or.inr ⟨fun hcounter => ?_, fun hsigned =>
        hauthenticated.mp (hno.authentication (hauthenticated'.mpr hsigned))⟩
      have hnot := hno.disposition (hrejected.mpr hcounter)
      rw [Ne, hactive', Bool.not_eq_false] at hnot
      exact hnot
    · intro hharmless
      obtain ⟨hcounter, hsigned⟩ := hharmless.resolve_left (fun hne => hne hreplacement)
      refine ⟨hmono, fun hnow => hauthenticated.mpr (hsigned (hauthenticated'.mp hnow)), fun hwas => ?_⟩
      rw [Ne, hactive', hcounter (hrejected.mp hwas)]
      simp

/-! ## A sample loss -/

def counter : ClaimEvidence := evidenceFor "E1" .counterevidence .failed 2 "lab"

/-- A claim with counter-evidence. -/
def rejected : Tables :=
  runCalls marking keyring shelf [.propose (statement "A"), .appendEvidence counter] {}

theorem rejected_ready : Ready ["A"] shelf ⟨[statement "A"], [counter], [], []⟩ rejected 2 := by
  have hA : validateClaim (statement "A") = .ok (statement "A") := validateClaim_statement rfl
  have hvalid : validateEvidence marking shelf counter = .ok { counter with artifactPath := "report" } :=
    validateEvidence_evidenceFor rfl rfl
  have hstored : Registry.claim? ⟨[statement "A"], [], [], []⟩ "A" = some (statement "A") := rfl
  have h₁ := propose_ready (ready_empty ["A"] shelf) distinct_name (by omega) keyring hA rfl
    (by simp [statement])
  have h₂ := appendEvidence_ready h₁ distinct_name (by omega) keyring hvalid rfl hstored
    (by simp [counter, evidenceFor])
  rw [rejected, runCalls_cons, runCalls_cons, runCalls_nil]
  exact h₂

theorem rejected_run : Run marking shelf rejected := by
  rw [rejected]
  exact (Run.empty shelf).calls keyring _

theorem counted_rejected (disk : Disk) :
    Registry.counted ⟨[statement "A"], [counter], [], []⟩ marking disk (statement "A") =
      [counter].filter (counts marking disk (statement "A")) :=
  counted_of_sorted (by simp [counter, evidenceFor, statement]) (by simp)

/-- The claim is rejected as long as its counter-evidence has an artifact. -/
theorem rejected_assessed : ∃ a a', assess marking keyring shelf rejected "A" = .ok a ∧
    a.disposition = .rejected ∧ assess marking keyring emptyDisk rejected "A" = .ok a' ∧
    a'.disposition = .active := by
  have hready := rejected_ready
  have hclaim : Registry.claim? ⟨[statement "A"], [counter], [], []⟩ "A" = some (statement "A") := rfl
  obtain ⟨a, ha, -, hdisposition, -⟩ :=
    assess_authenticated_iff hready.represents hready.recorded hclaim keyring shelf
  obtain ⟨a', ha', -, hdisposition', -⟩ :=
    assess_authenticated_iff hready.represents hready.recorded hclaim keyring emptyDisk
  have hcounts : counts marking shelf (statement "A") counter = true := by
    rw [counter, counts_sample]
    rfl
  have hgone : counts marking emptyDisk (statement "A") counter = false := by
    simp [counts, stands, emptyDisk]
  refine ⟨a, a', ha, ?_, ha', ?_⟩
  · rw [hdisposition, counted_rejected, List.filter_cons_of_pos hcounts]
    rfl
  · rw [hdisposition', counted_rejected, List.filter_cons_of_neg (by simp [hgone])]
    rfl

/-- All artifacts are deleted: the two assessments, and what the theorem says of
them. The loss was not harmless. -/
theorem loss_helps_iff_allDeleted : ∃ r a a' claim, Represents marking r rejected ∧
    assess marking keyring shelf rejected "A" = .ok a ∧
    assess marking keyring emptyDisk rejected "A" = .ok a' ∧ r.claim? "A" = some claim ∧
    (NoBetter a a' ↔ Harmless marking keyring r "A" (r.counted marking shelf claim)
      (r.counted marking emptyDisk claim)) ∧ ¬NoBetter a a' := by
  obtain ⟨a, a', ha, hrejected, ha', hactive⟩ := rejected_assessed
  obtain ⟨r, hrep, hiff⟩ :=
    loss_helps_iff (run_reachable rejected_run) (lost_of_run rejected_run emptyDisk)
  obtain ⟨claim, hclaim, hboth⟩ := hiff keyring "A" a a' ha ha'
  exact ⟨r, a, a', claim, hrep, ha, ha', hclaim, hboth, fun h => h.disposition hrejected hactive⟩

/-- **The artifact of the counter-evidence is deleted**, and the claim is
active again. -/
theorem counterevidence_lost : Run marking shelf rejected ∧
    Lost marking shelf emptyDisk rejected ∧
    ∃ a a', assess marking keyring shelf rejected "A" = .ok a ∧ a.disposition = .rejected ∧
      assess marking keyring emptyDisk rejected "A" = .ok a' ∧ a'.disposition = .active :=
  ⟨rejected_run, lost_of_run rejected_run emptyDisk, rejected_assessed⟩

end RlmGraph.Claims.Loss
