import RlmGraph.Knowledge.Records

/-! # Provenance of claims

Whether a claim still stands on the indexed files, and the record that is kept
of it. -/
namespace RlmGraph.Knowledge.Provenance
open RlmGraph.Knowledge.Records

/-- `hashes.get(path)`, by the digests of the index. -/
abbrev Hashes := String → Option String

/-- `source.path` for the sources whose digest is no longer the indexed one. -/
def changedSources (claim : Claim) (hashes : Hashes) : List String :=
  (claim.sourceFiles.filter fun source => hashes source.path != some source.contentHash).map (·.path)

/-- `assess_claim_from_index`. -/
def assessClaimFromIndex (claim : Claim) (hashes : Hashes) (projectState : String) : Bool × String :=
  if claim.sourceFiles = [] then
    if claim.projectFingerprint = projectState then
      (true, "Ungrounded claim is restricted to its exact indexed project state.")
    else (false, "Ungrounded claim was learned in a different indexed project state.")
  else if changedSources claim hashes ≠ [] then
    (false, (if given claim.supersededByClaimId then
          "Superseded by " ++ claim.supersededByClaimId.getD "" ++ "; "
        else "") ++ "indexed supporting evidence changed or disappeared: " ++
      ", ".intercalate (changedSources claim hashes))
  else if given claim.supersededByClaimId then
    (true, "Historical indexed state restored; supporting evidence matches again.")
  else (true, "Every indexed supporting source still matches its learned content hash.")

/-- The status that an assessment leads to. -/
def assessedStatus (claim : Claim) (valid : Bool) : ClaimValidity :=
  if valid then .current else if given claim.supersededByClaimId then .superseded else .invalidated

/-- `record_validity`: the claim as it is recorded, if anything changes. -/
def recordValidity (claim : Claim) (valid : Bool) (projectState reason : String) : Option Claim :=
  let target := assessedStatus claim valid
  if claim.validityStatus = target ∧ claim.validityReason = reason then none
  else some { claim with
    validityStatus := target
    validityReason := reason
    validUntil := if valid then none else some projectState
    validityHistory := claim.validityHistory ++ [⟨target, projectState, reason⟩] }

variable {claim updated : Claim} {valid : Bool} {projectState reason : String}

theorem recordValidity_eq_none_iff : recordValidity claim valid projectState reason = none ↔
    claim.validityStatus = assessedStatus claim valid ∧ claim.validityReason = reason := by
  simp [recordValidity]

theorem recordValidity_id (h : recordValidity claim valid projectState reason = some updated) :
    updated.id = claim.id := by
  unfold recordValidity at h
  dsimp only at h
  split at h <;> cases h
  rfl

/-- A record that changes has a longer history. -/
theorem recordValidity_ne (h : recordValidity claim valid projectState reason = some updated) :
    updated ≠ claim := by
  unfold recordValidity at h
  dsimp only at h
  split at h <;> cases h
  intro heq
  have hhistory := congrArg (fun c : Claim => c.validityHistory.length) heq
  simp at hhistory

end RlmGraph.Knowledge.Provenance
