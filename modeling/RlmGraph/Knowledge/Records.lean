import Mathlib.Data.Rat.Defs
import RlmGraph.Lib.Rows

/-! # Claims

What the graph store keeps of a claim: what it asserts of a project, the tasks,
claims and source files it comes from, and whether it still stands. Confidences
are rational numbers. -/
namespace RlmGraph.Knowledge.Records

open RlmGraph.Lib.Rows

inductive ClaimValidity where
  | current | superseded | invalidated
  deriving DecidableEq

inductive MemoryTier where
  | working | episodic | semantic | procedural
  deriving DecidableEq

inductive MemoryLifecycle where
  | active | promoted | rejected | invalidated
  deriving DecidableEq

structure Assertion where
  key : String
  value : String
  deriving DecidableEq

structure Evidence where
  path : String
  detail : String
  line : Option Int := none
  deriving DecidableEq

structure SourceFile where
  path : String
  contentHash : String
  deriving DecidableEq

structure ValidityEvent where
  status : ClaimValidity
  projectFingerprint : String
  reason : String
  deriving DecidableEq

structure Claim where
  id : String
  projectFingerprint : String := ""
  projectRoot : String := ""
  subject : String := ""
  resolvedClaimIds : List String := []
  confidence : ℚ
  evidence : List Evidence := []
  filesExamined : List String := []
  assertions : List Assertion := []
  sourceTaskId : Option String := none
  sourceClaimIds : List String := []
  sourceFiles : List SourceFile := []
  validFrom : Option String := none
  validUntil : Option String := none
  validityStatus : ClaimValidity := .current
  validityReason : String := "Claim has not yet been checked against repository evidence."
  validityHistory : List ValidityEvent := []
  supersededByClaimId : Option String := none
  memoryTier : MemoryTier := .working
  memoryLifecycle : MemoryLifecycle := .active
  promotedToClaimId : Option String := none
  deriving DecidableEq

/-- An optional text, as a condition: empty is absent. -/
def given (text : Option String) : Bool := decide (text.getD "" ≠ "")

/-- Memory that is derived from other claims. -/
def Claim.isDerived (claim : Claim) : Bool :=
  claim.memoryTier == .semantic || claim.memoryTier == .procedural

/-- The table of claims, in the order in which `claims()` returns them. -/
structure ClaimTable where
  rows : List Claim
  ids : (rows.map (·.id)).Nodup

/-- `store.update_claim`: the row with the id is rewritten. -/
def updateClaim (claims : List Claim) (claim : Claim) : List Claim :=
  claims.map fun row => if row.id = claim.id then claim else row

/-- `store.get_claim`. -/
def getClaim (claims : List Claim) (id : String) : Option Claim := claims.find? (·.id == id)

@[simp] theorem updateClaim_ids (claims : List Claim) (claim : Claim) :
    (updateClaim claims claim).map (·.id) = claims.map (·.id) := by
  rw [updateClaim, List.map_map]
  refine List.map_congr_left fun row _ => ?_
  by_cases h : row.id = claim.id <;> simp [h]

theorem mem_updateClaim {claims : List Claim} {claim row : Claim} :
    row ∈ updateClaim claims claim ↔
      (row ∈ claims ∧ row.id ≠ claim.id) ∨ (row = claim ∧ claim.id ∈ claims.map (·.id)) := by
  simp only [updateClaim, List.mem_map]
  constructor
  · rintro ⟨old, hold, rfl⟩
    by_cases h : old.id = claim.id
    · exact Or.inr ⟨if_pos h, old, hold, h⟩
    · rw [if_neg h]
      exact Or.inl ⟨hold, h⟩
  · rintro (⟨hrow, hne⟩ | ⟨rfl, old, hold, h⟩)
    · exact ⟨row, hrow, if_neg hne⟩
    · exact ⟨old, hold, if_pos h⟩

theorem getClaim_some {claims : List Claim} {id : String} {claim : Claim}
    (h : getClaim claims id = some claim) : claim ∈ claims ∧ claim.id = id :=
  ⟨List.mem_of_find?_eq_some h, by simpa using List.find?_some h⟩

theorem getClaim_of_mem {claims : List Claim} {claim : Claim}
    (hids : (claims.map (·.id)).Nodup) (h : claim ∈ claims) :
    getClaim claims claim.id = some claim :=
  find?_of_mem hids h

theorem eq_of_id {claims : List Claim} (hids : (claims.map (·.id)).Nodup) {a b : Claim}
    (ha : a ∈ claims) (hb : b ∈ claims) (h : a.id = b.id) : a = b :=
  Option.some.inj
    ((getClaim_of_mem hids ha).symm.trans ((congrArg (getClaim claims) h).trans
      (getClaim_of_mem hids hb)))

end RlmGraph.Knowledge.Records
