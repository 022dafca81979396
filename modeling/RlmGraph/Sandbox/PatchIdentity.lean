import RlmGraph.Lib.Separated
import RlmGraph.Sandbox.Lifecycle

/-! # What a patch hash identifies

The text that is hashed for a patch has a row for each change: its path and its
two hashes, with a null character behind the path and the first hash, and a line
feed between the rows. A path may hold a line feed and a hash may not, so the
text is that of one list of changes (`patch_identified`). -/
namespace RlmGraph.Sandbox.PatchIdentity
open RlmGraph.Lib RlmGraph.Lib.JsonText RlmGraph.Lib.Separated
open RlmGraph.Sandbox.Records RlmGraph.Sandbox.Approval RlmGraph.Sandbox.Operations

/-- The path of a change, the hash before and the hash after. -/
abbrev PatchRow := String × String × String

def patchRow (change : PatchChange) : PatchRow := (change.path, change.beforeHash, change.afterHash)

/-- The bytes that `_patch_sha256` hashes. -/
def patchPayload (changes : List PatchChange) : Bytes :=
  utf8 ("\n".intercalate (changes.map fun item =>
    item.path ++ "\x00" ++ item.beforeHash ++ "\x00" ++ item.afterHash))

theorem patchSha256_eq (host : SandboxHost) (attempt : ImplementationSandboxAttempt) :
    patchSha256 host attempt = host.sha256 (patchPayload attempt.changes) := rfl

/-- What `hexdigest` returns: 64 lowercase hexadecimal digits. -/
def IsHexdigest (text : String) : Prop :=
  text.toList.length = 64 ∧ ∀ c ∈ text.toList, c ∈ "0123456789abcdef".toList

/-- A change whose path has no null character and whose hashes are digests. -/
structure WellFormed (change : PatchChange) : Prop where
  path : '\x00' ∉ change.path.toList
  beforeHash : IsHexdigest change.beforeHash
  afterHash : IsHexdigest change.afterHash

/-! ## Rows -/

def rowText (row : PatchRow) : List Char :=
  row.1.toList ++ '\x00' :: (row.2.1.toList ++ '\x00' :: row.2.2.toList)

/-- A row whose path and hashes have no null character, and whose hashes have no line feed. -/
structure PlainRow (row : PatchRow) : Prop where
  path : '\x00' ∉ row.1.toList
  before : '\x00' ∉ row.2.1.toList
  after : '\n' ∉ row.2.2.toList

theorem IsHexdigest.plain {text : String} (h : IsHexdigest text) :
    '\x00' ∉ text.toList ∧ '\n' ∉ text.toList :=
  ⟨fun hmem => absurd (h.2 _ hmem) (by decide), fun hmem => absurd (h.2 _ hmem) (by decide)⟩

theorem WellFormed.plain {change : PatchChange} (h : WellFormed change) : PlainRow (patchRow change) where
  path := h.path
  before := h.beforeHash.plain.1
  after := h.afterHash.plain.2

/-- The end of a row can be told: the second null character stands before the last hash,
which has no line feed. -/
theorem delimited_rows : Delimited '\n' rowText PlainRow where
  ne_nil row h := by simp [rowText] at h
  unique {row row' rest rest'} hrow hrow' hrest hrest' h := by
    simp only [rowText, List.append_assoc, List.cons_append] at h
    obtain ⟨hpath, h⟩ := eq_of_append_mark hrow.path hrow'.path h
    obtain ⟨hbefore, h⟩ := eq_of_append_mark hrow.before hrow'.before h
    obtain ⟨hafter, hrest⟩ := eq_of_append_follows hrow.after hrow'.after hrest hrest' h
    refine ⟨Prod.ext (String.toList_inj.mp hpath) (Prod.ext ?_ ?_), hrest⟩
    · exact String.toList_inj.mp hbefore
    · exact String.toList_inj.mp hafter

theorem toList_payload (changes : List PatchChange) :
    ("\n".intercalate (changes.map fun item =>
      item.path ++ "\x00" ++ item.beforeHash ++ "\x00" ++ item.afterHash)).toList =
      separated '\n' rowText (changes.map patchRow) := by
  have hrow : ∀ item : PatchChange,
      (item.path ++ "\x00" ++ item.beforeHash ++ "\x00" ++ item.afterHash).toList =
        rowText (patchRow item) := fun item => by
    simp [rowText, patchRow]
  induction changes with
  | nil => rfl
  | cons change changes ih =>
    cases changes with
    | nil => simpa [separated] using hrow change
    | cons next changes =>
      simp only [List.map_cons] at ih ⊢
      rw [String.intercalate_cons_cons, String.toList_append, String.toList_append, hrow, ih]
      simp [separated]

/-- **A patch payload is that of one list of changes, so two patches with one hash are the
same or show two texts with one digest.** -/
theorem patch_identified (host : SandboxHost) (attempt other : ImplementationSandboxAttempt)
    (hchanges : ∀ change ∈ attempt.changes, WellFormed change)
    (hothers : ∀ change ∈ other.changes, WellFormed change) :
    (patchPayload attempt.changes = patchPayload other.changes →
      attempt.changes.map patchRow = other.changes.map patchRow) ∧
    (patchSha256 host attempt = patchSha256 host other →
      attempt.changes.map patchRow = other.changes.map patchRow ∨
        patchPayload attempt.changes ≠ patchPayload other.changes ∧
          host.sha256 (patchPayload attempt.changes) = host.sha256 (patchPayload other.changes)) := by
  have hrows : patchPayload attempt.changes = patchPayload other.changes →
      attempt.changes.map patchRow = other.changes.map patchRow := fun h => by
    have htext := congrArg String.toList (utf8_inj.mp h)
    rw [toList_payload, toList_payload] at htext
    refine separated_inj delimited_rows (fun row hrow => ?_) (fun row hrow => ?_) htext
    · obtain ⟨change, hchange, rfl⟩ := List.mem_map.mp hrow
      exact (hchanges change hchange).plain
    · obtain ⟨change, hchange, rfl⟩ := List.mem_map.mp hrow
      exact (hothers change hchange).plain
  refine ⟨hrows, fun hhash => ?_⟩
  by_cases hpayload : patchPayload attempt.changes = patchPayload other.changes
  · exact .inl (hrows hpayload)
  · exact .inr ⟨hpayload, hhash⟩

/-! ## A path with a line feed -/

def sampleHash : String := String.ofList (List.replicate 64 '0')

def sampleChange (path : String) : PatchChange where
  path
  beforeHash := sampleHash
  afterHash := sampleHash

def sampleAttempt (paths : List String) : ImplementationSandboxAttempt where
  id := "ATTEMPT"
  ticketId := "TICKET"
  projectId := "PROJECT"
  projectRoot := "root"
  status := "READY_FOR_REVIEW"
  authorizedPaths := paths
  changes := paths.map sampleChange
  validations := []
  validationDecisions := []
  initialManifestSha256 := sampleHash

theorem toList_sampleHash : sampleHash.toList = List.replicate 64 '0' := String.toList_ofList

theorem isHexdigest_sampleHash : IsHexdigest sampleHash where
  left := by
    rw [toList_sampleHash]
    exact List.length_replicate
  right c hc := by
    rw [toList_sampleHash] at hc
    rw [List.eq_of_mem_replicate hc]
    decide

theorem wellFormed_sample (paths : List String) (h : ∀ path ∈ paths, '\x00' ∉ path.toList) :
    ∀ change ∈ (sampleAttempt paths).changes, WellFormed change := fun change hchange => by
  obtain ⟨path, hpath, rfl⟩ := List.mem_map.mp hchange
  exact ⟨h path hpath, isHexdigest_sampleHash, isHexdigest_sampleHash⟩

/-- One path with a line feed is not taken for two. -/
theorem patch_identified_lineFeed :
    patchPayload (sampleAttempt ["a\nb"]).changes ≠ patchPayload (sampleAttempt ["a", "b"]).changes := by
  have h := patch_identified Lifecycle.quietHost.toSandboxHost (sampleAttempt ["a\nb"])
    (sampleAttempt ["a", "b"]) (wellFormed_sample _ (by decide)) (wellFormed_sample _ (by decide))
  exact mt h.1 (by simp [sampleAttempt])

end RlmGraph.Sandbox.PatchIdentity
