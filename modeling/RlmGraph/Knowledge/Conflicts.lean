import RlmGraph.Knowledge.Records
import RlmGraph.Lib.PyText

/-! # Conflicts between claims

Assertions are compared by their normalized keys and values. The assertions of
the new claim are looked up in an index that keeps the last one of each key, so
an earlier value of that key is not compared: two claims are told apart the same
way in both directions if and only if no such value is overruled
(`detects_iff`). -/
namespace RlmGraph.Knowledge.Conflicts
open RlmGraph.Lib.PyText RlmGraph.Lib.Rows RlmGraph.Knowledge.Records

structure ClaimConflict where
  leftClaimId : String
  rightClaimId : String
  assertionKey : String
  leftValue : String
  rightValue : String
  deriving DecidableEq

/-- `[a-z0-9_]`. -/
def isPlainChar (c : Char) : Bool :=
  ('a' ≤ c && c ≤ 'z') || ('0' ≤ c && c ≤ '9') || c == '_'

def normalizeAssertion (tables : CaseTables) (text : String) : String :=
  " ".intercalate ((((lower tables text).toList.splitOnP (!isPlainChar ·)).filter (· ≠ [])).map
    String.ofList)

/-- The index of the assertions by their normalized keys. -/
def newAssertions (tables : CaseTables) (assertions : List Assertion) : List (String × Assertion) :=
  indexBy (normalizeAssertion tables ·.key) assertions

/-- One assertion of an existing claim. -/
def compareAssertion (tables : CaseTables) (index : List (String × Assertion))
    (newClaim existing : Claim) (assertion : Assertion) : Option ClaimConflict :=
  match index.find? (·.1 == normalizeAssertion tables assertion.key) with
  | none => none
  | some (_, candidate) =>
    if normalizeAssertion tables assertion.value = normalizeAssertion tables candidate.value then none
    else some {
      leftClaimId := existing.id
      rightClaimId := newClaim.id
      assertionKey := candidate.key
      leftValue := assertion.value
      rightValue := candidate.value }

def detectConflicts (tables : CaseTables) (newClaim : Claim) (existingClaims : List Claim) :
    List ClaimConflict :=
  let index := newAssertions tables newClaim.assertions
  existingClaims.flatMap fun existing =>
    if existing.id = newClaim.id then []
    else existing.assertions.filterMap (compareAssertion tables index newClaim existing)

/-! ## What is reported -/

section
variable {tables : CaseTables} {left right newClaim existing : Claim} {key : String}

/-- The assertions of a claim that have the key. -/
def onKey (tables : CaseTables) (key : String) (claim : Claim) : List Assertion :=
  claim.assertions.filter fun assertion => normalizeAssertion tables assertion.key == key

theorem mem_onKey {claim : Claim} {assertion : Assertion} : assertion ∈ onKey tables key claim ↔
    assertion ∈ claim.assertions ∧ normalizeAssertion tables assertion.key = key := by
  simp [onKey]

/-- The index keeps the last assertion of a key. -/
theorem find?_newAssertions (claim : Claim) :
    (newAssertions tables claim.assertions).find? (·.1 == key) =
      (onKey tables key claim).getLast?.map (key, ·) :=
  find?_indexBy

/-- The keys that are reported, normalized. -/
def conflictKeys (tables : CaseTables) (newClaim : Claim) (existingClaims : List Claim) : List String :=
  (detectConflicts tables newClaim existingClaims).map fun conflict =>
    normalizeAssertion tables conflict.assertionKey

/-- A key is reported if an assertion of the existing claim differs from the last
one of the new claim. -/
theorem mem_conflictKeys (hid : existing.id ≠ newClaim.id) :
    key ∈ conflictKeys tables newClaim [existing] ↔
      ∃ last, (onKey tables key newClaim).getLast? = some last ∧
        ∃ assertion ∈ onKey tables key existing,
          normalizeAssertion tables assertion.value ≠ normalizeAssertion tables last.value := by
  simp only [conflictKeys, detectConflicts, List.flatMap_cons, List.flatMap_nil, List.append_nil,
    if_neg hid, List.mem_map, List.mem_filterMap]
  constructor
  · rintro ⟨conflict, ⟨assertion, hassertion, hcompare⟩, hkey⟩
    unfold compareAssertion at hcompare
    rw [find?_newAssertions] at hcompare
    cases hlast : (onKey tables (normalizeAssertion tables assertion.key) newClaim).getLast? with
    | none => rw [hlast] at hcompare; cases hcompare
    | some last =>
      rw [hlast] at hcompare
      dsimp only [Option.map_some] at hcompare
      split at hcompare
      · cases hcompare
      · next hvalue =>
        cases hcompare
        have hsame := (mem_onKey.mp (List.mem_of_getLast? hlast)).2
        have hown : normalizeAssertion tables assertion.key = key := hsame.symm.trans hkey
        subst hown
        exact ⟨last, hlast, assertion, mem_onKey.mpr ⟨hassertion, rfl⟩, hvalue⟩
  · rintro ⟨last, hlast, assertion, hassertion, hvalue⟩
    obtain ⟨hown, rfl⟩ := mem_onKey.mp hassertion
    have hsame := (mem_onKey.mp (List.mem_of_getLast? hlast)).2
    refine ⟨⟨existing.id, newClaim.id, last.key, assertion.value, last.value⟩,
      ⟨assertion, hown, ?_⟩, hsame⟩
    unfold compareAssertion
    rw [find?_newAssertions, hlast]
    exact if_neg hvalue

/-- Some assertions of the two claims have the key, and different values. -/
def Conflicting (tables : CaseTables) (left right : Claim) (key : String) : Prop :=
  ∃ a ∈ onKey tables key left, ∃ b ∈ onKey tables key right,
    normalizeAssertion tables a.value ≠ normalizeAssertion tables b.value

/-- The left claim asserts several values of the key, and the last of them is the
only one the right claim asserts. -/
def Overruled (tables : CaseTables) (left right : Claim) (key : String) : Prop :=
  ∃ last, (onKey tables key left).getLast? = some last ∧
    (∃ a ∈ onKey tables key left,
      normalizeAssertion tables a.value ≠ normalizeAssertion tables last.value) ∧
    onKey tables key right ≠ [] ∧
    ∀ b ∈ onKey tables key right,
      normalizeAssertion tables b.value = normalizeAssertion tables last.value

theorem Conflicting.symm (h : Conflicting tables left right key) : Conflicting tables right left key := by
  obtain ⟨a, ha, b, hb, hvalue⟩ := h
  exact ⟨b, hb, a, ha, hvalue.symm⟩

theorem conflicting_of_mem (hid : existing.id ≠ newClaim.id)
    (h : key ∈ conflictKeys tables newClaim [existing]) : Conflicting tables newClaim existing key := by
  obtain ⟨last, hlast, assertion, hassertion, hvalue⟩ := (mem_conflictKeys hid).mp h
  exact ⟨last, List.mem_of_getLast? hlast, assertion, hassertion, hvalue.symm⟩

/-- A conflict is not reported if its value of the new claim is overruled. -/
theorem overruled_of_not_mem (hid : existing.id ≠ newClaim.id)
    (h : Conflicting tables newClaim existing key)
    (hnot : key ∉ conflictKeys tables newClaim [existing]) : Overruled tables newClaim existing key := by
  obtain ⟨a, ha, b, hb, hvalue⟩ := h
  rw [mem_conflictKeys hid] at hnot
  push Not at hnot
  cases hlast : (onKey tables key newClaim).getLast? with
  | none =>
    rw [List.getLast?_eq_none_iff.mp hlast] at ha
    cases ha
  | some last =>
    have hall := hnot last hlast
    refine ⟨last, hlast, ⟨a, ha, fun heq => hvalue (heq.trans (hall b hb).symm)⟩, ?_, hall⟩
    exact List.ne_nil_of_mem hb

/-- It is reported the other way round, and not this way. -/
theorem Overruled.one_way (hid : left.id ≠ right.id) (h : Overruled tables left right key) :
    key ∉ conflictKeys tables left [right] ∧ key ∈ conflictKeys tables right [left] := by
  obtain ⟨last, hlast, ⟨a, ha, hvalue⟩, hsome, hall⟩ := h
  refine ⟨fun hmem => ?_, ?_⟩
  · obtain ⟨last', hlast', b, hb, hdiffers⟩ := (mem_conflictKeys hid.symm).mp hmem
    obtain rfl := Option.some.inj (hlast.symm.trans hlast')
    exact hdiffers (hall b hb)
  · cases hright : (onKey tables key right).getLast? with
    | none => exact absurd (List.getLast?_eq_none_iff.mp hright) hsome
    | some b =>
      refine (mem_conflictKeys hid).mpr ⟨b, hright, a, ha, ?_⟩
      rwa [hall b (List.mem_of_getLast? hright)]

/-- Nothing of a claim with one assertion is overruled. -/
theorem not_overruled_of_single {assertion : Assertion} (h : left.assertions = [assertion]) :
    ¬Overruled tables left right key := by
  rintro ⟨last, hlast, ⟨a, ha, hvalue⟩, -⟩
  have hfirst := (mem_onKey.mp ha).1
  have hsecond := (mem_onKey.mp (List.mem_of_getLast? hlast)).1
  rw [h, List.mem_singleton] at hfirst hsecond
  exact hvalue (by rw [hfirst, hsecond])

/-- Two claims are reported if they conflict, and both ways on the same keys. -/
structure Detects (tables : CaseTables) (left right : Claim) : Prop where
  complete : detectConflicts tables left [right] ≠ [] ↔ ∃ key, Conflicting tables left right key
  symmetric : ∀ key, key ∈ conflictKeys tables left [right] ↔ key ∈ conflictKeys tables right [left]

/-- **Conflicts are detected, both ways, unless a value is overruled.** -/
theorem detects_iff (tables : CaseTables) (left right : Claim) (hid : left.id ≠ right.id) :
    Detects tables left right ↔
      ∀ key, ¬Overruled tables left right key ∧ ¬Overruled tables right left key := by
  constructor
  · intro h key
    refine ⟨fun hover => ?_, fun hover => ?_⟩
    · obtain ⟨hnot, hmem⟩ := hover.one_way hid
      exact hnot ((h.symmetric key).mpr hmem)
    · obtain ⟨hnot, hmem⟩ := hover.one_way hid.symm
      exact hnot ((h.symmetric key).mp hmem)
  · intro h
    have hleft : ∀ key, key ∈ conflictKeys tables left [right] ↔ Conflicting tables left right key :=
      fun key => ⟨conflicting_of_mem hid.symm, fun hconflict => by
        by_contra hnot
        exact (h key).1 (overruled_of_not_mem hid.symm hconflict hnot)⟩
    have hright : ∀ key, key ∈ conflictKeys tables right [left] ↔ Conflicting tables right left key :=
      fun key => ⟨conflicting_of_mem hid, fun hconflict => by
        by_contra hnot
        exact (h key).2 (overruled_of_not_mem hid hconflict hnot)⟩
    refine ⟨?_, fun key => ?_⟩
    · constructor
      · intro hne
        obtain ⟨conflict, hconflict⟩ := List.exists_mem_of_ne_nil _ hne
        exact ⟨_, (hleft _).mp (List.mem_map_of_mem hconflict)⟩
      · intro ⟨key, hconflict⟩
        obtain ⟨conflict, hmem, -⟩ := List.mem_map.mp ((hleft key).mpr hconflict)
        exact List.ne_nil_of_mem hmem
    · rw [hleft, hright]
      exact ⟨Conflicting.symm, Conflicting.symm⟩

end

/-! ## A value that is overruled -/

def plainTables : CaseTables := ⟨id, id, id⟩

def claimOf (id : String) (assertions : List Assertion) : Claim where
  id := id
  confidence := 9 / 10
  assertions := assertions

/-- Of claims with one assertion each nothing is overruled. -/
theorem detects_iff_single : Detects plainTables (claimOf "CLAIM-1" [⟨"retry.mode", "linear"⟩])
    (claimOf "CLAIM-2" [⟨"Retry mode", "doubling"⟩]) :=
  (detects_iff plainTables _ _ (by decide)).mpr fun _ =>
    ⟨not_overruled_of_single rfl, not_overruled_of_single rfl⟩

theorem earlier_value_hidden : ¬∀ left right : Claim, left.id ≠ right.id →
    Detects plainTables left right := by
  intro h
  have hdetects := h (claimOf "CLAIM-1" [⟨"retry.mode", "linear"⟩, ⟨"retry.mode", "doubling"⟩])
    (claimOf "CLAIM-2" [⟨"retry.mode", "doubling"⟩]) (by decide)
  have hmem := (hdetects.symmetric "retry mode").mpr (by decide +kernel)
  revert hmem
  decide +kernel

end RlmGraph.Knowledge.Conflicts
