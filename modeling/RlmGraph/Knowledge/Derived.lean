import Mathlib.Algebra.GroupWithZero.Nat
import Mathlib.Algebra.Order.BigOperators.Group.List
import Mathlib.Algebra.Order.Group.Nat
import Mathlib.Logic.Relation
import RlmGraph.Knowledge.Records
import RlmGraph.Lib.Rounds

/-! # Derived memory follows its sources

`synchronize_dependency_validity` invalidates semantic and procedural claims
whose stored sources are no longer current, round after round until nothing
changes. What it leaves is decided by the claims it began with: a derived claim
is current afterwards unless it is stale (`Stale`), whatever the order of the
rows. -/
namespace RlmGraph.Knowledge.Derived

open RlmGraph.Lib.Rounds RlmGraph.Knowledge.Records

/-- `invalid`: the stored sources that are not current. -/
def invalid (claims : List Claim) (claim : Claim) : List Claim :=
  (claim.sourceClaimIds.filterMap (getClaim claims)).filter (·.validityStatus != .current)

def target (claim : Claim) : MemoryLifecycle :=
  if given claim.promotedToClaimId then .promoted else .active

def staleReason (invalid : List Claim) : String :=
  "Dependent memory invalidated because source claims are stale: "
    ++ ", ".intercalate (invalid.map (·.id))

/-- The body of the loop: the claim as it is written back, if it is, and
whether the round has changed something. -/
def settle (projectState : String) (claims : List Claim) (claim : Claim) : Option (Claim × Bool) :=
  if !claim.isDerived then none
  else if claim.validityStatus ≠ .current then
    if claim.memoryLifecycle ≠ .invalidated then
      some ({ claim with memoryLifecycle := .invalidated }, true)
    else none
  else if invalid claims claim ≠ [] then
    let reason := staleReason (invalid claims claim)
    some ({ claim with
      validityStatus := .invalidated
      memoryLifecycle := .invalidated
      validUntil := some projectState
      validityReason := reason
      validityHistory := claim.validityHistory ++
        [{ status := .invalidated, projectFingerprint := projectState, reason }] }, true)
  -- a lifecycle that is set right is no change
  else if claim.memoryLifecycle ≠ target claim then
    some ({ claim with memoryLifecycle := target claim }, false)
  else none

/-- The claims in memory are the rows of the store: what a visit changes is
written back at once. -/
def visit (projectState : String) (claims : List Claim) (id : String) : List Claim × Bool :=
  match getClaim claims id with
  | none => (claims, false)
  | some claim =>
    match settle projectState claims claim with
    | none => (claims, false)
    | some (claim, changed) => (updateClaim claims claim, changed)

def round (projectState : String) (claims : List Claim) : List Claim × Bool :=
  sweep (visit projectState) (claims.map (·.id)) claims

/-- `synchronize_dependency_validity`, for so many rounds. -/
def synchronizeDependencyValidity (projectState : String) (fuel : Nat) (claims : List Claim) :
    Option (List Claim) :=
  whileChanged (round projectState) fuel claims

/-! ## What depends on what -/

/-- `d` is a stored source of `c`. -/
def Source (claims : List Claim) (c d : Claim) : Prop := d ∈ claims ∧ d.id ∈ c.sourceClaimIds

/-- Not current, or derived from something stale. -/
inductive Stale (claims : List Claim) : Claim → Prop where
  | own {c} : c.validityStatus ≠ .current → Stale claims c
  | derived {c d} : c.isDerived = true → Source claims c d → Stale claims d → Stale claims c

theorem Stale.mono {claims others : List Claim} (hsub : claims ⊆ others) {c : Claim}
    (h : Stale claims c) : Stale others c := by
  induction h with
  | own hstatus => exact .own hstatus
  | derived hderived hsource _ ih => exact .derived hderived ⟨hsub hsource.1, hsource.2⟩ ih

/-- What is stale and current depends on a claim that is not current. -/
theorem Stale.depends {claims : List Claim} {c : Claim} (h : Stale claims c) :
    c.validityStatus = .current →
      ∃ d, Relation.TransGen (Source claims) c d ∧ d.validityStatus ≠ .current := by
  induction h with
  | own hstatus => exact fun hcurrent => absurd hcurrent hstatus
  | @derived c d _ hsource _ ih =>
    intro _
    by_cases hd : d.validityStatus = .current
    · obtain ⟨e, hdepends, he⟩ := ih hd
      exact ⟨e, .head hsource hdepends, he⟩
    · exact ⟨d, .single hsource, hd⟩

/-- Every stored source is current. -/
def Grounded (claims : List Claim) (c : Claim) : Prop :=
  ∀ d, Source claims c d → d.validityStatus = .current

theorem invalid_eq_nil_iff {claims : List Claim} (hids : (claims.map (·.id)).Nodup) {c : Claim} :
    invalid claims c = [] ↔ Grounded claims c := by
  simp only [invalid, List.filter_eq_nil_iff, List.mem_filterMap, bne_iff_ne, not_not]
  constructor
  · rintro h d ⟨hd, hsource⟩
    exact h d ⟨d.id, hsource, getClaim_of_mem hids hd⟩
  · rintro h d ⟨id, hsource, hget⟩
    obtain ⟨hd, rfl⟩ := getClaim_some hget
    exact h d ⟨hd, hsource⟩

theorem exists_of_not_grounded {claims : List Claim} {c : Claim} (h : ¬ Grounded claims c) :
    ∃ d, Source claims c d ∧ d.validityStatus ≠ .current := by
  by_contra hnone
  exact h fun d hsource => by_contra fun hd => hnone ⟨d, hsource, hd⟩

/-! ## One visit -/

section
variable {projectState : String} {claims : List Claim} {claim written : Claim} {changed : Bool}

/-- What the body of the loop can do to a claim. -/
theorem settle_cases (h : settle projectState claims claim = some (written, changed)) :
    claim.isDerived = true ∧
      ((changed = true ∧ claim.validityStatus ≠ .current ∧ claim.memoryLifecycle ≠ .invalidated ∧
          written = { claim with memoryLifecycle := .invalidated }) ∨
        (changed = true ∧ claim.validityStatus = .current ∧ invalid claims claim ≠ [] ∧
          written = { claim with
            validityStatus := .invalidated
            memoryLifecycle := .invalidated
            validUntil := some projectState
            validityReason := staleReason (invalid claims claim)
            validityHistory := claim.validityHistory ++
              [{ status := .invalidated, projectFingerprint := projectState,
                 reason := staleReason (invalid claims claim) }] }) ∨
        (changed = false ∧ claim.validityStatus = .current ∧ invalid claims claim = [] ∧
          written = { claim with memoryLifecycle := target claim })) := by
  unfold settle at h
  split at h
  · cases h
  · rename_i hderived
    refine ⟨by simpa using hderived, ?_⟩
    split at h
    · rename_i hstatus
      split at h
      · rename_i hlifecycle
        cases h
        exact Or.inl ⟨rfl, hstatus, hlifecycle, rfl⟩
      · cases h
    · rename_i hstatus
      have hcurrent : claim.validityStatus = .current := not_not.mp hstatus
      split at h
      · rename_i hinvalid
        cases h
        exact Or.inr (Or.inl ⟨rfl, hcurrent, hinvalid, rfl⟩)
      · rename_i hinvalid
        split at h
        · cases h
          exact Or.inr (Or.inr ⟨rfl, hcurrent, not_not.mp hinvalid, rfl⟩)
        · cases h

/-- A derived claim that nothing is done to is as the end wants it. -/
theorem settle_none (h : settle projectState claims claim = none)
    (hderived : claim.isDerived = true) :
    (claim.validityStatus ≠ .current ∧ claim.memoryLifecycle = .invalidated) ∨
      (claim.validityStatus = .current ∧ invalid claims claim = [] ∧
        claim.memoryLifecycle = target claim) := by
  unfold settle at h
  rw [if_neg (by simpa using hderived)] at h
  split at h
  · rename_i hstatus
    split at h
    · cases h
    · rename_i hlifecycle
      exact Or.inl ⟨hstatus, not_not.mp hlifecycle⟩
  · rename_i hstatus
    split at h
    · cases h
    · rename_i hinvalid
      split at h
      · cases h
      · rename_i hlifecycle
        exact Or.inr ⟨not_not.mp hstatus, not_not.mp hinvalid, not_not.mp hlifecycle⟩

theorem settle_id (h : settle projectState claims claim = some (written, changed)) :
    written.id = claim.id := by
  obtain ⟨-, ⟨-, -, -, rfl⟩ | ⟨-, -, -, rfl⟩ | ⟨-, -, -, rfl⟩⟩ := settle_cases h <;> rfl

/-- A visit leaves the claims as they are or writes one of them back. -/
theorem visit_cases (projectState : String) (claims : List Claim) (id : String) :
    (visit projectState claims id = (claims, false) ∧
        ∀ claim, getClaim claims id = some claim → settle projectState claims claim = none) ∨
      ∃ claim written changed, getClaim claims id = some claim ∧
        settle projectState claims claim = some (written, changed) ∧
        visit projectState claims id = (updateClaim claims written, changed) := by
  unfold visit
  cases hget : getClaim claims id with
  | none => exact Or.inl ⟨rfl, fun claim h => by cases h⟩
  | some claim =>
    cases hsettle : settle projectState claims claim with
    | none =>
      refine Or.inl ⟨by simp [hsettle], fun other h => ?_⟩
      rw [← Option.some.inj h, hsettle]
    | some result =>
      obtain ⟨written, changed⟩ := result
      exact Or.inr ⟨claim, written, changed, rfl, hsettle, by simp [hsettle]⟩

end

/-! ## The rounds -/

/-- What the visits make of a claim: the standing of derived memory changes,
and a current claim loses its validity where it is stale. -/
structure Carried (before : List Claim) (c c' : Claim) : Prop where
  sources : c'.sourceClaimIds = c.sourceClaimIds
  derived : c'.isDerived = c.isDerived
  promoted : c'.promotedToClaimId = c.promotedToClaimId
  status : c'.validityStatus = c.validityStatus ∨
    (c.isDerived = true ∧ c.validityStatus = .current ∧ c'.validityStatus = .invalidated ∧
      Stale before c)
  others : c.isDerived = false → c' = c

theorem Carried.refl (before : List Claim) (c : Claim) : Carried before c c :=
  ⟨rfl, rfl, rfl, Or.inl rfl, fun _ => rfl⟩

theorem Carried.stale {before : List Claim} {c c' : Claim} (h : Carried before c c')
    (hstatus : c'.validityStatus ≠ .current) : Stale before c := by
  rcases h.status with hsame | ⟨-, -, -, hstale⟩
  · exact .own (hsame ▸ hstatus)
  · exact hstale

/-- The claims so far, row by row what the visits made of the claims before. -/
structure Reached (before claims : List Claim) : Prop where
  ids : claims.map (·.id) = before.map (·.id)
  carried : ∀ c ∈ before, ∀ c' ∈ claims, c'.id = c.id → Carried before c c'

section
variable {before claims : List Claim} {projectState : String}

theorem Reached.origin (h : Reached before claims) {c' : Claim} (hc : c' ∈ claims) :
    ∃ c ∈ before, c'.id = c.id ∧ Carried before c c' := by
  have hid : c'.id ∈ before.map (·.id) := h.ids ▸ List.mem_map_of_mem hc
  obtain ⟨c, hbefore, heq⟩ := List.mem_map.mp hid
  exact ⟨c, hbefore, heq.symm, h.carried c hbefore c' hc heq.symm⟩

theorem Reached.image (h : Reached before claims) {c : Claim} (hc : c ∈ before) :
    ∃ c' ∈ claims, c'.id = c.id ∧ Carried before c c' := by
  have hid : c.id ∈ claims.map (·.id) := h.ids.symm ▸ List.mem_map_of_mem hc
  obtain ⟨c', hclaims, heq⟩ := List.mem_map.mp hid
  exact ⟨c', hclaims, heq, h.carried c hc c' hclaims heq⟩

/-- A source that is not current now was stale before. -/
theorem Reached.stale_source (h : Reached before claims) {c c' d' : Claim}
    (hcarried : Carried before c c') (hderived : c.isDerived = true)
    (hsource : Source claims c' d') (hd : d'.validityStatus ≠ .current) : Stale before c := by
  obtain ⟨d, hbefore, hid, hd'⟩ := h.origin hsource.1
  refine .derived hderived ⟨hbefore, ?_⟩ (hd'.stale hd)
  rw [← hid, ← hcarried.sources]
  exact hsource.2

theorem carried_settle (hids : (claims.map (·.id)).Nodup) (h : Reached before claims)
    {c claim written : Claim} {changed : Bool} (hcarried : Carried before c claim)
    (hsettle : settle projectState claims claim = some (written, changed)) :
    Carried before c written := by
  obtain ⟨hderived, hcases⟩ := settle_cases hsettle
  have hc : c.isDerived = true := hcarried.derived ▸ hderived
  have hothers : c.isDerived = false → written = c := fun hn => by rw [hc] at hn; cases hn
  obtain ⟨-, -, -, rfl⟩ | ⟨-, hcurrent, hinvalid, rfl⟩ | ⟨-, -, -, rfl⟩ := hcases
  · exact ⟨hcarried.sources, hcarried.derived, hcarried.promoted, hcarried.status, hothers⟩
  · refine ⟨hcarried.sources, hcarried.derived, hcarried.promoted, Or.inr ⟨hc, ?_, rfl, ?_⟩, hothers⟩
    · rcases hcarried.status with hsame | ⟨-, hwas, -, -⟩
      · exact hsame ▸ hcurrent
      · exact hwas
    · obtain ⟨d, hsource, hd⟩ :=
        exists_of_not_grounded (mt (invalid_eq_nil_iff hids).mpr hinvalid)
      exact h.stale_source hcarried hc hsource hd
  · exact ⟨hcarried.sources, hcarried.derived, hcarried.promoted, hcarried.status, hothers⟩

theorem reached_visit (hids : (before.map (·.id)).Nodup) (h : Reached before claims) (id : String) :
    Reached before (visit projectState claims id).1 := by
  have hnow : (claims.map (·.id)).Nodup := h.ids ▸ hids
  rcases visit_cases projectState claims id with
    ⟨hvisit, -⟩ | ⟨claim, written, changed, hget, hsettle, hvisit⟩
  · rw [hvisit]
    exact h
  · rw [hvisit]
    obtain ⟨hclaim, -⟩ := getClaim_some hget
    refine ⟨(updateClaim_ids claims written).trans h.ids, ?_⟩
    intro c hc c' hc' hid
    rcases mem_updateClaim.mp hc' with ⟨hold, -⟩ | ⟨rfl, -⟩
    · exact h.carried c hc c' hold hid
    · have hclaimid : claim.id = c.id := (settle_id hsettle).symm.trans hid
      exact carried_settle hnow h (h.carried c hc claim hclaim hclaimid) hsettle

/-! ## The rounds end -/

/-- How often a claim can still be changed. -/
def weight (claim : Claim) : Nat :=
  if !claim.isDerived then 0
  else if claim.validityStatus = .current then 2
  else if claim.memoryLifecycle ≠ .invalidated then 1
  else 0

def remaining (claims : List Claim) : Nat := (claims.map weight).sum

theorem weight_le (claim : Claim) : weight claim ≤ 2 := by
  unfold weight
  split_ifs <;> decide

theorem remaining_le (claims : List Claim) : remaining claims ≤ 2 * claims.length := by
  have h := List.sum_le_card_nsmul (claims.map weight) 2 (by
    intro w hw
    obtain ⟨claim, -, rfl⟩ := List.mem_map.mp hw
    exact weight_le claim)
  simpa [remaining, Nat.mul_comm] using h

theorem weight_settle {claim written : Claim} {changed : Bool}
    (h : settle projectState claims claim = some (written, changed)) :
    weight written ≤ weight claim ∧ (changed = true → weight written < weight claim) := by
  obtain ⟨hderived, hcases⟩ := settle_cases h
  obtain ⟨-, hstatus, hlifecycle, rfl⟩ | ⟨-, hcurrent, -, rfl⟩ | ⟨rfl, hcurrent, -, rfl⟩ := hcases
  · have hw : weight claim = 1 := by simp [weight, hderived, hstatus, hlifecycle]
    have hnow : weight { claim with memoryLifecycle := .invalidated } = 0 := by
      simp [weight, hstatus]
    omega
  · have hw : weight claim = 2 := by simp [weight, hderived, hcurrent]
    rw [hw]
    simp [weight]
  · have hw : weight claim = 2 := by simp [weight, hderived, hcurrent]
    rw [hw]
    exact ⟨weight_le _, fun hc => by cases hc⟩

theorem remaining_update (hids : (claims.map (·.id)).Nodup) {claim written : Claim}
    (hclaim : claim ∈ claims) (hid : written.id = claim.id) :
    (weight written ≤ weight claim → remaining (updateClaim claims written) ≤ remaining claims) ∧
      (weight written < weight claim →
        remaining (updateClaim claims written) < remaining claims) := by
  have hrow : ∀ row ∈ claims, weight written ≤ weight claim →
      weight (if row.id = written.id then written else row) ≤ weight row := by
    intro row hmem hle
    by_cases h : row.id = written.id
    · rw [if_pos h, eq_of_id hids hmem hclaim (h.trans hid)]
      exact hle
    · rw [if_neg h]
  unfold remaining updateClaim
  rw [List.map_map]
  constructor
  · intro hle
    exact List.sum_le_sum fun row hmem => hrow row hmem hle
  · intro hlt
    refine List.sum_lt_sum _ _ (fun row hmem => hrow row hmem hlt.le) ⟨claim, hclaim, ?_⟩
    simpa [hid] using hlt

theorem remaining_visit (hids : (claims.map (·.id)).Nodup) (id : String) :
    remaining (visit projectState claims id).1 ≤ remaining claims ∧
      ((visit projectState claims id).2 = true →
        remaining (visit projectState claims id).1 < remaining claims) := by
  rcases visit_cases projectState claims id with
    ⟨hvisit, -⟩ | ⟨claim, written, changed, hget, hsettle, hvisit⟩
  · rw [hvisit]
    exact ⟨Nat.le_refl _, fun h => by cases h⟩
  · rw [hvisit]
    obtain ⟨hle, hlt⟩ := weight_settle hsettle
    have hupdate := remaining_update hids (getClaim_some hget).1 (settle_id hsettle)
    exact ⟨hupdate.1 hle, fun h => hupdate.2 (hlt h)⟩

/-! ## The last round -/

/-- As the end wants a derived claim. -/
def Settled (claims : List Claim) (c : Claim) : Prop :=
  (c.validityStatus ≠ .current ∧ c.memoryLifecycle = .invalidated) ∨
    (c.validityStatus = .current ∧ Grounded claims c ∧ c.memoryLifecycle = target c)

def SettledAt (id : String) (claims : List Claim) : Prop :=
  ∀ c ∈ claims, c.id = id → c.isDerived = true → Settled claims c

/-- A claim that only gets another lifecycle is the same source as before. -/
theorem grounded_update {claim : Claim} {lifecycle : MemoryLifecycle} (hclaim : claim ∈ claims)
    {c : Claim} (h : Grounded claims c) :
    Grounded (updateClaim claims { claim with memoryLifecycle := lifecycle }) c := by
  rintro d ⟨hd, hsource⟩
  rcases mem_updateClaim.mp hd with ⟨hold, -⟩ | ⟨rfl, -⟩
  · exact h d ⟨hold, hsource⟩
  · exact h claim ⟨hclaim, hsource⟩

/-- A visit that reports no change either does nothing or sets the lifecycle of
a current claim right. -/
theorem visit_quiet {id : String} (h : (visit projectState claims id).2 = false) :
    ((visit projectState claims id).1 = claims ∧
        ∀ claim, getClaim claims id = some claim → settle projectState claims claim = none) ∨
      ∃ claim, getClaim claims id = some claim ∧ claim.isDerived = true ∧
        claim.validityStatus = .current ∧ invalid claims claim = [] ∧
        (visit projectState claims id).1 =
          updateClaim claims { claim with memoryLifecycle := target claim } := by
  rcases visit_cases projectState claims id with
    ⟨hvisit, hnone⟩ | ⟨claim, written, changed, hget, hsettle, hvisit⟩
  · exact Or.inl ⟨by rw [hvisit], hnone⟩
  · obtain ⟨hderived, hcases⟩ := settle_cases hsettle
    have hchanged : changed = false := by rwa [hvisit] at h
    obtain ⟨rfl, -⟩ | ⟨rfl, -⟩ | ⟨-, hcurrent, hinvalid, rfl⟩ := hcases
    · cases hchanged
    · cases hchanged
    · exact Or.inr ⟨claim, hget, hderived, hcurrent, hinvalid, by rw [hvisit]⟩

theorem settledAt_visit (hids : (claims.map (·.id)).Nodup) {id : String}
    (h : (visit projectState claims id).2 = false) :
    SettledAt id (visit projectState claims id).1 := by
  rcases visit_quiet h with ⟨hsame, hnone⟩ | ⟨claim, hget, -, hcurrent, hinvalid, hwrites⟩
  · rw [hsame]
    intro c hc hid hderived
    have hget : getClaim claims id = some c := hid ▸ getClaim_of_mem hids hc
    rcases settle_none (hnone c hget) hderived with hstale | ⟨hcurrent, hinvalid, hlifecycle⟩
    · exact Or.inl hstale
    · exact Or.inr ⟨hcurrent, (invalid_eq_nil_iff hids).mp hinvalid, hlifecycle⟩
  · rw [hwrites]
    obtain ⟨hclaim, rfl⟩ := getClaim_some hget
    intro c hc hid _
    rcases mem_updateClaim.mp hc with ⟨-, hne⟩ | ⟨rfl, -⟩
    · exact absurd hid hne
    · refine Or.inr ⟨hcurrent, ?_, rfl⟩
      exact grounded_update (c := { claim with memoryLifecycle := target claim }) hclaim
        ((invalid_eq_nil_iff hids).mp hinvalid)

/-- Visits without a report leave settled claims settled. -/
theorem settledAt_other (hids : (claims.map (·.id)).Nodup) {id other : String}
    (hsettled : SettledAt id claims) (h : (visit projectState claims other).2 = false) :
    SettledAt id (visit projectState claims other).1 := by
  rcases visit_quiet h with ⟨hsame, -⟩ | ⟨claim, hget, hderived, hcurrent, hinvalid, hwrites⟩
  · rwa [hsame]
  · rw [hwrites]
    obtain ⟨hclaim, rfl⟩ := getClaim_some hget
    intro c hc hid hc'
    rcases mem_updateClaim.mp hc with ⟨hold, -⟩ | ⟨rfl, -⟩
    · rcases hsettled c hold hid hc' with hstale | ⟨hnow, hgrounded, hlifecycle⟩
      · exact Or.inl hstale
      · exact Or.inr ⟨hnow, grounded_update hclaim hgrounded, hlifecycle⟩
    · refine Or.inr ⟨hcurrent, ?_, rfl⟩
      exact grounded_update (c := { claim with memoryLifecycle := target claim }) hclaim
        ((invalid_eq_nil_iff hids).mp hinvalid)

/-- The rounds come to an end. -/
theorem synchronize_returns (hids : (before.map (·.id)).Nodup) (projectState : String) :
    ∃ after, ∀ fuel, 2 * before.length < fuel →
      synchronizeDependencyValidity projectState fuel before = some after := by
  have hkeep : ∀ s k, Reached before s → Reached before (visit projectState s k).1 :=
    fun s k hs => reached_visit hids hs k
  have hstart : Reached before before :=
    ⟨rfl, fun c hc c' hc' hid => eq_of_id hids hc hc' hid.symm ▸ Carried.refl before c⟩
  obtain ⟨after, hafter⟩ := whileChanged_returns (f := round projectState)
    (P := Reached before) (μ := remaining)
    (fun s hs => sweep_keeps hkeep _ s hs)
    (fun s hs hchanged => sweep_lt (P := Reached before) hkeep
      (fun r k hr => (remaining_visit (hr.ids ▸ hids) k).1)
      (fun r k hr => (remaining_visit (hr.ids ▸ hids) k).2) _ s hs hchanged)
    hstart
  exact ⟨after, fun fuel hfuel => hafter fuel (Nat.lt_of_le_of_lt (remaining_le before) hfuel)⟩

/-- **What the rounds leave**: the rows they began with, carried along, and
every derived claim settled. -/
theorem synchronize_spec (hids : (before.map (·.id)).Nodup) {fuel : Nat} {after : List Claim}
    (h : synchronizeDependencyValidity projectState fuel before = some after) :
    Reached before after ∧ ∀ c ∈ after, c.isDerived = true → Settled after c := by
  have hkeep : ∀ s k, Reached before s → Reached before (visit projectState s k).1 :=
    fun s k hs => reached_visit hids hs k
  have hstart : Reached before before :=
    ⟨rfl, fun c hc c' hc' hid => eq_of_id hids hc hc' hid.symm ▸ Carried.refl before c⟩
  obtain ⟨last, hlast, hround⟩ := whileChanged_spec (f := round projectState)
    (P := Reached before) (fun s hs => sweep_keeps hkeep _ s hs) hstart h
  have hafter : (round projectState last).1 = after := by rw [hround]
  have hreached : Reached before (round projectState last).1 := sweep_keeps hkeep _ last hlast
  obtain ⟨-, hsettled⟩ := sweep_quiet (P := Reached before) (R := SettledAt) hkeep
    (fun s k hs hquiet => settledAt_visit (hs.ids ▸ hids) hquiet)
    (fun s k k' hs hk hquiet => settledAt_other (hs.ids ▸ hids) hk hquiet)
    (last.map (·.id)) last hlast (by
      show (round projectState last).2 = false
      rw [hround])
  rw [hafter] at hreached
  refine ⟨hreached, fun c hc hderived => ?_⟩
  have hid : c.id ∈ last.map (·.id) := by
    rw [hlast.ids, ← hreached.ids]
    exact List.mem_map_of_mem hc
  have hthere : SettledAt c.id (round projectState last).1 := hsettled c.id hid
  rw [hafter] at hthere
  exact hthere c hc rfl hderived

end

/-! ## The standing of claims afterwards -/

section
variable {before after : List Claim}

/-- **What is stale is not current afterwards**, and nothing else. -/
theorem stale_iff (hreached : Reached before after)
    (hsettled : ∀ c ∈ after, c.isDerived = true → Settled after c) {c c' : Claim}
    (hc : c ∈ before) (hc' : c' ∈ after) (hid : c'.id = c.id) :
    c'.validityStatus ≠ .current ↔ Stale before c := by
  refine ⟨(hreached.carried c hc c' hc' hid).stale, fun hstale => ?_⟩
  induction hstale generalizing c' with
  | own hstatus =>
    rcases (hreached.carried _ hc c' hc' hid).status with hsame | ⟨-, -, hnow, -⟩
    · exact hsame ▸ hstatus
    · rw [hnow]
      exact ClaimValidity.noConfusion
  | @derived c d hderived hsource _ ih =>
    obtain ⟨d', hd', hdid, -⟩ := hreached.image hsource.1
    have hd : d'.validityStatus ≠ .current := ih hsource.1 hd' hdid
    have hcarried := hreached.carried c hc c' hc' hid
    rcases hsettled c' hc' (hcarried.derived.trans hderived) with ⟨hstatus, -⟩ | ⟨-, hgrounded, -⟩
    · exact hstatus
    · refine absurd (hgrounded d' ⟨hd', ?_⟩) hd
      rw [hdid, hcarried.sources]
      exact hsource.2

/-- A claim that depends on nothing out of date keeps its validity. -/
theorem validity_kept (hreached : Reached before after) {c c' : Claim} (hc : c ∈ before)
    (hc' : c' ∈ after) (hid : c'.id = c.id)
    (hnone : ¬ ∃ d, Relation.TransGen (Source before) c d ∧ d.validityStatus ≠ .current) :
    c'.validityStatus = c.validityStatus := by
  rcases (hreached.carried c hc c' hc' hid).status with hsame | ⟨-, hcurrent, -, hstale⟩
  · exact hsame
  · exact absurd (hstale.depends hcurrent) hnone

/-- The validity and the lifecycle of the claim with an id. -/
def standing (claims : List Claim) (id : String) : Option (ClaimValidity × MemoryLifecycle) :=
  (getClaim claims id).map fun claim => (claim.validityStatus, claim.memoryLifecycle)

theorem standing_of_mem {claims : List Claim} (hids : (claims.map (·.id)).Nodup) {c : Claim}
    (hc : c ∈ claims) : standing claims c.id = some (c.validityStatus, c.memoryLifecycle) := by
  rw [standing, getClaim_of_mem hids hc]
  rfl

theorem standing_none {claims : List Claim} {id : String} (h : id ∉ claims.map (·.id)) :
    standing claims id = none := by
  have hget : getClaim claims id = none := by
    refine List.find?_eq_none.mpr fun c hc hid => h ?_
    rw [← beq_iff_eq.mp hid]
    exact List.mem_map_of_mem hc
  rw [standing, hget]
  rfl

/-- What a claim is afterwards does not depend on the order of the rows. -/
theorem same_standing {before₂ after₂ : List Claim} (hperm : before₂.Perm before)
    (hreached : Reached before after)
    (hsettled : ∀ c ∈ after, c.isDerived = true → Settled after c)
    (hreached₂ : Reached before₂ after₂)
    (hsettled₂ : ∀ c ∈ after₂, c.isDerived = true → Settled after₂ c)
    {c c₁ c₂ : Claim} (hc : c ∈ before) (hc₁ : c₁ ∈ after) (hid₁ : c₁.id = c.id)
    (hc₂ : c₂ ∈ after₂) (hid₂ : c₂.id = c.id) :
    (c₁.validityStatus, c₁.memoryLifecycle) = (c₂.validityStatus, c₂.memoryLifecycle) := by
  have hcs : c ∈ before₂ := hperm.mem_iff.mpr hc
  have hcarried₁ := hreached.carried c hc c₁ hc₁ hid₁
  have hcarried₂ := hreached₂.carried c hcs c₂ hc₂ hid₂
  have hstale : Stale before c ↔ Stale before₂ c :=
    ⟨Stale.mono hperm.symm.subset, Stale.mono hperm.subset⟩
  have hboth : c₁.validityStatus ≠ .current ↔ c₂.validityStatus ≠ .current :=
    (stale_iff hreached hsettled hc hc₁ hid₁).trans
      (hstale.trans (stale_iff hreached₂ hsettled₂ hcs hc₂ hid₂).symm)
  have hstatus : c₁.validityStatus = c₂.validityStatus := by
    rcases hcarried₁.status with hsame₁ | ⟨-, hcurrent, hnow₁, -⟩ <;>
    rcases hcarried₂.status with hsame₂ | ⟨-, hcurrent', hnow₂, -⟩
    · rw [hsame₁, hsame₂]
    · have hc₁' : c₁.validityStatus = .current := hsame₁.trans hcurrent'
      exact absurd hc₁' (hboth.mpr (by rw [hnow₂]; exact ClaimValidity.noConfusion))
    · have hc₂' : c₂.validityStatus = .current := hsame₂.trans hcurrent
      exact absurd hc₂' (hboth.mp (by rw [hnow₁]; exact ClaimValidity.noConfusion))
    · rw [hnow₁, hnow₂]
  refine Prod.ext hstatus ?_
  by_cases hderived : c.isDerived = true
  · have htarget : target c₁ = target c₂ := by
      simp only [target, hcarried₁.promoted, hcarried₂.promoted]
    rcases hsettled c₁ hc₁ (hcarried₁.derived.trans hderived) with ⟨hout₁, hl₁⟩ | ⟨hin₁, -, hl₁⟩ <;>
    rcases hsettled₂ c₂ hc₂ (hcarried₂.derived.trans hderived) with ⟨hout₂, hl₂⟩ | ⟨hin₂, -, hl₂⟩
    · exact hl₁.trans hl₂.symm
    · exact absurd hin₂ (hboth.mp hout₁)
    · exact absurd hin₁ (hboth.mpr hout₂)
    · exact hl₁.trans (htarget.trans hl₂.symm)
  · have hnot : c.isDerived = false := by simpa using hderived
    rw [hcarried₁.others hnot, hcarried₂.others hnot]

end

/-- **Derived memory follows its sources**: the rounds end; afterwards no
current derived claim has a stored source that is not current; a claim that
depends on nothing out of date keeps its validity; and the standing of every
claim is the same for every order of the rows. -/
theorem derived_memory_follows (projectState : String) (table : ClaimTable) :
    ∃ after,
      (∀ fuel, 2 * table.rows.length < fuel →
        synchronizeDependencyValidity projectState fuel table.rows = some after) ∧
      (∀ c ∈ after, c.isDerived = true → c.validityStatus = .current →
        ∀ d ∈ after, d.id ∈ c.sourceClaimIds → d.validityStatus = .current) ∧
      (∀ c ∈ table.rows,
        (¬ ∃ d, Relation.TransGen (Source table.rows) c d ∧ d.validityStatus ≠ .current) →
        ∃ c' ∈ after, c'.id = c.id ∧ c'.validityStatus = c.validityStatus) ∧
      (∀ other : ClaimTable, other.rows.Perm table.rows → ∃ after₂,
        (∀ fuel, 2 * other.rows.length < fuel →
          synchronizeDependencyValidity projectState fuel other.rows = some after₂) ∧
        ∀ id, standing after₂ id = standing after id) := by
  obtain ⟨after, hreturns⟩ := synchronize_returns table.ids projectState
  obtain ⟨hreached, hsettled⟩ := synchronize_spec table.ids (hreturns _ (Nat.lt_succ_self _))
  refine ⟨after, hreturns, ?_, ?_, ?_⟩
  · intro c hc hderived hcurrent d hd hsource
    rcases hsettled c hc hderived with ⟨hstatus, -⟩ | ⟨-, hgrounded, -⟩
    · exact absurd hcurrent hstatus
    · exact hgrounded d ⟨hd, hsource⟩
  · intro c hc hnone
    obtain ⟨c', hc', hid, -⟩ := hreached.image hc
    exact ⟨c', hc', hid, validity_kept hreached hc hc' hid hnone⟩
  · intro other hperm
    obtain ⟨after₂, hreturns₂⟩ := synchronize_returns other.ids projectState
    obtain ⟨hreached₂, hsettled₂⟩ := synchronize_spec other.ids (hreturns₂ _ (Nat.lt_succ_self _))
    refine ⟨after₂, hreturns₂, fun id => ?_⟩
    have hids : (after.map (·.id)).Nodup := hreached.ids ▸ table.ids
    have hids₂ : (after₂.map (·.id)).Nodup := hreached₂.ids ▸ other.ids
    by_cases hmem : id ∈ table.rows.map (·.id)
    · obtain ⟨c, hc, rfl⟩ := List.mem_map.mp hmem
      obtain ⟨c₁, hc₁, hid₁, -⟩ := hreached.image hc
      obtain ⟨c₂, hc₂, hid₂, -⟩ := hreached₂.image (hperm.mem_iff.mpr hc)
      have hsame := same_standing hperm hreached hsettled hreached₂ hsettled₂ hc hc₁ hid₁ hc₂ hid₂
      rw [← hid₁, standing_of_mem hids hc₁, hid₁, ← hid₂, standing_of_mem hids₂ hc₂, hsame]
    · have hmem₂ : id ∉ other.rows.map (·.id) := by
        rw [(hperm.map (·.id)).mem_iff]
        exact hmem
      rw [standing_none (hreached₂.ids ▸ hmem₂), standing_none (hreached.ids ▸ hmem)]

end RlmGraph.Knowledge.Derived
