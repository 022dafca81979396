import RlmGraph.Claims.Records

/-! # Histories of a ledger

A history starts from empty tables and takes calls under any keys and on any
disks. Its tables represent a sound registry (`History.recorded`): each
envelope was made for a stored claim that was active and for stored evidence
that was enough for `REPLICATED`. Under a sound registry an envelope covers an
assessment exactly when nothing supersedes the claim and the evidence that
counts is the evidence that was signed (`covers_iff`). -/
namespace RlmGraph.Claims.Histories
open RlmGraph.Lib.Rows RlmGraph.Lib.JsonText RlmGraph.Lib.Results
open RlmGraph.Claims.Ledger RlmGraph.Claims.Verify RlmGraph.Claims.Integrity RlmGraph.Claims.Records

variable {crypto : Crypto} {disk : Disk} {keys : AuthenticationKeys} {r r' : Registry} {t : Tables}
  {claim : ClaimStatement} {claimId : String}

/-! ## Sound registries -/

/-- The evidence an envelope was made for. -/
structure Signed (crypto : Crypto) (r : Registry) (m : Maturity) (es : List ClaimEvidence) :
    Prop where
  stored : ∀ e ∈ es, e ∈ r.evidence
  level : levelOf es = m.level
  uncountered : es.any counters = false
  ids : m.eligibleIds = es.map (·.evidenceId)
  root : m.evidenceRoot = merkleRoot crypto (es.map fun e => (e.evidenceId, evidenceSha256 crypto e))

/-- An envelope was made for a stored claim and stored evidence. -/
structure EnvelopeSound (crypto : Crypto) (r : Registry) (m : Maturity) : Prop where
  claim : r.claim? m.claim.claimId = some m.claim
  claimSha256 : m.claimSha256 = claimSha256 crypto m.claim
  active : m.disposition = .active
  replicated : m.level = .replicated
  signed : ∃ es, Signed crypto r m es

structure Registry.Sound (crypto : Crypto) (r : Registry) : Prop extends r.Valid where
  envelopes : ∀ e ∈ r.envelopes, EnvelopeSound crypto r e.maturity
  replacements : ∀ s ∈ r.supersessions, (r.claim? s.replacementClaimId).isSome = true

theorem dispositionOf_active {superseded : Bool} {es : List ClaimEvidence} :
    dispositionOf superseded es = .active ↔ superseded = false ∧ es.any counters = false := by
  unfold dispositionOf
  cases superseded <;> cases es.any counters <;> simp

theorem dispositionOf_superseded {superseded : Bool} {es : List ClaimEvidence} :
    dispositionOf superseded es = .superseded ↔ superseded = true := by
  unfold dispositionOf
  cases superseded <;> cases es.any counters <;> simp

theorem maturity_signed (hactive : (r.maturity crypto disk claim).disposition = .active) :
    Signed crypto r (r.maturity crypto disk claim) (r.counted crypto disk claim) where
  stored e he := by
    have hmem := counted_sublist.subset he
    rw [Registry.evidenceOf, orderBy, List.mem_mergeSort] at hmem
    exact List.mem_of_mem_filter hmem
  level := rfl
  uncountered := (dispositionOf_active.mp hactive).2
  ids := rfl
  root := rfl

/-- What is stored stays as it was stored. -/
structure Grows (r r' : Registry) : Prop where
  claims : ∀ claimId claim, r.claim? claimId = some claim → r'.claim? claimId = some claim
  evidence : r.evidence ⊆ r'.evidence

theorem EnvelopeSound.grows {m : Maturity} (h : EnvelopeSound crypto r m) (hg : Grows r r') :
    EnvelopeSound crypto r' m := by
  obtain ⟨es, hes⟩ := h.signed
  exact ⟨hg.claims _ _ h.claim, h.claimSha256, h.active, h.replicated,
    es, { hes with stored := fun e he => hg.evidence (hes.stored e he) }⟩

theorem Added.grows {c : LedgerCall} (h : Added crypto keys disk r c r') : Grows r r' := by
  cases h with
  | statement claim => exact ⟨fun _ _ => find?_append_of_some, List.Subset.refl _⟩
  | evidence evidence path => exact ⟨fun _ _ hc => hc, List.subset_append_left _ _⟩
  | envelope claim keyId secret => exact ⟨fun _ _ hc => hc, List.Subset.refl _⟩
  | supersession claimId replacement reason => exact ⟨fun _ _ hc => hc, List.Subset.refl _⟩

/-- The claims an addition leaves stored. -/
theorem Grows.claim?_isSome (hg : Grows r r') (h : (r.claim? claimId).isSome = true) :
    (r'.claim? claimId).isSome = true := by
  obtain ⟨claim, hclaim⟩ := Option.isSome_iff_exists.mp h
  exact Option.isSome_of_eq_some (hg.claims _ _ hclaim)

/-- **An addition keeps a registry sound.** -/
theorem Added.sound {c : LedgerCall} (h : Added crypto keys disk r c r')
    (hs : Registry.Sound crypto r) : Registry.Sound crypto r' := by
  have hg := Added.grows h
  have henvelopes : ∀ e ∈ r.envelopes, EnvelopeSound crypto r' e.maturity :=
    fun e he => (hs.envelopes e he).grows hg
  have hreplacements : ∀ s ∈ r.supersessions, (r'.claim? s.replacementClaimId).isSome = true :=
    fun s hmem => hg.claim?_isSome (hs.replacements s hmem)
  cases h with
  | statement claim hschema hnew =>
    exact { schema := forall_mem_concat hs.schema hschema, ids := hs.ids,
            envelopes := henvelopes, replacements := hreplacements }
  | evidence evidence path hstands hnew =>
    refine { schema := hs.schema, ids := ?_, envelopes := henvelopes, replacements := hreplacements }
    have hfresh : ∀ e ∈ r.evidence, e.evidenceId ≠ evidence.evidenceId :=
      fun e he => by simpa using List.find?_eq_none.mp hnew e he
    rw [List.map_append, List.nodup_append]
    refine ⟨hs.ids, List.nodup_singleton _, ?_⟩
    intro a ha b hb hab
    obtain ⟨e, he, rfl⟩ := List.mem_map.mp ha
    exact hfresh e he (hab.trans (List.mem_singleton.mp hb))
  | envelope claim keyId secret hkey hclaim hactive hlevel =>
    refine { schema := hs.schema, ids := hs.ids, envelopes := forall_mem_concat henvelopes ?_,
             replacements := hreplacements }
    exact EnvelopeSound.grows ⟨hclaim, rfl, hactive, hlevel, _, maturity_signed hactive⟩ hg
  | supersession claimId replacement reason hne hnew hstored =>
    exact { schema := hs.schema, ids := hs.ids, envelopes := henvelopes,
            replacements := forall_mem_concat hreplacements (hg.claim?_isSome hstored) }

/-! ## Histories -/

/-- Calls one after the other, each of which meets a condition on the tables
it finds. -/
inductive History (crypto : Crypto) (meets : Tables → LedgerCall → Prop) : Tables → Prop
  | empty : History crypto meets {}
  | call {t : Tables} (h : History crypto meets t) (keys : AuthenticationKeys) (disk : Disk)
      (c : LedgerCall) (hmeets : meets t c) : History crypto meets (call crypto keys disk c t).2

/-- The tables of some history. -/
abbrev Reachable (crypto : Crypto) : Tables → Prop := History crypto fun _ _ => True

theorem History.reachable {meets : Tables → LedgerCall → Prop} (h : History crypto meets t) :
    Reachable crypto t := by
  induction h with
  | empty => exact .empty
  | call _ keys disk c _ ih => exact ih.call keys disk c trivial

theorem sound_empty : Registry.Sound crypto {} where
  schema _ h := by cases h
  ids := List.nodup_nil
  envelopes _ h := by cases h
  replacements _ h := by cases h

/-- **The tables of a history represent a sound registry.** -/
theorem History.recorded {meets : Tables → LedgerCall → Prop} (h : History crypto meets t) :
    ∃ r, Represents crypto r t ∧ Registry.Sound crypto r := by
  induction h with
  | empty => exact ⟨{}, ⟨rfl, rfl, rfl, rfl⟩, sound_empty⟩
  | call _ keys disk c _ ih =>
    obtain ⟨r, hrep, hs⟩ := ih
    rcases call_represents hrep hs.toValid keys disk c with ht | ⟨r', hadded, hrep'⟩
    · exact ⟨r, by rw [ht]; exact hrep, hs⟩
    · exact ⟨r', hrep', Added.sound hadded hs⟩

theorem run_reachable (h : Run crypto disk t) : Reachable crypto t := by
  induction h with
  | empty => exact .empty
  | call keys c _ ih => exact ih.call keys _ c trivial
  | files _ _ ih => exact ih

/-! ## What an envelope covers -/

/-- Evidence with the same identifiers is the same evidence. -/
theorem evidence_eq_of_ids (hids : (r.evidence.map (·.evidenceId)).Nodup) {as bs : List ClaimEvidence}
    (ha : ∀ e ∈ as, e ∈ r.evidence) (hb : ∀ e ∈ bs, e ∈ r.evidence)
    (h : as.map (·.evidenceId) = bs.map (·.evidenceId)) : as = bs := by
  induction as generalizing bs with
  | nil => exact (List.map_eq_nil_iff.mp h.symm).symm
  | cons a as ih =>
    cases bs with
    | nil => cases h
    | cons b bs =>
      rw [List.map_cons, List.map_cons, List.cons.injEq] at h
      have hab : a = b := List.inj_on_of_nodup_map hids (ha a List.mem_cons_self)
        (hb b List.mem_cons_self) h.1
      rw [hab, ih (fun e he => ha e (List.mem_cons_of_mem _ he))
        (fun e he => hb e (List.mem_cons_of_mem _ he)) h.2]

/-- **An envelope covers an assessment** exactly when nothing supersedes the
claim and the evidence that counts is the signed evidence. -/
theorem covers_iff (hs : Registry.Sound crypto r) {m : Maturity} (hm : EnvelopeSound crypto r m)
    (hclaim : r.claim? m.claim.claimId = some claim) :
    Covers (r.maturity crypto disk claim) m ↔
      r.replacement? claim.claimId = none ∧
        m.eligibleIds = (r.counted crypto disk claim).map (·.evidenceId) := by
  obtain rfl : m.claim = claim := Option.some.inj (hm.claim.symm.trans hclaim)
  constructor
  · intro h
    have hactive := h.disposition.symm.trans hm.active
    have hnone := (dispositionOf_active.mp hactive).1
    exact ⟨by simpa using hnone, h.eligibleIds⟩
  · rintro ⟨hnone, hids⟩
    obtain ⟨es, hes⟩ := hm.signed
    have heq : es = r.counted crypto disk m.claim := by
      refine evidence_eq_of_ids hs.ids hes.stored (fun e he => ?_) (hes.ids.symm.trans hids)
      have hmem := counted_sublist.subset he
      rw [Registry.evidenceOf, orderBy, List.mem_mergeSort] at hmem
      exact List.mem_of_mem_filter hmem
    subst heq
    refine ⟨hm.claimSha256, rfl, rfl, rfl, hes.level.symm, ?_, hes.ids, hes.root⟩
    rw [hm.active]
    exact (dispositionOf_active.mpr ⟨by rw [hnone]; rfl, hes.uncountered⟩).symm

/-- **A claim is authenticated** exactly when nothing supersedes it and a valid
envelope lists the evidence that counts. -/
theorem assess_authenticated_iff (h : Represents crypto r t) (hs : Registry.Sound crypto r)
    (hclaim : r.claim? claimId = some claim) (keys : AuthenticationKeys) (disk : Disk) :
    ∃ a, assess crypto keys disk t claimId = .ok a ∧
      a.evidenceLevel = levelOf (r.counted crypto disk claim) ∧
      a.disposition = dispositionOf (r.replacement? claimId).isSome (r.counted crypto disk claim) ∧
      (a.authentication = .authenticated ↔ r.replacement? claimId = none ∧
        ∃ e ∈ r.envelopes, e.maturity.claim.claimId = claimId ∧
          e.maturity.eligibleIds = (r.counted crypto disk claim).map (·.evidenceId) ∧
          e.valid crypto keys = true) := by
  obtain ⟨a, ha, hlevel, hdisposition, -, -, -, hauthentication⟩ :=
    assess_of_represents h hclaim (hs.schemaOf hclaim) keys disk
  obtain rfl : claim.claimId = claimId := by simpa using List.find?_some hclaim
  refine ⟨a, ha, hlevel, hdisposition, hauthentication.trans ?_⟩
  constructor
  · rintro ⟨e, he, hid, hcovers, hvalid⟩
    obtain ⟨hnone, hids⟩ := (covers_iff hs (hs.envelopes e he) (by rw [hid, hclaim])).mp hcovers
    exact ⟨hnone, e, he, hid, hids, hvalid⟩
  · rintro ⟨hnone, e, he, hid, hids, hvalid⟩
    exact ⟨e, he, hid,
      (covers_iff hs (hs.envelopes e he) (by rw [hid, hclaim])).mpr ⟨hnone, hids⟩, hvalid⟩

end RlmGraph.Claims.Histories
