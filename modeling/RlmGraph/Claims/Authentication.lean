import RlmGraph.Claims.Progress

/-! # Authentication and later evidence

Envelopes are kept for ever. What ends an authentication is that the evidence
that counts is no longer the evidence that was signed: after a call that adds
eligible evidence or supersedes the claim, each envelope of the claim misses
some evidence that counts (`Outdated`), and every later call except a new
authentication of the claim leaves it so. -/
namespace RlmGraph.Claims.Authentication
open RlmGraph.Lib.Rows RlmGraph.Lib.JsonText RlmGraph.Lib.Results
open RlmGraph.Claims.Ledger RlmGraph.Claims.Verify RlmGraph.Claims.Integrity RlmGraph.Claims.Records
open RlmGraph.Claims.Histories RlmGraph.Claims.Progress

variable {crypto : Crypto} {disk disk' : Disk} {keys : AuthenticationKeys} {r r' : Registry}
  {t t' : Tables} {claim : ClaimStatement} {claimId : String}

/-! ## Signatures -/

/-- A signature that is put behind and taken off again leaves the members. -/
theorem unsigned_canon {body : List (String × Json)} (hkeys : (body.map Prod.fst).Nodup)
    (hfree : ∀ f ∈ body, f.1 ≠ "signature") (signature : Json) :
    canonicalJson (unsigned (canon (.obj (body ++ [("signature", signature)])))) =
      canonicalJson (.obj body) := by
  have hkeys' : ((body ++ [("signature", signature)]).map Prod.fst).Nodup := by
    rw [List.map_append, List.nodup_append]
    refine ⟨hkeys, List.nodup_singleton _, ?_⟩
    intro a ha b hb hab
    obtain ⟨f, hf, rfl⟩ := List.mem_map.mp ha
    exact hfree f hf (hab.trans (List.mem_singleton.mp hb))
  have hrest : (body ++ [("signature", signature)]).filter (·.1 != "signature") = body := by
    rw [List.filter_append, List.filter_eq_self.mpr fun f hf => by simpa using hfree f hf]
    simp
  have hcanon := canon_filter hkeys' (fun f => f.1 != "signature") fun _ => rfl
  rw [hrest] at hcanon
  rw [canon, unsigned]
  exact dumps_inj.mpr hcanon

def signatureOf (crypto : Crypto) (e : Envelope) : Json :=
  .str (hexdigest (crypto.hmacSha256 e.secret (utf8 (canonicalJson
    (.obj (signedBody e.maturity.claim.claimId e.keyId e.maturity))))))

theorem stored_eq (e : Envelope) : e.stored crypto = canon (.obj
    (signedBody e.maturity.claim.claimId e.keyId e.maturity ++
      [("signature", signatureOf crypto e)])) := rfl

/-- The signed text of a stored envelope is the text that was signed. -/
theorem unsigned_stored (e : Envelope) :
    canonicalJson (unsigned (e.stored crypto)) =
      canonicalJson (.obj (signedBody e.maturity.claim.claimId e.keyId e.maturity)) := by
  rw [stored_eq]
  exact unsigned_canon (by simp [signedBody]) (by simp [signedBody]) _

/-- **An envelope verifies under the key that signed it.** -/
theorem valid_of_key {e : Envelope} (hkey : keys e.keyId = some e.secret) :
    e.valid crypto keys = true := by
  have hget : ∀ key, (e.stored crypto).get? key = _ := fun key =>
    canon_get? (by simp [signedBody]) key
  have hkeyId : (e.stored crypto).get? "key_id" = some (.str e.keyId) := by
    rw [hget]; simp [signedBody, List.lookup]
  have halgorithm : (e.stored crypto).get? "algorithm" = some (.str "HMAC-SHA256") := by
    rw [hget]; simp [signedBody, List.lookup]
  have hsignature : (e.stored crypto).get? "signature" = some (.str (hexdigest (crypto.hmacSha256
      e.secret (utf8 (canonicalJson (unsigned (e.stored crypto))))))) := by
    rw [hget, unsigned_stored]; simp [signedBody, List.lookup]
  simp only [Envelope.valid, envelopeSigned, hkeyId, hkey, Option.elim_some, halgorithm, hsignature]
  simp

/-! ## What an authenticated claim has -/

/-- A stored envelope of the claim, signed by a configured key, that covers the
stored claim at its highest level, active, with the eligible evidence of an
assessment and its root. -/
structure CurrentEnvelope (crypto : Crypto) (keys : AuthenticationKeys) (t : Tables)
    (a : ClaimAssessment) (row : AuthenticationRow) (raw : Json) : Prop where
  stored : row ∈ t.authentications
  claimId : row.claimId = a.claimId
  payload : loads row.payload = some raw
  signed : envelopeSigned crypto keys raw = true
  claimSha256 : ∃ stored, t.claim? a.claimId = some stored ∧
    raw.get? "claim_payload_sha256" = some (.str stored.payloadSha256)
  level : raw.get? "evidence_level" = some (.str EvidenceLevel.replicated.value) ∧
    a.evidenceLevel = .replicated
  disposition : raw.get? "disposition" = some (.str ClaimDisposition.active.value) ∧
    a.disposition = .active
  evidenceIds : raw.get? "evidence_ids" = some (.arr (a.eligibleEvidenceIds.map .str))
  evidenceRoot : raw.get? "evidence_merkle_root" = some (.str a.evidenceMerkleRoot)

theorem assess_claim (h : Represents crypto r t) {a : ClaimAssessment}
    (ha : assess crypto keys disk t claimId = .ok a) : ∃ claim, r.claim? claimId = some claim := by
  obtain ⟨m, hm, -⟩ := bind_ok ha
  obtain ⟨row, hload, -⟩ := bind_ok hm
  exact h.claim?_isSome hload

theorem assess_claimId {a : ClaimAssessment} (ha : assess crypto keys disk t claimId = .ok a) :
    a.claimId = claimId := by
  obtain ⟨m, -, ha⟩ := bind_ok ha
  obtain ⟨_, -, ha⟩ := bind_ok ha
  cases ha
  rfl

/-- **An authenticated claim has a current envelope.** -/
theorem authenticated_envelope (h : Represents crypto r t) (hs : Registry.Sound crypto r)
    {a : ClaimAssessment} (ha : assess crypto keys disk t claimId = .ok a)
    (hauthenticated : a.authentication = .authenticated) :
    ∃ row raw, CurrentEnvelope crypto keys t a row raw := by
  obtain ⟨claim, hclaim⟩ := assess_claim h ha
  obtain ⟨b, hb, hlevel, hdisposition, hids, hroot, -, hiff⟩ :=
    assess_of_represents h hclaim (hs.schemaOf hclaim) keys disk
  obtain rfl : a = b := Except.ok.inj (ha.symm.trans hb)
  obtain rfl : a.claimId = claimId := assess_claimId ha
  obtain ⟨e, he, heid, hcovers, hvalid⟩ := hiff.mp hauthenticated
  have hsound := hs.envelopes e he
  have hreads : EnvelopeReadsAs (e.stored crypto) e.maturity := envelopeReadsAs_stored e
  refine ⟨envelopeRow crypto e, e.stored crypto, ?_, heid, loads_canonicalJson _, hvalid, ?_, ?_, ?_,
    ?_, ?_⟩
  · rw [h.authentications]
    exact List.mem_map_of_mem he
  · exact ⟨claimRow crypto claim, by rw [h.claim?, hclaim]; rfl,
      by rw [hreads.claimSha256, hcovers.claimSha256]; rfl⟩
  · exact ⟨by rw [hreads.level, hsound.replicated],
      by rw [hlevel, ← hcovers.level, hsound.replicated]⟩
  · exact ⟨by rw [hreads.disposition, hsound.active],
      by rw [hdisposition, ← hcovers.disposition, hsound.active]⟩
  · rw [hreads.eligibleIds, hcovers.eligibleIds, hids]
  · rw [hreads.evidenceRoot, hcovers.evidenceRoot, hroot]

/-! ## Outdated envelopes -/

theorem mem_counted {x : ClaimEvidence} : x ∈ r.counted crypto disk claim ↔
    x ∈ r.evidence ∧ x.claimId = claim.claimId ∧ counts crypto disk claim x = true := by
  rw [Registry.counted, List.mem_filter, Registry.evidenceOf, orderBy, List.mem_mergeSort,
    List.mem_filter, beq_iff_eq, and_assoc]

/-- No envelope of the claim covers it: it is superseded, or some evidence that
counts is in none of them. -/
def Outdated (crypto : Crypto) (disk : Disk) (r : Registry) (claim : ClaimStatement) : Prop :=
  r.replacement? claim.claimId ≠ none ∨
    ∃ x ∈ r.counted crypto disk claim, ∀ e ∈ r.envelopes, e.maturity.claim.claimId = claim.claimId →
      x.evidenceId ∉ e.maturity.eligibleIds

/-- The stored evidence is what it was on another disk. -/
theorem untouched_counts (h : Represents crypto r t) (hu : Untouched disk disk' t)
    {x : ClaimEvidence} (hx : x ∈ r.evidence) :
    counts crypto disk' claim x = counts crypto disk claim x := by
  have hrow : evidenceRow crypto x ∈ t.records := by
    rw [h.records]
    exact List.mem_map_of_mem hx
  obtain ⟨hfile, hread⟩ := hu _ hrow _ _ (loads_canonicalJson (evidencePayload x))
    (readsAs_payload x).artifactPath
  simp only [counts, stands, hfile, hread]

theorem Outdated.files (h : Outdated crypto disk r claim) (hrep : Represents crypto r t)
    (hu : Untouched disk disk' t) : Outdated crypto disk' r claim := by
  refine h.imp_right ?_
  rintro ⟨x, hx, hmissing⟩
  obtain ⟨hstored, hid, hcounts⟩ := mem_counted.mp hx
  exact ⟨x, mem_counted.mpr ⟨hstored, hid, by rw [untouched_counts hrep hu hstored, hcounts]⟩, hmissing⟩

theorem replacement?_append_isSome {s : List Supersession}
    (h : r.replacement? claimId ≠ none) :
    Registry.replacement? { r with supersessions := r.supersessions ++ s } claimId ≠ none := by
  rw [Registry.replacement?, Ne, Option.map_eq_none_iff] at h ⊢
  obtain ⟨found, hfound⟩ := Option.ne_none_iff_exists'.mp h
  rw [find?_append_of_some hfound]
  simp

/-- Every addition but an envelope of the claim leaves its envelopes outdated. -/
theorem Outdated.added {c : LedgerCall} (h : Outdated crypto disk r claim)
    (hadded : Added crypto keys disk' r c r')
    (hother : ∀ keyId, c ≠ .authenticate claim.claimId keyId) : Outdated crypto disk r' claim := by
  cases hadded with
  | statement other => exact h
  | evidence evidence path =>
    refine h.imp_right ?_
    rintro ⟨x, hx, hmissing⟩
    obtain ⟨hstored, hrest⟩ := mem_counted.mp hx
    exact ⟨x, mem_counted.mpr ⟨List.mem_append_left _ hstored, hrest⟩, hmissing⟩
  | envelope other keyId secret =>
    refine h.imp_right ?_
    rintro ⟨x, hx, hmissing⟩
    refine ⟨x, hx, forall_mem_concat hmissing ?_⟩
    intro hsame
    exact absurd (by rw [show claim.claimId = other.claimId from hsame.symm]) (hother keyId)
  | supersession other replacement reason =>
    refine h.imp replacement?_append_isSome ?_
    rintro ⟨x, hx, hmissing⟩
    exact ⟨x, hx, hmissing⟩

theorem Outdated.not_authenticated (h : Outdated crypto disk r claim) (hrep : Represents crypto r t)
    (hs : Registry.Sound crypto r) (hclaim : r.claim? claim.claimId = some claim) {a : ClaimAssessment}
    (ha : assess crypto keys disk t claim.claimId = .ok a) : a.authentication ≠ .authenticated := by
  obtain ⟨b, hb, -, -, hiff⟩ := assess_authenticated_iff hrep hs hclaim keys disk
  obtain rfl : a = b := Except.ok.inj (ha.symm.trans hb)
  intro hauthenticated
  obtain ⟨hnone, e, he, hid, hids, -⟩ := hiff.mp hauthenticated
  rcases h with hsuperseded | ⟨x, hx, hmissing⟩
  · exact hsuperseded hnone
  · refine hmissing e he hid ?_
    rw [hids]
    exact List.mem_map_of_mem hx

/-! ## Calls that end an authentication -/

/-- The call stores evidence that its assessment finds eligible, or supersedes
the claim. -/
def Changes (t : Tables) (claimId : String) (a : ClaimAssessment) : LedgerCall → Prop
  | .appendEvidence evidence => evidence.claimId = claimId ∧ t.record? evidence.evidenceId = none ∧
      evidence.evidenceId ∈ a.eligibleEvidenceIds
  | .supersede other _ _ => other = claimId
  | _ => False

/-- The tables stand for records by which the claim is not authenticated. -/
structure Ended (crypto : Crypto) (disk : Disk) (t : Tables) (claimId : String) (r : Registry)
    (claim : ClaimStatement) : Prop where
  represents : Represents crypto r t
  recorded : Registry.Sound crypto r
  stored : r.claim? claimId = some claim
  outdated : Outdated crypto disk r claim

theorem appendEvidence_ended (h : Represents crypto r t) (hs : Registry.Sound crypto r)
    {evidence : ClaimEvidence} {a : ClaimAssessment} {t' : Tables}
    (hrun : appendEvidence crypto keys disk evidence t = .ok (a, t'))
    (hnew : t.record? evidence.evidenceId = none)
    (heligible : evidence.evidenceId ∈ a.eligibleEvidenceIds) :
    ∃ r' claim, Ended crypto disk t' evidence.claimId r' claim := by
  obtain ⟨valid, hvalid, hrun'⟩ := bind_ok hrun
  obtain ⟨row, hload, hstore⟩ := bind_ok hrun'
  obtain ⟨path, rfl, hstands⟩ := validateEvidence_eq hvalid
  obtain ⟨claim, hclaim⟩ : ∃ claim, r.claim? evidence.claimId = some claim := h.claim?_isSome hload
  have hnone : r.evidence? evidence.evidenceId = none := by
    rw [h.record?] at hnew
    exact Option.map_eq_none_iff.mp hnew
  rcases store_ok hstore with ⟨hstored, -, -⟩ | ⟨-, u, hinsert, hassess, hevent⟩
  · rw [hnew] at hstored
    cases hstored
  · obtain ⟨-, rfl⟩ := insertRecord_ok hinsert
    obtain ⟨event, rfl⟩ := appendEvent_tables hevent
    have hrep := h.addEvidence { evidence with artifactPath := path }
    have hadded : Added crypto keys disk r (.appendEvidence evidence) _ :=
      .evidence evidence path hstands hnone
    have hs' := Added.sound hadded hs
    obtain ⟨b, hb, -, -, hids, -⟩ := assess_of_represents hrep hclaim (hs'.schemaOf hclaim) keys disk
    obtain rfl : a = b := Except.ok.inj (hassess.symm.trans hb)
    rw [hids] at heligible
    obtain ⟨x, hx, hxid⟩ := List.mem_map.mp heligible
    refine ⟨_, claim, hrep.events _, hs', hclaim, Or.inr ⟨x, hx, fun e he _ hmem => ?_⟩⟩
    -- the envelope was made for evidence that was stored before
    obtain ⟨es, hes⟩ := (hs.envelopes e he).signed
    rw [hes.ids] at hmem
    obtain ⟨y, hy, hyid⟩ := List.mem_map.mp hmem
    have hfresh := List.find?_eq_none.mp hnone y (hes.stored y hy)
    exact hfresh (by rw [hyid, hxid]; exact beq_self_eq_true _)

theorem supersede_ended (h : Represents crypto r t) (hs : Registry.Sound crypto r)
    {replacement reason : String} {a : ClaimAssessment} {t' : Tables}
    (hrun : supersede crypto keys disk claimId replacement reason t = .ok (a, t')) :
    ∃ r' claim, Ended crypto disk t' claimId r' claim := by
  obtain ⟨_, -, hrun'⟩ := bind_ok hrun
  obtain ⟨_, hne, hrun'⟩ := bind_ok hrun'
  obtain ⟨_, hload, hrun'⟩ := bind_ok hrun'
  obtain ⟨_, hload', hstore⟩ := bind_ok hrun'
  obtain ⟨claim, hclaim⟩ := h.claim?_isSome hload
  obtain ⟨other, hother⟩ := h.claim?_isSome hload'
  obtain rfl : claim.claimId = claimId := by simpa using List.find?_some hclaim
  rcases store_ok hstore with ⟨hstored, rfl, -⟩ | ⟨hnew, u, hinsert, -, hevent⟩
  · refine ⟨r, claim, h, hs, hclaim, Or.inl fun hnone => ?_⟩
    rw [h.supersession?, Option.map_eq_none_iff.mp hnone] at hstored
    cases hstored
  · obtain ⟨hnone, rfl⟩ := insertSupersession_ok hinsert
    obtain ⟨event, rfl⟩ := appendEvent_tables hevent
    have hnone' : r.supersessions.find? (·.claimId == claim.claimId) = none := by
      rw [h.supersession?] at hnone
      exact Option.map_eq_none_iff.mp hnone
    have hrep := h.addSupersession ⟨claim.claimId, replacement, reason⟩
    have hadded : Added crypto keys disk r (.supersede claim.claimId replacement reason) _ :=
      .supersession claim.claimId replacement reason (by simpa using require_ok hne)
        (by rw [Registry.replacement?, hnone']; rfl) (Option.isSome_of_eq_some hother)
    have hs' := Added.sound hadded hs
    refine ⟨_, claim, hrep.events _, hs', hclaim, Or.inl ?_⟩
    rw [Registry.replacement?, find?_append_new hnone' (by simp)]
    simp

theorem changes_ended (h : Represents crypto r t) (hs : Registry.Sound crypto r) {c : LedgerCall}
    {a : ClaimAssessment} (hreply : (call crypto keys disk c t).1 = .ok a)
    (hchanges : Changes t claimId a c) :
    ∃ r' claim, Ended crypto disk (call crypto keys disk c t).2 claimId r' claim := by
  cases hrun : runCall crypto keys disk c t with
  | error e =>
    simp only [call, hrun] at hreply
    cases hreply
  | ok reply =>
    obtain ⟨b, t'⟩ := reply
    simp only [call, hrun] at hreply ⊢
    obtain rfl : b = a := Except.ok.inj hreply
    cases c with
    | propose claim => exact hchanges.elim
    | appendEvidence evidence =>
      obtain ⟨rfl, hnew, heligible⟩ := hchanges
      exact appendEvidence_ended h hs hrun hnew heligible
    | authenticate id keyId => exact hchanges.elim
    | supersede id replacement reason =>
      obtain rfl : id = claimId := hchanges
      exact supersede_ended h hs hrun

/-! ## Until a new authentication -/

/-- What may follow, under any keys and with the artifacts intact, as long as no
authentication of the claim succeeds. -/
inductive Later (crypto : Crypto) (claimId : String) (disk : Disk) (t : Tables) :
    Disk → Tables → Prop
  | refl : Later crypto claimId disk t disk t
  | call {disk' : Disk} {t' : Tables} (h : Later crypto claimId disk t disk' t')
      (keys : AuthenticationKeys) (c : LedgerCall)
      (hquiet : ∀ keyId, c = .authenticate claimId keyId →
        ∃ e, (call crypto keys disk' c t').1 = .error e) :
      Later crypto claimId disk t disk' (call crypto keys disk' c t').2
  | files {disk' disk'' : Disk} {t' : Tables} (h : Later crypto claimId disk t disk' t')
      (hu : Untouched disk' disk'' t') : Later crypto claimId disk t disk'' t'

/-- **One call** does not authenticate an ended claim. -/
theorem Ended.call (h : Ended crypto disk t claimId r claim) (keys : AuthenticationKeys)
    (c : LedgerCall)
    (hquiet : ∀ keyId, c = .authenticate claimId keyId → ∃ e, (call crypto keys disk c t).1 = .error e) :
    ∃ r', Ended crypto disk (call crypto keys disk c t).2 claimId r' claim := by
  have hid : claim.claimId = claimId := by simpa using List.find?_some h.stored
  by_cases hother : ∀ keyId, c ≠ .authenticate claimId keyId
  · rcases call_represents h.represents h.recorded.toValid keys disk c with ht | ⟨r', hadded, hrep⟩
    · rw [ht]
      exact ⟨r, h⟩
    · exact ⟨r', hrep, Added.sound hadded h.recorded, (Added.grows hadded).claims _ _ h.stored,
        h.outdated.added hadded (by rw [hid]; exact hother)⟩
  · obtain ⟨keyId, hauthenticate⟩ := not_forall_not.mp hother
    obtain ⟨e, he⟩ := hquiet keyId hauthenticate
    refine ⟨r, ?_⟩
    cases hrun : runCall crypto keys disk c t with
    | error e' =>
      simp only [Ledger.call, hrun]
      exact h
    | ok reply => simp [Ledger.call, hrun] at he

theorem Later.ended (h : Later crypto claimId disk t disk' t')
    (hended : ∃ r claim, Ended crypto disk t claimId r claim) :
    ∃ r claim, Ended crypto disk' t' claimId r claim := by
  induction h with
  | refl => exact hended
  | call _ keys c hquiet ih =>
    obtain ⟨r, claim, h⟩ := ih
    obtain ⟨r', h'⟩ := h.call keys c hquiet
    exact ⟨r', claim, h'⟩
  | files _ hu ih =>
    obtain ⟨r, claim, h⟩ := ih
    exact ⟨r, claim, { h with outdated := h.outdated.files h.represents hu }⟩

/-- **Authentication is bound to the current evidence.** In every state of a
run an authenticated claim has a current envelope. After a call that adds
eligible evidence or supersedes the claim, no assessment under any keys finds it
authenticated until an authentication of it succeeds. -/
theorem authentication_current (h : Run crypto disk t) :
    (∀ keys claimId a, assess crypto keys disk t claimId = .ok a → a.authentication = .authenticated →
      ∃ row raw, CurrentEnvelope crypto keys t a row raw) ∧
    ∀ keys c a claimId, (call crypto keys disk c t).1 = .ok a → Changes t claimId a c →
      ∀ disk' t', Later crypto claimId disk (call crypto keys disk c t).2 disk' t' →
        ∀ keys' a', assess crypto keys' disk' t' claimId = .ok a' → a'.authentication ≠ .authenticated := by
  obtain ⟨r, hrep, hs⟩ := (run_reachable h).recorded
  refine ⟨fun keys claimId a ha => authenticated_envelope hrep hs ha, ?_⟩
  intro keys c a claimId hreply hchanges disk' t' hlater keys' a' ha'
  obtain ⟨r', claim, hended⟩ := hlater.ended (changes_ended hrep hs hreply hchanges)
  obtain rfl : claim.claimId = claimId := by simpa using List.find?_some hended.stored
  exact hended.outdated.not_authenticated hended.represents hended.recorded hended.stored ha'

/-! ## A sample history -/

def keyring : AuthenticationKeys := fun keyId => if keyId = "K" then some [1] else none

def firstRun : ClaimEvidence := evidenceFor "E1" .replicationRun .passed 2 "lab"
def secondRun : ClaimEvidence := evidenceFor "E2" .replicationRun .passed 2 "field"

/-- Counter-evidence under another policy than the claim's. -/
def strayCounter : ClaimEvidence := evidenceFor "E3" .counterevidence .failed 4 "lab"

/-- A claim replicated twice. -/
def replicated : Tables :=
  runCalls marking keyring shelf [.propose (statement "A"), .appendEvidence firstRun,
    .appendEvidence secondRun] {}

theorem distinct_name : Distinct ["A"] := by
  unfold Distinct
  decide

theorem replicated_ready :
    Ready ["A"] shelf ⟨[statement "A"], [firstRun, secondRun], [], []⟩ replicated 3 := by
  have hA : validateClaim (statement "A") = .ok (statement "A") := validateClaim_statement rfl
  have hfirst : validateEvidence marking shelf firstRun = .ok { firstRun with artifactPath := "report" } :=
    validateEvidence_evidenceFor rfl rfl
  have hsecond : validateEvidence marking shelf secondRun =
      .ok { secondRun with artifactPath := "report" } := validateEvidence_evidenceFor rfl rfl
  have hstored : ∀ es, Registry.claim? ⟨[statement "A"], es, [], []⟩ "A" = some (statement "A") :=
    fun _ => rfl
  have h₁ := propose_ready (ready_empty ["A"] shelf) distinct_name (by omega) keyring hA rfl
    (by simp [statement])
  have h₂ := appendEvidence_ready h₁ distinct_name (by omega) keyring hfirst rfl (hstored _)
    (by simp [firstRun, evidenceFor])
  have h₃ := appendEvidence_ready h₂ distinct_name (by omega) keyring hsecond rfl (hstored _)
    (by simp [secondRun, evidenceFor])
  rw [replicated, runCalls_cons, runCalls_cons, runCalls_cons, runCalls_nil]
  exact h₃

/-- Sorted evidence of one claim is read as it is stored. -/
theorem counted_of_sorted {r : Registry} (hclaim : ∀ e ∈ r.evidence, e.claimId = claim.claimId)
    (hsorted : r.evidence.Pairwise fun a b => a.evidenceId ≤ b.evidenceId) :
    r.counted crypto disk claim = r.evidence.filter (counts crypto disk claim) := by
  have hall : r.evidence.filter (·.claimId == claim.claimId) = r.evidence :=
    List.filter_eq_self.mpr fun e he => by simpa using hclaim e he
  rw [Registry.counted, Registry.evidenceOf, hall, orderBy]
  refine congrArg _ (List.mergeSort_of_pairwise (hsorted.imp fun hab => ?_))
  exact decide_eq_true hab

theorem counts_sample (evidenceId key : String) (kind : EvidenceKind) (outcome : EvidenceOutcome)
    (policy : UInt8) : counts marking shelf (statement "A")
      (evidenceFor evidenceId kind outcome policy key) = (policy == 2) := by
  rw [counts, stands_evidenceFor, bound_evidenceFor, Bool.true_and]

/-- The stray counter-evidence does not count. -/
theorem counted_sample {links : List Supersession} {envelopes : List Envelope}
    {es : List ClaimEvidence} (hes : es = [] ∨ es = [strayCounter]) :
    Registry.counted ⟨[statement "A"], [firstRun, secondRun] ++ es, links, envelopes⟩ marking shelf
      (statement "A") = [firstRun, secondRun] := by
  have hruns : [firstRun, secondRun].filter (counts marking shelf (statement "A")) =
      [firstRun, secondRun] := by
    simp [firstRun, secondRun, counts_sample]
  rcases hes with rfl | rfl
  · rw [counted_of_sorted (by simp [firstRun, secondRun, evidenceFor, statement])
      (by simp [firstRun, secondRun, evidenceFor]), List.append_nil, hruns]
  · have hstray : counts marking shelf (statement "A") strayCounter = false := by
      rw [strayCounter, counts_sample]
      rfl
    rw [counted_of_sorted (by simp [firstRun, secondRun, strayCounter, evidenceFor, statement])
      (by simp [firstRun, secondRun, strayCounter, evidenceFor]), List.filter_append, hruns,
      List.filter_cons_of_neg (by simp [hstray])]
    rfl

/-- The claim, authenticated. -/
def authenticated : Tables := runCalls marking keyring shelf [.authenticate "A" "K"] replicated

def sampleMaturity : Maturity :=
  Registry.maturity ⟨[statement "A"], [firstRun, secondRun], [], []⟩ marking shelf (statement "A")

theorem authenticated_ready : Ready ["A"] shelf
    ⟨[statement "A"], [firstRun, secondRun], [], [⟨"K", [1], sampleMaturity⟩]⟩ authenticated 4 := by
  have hcounted : Registry.counted ⟨[statement "A"], [firstRun, secondRun], [], []⟩ marking shelf
      (statement "A") = [firstRun, secondRun] := counted_sample (Or.inl rfl)
  have hactive : sampleMaturity.disposition = .active := by
    rw [sampleMaturity, Registry.maturity, hcounted]
    rfl
  have hlevel : sampleMaturity.level = .replicated := by
    rw [sampleMaturity, Registry.maturity, hcounted]
    rfl
  have hid : requireText "K" "authentication key id" = .ok () := rfl
  have hstored : Registry.claim? ⟨[statement "A"], [firstRun, secondRun], [], []⟩
      (statement "A").claimId = some (statement "A") := rfl
  have h := authenticate_ready replicated_ready distinct_name (by omega) keyring hid rfl hstored rfl
    hactive hlevel (by simp [statement])
  rw [authenticated, runCalls_cons, runCalls_nil]
  exact h

/-- The authenticated claim with stray counter-evidence. -/
def countered : Tables := runCalls marking keyring shelf [.appendEvidence strayCounter] authenticated

theorem countered_ready : Ready ["A"] shelf
    ⟨[statement "A"], [firstRun, secondRun, strayCounter], [], [⟨"K", [1], sampleMaturity⟩]⟩
    countered 5 := by
  have hvalid : validateEvidence marking shelf strayCounter =
      .ok { strayCounter with artifactPath := "report" } := validateEvidence_evidenceFor rfl rfl
  have hstored : Registry.claim? ⟨[statement "A"], [firstRun, secondRun], [],
      [⟨"K", [1], sampleMaturity⟩]⟩ "A" = some (statement "A") := rfl
  have h := appendEvidence_ready authenticated_ready distinct_name (by omega) keyring hvalid rfl hstored
    (by simp [strayCounter, evidenceFor])
  rw [countered, runCalls_cons, runCalls_nil]
  exact h

theorem authenticated_run : Run marking shelf authenticated := by
  rw [authenticated, replicated]
  exact ((Run.empty shelf).calls keyring _).calls keyring _

theorem counterevidence_stored :
    ∃ a, (call marking keyring shelf (.appendEvidence strayCounter) authenticated).1 = .ok a := by
  have hready := countered_ready
  rw [countered, runCalls_cons, runCalls_nil] at hready
  rcases call_reply marking keyring shelf (.appendEvidence strayCounter) authenticated with hreply | hsame
  · exact hreply
  · rw [hsame] at hready
    have hevents := hready.events
    rw [authenticated_ready.events] at hevents
    omega

/-- The envelope of the sample covers it with and without the stray counter-evidence. -/
theorem sample_authenticated {t : Tables} {n : Nat} {es : List ClaimEvidence}
    (hes : es = [] ∨ es = [strayCounter]) (h : Ready ["A"] shelf
      ⟨[statement "A"], [firstRun, secondRun] ++ es, [], [⟨"K", [1], sampleMaturity⟩]⟩ t n) :
    ∃ a, assess marking keyring shelf t "A" = .ok a ∧ a.authentication = .authenticated := by
  have hclaim : Registry.claim? ⟨[statement "A"], [firstRun, secondRun] ++ es, [],
      [⟨"K", [1], sampleMaturity⟩]⟩ "A" = some (statement "A") := rfl
  obtain ⟨a, ha, -, -, hiff⟩ := assess_authenticated_iff h.represents h.recorded hclaim keyring shelf
  have hids : sampleMaturity.eligibleIds = [firstRun, secondRun].map (·.evidenceId) := by
    rw [sampleMaturity, Registry.maturity]
    exact congrArg (List.map _) (counted_sample (Or.inl rfl))
  have hvalid : Envelope.valid marking keyring ⟨"K", [1], sampleMaturity⟩ = true := valid_of_key rfl
  refine ⟨a, ha, hiff.mpr ⟨rfl, _, List.mem_singleton_self _, rfl, ?_, hvalid⟩⟩
  rw [hids]
  exact congrArg (List.map _) (counted_sample hes).symm

theorem authentication_current_sample :
    ∃ a row raw, CurrentEnvelope marking keyring authenticated a row raw := by
  obtain ⟨a, ha, hauthenticated⟩ := sample_authenticated (Or.inl rfl) authenticated_ready
  obtain ⟨row, raw, hcurrent⟩ :=
    (authentication_current authenticated_run).1 keyring "A" a ha hauthenticated
  exact ⟨a, row, raw, hcurrent⟩

/-- **Counter-evidence for another policy** is stored, and the claim stays
authenticated. -/
theorem counterevidence_stray : Run marking shelf authenticated ∧
    strayCounter.kind = .counterevidence ∧ authenticated.record? strayCounter.evidenceId = none ∧
    (∃ a, (call marking keyring shelf (.appendEvidence strayCounter) authenticated).1 = .ok a) ∧
    ∃ a, assess marking keyring shelf countered "A" = .ok a ∧ a.authentication = .authenticated := by
  have hnone : authenticated.record? strayCounter.evidenceId = none := by
    rw [authenticated_ready.represents.record?]
    rfl
  exact ⟨authenticated_run, rfl, hnone, counterevidence_stored,
    sample_authenticated (Or.inr rfl) countered_ready⟩

end RlmGraph.Claims.Authentication
