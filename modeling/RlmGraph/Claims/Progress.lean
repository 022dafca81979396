import RlmGraph.Claims.Histories

/-! # Calls that go through

A call raises when a check fails, and also when the identifier of its event,
a part of a digest, is already in use. `marking` is a digest without collisions
whose first bytes name the claim and the place of an event. Under it the calls
of short histories of two claims raise only when a check fails
(`propose_ready`, `appendEvidence_ready`, `authenticate_ready`,
`supersede_ready`). -/
namespace RlmGraph.Claims.Progress
open RlmGraph.Lib.Rows RlmGraph.Lib.JsonText RlmGraph.Lib.HashChain RlmGraph.Lib.PyText RlmGraph.Lib.Results
open RlmGraph.Claims.Ledger RlmGraph.Claims.Verify RlmGraph.Claims.Integrity RlmGraph.Claims.Records
open RlmGraph.Claims.Histories

/-! ## Hexadecimal digits -/

theorem digitChar_inj {m n : Nat} (hm : m < 16) (hn : n < 16) (h : m.digitChar = n.digitChar) :
    m = n := by
  have hall : ∀ a b : Fin 16, a.val.digitChar = b.val.digitChar → a = b := by decide
  have heq := hall ⟨m, hm⟩ ⟨n, hn⟩ h
  simpa using heq

def hexChars (byte : UInt8) : List Char := [(byte.toNat / 16).digitChar, (byte.toNat % 16).digitChar]

theorem hexChars_inj {a b : UInt8} (h : hexChars a = hexChars b) : a = b := by
  have ha := a.toNat_lt
  have hb := b.toNat_lt
  simp only [hexChars, List.cons.injEq, and_true] at h
  have hhigh := digitChar_inj (by omega) (by omega) h.1
  have hlow := digitChar_inj (Nat.mod_lt _ (by omega)) (Nat.mod_lt _ (by omega)) h.2
  exact UInt8.toNat_inj.mp (by omega)

theorem hexdigest_toList (bytes : Bytes) : (hexdigest bytes).toList = bytes.flatMap hexChars := by
  rw [hexdigest, String.toList_ofList]
  rfl

theorem length_flatMap_hexChars (bytes : Bytes) : (bytes.flatMap hexChars).length = 2 * bytes.length := by
  induction bytes with
  | nil => rfl
  | cons b bytes ih =>
    rw [List.flatMap_cons, List.length_append, ih, List.length_cons]
    simp only [hexChars, List.length_cons, List.length_nil]
    omega

/-- Different bytes have different digits. -/
theorem hexdigest_inj {as bs : Bytes} (h : hexdigest as = hexdigest bs) : as = bs := by
  have hlist := congrArg String.toList h
  rw [hexdigest_toList, hexdigest_toList] at hlist
  clear h
  induction as generalizing bs with
  | nil =>
    cases bs with
    | nil => rfl
    | cons b bs => cases hlist
  | cons a as ih =>
    cases bs with
    | nil => cases hlist
    | cons b bs =>
      rw [List.flatMap_cons, List.flatMap_cons] at hlist
      obtain ⟨hhead, htail⟩ := List.append_inj hlist rfl
      rw [hexChars_inj hhead, ih htail]

/-- The first 32 digits are those of the first 16 bytes. -/
theorem first32_hexdigest {as bs : Bytes} (h : as.length = 16) :
    first32 (hexdigest (as ++ bs)) = hexdigest as := by
  have hlength : (as.flatMap hexChars).length = 32 := by rw [length_flatMap_hexChars, h]
  rw [first32, hexdigest_toList, List.flatMap_append, List.take_left' hlength, ← hexdigest_toList,
    String.ofList_toList]

/-- 32 bytes make a well-formed digest. -/
theorem requireSha256_hexdigest {bytes : Bytes} (h : bytes.length = 32) (label : String) :
    requireSha256 (hexdigest bytes) label = .ok () := by
  have hdigits : ∀ n < 16, "0123456789abcdef".toList.contains (Nat.digitChar n) = true := by decide
  have hall : (bytes.flatMap hexChars).all ("0123456789abcdef".toList.contains ·) = true := by
    rw [List.all_eq_true]
    intro c hc
    obtain ⟨b, -, hc⟩ := List.mem_flatMap.mp hc
    have hb := b.toNat_lt
    simp only [hexChars, List.mem_cons, List.not_mem_nil, or_false] at hc
    rcases hc with rfl | rfl
    · exact hdigits _ (by omega)
    · exact hdigits _ (by omega)
  have hlength : (bytes.flatMap hexChars).length = 64 := by rw [length_flatMap_hexChars, h]
  rw [requireSha256, hexdigest_toList, hall, hlength]
  rfl

/-! ## A digest that marks events -/

/-- The text that bytes encode. -/
def readText (bytes : Bytes) : Option String := String.fromUTF8? ⟨bytes.toArray⟩

theorem readText_utf8 (text : String) : readText (utf8 text) = some text := by
  have hbytes : (⟨(utf8 text).toArray⟩ : ByteArray) = text.toByteArray := rfl
  rw [readText, hbytes, String.fromUTF8?, dif_pos text.isValidUTF8]
  rfl

/-- The claim, by the first byte of its name, and the place. -/
def mark (claimId : String) (sequence : Nat) : Bytes :=
  (utf8 claimId).headD 0 :: UInt8.ofNat sequence :: List.replicate 14 0

def markOf (bytes : Bytes) : Bytes :=
  match (readText bytes).bind loads with
  | none => List.replicate 16 0
  | some raw =>
    match raw.get? "claim_id", raw.get? "sequence" with
    | some (.str claimId), some (.int sequence) => mark claimId sequence.toNat
    | _, _ => List.replicate 16 0

/-- What is digested stands behind its mark. -/
def marking : Crypto where
  sha256 bytes := markOf bytes ++ bytes
  hmacSha256 secret bytes := secret ++ bytes

theorem markOf_length (bytes : Bytes) : (markOf bytes).length = 16 := by
  unfold markOf
  split
  · rfl
  · split <;> rfl

/-- There are no collisions. -/
theorem marking_injective : Function.Injective marking.sha256 := by
  intro a b h
  exact (List.append_inj h (by rw [markOf_length, markOf_length])).2

/-- The identifier of an event under `marking`. -/
def markId (claimId : String) (sequence : Nat) : String :=
  "CLAIM-EVENT-" ++ hexdigest (mark claimId sequence)

theorem first32_event (a : ClaimAssessment) (claimSha256 : String) (sequence : Nat)
    (previous : Option String) (kind id : String) :
    first32 (marking.sha256Text
      (canonicalJson (eventBody a claimSha256 sequence previous kind id))) =
        hexdigest (mark a.claimId sequence) := by
  obtain ⟨hclaim, -, hsequence, -⟩ := eventBody_get? a claimSha256 sequence previous kind id
  have hmark : markOf (utf8 (canonicalJson (eventBody a claimSha256 sequence previous kind id))) =
      mark a.claimId sequence := by
    rw [markOf, readText_utf8, Option.bind_some, loads_canonicalJson]
    simp only [hclaim, hsequence, Int.toNat_natCast]
  show first32 (hexdigest (markOf _ ++ _)) = _
  rw [first32_hexdigest (markOf_length _), hmark]

theorem markId_inj {claimId claimId' : String} {m n : Nat} (hm : m < 256) (hn : n < 256)
    (h : markId claimId m = markId claimId' n) :
    (utf8 claimId).headD 0 = (utf8 claimId').headD 0 ∧ m = n := by
  have hmark := hexdigest_inj ((String.append_right_inj _).mp h)
  simp only [mark, List.cons.injEq, and_true] at hmark
  refine ⟨hmark.1, ?_⟩
  have hnat := congrArg UInt8.toNat hmark.2
  simpa [Nat.mod_eq_of_lt hm, Nat.mod_eq_of_lt hn] using hnat

/-! ## Events go through -/

/-- The names of the events' claims differ in their first bytes, and the events
are few. -/
structure Short (names : List String) (t : Tables) : Prop where
  named : ∀ row ∈ t.stateEvents, row.claimId ∈ names
  few : t.stateEvents.length < 200

/-- Names that differ in their first bytes. -/
def Distinct (names : List String) : Prop :=
  ∀ a ∈ names, ∀ b ∈ names, (utf8 a).headD 0 = (utf8 b).headD 0 → a = b

variable {disk : Disk} {keys : AuthenticationKeys} {r r' : Registry} {t u : Tables}
  {names : List String} {claim : ClaimStatement} {claimId : String}

theorem eventId_eq_markId {row : EventRow} (h : EventSound marking u row) :
    row.eventId = markId row.claimId row.sequence := by
  obtain ⟨a, claimSha256, kind, id, hrow, -, -⟩ := h
  rw [hrow.eventId, hrow.digest, hrow.payload, first32_event, markId, hrow.claimId]

theorem insertEvent_goes {row : EventRow} (hid : ∀ event ∈ u.stateEvents, event.eventId ≠ row.eventId)
    (hplace : ∀ event ∈ u.stateEvents, event.claimId = row.claimId → event.sequence ≠ row.sequence)
    (hclaim : (u.claim? row.claimId).isSome = true) :
    u.insertEvent row = .ok { u with stateEvents := u.stateEvents ++ [row] } := by
  have hids : u.stateEvents.all (·.eventId != row.eventId) = true := by
    simpa using hid
  have hplaces : (u.stateEvents.all fun e => !(e.claimId == row.claimId && e.sequence == row.sequence)) =
      true := by
    rw [List.all_eq_true]
    intro event hmem
    by_cases hsame : event.claimId = row.claimId
    · simp [hsame, hplace event hmem hsame]
    · simp [hsame]
  unfold Tables.insertEvent
  rw [hids, hplaces, hclaim]
  rfl

/-- The place of the next event of a claim. -/
def place (u : Tables) (claimId : String) : Nat := (u.eventsOf claimId).getLast?.elim 1 (·.sequence + 1)

/-- The row of the next event. -/
def nextEvent (crypto : Crypto) (u : Tables) (a : ClaimAssessment) (claimSha256 kind id : String) :
    EventRow :=
  let previousSha256 := (u.eventsOf a.claimId).getLast?.map (·.eventSha256)
  let serialized := canonicalJson
    (eventBody a claimSha256 (place u a.claimId) previousSha256 kind id)
  ⟨"CLAIM-EVENT-" ++ first32 (crypto.sha256Text serialized), a.claimId, place u a.claimId,
    previousSha256, crypto.sha256Text serialized, serialized⟩

theorem appendEvent_eq {crypto : Crypto} {a : ClaimAssessment} {claimSha256 kind id : String}
    (hload : loadClaim u a.claimId = .ok (claim, claimSha256)) :
    appendEvent crypto u a kind id = u.insertEvent (nextEvent crypto u a claimSha256 kind id) := by
  simp only [appendEvent, hload, bind, Except.bind]
  rfl

theorem nextEvent_eventId (a : ClaimAssessment) (claimSha256 kind id : String) :
    (nextEvent marking u a claimSha256 kind id).eventId = markId a.claimId (place u a.claimId) := by
  rw [nextEvent, first32_event, markId]

theorem place_eq (hc : Chained eventLink u.stateEvents) (claimId : String) :
    place u claimId = nextSequence (endTip eventLink none (chainOf eventLink claimId u.stateEvents)) := by
  rw [place, endTip_eq_getLast?, ← eventsOf_eq_chainOf hc]
  cases (u.eventsOf claimId).getLast? <;> rfl

/-- The places of a claim's events are below the next one. -/
theorem sequence_lt {row : EventRow} (hc : Chained eventLink u.stateEvents)
    (hrow : row ∈ u.stateEvents) : row.sequence < place u row.claimId := by
  have hlinked := hc row.claimId
  have hmem : row ∈ chainOf eventLink row.claimId u.stateEvents :=
    List.mem_filter.mpr ⟨hrow, decide_eq_true rfl⟩
  have hplace : row.sequence ∈ (chainOf eventLink row.claimId u.stateEvents).map eventLink.sequence :=
    List.mem_map_of_mem hmem
  rw [hlinked.sequences, List.mem_range'_1] at hplace
  rw [place_eq hc, nextSequence_endTip hlinked]
  exact hplace.2

theorem place_le (hc : Chained eventLink u.stateEvents) (claimId : String) :
    place u claimId ≤ u.stateEvents.length + 1 := by
  have hlength := List.length_filter_le (fun row => decide (eventLink.key row = claimId)) u.stateEvents
  rw [place_eq hc, nextSequence_endTip (hc claimId)]
  show 1 + (List.filter _ _).length ≤ _
  omega

/-- **The next event has an identifier and a place of its own.** -/
theorem appendEvent_goes (hs : Sound marking disk u) (hdistinct : Distinct names)
    (hshort : Short names u) (a : ClaimAssessment) (kind id : String) {row : ClaimStatement × String}
    (hload : loadClaim u a.claimId = .ok row) (hname : a.claimId ∈ names) :
    ∃ event, appendEvent marking u a kind id =
      .ok { u with stateEvents := u.stateEvents ++ [event] } ∧ event.claimId = a.claimId := by
  obtain ⟨claim, claimSha256⟩ := row
  have hplace : ∀ event ∈ u.stateEvents, event.claimId = a.claimId →
      event.sequence < place u a.claimId := by
    intro event hevent hid
    rw [← hid]
    exact sequence_lt hs.chained hevent
  have hfresh : ∀ event ∈ u.stateEvents, event.eventId ≠ markId a.claimId (place u a.claimId) := by
    intro event hevent heq
    rw [eventId_eq_markId (hs.events event hevent)] at heq
    have hlt := sequence_lt hs.chained hevent
    have hle := place_le hs.chained event.claimId
    have hle' := place_le hs.chained a.claimId
    have hfew := hshort.few
    obtain ⟨hhead, hsequence⟩ := markId_inj (by omega) (by omega) heq
    have hlt' := hplace event hevent (hdistinct _ (hshort.named event hevent) _ hname hhead)
    omega
  have hsome : (u.claim? a.claimId).isSome = true := by
    have hsha := loadClaim_ok hload
    rw [← Option.isSome_map, hsha]
    rfl
  refine ⟨nextEvent marking u a claimSha256 kind id, ?_, rfl⟩
  rw [appendEvent_eq hload]
  refine insertEvent_goes ?_ (fun event hmem hsame => Nat.ne_of_lt (hplace event hmem hsame)) hsome
  rw [nextEvent_eventId]
  exact hfresh

/-! ## Calls go through -/

/-- The tables of a short history with `n` events, and their registry. -/
structure Ready (names : List String) (disk : Disk) (r : Registry) (t : Tables) (n : Nat) : Prop where
  sound : Sound marking disk t
  represents : Represents marking r t
  recorded : Registry.Sound marking r
  named : ∀ row ∈ t.stateEvents, row.claimId ∈ names
  events : t.stateEvents.length = n

theorem ready_empty (names : List String) (disk : Disk) : Ready names disk {} {} 0 where
  sound := (Run.empty disk).sound.1
  represents := ⟨rfl, rfl, rfl, rfl⟩
  recorded := sound_empty
  named _ h := by cases h
  events := rfl

/-- **A call that comes to its insert goes through.** -/
theorem ready_of_store {n : Nat} {c : LedgerCall} {kind id : String}
    (h : Ready names disk r t n) (hdistinct : Distinct names) (hn : n < 200)
    (keys : AuthenticationKeys) (hinserted : Inserted marking disk t u claimId kind id)
    (hevents : u.stateEvents = t.stateEvents)
    (hrep : Represents marking r' u) (hadded : Added marking keys disk r c r')
    (hclaim : r'.claim? claimId = some claim) (hname : claimId ∈ names)
    (hrun : runCall marking keys disk c t = do
      let a ← assess marking keys disk u claimId
      let t' ← appendEvent marking u a kind id
      return (a, t')) :
    Ready names disk r' (call marking keys disk c t).2 (n + 1) := by
  have hsound := inserted_sound hinserted h.sound
  have hrecorded := Added.sound hadded h.recorded
  obtain ⟨a, hassess, -⟩ := assess_of_represents hrep hclaim (hrecorded.schemaOf hclaim) keys disk
  obtain ⟨hid, -⟩ := assess_inventory hsound.recordIds hassess
  subst hid
  have hshort : Short names u := ⟨by rw [hevents]; exact h.named, by rw [hevents, h.events]; exact hn⟩
  obtain ⟨event, hevent, heventId⟩ := appendEvent_goes hsound hdistinct hshort a kind id
    (loadClaim_of_represents hrep hclaim (hrecorded.schemaOf hclaim)) hname
  have hok : runCall marking keys disk c t =
      .ok (a, { u with stateEvents := u.stateEvents ++ [event] }) := by
    rw [hrun]
    simp only [hassess, hevent, bind, Except.bind]
    rfl
  have hcall : (call marking keys disk c t).2 = { u with stateEvents := u.stateEvents ++ [event] } := by
    simp only [call, hok]
  rw [hcall]
  refine ⟨wrote_sound (runCall_wrote hok) h.sound, hrep.events _, hrecorded, ?_, ?_⟩
  · rw [hevents]
    exact forall_mem_concat h.named (by rw [heventId]; exact hname)
  · rw [hevents]
    simp [h.events]

section
variable {n : Nat} (h : Ready names disk r t n) (hdistinct : Distinct names) (hn : n < 200)
include h hdistinct hn

theorem propose_ready (keys : AuthenticationKeys) (hvalid : validateClaim claim = .ok claim)
    (hnew : r.claim? claim.claimId = none) (hname : claim.claimId ∈ names) :
    Ready names disk { r with claims := r.claims ++ [claim] }
      (call marking keys disk (.propose claim) t).2 (n + 1) := by
  have hschema := (validateClaim_ok hvalid).2
  have hnone : t.claim? claim.claimId = none := by rw [h.represents.claim?, hnew]; rfl
  have hrep := h.represents.addClaim claim
  refine ready_of_store h hdistinct hn keys (.claim claim hschema hnone) rfl hrep
    (.statement claim hschema hnew) (find?_append_new hnew (by simp)) hname ?_
  simp only [runCall, propose, hvalid, bind, Except.bind, hnone, Option.map_none, store,
    Tables.insertClaim]
  rfl

theorem appendEvidence_ready (keys : AuthenticationKeys) {evidence : ClaimEvidence} {path : String}
    (hvalid : validateEvidence marking disk evidence = .ok { evidence with artifactPath := path })
    (hnew : r.evidence? evidence.evidenceId = none) (hclaim : r.claim? evidence.claimId = some claim)
    (hname : evidence.claimId ∈ names) :
    Ready names disk { r with evidence := r.evidence ++ [{ evidence with artifactPath := path }] }
      (call marking keys disk (.appendEvidence evidence) t).2 (n + 1) := by
  have hnone : t.record? evidence.evidenceId = none := by rw [h.represents.record?, hnew]; rfl
  have hrow : t.claim? evidence.claimId = some (claimRow marking claim) := by
    rw [h.represents.claim?, hclaim]; rfl
  have hload := loadClaim_of_represents h.represents hclaim (h.recorded.schemaOf hclaim)
  obtain ⟨path', hpath, hstands⟩ := validateEvidence_eq hvalid
  have hrep := h.represents.addEvidence { evidence with artifactPath := path }
  refine ready_of_store h hdistinct hn keys
    (.record { evidence with artifactPath := path } (validateEvidence_ok hvalid) hnone) rfl hrep
    (.evidence evidence path hstands hnew) hclaim hname ?_
  simp only [runCall, appendEvidence, hvalid, hload, bind, Except.bind, hnone, Option.map_none, store,
    Tables.insertRecord, hrow]
  rfl

theorem supersede_ready (keys : AuthenticationKeys) {replacement reason : String}
    {other : ClaimStatement}
    (hreason : requireText reason "supersession reason" = .ok ())
    (hne : claimId ≠ replacement) (hclaim : r.claim? claimId = some claim)
    (hother : r.claim? replacement = some other) (hnew : r.replacement? claimId = none)
    (hname : claimId ∈ names) :
    Ready names disk { r with supersessions := r.supersessions ++ [⟨claimId, replacement, reason⟩] }
      (call marking keys disk (.supersede claimId replacement reason) t).2 (n + 1) := by
  have hnone : t.supersession? claimId = none := by
    rw [h.represents.supersession?, Option.map_eq_none_iff.mp hnew]; rfl
  have hrow : t.claim? claimId = some (claimRow marking claim) := by
    rw [h.represents.claim?, hclaim]; rfl
  have hrow' : t.claim? replacement = some (claimRow marking other) := by
    rw [h.represents.claim?, hother]; rfl
  have hload := loadClaim_of_represents h.represents hclaim (h.recorded.schemaOf hclaim)
  have hload' := loadClaim_of_represents h.represents hother (h.recorded.schemaOf hother)
  have hrep := h.represents.addSupersession ⟨claimId, replacement, reason⟩
  refine ready_of_store h hdistinct hn keys (.supersession claimId replacement reason hnone)
    rfl hrep (.supersession claimId replacement reason hne hnew (Option.isSome_of_eq_some hother))
    hclaim hname ?_
  have hdiffers : (claimId != replacement) = true := by simpa using hne
  simp only [runCall, supersede, hreason, hdiffers, require, hload, hload', bind, Except.bind, hnone,
    Option.map_none, store, Tables.insertSupersession, hrow, hrow']
  rfl

theorem authenticate_ready (keys : AuthenticationKeys) {keyId : String} {secret : Bytes}
    (hid : requireText keyId "authentication key id" = .ok ()) (hkey : keys keyId = some secret)
    (hclaim : r.claim? claim.claimId = some claim) (hempty : r.envelopes = [])
    (hactive : (r.maturity marking disk claim).disposition = .active)
    (hlevel : (r.maturity marking disk claim).level = .replicated) (hname : claim.claimId ∈ names) :
    Ready names disk { r with envelopes := [⟨keyId, secret, r.maturity marking disk claim⟩] }
      (call marking keys disk (.authenticate claim.claimId keyId) t).2 (n + 1) := by
  have hrows : t.authentications = [] := by rw [h.represents.authentications, hempty]; rfl
  have hrow : t.claim? claim.claimId = some (claimRow marking claim) := by
    rw [h.represents.claim?, hclaim]; rfl
  have hm : assessMaturity marking disk t claim.claimId = .ok (r.maturity marking disk claim) :=
    assessMaturity_of_represents h.represents hclaim (h.recorded.schemaOf hclaim)
  obtain ⟨state, hstate, -⟩ := authenticationState_of_represents h.represents keys
    (r.maturity marking disk claim)
  have hadded : Added marking keys disk r (.authenticate claim.claimId keyId)
      { r with envelopes := r.envelopes ++ [⟨keyId, secret, r.maturity marking disk claim⟩] } :=
    .envelope claim keyId secret hkey hclaim hactive hlevel
  rw [hempty] at hadded
  have hrep := h.represents.addEnvelope ⟨keyId, secret, r.maturity marking disk claim⟩
  rw [hempty] at hrep
  have hnone : ∀ id, t.authentication? id = none := by
    intro id
    rw [Tables.authentication?, hrows]
    rfl
  refine ready_of_store h hdistinct hn keys (.authentication _ _ _ rfl (hnone _)) rfl hrep
    hadded hclaim hname ?_
  simp only [runCall, authenticate, hid, hkey, Option.elim_some, hm, hstate, hactive, hlevel, require,
    bind, Except.bind, hnone, Option.map_none, store, Tables.insertAuthentication, hrow]
  rfl

end

/-! ## Sample records -/

/-- 32 times the same byte. -/
def digest (byte : UInt8) : String := hexdigest (List.replicate 32 byte)

@[simp] theorem requireSha256_digest (byte : UInt8) (label : String) :
    requireSha256 (digest byte) label = .ok () :=
  requireSha256_hexdigest List.length_replicate label

def statement (claimId : String) : ClaimStatement where
  claimId := claimId
  subject := "parser"
  assertion := "accepts good input"
  sourceManifestSha256 := digest 1
  policySha256 := digest 2
  requiredTestSpecSha256 := digest 3

theorem validateClaim_statement (hid : requireText claimId "claim id" = .ok ()) :
    validateClaim (statement claimId) = .ok (statement claimId) := by
  have hsubject : requireText "parser" "claim subject" = .ok () := by rfl
  have hassertion : requireText "accepts good input" "claim assertion" = .ok () := by rfl
  simp only [validateClaim, claimFields, statement, hid, hsubject, hassertion, requireSha256_digest,
    bind, Except.bind]
  rfl

@[simp] theorem digest_inj {a b : UInt8} : digest a = digest b ↔ a = b := by
  constructor
  · intro h
    have hbytes := hexdigest_inj h
    simpa using hbytes
  · rintro rfl
    rfl

/-- A disk on which every path is a file with the same bytes. -/
def shelf : Disk := ⟨some, fun _ => true, fun _ => some (List.replicate 16 0)⟩

def evidenceFor (evidenceId : String) (kind : EvidenceKind) (outcome : EvidenceOutcome)
    (policy : UInt8) (key : String) : ClaimEvidence where
  evidenceId := evidenceId
  claimId := "A"
  kind := kind
  artifactPath := "report"
  artifactSha256 := marking.sha256Bytes (List.replicate 16 0)
  sourceManifestSha256 := digest 1
  policySha256 := digest policy
  producerId := "worker"
  outcome := outcome
  testSpecSha256 := some (digest 3)
  runId := some "run"
  independenceKey := some key

theorem validateEvidence_evidenceFor {evidenceId key : String} {kind : EvidenceKind}
    {outcome : EvidenceOutcome} {policy : UInt8}
    (hid : requireText evidenceId "evidence id" = .ok ())
    (hkind : evidenceKindRules (evidenceFor evidenceId kind outcome policy key) = .ok ()) :
    validateEvidence marking shelf (evidenceFor evidenceId kind outcome policy key) =
      .ok { evidenceFor evidenceId kind outcome policy key with artifactPath := "report" } := by
  have hclaim : requireText "A" "claim id" = .ok () := rfl
  have hproducer : requireText "worker" "evidence producer" = .ok () := rfl
  have hartifact : requireSha256 (marking.sha256Bytes (List.replicate 16 0)) "artifact hash" = .ok () :=
    requireSha256_hexdigest (by simp [marking, markOf_length]) _
  have hfields : evidenceFields (evidenceFor evidenceId kind outcome policy key) = .ok () := by
    simp only [evidenceFields, evidenceFor, hid, hclaim, hproducer, hartifact, requireSha256_digest, bind,
      Except.bind]
    rfl
  have hfile : evidenceArtifact marking shelf (evidenceFor evidenceId kind outcome policy key) =
      .ok "report" := by
    simp [evidenceArtifact, evidenceFor, shelf, require, bind, Except.bind, pure, Except.pure]
  simp only [validateEvidence, hfields, hfile, hkind, bind, Except.bind]
  rfl

theorem stands_evidenceFor {evidenceId key : String} {kind : EvidenceKind} {outcome : EvidenceOutcome}
    {policy : UInt8} : stands marking shelf (evidenceFor evidenceId kind outcome policy key) = true := by
  simp [stands, shelf, evidenceFor]

/-- The sample evidence is bound to the sample claim by its policy. -/
theorem bound_evidenceFor {evidenceId key : String} {kind : EvidenceKind} {outcome : EvidenceOutcome}
    {policy : UInt8} :
    bound (statement "A") (evidenceFor evidenceId kind outcome policy key) = (policy == 2) := by
  rw [Bool.eq_iff_iff]
  simp [bound, statement, evidenceFor]

end RlmGraph.Claims.Progress
