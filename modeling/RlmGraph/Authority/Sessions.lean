import RlmGraph.Lib.Base64
import RlmGraph.Lib.PyError
import RlmGraph.Lib.Results
import RlmGraph.Authority.Keyring

/-! # Session tokens

A token is a body and its signature, each in base64. The token is taken apart
before anything is checked, and what the decoders raise is caught as long as it
is a `ValueError`. A signature that is no object, or whose value is not ASCII,
passes the decoders and raises something else (`authenticates_iff`). The hash,
the JSON decoder and the formats of times are the host's. -/
namespace RlmGraph.Authority.Sessions
open RlmGraph.Lib RlmGraph.Lib.JsonText RlmGraph.Lib.PyText
open RlmGraph.Authority.Keyring

/-! ## Values -/

/-- What `json.loads` gives. A floating point number is its text, and an object
has each key once. -/
inductive Value where
  | null
  | bool (b : Bool)
  | int (n : Int)
  | float (text : String)
  | str (s : String)
  | arr (items : List Value)
  | obj (members : List (String × Value))

/-- `type(value).__name__`. -/
def Value.typeName : Value → String
  | .null => "NoneType"
  | .bool _ => "bool"
  | .int _ => "int"
  | .float _ => "float"
  | .str _ => "str"
  | .arr _ => "list"
  | .obj _ => "dict"

mutual

def Value.ofJson : Json → Value
  | .null => .null
  | .bool b => .bool b
  | .int n => .int n
  | .str s => .str s
  | .arr items => .arr (Value.ofItems items)
  | .obj fields => .obj (Value.ofFields fields)

def Value.ofItems : List Json → List Value
  | [] => []
  | item :: items => Value.ofJson item :: Value.ofItems items

def Value.ofFields : List (String × Json) → List (String × Value)
  | [] => []
  | (k, v) :: fields => (k, Value.ofJson v) :: Value.ofFields fields

end

/-- A time with its offset, in microseconds since the epoch, or without one. -/
inductive Moment where
  | aware (micros : Int)
  | naive (micros : Int)
  deriving DecidableEq

/-- `datetime.max`, in microseconds since the epoch. -/
def lastMoment : Nat := 253402300799999999

/-- An object of texts. -/
def texts (members : List (String × String)) : Json := .obj (members.map fun m => (m.1, .str m.2))

/-- The layout of a session body. -/
def compact : Style := ⟨true, false⟩

structure SessionHost where
  hmacSha256 : Bytes → Bytes → Bytes
  /-- `json.loads` of bytes. -/
  loads : Bytes → Except PyError Value
  /-- `str` of a value that is not a string. -/
  text : Value → String
  isoformat : Nat → String
  fromisoformat : String → Except PyError Moment
  loads_dumps : ∀ members style, (members.map Prod.fst).Nodup →
    loads (utf8 (dumps style (texts members))) = .ok (.ofJson (canon (texts members)))
  fromisoformat_isoformat : ∀ t ≤ lastMoment, fromisoformat (isoformat t) = .ok (.aware t)

variable (host : SessionHost)

/-- `str(value)`. -/
def SessionHost.str : Value → String
  | .str s => s
  | value => host.text value

/-- The hash, with the encoding of `_b64` and `_unb64`. -/
def SessionHost.mac : Mac where
  hmacSha256 := host.hmacSha256
  b64 := Base64.encode
  unb64 value := (Base64.decode value).getD []

/-! ## The keyring on decoded signatures -/

/-- `value.get(key)`. -/
def Value.get? : Value → String → Except PyError (Option Value)
  | .obj members, key => .ok (members.lookup key)
  | value, _ => .error (.other "AttributeError" s!"'{value.typeName}' object has no attribute 'get'")

/-- `hmac.compare_digest` of texts. -/
def compareDigest (a b : String) : Except PyError Bool :=
  if isAscii a && isAscii b then .ok (a == b)
  else .error (.type "comparing strings with non-ASCII characters is not supported")

/-- Whether the value is this text. -/
def isText (value : Option Value) (text : String) : Bool :=
  match value with
  | some (.str s) => s == text
  | _ => false

/-- `verify`, with a signature as it is decoded. -/
def verifyDecoded (data : KeyFile) (purpose : String) (payload : Bytes) (signature : Value) :
    Except PyError (Bool × String) := do
  let keyId ← signature.get? "key_id"
  if data.revoked.any fun item => isText keyId item.id then return (false, "signing key is revoked")
  match data.keys.find? fun item => isText keyId item.id with
  | none => return (false, "signing key is unavailable")
  | some key =>
    let algorithm ← signature.get? "algorithm"
    if !isText algorithm "HMAC-SHA256" then return (false, "unsupported signature algorithm")
    let value ← signature.get? "value"
    let same ← compareDigest (signWith host.mac key purpose payload) (host.str (value.getD (.str "")))
    return (same, "verified")

/-! ## Sessions -/

def sessionPurpose : String := "RLMGRAPH_SESSION_V1"

/-- What a session is issued for. -/
structure SessionClaims where
  sub : String
  org : String
  sid : String
  iat : Nat
  exp : Nat
  deriving DecidableEq

/-- The claims of a session, in the order of their keys. -/
def SessionClaims.members (claims : SessionClaims) : List (String × String) :=
  [("amr", "managed-local-key"), ("exp", host.isoformat claims.exp),
    ("iat", host.isoformat claims.iat), ("org", claims.org), ("sid", claims.sid), ("sub", claims.sub)]

def SessionClaims.body (claims : SessionClaims) : Bytes :=
  utf8 (dumps compact (texts (claims.members host)))

/-- A signature, in the order of its keys. -/
def signatureMembers (mac : Mac) (key : Key) (payload : Bytes) : List (String × String) :=
  [("algorithm", "HMAC-SHA256"), ("key_id", key.id), ("value", signWith mac key sessionPurpose payload)]

/-- The token of some claims. -/
def SessionClaims.token (claims : SessionClaims) (key : Key) : String :=
  Base64.encode (claims.body host) ++ "." ++
    Base64.encode (utf8 (dumps ⟨true, true⟩
      (texts (signatureMembers host.mac key (claims.body host)))))

/-- `issue`: the claims whose token it returns. -/
def issue (now : Nat) (sid subject organizationId : String) (ttlSeconds : Int) :
    Except PyError SessionClaims :=
  if strip subject = "" ∨ strip organizationId = "" ∨ ttlSeconds ≤ 0 then
    .error (.value "Session subject, organization, and positive lifetime are required.")
  else if lastMoment < now + ttlSeconds.toNat * 1000000 then
    .error (.other "OverflowError" "date value out of range")
  else .ok ⟨subject, organizationId, sid, now, now + ttlSeconds.toNat * 1000000⟩

structure AuthenticatedIdentity where
  subject : Value
  organizationId : Value
  sessionId : Value
  authenticationMethod : Value
  authenticatedAt : Moment
  expiresAt : Moment

/-- `token.split(".", 1)`. -/
def splitToken (token : String) : Except PyError (String × String) :=
  match token.toList.span (· ≠ '.') with
  | (before, _ :: after) => .ok (String.ofList before, String.ofList after)
  | (_, []) => .error (.value "not enough values to unpack (expected 2, got 1)")

def unb64 (value : String) : Except PyError Bytes :=
  match Base64.decode value with
  | some data => .ok data
  | none => .error (.value "Invalid base64-encoded string")

/-- A token taken apart: the body, the signature and the claims. -/
def decodeToken (token : String) : Except PyError (Bytes × Value × Value) := do
  let (bodyValue, signatureValue) ← splitToken token
  let body ← unb64 bodyValue
  let signature ← host.loads (← unb64 signatureValue)
  let claims ← host.loads body
  return (body, signature, claims)

/-- `value[key]`. -/
def Value.item : Value → String → Except PyError Value
  | .obj members, key => (members.lookup key).elim (.error (.key key)) .ok
  | .arr _, _ => .error (.type "list indices must be integers or slices, not str")
  | .str _, _ => .error (.type "string indices must be integers, not 'str'")
  | value, _ => .error (.type s!"'{value.typeName}' object is not subscriptable")

/-- `datetime.fromisoformat` of a value. -/
def SessionHost.moment : Value → Except PyError Moment
  | .str s => host.fromisoformat s
  | _ => .error (.type "fromisoformat: argument must be str")

/-- `now >= expires`. -/
def Moment.reached : Moment → Moment → Except PyError Bool
  | .aware now, .aware expires | .naive now, .naive expires => .ok (decide (expires ≤ now))
  | _, _ => .error (.type "can't compare offset-naive and offset-aware datetimes")

/-- The identity of verified claims. -/
def identify (clock : Nat) (now : Option Moment) (claims : Value) :
    Except PyError AuthenticatedIdentity := do
  let expires ← host.moment (← claims.item "exp")
  if ← (now.getD (.aware clock)).reached expires then
    throw (.value "Authenticated session expired.")
  let subject ← claims.item "sub"
  let organizationId ← claims.item "org"
  let sessionId ← claims.item "sid"
  let authenticationMethod ← claims.item "amr"
  let authenticatedAt ← host.moment (← claims.item "iat")
  return ⟨subject, organizationId, sessionId, authenticationMethod, authenticatedAt, expires⟩

/-- `authenticate`, with the key file that `initialize` reads. -/
def authenticate (data : KeyFile) (clock : Nat) (token : String) (now : Option Moment) :
    Except PyError AuthenticatedIdentity :=
  match decodeToken host token with
  | .error (.value _) => .error (.value "Malformed authenticated session.")
  | .error e => .error e
  | .ok (body, signature, claims) =>
    if !data.validate then .error (.value "Invalid managed keyring.")
    else do
      let (valid, reason) ← verifyDecoded host data sessionPurpose body signature
      if !valid then throw (.value s!"Authenticated session rejected: {reason}.")
      identify host clock now claims

/-! ## Decoded texts -/

section
variable {host}

theorem ofFields_texts (members : List (String × String)) :
    Value.ofFields (members.map fun m => (m.1, Json.str m.2)) =
      members.map fun m => (m.1, Value.str m.2) := by
  induction members with
  | nil => rfl
  | cons m members ih => simp only [List.map_cons, Value.ofFields, Value.ofJson, ih]

/-- Members in the order of their keys stay in it. -/
theorem canon_texts {members : List (String × String)}
    (hsorted : (members.map Prod.fst).Pairwise (· ≤ ·)) : canon (texts members) = texts members := by
  unfold texts
  have hfixed : canonFields (members.map fun m => (m.1, Json.str m.2)) =
      members.map fun m => (m.1, Json.str m.2) := by
    refine canonFields_fixed fun f hf => ?_
    obtain ⟨m, -, rfl⟩ := List.mem_map.mp hf
    rw [canon_str]
  have hpairs : (members.map fun m => (m.1, Json.str m.2)).Pairwise keyLE := by
    rw [List.pairwise_map] at hsorted ⊢
    exact hsorted
  rw [canon, hfixed, hpairs.insertionSort_eq]

theorem loads_texts {members : List (String × String)} (style : Style)
    (hkeys : (members.map Prod.fst).Nodup) (hsorted : (members.map Prod.fst).Pairwise (· ≤ ·)) :
    host.loads (utf8 (dumps style (texts members))) =
      .ok (.obj (members.map fun m => (m.1, Value.str m.2))) := by
  rw [host.loads_dumps members style hkeys, canon_texts hsorted, texts, Value.ofJson, ofFields_texts]

/-- The claims as they are decoded. -/
def SessionClaims.decoded (host : SessionHost) (claims : SessionClaims) : Value :=
  .obj ((claims.members host).map fun m => (m.1, Value.str m.2))

theorem loads_body (claims : SessionClaims) :
    host.loads (claims.body host) = .ok (claims.decoded host) :=
  loads_texts compact (by change ["amr", "exp", "iat", "org", "sid", "sub"].Nodup; decide)
    (by change ["amr", "exp", "iat", "org", "sid", "sub"].Pairwise (· ≤ ·); decide +kernel)

/-- The members of a signature as they are decoded. -/
def decodedSignature (mac : Mac) (key : Key) (payload : Bytes) : List (String × Value) :=
  (signatureMembers mac key payload).map fun m => (m.1, Value.str m.2)

theorem loads_signature (key : Key) (payload : Bytes) :
    host.loads (utf8 (dumps ⟨true, true⟩ (texts (signatureMembers host.mac key payload)))) =
      .ok (.obj (decodedSignature host.mac key payload)) :=
  loads_texts ⟨true, true⟩ (by change ["algorithm", "key_id", "value"].Nodup; decide)
    (by change ["algorithm", "key_id", "value"].Pairwise (· ≤ ·); decide +kernel)

/-- The identity of some claims. -/
def SessionClaims.identity (claims : SessionClaims) : AuthenticatedIdentity :=
  ⟨.str claims.sub, .str claims.org, .str claims.sid, .str "managed-local-key",
    .aware claims.iat, .aware claims.exp⟩

theorem identify_decoded {claims : SessionClaims} (hiat : claims.iat ≤ lastMoment)
    (hexp : claims.exp ≤ lastMoment) (clock : Nat) (now : Option Moment) :
    identify host clock now (claims.decoded host) =
      match now.getD (.aware clock) with
      | .aware t => if claims.exp ≤ t then .error (.value "Authenticated session expired.")
        else .ok claims.identity
      | .naive _ => .error (.type "can't compare offset-naive and offset-aware datetimes") := by
  have hexpires := host.fromisoformat_isoformat claims.exp hexp
  have hissued := host.fromisoformat_isoformat claims.iat hiat
  have hitem : ∀ key value, ((claims.members host).map fun m => (m.1, Value.str m.2)).lookup key =
      some value → (claims.decoded host).item key = .ok value := by
    intro key value h
    change (((claims.members host).map fun m => (m.1, Value.str m.2)).lookup key).elim _ _ = _
    rw [h]
    rfl
  unfold identify
  rw [hitem "exp" _ rfl, hitem "sub" _ rfl, hitem "org" _ rfl, hitem "sid" _ rfl,
    hitem "amr" _ rfl, hitem "iat" _ rfl]
  change (host.fromisoformat (host.isoformat claims.exp) >>= fun expires => _) = _
  rw [hexpires]
  cases now.getD (.aware clock) with
  | naive t => rfl
  | aware t =>
    dsimp only
    by_cases hover : (claims.exp : Int) ≤ t
    · rw [if_pos hover]
      change (if decide ((claims.exp : Int) ≤ t) = true then _ else _) = _
      rw [if_pos (decide_eq_true hover)]
      rfl
    · rw [if_neg hover]
      change (if decide ((claims.exp : Int) ≤ t) = true then _ else
        host.fromisoformat (host.isoformat claims.iat) >>= fun issued => _) = _
      rw [if_neg (by simpa using hover), hissued]
      rfl

/-! ## Signatures -/

/-- A key the keyring verifies with: the key an identifier names, unless it is revoked. -/
def Live (data : KeyFile) (key : Key) : Prop :=
  key.id ∉ data.revoked.map (·.id) ∧ data.keys.find? (·.id == key.id) = some key

/-- The signature names a live key and the algorithm. -/
structure Addresses (data : KeyFile) (members : List (String × Value)) (key : Key) : Prop where
  keyId : members.lookup "key_id" = some (.str key.id)
  live : Live data key
  algorithm : members.lookup "algorithm" = some (.str "HMAC-SHA256")

/-- The text of the value of a signature. -/
def valueText (host : SessionHost) (members : List (String × Value)) : String :=
  host.str ((members.lookup "value").getD (.str ""))

theorem isText_iff {value : Option Value} {text : String} :
    isText value text = true ↔ value = some (.str text) := by
  unfold isText
  split
  · next s => simp
  · next h => exact ⟨fun h => (nomatch h), fun heq => (h text heq).elim⟩

/-- A signature addresses one key at most. -/
theorem Addresses.unique {data : KeyFile} {members : List (String × Value)} {key other : Key}
    (h : Addresses data members key) (hother : Addresses data members other) : key = other := by
  have hid : key.id = other.id := by
    have hsame := h.keyId.symm.trans hother.keyId
    simpa using hsame
  have hfind := h.live.2
  rw [hid, hother.live.2] at hfind
  exact (Option.some.inj hfind).symm

theorem verifyDecoded_addressed {data : KeyFile} {members : List (String × Value)} {key : Key}
    (h : Addresses data members key) (payload : Bytes) :
    verifyDecoded host data sessionPurpose payload (.obj members) =
      (compareDigest (signWith host.mac key sessionPurpose payload) (valueText host members)).map
        fun same => (same, "verified") := by
  have hrevoked : (data.revoked.any fun item => isText (some (.str key.id)) item.id) = false := by
    rw [List.any_eq_false]
    intro item hitem hsame
    have hid : key.id = item.id := by simpa [isText] using hsame
    exact h.live.1 (List.mem_map.mpr ⟨item, hitem, hid.symm⟩)
  have hfind : (data.keys.find? fun item => isText (some (.str key.id)) item.id) = some key := by
    rw [← h.live.2]
    congr 1
    funext item
    exact Bool.beq_comm
  have halgorithm : isText (some (.str "HMAC-SHA256")) "HMAC-SHA256" = true := isText_iff.mpr rfl
  unfold verifyDecoded
  change (if (data.revoked.any fun item => isText (members.lookup "key_id") item.id) = true then _
    else _) = _
  rw [h.keyId, hrevoked, if_neg Bool.false_ne_true, hfind]
  change (if (!isText (members.lookup "algorithm") "HMAC-SHA256") = true then _ else _) = _
  rw [h.algorithm, halgorithm]
  rfl

theorem verifyDecoded_unaddressed {data : KeyFile} {members : List (String × Value)}
    (h : ∀ key, ¬Addresses data members key) (payload : Bytes) :
    ∃ reason, verifyDecoded host data sessionPurpose payload (.obj members) = .ok (false, reason) := by
  unfold verifyDecoded
  change ∃ reason, (if (data.revoked.any fun item => isText (members.lookup "key_id") item.id) = true
    then _ else _) = _
  by_cases hrevoked : (data.revoked.any fun item => isText (members.lookup "key_id") item.id) = true
  · rw [if_pos hrevoked]
    exact ⟨_, rfl⟩
  · rw [if_neg hrevoked]
    cases hfind : data.keys.find? fun item => isText (members.lookup "key_id") item.id with
    | none => exact ⟨_, rfl⟩
    | some key =>
      have hkeyId : members.lookup "key_id" = some (.str key.id) := by
        have hsome := List.find?_some hfind
        exact isText_iff.mp hsome
      by_cases halgorithm : isText (members.lookup "algorithm") "HMAC-SHA256" = true
      · exfalso
        refine h key ⟨hkeyId, ⟨fun hmem => hrevoked ?_, ?_⟩, isText_iff.mp halgorithm⟩
        · obtain ⟨item, hitem, hid⟩ := List.mem_map.mp hmem
          refine List.any_eq_true.mpr ⟨item, hitem, isText_iff.mpr ?_⟩
          rw [hkeyId, hid]
        · rw [← hfind, hkeyId]
          congr 1
          funext item
          exact Bool.beq_comm
      · refine ⟨"unsupported signature algorithm", ?_⟩
        change (if (!isText (members.lookup "algorithm") "HMAC-SHA256") = true then _ else _) = _
        rw [if_pos (by simpa using halgorithm)]
        rfl

/-! ## Installations -/

/-- A session the keyring has signed. -/
structure Issued where
  key : Key
  claims : SessionClaims

/-- The key file, and the sessions signed so far. -/
structure Installation where
  file : KeyFile
  issued : List Issued := []

/-- Sessions are signed by `issue`, with the active key of the file. The file
may change in any way that leaves it valid. -/
inductive Reachable (host : SessionHost) : Installation → Prop
  | installed {file : KeyFile} (hvalid : file.validate = true) : Reachable host { file := file }
  | managed {inst : Installation} (h : Reachable host inst) {file : KeyFile}
      (hvalid : file.validate = true) : Reachable host { inst with file := file }
  | issue {inst : Installation} (h : Reachable host inst) {now : Nat} {sid subject org : String}
      {ttl : Int} {claims : SessionClaims} (hissue : issue now sid subject org ttl = .ok claims) :
      Reachable host { inst with issued := ⟨inst.file.active, claims⟩ :: inst.issued }

theorem issue_bounds {now : Nat} {sid subject org : String} {ttl : Int} {claims : SessionClaims}
    (h : issue now sid subject org ttl = .ok claims) :
    claims.iat ≤ lastMoment ∧ claims.exp ≤ lastMoment := by
  unfold issue at h
  split at h
  · cases h
  · split at h
    · cases h
    · next hlast =>
      obtain rfl := Except.ok.inj h
      exact ⟨le_trans (Nat.le_add_right _ _) (Nat.le_of_not_lt hlast), Nat.le_of_not_lt hlast⟩

/-- What holds of every installation. -/
structure Sound (inst : Installation) : Prop where
  valid : inst.file.validate = true
  bounds : ∀ session ∈ inst.issued,
    session.claims.iat ≤ lastMoment ∧ session.claims.exp ≤ lastMoment

theorem Reachable.sound {inst : Installation} (h : Reachable host inst) : Sound inst := by
  induction h with
  | installed hvalid => exact ⟨hvalid, fun session hsession => nomatch hsession⟩
  | managed h hvalid ih => exact ⟨hvalid, ih.bounds⟩
  | issue h hissue ih =>
    refine ⟨ih.valid, fun session hsession => ?_⟩
    cases hsession with
    | head => exact issue_bounds hissue
    | tail _ hsession => exact ih.bounds session hsession

/-- The token is the body of a session the keyring has signed, with its
signature under a key that is live. -/
structure Genuine (host : SessionHost) (inst : Installation) (token : String) (session : Issued) :
    Prop where
  issued : session ∈ inst.issued
  signed : ∃ members claims,
    decodeToken host token = .ok (session.claims.body host, .obj members, claims) ∧
      Addresses inst.file members session.key ∧
      valueText host members =
        signWith host.mac session.key sessionPurpose (session.claims.body host)

/-- No signature in the token is forged: if it is the keyring's, a session has
been signed with it. -/
def Unforged (host : SessionHost) (inst : Installation) (token : String) : Prop :=
  ∀ body members claims key, decodeToken host token = .ok (body, .obj members, claims) →
    Addresses inst.file members key → valueText host members = signWith host.mac key sessionPurpose body →
      ∃ session ∈ inst.issued, session.key = key ∧ session.claims.body host = body

/-- The time is before the session's expiry. -/
def Before (moment : Moment) (session : Issued) : Prop :=
  ∃ t : Int, moment = .aware t ∧ t < session.claims.exp

/-- A token is accepted, with the identity of its session, exactly if it is
genuine and the time is before its expiry; any other is refused with `ValueError`. -/
structure AsClaimed (host : SessionHost) (inst : Installation) (clock : Nat) (token : String)
    (now : Option Moment) : Prop where
  accepted : ∀ identity, authenticate host inst.file clock token now = .ok identity ↔
    ∃ session, Genuine host inst token session ∧ Before (now.getD (.aware clock)) session ∧
      identity = session.claims.identity
  refused : ∀ e, authenticate host inst.file clock token now = .error e → ∃ message, e = .value message

/-- The tokens and times the exceptions of `authenticate` are made for. -/
structure Tame (host : SessionHost) (inst : Installation) (token : String) (moment : Moment) :
    Prop where
  /-- No part nests too deep for the decoder. -/
  decodes : ∀ e, decodeToken host token = .error e → ∃ message, e = .value message
  /-- The signature is an object. -/
  object : ∀ body signature claims, decodeToken host token = .ok (body, signature, claims) →
    ∃ members, signature = .obj members
  /-- The value of a signature that names a live key is ASCII. -/
  ascii : ∀ body members claims key, decodeToken host token = .ok (body, .obj members, claims) →
    Addresses inst.file members key → isAscii (valueText host members) = true
  /-- The time has an offset when a genuine token is checked against it. -/
  aware : ∀ session t, Genuine host inst token session → moment ≠ .naive t

theorem authenticate_decoded {data : KeyFile} (hvalid : data.validate = true) {clock : Nat}
    {token : String} {now : Option Moment} {body : Bytes} {signature claims : Value}
    (h : decodeToken host token = .ok (body, signature, claims)) :
    authenticate host data clock token now =
      match verifyDecoded host data sessionPurpose body signature with
      | .error e => .error e
      | .ok (false, reason) => .error (.value s!"Authenticated session rejected: {reason}.")
      | .ok (true, _) => identify host clock now claims := by
  unfold authenticate
  rw [h]
  dsimp only
  rw [hvalid]
  cases verifyDecoded host data sessionPurpose body signature with
  | error e => rfl
  | ok verdict =>
    obtain ⟨valid, reason⟩ := verdict
    cases valid <;> rfl

/-! ## What becomes of a token -/

variable {inst : Installation} {clock : Nat} {token : String} {now : Option Moment}

theorem Genuine.decoded {session : Issued} {body : Bytes} {members : List (String × Value)}
    {claims : Value} (h : Genuine host inst token session)
    (hdecodes : decodeToken host token = .ok (body, .obj members, claims)) :
    session.claims.body host = body ∧ Addresses inst.file members session.key ∧
      valueText host members = signWith host.mac session.key sessionPurpose body := by
  obtain ⟨members', claims', hdecodes', haddresses, hvalue⟩ := h.signed
  -- the two readings of the token are compared part by part
  obtain ⟨hbody, hrest⟩ := Prod.mk.inj (Except.ok.inj (hdecodes.symm.trans hdecodes'))
  obtain rfl := Value.obj.inj (Prod.mk.inj hrest).1
  rw [hbody]
  exact ⟨rfl, haddresses, hvalue⟩

theorem signWith_ascii (key : Key) (payload : Bytes) :
    isAscii (signWith host.mac key sessionPurpose payload) = true :=
  Base64.encode_ascii _

/-- A token that no session is genuine with, and that is refused as it should be. -/
theorem asClaimed_of_refused {message : String}
    (h : authenticate host inst.file clock token now = .error (.value message))
    (hnone : ∀ session, ¬Genuine host inst token session) :
    AsClaimed host inst clock token now where
  accepted identity := by
    rw [h]
    constructor
    · intro hok
      cases hok
    · rintro ⟨session, hgenuine, -⟩
      exact absurd hgenuine (hnone session)
  refused e he := by
    rw [h] at he
    exact ⟨message, (Except.error.inj he).symm⟩

theorem not_asClaimed {e : PyError} (h : authenticate host inst.file clock token now = .error e)
    (he : ∀ message, e ≠ .value message) : ¬AsClaimed host inst clock token now := by
  intro hclaimed
  obtain ⟨message, hvalue⟩ := hclaimed.refused e h
  exact he message hvalue

/-- A token that does not decode. -/
theorem iff_of_error {e : PyError} (h : decodeToken host token = .error e) :
    AsClaimed host inst clock token now ↔ Tame host inst token (now.getD (.aware clock)) := by
  have hnone : ∀ session, ¬Genuine host inst token session := by
    intro session hgenuine
    obtain ⟨members, claims, hdecodes, -⟩ := hgenuine.signed
    rw [h] at hdecodes
    cases hdecodes
  by_cases hvalue : ∃ message, e = .value message
  · obtain ⟨message, rfl⟩ := hvalue
    have hrefused : authenticate host inst.file clock token now =
        .error (.value "Malformed authenticated session.") := by
      unfold authenticate
      rw [h]
    refine iff_of_true (asClaimed_of_refused hrefused hnone) ⟨?_, ?_, ?_, ?_⟩
    · intro e he
      rw [h] at he
      exact ⟨message, (Except.error.inj he).symm⟩
    · intro body signature claims hdecodes
      rw [h] at hdecodes
      cases hdecodes
    · intro body members claims key hdecodes
      rw [h] at hdecodes
      cases hdecodes
    · exact fun session t hgenuine => absurd hgenuine (hnone session)
  · have hraises : authenticate host inst.file clock token now = .error e := by
      unfold authenticate
      rw [h]
      cases e with
      | value message => exact absurd ⟨message, rfl⟩ hvalue
      | _ => rfl
    refine iff_of_false (not_asClaimed hraises fun message he => hvalue ⟨message, he⟩) fun htame => ?_
    exact hvalue (htame.decodes e h)

theorem get?_not_object {signature : Value} (h : ∀ members, signature ≠ .obj members) (key : String) :
    ∃ message, signature.get? key = .error (.other "AttributeError" message) := by
  cases signature with
  | obj members => exact absurd rfl (h members)
  | _ => exact ⟨_, rfl⟩

/-- A token whose signature is no object. -/
theorem iff_of_not_object (hvalid : inst.file.validate = true) {body : Bytes}
    {signature claims : Value} (h : decodeToken host token = .ok (body, signature, claims))
    (hobject : ∀ members, signature ≠ .obj members) :
    AsClaimed host inst clock token now ↔ Tame host inst token (now.getD (.aware clock)) := by
  obtain ⟨message, hget⟩ := get?_not_object hobject "key_id"
  have hraises : authenticate host inst.file clock token now =
      .error (.other "AttributeError" message) := by
    rw [authenticate_decoded hvalid h]
    unfold verifyDecoded
    rw [hget]
    rfl
  refine iff_of_false (not_asClaimed hraises fun message he => nomatch he) fun htame => ?_
  obtain ⟨members, hmembers⟩ := htame.object body signature claims h
  exact hobject members hmembers

/-- A decoded token is tame, but for what its signature and the time may do. -/
theorem tame_of_decoded {body : Bytes} {members : List (String × Value)} {claims : Value}
    {moment : Moment} (h : decodeToken host token = .ok (body, .obj members, claims))
    (hascii : ∀ key, Addresses inst.file members key → isAscii (valueText host members) = true)
    (haware : ∀ session t, Genuine host inst token session → moment ≠ .naive t) :
    Tame host inst token moment where
  decodes e he := by
    rw [h] at he
    cases he
  object body' signature' claims' hdecodes := by
    rw [h] at hdecodes
    cases hdecodes
    exact ⟨members, rfl⟩
  ascii body' members' claims' key hdecodes haddresses := by
    rw [h] at hdecodes
    cases hdecodes
    exact hascii key haddresses
  aware := haware

/-- A token whose signature addresses no key. -/
theorem iff_of_unaddressed (hvalid : inst.file.validate = true) {body : Bytes}
    {members : List (String × Value)} {claims : Value}
    (h : decodeToken host token = .ok (body, .obj members, claims))
    (hnone : ∀ key, ¬Addresses inst.file members key) :
    AsClaimed host inst clock token now ↔ Tame host inst token (now.getD (.aware clock)) := by
  have hungenuine : ∀ session, ¬Genuine host inst token session := fun session hgenuine =>
    hnone session.key (hgenuine.decoded h).2.1
  obtain ⟨reason, hverify⟩ := @verifyDecoded_unaddressed host _ _ hnone body
  have hrefused : authenticate host inst.file clock token now =
      .error (.value s!"Authenticated session rejected: {reason}.") := by
    rw [authenticate_decoded hvalid h, hverify]
  refine iff_of_true (asClaimed_of_refused hrefused hungenuine) (tame_of_decoded h ?_ ?_)
  · exact fun key haddresses => absurd haddresses (hnone key)
  · exact fun session t hgenuine => absurd hgenuine (hungenuine session)

theorem decodeToken_claims {body : Bytes} {signature claims : Value}
    (h : decodeToken host token = .ok (body, signature, claims)) : host.loads body = .ok claims := by
  obtain ⟨⟨bodyValue, signatureValue⟩, -, h⟩ := Results.bind_ok h
  obtain ⟨body', -, h⟩ := Results.bind_ok h
  obtain ⟨data, -, h⟩ := Results.bind_ok h
  obtain ⟨signature', -, h⟩ := Results.bind_ok h
  obtain ⟨claims', hclaims, h⟩ := Results.bind_ok h
  cases h
  exact hclaims

theorem compareDigest_ascii {a b : String} (ha : isAscii a = true) (hb : isAscii b = true) :
    compareDigest a b = .ok (a == b) := by
  unfold compareDigest
  rw [ha, hb]
  rfl

/-- A genuine token is verified; its time decides. -/
theorem authenticate_genuine (hsound : Sound inst) {session : Issued}
    (h : Genuine host inst token session) (clock : Nat) (now : Option Moment) :
    authenticate host inst.file clock token now =
      match now.getD (.aware clock) with
      | .aware t => if session.claims.exp ≤ t then .error (.value "Authenticated session expired.")
        else .ok session.claims.identity
      | .naive _ => .error (.type "can't compare offset-naive and offset-aware datetimes") := by
  obtain ⟨members, claims, hdecodes, haddresses, hvalue⟩ := h.signed
  have hclaims : claims = session.claims.decoded host := by
    have hloads := decodeToken_claims hdecodes
    rw [loads_body] at hloads
    exact (Except.ok.inj hloads).symm
  have hverify : verifyDecoded host inst.file sessionPurpose (session.claims.body host) (.obj members) =
      .ok (true, "verified") := by
    rw [verifyDecoded_addressed haddresses, hvalue,
      compareDigest_ascii (signWith_ascii _ _) (signWith_ascii _ _), beq_self_eq_true]
    rfl
  obtain ⟨hiat, hexp⟩ := hsound.bounds session h.issued
  rw [authenticate_decoded hsound.valid hdecodes, hverify, hclaims]
  exact identify_decoded hiat hexp clock now

/-- A genuine token. -/
theorem iff_of_genuine (hsound : Sound inst) {session : Issued}
    (h : Genuine host inst token session) {body : Bytes} {members : List (String × Value)}
    {claims : Value} (hdecodes : decodeToken host token = .ok (body, .obj members, claims)) :
    AsClaimed host inst clock token now ↔ Tame host inst token (now.getD (.aware clock)) := by
  have hends := authenticate_genuine hsound h clock now
  cases hmoment : now.getD (.aware clock) with
  | naive t =>
    rw [hmoment] at hends
    refine iff_of_false (not_asClaimed hends fun message he => nomatch he) fun htame => ?_
    exact htame.aware session t h rfl
  | aware t =>
    rw [hmoment] at hends
    dsimp only at hends
    refine iff_of_true ⟨fun identity => ⟨fun hok => ?_, ?_⟩, fun e he => ?_⟩
      (tame_of_decoded hdecodes ?_ fun session t _ hnaive => nomatch hnaive)
    · rw [hends] at hok
      split at hok
      · cases hok
      · next hbefore =>
        exact ⟨session, h, ⟨t, hmoment, not_le.mp hbefore⟩, (Except.ok.inj hok).symm⟩
    · rintro ⟨other, hother, ⟨t', hmoment', hbefore⟩, rfl⟩
      rw [authenticate_genuine hsound hother clock now, hmoment']
      dsimp only
      rw [if_neg (not_le.mpr hbefore)]
    · rw [hends] at he
      split at he
      · exact ⟨_, (Except.error.inj he).symm⟩
      · cases he
    · intro key haddresses
      obtain ⟨-, -, hvalue⟩ := h.decoded hdecodes
      rw [hvalue]
      exact signWith_ascii _ _

/-- The signature of a genuine token is not forged. -/
theorem unforged_of_genuine {session : Issued} (h : Genuine host inst token session) :
    Unforged host inst token := by
  intro body members claims key hdecodes haddresses _
  obtain ⟨hbody, haddressed, -⟩ := h.decoded hdecodes
  exact ⟨session, h.issued, haddressed.unique haddresses, hbody⟩

/-- A token whose signature is compared with the one of a key. -/
theorem iff_of_addressed (hsound : Sound inst) (hunforged : Unforged host inst token) {body : Bytes}
    {members : List (String × Value)} {claims : Value} {key : Key}
    (h : decodeToken host token = .ok (body, .obj members, claims))
    (haddresses : Addresses inst.file members key) :
    AsClaimed host inst clock token now ↔ Tame host inst token (now.getD (.aware clock)) := by
  have hends : authenticate host inst.file clock token now = _ :=
    authenticate_decoded hsound.valid h
  rw [verifyDecoded_addressed haddresses] at hends
  by_cases hascii : isAscii (valueText host members) = true
  · rw [compareDigest_ascii (signWith_ascii _ _) hascii] at hends
    by_cases hvalue : signWith host.mac key sessionPurpose body = valueText host members
    · obtain ⟨session, hissued, rfl, rfl⟩ := hunforged body members claims key h haddresses hvalue.symm
      exact iff_of_genuine hsound ⟨hissued, members, claims, h, haddresses, hvalue.symm⟩ h
    · have hnone : ∀ session, ¬Genuine host inst token session := by
        intro session hgenuine
        obtain ⟨rfl, haddresses', hvalue'⟩ := hgenuine.decoded h
        obtain rfl := haddresses.unique haddresses'
        exact hvalue hvalue'.symm
      rw [beq_false_of_ne hvalue] at hends
      refine iff_of_true (asClaimed_of_refused hends hnone) (tame_of_decoded h ?_ ?_)
      · exact fun _ _ => hascii
      · exact fun session t hgenuine => absurd hgenuine (hnone session)
  · have hcompare : compareDigest (signWith host.mac key sessionPurpose body) (valueText host members) =
        .error (.type "comparing strings with non-ASCII characters is not supported") := by
      unfold compareDigest
      rw [if_neg (by simp [hascii])]
    rw [hcompare] at hends
    refine iff_of_false (not_asClaimed hends fun message he => nomatch he) fun htame => ?_
    exact hascii (htame.ascii body members claims key h haddresses)

/-! ## Issued tokens -/

theorem span_append {α : Type} {p : α → Bool} {before after : List α} {x : α}
    (hbefore : ∀ y ∈ before, p y = true) (hx : p x = false) :
    (before ++ x :: after).span p = (before, x :: after) := by
  rw [List.span_eq_takeWhile_dropWhile, List.takeWhile_append_of_pos hbefore,
    List.dropWhile_append_of_pos hbefore, List.takeWhile_cons_of_neg (by simp [hx]),
    List.dropWhile_cons_of_neg (by simp [hx]), List.append_nil]

theorem digit_ne_dot : ∀ v < 64, Base64.digit v ≠ '.' := by decide +kernel

theorem splitToken_encode (data : Bytes) (signature : String) :
    splitToken (Base64.encode data ++ "." ++ signature) = .ok (Base64.encode data, signature) := by
  have hchars : (Base64.encode data ++ "." ++ signature).toList =
      Base64.encodeChars data ++ '.' :: signature.toList := by
    rw [String.toList_append, String.toList_append, Base64.encode, String.toList_ofList,
      List.append_assoc]
    rfl
  have hdots : ∀ c ∈ Base64.encodeChars data, decide (c ≠ '.') = true := by
    intro c hc
    obtain ⟨v, hv, rfl⟩ := Base64.encodeChars_digits data c hc
    exact decide_eq_true (digit_ne_dot v hv)
  unfold splitToken
  rw [hchars, span_append hdots (by decide)]
  dsimp only
  rw [String.ofList_toList, Base64.encode]

theorem unb64_ok {value : String} {data : Bytes} (h : Base64.decode value = some data) :
    unb64 value = .ok data := by
  unfold unb64
  rw [h]

theorem unb64_encode (data : Bytes) : unb64 (Base64.encode data) = .ok data :=
  unb64_ok (Base64.decode_encode data)

theorem decodeToken_ok {bodyValue signatureValue : String} {body data : Bytes}
    {signature claims : Value} (hsplit : splitToken token = .ok (bodyValue, signatureValue))
    (hbody : unb64 bodyValue = .ok body) (hdata : unb64 signatureValue = .ok data)
    (hsignature : host.loads data = .ok signature) (hclaims : host.loads body = .ok claims) :
    decodeToken host token = .ok (body, signature, claims) := by
  unfold decodeToken
  rw [hsplit]
  change (unb64 bodyValue >>= fun body => unb64 signatureValue >>= fun data =>
    host.loads data >>= fun signature => host.loads body >>= fun claims => _) = _
  rw [hbody]
  change (unb64 signatureValue >>= fun data =>
    host.loads data >>= fun signature => host.loads body >>= fun claims => _) = _
  rw [hdata]
  change (host.loads data >>= fun signature => host.loads body >>= fun claims => _) = _
  rw [hsignature]
  change (host.loads body >>= fun claims => _) = _
  rw [hclaims]
  rfl

/-- A session token is genuine as long as its key is live. -/
theorem genuine_token {session : Issued} (hissued : session ∈ inst.issued)
    (hlive : Live inst.file session.key) :
    Genuine host inst (session.claims.token host session.key) session where
  issued := hissued
  signed := by
    refine ⟨decodedSignature host.mac session.key (session.claims.body host),
      session.claims.decoded host, ?_, ⟨rfl, hlive, rfl⟩, rfl⟩
    exact decodeToken_ok (splitToken_encode _ _) (unb64_encode _) (unb64_encode _)
      (loads_signature session.key (session.claims.body host)) (loads_body session.claims)

end

/-- **Tokens are accepted exactly when issued, live and well formed**, and
refused with `ValueError` otherwise, for the tame ones. -/
theorem authenticates_iff (host : SessionHost) {inst : Installation} (h : Reachable host inst)
    (clock : Nat) {token : String} (hunforged : Unforged host inst token) (now : Option Moment) :
    AsClaimed host inst clock token now ↔ Tame host inst token (now.getD (.aware clock)) := by
  have hsound := h.sound
  cases hdecodes : decodeToken host token with
  | error e => exact iff_of_error hdecodes
  | ok decoded =>
    obtain ⟨body, signature, claims⟩ := decoded
    by_cases hobject : ∀ members, signature ≠ .obj members
    · exact iff_of_not_object hsound.valid hdecodes hobject
    · obtain ⟨members, rfl⟩ := not_forall_not.mp hobject
      by_cases haddresses : ∀ key, ¬Addresses inst.file members key
      · exact iff_of_unaddressed hsound.valid hdecodes haddresses
      · obtain ⟨key, hkey⟩ := not_forall_not.mp haddresses
        exact iff_of_addressed hsound hunforged hdecodes hkey

/-! ## A host -/

/-- `json.loads` of texts without floating point numbers. -/
def loadsText (bytes : Bytes) : Except PyError Value :=
  match String.fromUTF8? ⟨bytes.toArray⟩ with
  | none => .error (.value "invalid start byte")
  | some text =>
    match JsonText.loads text with
    | some value => .ok (.ofJson value)
    | none => .error (.value "Expecting value")

theorem loadsText_utf8 (text : String) :
    loadsText (utf8 text) =
      match JsonText.loads text with
      | some value => .ok (.ofJson value)
      | none => .error (.value "Expecting value") := by
  have hbytes : (⟨(utf8 text).toArray⟩ : ByteArray) = text.toByteArray := by
    unfold utf8
    rw [Array.toArray_toList]
  have hread : String.fromUTF8? ⟨(utf8 text).toArray⟩ = some text := by
    rw [hbytes, String.fromUTF8?, dif_pos text.isValidUTF8]
    rfl
  unfold loadsText
  rw [hread]

def plainHost : SessionHost where
  hmacSha256 secret bytes := secret ++ bytes
  loads := loadsText
  text _ := ""
  isoformat t := toString t
  fromisoformat text := .ok (.aware (Nat.ofDigitChars 10 text.toList 0))
  loads_dumps members style _ := by
    rw [loadsText_utf8, JsonText.loads_dumps]
  fromisoformat_isoformat t _ := by
    simp

def plainInstallation : Installation where
  file := { active := key "k0" }

theorem plainInstallation_reachable : Reachable plainHost plainInstallation :=
  .installed (by decide)

/-- A session of a minute. -/
def ownerClaims : SessionClaims := ⟨"owner", "ORG", "SESSION", 0, 60000000⟩

def ownerSession : Issued := ⟨key "k0", ownerClaims⟩

def ownerInstallation : Installation := { plainInstallation with issued := [ownerSession] }

theorem ownerInstallation_reachable : Reachable plainHost ownerInstallation := by
  have hissue : issue 0 "SESSION" "owner" "ORG" 60 = .ok ownerClaims := by decide +kernel
  exact .issue plainInstallation_reachable hissue

def ownerToken : String := ownerSession.claims.token plainHost ownerSession.key

theorem ownerToken_genuine : Genuine plainHost ownerInstallation ownerToken ownerSession := by
  have hlive : Live ownerInstallation.file ownerSession.key := ⟨List.not_mem_nil, rfl⟩
  unfold ownerToken
  exact genuine_token (List.mem_singleton.mpr rfl) hlive

/-- The token of a session is accepted before its expiry. -/
theorem authenticates_iff_issued :
    (AsClaimed plainHost ownerInstallation 30000000 ownerToken none ↔
      Tame plainHost ownerInstallation ownerToken (.aware 30000000)) ∧
    authenticate plainHost ownerInstallation.file 30000000 ownerToken none = .ok ownerClaims.identity :=
  ⟨authenticates_iff plainHost ownerInstallation_reachable 30000000
      (unforged_of_genuine ownerToken_genuine) none,
    authenticate_genuine ownerInstallation_reachable.sound ownerToken_genuine 30000000 none⟩

/-- The token of an empty object, signed with an empty list. -/
theorem decodeToken_list :
    decodeToken plainHost "e30.W10" = .ok (utf8 "{}", .arr [], .obj []) := by
  have hsplit : splitToken "e30.W10" = .ok ("e30", "W10") := rfl
  have hbody : unb64 "e30" = .ok (utf8 "{}") := unb64_ok (by decide +kernel)
  have hdata : unb64 "W10" = .ok (utf8 "[]") := unb64_ok (by decide +kernel)
  have hsignature : plainHost.loads (utf8 "[]") = .ok (.arr []) := loadsText_utf8 "[]"
  have hclaims : plainHost.loads (utf8 "{}") = .ok (.obj []) := loadsText_utf8 "{}"
  exact decodeToken_ok hsplit hbody hdata hsignature hclaims

/-- A signature that is a list raises `AttributeError`. -/
theorem list_not_refused :
    ¬∀ (host : SessionHost) (inst : Installation) (clock : Nat) (token : String) (now : Option Moment),
      Reachable host inst → Unforged host inst token → AsClaimed host inst clock token now := by
  intro hall
  have hunforged : Unforged plainHost plainInstallation "e30.W10" := by
    intro body members claims key hdecodes
    rw [decodeToken_list] at hdecodes
    cases hdecodes
  have hraises : authenticate plainHost plainInstallation.file 0 "e30.W10" none =
      .error (.other "AttributeError" "'list' object has no attribute 'get'") := by
    rw [authenticate_decoded plainInstallation_reachable.sound.valid decodeToken_list]
    rfl
  exact not_asClaimed hraises (fun message h => nomatch h)
    (hall plainHost plainInstallation 0 "e30.W10" none plainInstallation_reachable hunforged)

end RlmGraph.Authority.Sessions
