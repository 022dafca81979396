import RlmGraph.Lib.PyText
import RlmGraph.Lib.JsonText
import RlmGraph.Lib.Rows

/-! # The managed keyring

One key file, read as a whole and replaced as a whole. A rotation or a
revocation reads the file, edits its copy, writes the copy to a staging file
that only one process can create, and moves the staging file over the key
file. Nothing is locked between the read and the move. The hash function and
the encodings are parameters. -/
namespace RlmGraph.Authority.Keyring
open RlmGraph.Lib.JsonText RlmGraph.Lib.PyText RlmGraph.Lib.Rows

structure Mac where
  hmacSha256 : Bytes → Bytes → Bytes
  b64 : Bytes → String
  unb64 : String → Bytes

structure Key where
  id : String
  secret : String
  deriving DecidableEq

structure Revocation where
  id : String
  reason : String
  deriving DecidableEq

/-- The contents of the key file. -/
structure KeyFile where
  version : Nat := 1
  active : Key
  retired : List Key := []
  revoked : List Revocation := []
  deriving DecidableEq

structure Signature where
  algorithm : Option String
  keyId : Option String
  value : String
  deriving DecidableEq

/-- The keys that verify. -/
def KeyFile.keys (data : KeyFile) : List Key := data.active :: data.retired

def KeyFile.validate (data : KeyFile) : Bool := data.version == 1 && data.active.secret != ""

/-! ## Signatures -/

def signWith (mac : Mac) (key : Key) (purpose : String) (payload : Bytes) : String :=
  mac.b64 (mac.hmacSha256 (mac.unb64 key.secret) (utf8 purpose ++ 0 :: payload))

/-- A signature made with a key. -/
def signatureBy (mac : Mac) (key : Key) (purpose : String) (payload : Bytes) : Signature :=
  ⟨some "HMAC-SHA256", some key.id, signWith mac key purpose payload⟩

def sign (mac : Mac) (data : KeyFile) (purpose : String) (payload : Bytes) : Signature :=
  signatureBy mac data.active purpose payload

def verify (mac : Mac) (data : KeyFile) (purpose : String) (payload : Bytes)
    (signature : Signature) : Bool × String :=
  if data.revoked.any fun item => some item.id == signature.keyId then
    (false, "signing key is revoked")
  else match data.keys.find? fun item => some item.id == signature.keyId with
    | none => (false, "signing key is unavailable")
    | some key =>
      if signature.algorithm != some "HMAC-SHA256" then (false, "unsupported signature algorithm")
      else (signWith mac key purpose payload == signature.value, "verified")

theorem verify_revoked {mac : Mac} {data : KeyFile} {keyId : String}
    (h : keyId ∈ data.revoked.map (·.id)) (purpose : String) (payload : Bytes)
    (algorithm : Option String) (value : String) :
    verify mac data purpose payload ⟨algorithm, some keyId, value⟩ =
      (false, "signing key is revoked") := by
  obtain ⟨item, hitem, rfl⟩ := List.mem_map.mp h
  have hany : (data.revoked.any fun other => some other.id == some item.id) = true :=
    List.any_eq_true.mpr ⟨item, hitem, by simp⟩
  simp only [verify, hany, if_true]

theorem verify_live {mac : Mac} {data : KeyFile} {key : Key}
    (hids : (data.keys.map (·.id)).Nodup) (hkey : key ∈ data.keys)
    (hlive : key.id ∉ data.revoked.map (·.id)) (purpose : String) (payload : Bytes) :
    verify mac data purpose payload (signatureBy mac key purpose payload) = (true, "verified") := by
  have hany : (data.revoked.any fun item => some item.id == some key.id) = false := by
    rw [List.any_eq_false]
    intro item hitem heq
    exact hlive (List.mem_map.mpr ⟨item, hitem, by simpa using heq⟩)
  have hfind : (data.keys.find? fun item => some item.id == some key.id) = some key := by
    have hsame : (fun item : Key => some item.id == some key.id) = (·.id == key.id) := by
      funext item
      simp
    rw [hsame]
    exact find?_of_mem hids hkey
  simp only [verify, signatureBy, hany, hfind]
  simp

/-! ## Edits -/

inductive Operation where
  | rotate
  | revoke (keyId reason : String)
  deriving DecidableEq

/-- A revocation needs a reason. -/
def Operation.refused : Operation → Bool
  | .rotate => false
  | .revoke _ reason => strip reason == ""

/-- What `rotate` and `revoke` write, with the new key they may need. -/
def edit (operation : Operation) (data : KeyFile) (new : Key) : Except String KeyFile :=
  match operation with
  | .rotate => .ok { data with active := new, retired := data.retired ++ [data.active] }
  | .revoke keyId reason =>
    if data.keys.all (·.id != keyId) then .error "Unknown signing key."
    else .ok
      { data with
        active := if keyId = data.active.id then new else data.active
        retired := data.retired.filter (·.id != keyId)
        revoked := data.revoked ++ [⟨keyId, reason⟩] }

/-! ## Processes -/

/-- A call between its read and its end. -/
structure Pending where
  operation : Operation
  edited : KeyFile
  staged : Bool
  readAt : Nat

/-- The key file, the staging file by the process that made it, and the calls
under way. The rest is remembered: how often the file was replaced, the keys
whose revocation has returned, the keys that could sign, and all identifiers
that were drawn. -/
structure State where
  file : Option KeyFile := none
  staging : Option Nat := none
  pending : Nat → Option Pending := fun _ => none
  replaced : Nat := 0
  returned : List String := []
  signers : List Key := []
  ids : List String := []

inductive Event where
  /-- A call that only reads. It makes the key file when there is none. -/
  | initialized (initial : Key)
  /-- The read of a rotation or a revocation, and its edit. -/
  | read (pid : Nat) (operation : Operation) (initial new : Key)
  /-- The creation of the staging file. -/
  | stage (pid : Nat)
  /-- The move of the staging file over the key file. -/
  | replace (pid : Nat)
  /-- An exception at any point, or the end of the process. -/
  | abandon (pid : Nat)

def State.set (s : State) (pid : Nat) (pending : Option Pending) : State :=
  { s with pending := Function.update s.pending pid pending }

/-- `initialize`: the key file, which is made when there is none, and what the
call knows of it, unless it is not valid. -/
def State.initialized (s : State) (initial : Key) : State × Option KeyFile :=
  match s.file with
  | some data => (s, if data.validate then some data else none)
  | none =>
    let data : KeyFile := { active := initial }
    ({ s with file := some data, signers := initial :: s.signers, ids := initial.id :: s.ids },
      some data)

/-- The edit of what was read, unless the call raises. -/
def State.begin (s : State) (pid : Nat) (operation : Operation) (new : Key) :
    Option KeyFile → State
  | none => s
  | some data =>
    match edit operation data new with
    | .ok edited =>
      { s with ids := new.id :: s.ids }.set pid (some ⟨operation, edited, false, s.replaced⟩)
    | .error _ => s

def revokes : Operation → List String
  | .rotate => []
  | .revoke keyId _ => [keyId]

/-- One step of one process; `none` where the process cannot make it. -/
def step (s : State) : Event → Option State
  | .initialized initial => some (s.initialized initial).1
  | .read pid operation initial new =>
    if (s.pending pid).isSome then none
    else if operation.refused then some s
    else some ((s.initialized initial).1.begin pid operation new (s.initialized initial).2)
  | .stage pid =>
    match s.pending pid with
    | none => none
    | some p =>
      if p.staged then none
      else if s.staging.isSome then some (s.set pid none)
      else some ({ s with staging := some pid }.set pid (some { p with staged := true }))
  | .replace pid =>
    match s.pending pid with
    | none => none
    | some p =>
      if p.staged && s.staging == some pid then
        some ({ s with
          file := some p.edited, staging := none, replaced := s.replaced + 1
          returned := revokes p.operation ++ s.returned
          signers := p.edited.active :: s.signers }.set pid none)
      else none
  | .abandon pid => some (s.set pid none)

/-- Keys are drawn with identifiers of their own, and with a secret. -/
def Drawn (s : State) : Event → Prop
  | .initialized initial => initial.id ∉ s.ids ∧ initial.secret ≠ ""
  | .read _ _ initial new =>
    initial.id ∉ s.ids ∧ new.id ∉ s.ids ∧ initial.id ≠ new.id ∧ initial.secret ≠ "" ∧ new.secret ≠ ""
  | _ => True

/-- The call that replaces the file has read what it replaces. -/
def UpToDate (s : State) : Event → Prop
  | .replace pid => ∀ p, s.pending pid = some p → p.readAt = s.replaced
  | _ => True

/-- Any steps of any processes. -/
inductive Run (meets : State → Event → Prop) : State → Prop
  | empty : Run meets {}
  | step {s s' : State} (e : Event) (h : Run meets s) (hdrawn : Drawn s e) (hmeets : meets s e)
      (hstep : step s e = some s') : Run meets s'

/-! ## Runs of calls that are up to date -/

/-- The keys of the file: each key that could sign is there or revoked. -/
structure Sound (s : State) (data : KeyFile) : Prop where
  valid : data.validate = true
  ids : (data.keys.map (·.id)).Nodup
  drawn : ∀ key ∈ data.keys, key.id ∈ s.ids
  secret : ∀ key ∈ data.keys, key.secret ≠ ""
  revoked : ∀ keyId ∈ s.returned, keyId ∈ data.revoked.map (·.id)
  returned : ∀ keyId ∈ data.revoked.map (·.id), keyId ∈ s.returned
  signers : ∀ key ∈ s.signers, key.id ∈ s.returned ∨ key ∈ data.keys

/-- A call that has read the present file will write an edit of it. -/
structure Follows (s : State) (data : KeyFile) (p : Pending) (new : Key) : Prop where
  edited : edit p.operation data new = .ok p.edited
  unused : ∀ key ∈ data.keys, key.id ≠ new.id
  drawn : new.id ∈ s.ids
  secret : new.secret ≠ ""

structure Serial (s : State) : Prop where
  absent : s.file = none → s.returned = [] ∧ s.signers = [] ∧ ∀ pid, s.pending pid = none
  present : ∀ data, s.file = some data → Sound s data
  readAt : ∀ pid p, s.pending pid = some p → p.readAt ≤ s.replaced
  follows : ∀ pid p, s.pending pid = some p → p.readAt = s.replaced →
    ∀ data, s.file = some data → ∃ new, Follows s data p new

theorem serial_empty : Serial {} where
  absent _ := ⟨rfl, rfl, fun _ => rfl⟩
  present _ h := by cases h
  readAt _ _ h := by cases h
  follows _ _ h := by cases h

/-- What an edit does with the keys. -/
theorem edit_keys {data edited : KeyFile} {operation : Operation} {new : Key}
    (hedit : edit operation data new = .ok edited) :
    edited.version = data.version ∧
    edited.revoked.map (·.id) = data.revoked.map (·.id) ++ revokes operation ∧
    (∀ key ∈ edited.keys, key = new ∨ key ∈ data.keys) ∧
    (∀ key ∈ data.keys, key.id ∈ revokes operation ∨ key ∈ edited.keys) ∧
    ((data.keys.map (·.id)).Nodup → (∀ key ∈ data.keys, key.id ≠ new.id) →
      (edited.keys.map (·.id)).Nodup) := by
  cases operation with
  | rotate =>
    obtain rfl := Except.ok.inj hedit
    refine ⟨rfl, by simp [revokes], ?_, ?_, ?_⟩
    · intro key hkey
      simp only [KeyFile.keys, List.mem_cons, List.mem_append, List.not_mem_nil, or_false] at hkey ⊢
      rcases hkey with hnew | hretired | hactive
      · exact Or.inl hnew
      · exact Or.inr (Or.inr hretired)
      · exact Or.inr (Or.inl hactive)
    · intro key hkey
      simp only [KeyFile.keys, List.mem_cons, List.mem_append, List.not_mem_nil, or_false] at hkey ⊢
      rcases hkey with hactive | hretired
      · exact Or.inr (Or.inr (Or.inr hactive))
      · exact Or.inr (Or.inr (Or.inl hretired))
    · intro hids hunused
      have hperm : (data.retired ++ [data.active]).Perm data.keys := List.perm_append_singleton _ _
      rw [KeyFile.keys, List.map_cons, List.nodup_cons, (hperm.map _).nodup_iff]
      refine ⟨fun hmem => ?_, hids⟩
      obtain ⟨key, hkey, heq⟩ := List.mem_map.mp hmem
      exact hunused key (hperm.mem_iff.mp hkey) heq
  | revoke keyId reason =>
    simp only [edit] at hedit
    split at hedit
    · cases hedit
    · obtain rfl := Except.ok.inj hedit
      refine ⟨rfl, by simp [revokes], ?_, ?_, ?_⟩
      · intro key hkey
        simp only [KeyFile.keys, List.mem_cons, List.mem_filter] at hkey ⊢
        rcases hkey with hactive | ⟨hretired, -⟩
        · split at hactive
          · exact Or.inl hactive
          · exact Or.inr (Or.inl hactive)
        · exact Or.inr (Or.inr hretired)
      · intro key hkey
        simp only [KeyFile.keys, List.mem_cons, List.mem_filter, revokes, List.not_mem_nil,
          or_false] at hkey ⊢
        by_cases hid : key.id = keyId
        · exact Or.inl hid
        · refine Or.inr ?_
          rcases hkey with hactive | hretired
          · subst hactive
            exact Or.inl (by rw [if_neg (Ne.symm hid)])
          · exact Or.inr ⟨hretired, by simpa using hid⟩
      · intro hids hunused
        rw [KeyFile.keys, List.map_cons, List.nodup_cons] at hids
        have hsub : ((data.retired.filter (·.id != keyId)).map (·.id)).Sublist
            (data.retired.map (·.id)) := List.filter_sublist.map _
        rw [KeyFile.keys, List.map_cons, List.nodup_cons]
        refine ⟨fun hmem => ?_, hids.2.sublist hsub⟩
        split at hmem
        · obtain ⟨key, hkey, heq⟩ := List.mem_map.mp (hsub.subset hmem)
          exact hunused key (List.mem_cons_of_mem _ hkey) heq
        · exact hids.1 (hsub.subset hmem)

/-- **An edit keeps the keys of the file**, all but the revoked one. -/
theorem edit_sound {s s' : State} {data edited : KeyFile} {operation : Operation} {new : Key}
    (hs : Sound s data) (hedit : edit operation data new = .ok edited)
    (hunused : ∀ key ∈ data.keys, key.id ≠ new.id) (hdrawn : new.id ∈ s.ids)
    (hsecret : new.secret ≠ "") (hreturned : s'.returned = revokes operation ++ s.returned)
    (hsigners : s'.signers = edited.active :: s.signers) (hids : s'.ids = s.ids) :
    Sound s' edited := by
  obtain ⟨hversion, hrevoked, hfrom, hkept, hnodup⟩ := edit_keys hedit
  have hsecrets : ∀ key ∈ edited.keys, key.secret ≠ "" := by
    intro key hkey
    rcases hfrom key hkey with rfl | hold
    · exact hsecret
    · exact hs.secret key hold
  have hdrawns : ∀ key ∈ edited.keys, key.id ∈ s.ids := by
    intro key hkey
    rcases hfrom key hkey with rfl | hold
    · exact hdrawn
    · exact hs.drawn key hold
  have hactive : edited.active ∈ edited.keys := List.mem_cons_self
  refine { valid := ?_, ids := hnodup hs.ids hunused, drawn := by rw [hids]; exact hdrawns,
           secret := hsecrets, revoked := ?_, returned := ?_, signers := ?_ }
  · have hvalid := hs.valid
    simp only [KeyFile.validate, Bool.and_eq_true, bne_iff_ne] at hvalid ⊢
    exact ⟨by rw [hversion]; exact hvalid.1, hsecrets _ hactive⟩
  · intro keyId hmem
    rw [hreturned, List.mem_append] at hmem
    rw [hrevoked, List.mem_append]
    exact hmem.symm.imp_left (hs.revoked keyId)
  · intro keyId hmem
    rw [hrevoked, List.mem_append] at hmem
    rw [hreturned, List.mem_append]
    exact hmem.symm.imp_right (hs.returned keyId)
  · intro key hmem
    rw [hsigners] at hmem
    rw [hreturned, List.mem_append]
    rcases List.mem_cons.mp hmem with rfl | hmem
    · exact Or.inr hactive
    · rcases hs.signers key hmem with hgone | hthere
      · exact Or.inl (Or.inr hgone)
      · rcases hkept key hthere with hnow | hthere
        · exact Or.inl (Or.inl hnow)
        · exact Or.inr hthere

variable {s s' : State}

theorem set_pending (s : State) (pid : Nat) (p : Option Pending) (other : Nat) :
    (s.set pid p).pending other = if other = pid then p else s.pending other := by
  show Function.update s.pending pid p other = _
  rw [Function.update_apply]

/-- Ending a call changes no file. -/
theorem Serial.ended (h : Serial s) (pid : Nat) : Serial (s.set pid none) where
  absent hfile := by
    obtain ⟨hreturned, hsigners, hpending⟩ := h.absent hfile
    refine ⟨hreturned, hsigners, fun other => ?_⟩
    rw [set_pending]
    split
    · rfl
    · exact hpending other
  present data hfile := { h.present data hfile with }
  readAt other p hp := by
    rw [set_pending] at hp
    split at hp
    · cases hp
    · exact h.readAt other p hp
  follows other p hp hread data hfile := by
    rw [set_pending] at hp
    split at hp
    · cases hp
    · obtain ⟨new, hnew⟩ := h.follows other p hp hread data hfile
      exact ⟨new, { hnew with }⟩

theorem sound_initial {initial : Key} (hids : initial.id ∈ s.ids) (hsecret : initial.secret ≠ "")
    (hreturned : s.returned = []) (hsigners : s.signers = [initial]) :
    Sound s { active := initial } where
  valid := by simp [KeyFile.validate, hsecret]
  ids := by simp [KeyFile.keys]
  drawn key hkey := by
    obtain rfl : key = initial := by simpa [KeyFile.keys] using hkey
    exact hids
  secret key hkey := by
    obtain rfl : key = initial := by simpa [KeyFile.keys] using hkey
    exact hsecret
  revoked keyId h := by
    rw [hreturned] at h
    cases h
  returned keyId h := by cases h
  signers key hkey := by
    rw [hsigners] at hkey
    exact Or.inr hkey

/-- The key file is there after a read, and it is what the call knows. -/
theorem Serial.opened (h : Serial s) {initial : Key} (hsecret : initial.secret ≠ "") :
    Serial (s.initialized initial).1 ∧ (∀ data, (s.initialized initial).2 = some data →
      (s.initialized initial).1.file = some data) ∧
    (∀ pid, (s.initialized initial).1.pending pid = s.pending pid) ∧
    ∀ keyId ∈ (s.initialized initial).1.ids, keyId = initial.id ∨ keyId ∈ s.ids := by
  cases hfile : s.file with
  | some data =>
    simp only [State.initialized, hfile]
    refine ⟨h, fun data' hdata => ?_, fun _ => trivial, fun keyId hmem => Or.inr hmem⟩
    split at hdata
    · exact hdata
    · cases hdata
  | none =>
    simp only [State.initialized, hfile]
    obtain ⟨hreturned, hsigners, hpending⟩ := h.absent hfile
    refine ⟨⟨fun hnone => ?_, fun data hdata => ?_, fun pid p hp => ?_, fun pid p hp => ?_⟩,
      fun data hdata => hdata, fun _ => trivial, fun keyId hmem => by simpa using hmem⟩
    · cases hnone
    · cases hdata
      exact sound_initial List.mem_cons_self hsecret hreturned (by simp [hsigners])
    · rw [hpending pid] at hp
      cases hp
    · rw [hpending pid] at hp
      cases hp

/-- The edit of a call follows the file it has read. -/
theorem Serial.begun (h : Serial s) (pid : Nat) (operation : Operation) {new : Key}
    (hnew : new.id ∉ s.ids) (hsecret : new.secret ≠ "") {found : Option KeyFile}
    (hfound : ∀ data, found = some data → s.file = some data) :
    Serial (s.begin pid operation new found) := by
  cases found with
  | none => exact h
  | some data =>
    have hfile := hfound data rfl
    have hs := h.present data hfile
    cases hedit : edit operation data new with
    | error e =>
      simp only [State.begin, hedit]
      exact h
    | ok edited =>
      simp only [State.begin, hedit]
      refine ⟨fun hnone => ?_, fun data' hdata => ?_, fun other p hp => ?_,
        fun other p hp hread data' hdata => ?_⟩
      · rw [State.set] at hnone
        exact absurd (hnone.symm.trans hfile) (by simp)
      · have hs' := h.present data' hdata
        exact { hs' with drawn := fun key hkey => List.mem_cons_of_mem _ (hs'.drawn key hkey) }
      · rw [set_pending] at hp
        split at hp
        · cases hp
          exact Nat.le_refl _
        · exact h.readAt other p hp
      · rw [set_pending] at hp
        split at hp
        · cases hp
          obtain rfl : data = data' := Option.some.inj (hfile.symm.trans hdata)
          refine ⟨new, hedit, fun key hkey heq => ?_, List.mem_cons_self, hsecret⟩
          exact hnew (heq ▸ hs.drawn key hkey)
        · obtain ⟨other, hother⟩ := h.follows other p hp hread data' hdata
          exact ⟨other, { hother with drawn := List.mem_cons_of_mem _ hother.drawn }⟩

theorem Serial.staged (h : Serial s) {pid : Nat} {p : Pending} (hp : s.pending pid = some p) :
    Serial ({ s with staging := some pid }.set pid (some { p with staged := true })) := by
  refine ⟨fun hnone => ?_, fun data hdata => { h.present data hdata with }, fun other q hq => ?_,
    fun other q hq hread data hdata => ?_⟩
  · have hnothing := (h.absent hnone).2.2 pid
    rw [hp] at hnothing
    cases hnothing
  · rw [set_pending] at hq
    split at hq
    · cases hq
      exact h.readAt pid p hp
    · exact h.readAt other q hq
  · rw [set_pending] at hq
    split at hq
    · cases hq
      obtain ⟨new, hnew⟩ := h.follows pid p hp hread data hdata
      exact ⟨new, { hnew with }⟩
    · obtain ⟨new, hnew⟩ := h.follows other q hq hread data hdata
      exact ⟨new, { hnew with }⟩

/-- **The replacement** of the file a call has read. -/
theorem Serial.replacement (h : Serial s) {pid : Nat} {p : Pending} (hp : s.pending pid = some p)
    (hread : p.readAt = s.replaced) :
    Serial ({ s with
      file := some p.edited, staging := none, replaced := s.replaced + 1
      returned := revokes p.operation ++ s.returned
      signers := p.edited.active :: s.signers }.set pid none) := by
  obtain ⟨data, hfile⟩ : ∃ data, s.file = some data := by
    cases hfile : s.file with
    | some data => exact ⟨data, rfl⟩
    | none =>
      have hnothing := (h.absent hfile).2.2 pid
      rw [hp] at hnothing
      cases hnothing
  obtain ⟨new, hnew⟩ := h.follows pid p hp hread data hfile
  have hlater : ∀ other q, s.pending other = some q → q.readAt < s.replaced + 1 :=
    fun other q hq => Nat.lt_succ_of_le (h.readAt other q hq)
  refine ⟨fun hnone => ?_, fun data' hdata => ?_, fun other q hq => ?_, fun other q hq hnow => ?_⟩
  · cases hnone
  · cases hdata
    exact edit_sound (h.present data hfile) hnew.edited hnew.unused hnew.drawn hnew.secret rfl rfl rfl
  · rw [set_pending] at hq
    split at hq
    · cases hq
    · exact Nat.le_of_lt (hlater other q hq)
  · rw [set_pending] at hq
    split at hq
    · cases hq
    · exact absurd hnow (Nat.ne_of_lt (hlater other q hq))

/-- **One step** keeps the keys. -/
theorem Serial.step (h : Serial s) {e : Event} (hdrawn : Drawn s e) (hmeets : UpToDate s e)
    (hstep : step s e = some s') : Serial s' := by
  cases e with
  | initialized initial =>
    obtain rfl := Option.some.inj hstep
    exact (h.opened hdrawn.2).1
  | read pid operation initial new =>
    obtain ⟨-, hnew, hne, hinitial, hsecret⟩ := hdrawn
    simp only [Keyring.step] at hstep
    split at hstep
    · cases hstep
    · split at hstep
      · obtain rfl := Option.some.inj hstep
        exact h
      · obtain rfl := Option.some.inj hstep
        obtain ⟨hserial, hfile, -, hids⟩ := h.opened hinitial
        refine hserial.begun pid operation (fun hmem => ?_) hsecret hfile
        rcases hids _ hmem with heq | hmem
        · exact hne heq.symm
        · exact hnew hmem
  | stage pid =>
    simp only [Keyring.step] at hstep
    split at hstep
    · cases hstep
    · rename_i p hp
      split at hstep
      · cases hstep
      · split at hstep
        · obtain rfl := Option.some.inj hstep
          exact h.ended pid
        · obtain rfl := Option.some.inj hstep
          exact h.staged hp
  | replace pid =>
    simp only [Keyring.step] at hstep
    split at hstep
    · cases hstep
    · rename_i p hp
      split at hstep
      · obtain rfl := Option.some.inj hstep
        exact h.replacement hp (hmeets p hp)
      · cases hstep
  | abandon pid =>
    obtain rfl := Option.some.inj hstep
    exact h.ended pid

theorem Run.serial (h : Run UpToDate s) : Serial s := by
  induction h with
  | empty => exact serial_empty
  | step e _ hdrawn hmeets hstep ih => exact ih.step hdrawn hmeets hstep

/-- **No revocation is lost.** When each call that replaces the key file has
read the file it replaces, then in every state of every run: no signature under
a key whose revocation has returned verifies, and the signatures of every other
key that could ever sign do. -/
theorem revocations_kept (h : Run UpToDate s) {data : KeyFile} (hfile : s.file = some data)
    (mac : Mac) (purpose : String) (payload : Bytes) :
    (∀ keyId ∈ s.returned, ∀ algorithm value,
      (verify mac data purpose payload ⟨algorithm, some keyId, value⟩).1 = false) ∧
    ∀ key ∈ s.signers, key.id ∉ s.returned →
      verify mac data purpose payload (signatureBy mac key purpose payload) = (true, "verified") := by
  have hs := h.serial.present data hfile
  constructor
  · intro keyId hreturned algorithm value
    rw [verify_revoked (hs.revoked keyId hreturned)]
  · intro key hsigner hlive
    have hkey := (hs.signers key hsigner).resolve_left hlive
    exact verify_live hs.ids hkey (fun hrevoked => hlive (hs.returned key.id hrevoked)) purpose payload

/-! ## Runs, event by event -/

instance (s : State) (e : Event) : Decidable (Drawn s e) := by
  cases e <;> unfold Drawn <;> infer_instance

instance (s : State) (e : Event) : Decidable (UpToDate s e) :=
  match e with
  | .replace pid =>
    match hp : s.pending pid with
    | none => isTrue fun p hq => by rw [hp] at hq; cases hq
    | some p => decidable_of_iff (p.readAt = s.replaced) (by
        constructor
        · intro h q hq
          rw [hp] at hq
          cases hq
          exact h
        · intro h
          exact h p hp)
  | .initialized _ | .read .. | .stage _ | .abandon _ => isTrue trivial

/-- The state after the events, when each of them can happen. -/
def runEvents (meets : State → Event → Prop) [∀ s e, Decidable (meets s e)] (s : State) :
    List Event → Option State
  | [] => some s
  | e :: events =>
    if Drawn s e ∧ meets s e then (step s e).bind fun s' => runEvents meets s' events else none

theorem run_of_runEvents {meets : State → Event → Prop} [∀ s e, Decidable (meets s e)]
    {events : List Event} (h : Run meets s) (hrun : runEvents meets s events = some s') :
    Run meets s' := by
  induction events generalizing s with
  | nil =>
    obtain rfl := Option.some.inj hrun
    exact h
  | cons e events ih =>
    rw [runEvents] at hrun
    split at hrun
    · rename_i hboth
      obtain ⟨next, hnext, hrest⟩ := Option.bind_eq_some_iff.mp hrun
      exact ih (h.step e hboth.1 hboth.2 hnext) hrest
    · cases hrun

def plainMac : Mac where
  hmacSha256 secret bytes := secret ++ bytes
  b64 bytes := String.ofList (bytes.map fun b => Char.ofNat b.toNat)
  unb64 := utf8

def key (id : String) : Key := ⟨id, "secret of " ++ id⟩

/-- A revocation from its read to its end. -/
def revocation : List Event :=
  [.initialized (key "k0"), .read 1 (.revoke "k0" "leaked") (key "k9") (key "k1"), .stage 1, .replace 1]

theorem revocations_kept_revocation :
    verify plainMac ⟨1, key "k1", [], [⟨"k0", "leaked"⟩]⟩ "audit" []
      (signatureBy plainMac (key "k1") "audit" []) = (true, "verified") := by
  obtain ⟨s, hrun, hfile, hsigners, hreturned⟩ : ∃ s, runEvents UpToDate {} revocation = some s ∧
      s.file = some ⟨1, key "k1", [], [⟨"k0", "leaked"⟩]⟩ ∧ s.signers = [key "k1", key "k0"] ∧
      s.returned = ["k0"] := ⟨_, rfl, rfl, rfl, rfl⟩
  exact (revocations_kept (run_of_runEvents .empty hrun) hfile plainMac "audit" []).2 (key "k1")
    (by simp [hsigners]) (by simp [hreturned, key])

/-- A rotation reads the file before the revocation and replaces it after. -/
def overtaken : List Event :=
  [.initialized (key "k0"), .read 1 .rotate (key "k9") (key "k1"),
    .read 2 (.revoke "k0" "leaked") (key "k9") (key "k2"), .stage 2, .replace 2, .stage 1, .replace 1]

/-- **A lost revocation.** The revoked key verifies again, and a key that was
never revoked does not. -/
theorem revocation_lost : ∃ s data, Run (fun _ _ => True) s ∧ s.file = some data ∧
    "k0" ∈ s.returned ∧
    verify plainMac data "audit" [] (signatureBy plainMac (key "k0") "audit" []) = (true, "verified") ∧
    key "k2" ∈ s.signers ∧ "k2" ∉ s.returned ∧
    verify plainMac data "audit" [] (signatureBy plainMac (key "k2") "audit" []) =
      (false, "signing key is unavailable") := by
  obtain ⟨s, hrun, hfile, hsigners, hreturned⟩ :
      ∃ s, runEvents (fun _ _ => True) {} overtaken = some s ∧
        s.file = some ⟨1, key "k1", [key "k0"], []⟩ ∧
        s.signers = [key "k1", key "k2", key "k0"] ∧ s.returned = ["k0"] := ⟨_, rfl, rfl, rfl, rfl⟩
  refine ⟨s, _, run_of_runEvents .empty hrun, hfile, by simp [hreturned], ?_, by simp [hsigners],
    by simp [hreturned], ?_⟩
  · exact verify_live (by simp [KeyFile.keys, key]) (by simp [KeyFile.keys]) (by simp) "audit" []
  · simp [verify, signatureBy, KeyFile.keys, key]

end RlmGraph.Authority.Keyring
