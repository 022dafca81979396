import RlmGraph.Memory.Commits

/-! # What turns do to the lines

A turn that is saved and committed says its values; a turn that is superseded
takes back its facts. The lines stay linked if no fact of it stands between
facts of others. -/
namespace RlmGraph.Memory.Turns

open RlmGraph.Lib RlmGraph.Lib.PyText RlmGraph.Lib.Rows RlmGraph.Lib.Corrections
open RlmGraph.Memory.Conversation RlmGraph.Memory.Facts RlmGraph.Memory.Chat
open RlmGraph.Memory.Lines RlmGraph.Memory.Commits

variable {s : Store} {turn : ChatTurn} {fact : ConversationFact} {slot : Slot}
  {tables : CaseTables}

/-! ## Tables that read alike -/

/-- The same facts, with the same turns withdrawn and the same profiles: the
lines are the same. -/
structure Reads (s s' : Store) : Prop where
  facts : s'.facts = s.facts
  valid : ∀ fact ∈ s.facts, Valid s' fact ↔ Valid s fact
  profile : ∀ fact ∈ s.facts, profileOf s' fact.sessionId = profileOf s fact.sessionId

theorem Reads.sameSlot (h : Reads s s') (hfact : fact ∈ s.facts) : slotOf s' fact = slotOf s fact := by
  unfold slotOf slotAt
  rw [h.profile fact hfact]

theorem Reads.line (h : Reads s s') : line s' slot = line s slot := by
  unfold Lines.line
  rw [h.facts]
  refine List.filter_congr fun fact hfact => ?_
  rw [h.sameSlot hfact]
  congr 1
  exact decide_eq_decide.mpr (h.valid fact hfact)

theorem Reads.said (h : Reads s s') : said s' slot = said s slot := by
  unfold Commits.said
  rw [h.line]

theorem Reads.linked (h : Reads s s') (hlinked : Linked s) : Linked s' := by
  intro slot
  rw [h.line]
  exact hlinked slot

/-! ## A new turn -/

/-- A turn whose id is new, in a session that is there. -/
structure NewTurn (s : Store) (turn : ChatTurn) : Prop where
  name : turn.id ≠ ""
  isNew : turn.id ∉ s.turns.map (·.id)
  standing : turn.supersededByTurnId = none
  home : ∃ session ∈ s.sessions, session.id = turn.sessionId

theorem saveChatTurn_new (h : NewTurn s turn) :
    s.saveChatTurn turn = { s with turns := s.turns ++ [turn] } := by
  unfold Store.saveChatTurn
  rw [upsert_new h.isNew]

theorem supersededTurns_new (h : turn.supersededByTurnId = none) {turnId id : String} :
    turnId ∈ ({ s with turns := s.turns ++ [turn] } : Store).supersededTurns id ↔
      turnId ∈ s.supersededTurns id := by
  simp [mem_supersededTurns, or_and_right, exists_or, h, truthy]

theorem reads_new (h : turn.supersededByTurnId = none) :
    Reads s { s with turns := s.turns ++ [turn] } where
  facts := rfl
  valid _ _ := not_congr (supersededTurns_new h)
  profile _ _ := rfl

theorem wf_newTurn (h : Wf s) (hnew : NewTurn s turn) :
    Wf { s with turns := s.turns ++ [turn] } := by
  refine { h with
    turnIds := ?_
    turnNames := forall_mem_concat h.turnNames hnew.name
    home := forall_mem_concat h.home hnew.home
    source := fun fact hfact => ?_
    revises := h.revises }
  · rw [List.map_append, List.map_singleton, List.nodup_append]
    refine ⟨h.turnIds, List.nodup_singleton _, ?_⟩
    intro a ha b hb hab
    exact hnew.isNew (List.mem_singleton.mp hb ▸ hab ▸ ha)
  · obtain ⟨source, hsource, hrest⟩ := h.source fact hfact
    exact ⟨source, List.mem_append_left _ hsource, hrest⟩

theorem speaks_new (hnew : NewTurn s turn) :
    Speaks { s with turns := s.turns ++ [turn] } turn where
  known := List.mem_append_right _ (List.mem_singleton_self turn)
  live hsup := by
    rw [supersededTurns_new hnew.standing] at hsup
    obtain ⟨other, hother, -, hid, -⟩ := mem_supersededTurns.mp hsup
    exact hnew.isNew (List.mem_map.mpr ⟨other, hother, hid⟩)

/-! ## Sessions -/

theorem find?_session {session : ChatSession} {sessionId : String}
    (h : s.chatSessions.find? (·.id == sessionId) = some session) :
    session ∈ s.sessions ∧ session.id = sessionId :=
  ⟨mem_chatSessions.mp (List.mem_of_find?_eq_some h), by simpa using List.find?_some h⟩

theorem ids_saveSession {session : ChatSession} (hsession : session ∈ s.sessions)
    (updatedAt : Nat) :
    (s.saveChatSession { session with updatedAt }).sessions.map (·.id) = s.sessions.map (·.id) :=
  map_key_upsert_old (List.mem_map_of_mem (f := (·.id)) hsession)

theorem profileOf_of_mem (hids : (s.sessions.map (·.id)).Nodup) {session : ChatSession}
    (hsession : session ∈ s.sessions) : profileOf s session.id = session.profileId := by
  simp [profileOf, find?_of_mem hids hsession]

/-- A session that is saved again keeps its profile. -/
theorem profileOf_saved (h : Wf s) {session own : ChatSession} (hsession : session ∈ s.sessions)
    (updatedAt : Nat) (hown : own ∈ s.sessions) :
    profileOf (s.saveChatSession { session with updatedAt }) own.id = own.profileId := by
  have hids := ids_saveSession hsession updatedAt
  have hnodup : ((s.saveChatSession { session with updatedAt }).sessions.map (·.id)).Nodup := by
    rw [hids]
    exact h.sessionIds
  by_cases hsame : own.id = session.id
  · obtain rfl := List.inj_on_of_nodup_map h.sessionIds hown hsession hsame
    have hmem : { own with updatedAt } ∈ (s.saveChatSession { own with updatedAt }).sessions :=
      mem_upsert.mpr (Or.inl rfl)
    have hprofile := profileOf_of_mem hnodup hmem
    exact hprofile
  · exact profileOf_of_mem hnodup (mem_upsert.mpr (Or.inr ⟨hown, hsame⟩))

theorem reads_saveSession (h : Wf s) {session : ChatSession} (hsession : session ∈ s.sessions)
    (updatedAt : Nat) : Reads s (s.saveChatSession { session with updatedAt }) where
  facts := rfl
  valid _ _ := Iff.rfl
  profile fact hfact := by
    obtain ⟨own, hown, hid⟩ := h.session hfact
    rw [← hid, profileOf_saved h hsession updatedAt hown, profileOf_eq h hown]

theorem wf_saveSession (h : Wf s) {session : ChatSession} (hsession : session ∈ s.sessions)
    (updatedAt : Nat) : Wf (s.saveChatSession { session with updatedAt }) := by
  have hids := ids_saveSession hsession updatedAt
  have hreads := reads_saveSession h hsession updatedAt
  have hkept : ∀ own ∈ s.sessions,
      ∃ x ∈ (s.saveChatSession { session with updatedAt }).sessions, x.id = own.id := by
    intro own hown
    have hmem : own.id ∈ (s.saveChatSession { session with updatedAt }).sessions.map (·.id) := by
      rw [hids]
      exact List.mem_map_of_mem (f := (·.id)) hown
    exact List.mem_map.mp hmem
  refine { h with
    sessionIds := by rw [hids]; exact h.sessionIds
    sessionNames := fun x hx => ?_
    home := fun turn hturn => ?_
    source := h.source
    revises := fun fact hfact id hid => ?_ }
  · rcases mem_upsert.mp hx with rfl | ⟨hx, -⟩
    · exact h.sessionNames session hsession
    · exact h.sessionNames x hx
  · obtain ⟨own, hown, heq⟩ := h.home turn hturn
    rw [← heq]
    exact hkept own hown
  · obtain ⟨prior, hsub, hprior, hsame⟩ := h.revises fact hfact id hid
    have hprior' : prior ∈ s.facts := hsub.subset List.mem_cons_self
    exact ⟨prior, hsub, hprior, by rw [hreads.sameSlot hprior', hreads.sameSlot hfact, hsame]⟩

theorem saveChatSession_new {session : ChatSession} (hnew : session.id ∉ s.sessions.map (·.id)) :
    s.saveChatSession session = { s with sessions := s.sessions ++ [session] } := by
  unfold Store.saveChatSession
  rw [upsert_new hnew]

/-- A new session is not that of any fact. -/
theorem reads_opened (h : Wf s) (session : ChatSession) :
    Reads s { s with sessions := s.sessions ++ [session] } where
  facts := rfl
  valid _ _ := Iff.rfl
  profile fact hfact := by
    obtain ⟨own, hown, hid⟩ := h.session hfact
    have hfound := find?_of_mem h.sessionIds hown
    unfold profileOf
    rw [← hid, find?_append_of_some hfound, hfound]

theorem wf_opened (h : Wf s) {session : ChatSession} (hname : session.id ≠ "")
    (hnew : session.id ∉ s.sessions.map (·.id)) :
    Wf { s with sessions := s.sessions ++ [session] } := by
  refine { h with
    sessionIds := ?_
    sessionNames := forall_mem_concat h.sessionNames hname
    home := fun turn hturn => ?_
    source := h.source
    revises := fun fact hfact id hid => ?_ }
  · rw [List.map_append, List.map_singleton, List.nodup_append]
    refine ⟨h.sessionIds, List.nodup_singleton _, ?_⟩
    intro a ha b hb hab
    exact hnew (List.mem_singleton.mp hb ▸ hab ▸ ha)
  · obtain ⟨own, hown, hid⟩ := h.home turn hturn
    exact ⟨own, List.mem_append_left _ hown, hid⟩
  · obtain ⟨prior, hsub, hprior, hsame⟩ := h.revises fact hfact id hid
    have hprior' : prior ∈ s.facts := hsub.subset List.mem_cons_self
    have hreads := reads_opened h session
    exact ⟨prior, hsub, hprior, by rw [hreads.sameSlot hprior', hreads.sameSlot hfact, hsame]⟩

/-! ## A turn that is superseded -/

theorem mem_supersede {by' : String} {x : ChatTurn} : x ∈ (supersede s turn by').turns ↔
    x = { turn with supersededByTurnId := some by' } ∨ (x ∈ s.turns ∧ x.id ≠ turn.id) :=
  mem_upsert

theorem supersededTurns_supersede (h : Wf s) (hturn : turn ∈ s.turns) {by' : String}
    (hby : by' ≠ "") {turnId id : String} :
    turnId ∈ (supersede s turn by').supersededTurns id ↔
      turnId ∈ s.supersededTurns id ∨ (turnId = turn.id ∧ id = turn.sessionId) := by
  rw [mem_supersededTurns, mem_supersededTurns]
  constructor
  · rintro ⟨x, hx, hsession, hid, hsup⟩
    rcases mem_supersede.mp hx with rfl | ⟨hx, -⟩
    · exact Or.inr ⟨hid.symm, hsession.symm⟩
    · exact Or.inl ⟨x, hx, hsession, hid, hsup⟩
  · have hsaved : { turn with supersededByTurnId := some by' } ∈ (supersede s turn by').turns :=
      mem_supersede.mpr (Or.inl rfl)
    have htruthy : truthy (some by') = true := by simp [truthy, hby]
    rintro (⟨x, hx, hsession, hid, hsup⟩ | ⟨rfl, rfl⟩)
    · by_cases hsame : x.id = turn.id
      · obtain rfl := List.inj_on_of_nodup_map h.turnIds hx hturn hsame
        exact ⟨_, hsaved, hsession, hid, htruthy⟩
      · exact ⟨x, mem_supersede.mpr (Or.inr ⟨hx, hsame⟩), hsession, hid, hsup⟩
    · exact ⟨_, hsaved, rfl, rfl, htruthy⟩

/-- The facts of the turn are no longer valid. -/
theorem valid_supersede (h : Wf s) (hturn : turn ∈ s.turns) {by' : String} (hby : by' ≠ "")
    (hfact : fact ∈ s.facts) :
    Valid (supersede s turn by') fact ↔ Valid s fact ∧ fact.sourceTurnId ≠ turn.id := by
  unfold Valid
  rw [supersededTurns_supersede h hturn hby, not_or]
  refine and_congr_right fun _ => ?_
  constructor
  · intro hnot hsource
    obtain ⟨own, hown, hid, hsession⟩ := h.source fact hfact
    have heq : own = turn :=
      List.inj_on_of_nodup_map h.turnIds hown hturn (hid.trans hsource)
    exact hnot ⟨hsource, by rw [← hsession, heq]⟩
  · exact fun hne hboth => hne hboth.1

theorem line_supersede (h : Wf s) (hturn : turn ∈ s.turns) {by' : String} (hby : by' ≠ "") :
    line (supersede s turn by') slot =
      (line s slot).filter fun fact => fact.sourceTurnId != turn.id := by
  have hfacts : (supersede s turn by').facts = s.facts := rfl
  unfold line
  rw [hfacts, List.filter_filter]
  refine List.filter_congr fun fact hfact => ?_
  have hvalid := valid_supersede h hturn hby hfact
  have hslot : slotOf (supersede s turn by') fact = slotOf s fact := rfl
  rw [hslot]
  by_cases hv : Valid s fact <;> by_cases hne : fact.sourceTurnId = turn.id <;>
    simp [hvalid, hv, hne]

theorem said_supersede (h : Wf s) (hturn : turn ∈ s.turns) {by' : String} (hby : by' ≠ "") :
    said (supersede s turn by') slot = retract turn.id (said s slot) := by
  unfold said retract
  rw [line_supersede h hturn hby, List.filter_map]
  congr 1
  refine List.filter_congr fun fact _ => ?_
  by_cases hsource : fact.sourceTurnId = turn.id <;> simp [hsource]

theorem ids_supersede (hturn : turn ∈ s.turns) (by' : String) :
    (supersede s turn by').turns.map (·.id) = s.turns.map (·.id) :=
  map_key_upsert_old (List.mem_map_of_mem (f := (·.id)) hturn)

theorem wf_supersede (h : Wf s) (hturn : turn ∈ s.turns) (by' : String) :
    Wf (supersede s turn by') := by
  refine { h with
    turnIds := by rw [ids_supersede hturn]; exact h.turnIds
    turnNames := fun x hx => ?_
    home := fun x hx => ?_
    source := fun fact hfact => ?_
    revises := h.revises }
  · rcases mem_supersede.mp hx with rfl | ⟨hx, -⟩
    · exact h.turnNames turn hturn
    · exact h.turnNames x hx
  · rcases mem_supersede.mp hx with rfl | ⟨hx, -⟩
    · exact h.home turn hturn
    · exact h.home x hx
  · obtain ⟨own, hown, hid, hsession⟩ := h.source fact hfact
    by_cases hsame : own.id = turn.id
    · obtain rfl := List.inj_on_of_nodup_map h.turnIds hown hturn hsame
      exact ⟨_, mem_supersede.mpr (Or.inl rfl), hid, hsession⟩
    · exact ⟨own, mem_supersede.mpr (Or.inr ⟨hown, hsame⟩), hid, hsession⟩

/-- No fact of the turn stands in its line between facts of others. -/
def Apart (s : Store) (turnId : String) : Prop :=
  ∀ slot, ¬ Between (fun fact : ConversationFact => fact.sourceTurnId != turnId) (line s slot)

theorem linked_supersede (h : Wf s) (hlinked : Linked s) (hturn : turn ∈ s.turns) {by' : String}
    (hby : by' ≠ "") (hapart : Apart s turn.id) : Linked (supersede s turn by') := by
  intro slot
  rw [line_supersede h hturn hby]
  exact isChain_filter (hlinked slot) (hapart slot)

/-! ## A reply -/

/-- The facts of a reply that are committed. -/
def spoken (facts : List ConversationFact) : Option Nat → List ConversationFact
  | some n => facts.take n
  | none => facts

theorem spoken_sublist (facts : List ConversationFact) (broken : Option Nat) :
    List.Sublist (spoken facts broken) facts := by
  cases broken with
  | none => exact List.Sublist.refl facts
  | some n => exact List.take_sublist n facts

theorem extracted_candidates {reply : Reply} (h : fact ∈ candidates tables turn reply) :
    Extracted turn fact := by
  unfold candidates at h
  split at h
  · split at h
    · exact extracted h
    · cases h
  · cases h

/-- What `_persist` commits to: the tables with the turn, and with the record. -/
def recorded (s : Store) (session : ChatSession) (message : String) (reply : Reply) : Store :=
  let s := s.saveChatTurn (turnOf s session.id message reply)
  match reply.record session.id with
  | some record =>
    if reply.route ≠ "RLM_RECOVERY" then s.saveConversationInterpretation record else s
  | none => s

theorem recorded_eq (s : Store) (session : ChatSession) (message : String) (reply : Reply) :
    ∃ interpretations, recorded s session message reply =
      { s.saveChatTurn (turnOf s session.id message reply) with interpretations } := by
  unfold recorded
  split
  · split
    · exact ⟨_, rfl⟩
    · exact ⟨_, rfl⟩
  · exact ⟨_, rfl⟩

theorem newTurn_turnOf {session : ChatSession} (hsession : session ∈ s.sessions)
    (message : String) {reply : Reply} {built : List ConversationFact}
    (hfresh : reply.Fresh s built) : NewTurn s (turnOf s session.id message reply) :=
  ⟨hfresh.turn.1, hfresh.turn.2, rfl, session, hsession, rfl⟩

theorem wf_interpretations (h : Wf s) (interpretations : List ConversationInterpretationRecord) :
    Wf { s with interpretations } :=
  { h with home := h.home, source := h.source, revises := h.revises }

/-- What holds once the turn of a reply is in the tables. -/
theorem recorded_spec (h : Wf s) {session : ChatSession} (hsession : session ∈ s.sessions)
    (message : String) {reply : Reply} {built : List ConversationFact}
    (hfresh : reply.Fresh s built) :
    let turn := turnOf s session.id message reply
    let s' := recorded s session message reply
    Wf s' ∧ Speaks s' turn ∧ Reads s s' ∧ s'.sessions = s.sessions ∧ s'.turns = s.turns ++ [turn] := by
  intro turn s'
  have hnew := newTurn_turnOf hsession message hfresh
  obtain ⟨interpretations, heq⟩ := recorded_eq s session message reply
  have hs' : s' = { s with turns := s.turns ++ [turn], interpretations } := by
    change recorded s session message reply = _
    rw [heq, saveChatTurn_new hnew]
  rw [hs']
  refine ⟨wf_interpretations (wf_newTurn h hnew) interpretations, ?_, ?_, rfl, rfl⟩
  · have hspeaks := speaks_new hnew
    exact ⟨hspeaks.known, hspeaks.live⟩
  · have hreads := reads_new (s := s) hnew.standing
    exact ⟨rfl, hreads.valid, fun _ _ => rfl⟩

theorem candidates_of_fresh (hextracted : ∀ fact ∈ facts, Extracted turn fact)
    (hnew : ∀ fact ∈ facts, fact.id ≠ "" ∧ fact.id ∉ s.facts.map (·.id))
    (hnodup : (facts.map (·.id)).Nodup) : Candidates s turn facts where
  each fact hfact :=
    { hextracted fact hfact with name := (hnew fact hfact).1, isNew := (hnew fact hfact).2 }
  distinct := hnodup

/-- The tables after the commit of a reply, up to the time of the session. -/
def committedReply (tables : CaseTables) (s : Store) (session : ChatSession) (message : String)
    (reply : Reply) (broken : Option Nat) : Store :=
  let turn := turnOf s session.id message reply
  commitFacts tables (recorded s session message reply) turn
    (spoken (candidates tables turn reply) broken)

theorem persist_eq (tables : CaseTables) (s : Store) (session : ChatSession) (message : String)
    (reply : Reply) (broken : Option Nat) :
    persist tables s session message reply broken =
      match broken with
      | some _ => committedReply tables s session message reply broken
      | none => (committedReply tables s session message reply broken).saveChatSession
          { session with updatedAt := reply.updatedAt } := by
  cases broken <;> rfl

/-- What a reply leaves: a turn that speaks, and in linked lines the values of
its facts, said one after the other. -/
structure Replied (tables : CaseTables) (s : Store) (turn : ChatTurn)
    (facts : List ConversationFact) (s' : Store) : Prop where
  wf : Wf s'
  speaks : Speaks s' turn
  turns : s'.turns = s.turns ++ [turn]
  sessions : s'.sessions.map (·.id) = s.sessions.map (·.id)
  profile : ∀ session ∈ s.sessions, profileOf s' session.id = profileOf s session.id
  ids : ∀ id ∈ s'.facts.map (·.id), id ∈ s.facts.map (·.id) ∨ id ∈ facts.map (·.id)
  linked : Linked s → Linked s'
  said : Linked s → ∀ slot,
    said s' slot = sayAll (Same tables) turn.id (stated s turn facts slot) (said s slot)

/-- The facts of a reply may be committed once its turn is in the tables. -/
theorem recorded_candidates (h : Wf s) {session : ChatSession} (hsession : session ∈ s.sessions)
    (message : String) {reply : Reply} {built : List ConversationFact}
    (hfresh : reply.Fresh s built) (broken : Option Nat)
    (hbuilt : List.Sublist (candidates tables (turnOf s session.id message reply) reply) built) :
    let turn := turnOf s session.id message reply
    Candidates (recorded s session message reply) turn
      (spoken (candidates tables turn reply) broken) := by
  intro turn
  obtain ⟨-, -, hreads, -⟩ := recorded_spec h hsession message hfresh
  have hsub := (spoken_sublist (candidates tables turn reply) broken).trans hbuilt
  refine candidates_of_fresh (fun fact hfact => ?_) (fun fact hfact => ?_)
    (hfresh.distinct.sublist (hsub.map _))
  · exact extracted_candidates ((spoken_sublist _ broken).subset hfact)
  · rw [hreads.facts]
    exact hfresh.facts fact (hsub.subset hfact)

theorem replied_committed (tables : CaseTables) (h : Wf s) {session : ChatSession} (hsession : session ∈ s.sessions)
    (message : String) {reply : Reply} {built : List ConversationFact}
    (hfresh : reply.Fresh s built) (broken : Option Nat)
    (hbuilt : List.Sublist (candidates tables (turnOf s session.id message reply) reply) built) :
    let turn := turnOf s session.id message reply
    let s' := committedReply tables s session message reply broken
    Replied tables s turn (spoken (candidates tables turn reply) broken) s' ∧
      s'.sessions = s.sessions := by
  intro turn s'
  obtain ⟨hwf, hspeaks, hreads, hsessions, hturns⟩ := recorded_spec h hsession message hfresh
  have hcandidates := recorded_candidates h hsession message hfresh broken hbuilt
  obtain ⟨hwf', htables, hids⟩ := committed tables hwf hspeaks hcandidates
  have hkept : s'.sessions = s.sessions := by
    change (committedReply ..).sessions = _
    rw [committedReply, htables, hsessions]
  refine ⟨⟨hwf', ?_, ?_, by rw [hkept], fun own _ => ?_, ?_, fun hlinked => ?_,
    fun hlinked slot => ?_⟩, hkept⟩
  · change Speaks (committedReply ..) _
    rw [committedReply, htables]
    exact ⟨hspeaks.known, hspeaks.live⟩
  · change (committedReply ..).turns = _
    rw [committedReply, htables, hturns]
  · unfold profileOf
    rw [hkept]
  · rw [hreads.facts] at hids
    exact hids
  · exact (said_committed tables hwf (hreads.linked hlinked) hspeaks hcandidates).1
  · have hsaid := (said_committed tables hwf (hreads.linked hlinked) hspeaks hcandidates).2 slot
    have hstated : stated (recorded s session message reply) turn
        (spoken (candidates tables turn reply) broken) slot =
        stated s turn (spoken (candidates tables turn reply) broken) slot := by
      unfold stated slotFor slotAt profileOf
      rw [hsessions]
    change Commits.said (committedReply ..) slot = _
    rw [committedReply, hsaid, hreads.said, hstated]

/-- Saving the session again changes no line. -/
theorem Replied.saveSession {facts : List ConversationFact} {s' : Store}
    (h : Replied tables s turn facts s') {session : ChatSession} (hsession : session ∈ s'.sessions)
    (updatedAt : Nat) :
    Replied tables s turn facts (s'.saveChatSession { session with updatedAt }) := by
  have hreads := reads_saveSession h.wf hsession updatedAt
  refine ⟨wf_saveSession h.wf hsession updatedAt, ⟨h.speaks.known, h.speaks.live⟩, h.turns, ?_,
    fun own hown => ?_, h.ids, fun hlinked => hreads.linked (h.linked hlinked),
    fun hlinked slot => ?_⟩
  · rw [ids_saveSession hsession, h.sessions]
  · have hown' : own.id ∈ s'.sessions.map (·.id) := by
      rw [h.sessions]
      exact List.mem_map_of_mem (f := (·.id)) hown
    obtain ⟨x, hx, hid⟩ := List.mem_map.mp hown'
    rw [← hid, profileOf_saved h.wf hsession updatedAt hx, ← profileOf_eq h.wf hx, hid,
      h.profile own hown]
  · rw [hreads.said, h.said hlinked]

/-- `_persist` says the values of the reply. -/
theorem replied_persist (tables : CaseTables) (h : Wf s) {session : ChatSession} (hsession : session ∈ s.sessions)
    (message : String) {reply : Reply} {built : List ConversationFact}
    (hfresh : reply.Fresh s built) (broken : Option Nat)
    (hbuilt : List.Sublist (candidates tables (turnOf s session.id message reply) reply) built) :
    let turn := turnOf s session.id message reply
    Replied tables s turn (spoken (candidates tables turn reply) broken)
      (persist tables s session message reply broken) := by
  intro turn
  obtain ⟨hreplied, hsessions⟩ := replied_committed tables h hsession message hfresh broken hbuilt
  rw [persist_eq]
  cases broken with
  | some n => exact hreplied
  | none =>
    refine hreplied.saveSession ?_ reply.updatedAt
    rw [hsessions]
    exact hsession

end RlmGraph.Memory.Turns
