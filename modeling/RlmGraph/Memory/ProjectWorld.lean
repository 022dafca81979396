import RlmGraph.Memory.Support

/-! # Conversation facts in project work

`ProjectWorldMemory` links facts of a conversation to projects and reads which
of them are current by code of its own. What it reads is what the conversation
memory of the owner returns as active. -/
namespace RlmGraph.Memory.ProjectWorld

open RlmGraph.Lib RlmGraph.Lib.PyText RlmGraph.Lib.Rows RlmGraph.Lib.Interleavings
open RlmGraph.Memory.Conversation RlmGraph.Memory.Facts RlmGraph.Memory.Chat
open RlmGraph.Memory.Lines RlmGraph.Memory.Commits RlmGraph.Memory.Turns RlmGraph.Memory.Retries
open RlmGraph.Memory.OneFact RlmGraph.Memory.Support

/-- A row of `world_fact_links`. -/
structure FactLink where
  projectId : String
  sessionId : String
  factId : String
  actor : String
  deriving DecidableEq

/-- The conversation, the connected projects and the links. -/
structure World where
  store : Store := {}
  projects : List String := []
  links : List FactLink := []

section
local instance lawfulReferences : LawfulBEq (Option String) := inferInstance

/-- `_current_facts`. -/
def currentFacts (s : Store) (sessionId : String) : List ConversationFact :=
  let owner := (s.chatSessions.find? (·.id == sessionId)).map (·.profileId)
  let sessions := s.chatSessions.filter fun session => some session.profileId == owner
  let allFacts := sessions.flatMap fun session => s.conversationFacts session.id
  let supersededTurns := sessions.flatMap fun session =>
    ((s.chatTurns session.id).filter fun turn => truthy turn.supersededByTurnId).map (·.id)
  let valid := allFacts.filter fun fact => fact.sourceTurnId ∉ supersededTurns
  let superseded := (valid.filter fun fact => truthy fact.supersedesFactId).map (·.supersedesFactId)
  valid.filter fun fact => fact.sessionId == sessionId && decide (some fact.id ∉ superseded)

end

def checkProject (w : World) (projectId : String) : Except PyError Unit :=
  if projectId ∈ w.projects then .ok ()
  else .error (.value "Select a connected project for this lesson.")

/-- `link`. -/
def link (w : World) (projectId sessionId factId actor : String) (ownsLegacy : Bool) :
    Except PyError World := do
  checkProject w projectId
  let some session := w.store.chatSessions.find? (·.id == sessionId)
    | throw (.os "This conversation does not belong to the signed-in profile.")
  if session.profileId ≠ actor ∧ ¬ (ownsLegacy ∧ session.profileId = "LOCAL-LEGACY") then
    throw (.os "This conversation does not belong to the signed-in profile.")
  if (currentFacts w.store sessionId).all (·.id != factId) then
    throw (.value "Only current conversation facts can be shared with project work.")
  let linked := w.links.any fun row => row.projectId == projectId && row.factId == factId
  if !linked && 1000 ≤ w.links.length then
    throw (.value "The 1000 project-fact link limit is reached.")
  if linked then return w
  else return { w with links := w.links ++ [{ projectId, sessionId, factId, actor }] }

/-- The conversation facts among the records of `search`, before they are
compared with the query. -/
def candidateFacts (w : World) (projectId : String) : Except PyError (List ConversationFact) := do
  checkProject w projectId
  return (w.links.filter (·.projectId == projectId)).filterMap fun row =>
    (currentFacts w.store row.sessionId).reverse.find? (·.id == row.factId)

/-! ## Runs -/

inductive Event where
  | chat (event : Chat.Event)
  | connected (projectId : String)
  | linked (projectId sessionId factId actor : String) (ownsLegacy : Bool)

def step (tables : CaseTables) (w : World) : Event → World
  | .chat event => { w with store := Chat.step tables w.store event }
  | .connected projectId => { w with projects := w.projects ++ [projectId] }
  | .linked projectId sessionId factId actor ownsLegacy =>
    match link w projectId sessionId factId actor ownsLegacy with
    | .ok w' => w'
    | .error _ => w

def after (tables : CaseTables) (events : List Event) : World := events.foldl (step tables) {}

/-- The ids a conversation event draws are new. -/
def Fresh (tables : CaseTables) (w : World) : Event → Prop
  | .chat event => Chat.Fresh tables w.store event
  | _ => True

/-! ## The same facts -/

variable {s : Store} {fact : ConversationFact} {tables : CaseTables}

theorem find?_chatSessions (h : Wf s) {session : ChatSession} (hsession : session ∈ s.sessions) :
    s.chatSessions.find? (·.id == session.id) = some session := by
  have hids : (s.chatSessions.map (·.id)).Nodup :=
    ((List.mergeSort_perm _ _).map _).nodup_iff.mpr h.sessionIds
  exact find?_of_mem hids (mem_chatSessions.mpr hsession)

theorem mem_unreplaced_congr {facts others : List ConversationFact}
    (h : ∀ x, x ∈ facts ↔ x ∈ others) :
    fact ∈ Store.unreplaced facts ↔ fact ∈ Store.unreplaced others := by
  simp only [Store.unreplaced, List.mem_filter, List.mem_map, decide_eq_true_eq, h]

/-- The turns of all sessions of a profile withdraw the same facts as those of
the own session. -/
theorem valid_iff (h : Wf s) (hfact : fact ∈ s.facts) {sessions : List ChatSession}
    (hown : ∃ session ∈ sessions, session.id = fact.sessionId) :
    fact.sourceTurnId ∉ (sessions.flatMap fun session => s.supersededTurns session.id) ↔
      Valid s fact := by
  unfold Valid
  refine not_congr ⟨fun hmem => ?_, fun hmem => ?_⟩
  · obtain ⟨session, hsession, hsup⟩ := List.mem_flatMap.mp hmem
    obtain ⟨turn, hturn, hid, hsource, htruthy⟩ := mem_supersededTurns.mp hsup
    obtain ⟨own, hownmem, hownid, hownsession⟩ := h.source fact hfact
    obtain rfl : own = turn :=
      List.inj_on_of_nodup_map h.turnIds hownmem hturn (hownid.trans hsource.symm)
    exact mem_supersededTurns.mpr ⟨own, hturn, hownsession, hownid, htruthy⟩
  · obtain ⟨session, hsession, hid⟩ := hown
    exact List.mem_flatMap.mpr ⟨session, hsession, hid ▸ hmem⟩

/-- The current facts of a session are the active facts of its profile that
belong to it. -/
theorem mem_currentFacts (h : Wf s) {session : ChatSession} (hsession : session ∈ s.sessions) :
    fact ∈ currentFacts s session.id ↔
      fact ∈ s.activeAllFacts (some session.id) none ∧ fact.sessionId = session.id := by
  let sessions := s.chatSessions.filter fun other => some other.profileId == some session.profileId
  have hmem : ∀ other, other ∈ sessions ↔
      other ∈ s.sessions ∧ other.profileId = session.profileId := by
    intro other
    simp [sessions]
  let valid := (sessions.flatMap fun other => s.conversationFacts other.id).filter fun fact =>
    fact.sourceTurnId ∉ sessions.flatMap fun other => s.supersededTurns other.id
  -- the facts that are read are the same, whatever their order
  have hvalid : ∀ x, x ∈ valid ↔ x ∈ s.globalItems (some session.id) none := by
    intro x
    rw [mem_globalItems, mem_globalSessions h hsession, List.mem_filter, List.mem_flatMap,
      decide_eq_true_eq]
    constructor
    · rintro ⟨⟨other, hother, hx⟩, hsource⟩
      obtain ⟨hx, hid⟩ := mem_conversationFacts.mp hx
      obtain ⟨hin, hprofile⟩ := (hmem other).mp hother
      exact ⟨hx, ⟨other, hin, hid.symm, hprofile⟩,
        (valid_iff h hx ⟨other, hother, hid.symm⟩).mp hsource⟩
    · rintro ⟨hx, ⟨other, hin, hid, hprofile⟩, hstays⟩
      have hother := (hmem other).mpr ⟨hin, hprofile⟩
      exact ⟨⟨other, hother, mem_conversationFacts.mpr ⟨hx, hid.symm⟩⟩,
        (valid_iff h hx ⟨other, hother, hid⟩).mpr hstays⟩
  let superseded := (valid.filter fun fact => truthy fact.supersedesFactId).map
    (·.supersedesFactId)
  have hcurrent : currentFacts s session.id = valid.filter fun fact =>
      fact.sessionId == session.id && decide (some fact.id ∉ superseded) := by
    unfold currentFacts
    rw [find?_chatSessions h hsession]
    rfl
  have hsplit : currentFacts s session.id =
      (Store.unreplaced valid).filter (·.sessionId == session.id) := by
    rw [hcurrent]
    exact List.filter_filter.symm
  rw [hsplit, List.mem_filter, beq_iff_eq]
  exact and_congr_left' (mem_unreplaced_congr hvalid)

/-- The active facts of a profile do not depend on which of its sessions asks. -/
theorem activeAllFacts_profile (h : Wf s) {session other : ChatSession}
    (hsession : session ∈ s.sessions) (hother : other ∈ s.sessions)
    (hprofile : other.profileId = session.profileId) :
    fact ∈ s.activeAllFacts (some other.id) none ↔
      fact ∈ s.activeAllFacts (some session.id) none := by
  have hitems : ∀ x, x ∈ s.globalItems (some other.id) none ↔
      x ∈ s.globalItems (some session.id) none := by
    intro x
    rw [mem_globalItems, mem_globalItems, mem_globalSessions h hother,
      mem_globalSessions h hsession, hprofile]
  exact mem_unreplaced_congr hitems

/-! ## Links -/

/-- Each link is of a fact that is there, in its session, to a project that is
connected. -/
def Grounded (w : World) : Prop :=
  ∀ row ∈ w.links, row.projectId ∈ w.projects ∧
    ∃ fact ∈ w.store.facts, fact.id = row.factId ∧ fact.sessionId = row.sessionId

theorem link_spec {w w' : World} {projectId sessionId factId actor : String} {ownsLegacy : Bool}
    (h : Wf w.store) (hlink : link w projectId sessionId factId actor ownsLegacy = .ok w') :
    projectId ∈ w.projects ∧
      (∃ fact ∈ w.store.facts, fact.id = factId ∧ fact.sessionId = sessionId) ∧
      (w' = w ∨ w' = { w with links := w.links ++ [{ projectId, sessionId, factId, actor }] }) := by
  unfold link checkProject at hlink
  split at hlink
  next hproject =>
    simp only [bind, Except.bind, pure, Except.pure, throw, throwThe, MonadExceptOf.throw] at hlink
    split at hlink
    next session hfound =>
      obtain ⟨hsession, rfl⟩ := find?_session hfound
      split at hlink
      · cases hlink
      split at hlink
      · cases hlink
      next hall =>
        obtain ⟨fact, hcurrent, hid⟩ : ∃ fact ∈ currentFacts w.store session.id,
            fact.id = factId := by
          simpa using hall
        obtain ⟨hactive, hown⟩ := (mem_currentFacts h hsession).mp hcurrent
        have hfact := (mem_globalItems.mp (List.mem_of_mem_filter hactive)).1
        refine ⟨hproject, ⟨fact, hfact, hid, hown⟩, ?_⟩
        split at hlink
        · cases hlink
        split at hlink
        · exact Or.inl (Except.ok.inj hlink).symm
        · exact Or.inr (Except.ok.inj hlink).symm
    next => cases hlink
  next => cases hlink

/-- Facts stay in the tables, in their sessions. -/
theorem facts_stay (h : Wf s) {e : Chat.Event} (hfresh : Chat.Fresh tables s e) :
    ∀ x ∈ s.facts, ∃ y ∈ (Chat.step tables s e).facts, Alike x y := by
  have hstep := step_spec h hfresh
  generalize Chat.step tables s e = s' at hstep ⊢
  intro x hx
  cases hstep with
  | nothing => exact ⟨x, hx, Alike.refl x⟩
  | opened session hname hnew => exact ⟨x, hx, Alike.refl x⟩
  | replied session hsession message reply broken built hids hbuilt =>
    obtain ⟨f, more, hgrown⟩ := grown_persist tables h hsession message hids broken hbuilt
    refine ⟨f x, ?_, hgrown.alike x⟩
    rw [hgrown.facts]
    exact List.mem_append_left _ (List.mem_map_of_mem hx)
  | undone session hsession previous hlatest reply built hids hbuilt =>
    obtain ⟨f, more, hgrown⟩ :=
      grown_persist tables h hsession previous.userMessage hids none hbuilt
    refine ⟨f x, ?_, hgrown.alike x⟩
    change f x ∈ (persist tables s session previous.userMessage reply none).facts
    rw [hgrown.facts]
    exact List.mem_append_left _ (List.mem_map_of_mem hx)
  | redone session previous reply again turnId profileId includeLegacyMemory he hlatest hroute
      hids =>
    obtain ⟨hsession, -, hlast⟩ := latestAnswer_ok hlatest
    have hprevious := (mem_liveTurns.mp (List.mem_of_getLast? hlast)).1
    obtain ⟨f, more, -, hcarried, -⟩ :=
      grown_redo h hsession hprevious (not_recovery hroute) hids
    exact ⟨f x, hcarried.mem hx, hcarried.alike x⟩

theorem step_grounded {w : World} (h : Wf w.store) (hw : Grounded w) {e : Event}
    (hfresh : Fresh tables w e) : Wf (step tables w e).store ∧ Grounded (step tables w e) := by
  cases e with
  | chat event =>
    refine ⟨(step_keeps h hfresh).1, fun row hrow => ?_⟩
    obtain ⟨hproject, fact, hfact, hid, hsession⟩ := hw row hrow
    obtain ⟨y, hy, halike⟩ := facts_stay h hfresh fact hfact
    refine ⟨hproject, y, hy, halike.id.trans hid, ?_⟩
    rw [halike]
    exact hsession
  | connected projectId =>
    refine ⟨h, fun row hrow => ?_⟩
    obtain ⟨hproject, hrest⟩ := hw row hrow
    exact ⟨List.mem_append_left _ hproject, hrest⟩
  | linked projectId sessionId factId actor ownsLegacy =>
    unfold step
    dsimp only
    split
    next w' hlink =>
      obtain ⟨hproject, hfact, rfl | rfl⟩ := link_spec h hlink
      · exact ⟨h, hw⟩
      · exact ⟨h, forall_mem_concat hw ⟨hproject, hfact⟩⟩
    next => exact ⟨h, hw⟩

theorem grounded_after {events : List Event}
    (h : Along (Fresh tables) (step tables) {} events) :
    Wf (after tables events).store ∧ Grounded (after tables events) :=
  h.keeps (I := fun w => Wf w.store ∧ Grounded w)
    (fun _ _ hw hfresh => step_grounded hw.1 hw.2 hfresh)
    ⟨wf_start, fun _ hrow => absurd hrow List.not_mem_nil⟩

theorem mem_candidateFacts {w : World} (hwf : Wf w.store) (hgrounded : Grounded w)
    {row : FactLink} (hrow : row ∈ w.links) (hfact : fact ∈ w.store.facts)
    (hid : fact.id = row.factId) {session : ChatSession} (hsession : session ∈ w.store.sessions)
    (hown : session.id = fact.sessionId) :
    ∃ facts, candidateFacts w row.projectId = .ok facts ∧
      (fact ∈ facts ↔ fact ∈ w.store.activeAllFacts (some session.id) none) := by
  have hproject := (hgrounded row hrow).1
  refine ⟨_, by simp [candidateFacts, checkProject, hproject, bind, Except.bind, pure,
    Except.pure]; rfl, ?_⟩
  have hlinks : ∀ link ∈ w.links, link.factId = fact.id → link.sessionId = session.id := by
    intro link hlink hlinkid
    obtain ⟨-, other, hother, hotherid, hothersession⟩ := hgrounded link hlink
    obtain rfl := hwf.fact_eq hother hfact (hotherid.trans hlinkid)
    exact hothersession.symm.trans hown.symm
  simp only [List.mem_filterMap, List.mem_filter, beq_iff_eq]
  constructor
  · rintro ⟨link, ⟨hlink, -⟩, hfound⟩
    have hfid : fact.id = link.factId := by simpa using List.find?_some hfound
    have hcurrent : fact ∈ currentFacts w.store link.sessionId :=
      List.mem_reverse.mp (List.mem_of_find?_eq_some hfound)
    rw [hlinks link hlink hfid.symm] at hcurrent
    exact ((mem_currentFacts hwf hsession).mp hcurrent).1
  · intro hactive
    refine ⟨row, ⟨hrow, rfl⟩, ?_⟩
    have hcurrent := (mem_currentFacts hwf hsession).mpr ⟨hactive, hown.symm⟩
    rw [hlinks row hrow hid.symm, ← hid]
    cases hfound : (currentFacts w.store session.id).reverse.find? (·.id == fact.id) with
    | none =>
      have hnot := List.find?_eq_none.mp hfound fact (List.mem_reverse.mpr hcurrent)
      simp at hnot
    | some other =>
      have hin := List.mem_reverse.mp (List.mem_of_find?_eq_some hfound)
      have hother := ((mem_currentFacts hwf hsession).mp hin).1
      have hotherid : other.id = fact.id := by simpa using List.find?_some hfound
      have hmem := (mem_globalItems.mp (List.mem_of_mem_filter hother)).1
      rw [hwf.fact_eq hmem hfact hotherid]

/-- In every run whose ids are new, the current facts of a session are the
active facts of its profile that belong to it, and a linked fact is a candidate
of its project iff it is among the active facts of its owner, whichever session
of the owner asks. -/
theorem candidate_iff_active {events : List Event}
    (h : Along (Fresh tables) (step tables) {} events) :
    let w := after tables events
    (∀ session ∈ w.store.sessions, ∀ fact, fact ∈ currentFacts w.store session.id ↔
      fact ∈ w.store.activeAllFacts (some session.id) none ∧ fact.sessionId = session.id) ∧
    ∀ row ∈ w.links, (∃ fact ∈ w.store.facts, fact.id = row.factId) ∧
      ∀ fact ∈ w.store.facts, fact.id = row.factId →
        ∃ owner ∈ w.store.sessions, owner.id = fact.sessionId ∧
          ∃ facts, candidateFacts w row.projectId = .ok facts ∧
            ∀ session ∈ w.store.sessions, session.profileId = owner.profileId →
              (fact ∈ facts ↔ fact ∈ w.store.activeAllFacts (some session.id) none) := by
  intro w
  obtain ⟨hwf, hgrounded⟩ := grounded_after h
  refine ⟨fun session hsession fact => mem_currentFacts hwf hsession, fun row hrow => ⟨?_, ?_⟩⟩
  · obtain ⟨-, fact, hfact, hid, -⟩ := hgrounded row hrow
    exact ⟨fact, hfact, hid⟩
  · intro fact hfact hid
    obtain ⟨owner, howner, hown⟩ := hwf.session hfact
    obtain ⟨facts, hfacts, hiff⟩ := mem_candidateFacts hwf hgrounded hrow hfact hid howner hown
    refine ⟨owner, howner, hown, facts, hfacts, fun session hsession hprofile => ?_⟩
    rw [hiff, activeAllFacts_profile hwf howner hsession hprofile]

/-- The answer that remembers nothing in the place of the one that stated tea. -/
def forgetting : Chat.Event :=
  .retried "S" "T1" "P" false (.answered (drink "T3" "I3" "F3" 3 [])) fun _ => ("F4", 4)

/-- Tea is stated, confirmed and shared with a project; then the answer that
stated it is replaced. -/
def shared : List Event :=
  (confirmed.take 4).map .chat ++
    [.connected "X", .linked "X" "S" "F1" "P" false, .chat forgetting]

theorem link_tea : link { store := teaConfirmed, projects := ["X"] } "X" "S" "F1" "P" false =
    .ok { store := teaConfirmed, projects := ["X"], links := [⟨"X", "S", "F1", "P"⟩] } := by
  have hfacts : currentFacts teaConfirmed "S" = [teaFact ["T2"] (some 2)] := by
    simp [currentFacts, Store.chatSessions, Store.conversationFacts, Store.chatTurns, teaConfirmed,
      room, helloTurn, teaFact, truthy, List.mergeSort, List.MergeSort.Internal.splitInTwo]
  have hfound : teaConfirmed.chatSessions.find? (·.id == "S") = some (room "S" 1) := by
    simp [Store.chatSessions, teaConfirmed, room, List.mergeSort,
      List.MergeSort.Internal.splitInTwo]
  unfold link
  simp [hfacts, hfound, checkProject, room, teaFact, bind, Except.bind, pure, Except.pure]

theorem after_shared : after plain shared =
    { store := teaLost, projects := ["X"], links := [⟨"X", "S", "F1", "P"⟩] } := by
  simp [after, shared, confirmed, forgetting, step, step_rooms, step_stated, step_confirmed,
    step_lost, link_tea]

theorem fresh_shared : Along (Fresh plain) (step plain) {} shared := by
  obtain ⟨hs, hr, hstated, hconfirmed, hlost, -⟩ := fresh_confirmed
  refine ⟨hs, hr, hstated, hconfirmed, trivial, trivial, ?_, trivial⟩
  simpa [step, step_rooms, step_stated, step_confirmed, link_tea, forgetting, Fresh] using hlost

/-- What was shared and then withdrawn is no candidate. -/
theorem withdrawn_fact_is_no_candidate : ∃ facts,
    candidateFacts (after plain shared) "X" = .ok facts ∧ teaFact ["T2"] (some 2) ∉ facts := by
  have hrow : (⟨"X", "S", "F1", "P"⟩ : FactLink) ∈ (after plain shared).links := by
    simp [after_shared]
  have hfact : teaFact ["T2"] (some 2) ∈ (after plain shared).store.facts := by
    simp [after_shared, teaLost]
  obtain ⟨owner, howner, hown, facts, hfacts, hiff⟩ :=
    ((candidate_iff_active fresh_shared).2 _ hrow).2 _ hfact rfl
  refine ⟨facts, hfacts, fun hin => tea_not_read ?_⟩
  have hread := (hiff owner howner rfl).mp hin
  rwa [hown, after_shared] at hread

end RlmGraph.Memory.ProjectWorld
